import ApiSurvey.FileTree.Update
import ApiSurvey.Proofs.Sequence

/-! Changing a tree at the end of plain names. What stands elsewhere is left as it was,
and names that led to a directory before still lead to one, also where their way goes
upwards. -/
namespace ApiSurvey

namespace Keyed

variable {α : Type}

theorem lookup_set_self (entries : List (String × α)) (key : String) (value : α) :
    (set entries key value).lookup key = some value := by
  induction entries with
  | nil => simp [set]
  | cons entry entries ih =>
      obtain ⟨other, old⟩ := entry
      rw [set]
      by_cases hOther : other = key
      · simp [hOther]
      · have hKey : (key == other) = false := by simpa using Ne.symm hOther
        simp [hOther, List.lookup_cons, hKey, ih]

theorem lookup_set_of_ne (entries : List (String × α)) {key other : String} (value : α)
    (hOther : other ≠ key) : (set entries key value).lookup other = entries.lookup other := by
  induction entries with
  | nil => simp [set, List.lookup_cons, beq_false_of_ne hOther]
  | cons entry entries ih =>
      obtain ⟨first, old⟩ := entry
      rw [set]
      by_cases hFirst : first = key
      · subst hFirst
        simp [List.lookup_cons, beq_false_of_ne hOther]
      · simp only [beq_false_of_ne hFirst, Bool.false_eq_true, if_false, List.lookup_cons,
          ih]

end Keyed

namespace FileTree

@[simp] theorem get?_nil (tree : FileTree) : tree.get? [] = some tree := by
  rw [get?]

theorem get?_cons (tree : FileTree) (name : String) (names : List String) :
    tree.get? (name :: names) = (child? tree.entriesOf name).bind (·.get? names) := by
  cases tree <;> simp [get?, entriesOf, child?]

theorem get?_append (tree : FileTree) (names more : List String) :
    tree.get? (names ++ more) = (tree.get? names).bind (·.get? more) := by
  induction names generalizing tree with
  | nil => simp
  | cons name names ih =>
      rw [List.cons_append, get?_cons, get?_cons]
      cases child? tree.entriesOf name with
      | none => rfl
      | some next => exact ih next

/-- The last of some names is looked up in what the others lead to. -/
theorem get?_concat (tree : FileTree) (names : List String) (name : String) :
    tree.get? (names ++ [name]) = (tree.get? names).bind (child? ·.entriesOf name) := by
  simp [get?_append, get?_cons]

/-- What stands below something that is no directory. -/
theorem get?_eq_none_of_not_directory {tree : FileTree}
    (hTree : ∀ entries, tree ≠ .directory entries) {names : List String} (hNames : names ≠ []) :
    tree.get? names = none := by
  cases tree with
  | directory entries => exact (hTree entries rfl).elim
  | file content =>
      cases names with
      | nil => exact (hNames rfl).elim
      | cons name names => simp [get?]

/-- Something is put below the entry that has the first name, or below an empty
directory if there is none. -/
theorem child?_insert_self (tree : FileTree) (name : String) (names : List String)
    (new : FileTree) :
    child? (tree.insert (name :: names) new).entriesOf name =
      some (((child? tree.entriesOf name).getD empty).insert names new) := by
  simp [insert, entriesOf, child?, Keyed.lookup_set_self]

/-- Entries with other names stay. -/
theorem child?_insert_of_ne (tree : FileTree) {name other : String} (hOther : other ≠ name)
    (names : List String) (new : FileTree) :
    child? (tree.insert (name :: names) new).entriesOf other = child? tree.entriesOf other := by
  simp [insert, entriesOf, child?, Keyed.lookup_set_of_ne _ _ hOther]

/-- Below the place where something is put, there is what is below it. -/
theorem get?_insert_append (tree : FileTree) (names more : List String) (new : FileTree) :
    (tree.insert names new).get? (names ++ more) = new.get? more := by
  induction names generalizing tree with
  | nil => rfl
  | cons name names ih =>
      rw [List.cons_append, get?_cons, child?_insert_self]
      exact ih _

/-- Names that go another way than the names of something new. -/
theorem get?_insert_of_apart (tree : FileTree) {names other : List String} (new : FileTree)
    (hBelow : ¬ names <+: other) (hAbove : ¬ other <+: names) :
    (tree.insert names new).get? other = tree.get? other := by
  induction names generalizing tree other with
  | nil => exact (hBelow List.nil_prefix).elim
  | cons name names ih =>
      cases other with
      | nil => exact (hAbove List.nil_prefix).elim
      | cons first other =>
          rw [get?_cons, get?_cons]
          by_cases hFirst : first = name
          · subst hFirst
            simp only [List.cons_prefix_cons, true_and] at hBelow hAbove
            rw [child?_insert_self, Option.bind_some, ih _ hBelow hAbove]
            cases child? tree.entriesOf first with
            | some next => rfl
            | none =>
                have hSome : other ≠ [] := by
                  rintro rfl
                  exact hAbove List.nil_prefix
                obtain ⟨second, others, rfl⟩ := List.exists_cons_of_ne_nil hSome
                rfl
          · rw [child?_insert_of_ne tree hFirst]

/-- Above the place where something is put, there are directories. -/
theorem get?_insert_of_above (tree : FileTree) (names more : List String) (new : FileTree)
    (hMore : more ≠ []) :
    ∃ entries, (tree.insert (names ++ more) new).get? names = some (.directory entries) := by
  induction names generalizing tree with
  | nil =>
      obtain ⟨name, names, rfl⟩ := List.exists_cons_of_ne_nil hMore
      exact ⟨_, rfl⟩
  | cons name names ih =>
      rw [List.cons_append, get?_cons, child?_insert_self]
      exact ih _

/-- What a change may do that touches no file: every directory stays where it is,
and so does every file. -/
structure Extends (before after : FileTree) : Prop where
  directories : ∀ names entries, before.get? names = some (.directory entries) →
    ∃ others, after.get? names = some (.directory others)
  files : ∀ names content, before.get? names = some (.file content) ↔
    after.get? names = some (.file content)

theorem Extends.refl (tree : FileTree) : Extends tree tree :=
  ⟨fun _ entries hDirectory => ⟨entries, hDirectory⟩, fun _ _ => Iff.rfl⟩

/-- A change of files and directories that keeps both may follow another. -/
theorem Extends.trans {first second third : FileTree} (hFirst : Extends first second)
    (hSecond : Extends second third) : Extends first third := by
  refine ⟨?_, fun names content => (hFirst.files names content).trans (hSecond.files names content)⟩
  intro names entries hDirectory
  obtain ⟨others, hOthers⟩ := hFirst.directories names entries hDirectory
  exact hSecond.directories names others hOthers

section Insert

variable {tree : FileTree} {place : List String} {entries : List (String × FileTree)}
  {name : String} {new : FileTree}

/-- Nothing is below a name that leads to no directory. -/
theorem get?_below_eq_none (hPlace : tree.get? place = some (.directory entries))
    (hChild : ∀ inner, child? entries name ≠ some (.directory inner)) {more : List String}
    (hMore : more ≠ []) : tree.get? (place ++ [name] ++ more) = none := by
  rw [get?_append, get?_concat, hPlace]
  cases hFound : child? entries name with
  | none => simp [entriesOf, hFound]
  | some found =>
      have hFile : ∀ inner, found ≠ .directory inner := by
        rintro inner rfl
        exact hChild inner hFound
      simp [entriesOf, hFound, get?_eq_none_of_not_directory hFile hMore]

/-- All that is on the way to a directory are directories. -/
theorem get?_above_eq_directory (hPlace : tree.get? place = some (.directory entries))
    {names more : List String} (hNames : names ++ more = place) :
    ∃ inner, tree.get? names = some (.directory inner) := by
  subst hNames
  rw [get?_append] at hPlace
  cases hFound : tree.get? names with
  | none => simp [hFound] at hPlace
  | some found =>
      cases found with
      | directory inner => exact ⟨inner, rfl⟩
      | file content =>
          cases more <;> simp [hFound, get?] at hPlace

/-- Putting something where no directory was keeps every directory, though perhaps
with other entries. -/
theorem insert_keeps_directories (hPlace : tree.get? place = some (.directory entries))
    (hChild : ∀ inner, child? entries name ≠ some (.directory inner)) (names : List String)
    (inner : List (String × FileTree)) (hDirectory : tree.get? names = some (.directory inner)) :
    ∃ others, (tree.insert (place ++ [name]) new).get? names = some (.directory others) := by
  by_cases hAbove : names <+: place ++ [name]
  · obtain ⟨more, hMore⟩ := hAbove
    have hSome : more ≠ [] := by
      rintro rfl
      rw [List.append_nil] at hMore
      subst hMore
      rw [get?_concat, hPlace] at hDirectory
      exact hChild inner hDirectory
    rw [← hMore]
    exact get?_insert_of_above tree names more new hSome
  · by_cases hBelow : place ++ [name] <+: names
    · obtain ⟨more, rfl⟩ := hBelow
      have hSome : more ≠ [] := by
        rintro rfl
        simp at hAbove
      rw [get?_below_eq_none hPlace hChild hSome] at hDirectory
      cases hDirectory
    · rw [get?_insert_of_apart tree new hBelow hAbove]
      exact ⟨inner, hDirectory⟩

/-- Putting something without files further down in it changes one place: every other
file is there afterwards exactly if it was before. -/
theorem insert_keeps_files (hPlace : tree.get? place = some (.directory entries))
    (hChild : ∀ inner, child? entries name ≠ some (.directory inner))
    (hNew : ∀ more, more ≠ [] → new.get? more = none) {names : List String}
    (hNames : names ≠ place ++ [name]) (content : List UInt8) :
    tree.get? names = some (.file content) ↔
      (tree.insert (place ++ [name]) new).get? names = some (.file content) := by
  by_cases hBelow : place ++ [name] <+: names
  · obtain ⟨more, rfl⟩ := hBelow
    have hSome : more ≠ [] := by
      rintro rfl
      simp at hNames
    rw [get?_below_eq_none hPlace hChild hSome, get?_insert_append, hNew more hSome]
  · by_cases hAbove : names <+: place ++ [name]
    · obtain ⟨more, hMore⟩ := hAbove
      have hSome : more ≠ [] := by
        rintro rfl
        rw [List.append_nil] at hMore
        exact hNames hMore
      obtain ⟨others, hOthers⟩ := get?_insert_of_above tree names more new hSome
      rw [hMore] at hOthers
      have hShorter : names ++ more.dropLast = place := by
        rw [← List.dropLast_append_of_ne_nil hSome, hMore, List.dropLast_concat]
      obtain ⟨inner, hInner⟩ := get?_above_eq_directory hPlace hShorter
      simp [hOthers, hInner]
    · rw [get?_insert_of_apart tree new hBelow hAbove]

end Insert

/-- The directories that names were looked up in, each in the one around it, and
the place that the last name leads to. -/
inductive Leads (tree : FileTree) : List (String × FileTree) → FileTree → Prop where
  | start : Leads tree [] tree
  | step {way : List (String × FileTree)} {entries : List (String × FileTree)} {name : String}
      {next : FileTree} (hWay : Leads tree way (.directory entries))
      (hNext : child? entries name = some next) :
      Leads tree ((name, .directory entries) :: way) next

/-- The names on the way, the outermost first. -/
def namesOf (way : List (String × FileTree)) : List String :=
  (way.map Prod.fst).reverse

theorem namesOf_cons (entry : String × FileTree) (way : List (String × FileTree)) :
    namesOf (entry :: way) = namesOf way ++ [entry.1] := by
  simp [namesOf]

section Follow

variable {tree : FileTree}

/-- A way that was followed is found again by its names alone. -/
theorem Leads.get? {way : List (String × FileTree)} {place : FileTree}
    (hLeads : Leads tree way place) : tree.get? (namesOf way) = some place := by
  induction hLeads with
  | start => simp [namesOf]
  | step _ hNext ih => rw [namesOf_cons, get?_concat, ih, Option.bind_some, entriesOf, hNext]

/-- Where names lead, more names lead on from there. -/
theorem follow_spec {way : List (String × FileTree)} {place found : FileTree}
    (hLeads : Leads tree way place) {names reached : List String}
    (hFollow : follow way place names = .ok (reached, found)) :
    ∃ arrived, Leads tree arrived found ∧ namesOf arrived = reached ∧
      ∀ more, follow way place (names ++ more) = follow arrived found more := by
  induction names generalizing way place with
  | nil =>
      rw [follow] at hFollow
      obtain ⟨rfl, rfl⟩ := Prod.mk.inj (Except.ok.inj hFollow)
      exact ⟨way, hLeads, rfl, fun more => rfl⟩
  | cons name names ih =>
      cases place with
      | file content => simp [follow] at hFollow
      | directory entries =>
          simp only [follow, List.cons_append] at hFollow ⊢
          split_ifs at hFollow ⊢ with hParent hLong
          · cases hLeads with
            | start => exact ih .start hFollow
            | step hWay hNext => exact ih hWay hFollow
          · cases hChild : child? entries name with
            | none => simp [hChild] at hFollow
            | some next =>
                simp only [hChild] at hFollow
                exact ih (.step hLeads hChild) hFollow

/-- Only from a directory do names lead to a directory. -/
theorem directory_of_follow {way : List (String × FileTree)} {place : FileTree}
    {names reached : List String} {entries : List (String × FileTree)}
    (hFollow : follow way place names = .ok (reached, .directory entries)) :
    ∃ inner, place = .directory inner := by
  cases place with
  | directory inner => exact ⟨inner, rfl⟩
  | file content => cases names <;> simp [follow] at hFollow

end Follow

section Extended

variable {before after : FileTree}
  (hKeeps : ∀ names entries, before.get? names = some (.directory entries) →
    ∃ others, after.get? names = some (.directory others))

include hKeeps

/-- Where the directories on a way were kept, the same names lead to a directory
again. -/
theorem directory_of_leads {way other : List (String × FileTree)} {place : FileTree}
    {entries : List (String × FileTree)} (hBefore : Leads before way (.directory entries))
    (hAfter : Leads after other place) (hNames : namesOf way = namesOf other) :
    ∃ others, place = .directory others := by
  obtain ⟨others, hOthers⟩ := hKeeps _ _ hBefore.get?
  rw [hNames, hAfter.get?] at hOthers
  exact ⟨others, Option.some.inj hOthers⟩

/-- Names that lead to a directory still do where every directory was kept. -/
theorem follow_kept {way other : List (String × FileTree)} {place elsewhere : FileTree}
    (hBefore : Leads before way place) (hAfter : Leads after other elsewhere)
    (hNames : namesOf way = namesOf other) {names reached : List String}
    {entries : List (String × FileTree)}
    (hFollow : follow way place names = .ok (reached, .directory entries)) :
    ∃ others, follow other elsewhere names = .ok (reached, .directory others) := by
  induction names generalizing way other place elsewhere with
  | nil =>
      obtain ⟨inner, rfl⟩ := directory_of_follow hFollow
      obtain ⟨others, rfl⟩ := directory_of_leads hKeeps hBefore hAfter hNames
      rw [follow, ← namesOf] at hFollow ⊢
      obtain ⟨rfl, -⟩ := Prod.mk.inj (Except.ok.inj hFollow)
      exact ⟨others, by rw [hNames]⟩
  | cons name names ih =>
      obtain ⟨inner, rfl⟩ := directory_of_follow hFollow
      obtain ⟨others, rfl⟩ := directory_of_leads hKeeps hBefore hAfter hNames
      simp only [follow] at hFollow ⊢
      split_ifs at hFollow ⊢ with hParent hLong
      · cases hBefore with
        | start =>
            cases hAfter with
            | start => exact ih .start .start rfl hFollow
            | step => simp [namesOf] at hNames
        | step hWay =>
            cases hAfter with
            | start => simp [namesOf] at hNames
            | step hOther =>
                simp only [namesOf_cons] at hNames
                exact ih hWay hOther (List.append_inj_left' hNames rfl) hFollow
      · cases hChild : child? inner name with
        | none => simp [hChild] at hFollow
        | some next =>
            -- what the name leads to is a directory too, so it was kept
            simp only [hChild] at hFollow
            obtain ⟨deeper, rfl⟩ := directory_of_follow hFollow
            have hStep : Leads before ((name, .directory inner) :: way) (.directory deeper) :=
              .step hBefore hChild
            obtain ⟨kept, hKept⟩ := hKeeps _ _ hStep.get?
            rw [namesOf_cons, get?_concat, hNames, hAfter.get?, Option.bind_some,
              entriesOf] at hKept
            simp only [hKept]
            exact ih hStep (.step hAfter hKept) (by simp [namesOf_cons, hNames]) hFollow

end Extended

end FileTree

end ApiSurvey
