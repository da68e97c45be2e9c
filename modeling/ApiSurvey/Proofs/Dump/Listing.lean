import ApiSurvey.Dump.Listing
import ApiSurvey.Proofs.Disk.Write

/-! The dumps below a place. Where the names of a directory can be told apart and
can be asked for, every dump that is listed stands where its names lead. -/
namespace ApiSurvey.FileTree

/-- What every name in a directory is like: it leads downwards, and it can be asked
for. -/
structure EntryName (name : String) : Prop where
  notParent : name ≠ parentName
  short : isLongName name = false
  noNull : Char.ofNat 0 ∉ name.toList

/-- A tree that can stand on a disk: no directory has two entries of one name. -/
inductive WellFormed : FileTree → Prop where
  | file (content : List UInt8) : WellFormed (.file content)
  | directory (entries : List (String × FileTree))
      (hNames : ∀ entry ∈ entries, EntryName entry.1)
      (hDistinct : (entries.map Prod.fst).Nodup)
      (hEntries : ∀ entry ∈ entries, WellFormed entry.2) :
      WellFormed (.directory entries)

/-- A directory with one entry needs no more than a proper name. -/
theorem WellFormed.singleton {name : String} {place : FileTree} (hName : EntryName name)
    (hPlace : place.WellFormed) : (FileTree.directory [(name, place)]).WellFormed :=
  .directory _ (by simpa using hName) (by simp) (by simpa using hPlace)

/-- Where names are distinct, an entry is found under its name. -/
theorem child?_of_mem {entries : List (String × FileTree)} {name : String} {found : FileTree}
    (hDistinct : (entries.map Prod.fst).Nodup) (hMem : (name, found) ∈ entries) :
    child? entries name = some found := by
  obtain ⟨before, after, rfl⟩ := List.append_of_mem hMem
  rw [child?, List.lookup_eq_some_iff]
  refine ⟨before, after, rfl, ?_⟩
  intro earlier hEarlier
  rw [List.map_append, List.nodup_append] at hDistinct
  have hApart := hDistinct.2.2 earlier.1 (List.mem_map_of_mem hEarlier) name (by simp)
  simpa using hApart.symm

theorem mem_of_child? {entries : List (String × FileTree)} {name : String} {found : FileTree}
    (hFound : child? entries name = some found) : (name, found) ∈ entries := by
  obtain ⟨before, after, rfl, -⟩ := List.lookup_eq_some_iff.mp hFound
  exact List.mem_append_right _ List.mem_cons_self

/-- The dumps of a directory itself are its files whose names end as those of dumps
do. -/
theorem mem_ownDumps_iff {entries : List (String × FileTree)} {name : String}
    {content : List UInt8} :
    (name, content) ∈ ownDumps entries ↔
      (name, .file content) ∈ entries ∧ isDumpName name = true := by
  induction entries with
  | nil => simp [ownDumps]
  | cons entry entries ih =>
      obtain ⟨first, _ | inner⟩ := entry
      · rw [ownDumps]
        split_ifs with hDump
        · simp only [List.mem_cons, ih, Prod.mk.injEq, file.injEq]
          constructor
          · rintro (⟨rfl, rfl⟩ | ⟨hMem, hName⟩)
            · exact ⟨.inl ⟨rfl, rfl⟩, hDump⟩
            · exact ⟨.inr hMem, hName⟩
          · rintro ⟨⟨rfl, rfl⟩ | hMem, hName⟩
            · exact .inl ⟨rfl, rfl⟩
            · exact .inr ⟨hMem, hName⟩
        · simp only [ih, List.mem_cons, Prod.mk.injEq]
          constructor
          · rintro ⟨hMem, hName⟩
            exact ⟨.inr hMem, hName⟩
          · rintro ⟨⟨rfl, -⟩ | hMem, hName⟩
            · exact (hDump hName).elim
            · exact ⟨hMem, hName⟩
      · simp [ownDumps, ih]

/-- The dumps below a directory are listed entry by entry. -/
theorem dumpsBelow_eq_map (entries : List (String × FileTree)) :
    dumpsBelow entries = entries.map fun entry => (entry.1, dumps entry.2) := by
  induction entries with
  | nil => rw [dumpsBelow, List.map_nil]
  | cons entry entries ih => rw [dumpsBelow, ih, List.map_cons]

/-- Entries that are in the order of their names already stay as they are. -/
theorem sortByName_of_sorted {α : Type} {entries : List (String × α)}
    (hSorted : (entries.map Prod.fst).Pairwise (· ≤ ·)) : sortByName entries = entries := by
  apply List.mergeSort_of_pairwise
  simpa using List.pairwise_map.mp hSorted

theorem map_fst_ownDumps_sublist (entries : List (String × FileTree)) :
    ((ownDumps entries).map Prod.fst).Sublist (entries.map Prod.fst) := by
  induction entries with
  | nil => exact .slnil
  | cons entry entries ih =>
      obtain ⟨name, content | inner⟩ := entry
      · rw [ownDumps]
        split_ifs
        · exact ih.cons_cons name
        · exact ih.cons name
      · exact ih.cons name

/-- There is nothing to sort where the entries of a directory are in order already. -/
theorem dumps_of_sorted {entries : List (String × FileTree)}
    (hSorted : (entries.map Prod.fst).Pairwise (· ≤ ·)) :
    (directory entries).dumps = (ownDumps entries).map (fun (name, _) => [name]) ++
      entries.flatMap fun (name, found) => found.dumps.map (name :: ·) := by
  have hOwn : sortByName (ownDumps entries) = ownDumps entries :=
    sortByName_of_sorted (hSorted.sublist (map_fst_ownDumps_sublist entries))
  have hBelow : sortByName (dumpsBelow entries) = dumpsBelow entries := by
    apply sortByName_of_sorted
    rw [dumpsBelow_eq_map, List.map_map]
    exact hSorted
  rw [dumps, hOwn, hBelow, dumpsBelow_eq_map, List.flatMap_map]

/-- A dump below a directory is one of its files or lies below one of its entries. -/
theorem mem_dumps_directory_iff {entries : List (String × FileTree)} {names : List String} :
    names ∈ (directory entries).dumps ↔
      ∃ name found rest, names = name :: rest ∧ (name, found) ∈ entries ∧
        ((∃ content, rest = [] ∧ found = .file content ∧ isDumpName name = true) ∨
          rest ∈ found.dumps) := by
  simp only [dumps, sortByName, dumpsBelow_eq_map, List.mem_append, List.mem_map, List.mem_flatMap,
    List.mem_mergeSort, Prod.exists, mem_ownDumps_iff]
  constructor
  · rintro (⟨name, content, ⟨hEntry, hName⟩, rfl⟩ |
      ⟨_, _, ⟨name, found, hEntry, hFound⟩, rest, hRest, rfl⟩)
    · exact ⟨name, .file content, [], rfl, hEntry, .inl ⟨content, rfl, rfl, hName⟩⟩
    · obtain ⟨rfl, rfl⟩ := Prod.mk.inj hFound
      exact ⟨name, found, rest, rfl, hEntry, .inr hRest⟩
  · rintro ⟨name, found, rest, rfl, hEntry, ⟨content, rfl, rfl, hName⟩ | hRest⟩
    · exact .inl ⟨name, content, ⟨hEntry, hName⟩, rfl⟩
    · exact .inr ⟨name, found.dumps, ⟨name, found, hEntry, rfl⟩, rest, hRest, rfl⟩

/-- A dump that is listed is a file, and the names that lead to it can be asked for. -/
theorem WellFormed.get?_of_mem_dumps {place : FileTree} (hFormed : place.WellFormed)
    {names : List String} (hMem : names ∈ place.dumps) :
    (∀ name ∈ names, EntryName name) ∧ ∃ content, place.get? names = some (.file content) := by
  induction hFormed generalizing names with
  | file content => simp [dumps] at hMem
  | directory entries hNames hDistinct _ ih =>
      obtain ⟨name, found, rest, rfl, hEntry, hRest⟩ := mem_dumps_directory_iff.mp hMem
      rw [get?_cons, entriesOf, child?_of_mem hDistinct hEntry, Option.bind_some,
        List.forall_mem_cons]
      obtain ⟨content, rfl, rfl, -⟩ | hBelow := hRest
      · exact ⟨⟨hNames _ hEntry, by simp⟩, content, by simp⟩
      · obtain ⟨hBelowNames, hFile⟩ := ih _ hEntry hBelow
        exact ⟨⟨hNames _ hEntry, hBelowNames⟩, hFile⟩

/-- Plain names are followed to what stands at their end. -/
theorem follow_of_get? {names : List String} (hNames : ∀ name ∈ names, EntryName name)
    {place found : FileTree} (hFound : place.get? names = some found)
    (way : List (String × FileTree)) :
    ∃ reached, follow way place names = .ok (reached, found) := by
  induction names generalizing place way with
  | nil =>
      obtain rfl : place = found := by simpa using hFound
      exact ⟨_, rfl⟩
  | cons name names ih =>
      obtain ⟨hName, hRest⟩ := List.forall_mem_cons.mp hNames
      cases place with
      | file content => simp [get?] at hFound
      | directory entries =>
          rw [get?_cons, entriesOf, Option.bind_eq_some_iff] at hFound
          obtain ⟨next, hNext, hFound⟩ := hFound
          have hStep : follow way (.directory entries) (name :: names) =
              follow ((name, .directory entries) :: way) next names := by
            simp [follow, hName.notParent, hName.short, hNext]
          rw [hStep]
          exact ih hRest hFound _

end ApiSurvey.FileTree

namespace ApiSurvey.Disk

open FileTree

/-- What stands below a place is found from there, unless its location is too long. -/
theorem locate_below {disk : Disk} {place found : FileTree} {root : Location}
    (hRoot : disk.locate root = .ok place) {names : List String}
    (hNames : ∀ name ∈ names, EntryName name) (hFound : place.get? names = some found) :
    disk.locate (root.below names) =
      if isLongLocation (root.below names) then .error .nameTooLong else .ok found := by
  obtain ⟨⟨reached, stands⟩, hArrive, hPlace⟩ := (Sequence.map_eq_ok_iff _ _ _).mp hRoot
  obtain rfl : stands = place := hPlace
  unfold arrive at hArrive
  split_ifs at hArrive with hNull hLong
  obtain ⟨way, -, -, hMore⟩ := follow_spec .start hArrive
  obtain ⟨ends, hEnds⟩ := follow_of_get? hNames hFound way
  have hNoNull : (root.below names).hasNull = false := by
    rw [Bool.not_eq_true] at hNull
    simp only [Location.hasNull, Location.below, List.any_append, Bool.or_eq_false_iff] at hNull ⊢
    refine ⟨hNull, ?_⟩
    simpa using fun name hName => (hNames name hName).noNull
  have hWhole : disk.start (root.below names).anchor ++ (root.below names).parts =
      disk.start root.anchor ++ root.parts ++ names :=
    (List.append_assoc _ _ _).symm
  unfold locate arrive
  rw [if_neg (by simp [hNoNull]), hWhole, hMore, hEnds]
  split_ifs <;> rfl

end ApiSurvey.Disk
