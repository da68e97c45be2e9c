import ApiSurvey.Disk.Update
import ApiSurvey.Proofs.FileTree.Update

/-! Writing a file changes one file and no other. Directories are made on the way
to it, and every directory that was there before is still there, so the location
that was written leads to the new content. -/
namespace ApiSurvey.Disk

open FileTree

/-- What a change may do that touches no file: the working directory is the same, and
files and directories stay where they are. -/
structure Extends (before after : Disk) : Prop where
  working : after.working = before.working
  tree : FileTree.Extends before.tree after.tree

theorem Extends.refl (disk : Disk) : Extends disk disk :=
  ⟨rfl, .refl disk.tree⟩

theorem Extends.trans {first second third : Disk} (hFirst : Extends first second)
    (hSecond : Extends second third) : Extends first third :=
  ⟨hSecond.working.trans hFirst.working, hFirst.tree.trans hSecond.tree⟩

/-- Locations start at the same names where the working directory is the same. -/
theorem start_congr {before after : Disk} (hWorking : after.working = before.working)
    (anchor : Anchor) : after.start anchor = before.start anchor := by
  cases anchor with
  | relative => exact hWorking
  | root => rfl
  | doubleRoot => rfl

/-- A location that leads to a directory still leads there where every directory was
kept, whatever became of the files. -/
theorem arrive_kept {before after : Disk} (hWorking : after.working = before.working)
    (hKeeps : ∀ names entries, before.tree.get? names = some (.directory entries) →
      ∃ others, after.tree.get? names = some (.directory others))
    {location : Location} {reached : List String} {entries : List (String × FileTree)}
    (hArrive : before.arrive location = .ok (reached, .directory entries)) :
    ∃ others, after.arrive location = .ok (reached, .directory others) := by
  unfold arrive at hArrive ⊢
  rw [start_congr hWorking]
  split_ifs at hArrive ⊢
  exact follow_kept hKeeps .start .start rfl hArrive

variable {disk : Disk} {location : Location}

/-- The names that a location leads to are the way to what stands there. -/
theorem get?_of_arrive {reached : List String} {found : FileTree}
    (hArrive : disk.arrive location = .ok (reached, found)) :
    disk.tree.get? reached = some found := by
  unfold arrive at hArrive
  split_ifs at hArrive
  obtain ⟨arrived, hLeads, rfl, -⟩ := follow_spec .start hArrive
  exact hLeads.get?

/-- What a location names lies in a directory that its parent leads to. -/
theorem target_eq_some {found : Target} (hTarget : disk.target location = .ok (some found)) :
    ∃ entries, disk.arrive location.parent = .ok (found.place, .directory entries) ∧
      child? entries found.name = found.content ∧ location.parts.getLast? = some found.name ∧
      location.hasNull = false ∧ isLongLocation location = false ∧
      found.name ≠ parentName ∧ isLongName found.name = false := by
  simp only [target, Sequence.throw_eq_error, Sequence.bind_eq_bind, Sequence.error_bind,
    Sequence.pure_eq_ok] at hTarget
  split_ifs at hTarget with hNull hLong
  cases hLast : location.parts.getLast? with
  | none => simp [hLast] at hTarget
  | some name =>
      cases hArrive : disk.arrive location.parent with
      | error failure => simp [hLast, hArrive] at hTarget
      | ok arrived =>
          obtain ⟨place, around⟩ := arrived
          simp only [hLast, hArrive, Sequence.ok_bind] at hTarget
          cases around with
          | file content => simp at hTarget
          | directory entries =>
              simp only at hTarget
              split_ifs at hTarget with hParent hLongName
              · simp at hTarget
              · obtain rfl := Option.some.inj (Except.ok.inj hTarget)
                exact ⟨entries, rfl, rfl, rfl, by simpa using hNull, by simpa using hLong,
                  by simpa using hParent, by simpa using hLongName⟩

/-- A directory is made where nothing was, so no file is touched. -/
theorem makeDirectory_extends {made : Disk} (hMade : disk.makeDirectory location = .ok made) :
    Extends disk made := by
  unfold makeDirectory at hMade
  cases hTarget : disk.target location with
  | error failure => simp [hTarget] at hMade
  | ok found =>
      simp only [hTarget, Sequence.mapError_ok, Sequence.bind_eq_bind, Sequence.ok_bind] at hMade
      split at hMade
      · next place name =>
          obtain rfl := Except.ok.inj hMade
          obtain ⟨entries, hArrive, hChild, -⟩ := target_eq_some hTarget
          have hPlace := get?_of_arrive hArrive
          have hNone : ∀ inner, child? entries name ≠ some (.directory inner) := by simp_all
          have hBelow : ∀ more, more ≠ [] → empty.get? more = none := by
            intro more hMore
            obtain ⟨first, rest, rfl⟩ := List.exists_cons_of_ne_nil hMore
            rfl
          refine ⟨rfl, insert_keeps_directories hPlace hNone, ?_⟩
          intro names content
          by_cases hNames : names = place ++ [name]
          · subst hNames
            have hBefore : disk.tree.get? (place ++ [name]) = none := by
              rw [get?_concat, hPlace]
              exact hChild
            have hAfter := get?_insert_append disk.tree (place ++ [name]) [] empty
            rw [List.append_nil] at hAfter
            rw [hBefore, put, hAfter]
            simp [empty]
          · exact insert_keeps_files hPlace hNone hBelow hNames content
      · simp at hMade

/-- A directory is made or was there already. -/
theorem ensureOne_extends {made : Disk} (hMade : disk.ensureOne location = .ok made) :
    Extends disk made := by
  unfold ensureOne at hMade
  split at hMade
  · next hFresh =>
      obtain rfl := Except.ok.inj hMade
      exact makeDirectory_extends hFresh
  · obtain rfl := Except.ok.inj hMade
    exact .refl disk
  · cases hMade

/-- By induction on the rounds: whatever was made further up is kept below. -/
theorem makeDirectoriesFrom_extends (rounds : Nat) {made : Disk}
    (hMade : disk.makeDirectoriesFrom rounds location = .ok made) : Extends disk made := by
  induction rounds generalizing location made with
  | zero => exact ensureOne_extends hMade
  | succ rounds ih =>
      unfold makeDirectoriesFrom at hMade
      split at hMade
      · cases hAround : disk.makeDirectoriesFrom rounds location.parent with
        | error failure => simp [hAround] at hMade
        | ok around =>
            rw [hAround] at hMade
            exact (ih hAround).trans (ensureOne_extends hMade)
      · exact ensureOne_extends hMade

/-- A file replaces what its location names, and that was no directory. -/
theorem replaceFile_eq_ok {content : List UInt8} {changed : Disk}
    (hChanged : disk.replaceFile location content = .ok changed) :
    ∃ found, disk.target location = .ok (some found) ∧
      (∀ inner, found.content ≠ some (.directory inner)) ∧
      changed = disk.put (found.place ++ [found.name]) (.file content) := by
  unfold replaceFile at hChanged
  cases hTarget : disk.target location with
  | error failure => simp [hTarget] at hChanged
  | ok found =>
      simp only [hTarget, Sequence.mapError_ok, Sequence.bind_eq_bind, Sequence.ok_bind] at hChanged
      split at hChanged
      · simp at hChanged
      · simp at hChanged
      · next place name old hFile =>
          exact ⟨_, rfl, hFile, (Except.ok.inj hChanged).symm⟩

/-- A location leads one name further than its parent. -/
theorem arrive_of_parent {place : List String} {entries : List (String × FileTree)}
    {name : String} {found : FileTree}
    (hArrive : disk.arrive location.parent = .ok (place, .directory entries))
    (hChild : child? entries name = some found) (hLast : location.parts.getLast? = some name)
    (hNull : location.hasNull = false) (hLong : isLongLocation location = false)
    (hParent : name ≠ parentName) (hLongName : isLongName name = false) :
    disk.arrive location = .ok (place ++ [name], found) := by
  have hNames : disk.start location.anchor ++ location.parts =
      disk.start location.parent.anchor ++ location.parent.parts ++ [name] := by
    rw [List.append_assoc]
    exact congrArg _ (List.dropLast_append_getLast? name hLast).symm
  unfold arrive at hArrive ⊢
  split_ifs at hArrive
  obtain ⟨arrived, hLeads, rfl, hMore⟩ := follow_spec .start hArrive
  rw [if_neg (by simp [hNull]), if_neg (by simp [hLong]), hNames, hMore]
  simp [follow, hParent, hLongName, hChild, namesOf]

/-- The location of a file that was written leads to its new content. -/
theorem readBytes_replaceFile {content : List UInt8} {changed : Disk}
    (hChanged : disk.replaceFile location content = .ok changed) :
    changed.readBytes location = .ok content := by
  obtain ⟨found, hTarget, hFile, rfl⟩ := replaceFile_eq_ok hChanged
  obtain ⟨entries, hArrive, hChild, hLast, hNull, hLong, hParent, hLongName⟩ :=
    target_eq_some hTarget
  have hWorking : (disk.put (found.place ++ [found.name]) (.file content)).working =
      disk.working := rfl
  obtain ⟨others, hOthers⟩ := arrive_kept hWorking
    (insert_keeps_directories (get?_of_arrive hArrive) (hChild ▸ hFile)) hArrive
  have hPlace := get?_of_arrive hOthers
  have hNew := get?_insert_append disk.tree (found.place ++ [found.name]) [] (.file content)
  rw [put] at hPlace
  rw [List.append_nil, get?_concat, hPlace, Option.bind_some, get?_nil] at hNew
  have hArrived := arrive_of_parent hOthers hNew hLast hNull hLong hParent hLongName
  simp [readBytes, locate, hArrived]

section WriteFile

variable {tooDeep : Disk → Location → Bool} {content : List UInt8} {changed : Disk}

/-- A file is written once its directories are there. -/
theorem writeFile_eq_ok (hChanged : disk.writeFile tooDeep location content = .ok changed) :
    tooDeep disk location = false ∧ ∃ made, disk.makeDirectories location.parent = .ok made ∧
      made.replaceFile location content = .ok changed := by
  unfold writeFile at hChanged
  cases hDeep : tooDeep disk location with
  | true => simp [hDeep] at hChanged
  | false =>
      cases hMade : disk.makeDirectories location.parent with
      | error failure => simp [hDeep, hMade] at hChanged
      | ok made => exact ⟨rfl, made, rfl, by simpa [hDeep, hMade] using hChanged⟩

/-- Writing a file changes the one file that its location leads to: it has the new
content, and every other file has the content that it had before or is still not
there. The working directory is the same. -/
theorem writeFile_spec (hChanged : disk.writeFile tooDeep location content = .ok changed) :
    changed.readBytes location = .ok content ∧ changed.working = disk.working ∧
    ∃ written, changed.tree.get? written = some (.file content) ∧
      ∀ names, names ≠ written → ∀ old,
        disk.tree.get? names = some (.file old) ↔ changed.tree.get? names = some (.file old) := by
  obtain ⟨-, made, hMade, hReplaced⟩ := writeFile_eq_ok hChanged
  have hExtends : Extends disk made := makeDirectoriesFrom_extends _ hMade
  refine ⟨readBytes_replaceFile hReplaced, ?_⟩
  obtain ⟨found, hTarget, hFile, rfl⟩ := replaceFile_eq_ok hReplaced
  obtain ⟨entries, hArrive, hChild, -⟩ := target_eq_some hTarget
  have hBelow : ∀ more, more ≠ [] → (FileTree.file content).get? more = none :=
    fun more hMore => get?_eq_none_of_not_directory (by simp) hMore
  refine ⟨hExtends.working, found.place ++ [found.name], ?_, ?_⟩
  · have hNew := get?_insert_append made.tree (found.place ++ [found.name]) [] (.file content)
    rwa [List.append_nil] at hNew
  · intro names hNames old
    rw [hExtends.tree.files names old]
    exact insert_keeps_files (get?_of_arrive hArrive) (hChild ▸ hFile) hBelow hNames old

/-- Whether a file can be written does not depend on what is written. -/
theorem exists_writeFile_eq_ok
    (hChanged : disk.writeFile tooDeep location content = .ok changed) (other : List UInt8) :
    ∃ different, disk.writeFile tooDeep location other = .ok different := by
  obtain ⟨hDeep, made, hMade, hReplaced⟩ := writeFile_eq_ok hChanged
  obtain ⟨⟨place, name, old⟩, hTarget, hFile, -⟩ := replaceFile_eq_ok hReplaced
  have hOther : made.replaceFile location other =
      .ok (made.put (place ++ [name]) (.file other)) := by
    unfold replaceFile
    rw [hTarget]
    cases old with
    | none => rfl
    | some found =>
        cases found with
        | file bytes => rfl
        | directory inner => exact (hFile inner rfl).elim
  refine ⟨made.put (place ++ [name]) (.file other), ?_⟩
  simp [writeFile, hDeep, hMade, hOther]

end WriteFile

end ApiSurvey.Disk
