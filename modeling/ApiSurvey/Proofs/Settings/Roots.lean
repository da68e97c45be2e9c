import ApiSurvey.Proofs.Sequence
import ApiSurvey.Proofs.Text.Trim
import ApiSurvey.Settings.Roots
import Mathlib.Data.List.Basic

/-! Roots in settings. The path of an entry ends before the first word `from` that
has blanks in front of it, and the name of the scope is all that follows. -/
namespace ApiSurvey.Root

/-- The word between a path and the name of a scope. -/
def fromWord : List Char := "from".toList

/-- Somewhere in a text the word `from` stands behind a blank. -/
def HasFrom (text : List Char) : Prop :=
  ∃ before blank after, text = before ++ blank :: (fromWord ++ after) ∧
    Text.isBlank blank = true ∧ Text.wordEndsBefore after = true

theorem HasFrom.cons {text : List Char} (hFrom : HasFrom text) (c : Char) :
    HasFrom (c :: text) := by
  obtain ⟨before, blank, after, rfl, hBlank, hEnds⟩ := hFrom
  exact ⟨c :: before, blank, after, rfl, hBlank, hEnds⟩

theorem not_blank_of_mem_fromWord : ∀ c ∈ fromWord, Text.isBlank c = false := by
  simp [fromWord, Text.isBlank]

/-- What is behind the word that separates is read if the word ends there. -/
theorem afterFrom?_eq_some_iff (text scope : List Char) :
    afterFrom? text = some scope ↔
      ∃ after, text = fromWord ++ after ∧ Text.wordEndsBefore after = true ∧
        after.dropWhile Text.isBlank = scope := by
  have hWord : ∀ after, fromWord ++ after = 'f' :: 'r' :: 'o' :: 'm' :: after := fun _ => rfl
  simp only [hWord]
  unfold afterFrom?
  split
  · simp
  · next hOther =>
      simp only [reduceCtorEq, false_iff]
      rintro ⟨after, rfl, -⟩
      exact hOther after rfl

/-- A blank behind a text completes no word `from` at its start. -/
theorem afterFrom?_append_blank {text : List Char} (hText : afterFrom? text = none) {blank : Char}
    (hBlank : Text.isBlank blank = true) (rest : List Char) :
    afterFrom? (text ++ blank :: rest) = none := by
  rw [Option.eq_none_iff_forall_ne_some] at hText ⊢
  intro scope hScope
  obtain ⟨after, hSplit, hEnds, -⟩ := (afterFrom?_eq_some_iff _ _).mp hScope
  -- the word lies within the text, or the blank lies within the word
  obtain ⟨left, hWord, hRest⟩ | ⟨left, rfl, rfl⟩ := List.append_eq_append_iff.mp hSplit
  · cases left with
    | nil => exact hText _ ((afterFrom?_eq_some_iff _ _).mpr ⟨[], by simp [hWord], rfl, rfl⟩)
    | cons c left =>
        obtain ⟨rfl, -⟩ := List.cons.inj hRest
        have hNotBlank := not_blank_of_mem_fromWord blank (by simp [hWord])
        rw [hBlank] at hNotBlank
        cases hNotBlank
  · refine hText _ ((afterFrom?_eq_some_iff _ _).mpr ⟨left, rfl, ?_, rfl⟩)
    cases left with
    | nil => rfl
    | cons c left => exact hEnds

/-- Where the word follows blanks, the last of these stands right before it. -/
theorem afterFrom?_eq_none_of_not_hasFrom {blank : Char} {rest : List Char}
    (hBlank : Text.isBlank blank = true) (hFrom : ¬ HasFrom (blank :: rest)) :
    afterFrom? (rest.dropWhile Text.isBlank) = none := by
  rw [Option.eq_none_iff_forall_ne_some]
  intro scope hScope
  obtain ⟨after, hRest, hEnds, -⟩ := (afterFrom?_eq_some_iff _ _).mp hScope
  have hBlanks : Text.Blanks (blank :: rest.takeWhile Text.isBlank) :=
    List.forall_mem_cons.mpr ⟨hBlank, Text.blanks_takeWhile rest⟩
  obtain ⟨init, last, hLast⟩ :=
    (List.eq_nil_or_concat' (blank :: rest.takeWhile Text.isBlank)).resolve_left (by simp)
  refine hFrom ⟨init, last, after, ?_, hBlanks last (by simp [hLast]), hEnds⟩
  calc blank :: rest
      = (blank :: rest.takeWhile Text.isBlank) ++ rest.dropWhile Text.isBlank := by
        rw [List.cons_append, List.takeWhile_append_dropWhile]
    _ = init ++ last :: (fromWord ++ after) := by rw [hLast, hRest]; simp

/-- A separator that starts with the text leaves an empty path. -/
theorem splitFrom?_of_here {c : Char} {rest scope : List Char} (hBlank : Text.isBlank c = true)
    (hHere : afterFrom? (rest.dropWhile Text.isBlank) = some scope) :
    splitFrom? (c :: rest) = some ([], scope) := by
  -- the whole definition, since the equations of its cases would open the test for blanks
  rw [splitFrom?.eq_def]
  simp [hBlank, hHere]

/-- If no separator starts with the text, its first character belongs to the path. -/
theorem splitFrom?_cons {c : Char} {rest : List Char}
    (hHere : Text.isBlank c = true → afterFrom? (rest.dropWhile Text.isBlank) = none) :
    splitFrom? (c :: rest) = (splitFrom? rest).map fun (path, scope) => (c :: path, scope) := by
  rw [splitFrom?.eq_def]
  cases hBlank : Text.isBlank c with
  | false => simp [hBlank]
  | true => simp [hBlank, hHere hBlank]

/-- What has no separator has none further down. -/
theorem splitFrom?_tail_eq_none {c : Char} {rest : List Char}
    (hNone : splitFrom? (c :: rest) = none) : splitFrom? rest = none := by
  by_cases hHere : Text.isBlank c = true → afterFrom? (rest.dropWhile Text.isBlank) = none
  · rw [splitFrom?_cons hHere] at hNone
    simpa using hNone
  · obtain ⟨hBlank, hSome⟩ := Classical.not_imp.mp hHere
    obtain ⟨scope, hScope⟩ := Option.ne_none_iff_exists'.mp hSome
    rw [splitFrom?_of_here hBlank hScope] at hNone
    cases hNone

theorem dropWhile_blank_fromWord (after : List Char) :
    (fromWord ++ after).dropWhile Text.isBlank = fromWord ++ after := by
  rw [Text.dropWhile_blank_eq_self_iff]
  simpa [fromWord] using not_blank_of_mem_fromWord 'f' (by decide)

/-- A text is split exactly when it has the word. -/
theorem splitFrom?_eq_none_iff (text : List Char) : splitFrom? text = none ↔ ¬ HasFrom text := by
  constructor
  · rintro hNone ⟨before, blank, after, rfl, hBlank, hEnds⟩
    induction before with
    | nil =>
        have hHere := (afterFrom?_eq_some_iff _ _).mpr ⟨after, rfl, hEnds, rfl⟩
        rw [← dropWhile_blank_fromWord] at hHere
        rw [List.nil_append, splitFrom?_of_here hBlank hHere] at hNone
        cases hNone
    | cons c before ih =>
        exact ih (splitFrom?_tail_eq_none hNone)
  · intro hFrom
    induction text with
    | nil => rfl
    | cons c text ih =>
        rw [splitFrom?_cons fun hBlank => afterFrom?_eq_none_of_not_hasFrom hBlank hFrom,
          ih fun hRest => hFrom (hRest.cons c)]
        rfl

instance (text : List Char) : Decidable (HasFrom text) :=
  decidable_of_iff (¬ splitFrom? text = none) (by rw [splitFrom?_eq_none_iff, not_not])

/-- A text is split at the first word `from`. Blanks on both sides of the word are
dropped, and what follows may hold the word once more. -/
theorem splitFrom?_append {path gap after : List Char} (hFrom : ¬ HasFrom path)
    (hLast : ∀ c ∈ path.getLast?, Text.isBlank c = false) (hGap : Text.Blanks gap)
    (hSome : gap ≠ []) (hEnds : Text.wordEndsBefore after = true) :
    splitFrom? (path ++ gap ++ (fromWord ++ after)) =
      some (path, after.dropWhile Text.isBlank) := by
  obtain ⟨blank, gap, rfl⟩ := List.exists_cons_of_ne_nil hSome
  obtain ⟨hBlank, hBlanks⟩ := List.forall_mem_cons.mp hGap
  induction path with
  | nil =>
      rw [List.nil_append, List.cons_append]
      refine splitFrom?_of_here hBlank ((afterFrom?_eq_some_iff _ _).mpr ⟨after, ?_, hEnds, rfl⟩)
      rw [List.dropWhile_append_of_pos hBlanks, dropWhile_blank_fromWord]
  | cons c path ih =>
      have hInner : ∀ last ∈ path.getLast?, Text.isBlank last = false := by
        intro last hMem
        exact hLast last (by simp [List.getLast?_cons, Option.mem_def.mp hMem])
      have hHere : Text.isBlank c = true →
          afterFrom? ((path ++ blank :: gap ++ (fromWord ++ after)).dropWhile Text.isBlank) =
            none := by
        intro hBlankC
        -- the path goes on behind its blanks, since it does not end in one
        have hRest : path.dropWhile Text.isBlank ≠ [] := by
          intro hNil
          have hBlanks : Text.Blanks (c :: path) :=
            List.forall_mem_cons.mpr ⟨hBlankC, List.dropWhile_eq_nil_iff.mp hNil⟩
          have hLastBlank := hBlanks _ (List.getLast_mem (List.cons_ne_nil c path))
          rw [hLast _ (List.getLast?_eq_some_getLast _)] at hLastBlank
          cases hLastBlank
        rw [List.append_assoc, List.dropWhile_append, if_neg (by simpa using hRest),
          List.cons_append]
        exact afterFrom?_append_blank (afterFrom?_eq_none_of_not_hasFrom hBlankC hFrom) hBlank _
      rw [List.cons_append, List.cons_append, splitFrom?_cons hHere,
        ih (fun hRest => hFrom (hRest.cons c)) hInner]
      rfl

/-- A text that is one entry as it stands: no comma divides it, and there is
nothing to trim. -/
structure Plain (text : String) : Prop where
  nonempty : text ≠ ""
  noComma : ',' ∉ text.toList
  trimmed : Text.trim text.toList = text.toList

/-- A path that is one entry as it stands and names no scope. -/
structure PlainPath (text : String) : Prop extends Plain text where
  noFrom : ¬ HasFrom text.toList

/-- An entry with a path and the name of a scope. -/
def fromEntry (path scopeName : String) : String :=
  path ++ " from " ++ scopeName

theorem toList_fromEntry (path scopeName : String) :
    (fromEntry path scopeName).toList =
      path.toList ++ [' '] ++ (fromWord ++ ' ' :: scopeName.toList) := by
  simp [fromEntry, fromWord]

theorem Plain.toList_ne_nil {text : String} (hText : Plain text) : text.toList ≠ [] := by
  simpa using hText.nonempty

/-- A path and the name of a scope with the separator between them make an entry that
nothing divides. -/
theorem Plain.fromEntry {path scopeName : String} (hPath : Plain path) (hScope : Plain scopeName) :
    Plain (fromEntry path scopeName) := by
  obtain ⟨hHead, -⟩ := (Text.trim_eq_self_iff _).mp hPath.trimmed
  obtain ⟨-, hLast⟩ := (Text.trim_eq_self_iff _).mp hScope.trimmed
  refine ⟨by simp [Root.fromEntry, hPath.nonempty], ?_, ?_⟩
  · simp [toList_fromEntry, fromWord, hPath.noComma, hScope.noComma]
  · rw [Text.trim_eq_self_iff, toList_fromEntry]
    constructor
    · rw [List.append_assoc, List.head?_append_of_ne_nil _ hPath.toList_ne_nil]
      exact hHead
    · have hEnd : path.toList ++ [' '] ++ (fromWord ++ ' ' :: scopeName.toList) =
          path.toList ++ [' '] ++ fromWord ++ [' '] ++ scopeName.toList := by simp
      rw [hEnd, List.getLast?_append_of_ne_nil _ hScope.toList_ne_nil]
      exact hLast

/-- The two settings that hold one text. -/
inductive OneText (text : String) : Setting → Prop where
  | alone : OneText text (.string text)
  | listed : OneText text (.list [.string text])

/-- A single text is read as one entry, alone or in a list. -/
theorem ofSetting_of_oneText {text : String} (hText : Plain text) {setting : Setting}
    (hHeld : OneText text setting) (scopeName : String) :
    ofSetting setting scopeName = (ofEntry scopeName text.toList).map ([·]) := by
  have hEntries : entries setting = .ok [text.toList] := by
    have hOne : entriesOf text = [text.toList] := by
      rw [entriesOf, List.splitOn_eq_singleton hText.noComma, List.map_singleton, hText.trimmed]
    cases hHeld <;> simp [entries, hOne]
  have hKept : [text.toList].filter (!·.isEmpty) = [text.toList] := by
    simp [hText.nonempty]
  rw [ofSetting, hEntries]
  simp only [Sequence.bind_eq_bind, Sequence.ok_bind, hKept, List.mapM_cons, List.mapM_nil]
  cases ofEntry scopeName text.toList <;> rfl

/-- A path without a separator takes the name of the scope from outside. -/
theorem ofEntry_path {path : String} (hPath : PlainPath path) {scopeName : String}
    (hScope : scopeName ≠ "") : ofEntry scopeName path.toList = .ok ⟨.ofText path, scopeName⟩ := by
  simp [ofEntry, (splitFrom?_eq_none_iff _).mpr hPath.noFrom, hPath.trimmed, hPath.nonempty, hScope]

/-- An entry that names a scope has no use for the name that others get. -/
theorem ofEntry_fromEntry {path scopeName : String} (hPath : PlainPath path)
    (hScope : Plain scopeName) (other : String) :
    ofEntry other (fromEntry path scopeName).toList = .ok ⟨.ofText path, scopeName⟩ := by
  obtain ⟨-, hLast⟩ := (Text.trim_eq_self_iff _).mp hPath.trimmed
  obtain ⟨hHead, -⟩ := (Text.trim_eq_self_iff _).mp hScope.trimmed
  have hEnds : Text.wordEndsBefore (' ' :: scopeName.toList) = true := rfl
  have hSplit : splitFrom? (fromEntry path scopeName).toList =
      some (path.toList, scopeName.toList) := by
    rw [toList_fromEntry, splitFrom?_append hPath.noFrom hLast (by decide) (by simp) hEnds,
      List.dropWhile_cons_of_pos (by decide), (Text.dropWhile_blank_eq_self_iff _).mpr hHead]
  simp [ofEntry, hSplit, hPath.trimmed, hPath.nonempty, hScope.trimmed, hScope.nonempty]

end ApiSurvey.Root
