import ApiSurvey.Proofs.Settings.Roots
import ApiSurvey.Proofs.Text.Word

/-! Single entries in a list of roots. An entry is cut at its first word `from` that
has blanks in front of it, and since entries are trimmed before, its first character
is never part of that separator. So a path is never missing, and only the name of a
scope can be: where the word ends the entry. The word at the start of an entry has no
blank in front of it and belongs to the path like any other. -/
namespace ApiSurvey.Root

/-- The first separator cuts a text into a path and what follows. The separator is the
word `from` with blanks before it, and it takes all blanks on both sides. -/
structure FirstFrom (text path scope : List Char) : Prop where
  split : ∃ gap behind, text = path ++ gap ++ (fromWord ++ (behind ++ scope)) ∧
    Text.Blanks gap ∧ gap ≠ [] ∧ Text.Blanks behind ∧ Text.wordEndsBefore (behind ++ scope) = true
  noFrom : ¬ HasFrom path
  pathEnd : ∀ c ∈ path.getLast?, Text.isBlank c = false
  scopeStart : ∀ c ∈ scope.head?, Text.isBlank c = false

/-- Blanks at the end do not undo a separator. -/
theorem HasFrom.append_blanks {text blanks : List Char} (hFrom : HasFrom text)
    (hBlanks : Text.Blanks blanks) : HasFrom (text ++ blanks) := by
  obtain ⟨before, blank, after, rfl, hBlank, hEnds⟩ := hFrom
  refine ⟨before, blank, after ++ blanks, by simp, hBlank, ?_⟩
  cases blanks with
  | nil => simpa using hEnds
  | cons c blanks => exact Text.wordEndsBefore_append_blank hEnds (hBlanks c (by simp)) blanks

/-- Behind blanks and the word that separates, the scope is read without the blanks
before it. -/
theorem afterFrom?_dropWhile {gap after : List Char} (hGap : Text.Blanks gap)
    (hEnds : Text.wordEndsBefore after = true) :
    afterFrom? ((gap ++ (fromWord ++ after)).dropWhile Text.isBlank) =
      some (after.dropWhile Text.isBlank) := by
  rw [List.dropWhile_append_of_pos hGap, dropWhile_blank_fromWord, afterFrom?_eq_some_iff]
  exact ⟨after, rfl, hEnds, rfl⟩

/-- A separator further on is still the first one, unless one starts right here. -/
theorem FirstFrom.cons {c : Char} {rest path scope : List Char} (hCut : FirstFrom rest path scope)
    (hHere : Text.isBlank c = true → afterFrom? (rest.dropWhile Text.isBlank) = none) :
    FirstFrom (c :: rest) (c :: path) scope := by
  obtain ⟨⟨gap, behind, rfl, hGap, hSome, hBehind, hEnds⟩, hFrom, hPath, hScope⟩ := hCut
  refine ⟨⟨gap, behind, rfl, hGap, hSome, hBehind, hEnds⟩, ?_, ?_, hScope⟩
  · rintro ⟨before, blank, after, hSplit, hBlank, hAfter⟩
    cases before with
    | nil =>
        obtain ⟨rfl, rfl⟩ := List.cons.inj hSplit
        obtain ⟨first, gap, rfl⟩ := List.exists_cons_of_ne_nil hSome
        have hWord := Text.wordEndsBefore_append_blank hAfter (hGap first (by simp))
          (gap ++ (fromWord ++ (behind ++ scope)))
        have hFound := afterFrom?_dropWhile Text.blanks_nil hWord
        have hNone := hHere hBlank
        simp only [List.nil_append, List.append_assoc, List.cons_append] at hFound hNone
        rw [hFound] at hNone
        cases hNone
    | cons first before =>
        obtain ⟨rfl, rfl⟩ := List.cons.inj hSplit
        exact hFrom ⟨before, blank, after, rfl, hBlank, hAfter⟩
  · cases path with
    | nil =>
        -- a blank right before the separator would belong to it
        rw [List.nil_append, afterFrom?_dropWhile hGap hEnds] at hHere
        simpa using hHere
    | cons first path =>
        intro last hLast
        exact hPath last (by simpa [List.getLast?_cons] using hLast)

/-- A separator that starts right here is the first one. -/
theorem firstFrom_of_here {c : Char} {rest scope : List Char} (hBlank : Text.isBlank c = true)
    (hHere : afterFrom? (rest.dropWhile Text.isBlank) = some scope) :
    FirstFrom (c :: rest) [] scope := by
  obtain ⟨after, hRest, hEnds, rfl⟩ := (afterFrom?_eq_some_iff _ _).mp hHere
  have hGap : Text.Blanks (c :: rest.takeWhile Text.isBlank) :=
    List.forall_mem_cons.mpr ⟨hBlank, Text.blanks_takeWhile rest⟩
  refine ⟨⟨c :: rest.takeWhile Text.isBlank, after.takeWhile Text.isBlank, ?_, hGap, by simp,
    Text.blanks_takeWhile after, ?_⟩, ?_, by simp, ?_⟩
  · rw [List.takeWhile_append_dropWhile, ← hRest, List.nil_append, List.cons_append,
      List.takeWhile_append_dropWhile]
  · rwa [List.takeWhile_append_dropWhile]
  · rintro ⟨before, blank, after, hNil, -⟩
    simp at hNil
  · exact (Text.dropWhile_blank_eq_self_iff _).mp (List.dropWhile_idempotent _ _)

/-- A text is cut at its first separator, as long as it has one. -/
theorem splitFrom?_eq_some_iff (text path scope : List Char) :
    splitFrom? text = some (path, scope) ↔ FirstFrom text path scope := by
  constructor
  · intro hSplit
    induction text generalizing path with
    | nil => cases hSplit
    | cons c rest ih =>
        by_cases hHere : Text.isBlank c = true → afterFrom? (rest.dropWhile Text.isBlank) = none
        · rw [splitFrom?_cons hHere] at hSplit
          obtain ⟨⟨path, scope⟩, hRest, hSame⟩ := Option.map_eq_some_iff.mp hSplit
          cases hSame
          exact (ih path hRest).cons hHere
        · obtain ⟨hBlank, hSome⟩ := Classical.not_imp.mp hHere
          obtain ⟨found, hFound⟩ := Option.ne_none_iff_exists'.mp hSome
          rw [splitFrom?_of_here hBlank hFound] at hSplit
          cases hSplit
          exact firstFrom_of_here hBlank hFound
  · rintro ⟨⟨gap, behind, rfl, hGap, hSome, hBehind, hEnds⟩, hFrom, hPath, hScope⟩
    rw [splitFrom?_append hFrom hPath hGap hSome hEnds, List.dropWhile_append_of_pos hBehind,
      (Text.dropWhile_blank_eq_self_iff _).mpr hScope]

/-- Every text has no separator or a first one. -/
theorem not_hasFrom_or_firstFrom (text : List Char) :
    ¬ HasFrom text ∨ ∃ path scope, FirstFrom text path scope := by
  simp only [← splitFrom?_eq_none_iff, ← splitFrom?_eq_some_iff]
  cases splitFrom? text with
  | none => exact .inl rfl
  | some parts => exact .inr ⟨parts.1, parts.2, rfl⟩

/-- The part of an entry that spells its path: what comes before the first separator,
and all of it if there is none. -/
inductive PathPart (entry : List Char) : List Char → Prop where
  | whole (noFrom : ¬ HasFrom entry) : PathPart entry entry
  | cut {path scope : List Char} (first : FirstFrom entry path scope) : PathPart entry path

/-- The path of an entry is what stands before its first separator, and all of it if
there is none. -/
theorem pathPart_iff (entry part : List Char) :
    PathPart entry part ↔
      splitFrom? entry = none ∧ part = entry ∨ ∃ scope, splitFrom? entry = some (part, scope) := by
  simp only [splitFrom?_eq_none_iff, splitFrom?_eq_some_iff]
  constructor
  · rintro (hFrom | hCut)
    · exact .inl ⟨hFrom, rfl⟩
    · exact .inr ⟨_, hCut⟩
  · rintro (⟨hFrom, rfl⟩ | ⟨scope, hCut⟩)
    · exact .whole hFrom
    · exact .cut hCut

/-- Every entry has one such part. -/
theorem exists_pathPart (entry : List Char) :
    ∃ path, ∀ part, PathPart entry part ↔ part = path := by
  simp only [pathPart_iff]
  cases splitFrom? entry with
  | none => exact ⟨entry, by simp⟩
  | some parts => exact ⟨parts.1, by simp [Prod.ext_iff, eq_comm]⟩

/-- The path of a trimmed entry is not empty, since the separator starts with a blank
and the entry does not. -/
theorem FirstFrom.head?_path {entry path scope : List Char} (hCut : FirstFrom entry path scope)
    (hTrim : Text.trim entry = entry) : path ≠ [] ∧ path.head? = entry.head? := by
  obtain ⟨⟨gap, behind, rfl, hGap, hSome, -⟩, -⟩ := hCut
  obtain ⟨hFirst, -⟩ := (Text.trim_eq_self_iff _).mp hTrim
  cases path with
  | nil =>
      -- the entry would start with a blank of the separator
      obtain ⟨blank, gap, rfl⟩ := List.exists_cons_of_ne_nil hSome
      have hBlank := hGap blank (by simp)
      rw [hFirst blank (by simp)] at hBlank
      cases hBlank
  | cons c path => exact ⟨by simp, rfl⟩

/-- With or without a separator, the path starts as the entry does. -/
theorem PathPart.head?_eq {entry path : List Char} (hPart : PathPart entry path)
    (hTrim : Text.trim entry = entry) (hSome : entry ≠ []) :
    path ≠ [] ∧ path.head? = entry.head? := by
  cases hPart with
  | whole => exact ⟨hSome, rfl⟩
  | cut hCut => exact hCut.head?_path hTrim

/-- There are no blanks around the path: those behind it belong to the separator. -/
theorem FirstFrom.trim_path {entry path scope : List Char} (hCut : FirstFrom entry path scope)
    (hTrim : Text.trim entry = entry) : Text.trim path = path := by
  obtain ⟨-, hHead⟩ := hCut.head?_path hTrim
  obtain ⟨hFirst, -⟩ := (Text.trim_eq_self_iff _).mp hTrim
  exact (Text.trim_eq_self_iff _).mpr ⟨hHead ▸ hFirst, hCut.pathEnd⟩

/-- There are no blanks around the scope: those before it belong to the separator. -/
theorem FirstFrom.trim_scope {entry path scope : List Char} (hCut : FirstFrom entry path scope)
    (hTrim : Text.trim entry = entry) : Text.trim scope = scope := by
  obtain ⟨⟨gap, behind, rfl, -⟩, -, -, hStart⟩ := hCut
  obtain ⟨-, hLast⟩ := (Text.trim_eq_self_iff _).mp hTrim
  refine (Text.trim_eq_self_iff _).mpr ⟨hStart, ?_⟩
  by_cases hSome : scope = []
  · simp [hSome]
  · rwa [← List.append_assoc, ← List.append_assoc, List.getLast?_append_of_ne_nil _ hSome] at hLast

/-- An entry with a separator is read as what stands on both sides of it. -/
theorem ofEntry_of_firstFrom {entry path scope : List Char} (hCut : FirstFrom entry path scope)
    (hTrim : Text.trim entry = entry) (scopeName : String) :
    ofEntry scopeName entry =
      if scope = [] then .error (.noScopeName (String.ofList entry))
      else .ok ⟨.ofText (String.ofList path), String.ofList scope⟩ := by
  obtain ⟨hSome, -⟩ := hCut.head?_path hTrim
  have hSplit := (splitFrom?_eq_some_iff _ _ _).mpr hCut
  simp [ofEntry, hSplit, hCut.trim_path hTrim, hCut.trim_scope hTrim, hSome]

/-- An entry without a separator is a path as a whole, in the scope that is given. -/
theorem ofEntry_of_not_hasFrom {entry : List Char} (hFrom : ¬ HasFrom entry)
    (hTrim : Text.trim entry = entry) (hSome : entry ≠ []) (scopeName : String) :
    ofEntry scopeName entry =
      if scopeName = "" then .error (.noScopeName (String.ofList entry))
      else .ok ⟨.ofText (String.ofList entry), scopeName⟩ := by
  have hSplit := (splitFrom?_eq_none_iff _).mpr hFrom
  simp [ofEntry, hSplit, hTrim, hSome]

/-- An entry ends in the word `from` with blanks before it, where the name of a scope
should follow, and no separator comes earlier. -/
def Dangling (entry : List Char) : Prop :=
  ∃ path gap, entry = path ++ gap ++ fromWord ∧ Text.Blanks gap ∧ gap ≠ [] ∧ ¬ HasFrom path

/-- An entry that ends in a separator has an empty scope behind the first one. -/
theorem Dangling.exists_firstFrom {entry : List Char} (hEntry : Dangling entry) :
    ∃ path, FirstFrom entry path [] := by
  obtain ⟨path, gap, rfl, hGap, hSome, hFrom⟩ := hEntry
  -- the separator takes the blanks at the end of the path, too
  obtain ⟨blanks, hBlanks, hPath⟩ := Text.trimEnd_exists path
  refine ⟨Text.trimEnd path, ⟨blanks ++ gap, [], ?_, ?_, ?_, Text.blanks_nil, rfl⟩, ?_, ?_, by simp⟩
  · calc path ++ gap ++ fromWord
        = Text.trimEnd path ++ blanks ++ gap ++ fromWord := by rw [← hPath]
      _ = Text.trimEnd path ++ (blanks ++ gap) ++ (fromWord ++ ([] ++ [])) := by simp
  · exact Text.blanks_append.mpr ⟨hBlanks, hGap⟩
  · exact List.append_ne_nil_of_right_ne_nil _ hSome
  · intro hTrimmed
    exact hFrom (hPath ▸ hTrimmed.append_blanks hBlanks)
  · exact (Text.trimEnd_eq_self_iff _).mp (Text.trimEnd_trimEnd path)

/-- An entry with an empty scope ends in its separator. -/
theorem FirstFrom.dangling {entry path : List Char} (hCut : FirstFrom entry path [])
    (hTrim : Text.trim entry = entry) : Dangling entry := by
  obtain ⟨⟨gap, behind, rfl, hGap, hSome, hBehind, -⟩, hFrom, -⟩ := hCut
  obtain ⟨-, hLast⟩ := (Text.trim_eq_self_iff _).mp hTrim
  obtain rfl | ⟨init, last, rfl⟩ := List.eq_nil_or_concat' behind
  · exact ⟨path, gap, by simp, hGap, hSome, hFrom⟩
  · have hBlank := hBehind last (by simp)
    rw [hLast last (by simp)] at hBlank
    cases hBlank

/-- The name of a scope is missing exactly where the word ends an entry. -/
theorem ofEntry_eq_error_iff {entry : List Char} (hTrim : Text.trim entry = entry)
    (hSome : entry ≠ []) {scopeName : String} (hScope : scopeName ≠ "") (fault : SettingsFault) :
    ofEntry scopeName entry = .error fault ↔
      Dangling entry ∧ fault = .noScopeName (String.ofList entry) := by
  constructor
  · intro hFails
    obtain hFrom | ⟨path, scope, hCut⟩ := not_hasFrom_or_firstFrom entry
    · rw [ofEntry_of_not_hasFrom hFrom hTrim hSome, if_neg hScope] at hFails
      cases hFails
    · rw [ofEntry_of_firstFrom hCut hTrim] at hFails
      split at hFails
      · next hNil =>
          cases hFails
          exact ⟨(hNil ▸ hCut).dangling hTrim, rfl⟩
      · cases hFails
  · rintro ⟨hEntry, rfl⟩
    obtain ⟨path, hCut⟩ := hEntry.exists_firstFrom
    rw [ofEntry_of_firstFrom hCut hTrim, if_pos rfl]

/-- An entry is never refused for having no path. -/
theorem ofEntry_ne_noPath {entry : List Char} (hTrim : Text.trim entry = entry)
    (hSome : entry ≠ []) (scopeName other : String) :
    ofEntry scopeName entry ≠ .error (.noPath other) := by
  obtain hFrom | ⟨path, scope, hCut⟩ := not_hasFrom_or_firstFrom entry
  · rw [ofEntry_of_not_hasFrom hFrom hTrim hSome]
    split <;> simp
  · rw [ofEntry_of_firstFrom hCut hTrim]
    split <;> simp

/-- No separator starts in a text without blanks. -/
theorem splitFrom?_append_of_not_blank {start : List Char}
    (hStart : ∀ c ∈ start, Text.isBlank c = false) (rest : List Char) :
    splitFrom? (start ++ rest) =
      (splitFrom? rest).map fun (path, scope) => (start ++ path, scope) := by
  induction start with
  | nil => simp
  | cons c start ih =>
      obtain ⟨hFirst, hOthers⟩ := List.forall_mem_cons.mp hStart
      rw [List.cons_append, splitFrom?_cons (by simp [hFirst]), ih hOthers, Option.map_map]
      rfl

/-- The word that separates is no separator without a blank before it. -/
theorem hasFrom_fromWord_append (rest : List Char) :
    HasFrom (fromWord ++ rest) ↔ HasFrom rest := by
  rw [← not_iff_not, ← splitFrom?_eq_none_iff, ← splitFrom?_eq_none_iff,
    splitFrom?_append_of_not_blank not_blank_of_mem_fromWord, Option.map_eq_none_iff]

/-- The word at the start of an entry joins the path. -/
theorem FirstFrom.fromWord_append {rest path scope : List Char}
    (hCut : FirstFrom rest path scope) : FirstFrom (fromWord ++ rest) (fromWord ++ path) scope := by
  rw [← splitFrom?_eq_some_iff] at hCut ⊢
  rw [splitFrom?_append_of_not_blank not_blank_of_mem_fromWord, hCut]
  rfl

theorem comma_notMem_of_blanks {blanks : List Char} (hBlanks : Text.Blanks blanks) :
    ',' ∉ blanks := by
  intro hMem
  exact absurd (hBlanks _ hMem) (by decide)

/-- A root as someone writes it down: a path, and the name of a scope if it has one of
its own. -/
structure Entry where
  path : String
  scopeName : Option String
  plainPath : PlainPath path
  plainScope : ∀ name ∈ scopeName, Plain name

namespace Entry

/-- The root that is meant, where others are in the given scope. -/
def root (entry : Entry) (scopeName : String) : Root :=
  ⟨.ofText entry.path, entry.scopeName.getD scopeName⟩

/-- The texts that an entry may be written as. Blanks behind the word `from` can be left
out where the name does not go on like a word. -/
inductive SpelledBy (entry : Entry) : List Char → Prop where
  | path (unnamed : entry.scopeName = none) : SpelledBy entry entry.path.toList
  | pathAndScope {name : String} (gap behind : List Char) (named : entry.scopeName = some name)
      (gapBlanks : Text.Blanks gap) (gapSome : gap ≠ []) (behindBlanks : Text.Blanks behind)
      (apart : behind = [] → ∀ c ∈ name.toList.head?, Text.isWord c = false) :
      SpelledBy entry (entry.path.toList ++ gap ++ (fromWord ++ (behind ++ name.toList)))

/-- The name of a scope behind a separator is what is cut off, whatever the blanks
are. Blanks before the name are needed only if it starts with a character of words.
-/
theorem firstFrom_of_named {entry : Entry} {name : String} {gap behind : List Char}
    (hName : entry.scopeName = some name) (hGap : Text.Blanks gap) (hSome : gap ≠ [])
    (hBehind : Text.Blanks behind)
    (hApart : behind = [] → ∀ c ∈ name.toList.head?, Text.isWord c = false) :
    FirstFrom (entry.path.toList ++ gap ++ (fromWord ++ (behind ++ name.toList)))
      entry.path.toList name.toList := by
  obtain ⟨-, hLast⟩ := (Text.trim_eq_self_iff _).mp entry.plainPath.trimmed
  obtain ⟨hHead, -⟩ := (Text.trim_eq_self_iff _).mp (entry.plainScope name hName).trimmed
  have hEnds : Text.wordEndsBefore (behind ++ name.toList) = true := by
    cases behind with
    | nil => exact (Text.wordEndsBefore_iff _).mpr (hApart rfl)
    | cons blank behind =>
        have hNil : Text.wordEndsBefore [] = true := rfl
        exact Text.wordEndsBefore_append_blank hNil (hBehind blank (by simp)) _
  exact ⟨⟨gap, behind, rfl, hGap, hSome, hBehind, hEnds⟩, entry.plainPath.noFrom, hLast, hHead⟩

/-- There are no blanks around the spelling of an entry. -/
theorem SpelledBy.trim_eq {entry : Entry} {text : List Char} (hText : entry.SpelledBy text) :
    Text.trim text = text := by
  cases hText with
  | path => exact entry.plainPath.trimmed
  | pathAndScope gap behind hName =>
      obtain ⟨hHead, -⟩ := (Text.trim_eq_self_iff _).mp entry.plainPath.trimmed
      have hScope := entry.plainScope _ hName
      obtain ⟨-, hLast⟩ := (Text.trim_eq_self_iff _).mp hScope.trimmed
      rw [Text.trim_eq_self_iff]
      constructor
      · rwa [List.append_assoc, List.head?_append_of_ne_nil _ entry.plainPath.toList_ne_nil]
      · rwa [← List.append_assoc, ← List.append_assoc,
          List.getLast?_append_of_ne_nil _ hScope.toList_ne_nil]

theorem SpelledBy.ne_nil {entry : Entry} {text : List Char} (hText : entry.SpelledBy text) :
    text ≠ [] := by
  cases hText with
  | path => exact entry.plainPath.toList_ne_nil
  | pathAndScope => simp [fromWord]

/-- No comma is in the spelling of an entry, so none divides it. -/
theorem SpelledBy.noComma {entry : Entry} {text : List Char} (hText : entry.SpelledBy text) :
    ',' ∉ text := by
  cases hText with
  | path => exact entry.plainPath.noComma
  | pathAndScope gap behind hName hGap _ hBehind =>
      have hScope := entry.plainScope _ hName
      simp [fromWord, entry.plainPath.noComma, hScope.noComma, comma_notMem_of_blanks hGap,
        comma_notMem_of_blanks hBehind]

/-- However an entry is spelled, it is read as the root that is meant. -/
theorem SpelledBy.ofEntry_eq {entry : Entry} {text : List Char} (hText : entry.SpelledBy text)
    {scopeName : String} (hScope : scopeName ≠ "") :
    ofEntry scopeName text = .ok (entry.root scopeName) := by
  have hTrim := hText.trim_eq
  have hSome := hText.ne_nil
  cases hText with
  | path hName =>
      rw [ofEntry_of_not_hasFrom entry.plainPath.noFrom hTrim hSome, if_neg hScope]
      simp [root, hName]
  | pathAndScope gap behind hName hGap hGapSome hBehind hApart =>
      have hCut := firstFrom_of_named hName hGap hGapSome hBehind hApart
      rw [ofEntry_of_firstFrom hCut hTrim, if_neg (entry.plainScope _ hName).toList_ne_nil]
      simp [root, hName]

end Entry

end ApiSurvey.Root
