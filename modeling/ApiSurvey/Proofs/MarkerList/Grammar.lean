import ApiSurvey.MarkerList
import ApiSurvey.Proofs.MarkerList.Group
import ApiSurvey.Proofs.MarkerList.Path

/-! Marker lists as a grammar. Reading a list succeeds exactly on the texts of the
grammar, and gives the names that the text lists. -/
namespace ApiSurvey.MarkerList

/-- What may follow a path: nothing, one group, or an equals sign and a value
without a comma of its own. -/
inductive Suffix : List Char → Prop where
  | nothing : Suffix []
  | group {opener closer : Char} {inner : List Char} (hPair : Pair opener closer)
      (hInner : Nested true inner) : Suffix (opener :: (inner ++ [closer]))
  | value {value : List Char} (hValue : Nested false value) (hSome : ¬ Text.Blanks value) :
      Suffix ('=' :: value)

/-- A path and what may follow it, with blanks between them. -/
inductive MarkerText : QualifiedName → List Char → Prop where
  | mk {name : QualifiedName} {path gap suffix : List Char} (hPath : PathText name path)
      (hGap : Text.Blanks gap) (hSuffix : Suffix suffix) :
      MarkerText name (path ++ (gap ++ suffix))

/-- A marker with blanks around it. -/
inductive ItemText : QualifiedName → List Char → Prop where
  | mk {name : QualifiedName} {before core after : List Char} (hBefore : Text.Blanks before)
      (hCore : MarkerText name core) (hAfter : Text.Blanks after) :
      ItemText name (before ++ core ++ after)

/-- Argument texts and the names that they list. One comma may follow the last
item. -/
inductive ListText : List QualifiedName → List Char → Prop where
  | blank {text : List Char} (hText : Text.Blanks text) : ListText [] text
  | plain {names : List QualifiedName} {items : List (List Char)} (hSome : items ≠ [])
      (hItems : List.Forall₂ ItemText names items) : ListText names (joined items)
  | trailing {names : List QualifiedName} {items : List (List Char)} {after : List Char}
      (hSome : items ≠ []) (hItems : List.Forall₂ ItemText names items)
      (hAfter : Text.Blanks after) : ListText names (joined items ++ ',' :: after)

/-- Nothing in what may stand behind a path is left open. -/
theorem Suffix.nested {suffix : List Char} (hSuffix : Suffix suffix) : Nested false suffix := by
  cases hSuffix with
  | nothing => exact .nil
  | group hPair hInner => exact .group hPair hInner .nil
  | value hValue _ => exact .plain (by simp [Plain]) (by simp) hValue

/-- A suffix starts with a character that no path can go on with. -/
theorem Suffix.head_spec {suffix : List Char} (hSuffix : Suffix suffix) {c : Char}
    (hFirst : c ∈ suffix.head?) :
    Text.isBlank c = false ∧ ¬ IdentRest c ∧ c ≠ '#' ∧ c ≠ ':' := by
  have hChar : c = '(' ∨ c = '[' ∨ c = '{' ∨ c = '=' := by
    cases hSuffix with
    | nothing => cases hFirst
    | group hPair _ => cases hPair <;> simp [← Option.some.inj hFirst]
    | value _ _ => simp [← Option.some.inj hFirst]
  rcases hChar with rfl | rfl | rfl | rfl <;> decide

theorem Suffix.dropWhile_blank {suffix : List Char} (hSuffix : Suffix suffix) :
    suffix.dropWhile Text.isBlank = suffix := by
  rw [Text.dropWhile_blank_eq_self_iff]
  intro c hFirst
  exact (hSuffix.head_spec hFirst).1

/-- No path goes on into what may stand behind it. -/
theorem Suffix.endsPath {gap suffix : List Char} (hGap : Text.Blanks gap)
    (hSuffix : Suffix suffix) : EndsPath (gap ++ suffix) := by
  constructor
  · cases gap with
    | nil =>
        intro c hFirst
        obtain ⟨-, hRest, hHash, -⟩ := hSuffix.head_spec hFirst
        exact ⟨hRest, hHash⟩
    | cons c gap => exact endsIdent_of_blank (hGap c (List.mem_cons_self ..)) _
  · rw [List.dropWhile_append_of_pos hGap, hSuffix.dropWhile_blank]
    intro hFirst
    exact (hSuffix.head_spec hFirst).2.2.2 rfl

/-- Blanks at the end of a suffix belong to its value, and it is a suffix without
them too. -/
theorem Suffix.trimEnd {suffix : List Char} (hSuffix : Suffix suffix) :
    Suffix (Text.trimEnd suffix) := by
  cases hSuffix with
  | nothing => exact .nothing
  | @group opener closer inner hPair hInner =>
      have hCloser : Text.isBlank closer = false := by cases hPair <;> rfl
      have hTrim := Text.trimEnd_concat_append (opener :: inner) hCloser []
      simp only [List.append_nil, List.cons_append, Text.trimEnd_nil] at hTrim
      rw [hTrim]
      exact .group hPair hInner
  | @value value hValue hSome =>
      have hEquals : Text.isBlank '=' = false := rfl
      have hTrim := Text.trimEnd_concat_append [] hEquals value
      simp only [List.nil_append, List.singleton_append] at hTrim
      rw [hTrim]
      obtain ⟨blanks, hBlanks, hEq⟩ := Text.trimEnd_exists value
      refine .value ?_ ?_
      · rw [hEq] at hValue
        exact hValue.of_append_plain fun c hMem => (plain_of_isBlank (hBlanks c hMem)).1
      · intro hTrimmed
        rw [hEq] at hSome
        exact hSome (Text.blanks_append.mpr ⟨hTrimmed, hBlanks⟩)

/-- A value is an equals sign with more than blanks behind it. -/
theorem isNameValue_iff {text : List Char} :
    isNameValue text = true ↔ ∃ value, text = '=' :: value ∧ ¬ Text.Blanks value := by
  unfold isNameValue
  split
  · next value =>
    rw [Bool.not_eq_true', ← Bool.not_eq_true, Text.isBlankText_iff]
    simp
  · next hOther =>
    constructor
    · intro hFalse
      cases hFalse
    · intro hValue
      obtain ⟨value, rfl, -⟩ := hValue
      exact (hOther value rfl).elim

/-- The check of what stands behind a path accepts just what may stand there, if
delimiters pair up in it. -/
theorem isSuffix_iff {text : List Char} (hText : Nested false text) :
    isSuffix text = true ↔ Suffix text := by
  have hEquals : Plain '=' := by simp [Plain]
  rw [isSuffix, Bool.or_eq_true, Bool.or_eq_true, List.isEmpty_iff, isSingleGroup_iff hText,
    isNameValue_iff]
  constructor
  · intro hCases
    rcases hCases with (rfl | ⟨opener, closer, inner, hPair, hInner, rfl⟩) | ⟨value, rfl, hSome⟩
    · exact .nothing
    · exact .group hPair hInner
    · exact .value (hText.of_cons_plain hEquals) hSome
  · intro hSuffix
    cases hSuffix with
    | nothing => exact .inl (.inl rfl)
    | group hPair hInner => exact .inl (.inr ⟨_, _, _, hPair, hInner, rfl⟩)
    | value _ hSome => exact .inr ⟨_, rfl, hSome⟩

theorem IdentRest.plain {c : Char} (hRest : IdentRest c) : Plain c ∧ c ≠ ',' := by
  constructor
  · intro hMem
    simp only [List.mem_cons, List.not_mem_nil, or_false] at hMem
    rcases hMem with rfl | rfl | rfl | rfl | rfl | rfl | rfl <;> exact absurd hRest (by decide)
  · rintro rfl
    exact absurd hRest (by decide)

theorem Ident.plain_of_mem {ident : List Char} (hIdent : Ident ident) {c : Char}
    (hMem : c ∈ ident) : Plain c ∧ c ≠ ',' := by
  rcases hIdent.mem hMem with hRest | rfl
  · exact hRest.plain
  · exact ⟨by simp [Plain], by decide⟩

theorem plain_colon : Plain ':' ∧ ':' ≠ ',' :=
  ⟨by simp [Plain], by decide⟩

/-- In a path there are no delimiters, no quotation marks and no commas. -/
theorem Further.plain_of_mem {idents : List (List Char)} {text : List Char}
    (hText : Further idents text) {c : Char} (hMem : c ∈ text) : Plain c ∧ c ≠ ',' := by
  induction hText with
  | nil => cases hMem
  | cons hBefore hAfter hIdent _ ih =>
      simp only [List.mem_append, List.mem_cons] at hMem
      rcases hMem with hMem | rfl | rfl | hMem | hMem | hMem
      · exact plain_of_isBlank (hBefore c hMem)
      · exact plain_colon
      · exact plain_colon
      · exact plain_of_isBlank (hAfter c hMem)
      · exact hIdent.plain_of_mem hMem
      · exact ih hMem

/-- Paths have no part in the nesting of a text. -/
theorem PathText.plain_of_mem {name : QualifiedName} {path : List Char} (hPath : PathText name path)
    {c : Char} (hMem : c ∈ path) : Plain c ∧ c ≠ ',' := by
  cases hPath with
  | relative hIdent hText =>
      rcases List.mem_append.mp hMem with hMem | hMem
      · exact hIdent.plain_of_mem hMem
      · exact hText.plain_of_mem hMem
  | absolute hBlanks hIdent hText =>
      simp only [List.mem_append, List.mem_cons] at hMem
      rcases hMem with rfl | rfl | hMem | hMem | hMem
      · exact plain_colon
      · exact plain_colon
      · exact plain_of_isBlank (hBlanks c hMem)
      · exact hIdent.plain_of_mem hMem
      · exact hText.plain_of_mem hMem

/-- Nothing in the text of a marker is left open, and no comma in it divides it. -/
theorem MarkerText.nested {name : QualifiedName} {text : List Char} (hText : MarkerText name text) :
    Nested false text := by
  obtain ⟨hPath, hGap, hSuffix⟩ := hText
  have hPathNested : Nested false _ := .of_plain fun c hMem => hPath.plain_of_mem hMem
  exact hPathNested.append ((Nested.of_blanks hGap).append hSuffix.nested)

theorem ItemText.nested {name : QualifiedName} {item : List Char} (hItem : ItemText name item) :
    Nested false item := by
  obtain ⟨hBefore, hCore, hAfter⟩ := hItem
  exact ((Nested.of_blanks hBefore).append hCore.nested).append (.of_blanks hAfter)

/-- A path with an accepted suffix is read as the marker of this path. -/
theorem marker_append {name : QualifiedName} {path rest : List Char} (hPath : PathText name path)
    (hRest : EndsPath rest) (hSuffix : isSuffix (Text.trim rest) = true) :
    marker (path ++ rest) = .ok name := by
  obtain ⟨init, last, hEnd, -⟩ := hPath.exists_concat
  have hSome : (path ++ rest).isEmpty = false := by simp [hEnd]
  simp [marker, hSome, path?_append hPath hRest, hSuffix]

/-- The text of a marker is read as this marker. -/
theorem MarkerText.marker_trim {name : QualifiedName} {text : List Char}
    (hText : MarkerText name text) : marker (Text.trim text) = .ok name := by
  cases hText with
  | @mk path gap suffix hPath hGap hSuffix =>
      obtain ⟨left, hLeft, hTrimEnd⟩ := Text.trimEnd_blanks_append hGap suffix
      have hTrimmed : Suffix (Text.trimEnd suffix) := hSuffix.trimEnd
      have hRest : Text.trim (left ++ Text.trimEnd suffix) = Text.trimEnd suffix := by
        rw [Text.trim_blanks_append hLeft, Text.trim, hTrimmed.dropWhile_blank,
          Text.trimEnd_trimEnd]
      rw [hPath.trim_append, hTrimEnd]
      apply marker_append hPath (hTrimmed.endsPath hLeft)
      rw [hRest]
      exact (isSuffix_iff hTrimmed.nested).mpr hTrimmed

/-- What is read as a marker is the text of one, up to blanks behind it. This is
where the path that was read is put back together with its suffix. -/
theorem marker_sound {name : QualifiedName} {item : List Char} (hItem : Nested false item)
    (hMarker : marker item = .ok name) :
    ∃ core after, item = core ++ after ∧ MarkerText name core ∧ Text.Blanks after := by
  unfold marker at hMarker
  split_ifs at hMarker
  split at hMarker
  · cases hMarker
  · next path rest hRead =>
    split_ifs at hMarker with hSuffix
    obtain rfl := Except.ok.inj hMarker
    obtain ⟨read, rfl, hPath⟩ := path?_sound hRead
    have hRest : Nested false rest :=
      hItem.of_plain_append fun c hMem => (hPath.plain_of_mem hMem).1
    obtain ⟨gap, after, hGap, hAfter, hEq⟩ := Text.trim_exists rest
    refine ⟨read ++ (gap ++ Text.trim rest), after, ?_, ?_, hAfter⟩
    · rw [List.append_assoc, ← hEq]
    · exact .mk hPath hGap ((isSuffix_iff hRest.trim).mp hSuffix)

/-- A well-nested item is read exactly when it is a path with a suffix, blanks
around it left out. -/
theorem marker_trim_eq_ok_iff {name : QualifiedName} {item : List Char}
    (hItem : Nested false item) : marker (Text.trim item) = .ok name ↔ ItemText name item := by
  constructor
  · intro hMarker
    obtain ⟨core, behind, hCore, hText, hBehind⟩ := marker_sound hItem.trim hMarker
    obtain ⟨before, after, hBefore, hAfter, hEq⟩ := Text.trim_exists item
    have hSplit : item = before ++ core ++ (behind ++ after) := by
      rw [hEq, hCore]
      simp only [List.append_assoc]
    rw [hSplit]
    exact .mk hBefore hText (Text.blanks_append.mpr ⟨hBehind, hAfter⟩)
  · intro hItemText
    obtain ⟨hBefore, hCore, hAfter⟩ := hItemText
    rw [Text.trim_append_blanks hAfter, Text.trim_blanks_append hBefore]
    exact hCore.marker_trim

section Entries

variable {items : List (List Char)} {last : List Char}

theorem entries_blank (hLast : Text.Blanks last) : entries ([last].map Text.trim) = [] := by
  have hTrim : Text.trim last = [] := (Text.trim_eq_nil_iff last).mpr hLast
  simp [entries, hTrim]

theorem entries_trailing (hSome : items ≠ []) (hLast : Text.Blanks last) :
    entries ((items ++ [last]).map Text.trim) = items.map Text.trim := by
  have hTrim : Text.trim last = [] := (Text.trim_eq_nil_iff last).mpr hLast
  have hLength : 0 < items.length := List.length_pos_iff.mpr hSome
  have hMore : (items.map Text.trim ++ [[]] == [[]]) = false := by
    rw [beq_eq_false_iff_ne]
    intro hEq
    have hLengths := congrArg List.length hEq
    simp at hLengths
    exact hSome hLengths
  simp [entries, hTrim, hMore, hLength]

theorem entries_plain (hLast : ¬ Text.Blanks last) :
    entries ((items ++ [last]).map Text.trim) = (items ++ [last]).map Text.trim := by
  have hTrim : Text.trim last ≠ [] := fun hEmpty => hLast ((Text.trim_eq_nil_iff last).mp hEmpty)
  have hMore : (items.map Text.trim ++ [Text.trim last] == [[]]) = false := by
    rw [beq_eq_false_iff_ne]
    intro hEq
    have hEnd := congrArg List.getLast? hEq
    simp at hEnd
    exact hTrim hEnd
  simp [entries, hTrim, hMore]

end Entries

/-- Items are read as markers exactly if each is the text of its marker. -/
theorem mapM_marker_eq_ok_iff {items : List (List Char)} (names : List QualifiedName)
    (hItems : ∀ item ∈ items, Nested false item) :
    (items.map Text.trim).mapM marker = .ok names ↔ List.Forall₂ ItemText names items := by
  rw [Sequence.mapM_eq_ok_iff, List.forall₂_map_left_iff]
  constructor
  · intro hRead
    have hBoth := (List.forall₂_and_left _ _).mpr ⟨hItems, hRead⟩
    exact (hBoth.imp fun item name hItem => (marker_trim_eq_ok_iff hItem.1).mp hItem.2).flip
  · intro hText
    exact hText.flip.imp fun item name hItem => (marker_trim_eq_ok_iff hItem.nested).mpr hItem

/-- There is an identifier in every item, so none is blank. -/
theorem ItemText.not_blanks {name : QualifiedName} {item : List Char} (hItem : ItemText name item) :
    ¬ Text.Blanks item := by
  intro hBlanks
  have hMarker := (marker_trim_eq_ok_iff hItem.nested).mpr hItem
  rw [(Text.trim_eq_nil_iff item).mpr hBlanks] at hMarker
  cases hMarker

theorem itemTexts_spec {names : List QualifiedName} {items : List (List Char)}
    (hItems : List.Forall₂ ItemText names items) :
    ∀ item ∈ items, Nested false item ∧ ¬ Text.Blanks item := by
  induction hItems with
  | nil => simp
  | cons hItem _ ih => exact List.forall_mem_cons.mpr ⟨⟨hItem.nested, hItem.not_blanks⟩, ih⟩

/-- Items that are joined are divided again, so what is read are the items without
blanks around them. -/
theorem ofChars_joined {items : List (List Char)} (hSome : items ≠ [])
    (hItems : ∀ item ∈ items, Nested false item) :
    ofChars (joined items) = (entries (items.map Text.trim)).mapM marker := by
  have hRead : MarkerList.items (joined items) = .ok items :=
    (items_eq_ok_iff _ _).mpr ⟨hSome, hItems, rfl⟩
  simp [ofChars, hRead]

/-- What is read is a list of the markers that were read. -/
theorem ListText.of_ofChars {names : List QualifiedName} {text : List Char}
    (hRead : ofChars text = .ok names) : ListText names text := by
  obtain ⟨items, hItems⟩ : ∃ items, MarkerList.items text = .ok items := by
    cases hFound : MarkerList.items text with
    | error problem => simp [ofChars, hFound] at hRead
    | ok items => exact ⟨items, rfl⟩
  obtain ⟨hSome, hNested, rfl⟩ := (items_eq_ok_iff _ _).mp hItems
  rw [ofChars_joined hSome hNested] at hRead
  obtain rfl | ⟨init, last, rfl⟩ := List.eq_nil_or_concat' items
  · exact (hSome rfl).elim
  · -- A blank last item is what follows the last comma, or else the whole text.
    by_cases hLast : Text.Blanks last
    · by_cases hInit : init = []
      · subst hInit
        rw [List.nil_append, entries_blank hLast] at hRead
        obtain rfl := Except.ok.inj hRead
        rw [List.nil_append, joined_singleton]
        exact .blank hLast
      · rw [entries_trailing hInit hLast, mapM_marker_eq_ok_iff names fun item hMem =>
          hNested item (List.mem_append_left _ hMem)] at hRead
        rw [joined_concat last hInit]
        exact .trailing hInit hRead hLast
    · rw [entries_plain hLast, mapM_marker_eq_ok_iff names hNested] at hRead
      exact .plain hSome hRead

/-- A list of markers is read as these, with or without a comma behind the last. -/
theorem ListText.ofChars {names : List QualifiedName} {text : List Char}
    (hText : ListText names text) : ofChars text = .ok names := by
  cases hText with
  | blank hText =>
      have hItems : ∀ item ∈ [text], Nested false item := by simp [Nested.of_blanks hText]
      have hJoined := ofChars_joined (List.cons_ne_nil text []) hItems
      rw [joined_singleton, entries_blank hText] at hJoined
      exact hJoined
  | @plain _ items hSome hItems =>
      have hSpec := itemTexts_spec hItems
      have hNested : ∀ item ∈ items, Nested false item := fun item hMem => (hSpec item hMem).1
      obtain rfl | ⟨init, last, rfl⟩ := List.eq_nil_or_concat' items
      · exact (hSome rfl).elim
      · have hLast : ¬ Text.Blanks last := (hSpec last (by simp)).2
        rw [ofChars_joined hSome hNested, entries_plain hLast, mapM_marker_eq_ok_iff names hNested]
        exact hItems
  | @trailing _ items after hSome hItems hAfter =>
      have hNested : ∀ item ∈ items, Nested false item := fun item hMem =>
        (itemTexts_spec hItems item hMem).1
      have hAll : ∀ item ∈ items ++ [after], Nested false item := by
        intro item hMem
        rcases List.mem_append.mp hMem with hMem | hMem
        · exact hNested item hMem
        · rw [List.mem_singleton.mp hMem]
          exact .of_blanks hAfter
      rw [← joined_concat after hSome, ofChars_joined (by simp) hAll,
        entries_trailing hSome hAfter, mapM_marker_eq_ok_iff names hNested]
      exact hItems

/-- A text is read as a list of markers exactly when the grammar has it, and the
names are those that the grammar gives it. -/
theorem ofChars_eq_ok_iff (text : List Char) (names : List QualifiedName) :
    ofChars text = .ok names ↔ ListText names text :=
  ⟨ListText.of_ofChars, ListText.ofChars⟩

example : ofChars "a :: B , ::r#type (x, \")\"), c = \"v,\", ".toList =
    .ok [⟨["a", "B"], false⟩, ⟨["r#type"], true⟩, ⟨["c"], false⟩] := by
  rfl

/-- An attribute with arguments lists markers exactly when the grammar has the
arguments, and lists the names that the grammar gives them, whatever the
attribute is called and wherever it stands. The path of a name, once its blanks
are left out, spells the name for the reader of names too. -/
theorem markersOn_eq_ok_iff_listText (path : QualifiedName) (text declaration : String) :
    (∀ names, (Attribute.mk path (some text)).markersOn declaration = .ok names ↔
      ListText names text.toList) ∧
    ∀ name spelling, PathText name spelling →
      QualifiedName.ofChars (spelling.filter isKept) = name := by
  refine ⟨fun names => ?_, fun name spelling hPath => hPath.ofChars_filter⟩
  rw [← ofChars_eq_ok_iff, Attribute.markersOn, Attribute.markers]
  exact Sequence.mapError_eq_ok_iff _ _ _

end ApiSurvey.MarkerList
