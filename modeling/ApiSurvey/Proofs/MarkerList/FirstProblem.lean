import ApiSurvey.Proofs.MarkerList.Grammar
import ApiSurvey.Proofs.MarkerList.Unbalanced

/-! The problem that is reported of a text that is no list of markers. A text that is
not well nested has one of its own, before any of its items is looked at; otherwise
the leftmost bad item has it. -/
namespace ApiSurvey.MarkerList

/-- A text that starts with a path, of whatever length. -/
def StartsWithPath (text : List Char) : Prop :=
  ∃ name path rest, PathText name path ∧ text = path ++ rest

/-- Items that are no markers, each with its problem and the words for it. An item
that starts with a path is bad when the path with what follows it makes no marker. -/
inductive BadItem (item : List Char) : Problem → String → Prop where
  | blank (hBlank : Text.Blanks item) : BadItem item .emptyEntry "empty marker entry"
  | noPath (hSome : ¬ Text.Blanks item) (hPath : ¬ StartsWithPath (Text.trim item)) :
      BadItem item (.noPath (String.ofList (Text.trim item)))
        ("expected a marker path, found " ++ Text.quoted (String.ofList (Text.trim item)))
  | trailing (hPath : StartsWithPath (Text.trim item)) (hItem : ∀ name, ¬ ItemText name item) :
      BadItem item (.trailing (String.ofList (Text.trim item)))
        ("unexpected tokens after marker path in " ++
          Text.quoted (String.ofList (Text.trim item)))

/-- The problem of a text that comes first, and the words for it. A stray closer comes
before everything else. A literal that does not end comes next, whatever groups are
open, and only then a group that is not closed. In a text that is well nested it is the
leftmost bad item; a blank one at the very end does not count. -/
inductive FirstProblem (text : List Char) : Problem → String → Prop where
  | unexpected {closer : Char} (hStray : StrayCloser text closer) :
      FirstProblem text (.unexpected closer) ("unexpected '" ++ String.singleton closer ++ "'")
  | unterminated (hNoStray : ∀ closer, ¬ StrayCloser text closer)
      (hLiteral : EndsInLiteral text) :
      FirstProblem text .unterminatedString "unterminated string literal"
  | missing {closer : Char} (hNoStray : ∀ other, ¬ StrayCloser text other)
      (hNoLiteral : ¬ EndsInLiteral text) (hGroup : EndsInGroup text closer) :
      FirstProblem text (.missing closer) ("missing '" ++ String.singleton closer ++ "'")
  | item {before after : List (List Char)} {item : List Char} {problem : Problem} {words : String}
      (hText : text = joined (before ++ item :: after))
      (hNested : ∀ part ∈ before ++ item :: after, Nested false part)
      (hBefore : ∀ earlier ∈ before, ∃ name, ItemText name earlier)
      (hCounts : Text.Blanks item → after ≠ []) (hBad : BadItem item problem words) :
      FirstProblem text problem words

/-- Something is read as an identifier wherever one can start. -/
theorem exists_identifier? {c : Char} (hStart : IdentStart c) (rest : List Char) :
    ∃ read, identifier? (c :: rest) = some read := by
  have hPlain : ∃ read, plainIdentifier? (c :: rest) = some read := by
    rw [plainIdentifier?, if_pos ((startsIdentifier_iff c).mpr hStart)]
    exact ⟨_, rfl⟩
  unfold identifier?
  split
  · next rest' hEq =>
    split
    · exact ⟨_, rfl⟩
    · exact hPlain
  · exact hPlain

/-- Every identifier starts as identifiers may. -/
theorem Ident.exists_start {ident : List Char} (hIdent : Ident ident) :
    ∃ c tail, ident = c :: tail ∧ IdentStart c := by
  cases hIdent with
  | @plain c tail hStart _ => exact ⟨c, tail, rfl, hStart⟩
  | @raw c tail _ _ => exact ⟨'r', '#' :: c :: tail, rfl, .inr (.inl (by decide))⟩

/-- Something is read as a path wherever an identifier stands. -/
theorem exists_pathFrom? {ident : List Char} (hIdent : Ident ident) (isGlobal : Bool)
    (rest : List Char) : ∃ read, pathFrom? isGlobal (ident ++ rest) = some read := by
  obtain ⟨c, tail, rfl, hStart⟩ := hIdent.exists_start
  obtain ⟨read, hRead⟩ := exists_identifier? hStart (tail ++ rest)
  rw [pathFrom?, List.cons_append, hRead]
  exact ⟨_, rfl⟩

/-- Some path is read from a text exactly when the text starts with one. -/
theorem exists_path?_iff (text : List Char) :
    (∃ read, path? text = some read) ↔ StartsWithPath text := by
  constructor
  · rintro ⟨⟨name, rest⟩, hRead⟩
    obtain ⟨path, hText, hPath⟩ := path?_sound hRead
    exact ⟨name, path, rest, hPath, hText⟩
  · rintro ⟨name, path, rest, hPath, rfl⟩
    rw [path?_eq_pathFrom?]
    cases hPath with
    | relative hIdent _ =>
        rw [List.append_assoc, hIdent.afterSeparator?_append]
        exact exists_pathFrom? hIdent false _
    | absolute hBlanks hIdent _ =>
        simp only [List.cons_append, List.append_assoc, QualifiedName.afterSeparator?]
        rw [List.dropWhile_append_of_pos hBlanks, hIdent.dropWhile_blank]
        exact exists_pathFrom? hIdent true _

/-- A well-nested item that is not read is bad, with the problem that is reported. -/
theorem badItem_of_marker_trim {item : List Char} (hItem : Nested false item) {problem : Problem}
    (hMarker : marker (Text.trim item) = .error problem) :
    BadItem item problem problem.message := by
  have hNone : ∀ name, ¬ ItemText name item := by
    intro name hText
    rw [(marker_trim_eq_ok_iff hItem).mpr hText] at hMarker
    cases hMarker
  unfold marker at hMarker
  split_ifs at hMarker with hEmpty
  · obtain rfl := Except.error.inj hMarker
    exact .blank ((Text.trim_eq_nil_iff item).mp (List.isEmpty_iff.mp hEmpty))
  · have hSome : ¬ Text.Blanks item := by
      intro hBlank
      rw [(Text.trim_eq_nil_iff item).mpr hBlank] at hEmpty
      exact hEmpty rfl
    cases hRead : path? (Text.trim item) with
    | none =>
        rw [hRead] at hMarker
        obtain rfl := Except.error.inj hMarker
        refine .noPath hSome fun hPath => ?_
        obtain ⟨read, hFound⟩ := (exists_path?_iff _).mpr hPath
        rw [hRead] at hFound
        cases hFound
    | some read =>
        simp only [hRead] at hMarker
        split_ifs at hMarker
        obtain rfl := Except.error.inj hMarker
        exact .trailing ((exists_path?_iff _).mp ⟨read, hRead⟩) hNone

/-- A bad item is refused for what is wrong with it, with or without the blanks
around it. -/
theorem BadItem.marker_trim {item : List Char} (hItem : Nested false item) {problem : Problem}
    {words : String} (hBad : BadItem item problem words) :
    marker (Text.trim item) = .error problem := by
  cases hBad with
  | blank hBlank =>
      rw [(Text.trim_eq_nil_iff item).mpr hBlank]
      rfl
  | noPath hSome hPath =>
      have hEmpty : (Text.trim item).isEmpty = false := by
        rw [Bool.eq_false_iff, Ne, List.isEmpty_iff, Text.trim_eq_nil_iff]
        exact hSome
      have hRead : path? (Text.trim item) = none := by
        rw [Option.eq_none_iff_forall_ne_some]
        intro read hRead
        exact hPath ((exists_path?_iff _).mp ⟨read, hRead⟩)
      simp [marker, hEmpty, hRead]
  | trailing hPath hNone =>
      obtain ⟨⟨name, rest⟩, hRead⟩ := (exists_path?_iff _).mpr hPath
      have hEmpty : (Text.trim item).isEmpty = false := by
        rw [Bool.eq_false_iff, Ne, List.isEmpty_iff]
        intro hEmpty
        rw [hEmpty] at hRead
        cases hRead
      cases hSuffix : isSuffix (Text.trim rest) with
      | true =>
          have hMarker : marker (Text.trim item) = .ok name := by
            simp [marker, hEmpty, hRead, hSuffix]
          exact (hNone name ((marker_trim_eq_ok_iff hItem).mp hMarker)).elim
      | false => simp [marker, hEmpty, hRead, hSuffix]

/-- The items that count: all of them but a blank one at the end. -/
def counted (items : List (List Char)) : List (List Char) :=
  if Text.Blanks (items.getLastD []) then items.dropLast else items

/-- Only the last item can be left out, and it is if it is blank. -/
theorem counted_concat (items : List (List Char)) (last : List Char) :
    counted (items ++ [last]) = if Text.Blanks last then items else items ++ [last] := by
  simp [counted]

/-- The items that count are those that are read, without the blanks around them. -/
theorem entries_map_trim {items : List (List Char)} (hSome : items ≠ []) :
    entries (items.map Text.trim) = (counted items).map Text.trim := by
  obtain ⟨init, last, rfl⟩ := (List.eq_nil_or_concat' items).resolve_left hSome
  rw [counted_concat]
  split
  · next hLast =>
    by_cases hInit : init = []
    · subst hInit
      exact entries_blank hLast
    · exact entries_trailing hInit hLast
  · next hLast => exact entries_plain hLast

/-- An item counts where it is not blank or something follows it. -/
theorem counted_split_iff (items before : List (List Char)) (item : List Char) :
    (∃ after, counted items = before ++ item :: after) ↔
      ∃ after, items = before ++ item :: after ∧ (Text.Blanks item → after ≠ []) := by
  obtain rfl | ⟨init, last, rfl⟩ := List.eq_nil_or_concat' items
  · simp [counted]
  · rw [counted_concat]
    constructor
    · rintro ⟨after, hSplit⟩
      split at hSplit
      · exact ⟨after ++ [last], by simp [hSplit], by simp⟩
      · next hLast =>
        refine ⟨after, hSplit, fun hBlank hEnd => ?_⟩
        rw [hEnd] at hSplit
        exact hLast ((List.append_singleton_inj.mp hSplit).2 ▸ hBlank)
    · rintro ⟨after, hSplit, hCounts⟩
      obtain rfl | ⟨inner, found, rfl⟩ := List.eq_nil_or_concat' after
      · obtain ⟨rfl, rfl⟩ := List.append_singleton_inj.mp hSplit
        exact ⟨[], by simpa using fun hBlank => hCounts hBlank rfl⟩
      · rw [← List.cons_append, ← List.append_assoc] at hSplit
        obtain ⟨rfl, rfl⟩ := List.append_singleton_inj.mp hSplit
        split
        · exact ⟨inner, rfl⟩
        · exact ⟨inner ++ [last], by simp⟩

/-- Reading items fails at the first bad one. -/
theorem mapM_marker_eq_error_iff {items : List (List Char)} (problem : Problem)
    (hItems : ∀ item ∈ items, Nested false item) :
    (items.map Text.trim).mapM marker = .error problem ↔
      ∃ before item after, items = before ++ item :: after ∧
        (∀ earlier ∈ before, ∃ name, ItemText name earlier) ∧
          BadItem item problem problem.message := by
  rw [List.mapM_map, Sequence.mapM_eq_error_iff]
  refine exists_congr fun before => exists_congr fun item => exists_congr fun after =>
    and_congr_right fun hSplit => ?_
  rw [hSplit] at hItems
  have hItem : Nested false item := hItems item (by simp)
  refine and_congr (forall₂_congr fun earlier hEarlier => exists_congr fun name => ?_) ?_
  · exact marker_trim_eq_ok_iff (hItems earlier (by simp [hEarlier]))
  · exact ⟨badItem_of_marker_trim hItem, fun hBad => hBad.marker_trim hItem⟩

theorem message_unexpected {opener closer : Char} (hPair : Pair opener closer) :
    (Problem.unexpected closer).message = "unexpected '" ++ String.singleton closer ++ "'" := by
  cases hPair <;> rfl

theorem message_missing {opener closer : Char} (hPair : Pair opener closer) :
    (Problem.missing closer).message = "missing '" ++ String.singleton closer ++ "'" := by
  cases hPair <;> rfl

/-- Delimiters that do not pair up are the first problem whatever the items are. -/
theorem firstProblem_of_unbalanced {text : List Char} {problem : Problem}
    (hUnbalanced : Unbalanced text problem) : FirstProblem text problem problem.message := by
  have hNoStray : ∀ closer, problem ≠ .unexpected closer → ¬ StrayCloser text closer :=
    fun closer hOther => hUnbalanced.not_strayCloser hOther
  cases hUnbalanced with
  | unexpected hStray =>
      obtain ⟨opener, hPair⟩ := hStray.exists_pair
      rw [message_unexpected hPair]
      exact .unexpected hStray
  | unterminated hText hBefore hBody =>
      have hLiteral : EndsInLiteral text := ⟨_, _, hText, hBefore.literalsEnd, hBody⟩
      exact .unterminated (fun closer => hNoStray closer (by simp)) hLiteral
  | missing hGroup =>
      obtain ⟨opener, hPair⟩ := hGroup.exists_pair
      rw [message_missing hPair]
      exact .missing (fun other => hNoStray other (by simp)) hGroup.not_endsInLiteral hGroup

theorem nested_of_mem_counted {items : List (List Char)}
    (hItems : ∀ item ∈ items, Nested false item) : ∀ item ∈ counted items, Nested false item := by
  intro item hMem
  apply hItems
  unfold counted at hMem
  split at hMem
  · exact List.dropLast_subset items hMem
  · exact hMem

/-- A text that cannot be divided is refused for this. -/
theorem ofChars_of_items_eq_error {text : List Char} {problem : Problem}
    (hItems : items text = .error problem) : ofChars text = .error problem := by
  simp [ofChars, hItems]

/-- Where the items of a text are known, the first bad one that counts decides. -/
theorem ofChars_joined_eq_error_iff {items : List (List Char)} (hSome : items ≠ [])
    (hNested : ∀ item ∈ items, Nested false item) (problem : Problem) :
    ofChars (joined items) = .error problem ↔
      ∃ before item after, items = before ++ item :: after ∧
        (∀ earlier ∈ before, ∃ name, ItemText name earlier) ∧
          (Text.Blanks item → after ≠ []) ∧ BadItem item problem problem.message := by
  rw [ofChars_joined hSome hNested, entries_map_trim hSome,
    mapM_marker_eq_error_iff problem (nested_of_mem_counted hNested)]
  constructor
  · rintro ⟨before, item, after, hSplit, hBefore, hBad⟩
    obtain ⟨behind, hItems, hCounts⟩ := (counted_split_iff items before item).mp ⟨after, hSplit⟩
    exact ⟨before, item, behind, hItems, hBefore, hCounts, hBad⟩
  · rintro ⟨before, item, after, hItems, hBefore, hCounts, hBad⟩
    obtain ⟨behind, hSplit⟩ := (counted_split_iff items before item).mpr ⟨after, hItems, hCounts⟩
    exact ⟨before, item, behind, hSplit, hBefore, hBad⟩

/-- What is reported of a text is the problem that comes first in it. -/
theorem firstProblem_of_ofChars {text : List Char} {problem : Problem}
    (hRead : ofChars text = .error problem) : FirstProblem text problem problem.message := by
  cases hItems : items text with
  | error found =>
      obtain rfl : problem = found :=
        Except.error.inj (hRead.symm.trans (ofChars_of_items_eq_error hItems))
      exact firstProblem_of_unbalanced ((items_eq_error_iff text problem).mp hItems)
  | ok list =>
      obtain ⟨hSome, hNested, rfl⟩ := (items_eq_ok_iff text list).mp hItems
      obtain ⟨before, item, after, rfl, hBefore, hCounts, hBad⟩ :=
        (ofChars_joined_eq_error_iff hSome hNested problem).mp hRead
      exact .item rfl hNested hBefore hCounts hBad

/-- The words for a bad item are those of its problem. -/
theorem BadItem.words_eq {item : List Char} {problem : Problem} {words : String}
    (hBad : BadItem item problem words) : words = problem.message := by
  cases hBad <;> rfl

/-- A text is refused for its first problem. An item is reached if all those before
it are markers. -/
theorem FirstProblem.ofChars {text : List Char} {problem : Problem} {words : String}
    (hFirst : FirstProblem text problem words) : ofChars text = .error problem := by
  cases hFirst with
  | unexpected hStray =>
      exact ofChars_of_items_eq_error ((items_eq_error_iff text _).mpr (.unexpected hStray))
  | unterminated hNoStray hLiteral =>
      have hUnbalanced := (unbalanced_unterminated_iff text).mpr ⟨hNoStray, hLiteral⟩
      exact ofChars_of_items_eq_error ((items_eq_error_iff text _).mpr hUnbalanced)
  | missing _ _ hGroup =>
      exact ofChars_of_items_eq_error ((items_eq_error_iff text _).mpr (.missing hGroup))
  | @item before after item _ _ hText hNested hBefore hCounts hBad =>
      obtain rfl := hBad.words_eq
      rw [hText, ofChars_joined_eq_error_iff (by simp) hNested]
      exact ⟨before, item, after, rfl, hBefore, hCounts, hBad⟩

/-- Reading the arguments of an attribute fails exactly with the problem that comes
first in them, in these words, and the fault has the text of the attribute and the
name of the declaration that it stands on. -/
theorem markersOn_eq_error_iff_firstProblem (path : QualifiedName) (text declaration : String)
    (fault : MarkerFault) :
    (Attribute.mk path (some text)).markersOn declaration = .error fault ↔
      fault.attributeText = (Attribute.mk path (some text)).text ∧
        fault.declaration = declaration ∧
          FirstProblem text.toList fault.problem fault.problem.message := by
  rw [Attribute.markersOn, Attribute.markers, Sequence.mapError_eq_error_iff]
  constructor
  · rintro ⟨problem, hRead, rfl⟩
    exact ⟨rfl, rfl, firstProblem_of_ofChars hRead⟩
  · rintro ⟨hText, hDeclaration, hFirst⟩
    exact ⟨fault.problem, hFirst.ofChars, by rw [← hText, ← hDeclaration]⟩

/-- A closer that is out of place comes before a literal that does not end, and this
before a bad item, also where the item stands further left. -/
example : ofChars "1, a(], \"".toList = .error (.unexpected ']') ∧
    ofChars "1, a(\"]".toList = .error .unterminatedString ∧
    ofChars "1, a([".toList = .error (.missing ']') ∧
    ofChars "a, , 1,".toList = .error .emptyEntry := by
  decide

end ApiSurvey.MarkerList
