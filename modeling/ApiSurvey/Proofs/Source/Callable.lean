import ApiSurvey.Proofs.Source.Arguments
import ApiSurvey.Survey.Finding

/-! Names of callables that are written with a result behind an arrow, as in
`ops::Fn(A) -> B`. The arrow and the first identifier of the result are passed over
together with the arguments of the callable. A separator in the result is not: it stands
outside of all arguments, and what follows it is read as part of the callable's own
name. -/
namespace ApiSurvey.QualifiedName

def Written.identifiers (written : Written) : List String :=
  written.segments.map fun segment => String.ofList segment.ident

/-- What stands between a callable and its result. -/
def arrow : List Char :=
  [' ', '-', '>', ' ']

/-- A name that is followed by an arrow and a result. -/
def Written.withResult (written result : Written) : List Char :=
  written.text ++ (arrow ++ result.text)

/-- The identifiers of a result that stand behind a separator. -/
def Written.separated (result : Written) : List String :=
  if result.isGlobal then result.identifiers else result.identifiers.tail

/-- The identifiers of pieces, without the empty ones. -/
def identifiersOf (pieces : List (List Char)) : List String :=
  ((pieces.map identifier).filter (· ≠ [])).map String.ofList

/-- The segments of a text are the identifiers of its pieces, without those that have
none. -/
theorem segmentsOf_eq_identifiersOf (text : List Char) :
    segmentsOf text = identifiersOf (pieces text) :=
  rfl

theorem identifiersOf_cons {piece : List Char} (hSome : identifier piece ≠ [])
    (more : List (List Char)) :
    identifiersOf (piece :: more) = String.ofList (identifier piece) :: identifiersOf more := by
  simp [identifiersOf, hSome]

/-- What stands behind a written name goes on in its body, and cannot make it global.
-/
theorem Written.ofChars_append (written : Written) (rest : List Char) :
    ofChars (written.text ++ rest) = ⟨segmentsOf (written.body ++ rest), written.isGlobal⟩ := by
  rw [ofChars, Written.text, List.append_assoc, Text.trim_blanks_append written.blank_before]
  cases written.isGlobal with
  | true => simp [trim_separator_append, afterSeparator?, segmentsOf_trimEnd]
  | false => simp [written.afterSeparator?_trim_body_append, segmentsOf_trim]

/-- Each segment in front of a separator leaves its identifier. -/
theorem segmentsOf_intercalate_append (front : List WrittenSegment) (text rest : List Char) :
    segmentsOf ([':', ':'].intercalate (front.map (·.text) ++ [text]) ++ rest) =
      front.map (fun segment => String.ofList segment.ident) ++ segmentsOf (text ++ rest) := by
  induction front with
  | nil => simp
  | cons segment front ih =>
      rw [List.map_cons, List.map_cons, List.cons_append, List.cons_append, ← ih,
        List.intercalate_cons_of_ne_nil (by simp), List.append_assoc, List.append_assoc]
      exact segment.segmentsOf_append (pieces_separator _)

/-- Round arguments take in what follows them up to the next separator. -/
theorem WrittenSegment.segmentsOf_arguments_append (segment : WrittenSegment) {opener : Char}
    (hArguments : Arguments opener segment.tail) {rest piece : List Char}
    {more : List (List Char)} (hRest : pieces rest = piece :: more) :
    segmentsOf (segment.text ++ rest) = String.ofList segment.ident :: identifiersOf more := by
  have hPieces : pieces (segment.text ++ rest) =
      (segment.before ++ (segment.ident ++ (segment.tail ++ piece))) :: more := by
    rw [WrittenSegment.text, List.append_assoc, List.append_assoc]
    exact QualifiedName.pieces_append (clean_of_blanks segment.blank_before)
      (QualifiedName.pieces_append segment.isSegment.clean (hArguments.pieces_append hRest))
  have hFirst : identifier (segment.before ++ (segment.ident ++ (segment.tail ++ piece))) =
      segment.ident := by
    rw [identifier_blanks_append segment.blank_before]
    exact segment.isSegment.identifier_append (hArguments.identifier_append piece)
  rw [segmentsOf_eq_identifiersOf, hPieces, identifiersOf_cons, hFirst]
  rw [hFirst]
  exact segment.isSegment.nonempty

/-- The first piece of a body has an identifier. -/
theorem Written.exists_pieces_body (written : Written) :
    ∃ first more, pieces written.body = first :: more ∧ identifier first ≠ [] := by
  obtain ⟨segment, segments, hSegments⟩ := List.exists_cons_of_ne_nil written.nonempty
  -- behind the first segment the text is at its end or goes on with a separator
  obtain ⟨rest, more, hBody, hRest⟩ : ∃ rest more,
      written.body = segment.text ++ rest ∧ pieces rest = [] :: more := by
    rw [body, hSegments, List.map_cons]
    by_cases hMore : segments.map (·.text) = []
    · exact ⟨[], [], by simp [hMore], rfl⟩
    · refine ⟨':' :: ':' :: [':', ':'].intercalate (segments.map (·.text)), _, ?_,
        pieces_separator _⟩
      rw [List.intercalate_cons_of_ne_nil hMore, List.append_assoc]
      rfl
  obtain ⟨first, inner, hPieces, hFirst, -⟩ := segment.pieces_append hRest
  exact ⟨first, inner ++ more, by rw [hBody, hPieces], by
    rw [hFirst]
    exact segment.isSegment.nonempty⟩

/-- Only the first piece of a result, which has no separator in front of it, loses
its identifier to the callable. -/
theorem Written.exists_pieces_text (result : Written) :
    ∃ first more, pieces result.text = first :: more ∧ identifiersOf more = result.separated := by
  obtain ⟨first, more, hBody, hFirst⟩ := result.exists_pieces_body
  have hIdentifiers : identifiersOf (first :: more) = result.identifiers := by
    rw [← hBody, ← segmentsOf_eq_identifiersOf]
    exact result.segmentsOf_body
  have hClean := clean_of_blanks result.blank_before
  rw [Written.text, separated]
  cases result.isGlobal with
  | true =>
      refine ⟨result.before ++ [], first :: more, ?_, hIdentifiers⟩
      rw [← hBody]
      exact pieces_append hClean (pieces_separator result.body)
  | false =>
      refine ⟨result.before ++ first, more, pieces_append hClean hBody, ?_⟩
      rw [identifiersOf_cons hFirst] at hIdentifiers
      rw [← hIdentifiers]
      rfl

/-- A written name is read as its identifiers, without the arguments. -/
theorem ofText_written_text (written : Written) :
    ofText (String.ofList written.text) = ⟨written.identifiers, written.isGlobal⟩ := by
  have hRead := written.ofChars_append []
  rw [List.append_nil, List.append_nil, written.segmentsOf_body] at hRead
  rw [ofText, String.toList_ofList, hRead]
  rfl

/-- A callable is read with every identifier of its result that stands behind a
separator. -/
theorem ofText_withResult_eq {written : Written} (result : Written)
    (hLast : ∀ segment ∈ written.segments.getLast?, Arguments '(' segment.tail) :
    ofText (String.ofList (written.withResult result)) =
      ⟨written.identifiers ++ result.separated, written.isGlobal⟩ := by
  obtain ⟨front, last, hSegments⟩ : ∃ front last, written.segments = front ++ [last] :=
    (List.eq_nil_or_concat' written.segments).resolve_left written.nonempty
  have hArguments : Arguments '(' last.tail := hLast last (by simp [hSegments])
  obtain ⟨first, more, hPieces, hMore⟩ := result.exists_pieces_text
  have hArrow : pieces (arrow ++ result.text) = (arrow ++ first) :: more :=
    pieces_append (by simp [arrow, opensArguments]) hPieces
  have hBody : written.body =
      [':', ':'].intercalate (front.map (·.text) ++ [last.text]) := by
    rw [Written.body, hSegments, List.map_append]
    rfl
  have hRead := last.segmentsOf_arguments_append hArguments hArrow
  rw [ofText, String.toList_ofList, Written.withResult, written.ofChars_append, hBody,
    segmentsOf_intercalate_append, hRead, hMore, Written.identifiers, hSegments]
  simp

/-- A result starts no segment of its own exactly if it is a single segment that is
not global. -/
theorem separated_eq_nil_iff (result : Written) :
    result.separated = [] ↔ result.isGlobal = false ∧ result.segments.length = 1 := by
  have hSome : result.segments ≠ [] := result.nonempty
  have hLength : 0 < result.segments.length := List.length_pos_iff.mpr hSome
  rw [Written.separated, ← List.length_eq_zero_iff]
  cases result.isGlobal with
  | true => simp [Written.identifiers, hSome]
  | false =>
      simp only [Bool.false_eq_true, if_false, true_and, List.length_tail, Written.identifiers,
        List.length_map]
      omega

/-- A result behind round arguments joins the name of the callable with all its
identifiers but a first one that no separator precedes. So it leaves the name alone,
and with it whatever an implementation block stands for by it, exactly when it is one
identifier with its arguments. -/
theorem ofText_withResult (written result : Written)
    (hLast : ∀ segment ∈ written.segments.getLast?, Arguments '(' segment.tail) :
    ofText (String.ofList (written.withResult result)) =
        ⟨(ofText (String.ofList written.text)).segments ++ result.separated,
          (ofText (String.ofList written.text)).isGlobal⟩ ∧
      (ofText (String.ofList (written.withResult result)) = ofText (String.ofList written.text) ↔
        result.isGlobal = false ∧ result.segments.length = 1) ∧
      (result.isGlobal = false → result.segments.length = 1 →
        ∀ (selfType : String) (scope : Scope) (names : MarkerNames),
          (Implementation.mk selfType
              (some (ofText (String.ofList (written.withResult result))))).findings scope names =
            (Implementation.mk selfType
              (some (ofText (String.ofList written.text)))).findings scope names) := by
  have hSame : ofText (String.ofList (written.withResult result)) =
      ofText (String.ofList written.text) ↔
        result.isGlobal = false ∧ result.segments.length = 1 := by
    rw [ofText_withResult_eq result hLast, ofText_written_text, ← separated_eq_nil_iff]
    simp
  refine ⟨?_, hSame, fun hLocal hSingle selfType scope names => ?_⟩
  · rw [ofText_withResult_eq result hLast, ofText_written_text]
  · rw [hSame.mpr ⟨hLocal, hSingle⟩]

/-- An identifier on its own. -/
def WrittenSegment.ofIdent (ident : List Char) (hIdent : IsSegment ident) : WrittenSegment :=
  ⟨[], ident, [], Text.blanks_nil, hIdent, .nil⟩

theorem isSegment_function : IsSegment ['F', 'n'] := by
  decide

theorem arguments_function : Arguments '(' ('(' :: (['A'] ++ [')'])) :=
  .intro .round (.plain rfl rfl .nil) (by decide)

def functionSegment : WrittenSegment where
  before := []
  ident := ['F', 'n']
  tail := '(' :: (['A'] ++ [')']) ++ []
  blank_before := Text.blanks_nil
  isSegment := isSegment_function
  isTail := .arguments arguments_function .nil

def genericSegment : WrittenSegment where
  before := []
  ident := ['B']
  tail := '<' :: (['c', ':', ':', 'D'] ++ ['>']) ++ []
  blank_before := Text.blanks_nil
  isSegment := by decide
  isTail := .arguments (.intro .angle
    (.plain rfl rfl <| .plain rfl rfl <| .plain rfl rfl <| .plain rfl rfl .nil) (by decide)) .nil

def callable : Written where
  before := []
  isGlobal := false
  segments := [.ofIdent ['o', 'p', 's'] (by decide), functionSegment]
  blank_before := Text.blanks_nil
  nonempty := List.cons_ne_nil _ _

theorem callable_arguments :
    ∀ segment ∈ callable.segments.getLast?, Arguments '(' segment.tail := by
  intro segment hLast
  obtain rfl : functionSegment = segment := Option.some.inj hLast
  exact arguments_function

/-- A result that is one identifier, whatever its arguments, leaves the name alone. -/
theorem ofText_withResult_of_generic :
    ofText "ops::Fn(A) -> B<c::D>" = ofText "ops::Fn(A)" := by
  have hResult := ofText_withResult callable
    ⟨[], false, [genericSegment], Text.blanks_nil, List.cons_ne_nil _ _⟩ callable_arguments
  exact hResult.2.1.mpr ⟨rfl, rfl⟩

/-- The result of `ops::Fn(A) -> b::ToSchema` makes its own last identifier that of
the callable, so that a block for the callable is found to implement a schema. -/
theorem result_of_two_segments_joins_callable :
    ∃ result : Written, result.isGlobal = false ∧
      String.ofList callable.text = "ops::Fn(A)" ∧
      String.ofList (callable.withResult result) = "ops::Fn(A) -> b::ToSchema" ∧
      ofText "ops::Fn(A)" = ⟨["ops", "Fn"], false⟩ ∧
      ofText "ops::Fn(A) -> b::ToSchema" = ⟨["ops", "Fn", "ToSchema"], false⟩ ∧
      (Implementation.mk "Widget" (some (ofText "ops::Fn(A)"))).findings ["crate"]
        ⟨"utoipa", "ToSchema", "ToResponse"⟩ = [] ∧
      (Implementation.mk "Widget" (some (ofText "ops::Fn(A) -> b::ToSchema"))).findings ["crate"]
        ⟨"utoipa", "ToSchema", "ToResponse"⟩ = [⟨.customModel, .ofName ["crate"] "Widget"⟩] := by
  have hAlone : ofText "ops::Fn(A)" = ⟨["ops", "Fn"], false⟩ := by cbv
  have hWhole : ofText "ops::Fn(A) -> b::ToSchema" = ⟨["ops", "Fn", "ToSchema"], false⟩ := by cbv
  let result : Written :=
    ⟨[], false, [.ofIdent ['b'] (by decide), .ofIdent "ToSchema".toList (by decide)],
      Text.blanks_nil, List.cons_ne_nil _ _⟩
  refine ⟨result, rfl, rfl, rfl, hAlone, hWhole, ?_, ?_⟩
  · rw [hAlone]
    decide
  · rw [hWhole]
    decide

end ApiSurvey.QualifiedName
