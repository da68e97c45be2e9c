import ApiSurvey.Proofs.Source.Name

/-! Names that are written with arguments. Whatever stands in the arguments of a
segment, at any depth and with any separators in it, is passed over as a whole,
so that only the identifiers are left of a name. -/
namespace ApiSurvey.QualifiedName

inductive Brackets : Char → Char → Prop where
  | angle : Brackets '<' '>'
  | round : Brackets '(' ')'
  | square : Brackets '[' ']'

/-- Well-nested texts: brackets match pairwise by kind, and a `>` that closes no
bracket belongs to an arrow. What stands between angle brackets does not end in a
dash, since the bracket behind the dash would be the head of an arrow. -/
inductive Nested : List Char → Prop where
  | nil : Nested []
  | plain {c : Char} {rest : List Char} (hOpener : opensArguments c = false)
      (hCloser : closesArguments c = false) (hRest : Nested rest) : Nested (c :: rest)
  | arrow {rest : List Char} (hRest : Nested rest) : Nested ('-' :: '>' :: rest)
  | group {opener closer : Char} {inner rest : List Char} (hBrackets : Brackets opener closer)
      (hInner : Nested inner) (hDash : opener = '<' → inner.getLast? ≠ some '-')
      (hRest : Nested rest) : Nested (opener :: (inner ++ closer :: rest))

/-- Arguments of a segment: well-nested text between two brackets of a kind. -/
inductive Arguments (opener : Char) : List Char → Prop where
  | intro {closer : Char} {inner : List Char} (hBrackets : Brackets opener closer)
      (hInner : Nested inner) (hDash : opener = '<' → inner.getLast? ≠ some '-') :
      Arguments opener (opener :: (inner ++ [closer]))

/-- What may follow an identifier: any number of arguments, each of them right
there or, in angle brackets, behind one more separator, and blanks around them. -/
inductive Tail : List Char → Prop where
  | nil : Tail []
  | blank {c : Char} {rest : List Char} (hBlank : Text.isBlank c = true) (hRest : Tail rest) :
      Tail (c :: rest)
  | arguments {opener : Char} {group rest : List Char} (hGroup : Arguments opener group)
      (hRest : Tail rest) : Tail (group ++ rest)
  | turbofish {blanks group rest : List Char} (hBlanks : Text.Blanks blanks)
      (hGroup : Arguments '<' group) (hRest : Tail rest) :
      Tail (':' :: ':' :: (blanks ++ (group ++ rest)))

/-- A segment as it is written: its identifier, blanks in front of it, and whatever
follows it up to the next segment. -/
structure WrittenSegment where
  before : List Char
  ident : List Char
  tail : List Char
  blank_before : Text.Blanks before
  isSegment : IsSegment ident
  isTail : Tail tail

def WrittenSegment.text (segment : WrittenSegment) : List Char :=
  segment.before ++ (segment.ident ++ segment.tail)

/-- A name as it is written: one or more segments between separators, behind one
more separator if the name is global. Blanks may stand in front. -/
structure Written where
  before : List Char
  isGlobal : Bool
  segments : List WrittenSegment
  blank_before : Text.Blanks before
  nonempty : segments ≠ []

def Written.body (written : Written) : List Char :=
  [':', ':'].intercalate (written.segments.map (·.text))

def Written.text (written : Written) : List Char :=
  written.before ++ ((if written.isGlobal then [':', ':'] else []) ++ written.body)

section Scanning

variable (depth : Nat) (afterDash : Bool) {c : Char} (rest : List Char)

/-- An opener belongs to its piece and opens a group in it. -/
theorem piecesFrom_opener (hOpener : opensArguments c = true) :
    piecesFrom depth afterDash (c :: rest) =
      Text.consFirst c (piecesFrom (depth + 1) false rest) := by
  conv_lhs => unfold piecesFrom
  rw [if_pos hOpener]

/-- A bracket closes the innermost arguments, unless it is the head of an arrow. -/
theorem piecesFrom_closer (hOpener : opensArguments c = false)
    (hCloser : closesArguments c = true) :
    piecesFrom depth afterDash (c :: rest) =
      Text.consFirst c
        (piecesFrom (if c == '>' && afterDash then depth else depth - 1) false rest) := by
  conv_lhs => unfold piecesFrom
  simp only [hOpener, hCloser, Bool.false_eq_true, if_false, if_true]

/-- Every other character is kept where it does not start a separator outside all
arguments. -/
theorem piecesFrom_plain (hOpener : opensArguments c = false) (hCloser : closesArguments c = false)
    (hSeparator : depth = 0 → c = ':' → rest.head? ≠ some ':') :
    piecesFrom depth afterDash (c :: rest) =
      Text.consFirst c (piecesFrom depth (c == '-') rest) := by
  conv_lhs => unfold piecesFrom
  simp only [hOpener, hCloser, Bool.false_eq_true, if_false]
  split
  · next rest => exact (hSeparator rfl rfl rfl).elim
  · rfl

end Scanning

theorem piecesFrom_ne_nil (depth : Nat) (afterDash : Bool) (text : List Char) :
    piecesFrom depth afterDash text ≠ [] := by
  have hFirst : ∀ (c : Char) (pieces : List (List Char)), Text.consFirst c pieces ≠ [] := by
    intro c pieces
    cases pieces <;> simp [Text.consFirst]
  fun_cases piecesFrom depth afterDash text <;> simp [hFirst]

/-- Whether a dash stands right behind a text, where `afterDash` tells whether one
stands right before it. -/
def endsInDash (afterDash : Bool) (text : List Char) : Bool :=
  text.foldl (fun _ c => c == '-') afterDash

theorem endsInDash_eq_false {text : List Char} (hLast : text.getLast? ≠ some '-') :
    endsInDash false text = false := by
  obtain rfl | ⟨init, last, rfl⟩ := List.eq_nil_or_concat' text
  · rfl
  · simpa [endsInDash] using hLast

/-- A text that ends no arguments and splits nothing inside of some. -/
def PassedOver (text : List Char) : Prop :=
  ∀ (depth : Nat) (afterDash : Bool) {rest piece : List Char} {more : List (List Char)},
    piecesFrom (depth + 1) (endsInDash afterDash text) rest = piece :: more →
      piecesFrom (depth + 1) afterDash (text ++ rest) = (text ++ piece) :: more

/-- The first of two brackets opens arguments. -/
theorem Brackets.opener {opener closer : Char} (hBrackets : Brackets opener closer) :
    opensArguments opener = true := by
  cases hBrackets <;> rfl

/-- The second one closes them. -/
theorem Brackets.closer {opener closer : Char} (hBrackets : Brackets opener closer) :
    opensArguments closer = false ∧ closesArguments closer = true := by
  cases hBrackets <;> exact ⟨rfl, rfl⟩

/-- The bracket that closes arguments is no head of an arrow. -/
theorem Brackets.not_arrow {opener closer : Char} (hBrackets : Brackets opener closer)
    {inner : List Char} (hDash : opener = '<' → inner.getLast? ≠ some '-') :
    (closer == '>' && endsInDash false inner) = false := by
  cases hBrackets with
  | angle => simp [endsInDash_eq_false (hDash rfl)]
  | round => rfl
  | square => rfl

/-- Arguments are passed over as a whole at any depth, if their content is. -/
theorem PassedOver.group {opener closer : Char} {inner rest piece : List Char}
    {more : List (List Char)} (hInner : PassedOver inner) (hBrackets : Brackets opener closer)
    (hDash : opener = '<' → inner.getLast? ≠ some '-') (depth : Nat) (afterDash : Bool)
    (hRest : piecesFrom depth false rest = piece :: more) :
    piecesFrom depth afterDash (opener :: (inner ++ closer :: rest)) =
      (opener :: (inner ++ closer :: piece)) :: more := by
  obtain ⟨hOpener, hCloser⟩ := hBrackets.closer
  have hClosed : piecesFrom (depth + 1) (endsInDash false inner) (closer :: rest) =
      (closer :: piece) :: more := by
    rw [piecesFrom_closer _ _ rest hOpener hCloser, hBrackets.not_arrow hDash]
    simp [hRest, Text.consFirst]
  rw [piecesFrom_opener depth afterDash _ hBrackets.opener, hInner depth false hClosed]
  rfl

/-- By induction on the nesting: no separator in arguments divides a text. -/
theorem Nested.passedOver {text : List Char} (hText : Nested text) : PassedOver text := by
  induction hText with
  | nil =>
      intro depth afterDash rest piece more hRest
      exact hRest
  | @plain c text hOpener hCloser _ ih =>
      intro depth afterDash rest piece more hRest
      rw [List.cons_append, piecesFrom_plain _ _ _ hOpener hCloser (fun hZero => by cases hZero),
        ih depth (c == '-') hRest]
      rfl
  | arrow _ ih =>
      intro depth afterDash rest piece more hRest
      rw [List.cons_append, List.cons_append,
        piecesFrom_plain _ _ _ rfl rfl (fun hZero => by cases hZero), beq_self_eq_true,
        piecesFrom_closer _ _ _ rfl rfl, beq_self_eq_true, Bool.and_self, if_pos rfl,
        ih depth false hRest]
      rfl
  | @group opener closer inner text hBrackets _ hDash _ ihInner ihText =>
      intro depth afterDash rest piece more hRest
      -- behind the closing bracket no dash is left of what stood before it
      have hEnd : endsInDash afterDash (opener :: (inner ++ closer :: text)) =
          endsInDash false text := by
        cases hBrackets <;> simp [endsInDash]
      rw [hEnd] at hRest
      have hGroup := ihInner.group hBrackets hDash (depth + 1) afterDash (ihText depth false hRest)
      simpa using hGroup

/-- Arguments belong to the piece that they stand in. -/
theorem Arguments.pieces_append {opener : Char} {group rest piece : List Char}
    {more : List (List Char)} (hGroup : Arguments opener group)
    (hRest : pieces rest = piece :: more) :
    pieces (group ++ rest) = (group ++ piece) :: more := by
  cases hGroup with
  | intro hBrackets hInner hDash =>
      rw [List.cons_append, List.cons_append, List.append_assoc, List.append_assoc]
      exact hInner.passedOver.group hBrackets hDash 0 false hRest

theorem Arguments.exists_cons {opener : Char} {group : List Char}
    (hGroup : Arguments opener group) :
    ∃ rest, group = opener :: rest ∧ opensArguments opener = true := by
  cases hGroup with
  | intro hBrackets hInner hDash => exact ⟨_, rfl, hBrackets.opener⟩

/-- A blank neither separates nor opens nor closes. -/
theorem clean_of_isBlank {c : Char} (hBlank : Text.isBlank c = true) :
    c ≠ ':' ∧ opensArguments c = false ∧ closesArguments c = false := by
  have hOther : ∀ other, Text.isBlank other = false → c ≠ other := by
    rintro other hOther rfl
    rw [hBlank] at hOther
    cases hOther
  refine ⟨hOther ':' rfl, ?_, ?_⟩
  · simp [opensArguments, hOther '<' rfl, hOther '(' rfl, hOther '[' rfl]
  · simp [closesArguments, hOther '>' rfl, hOther ')' rfl, hOther ']' rfl]

theorem clean_of_blanks {blanks : List Char} (hBlanks : Text.Blanks blanks) :
    ∀ c ∈ blanks, c ≠ ':' ∧ opensArguments c = false := by
  intro c hMem
  obtain ⟨hColon, hOpener, -⟩ := clean_of_isBlank (hBlanks c hMem)
  exact ⟨hColon, hOpener⟩

/-- What opens no arguments belongs to the identifier of a piece. -/
theorem takeWhile_append_of_clean {text : List Char}
    (hClean : ∀ c ∈ text, c ≠ ':' ∧ opensArguments c = false) (piece : List Char) :
    (text ++ piece).takeWhile (fun c => !opensArguments c) =
      text ++ piece.takeWhile fun c => !opensArguments c := by
  rw [List.takeWhile_append_of_pos]
  intro c hMem
  rw [(hClean c hMem).2]
  rfl

theorem identifier_blanks_append {blanks : List Char} (hBlanks : Text.Blanks blanks)
    (piece : List Char) : identifier (blanks ++ piece) = identifier piece := by
  rw [identifier, takeWhile_append_of_clean (clean_of_blanks hBlanks),
    Text.trim_blanks_append hBlanks]
  rfl

theorem identifier_append_blanks {blanks : List Char} (hBlanks : Text.Blanks blanks)
    (piece : List Char) : identifier (piece ++ blanks) = identifier piece := by
  have hKept : blanks.takeWhile (fun c => !opensArguments c) = blanks := by
    simpa using takeWhile_append_of_clean (clean_of_blanks hBlanks) []
  unfold identifier
  rw [List.takeWhile_append]
  split_ifs with hWhole
  · have hPiece := (List.takeWhile_prefix fun c => !opensArguments c).eq_of_length hWhole
    rw [hKept, hPiece, Text.trim_append_blanks hBlanks]
  · rfl

/-- A piece that starts with arguments has no identifier. -/
theorem Arguments.identifier_append {opener : Char} {group : List Char}
    (hGroup : Arguments opener group) (piece : List Char) : identifier (group ++ piece) = [] := by
  obtain ⟨rest, rfl, hOpener⟩ := hGroup.exists_cons
  simp [identifier, hOpener, Text.trim_eq_nil_iff, Text.blanks_nil]

/-- All that follows an identifier goes into its own piece or into pieces without
an identifier. -/
theorem Tail.pieces_append {tail : List Char} (hTail : Tail tail) {rest : List Char}
    {more : List (List Char)} (hRest : pieces rest = [] :: more) :
    ∃ first inner, pieces (tail ++ rest) = first :: (inner ++ more) ∧ identifier first = [] ∧
      ∀ piece ∈ inner, identifier piece = [] := by
  induction hTail with
  | nil => exact ⟨[], [], hRest, rfl, by simp⟩
  | @blank c tail hBlank _ ih =>
      obtain ⟨first, inner, hPieces, hFirst, hInner⟩ := ih
      have hBlanks : Text.Blanks [c] := by simpa [Text.Blanks] using hBlank
      refine ⟨c :: first, inner, ?_, ?_, hInner⟩
      · exact QualifiedName.pieces_append (clean_of_blanks hBlanks) hPieces
      · exact (identifier_blanks_append hBlanks first).trans hFirst
  | arguments hGroup _ ih =>
      obtain ⟨first, inner, hPieces, -, hInner⟩ := ih
      rw [List.append_assoc]
      exact ⟨_, inner, hGroup.pieces_append hPieces, hGroup.identifier_append first, hInner⟩
  | @turbofish blanks group tail hBlanks hGroup _ ih =>
      obtain ⟨first, inner, hPieces, -, hInner⟩ := ih
      have hPiece : pieces (blanks ++ (group ++ tail) ++ rest) =
          (blanks ++ (group ++ first)) :: (inner ++ more) := by
        rw [List.append_assoc, List.append_assoc]
        exact QualifiedName.pieces_append (clean_of_blanks hBlanks) (hGroup.pieces_append hPieces)
      refine ⟨[], (blanks ++ (group ++ first)) :: inner, ?_, rfl, ?_⟩
      · rw [List.cons_append, List.cons_append, pieces_separator, hPiece]
        rfl
      · rw [List.forall_mem_cons]
        refine ⟨?_, hInner⟩
        rw [identifier_blanks_append hBlanks, hGroup.identifier_append]

/-- The identifier of a piece ends where its arguments start. -/
theorem IsSegment.identifier_append {ident piece : List Char} (hIdent : IsSegment ident)
    (hPiece : QualifiedName.identifier piece = []) :
    QualifiedName.identifier (ident ++ piece) = ident := by
  have hBlanks := (Text.trim_eq_nil_iff _).mp hPiece
  rw [QualifiedName.identifier, takeWhile_append_of_clean hIdent.clean,
    Text.trim_append_blanks hBlanks, hIdent.trimmed]

/-- A segment leaves its identifier and otherwise only pieces without one. -/
theorem WrittenSegment.pieces_append (segment : WrittenSegment) {rest : List Char}
    {more : List (List Char)} (hRest : pieces rest = [] :: more) :
    ∃ first inner, pieces (segment.text ++ rest) = first :: (inner ++ more) ∧
      identifier first = segment.ident ∧ ∀ piece ∈ inner, identifier piece = [] := by
  obtain ⟨first, inner, hPieces, hFirst, hInner⟩ := segment.isTail.pieces_append hRest
  refine ⟨segment.before ++ (segment.ident ++ first), inner, ?_, ?_, hInner⟩
  · rw [text, List.append_assoc, List.append_assoc]
    exact QualifiedName.pieces_append (clean_of_blanks segment.blank_before)
      (QualifiedName.pieces_append segment.isSegment.clean hPieces)
  · rw [identifier_blanks_append segment.blank_before, segment.isSegment.identifier_append hFirst]

/-- A written segment gives its identifier, and its arguments give none even if a
separator stands before them. -/
theorem WrittenSegment.segmentsOf_append (segment : WrittenSegment) {rest : List Char}
    {more : List (List Char)} (hRest : pieces rest = [] :: more) :
    segmentsOf (segment.text ++ rest) =
      String.ofList segment.ident :: ((more.map identifier).filter (· ≠ [])).map String.ofList := by
  obtain ⟨first, inner, hPieces, hFirst, hInner⟩ := segment.pieces_append hRest
  have hNone : (inner.map identifier).filter (· ≠ []) = [] := by simpa using hInner
  rw [segmentsOf, hPieces, List.map_cons, List.map_append, List.filter_cons, List.filter_append,
    hNone, hFirst, if_pos (by simpa using segment.isSegment.nonempty)]
  rfl

/-- By induction on the segments, joined by separators. -/
theorem segmentsOf_written {segments : List WrittenSegment} (hSome : segments ≠ []) :
    segmentsOf ([':', ':'].intercalate (segments.map (·.text))) =
      segments.map fun segment => String.ofList segment.ident := by
  induction segments with
  | nil => exact (hSome rfl).elim
  | cons segment segments ih =>
      by_cases hMore : segments = []
      · subst hMore
        have hNone : pieces [] = [] :: [] := rfl
        simpa using segment.segmentsOf_append hNone
      · have hTexts : segments.map (·.text) ≠ [] := by simpa using hMore
        have hSeparator := pieces_separator ([':', ':'].intercalate (segments.map (·.text)))
        rw [List.map_cons, List.intercalate_cons_of_ne_nil hTexts, List.append_assoc]
        rw [List.map_cons, ← ih hMore]
        exact segment.segmentsOf_append hSeparator

theorem segmentsOf_blanks_append {blanks : List Char} (hBlanks : Text.Blanks blanks)
    (text : List Char) : segmentsOf (blanks ++ text) = segmentsOf text := by
  obtain ⟨piece, more, hPieces⟩ := List.exists_cons_of_ne_nil (piecesFrom_ne_nil 0 false text)
  have hMore := pieces_append (clean_of_blanks hBlanks) hPieces
  have hSame : pieces text = piece :: more := hPieces
  simp [segmentsOf, hMore, hSame, identifier_blanks_append hBlanks]

/-- Two lists of pieces of which the second has blanks at its very end. -/
def Padded (blanks : List Char) (first second : List (List Char)) : Prop :=
  ∃ init last, first = init ++ [last] ∧ second = init ++ [last ++ blanks]

theorem Padded.consFirst {blanks : List Char} {first second : List (List Char)}
    (hPadded : Padded blanks first second) (c : Char) :
    Padded blanks (Text.consFirst c first) (Text.consFirst c second) := by
  obtain ⟨init, last, rfl, rfl⟩ := hPadded
  cases init with
  | nil => exact ⟨[], c :: last, rfl, rfl⟩
  | cons piece init => exact ⟨(c :: piece) :: init, last, rfl, rfl⟩

theorem Padded.cons {blanks : List Char} {first second : List (List Char)}
    (hPadded : Padded blanks first second) (piece : List Char) :
    Padded blanks (piece :: first) (piece :: second) := by
  obtain ⟨init, last, rfl, rfl⟩ := hPadded
  exact ⟨piece :: init, last, rfl, rfl⟩

theorem piecesFrom_blanks {blanks : List Char} (hBlanks : Text.Blanks blanks) (depth : Nat)
    (afterDash : Bool) : piecesFrom depth afterDash blanks = [blanks] := by
  induction blanks generalizing afterDash with
  | nil => rfl
  | cons c blanks ih =>
      obtain ⟨hBlank, hRest⟩ := List.forall_mem_cons.mp hBlanks
      obtain ⟨hColon, hOpener, hCloser⟩ := clean_of_isBlank hBlank
      rw [piecesFrom_plain _ _ _ hOpener hCloser (fun _ hEq => (hColon hEq).elim), ih hRest]
      rfl

/-- Blanks at the end belong to the last piece. The induction is on the text,
whatever is open. -/
theorem piecesFrom_append_blanks {blanks : List Char} (hBlanks : Text.Blanks blanks) (depth : Nat)
    (afterDash : Bool) (text : List Char) :
    Padded blanks (piecesFrom depth afterDash text)
      (piecesFrom depth afterDash (text ++ blanks)) := by
  fun_induction piecesFrom depth afterDash text with
  | case1 depth afterDash => exact ⟨[], [], rfl, piecesFrom_blanks hBlanks depth afterDash⟩
  | case2 depth afterDash c text hOpener ih =>
      rw [List.cons_append, piecesFrom_opener _ _ _ hOpener]
      exact ih.consFirst c
  | case3 depth afterDash c text hOpener hCloser isArrow ih =>
      rw [List.cons_append, piecesFrom_closer _ _ _ (by simpa using hOpener) hCloser]
      exact ih.consFirst c
  | case4 afterDash text _ _ ih =>
      rw [List.cons_append, List.cons_append, piecesFrom_zero afterDash, pieces_separator]
      exact ih.cons []
  | case5 afterDash depth c text hSeparator hOpener hCloser ih =>
      -- blanks do not complete a separator that starts at the end of the text
      have hHead : depth = 0 → c = ':' → (text ++ blanks).head? ≠ some ':' := by
        intro hDepth hColon hHead
        cases text with
        | nil => exact (clean_of_blanks hBlanks ':' (List.mem_of_mem_head? hHead)).1 rfl
        | cons d text =>
            obtain rfl : d = ':' := by simpa using hHead
            exact hSeparator text hDepth hColon rfl
      rw [List.cons_append,
        piecesFrom_plain _ _ _ (by simpa using hOpener) (by simpa using hCloser) hHead]
      exact ih.consFirst c

theorem segmentsOf_append_blanks {blanks : List Char} (hBlanks : Text.Blanks blanks)
    (text : List Char) : segmentsOf (text ++ blanks) = segmentsOf text := by
  obtain ⟨init, last, hText, hPadded⟩ := piecesFrom_append_blanks hBlanks 0 false text
  simp [segmentsOf, pieces, hText, hPadded, identifier_append_blanks hBlanks]

/-- No segment depends on the blanks at the end. -/
theorem segmentsOf_trimEnd (text : List Char) :
    segmentsOf (Text.trimEnd text) = segmentsOf text := by
  obtain ⟨blanks, hBlanks, hText⟩ := Text.trimEnd_exists text
  conv_rhs => rw [hText, segmentsOf_append_blanks hBlanks]

/-- Blanks around a text have no part in its segments. -/
theorem segmentsOf_trim (text : List Char) : segmentsOf (Text.trim text) = segmentsOf text := by
  obtain ⟨before, after, hBefore, hAfter, hText⟩ := Text.trim_exists text
  conv_rhs => rw [hText, segmentsOf_append_blanks hAfter, segmentsOf_blanks_append hBefore]

/-- A leading separator keeps the blanks behind it. -/
theorem trim_separator_append (text : List Char) :
    Text.trim (':' :: ':' :: text) = ':' :: ':' :: Text.trimEnd text := by
  have hBlank : Text.isBlank ':' = false := rfl
  simpa [Text.trim, hBlank] using Text.trimEnd_concat_append [':'] hBlank text

theorem IsSegment.trimEnd_append {ident : List Char} (hIdent : IsSegment ident)
    (rest : List Char) : Text.trimEnd (ident ++ rest) = ident ++ Text.trimEnd rest := by
  obtain ⟨-, hLast⟩ := (Text.trim_eq_self_iff ident).mp hIdent.trimmed
  obtain rfl | ⟨init, last, rfl⟩ := List.eq_nil_or_concat' ident
  · exact (hIdent.nonempty rfl).elim
  · exact Text.trimEnd_concat_append init (hLast last (by simp)) rest

/-- Trimming goes no further than to the first identifier. -/
theorem WrittenSegment.exists_trim_append (segment : WrittenSegment) (rest : List Char) :
    ∃ more, Text.trim (segment.text ++ rest) = segment.ident ++ more := by
  obtain ⟨c, ident, hIdent⟩ := List.exists_cons_of_ne_nil segment.isSegment.nonempty
  obtain ⟨hHead, -⟩ := (Text.trim_eq_self_iff segment.ident).mp segment.isSegment.trimmed
  have hBlank : Text.isBlank c = false := hHead c (by simp [hIdent])
  refine ⟨Text.trimEnd (segment.tail ++ rest), ?_⟩
  rw [text, List.append_assoc, List.append_assoc, Text.trim_blanks_append segment.blank_before,
    Text.trim, ← segment.isSegment.trimEnd_append, hIdent, List.cons_append,
    List.dropWhile_cons_of_neg (by simp [hBlank])]

/-- A written name starts with a segment. -/
theorem Written.exists_body_eq (written : Written) :
    ∃ segment ∈ written.segments, ∃ rest, written.body = segment.text ++ rest := by
  obtain ⟨segment, segments, hSegments⟩ := List.exists_cons_of_ne_nil written.nonempty
  refine ⟨segment, by simp [hSegments], ?_⟩
  rw [body, hSegments, List.map_cons]
  by_cases hMore : segments.map (·.text) = []
  · exact ⟨[], by rw [hMore, List.intercalate_singleton, List.append_nil]⟩
  · exact ⟨_, by rw [List.intercalate_cons_of_ne_nil hMore, List.append_assoc]⟩

/-- The segments of a written name are its identifiers. -/
theorem Written.segmentsOf_body (written : Written) :
    segmentsOf written.body = written.segments.map fun segment => String.ofList segment.ident :=
  segmentsOf_written written.nonempty

theorem afterSeparator?_eq_some_iff (text rest : List Char) :
    afterSeparator? text = some rest ↔ text = ':' :: ':' :: rest := by
  unfold afterSeparator?
  split
  · simp
  · next hOther => simpa using hOther rest

/-- A name that is not global does not start with a separator, whatever follows
it. -/
theorem Written.afterSeparator?_trim_body_append (written : Written) (rest : List Char) :
    afterSeparator? (Text.trim (written.body ++ rest)) = none := by
  obtain ⟨segment, -, behind, hBody⟩ := written.exists_body_eq
  obtain ⟨more, hTrim⟩ := segment.exists_trim_append (behind ++ rest)
  obtain ⟨c, ident, hIdent⟩ := List.exists_cons_of_ne_nil segment.isSegment.nonempty
  have hColon : c ≠ ':' := (segment.isSegment.clean c (by simp [hIdent])).1
  rw [hBody, List.append_assoc, hTrim, hIdent, List.cons_append,
    Option.eq_none_iff_forall_ne_some]
  intro found hFound
  exact hColon (List.cons.inj ((afterSeparator?_eq_some_iff _ _).mp hFound)).1

/-- No separator starts a body, so a name is global only if it is written so. -/
theorem Written.afterSeparator?_trim_body (written : Written) :
    afterSeparator? (Text.trim written.body) = none := by
  simpa using written.afterSeparator?_trim_body_append []

/-- A name is global exactly if a separator stands in front, behind the blanks. -/
theorem isGlobal_ofChars_iff (text : List Char) :
    (ofChars text).isGlobal = true ↔ [':', ':'] <+: Text.trim text := by
  have hStart : [':', ':'] <+: Text.trim text ↔
      ∃ rest, afterSeparator? (Text.trim text) = some rest := by
    simp only [afterSeparator?_eq_some_iff]
    exact exists_congr fun rest => eq_comm
  rw [hStart, ofChars]
  cases afterSeparator? (Text.trim text) <;> simp

/-- A name is read as its identifiers, in order, however it is written: with
blanks around identifiers and separators, with arguments of any kind and depth,
and with separators, commas and arrows in them. It is global exactly when its text
starts with a separator. -/
theorem ofText_written (written : Written) :
    ofText (String.ofList written.text) =
        ⟨written.segments.map fun segment => String.ofList segment.ident, written.isGlobal⟩ ∧
      (written.isGlobal = true ↔ [':', ':'] <+: Text.trim written.text) := by
  have hName : ofChars written.text =
      ⟨written.segments.map fun segment => String.ofList segment.ident, written.isGlobal⟩ := by
    rw [ofChars, Written.text, Text.trim_blanks_append written.blank_before]
    cases written.isGlobal with
    | true =>
        simp [trim_separator_append, afterSeparator?, segmentsOf_trimEnd, written.segmentsOf_body]
    | false => simp [written.afterSeparator?_trim_body, segmentsOf_trim, written.segmentsOf_body]
  constructor
  · rw [ofText, String.toList_ofList, hName]
  · rw [← isGlobal_ofChars_iff, hName]

/-- The segment `Fn <a::B->C>:: <D>` behind a blank. -/
def callbackSegment : WrittenSegment where
  before := [' ']
  ident := ['F', 'n']
  tail := ' ' :: ('<' :: (['a', ':', ':', 'B', '-', '>', 'C'] ++ ['>']) ++
    ':' :: ':' :: ([' '] ++ ('<' :: (['D'] ++ ['>']) ++ [])))
  blank_before := by decide
  isSegment := ⟨by decide, by decide, by simp [opensArguments]⟩
  isTail :=
    .blank rfl <| .arguments
      (.intro .angle
        (.plain rfl rfl <| .plain rfl rfl <| .plain rfl rfl <| .plain rfl rfl <|
          .arrow <| .plain rfl rfl .nil)
        (by decide)) <|
      .turbofish (by decide) (.intro .angle (.plain rfl rfl .nil) (by decide)) .nil

theorem ofText_written_callback :
    ofText " ::ops:: Fn <a::B->C>:: <D>" = ⟨["ops", "Fn"], true⟩ := by
  let ops : WrittenSegment :=
    ⟨[], ['o', 'p', 's'], [], Text.blanks_nil,
      ⟨by decide, by decide, by simp [opensArguments]⟩, .nil⟩
  exact (ofText_written ⟨[' '], true, [ops, callbackSegment], by decide, by simp⟩).1

end ApiSurvey.QualifiedName
