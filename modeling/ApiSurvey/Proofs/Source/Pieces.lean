import ApiSurvey.Proofs.Source.Segments

/-! The pieces of a text. Between separators they are the text again, and each of them, read
alone, is one piece: behind a separator nothing is open and no dash stands, so that reading goes
on as at the start of a text. Brackets that match nothing and runs of colons make no exception.
What decides is only which separators stand in no arguments, so the pieces are the one division
of a text at these. -/
namespace ApiSurvey.QualifiedName

/-- How many arguments are open behind a character where `depth` are open before it. The head
of an arrow closes none. -/
def depthAfter (depth : Nat) (afterDash : Bool) (c : Char) : Nat :=
  if opensArguments c then depth + 1
  else if closesArguments c && !(c == '>' && afterDash) then depth - 1
  else depth

/-- How many arguments are open behind a text where `depth` are open before it. -/
def openBehind (depth : Nat) (afterDash : Bool) : List Char → Nat
  | [] => depth
  | c :: rest => openBehind (depthAfter depth afterDash c) (c == '-') rest

/-- Every separator of a text stands in arguments, those that are open before the text
included. -/
def Unbroken (depth : Nat) (afterDash : Bool) (text : List Char) : Prop :=
  ∀ before after, text = before ++ ':' :: ':' :: after → 0 < openBehind depth afterDash before

/-- A text that is cut, as often as it can be, at the first separator that stands in no
arguments. The part before such a separator leaves nothing open. It does not end in a colon
either, which would have started a separator of its own. -/
structure Division (text : List Char) (parts : List (List Char)) : Prop where
  nonempty : parts ≠ []
  joined : [':', ':'].intercalate parts = text
  unbroken : ∀ part ∈ parts, Unbroken 0 false part
  closed : ∀ part ∈ parts.dropLast, openBehind 0 false part = 0
  colonless : ∀ part ∈ parts.dropLast, part.getLast? ≠ some ':'

section Scanning

variable {depth : Nat} {afterDash : Bool} {c : Char} {text : List Char}

theorem unbroken_nil : Unbroken depth afterDash [] := by
  intro before after hText
  simp at hText

/-- A text is unbroken if it does not start with a separator of its own and the text behind its
first character is. -/
theorem unbroken_cons_iff :
    Unbroken depth afterDash (c :: text) ↔
      (depth = 0 → ¬ [':', ':'] <+: c :: text) ∧
        Unbroken (depthAfter depth afterDash c) (c == '-') text := by
  constructor
  · intro hText
    constructor
    · rintro hDepth ⟨after, hAfter⟩
      have hOpen : 0 < depth := hText [] after hAfter.symm
      exact hOpen.ne' hDepth
    · intro before after hSplit
      exact hText (c :: before) after (congrArg (c :: ·) hSplit)
  · rintro ⟨hStart, hRest⟩ before after hSplit
    cases before with
    | nil => exact Nat.pos_of_ne_zero fun hDepth => hStart hDepth ⟨after, hSplit.symm⟩
    | cons first before =>
        obtain ⟨rfl, hBehind⟩ := List.cons.inj hSplit
        exact hRest before after hBehind

/-- A character that starts no separator of its own is kept, whatever it is. -/
theorem piecesFrom_kept (hStart : depth = 0 → ¬ [':', ':'] <+: c :: text) :
    piecesFrom depth afterDash (c :: text) =
      Text.consFirst c (piecesFrom (depthAfter depth afterDash c) (c == '-') text) := by
  by_cases hOpener : opensArguments c = true
  · have hDash : (c == '-') = false := beq_false_of_ne (by rintro rfl; cases hOpener)
    rw [piecesFrom_opener depth afterDash text hOpener, depthAfter, if_pos hOpener, hDash]
  rw [Bool.not_eq_true] at hOpener
  by_cases hCloser : closesArguments c = true
  · have hDash : (c == '-') = false := beq_false_of_ne (by rintro rfl; cases hCloser)
    rw [piecesFrom_closer depth afterDash text hOpener hCloser, depthAfter, hDash]
    cases c == '>' && afterDash <;> simp [hOpener, hCloser]
  rw [Bool.not_eq_true] at hCloser
  have hPlain : depth = 0 → c = ':' → text.head? ≠ some ':' := by
    rintro hDepth rfl hSecond
    obtain ⟨rest, rfl⟩ := List.head?_eq_some_iff.mp hSecond
    exact hStart hDepth ⟨rest, rfl⟩
  rw [piecesFrom_plain depth afterDash text hOpener hCloser hPlain, depthAfter]
  simp [hOpener, hCloser]

/-- A text without a separator of its own is one piece. -/
theorem Unbroken.piecesFrom_eq (hText : Unbroken depth afterDash text) :
    piecesFrom depth afterDash text = [text] := by
  induction text generalizing depth afterDash with
  | nil => rfl
  | cons c text ih =>
      obtain ⟨hStart, hRest⟩ := unbroken_cons_iff.mp hText
      rw [piecesFrom_kept hStart, ih hRest]
      rfl

/-- Whether a separator starts here is told by two characters. -/
theorem separator_prefix_iff (first rest : List Char) :
    [':', ':'] <+: c :: (first ++ ':' :: ':' :: rest) ↔ [':', ':'] <+: c :: (first ++ [':']) := by
  have hPrefix : c :: (first ++ [':']) <+: c :: (first ++ ':' :: ':' :: rest) :=
    ⟨':' :: rest, by simp⟩
  constructor
  · intro hSeparator
    exact List.prefix_of_prefix_length_le hSeparator hPrefix (by simp)
  · intro hSeparator
    exact hSeparator.trans hPrefix

/-- The first separator of a text's own ends its first piece, and the text behind it is read as
a text for itself. -/
theorem piecesFrom_append_separator {first : List Char}
    (hFirst : Unbroken depth afterDash (first ++ [':']))
    (hClosed : openBehind depth afterDash first = 0) (rest : List Char) :
    piecesFrom depth afterDash (first ++ ':' :: ':' :: rest) = first :: pieces rest := by
  induction first generalizing depth afterDash with
  | nil =>
      obtain rfl : depth = 0 := hClosed
      rw [List.nil_append, piecesFrom_zero, pieces_separator]
  | cons c first ih =>
      obtain ⟨hStart, hRest⟩ := unbroken_cons_iff.mp hFirst
      rw [List.cons_append, piecesFrom_kept, ih hRest hClosed]
      · rfl
      · rw [separator_prefix_iff]
        exact hStart

/-- A text is unbroken, or it has a first separator of its own. -/
theorem unbroken_or_exists_separator (depth : Nat) (afterDash : Bool) (text : List Char) :
    Unbroken depth afterDash text ∨
      ∃ first rest, text = first ++ ':' :: ':' :: rest ∧
        Unbroken depth afterDash (first ++ [':']) ∧ openBehind depth afterDash first = 0 := by
  induction text generalizing depth afterDash with
  | nil => exact .inl unbroken_nil
  | cons c text ih =>
      by_cases hStart : depth = 0 → ¬ [':', ':'] <+: c :: text
      · rcases ih (depthAfter depth afterDash c) (c == '-') with
          hText | ⟨first, rest, rfl, hFirst, hClosed⟩
        · exact .inl (unbroken_cons_iff.mpr ⟨hStart, hText⟩)
        · rw [separator_prefix_iff] at hStart
          exact .inr ⟨c :: first, rest, rfl, unbroken_cons_iff.mpr ⟨hStart, hFirst⟩, hClosed⟩
      · push Not at hStart
        obtain ⟨rfl, rest, hText⟩ := hStart
        refine .inr ⟨[], rest, hText.symm, ?_, rfl⟩
        exact unbroken_cons_iff.mpr ⟨fun _ => by simp, unbroken_nil⟩

/-- Behind closed arguments a colon makes a separator only with another colon. -/
theorem unbroken_concat_colon_iff (hClosed : openBehind depth afterDash text = 0) :
    Unbroken depth afterDash (text ++ [':']) ↔
      Unbroken depth afterDash text ∧ text.getLast? ≠ some ':' := by
  induction text generalizing depth afterDash with
  | nil => simp [unbroken_cons_iff, unbroken_nil]
  | cons c text ih =>
      rw [List.cons_append, unbroken_cons_iff, unbroken_cons_iff, ih hClosed]
      cases text with
      | nil =>
          by_cases hColon : c = ':'
          · subst hColon
            obtain rfl : depth = 0 := hClosed
            simp
          · simp [unbroken_nil, hColon, Ne.symm hColon]
      | cons d text =>
          rw [List.getLast?_cons_cons, List.cons_append, List.cons_prefix_cons,
            List.cons_prefix_cons]
          simp [and_assoc]

end Scanning

/-- A text in which nothing separates is a single piece. -/
theorem Unbroken.pieces_eq {text : List Char} (hText : Unbroken 0 false text) :
    pieces text = [text] :=
  hText.piecesFrom_eq

/-- It is its own division. -/
theorem Unbroken.division {text : List Char} (hText : Unbroken 0 false text) :
    Division text [text] where
  nonempty := by simp
  joined := by simp
  unbroken := by simpa using hText
  closed := by simp
  colonless := by simp

/-- One more part in front of a division. -/
theorem Division.cons {first rest : List Char} {parts : List (List Char)}
    (hParts : Division rest parts) (hFirst : Unbroken 0 false (first ++ [':']))
    (hClosed : openBehind 0 false first = 0) :
    Division (first ++ ':' :: ':' :: rest) (first :: parts) := by
  obtain ⟨hUnbroken, hColon⟩ := (unbroken_concat_colon_iff hClosed).mp hFirst
  have hDrop := List.dropLast_cons_of_ne_nil (x := first) hParts.nonempty
  constructor
  case nonempty => simp
  case joined =>
    rw [List.intercalate_cons_of_ne_nil hParts.nonempty, hParts.joined, List.append_assoc]
    rfl
  case unbroken => exact List.forall_mem_cons.mpr ⟨hUnbroken, hParts.unbroken⟩
  case closed =>
    rw [hDrop]
    exact List.forall_mem_cons.mpr ⟨hClosed, hParts.closed⟩
  case colonless =>
    rw [hDrop]
    exact List.forall_mem_cons.mpr ⟨hColon, hParts.colonless⟩

/-- The pieces of a text divide it. -/
theorem division_pieces (text : List Char) : Division text (pieces text) := by
  -- The rest behind the first separator is shorter, and its pieces are the further ones.
  induction hLength : text.length using Nat.strong_induction_on generalizing text with
  | _ length ih =>
      rcases unbroken_or_exists_separator 0 false text with
        hText | ⟨first, rest, rfl, hFirst, hClosed⟩
      · rw [hText.pieces_eq]
        exact hText.division
      · have hShorter : rest.length < length := by
          rw [← hLength, List.length_append, List.length_cons, List.length_cons]
          omega
        have hRest := ih rest.length hShorter rest rfl
        rw [pieces, piecesFrom_append_separator hFirst hClosed]
        exact hRest.cons hFirst hClosed

/-- No other division of a text is left. -/
theorem Division.pieces_eq {text : List Char} {parts : List (List Char)}
    (hParts : Division text parts) : pieces text = parts := by
  induction parts generalizing text with
  | nil => exact (hParts.nonempty rfl).elim
  | cons first parts ih =>
      have hFirst := hParts.unbroken first List.mem_cons_self
      have hText := hParts.joined
      by_cases hMore : parts = []
      · subst hMore
        rw [List.intercalate_singleton] at hText
        rw [← hText, hFirst.pieces_eq]
      · have hDrop := List.dropLast_cons_of_ne_nil (x := first) hMore
        have hClosed := hParts.closed
        have hColon := hParts.colonless
        rw [hDrop, List.forall_mem_cons] at hClosed hColon
        have hRest : Division ([':', ':'].intercalate parts) parts :=
          ⟨hMore, rfl, (List.forall_mem_cons.mp hParts.unbroken).2, hClosed.2, hColon.2⟩
        have hCut := (unbroken_concat_colon_iff hClosed.1).mpr ⟨hFirst, hColon.1⟩
        rw [List.intercalate_cons_of_ne_nil hMore, List.append_assoc] at hText
        rw [← hText, pieces]
        exact (piecesFrom_append_separator hCut hClosed.1 _).trans (congrArg _ (ih hRest))

/-- The pieces of any text give it back between separators, and none of them can be divided
further. They are the only parts of the text that do so and are cut, each time, at the first
separator that stands in no arguments. -/
theorem pieces_join_back_and_stand_alone (text : List Char) :
    [':', ':'].intercalate (pieces text) = text ∧
    (∀ piece ∈ pieces text, pieces piece = [piece]) ∧
    ∀ parts, pieces text = parts ↔ Division text parts := by
  have hPieces := division_pieces text
  refine ⟨hPieces.joined, fun piece hMem => (hPieces.unbroken piece hMem).pieces_eq, ?_⟩
  intro parts
  constructor
  · rintro rfl
    exact hPieces
  · exact Division.pieces_eq

theorem pieces_join_back_and_stand_alone_past_stray_brackets :
    pieces "a:::b>::c<d->::e".toList = ["a".toList, ":b>".toList, "c<d->::e".toList] ∧
      pieces ":b>".toList = [":b>".toList] ∧ pieces "c<d->::e".toList = ["c<d->::e".toList] := by
  have hPieces : pieces "a:::b>::c<d->::e".toList =
      ["a".toList, ":b>".toList, "c<d->::e".toList] := by cbv
  have hAlone := (pieces_join_back_and_stand_alone "a:::b>::c<d->::e".toList).2.1
  rw [hPieces] at hAlone
  exact ⟨hPieces, hAlone _ (by simp), hAlone _ (by simp)⟩

end ApiSurvey.QualifiedName
