import ApiSurvey.Proofs.Source.Arguments

/-! The segments of a name that is read. Whatever the text, with brackets that match
nothing and with runs of colons, its segments are bare; and a name of bare segments
is read back from its own text, unless a colon is left inside of one. -/
namespace ApiSurvey.QualifiedName

/-- A segment with no blank at either end, no separator, and no bracket that opens
arguments. A single colon may stand in it, and so may a bracket that closes. -/
structure BareSegment (segment : List Char) : Prop where
  nonempty : segment ≠ []
  trimmed : Text.trim segment = segment
  unseparated : ¬ [':', ':'] <:+: segment
  unopened : ∀ c ∈ segment, c ≠ '<' ∧ c ≠ '(' ∧ c ≠ '['

theorem intercalate_consFirst (c : Char) {pieces : List (List Char)} (hSome : pieces ≠ []) :
    [':', ':'].intercalate (Text.consFirst c pieces) = c :: [':', ':'].intercalate pieces := by
  obtain ⟨piece, more, rfl⟩ := List.exists_cons_of_ne_nil hSome
  by_cases hMore : more = []
  · subst hMore
    simp [Text.consFirst]
  · rw [Text.consFirst, List.intercalate_cons_of_ne_nil hMore,
      List.intercalate_cons_of_ne_nil hMore]
    rfl

/-- Nothing of a text is lost in its pieces but the separators between them. -/
theorem intercalate_piecesFrom (depth : Nat) (afterDash : Bool) (text : List Char) :
    [':', ':'].intercalate (piecesFrom depth afterDash text) = text := by
  fun_induction piecesFrom depth afterDash text with
  | case1 => rfl
  | case2 depth afterDash c text hOpener ih =>
      rw [intercalate_consFirst c (piecesFrom_ne_nil _ _ _), ih]
  | case3 depth afterDash c text hOpener hCloser isArrow ih =>
      rw [intercalate_consFirst c (piecesFrom_ne_nil _ _ _), ih]
  | case4 afterDash text _ _ ih =>
      rw [List.intercalate_cons_of_ne_nil (piecesFrom_ne_nil _ _ _), ih]
      rfl
  | case5 afterDash depth c text hSeparator hOpener hCloser ih =>
      rw [intercalate_consFirst c (piecesFrom_ne_nil _ _ _), ih]

/-- The first piece is how the text starts. -/
theorem first_prefix_of_piecesFrom {depth : Nat} {afterDash : Bool} {text first : List Char}
    {more : List (List Char)} (hPieces : piecesFrom depth afterDash text = first :: more) :
    first <+: text := by
  have hText := intercalate_piecesFrom depth afterDash text
  rw [hPieces] at hText
  by_cases hMore : more = []
  · rw [hMore, List.intercalate_singleton] at hText
    exact ⟨[], by rw [List.append_nil, hText]⟩
  · rw [List.intercalate_cons_of_ne_nil hMore, List.append_assoc] at hText
    exact ⟨_, hText⟩

/-- What stands in a piece before its arguments. -/
def stem (piece : List Char) : List Char :=
  piece.takeWhile fun c => !opensArguments c

/-- Every separator of a piece stands behind an opening bracket. -/
def Unseparated (piece : List Char) : Prop :=
  ¬ [':', ':'] <:+: stem piece

/-- Behind an opener nothing counts as a separator. -/
theorem unseparated_cons_opener {c : Char} (hOpener : opensArguments c = true)
    (piece : List Char) : Unseparated (c :: piece) := by
  simp [Unseparated, stem, hOpener]

/-- A character in front of a piece makes no separator, unless it is a colon in front
of another one. -/
theorem Unseparated.cons {c : Char} {piece : List Char} (hPiece : Unseparated piece)
    (hColon : c = ':' → piece.head? ≠ some ':') : Unseparated (c :: piece) := by
  by_cases hOpener : opensArguments c = true
  · exact unseparated_cons_opener hOpener piece
  · have hStem : stem (c :: piece) = c :: stem piece := by simp [stem, hOpener]
    rw [Unseparated, hStem, List.infix_cons_iff, not_or]
    refine ⟨?_, hPiece⟩
    rintro ⟨rest, hRest⟩
    obtain ⟨rfl, hSecond⟩ := List.cons.inj hRest
    have hPrefix : stem piece <+: piece := List.takeWhile_prefix _
    rw [← hSecond] at hPrefix
    obtain ⟨behind, rfl⟩ := hPrefix
    exact hColon rfl rfl

/-- Where no arguments are open, the pieces of a text have no separator left before
their arguments. Inside of arguments the same holds of all pieces but the first,
which the induction needs and which starts behind the opening bracket. -/
theorem unseparated_piecesFrom (depth : Nat) (afterDash : Bool) (text : List Char) :
    ∃ first more, piecesFrom depth afterDash text = first :: more ∧
      (depth = 0 → Unseparated first) ∧ ∀ piece ∈ more, Unseparated piece := by
  fun_induction piecesFrom depth afterDash text with
  | case1 => exact ⟨[], [], rfl, fun _ => by simp [Unseparated, stem], by simp⟩
  | case2 depth afterDash c text hOpener ih =>
      obtain ⟨first, more, hPieces, -, hMore⟩ := ih
      refine ⟨c :: first, more, ?_, fun _ => unseparated_cons_opener hOpener first, hMore⟩
      rw [hPieces, Text.consFirst]
  | case3 depth afterDash c text hOpener hCloser isArrow ih =>
      obtain ⟨first, more, hPieces, hFirst, hMore⟩ := ih
      refine ⟨c :: first, more, ?_, fun hDepth => ?_, hMore⟩
      · rw [hPieces, Text.consFirst]
      · have hInner : (if isArrow = true then depth else depth - 1) = 0 := by
          split <;> omega
        apply (hFirst hInner).cons
        rintro rfl
        cases hCloser
  | case4 afterDash text _ _ ih =>
      obtain ⟨first, more, hPieces, hFirst, hMore⟩ := ih
      refine ⟨[], first :: more, ?_, fun _ => by simp [Unseparated, stem], ?_⟩
      · rw [hPieces]
      · exact List.forall_mem_cons.mpr ⟨hFirst rfl, hMore⟩
  | case5 afterDash depth c text hSeparator hOpener hCloser ih =>
      obtain ⟨first, more, hPieces, hFirst, hMore⟩ := ih
      refine ⟨c :: first, more, ?_, fun hDepth => ?_, hMore⟩
      · rw [hPieces, Text.consFirst]
      · apply (hFirst hDepth).cons
        intro hColon hSecond
        -- a colon that follows would have made a separator
        obtain ⟨rest, hRest⟩ := List.head?_eq_some_iff.mp hSecond
        obtain ⟨behind, hText⟩ := first_prefix_of_piecesFrom hPieces
        rw [hRest, List.cons_append] at hText
        exact hSeparator _ hDepth hColon hText.symm

/-- No separator is left in a piece. -/
theorem unseparated_of_mem_pieces {text piece : List Char} (hPiece : piece ∈ pieces text) :
    Unseparated piece := by
  obtain ⟨first, more, hPieces, hFirst, hMore⟩ := unseparated_piecesFrom 0 false text
  rw [pieces, hPieces] at hPiece
  rcases List.mem_cons.mp hPiece with rfl | hPiece
  · exact hFirst rfl
  · exact hMore piece hPiece

theorem trim_within (text : List Char) : Text.trim text <:+: text := by
  obtain ⟨before, after, -, -, hText⟩ := Text.trim_exists text
  exact ⟨before, after, hText.symm⟩

/-- The identifier of a piece is bare, unless there is none. -/
theorem Unseparated.bareSegment {piece : List Char} (hPiece : Unseparated piece)
    (hSome : identifier piece ≠ []) : BareSegment (identifier piece) where
  nonempty := hSome
  trimmed := Text.trim_trim _
  unseparated := fun hInfix => hPiece (hInfix.trans (trim_within _))
  unopened := by
    intro c hMem
    have hStem : c ∈ stem piece := (trim_within _).subset hMem
    have hOpener := List.mem_takeWhile_imp hStem
    simpa [opensArguments, not_or, and_assoc] using hOpener

/-- Every segment that is read is bare. It is cut off before the arguments of its
piece, and the blanks around it are taken away. -/
theorem bareSegment_of_mem_segmentsOf {text : List Char} {segment : String}
    (hMem : segment ∈ segmentsOf text) : BareSegment segment.toList := by
  simp only [segmentsOf, List.mem_map, List.mem_filter] at hMem
  obtain ⟨found, ⟨⟨piece, hPiece, rfl⟩, hSome⟩, rfl⟩ := hMem
  rw [String.toList_ofList]
  exact (unseparated_of_mem_pieces hPiece).bareSegment (by simpa using hSome)

theorem bareSegment_of_mem_ofText {text segment : String}
    (hMem : segment ∈ (ofText text).segments) : BareSegment segment.toList := by
  rw [ofText, ofChars] at hMem
  cases hStart : afterSeparator? (Text.trim text.toList) with
  | some rest =>
      simp only [hStart] at hMem
      exact bareSegment_of_mem_segmentsOf hMem
  | none =>
      simp only [hStart] at hMem
      exact bareSegment_of_mem_segmentsOf hMem

/-- A bare segment without colons is a segment of names. -/
theorem BareSegment.isSegment {segment : List Char} (hBare : BareSegment segment)
    (hColon : ':' ∉ segment) : IsSegment segment where
  nonempty := hBare.nonempty
  trimmed := hBare.trimmed
  clean := by
    intro c hMem
    refine ⟨fun hEq => hColon (hEq ▸ hMem), ?_⟩
    simpa [opensArguments, and_assoc] using hBare.unopened c hMem

/-- Every text is read as a name of bare segments. Every name of bare segments
without colons, also the one that has no segments at all, is read back from its own
text, global or not; so reading once more changes nothing in a name that was read
and has no colon in a segment. -/
theorem ofText_reads_bare_segments_back :
    (∀ text, ∀ segment ∈ (ofText text).segments, BareSegment segment.toList) ∧
    (∀ name : QualifiedName,
      (∀ segment ∈ name.segments, BareSegment segment.toList ∧ ':' ∉ segment.toList) →
        ofText name.text = name) ∧
    ∀ text, (∀ segment ∈ (ofText text).segments, ':' ∉ segment.toList) →
      ofText (ofText text).text = ofText text := by
  have hBack (name : QualifiedName)
      (hName : ∀ segment ∈ name.segments, BareSegment segment.toList ∧ ':' ∉ segment.toList) :
      ofText name.text = name := by
    have hWritable : name.Writable := fun segment hMem =>
      (hName segment hMem).1.isSegment (hName segment hMem).2
    exact hWritable.ofText_text
  refine ⟨fun text segment hMem => bareSegment_of_mem_ofText hMem, hBack, fun text hColon => ?_⟩
  exact hBack (ofText text) fun segment hMem =>
    ⟨bareSegment_of_mem_ofText hMem, hColon segment hMem⟩

theorem ofText_reads_bare_segments_back_past_stray_brackets :
    (ofText " ::a> :: Fn(b::C, ").segments = ["a>", "Fn"] ∧
      ofText (ofText " ::a> :: Fn(b::C, ").text = ofText " ::a> :: Fn(b::C, " := by
  have hSegments : (ofText " ::a> :: Fn(b::C, ").segments = ["a>", "Fn"] := by cbv
  refine ⟨hSegments, ofText_reads_bare_segments_back.2.2 _ ?_⟩
  rw [hSegments]
  decide

/-- A colon right before a separator is not told apart from it on the way back. -/
example : ofText "a: ::b" = ⟨["a:", "b"], false⟩ ∧
    ofText (ofText "a: ::b").text = ⟨["a", ":b"], false⟩ := by
  cbv

end ApiSurvey.QualifiedName
