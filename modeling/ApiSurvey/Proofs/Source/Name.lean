import ApiSurvey.Source.Name
import ApiSurvey.Proofs.Text.Trim

/-! Names that are written out are read back. -/
namespace ApiSurvey.QualifiedName

/-- Segments that stand for themselves. -/
structure IsSegment (segment : List Char) : Prop where
  nonempty : segment ≠ []
  trimmed : Text.trim segment = segment
  clean : ∀ c ∈ segment, c ≠ ':' ∧ opensArguments c = false

/-- The segments between separators, behind one more separator in a global name. -/
def spelled (isGlobal : Bool) (segments : List (List Char)) : List Char :=
  (if isGlobal then [':', ':'] else []) ++ [':', ':'].intercalate segments

/-- Outside arguments a dash makes no difference, since nothing is open that an
arrow could close. -/
theorem piecesFrom_zero (afterDash : Bool) (text : List Char) :
    piecesFrom 0 afterDash text = pieces text := by
  unfold pieces piecesFrom
  cases text with
  | nil => rfl
  | cons c rest => simp

theorem pieces_cons {c : Char} (hClean : c ≠ ':' ∧ opensArguments c = false) (rest : List Char) :
    pieces (c :: rest) = Text.consFirst c (pieces rest) := by
  obtain ⟨hColon, hOpener⟩ := hClean
  rw [pieces]
  unfold piecesFrom
  simp [hOpener, hColon, piecesFrom_zero]

/-- A separator ends a piece. -/
theorem pieces_separator (rest : List Char) : pieces (':' :: ':' :: rest) = [] :: pieces rest := by
  simp [pieces, piecesFrom, opensArguments, closesArguments]

/-- A text without colons and openers belongs to one piece. -/
theorem pieces_append {segment rest piece : List Char} {more : List (List Char)}
    (hClean : ∀ c ∈ segment, c ≠ ':' ∧ opensArguments c = false)
    (hRest : pieces rest = piece :: more) :
    pieces (segment ++ rest) = (segment ++ piece) :: more := by
  induction segment with
  | nil => exact hRest
  | cons c segment ih =>
      obtain ⟨hFirst, hSegment⟩ := List.forall_mem_cons.mp hClean
      rw [List.cons_append, pieces_cons hFirst, ih hSegment]
      rfl

/-- By induction on the segments: joined by separators they are divided again. -/
theorem pieces_intercalate {segments : List (List Char)} (hSome : segments ≠ [])
    (hSegments : ∀ segment ∈ segments, IsSegment segment) :
    pieces ([':', ':'].intercalate segments) = segments := by
  induction segments with
  | nil => exact (hSome rfl).elim
  | cons segment segments ih =>
      obtain ⟨hSegment, hRest⟩ := List.forall_mem_cons.mp hSegments
      by_cases hMore : segments = []
      · subst hMore
        have hNone : pieces [] = [[]] := rfl
        have hPieces := pieces_append hSegment.clean hNone
        simpa using hPieces
      · have hSeparator := pieces_separator ([':', ':'].intercalate segments)
        have hPieces := pieces_append hSegment.clean hSeparator
        rw [List.intercalate_cons_of_ne_nil hMore, List.append_assoc]
        rw [ih hMore hRest, List.append_nil] at hPieces
        exact hPieces

/-- A segment is its own identifier. -/
theorem IsSegment.identifier {segment : List Char} (hSegment : IsSegment segment) :
    identifier segment = segment := by
  have hAll : ∀ c ∈ segment, (!opensArguments c) = true := by
    intro c hMem
    rw [(hSegment.clean c hMem).2]
    rfl
  rw [QualifiedName.identifier, List.takeWhile_eq_self_iff.mpr hAll, hSegment.trimmed]

/-- Segments that are joined by separators are read back. -/
theorem segmentsOf_intercalate {segments : List (List Char)}
    (hSegments : ∀ segment ∈ segments, IsSegment segment) :
    segmentsOf ([':', ':'].intercalate segments) = segments.map String.ofList := by
  by_cases hSome : segments = []
  · subst hSome
    rfl
  · have hIdentifiers : segments.map identifier = segments := by
      conv_rhs => rw [← List.map_id segments]
      exact List.map_congr_left fun segment hMem => (hSegments segment hMem).identifier
    have hKept : segments.filter (· ≠ []) = segments := by
      rw [List.filter_eq_self]
      intro segment hMem
      simpa using (hSegments segment hMem).nonempty
    rw [segmentsOf, pieces_intercalate hSome hSegments, hIdentifiers, hKept]

/-- A text behind a separator ends with what follows the separator, or with the
separator itself. -/
theorem getLast?_separator_append (before : List Char) {rest : List Char}
    (hRest : ∀ c ∈ rest.getLast?, Text.isBlank c = false) :
    ∀ c ∈ (before ++ [':', ':'] ++ rest).getLast?, Text.isBlank c = false := by
  intro c hMem
  rw [List.getLast?_append, Option.mem_def, Option.or_eq_some_iff] at hMem
  rcases hMem with hMem | ⟨-, hMem⟩
  · exact hRest c hMem
  · obtain rfl : ':' = c := by simpa using hMem
    rfl

/-- The first segment starts the text and the last one ends it. -/
theorem intercalate_ends {segments : List (List Char)}
    (hSegments : ∀ segment ∈ segments, IsSegment segment) :
    (∀ c ∈ ([':', ':'].intercalate segments).head?, Text.isBlank c = false ∧ c ≠ ':') ∧
      ∀ c ∈ ([':', ':'].intercalate segments).getLast?, Text.isBlank c = false := by
  induction segments with
  | nil => simp
  | cons segment segments ih =>
      obtain ⟨hSegment, hRest⟩ := List.forall_mem_cons.mp hSegments
      obtain ⟨hHead, hLast⟩ := (Text.trim_eq_self_iff segment).mp hSegment.trimmed
      have hFirst : ∀ c ∈ segment.head?, Text.isBlank c = false ∧ c ≠ ':' := fun c hMem =>
        ⟨hHead c hMem, (hSegment.clean c (List.mem_of_mem_head? hMem)).1⟩
      by_cases hMore : segments = []
      · subst hMore
        rw [List.intercalate_singleton]
        exact ⟨hFirst, hLast⟩
      · obtain ⟨d, rest, hCons⟩ := List.exists_cons_of_ne_nil hSegment.nonempty
        rw [List.intercalate_cons_of_ne_nil hMore]
        constructor
        · intro c hMem
          apply hFirst c
          simpa [hCons] using hMem
        · exact getLast?_separator_append segment (ih hRest).2

/-- There are no blanks around a name that is spelled out. -/
theorem trim_spelled (isGlobal : Bool) {segments : List (List Char)}
    (hSegments : ∀ segment ∈ segments, IsSegment segment) :
    Text.trim (spelled isGlobal segments) = spelled isGlobal segments := by
  obtain ⟨hHead, hLast⟩ := intercalate_ends hSegments
  rw [Text.trim_eq_self_iff]
  cases isGlobal with
  | false => exact ⟨fun c hMem => (hHead c hMem).1, hLast⟩
  | true =>
      constructor
      · intro c hMem
        obtain rfl : ':' = c := by simpa [spelled] using hMem
        rfl
      · exact getLast?_separator_append [] hLast

/-- A name that is written out with segments that stand for themselves is read
back as it was. -/
theorem ofChars_spelled (isGlobal : Bool) {segments : List (List Char)}
    (hSegments : ∀ segment ∈ segments, IsSegment segment) :
    ofChars (spelled isGlobal segments) = ⟨segments.map String.ofList, isGlobal⟩ := by
  have hRead := segmentsOf_intercalate hSegments
  rw [ofChars, trim_spelled isGlobal hSegments]
  cases isGlobal with
  | false =>
      have hNone : afterSeparator? (spelled false segments) = none := by
        unfold afterSeparator?
        split
        · next rest hEq =>
          have hColon := ((intercalate_ends hSegments).1 ':' (congrArg List.head? hEq)).2
          exact (hColon rfl).elim
        · rfl
      rw [hNone]
      simp [spelled, hRead]
  | true => simp [spelled, afterSeparator?, hRead]

/-- A name whose segments can be told apart in its text. -/
def Writable (name : QualifiedName) : Prop :=
  ∀ segment ∈ name.segments, IsSegment segment.toList

instance (segment : List Char) : Decidable (IsSegment segment) :=
  decidable_of_iff (segment ≠ [] ∧ Text.trim segment = segment ∧
      segment.all (fun c => c != ':' && !opensArguments c) = true)
    ⟨fun ⟨hSome, hTrim, hClean⟩ => ⟨hSome, hTrim, by simpa using hClean⟩,
      fun hSegment => ⟨hSegment.nonempty, hSegment.trimmed, by simpa using hSegment.clean⟩⟩

instance (name : QualifiedName) : Decidable name.Writable :=
  inferInstanceAs (Decidable (∀ segment ∈ name.segments, IsSegment segment.toList))

/-- The text of a name spells its segments out. -/
theorem toList_text (name : QualifiedName) :
    name.text.toList = spelled name.isGlobal (name.segments.map String.toList) := by
  unfold text spelled
  cases name.isGlobal <;> simp [separator]

/-- A name that can be written is read back from its text. -/
theorem Writable.ofText_text {name : QualifiedName} (hName : name.Writable) :
    ofText name.text = name := by
  have hSegments : ∀ segment ∈ name.segments.map String.toList, IsSegment segment := by
    simpa [Writable] using hName
  rw [ofText, toList_text, ofChars_spelled _ hSegments]
  simp

/-- Only the name without segments that is not global is written as nothing. -/
theorem Writable.text_ne_empty {name : QualifiedName} (hName : name.Writable)
    (hSome : name ≠ ⟨[], false⟩) : name.text ≠ "" := by
  intro hEmpty
  have hBack := hName.ofText_text
  rw [hEmpty] at hBack
  exact hSome (hBack.symm.trans rfl)

end ApiSurvey.QualifiedName
