import ApiSurvey.Text.Blank
import Mathlib.Data.List.DropRight

/-! Trimming takes blanks away from both ends of a text and nothing else. -/
namespace ApiSurvey.Text

def Blanks (text : List Char) : Prop :=
  ∀ c ∈ text, isBlank c = true

theorem blanks_nil : Blanks [] := by
  simp [Blanks]

/-- Two texts are blank together if both are. -/
theorem blanks_append {first second : List Char} :
    Blanks (first ++ second) ↔ Blanks first ∧ Blanks second := by
  simp [Blanks, or_imp, forall_and]

theorem blanks_takeWhile (text : List Char) : Blanks (text.takeWhile isBlank) :=
  fun _ hMem => List.mem_takeWhile_imp hMem

/-- The check of blank texts. -/
theorem isBlankText_iff (text : List Char) : isBlankText text = true ↔ Blanks text := by
  simp [isBlankText, Blanks]

instance (text : List Char) : Decidable (Blanks text) :=
  decidable_of_iff (isBlankText text = true) (isBlankText_iff text)

/-- Nothing is left only of blanks. -/
theorem trimEnd_eq_nil_iff (text : List Char) : trimEnd text = [] ↔ Blanks text :=
  List.rdropWhile_eq_nil_iff

theorem dropWhile_blank_eq_self_iff (text : List Char) :
    text.dropWhile isBlank = text ↔ ∀ c ∈ text.head?, isBlank c = false := by
  rw [List.dropWhile_eq_self_iff]
  cases text <;> simp

/-- A text stays as it is if it does not end in a blank. -/
theorem trimEnd_eq_self_iff (text : List Char) :
    trimEnd text = text ↔ ∀ c ∈ text.getLast?, isBlank c = false := by
  rw [trimEnd, ← List.rdropWhile, List.rdropWhile_eq_self_iff]
  obtain rfl | ⟨init, last, rfl⟩ := List.eq_nil_or_concat' text <;> simp

@[simp] theorem trimEnd_nil : trimEnd [] = [] :=
  rfl

theorem trimEnd_trimEnd (text : List Char) : trimEnd (trimEnd text) = trimEnd text :=
  List.rdropWhile_idempotent isBlank text

/-- Blanks are taken away from the second text, and from the first one only if
nothing else is left of the second. -/
theorem trimEnd_append (first second : List Char) :
    trimEnd (first ++ second) =
      if trimEnd second = [] then trimEnd first else first ++ trimEnd second := by
  simp only [trimEnd, List.reverse_append, List.dropWhile_append, List.isEmpty_iff,
    List.reverse_eq_nil_iff]
  split_ifs <;> simp

theorem trimEnd_append_blanks {text blanks : List Char} (hBlanks : Blanks blanks) :
    trimEnd (text ++ blanks) = trimEnd text := by
  rw [trimEnd_append, if_pos ((trimEnd_eq_nil_iff blanks).mpr hBlanks)]

/-- Blanks in front of a text are left, unless the text is gone. -/
theorem trimEnd_blanks_append {blanks : List Char} (hBlanks : Blanks blanks) (text : List Char) :
    ∃ left, Blanks left ∧ trimEnd (blanks ++ text) = left ++ trimEnd text := by
  rw [trimEnd_append]
  split_ifs with hEmpty
  · rw [hEmpty, (trimEnd_eq_nil_iff blanks).mpr hBlanks]
    exact ⟨[], blanks_nil, rfl⟩
  · exact ⟨blanks, hBlanks, rfl⟩

/-- What ends in a character that is no blank is left alone, also in front of
another text. -/
theorem trimEnd_concat_append (text : List Char) {last : Char} (hLast : isBlank last = false)
    (rest : List Char) : trimEnd (text ++ [last] ++ rest) = text ++ [last] ++ trimEnd rest := by
  have hText : trimEnd (text ++ [last]) = text ++ [last] :=
    (trimEnd_eq_self_iff _).mpr (by simp [hLast])
  rw [trimEnd_append]
  split_ifs with hRest
  · rw [hText, hRest, List.append_nil]
  · rfl

/-- What is taken away at the end is blank. -/
theorem trimEnd_exists (text : List Char) :
    ∃ blanks, Blanks blanks ∧ text = trimEnd text ++ blanks :=
  ⟨text.rtakeWhile isBlank, fun _ hMem => List.mem_rtakeWhile_imp hMem,
    List.rdropWhile_append_rtakeWhile.symm⟩

/-- Blanks at the end make no difference to what is left. -/
theorem trim_append_blanks {text blanks : List Char} (hBlanks : Blanks blanks) :
    trim (text ++ blanks) = trim text := by
  rw [trim, trim, List.dropWhile_append]
  split_ifs with hText
  · rw [(List.dropWhile_eq_nil_iff.mpr hBlanks), List.isEmpty_iff.mp hText]
  · exact trimEnd_append_blanks hBlanks

/-- Nor do blanks in front. -/
theorem trim_blanks_append {blanks : List Char} (hBlanks : Blanks blanks) (text : List Char) :
    trim (blanks ++ text) = trim text := by
  rw [trim, trim, List.dropWhile_append_of_pos hBlanks]

/-- Nothing is left exactly of blanks. -/
theorem trim_eq_nil_iff (text : List Char) : trim text = [] ↔ Blanks text := by
  rw [trim, trimEnd_eq_nil_iff]
  constructor
  · intro hRest
    rw [← List.takeWhile_append_dropWhile (p := isBlank) (l := text), blanks_append]
    exact ⟨blanks_takeWhile text, hRest⟩
  · intro hText c hMem
    exact hText c (List.dropWhile_subset _ hMem)

/-- Trimming changes nothing exactly when no blank stands at either end. -/
theorem trim_eq_self_iff (text : List Char) :
    trim text = text ↔ (∀ c ∈ text.head?, isBlank c = false) ∧
      ∀ c ∈ text.getLast?, isBlank c = false := by
  rw [← dropWhile_blank_eq_self_iff, ← trimEnd_eq_self_iff]
  constructor
  · intro hTrim
    have hLength : text.length ≤ (text.dropWhile isBlank).length := by
      calc text.length = (trim text).length := by rw [hTrim]
        _ ≤ (text.dropWhile isBlank).length := (List.rdropWhile_prefix isBlank _).length_le
    have hStart : text.dropWhile isBlank = text :=
      (List.dropWhile_suffix isBlank).eq_of_length_le hLength
    rw [trim, hStart] at hTrim
    exact ⟨hStart, hTrim⟩
  · intro hEnds
    rw [trim, hEnds.1, hEnds.2]

/-- Every text is its trimmed form between blanks. -/
theorem trim_exists (text : List Char) :
    ∃ before after, Blanks before ∧ Blanks after ∧ text = before ++ trim text ++ after := by
  obtain ⟨after, hAfter, hText⟩ := trimEnd_exists (text.dropWhile isBlank)
  refine ⟨text.takeWhile isBlank, after, blanks_takeWhile text, hAfter, ?_⟩
  rw [trim, List.append_assoc, ← hText, List.takeWhile_append_dropWhile]

/-- What is left by trimming has no blanks at either end to lose. -/
theorem trim_trim (text : List Char) : trim (trim text) = trim text := by
  have hFront : (trim text).dropWhile isBlank = trim text := by
    rw [dropWhile_blank_eq_self_iff]
    intro c hFirst
    have hPrefix : trim text <+: text.dropWhile isBlank := List.rdropWhile_prefix isBlank _
    have hHead : (text.dropWhile isBlank).head? = some c := by
      obtain ⟨rest, hRest⟩ := hPrefix
      rw [← hRest, List.head?_append, hFirst]
      rfl
    simpa [hHead] using List.head?_dropWhile_not isBlank text
  rw [trim, hFront]
  exact trimEnd_trimEnd _

end ApiSurvey.Text
