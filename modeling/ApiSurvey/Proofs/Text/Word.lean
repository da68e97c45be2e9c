import ApiSurvey.Text.Blank
import ApiSurvey.Text.Word
import Mathlib.Data.List.Basic

/-! Blanks end words. No blank is a word character in any script, so a word that ends
with a text ends there as well when a blank is put behind it. -/
namespace ApiSurvey.Text

/-- The code points of the blanks. -/
def blankCodes : List Nat :=
  [0x09, 0x0A, 0x0B, 0x0C, 0x0D, 0x1C, 0x1D, 0x1E, 0x1F, 0x20, 0x85, 0xA0, 0x1680, 0x2000, 0x2001,
    0x2002, 0x2003, 0x2004, 0x2005, 0x2006, 0x2007, 0x2008, 0x2009, 0x200A, 0x2028, 0x2029, 0x202F,
    0x205F, 0x3000]

/-- Every blank is one of the listed codes. -/
theorem toNat_mem_blankCodes {c : Char} (hBlank : isBlank c = true) : c.toNat ∈ blankCodes := by
  simp only [isBlank, Bool.or_eq_true, Bool.and_eq_true, decide_eq_true_eq, beq_iff_eq] at hBlank
  simp only [blankCodes, List.mem_cons, List.not_mem_nil, or_false]
  omega

/-- Blanks and word characters are apart in every script. -/
theorem isWord_of_isBlank {c : Char} (hBlank : isBlank c = true) : isWord c = false := by
  have hCodes : ∀ code ∈ blankCodes, isWord (Char.ofNat code) = false := by decide +kernel
  simpa using hCodes c.toNat (toNat_mem_blankCodes hBlank)

/-- A word ends where no character of words follows. -/
theorem wordEndsBefore_iff (text : List Char) :
    wordEndsBefore text = true ↔ ∀ c ∈ text.head?, isWord c = false := by
  cases text <;> simp [wordEndsBefore]

/-- A word that ends at the end of a text ends there also if a blank follows. -/
theorem wordEndsBefore_append_blank {text : List Char} (hEnds : wordEndsBefore text = true)
    {blank : Char} (hBlank : isBlank blank = true) (rest : List Char) :
    wordEndsBefore (text ++ blank :: rest) = true := by
  cases text with
  | nil => simp [wordEndsBefore, isWord_of_isBlank hBlank]
  | cons c text => exact hEnds

end ApiSurvey.Text
