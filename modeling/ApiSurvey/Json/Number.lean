/-! The spelling of JSON numbers: a sign, an integer without leading zeros, a fraction and an
exponent, of which only the integer must be there. A reader may limit the digits of the integer. -/
namespace ApiSurvey.Json

/-- At least one digit at the start of a text, and what follows the digits. -/
def digits? (text : List Char) : Option (List Char × List Char) :=
  match text.takeWhile Char.isDigit with
  | [] => none
  | digits => some (digits, text.dropWhile Char.isDigit)

/-- The integer of a number; a zero at its start is all of it. -/
def integer? : List Char → Option (List Char × List Char)
  | '0' :: rest => some (['0'], rest)
  | text => digits? text

/-- The fraction of a number, empty if no point follows. -/
def fraction? : List Char → Option (List Char × List Char)
  | '.' :: rest => (digits? rest).map fun (digits, rest) => ('.' :: digits, rest)
  | text => some ([], text)

/-- A sign at the start of a text, empty if there is none. -/
def sign : List Char → List Char × List Char
  | '+' :: rest => (['+'], rest)
  | '-' :: rest => (['-'], rest)
  | text => ([], text)

/-- The exponent of a number, empty if neither `e` nor `E` follows. -/
def exponent? : List Char → Option (List Char × List Char)
  | [] => some ([], [])
  | c :: rest =>
      if c == 'e' || c == 'E' then
        let (mark, rest) := sign rest
        (digits? rest).map fun (digits, rest) => (c :: mark ++ digits, rest)
      else some ([], c :: rest)

/-- A number without its sign at the start of a text, and what follows it. Its integer has at most
`most` digits, also where a fraction or an exponent follows. -/
def unsigned? (most : Nat) (text : List Char) : Option (List Char × List Char) := do
  let (integer, rest) ← (integer? text).filter fun (integer, _) => integer.length ≤ most
  let (fraction, rest) ← fraction? rest
  let (exponent, rest) ← exponent? rest
  return (integer ++ fraction ++ exponent, rest)

/-- What the digits of a text and the rest of it are put together from. -/
theorem digits?_append {text digits rest : List Char} (h : digits? text = some (digits, rest)) :
    digits ++ rest = text ∧ digits ≠ [] := by
  unfold digits? at h
  split at h
  · cases h
  · next taken hTaken =>
      cases h
      exact ⟨List.takeWhile_append_dropWhile, hTaken⟩

/-- The digits of an integer and what is left make up the text again, and there is at least one
digit. -/
theorem integer?_append {text integer rest : List Char}
    (h : integer? text = some (integer, rest)) : integer ++ rest = text ∧ integer ≠ [] := by
  unfold integer? at h
  split at h
  · cases h
    exact ⟨rfl, List.cons_ne_nil _ _⟩
  · exact digits?_append h

theorem fraction?_append {text fraction rest : List Char}
    (h : fraction? text = some (fraction, rest)) : fraction ++ rest = text := by
  unfold fraction? at h
  split at h
  · next tail =>
      obtain ⟨⟨digits, after⟩, hDigits, hEq⟩ := Option.map_eq_some_iff.1 h
      cases hEq
      rw [List.cons_append, (digits?_append hDigits).1]
  · cases h
    rfl

theorem sign_append (text : List Char) : (sign text).1 ++ (sign text).2 = text := by
  unfold sign
  split <;> rfl

/-- The exponent and what is left make up the text again; a number without one has an empty one. -/
theorem exponent?_append {text exponent rest : List Char}
    (h : exponent? text = some (exponent, rest)) : exponent ++ rest = text := by
  unfold exponent? at h
  split at h
  · cases h
    rfl
  · next c tail =>
      split at h
      · cases hSign : sign tail with
        | mk mark after =>
            rw [hSign] at h
            obtain ⟨⟨digits, behind⟩, hDigits, hEq⟩ := Option.map_eq_some_iff.1 h
            cases hEq
            have hTail := sign_append tail
            rw [hSign, ← (digits?_append hDigits).1] at hTail
            simpa using hTail
      · cases h
        rfl

/-- A number and what follows it make up the text, and a number is never empty. -/
theorem unsigned?_append {most : Nat} {text number rest : List Char}
    (h : unsigned? most text = some (number, rest)) : number ++ rest = text ∧ number ≠ [] := by
  unfold unsigned? at h
  simp only [Option.bind_eq_bind, Option.bind_eq_some_iff, Option.filter_eq_some_iff] at h
  obtain ⟨⟨integer, rest₁⟩, ⟨hInteger, _⟩, ⟨fraction, rest₂⟩, hFraction, ⟨exponent, rest₃⟩,
    hExponent, hEq⟩ := h
  cases hEq
  have hInteger := integer?_append hInteger
  rw [List.append_assoc, List.append_assoc, exponent?_append hExponent,
    fraction?_append hFraction]
  refine ⟨hInteger.1, ?_⟩
  simp [hInteger.2]

end ApiSurvey.Json
