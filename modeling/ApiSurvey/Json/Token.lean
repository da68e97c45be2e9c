import ApiSurvey.Json.Value
import ApiSurvey.Json.Number
import ApiSurvey.Text.Digits

/-! The tokens of a JSON text: punctuation and scalar values. -/
namespace ApiSurvey.Json

inductive Token where
  | arrayStart
  | arrayEnd
  | objectStart
  | objectEnd
  | comma
  | colon
  | scalar (value : Json)

/-- The characters that may stand between tokens. -/
def isSpace (c : Char) : Bool :=
  c == ' ' || c == '\t' || c == '\n' || c == '\r'

/-- The first half of a character beyond U+FFFF. -/
def isHighSurrogate (unit : Nat) : Bool :=
  0xD800 ≤ unit && unit ≤ 0xDBFF

/-- The second half of a character beyond U+FFFF. -/
def isLowSurrogate (unit : Nat) : Bool :=
  0xDC00 ≤ unit && unit ≤ 0xDFFF

def surrogatePair (high low : Nat) : Char :=
  Char.ofNat (0x10000 + (high - 0xD800) * 0x400 + (low - 0xDC00))

/-- The character that a letter behind a backslash stands for. -/
def escaped? (c : Char) : Option Char :=
  match c with
  | '"' => some '"'
  | '\\' => some '\\'
  | '/' => some '/'
  | 'b' => some '\x08'
  | 'f' => some '\x0c'
  | 'n' => some '\n'
  | 'r' => some '\r'
  | 't' => some '\t'
  | _ => none

/-- The rest of a string, up to its closing quote, and what follows it. A character beyond U+FFFF
is escaped by its two halves, and neither half may stand alone. Control characters must be
escaped. -/
def stringRest? : List Char → Option (List Char × List Char)
  | [] => none
  | '"' :: rest => some ([], rest)
  | '\\' :: 'u' :: a :: b :: c :: d :: rest =>
      match Text.hexValue? [a, b, c, d] with
      | none => none
      | some unit =>
          if isHighSurrogate unit then
            match rest with
            | '\\' :: 'u' :: e :: f :: g :: h :: rest =>
                match Text.hexValue? [e, f, g, h] with
                | none => none
                | some low =>
                    if isLowSurrogate low then
                      (stringRest? rest).map fun (text, rest) =>
                        (surrogatePair unit low :: text, rest)
                    else none
            | _ => none
          else if isLowSurrogate unit then none
          else (stringRest? rest).map fun (text, rest) => (Char.ofNat unit :: text, rest)
  | '\\' :: c :: rest =>
      match escaped? c with
      | none => none
      | some char => (stringRest? rest).map fun (text, rest) => (char :: text, rest)
  | c :: rest =>
      if c.toNat < 0x20 || c == '\\' then none
      else (stringRest? rest).map fun (text, rest) => (c :: text, rest)

/-- The words that stand for values. The three names of numbers that no digits spell are
accepted. -/
def words : List (String × Json) :=
  [("null", .null), ("true", .bool true), ("false", .bool false), ("NaN", .number "NaN"),
    ("Infinity", .number "Infinity"), ("-Infinity", .number "-Infinity")]

/-- A word at the start of a text, and what follows it. -/
def word? (text : List Char) : Option (Json × List Char) :=
  (words.find? fun (word, _) => word.toList.isPrefixOf text).map fun (word, value) =>
    (value, text.drop word.toList.length)

/-- A number at the start of a text, and what follows it. Its integer has at most `most` digits, and
a sign is none of them. -/
def number? (most : Nat) : List Char → Option (Json × List Char)
  | '-' :: rest =>
      (unsigned? most rest).map fun (spelling, rest) =>
        (.number (String.ofList ('-' :: spelling)), rest)
  | text =>
      (unsigned? most text).map fun (spelling, rest) => (.number (String.ofList spelling), rest)

/-- The token that starts with a character, and what follows it. -/
def token? (most : Nat) (c : Char) (rest : List Char) : Option (Token × List Char) :=
  match c with
  | '[' => some (.arrayStart, rest)
  | ']' => some (.arrayEnd, rest)
  | '{' => some (.objectStart, rest)
  | '}' => some (.objectEnd, rest)
  | ',' => some (.comma, rest)
  | ':' => some (.colon, rest)
  | '"' => (stringRest? rest).map fun (text, rest) => (.scalar (.string (String.ofList text)), rest)
  | c =>
      match word? (c :: rest) with
      | some (value, rest) => some (.scalar value, rest)
      | none => (number? most (c :: rest)).map fun (value, rest) => (.scalar value, rest)

/-- What follows a string is shorter than the string with it. -/
theorem stringRest?_length {text string rest : List Char}
    (h : stringRest? text = some (string, rest)) : rest.length < text.length := by
  fun_induction stringRest? text generalizing string rest <;>
    simp only [reduceCtorEq, Option.some.injEq, Option.map_eq_some_iff, Prod.exists,
      Prod.mk.injEq] at h
  case case2 =>
    obtain ⟨rfl, rfl⟩ := h
    simp
  all_goals
    next ih =>
      obtain ⟨inner, after, hInner, _, rfl⟩ := h
      have hShorter := ih hInner
      simp only [List.length_cons]
      omega

/-- What follows a word is shorter than the word with it. -/
theorem word?_length {text rest : List Char} {value : Json}
    (h : word? text = some (value, rest)) : rest.length < text.length := by
  obtain ⟨⟨word, meaning⟩, hFound, hEq⟩ := Option.map_eq_some_iff.1 h
  cases hEq
  have hLetters : ∀ entry ∈ words, 0 < entry.1.toList.length := by decide
  have hSome := hLetters _ (List.mem_of_find?_eq_some hFound)
  have hStart := List.find?_some hFound
  have hLength := (List.isPrefixOf_iff_prefix.1 hStart).length_le
  simp only [List.length_drop] at *
  omega

/-- What follows a number is shorter than the number with it. -/
theorem number?_length {most : Nat} {text rest : List Char} {value : Json}
    (h : number? most text = some (value, rest)) : rest.length < text.length := by
  unfold number? at h
  split at h <;>
  · obtain ⟨⟨spelling, after⟩, hSpelling, hEq⟩ := Option.map_eq_some_iff.1 h
    cases hEq
    obtain ⟨hText, hSome⟩ := unsigned?_append hSpelling
    have hLength := congrArg List.length hText
    have hPos := List.length_pos_iff.2 hSome
    simp only [List.length_append, List.length_cons] at *
    omega

/-- A token takes at least the character that it starts with. -/
theorem token?_length {most : Nat} {c : Char} {text rest : List Char} {token : Token}
    (h : token? most c text = some (token, rest)) : rest.length ≤ text.length := by
  unfold token? at h
  split at h
  case h_7 =>
    obtain ⟨⟨string, after⟩, hString, hEq⟩ := Option.map_eq_some_iff.1 h
    cases hEq
    exact Nat.le_of_lt (stringRest?_length hString)
  case h_8 =>
    split at h
    · next hWord =>
        cases h
        exact Nat.le_of_lt_succ (word?_length hWord)
    · obtain ⟨⟨value, after⟩, hNumber, hEq⟩ := Option.map_eq_some_iff.1 h
      cases hEq
      exact Nat.le_of_lt_succ (number?_length hNumber)
  all_goals
    cases h
    exact Nat.le_refl _

/-- The tokens of a text in which the integer of a number has at most `most` digits. -/
def tokens? (most : Nat) (text : List Char) : Option (List Token) :=
  match text with
  | [] => some []
  | c :: rest =>
      if isSpace c then tokens? most rest
      else
        match _hToken : token? most c rest with
        | none => none
        | some (token, after) => (tokens? most after).map (token :: ·)
  termination_by text.length
  decreasing_by
    · simp
    · exact Nat.lt_succ_of_le (token?_length ‹_›)

end ApiSurvey.Json
