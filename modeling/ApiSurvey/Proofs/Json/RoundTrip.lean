import ApiSurvey.Json.Reader
import ApiSurvey.Json.Writer
import Mathlib.Data.List.Basic
import Mathlib.Tactic.IntervalCases

/-! JSON texts that are written can be read back. A written text is plain ASCII
whatever its strings hold, and every limit on open containers that leaves room
for the value reads it as the value that was written. -/
namespace ApiSurvey

namespace Text

/-- A digit is read back as what it stands for. -/
theorem hexDigit?_digitChar {digit : Nat} (hDigit : digit < 16) :
    hexDigit? digit.digitChar = some digit := by
  interval_cases digit <;> decide

/-- The last digit counts for itself and the others for sixteen times their value. -/
theorem hexValue?_concat (digits : List Char) (c : Char) :
    hexValue? (digits ++ [c]) =
      (hexValue? digits).bind fun value => (hexDigit? c).map (value * 16 + ·) := by
  simp [hexValue?, List.foldlM_append]

/-- Leading zeros count for nothing. -/
theorem hexValue?_zeros (count : Nat) (digits : List Char) :
    hexValue? (List.replicate count '0' ++ digits) = hexValue? digits := by
  induction count with
  | zero => rfl
  | succ count ih =>
      have hZero : hexDigit? '0' = some 0 := by decide
      rw [← ih]
      simp [hexValue?, List.replicate_succ, hZero]

/-- By induction on the value, a digit at a time: its digits are read back as it. -/
theorem hexValue?_toDigits (value : Nat) : hexValue? (Nat.toDigits 16 value) = some value := by
  induction value using Nat.strongRecOn with
  | ind value ih =>
      by_cases hSmall : value < 16
      · rw [Nat.toDigits_of_lt_base hSmall]
        simp [hexValue?, hexDigit?_digitChar hSmall]
      · have hLess : value / 16 < value := by omega
        have hDigit : value % 16 < 16 := by omega
        rw [Nat.toDigits_of_base_le (by omega) (by omega), hexValue?_concat, ih _ hLess,
          hexDigit?_digitChar hDigit]
        simp only [Option.bind_some, Option.map_some, Option.some.injEq]
        omega

/-- A value below a power of sixteen has no more digits than the exponent. -/
theorem length_toDigits_le (width : Nat) {value : Nat} (hValue : value < 16 ^ (width + 1)) :
    (Nat.toDigits 16 value).length ≤ width + 1 := by
  induction width generalizing value with
  | zero => simp [Nat.toDigits_of_lt_base (by simpa using hValue)]
  | succ width ih =>
      by_cases hSmall : value < 16
      · simp [Nat.toDigits_of_lt_base hSmall]
      · have hLess : value / 16 < 16 ^ (width + 1) := by
          rw [pow_succ] at hValue
          omega
        rw [Nat.toDigits_of_base_le (by omega) (by omega), List.length_append]
        have hLength := ih hLess
        simp only [List.length_singleton]
        omega

/-- A unit of sixteen bits has four digits, and they give its value. -/
theorem exists_hexDigits {value : Nat} (hValue : value < 0x10000) :
    ∃ a b c d, hexDigits 4 value = [a, b, c, d] ∧ hexValue? [a, b, c, d] = some value := by
  have hLength : (hexDigits 4 value).length = 4 := by
    have hDigits : (Nat.toDigits 16 value).length ≤ 3 + 1 :=
      length_toDigits_le 3 (by simpa using hValue)
    simp only [hexDigits, padDigits, List.length_append, List.length_replicate]
    omega
  have hBack : hexValue? (hexDigits 4 value) = some value := by
    rw [hexDigits, padDigits, hexValue?_zeros, hexValue?_toDigits]
  obtain ⟨a, b, c, d, hFour⟩ := List.length_eq_four.mp hLength
  exact ⟨a, b, c, d, hFour, hFour ▸ hBack⟩

def IsAscii (text : List Char) : Prop :=
  ∀ c ∈ text, c.toNat < 0x80

@[simp] theorem isAscii_append (first second : List Char) :
    IsAscii (first ++ second) ↔ IsAscii first ∧ IsAscii second :=
  List.forall_mem_append

@[simp] theorem isAscii_cons (c : Char) (text : List Char) :
    IsAscii (c :: text) ↔ c.toNat < 0x80 ∧ IsAscii text :=
  List.forall_mem_cons

@[simp] theorem isAscii_nil : IsAscii [] := by
  simp [IsAscii]

theorem isAscii_replicate (count : Nat) {c : Char} (hAscii : c.toNat < 0x80) :
    IsAscii (List.replicate count c) := by
  intro other hMem
  rwa [List.eq_of_mem_replicate hMem]

theorem isAscii_toDigits (value : Nat) : IsAscii (Nat.toDigits 16 value) := by
  have hDigit : ∀ digit < 16, digit.digitChar.toNat < 0x80 := by decide
  induction value using Nat.strongRecOn with
  | ind value ih =>
      by_cases hSmall : value < 16
      · simpa [Nat.toDigits_of_lt_base hSmall] using hDigit value hSmall
      · rw [Nat.toDigits_of_base_le (by omega) (by omega), isAscii_append]
        exact ⟨ih _ (by omega), by simpa using hDigit (value % 16) (by omega)⟩

theorem isAscii_hexDigits (width value : Nat) : IsAscii (hexDigits width value) := by
  rw [hexDigits, padDigits, isAscii_append]
  exact ⟨isAscii_replicate _ (by decide), isAscii_toDigits value⟩

end Text

namespace Json

/-- A unit that is no surrogate is read as the character it numbers. -/
theorem stringRest?_unit {unit : Nat} (hUnit : unit < 0x10000)
    (hHigh : isHighSurrogate unit = false) (hLow : isLowSurrogate unit = false)
    (rest : List Char) :
    stringRest? (unitEscape unit ++ rest) =
      (stringRest? rest).map fun (text, rest) => (Char.ofNat unit :: text, rest) := by
  obtain ⟨a, b, c, d, hDigits, hValue⟩ := Text.exists_hexDigits hUnit
  simp [unitEscape, hDigits, stringRest?, hValue, hHigh, hLow]

/-- A high surrogate and a low one behind it are read as one character. -/
theorem stringRest?_units {high low : Nat} (hHighUnit : high < 0x10000) (hLowUnit : low < 0x10000)
    (hHigh : isHighSurrogate high = true) (hLow : isLowSurrogate low = true) (rest : List Char) :
    stringRest? (unitEscape high ++ unitEscape low ++ rest) =
      (stringRest? rest).map fun (text, rest) => (surrogatePair high low :: text, rest) := by
  obtain ⟨a, b, c, d, hDigits, hValue⟩ := Text.exists_hexDigits hHighUnit
  obtain ⟨e, f, g, h, hMore, hLowValue⟩ := Text.exists_hexDigits hLowUnit
  simp [unitEscape, hDigits, hMore, stringRest?, hValue, hLowValue, hHigh, hLow]

/-- A visible character that ends nothing and escapes nothing stands for itself. -/
theorem stringRest?_plain {c : Char} (hVisible : 0x20 ≤ c.toNat) (hQuote : c ≠ '"')
    (hBackslash : c ≠ '\\') (rest : List Char) :
    stringRest? (c :: rest) = (stringRest? rest).map fun (text, rest) => (c :: text, rest) := by
  have hControl : ¬ c.toNat < 0x20 := by omega
  rw [stringRest?.eq_def]
  split <;> simp_all

/-- A backslash and a letter are read as the character that the letter stands for. -/
theorem stringRest?_letter {letter c : Char} (hLetter : escaped? letter = some c)
    (rest : List Char) :
    stringRest? ('\\' :: letter :: rest) =
      (stringRest? rest).map fun (text, rest) => (c :: text, rest) := by
  have hUnit : letter ≠ 'u' := by
    rintro rfl
    simp [escaped?] at hLetter
  simp [stringRest?, hUnit, hLetter]

/-- A character is escaped by a letter, stands for itself, or is escaped by the one
or the two units of sixteen bits that encode it. -/
theorem escapeChar_cases (c : Char) :
    (∃ letter, escapeChar c = ['\\', letter] ∧ escaped? letter = some c ∧ letter.toNat < 0x80) ∨
    (escapeChar c = [c] ∧ 0x20 ≤ c.toNat ∧ c.toNat < 0x80 ∧ c ≠ '"' ∧ c ≠ '\\') ∨
    (escapeChar c = unitEscape c.toNat ∧ c.toNat < 0x10000) ∨
    (escapeChar c = unitEscape (0xD800 + (c.toNat - 0x10000) / 0x400) ++
      unitEscape (0xDC00 + (c.toNat - 0x10000) % 0x400) ∧ 0x10000 ≤ c.toNat) := by
  by_cases hLetter : c ∈ ['"', '\\', '\n', '\r', '\t', '\x0c', '\x08']
  · simp only [List.mem_cons, List.not_mem_nil, or_false] at hLetter
    rcases hLetter with rfl | rfl | rfl | rfl | rfl | rfl | rfl <;>
      exact .inl ⟨_, rfl, rfl, by decide⟩
  · simp only [List.mem_cons, List.not_mem_nil, or_false, not_or] at hLetter
    obtain ⟨hQuote, hBackslash, hLineFeed, hReturn, hTab, hFormFeed, hBackspace⟩ := hLetter
    have hFormFeed : c.toNat ≠ 0x0C := fun hCode => hFormFeed (by rw [← c.ofNat_toNat, hCode])
    have hBackspace : c.toNat ≠ 0x08 := fun hCode => hBackspace (by rw [← c.ofNat_toNat, hCode])
    have hEscape : escapeChar c =
        if 0x20 ≤ c.toNat && c.toNat ≤ 0x7E then [c]
        else if c.toNat < 0x10000 then unitEscape c.toNat
        else unitEscape (0xD800 + (c.toNat - 0x10000) / 0x400) ++
          unitEscape (0xDC00 + (c.toNat - 0x10000) % 0x400) := by
      simp only [escapeChar, beq_false_of_ne hQuote, beq_false_of_ne hBackslash,
        beq_false_of_ne hLineFeed, beq_false_of_ne hReturn, beq_false_of_ne hTab,
        beq_false_of_ne hFormFeed, beq_false_of_ne hBackspace, Bool.or_self, Bool.false_eq_true,
        if_false]
    rw [hEscape]
    split
    · next hVisible =>
        simp only [Bool.and_eq_true, decide_eq_true_eq] at hVisible
        exact .inr (.inl ⟨rfl, hVisible.1, by omega, hQuote, hBackslash⟩)
    · split
      · next hPlane => exact .inr (.inr (.inl ⟨rfl, hPlane⟩))
      · next hPlane => exact .inr (.inr (.inr ⟨rfl, by omega⟩))

/-- What a character is escaped as stands for that character. -/
theorem stringRest?_escapeChar (c : Char) (rest : List Char) :
    stringRest? (escapeChar c ++ rest) =
      (stringRest? rest).map fun (text, rest) => (c :: text, rest) := by
  have hValid : c.toNat < 0xD800 ∨ 0xDFFF < c.toNat ∧ c.toNat < 0x110000 := c.valid
  obtain ⟨letter, hEscape, hLetter, -⟩ | ⟨hEscape, hVisible, -, hQuote, hBackslash⟩ |
    ⟨hEscape, hPlane⟩ | ⟨hEscape, hPlane⟩ := escapeChar_cases c
  · rw [hEscape]
    exact stringRest?_letter hLetter rest
  · rw [hEscape]
    exact stringRest?_plain hVisible hQuote hBackslash rest
  · have hHigh : isHighSurrogate c.toNat = false := by simp [isHighSurrogate]; omega
    have hLow : isLowSurrogate c.toNat = false := by simp [isLowSurrogate]; omega
    rw [hEscape, stringRest?_unit hPlane hHigh hLow, Char.ofNat_toNat]
  · have hHigh : isHighSurrogate (0xD800 + (c.toNat - 0x10000) / 0x400) = true := by
      simp [isHighSurrogate]; omega
    have hLow : isLowSurrogate (0xDC00 + (c.toNat - 0x10000) % 0x400) = true := by
      simp [isLowSurrogate]; omega
    have hPair : surrogatePair (0xD800 + (c.toNat - 0x10000) / 0x400)
        (0xDC00 + (c.toNat - 0x10000) % 0x400) = c := by
      have hCode : 0x10000 + (0xD800 + (c.toNat - 0x10000) / 0x400 - 0xD800) * 0x400 +
          (0xDC00 + (c.toNat - 0x10000) % 0x400 - 0xDC00) = c.toNat := by omega
      rw [surrogatePair, hCode, Char.ofNat_toNat]
    rw [hEscape, stringRest?_units (by omega) (by omega) hHigh hLow, hPair]

/-- By induction on the text: the escape of every character is read back as it, up to
the quotation mark behind the last one. -/
theorem stringRest?_escaped (text rest : List Char) :
    stringRest? (text.flatMap escapeChar ++ '"' :: rest) = some (text, rest) := by
  induction text with
  | nil => simp [stringRest?]
  | cons c text ih =>
      rw [List.flatMap_cons, List.append_assoc, stringRest?_escapeChar, ih]
      rfl

section Writer

variable (depth : Nat)

@[simp] theorem write_null : write depth .null = "null".toList := rfl

@[simp] theorem write_bool (value : Bool) :
    write depth (.bool value) = (if value then "true" else "false").toList := by
  cases value <;> rfl

@[simp] theorem write_string (text : String) : write depth (.string text) = writeString text := rfl

@[simp] theorem write_array_nil : write depth (.array []) = ['[', ']'] := rfl

@[simp] theorem write_array_cons (item : Json) (items : List Json) :
    write depth (.array (item :: items)) =
      '[' :: newLine (depth + 1) ++ write (depth + 1) item ++ writeItems (depth + 1) items ++
        newLine depth ++ [']'] := rfl

@[simp] theorem write_object_nil : write depth (.object []) = ['{', '}'] := rfl

@[simp] theorem write_object_cons (key : String) (value : Json) (members : List (String × Json)) :
    write depth (.object ((key, value) :: members)) =
      '{' :: newLine (depth + 1) ++ writeString key ++ [':', ' '] ++ write (depth + 1) value ++
        writeMembers (depth + 1) members ++ newLine depth ++ ['}'] := rfl

@[simp] theorem writeItems_nil : writeItems depth [] = [] := rfl

@[simp] theorem writeItems_cons (item : Json) (items : List Json) :
    writeItems depth (item :: items) =
      ',' :: newLine depth ++ write depth item ++ writeItems depth items := rfl

@[simp] theorem writeMembers_nil : writeMembers depth [] = [] := rfl

@[simp] theorem writeMembers_cons (key : String) (value : Json) (members : List (String × Json)) :
    writeMembers depth ((key, value) :: members) =
      ',' :: newLine depth ++ writeString key ++ [':', ' '] ++ write depth value ++
        writeMembers depth members := rfl

end Writer

/-- A text that is read as these tokens, whatever follows it. -/
def ReadsAs (most : Nat) (text : List Char) (tokens : List Token) : Prop :=
  ∀ rest, tokens? most (text ++ rest) = (tokens? most rest).map (tokens ++ ·)

section ReadsAs

variable {most : Nat}

/-- Where a token is read, it comes before those of the rest. -/
theorem tokens?_cons {c : Char} {rest after : List Char} {token : Token}
    (hSpace : isSpace c = false) (hToken : token? most c rest = some (token, after)) :
    tokens? most (c :: rest) = (tokens? most after).map (token :: ·) := by
  rw [tokens?]
  simp only [hSpace, Bool.false_eq_true, if_false]
  split <;> simp_all

/-- Texts that read as tokens whatever follows them do so behind each other. -/
theorem ReadsAs.append {first second : List Char} {tokens more : List Token}
    (hFirst : ReadsAs most first tokens) (hSecond : ReadsAs most second more) :
    ReadsAs most (first ++ second) (tokens ++ more) := by
  intro rest
  rw [List.append_assoc, hFirst, hSecond, Option.map_map]
  simp only [Function.comp_def, List.append_assoc]

theorem readsAs_nil : ReadsAs most [] [] := by
  intro rest
  simp

/-- Blanks between tokens read as nothing. -/
theorem readsAs_spaces {text : List Char} (hSpaces : ∀ c ∈ text, isSpace c = true) :
    ReadsAs most text [] := by
  intro rest
  induction text with
  | nil => simp
  | cons c text ih =>
      obtain ⟨hSpace, hText⟩ := List.forall_mem_cons.mp hSpaces
      rw [List.cons_append, tokens?, if_pos hSpace, ih hText]

theorem readsAs_newLine (depth : Nat) : ReadsAs most (newLine depth) [] := by
  apply readsAs_spaces
  intro c hMem
  obtain rfl | hMem := List.mem_cons.mp hMem
  · rfl
  · rw [List.eq_of_mem_replicate hMem]
    rfl

/-- A character that is a token of its own. -/
theorem readsAs_mark {c : Char} {token : Token} (hSpace : isSpace c = false)
    (hToken : ∀ rest, token? most c rest = some (token, rest)) : ReadsAs most [c] [token] := by
  intro rest
  exact tokens?_cons hSpace (hToken rest)

/-- A text that was written is one token. -/
theorem readsAs_string (text : String) :
    ReadsAs most (writeString text) [.scalar (.string text)] := by
  intro rest
  have hToken : token? most '"' (text.toList.flatMap escapeChar ++ '"' :: rest) =
      some (.scalar (.string text), rest) := by
    simp [token?, stringRest?_escaped]
  simpa [writeString] using tokens?_cons (by decide) hToken

end ReadsAs

/-- A value in which at most so many containers stand in each other and no number
occurs. -/
inductive Nests : Nat → Json → Prop where
  | null (room : Nat) : Nests room .null
  | bool (room : Nat) (value : Bool) : Nests room (.bool value)
  | string (room : Nat) (text : String) : Nests room (.string text)
  | array {room : Nat} {items : List Json} (each : ∀ item ∈ items, Nests room item) :
      Nests (room + 1) (.array items)
  | object {room : Nat} {members : List (String × Json)}
      (each : ∀ member ∈ members, Nests room member.2) : Nests (room + 1) (.object members)

/-- An array has room if all items have room inside. -/
theorem nests_array_iff (room : Nat) (items : List Json) :
    Nests (room + 1) (.array items) ↔ ∀ item ∈ items, Nests room item :=
  ⟨fun | .array each => each, .array⟩

/-- An object has room if all its values have room inside. -/
theorem nests_object_iff (room : Nat) (members : List (String × Json)) :
    Nests (room + 1) (.object members) ↔ ∀ member ∈ members, Nests room member.2 :=
  ⟨fun | .object each => each, .object⟩

/-- Tokens that the machine takes for a value wherever there is room for it, also
right behind the start of an array. -/
structure Builds (limit room : Nat) (tokens : List Token) (value : Json) : Prop where
  run : ∀ frames, frames.length + room ≤ limit →
    tokens.foldlM (step? limit) (.value frames) = some (.after value frames)
  first : ∀ frames, frames.length < limit →
    tokens.foldlM (step? limit) (.firstItem frames) =
      tokens.foldlM (step? limit) (.value (.array [] :: frames))

/-- A text that is read as a value. -/
def Spells (most limit room : Nat) (text : List Char) (value : Json) : Prop :=
  ∃ tokens, ReadsAs most text tokens ∧ Builds limit room tokens value

section Spells

variable {most limit room : Nat}

theorem builds_scalar (value : Json) : Builds limit room [.scalar value] value := by
  constructor
  · intro frames _
    simp [step?, startValue?]
  · intro frames hRoom
    simp [step?, hRoom]

theorem spells_string (text : String) :
    Spells most limit room (writeString text) (.string text) :=
  ⟨_, readsAs_string text, builds_scalar (.string text)⟩

theorem spells_null : Spells most limit room "null".toList .null := by
  refine ⟨_, ?_, builds_scalar .null⟩
  intro rest
  have hToken : token? most 'n' ('u' :: 'l' :: 'l' :: rest) = some (.scalar .null, rest) := by
    simp [token?, word?, words]
  exact tokens?_cons (by decide) hToken

theorem spells_bool (value : Bool) (depth : Nat) :
    Spells most limit room (write depth (.bool value)) (.bool value) := by
  refine ⟨_, ?_, builds_scalar (.bool value)⟩
  intro rest
  cases value with
  | true =>
      have hToken : token? most 't' ('r' :: 'u' :: 'e' :: rest) =
          some (.scalar (.bool true), rest) := by
        simp [token?, word?, words]
      exact tokens?_cons (by decide) hToken
  | false =>
      have hToken : token? most 'f' ('a' :: 'l' :: 's' :: 'e' :: rest) =
          some (.scalar (.bool false), rest) := by
        simp [token?, word?, words]
      exact tokens?_cons (by decide) hToken

/-- Behind an item of an array, the rest of the items and its end complete it. -/
theorem exists_tokens_items {items : List Json}
    (hEach : ∀ item ∈ items, ∀ depth, Spells most limit room (write depth item) item)
    (depth : Nat) :
    ∃ tokens, ReadsAs most (writeItems depth items) tokens ∧
      ∀ value held frames, List.length frames + (room + 1) ≤ limit →
        (tokens ++ [Token.arrayEnd]).foldlM (step? limit) (.after value (.array held :: frames)) =
          some (.after (.array (held.reverse ++ value :: items)) frames) := by
  induction items with
  | nil =>
      refine ⟨[], readsAs_nil, ?_⟩
      intro value held frames _
      simp [step?, follow?]
  | cons item items ih =>
      obtain ⟨hItem, hItems⟩ := List.forall_mem_cons.mp hEach
      obtain ⟨first, hFirst, hBuilds⟩ := hItem depth
      obtain ⟨more, hMore, hRun⟩ := ih hItems
      refine ⟨.comma :: (first ++ more), ?_, ?_⟩
      · have hComma : ReadsAs most [','] [.comma] := readsAs_mark (by decide) fun _ => rfl
        simpa using
          ((hComma.append (readsAs_newLine depth)).append hFirst).append hMore
      · intro value held frames hRoom
        have hStep : step? limit (.after value (.array held :: frames)) .comma =
            some (.value (.array (value :: held) :: frames)) := rfl
        have hBuilt := hBuilds.run (.array (value :: held) :: frames)
          (by simp only [List.length_cons]; omega)
        rw [List.cons_append, List.foldlM_cons, hStep, Option.bind_eq_bind, Option.bind_some,
          List.append_assoc, List.foldlM_append, hBuilt, Option.bind_eq_bind, Option.bind_some,
          hRun item (value :: held) frames hRoom]
        simp

/-- Arrays are read back if their items are, at whatever depth they are written. The
first item and the others are written apart, so the empty array is a case of its own.
-/
theorem spells_array {items : List Json}
    (hEach : ∀ item ∈ items, ∀ depth, Spells most limit room (write depth item) item)
    (depth : Nat) :
    Spells most limit (room + 1) (write depth (.array items)) (.array items) := by
  have hStart : ReadsAs most ['['] [.arrayStart] := readsAs_mark (by decide) fun _ => rfl
  have hEnd : ReadsAs most [']'] [.arrayEnd] := readsAs_mark (by decide) fun _ => rfl
  cases items with
  | nil =>
      refine ⟨[.arrayStart, .arrayEnd], ?_, ?_, ?_⟩
      · simpa using hStart.append hEnd
      · intro frames _
        simp [step?, startValue?]
      · intro frames hRoom
        simp [step?, hRoom]
  | cons item items =>
      obtain ⟨hItem, hItems⟩ := List.forall_mem_cons.mp hEach
      obtain ⟨first, hFirst, hBuilds⟩ := hItem (depth + 1)
      obtain ⟨more, hMore, hRun⟩ := exists_tokens_items hItems (depth + 1)
      refine ⟨.arrayStart :: (first ++ (more ++ [.arrayEnd])), ?_, ?_, ?_⟩
      · have hText := ((((hStart.append (readsAs_newLine (depth + 1))).append hFirst).append
          hMore).append (readsAs_newLine depth)).append hEnd
        simpa using hText
      · intro frames hRoom
        have hBuilt := hBuilds.run (.array [] :: frames) (by simp only [List.length_cons]; omega)
        have hClosed := hRun item [] frames hRoom
        rw [List.foldlM_cons]
        simp only [step?, startValue?, Option.bind_eq_bind, Option.bind_some]
        rw [List.foldlM_append, hBuilds.first frames (by omega), hBuilt]
        simpa using hClosed
      · intro frames hRoom
        simp [step?, hRoom]

/-- A key and its value, as they stand in an object that holds these members. -/
theorem exists_tokens_member (key : String) {text : List Char} {value : Json}
    (hValue : Spells most limit room text value) :
    ∃ tokens,
      ReadsAs most (writeString key ++ ([':', ' '] ++ text)) (.scalar (.string key) :: tokens) ∧
      ∀ held frames, List.length frames + (room + 1) ≤ limit →
        tokens.foldlM (step? limit) (.colon held key frames) =
          some (.after value (.object held key :: frames)) := by
  obtain ⟨tokens, hTokens, hBuilds⟩ := hValue
  refine ⟨.colon :: tokens, ?_, ?_⟩
  · have hColon : ReadsAs most [':'] [.colon] := readsAs_mark (by decide) fun _ => rfl
    have hSpace : ReadsAs most [' '] [] := readsAs_spaces (by simp [isSpace])
    exact (readsAs_string key).append ((hColon.append hSpace).append hTokens)
  · intro held frames hRoom
    have hBuilt := hBuilds.run (.object held key :: frames)
      (by simp only [List.length_cons]; omega)
    simpa [step?] using hBuilt

/-- Behind a member of an object, the rest of the members and its end complete it. -/
theorem exists_tokens_members {members : List (String × Json)}
    (hEach : ∀ member ∈ members, ∀ depth,
      Spells most limit room (write depth member.2) member.2)
    (depth : Nat) :
    ∃ tokens, ReadsAs most (writeMembers depth members) tokens ∧
      ∀ key value held frames, List.length frames + (room + 1) ≤ limit →
        (tokens ++ [Token.objectEnd]).foldlM (step? limit)
            (.after value (.object held key :: frames)) =
          some (.after (.object (held.reverse ++ (key, value) :: members)) frames) := by
  induction members with
  | nil =>
      refine ⟨[], readsAs_nil, ?_⟩
      intro key value held frames _
      simp [step?, follow?]
  | cons member members ih =>
      obtain ⟨own, inner⟩ := member
      obtain ⟨hMember, hMembers⟩ := List.forall_mem_cons.mp hEach
      obtain ⟨first, hFirst, hBuilt⟩ := exists_tokens_member own (hMember depth)
      obtain ⟨more, hMore, hRun⟩ := ih hMembers
      refine ⟨.comma :: .scalar (.string own) :: (first ++ more), ?_, ?_⟩
      · have hComma : ReadsAs most [','] [.comma] := readsAs_mark (by decide) fun _ => rfl
        simpa using
          ((hComma.append (readsAs_newLine depth)).append hFirst).append hMore
      · intro key value held frames hRoom
        have hClosed := hRun own inner ((key, value) :: held) frames hRoom
        simp only [List.cons_append, List.append_assoc, List.foldlM_cons, step?, follow?,
          Option.bind_eq_bind, Option.bind_some]
        rw [List.foldlM_append, hBuilt _ _ hRoom]
        simpa using hClosed

/-- Objects are read back if their values are; a key reads as any text. -/
theorem spells_object {members : List (String × Json)}
    (hEach : ∀ member ∈ members, ∀ depth,
      Spells most limit room (write depth member.2) member.2)
    (depth : Nat) :
    Spells most limit (room + 1) (write depth (.object members)) (.object members) := by
  have hStart : ReadsAs most ['{'] [.objectStart] := readsAs_mark (by decide) fun _ => rfl
  have hEnd : ReadsAs most ['}'] [.objectEnd] := readsAs_mark (by decide) fun _ => rfl
  cases members with
  | nil =>
      refine ⟨[.objectStart, .objectEnd], ?_, ?_, ?_⟩
      · simpa using hStart.append hEnd
      · intro frames _
        simp [step?, startValue?]
      · intro frames hRoom
        simp [step?, hRoom]
  | cons member members =>
      obtain ⟨key, value⟩ := member
      obtain ⟨hMember, hMembers⟩ := List.forall_mem_cons.mp hEach
      obtain ⟨first, hFirst, hBuilt⟩ := exists_tokens_member key (hMember (depth + 1))
      obtain ⟨more, hMore, hRun⟩ := exists_tokens_members hMembers (depth + 1)
      refine
        ⟨.objectStart :: .scalar (.string key) :: (first ++ (more ++ [.objectEnd])), ?_, ?_, ?_⟩
      · have hText := ((((hStart.append (readsAs_newLine (depth + 1))).append hFirst).append
          hMore).append (readsAs_newLine depth)).append hEnd
        simpa using hText
      · intro frames hRoom
        have hClosed := hRun key value [] frames hRoom
        have hOpen : frames.length < limit := by omega
        simp only [List.foldlM_cons, step?, startValue?, Option.bind_eq_bind, Option.bind_some,
          if_pos hOpen]
        rw [List.foldlM_append, hBuilt _ _ hRoom]
        simpa using hClosed
      · intro frames hRoom
        simp [step?, hRoom]

/-- By induction on the room for it, a value is read back from how it is written. -/
theorem Nests.spells {value : Json} (hNests : Nests room value) (depth : Nat) :
    Spells most limit room (write depth value) value := by
  induction hNests generalizing depth with
  | null => exact spells_null
  | bool room value => exact spells_bool value depth
  | string room text => simpa using spells_string text
  | array _ ih => exact spells_array ih depth
  | object _ ih => exact spells_object ih depth

end Spells

/-- A written value is read back by every reader that puts up with as many open
containers as stand in each other in it. -/
theorem Nests.read?_write {limits : Limits} {value : Json}
    (hNests : Nests limits.containers value) : read? limits (write 0 value) = some value := by
  have hSpells : Spells limits.integerDigits limits.containers limits.containers (write 0 value)
      value := hNests.spells 0
  obtain ⟨tokens, hTokens, hBuilds⟩ := hSpells
  have hRead := hTokens []
  have hRun := hBuilds.run [] (by simp)
  simp only [List.append_nil] at hRead
  rw [read?, hRead]
  simp [tokens?, ofTokens?, hRun, State.result?]

theorem isAscii_unitEscape (unit : Nat) : Text.IsAscii (unitEscape unit) := by
  simp [unitEscape, Text.isAscii_hexDigits]

/-- What is not in ASCII is escaped, and the escapes are in ASCII. -/
theorem isAscii_escapeChar (c : Char) : Text.IsAscii (escapeChar c) := by
  obtain ⟨letter, hEscape, -, hLetter⟩ | ⟨hEscape, -, hVisible, -⟩ | ⟨hEscape, -⟩ |
    ⟨hEscape, -⟩ := escapeChar_cases c
  · simp [hEscape, hLetter]
  · simp [hEscape, hVisible]
  · simp [hEscape, isAscii_unitEscape]
  · simp [hEscape, isAscii_unitEscape]

theorem isAscii_writeString (text : String) : Text.IsAscii (writeString text) := by
  have hEscaped : Text.IsAscii (text.toList.flatMap escapeChar) := by
    intro other hMem
    obtain ⟨c, -, hMem⟩ := List.mem_flatMap.mp hMem
    exact isAscii_escapeChar c other hMem
  simp [writeString, hEscaped]

theorem isAscii_newLine (depth : Nat) : Text.IsAscii (newLine depth) := by
  simp [newLine, Text.isAscii_replicate]

/-- Items are written in ASCII if each of them is. -/
theorem isAscii_writeItems {depth : Nat} {items : List Json}
    (hEach : ∀ item ∈ items, Text.IsAscii (write depth item)) :
    Text.IsAscii (writeItems depth items) := by
  induction items with
  | nil => simp
  | cons item items ih =>
      obtain ⟨hItem, hItems⟩ := List.forall_mem_cons.mp hEach
      simp [isAscii_newLine, hItem, ih hItems]

theorem isAscii_writeMembers {depth : Nat} {members : List (String × Json)}
    (hEach : ∀ member ∈ members, Text.IsAscii (write depth member.2)) :
    Text.IsAscii (writeMembers depth members) := by
  induction members with
  | nil => simp
  | cons member members ih =>
      obtain ⟨key, value⟩ := member
      obtain ⟨hMember, hMembers⟩ := List.forall_mem_cons.mp hEach
      simp [isAscii_newLine, isAscii_writeString, hMember, ih hMembers]

/-- By induction on the room for it, a value is written in ASCII. -/
theorem Nests.isAscii_write {room : Nat} {value : Json} (hNests : Nests room value)
    (depth : Nat) : Text.IsAscii (write depth value) := by
  induction hNests generalizing depth with
  | null => simp
  | bool room value => cases value <;> simp
  | string room text => simpa using isAscii_writeString text
  | @array room items _ ih =>
      cases items with
      | nil => simp
      | cons item items =>
          obtain ⟨hItem, hItems⟩ := List.forall_mem_cons.mp ih
          have hRest := isAscii_writeItems fun item hMem => hItems item hMem (depth + 1)
          simp [isAscii_newLine, hItem, hRest]
  | @object room members _ ih =>
      cases members with
      | nil => simp
      | cons member members =>
          obtain ⟨key, value⟩ := member
          obtain ⟨hMember, hMembers⟩ := List.forall_mem_cons.mp ih
          have hRest := isAscii_writeMembers fun member hMem => hMembers member hMem (depth + 1)
          simp [isAscii_newLine, isAscii_writeString, hMember, hRest]

end Json

end ApiSurvey
