import ApiSurvey.Text.Quoted

/-! Texts as bytes. Decoding either yields every character or names the first sequence of bytes
that belongs to no character: where it starts, its bytes, and what is wrong with it. -/
namespace ApiSurvey.Text.Utf8

inductive Cause where
  /-- The byte starts no character. -/
  | invalidStart
  /-- The next byte does not continue the character that these bytes start. -/
  | invalidContinuation
  /-- The bytes end inside a character. -/
  | unexpectedEnd
  deriving DecidableEq, Repr

/-- The first bytes that cannot be decoded. -/
structure Fault where
  position : Nat
  bytes : List UInt8
  cause : Cause
  deriving DecidableEq, Repr

def Cause.message : Cause → String
  | .invalidStart => "invalid start byte"
  | .invalidContinuation => "invalid continuation byte"
  | .unexpectedEnd => "unexpected end of data"

/-- One bad byte is shown by its value, several by the positions of the first and the last. -/
def Fault.message (fault : Fault) : String :=
  let place := match fault.bytes with
    | [byte] =>
        "byte 0x" ++ String.ofList (hexDigits 2 byte.toNat) ++ " in position " ++
          toString fault.position
    | bytes =>
        "bytes in position " ++ toString fault.position ++ "-" ++
          toString (fault.position + bytes.length - 1)
  "'utf-8' codec can't decode " ++ place ++ ": " ++ fault.cause.message

/-- A character of which some bytes have been read: these bytes, its bits so far, how many bytes
are still to come, and the bounds of the next one. -/
structure Started where
  bytes : List UInt8
  bits : Nat
  missing : Nat
  lowest : Nat
  highest : Nat

/-- A byte at the start of a character: a character of its own, or the start of a longer one. The
bounds of the second byte rule out overlong forms, surrogates and codes beyond U+10FFFF. -/
def start? (byte : UInt8) : Option (Char ⊕ Started) :=
  let value := byte.toNat
  if value < 0x80 then some (.inl (Char.ofNat value))
  else if value < 0xC2 then none
  else if value < 0xE0 then some (.inr ⟨[byte], value % 0x20, 1, 0x80, 0xBF⟩)
  else if value < 0xF0 then
    let lowest := if value == 0xE0 then 0xA0 else 0x80
    let highest := if value == 0xED then 0x9F else 0xBF
    some (.inr ⟨[byte], value % 0x10, 2, lowest, highest⟩)
  else if value < 0xF5 then
    let lowest := if value == 0xF0 then 0x90 else 0x80
    let highest := if value == 0xF4 then 0x8F else 0xBF
    some (.inr ⟨[byte], value % 0x08, 3, lowest, highest⟩)
  else none

/-- A further byte of a started character, or `none` if it does not continue it. -/
def Started.next? (char : Started) (byte : UInt8) : Option (Char ⊕ Started) :=
  if char.lowest ≤ byte.toNat && byte.toNat ≤ char.highest then
    let bits := char.bits * 0x40 + byte.toNat % 0x40
    if char.missing ≤ 1 then some (.inl (Char.ofNat bits))
    else some (.inr ⟨char.bytes ++ [byte], bits, char.missing - 1, 0x80, 0xBF⟩)
  else none

/-- Decodes bytes of which the first has the given position, inside a started character or
between two characters. -/
def decodeFrom (position : Nat) : Option Started → List UInt8 → Except Fault (List Char)
  | none, [] => .ok []
  | some char, [] => .error ⟨position - char.bytes.length, char.bytes, .unexpectedEnd⟩
  | none, byte :: rest =>
      match start? byte with
      | none => .error ⟨position, [byte], .invalidStart⟩
      | some (.inl c) => (decodeFrom (position + 1) none rest).map (c :: ·)
      | some (.inr char) => decodeFrom (position + 1) (some char) rest
  | some char, byte :: rest =>
      match char.next? byte with
      | none => .error ⟨position - char.bytes.length, char.bytes, .invalidContinuation⟩
      | some (.inl c) => (decodeFrom (position + 1) none rest).map (c :: ·)
      | some (.inr longer) => decodeFrom (position + 1) (some longer) rest

/-- The characters of a sequence of bytes. A byte order mark is a character like any other. -/
def decode (bytes : List UInt8) : Except Fault (List Char) :=
  decodeFrom 0 none bytes

def encode (text : String) : List UInt8 :=
  text.toUTF8.data.toList

end ApiSurvey.Text.Utf8
