import ApiSurvey.Proofs.Sequence
import ApiSurvey.Text.Utf8
import Mathlib.Algebra.Group.Nat.Defs

/-! Decoding undoes encoding and accepts nothing else. The bytes of a character are a
first one, which tells how many follow, and for every six further bits of its code one
that continues it. A character of which some bytes have been read leads to the codes
that start with its bits, and the bounds of its next byte leave no others. -/
namespace ApiSurvey.Text.Utf8

section Writing

/-- The bytes that continue a character, for the last bits of its code, six in each. -/
def continuation (code : Nat) : (count : Nat) → List UInt8
  | 0 => []
  | count + 1 => UInt8.ofNat (0x80 + code / 0x40 ^ count % 0x40) :: continuation code count

theorem toNat_byte {value : Nat} (hValue : value < 0x100) : (UInt8.ofNat value).toNat = value := by
  rw [UInt8.toNat_ofNat']
  exact Nat.mod_eq_of_lt hValue

/-- The character with a valid code has this code. -/
theorem toNat_ofNat {code : Nat} (hCode : code.isValidChar) : (Char.ofNat code).toNat = code := by
  rw [Char.ofNat, dif_pos hCode]
  rfl

theorem length_continuation (code count : Nat) : (continuation code count).length = count := by
  induction count with
  | zero => rfl
  | succ count ih => rw [continuation, List.length_cons, ih]

/-- The first of the continuation bytes holds the highest bits. -/
theorem continuation_of_ne_zero (code : Nat) {count : Nat} (hCount : count ≠ 0) :
    continuation code count =
      UInt8.ofNat (0x80 + code / 0x40 ^ (count - 1) % 0x40) :: continuation code (count - 1) := by
  cases count with
  | zero => exact absurd rfl hCount
  | succ count => rfl

/-- A code is written in one byte, or in a first byte and up to three that continue it. -/
theorem utf8EncodeChar_cases {code : Nat} (hCode : code.isValidChar) :
    (code < 0x80 ∧ String.utf8EncodeChar (Char.ofNat code) = [UInt8.ofNat code]) ∨
    (0x80 ≤ code ∧ code < 0x800 ∧ String.utf8EncodeChar (Char.ofNat code) =
      UInt8.ofNat (0xC0 + code / 0x40) :: continuation code 1) ∨
    (0x800 ≤ code ∧ code < 0x10000 ∧ String.utf8EncodeChar (Char.ofNat code) =
      UInt8.ofNat (0xE0 + code / 0x1000) :: continuation code 2) ∨
    (0x10000 ≤ code ∧ String.utf8EncodeChar (Char.ofNat code) =
      UInt8.ofNat (0xF0 + code / 0x40000) :: continuation code 3) := by
  have hBound : code < 0x110000 := by
    rcases hCode with hSmall | ⟨-, hLarge⟩ <;> omega
  simp only [String.utf8EncodeChar, Char.toNat_val, toNat_ofNat hCode, continuation,
    Nat.reducePow, Nat.div_one]
  split_ifs with hOne hTwo hThree
  · exact .inl ⟨by omega, rfl⟩
  · have hFirst : code / 0x40 % 0x20 + 0xC0 = 0xC0 + code / 0x40 := by omega
    refine .inr (.inl ⟨by omega, by omega, ?_⟩)
    rw [hFirst, Nat.add_comm (code % 0x40)]
  · have hFirst : code / 0x1000 % 0x10 + 0xE0 = 0xE0 + code / 0x1000 := by omega
    refine .inr (.inr (.inl ⟨by omega, by omega, ?_⟩))
    rw [hFirst, Nat.add_comm (code % 0x40), Nat.add_comm (code / 0x40 % 0x40)]
  · have hFirst : code / 0x40000 % 0x08 + 0xF0 = 0xF0 + code / 0x40000 := by omega
    refine .inr (.inr (.inr ⟨by omega, ?_⟩))
    rw [hFirst, Nat.add_comm (code % 0x40), Nat.add_comm (code / 0x40 % 0x40),
      Nat.add_comm (code / 0x1000 % 0x40)]

end Writing

section Reading

variable {char : Started} {byte : UInt8}

/-- A started character waits for at least one byte, and for none that would start
another character. -/
structure Started.Waits (char : Started) : Prop where
  missing : char.missing ≠ 0
  low : 0x80 ≤ char.lowest
  high : char.highest ≤ 0xBF

/-- A character of which some bytes have been read leads to the codes that start with
its bits and go on within the bounds of its next byte. -/
structure Started.LeadsTo (char : Started) (code : Nat) : Prop where
  bits : code / 0x40 ^ char.missing = char.bits
  low : char.lowest ≤ 0x80 + code / 0x40 ^ (char.missing - 1) % 0x40
  high : 0x80 + code / 0x40 ^ (char.missing - 1) % 0x40 ≤ char.highest

/-- The bounds of the next byte of a started character. -/
def Started.Accepts (char : Started) (byte : UInt8) : Prop :=
  char.lowest ≤ byte.toNat ∧ byte.toNat ≤ char.highest

/-- A started character with one byte more. -/
def Started.after (char : Started) (byte : UInt8) : Started :=
  ⟨char.bytes ++ [byte], char.bits * 0x40 + byte.toNat % 0x40, char.missing - 1, 0x80, 0xBF⟩

@[simp] theorem Started.after_bits (char : Started) (byte : UInt8) :
    (char.after byte).bits = char.bits * 0x40 + byte.toNat % 0x40 := rfl

@[simp] theorem Started.after_missing (char : Started) (byte : UInt8) :
    (char.after byte).missing = char.missing - 1 := rfl

theorem Started.next?_of_not_accepts (hAccepts : ¬ char.Accepts byte) :
    char.next? byte = none := by
  rw [Started.Accepts] at hAccepts
  simp [Started.next?, hAccepts]

/-- The last byte that is waited for ends the character. -/
theorem Started.next?_of_last (hAccepts : char.Accepts byte) (hLast : char.missing ≤ 1) :
    char.next? byte = some (.inl (Char.ofNat (char.after byte).bits)) := by
  simp [Started.next?, Started.after, hAccepts.1, hAccepts.2, hLast]

/-- Any other byte that is accepted is taken in. -/
theorem Started.next?_of_more (hAccepts : char.Accepts byte) (hMore : ¬ char.missing ≤ 1) :
    char.next? byte = some (.inr (char.after byte)) := by
  simp [Started.next?, Started.after, hAccepts.1, hAccepts.2, hMore]

/-- A character that was started still waits after a byte that is not its last. -/
theorem Started.waits_after (hMore : ¬ char.missing ≤ 1) : (char.after byte).Waits where
  missing := by
    rw [Started.after_missing]
    omega
  low := Nat.le_refl _
  high := Nat.le_refl _

/-- One byte takes six bits: a character leads to the codes with this byte next exactly
if it accepts the byte, and then to those that start with its bits and these six. -/
theorem Started.leadsTo_and_next_iff (hWaits : char.Waits) (code : Nat) :
    (char.LeadsTo code ∧ byte = UInt8.ofNat (0x80 + code / 0x40 ^ (char.missing - 1) % 0x40)) ↔
      char.Accepts byte ∧ code / 0x40 ^ (char.missing - 1) = (char.after byte).bits := by
  obtain ⟨count, hCount⟩ := Nat.exists_eq_succ_of_ne_zero hWaits.missing
  have hSplit : code / 0x40 ^ char.missing = code / 0x40 ^ (char.missing - 1) / 0x40 := by
    rw [hCount, Nat.pow_succ, Nat.div_div_eq_div_mul]
    rfl
  have hLow := hWaits.low
  have hHigh := hWaits.high
  generalize hBits : code / 0x40 ^ (char.missing - 1) = bits at hSplit
  constructor
  · rintro ⟨hLeads, rfl⟩
    have hByte : (UInt8.ofNat (0x80 + bits % 0x40)).toNat = 0x80 + bits % 0x40 :=
      toNat_byte (by omega)
    refine ⟨?_, ?_⟩
    · rw [Started.Accepts, hByte, ← hBits]
      exact ⟨hLeads.low, hLeads.high⟩
    · rw [Started.after_bits, hByte, ← hLeads.bits, hSplit]
      omega
  · rintro ⟨⟨hLowest, hHighest⟩, hNext⟩
    rw [Started.after_bits] at hNext
    have hByte : 0x80 + bits % 0x40 = byte.toNat := by omega
    refine ⟨⟨?_, ?_, ?_⟩, ?_⟩
    · rw [hSplit]
      omega
    · rw [hBits, hByte]
      exact hLowest
    · rw [hBits, hByte]
      exact hHighest
    · rw [hByte, UInt8.ofNat_toNat]

/-- The bits that were read so far are the highest ones of the code. -/
theorem Started.after_leadsTo_iff (code : Nat) :
    (char.after byte).LeadsTo code ↔
      code / 0x40 ^ (char.missing - 1) = (char.after byte).bits := by
  constructor
  · intro hLeads
    exact hLeads.bits
  · intro hBits
    refine ⟨hBits, ?_, ?_⟩ <;> simp only [Started.after] <;> omega

/-- Inside a character, decoding goes on to the end of a character that it leads to. -/
theorem decodeFrom_some_eq_ok_iff (hWaits : char.Waits) (position : Nat) (bytes : List UInt8)
    (text : List Char) :
    decodeFrom position (some char) bytes = .ok text ↔
      ∃ code rest more, char.LeadsTo code ∧ bytes = continuation code char.missing ++ rest ∧
        text = Char.ofNat code :: more ∧
        decodeFrom (position + char.missing) none rest = .ok more := by
  -- Each byte that is read leaves another started character, so that one is general too.
  induction bytes generalizing char position with
  | nil =>
      simp only [decodeFrom, reduceCtorEq, false_iff]
      rintro ⟨code, rest, more, -, hBytes, -⟩
      rw [continuation_of_ne_zero code hWaits.missing] at hBytes
      exact List.cons_ne_nil _ _ hBytes.symm
  | cons byte bytes ih =>
      have hNext (code : Nat) (rest : List UInt8) :
          (char.LeadsTo code ∧ byte :: bytes = continuation code char.missing ++ rest) ↔
            (char.Accepts byte ∧ code / 0x40 ^ (char.missing - 1) = (char.after byte).bits) ∧
              bytes = continuation code (char.missing - 1) ++ rest := by
        rw [← Started.leadsTo_and_next_iff hWaits, continuation_of_ne_zero code hWaits.missing,
          List.cons_append, List.cons.injEq, and_assoc]
      by_cases hAccepts : char.Accepts byte
      · by_cases hLast : char.missing ≤ 1
        · have hOne : char.missing = 1 := by
            have hMissing := hWaits.missing
            omega
          simp only [← and_assoc, hNext, hAccepts, true_and]
          rw [decodeFrom, Started.next?_of_last hAccepts hLast]
          simp only [hOne, Sequence.map_eq_ok_iff, Nat.sub_self, Nat.pow_zero, Nat.div_one,
            continuation, List.nil_append]
          constructor
          · rintro ⟨more, hMore, rfl⟩
            exact ⟨_, bytes, more, ⟨⟨rfl, rfl⟩, rfl⟩, hMore⟩
          · rintro ⟨code, rest, more, ⟨⟨rfl, rfl⟩, rfl⟩, hMore⟩
            exact ⟨more, hMore, rfl⟩
        · rw [decodeFrom, Started.next?_of_more hAccepts hLast]
          simp only [ih (Started.waits_after hLast), Started.after_leadsTo_iff, ← and_assoc, hNext,
            hAccepts, true_and, Started.after_missing]
          have hPosition : position + 1 + (char.missing - 1) = position + char.missing := by omega
          rw [hPosition]
      · rw [decodeFrom, Started.next?_of_not_accepts hAccepts]
        simp only [reduceCtorEq, ← and_assoc, hNext, hAccepts, false_and, exists_false]

/-- What the first byte of a longer character starts. The bounds of the second byte
leave out the codes that have a shorter form and those that are no characters. -/
inductive Starts (byte : UInt8) : Started → Prop where
  | two (hLow : 0xC2 ≤ byte.toNat) (hHigh : byte.toNat < 0xE0) :
      Starts byte ⟨[byte], byte.toNat - 0xC0, 1, 0x80, 0xBF⟩
  | three (hLow : 0xE0 ≤ byte.toNat) (hHigh : byte.toNat < 0xF0) :
      Starts byte ⟨[byte], byte.toNat - 0xE0, 2, if byte.toNat = 0xE0 then 0xA0 else 0x80,
        if byte.toNat = 0xED then 0x9F else 0xBF⟩
  | four (hLow : 0xF0 ≤ byte.toNat) (hHigh : byte.toNat < 0xF5) :
      Starts byte ⟨[byte], byte.toNat - 0xF0, 3, if byte.toNat = 0xF0 then 0x90 else 0x80,
        if byte.toNat = 0xF4 then 0x8F else 0xBF⟩

/-- A byte is a character of its own exactly in the lower half. -/
theorem start?_eq_inl_iff (c : Char) :
    start? byte = some (.inl c) ↔ byte.toNat < 0x80 ∧ c = Char.ofNat byte.toNat := by
  simp only [start?]
  split_ifs with hOne <;> simp [hOne, eq_comm]

/-- Such a character is encoded as its byte. -/
theorem utf8EncodeChar_eq_singleton {c : Char} (hStart : start? byte = some (.inl c)) :
    String.utf8EncodeChar c = [byte] := by
  obtain ⟨hOne, rfl⟩ := (start?_eq_inl_iff c).mp hStart
  have hValid : byte.toNat.isValidChar := .inl (by omega)
  rcases utf8EncodeChar_cases hValid with ⟨-, hEncode⟩ | h | h | h
  · rw [hEncode, UInt8.ofNat_toNat]
  · omega
  · omega
  · omega

theorem Starts.start?_eq (hStarts : Starts byte char) : start? byte = some (.inr char) := by
  cases hStarts with
  | two hLow hHigh =>
      have hBits : byte.toNat - 0xC0 = byte.toNat % 0x20 := by omega
      rw [start?, if_neg (by omega), if_neg (by omega), if_pos hHigh, hBits]
  | three hLow hHigh =>
      have hBits : byte.toNat - 0xE0 = byte.toNat % 0x10 := by omega
      rw [start?, if_neg (by omega), if_neg (by omega), if_neg (by omega), if_pos hHigh, hBits]
      simp only [beq_iff_eq]
  | four hLow hHigh =>
      have hBits : byte.toNat - 0xF0 = byte.toNat % 0x08 := by omega
      rw [start?, if_neg (by omega), if_neg (by omega), if_neg (by omega), if_neg (by omega),
        if_pos hHigh, hBits]
      simp only [beq_iff_eq]

/-- The bytes that start a longer character, and what is known of it then. -/
theorem start?_eq_inr_iff : start? byte = some (.inr char) ↔ Starts byte char := by
  constructor
  · intro hStart
    have hFirst : 0xC2 ≤ byte.toNat ∧ byte.toNat < 0xF5 := by
      simp only [start?] at hStart
      split_ifs at hStart <;> first | omega | simp at hStart
    have hStarts : ∃ found, Starts byte found := by
      rcases Nat.lt_or_ge byte.toNat 0xE0 with hTwo | hMore
      · exact ⟨_, .two hFirst.1 hTwo⟩
      · rcases Nat.lt_or_ge byte.toNat 0xF0 with hThree | hFour
        · exact ⟨_, .three hMore hThree⟩
        · exact ⟨_, .four hFour hFirst.2⟩
    obtain ⟨found, hFound⟩ := hStarts
    rw [hFound.start?_eq, Option.some.injEq, Sum.inr.injEq] at hStart
    exact hStart ▸ hFound
  · exact Starts.start?_eq

/-- A character that was started waits for at least one byte. -/
theorem Starts.waits (hStarts : Starts byte char) : char.Waits := by
  cases hStarts with
  | two => exact ⟨Nat.one_ne_zero, Nat.le_refl _, Nat.le_refl _⟩
  | three => refine ⟨Nat.succ_ne_zero 1, ?_, ?_⟩ <;> dsimp only <;> split_ifs <;> decide
  | four => refine ⟨Nat.succ_ne_zero 2, ?_, ?_⟩ <;> dsimp only <;> split_ifs <;> decide

/-- The codes that a first byte leads to are characters, and they are written with it. -/
theorem Starts.utf8EncodeChar_eq (hStarts : Starts byte char) {code : Nat}
    (hLeads : char.LeadsTo code) : code.isValidChar ∧
      String.utf8EncodeChar (Char.ofNat code) = byte :: continuation code char.missing := by
  obtain ⟨hBits, hLow, hHigh⟩ := hLeads
  cases hStarts with
  | two hFirst hLast =>
      simp only [Nat.reducePow] at hBits
      have hValid : code.isValidChar := .inl (by omega)
      have hByte : UInt8.ofNat (0xC0 + code / 0x40) = byte := by
        rw [hBits, Nat.add_sub_cancel' (by omega), UInt8.ofNat_toNat]
      rcases utf8EncodeChar_cases hValid with h | ⟨-, -, hEncode⟩ | h | h
      · omega
      · exact ⟨hValid, hByte ▸ hEncode⟩
      · omega
      · omega
  | three hFirst hLast =>
      simp only [Nat.reducePow, Nat.reduceSub] at hBits hLow hHigh
      -- The upper bound of the second byte leaves out the surrogates, the lower one the
      -- codes that fit in two bytes.
      have hValid : code.isValidChar := by
        rcases Nat.lt_or_ge code 0xD800 with hBelow | hAbove
        · exact .inl hBelow
        · refine .inr ⟨?_, by omega⟩
          split_ifs at hHigh <;> omega
      have hLong : 0x800 ≤ code := by
        split_ifs at hLow <;> omega
      have hByte : UInt8.ofNat (0xE0 + code / 0x1000) = byte := by
        rw [hBits, Nat.add_sub_cancel' (by omega), UInt8.ofNat_toNat]
      rcases utf8EncodeChar_cases hValid with h | h | ⟨-, -, hEncode⟩ | h
      · omega
      · omega
      · exact ⟨hValid, hByte ▸ hEncode⟩
      · omega
  | four hFirst hLast =>
      simp only [Nat.reducePow, Nat.reduceSub] at hBits hLow hHigh
      have hLong : 0x10000 ≤ code := by
        split_ifs at hLow <;> omega
      have hValid : code.isValidChar := by
        refine .inr ⟨by omega, ?_⟩
        split_ifs at hHigh <;> omega
      have hByte : UInt8.ofNat (0xF0 + code / 0x40000) = byte := by
        rw [hBits, Nat.add_sub_cancel' (by omega), UInt8.ofNat_toNat]
      rcases utf8EncodeChar_cases hValid with h | h | h | ⟨-, hEncode⟩
      · omega
      · omega
      · omega
      · exact ⟨hValid, hByte ▸ hEncode⟩

/-- Every character is written as a byte of its own, or as a first byte that starts it
and the bytes that continue it. -/
theorem utf8EncodeChar_eq_cons (c : Char) :
    (∃ byte, start? byte = some (.inl c) ∧ String.utf8EncodeChar c = [byte]) ∨
      ∃ byte char, Starts byte char ∧ char.LeadsTo c.toNat ∧
        String.utf8EncodeChar c = byte :: continuation c.toNat char.missing := by
  have hValid : c.toNat.isValidChar := c.valid
  have hBound : c.toNat < 0x110000 := by
    rcases hValid with hSmall | ⟨-, hLarge⟩ <;> omega
  rcases utf8EncodeChar_cases hValid with ⟨hCode, hEncode⟩ | ⟨hLeast, hMost, hEncode⟩ |
    ⟨hLeast, hMost, hEncode⟩ | ⟨hLeast, hEncode⟩
  · rw [Char.ofNat_toNat] at hEncode
    have hByte := toNat_byte (show c.toNat < 0x100 by omega)
    refine .inl ⟨_, (start?_eq_inl_iff c).mpr ⟨?_, ?_⟩, hEncode⟩
    · rw [hByte]
      exact hCode
    · rw [hByte, Char.ofNat_toNat]
  · rw [Char.ofNat_toNat] at hEncode
    have hByte := toNat_byte (show 0xC0 + c.toNat / 0x40 < 0x100 by omega)
    refine .inr ⟨_, _, .two (by omega) (by omega), ⟨?_, ?_, ?_⟩, hEncode⟩ <;> dsimp only <;> omega
  · rw [Char.ofNat_toNat] at hEncode
    have hByte := toNat_byte (show 0xE0 + c.toNat / 0x1000 < 0x100 by omega)
    refine .inr ⟨_, _, .three (by omega) (by omega), ⟨?_, ?_, ?_⟩, hEncode⟩
    · dsimp only
      omega
    · dsimp only [Nat.reduceSub]
      split_ifs <;> omega
    · dsimp only [Nat.reduceSub]
      rcases hValid with hBelow | ⟨hAbove, -⟩ <;> split_ifs <;> omega
  · rw [Char.ofNat_toNat] at hEncode
    have hByte := toNat_byte (show 0xF0 + c.toNat / 0x40000 < 0x100 by omega)
    refine .inr ⟨_, _, .four (by omega) (by omega), ⟨?_, ?_, ?_⟩, hEncode⟩
    · dsimp only
      omega
    · dsimp only [Nat.reduceSub]
      split_ifs <;> omega
    · dsimp only [Nat.reduceSub]
      split_ifs <;> omega

/-- Between two characters, decoding takes the bytes of one character and goes on. -/
theorem decodeFrom_none_eq_ok_iff (position : Nat) (bytes : List UInt8) (text : List Char)
    (hBytes : bytes ≠ []) :
    decodeFrom position none bytes = .ok text ↔
      ∃ c rest more, bytes = String.utf8EncodeChar c ++ rest ∧ text = c :: more ∧
        decodeFrom (position + (String.utf8EncodeChar c).length) none rest = .ok more := by
  constructor
  · intro hDecode
    obtain ⟨byte, bytes, rfl⟩ := List.exists_cons_of_ne_nil hBytes
    rw [decodeFrom] at hDecode
    split at hDecode
    case h_1 => cases hDecode
    case h_2 c hStart =>
        rw [Sequence.map_eq_ok_iff] at hDecode
        obtain ⟨more, hMore, rfl⟩ := hDecode
        have hEncode := utf8EncodeChar_eq_singleton hStart
        exact ⟨c, bytes, more, by rw [hEncode]; rfl, rfl, by rw [hEncode]; exact hMore⟩
    case h_3 char hStart =>
        have hStarts := start?_eq_inr_iff.mp hStart
        obtain ⟨code, rest, more, hLeads, rfl, rfl, hMore⟩ :=
          (decodeFrom_some_eq_ok_iff hStarts.waits _ _ _).mp hDecode
        obtain ⟨-, hEncode⟩ := hStarts.utf8EncodeChar_eq hLeads
        refine ⟨_, rest, more, by rw [hEncode]; rfl, rfl, ?_⟩
        rw [hEncode, List.length_cons, length_continuation, Nat.add_comm char.missing,
          ← Nat.add_assoc]
        exact hMore
  · rintro ⟨c, rest, more, rfl, rfl, hMore⟩
    rcases utf8EncodeChar_eq_cons c with ⟨byte, hStart, hEncode⟩ |
      ⟨byte, char, hStarts, hLeads, hEncode⟩
    · rw [hEncode] at hMore ⊢
      rw [List.singleton_append, decodeFrom, hStart]
      exact (Sequence.map_eq_ok_iff _ _ _).mpr ⟨more, hMore, rfl⟩
    · rw [hEncode, List.length_cons, length_continuation, Nat.add_comm char.missing,
        ← Nat.add_assoc] at hMore
      rw [hEncode, List.cons_append, decodeFrom, hStarts.start?_eq]
      exact (decodeFrom_some_eq_ok_iff hStarts.waits _ _ _).mpr
        ⟨c.toNat, rest, more, hLeads, rfl, by rw [Char.ofNat_toNat], hMore⟩

/-- Bytes decode to a text exactly if they are its encoding. The induction is on the
text. -/
theorem decodeFrom_eq_ok_iff (position : Nat) (bytes : List UInt8) (text : List Char) :
    decodeFrom position none bytes = .ok text ↔ bytes = text.flatMap String.utf8EncodeChar := by
  induction text generalizing position bytes with
  | nil =>
      cases bytes with
      | nil => simp [decodeFrom]
      | cons byte bytes => simp [decodeFrom_none_eq_ok_iff]
  | cons c text ih =>
      by_cases hBytes : bytes = []
      · simp [hBytes, decodeFrom, String.utf8EncodeChar_ne_nil]
      · simp [decodeFrom_none_eq_ok_iff _ _ _ hBytes, ih]

/-- Decoding accepts exactly the bytes of a text, and returns that text. -/
theorem decode_eq_ok_iff (bytes : List UInt8) (text : List Char) :
    decode bytes = .ok text ↔ bytes = encode (String.ofList text) := by
  rw [decode, decodeFrom_eq_ok_iff, encode, String.toUTF8_eq_toByteArray,
    String.toByteArray_ofList, List.utf8Encode, List.toList_data_toByteArray]

end Reading

end ApiSurvey.Text.Utf8
