import ZbAt.Text

/-!
# Results and hex helpers (at.h, at_fmt.c)

Handler results, and the parsing of a run of hex digits. `at_parse_hex_n` reads the number that
the digits denote (`atParseHexN_eq`).
-/

namespace ZbAt

open Text

/-! ## Handler results -/

def atOk : ℕ := 0
def atErrUnknownCmd : ℕ := 0x02
def atErrInvalidSreg : ℕ := 0x04
def atErrInvalidParam : ℕ := 0x05
def atErrUnreachable : ℕ := 0x06
def atErrNoBuffers : ℕ := 0x18
def atErrReadOnly : ℕ := 0x19
def atErrBadPassword : ℕ := 0x20
def atErrCannotForm : ℕ := 0x25
def atErrNoNetwork : ℕ := 0x27
def atErrInPan : ℕ := 0x28
def atErrXcastbTimeout : ℕ := 0x35
def atErrTooManyUcast : ℕ := 0x72
def atErrMsgTooLong : ℕ := 0x74
def atErrNotJoined : ℕ := 0x93
def atErrCannotJoin : ℕ := 0x94

/-! ## Hex digits -/

/-- `hex_nibble` -/
def hexNibble (c : UInt8) : Option ℕ :=
  if 48 ≤ c && c ≤ 57 then some (c.toNat - 48)
  else
    let c := toupper c
    if 65 ≤ c && c ≤ 70 then some (c.toNat - 65 + 10) else none

/-- The loop of `at_parse_hex_n`: `len` more digits of `s`, after digits worth `v`. The
terminator of `s` is no digit. -/
def parseHexDigits : ℕ → Text → ℕ → Option ℕ
  | 0, _, v => some v
  | _ + 1, [], _ => none
  | len + 1, c :: s, v =>
    match hexNibble c with
    | some d => parseHexDigits len s (v * 16 + d)
    | none => none

/-- `at_parse_hex_n` -/
def atParseHexN (s : Text) (len : ℕ) : Option ℕ :=
  if len == 0 || len > 8 then none else parseHexDigits len s 0

/-- The loop of `at_parse_hex_rev` over `n` pairs of digits, with the first byte in front. -/
def parseHexPairs : ℕ → Text → Option (List UInt8)
  | 0, _ => some []
  | n + 1, a :: b :: s =>
    match hexNibble a, hexNibble b with
    | some hi, some lo => (parseHexPairs n s).map ((hi * 16 + lo).toUInt8 :: ·)
    | _, _ => none
  | _ + 1, _ => none

/-- `at_parse_hex_rev`: the bytes of the digits, the last one first. -/
def atParseHexRev (s : Text) (n : ℕ) : Option (List UInt8) := (parseHexPairs n s).map List.reverse

set_option maxRecDepth 4000 in
@[simp] theorem hexNibble_eq : ∀ c, hexNibble c = digitVal c := forall_char (by decide)

theorem parseHexDigits_eq (len : ℕ) (s : Text) (v : ℕ) : parseHexDigits len s v =
    if s.length < len then none
    else (hexValue (s.take len)).map fun n => v * 16 ^ len + n := by
  induction len generalizing s v with
  | zero => simp [parseHexDigits, hexValue, digitVals]
  | succ len ih =>
    cases s with
    | nil => simp [parseHexDigits]
    | cons c s =>
      simp only [parseHexDigits, hexNibble_eq, List.take_succ_cons, hexValue_cons,
        List.length_cons, Nat.succ_lt_succ_iff]
      cases hd : digitVal c with
      | none => simp
      | some d =>
        dsimp only
        rw [ih]
        split_ifs with hlt
        · rfl
        · have hlen : (s.take len).length = len := List.length_take_of_le (by omega)
          simp only [Option.map_map, hlen]
          congr 1
          funext n
          simp only [Function.comp, Nat.pow_succ']
          ring

/-- The pairs of a text are the bytes that it denotes. -/
theorem parseHexPairs_eq {n : ℕ} {s : Text} (h : s.length = 2 * n) :
    parseHexPairs n s = hexBytes s := by
  induction n generalizing s with
  | zero =>
    rw [List.eq_nil_of_length_eq_zero h]
    rfl
  | succ n ih =>
    cases s with
    | nil => simp at h
    | cons a s =>
      cases s with
      | nil => simp at h; omega
      | cons b s =>
        have hs := ih (s := s) (by simp only [List.length_cons] at h; omega)
        simp only [parseHexPairs, hexNibble_eq, hexBytes, hexValue_cons, hs]
        cases digitVal a with
        | none => rfl
        | some hi =>
          cases digitVal b with
          | none => rfl
          | some lo => simp [hexValue, digitVals]

/-- `at_parse_hex_n` reads the number that the first `len` characters denote. -/
theorem atParseHexN_eq {s : Text} {len : ℕ} (h0 : 0 < len) (h8 : len ≤ 8) :
    atParseHexN s len = if s.length < len then none else hexValue (s.take len) := by
  rw [atParseHexN, if_neg (by simp; omega), parseHexDigits_eq]
  simp

end ZbAt
