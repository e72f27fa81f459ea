import Mathlib.Data.Int.Notation
import Mathlib.Data.List.TakeWhile
import Mathlib.Data.Nat.Digits.Lemmas

/-!
# Text and numbers in text

A text is the bytes of a C string without its terminator. The first part has numbers as lists of
digits, most significant first, in any base; the second part reads and prints them the way the C
library does in the C locale.

* `number`, `printNum` — the number that digits denote, and the digits that `printf` prints for a
  minimal width; each undoes the other.
* `digitVal`, `digitChar` — characters for digits up to `F`.
* `hexValue`, `decValue` — the number that a whole text denotes, if it does.
* `strtol`, `strtoul` — the conversions of the C library.
-/

namespace ZbAt

/-- The bytes of a C string, without the terminator. -/
abbrev Text := List UInt8

namespace Text

/-- A text in ASCII. -/
def ascii (s : String) : Text := s.toList.map fun c => c.toNat.toUInt8

/-! ## Digits -/

/-- The number that the digits `ds` denote, most significant digit first. -/
def number (b : ℕ) (ds : List ℕ) : ℕ := Nat.ofDigits b ds.reverse

/-- The digits of `n`, with zeros before them to a length of `w`. -/
def printNum (b w n : ℕ) : List ℕ := (Nat.digitsAppend b w n).reverse

variable {b w n : ℕ} {ds : List ℕ}

@[simp] theorem number_nil (b : ℕ) : number b [] = 0 := rfl

@[simp] theorem number_concat (b : ℕ) (ds : List ℕ) (d : ℕ) :
    number b (ds ++ [d]) = number b ds * b + d := by
  simp only [number, List.reverse_append, List.reverse_cons, List.reverse_nil, List.nil_append,
    List.cons_append, Nat.ofDigits_cons]
  ring

theorem number_cons (b d : ℕ) (ds : List ℕ) :
    number b (d :: ds) = d * b ^ ds.length + number b ds := by
  simp [number, Nat.ofDigits_append, Nat.mul_comm, Nat.add_comm]

theorem number_lt (hb : 1 < b) (hds : ∀ d ∈ ds, d < b) : number b ds < b ^ ds.length := by
  have h := Nat.ofDigits_lt_base_pow_length hb (l := ds.reverse) fun d hd =>
    hds d (List.mem_reverse.mp hd)
  rwa [List.length_reverse] at h

theorem printNum_lt (hb : 1 < b) : ∀ d ∈ printNum b w n, d < b := fun d hd =>
  Nat.lt_of_mem_digitsAppend hb w d (List.mem_reverse.mp hd)

/-- What is printed denotes the number. -/
@[simp] theorem number_printNum (b w n : ℕ) : number b (printNum b w n) = n := by
  rw [number, printNum, List.reverse_reverse, Nat.digitsAppend, Nat.ofDigits_append_replicate_zero,
    Nat.ofDigits_digits]

theorem length_printNum (hb : 1 < b) (hn : n < b ^ w) : (printNum b w n).length = w := by
  rw [printNum, List.length_reverse, Nat.length_digitsAppend hb w hn]

theorem le_length_printNum (b w n : ℕ) : w ≤ (printNum b w n).length := by
  rw [printNum, List.length_reverse, Nat.digitsAppend, List.length_append, List.length_replicate]
  omega

theorem length_printNum_le {m : ℕ} (hb : 1 < b) (hw : w ≤ m) (hn : n < b ^ m) :
    (printNum b w n).length ≤ m := by
  have hdigits := (Nat.digits_length_le_iff hb n).mpr hn
  rw [printNum, List.length_reverse, Nat.digitsAppend, List.length_append, List.length_replicate]
  omega

/-- Digits are what is printed for the number that they denote. -/
theorem printNum_number (hb : 1 < b) (hds : ∀ d ∈ ds, d < b) :
    printNum b ds.length (number b ds) = ds := by
  have hlen := length_printNum hb (number_lt hb hds)
  refine List.reverse_injective (Nat.ofDigits_inj_of_len_eq hb ?_ ?_ ?_ ?_)
  · simp [hlen]
  · exact fun d hd => printNum_lt hb d (List.mem_reverse.mp hd)
  · exact fun d hd => hds d (List.mem_reverse.mp hd)
  · exact number_printNum b _ _

/-! ## Characters -/

/-- `isdigit` -/
def isdigit (c : UInt8) : Bool := 48 ≤ c && c ≤ 57

/-- `isspace` -/
def isspace (c : UInt8) : Bool := c == 32 || (9 ≤ c && c ≤ 13)

/-- `toupper` -/
def toupper (c : UInt8) : UInt8 := if 97 ≤ c && c ≤ 122 then c - 32 else c

/-- The value of a digit up to `F`, in either case. -/
def digitVal (c : UInt8) : Option ℕ :=
  if 48 ≤ c && c ≤ 57 then some (c.toNat - 48)
  else if 65 ≤ c && c ≤ 70 then some (c.toNat - 55)
  else if 97 ≤ c && c ≤ 102 then some (c.toNat - 87)
  else none

/-- `isxdigit` -/
def isxdigit (c : UInt8) : Bool := (digitVal c).isSome

/-- The character of a digit up to `F`. -/
def digitChar (d : ℕ) : UInt8 := if d < 10 then d.toUInt8 + 48 else d.toUInt8 + 55

/-- A property of characters that holds of all 256. -/
theorem forall_char {P : UInt8 → Prop} (h : ∀ n < 256, P (UInt8.ofNat n)) (c : UInt8) : P c := by
  have hc := h c.toNat c.toNat_lt
  rwa [UInt8.ofNat_toNat] at hc

set_option maxRecDepth 4000 in
theorem digitVal_lt {c : UInt8} {d : ℕ} (h : digitVal c = some d) : d < 16 := by
  have hall : ∀ c : UInt8, ∀ d ∈ digitVal c, d < 16 := forall_char (by decide)
  exact hall c d h

@[simp] theorem digitVal_digitChar : ∀ {d : ℕ}, d < 16 → digitVal (digitChar d) = some d := by
  decide

set_option maxRecDepth 4000 in
theorem digitChar_of_digitVal {c : UInt8} {d : ℕ} (h : digitVal c = some d) :
    digitChar d = toupper c := by
  have hall : ∀ c : UInt8, ∀ d ∈ digitVal c, digitChar d = toupper c := forall_char (by decide)
  exact hall c d h

theorem isxdigit_of_isdigit {c : UInt8} (h : isdigit c = true) : isxdigit c = true := by
  unfold isdigit at h
  simp [isxdigit, digitVal, h]

set_option maxRecDepth 4000 in
theorem isdigit_iff : ∀ c, isdigit c = true ↔ ∃ d < 10, digitVal c = some d :=
  forall_char (by decide)

set_option maxRecDepth 4000 in
/-- A digit is no space, no sign and no `x`. -/
theorem isxdigit_ne : ∀ c, isxdigit c = true →
    isspace c = false ∧ c ≠ 45 ∧ c ≠ 43 ∧ c ≠ 120 ∧ c ≠ 88 :=
  forall_char (by decide)

/-! ## Texts of digits -/

/-- The values of the digits in a text. -/
def digitVals (t : Text) : List ℕ := t.filterMap digitVal

theorem digitVals_map_digitChar (hds : ∀ d ∈ ds, d < 16) : digitVals (ds.map digitChar) = ds := by
  rw [digitVals, List.filterMap_map]
  induction ds with
  | nil => rfl
  | cons d ds ih =>
    rw [List.filterMap_cons_some (f := digitVal ∘ digitChar)
      (digitVal_digitChar (hds d List.mem_cons_self)),
      ih fun d hd => hds d (List.mem_cons_of_mem _ hd)]

theorem isxdigit_digitChar {d : ℕ} (hd : d < 16) : isxdigit (digitChar d) = true := by
  rw [isxdigit, digitVal_digitChar hd]; rfl

variable {t : Text}

/-- Printing the digits of a text gives the text in upper case. -/
theorem map_digitChar_digitVals (h : ∀ c ∈ t, isxdigit c = true) :
    (digitVals t).map digitChar = t.map toupper := by
  induction t with
  | nil => rfl
  | cons c t ih =>
    obtain ⟨d, hd⟩ := Option.isSome_iff_exists.mp (h c List.mem_cons_self)
    rw [digitVals, List.filterMap_cons_some hd, List.map_cons, List.map_cons,
      digitChar_of_digitVal hd, ← ih fun c hc => h c (List.mem_cons_of_mem _ hc)]
    rfl

theorem length_digitVals (h : ∀ c ∈ t, isxdigit c = true) : (digitVals t).length = t.length := by
  rw [← List.length_map digitChar, map_digitChar_digitVals h, List.length_map]

theorem digitVals_lt : ∀ d ∈ digitVals t, d < 16 := by
  intro d hd
  obtain ⟨c, -, hc⟩ := List.mem_filterMap.mp hd
  exact digitVal_lt hc

/-- `printf("%0wX")` -/
def hexText (w n : ℕ) : Text := (printNum 16 w n).map digitChar

/-- The number that a text of hex digits denotes. -/
def hexValue (t : Text) : Option ℕ :=
  if t.all isxdigit then some (number 16 (digitVals t)) else none

theorem hexValue_cons (c : UInt8) (t : Text) : hexValue (c :: t) =
    match digitVal c with
    | some d => (hexValue t).map fun n => d * 16 ^ t.length + n
    | none => none := by
  cases hd : digitVal c with
  | none => simp [hexValue, isxdigit, hd]
  | some d =>
    simp only [hexValue, List.all_cons, isxdigit, hd, Option.isSome_some, Bool.true_and]
    split_ifs with hall
    · have hlen := length_digitVals (List.all_eq_true.mp hall)
      rw [digitVals, List.filterMap_cons_some hd, number_cons]
      exact congrArg (fun n => some (d * 16 ^ n + _)) hlen
    · rfl

theorem hexText_all (w n : ℕ) : ∀ c ∈ hexText w n, isxdigit c = true := by
  intro c hc
  obtain ⟨d, hd, rfl⟩ := List.mem_map.mp hc
  exact isxdigit_digitChar (printNum_lt (by decide) d hd)

@[simp] theorem hexValue_hexText (w n : ℕ) : hexValue (hexText w n) = some n := by
  rw [hexValue, if_pos (List.all_eq_true.mpr (hexText_all w n)), hexText,
    digitVals_map_digitChar (printNum_lt (by decide)), number_printNum]

theorem length_hexText {w n : ℕ} (h : n < 16 ^ w) : (hexText w n).length = w := by
  rw [hexText, List.length_map, length_printNum (by decide) h]

theorem length_hexByte (b : UInt8) : (hexText 2 b.toNat).length = 2 := length_hexText b.toNat_lt

theorem length_hexWord (v : UInt16) : (hexText 4 v.toNat).length = 4 := length_hexText v.toNat_lt

theorem hexValue_eq_some {v : ℕ} (h : hexValue t = some v) :
    (∀ c ∈ t, isxdigit c = true) ∧ v < 16 ^ t.length ∧ hexText t.length v = t.map toupper := by
  unfold hexValue at h
  split_ifs at h with hall
  rw [List.all_eq_true] at hall
  cases h
  have hlt := number_lt (by decide : 1 < 16) (digitVals_lt (t := t))
  rw [length_digitVals hall] at hlt
  refine ⟨hall, hlt, ?_⟩
  have hp := printNum_number (by decide : 1 < 16) (digitVals_lt (t := t))
  rw [length_digitVals hall] at hp
  rw [hexText, hp, map_digitChar_digitVals hall]

/-- The bytes that a text of hex digits denotes, two digits each. -/
def hexBytes : Text → Option (List UInt8)
  | [] => some []
  | [_] => none
  | a :: b :: t => (hexValue [a, b]).bind fun v => (hexBytes t).map (v.toUInt8 :: ·)

/-- Bytes as hex digits. -/
def bytesText (bs : List UInt8) : Text := bs.flatMap fun b => hexText 2 b.toNat

theorem hexValue_pair {a b : UInt8} {v : ℕ} (h : hexValue [a, b] = some v) :
    v < 256 ∧ hexText 2 v = [toupper a, toupper b] ∧ isxdigit a = true ∧ isxdigit b = true := by
  obtain ⟨hall, hlt, ht⟩ := hexValue_eq_some h
  exact ⟨hlt, ht, hall a (by simp), hall b (by simp)⟩

theorem hexBytes_eq_some {t : Text} {bs : List UInt8} (h : hexBytes t = some bs) :
    (∀ c ∈ t, isxdigit c = true) ∧ t.length = 2 * bs.length ∧ bytesText bs = t.map toupper := by
  induction t using hexBytes.induct generalizing bs with
  | case1 => cases h; simp [bytesText]
  | case2 => cases h
  | case3 a b t ih =>
    obtain ⟨v, hv, hm⟩ := Option.bind_eq_some_iff.mp h
    obtain ⟨bs', hbs, rfl⟩ := Option.map_eq_some_iff.mp hm
    obtain ⟨hlt, ht, ha, hb⟩ := hexValue_pair hv
    obtain ⟨hall, hlen, htext⟩ := ih hbs
    refine ⟨by simpa [ha, hb] using hall, by simp [hlen]; omega, ?_⟩
    have hv' : v.toUInt8.toNat = v := Nat.mod_eq_of_lt hlt
    rw [bytesText, List.flatMap_cons, hv', ht]
    exact congrArg (fun s => [toupper a, toupper b] ++ s) htext

/-- A text of an even number of hex digits denotes bytes. -/
theorem hexBytes_isSome {t : Text} (hall : ∀ c ∈ t, isxdigit c = true) (h2 : t.length % 2 = 0) :
    (hexBytes t).isSome := by
  induction t using hexBytes.induct with
  | case1 => rfl
  | case2 => simp at h2
  | case3 a b t ih =>
    have hv : hexValue [a, b] = some (number 16 (digitVals [a, b])) := by
      rw [hexValue, if_pos (by simp [hall])]
    obtain ⟨bs, hbs⟩ := Option.isSome_iff_exists.mp
      (ih (fun c hc => hall c (by simp [hc])) (by simp only [List.length_cons] at h2; omega))
    simp [hexBytes, hv, hbs]

@[simp] theorem hexBytes_bytesText (bs : List UInt8) : hexBytes (bytesText bs) = some bs := by
  induction bs with
  | nil => rfl
  | cons b bs ih =>
    obtain ⟨x, y, hxy⟩ := List.length_eq_two.mp (length_hexByte b)
    have hv := hexValue_hexText 2 b.toNat
    rw [hxy] at hv
    rw [bytesText, List.flatMap_cons, hxy, List.cons_append, List.cons_append, List.nil_append]
    rw [bytesText] at ih
    simp [hexBytes, hv, ih]

/-- `printf("%0wd")` of a number that is not negative -/
def decDigits (w n : ℕ) : Text := (printNum 10 w n).map digitChar

theorem decDigits_all (w n : ℕ) : ∀ c ∈ decDigits w n, isdigit c = true := by
  intro c hc
  obtain ⟨d, hd, rfl⟩ := List.mem_map.mp hc
  have hlt := printNum_lt (by decide) d hd
  exact (isdigit_iff _).mpr ⟨d, hlt, digitVal_digitChar (by omega)⟩

theorem decDigits_ne_nil {w : ℕ} (hw : 0 < w) (n : ℕ) : decDigits w n ≠ [] := by
  have hlen := le_length_printNum 10 w n
  apply List.ne_nil_of_length_pos
  rw [decDigits, List.length_map]
  omega

theorem number_decDigits (w n : ℕ) : number 10 (digitVals (decDigits w n)) = n := by
  rw [decDigits, digitVals_map_digitChar fun d hd => ?_, number_printNum]
  have := printNum_lt (by decide) d hd
  omega

/-! ## The C library -/

/-- The largest `long` and `unsigned long`, of 32 bits. -/
def longMax : ℤ := 2 ^ 31 - 1
def ulongMax : ℕ := 2 ^ 32 - 1

/-- The conversions clamp to the type's range. -/
def clampLong (v : ℤ) : ℤ := max (-longMax - 1) (min v longMax)

/-- What comes before the digits: spaces, and a sign if there is one. -/
def signOf (t : Text) : Bool × Text :=
  match t.dropWhile isspace with
  | 45 :: t => (true, t)
  | 43 :: t => (false, t)
  | t => (false, t)

def signed (neg : Bool) (v : ℕ) : ℤ := if neg then -v else v

/-- `strtol(t, &end, 10)`: the value and the text from `end` on. -/
def strtol (t : Text) : ℤ × Text :=
  let p := signOf t
  let ds := p.2.takeWhile isdigit
  if ds = [] then (0, t)
  else (clampLong (signed p.1 (number 10 (digitVals ds))), p.2.dropWhile isdigit)

/-- A `0x` before a hex digit. -/
def dropHexPrefix : Text → Text
  | 48 :: x :: c :: t =>
    if (x == 120 || x == 88) && isxdigit c then c :: t else 48 :: x :: c :: t
  | t => t

/-- `strtoul(t, NULL, 16)` -/
def strtoul (t : Text) : ℕ :=
  let p := signOf t
  let v := number 16 (digitVals ((dropHexPrefix p.2).takeWhile isxdigit))
  if v > ulongMax then ulongMax else if p.1 then (2 ^ 32 - v) % 2 ^ 32 else v

/-- `strchr(t, c)`: what follows the first `c`. -/
def strchr (t : Text) (c : UInt8) : Option Text :=
  match t.dropWhile (· != c) with
  | [] => none
  | _ :: rest => some rest

theorem takeWhile_cut {c : UInt8} {value : Text} (h : c ∉ value) (pw : Text) :
    (value ++ c :: pw).takeWhile (· != c) = value ∧ strchr (value ++ c :: pw) c = some pw := by
  have hall : ∀ d ∈ value, (d != c) = true := fun d hd => bne_iff_ne.mpr fun hc => h (hc ▸ hd)
  constructor
  · rw [List.takeWhile_append_of_pos hall]
    simp
  · rw [strchr, List.dropWhile_append_of_pos hall]
    simp

/-- `strchr` cuts a text at the first `c`. -/
theorem strchr_cut {t : Text} {c : UInt8} :
    (strchr t c = none ∧ c ∉ t) ∨
      ∃ pw, strchr t c = some pw ∧ t = t.takeWhile (· != c) ++ c :: pw := by
  have hsplit := List.takeWhile_append_dropWhile (p := (· != c)) (l := t)
  unfold strchr
  cases hd : t.dropWhile (· != c) with
  | nil =>
    left
    refine ⟨rfl, ?_⟩
    intro hm
    simpa using List.dropWhile_eq_nil_iff.mp hd c hm
  | cons d tl =>
    right
    have hc : d = c := by simpa [hd] using List.head?_dropWhile_not (· != c) t
    subst hc
    rw [hd] at hsplit
    exact ⟨tl, rfl, hsplit.symm⟩

theorem not_mem_takeWhile_bne (t : Text) (c : UInt8) : c ∉ t.takeWhile (· != c) := fun hm => by
  simpa using List.mem_takeWhile_imp hm

/-- The number that a text denotes in decimal: spaces and a sign may come first. -/
def decValue (t : Text) : Option ℤ :=
  let p := signOf t
  if p.2 ≠ [] ∧ p.2.all isdigit then some (signed p.1 (number 10 (digitVals p.2))) else none

/-- `printf("%u")` -/
def natText (n : ℕ) : Text := decDigits 1 n

theorem length_natText_le {m n : ℕ} (hn : n < 10 ^ (m + 1)) : (natText n).length ≤ m + 1 := by
  rw [natText, decDigits, List.length_map]
  exact length_printNum_le (by decide) (by omega) hn

/-- `printf("%d")` -/
def intText (v : ℤ) : Text := if v < 0 then 45 :: natText v.natAbs else natText v.natAbs

/-- `printf("%02ld")`, and `-%02ld` of the amount when it is negative. -/
def decText (v : ℤ) : Text := if v < 0 then 45 :: decDigits 2 v.natAbs else decDigits 2 v.natAbs

/-- A digit in front is no space and no sign. -/
theorem signOf_cons {c : UInt8} (h : isxdigit c = true) (t : Text) :
    signOf (c :: t) = (false, c :: t) := by
  obtain ⟨h1, h2, h3, -⟩ := isxdigit_ne c h
  simp only [signOf, List.dropWhile_cons, h1, Bool.false_eq_true, if_false]
  split
  · simp_all
  · simp_all
  · rfl

theorem signOf_digits (h : ∀ c ∈ t, isxdigit c = true) : signOf t = (false, t) := by
  cases t with
  | nil => rfl
  | cons c t => exact signOf_cons (h c List.mem_cons_self) t

theorem dropHexPrefix_digits (h : ∀ c ∈ t, isxdigit c = true) : dropHexPrefix t = t := by
  unfold dropHexPrefix
  split
  case h_1 x c t =>
    obtain ⟨-, -, -, h1, h2⟩ := isxdigit_ne x (h x (by simp))
    simp [h1, h2]
  case h_2 => rfl

/-- `strtoul` reads a text of hex digits. -/
theorem strtoul_hexValue {v : ℕ} (h : hexValue t = some v) (hv : v ≤ ulongMax) :
    strtoul t = v := by
  have hall := (hexValue_eq_some h).1
  unfold hexValue at h
  split_ifs at h
  cases h
  rw [strtoul, signOf_digits hall]
  dsimp only
  rw [dropHexPrefix_digits hall, List.takeWhile_eq_self_iff.mpr hall, if_neg (by omega)]
  rfl

/-- `strtol` reads a decimal number to its end. -/
theorem strtol_decValue {v : ℤ} (h : decValue t = some v) : strtol t = (clampLong v, []) := by
  unfold decValue at h
  dsimp only at h
  split_ifs at h with hc
  cases h
  have hall := List.all_eq_true.mp hc.2
  simp only [strtol]
  rw [List.takeWhile_eq_self_iff.mpr hall, List.dropWhile_eq_nil_iff.mpr hall, if_neg hc.1]

/-- `strtol` stops behind the digits. -/
theorem strtol_decDigits {w : ℕ} (hw : 0 < w) (n : ℕ) {rest : Text}
    (hrest : ∀ c ∈ rest.head?, isdigit c = false) :
    strtol (decDigits w n ++ rest) = (clampLong n, rest) := by
  have hall := decDigits_all w n
  obtain ⟨c, ds, hds⟩ := List.exists_cons_of_ne_nil (decDigits_ne_nil hw n)
  have hc : isdigit c = true := hall c (hds ▸ List.mem_cons_self)
  have hsign : signOf (decDigits w n ++ rest) = (false, decDigits w n ++ rest) := by
    rw [hds, List.cons_append]
    exact signOf_cons (isxdigit_of_isdigit hc) _
  have hsplit : rest.takeWhile isdigit = [] ∧ rest.dropWhile isdigit = rest := by
    cases rest with
    | nil => exact ⟨rfl, rfl⟩
    | cons d rest =>
      have hd : isdigit d = false := hrest d rfl
      simp [hd]
  have htake : (decDigits w n ++ rest).takeWhile isdigit = decDigits w n := by
    rw [List.takeWhile_append_of_pos hall, hsplit.1, List.append_nil]
  have hdrop : (decDigits w n ++ rest).dropWhile isdigit = rest := by
    rw [List.dropWhile_append_of_pos hall, hsplit.2]
  simp only [strtol, hsign, htake, hdrop]
  rw [if_neg (decDigits_ne_nil hw n), number_decDigits]
  rfl

/-- What `strtol` reads to its end is a decimal number. -/
theorem decValue_of_strtol (ht : t ≠ []) (h : (strtol t).2 = []) : (decValue t).isSome := by
  unfold strtol at h
  dsimp only at h
  split_ifs at h with hds
  · exact absurd h ht
  · have hall := List.dropWhile_eq_nil_iff.mp h
    rw [List.takeWhile_eq_self_iff.mpr hall] at hds
    unfold decValue
    dsimp only
    rw [if_pos ⟨hds, List.all_eq_true.mpr hall⟩]
    rfl

theorem decValue_digits {w : ℕ} (hw : 0 < w) (n : ℕ) :
    decValue (decDigits w n) = some (n : ℤ) ∧ decValue (45 :: decDigits w n) = some (-n : ℤ) := by
  have hall := decDigits_all w n
  have hsign := signOf_digits fun c hc => isxdigit_of_isdigit (hall c hc)
  have hneg : signOf (45 :: decDigits w n) = (true, decDigits w n) := rfl
  have hne : decDigits w n ≠ [] := decDigits_ne_nil hw n
  unfold decValue
  dsimp only
  rw [hsign, hneg, if_pos ⟨hne, List.all_eq_true.mpr hall⟩, number_decDigits]
  exact ⟨rfl, if_pos ⟨hne, List.all_eq_true.mpr hall⟩⟩

theorem decValue_signed {w : ℕ} (hw : 0 < w) (v : ℤ) :
    decValue (if v < 0 then 45 :: decDigits w v.natAbs else decDigits w v.natAbs) = some v := by
  obtain ⟨hpos, hneg⟩ := decValue_digits hw v.natAbs
  split_ifs with h
  · rw [hneg, Option.some.injEq]
    omega
  · rw [hpos, Option.some.injEq]
    omega

@[simp] theorem decValue_decText (v : ℤ) : decValue (decText v) = some v :=
  decValue_signed (by decide) v

@[simp] theorem decValue_intText (v : ℤ) : decValue (intText v) = some v :=
  decValue_signed (by decide) v

@[simp] theorem decValue_natText (n : ℕ) : decValue (natText n) = some (n : ℤ) :=
  (decValue_digits (by decide) n).1

end Text

end ZbAt
