import Mathlib.Data.List.Infix
import Mathlib.Data.UInt
import Mathlib.Tactic.SplitIfs

/-!
# Decoding UTF-8 with replacement

Bytes that are no UTF-8 decode to `U+FFFD`, one for each longest start of a sequence, as Python's
`bytes.decode('utf-8', 'replace')` does. A string is the list of its code points.

* `first` — the first code point, and how many more bytes it takes.
* `decode` — all of them.
* `suffix_decode_iff` — behind ASCII, the decoded bytes end in the bytes themselves if and only if
  these are ASCII.
* `decode_inj` — ASCII bytes decode like no other bytes.
-/

namespace ZbAt.Utf8

/-- `U+FFFD` -/
def replacement : ℕ := 0xFFFD

/-- A continuation byte. -/
def isCont (b : UInt8) : Bool := 0x80 ≤ b && b < 0xC0

/-- A byte that may follow the lead byte `b`: no overlong form, no surrogate and nothing behind
`U+10FFFF`. -/
def follows (b c : UInt8) : Bool :=
  isCont c && (b != 0xE0 || 0xA0 ≤ c) && (b != 0xED || c < 0xA0) && (b != 0xF0 || 0x90 ≤ c) &&
    (b != 0xF4 || c < 0x90)

/-- The bytes that a lead byte needs behind it; none for a byte that is no lead byte. -/
def need (b : UInt8) : ℕ :=
  if b < 0xC2 then 0 else if b < 0xE0 then 1 else if b < 0xF0 then 2 else if b < 0xF5 then 3 else 0

/-- The bytes behind a lead byte that may belong to it. -/
def trail (b : UInt8) : List UInt8 → List UInt8
  | [] => []
  | c :: t => if follows b c then c :: t.takeWhile isCont else []

/-- The first code point of `b :: t`, and the number of bytes of `t` that it takes. -/
def first (b : UInt8) (t : List UInt8) : ℕ × ℕ :=
  if b < 0x80 then (b.toNat, 0)
  else
    let cs := (trail b t).take (need b)
    if need b ≠ 0 ∧ cs.length = need b then
      (cs.foldl (fun v c => v * 64 + (c.toNat - 0x80)) (b.toNat % 2 ^ (6 - need b)), need b)
    else (replacement, cs.length)

/-- `decode`, behind some bytes that are taken already. -/
def decodeFrom : ℕ → List UInt8 → List ℕ
  | _, [] => []
  | k + 1, _ :: t => decodeFrom k t
  | 0, b :: t => (first b t).1 :: decodeFrom (first b t).2 t

def decode (t : List UInt8) : List ℕ := decodeFrom 0 t

/-- The bytes are ASCII. -/
def Ascii (t : List UInt8) : Prop := ∀ b ∈ t, b < 0x80

section

variable {b : UInt8} {t u w : List UInt8}

/-! ## One code point -/

theorem first_ascii (hb : b < 0x80) (t : List UInt8) : first b t = (b.toNat, 0) := if_pos hb

/-- The bytes that are taken are there. -/
theorem length_trail_le (b : UInt8) (t : List UInt8) : (trail b t).length ≤ t.length := by
  cases t with
  | nil => exact le_rfl
  | cons c t =>
    rw [trail]
    split_ifs
    · exact Nat.succ_le_succ (List.takeWhile_prefix _).length_le
    · exact Nat.zero_le _

theorem follows_of_mem_trail {c : UInt8} {cs : List UInt8} (h : trail b t = c :: cs) :
    follows b c = true := by
  cases t with
  | nil => cases h
  | cons d t =>
    rw [trail] at h
    split_ifs at h with hd
    cases h
    exact hd

theorem le_foldl (cs : List UInt8) (v : ℕ) :
    v ≤ cs.foldl (fun v c => v * 64 + (c.toNat - 0x80)) v := by
  induction cs generalizing v with
  | nil => exact le_rfl
  | cons c cs ih =>
    have hstep := ih (v * 64 + (c.toNat - 0x80))
    rw [List.foldl_cons]
    omega

/-- The shortest form is the only one: two bytes for a code point from `U+0080` on, and more only
where two are not enough. -/
theorem lead_value {c : UInt8} (hneed : need b ≠ 0) (hc : follows b c = true) :
    (if need b = 1 then 0x80 else 2) ≤ b.toNat % 2 ^ (6 - need b) * 64 + (c.toNat - 0x80) := by
  have hb := b.toNat_lt
  simp only [follows, Bool.and_eq_true, Bool.or_eq_true, bne_iff_ne, ne_eq, decide_eq_true_eq,
    ← UInt8.toNat_inj, UInt8.le_iff_toNat_le, UInt8.lt_iff_toNat_lt, UInt8.reduceToNat] at hc
  simp only [need, UInt8.lt_iff_toNat_lt, UInt8.reduceToNat] at hneed ⊢
  split_ifs at hneed ⊢ <;> simp at hneed ⊢ <;> omega

/-- A byte that is not ASCII gives no ASCII, and where it stands for itself it is replaced. -/
theorem first_high (hb : ¬b < 0x80) (t : List UInt8) :
    0x80 ≤ (first b t).1 ∧ (first b t).2 ≤ t.length ∧
      ((first b t).2 = 0 → (first b t).1 = replacement) := by
  have hlen := length_trail_le b t
  have htake := List.length_take_le' (need b) (trail b t)
  rw [first, if_neg hb]
  dsimp only
  split_ifs with hfull
  · obtain ⟨hneed, hcs⟩ := hfull
    refine ⟨?_, by omega, fun h => absurd h hneed⟩
    cases htrail : trail b t with
    | nil =>
      rw [htrail, List.take_nil, List.length_nil] at hcs
      omega
    | cons c cs =>
      have hlead := lead_value hneed (follows_of_mem_trail htrail)
      obtain ⟨k, hk⟩ := Nat.exists_eq_succ_of_ne_zero hneed
      rw [htrail, hk, List.take_succ_cons, List.length_cons] at hcs
      rw [hk] at hlead ⊢
      rw [List.take_succ_cons, List.foldl_cons]
      cases hrest : cs.take k with
      | nil =>
        rw [hrest, List.length_nil] at hcs
        simpa [show k = 0 by omega] using hlead
      | cons d ds =>
        rw [hrest, List.length_cons] at hcs
        rw [if_neg (by omega)] at hlead
        rw [List.foldl_cons]
        have hge := le_foldl ds
          ((b.toNat % 2 ^ (6 - (k + 1)) * 64 + (c.toNat - 0x80)) * 64 + (d.toNat - 0x80))
        simp only [Nat.succ_eq_add_one] at hlead ⊢
        omega
  · refine ⟨?_, by omega, fun _ => rfl⟩
    exact (show 0x80 ≤ replacement by decide)

/-! ## All code points -/

theorem decodeFrom_eq (k : ℕ) (t : List UInt8) : decodeFrom k t = decode (t.drop k) := by
  induction t generalizing k with
  | nil => cases k <;> rfl
  | cons b t ih =>
    cases k with
    | zero => rfl
    | succ k => exact ih k

theorem decode_cons (b : UInt8) (t : List UInt8) :
    decode (b :: t) = (first b t).1 :: decode (t.drop (first b t).2) := by
  rw [decode, decodeFrom, decodeFrom_eq]

/-- The code points are at most as many as the bytes. -/
theorem length_decodeFrom_le (k : ℕ) (t : List UInt8) : (decodeFrom k t).length ≤ t.length - k := by
  induction t generalizing k with
  | nil => exact Nat.zero_le _
  | cons b t ih =>
    cases k with
    | zero =>
      have hle := ih (first b t).2
      rw [decodeFrom, List.length_cons, List.length_cons]
      omega
    | succ k =>
      have hle := ih k
      rw [decodeFrom, List.length_cons]
      omega

/-- **ASCII decodes to itself**, whatever follows. -/
theorem decode_ascii_append (ht : Ascii t) (w : List UInt8) :
    decode (t ++ w) = t.map UInt8.toNat ++ decode w := by
  induction t with
  | nil => rfl
  | cons b t ih =>
    have hb := ht b List.mem_cons_self
    have hrest := ih fun c hc => ht c (List.mem_cons_of_mem _ hc)
    rw [List.cons_append, decode_cons, first_ascii hb, List.drop_zero, hrest]
    rfl

theorem decode_ascii (ht : Ascii t) : decode t = t.map UInt8.toNat := by
  have happend := decode_ascii_append ht []
  have hnil : decode [] = [] := rfl
  rwa [hnil, List.append_nil, List.append_nil] at happend

/-- Other bytes have a first one that is not ASCII. -/
theorem split_high (ht : ¬Ascii t) : ∃ u b w, t = u ++ b :: w ∧ Ascii u ∧ ¬b < 0x80 := by
  induction t with
  | nil => exact absurd (List.forall_mem_nil _) ht
  | cons b t ih =>
    by_cases hb : b < 0x80
    · have hrest : ¬Ascii t := fun h => ht (List.forall_mem_cons.mpr ⟨hb, h⟩)
      obtain ⟨u, c, w, rfl, hu, hc⟩ := ih hrest
      exact ⟨b :: u, c, w, rfl, List.forall_mem_cons.mpr ⟨hb, hu⟩, hc⟩
    · exact ⟨[], b, t, rfl, List.forall_mem_nil _, hb⟩

/-- Where two lists agree, their first large elements stand at the same place. -/
theorem high_inj {x y r s : List ℕ} {m n : ℕ} (hx : ∀ c ∈ x, c < 0x80) (hy : ∀ c ∈ y, c < 0x80)
    (hm : 0x80 ≤ m) (hn : 0x80 ≤ n) (h : x ++ m :: r = y ++ n :: s) : m = n ∧ r = s := by
  induction x generalizing y with
  | nil =>
    cases y with
    | nil =>
      cases h
      exact ⟨rfl, rfl⟩
    | cons c y =>
      have hc := hy c List.mem_cons_self
      cases h
      omega
  | cons c x ih =>
    have hc := hx c List.mem_cons_self
    cases y with
    | nil =>
      cases h
      omega
    | cons d y =>
      obtain ⟨-, hrest⟩ := List.cons.inj h
      exact ih (fun e he => hx e (List.mem_cons_of_mem _ he))
        (fun e he => hy e (List.mem_cons_of_mem _ he)) hrest

theorem Ascii.map_lt (ht : Ascii t) : ∀ c ∈ t.map UInt8.toNat, c < 0x80 := by
  intro c hc
  obtain ⟨b, hb, rfl⟩ := List.mem_map.mp hc
  exact UInt8.lt_iff_toNat_lt.mp (ht b hb)

/-- **Behind ASCII.** What the bytes decode to ends in the bytes themselves if and only if they are
ASCII: other bytes become fewer code points, or a replacement that is no byte. -/
theorem suffix_decode_iff {head : List ℕ} (hhead : ∀ c ∈ head, c < 0x80) :
    t.map UInt8.toNat <:+ head ++ decode t ↔ Ascii t := by
  constructor
  · intro hsuffix
    by_contra hnot
    obtain ⟨u, b, w, rfl, hu, hb⟩ := split_high hnot
    obtain ⟨hvalue, htaken, hreplaced⟩ := first_high hb w
    have hle := length_decodeFrom_le (first b w).2 w
    rw [decodeFrom_eq] at hle
    rw [decode_ascii_append hu, decode_cons, ← List.append_assoc] at hsuffix
    -- the decoded bytes are not longer, so the bytes end in the last part of them
    have hlast : (first b w).1 :: decode (w.drop (first b w).2) <:+
        (u ++ b :: w).map UInt8.toNat := by
      refine List.suffix_of_suffix_length_le (List.suffix_append _ _) hsuffix ?_
      simp only [List.length_cons, List.length_map, List.length_append]
      omega
    obtain ⟨x, hx⟩ := hlast
    have hxlow : ∀ c ∈ x, c < 0x80 := by
      intro c hc
      rw [← hx] at hsuffix
      have hpart := ((List.suffix_append_inj_of_length_eq rfl).mp hsuffix).1
      rcases List.mem_append.mp (hpart.subset hc) with hc | hc
      · exact hhead c hc
      · exact hu.map_lt c hc
    rw [List.map_append, List.map_cons] at hx
    have hbyte : 0x80 ≤ b.toNat := not_lt.mp fun h => hb (UInt8.lt_iff_toNat_lt.mpr h)
    obtain ⟨hsame, hrest⟩ := high_inj hxlow hu.map_lt hvalue hbyte hx
    have hlen := congrArg List.length hrest
    rw [List.length_map] at hlen
    have hzero : (first b w).2 = 0 := by omega
    have hb' := b.toNat_lt
    rw [← hsame, hreplaced hzero, replacement] at hb'
    omega
  · intro ht
    rw [decode_ascii ht]
    exact List.suffix_append _ _

/-- **ASCII decodes like nothing else.** -/
theorem decode_inj (ht : Ascii t) (h : decode t = decode u) : t = u := by
  rw [decode_ascii ht] at h
  by_cases hu : Ascii u
  · rw [decode_ascii hu] at h
    exact (List.map_injective_iff.mpr fun a b => UInt8.toNat_inj.mp) h
  · -- other bytes decode to something that is not ASCII
    obtain ⟨v, b, w, rfl, hv, hb⟩ := split_high hu
    rw [decode_ascii_append hv, decode_cons] at h
    have hmem : (first b w).1 ∈ t.map UInt8.toNat := by
      rw [h]
      exact List.mem_append_right _ List.mem_cons_self
    have hlow := ht.map_lt _ hmem
    have hhigh := (first_high hb w).1
    omega

end

end ZbAt.Utf8
