import ZbAt.Deferred
import ZbAt.XcastProof

/-!
# Numbers in arguments (zb_msg.c, zb_core.c)

`AT+BCAST` and `AT+JPAN` read a decimal number with `strtol` and then compare where it stopped
with where the number should end. `strtol` also reads blanks and a sign.

* `strtol_append` — `strtol` stops at a character that it does not know.
* `BcastText`, `JpanText` — the texts that are meant.
* `bcast_passes_iff`, `jpan_starts_iff` — the texts that are accepted.
* `args_iff` — these are the texts that are meant, except where blanks or a sign stand in front of
  the digits.
-/

namespace ZbAt.Text

variable {f : Text} {c : UInt8}

/-! ## strtol -/

/-- A character at which `strtol` stops, wherever it stands. -/
def Stop (c : UInt8) : Prop := isspace c = false ∧ isdigit c = false ∧ c ≠ 45 ∧ c ≠ 43

theorem dropWhile_stop {p : UInt8 → Bool} (hc : p c = false) (f rest : Text) :
    (f ++ c :: rest).dropWhile p = f.dropWhile p ++ c :: rest := by
  induction f with
  | nil => simp [hc]
  | cons d f ih =>
    rw [List.cons_append, List.dropWhile_cons, List.dropWhile_cons]
    by_cases hd : p d = true
    · rw [if_pos hd, if_pos hd, ih]
    · rw [if_neg hd, if_neg hd, List.cons_append]

theorem takeWhile_stop {p : UInt8 → Bool} (hc : p c = false) (f rest : Text) :
    (f ++ c :: rest).takeWhile p = f.takeWhile p := by
  induction f with
  | nil => simp [hc]
  | cons d f ih =>
    rw [List.cons_append, List.takeWhile_cons, List.takeWhile_cons]
    by_cases hd : p d = true
    · rw [if_pos hd, if_pos hd, ih]
    · rw [if_neg hd, if_neg hd]

theorem signOf_append (hc : Stop c) (f rest : Text) :
    signOf (f ++ c :: rest) = ((signOf f).1, (signOf f).2 ++ c :: rest) := by
  obtain ⟨hspace, -, hminus, hplus⟩ := hc
  simp only [signOf, dropWhile_stop hspace]
  cases f.dropWhile isspace with
  | nil => simp [hminus, hplus]
  | cons d t =>
    by_cases hm : d = 45
    · subst hm
      rfl
    · by_cases hp : d = 43
      · subst hp
        rfl
      · simp [hm, hp]

/-- `strtol` stops at such a character. -/
theorem strtol_append (hc : Stop c) (f rest : Text) :
    strtol (f ++ c :: rest) = ((strtol f).1, (strtol f).2 ++ c :: rest) := by
  simp only [strtol, signOf_append hc, takeWhile_stop hc.2.1, dropWhile_stop hc.2.1]
  split_ifs
  · rfl
  · rfl

/-- What `strtol` leaves is the end of the text. -/
theorem strtol_suffix (t : Text) : (strtol t).2 <:+ t := by
  have hsign : (signOf t).2 <:+ t := by
    have hdrop := List.dropWhile_suffix (l := t) isspace
    unfold signOf
    split
    · next h => exact (List.suffix_cons _ _).trans (h ▸ hdrop)
    · next h => exact (List.suffix_cons _ _).trans (h ▸ hdrop)
    · exact hdrop
  unfold strtol
  dsimp only
  split_ifs
  · exact List.suffix_rfl
  · exact (List.dropWhile_suffix _).trans hsign

end ZbAt.Text

namespace ZbAt.Args

open Text Sreg Tx Match Xcast Zbc

/-! ## The texts -/

/-- Only decimal digits. -/
def DigitsOnly (f : Text) : Prop := ∀ c ∈ f, isdigit c = true

/-- A number from `lo` to `hi`, written with digits only. -/
def Number (lo hi : ℕ) (f : Text) : Prop :=
  f ≠ [] ∧ DigitsOnly f ∧ lo ≤ number 10 (digitVals f) ∧ number 10 (digitVals f) ≤ hi

/-- A number from `lo` to `hi`, with blanks or a sign in front of its digits. -/
def Padded (lo hi : ℕ) (f : Text) : Prop :=
  ¬DigitsOnly f ∧ ∃ n : ℤ, decValue f = some n ∧ lo ≤ n ∧ n ≤ hi

/-- `:<nn>,<data>`, with the two characters of the number as `P` says. -/
def BcastForm (P : Text → Prop) (args : Text) : Prop :=
  ∃ f data, args = 58 :: (f ++ 44 :: data) ∧ f.length = 2 ∧ P f ∧ data.length ≤ payloadMax

/-- Exactly 4 or exactly 16 hex digits. -/
def IsId (id : Text) : Prop := (id.length = 4 ∨ id.length = 16) ∧ ∀ c ∈ id, isxdigit c = true

/-- `:<channel>,<PID or EPID>`, with the number as `P` says. -/
def JpanForm (P : Text → Prop) (args : Text) : Prop :=
  ∃ f id, args = 58 :: (f ++ 44 :: id) ∧ P f ∧ IsId id

/-- Two digits, `00` to `30`, and data that fits. -/
def BcastText : Text → Prop := BcastForm (Number 0 30)

/-- A channel, `11` to `26`, and a PAN ID or an extended PAN ID. -/
def JpanText : Text → Prop := JpanForm (Number 11 26)

/-- `cmd_bcast` comes to `submit`. -/
def Passes (node : Node) (args : Text) : Prop := (cmdBcast node args).submitted ≠ []

/-- `cmd_jpan` comes to `start_network`. -/
def Starts (args : Text) (r : Regs) : Prop :=
  ∃ channel epid, Deferred.cmdJpan args r = .jpan channel epid r

/-! ## Numbers -/

section

variable {f : Text} {lo hi : ℕ}

theorem stop_comma : Stop 44 := ⟨rfl, rfl, by decide, by decide⟩

/-- A number has no comma. -/
theorem comma_not_mem {n : ℤ} (h : decValue f = some n) : 44 ∉ f := by
  intro hm
  obtain ⟨a, b, rfl⟩ := List.append_of_mem hm
  have hwhole := strtol_decValue h
  rw [strtol_append stop_comma] at hwhole
  exact List.append_ne_nil_of_right_ne_nil _ (List.cons_ne_nil _ _) (congrArg Prod.snd hwhole)

theorem decValue_digitsOnly (hne : f ≠ []) (h : DigitsOnly f) :
    decValue f = some (number 10 (digitVals f) : ℤ) := by
  have hsign := signOf_digits fun c hc => isxdigit_of_isdigit (h c hc)
  unfold decValue
  rw [hsign]
  exact if_pos ⟨hne, List.all_eq_true.mpr h⟩

/-- The numbers that `strtol` reads, with digits only or not. -/
theorem number_or_padded :
    (∃ n : ℤ, decValue f = some n ∧ lo ≤ n ∧ n ≤ hi) ↔ Number lo hi f ∨ Padded lo hi f := by
  constructor
  · intro h
    by_cases hdigits : DigitsOnly f
    · obtain ⟨n, hn, hlo, hhi⟩ := h
      have hne : f ≠ [] := by
        rintro rfl
        cases hn
      rw [decValue_digitsOnly hne hdigits, Option.some_inj] at hn
      exact .inl ⟨hne, hdigits, by omega, by omega⟩
    · exact .inr ⟨hdigits, h⟩
  · rintro (⟨hne, hdigits, hlo, hhi⟩ | ⟨-, h⟩)
    · exact ⟨_, decValue_digitsOnly hne hdigits, by omega, by omega⟩
    · exact h

/-- What `strtol` reads up to a comma, if it lies between these bounds. -/
theorem strtol_number (hf : f ≠ [] ∨ 0 < lo) (hhi : (hi : ℤ) < longMax) (rest : Text) :
    ((strtol (f ++ 44 :: rest)).2 = 44 :: rest ∧ lo ≤ (strtol (f ++ 44 :: rest)).1 ∧
        (strtol (f ++ 44 :: rest)).1 ≤ hi) ↔ Number lo hi f ∨ Padded lo hi f := by
  have hclamp : ∀ n : ℤ, (lo ≤ clampLong n ∧ clampLong n ≤ hi) ↔ (lo ≤ n ∧ n ≤ hi) := by
    intro n
    unfold clampLong
    unfold longMax at hhi ⊢
    omega
  have hend : ∀ u : Text, u ++ 44 :: rest = 44 :: rest ↔ u = [] := fun u =>
    ⟨fun h => List.append_cancel_right (h.trans (List.nil_append _).symm), fun h => h ▸ rfl⟩
  rw [strtol_append stop_comma, ← number_or_padded]
  dsimp only
  rw [hend]
  constructor
  · rintro ⟨hend, hlo, hhi⟩
    have hne : f ≠ [] := by
      rintro rfl
      have hzero : (strtol []).1 = 0 := rfl
      rw [hzero] at hlo
      exact hf.elim (fun h => h rfl) (by omega)
    obtain ⟨n, hn⟩ := Option.isSome_iff_exists.mp (decValue_of_strtol hne hend)
    rw [strtol_decValue hn] at hlo hhi
    exact ⟨n, hn, (hclamp n).mp ⟨hlo, hhi⟩⟩
  · rintro ⟨n, hn, hbounds⟩
    rw [strtol_decValue hn]
    exact ⟨rfl, (hclamp n).mpr hbounds⟩

end

/-! ## AT+BCAST -/

theorem BcastForm.or {P Q : Text → Prop} {args : Text} :
    BcastForm (fun f => P f ∨ Q f) args ↔ BcastForm P args ∨ BcastForm Q args := by
  constructor
  · rintro ⟨f, data, hargs, hlen, hP | hQ, hdata⟩
    · exact .inl ⟨f, data, hargs, hlen, hP, hdata⟩
    · exact .inr ⟨f, data, hargs, hlen, hQ, hdata⟩
  · rintro (⟨f, data, hargs, hlen, hP, hdata⟩ | ⟨f, data, hargs, hlen, hQ, hdata⟩)
    · exact ⟨f, data, hargs, hlen, .inl hP, hdata⟩
    · exact ⟨f, data, hargs, hlen, .inr hQ, hdata⟩

/-- The checks behind the colon. -/
theorem passes_colon {node : Node} (hjoined : node.joined = true) (t : Text) :
    Passes node (58 :: t) ↔ (strtol t).2.length + 2 = t.length ∧ (strtol t).2.head? = some 44 ∧
      0 ≤ (strtol t).1 ∧ (strtol t).1 ≤ 30 ∧ ((strtol t).2.drop 1).length ≤ payloadMax := by
  unfold Passes cmdBcast
  rw [hjoined, if_neg (by decide)]
  split
  · next t' heq =>
    cases heq
    dsimp only
    by_cases hbad : (strtol t).2.length + 2 ≠ t.length ∨ (strtol t).2.head? ≠ some 44 ∨
        (strtol t).1 < 0 ∨ (strtol t).1 > 30
    · rw [if_pos hbad]
      refine iff_of_false (fun h => h rfl) fun h => ?_
      obtain ⟨hlen, hhead, hlo, hhi, -⟩ := h
      rcases hbad with hb | hb | hb | hb
      · exact hb hlen
      · exact hb hhead
      · omega
      · omega
    · rw [if_neg hbad]
      simp only [not_or, not_not, not_lt, gt_iff_lt] at hbad
      by_cases hlong : ((strtol t).2.drop 1).length > payloadMax
      · rw [if_pos hlong]
        exact iff_of_false (fun h => h rfl) fun h => absurd hlong (Nat.not_lt.mpr h.2.2.2.2)
      · rw [if_neg hlong]
        refine iff_of_true (List.cons_ne_nil _ _) ?_
        exact ⟨hbad.1, hbad.2.1, hbad.2.2.1, hbad.2.2.2, Nat.not_lt.mp hlong⟩
  · next hno => exact absurd rfl (hno t)

theorem exists_colon {node : Node} {args : Text} (h : Passes node args) : ∃ t, args = 58 :: t := by
  unfold Passes cmdBcast at h
  split_ifs at h
  · exact absurd rfl h
  · split at h
    · exact ⟨_, rfl⟩
    · exact absurd rfl h

/-- What `AT+BCAST` accepts. -/
theorem passes_iff {node : Node} (hjoined : node.joined = true) (args : Text) :
    Passes node args ↔ BcastForm (fun f => Number 0 30 f ∨ Padded 0 30 f) args := by
  have hbound : ((30 : ℕ) : ℤ) < longMax := by decide
  constructor
  · intro h
    obtain ⟨t, rfl⟩ := exists_colon h
    obtain ⟨hlen, hhead, hlo, hhi, hdata⟩ := (passes_colon hjoined t).mp h
    obtain ⟨f, hsplit⟩ := strtol_suffix t
    obtain ⟨data, hstop⟩ := List.head?_eq_some_iff.mp hhead
    have hf : f.length = 2 := by
      have htotal := congrArg List.length hsplit
      rw [List.length_append] at htotal
      omega
    have hne : f ≠ [] := by
      rintro rfl
      cases hf
    have ht : t = f ++ 44 :: data := by rw [← hstop, hsplit]
    rw [hstop] at hdata
    rw [ht] at hstop hlo hhi
    exact ⟨f, data, congrArg _ ht, hf, (strtol_number (.inl hne) hbound data).mp ⟨hstop, hlo, hhi⟩,
      hdata⟩
  · rintro ⟨f, data, rfl, hlen, hnumber, hdata⟩
    have hne : f ≠ [] := by
      rintro rfl
      cases hlen
    obtain ⟨hstop, hlo, hhi⟩ := (strtol_number (.inl hne) hbound data).mpr hnumber
    rw [passes_colon hjoined, hstop]
    refine ⟨?_, rfl, hlo, hhi, hdata⟩
    rw [List.length_append]
    omega

/-- Padding is no digit. -/
theorem bcastForm_disjoint {args : Text} (h : BcastText args) : ¬BcastForm (Padded 0 30) args := by
  obtain ⟨f, data, rfl, hlen, hnumber, -⟩ := h
  rintro ⟨f', data', hargs, hlen', hpadded, -⟩
  obtain ⟨hf, -⟩ := List.append_inj (List.cons.inj hargs).2 (hlen.trans hlen'.symm)
  exact hpadded.1 (hf ▸ hnumber.2.1)

/-! ## AT+JPAN -/

theorem JpanForm.or {P Q : Text → Prop} {args : Text} :
    JpanForm (fun f => P f ∨ Q f) args ↔ JpanForm P args ∨ JpanForm Q args := by
  constructor
  · rintro ⟨f, id, hargs, hP | hQ, hid⟩
    · exact .inl ⟨f, id, hargs, hP, hid⟩
    · exact .inr ⟨f, id, hargs, hQ, hid⟩
  · rintro (⟨f, id, hargs, hP, hid⟩ | ⟨f, id, hargs, hQ, hid⟩)
    · exact ⟨f, id, hargs, .inl hP, hid⟩
    · exact ⟨f, id, hargs, .inr hQ, hid⟩

theorem isSome_parseRev {id : Text} (h : id.length = 16) :
    (atParseHexRev id 8).isSome = true ↔ ∀ c ∈ id, isxdigit c = true := by
  rw [atParseHexRev, parseHexPairs_eq h, Option.isSome_map]
  constructor
  · intro hsome
    obtain ⟨bs, hbs⟩ := Option.isSome_iff_exists.mp hsome
    exact (hexBytes_eq_some hbs).1
  · intro hall
    exact hexBytes_isSome hall (by omega)

theorem isSome_parseN {id : Text} (h : id.length = 4) :
    (atParseHexN id 4).isSome = true ↔ ∀ c ∈ id, isxdigit c = true := by
  rw [atParseHexN_eq (by decide) (by decide), if_neg (by omega), List.take_of_length_le (by omega)]
  unfold hexValue
  by_cases hall : id.all isxdigit = true
  · rw [if_pos hall]
    exact iff_of_true rfl (List.all_eq_true.mp hall)
  · rw [if_neg hall]
    exact iff_of_false Bool.false_ne_true fun h => hall (List.all_eq_true.mpr h)

/-- The checks of the channel and of what follows its comma. -/
theorem starts_cut {f : Text} (hf : 44 ∉ f) (id : Text) (r : Regs) :
    Starts (58 :: (f ++ 44 :: id)) r ↔ ((strtol (f ++ 44 :: id)).2 = 44 :: id ∧
      11 ≤ (strtol (f ++ 44 :: id)).1 ∧ (strtol (f ++ 44 :: id)).1 ≤ 26) ∧ IsId id := by
  have hcut : strchr (58 :: (f ++ 44 :: id)) 44 = some id :=
    (@takeWhile_cut 44 (58 :: f) (List.not_mem_cons_of_ne_of_not_mem (by decide) hf) id).2
  have hdrop : (58 :: (f ++ 44 :: id)).drop 1 = f ++ 44 :: id := rfl
  unfold Starts Deferred.cmdJpan
  rw [hcut, hdrop]
  dsimp only
  by_cases hbad : (58 :: (f ++ 44 :: id)).head? ≠ some 58 ∨ (strtol (f ++ 44 :: id)).2 ≠ 44 :: id ∨
      (strtol (f ++ 44 :: id)).1 < 11 ∨ 26 < (strtol (f ++ 44 :: id)).1
  · rw [if_pos hbad]
    refine iff_of_false ?_ ?_
    · rintro ⟨channel, epid, h⟩
      cases h
    · rintro ⟨⟨hend, hlo, hhi⟩, -⟩
      rcases hbad with hb | hb | hb | hb
      · exact hb rfl
      · exact hb hend
      · omega
      · omega
  · rw [if_neg hbad]
    simp only [not_or, not_not, not_lt] at hbad
    rw [and_iff_right hbad.2]
    by_cases h16 : id.length = 16
    · have h4 : ¬id.length = 4 := by omega
      have hparse := isSome_parseRev h16
      rw [if_pos h16]
      cases hrev : atParseHexRev id 8 with
      | some epid =>
        rw [hrev] at hparse
        exact iff_of_true ⟨_, _, rfl⟩ ⟨.inr h16, hparse.mp rfl⟩
      | none =>
        rw [hrev] at hparse
        dsimp only
        rw [if_neg fun h => h4 h.1]
        refine iff_of_false ?_ fun h => Bool.false_ne_true (hparse.mpr h.2)
        rintro ⟨channel, epid, h⟩
        cases h
    · rw [if_neg h16]
      dsimp only
      by_cases hok : id.length = 4 ∧ (atParseHexN id 4).isSome = true
      · rw [if_pos hok]
        exact iff_of_true ⟨_, _, rfl⟩ ⟨.inl hok.1, (isSome_parseN hok.1).mp hok.2⟩
      · rw [if_neg hok]
        refine iff_of_false ?_ ?_
        · rintro ⟨channel, epid, h⟩
          cases h
        · rintro ⟨h4 | h16', hall⟩
          · exact hok ⟨h4, (isSome_parseN h4).mpr hall⟩
          · exact h16 h16'

/-- A command that starts has a colon and a comma. -/
theorem exists_cut {args : Text} {r : Regs} (h : Starts args r) :
    ∃ f id, args = 58 :: (f ++ 44 :: id) ∧ 44 ∉ f := by
  obtain ⟨channel, epid, h⟩ := h
  unfold Deferred.cmdJpan at h
  rcases strchr_cut (t := args) (c := 44) with ⟨hnone, -⟩ | ⟨id, hsome, hsplit⟩
  · rw [hnone] at h
    cases h
  · rw [hsome] at h
    dsimp only at h
    by_cases hbad : args.head? ≠ some 58 ∨ (strtol (args.drop 1)).2 ≠ 44 :: id ∨
        (strtol (args.drop 1)).1 < 11 ∨ 26 < (strtol (args.drop 1)).1
    · rw [if_pos hbad] at h
      cases h
    · simp only [not_or, not_not] at hbad
      obtain ⟨t, rfl⟩ := List.head?_eq_some_iff.mp hbad.1
      have hno := not_mem_takeWhile_bne (58 :: t) 44
      have htake : (58 :: t).takeWhile (· != 44) = 58 :: t.takeWhile (· != 44) := rfl
      rw [htake] at hsplit hno
      exact ⟨_, id, hsplit, fun hm => hno (List.mem_cons_of_mem _ hm)⟩

theorem Number.no_comma {lo hi : ℕ} {f : Text} (h : Number lo hi f) : 44 ∉ f := by
  obtain ⟨n, hn, -⟩ := number_or_padded.mpr (.inl h : Number lo hi f ∨ Padded lo hi f)
  exact comma_not_mem hn

theorem Padded.no_comma {lo hi : ℕ} {f : Text} (h : Padded lo hi f) : 44 ∉ f := by
  obtain ⟨-, n, hn, -⟩ := h
  exact comma_not_mem hn

/-- What `AT+JPAN` accepts. -/
theorem starts_iff (args : Text) (r : Regs) :
    Starts args r ↔ JpanForm (fun f => Number 11 26 f ∨ Padded 11 26 f) args := by
  have hbound : ((26 : ℕ) : ℤ) < longMax := by decide
  constructor
  · intro h
    obtain ⟨f, id, rfl, hf⟩ := exists_cut h
    obtain ⟨hnumber, hid⟩ := (starts_cut hf id r).mp h
    exact ⟨f, id, rfl, (strtol_number (.inr (by decide)) hbound id).mp hnumber, hid⟩
  · rintro ⟨f, id, rfl, hnumber, hid⟩
    have hf : 44 ∉ f := hnumber.elim Number.no_comma Padded.no_comma
    exact (starts_cut hf id r).mpr
      ⟨(strtol_number (.inr (by decide)) hbound id).mpr hnumber, hid⟩

theorem jpanForm_disjoint {args : Text} (h : JpanText args) : ¬JpanForm (Padded 11 26) args := by
  obtain ⟨f, id, rfl, hnumber, -⟩ := h
  rintro ⟨f', id', hargs, hpadded, -⟩
  have hf := (takeWhile_cut hnumber.no_comma id).1
  rw [(List.cons.inj hargs).2, (takeWhile_cut hpadded.no_comma id').1] at hf
  exact hpadded.1 (hf ▸ hnumber.2.1)

/-! ## The texts that are meant -/

/-- **Arguments.** The two commands accept the texts that are meant, except where blanks or a sign
stand in front of the digits of an otherwise good text. -/
theorem args_iff {node : Node} (hjoined : node.joined = true) (r : Regs) (args : Text) :
    ((Passes node args ↔ BcastText args) ↔ ¬BcastForm (Padded 0 30) args) ∧
      ((Starts args r ↔ JpanText args) ↔ ¬JpanForm (Padded 11 26) args) := by
  have hexact : ∀ {p q u : Prop}, (p ↔ q ∨ u) → (q → ¬u) → ((p ↔ q) ↔ ¬u) := by tauto
  constructor
  · exact hexact ((passes_iff hjoined args).trans BcastForm.or) bcastForm_disjoint
  · exact hexact ((starts_iff args r).trans JpanForm.or) jpanForm_disjoint

theorem args_iff_five :
    ((Passes sampleNode (ascii ":05,hi") ↔ BcastText (ascii ":05,hi")) ↔
        ¬BcastForm (Padded 0 30) (ascii ":05,hi")) ∧
      ((Starts (ascii ":05,hi") anyRegs ↔ JpanText (ascii ":05,hi")) ↔
        ¬JpanForm (Padded 11 26) (ascii ":05,hi")) :=
  args_iff rfl anyRegs (ascii ":05,hi")

/-- A sign in front of the hops, and a blank in front of the channel. -/
theorem args_padded :
    (Passes sampleNode (ascii ":+5,hi") ∧ ¬BcastText (ascii ":+5,hi")) ∧
      Starts (ascii ": 11,1A62") anyRegs ∧ ¬JpanText (ascii ": 11,1A62") := by
  have hplus : BcastForm (Padded 0 30) (ascii ":+5,hi") :=
    ⟨ascii "+5", ascii "hi", rfl, rfl, ⟨by unfold DigitsOnly; decide, 5, rfl, by decide, by decide⟩,
      by decide⟩
  have hblank : JpanForm (Padded 11 26) (ascii ": 11,1A62") :=
    ⟨ascii " 11", ascii "1A62", rfl,
      ⟨by unfold DigitsOnly; decide, 11, rfl, by decide, by decide⟩, .inl rfl,
      List.all_eq_true.mp (by decide)⟩
  refine ⟨⟨?_, fun h => bcastForm_disjoint h hplus⟩, ?_, fun h => jpanForm_disjoint h hblank⟩
  · rw [passes_iff rfl, BcastForm.or]
    exact .inr hplus
  · rw [starts_iff, JpanForm.or]
    exact .inr hblank

end ZbAt.Args
