import ZbAt.Sreg

/-!
# What the texts of S-registers mean

A register's text denotes a number, bytes, a text or a list of cluster IDs (`denote`), by the
grammar of its type, and each such value has one canonical text (`encode`).

* `normalise_eq` — `normalise` accepts the texts that denote a value, and gives its canonical
  text.
* `denote_encode` — the canonical text of a value denotes it.
* `sregU32_eq` and its siblings — the readers of the firmware return the value denoted.
-/

namespace ZbAt.Sreg

open Text

/-- The value of a register. -/
inductive RegValue
  | num (n : ℕ)
  | int (v : ℤ)
  | bytes (bs : List UInt8)
  | text (t : Text)
  | ids (l : List UInt16)
  deriving DecidableEq

/-! ## Cluster lists -/

/-- The cluster ID that a group denotes: four hex digits. -/
def groupId (g : Text) : Option UInt16 :=
  if g.length = 4 then (hexValue g).map Nat.toUInt16 else none

/-- The IDs of a list of groups, all of which must be IDs. -/
def groupIds : List Text → Option (List UInt16)
  | [] => some []
  | g :: gs => (groupId g).bind fun v => (groupIds gs).map (v :: ·)

/-- The IDs that a text denotes: nothing, or groups between commas. -/
def idList (t : Text) : Option (List UInt16) := if t = [] then some [] else groupIds (t.splitOn 44)

/-- The canonical text of a list of IDs. -/
def idsText (l : List UInt16) : Text := [44].intercalate (l.map fun i => hexText 4 i.toNat)

theorem groupId_eq_some {g : Text} {v : UInt16} (h : groupId g = some v) :
    g.length = 4 ∧ hexValue g = some v.toNat ∧ 44 ∉ g := by
  unfold groupId at h
  split_ifs at h with hlen
  obtain ⟨n, hn, rfl⟩ := Option.map_eq_some_iff.mp h
  obtain ⟨hall, hlt, -⟩ := hexValue_eq_some hn
  rw [hlen] at hlt
  refine ⟨hlen, ?_, ?_⟩
  · rw [hn, UInt16.toNat_ofNat_of_lt' hlt]
  · intro hm
    exact absurd (hall 44 hm) (by decide)

theorem groupId_hexText (v : UInt16) : groupId (hexText 4 v.toNat) = some v := by
  rw [groupId, if_pos (length_hexText v.toNat_lt), hexValue_hexText]
  simp

/-- `t` starts with a group for the ID `v`, and `s` is what follows it and its comma. -/
inductive Group : Text → UInt16 → Text → Prop
  | last {g : Text} {v : UInt16} (hg : groupId g = some v) : Group g v []
  | more {g s : Text} {v : UInt16} (hg : groupId g = some v) (hs : s ≠ []) :
      Group (g ++ 44 :: s) v s

variable {t s : Text} {v : UInt16}

theorem Group.idList_eq (h : Group t v s) : idList t = (idList s).map (v :: ·) := by
  cases h with
  | last hg =>
    obtain ⟨hlen, -, hno⟩ := groupId_eq_some hg
    have hne : t ≠ [] := List.ne_nil_of_length_pos (by omega)
    rw [idList, if_neg hne, List.splitOn_eq_singleton hno, groupIds, hg]
    rfl
  | more hg hs =>
    obtain ⟨-, -, hno⟩ := groupId_eq_some hg
    rw [idList, if_neg (by simp), List.splitOn_append_cons_self_of_not_mem hno, groupIds, hg,
      idList, if_neg hs]
    rfl

theorem Group.take_drop (h : Group t v s) : 4 ≤ t.length ∧ groupId (t.take 4) = some v ∧
    ((t.drop 4 = [] ∧ s = []) ∨ (t.drop 4 = 44 :: s ∧ s ≠ [])) := by
  cases h with
  | last hg =>
    obtain ⟨hlen, -⟩ := groupId_eq_some hg
    exact ⟨by omega, by rwa [List.take_of_length_le (by omega)],
      .inl ⟨List.drop_of_length_le (by omega), rfl⟩⟩
  | more hg hs =>
    obtain ⟨hlen, -⟩ := groupId_eq_some hg
    exact ⟨by rw [List.length_append]; omega, by rwa [List.take_left' hlen],
      .inr ⟨List.drop_left' hlen, hs⟩⟩

theorem getElem?_drop_four (i : ℕ) : (t.drop 4)[i]? = t[4 + i]? := List.getElem?_drop

theorem Group.nextGroup_eq (h : Group t v s) : nextGroup t = s := by
  obtain ⟨-, -, ⟨hd, rfl⟩ | ⟨hd, -⟩⟩ := h.take_drop
  · have h4 : t[4]? = none := by rw [← getElem?_drop_four 0, hd]; rfl
    rw [nextGroup, h4]
    exact hd
  · have h4 : t[4]? = some 44 := by rw [← getElem?_drop_four 0, hd]; rfl
    rw [nextGroup, if_pos h4, ← List.drop_drop (i := 1) (j := 4), hd]
    rfl

theorem Group.parse_eq (h : Group t v s) : atParseHexN t 4 = some v.toNat := by
  obtain ⟨hlen, hg, -⟩ := h.take_drop
  rw [atParseHexN_eq (by decide) (by decide), if_neg (by omega)]
  exact (groupId_eq_some hg).2.1

/-- A text that denotes IDs starts with a group. -/
theorem exists_group {l : List UInt16} (ht : t ≠ []) (h : idList t = some l) :
    ∃ v s, Group t v s := by
  rw [idList, if_neg ht] at h
  have hg : 44 ∉ t.takeWhile (· != 44) := fun hm => by
    simpa using List.mem_takeWhile_imp hm
  have hsplit := List.takeWhile_append_dropWhile (p := (· != 44)) (l := t)
  generalize t.takeWhile (· != 44) = g at hg hsplit
  cases hd : t.dropWhile (· != 44) with
  | nil =>
    rw [hd, List.append_nil] at hsplit
    subst hsplit
    rw [List.splitOn_eq_singleton hg] at h
    obtain ⟨v, hv, -⟩ := Option.bind_eq_some_iff.mp h
    exact ⟨v, [], .last hv⟩
  | cons c s =>
    have hc : c = 44 := by simpa [hd] using List.head?_dropWhile_not (· != 44) t
    subst hc
    rw [hd] at hsplit
    subst hsplit
    rw [List.splitOn_append_cons_self_of_not_mem hg] at h
    obtain ⟨v, hv, hm⟩ := Option.bind_eq_some_iff.mp h
    refine ⟨v, s, .more hv ?_⟩
    rintro rfl
    cases hm

/-- The test of the loop passes exactly at a group. -/
theorem badGroup_eq_false : badGroup t = false ↔ ∃ v s, Group t v s := by
  have h4 : t[4]? = (t.drop 4)[0]? := (getElem?_drop_four 0).symm
  have h5 : t[5]? = (t.drop 4)[1]? := (getElem?_drop_four 1).symm
  constructor
  · intro h
    simp only [badGroup, Bool.or_eq_false_iff, decide_eq_false_iff_not, Nat.not_lt,
      Bool.not_eq_false', allHex, h4, h5] at h
    obtain ⟨⟨⟨hlen, hall⟩, hsep⟩, hend⟩ := h
    have hg : groupId (t.take 4) = some (number 16 (digitVals (t.take 4))).toUInt16 := by
      rw [groupId, if_pos (List.length_take_of_le hlen), hexValue, if_pos hall]
      rfl
    have ht := List.take_append_drop 4 t
    cases hd : t.drop 4 with
    | nil =>
      rw [hd, List.append_nil] at ht
      rw [ht] at hg
      exact ⟨_, [], .last hg⟩
    | cons c s =>
      have hc : c = 44 := by simpa [hd] using hsep
      subst hc
      have hs : s ≠ [] := by
        rintro rfl
        simp [hd] at hend
      rw [hd] at ht
      have hmore := Group.more hg hs
      rw [ht] at hmore
      exact ⟨_, s, hmore⟩
  · rintro ⟨v, s, h⟩
    obtain ⟨hlen, hg, hd⟩ := h.take_drop
    obtain ⟨-, hv, -⟩ := groupId_eq_some hg
    have hall := (hexValue_eq_some hv).1
    simp only [badGroup, Bool.or_eq_false_iff, decide_eq_false_iff_not, Nat.not_lt,
      Bool.not_eq_false', allHex, h4, h5, List.all_eq_true]
    refine ⟨⟨⟨hlen, hall⟩, ?_⟩, ?_⟩
    · rcases hd with ⟨hd, -⟩ | ⟨hd, -⟩ <;> simp [hd]
    · rcases hd with ⟨hd, -⟩ | ⟨hd, hs⟩
      · simp [hd]
      · cases s with
        | nil => exact absurd rfl hs
        | cons c s => simp [hd]

theorem idList_idsText (l : List UInt16) : idList (idsText l) = some l := by
  induction l with
  | nil => rfl
  | cons v l ih =>
    cases l with
    | nil =>
      rw [idsText, List.map_singleton, List.intercalate_singleton]
      exact (Group.last (groupId_hexText v)).idList_eq
    | cons w l =>
      have hne : idsText (w :: l) ≠ [] := by
        intro h
        rw [h] at ih
        cases ih
      rw [idsText, List.map_cons, List.map_cons, List.intercalate_cons_cons, List.append_assoc]
      exact (Group.more (groupId_hexText v) hne).idList_eq.trans (by rw [ih]; rfl)

/-- The text of a list of IDs with `sep` before it. -/
def sepText (sep : Text) (l : List UInt16) : Text := if l = [] then [] else sep ++ idsText l

theorem sepText_cons (sep : Text) (v : UInt16) (l : List UInt16) :
    sepText sep (v :: l) = sep ++ hexText 4 v.toNat ++ sepText [44] l := by
  cases l with
  | nil => simp [sepText, idsText]
  | cons w l => simp [sepText, idsText, List.intercalate_cons_cons]

/-- The loop of `normalise` accepts a list of at most `left` IDs. -/
theorem normaliseClusters_eq (sep : Text) (left : ℕ) (t : Text) :
    normaliseClusters sep left t = match idList t with
      | some l => if l.length ≤ left then .ok (sepText sep l) else .error atErrInvalidParam
      | none => .error atErrInvalidParam := by
  induction left generalizing sep t with
  | zero =>
    cases t with
    | nil => rfl
    | cons c t =>
      rw [normaliseClusters]
      cases h : idList (c :: t) with
      | none => rfl
      | some l =>
        obtain ⟨v, s, hgr⟩ := exists_group (by simp) h
        obtain ⟨rest, -, rfl⟩ := Option.map_eq_some_iff.mp (hgr.idList_eq.symm.trans h)
        simp
  | succ left ih =>
    cases t with
    | nil => rfl
    | cons c t =>
      rw [normaliseClusters]
      split_ifs with hbad
      · cases h : idList (c :: t) with
        | none => rfl
        | some l =>
          have := badGroup_eq_false.mpr (exists_group (by simp) h)
          rw [this] at hbad
          cases hbad
      · obtain ⟨v, s, hgr⟩ := badGroup_eq_false.mp (by simpa using hbad)
        rw [hgr.idList_eq, hgr.nextGroup_eq, hgr.parse_eq, ih]
        cases idList s with
        | none => rfl
        | some l =>
          simp only [Option.map_some, List.length_cons, Nat.add_le_add_iff_right]
          split_ifs
          · rw [sepText_cons]; rfl
          · rfl

/-- The loop of `sreg_clusters` reads a list of IDs that fits. -/
theorem clustersLoop_eq {left : ℕ} {t : Text} {l : List UInt16} (h : idList t = some l)
    (hl : l.length ≤ left) : clustersLoop left t = l := by
  induction left generalizing t l with
  | zero => rw [List.eq_nil_of_length_eq_zero (Nat.le_zero.mp hl)]; rfl
  | succ left ih =>
    cases t with
    | nil => cases h; rfl
    | cons c t =>
      obtain ⟨v, s, hgr⟩ := exists_group (by simp) h
      obtain ⟨rest, hrest, rfl⟩ := Option.map_eq_some_iff.mp (hgr.idList_eq.symm.trans h)
      rw [clustersLoop, hgr.parse_eq, hgr.nextGroup_eq]
      dsimp only
      rw [ih hrest (Nat.le_of_succ_le_succ hl)]
      simp

/-! ## Values -/

/-- The number of hex digits in a register of this type. -/
def SregType.digits : SregType → ℕ
  | .u8 => 2
  | .u16 => 4
  | .hex64 => 16
  | .key128 => 32
  | _ => 0

/-- The value that a text denotes for a register. `S12` takes only numbers `0Cxx`. -/
def denote (r : SregInfo) (t : Text) : Option RegValue :=
  match r.type with
  | .u8 | .u16 =>
    if t.length = 0 ∨ r.type.digits < t.length then none
    else (hexValue t).bind fun n =>
      if r.id = 0x12 ∧ n / 256 ≠ 0x0C then none else some (.num n)
  | .s8 => (decValue t).bind fun v => if v < -40 ∨ 8 < v then none else some (.int v)
  | .hex64 | .key128 => if t.length = r.type.digits then (hexBytes t).map .bytes else none
  | .str => if r.maxLen < t.length then none else some (.text t)
  | .clusters => (idList t).bind fun l => if maxClusters < l.length then none else some (.ids l)
  | .dyn => none

/-- The canonical text of a value. -/
def encode (r : SregInfo) : RegValue → Text
  | .num n => hexText r.type.digits n
  | .int v => decText v
  | .bytes bs => bytesText bs
  | .text t => t
  | .ids l => idsText l

theorem atParseHexN_length {t : Text} (h0 : t.length ≠ 0) (h8 : t.length ≤ 8) :
    atParseHexN t t.length = hexValue t := by
  rw [atParseHexN_eq (by omega) h8, if_neg (by omega), List.take_length]

/-- What `normalise` does with a number. -/
theorem normalise_hex {r : SregInfo} (hr : r.type = .u8 ∨ r.type = .u16) (t : Text) :
    normalise r t =
      if t.length == 0 || t.length > r.type.digits then .error atErrInvalidParam
      else match atParseHexN t t.length with
        | none => .error atErrInvalidParam
        | some v =>
          if r.id == 0x12 && v >>> 8 != 0x0C then .error atErrInvalidParam
          else .ok (hexText r.type.digits v) := by
  rcases hr with hr | hr
  · simp only [normalise, hr]
    rfl
  · simp only [normalise, hr]
    rfl

theorem normalise_num {r : SregInfo} (hr : r.type = .u8 ∨ r.type = .u16) (t : Text) :
    normalise r t = match denote r t with
      | some x => .ok (encode r x)
      | none => .error atErrInvalidParam := by
  have hd : r.type.digits ≤ 8 := by rcases hr with hr | hr <;> rw [hr] <;> decide
  have hden : denote r t = if t.length = 0 ∨ r.type.digits < t.length then none
      else (hexValue t).bind fun n =>
        if r.id = 0x12 ∧ n / 256 ≠ 0x0C then none else some (.num n) := by
    rcases hr with hr | hr <;> simp only [denote, hr]
  rw [normalise_hex hr, hden]
  by_cases hlen : t.length = 0 ∨ r.type.digits < t.length
  · rw [if_pos (by simpa using hlen), if_pos hlen]
  · rw [if_neg (by simpa using hlen), if_neg hlen, atParseHexN_length (by omega) (by omega)]
    cases hexValue t with
    | none => rfl
    | some v =>
      dsimp only [Option.bind_some]
      rw [Nat.shiftRight_eq_div_pow]
      by_cases hid : r.id = 0x12 ∧ v / 256 ≠ 0x0C
      · rw [if_pos (by simpa using hid), if_pos hid]
      · rw [if_neg (by simpa using hid), if_neg hid]
        rfl

theorem normalise_bytes {r : SregInfo} (hr : r.type = .hex64 ∨ r.type = .key128) (t : Text) :
    normalise r t = match denote r t with
      | some x => .ok (encode r x)
      | none => .error atErrInvalidParam := by
  have hn : normalise r t =
      if t.length != r.type.digits || !allHex t t.length then .error atErrInvalidParam
      else .ok (t.map toupper) := by
    rcases hr with hr | hr <;> simp only [normalise, hr] <;> rfl
  have hden : denote r t =
      if t.length = r.type.digits then (hexBytes t).map .bytes else none := by
    rcases hr with hr | hr <;> simp only [denote, hr]
  have heven : r.type.digits % 2 = 0 := by rcases hr with hr | hr <;> rw [hr] <;> decide
  rw [hn, hden, allHex, List.take_length]
  by_cases hlen : t.length = r.type.digits
  · rw [if_pos hlen]
    cases hb : hexBytes t with
    | none =>
      have hall : ¬ ∀ c ∈ t, isxdigit c = true := fun h => by
        have := hexBytes_isSome h (by omega)
        rw [hb] at this
        cases this
      rw [if_pos (by simpa [hlen] using hall)]
      rfl
    | some bs =>
      obtain ⟨hall, -, htext⟩ := hexBytes_eq_some hb
      rw [if_neg (by simpa [hlen] using hall)]
      exact congrArg Except.ok htext.symm
  · rw [if_neg hlen, if_pos (by simp [hlen])]

/-- **Normalisation.** `normalise` accepts the texts that denote a value for the register, and
gives the canonical text of that value. -/
theorem normalise_eq {r : SregInfo} (hr : r.type ≠ .dyn) (t : Text) :
    normalise r t = match denote r t with
      | some x => .ok (encode r x)
      | none => .error atErrInvalidParam := by
  cases h : r.type with
  | u8 => exact normalise_num (.inl h) t
  | u16 => exact normalise_num (.inr h) t
  | hex64 => exact normalise_bytes (.inl h) t
  | key128 => exact normalise_bytes (.inr h) t
  | dyn => exact absurd h hr
  | str =>
    simp only [normalise, denote, h]
    split_ifs <;> rfl
  | clusters =>
    simp only [normalise, denote, h, normaliseClusters_eq]
    cases idList t with
    | none => rfl
    | some l =>
      simp only [Option.bind_some]
      by_cases hl : maxClusters < l.length
      · rw [if_neg (by omega), if_pos hl]
      · rw [if_pos (by omega), if_neg hl]
        cases l <;> rfl
  | s8 =>
    simp only [normalise, denote, h]
    cases hv : decValue t with
    | none =>
      have hbad : t.length = 0 ∨ (strtol t).2 ≠ [] := by
        by_contra hno
        rw [not_or, not_not, List.length_eq_zero_iff] at hno
        have := decValue_of_strtol hno.1 hno.2
        rw [hv] at this
        cases this
      rw [if_pos (by rcases hbad with hb | hb <;> simp [hb])]
      rfl
    | some v =>
      have hne : t.length ≠ 0 := fun h0 => by
        rw [List.length_eq_zero_iff.mp h0] at hv
        cases hv
      rw [strtol_decValue hv, Option.bind_some]
      by_cases hin : v < -40 ∨ 8 < v
      · have hc : clampLong v < -40 ∨ 8 < clampLong v := by
          unfold clampLong longMax
          omega
        rw [if_pos hin, if_pos (by rcases hc with hc | hc <;> simp [hc])]
      · have hc : clampLong v = v := by
          unfold clampLong longMax
          omega
        rw [if_neg hin, hc, if_neg (by simp [hne]; omega)]
        rfl

theorem normalise_dyn {r : SregInfo} (hr : r.type = .dyn) (t : Text) :
    normalise r t = .error atErrReadOnly := by
  simp only [normalise, hr]

/-- What a value says about the text that denotes it. -/
inductive Denotes (r : SregInfo) (t : Text) : RegValue → Prop
  | num {n : ℕ} (hr : r.type = .u8 ∨ r.type = .u16) (hn : hexValue t = some n)
      (hlt : n < 16 ^ r.type.digits) (hid : ¬(r.id = 0x12 ∧ n / 256 ≠ 0x0C)) :
      Denotes r t (.num n)
  | int {v : ℤ} (hr : r.type = .s8) (hv : decValue t = some v) (h0 : -40 ≤ v) (h8 : v ≤ 8) :
      Denotes r t (.int v)
  | bytes {bs : List UInt8} (hr : r.type = .hex64 ∨ r.type = .key128)
      (hb : hexBytes t = some bs) (hlen : 2 * bs.length = r.type.digits) : Denotes r t (.bytes bs)
  | text (hr : r.type = .str) (hlen : t.length ≤ r.maxLen) : Denotes r t (.text t)
  | ids {l : List UInt16} (hr : r.type = .clusters) (hl : idList t = some l)
      (hlen : l.length ≤ maxClusters) : Denotes r t (.ids l)

theorem denotes_of_denote {r : SregInfo} {t : Text} {x : RegValue} (h : denote r t = some x) :
    Denotes r t x := by
  cases hr : r.type with
  | u8 | u16 =>
    simp only [denote, hr] at h
    split_ifs at h with hlen
    obtain ⟨n, hn, hx⟩ := Option.bind_eq_some_iff.mp h
    split_ifs at hx with hid
    cases hx
    have hlt := (hexValue_eq_some hn).2.1
    refine .num (by simp [hr]) hn ?_ hid
    rw [hr]
    exact Nat.lt_of_lt_of_le hlt (Nat.pow_le_pow_right (by decide) (by omega))
  | s8 =>
    simp only [denote, hr] at h
    obtain ⟨v, hv, hx⟩ := Option.bind_eq_some_iff.mp h
    split_ifs at hx with hin
    cases hx
    exact .int hr hv (by omega) (by omega)
  | hex64 | key128 =>
    simp only [denote, hr] at h
    split_ifs at h with hlen
    obtain ⟨bs, hb, rfl⟩ := Option.map_eq_some_iff.mp h
    refine .bytes (by simp [hr]) hb ?_
    rw [hr, ← hlen, (hexBytes_eq_some hb).2.1]
  | str =>
    simp only [denote, hr] at h
    split_ifs at h with hlen
    cases h
    exact .text hr (by omega)
  | clusters =>
    simp only [denote, hr] at h
    obtain ⟨l, hl, hx⟩ := Option.bind_eq_some_iff.mp h
    split_ifs at hx with hlen
    cases hx
    exact .ids hr hl (by omega)
  | dyn => simp [denote, hr] at h

/-- The canonical text of a value denotes that value. -/
theorem Denotes.encode {r : SregInfo} {t : Text} {x : RegValue} (h : Denotes r t x) :
    denote r (encode r x) = some x := by
  cases h with
  | @num n hr hn hlt hid =>
    have hlen := length_hexText hlt
    have hpos : ¬((hexText r.type.digits n).length = 0 ∨
        r.type.digits < (hexText r.type.digits n).length) := by
      rcases hr with hr | hr <;> rw [hlen, hr] <;> decide
    have hd : denote r (hexText r.type.digits n) =
        if (hexText r.type.digits n).length = 0 ∨
          r.type.digits < (hexText r.type.digits n).length then none
        else (hexValue (hexText r.type.digits n)).bind fun n =>
          if r.id = 0x12 ∧ n / 256 ≠ 0x0C then none else some (.num n) := by
      rcases hr with hr | hr <;> simp only [denote, hr]
    rw [ZbAt.Sreg.encode, hd, if_neg hpos, hexValue_hexText, Option.bind_some, if_neg hid]
  | int hr hv h0 h8 =>
    simp only [ZbAt.Sreg.encode, denote, hr, decValue_decText, Option.bind_some]
    rw [if_neg (by omega)]
  | @bytes bs hr hb hlen =>
    have hlen' : (bytesText bs).length = r.type.digits := by
      obtain ⟨-, h2, ht⟩ := hexBytes_eq_some hb
      rw [ht, List.length_map, h2, hlen]
    rcases hr with hr | hr <;>
      simp only [ZbAt.Sreg.encode, denote, hr, hexBytes_bytesText, Option.map_some]
    · rw [if_pos (by rw [hlen', hr])]
    · rw [if_pos (by rw [hlen', hr])]
  | text hr hlen =>
    change denote r t = _
    simp only [denote, hr]
    exact if_neg (by omega)
  | ids hr hl hlen =>
    simp only [ZbAt.Sreg.encode, denote, hr, idList_idsText, Option.bind_some]
    rw [if_neg (by omega)]

theorem length_idsText (l : List UInt16) : (idsText l).length ≤ 5 * l.length := by
  induction l with
  | nil => simp [idsText]
  | cons v l ih =>
    have h4 := length_hexWord v
    cases l with
    | nil => simp [idsText, h4]
    | cons w l =>
      simp only [idsText, List.map_cons, List.intercalate_cons_cons, List.length_append,
        List.length_cons, List.length_nil, h4] at ih ⊢
      omega

/-- The canonical text of a value fits in a register with its terminator. -/
theorem Denotes.length_encode {r : SregInfo} {t : Text} {x : RegValue} (h : Denotes r t x)
    (hmax : r.maxLen < valMax) : (ZbAt.Sreg.encode r x).length + 1 ≤ valMax := by
  cases h with
  | num hr hn hlt hid =>
    rw [ZbAt.Sreg.encode, length_hexText hlt]
    rcases hr with hr | hr <;> rw [hr] <;> decide
  | @int v hr hv h0 h8 =>
    have hlen : (decDigits 2 v.natAbs).length = 2 := by
      rw [decDigits, List.length_map, length_printNum (by decide) (by omega)]
    simp only [ZbAt.Sreg.encode, decText]
    split_ifs
    · rw [List.length_cons, hlen]; decide
    · rw [hlen]; decide
  | bytes hr hb hlen =>
    obtain ⟨-, h2, ht⟩ := hexBytes_eq_some hb
    rw [ZbAt.Sreg.encode, ht, List.length_map, h2, hlen]
    rcases hr with hr | hr <;> rw [hr] <;> decide
  | text hr hlen =>
    change t.length + 1 ≤ valMax
    omega
  | ids hr hl hlen =>
    rw [ZbAt.Sreg.encode]
    exact Nat.le_trans (Nat.succ_le_succ (length_idsText _)) (by
      simp only [maxClusters, valMax] at hlen ⊢
      omega)

/-- Normalising does not change a canonical text. -/
theorem normalise_idem {r : SregInfo} {t u : Text} (h : normalise r t = .ok u) :
    ∃ x, Denotes r t x ∧ u = encode r x ∧ normalise r u = .ok u := by
  by_cases hr : r.type = .dyn
  · rw [normalise_dyn hr] at h
    cases h
  · rw [normalise_eq hr] at h
    cases hx : denote r t with
    | none => rw [hx] at h; cases h
    | some x =>
      rw [hx] at h
      cases h
      have hd := denotes_of_denote hx
      exact ⟨x, hd, rfl, by rw [normalise_eq hr, hd.encode]⟩

/-! ## Readers -/

theorem bytesLoop_eq {t : Text} {bs : List UInt8} (h : hexBytes t = some bs) (byte : ℕ) :
    bytesLoop bs.length t byte = bs := by
  induction t using hexBytes.induct generalizing bs byte with
  | case1 => cases h; rfl
  | case2 => cases h
  | case3 a b t ih =>
    obtain ⟨v, hv, hm⟩ := Option.bind_eq_some_iff.mp h
    obtain ⟨bs', hbs, rfl⟩ := Option.map_eq_some_iff.mp hm
    have hp : atParseHexN (a :: b :: t) 2 = some v := by
      rw [atParseHexN_eq (by decide) (by decide), if_neg (by simp)]
      exact hv
    rw [List.length_cons, bytesLoop, hp]
    exact congrArg (v.toUInt8 :: ·) (ih hbs v)

section

variable {id : ℕ} {r : Reg} {v : Vals} (hid : find id = some r)
include hid

theorem sregU32_eq {n : ℕ} (h : Denotes r.info (v r) (.num n)) : sregU32 id v = n := by
  cases h with
  | num hr hn hlt _ =>
    have hle : n ≤ ulongMax := by
      rcases hr with hr | hr <;> rw [hr] at hlt <;> simp [SregType.digits, ulongMax] at hlt ⊢ <;>
        omega
    rw [sregU32, hid]
    exact strtoul_hexValue hn hle

theorem sregS8_eq {d : ℤ} (h : Denotes r.info (v r) (.int d)) : sregS8 id v = d := by
  cases h with
  | int _ hv h0 h8 =>
    have hc : clampLong d = d := by
      unfold clampLong longMax
      omega
    rw [sregS8, hid, Option.elim_some, strtol_decValue hv, hc]
    exact Int.bmod_eq_of_le (by omega) (by omega)

theorem sregBytes_eq {bs : List UInt8} (h : Denotes r.info (v r) (.bytes bs)) :
    sregBytes id bs.length v = some bs := by
  cases h with
  | bytes _ hb _ =>
    rw [sregBytes, hid, Option.bind_some, if_neg (by simp [(hexBytes_eq_some hb).2.1]),
      bytesLoop_eq hb]

theorem sregClusters_eq {l : List UInt16} (h : Denotes r.info (v r) (.ids l)) :
    sregClusters id maxClusters v = l := by
  cases h with
  | ids _ hl hlen =>
    rw [sregClusters, hid]
    exact clustersLoop_eq hl hlen

end

end ZbAt.Sreg
