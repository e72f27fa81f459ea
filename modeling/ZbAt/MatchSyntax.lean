import ZbAt.MatchReqProof
import ZbAt.XcastProof

/-!
# The syntax of AT+MATCHREQ (zb_msg.c, protocol.py)

`next_field` cuts the text at its commas and signals the end by a null cursor. Two counted lists
share the cursor, and the second is stored behind the first.

* `fillMatchreq` — `cmd_matchreq` up to its last check, with every write to `req.clusters`.
* `Syntax` — the texts that are meant, as a grammar.
* `matchreq` — the command that the host writes.
* `fillMatchreq_iff` — exactly these texts are accepted, the request holds what they say, and no
  text leads to a write outside the array.
-/

namespace ZbAt.Match

open Text Sreg Uart Xcast

/-! ## Filling in the request -/

/-- `req`, with its `clusters` as the writes to them, each at its index. -/
structure Filled where
  profile : UInt16
  nIn : UInt8
  nOut : UInt8
  writes : List (ℕ × UInt16)
  deriving DecidableEq

/-- The loop of `parse_cluster_list`: `left` more IDs are read, the next into `out[i]`, where
`out` is `&clusters[start]`. The result is whether it ended well, the cursor and the writes. -/
def storeIds (start : ℕ) : ℕ → ℕ → Option Text → Bool × Option Text × List (ℕ × UInt16)
  | 0, _, p => (true, p, [])
  | left + 1, i, p =>
    let (field, p) := nextField p
    match hexField 4 field with
    | none => (false, p, [])
    | some v =>
      let (ok, p, writes) := storeIds start left (i + 1) p
      (ok, p, (start + i, v.toUInt16) :: writes)

/-- `parse_cluster_list`: whether it ended well, `*count`, the cursor and the writes. -/
def storeClusterList (start : ℕ) (p : Option Text) :
    Bool × UInt8 × Option Text × List (ℕ × UInt16) :=
  let (field, p) := nextField p
  match hexField 2 field with
  | none => (false, 0, p, [])
  | some v =>
    if v > maxClusters then (false, 0, p, [])
    else
      let (ok, p, writes) := storeIds start v 0 p
      (ok, v.toUInt8, p, writes)

/-- `cmd_matchreq`, up to the last check of its syntax: whether it passes, and `req`. -/
def fillMatchreq (args : Text) : Bool × Filled :=
  match args with
  | 58 :: t =>
    let (field, p) := nextField (some t)
    match hexField 4 field with
    | none => (false, ⟨0, 0, 0, []⟩)
    | some v =>
      let (ok, nIn, p, ins) := storeClusterList 0 p
      if !ok then (false, ⟨v.toUInt16, nIn, 0, ins⟩)
      else
        let (ok, nOut, p, outs) := storeClusterList nIn.toNat p
        (ok && p.isNone, ⟨v.toUInt16, nIn, nOut, ins ++ outs⟩)
  | _ => (false, ⟨0, 0, 0, []⟩)

/-- The array after the writes. -/
def Filled.req (f : Filled) : MatchReq where
  profile := f.profile
  nIn := f.nIn
  nOut := f.nOut
  clusters := fun i => ((f.writes.filter fun w => w.1 == i.val).getLast?.map Prod.snd).getD 0

/-! ## The grammar -/

/-- Exactly `w` hex digits. -/
def Digits (w n : ℕ) (t : Text) : Prop := t.length = w ∧ hexValue t = some n

/-- A comma and a 4-digit cluster, for each of them. -/
inductive IdList : List UInt16 → Text → Prop
  | nil : IdList [] []
  | cons {v : ℕ} {g t : Text} {ids : List UInt16} : Digits 4 v g → IdList ids t →
      IdList (v.toUInt16 :: ids) (44 :: (g ++ t))

/-- A 2-digit count, and that many clusters. -/
structure Part (ids : List UInt16) (t : Text) : Prop where
  le : ids.length ≤ maxClusters
  split : ∃ count list, Digits 2 ids.length count ∧ IdList ids list ∧ t = count ++ list

/-- The texts of a request. -/
structure Syntax (q : MatchArgs) (args : Text) : Prop where
  split : ∃ v profile ins outs, Digits 4 v profile ∧ q.profile = v.toUInt16 ∧
    Part q.inClusters ins ∧ Part q.outClusters outs ∧
    args = 58 :: (profile ++ 44 :: (ins ++ 44 :: outs))

/-! ## The host's command -/

/-- `part` -/
def part (clusters : List UInt16) : Text :=
  [44].intercalate (hexText 2 clusters.length :: clusters.map fun c => hexText 4 c.toNat)

/-- The arguments that `match` sends. -/
def matchArgs (q : MatchArgs) : Text :=
  ascii ":" ++ (hexText 4 q.profile.toNat ++ (ascii "," ++ (part q.inClusters ++
    (ascii "," ++ part q.outClusters))))

/-- The command of `match` -/
def matchreq (q : MatchArgs) : Text := ascii "AT+MATCHREQ" ++ matchArgs q

/-! ## The cursor -/

/-- What the cursor still has in front of it, with the comma that it stands behind. -/
def tail (p : Option Text) : Text := p.elim [] (44 :: ·)

theorem tail_inj {p q : Option Text} (h : tail p = tail q) : p = q := by
  cases p with
  | none =>
    cases q with
    | none => rfl
    | some u => cases h
  | some t =>
    cases q with
    | none => cases h
    | some u => exact congrArg some (List.cons.inj h).2

section

variable {w n v : ℕ} {f g t : Text} {p p' q : Option Text} {ids : List UInt16}

theorem nextField_some (h : nextField (some t) = (some f, p)) : t = f ++ tail p ∧ 44 ∉ f := by
  rcases strchr_cut (t := t) (c := 44) with ⟨hnone, hno⟩ | ⟨rest, hsome, hsplit⟩
  · rw [nextField, hnone] at h
    cases h
    exact ⟨(List.append_nil _).symm, hno⟩
  · rw [nextField, hsome] at h
    cases h
    exact ⟨hsplit, not_mem_takeWhile_bne t 44⟩

theorem nextField_tail (h : 44 ∉ f) (p : Option Text) :
    nextField (some (f ++ tail p)) = (some f, p) := by
  cases p with
  | none =>
    rw [tail, Option.elim_none, List.append_nil]
    exact nextField_last h
  | some rest => exact nextField_cut h rest

theorem Digits.no_comma (h : Digits w n t) : 44 ∉ t :=
  not_mem_digits (hexValue_eq_some h.2).1 (by decide)

/-- A field of digits is what `at_parse_hex_n` reads. -/
theorem hexField_iff (h0 : 0 < w) (h8 : w ≤ 8) : hexField w (some t) = some v ↔ Digits w v t := by
  unfold hexField Digits
  by_cases hlen : t.length = w
  · have hparse := atParseHexN_eq (s := t) h0 h8
    rw [if_neg (by omega), List.take_of_length_le (by omega)] at hparse
    simp [hlen, hparse]
  · simp [hlen]

/-- A field of digits is read, and the cursor stands behind it. -/
theorem read_iff (h0 : 0 < w) (h8 : w ≤ 8) :
    (hexField w (nextField p).1 = some v ∧ (nextField p).2 = p') ↔
      ∃ g, Digits w v g ∧ p = some (g ++ tail p') := by
  constructor
  · rintro ⟨hfield, rfl⟩
    cases p with
    | none => cases hfield
    | some t =>
      obtain ⟨f, hf⟩ : ∃ f, (nextField (some t)).1 = some f := by
        rw [nextField]
        cases strchr t 44 with
        | none => exact ⟨t, rfl⟩
        | some rest => exact ⟨_, rfl⟩
      rw [hf, hexField_iff h0 h8] at hfield
      obtain ⟨ht, -⟩ := nextField_some (Prod.ext hf rfl)
      exact ⟨f, hfield, congrArg some ht⟩
  · rintro ⟨g, hg, rfl⟩
    rw [nextField_tail hg.no_comma, hexField_iff h0 h8]
    exact ⟨hg, rfl⟩

/-! ## The parser and the grammar -/

/-- A list ends where a field ends. -/
theorem IdList.exists_tail (h : IdList ids t) (p : Option Text) : ∃ q, tail q = t ++ tail p := by
  cases h with
  | nil => exact ⟨p, rfl⟩
  | cons hg ht => exact ⟨some _, rfl⟩

theorem parseIds_iff : parseIds n p = some (ids, p') ↔
    ids.length = n ∧ ∃ t, IdList ids t ∧ tail p = t ++ tail p' := by
  induction n generalizing p ids with
  | zero =>
    constructor
    · intro h
      cases h
      exact ⟨rfl, [], .nil, rfl⟩
    · rintro ⟨hlen, t, ht, htail⟩
      rw [List.eq_nil_of_length_eq_zero hlen] at ht ⊢
      cases ht
      rw [parseIds, tail_inj htail]
  | succ n ih =>
    have hstep : parseIds (n + 1) p = some (ids, p') ↔ ∃ v q ids', (hexField 4 (nextField p).1 =
        some v ∧ (nextField p).2 = q) ∧ parseIds n q = some (ids', p') ∧
        ids = v.toUInt16 :: ids' := by
      simp only [parseIds, Option.bind_eq_bind, Option.bind_eq_some_iff]
      constructor
      · rintro ⟨v, hv, ⟨ids', q⟩, hids, h⟩
        cases h
        exact ⟨v, _, ids', ⟨hv, rfl⟩, hids, rfl⟩
      · rintro ⟨v, q, ids', ⟨hv, rfl⟩, hids, rfl⟩
        exact ⟨v, hv, (ids', p'), hids, rfl⟩
    rw [hstep]
    constructor
    · rintro ⟨v, q, ids', hread, hids, rfl⟩
      obtain ⟨g, hg, rfl⟩ := (read_iff (by decide) (by decide)).mp hread
      obtain ⟨hlen, t, ht, htail⟩ := ih.mp hids
      refine ⟨congrArg (· + 1) hlen, 44 :: (g ++ t), .cons hg ht, ?_⟩
      rw [tail, Option.elim_some, htail, List.cons_append, List.append_assoc]
    · rintro ⟨hlen, t, ht, htail⟩
      cases ht with
      | nil => cases hlen
      | @cons v g t ids' hg ht =>
        obtain ⟨q, hq⟩ := ht.exists_tail p'
        have hp : p = some (g ++ tail q) := tail_inj (by
          rw [htail, hq, List.cons_append, List.append_assoc]
          rfl)
        refine ⟨v, q, ids', (read_iff (by decide) (by decide)).mpr ⟨g, hg, hp⟩, ?_, rfl⟩
        exact ih.mpr ⟨Nat.succ.inj hlen, t, ht, hq⟩

theorem parseClusterList_iff : parseClusterList p = some (ids, p') ↔
    ∃ t, Part ids t ∧ p = some (t ++ tail p') := by
  have hstep : parseClusterList p = some (ids, p') ↔ ∃ n q, (hexField 2 (nextField p).1 =
      some n ∧ (nextField p).2 = q) ∧ n ≤ maxClusters ∧ parseIds n q = some (ids, p') := by
    simp only [parseClusterList, Option.bind_eq_bind, Option.bind_eq_some_iff]
    constructor
    · rintro ⟨n, hn, h⟩
      split_ifs at h with hmax
      exact ⟨n, _, ⟨hn, rfl⟩, Nat.not_lt.mp hmax, h⟩
    · rintro ⟨n, q, ⟨hn, rfl⟩, hmax, h⟩
      refine ⟨n, hn, ?_⟩
      rw [if_neg (Nat.not_lt.mpr hmax)]
      exact h
  rw [hstep]
  constructor
  · rintro ⟨n, q, hread, hmax, hids⟩
    obtain ⟨g, hg, rfl⟩ := (read_iff (by decide) (by decide)).mp hread
    obtain ⟨rfl, t, ht, htail⟩ := parseIds_iff.mp hids
    refine ⟨g ++ t, ⟨hmax, g, t, hg, ht, rfl⟩, ?_⟩
    rw [htail, List.append_assoc]
  · rintro ⟨_, ⟨hmax, g, t, hg, ht, rfl⟩, rfl⟩
    obtain ⟨q, hq⟩ := ht.exists_tail p'
    refine ⟨ids.length, q, (read_iff (by decide) (by decide)).mpr ⟨g, hg, ?_⟩, hmax, ?_⟩
    · rw [hq, List.append_assoc]
    · exact parseIds_iff.mpr ⟨rfl, t, ht, hq⟩

/-- The parser accepts the texts of the grammar. -/
theorem parseMatchreq_iff {args : Text} {q : MatchArgs} :
    parseMatchreq args = some q ↔ Syntax q args := by
  constructor
  · intro h
    unfold parseMatchreq at h
    split at h
    · simp only [Option.bind_eq_bind, Option.bind_eq_some_iff] at h
      obtain ⟨v, hv, ⟨ins, p⟩, hin, ⟨outs, p'⟩, hout, h⟩ := h
      split_ifs at h with hend
      cases h
      obtain ⟨g, hg, ht⟩ := (read_iff (by decide) (by decide)).mp ⟨hv, rfl⟩
      obtain ⟨ti, hti, hp⟩ := parseClusterList_iff.mp hin
      obtain ⟨tout, hto, hp'⟩ := parseClusterList_iff.mp hout
      dsimp only at hout hend hp'
      rw [Option.not_isSome_iff_eq_none] at hend
      subst hend
      refine ⟨v, g, ti, tout, hg, rfl, hti, hto, ?_⟩
      rw [Option.some.inj ht, hp, hp']
      simp [tail]
    · cases h
  · rintro ⟨v, g, ti, tout, hg, hprofile, hti, hto, rfl⟩
    have hout : parseClusterList (some tout) = some (q.outClusters, none) :=
      parseClusterList_iff.mpr ⟨tout, hto, by rw [tail, Option.elim_none, List.append_nil]⟩
    have hin : parseClusterList (some (ti ++ 44 :: tout)) = some (q.inClusters, some tout) :=
      parseClusterList_iff.mpr ⟨ti, hti, rfl⟩
    have hread : hexField 4 (nextField (some (g ++ 44 :: (ti ++ 44 :: tout)))).1 = some v ∧
        (nextField (some (g ++ 44 :: (ti ++ 44 :: tout)))).2 = some (ti ++ 44 :: tout) :=
      (read_iff (by decide) (by decide)).mpr ⟨g, hg, rfl⟩
    have hparse : parseMatchreq (58 :: (g ++ 44 :: (ti ++ 44 :: tout))) =
        some ⟨v.toUInt16, q.inClusters, q.outClusters⟩ := by
      simp only [parseMatchreq, hread.1, hread.2, Option.bind_eq_bind, Option.bind_some, hin, hout]
      rfl
    rw [hparse, ← hprofile]

/-! ## The request -/

/-- The writes that store a list from the entry `start` on. -/
def writesOf (start : ℕ) (ids : List UInt16) : List (ℕ × UInt16) :=
  (ids.zipIdx start).map Prod.swap

theorem writesOf_cons (start : ℕ) (v : UInt16) (ids : List UInt16) :
    writesOf start (v :: ids) = (start, v) :: writesOf (start + 1) ids := rfl

/-- Each entry is written once. -/
theorem filter_writesOf (start i : ℕ) (ids : List UInt16) :
    (((writesOf start ids).filter fun w => w.1 == start + i).getLast?.map Prod.snd) = ids[i]? := by
  induction ids generalizing start i with
  | nil => rfl
  | cons v ids ih =>
    rw [writesOf_cons]
    cases i with
    | zero =>
      have hrest : (writesOf (start + 1) ids).filter (fun w => w.1 == start + 0) = [] := by
        rw [List.filter_eq_nil_iff]
        intro w hw
        obtain ⟨x, hx, rfl⟩ := List.mem_map.mp hw
        have hle := (List.mem_zipIdx hx).1
        simp only [Prod.fst_swap, beq_iff_eq]
        omega
      rw [List.filter_cons_of_pos (by simp), hrest]
      rfl
    | succ i =>
      have hi := ih (start + 1) i
      have hshift : start + 1 + i = start + (i + 1) := by omega
      rw [hshift] at hi
      rw [List.filter_cons_of_neg (by simp), hi, List.getElem?_cons_succ]

theorem storeIds_eq (start n i : ℕ) (p : Option Text) :
    (∀ ids p', parseIds n p = some (ids, p') →
      storeIds start n i p = (true, p', writesOf (start + i) ids)) ∧
    (parseIds n p = none → (storeIds start n i p).1 = false) ∧
    ∀ w ∈ (storeIds start n i p).2.2, w.1 < start + i + n := by
  induction n generalizing i p with
  | zero =>
    refine ⟨fun ids p' h => ?_, fun h => ?_, fun w hw => ?_⟩
    · cases h
      rfl
    · cases h
    · cases hw
  | succ n ih =>
    obtain ⟨hsome, hnone, hbound⟩ := ih (i + 1) (nextField p).2
    cases hfield : hexField 4 (nextField p).1 with
    | none =>
      have hstore : storeIds start (n + 1) i p = (false, (nextField p).2, []) := by
        simp only [storeIds, hfield]
      have hparse : parseIds (n + 1) p = none := by simp [parseIds, hfield]
      rw [hstore, hparse]
      refine ⟨fun ids p' h => ?_, fun _ => rfl, fun w hw => ?_⟩
      · cases h
      · cases hw
    | some v =>
      have hstore : storeIds start (n + 1) i p =
          ((storeIds start n (i + 1) (nextField p).2).1,
            (storeIds start n (i + 1) (nextField p).2).2.1,
            (start + i, v.toUInt16) :: (storeIds start n (i + 1) (nextField p).2).2.2) := by
        simp only [storeIds, hfield]
      have hparse : parseIds (n + 1) p =
          (parseIds n (nextField p).2).map fun r => (v.toUInt16 :: r.1, r.2) := by
        cases hrest : parseIds n (nextField p).2 <;> simp [parseIds, hfield, hrest]
      rw [hstore, hparse]
      refine ⟨fun ids p' h => ?_, fun h => ?_, fun w hw => ?_⟩
      · obtain ⟨⟨ids', q⟩, hids, h⟩ := Option.map_eq_some_iff.mp h
        cases h
        rw [hsome ids' q hids]
        rfl
      · exact hnone (Option.map_eq_none_iff.mp h)
      · rcases List.mem_cons.mp hw with rfl | hw
        · show start + i < _
          omega
        · have hlt := hbound w hw
          omega

theorem storeClusterList_eq (start : ℕ) (p : Option Text) :
    (∀ ids p', parseClusterList p = some (ids, p') →
      storeClusterList start p = (true, ids.length.toUInt8, p', writesOf start ids)) ∧
    (parseClusterList p = none → (storeClusterList start p).1 = false) ∧
    (storeClusterList start p).2.1.toNat ≤ maxClusters ∧
    ∀ w ∈ (storeClusterList start p).2.2.2, w.1 < start + maxClusters := by
  have hrefused : ∀ q, parseClusterList p = none → storeClusterList start p = (false, 0, q, []) →
      (∀ ids p', parseClusterList p = some (ids, p') →
        storeClusterList start p = (true, ids.length.toUInt8, p', writesOf start ids)) ∧
      (parseClusterList p = none → (storeClusterList start p).1 = false) ∧
      (storeClusterList start p).2.1.toNat ≤ maxClusters ∧
      ∀ w ∈ (storeClusterList start p).2.2.2, w.1 < start + maxClusters := by
    intro q hparse hstore
    rw [hparse, hstore]
    refine ⟨fun ids p' h => ?_, fun _ => rfl, Nat.zero_le _, fun w hw => ?_⟩
    · cases h
    · cases hw
  cases hfield : hexField 2 (nextField p).1 with
  | none =>
    refine hrefused (nextField p).2 ?_ ?_
    · simp [parseClusterList, hfield]
    · simp only [storeClusterList, hfield]
  | some v =>
    by_cases hmax : v > maxClusters
    · refine hrefused (nextField p).2 ?_ ?_
      · simp [parseClusterList, hfield, hmax]
      · simp only [storeClusterList, hfield, if_pos hmax]
    · obtain ⟨hsome, hnone, hbound⟩ := storeIds_eq start v 0 (nextField p).2
      have hstore : storeClusterList start p = ((storeIds start v 0 (nextField p).2).1, v.toUInt8,
          (storeIds start v 0 (nextField p).2).2.1, (storeIds start v 0 (nextField p).2).2.2) := by
        simp only [storeClusterList, hfield, if_neg hmax]
      have hparse : parseClusterList p = parseIds v (nextField p).2 := by
        simp [parseClusterList, hfield, hmax]
      rw [hstore, hparse]
      refine ⟨fun ids p' h => ?_, hnone, ?_, fun w hw => ?_⟩
      · rw [hsome ids p' h, length_parseIds h]
        rfl
      · show v % 256 ≤ maxClusters
        exact (Nat.mod_le v 256).trans (Nat.not_lt.mp hmax)
      · have hlt := hbound w hw
        omega

/-- What `cmd_matchreq` has filled in when its cursor stands behind the profile `v`. -/
theorem fillMatchreq_lists {t : Text} {v : ℕ} (hv : hexField 4 (nextField (some t)).1 = some v) :
    let ins := storeClusterList 0 (nextField (some t)).2
    let outs := storeClusterList ins.2.1.toNat ins.2.2.1
    fillMatchreq (58 :: t) =
      if ins.1 then (outs.1 && outs.2.2.1.isNone,
        ⟨v.toUInt16, ins.2.1, outs.2.1, ins.2.2.2 ++ outs.2.2.2⟩)
      else (false, ⟨v.toUInt16, ins.2.1, 0, ins.2.2.2⟩) := by
  simp only [fillMatchreq, hv]
  cases (storeClusterList 0 (nextField (some t)).2).1 with
  | true => rfl
  | false => rfl

/-- Without a profile nothing is stored. -/
theorem fillMatchreq_refused {args : Text}
    (h : ∀ t, args = 58 :: t → hexField 4 (nextField (some t)).1 = none) :
    fillMatchreq args = (false, ⟨0, 0, 0, []⟩) ∧ parseMatchreq args = none := by
  by_cases hcolon : ∃ t, args = 58 :: t
  · obtain ⟨t, rfl⟩ := hcolon
    have hfield := h t rfl
    simp [fillMatchreq, parseMatchreq, hfield]
  · unfold fillMatchreq parseMatchreq
    constructor
    · split
      · exact absurd ⟨_, rfl⟩ hcolon
      · rfl
    · split
      · exact absurd ⟨_, rfl⟩ hcolon
      · rfl

/-- The request holds what the parser reads. -/
theorem fillMatchreq_some {args : Text} {q : MatchArgs} (h : parseMatchreq args = some q) :
    fillMatchreq args = (true, ⟨q.profile, q.inClusters.length.toUInt8,
      q.outClusters.length.toUInt8, writesOf 0 (q.inClusters ++ q.outClusters)⟩) := by
  obtain ⟨hin, -⟩ := parseMatchreq_length h
  unfold parseMatchreq at h
  split at h
  · simp only [Option.bind_eq_bind, Option.bind_eq_some_iff] at h
    obtain ⟨v, hv, ⟨ins, p⟩, hins, ⟨outs, p'⟩, houts, h⟩ := h
    split_ifs at h with hend
    cases h
    dsimp only at hin houts hend
    rw [Option.not_isSome_iff_eq_none] at hend
    subst hend
    have hcount : ins.length.toUInt8.toNat = ins.length :=
      Nat.mod_eq_of_lt (hin.trans_lt (by decide))
    rw [fillMatchreq_lists hv, (storeClusterList_eq _ _).1 ins p hins]
    dsimp only
    rw [hcount, (storeClusterList_eq _ _).1 outs none houts, if_pos rfl]
    simp [writesOf, List.zipIdx_append]
  · cases h

theorem fillMatchreq_none {args : Text} (h : parseMatchreq args = none) :
    (fillMatchreq args).1 = false := by
  by_cases hfield : ∀ t, args = 58 :: t → hexField 4 (nextField (some t)).1 = none
  · rw [(fillMatchreq_refused hfield).1]
  · push Not at hfield
    obtain ⟨t, rfl, hv⟩ := hfield
    obtain ⟨v, hv⟩ := Option.ne_none_iff_exists'.mp hv
    rw [fillMatchreq_lists hv]
    cases hins : parseClusterList (nextField (some t)).2 with
    | none => rw [(storeClusterList_eq 0 _).2.1 hins, if_neg Bool.false_ne_true]
    | some r =>
      obtain ⟨ins, p⟩ := r
      rw [(storeClusterList_eq 0 _).1 ins p hins]
      dsimp only
      rw [if_pos rfl]
      cases houts : parseClusterList p with
      | none => rw [(storeClusterList_eq _ p).2.1 houts, Bool.false_and]
      | some r =>
        obtain ⟨outs, p'⟩ := r
        rw [(storeClusterList_eq _ p).1 outs p' houts]
        cases p' with
        | none => simp [parseMatchreq, hv, hins, houts] at h
        | some rest => rfl

/-- Every write stays inside the array. -/
theorem writes_lt (args : Text) : ∀ w ∈ (fillMatchreq args).2.writes, w.1 < 2 * maxClusters := by
  intro w hw
  by_cases hfield : ∀ t, args = 58 :: t → hexField 4 (nextField (some t)).1 = none
  · rw [(fillMatchreq_refused hfield).1] at hw
    cases hw
  · push Not at hfield
    obtain ⟨t, rfl, hv⟩ := hfield
    obtain ⟨v, hv⟩ := Option.ne_none_iff_exists'.mp hv
    obtain ⟨-, -, hcount, hins⟩ := storeClusterList_eq 0 (nextField (some t)).2
    have houts := (storeClusterList_eq
      (storeClusterList 0 (nextField (some t)).2).2.1.toNat
      (storeClusterList 0 (nextField (some t)).2).2.2.1).2.2.2
    rw [fillMatchreq_lists hv] at hw
    split_ifs at hw
    · rcases List.mem_append.mp hw with hw | hw
      · have hlt := hins w hw
        omega
      · have hlt := houts w hw
        omega
    · have hlt := hins w hw
      omega

/-- The array holds the two lists, one behind the other. -/
theorem req_of_writes (q : MatchArgs) : Filled.req ⟨q.profile, q.inClusters.length.toUInt8,
    q.outClusters.length.toUInt8, writesOf 0 (q.inClusters ++ q.outClusters)⟩ = q.req := by
  have hentry : ∀ i : Fin (2 * maxClusters),
      (((writesOf 0 (q.inClusters ++ q.outClusters)).filter fun w => w.1 == i.val).getLast?.map
        Prod.snd).getD 0 = (q.inClusters ++ q.outClusters).getD i 0 := by
    intro i
    have hi := filter_writesOf 0 i.val (q.inClusters ++ q.outClusters)
    rw [Nat.zero_add] at hi
    rw [hi, List.getD_eq_getElem?_getD]
  unfold Filled.req MatchArgs.req
  rw [MatchReq.mk.injEq]
  exact ⟨rfl, rfl, rfl, funext hentry⟩

end

/-! ## The host's command -/

section

variable {q : MatchArgs}

theorem digits_hexText {w n : ℕ} (h : n < 16 ^ w) : Digits w n (hexText w n) :=
  ⟨length_hexText h, hexValue_hexText w n⟩

theorem part_eq (ids : List UInt16) : part ids =
    hexText 2 ids.length ++ ids.flatMap fun c => 44 :: hexText 4 c.toNat := by
  have hlist : ∀ (first : Text) (ids : List UInt16),
      [44].intercalate (first :: ids.map fun c => hexText 4 c.toNat) =
        first ++ ids.flatMap fun c => 44 :: hexText 4 c.toNat := by
    intro first ids
    induction ids generalizing first with
    | nil => simp
    | cons c ids ih =>
      rw [List.map_cons, List.intercalate_cons_cons, ih, List.flatMap_cons]
      simp
  exact hlist _ ids

theorem idList_flatMap (ids : List UInt16) :
    IdList ids (ids.flatMap fun c => 44 :: hexText 4 c.toNat) := by
  induction ids with
  | nil => exact .nil
  | cons c ids ih =>
    have hc : c = c.toNat.toUInt16 := (UInt16.ofNat_toNat (x := c)).symm
    have hcons := IdList.cons (digits_hexText c.toNat_lt) ih
    rw [← hc] at hcons
    exact hcons

/-- What the host writes is a counted list. -/
theorem part_part {ids : List UInt16} (h : ids.length ≤ maxClusters) : Part ids (part ids) where
  le := h
  split := by
    have hlt : ids.length < 16 ^ 2 := h.trans_lt (by decide)
    exact ⟨_, _, digits_hexText hlt, idList_flatMap ids, part_eq ids⟩

theorem syntax_matchArgs (hin : q.inClusters.length ≤ maxClusters)
    (hout : q.outClusters.length ≤ maxClusters) : Syntax q (matchArgs q) where
  split := ⟨q.profile.toNat, _, _, _, digits_hexText q.profile.toNat_lt,
    (UInt16.ofNat_toNat (x := q.profile)).symm, part_part hin, part_part hout, rfl⟩

theorem typeable_part (ids : List UInt16) : Typeable (part ids) := by
  rw [part_eq, typeable_append]
  refine ⟨typeable_hexText _ _, fun c hc => ?_⟩
  obtain ⟨v, -, hc⟩ := List.mem_flatMap.mp hc
  rcases List.mem_cons.mp hc with rfl | hc
  · decide
  · exact typeable_hexText _ _ c hc

theorem length_part {ids : List UInt16} (h : ids.length ≤ maxClusters) :
    (part ids).length ≤ 2 + 5 * maxClusters := by
  have hlt : ids.length < 16 ^ 2 := h.trans_lt (by decide)
  have hlist : (ids.flatMap fun c => 44 :: hexText 4 c.toNat).length = 5 * ids.length := by
    rw [List.length_flatMap]
    simp [length_hexWord, Nat.mul_comm]
  rw [part_eq, List.length_append, length_hexText hlt, hlist]
  omega

theorem length_matchreq (hin : q.inClusters.length ≤ maxClusters)
    (hout : q.outClusters.length ≤ maxClusters) : (matchreq q).length < atLineMax := by
  have hi := length_part hin
  have ho := length_part hout
  have hp := length_hexWord q.profile
  have h1 : (ascii "AT+MATCHREQ").length = 11 := rfl
  have h2 : (ascii ":").length = 1 := rfl
  have h3 : (ascii ",").length = 1 := rfl
  simp only [matchreq, matchArgs, List.length_append, h1, h2, h3, hp]
  simp only [maxClusters, atLineMax] at hi ho ⊢
  omega

/-- The host's command arrives as one line, and its handler gets the arguments. -/
theorem matchreq_arrives (hin : q.inClusters.length ≤ maxClusters)
    (hout : q.outClusters.length ≤ maxClusters) :
    typed ⟨[], false⟩ (sent (matchreq q)) = (⟨[], false⟩, [matchreq q]) ∧
      dispatch (matchreq q) = .handler .matchreq (matchArgs q) := by
  have htypeable : Typeable (matchreq q) := by
    simp only [matchreq, matchArgs, typeable_append]
    exact ⟨by decide, by decide, typeable_hexText _ _, by decide, typeable_part _, by decide,
      typeable_part _⟩
  constructor
  · rw [typed_line htypeable (List.append_ne_nil_of_left_ne_nil (by decide) _),
      if_pos (length_matchreq hin hout)]
  · exact @dispatch_name (ascii "+MATCHREQ") _ (by decide) rfl (by decide) (by decide) _

end

/-! ## Acceptance -/

/-- **Syntax.** `AT+MATCHREQ` passes its checks exactly on the texts of the grammar, and the
request holds what they say; no text leads to a write outside the array; and what the host writes
for a request is accepted as this request. -/
theorem fillMatchreq_iff :
    (∀ args, ((fillMatchreq args).1 = true ↔ ∃ q, Syntax q args) ∧
      (∀ q, Syntax q args → (fillMatchreq args).2.req = q.req) ∧
      ∀ w ∈ (fillMatchreq args).2.writes, w.1 < 2 * maxClusters) ∧
    ∀ q : MatchArgs, q.inClusters.length ≤ maxClusters → q.outClusters.length ≤ maxClusters →
      typed ⟨[], false⟩ (sent (matchreq q)) = (⟨[], false⟩, [matchreq q]) ∧
      dispatch (matchreq q) = .handler .matchreq (matchArgs q) ∧
      (fillMatchreq (matchArgs q)).1 = true ∧ (fillMatchreq (matchArgs q)).2.req = q.req := by
  have hreq : ∀ {args q}, Syntax q args →
      (fillMatchreq args).1 = true ∧ (fillMatchreq args).2.req = q.req := by
    intro args q h
    rw [fillMatchreq_some (parseMatchreq_iff.mpr h)]
    exact ⟨rfl, req_of_writes q⟩
  refine ⟨fun args => ⟨⟨fun h => ?_, fun ⟨q, hq⟩ => (hreq hq).1⟩, fun q hq => (hreq hq).2,
    writes_lt args⟩, fun q hin hout => ?_⟩
  · cases hparse : parseMatchreq args with
    | none => exact absurd h (ne_true_of_eq_false (fillMatchreq_none hparse))
    | some q => exact ⟨q, parseMatchreq_iff.mp hparse⟩
  · obtain ⟨htyped, hdispatch⟩ := matchreq_arrives hin hout
    exact ⟨htyped, hdispatch, hreq (syntax_matchArgs hin hout)⟩

/-- The search for lights with the OnOff cluster. -/
theorem fillMatchreq_lights :
    (fillMatchreq (ascii ":0104,01,0006,00")).1 = true ∧
      (fillMatchreq (ascii ":0104,01,0006,00")).2.req = MatchArgs.req ⟨0x0104, [0x0006], []⟩ := by
  have hargs : ascii ":0104,01,0006,00" = matchArgs ⟨0x0104, [0x0006], []⟩ := by decide
  rw [hargs]
  exact (fillMatchreq_iff.2 ⟨0x0104, [0x0006], []⟩ (by decide) (by decide)).2.2

end ZbAt.Match
