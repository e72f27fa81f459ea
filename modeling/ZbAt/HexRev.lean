import Mathlib.Data.List.GetD
import ZbAt.ArgSyntax
import ZbAt.EndpointProof

/-!
# Hex digits in reversed order (at_fmt.c)

The stack keeps an EUI64 and an extended PAN ID least significant byte first; the AT interface shows
the most significant digit first. `at_hex_rev` and `at_parse_hex_rev` go from one to the other, and
`at_reverse` turns the bytes of a register around in place.

* `hexRev`, `parseRev`, `atReverse` — the loops, as they index their buffers.
* `hexRev_eq`, `parseRev_eq`, `atReverse_eq` — what the loops come to.
* `preferredEpid` — the filter of `AT+JN`, from the text of `S03`.
* `filters_agree` — the conversions undo each other, and `AT+JN` after `ATS03=E` uses the filter of
  `AT+JPAN:<ch>,E`.
-/

namespace ZbAt.HexRev

open Text Sreg Report Match Xcast Zbc

/-! ## The loops -/

/-- `at_hex_rev` -/
def hexRev (lsbFirst : List UInt8) : Text :=
  (List.range lsbFirst.length).flatMap fun i =>
    hexText 2 (lsbFirst.getD (lsbFirst.length - 1 - i) 0).toNat

/-- The loop of `at_parse_hex_rev` with `left` rounds left: `n - 1 - i` is `left - 1`. -/
def parseRevLoop : ℕ → Text → List UInt8 → Option (List UInt8)
  | 0, _, lsbFirst => some lsbFirst
  | left + 1, a :: b :: s, lsbFirst =>
    match hexNibble a, hexNibble b with
    | some hi, some lo => parseRevLoop left s (lsbFirst.set left (hi <<< 4 ||| lo).toUInt8)
    | _, _ => none
  | _ + 1, _, _ => none

/-- `at_parse_hex_rev` into a buffer. -/
def parseRev (s : Text) (lsbFirst : List UInt8) : Option (List UInt8) :=
  parseRevLoop lsbFirst.length s lsbFirst

/-- Two bytes change places. -/
def swap (buf : List UInt8) (i j : ℕ) : List UInt8 :=
  (buf.set i (buf.getD j 0)).set j (buf.getD i 0)

/-- `at_reverse` -/
def atReverse (buf : List UInt8) : List UInt8 :=
  (List.range (buf.length / 2)).foldl (fun b i => swap b i (buf.length - 1 - i)) buf

/-- `sreg_is_zero` -/
def sregIsZero (id : ℕ) (v : Vals) : Bool := ((find id).elim [] v).all (· == 48)

/-- `preferred_epid` -/
def preferredEpid (v : Vals) : Option (List UInt8) :=
  if sregIsZero 0x03 v then none else (sregBytes 0x03 8 v).map atReverse

/-! ## What the loops come to -/

section

variable {buf bs : List UInt8} {s e f : Text}

/-- `at_hex_rev` prints the bytes from the last one on. -/
theorem hexRev_eq (bs : List UInt8) : hexRev bs = atHexRev bs := by
  have hmap : (List.range bs.length).map (fun i => bs.getD (bs.length - 1 - i) 0) = bs.reverse := by
    apply List.ext_getElem
    · simp
    · intro i hi hi'
      simp only [List.length_map, List.length_range] at hi
      simp [List.getElem_reverse, show bs.length - 1 - i < bs.length by omega]
  rw [hexRev, atHexRev, ← hmap, List.flatMap_map]

/-- The two digits of a byte. -/
theorem byte_eq {lo : ℕ} (hi : ℕ) (h : lo < 16) : hi <<< 4 ||| lo = hi * 16 + lo := by
  rw [← Nat.shiftLeft_add_eq_or_of_lt h, Nat.shiftLeft_eq]

/-- `at_parse_hex_rev` fills the buffer from its end. -/
theorem parseRevLoop_eq (left : ℕ) (s : Text) {buf : List UInt8} (h : left ≤ buf.length) :
    parseRevLoop left s buf =
      (parseHexPairs left s).map fun bs => bs.reverse ++ buf.drop left := by
  induction left generalizing s buf with
  | zero => rfl
  | succ left ih =>
    match s with
    | [] => rfl
    | [_] => rfl
    | a :: b :: s =>
      simp only [parseRevLoop, parseHexPairs]
      cases ha : hexNibble a with
      | none => rfl
      | some hi =>
        cases hb : hexNibble b with
        | none => rfl
        | some lo =>
          have hlo : lo < 16 := digitVal_lt (hexNibble_eq b ▸ hb)
          have hdrop : (buf.set left (hi * 16 + lo).toUInt8).drop left =
              (hi * 16 + lo).toUInt8 :: buf.drop (left + 1) := by
            have hlt : left < (buf.set left (hi * 16 + lo).toUInt8).length := by
              rw [List.length_set]
              omega
            rw [List.drop_eq_getElem_cons hlt, List.getElem_set_self,
              List.drop_set_of_lt (Nat.lt_succ_self left)]
          dsimp only
          rw [byte_eq hi hlo, ih s (by rw [List.length_set]; omega), hdrop, Option.map_map]
          congr 1
          funext bs
          simp

theorem parseRev_eq (s : Text) (buf : List UInt8) :
    parseRev s buf = atParseHexRev s buf.length := by
  rw [parseRev, parseRevLoop_eq _ _ le_rfl, List.drop_length, atParseHexRev]
  congr 1
  funext bs
  exact List.append_nil _

theorem length_swap (buf : List UInt8) (i j : ℕ) : (swap buf i j).length = buf.length := by
  rw [swap, List.length_set, List.length_set]

theorem getD_set {i : ℕ} (hi : i < buf.length) (x : UInt8) (j : ℕ) :
    (buf.set i x).getD j 0 = if j = i then x else buf.getD j 0 := by
  simp only [List.getD_eq_getElem?_getD, List.getElem?_set, hi, if_true]
  by_cases hj : j = i
  · subst hj
    simp
  · rw [if_neg hj, if_neg fun h => hj h.symm]

theorem getD_swap {i k : ℕ} (hi : i < buf.length) (hk : k < buf.length) (j : ℕ) :
    (swap buf i k).getD j 0 =
      if j = k then buf.getD i 0 else if j = i then buf.getD k 0 else buf.getD j 0 := by
  rw [swap, getD_set (by rwa [List.length_set]), getD_set hi]

/-- After `k` rounds of `at_reverse` the bytes at both ends, `k` at each, are turned around. -/
theorem reverse_rounds (buf : List UInt8) {k : ℕ} (hk : k ≤ buf.length / 2) :
    ((List.range k).foldl (fun b i => swap b i (buf.length - 1 - i)) buf).length = buf.length ∧
    ∀ j < buf.length,
      ((List.range k).foldl (fun b i => swap b i (buf.length - 1 - i)) buf).getD j 0 =
        if j < k ∨ buf.length ≤ j + k then buf.getD (buf.length - 1 - j) 0 else buf.getD j 0 := by
  induction k with
  | zero =>
    refine ⟨rfl, fun j hj => ?_⟩
    rw [if_neg (by omega)]
    rfl
  | succ k ih =>
    obtain ⟨hlen, hget⟩ := ih (by omega)
    rw [List.range_succ, List.foldl_append, List.foldl_cons, List.foldl_nil]
    refine ⟨(length_swap _ _ _).trans hlen, fun j hj => ?_⟩
    have hfront := hget k (by omega)
    have hback := hget (buf.length - 1 - k) (by omega)
    rw [if_neg (by omega)] at hfront hback
    rw [getD_swap (by omega) (by omega), hfront, hback, hget j hj]
    -- the places of this round, those of the rounds before, and the others
    by_cases hjback : j = buf.length - 1 - k
    · rw [if_pos hjback, if_pos (by omega)]
      congr 1
      omega
    · rw [if_neg hjback]
      by_cases hjfront : j = k
      · rw [if_pos hjfront, if_pos (by omega), hjfront]
      · rw [if_neg hjfront]
        by_cases hold : j < k ∨ buf.length ≤ j + k
        · rw [if_pos hold, if_pos (by omega)]
        · rw [if_neg hold, if_neg (by omega)]

/-- `at_reverse` -/
theorem atReverse_eq (buf : List UInt8) : atReverse buf = buf.reverse := by
  obtain ⟨hlen, hget⟩ := reverse_rounds buf (le_refl (buf.length / 2))
  apply List.ext_getElem
  · rw [List.length_reverse]
    exact hlen
  · intro j hj hj'
    have hlt : j < buf.length := List.length_reverse ▸ hj'
    have hround : (atReverse buf).getD j 0 = buf.getD (buf.length - 1 - j) 0 := by
      rw [atReverse, hget j hlt]
      by_cases hends : j < buf.length / 2 ∨ buf.length ≤ j + buf.length / 2
      · rw [if_pos hends]
      · -- the byte in the middle
        rw [if_neg hends]
        congr 1
        omega
    have hmirror : buf.length - 1 - j < buf.length := by omega
    rw [List.getD_eq_getElem _ _ hj, List.getD_eq_getElem _ _ hmirror] at hround
    rw [hround, List.getElem_reverse]

/-! ## There and back -/

theorem hexBytes_of_digits {n : ℕ} (hlen : s.length = 2 * n) (hall : ∀ c ∈ s, isxdigit c = true) :
    ∃ bs, hexBytes s = some bs ∧ bs.length = n ∧ bytesText bs = s.map toupper := by
  obtain ⟨bs, hbs⟩ := Option.isSome_iff_exists.mp (hexBytes_isSome hall (by omega))
  obtain ⟨-, hlen', htext⟩ := hexBytes_eq_some hbs
  exact ⟨bs, hbs, by omega, htext⟩

/-- Bytes that are printed are read back. -/
theorem parseRev_hexRev (h : buf.length = bs.length) : parseRev (hexRev bs) buf = some bs := by
  have hlen : (bytesText bs.reverse).length = 2 * buf.length := by
    rw [Host.length_bytesText, List.length_reverse, h]
  have hprinted : atHexRev bs = bytesText bs.reverse := rfl
  rw [parseRev_eq, hexRev_eq, hprinted, atParseHexRev, parseHexPairs_eq hlen, hexBytes_bytesText,
    Option.map_some, List.reverse_reverse]

/-- Digits that are read are printed in upper case. -/
theorem hexRev_parseRev {n : ℕ} (hlen : s.length = 2 * n) (hall : ∀ c ∈ s, isxdigit c = true)
    (hbuf : buf.length = n) :
    ∃ bs, parseRev s buf = some bs ∧ bs.length = n ∧ hexRev bs = s.map toupper := by
  obtain ⟨bs, hbs, hlen', htext⟩ := hexBytes_of_digits hlen hall
  refine ⟨bs.reverse, ?_, by rw [List.length_reverse, hlen'], ?_⟩
  · rw [parseRev_eq, hbuf, atParseHexRev, parseHexPairs_eq hlen, hbs, Option.map_some]
  · rw [hexRev_eq, atHexRev, List.reverse_reverse]
    exact htext

/-! ## The two filters -/

set_option maxRecDepth 4000 in
theorem toupper_zero : ∀ c, toupper c = 48 → c = 48 := forall_char (by decide)

/-- `S03` -/
def epidReg : Reg := ⟨3, by decide⟩

theorem find_epid : find 0x03 = some epidReg := by decide

/-- `ATS03=E` stores the digits in upper case. -/
theorem write_epid (hlen : e.length = 16) (hall : ∀ c ∈ e, isxdigit c = true) (dyn : ℕ → Text)
    (s : Store) : (sregAtCommand dyn (ascii "03=" ++ e) s).result = atOk ∧
      (sregAtCommand dyn (ascii "03=" ++ e) s).store.val epidReg = e.map toupper := by
  have hdigits : Endpoint.ListText e := fun c hc => .inl (hall c hc)
  have hwrite : sregAtCommand dyn (ascii "03=" ++ e) s = storeReg epidReg e s := by
    have hto : WriteTo (ascii "03=" ++ e) epidReg none e := .whole rfl find_epid
    rw [sregAtCommand_write hto, writeReg_unguarded rfl rfl, hdigits.splitPassword]
    rfl
  have hnormalise : normalise epidReg.info e = .ok (e.map toupper) := by
    obtain ⟨bs, hbs, -, htext⟩ := hexBytes_of_digits (n := 8) hlen hall
    have hdenote : denote epidReg.info e = some (.bytes bs) := by
      have htype : epidReg.info.type = .hex64 := rfl
      simp only [denote, htype, SregType.digits, hlen, if_true, hbs, Option.map_some]
    rw [normalise_bytes (.inl rfl), hdenote]
    exact congrArg Except.ok htext
  have hstored := storeReg_stored (s := s) hnormalise
  rw [hwrite]
  exact ⟨hstored.result, by rw [hstored.val, Function.update_self]⟩

theorem hexBytes_upper {bs : List UInt8} (h : hexBytes e = some bs) :
    hexBytes (e.map toupper) = some bs := by
  rw [← (hexBytes_eq_some h).2.2, hexBytes_bytesText]

/-- The filter of `AT+JN`, where `S03` holds the digits in upper case. -/
theorem preferredEpid_eq {v : Vals} (hv : v epidReg = e.map toupper) (hlen : e.length = 16)
    (hnonzero : ∃ c ∈ e, c ≠ 48) {bs : List UInt8} (hbs : hexBytes e = some bs) :
    preferredEpid v = some bs.reverse := by
  have hzero : sregIsZero 0x03 v = false := by
    obtain ⟨c, hc, hne⟩ := hnonzero
    rw [sregIsZero, find_epid, Option.elim_some, hv, List.all_eq_false]
    refine ⟨toupper c, List.mem_map_of_mem hc, ?_⟩
    rw [beq_iff_eq]
    exact fun h => hne (toupper_zero c h)
  have hdenotes : Denotes epidReg.info (v epidReg) (.bytes bs) := by
    refine .bytes (.inl rfl) (hv ▸ hexBytes_upper hbs) ?_
    exact (hexBytes_eq_some hbs).2.1.symm.trans hlen
  have hbytes : sregBytes 0x03 8 v = some bs := by
    have hlen' := (hexBytes_eq_some hbs).2.1
    have h8 : bs.length = 8 := by omega
    exact h8 ▸ sregBytes_eq find_epid hdenotes
  rw [preferredEpid, hzero, hbytes, Option.map_some, atReverse_eq]
  rfl

/-- `AT+JPAN:<ch>,E` -/
theorem command_jpan (hf : Args.Number 11 26 f) (hlen : e.length = 16) {bs : List UInt8}
    (hbs : hexBytes e = some bs) (r : Regs) (result : ℕ) :
    Deferred.command (ascii "AT+JPAN" ++ 58 :: (f ++ 44 :: e)) r result =
      .jpan (number 10 (digitVals f)) (some bs.reverse) r := by
  have hdispatch : dispatch (ascii "AT" ++ (ascii "+JPAN" ++ 58 :: (f ++ 44 :: e))) =
      .handler .jpan (58 :: (f ++ 44 :: e)) :=
    dispatch_name (by decide) (by decide) (by decide) (by decide) _
  have hcut : strchr (58 :: (f ++ 44 :: e)) 44 = some e :=
    (@takeWhile_cut 44 (58 :: f) (List.not_mem_cons_of_ne_of_not_mem (by decide) hf.no_comma) e).2
  have hnumber : strtol (f ++ 44 :: e) = ((number 10 (digitVals f) : ℤ), (44 :: e : Text)) := by
    obtain ⟨hne, hdigits, hlo, hhi⟩ := hf
    have hclamp : clampLong (number 10 (digitVals f)) = number 10 (digitVals f) := by
      unfold clampLong longMax
      omega
    rw [strtol_append Args.stop_comma, strtol_decValue (Args.decValue_digitsOnly hne hdigits),
      hclamp]
    rfl
  have hparse : atParseHexRev e 8 = some bs.reverse := by
    rw [atParseHexRev, parseHexPairs_eq hlen, hbs, Option.map_some]
  have hbounds : ¬((58 :: (f ++ 44 :: e)).head? ≠ some 58 ∨ (44 :: e : Text) ≠ 44 :: e ∨
      (number 10 (digitVals f) : ℤ) < 11 ∨ (26 : ℤ) < number 10 (digitVals f)) := by
    obtain ⟨-, -, hlo, hhi⟩ := hf
    simp only [List.head?_cons, ne_eq, not_true_eq_false, false_or, not_or, not_lt]
    omega
  have hline : ascii "AT+JPAN" ++ 58 :: (f ++ 44 :: e) =
      ascii "AT" ++ (ascii "+JPAN" ++ 58 :: (f ++ 44 :: e)) := rfl
  have hdrop : (58 :: (f ++ 44 :: e)).drop 1 = f ++ 44 :: e := rfl
  rw [hline, Deferred.command, hdispatch]
  dsimp only
  rw [Deferred.cmdJpan, hcut, hdrop, hnumber]
  dsimp only
  rw [if_neg hbounds, if_pos hlen, hparse]
  rfl

/-! ## The result -/

/-- **Hex digits.** Printing and reading undo each other, up to upper case; and the bytes that
`AT+JN` filters by after `ATS03=E` are those of `AT+JPAN:<ch>,E`. -/
theorem filters_agree :
    (∀ bs buf : List UInt8, buf.length = bs.length → parseRev (hexRev bs) buf = some bs) ∧
    (∀ (n : ℕ) (s : Text) (buf : List UInt8), s.length = 2 * n → (∀ c ∈ s, isxdigit c = true) →
      buf.length = n →
        ∃ bs, parseRev s buf = some bs ∧ bs.length = n ∧ hexRev bs = s.map toupper) ∧
    ∀ e : Text, e.length = 16 → (∀ c ∈ e, isxdigit c = true) → (∃ c ∈ e, c ≠ 48) →
      ∃ epid, (∀ buf : List UInt8, buf.length = 8 → parseRev e buf = some epid) ∧
        dispatch (ascii "ATS" ++ (ascii "03=" ++ e)) = .sregAtCommand (ascii "03=" ++ e) ∧
        ∀ (dyn : ℕ → Text) (s : Store) (o : Outcome),
          o = sregAtCommand dyn (ascii "03=" ++ e) s → o.result = atOk ∧
          preferredEpid o.store.val = some epid ∧
          ∀ (r : Regs) (result : ℕ), r.preferredEpid = preferredEpid o.store.val →
            ((Deferred.command (ascii "AT+JN") r result).start.bind fun q => q.epid) =
              some epid ∧
            ∀ f, Args.Number 11 26 f →
              ((Deferred.command (ascii "AT+JPAN" ++ 58 :: (f ++ 44 :: e)) r result).start.bind
                fun q => q.epid) = some epid := by
  refine ⟨fun bs buf h => parseRev_hexRev h, fun n s buf hlen hall hbuf =>
    hexRev_parseRev hlen hall hbuf, fun e hlen hall hnonzero => ?_⟩
  obtain ⟨bs, hbs, -, -⟩ := hexBytes_of_digits (n := 8) hlen hall
  refine ⟨bs.reverse, fun buf hbuf => ?_, Endpoint.dispatch_ats rfl, ?_⟩
  · rw [parseRev_eq, hbuf, atParseHexRev, parseHexPairs_eq hlen, hbs, Option.map_some]
  · rintro dyn s o rfl
    obtain ⟨hok, hval⟩ := write_epid hlen hall dyn s
    have hepid := preferredEpid_eq hval hlen hnonzero hbs
    refine ⟨hok, hepid, fun r result hr => ⟨?_, fun f hf => ?_⟩⟩
    · have hjn : Deferred.command (ascii "AT+JN") r result = .jn r := by
        rfl
      rw [hjn]
      exact hr.trans hepid
    · rw [command_jpan hf hlen hbs]
      rfl

end

/-- An extended PAN ID in lower case, which is no palindrome. -/
theorem filters_agree_epid : parseRev (hexRev [1, 2, 3]) [0, 0, 0] = some [1, 2, 3] ∧
    ∃ epid, parseRev (ascii "f0e1d2c3b4a59687") [0, 0, 0, 0, 0, 0, 0, 0] = some epid ∧
      preferredEpid (sregAtCommand (fun _ => []) (ascii "03=" ++ ascii "f0e1d2c3b4a59687")
        (sregInit [])).store.val = some epid := by
  obtain ⟨epid, hread, -, hwrite⟩ :=
    filters_agree.2.2 (ascii "f0e1d2c3b4a59687") (by decide) (List.all_eq_true.mp (by decide))
      ⟨102, by decide, by decide⟩
  exact ⟨filters_agree.1 _ _ rfl, epid, hread _ rfl, (hwrite _ _ _ rfl).2.1⟩

end ZbAt.HexRev
