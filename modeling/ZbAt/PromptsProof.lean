import ZbAt.Prompts
import ZbAt.Report

/-!
# What is printed is parsed back

The firmware prints lines with C formats, and the host parses them with regular expressions.

* `prompt` — the prompt that a printed line stands for.
* `parse_line` — every structured line is parsed back: the pattern of its kind matches, and the
  patterns tried before it do not.
* `parse_text` — the text of a message is parsed back, whatever its bytes are.
-/

namespace ZbAt.Host

open Text Uart Report

/-! ## Pieces -/

theorem upperHex_digitChar : ∀ d < 16, upperHex (digitChar d) = true := by decide

theorem upperHex_hexText (w n : ℕ) : ∀ c ∈ hexText w n, upperHex c = true := by
  intro c hc
  obtain ⟨d, hd, rfl⟩ := List.mem_map.mp hc
  exact upperHex_digitChar d (printNum_lt (by decide) d hd)

section

variable {s t : Text} {n w : ℕ}

theorem first_word (w : String) (s : Text) : First (word w) (ascii w ++ s) [] s := first_lit _ _

theorem first_dollar : First dollar [] [] [] := first_eos _

theorem first_hexGroup (hn : t.length = n) (ht : ∀ c ∈ t, upperHex c = true) (s : Text) :
    First (hexGroup n) (t ++ s) [some t] s := (first_rep hn ht s).group

/-- A number of `w` digits. -/
theorem first_hexText (hn : n < 16 ^ w) (s : Text) :
    First (hexGroup w) (hexText w n ++ s) [some (hexText w n)] s :=
  first_hexGroup (length_hexText hn) (upperHex_hexText w n) s

theorem first_natText (n : ℕ) (hs : ∀ c ∈ s.head?, isdigit c = false) :
    First natGroup (natText n ++ s) [some (natText n)] s :=
  (first_many1 (decDigits_ne_nil (by decide) n) (decDigits_all 1 n) hs).group

theorem first_intText (v : ℤ) (hs : ∀ c ∈ s.head?, isdigit c = false) :
    First intGroup (intText v ++ s) [some (intText v)] s := by
  have hdigits := first_many1 (decDigits_ne_nil (by decide : 0 < 1) v.natAbs)
    (decDigits_all 1 v.natAbs) hs
  unfold intText
  split_ifs with hv
  · have hminus : First (.opt (word "-")) (ascii "-" ++ (natText v.natAbs ++ s)) []
        (natText v.natAbs ++ s) := (first_word "-" _).opt
    exact (hminus.seq hdigits).group
  · have hne : natText v.natAbs ≠ [] := decDigits_ne_nil (by decide) _
    have hsign : 45 ∉ natText v.natAbs := fun h => absurd (decDigits_all 1 _ _ h) (by decide)
    have hno : Fails (word "-") (natText v.natAbs ++ s) := fails_lit_cons hne hsign [] s
    exact (hno.opt.seq hdigits).group

/-- A comma ends a number. -/
theorem isdigit_comma (t : Text) : ∀ c ∈ (ascii "," ++ t).head?, isdigit c = false := by
  intro c hc
  obtain rfl : 44 = c := Option.some.inj hc
  decide

/-- The tail with RSSI and LQI, to the end of the line. -/
theorem first_tail (v : ℤ) (n : ℕ) :
    First tailPattern (ascii "," ++ (intText v ++ (ascii "," ++ (natText n ++ []))))
      [some (intText v), some (natText n)] [] := by
  have hlast := first_natText n (s := []) (by simp)
  have hint := first_intText v (isdigit_comma (natText n ++ []))
  exact ((first_word "," _).seq (hint.seq ((first_word "," _).seq hlast))).opt.seq first_dollar

theorem first_tail_nil : First tailPattern [] [none, none] [] := rfl

end

/-! ## Structured lines -/

/-- The prompt that a printed line stands for. -/
def prompt : Line → Prompt
  | .ok => .ok
  | .error result => .error result.toNat
  | .seq n => .seq n.toNat
  | .ack n => .ack n.toNat
  | .nack n => .nack n.toNat
  | .jpan channel pan epid => .jpan channel.toNat pan.toNat (bytesText epid.1.reverse)
  | .leftPan => .leftPan
  | .newnode shortAddr ieee => .newNode shortAddr.toNat (bytesText ieee.1.reverse) 0xFFFF
  | .nodeleft shortAddr ieee => .nodeLeft shortAddr.toNat (bytesText ieee.1.reverse)
  | .announce capability ieee shortAddr =>
    .announce (announceKind capability) (bytesText ieee.1.reverse) shortAddr.toNat none none
  | .matchDesc srcAddr status eps => .matchDesc srcAddr.toNat status.toNat
      (if status = zdpSuccess then (eps.take 31).map UInt8.toNat else [])
  | .rx ieee ind payload on => .rx (ieee.map fun a => bytesText a.1.reverse) ind.srcAddr.toNat
      ind.profileid.toNat ind.dstEndpoint.toNat ind.srcEndpoint.toNat ind.clusterid.toNat
      (payload.take 128) (if on then some ind.rssi.toInt else none)
      (if on then some (ind.lqi.toNat : ℤ) else none)

/-- Patterns whose words are apart from the start of the line do not match it. -/
theorem findSome_none {ps : List (Pat × (List (Option Text) → Prompt))} {u : Text}
    (h : ∀ q ∈ ps, ∀ t ∈ q.1.heads, Apart t u) (s : Text) :
    ps.findSome? (fun q => (q.1.first (u ++ s)).map fun m => q.2 m.1) = none := by
  rw [List.findSome?_eq_none_iff]
  intro q hq
  rw [(fails_of_heads (h q hq) s).first]
  rfl

/-- The pattern `i` is the first to match a line that starts with `u`. -/
theorem parsePrompt_simple {u s rest : Text} {i : ℕ} {p : Pat} {build : List (Option Text) → Prompt}
    {m : List (Option Text)} (hi : simplePrompts[i]? = some (p, build))
    (hbefore : ∀ q ∈ simplePrompts.take i, ∀ t ∈ q.1.heads, Apart t u)
    (h : First p (u ++ s) m rest) (rxHex : Bool) :
    parsePrompt (u ++ s) rxHex = some (build m) := by
  obtain ⟨hlt, hget⟩ := List.getElem?_eq_some_iff.mp hi
  have hsplit := List.take_append_drop i simplePrompts
  rw [List.drop_eq_getElem_cons hlt, hget] at hsplit
  have hfind : simplePrompts.findSome? (fun q => (q.1.first (u ++ s)).map fun m => q.2 m.1) =
      some (build m) := by
    have hfirst : p.first (u ++ s) = some (m, rest) := h
    rw [← hsplit, List.findSome?_append, findSome_none hbefore, List.findSome?_cons, hfirst]
    rfl
  rw [parsePrompt, hfind]

section

variable (rxHex : Bool)

/-- `ERROR:`, `SEQ:`, `ACK:` and `NACK:`: a word, two digits, and nothing that `r` needs. -/
theorem first_code {w : String} {r : Pat} (hr : First r [] [] []) (n : UInt8) :
    First (.seq (word w) (.seq (hexGroup 2) r)) (ascii w ++ hexText 2 n.toNat)
      [some (hexText 2 n.toNat)] [] := by
  have hn := first_hexText (w := 2) n.toNat_lt ([] : Text)
  rw [List.append_nil] at hn
  exact (first_word _ _).seq (hn.seq hr)

theorem parse_error (n : UInt8) :
    parsePrompt (ascii "ERROR:" ++ hexText 2 n.toNat) rxHex = some (.error n.toNat) := by
  have hfirst := first_code (w := "ERROR:") first_dollar n
  rw [parsePrompt_simple (i := 1) rfl (by decide) hfirst]
  simp [cap, intHex]

theorem parse_seq (n : UInt8) :
    parsePrompt (ascii "SEQ:" ++ hexText 2 n.toNat) rxHex = some (.seq n.toNat) := by
  have hfirst := first_code (w := "SEQ:") first_dollar n
  rw [parsePrompt_simple (i := 2) rfl (by decide) hfirst]
  simp [cap, intHex]

theorem first_anyOpt : First (.seq anyOpt dollar) [] [] [] := rfl

theorem parse_ack (n : UInt8) :
    parsePrompt (ascii "ACK:" ++ hexText 2 n.toNat) rxHex = some (.ack n.toNat) := by
  have hfirst := first_code (w := "ACK:") first_anyOpt n
  rw [parsePrompt_simple (i := 3) rfl (by decide) hfirst]
  simp [cap, intHex]

theorem parse_nack (n : UInt8) :
    parsePrompt (ascii "NACK:" ++ hexText 2 n.toNat) rxHex = some (.nack n.toNat) := by
  have hfirst := first_code (w := "NACK:") first_anyOpt n
  rw [parsePrompt_simple (i := 4) rfl (by decide) hfirst]
  simp [cap, intHex]

theorem length_atHexRev (a : Ieee) : (atHexRev a.1).length = 16 := by
  have hb := (hexBytes_eq_some (hexBytes_bytesText a.1.reverse)).2.1
  rw [List.length_reverse, a.2] at hb
  exact hb

/-- An address or an extended PAN ID, most significant byte first. -/
theorem first_ieee (a : Ieee) (s : Text) :
    First (hexGroup 16) (atHexRev a.1 ++ s) [some (bytesText a.1.reverse)] s := by
  have hall : ∀ c ∈ atHexRev a.1, upperHex c = true := by
    intro c hc
    obtain ⟨b, -, hb⟩ := List.mem_flatMap.mp hc
    exact upperHex_hexText 2 b.toNat c hb
  exact first_hexGroup (length_atHexRev a) hall s

theorem parse_jpan (channel : UInt8) (pan : UInt16) (epid : Ieee) :
    parsePrompt (ascii "JPAN:" ++ natText channel.toNat ++ ascii "," ++ hexText 4 pan.toNat ++
      ascii "," ++ atHexRev epid.1) rxHex =
        some (.jpan channel.toNat pan.toNat (bytesText epid.1.reverse)) := by
  have hepid := first_ieee epid []
  rw [List.append_nil] at hepid
  have hpan := first_hexText (w := 4) pan.toNat_lt (ascii "," ++ atHexRev epid.1)
  have hch := first_natText channel.toNat
    (isdigit_comma (hexText 4 pan.toNat ++ (ascii "," ++ atHexRev epid.1)))
  have hfirst := (first_word "JPAN:" _).seq (hch.seq ((first_word "," _).seq (hpan.seq
    ((first_word "," _).seq (hepid.seq first_dollar)))))
  simp only [List.append_assoc]
  rw [parsePrompt_simple (i := 5) rfl (by decide) hfirst]
  simp [cap, intHex, intDec]

/-- The optional blank behind a word is not printed. -/
theorem first_noBlank (n : ℕ) (s : Text) :
    First (.opt (word " ")) (hexText 4 n ++ s) [] (hexText 4 n ++ s) := by
  have hne : hexText 4 n ≠ [] := by
    apply List.ne_nil_of_length_pos
    have hlen := le_length_printNum 16 4 n
    rw [hexText, List.length_map]
    omega
  have hblank : 32 ∉ hexText 4 n := fun h => absurd (upperHex_hexText 4 n _ h) (by decide)
  exact (fails_lit_cons hne hblank [] s).opt

theorem parse_newnode (shortAddr : UInt16) (ieee : Ieee) :
    parsePrompt (ascii "NEWNODE:" ++ hexText 4 shortAddr.toNat ++ ascii "," ++ atHexRev ieee.1 ++
      ascii ",FFFF") rxHex =
        some (.newNode shortAddr.toNat (bytesText ieee.1.reverse) 0xFFFF) := by
  have hparent : First (chain [word ",", hexGroup 4, dollar]) (ascii ",FFFF")
      [some (ascii "FFFF")] [] := rfl
  have hieee := first_ieee ieee (ascii ",FFFF")
  have haddr := first_hexText (w := 4) shortAddr.toNat_lt
    (ascii "," ++ (atHexRev ieee.1 ++ ascii ",FFFF"))
  have hfirst := (first_word "NEWNODE:" _).seq ((first_noBlank shortAddr.toNat _).seq
    (haddr.seq ((first_word "," _).seq (hieee.seq hparent))))
  simp only [List.append_assoc]
  rw [parsePrompt_simple (i := 7) rfl (by decide) hfirst]
  have hffff : intHex (ascii "FFFF") = 0xFFFF := by decide
  simp only [cap, List.nil_append, List.cons_append, List.getD_cons_succ, List.getD_cons_zero,
    Option.getD_some, hffff]
  simp [intHex]

theorem parse_nodeleft (shortAddr : UInt16) (ieee : Ieee) :
    parsePrompt (ascii "NODELEFT:" ++ hexText 4 shortAddr.toNat ++ ascii "," ++ atHexRev ieee.1)
      rxHex = some (.nodeLeft shortAddr.toNat (bytesText ieee.1.reverse)) := by
  have hieee := first_ieee ieee []
  rw [List.append_nil] at hieee
  have haddr := first_hexText (w := 4) shortAddr.toNat_lt (ascii "," ++ atHexRev ieee.1)
  have hfirst := (first_word "NODELEFT:" _).seq ((first_noBlank shortAddr.toNat _).seq
    (haddr.seq ((first_word "," _).seq (hieee.seq first_dollar))))
  simp only [List.append_assoc]
  rw [parsePrompt_simple (i := 8) rfl (by decide) hfirst]
  simp [cap, intHex]



theorem parse_ok : parsePrompt (ascii "OK") rxHex = some .ok := by
  rw [← List.append_nil (ascii "OK")]
  exact parsePrompt_simple (i := 0) (s := []) rfl (by decide)
    ((first_word "OK" []).seq first_dollar) rxHex

theorem parse_leftPan : parsePrompt (ascii "LeftPAN") rxHex = some .leftPan := by
  rw [← List.append_nil (ascii "LeftPAN")]
  exact parsePrompt_simple (i := 6) (s := []) rfl (by decide)
    ((first_word "LeftPAN" []).seq first_dollar) rxHex

/-- The device types that are announced. -/
theorem announceKind_cases (capability : UInt8) : announceKind capability = ascii "FFD" ∨
    announceKind capability = ascii "ZED" ∨ announceKind capability = ascii "SED" := by
  unfold announceKind
  split_ifs
  · exact .inl rfl
  · exact .inr (.inl rfl)
  · exact .inr (.inr rfl)

theorem first_kind (capability : UInt8) (s : Text) :
    First (.group (.alt (word "FFD") (.alt (word "ZED") (.alt (word "SED") (.alt (word "MED")
      (word "COO")))))) (announceKind capability ++ s) [some (announceKind capability)] s := by
  rcases announceKind_cases capability with h | h | h
  · rw [h]
    exact ((first_word "FFD" s).alt_left _).group
  · rw [h]
    have hzed := (first_word "ZED" s).alt_left (.alt (word "SED") (.alt (word "MED") (word "COO")))
    exact (hzed.alt_right (fails_of_heads (by decide) s)).group
  · rw [h]
    have hsed := (first_word "SED" s).alt_left (.alt (word "MED") (word "COO"))
    have hzed := hsed.alt_right (a := word "ZED") (fails_of_heads (by decide) s)
    exact (hzed.alt_right (a := word "FFD") (fails_of_heads (by decide) s)).group

theorem parse_announce (capability : UInt8) (ieee : Ieee) (shortAddr : UInt16) :
    parsePrompt (announceKind capability ++ ascii ":" ++ atHexRev ieee.1 ++ ascii "," ++
      hexText 4 shortAddr.toNat) rxHex =
        some (.announce (announceKind capability) (bytesText ieee.1.reverse) shortAddr.toNat
          none none) := by
  have haddr := first_hexText (w := 4) shortAddr.toNat_lt ([] : Text)
  rw [List.append_nil] at haddr
  have hnone : First (.seq tailOpt dollar) [] [none, none] [] := rfl
  have hfirst := (first_kind capability _).seq ((first_word ":" _).seq
    ((first_ieee ieee _).seq ((first_word "," _).seq (haddr.seq hnone))))
  have hbefore : ∀ q ∈ simplePrompts.take 10, ∀ t ∈ q.1.heads,
      Apart t (announceKind capability) := by
    rcases announceKind_cases capability with h | h | h
    · rw [h]
      decide
    · rw [h]
      decide
    · rw [h]
      decide
  simp only [List.append_assoc]
  rw [parsePrompt_simple (i := 10) rfl hbefore hfirst]
  simp [cap, capOpt, optInt, intHex]

end

/-! ## Match descriptors -/

/-- The endpoints as they are printed, a comma before each. -/
def epsText (eps : List UInt8) : Text := eps.flatMap fun ep => 44 :: hexText 2 ep.toNat

theorem length_epsText (eps : List UInt8) : (epsText eps).length = 3 * eps.length := by
  induction eps with
  | nil => rfl
  | cons ep eps ih =>
    have hcons : (epsText (ep :: eps)).length = 1 + (hexText 2 ep.toNat).length +
        (epsText eps).length := by
      rw [epsText, List.flatMap_cons, List.length_append, List.length_cons, Nat.add_comm 1]
      rfl
    rw [hcons, length_hexByte, ih, List.length_cons]
    omega

/-- The line buffer has room for 31 endpoints. -/
theorem matchEps_eq {line : Text} {k : ℕ} (eps : List UInt8) (hlen : line.length = 17 + 3 * k)
    (hk : k ≤ 31) : matchEps line eps = line ++ epsText (eps.take (31 - k)) := by
  induction eps generalizing line k with
  | nil => simp [matchEps, epsText]
  | cons ep eps ih =>
    have hentry : (ascii "," ++ hexText 2 ep.toNat).length = 3 := by
      rw [List.length_append, length_hexByte]
      rfl
    rw [matchEps, hlen]
    by_cases h31 : k = 31
    · subst h31
      rw [if_neg (by decide)]
      simp [epsText]
    · have hroom : 17 + 3 * k + 3 < matchLineSize := by
        unfold matchLineSize
        omega
      obtain ⟨j, hj⟩ : ∃ j, 31 - k = j + 1 := ⟨30 - k, by omega⟩
      rw [if_pos hroom, List.take_of_length_le (by omega),
        ih (k := k + 1) (by rw [List.length_append, hlen, hentry]; omega) (by omega), hj,
        List.take_succ_cons, show 31 - (k + 1) = j by omega]
      simp only [epsText, List.flatMap_cons, List.append_assoc]
      rfl

/-- The line has at most 31 endpoints, and none when the request failed. -/
theorem matchLine_eq (srcAddr : UInt16) (status : UInt8) (eps : List UInt8) :
    matchLine srcAddr status eps =
      ascii "MatchDesc:" ++ hexText 4 srcAddr.toNat ++ ascii "," ++ hexText 2 status.toNat ++
        epsText (if status = zdpSuccess then eps.take 31 else []) := by
  have hhead : (ascii "MatchDesc:" ++ hexText 4 srcAddr.toNat ++ ascii "," ++
      hexText 2 status.toNat).length = 17 := by
    simp only [List.length_append, length_hexWord, length_hexByte]
    rfl
  rw [matchLine, snprintf, List.take_of_length_le (by rw [hhead]; decide),
    matchEps_eq (k := 0) _ hhead (by decide)]
  split_ifs <;> rfl

theorem first_eps (eps : List UInt8) :
    First (.star (.seq (word ",") (.rep 2 upperHex))) (epsText eps) [] [] := by
  induction eps with
  | nil => exact (fails_lit (by decide)).seq _ |>.star
  | cons ep eps ih =>
    have hdigits := first_rep (length_hexByte ep) (upperHex_hexText 2 ep.toNat) (epsText eps)
    have hone := (first_word "," _).seq hdigits
    exact First.star (u := 44 :: hexText 2 ep.toNat) hone (by simp) ih

/-- The printed endpoints are taken apart at the commas. -/
theorem splitOn_epsText {pre : Text} (eps : List UInt8) (hpre : 44 ∉ pre) :
    (pre ++ epsText eps).splitOn 44 = pre :: eps.map fun ep => hexText 2 ep.toNat := by
  induction eps generalizing pre with
  | nil =>
    rw [epsText, List.flatMap_nil, List.append_nil]
    exact List.splitOn_eq_singleton hpre
  | cons ep eps ih =>
    have hep : 44 ∉ hexText 2 ep.toNat := fun hmem =>
      absurd (upperHex_hexText 2 _ _ hmem) (by decide)
    rw [epsText, List.flatMap_cons, List.cons_append,
      List.splitOn_append_cons_self_of_not_mem hpre, List.map_cons, ← ih hep]
    rfl

theorem map_intHex_epsText (eps : List UInt8) :
    ((epsText eps).splitOn 44).tail.map intHex = eps.map UInt8.toNat := by
  have hsplit := splitOn_epsText eps (List.not_mem_nil (a := 44))
  rw [List.nil_append] at hsplit
  rw [hsplit, List.tail_cons, List.map_map]
  refine List.map_congr_left fun ep _ => ?_
  simp [intHex]

theorem parse_matchDesc (srcAddr : UInt16) (status : UInt8) (eps : List UInt8) (rxHex : Bool) :
    parsePrompt (matchLine srcAddr status eps) rxHex =
      some (prompt (.matchDesc srcAddr status eps)) := by
  have hgroup := (first_eps (if status = zdpSuccess then eps.take 31 else []))
  rw [← List.append_nil (epsText _)] at hgroup
  have hstatus := first_hexText (w := 2) status.toNat_lt
    (epsText (if status = zdpSuccess then eps.take 31 else []) ++ [])
  have haddr := first_hexText (w := 4) srcAddr.toNat_lt (ascii "," ++ (hexText 2 status.toNat ++
    (epsText (if status = zdpSuccess then eps.take 31 else []) ++ [])))
  have hfirst := (first_word "MatchDesc:" _).seq (haddr.seq ((first_word "," _).seq
    (hstatus.seq (hgroup.group.seq first_dollar))))
  rw [matchLine_eq, ← List.append_nil (epsText _)]
  simp only [List.append_assoc]
  rw [parsePrompt_simple (i := 9) rfl (by decide) hfirst]
  simp only [cap, List.nil_append, List.cons_append, List.getD_cons_succ, List.getD_cons_zero,
    Option.getD_some, map_intHex_epsText, prompt]
  split_ifs <;> simp [intHex]

/-! ## Addresses, text and RX -/

/-- The address in front of a field is read if it is there. The field is shorter than an address. -/
theorem first_euiOpt (ieee : Option Ieee) {t : Text} {x : UInt8} (ht : t.length < 16)
    (hx : upperHex x = false) (s : Text) : First euiOpt (euiPart ieee ++ (t ++ x :: s))
      [ieee.map fun a => bytesText a.1.reverse] (t ++ x :: s) := by
  cases ieee with
  | none =>
    have hno : Fails (hexGroup 16) (t ++ x :: s) := by
      have hrep := fails_rep ht hx s
      unfold Fails at hrep ⊢
      rw [hexGroup, Pattern.run, hrep]
      rfl
    exact (hno.seq _).opt
  | some a =>
    have hseq := (first_ieee a _).seq (first_word "," (t ++ x :: s))
    rw [← List.append_assoc] at hseq
    exact hseq.opt

theorem length_euiPart (ieee : Option Ieee) : (euiPart ieee).length ≤ 17 := by
  cases ieee with
  | none => exact Nat.zero_le _
  | some a =>
    rw [euiPart, Option.elim_some, List.length_append, length_atHexRev]
    exact Nat.le_refl _

/-- The tail as it stands behind the data. -/
def tailText (on : Bool) (ind : Ind) : Text :=
  if on then ascii "," ++ (intText ind.rssi.toInt ++ (ascii "," ++ natText ind.lqi.toNat)) else []

theorem tailPart_eq (on : Bool) (ind : Ind) : tailPart on ind = tailText on ind := by
  cases on with
  | false => rfl
  | true =>
    have hrssi : (intText ind.rssi.toInt).length ≤ 4 := by
      have hlo := ind.rssi.le_toInt
      have hhi := ind.rssi.toInt_lt
      have habs : (natText ind.rssi.toInt.natAbs).length ≤ 3 := length_natText_le (by omega)
      unfold intText
      split_ifs
      · exact Nat.succ_le_succ habs
      · exact Nat.le_succ_of_le habs
    have hlqi : (natText ind.lqi.toNat).length ≤ 3 :=
      length_natText_le (Nat.lt_of_lt_of_le ind.lqi.toNat_lt (by decide))
    have hcomma : (ascii ",").length = 1 := rfl
    rw [tailPart, tailText, if_pos rfl, if_pos rfl, snprintf, List.take_of_length_le]
    · simp only [List.append_assoc]
    · simp only [List.length_append, hcomma]
      omega

theorem parseTail_tailText (on : Bool) (ind : Ind) : parseTail (tailText on ind) =
    some (if on then some ind.rssi.toInt else none,
      if on then some (ind.lqi.toNat : ℤ) else none) := by
  cases on with
  | false =>
    rw [parseTail, tailText, if_neg (by decide)]
    exact congrArg (Option.map _) first_tail_nil
  | true =>
    have htail := first_tail ind.rssi.toInt ind.lqi.toNat
    rw [List.append_nil] at htail
    have hfirst : tailPattern.first (tailText true ind) =
        some ([some (intText ind.rssi.toInt), some (natText ind.lqi.toNat)], []) := htail
    rw [parseTail, hfirst]
    simp [capOpt, optInt, intDec]

/-- The prompt that a printed text stands for. -/
def textPrompt (broadcast : Bool) (ieee : Option Ieee) (ind : Ind) (payload : List UInt8)
    (on : Bool) : Prompt :=
  .text (textKind broadcast) (ieee.map fun a => bytesText a.1.reverse) payload
    (if on then some ind.rssi.toInt else none) (if on then some (ind.lqi.toNat : ℤ) else none)

theorem textHead_eq (broadcast : Bool) (ieee : Option Ieee) {len : ℕ} (hlen : len < 256) :
    Report.textHead (textKind broadcast) ieee len =
      textKind broadcast ++ ascii ":" ++ euiPart ieee ++ hexText 2 len ++ ascii "=" := by
  have hkind : (textKind broadcast).length = 5 := by cases broadcast <;> rfl
  have heui := length_euiPart ieee
  have hhex : (hexText 2 len).length = 2 := length_hexText hlen
  rw [Report.textHead, snprintf, List.take_of_length_le]
  simp only [List.length_append, hkind, hhex]
  have hone : (ascii ":").length = 1 ∧ (ascii "=").length = 1 := ⟨rfl, rfl⟩
  omega

theorem first_textKind (broadcast : Bool) (s : Text) :
    First (.group (.alt (word "UCAST") (.alt (word "BCAST") (word "MCAST"))))
      (textKind broadcast ++ s) [some (textKind broadcast)] s := by
  cases broadcast with
  | false => exact ((first_word "UCAST" s).alt_left _).group
  | true =>
    have hb := (first_word "BCAST" s).alt_left (word "MCAST")
    exact (hb.alt_right (a := word "UCAST") (fails_of_heads (by decide) s)).group

/-- Behind the head of a text, the length decides where the data ends. -/
theorem parse_textHead (broadcast : Bool) (ieee : Option Ieee) {n : ℕ} (hn : n < 256) (rest : Text)
    (rxHex : Bool) : parsePrompt (Report.textHead (textKind broadcast) ieee n ++ rest) rxHex =
      if rest.length < n then none
      else (parseTail (rest.drop n)).map fun tail =>
        .text (textKind broadcast) (ieee.map fun a => bytesText a.1.reverse) (rest.take n)
          tail.1 tail.2 := by
  have hhex : (hexText 2 n).length = 2 := length_hexText hn
  have heui := first_euiOpt ieee (t := hexText 2 n) (x := 61) (by omega) (by decide) rest
  have hlen := first_hexText (w := 2) hn (61 :: rest)
  have hfirst := (first_textKind broadcast _).seq ((first_word ":" _).seq (heui.seq
    (hlen.seq (first_word "=" rest))))
  have hkind : ∀ q ∈ simplePrompts, ∀ t ∈ q.1.heads, Apart t (textKind broadcast) := by
    cases broadcast <;> decide
  have hrx : (ascii "RX:").isPrefixOf (textKind broadcast ++ (ascii ":" ++ (euiPart ieee ++
      (hexText 2 n ++ 61 :: rest)))) = false := by
    cases broadcast <;> rfl
  have hline : Report.textHead (textKind broadcast) ieee n ++ rest =
      textKind broadcast ++ (ascii ":" ++ (euiPart ieee ++ (hexText 2 n ++ 61 :: rest))) := by
    rw [textHead_eq broadcast ieee hn]
    simp only [List.append_assoc]
    rfl
  have hm : Host.textHead.first _ = some _ := hfirst
  have hint : intHex (hexText 2 n) = n := by simp [intHex]
  rw [hline, parsePrompt, findSome_none hkind]
  dsimp only
  rw [hrx, if_neg (by decide), parseText, hm]
  simp only [cap, capOpt, List.cons_append, List.nil_append, List.getD_cons_succ,
    List.getD_cons_zero, Option.getD_some, hint, Option.bind_eq_bind, Option.bind_some]
  split_ifs
  · rfl
  · cases parseTail (rest.drop n) <;> rfl

/-- **Text.** The line of a text is parsed back, whatever its bytes are. -/
theorem parse_text (broadcast : Bool) (ieee : Option Ieee) (ind : Ind) {payload : List UInt8}
    (on rxHex : Bool) (hlen : payload.length < 256) :
    parsePrompt (Report.textHead (textKind broadcast) ieee payload.length ++ payload ++
      tailPart on ind) rxHex = some (textPrompt broadcast ieee ind payload on) := by
  rw [List.append_assoc, parse_textHead broadcast ieee hlen, tailPart_eq, if_neg (by simp)]
  simp [parseTail_tailText, textPrompt]

set_option maxRecDepth 4000 in
theorem isspace_of_upperHex : ∀ c, upperHex c = true → isspace c = false :=
  forall_char (by decide)

theorem bytesFromHex_eq {t : Text} (h : ∀ c ∈ t, upperHex c = true) (h2 : t.length % 2 = 0) :
    bytesFromHex t = hexBytes t := by
  induction t using hexBytes.induct with
  | case1 => rfl
  | case2 => simp at h2
  | case3 c d t ih =>
    have hc := isspace_of_upperHex c (h c List.mem_cons_self)
    have ht := ih (fun x hx => h x (by simp [hx])) (by simp only [List.length_cons] at h2; omega)
    simp only [bytesFromHex, hc, Bool.false_eq_true, if_false, hexBytes, ht]

/-- `bytes.fromhex` undoes the printing of bytes. -/
theorem bytesFromHex_bytesText (bs : List UInt8) : bytesFromHex (bytesText bs) = some bs := by
  have hall : ∀ c ∈ bytesText bs, upperHex c = true := by
    intro c hc
    obtain ⟨b, -, hb⟩ := List.mem_flatMap.mp hc
    exact upperHex_hexText 2 b.toNat c hb
  have hlen := (hexBytes_eq_some (hexBytes_bytesText bs)).2.1
  rw [bytesFromHex_eq hall (by omega), hexBytes_bytesText]

theorem length_bytesText (bs : List UInt8) : (bytesText bs).length = 2 * bs.length :=
  (hexBytes_eq_some (hexBytes_bytesText bs)).2.1

/-- The head of an RX line behind the address. -/
def rxFields (ind : Ind) (len : ℕ) : Text :=
  hexText 4 ind.srcAddr.toNat ++ (ascii "," ++ (hexText 4 ind.profileid.toNat ++ (ascii "," ++
    (hexText 2 ind.dstEndpoint.toNat ++ (ascii "," ++ (hexText 2 ind.srcEndpoint.toNat ++
      (ascii "," ++ (hexText 4 ind.clusterid.toNat ++ (ascii "," ++ (hexText 2 len ++
        ascii ":"))))))))))

theorem rxHead_eq (ieee : Option Ieee) (ind : Ind) {len : ℕ} (hlen : len < 256) :
    Report.rxHead ieee ind len = ascii "RX:" ++ (euiPart ieee ++ rxFields ind len) := by
  have heui := length_euiPart ieee
  have hhex : (hexText 2 len).length = 2 := length_hexText hlen
  have hone : (ascii ",").length = 1 ∧ (ascii ":").length = 1 ∧ (ascii "RX:").length = 3 :=
    ⟨rfl, rfl, rfl⟩
  rw [Report.rxHead, snprintf, List.take_of_length_le]
  · simp only [rxFields, List.append_assoc]
  · simp only [List.length_append, length_hexWord, length_hexByte, hhex, hone]
    omega

theorem first_rxHead (ieee : Option Ieee) (ind : Ind) {len : ℕ} (hlen : len < 256) (s : Text) :
    First Host.rxHead (ascii "RX:" ++ (euiPart ieee ++ rxFields ind len) ++ s)
      [ieee.map fun a => bytesText a.1.reverse, some (hexText 4 ind.srcAddr.toNat),
        some (hexText 4 ind.profileid.toNat), some (hexText 2 ind.dstEndpoint.toNat),
        some (hexText 2 ind.srcEndpoint.toNat), some (hexText 4 ind.clusterid.toNat),
        some (hexText 2 len)] s := by
  have haddr := length_hexWord ind.srcAddr
  have hlast := (first_hexText (w := 2) hlen (ascii ":" ++ s)).seq (first_word ":" s)
  have hcluster := (first_hexText (w := 4) ind.clusterid.toNat_lt _).seq
    ((first_word "," _).seq hlast)
  have hsrcEp := (first_hexText (w := 2) ind.srcEndpoint.toNat_lt _).seq
    ((first_word "," _).seq hcluster)
  have hdstEp := (first_hexText (w := 2) ind.dstEndpoint.toNat_lt _).seq
    ((first_word "," _).seq hsrcEp)
  have hprofile := (first_hexText (w := 4) ind.profileid.toNat_lt _).seq
    ((first_word "," _).seq hdstEp)
  have hsrc := (first_hexText (w := 4) ind.srcAddr.toNat_lt _).seq
    ((first_word "," _).seq hprofile)
  have heui := first_euiOpt ieee (t := hexText 4 ind.srcAddr.toNat) (x := 44) (by omega) (by decide)
    _ |>.seq hsrc
  simp only [rxFields, List.append_assoc]
  exact (first_word "RX:" _).seq heui

/-- **RX.** The line of a message in hex is parsed back. -/
theorem parse_rx (ieee : Option Ieee) (ind : Ind) {shown : List UInt8} (on : Bool)
    (hlen : shown.length < 256) :
    parsePrompt (Report.rxHead ieee ind shown.length ++ bytesText shown ++ tailPart on ind) true =
      some (.rx (ieee.map fun a => bytesText a.1.reverse) ind.srcAddr.toNat
        ind.profileid.toNat ind.dstEndpoint.toNat ind.srcEndpoint.toNat ind.clusterid.toNat
        shown (if on then some ind.rssi.toInt else none)
        (if on then some (ind.lqi.toNat : ℤ) else none)) := by
  have hm : Host.rxHead.first _ = some _ :=
    first_rxHead ieee ind hlen (bytesText shown ++ tailText on ind)
  have hdata : (bytesText shown).length = 2 * shown.length := length_bytesText shown
  have hrx : (ascii "RX:").isPrefixOf (ascii "RX:" ++ (euiPart ieee ++
      rxFields ind shown.length ++ (bytesText shown ++ tailText on ind))) = true := by
    simp
  have hint : ∀ w n, intHex (hexText w n) = n := fun w n => by simp [intHex]
  rw [rxHead_eq ieee ind hlen, tailPart_eq]
  simp only [List.append_assoc] at hm hrx ⊢
  rw [parsePrompt, findSome_none (u := ascii "RX:") (by decide)]
  dsimp only
  rw [hrx, if_pos rfl, parseRx, hm]
  simp [cap, capOpt, hint, ← hdata, parseTail_tailText, bytesFromHex_bytesText]

/-! ## Lines -/

/-- What stands between the line ends of a print. -/
def printed : Write → Text
  | .atPrint line => line
  | .atPrintParts head body tail => head.getD [] ++ body.getD [] ++ tail.getD []
  | .echo _ | .binaryPrompt => []

/-- **Structured lines.** Every one is parsed back. -/
theorem parse_line (l : Line) : parsePrompt (printed l.write) true = some (prompt l) := by
  cases l with
  | ok => exact parse_ok true
  | error result => exact parse_error true result
  | seq n => exact parse_seq true n
  | ack n => exact parse_ack true n
  | nack n => exact parse_nack true n
  | jpan channel pan epid => exact parse_jpan true channel pan epid
  | leftPan => exact parse_leftPan true
  | newnode shortAddr ieee => exact parse_newnode true shortAddr ieee
  | nodeleft shortAddr ieee => exact parse_nodeleft true shortAddr ieee
  | announce capability ieee shortAddr => exact parse_announce true capability ieee shortAddr
  | matchDesc srcAddr status eps => exact parse_matchDesc srcAddr status eps true
  | rx ieee ind payload on =>
    have hlen : (payload.take rxShowMax).length < 256 := by
      rw [List.length_take, rxShowMax]
      omega
    exact parse_rx ieee ind on hlen

end ZbAt.Host
