import ZbAt.UartEntry
import ZbAt.Xcast

/-!
# What the host means is what is submitted

The host formats a destination, endpoints, profile, cluster and text into one command; the module
takes the command apart again.

* `typed_line` — a command arrives as one line, or as the overflow mark.
* `Means` — the network address that a destination stands for.
* `xcast_submits` — each of the host's four commands submits exactly one request, the one that is
  meant, or is refused because the text is too long.
-/

namespace ZbAt.Xcast

open Text Sreg Tx Uart Match

/-! ## Lines -/

/-- A text without NUL, BS, LF, CR and DEL. -/
def Typeable (t : Text) : Prop := ∀ c ∈ t, c ≠ 0 ∧ c ≠ 0x08 ∧ c ≠ 0x0A ∧ c ≠ 0x0D ∧ c ≠ 0x7F

instance (t : Text) : Decidable (Typeable t) := List.decidableBAll _ t

section

variable {s t : Text}

@[simp] theorem typeable_append : Typeable (s ++ t) ↔ Typeable s ∧ Typeable t :=
  List.forall_mem_append

set_option maxRecDepth 4000 in
theorem typeable_of_isxdigit : ∀ c, isxdigit c = true →
    c ≠ 0 ∧ c ≠ 0x08 ∧ c ≠ 0x0A ∧ c ≠ 0x0D ∧ c ≠ 0x7F :=
  forall_char (by decide)

theorem typeable_digits (h : ∀ c ∈ t, isxdigit c = true) : Typeable t := fun c hc =>
  typeable_of_isxdigit c (h c hc)

theorem typeable_hexText (w n : ℕ) : Typeable (hexText w n) := typeable_digits (hexText_all w n)

theorem typed_append (l : LineBuf) (a b : List UInt8) :
    typed l (a ++ b) = ((typed (typed l a).1 b).1, (typed l a).2 ++ (typed (typed l a).1 b).2) := by
  induction a generalizing l with
  | nil => rfl
  | cons c a ih => simp only [List.cons_append, typed, ih, List.append_assoc]

/-- A text fills the line up to its last place but one. -/
theorem typed_text (h : Typeable t) {l : Text} {o : Bool} (hl : l.length < atLineMax) :
    typed ⟨l, o⟩ t =
      (⟨(l ++ t).take (atLineMax - 1), o || atLineMax ≤ (l ++ t).length⟩, []) := by
  induction t generalizing l o with
  | nil =>
    have hnot : ¬atLineMax ≤ l.length := by omega
    rw [typed, List.append_nil, List.take_of_length_le (by omega)]
    simp [hnot]
  | cons c t ih =>
    obtain ⟨-, hbs, hlf, hcr, hdel⟩ := h c List.mem_cons_self
    have ht : Typeable t := fun d hd => h d (List.mem_cons_of_mem _ hd)
    by_cases hroom : l.length < atLineMax - 1
    · have hbyte : lineByte c ⟨l, o⟩ = (⟨l ++ [c], o⟩, none) := by
        simp [lineByte, hbs, hlf, hcr, hdel, hroom]
      have hlen : (l ++ [c]).length < atLineMax := by
        rw [List.length_append, List.length_singleton]
        omega
      rw [typed, hbyte]
      dsimp only
      rw [ih ht hlen, List.append_assoc, List.singleton_append]
      rfl
    · -- The line is full.
      have hbyte : lineByte c ⟨l, o⟩ = (⟨l, true⟩, none) := by
        simp [lineByte, hbs, hlf, hcr, hdel, hroom]
      have hfull : atLineMax ≤ (l ++ c :: t).length := by
        rw [List.length_append, List.length_cons]
        omega
      have htake : ∀ u : Text, (l ++ u).take (atLineMax - 1) = l := by
        intro u
        rw [List.take_append_of_le_length (by omega), List.take_of_length_le (by omega)]
      rw [typed, hbyte]
      dsimp only
      rw [ih ht hl, htake, htake, decide_eq_true hfull, Bool.or_true, Bool.true_or]
      rfl

/-- **Lines.** A command becomes one line; one that does not fit becomes the overflow mark. -/
theorem typed_line (h : Typeable t) (hne : t ≠ []) : typed ⟨[], false⟩ (sent t) =
    (⟨[], false⟩, [if t.length < atLineMax then t else lineOverflow]) := by
  have htext := typed_text h (l := []) (o := false) (by decide)
  rw [List.nil_append, Bool.false_or] at htext
  rw [sent, typed_append, htext]
  by_cases hfit : t.length < atLineMax
  · have hnot : ¬atLineMax ≤ t.length := by omega
    rw [if_pos hfit, List.take_of_length_le (by omega)]
    simp [typed, lineByte, hnot, hne]
  · have hover : atLineMax ≤ t.length := by omega
    rw [if_neg hfit]
    simp [typed, lineByte, hover]

end

/-! ## Fields -/

section

variable {field rest t : Text}

theorem nextField_cut (h : 44 ∉ field) (rest : Text) :
    nextField (some (field ++ (ascii "," ++ rest))) = (some field, some rest) := by
  obtain ⟨htake, hcut⟩ := takeWhile_cut h rest
  change nextField (some (field ++ 44 :: rest)) = _
  rw [nextField, hcut, htake]

theorem nextField_last (h : 44 ∉ field) : nextField (some field) = (some field, none) := by
  have hnone : strchr field 44 = none := by
    rcases strchr_cut (t := field) (c := 44) with ⟨hn, -⟩ | ⟨pw, -, hsplit⟩
    · exact hn
    · exact absurd (hsplit ▸ List.mem_append_right _ List.mem_cons_self) h
  rw [nextField, hnone]

theorem afterCommas_cut (h : 44 ∉ field) (n : ℕ) (rest : Text) :
    afterCommas (n + 1) (field ++ (ascii "," ++ rest)) = afterCommas n rest := by
  have hcut := (takeWhile_cut h rest).2
  change (strchr (field ++ 44 :: rest) 44).bind _ = _
  rw [hcut]
  rfl

/-- Digits are no separators. -/
theorem not_mem_digits {c : UInt8} (h : ∀ d ∈ t, isxdigit d = true) (hc : isxdigit c = false) :
    c ∉ t := by
  intro hm
  rw [h c hm] at hc
  cases hc

theorem comma_not_mem_hexText (w n : ℕ) : 44 ∉ hexText w n :=
  not_mem_digits (hexText_all w n) (by decide)

theorem hexField_hexText {w n : ℕ} (h0 : 0 < w) (h8 : w ≤ 8) (hn : n < 16 ^ w) :
    hexField w (some (hexText w n)) = some n := by
  have hlen : (hexText w n).length = w := length_hexText hn
  have hbne : ((hexText w n).length != w) = false := by simp [hlen]
  rw [hexField, hbne, if_neg (by decide), atParseHexN_eq h0 h8, if_neg (by omega),
    List.take_of_length_le (by omega), hexValue_hexText]

end

/-! ## Destinations -/

/-- The network address that a destination stands for: its four digits, or what the stack knows
of the EUI64 of its sixteen. -/
inductive Means (node : Node) : Text → UInt16 → Prop
  | short {addr : Text} {v : ℕ} : addr.length = 4 → hexValue addr = some v →
      Means node addr v.toUInt16
  | eui {addr : Text} {bytes : List UInt8} : addr.length = 16 → hexBytes addr = some bytes →
      node.shortByIeee bytes.reverse ≠ unknownShortAddr →
      Means node addr (node.shortByIeee bytes.reverse)

section

variable {node : Node} {addr text : Text} {dst : UInt16}

theorem Means.digits (h : Means node addr dst) : ∀ c ∈ addr, isxdigit c = true := by
  cases h with
  | short hlen hv => exact (hexValue_eq_some hv).1
  | eui hlen hb hknown => exact (hexBytes_eq_some hb).1

theorem Means.length_le (h : Means node addr dst) : addr.length ≤ 16 := by
  cases h with
  | short hlen hv => omega
  | eui hlen hb hknown => omega

theorem resolve_means (h : Means node addr dst) : resolve node addr = .ok dst := by
  cases h with
  | short hlen hv =>
    have hparse : atParseHexN addr 4 = _ := atParseHexN_eq (by decide) (by decide)
    rw [if_neg (by omega), List.take_of_length_le (by omega), hv] at hparse
    rw [resolve, if_pos hlen, hparse]
  | eui hlen hb hknown =>
    have hparse : atParseHexRev addr 8 = some (_ : List UInt8).reverse :=
      congrArg (Option.map List.reverse) ((parseHexPairs_eq hlen).trans hb)
    rw [resolve, if_neg (by omega), if_neg (by omega), hparse]
    dsimp only
    rw [if_pos hknown]

/-- `parse_target` reads what the host formats. -/
theorem parseTarget_target (h : Means node addr dst) (srcEp dstEp : UInt8)
    (profile cluster : UInt16) (r : TxReq) :
    parseTarget node (some (target addr srcEp dstEp profile cluster)) r =
      .ok { r with
        srcEp := srcEp
        dstEp := dstEp
        profile := profile
        cluster := cluster
        dst := dst } := by
  have haddr : 44 ∉ addr := not_mem_digits h.digits (by decide)
  have h2 : ∀ b : UInt8, hexField 2 (some (hexText 2 b.toNat)) = some b.toNat := fun b =>
    hexField_hexText (by decide) (by decide) b.toNat_lt
  have h4 : ∀ v : UInt16, hexField 4 (some (hexText 4 v.toNat)) = some v.toNat := fun v =>
    hexField_hexText (by decide) (by decide) v.toNat_lt
  simp only [parseTarget, target, nextField_cut haddr, nextField_cut (comma_not_mem_hexText _ _),
    nextField_last (comma_not_mem_hexText _ _), h2, h4, resolve_means h]
  simp

end

/-! ## Handlers -/

section

variable {node : Node} {addr text : Text} {dst : UInt16}

/-- A name of the tables ends at the colon. -/
theorem dispatch_name {name : Text} {h : Handler}
    (hname : (name.all fun c => !isStop c) = true)
    (hfind : cmdTables.flatten.find? (fun c =>
      c.1.length == name.length && c.1.map toupper == name.map toupper) = some (name, h))
    (hs : (toupper (name.getD 0 0) == 83) = false) (hne : name ≠ []) (t : Text) :
    dispatch (ascii "AT" ++ (name ++ 58 :: t)) = .handler h (58 :: t) := by
  have hline : ascii "AT" ++ (name ++ 58 :: t) = 65 :: 84 :: (name ++ 58 :: t) := rfl
  have htake : (name ++ 58 :: t).takeWhile (fun c => !isStop c) = name := by
    rw [List.takeWhile_append_of_pos (List.all_eq_true.mp hname)]
    simp [isStop]
  have hfirst : (name ++ 58 :: t).getD 0 0 = name.getD 0 0 := by
    obtain ⟨c, tl, rfl⟩ := List.exists_cons_of_ne_nil hne
    rfl
  have hup : ¬(toupper (65 : UInt8) ≠ 65 ∨ toupper (84 : UInt8) ≠ 84) := by decide
  have hmark : ¬(65 :: 84 :: (name ++ 58 :: t)).head? = some (1 : UInt8) := by
    rw [List.head?_cons]
    decide
  have hnot : ¬(toupper (name.getD 0 0) = 83 ∧
      isxdigit ((name ++ 58 :: t).getD 1 0) = true) := by
    intro hboth
    rw [hboth.1] at hs
    cases hs
  rw [hline, dispatch, if_neg hmark]
  simp only [List.getD_cons_zero, List.getD_cons_succ]
  rw [if_neg hup]
  simp only [List.drop_succ_cons, List.drop_zero, hfirst]
  rw [if_neg hnot]
  simp only [htake, List.take_left', List.drop_left', hfind]

theorem execute_ucast (hjoined : node.joined = true) (h : Means node addr dst) (text : Text) :
    execute node (ucast addr text) = some (if payloadMax < text.length then
        node.refuse atErrMsgTooLong
      else sendUnicast node (setData text (xcastDefaults node { TxReq.zero with dst := dst }))
        false) := by
  have hline : ucast addr text =
      ascii "AT" ++ (ascii "+UCAST" ++ 58 :: (addr ++ 61 :: text)) := rfl
  have heq : 61 ∉ addr := not_mem_digits h.digits (by decide)
  obtain ⟨htake, hcut⟩ := takeWhile_cut heq text
  rw [execute, hline, dispatch_name (h := .ucast) (by decide) (by decide) (by decide)
    (by decide)]
  simp only [cmdUcast, hjoined, Bool.not_true, Bool.false_eq_true, if_false, hcut, htake,
    resolve_means h]

theorem execute_bcast (hjoined : node.joined = true) {hops : ℕ} (hhops : hops ≤ 30) (text : Text) :
    execute node (bcast text hops) = some (if payloadMax < text.length then
        node.refuse atErrMsgTooLong
      else
        let r := setData text { xcastDefaults node .zero with dst := broadcastRouterCoordinator }
        ⟨node.submit r, [r], [], node.nextSeq⟩) := by
  have hline : bcast text hops =
      ascii "AT" ++ (ascii "+BCAST" ++ 58 :: (decDigits 2 hops ++ 44 :: text)) := rfl
  have hstrtol : strtol (decDigits 2 hops ++ 44 :: text) = ((hops : ℤ), 44 :: text) := by
    have hstop : ∀ c ∈ (44 :: text).head?, isdigit c = false := by simp; decide
    rw [strtol_decDigits (by decide) hops hstop]
    have hclamp : clampLong (hops : ℤ) = hops := by
      unfold clampLong longMax
      omega
    rw [hclamp]
  have hlen : (decDigits 2 hops).length = 2 := by
    rw [decDigits, List.length_map, length_printNum (by decide) (by omega)]
  have hok : ¬((44 :: text).length + 2 ≠ (decDigits 2 hops ++ 44 :: text).length ∨
      (44 :: text).head? ≠ some (44 : UInt8) ∨ (hops : ℤ) < 0 ∨ (hops : ℤ) > 30) := by
    rw [List.length_append, hlen, List.head?_cons]
    simp only [not_or, not_not, not_lt, gt_iff_lt]
    exact ⟨Nat.add_comm _ _, trivial, by omega, by omega⟩
  rw [execute, hline, dispatch_name (h := .bcast) (by decide) (by decide) (by decide)
    (by decide)]
  simp only [cmdBcast, hjoined, Bool.not_true, Bool.false_eq_true, if_false, hstrtol]
  rw [if_neg hok]
  rfl

theorem execute_senducast (hjoined : node.joined = true) (h : Means node addr dst)
    (srcEp dstEp : UInt8) (profile cluster : UInt16) (text : Text) :
    execute node (senducast addr srcEp dstEp profile cluster text) =
      some (if payloadMax < text.length then node.refuse atErrMsgTooLong
        else sendUnicast node (setData text { TxReq.zero with
          srcEp := srcEp
          dstEp := dstEp
          profile := profile
          cluster := cluster
          dst := dst }) (sregBit 0x10 s10QuietSend node.vals)) := by
  have hline : senducast addr srcEp dstEp profile cluster text = ascii "AT" ++
      (ascii "+SENDUCAST" ++ 58 :: (target addr srcEp dstEp profile cluster ++ 44 :: text)) := rfl
  have haddr : 44 ∉ addr := not_mem_digits h.digits (by decide)
  have hhex := comma_not_mem_hexText
  have hcut : afterCommas 5 (target addr srcEp dstEp profile cluster ++ 44 :: text) =
      some text := by
    simp only [target, List.append_assoc]
    rw [afterCommas_cut haddr, afterCommas_cut (hhex _ _), afterCommas_cut (hhex _ _),
      afterCommas_cut (hhex _ _)]
    exact afterCommas_cut (hhex 4 cluster.toNat) 0 text
  have htake : (target addr srcEp dstEp profile cluster ++ 44 :: text).take
      ((target addr srcEp dstEp profile cluster ++ 44 :: text).length - text.length - 1) =
        target addr srcEp dstEp profile cluster := by
    apply List.take_left'
    rw [List.length_append, List.length_cons]
    omega
  rw [execute, hline, dispatch_name (h := .senducast) (by decide) (by decide) (by decide)
    (by decide)]
  simp only [cmdSenducast, hjoined, Bool.not_true, Bool.false_eq_true, if_false, hcut, htake,
    parseTarget_target h]

theorem execute_senducastb (hjoined : node.joined = true) (h : Means node addr dst)
    (srcEp dstEp : UInt8) (profile cluster : UInt16) {data : List UInt8}
    (hlen : 0 < data.length ∧ data.length ≤ payloadMax)
    (hread : node.readBinary data.length = some data) :
    execute node (senducastb addr srcEp dstEp profile cluster data.length) =
      some (sendUnicast node (setData data { TxReq.zero with
        srcEp := srcEp
        dstEp := dstEp
        profile := profile
        cluster := cluster
        dst := dst }) (sregBit 0x10 s10QuietSend node.vals)) := by
  have hline : senducastb addr srcEp dstEp profile cluster data.length = ascii "AT" ++
      (ascii "+SENDUCASTB" ++ 58 :: (hexText 2 data.length ++
        (ascii "," ++ target addr srcEp dstEp profile cluster))) := rfl
  have hfield : hexField 2 (some (hexText 2 data.length)) = some data.length :=
    hexField_hexText (by decide) (by decide) (by unfold payloadMax at hlen; omega)
  have hcut := nextField_cut (comma_not_mem_hexText 2 data.length)
    (target addr srcEp dstEp profile cluster)
  rw [execute, hline, dispatch_name (h := .senducastb) (by decide) (by decide) (by decide)
    (by decide)]
  simp only [cmdSenducastb, hjoined, Bool.not_true, Bool.false_eq_true, if_false, hcut, hfield,
    parseTarget_target h, hread]
  rw [if_neg (by omega), if_neg (by omega)]

end

/-! ## What is meant -/

/-- An acknowledged request. -/
def unicast (node : Node) (dst : UInt16) (srcEp dstEp : UInt8) (profile cluster : UInt16)
    (quiet : Bool) (data : List UInt8) : TxReq where
  dst := dst
  profile := profile
  cluster := cluster
  srcEp := srcEp
  dstEp := dstEp
  seq := node.nextSeq
  ack := true
  quiet := quiet
  len := data.length.toUInt8
  data := data

/-- The request of a text: endpoints from `S40`, cluster from `S42`, profile from `S44`. -/
def textTo (node : Node) (dst : UInt16) (text : List UInt8) : TxReq :=
  unicast node dst (sregU32 0x40 node.vals / 256).toUInt8 (sregU32 0x40 node.vals).toUInt8
    (sregU32 0x44 node.vals).toUInt16 (sregU32 0x42 node.vals).toUInt16 false text

/-- The request of a broadcast text: to `FFFC`, and not acknowledged. -/
def textToAll (node : Node) (text : List UInt8) : TxReq :=
  { textTo node 0xFFFC text with ack := false, seq := 0 }

/-- The command becomes one line, and the line one request; or the data is too long. -/
def Submits (node : Node) (command : Text) (data : List UInt8) (r : TxReq) : Prop :=
  ∃ line ran, typed ⟨[], false⟩ (sent command) = (⟨[], false⟩, [line]) ∧
    execute node line = some ran ∧
    (data.length ≤ 82 → ran.submitted = [r] ∧ ran.result = node.submit r) ∧
    (82 < data.length → ran.submitted = [] ∧ ran.result = 0x74)

section

variable {node : Node} {addr text : Text} {dst : UInt16}

theorem submits_of_execute {command : Text} {data : List UInt8} {r : TxReq} {ran : Ran}
    (hcommand : Typeable command) (hne : command ≠ [])
    (hfit : data.length ≤ 82 → command.length < atLineMax)
    (hexec : execute node command =
      some (if payloadMax < data.length then node.refuse atErrMsgTooLong else ran))
    (hran : ran.submitted = [r] ∧ ran.result = node.submit r) : Submits node command data r := by
  have hline := typed_line hcommand hne
  by_cases hlong : 82 < data.length
  · have hmax : payloadMax < data.length := hlong
    have hrefuse : execute node command = some (node.refuse atErrMsgTooLong) := by
      rw [hexec, if_pos hmax]
    refine ⟨_, node.refuse atErrMsgTooLong, hline, ?_, fun h => by omega, fun _ => ⟨rfl, rfl⟩⟩
    split_ifs
    · exact hrefuse
    · rfl
  · have hmax : ¬payloadMax < data.length := hlong
    refine ⟨_, ran, hline, ?_, fun _ => hran, fun h => absurd h hlong⟩
    rw [if_pos (hfit (by omega)), hexec, if_neg hmax]

theorem sendUnicast_eq (node : Node) (r : TxReq) (quiet : Bool) :
    (sendUnicast node r quiet).submitted = [{ r with
      ack := true
      quiet := quiet
      seq := node.nextSeq }] ∧
    (sendUnicast node r quiet).result = node.submit { r with
      ack := true
      quiet := quiet
      seq := node.nextSeq } := ⟨rfl, rfl⟩

theorem typeable_target (h : Means node addr dst) (srcEp dstEp : UInt8) (profile cluster : UInt16) :
    Typeable (target addr srcEp dstEp profile cluster) := by
  simp only [target, typeable_append, typeable_hexText, typeable_digits h.digits, and_true,
    true_and]
  decide

theorem length_target (h : Means node addr dst) (srcEp dstEp : UInt8) (profile cluster : UInt16) :
    (target addr srcEp dstEp profile cluster).length ≤ 32 := by
  have haddr := h.length_le
  have hcomma : (ascii ",").length = 1 := rfl
  simp only [target, List.length_append, length_hexByte, length_hexWord, hcomma]
  omega

theorem submits_ucast (hjoined : node.joined = true) (h : Means node addr dst)
    (htext : Typeable text) : Submits node (ucast addr text) text (textTo node dst text) := by
  refine submits_of_execute ?_ (List.cons_ne_nil _ _) (fun hle => ?_)
    (execute_ucast hjoined h text) ?_
  · simp only [ucast, typeable_append, typeable_digits h.digits, htext, and_true, true_and]
    decide
  · have haddr := h.length_le
    have hwords : (ascii "AT+UCAST:").length = 9 ∧ (ascii "=").length = 1 := ⟨rfl, rfl⟩
    simp only [ucast, List.length_append, hwords, atLineMax]
    omega
  · have hsend := sendUnicast_eq node
      (setData text (xcastDefaults node { TxReq.zero with dst := dst })) false
    have hr : { setData text (xcastDefaults node { TxReq.zero with dst := dst }) with
        ack := true, quiet := false, seq := node.nextSeq } = textTo node dst text := by
      have hshift : sregU32 0x40 node.vals >>> 8 = sregU32 0x40 node.vals / 256 :=
        Nat.shiftRight_eq_div_pow _ 8
      simp only [setData, xcastDefaults, TxReq.zero, textTo, unicast, hshift]
    rwa [hr] at hsend

theorem submits_bcast (hjoined : node.joined = true) {hops : ℕ} (hhops : hops ≤ 30)
    (htext : Typeable text) : Submits node (bcast text hops) text (textToAll node text) := by
  have hdigits : ∀ c ∈ decDigits 2 hops, isxdigit c = true := fun c hc =>
    isxdigit_of_isdigit (decDigits_all 2 hops c hc)
  refine submits_of_execute ?_ (List.cons_ne_nil _ _) (fun hle => ?_)
    (execute_bcast hjoined hhops text) ?_
  · simp only [bcast, typeable_append, typeable_digits hdigits, htext, and_true, true_and]
    decide
  · have hlen : (decDigits 2 hops).length = 2 := by
      rw [decDigits, List.length_map, length_printNum (by decide) (by omega)]
    have hwords : (ascii "AT+BCAST:").length = 9 ∧ (ascii ",").length = 1 := ⟨rfl, rfl⟩
    simp only [bcast, List.length_append, hwords, hlen, atLineMax]
    omega
  · have hr : setData text { xcastDefaults node .zero with dst := broadcastRouterCoordinator } =
        textToAll node text := by
      have hshift : sregU32 0x40 node.vals >>> 8 = sregU32 0x40 node.vals / 256 :=
        Nat.shiftRight_eq_div_pow _ 8
      simp only [setData, xcastDefaults, TxReq.zero, textToAll, textTo, unicast, hshift]
      rfl
    dsimp only
    rw [hr]
    exact ⟨rfl, rfl⟩

theorem submits_senducast (hjoined : node.joined = true) (h : Means node addr dst)
    (srcEp dstEp : UInt8) (profile cluster : UInt16) (htext : Typeable text) :
    Submits node (senducast addr srcEp dstEp profile cluster text) text
      (unicast node dst srcEp dstEp profile cluster (sregBit 0x10 0xB node.vals) text) := by
  refine submits_of_execute ?_ (List.cons_ne_nil _ _) (fun hle => ?_)
    (execute_senducast hjoined h srcEp dstEp profile cluster text) (sendUnicast_eq node _ _)
  · simp only [senducast, typeable_append, typeable_target h, htext, and_true]
    decide
  · have htarget := length_target h srcEp dstEp profile cluster
    have hwords : (ascii "AT+SENDUCAST:").length = 13 ∧ (ascii ",").length = 1 := ⟨rfl, rfl⟩
    simp only [senducast, List.length_append, hwords, atLineMax]
    omega

theorem submits_senducastb (hjoined : node.joined = true) (h : Means node addr dst)
    (srcEp dstEp : UInt8) (profile cluster : UInt16) {data : List UInt8} (hne : data ≠ [])
    (hlen : data.length ≤ 82) (hread : node.readBinary data.length = some data) :
    Submits node (senducastb addr srcEp dstEp profile cluster data.length) data
      (unicast node dst srcEp dstEp profile cluster (sregBit 0x10 0xB node.vals) data) := by
  have hmax : ¬payloadMax < data.length := Nat.not_lt.mpr hlen
  have hexec := execute_senducastb hjoined h srcEp dstEp profile cluster
    ⟨List.length_pos_iff.mpr hne, hlen⟩ hread
  refine submits_of_execute ?_ (List.cons_ne_nil _ _) (fun _ => ?_)
    (hexec.trans (congrArg some (if_neg hmax).symm)) (sendUnicast_eq node _ _)
  · simp only [senducastb, typeable_append, typeable_target h, typeable_hexText, and_true,
      true_and]
    decide
  · have htarget := length_target h srcEp dstEp profile cluster
    have hhex : (hexText 2 data.length).length = 2 := length_hexText (by omega)
    have hwords : (ascii "AT+SENDUCASTB:").length = 14 ∧ (ascii ",").length = 1 := ⟨rfl, rfl⟩
    simp only [senducastb, List.length_append, hwords, hhex, atLineMax]
    omega

/-- **What the host means is submitted.** On a joined node, each command submits exactly one
request: to the destination meant, with the endpoints, profile and cluster given or those of the
S-registers, and with exactly the data. Text of more than 82 bytes is refused. -/
theorem xcast_submits (hjoined : node.joined = true) (hmeans : Means node addr dst)
    (srcEp dstEp : UInt8) (profile cluster : UInt16) {hops : ℕ} (hhops : hops ≤ 30)
    (htext : Typeable text) :
    Submits node (ucast addr text) text (textTo node dst text) ∧
    Submits node (bcast text hops) text (textToAll node text) ∧
    Submits node (senducast addr srcEp dstEp profile cluster text) text
      (unicast node dst srcEp dstEp profile cluster (sregBit 0x10 0xB node.vals) text) ∧
    ∀ (s : Bin.State) (chunks : List (List UInt8)), s.at_ = .idle → s.rx = .idle →
      chunks.flatten ≠ [] → chunks.flatten.length ≤ 82 →
        Submits { node with readBinary := Bin.receive s chunks }
          (senducastb addr srcEp dstEp profile cluster chunks.flatten.length) chunks.flatten
          (unicast node dst srcEp dstEp profile cluster (sregBit 0x10 0xB node.vals)
            chunks.flatten) := by
  refine ⟨submits_ucast hjoined hmeans htext, submits_bcast hjoined hhops htext,
    submits_senducast hjoined hmeans srcEp dstEp profile cluster htext, ?_⟩
  intro s chunks hat hrx hne hlen
  have hmeans' : Means { node with readBinary := Bin.receive s chunks } addr dst := by
    cases hmeans with
    | short h4 hv => exact .short h4 hv
    | eui h16 hb hknown => exact .eui h16 hb hknown
  have hread := Bin.receive_eq hat hrx hne
  have hjoined' : { node with readBinary := Bin.receive s chunks }.joined = true := hjoined
  exact submits_senducastb hjoined' hmeans' srcEp dstEp profile cluster hne hlen hread

end

/-- A joined node that knows no EUI64 and accepts every request. -/
def sampleNode : Node where
  joined := true
  vals := loadDefaults
  nextSeq := 7
  shortByIeee := fun _ => unknownShortAddr
  discover := fun _ => .error atErrInvalidParam
  submit := fun _ => atOk
  readBinary := fun _ => none

theorem xcast_submits_text :
    Submits sampleNode (ucast (ascii "1a2B") (ascii "a,b=c:?")) (ascii "a,b=c:?")
      (textTo sampleNode 0x1A2B (ascii "a,b=c:?")) ∧
    Submits sampleNode (bcast (ascii "a,b=c:?") 30) (ascii "a,b=c:?")
      (textToAll sampleNode (ascii "a,b=c:?")) ∧
    Submits sampleNode (senducast (ascii "1a2B") 1 0xFF 0xC091 0xFFFF (ascii "a,b=c:?"))
      (ascii "a,b=c:?") (unicast sampleNode 0x1A2B 1 0xFF 0xC091 0xFFFF
        (sregBit 0x10 0xB sampleNode.vals) (ascii "a,b=c:?")) ∧
    ∀ (s : Bin.State) (chunks : List (List UInt8)), s.at_ = .idle → s.rx = .idle →
      chunks.flatten ≠ [] → chunks.flatten.length ≤ 82 →
        Submits { sampleNode with readBinary := Bin.receive s chunks }
          (senducastb (ascii "1a2B") 1 0xFF 0xC091 0xFFFF chunks.flatten.length) chunks.flatten
          (unicast sampleNode 0x1A2B 1 0xFF 0xC091 0xFFFF (sregBit 0x10 0xB sampleNode.vals)
            chunks.flatten) :=
  xcast_submits rfl (.short rfl (by decide)) 1 0xFF 0xC091 0xFFFF (by decide) (by decide)

end ZbAt.Xcast
