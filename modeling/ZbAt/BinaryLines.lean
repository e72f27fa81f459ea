import ZbAt.BinaryCall
import ZbAt.MatchSyntax

/-!
# What a call of `senducastb` sends, and the lines that answer it

* `isSignal` — the lines that a call waits for; `result_word` — what they start with.
* `not_signal_echoed`, `unasked_bytes` — parts of the echo and prompts are no signals.
* `replies` — the lines that the module prints for a call, each of them a signal.
* `Executed.request` — the one request that a call submits.
-/

namespace ZbAt.BinaryCall

open Text Uart Host Sreg Xcast Tx Match Endpoint
open SwitchBulb (isRecorded)

/-! ## Signals -/

/-- `>`, and the prompts that are no event: `OK`, `ERROR:` and `SEQ:`. -/
def isSignal (line : Text) : Bool :=
  line = [0x3E] || (parsePrompt line true).any fun p => !isRecorded p

section

variable {rxHex : Bool} {l t : Text} {p : Prompt}

theorem recorded_of_rx (h : parseRx l rxHex = some p) : isRecorded p = true := by
  unfold parseRx at h
  simp only [Option.bind_eq_bind, Option.bind_eq_some_iff, Option.pure_def] at h
  obtain ⟨m, -, h⟩ := h
  split_ifs at h
  all_goals
    obtain ⟨tail, -, h⟩ := Option.bind_eq_some_iff.mp h
    obtain ⟨payload, -, h⟩ := Option.bind_eq_some_iff.mp h
    cases h
    rfl

theorem recorded_of_text (h : parseText l = some p) : isRecorded p = true := by
  unfold parseText at h
  simp only [Option.bind_eq_bind, Option.bind_eq_some_iff, Option.pure_def] at h
  obtain ⟨m, -, h⟩ := h
  split_ifs at h
  obtain ⟨tail, -, h⟩ := Option.bind_eq_some_iff.mp h
  cases h
  rfl

/-- The words that a result starts with. -/
def resultWords : List Text := [ascii "OK", ascii "ERROR:", ascii "SEQ:"]

theorem heads_of_result : ∀ q ∈ simplePrompts, ∀ m, isRecorded (q.2 m) = false →
    ∀ t ∈ q.1.heads, t ∈ resultWords := by
  simp [simplePrompts, isRecorded, chain, word, Pattern.heads, resultWords]

/-- A result is one in either mode, and starts with one of these words. -/
theorem result_word (h : parsePrompt l rxHex = some p) (hp : isRecorded p = false) :
    (∀ mode, parsePrompt l mode = some p) ∧ ∃ w ∈ resultWords, w <+: l := by
  cases hfind : simplePrompts.findSome? fun q => (q.1.first l).map fun m => q.2 m.1 with
  | some prompt =>
    have hall : ∀ mode, parsePrompt l mode = some prompt := by
      intro mode
      rw [parsePrompt, hfind]
    obtain rfl : prompt = p := Option.some.inj ((hall rxHex).symm.trans h)
    refine ⟨hall, ?_⟩
    obtain ⟨q, hq, hm⟩ := List.exists_of_findSome?_eq_some hfind
    obtain ⟨m, hm, rfl⟩ := Option.map_eq_some_iff.mp hm
    have hmatch : ¬Fails q.1 l := by
      intro hf
      rw [hf.first] at hm
      cases hm
    obtain ⟨w, hw, hpre⟩ := exists_head hmatch
    exact ⟨w, heads_of_result q hq _ hp w hw, hpre⟩
  | none =>
    rw [parsePrompt, hfind] at h
    dsimp only at h
    split_ifs at h
    · rw [recorded_of_rx h] at hp
      cases hp
    · rw [recorded_of_text h] at hp
      cases hp

/-- A prompt that is an event is no signal. -/
theorem not_signal_of_parse (hplain : Plain l) (h : parsePrompt l rxHex = some p)
    (hp : isRecorded p = true) : isSignal l = false := by
  rw [Bool.eq_false_iff]
  intro hs
  rcases Bool.or_eq_true_iff.mp hs with hgt | hres
  · rw [of_decide_eq_true hgt] at hplain
    exact hplain.prompt rfl
  · obtain ⟨p', hp', hrec⟩ := Option.any_eq_true _ _ |>.mp hres
    have hother := (result_word hp' (Bool.not_eq_true' _ |>.mp hrec)).1 rxHex
    rw [h] at hother
    cases hother
    rw [hp] at hrec
    cases hrec

/-- The bytes of an echo: no line end but CR, no `>`, and none of `K`, `R` and `Q`. -/
def Echoed (bytes : List UInt8) : Prop :=
  ∀ c ∈ bytes, c ≠ 0x0A ∧ c ≠ 0x3E ∧ c ≠ 0x4B ∧ c ≠ 0x52 ∧ c ≠ 0x51

instance (bytes : List UInt8) : Decidable (Echoed bytes) := List.decidableBAll _ bytes

theorem echoed_nil : Echoed [] := by decide

theorem echoed_append {a b : List UInt8} : Echoed (a ++ b) ↔ Echoed a ∧ Echoed b :=
  List.forall_mem_append

/-- No part of an echo is a signal. -/
theorem not_signal_echoed (h : Echoed l) : isSignal l = false := by
  rw [Bool.eq_false_iff]
  intro hs
  rcases Bool.or_eq_true_iff.mp hs with hgt | hres
  · rw [of_decide_eq_true hgt] at h
    exact (h 0x3E List.mem_cons_self).2.1 rfl
  · obtain ⟨p, hp, hrec⟩ := Option.any_eq_true _ _ |>.mp hres
    obtain ⟨-, w, hw, hpre⟩ := result_word hp (Bool.not_eq_true' _ |>.mp hrec)
    have hbad : ∀ w ∈ resultWords, ¬Echoed w := by decide
    exact hbad w hw fun c hc => h c (hpre.subset hc)

/-! ## The reader -/

theorem feed_echoed {buf bytes : List UInt8} (hbuf : Echoed buf) (h : Echoed bytes) :
    (feed buf bytes).2 = [] ∧ Echoed (feed buf bytes).1 := by
  induction bytes generalizing buf with
  | nil => exact ⟨rfl, hbuf⟩
  | cons c bytes ih =>
    obtain ⟨hlf, hgt, hword⟩ := h c List.mem_cons_self
    have hrest : Echoed bytes := fun d hd => h d (List.mem_cons_of_mem _ hd)
    have hbyte : (feedByte buf c).2 = [] ∧ Echoed (feedByte buf c).1 := by
      unfold feedByte
      rw [if_neg hlf]
      by_cases hcr : c = 0x0D
      · rw [if_pos hcr]
        exact ⟨rfl, hbuf⟩
      · have hone : buf ++ [c] ≠ [0x3E] := by
          intro heq
          have hmem : c ∈ buf ++ [c] := List.mem_append_right _ List.mem_cons_self
          rw [heq, List.mem_singleton] at hmem
          exact hgt hmem
        have hlast : Echoed [c] := fun d hd => List.mem_singleton.mp hd ▸ ⟨hlf, hgt, hword⟩
        rw [if_neg hcr, if_neg hone]
        exact ⟨rfl, echoed_append.mpr ⟨hbuf, hlast⟩⟩
    obtain ⟨hlines, hbuf'⟩ := ih hbyte.2 hrest
    simp only [feed]
    rw [hbyte.1, hlines]
    exact ⟨rfl, hbuf'⟩

theorem feed_entry (buf : Text) : feed buf Write.binaryPrompt.bytes = ([], [buf, [0x3E]]) := by
  have hbytes : Write.binaryPrompt.bytes = crlf ++ [0x3E] := rfl
  rw [hbytes, feed_append, feed_crlf]
  rfl

/-- A line that is printed on its own. -/
structure Reply (l : Text) : Prop where
  plain : Plain l
  length : l.length ≤ 255

theorem Reply.feed (h : Reply l) (buf : Text) :
    Host.feed buf (Write.atPrint l).bytes = ([], [buf, l]) := by
  rw [bytes_atPrint h.length]
  exact feed_frame h.plain buf

/-- What the ZBOSS thread prints is at most a line, and no signal. -/
theorem unasked_bytes {i : Receive.Item} (h : Unasked rxHex i) :
    i.bytes = [] ∨ ∃ t, i.bytes = crlf ++ t ++ crlf ∧ Plain t ∧ isSignal t = false := by
  cases i with
  | frame v f =>
    rcases Receive.frame_line h with ⟨hnone, -⟩ | ⟨t, p, hbytes, hplain, hparse, hrec, -⟩
    · exact .inl hnone
    · exact .inr ⟨t, hbytes, hplain, not_signal_of_parse hplain hparse hrec⟩
  | line l =>
    obtain ⟨hok, herror, hseq, hrx⟩ := h
    have hplain : Plain (printed l.write) := (clean_line l).1.plain
    refine .inr ⟨printed l.write, bytes_line l, hplain, ?_⟩
    refine not_signal_of_parse hplain (Receive.parse_fixed l hrx rxHex) ?_
    cases l with
    | ok => exact absurd rfl hok
    | error code => exact absurd rfl (herror code)
    | seq n => exact absurd rfl (hseq n)
    | ack | nack | jpan | leftPan | newnode | nodeleft | announce | matchDesc | rx => rfl
  | value t => exact h.elim
  | echo command => exact h.elim
  | entry => exact h.elim

end

/-! ## Replies -/

/-- The lines printed for an executed line. -/
def replies (e : Exec) : List Text := e.ran.printed ++ printResult e.ran.result e.node.vals

/-- `SEQ:`, with a sequence number. -/
def seqLine (seq : UInt8) : Text := ascii "SEQ:" ++ hexText 2 seq.toNat

/-- `ERROR:`, with a code. -/
def errorLine (code : UInt8) : Text := ascii "ERROR:" ++ hexText 2 code.toNat

theorem reply_of_clean {l : Text} (h : Clean l) (hlen : l.length ≤ 255) : Reply l := ⟨h.plain, hlen⟩

theorem reply_seq (seq : UInt8) : Reply (seqLine seq) := by
  refine reply_of_clean (clean_append.mpr ⟨by decide, clean_hexText 2 _⟩) ?_
  have hword : (ascii "SEQ:").length = 4 := rfl
  rw [seqLine, List.length_append, length_hexByte, hword]
  decide

theorem reply_error (code : UInt8) : Reply (errorLine code) := by
  refine reply_of_clean (clean_append.mpr ⟨by decide, clean_hexText 2 _⟩) ?_
  have hword : (ascii "ERROR:").length = 6 := rfl
  rw [errorLine, List.length_append, length_hexByte, hword]
  decide

theorem reply_ok : Reply (ascii "OK") := reply_of_clean (by decide) (by decide)

theorem seq_ne_ok (seq : UInt8) : seqLine seq ≠ ascii "OK" := by
  intro h
  cases h

theorem error_ne_ok (code : UInt8) : errorLine code ≠ ascii "OK" := by
  intro h
  cases h

theorem errorCode_seq (seq : UInt8) : errorCode (seqLine seq) = none := by
  rw [errorCode, seqLine, parse_seq]

theorem errorCode_error (code : UInt8) : errorCode (errorLine code) = some code.toNat := by
  rw [errorCode, errorLine, parse_error]

theorem signal_of_parse {l : Text} {p : Prompt} (h : parsePrompt l true = some p)
    (hp : isRecorded p = false) : isSignal l = true := by
  rw [isSignal, h]
  simp [hp]

theorem signal_seq (seq : UInt8) : isSignal (seqLine seq) = true :=
  signal_of_parse (parse_seq true seq) rfl

theorem signal_error (code : UInt8) : isSignal (errorLine code) = true :=
  signal_of_parse (parse_error true code) rfl

theorem signal_ok : isSignal (ascii "OK") = true := signal_of_parse (parse_ok true) rfl

theorem not_code_of_quiet {l : Text} (h : isSignal l = false) :
    l ≠ [0x3E] ∧ l ≠ ascii "OK" ∧ errorCode l = none ∧ seqCode l = none := by
  have hparse : ∀ p, parsePrompt l true = some p → isRecorded p = true := by
    intro p hp
    by_contra hrec
    rw [signal_of_parse hp (Bool.not_eq_true _ |>.mp hrec)] at h
    cases h
  refine ⟨?_, ?_, ?_, ?_⟩
  · rintro rfl
    cases h
  · rintro rfl
    rw [signal_ok] at h
    cases h
  · unfold errorCode
    split
    · rename_i code hp
      cases hparse _ hp
    · rfl
  · unfold seqCode
    split
    · rename_i seq hp
      cases hparse _ hp
    · rfl

/-- `_seq` looks at the signals only. -/
theorem seqOf_signals (lines : List Text) : seqOf (lines.filter isSignal) = seqOf lines := by
  suffices h : (lines.filter isSignal).findSome? seqCode = lines.findSome? seqCode by
    rw [seqOf, h, seqOf]
  induction lines with
  | nil => rfl
  | cons l lines ih =>
    cases hl : isSignal l with
    | true =>
      rw [List.filter_cons_of_pos hl, List.findSome?_cons, List.findSome?_cons, ih]
    | false =>
      rw [List.filter_cons_of_neg (by simp [hl]), List.findSome?_cons,
        (not_code_of_quiet hl).2.2.2, ih]

/-- What a handler prints is a sequence number at most, and its result is a byte. -/
structure Proper (ran : Ran) : Prop where
  printed : ran.printed = [] ∨ ∃ seq, ran.printed = [seqLine seq]
  result : ran.result < 256

/-- The line of the result, if it is printed at all. -/
theorem printResult_cases {result : ℕ} (h : result < 256) (v : Vals) :
    printResult result v = [] ∨ result = 0 ∧ printResult result v = [ascii "OK"] ∨
      ∃ code : UInt8, result = code.toNat ∧ 0 < result ∧
        printResult result v = [errorLine code] := by
  unfold printResult
  by_cases hok : result = atOk ∧ (!sregBit 0x0E 1 v) = true
  · rw [if_pos hok]
    exact .inr (.inl ⟨hok.1, rfl⟩)
  rw [if_neg hok]
  by_cases herror : result > 0 ∧ (!sregBit 0x0E 0 v) = true
  · have hcode : result = (UInt8.ofNat result).toNat := by
      rw [UInt8.toNat_ofNat', Nat.mod_eq_of_lt h]
    rw [if_pos herror]
    exact .inr (.inr ⟨UInt8.ofNat result, hcode, herror.1, by rw [errorLine, ← hcode]⟩)
  · rw [if_neg herror]
    exact .inl rfl

/-- All replies are signals, on lines of their own. -/
theorem mem_replies {e : Exec} (h : Proper e.ran) {l : Text} (hl : l ∈ replies e) :
    Reply l ∧ isSignal l = true := by
  rcases List.mem_append.mp hl with hl | hl
  · rcases h.printed with hnone | ⟨seq, hseq⟩
    · rw [hnone] at hl
      cases hl
    · rw [hseq, List.mem_singleton] at hl
      exact hl ▸ ⟨reply_seq seq, signal_seq seq⟩
  · rcases printResult_cases h.result e.node.vals with hnone | ⟨-, hok⟩ | ⟨code, -, -, herror⟩
    · rw [hnone] at hl
      cases hl
    · rw [hok, List.mem_singleton] at hl
      exact hl ▸ ⟨reply_ok, signal_ok⟩
    · rw [herror, List.mem_singleton] at hl
      exact hl ▸ ⟨reply_error code, signal_error code⟩

/-! ## The command of a call -/

/-- The address is hex digits. -/
def Call.Valid (c : Call) : Prop := ∀ d ∈ c.addr, isxdigit d = true

/-- The arguments of the command, after the colon. -/
def Call.args (c : Call) : Text :=
  hexText 2 c.data.length ++ (ascii "," ++ target c.addr c.srcEp c.dstEp c.profile c.cluster)

section

variable {c : Call} {node : Node} {args : Text} {len err : ℕ} {r : TxReq}

set_option maxRecDepth 4000 in
theorem echoed_of_isxdigit : ∀ d, isxdigit d = true →
    d ≠ 0x0A ∧ d ≠ 0x3E ∧ d ≠ 0x4B ∧ d ≠ 0x52 ∧ d ≠ 0x51 :=
  forall_char (by decide)

theorem echoed_digits {t : Text} (h : ∀ d ∈ t, isxdigit d = true) : Echoed t :=
  fun d hd => echoed_of_isxdigit d (h d hd)

theorem echoed_hexText (w n : ℕ) : Echoed (hexText w n) := echoed_digits (hexText_all w n)

/-- The echo of a command, and all its parts. -/
theorem Call.Valid.echoed (h : c.Valid) : Echoed (sent c.command) := by
  have haddr : Echoed c.addr := echoed_digits h
  simp only [sent, Call.command, senducastb, target, echoed_append, echoed_hexText, haddr,
    and_true, true_and]
  decide

theorem Call.Valid.typeable (h : c.Valid) : Typeable c.command := by
  have haddr : Typeable c.addr := typeable_digits h
  simp only [Call.command, senducastb, target, typeable_append, typeable_hexText, haddr, and_true,
    true_and]
  decide

theorem Call.isAt (c : Call) : IsAt c.command := rfl

theorem Call.typed (h : c.Valid) : Xcast.typed ⟨[], false⟩ (sent c.command) =
    (⟨[], false⟩, [c.line]) := typed_line h.typeable (List.cons_ne_nil _ _)

/-- The line is refused as too long, or its handler is that of the command. -/
theorem Call.dispatch (c : Call) : Xcast.dispatch c.line = .result atErrMsgTooLong ∨
    Xcast.dispatch c.line = .handler .senducastb (58 :: c.args) := by
  unfold Call.line
  split_ifs
  · right
    exact @dispatch_name (ascii "+SENDUCASTB") .senducastb (by decide) (by decide) (by decide)
      (by decide) c.args
  · exact .inl rfl

/-- The length that is read is that of the data. -/
theorem entry_length (h : senducastbEntry node (58 :: c.args) = .ok (len, r)) :
    len = c.data.length ∧ 0 < len := by
  have hcut : nextField (some c.args) = _ := nextField_cut (comma_not_mem_hexText 2 c.data.length) _
  unfold senducastbEntry at h
  split_ifs at h
  simp only [hcut] at h
  split at h
  · cases h
  rename_i n hn
  have hvalue := ((hexField_iff (by decide) (by decide)).mp hn).2
  rw [hexValue_hexText] at hvalue
  split_ifs at h with hzero hlong
  split at h
  · cases h
  · cases h
    exact ⟨(Option.some.inj hvalue).symm, Nat.pos_of_ne_zero hzero⟩

/-- What refuses a call is an error of `at.h`. -/
theorem entry_error (hcodes : Codes node) (h : senducastbEntry node args = .error err) :
    0 < err ∧ err < 256 := by
  have hresolve : ∀ addr e, resolve node addr = .error e → 0 < e ∧ e < 256 := by
    intro addr e he
    unfold resolve at he
    split_ifs at he
    · split at he
      · cases he
      · cases he
        decide
    · cases he
      decide
    · split at he
      · cases he
        decide
      · dsimp only at he
        split_ifs at he
        exact hcodes.discover _ _ he
  have htarget : ∀ p r e, parseTarget node p r = .error e → 0 < e ∧ e < 256 := by
    intro p r e he
    unfold parseTarget at he
    dsimp only at he
    split at he
    · split at he
      · cases he
        exact hresolve _ _ ‹_›
      · cases he
    · cases he
      decide
  unfold senducastbEntry at h
  split_ifs at h
  · cases h
    decide
  split at h
  · dsimp only at h
    split at h
    · cases h
      decide
    split_ifs at h
    · cases h
      decide
    · cases h
      decide
    split at h
    · cases h
      exact htarget _ _ _ ‹_›
    · cases h
  · cases h
    decide

theorem Codes.seq (h : Codes node) (seq : UInt8) : Codes { node with nextSeq := seq } :=
  ⟨h.submit, h.discover⟩

/-- `send_unicast` prints a sequence number at most. -/
theorem proper_send (hcodes : Codes node) (r : TxReq) (data : List UInt8) :
    Proper (senducastbSend node r data) := by
  refine ⟨?_, hcodes.submit _⟩
  simp only [senducastbSend, sendUnicast]
  split_ifs
  · exact .inr ⟨_, rfl⟩
  · exact .inl rfl

theorem proper_refuse (h : err < 256) : Proper (node.refuse err) := ⟨.inl rfl, h⟩

/-! ## What a call has done -/

theorem executed_refuse (hdispatch : Xcast.dispatch c.line = .result err) :
    Executed c ⟨c.line, node, node.refuse err⟩ := by
  refine ⟨rfl, ?_⟩
  rw [Xcast.execute, hdispatch]
  rfl

theorem executed_entry {ran : Ran}
    (hdispatch : Xcast.dispatch c.line = .handler .senducastb (58 :: c.args))
    (h : ran = match senducastbEntry node (58 :: c.args) with
      | .error err => node.refuse err
      | .ok (_, r) => senducastbSend node r c.data) : Executed c ⟨c.line, node, ran⟩ := by
  refine ⟨rfl, ?_⟩
  have hentry : senducastbEntry (c.reach node) (58 :: c.args) =
      senducastbEntry node (58 :: c.args) := rfl
  rw [Xcast.execute, hdispatch]
  dsimp only
  rw [cmdSenducastb_eq, hentry, h]
  cases senducastbEntry node (58 :: c.args) with
  | error err => rfl
  | ok p => rfl

/-- The request of a call whose address means `dst`. -/
theorem Executed.request {e : Exec} (h : Executed c e) {dst : UInt16}
    (hjoined : e.node.joined = true) (hmeans : Means e.node c.addr dst) (hne : c.data ≠ [])
    (hlen : c.data.length ≤ 82) : e.ran.submitted =
      [unicast e.node dst c.srcEp c.dstEp c.profile c.cluster (sregBit 0x10 0xB e.node.vals)
        c.data] := by
  have hreach : Means (c.reach e.node) c.addr dst := by
    cases hmeans with
    | short h4 hv => exact .short h4 hv
    | eui h16 hb hknown => exact .eui h16 hb hknown
  have hjoined' : (c.reach e.node).joined = true := hjoined
  have hexec : Xcast.execute (c.reach e.node) c.command = some _ :=
    execute_senducastb hjoined' hreach c.srcEp c.dstEp c.profile c.cluster
      ⟨List.length_pos_iff.mpr hne, hlen⟩ rfl
  have hfit : c.command.length < atLineMax := by
    have htarget := length_target hreach c.srcEp c.dstEp c.profile c.cluster
    have hhex : (hexText 2 c.data.length).length = 2 := length_hexText (by omega)
    have hwords : (ascii "AT+SENDUCASTB:").length = 14 ∧ (ascii ",").length = 1 := ⟨rfl, rfl⟩
    simp only [Call.command, senducastb, List.length_append, hwords, hhex, atLineMax]
    omega
  have hran := h.ran
  rw [Call.line, if_pos hfit, hexec] at hran
  rw [← Option.some.inj hran]
  rfl

end

end ZbAt.BinaryCall
