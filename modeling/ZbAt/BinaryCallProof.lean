import ZbAt.BinaryLines

/-!
# Every call of `senducastb` is answered for its own data

* `State.toCome` — the signals that are printed, read or queued, and not taken yet.
* `Stage` — how far the call is, on both sides.
* `Inv.same` — most steps leave it where it is; those of the RX thread, the AT thread and the caller
  that move it on have a lemma each.
* `senducastb_answered` — what the module has executed, and what the callers were told.
-/

namespace ZbAt.BinaryCall

open Text Uart Host Sreg Xcast Tx Match Endpoint
open SwitchBulb (isRecorded)

/-! ## What is under way -/

/-- The signals that the AT thread is about to print. -/
def AtPc.owed : AtPc → List Text
  | .entry .. => [[0x3E]]
  | .print lines => lines.filter isSignal
  | .getLine | .wait .. => []

/-- The line, node and request of a handler that reads, or is about to. -/
def AtPc.reading : AtPc → Option (Text × Node × TxReq)
  | .entry line node r | .wait line node r => some (line, node, r)
  | .getLine | .print _ => none

/-- What the reader has in its buffer once it has read everything. -/
def State.rest (s : State) : Text := (feed s.buf s.down).1

/-- The lines that are queued, read, or on the way. -/
def State.ahead (s : State) : List Text :=
  s.resp ++ (s.held.toList ++ (s.lines ++ (feed s.buf s.down).2))

def State.toCome (s : State) : List Text := s.ahead.filter isSignal ++ s.at_.owed

/-- The lines on the way are echoes, prompts and replies. -/
structure Wire (s : State) : Prop where
  rest : Echoed s.rest
  echo : Echoed s.echo
  out : ∀ ls, s.at_ = .print ls → ∀ l ∈ ls, Reply l

/-- What matters of a state for the call. -/
@[ext]
structure View where
  caller : Caller
  up : List UInt8
  rxLine : LineBuf
  lineQ : List Text
  binBuf : List UInt8
  binNeed : ℕ
  binDone : Bool
  reading : Option (Text × Node × TxReq)
  toCome : List Text
  ran : List Exec
  done : List (Call × Answer)

def State.view (s : State) : View where
  caller := s.caller
  up := s.up
  rxLine := s.rxLine
  lineQ := s.lineQ
  binBuf := s.binBuf
  binNeed := s.binNeed
  binDone := s.binDone
  reading := s.at_.reading
  toCome := s.toCome
  ran := s.ran
  done := s.done

/-- The handler of the call's command reads its data. -/
structure Entered (c : Call) (node : Node) (r : TxReq) : Prop where
  codes : Codes node
  dispatch : Xcast.dispatch c.line = .handler .senducastb (58 :: c.args)
  entry : senducastbEntry node (58 :: c.args) = .ok (c.data.length, r)

/-- What `_collect` has kept: no result. -/
def Kept (lines : List Text) : Prop := ∀ l ∈ lines, l ≠ ascii "OK" ∧ errorCode l = none

/-- How far the current call is. -/
inductive Stage : View → Prop
  | idle {bin : List UInt8} {fin : Bool} {ran : List Exec} {done : List (Call × Answer)} :
      List.Forall₂ Answered done ran →
      Stage ⟨.idle, [], ⟨[], false⟩, [], bin, 0, fin, none, [], ran, done⟩
  /-- The first bytes of the command have been assembled. -/
  | typing {c : Call} {start up bin : List UInt8} {fin : Bool} {ran : List Exec}
      {done : List (Call × Answer)} :
      List.Forall₂ Answered done ran → c.Valid → start ++ up = sent c.command → up ≠ [] →
      Stage ⟨.prompt c, up, (typed ⟨[], false⟩ start).1, [], bin, 0, fin, none, [], ran, done⟩
  | queued {c : Call} {bin : List UInt8} {fin : Bool} {ran : List Exec}
      {done : List (Call × Answer)} :
      List.Forall₂ Answered done ran →
      Stage ⟨.prompt c, [], ⟨[], false⟩, [c.line], bin, 0, fin, none, [], ran, done⟩
  | refused {c : Call} {bin : List UInt8} {fin : Bool} {e : Exec} {ran : List Exec}
      {done : List (Call × Answer)} :
      List.Forall₂ Answered done ran → Executed c e → e.ran.printed = [] →
      0 < e.ran.result ∧ e.ran.result < 256 →
      Stage ⟨.prompt c, [], ⟨[], false⟩, [], bin, 0, fin, none, replies e, ran ++ [e], done⟩
  /-- The buffer is open, and `>` on its way. -/
  | entering {c : Call} {node : Node} {r : TxReq} {ran : List Exec}
      {done : List (Call × Answer)} :
      List.Forall₂ Answered done ran → Entered c node r → 0 < c.data.length →
      Stage ⟨.prompt c, [], ⟨[], false⟩, [], [], c.data.length, false, some (c.line, node, r),
        [[0x3E]], ran, done⟩
  /-- A part of the data is in the buffer. -/
  | reading {c : Call} {lines : List Text} {up bin : List UInt8} {node : Node} {r : TxReq}
      {ran : List Exec} {done : List (Call × Answer)} :
      List.Forall₂ Answered done ran → Entered c node r → lines.filter isSignal = [] →
      bin ++ up = c.data → bin.length < c.data.length →
      Stage ⟨.result c lines, up, ⟨[], false⟩, [], bin, c.data.length, false,
        some (c.line, node, r), [], ran, done⟩
  | full {c : Call} {lines : List Text} {node : Node} {r : TxReq} {ran : List Exec}
      {done : List (Call × Answer)} :
      List.Forall₂ Answered done ran → Entered c node r → lines.filter isSignal = [] →
      Stage ⟨.result c lines, [], ⟨[], false⟩, [], c.data, 0, true, some (c.line, node, r), [],
        ran, done⟩
  /-- The request was submitted, and the replies are on their way. -/
  | sent {c : Call} {lines toCome : List Text} {bin : List UInt8} {fin : Bool} {e : Exec}
      {ran : List Exec} {done : List (Call × Answer)} :
      List.Forall₂ Answered done ran → Executed c e → Proper e.ran → Kept lines →
      lines.filter isSignal ++ toCome = replies e →
      Stage ⟨.result c lines, [], ⟨[], false⟩, [], bin, 0, fin, none, toCome, ran ++ [e], done⟩

structure Inv (s : State) : Prop where
  stage : Stage s.view
  wire : Wire s

theorem inv_init : Inv init where
  stage := .idle .nil
  wire := ⟨by decide, by decide, by
    intro ls hls
    cases hls⟩

/-- While a signal is to come, a call is pending. -/
theorem Stage.pending {v : View} (h : Stage v) (hne : v.toCome ≠ []) :
    ∃ c, v.caller.pending = some (Call.command c) := by
  cases h with
  | idle | typing | queued | reading | full => exact absurd rfl hne
  | refused | entering | sent => exact ⟨_, rfl⟩

/-! ## Steps that leave the call where it is -/

section

variable {rxHex : Bool} {s s' : State} {l : Text} {rest : List Text}

/-- The call is as far as before. -/
theorem Inv.same (h : Inv s)
    (hview : s'.view = { s.view with reading := s'.at_.reading, toCome := s'.toCome })
    (hreading : s'.at_.reading = s.at_.reading) (htocome : s'.toCome = s.toCome) (hwire : Wire s') :
    Inv s' := by
  refine ⟨?_, hwire⟩
  rw [hview, hreading, htocome]
  exact h.stage

/-- A signal is routed to the call. -/
theorem routed_signal (c : Call) (h : isSignal l = true) : routed c.command rxHex l = true := by
  obtain ⟨t, hcommand⟩ := c.isAt.upper
  have hat : ∀ w u : Text, (upper w).head?.any (· != 65) → l = w ++ u →
      upper l ≠ upper c.command := by
    rintro w u hw rfl heq
    rw [hcommand, upper, List.flatMap_append] at heq
    have hhead : (upper w).head? = some 65 := by
      cases hu : upper w with
      | nil =>
        rw [hu] at hw
        cases hw
      | cons x xs =>
        have heq : upper w ++ _ = _ := heq
        rw [hu, List.cons_append] at heq
        exact congrArg some (List.cons.inj heq).1
    rw [hhead] at hw
    cases hw
  rcases Bool.or_eq_true_iff.mp h with hgt | hres
  · obtain rfl := of_decide_eq_true hgt
    refine routed_iff.mpr ⟨by decide, hat [0x3E] [] (by decide) rfl, ?_⟩
    cases rxHex <;> decide
  · obtain ⟨p, hp, hrec⟩ := Option.any_eq_true _ _ |>.mp hres
    obtain ⟨hall, w, hw, u, hu⟩ := result_word hp (Bool.not_eq_true' _ |>.mp hrec)
    have hwords : ∀ w ∈ resultWords, w ≠ [] ∧ (upper w).head?.any (· != 65) := by decide
    refine routed_iff.mpr ⟨?_, hat w u (hwords w hw).2 hu.symm, ?_⟩
    · rintro rfl
      exact (hwords w hw).1 (List.append_eq_nil_iff.mp hu).1
    · rw [hall rxHex]
      cases p with
      | ok | error | seq => rfl
      | _ => cases hrec

/-- Bytes are added to the stream. -/
theorem ahead_down (s : State) (bytes : List UInt8) :
    State.ahead { s with down := s.down ++ bytes } = s.ahead ++ (feed s.rest bytes).2 ∧
      State.rest { s with down := s.down ++ bytes } = (feed s.rest bytes).1 := by
  simp only [State.ahead, State.rest, feed_append, List.append_assoc, and_self]

/-- A chunk is read. -/
theorem Inv.read (h : Inv s) (n : ℕ) (hlines : s.lines = []) : Inv { s with
    buf := (feed s.buf (s.down.take n)).1
    lines := (feed s.buf (s.down.take n)).2
    down := s.down.drop n } := by
  have hsplit := feed_append s.buf (s.down.take n) (s.down.drop n)
  rw [List.take_append_drop] at hsplit
  refine h.same rfl rfl ?_ ⟨?_, h.wire.echo, h.wire.out⟩
  · simp only [State.toCome, State.ahead, hsplit, hlines, List.nil_append]
  · have hrest := h.wire.rest
    rw [State.rest, hsplit] at hrest
    exact hrest

/-- A line is handled: it is not lost, unless it is no signal. -/
theorem Inv.line (h : Inv s) (hlines : s.lines = l :: rest) (hheld : s.held = none) : Inv { s with
    lines := rest
    held := if s.caller.pending.any (routed · rxHex l) then some l else none } := by
  refine h.same rfl rfl ?_ ⟨h.wire.rest, h.wire.echo, h.wire.out⟩
  by_cases hrouted : s.caller.pending.any (routed · rxHex l) = true
  · simp only [State.toCome, State.ahead, hrouted, if_true, hlines, hheld, Option.toList_some,
      Option.toList_none, List.nil_append, List.cons_append]
  · have hquiet : isSignal l = false := by
      by_contra hsignal
      rw [Bool.not_eq_false] at hsignal
      have hmem : l ∈ s.toCome := by
        refine List.mem_append_left _ (List.mem_filter.mpr ⟨?_, hsignal⟩)
        simp [State.ahead, hlines]
      obtain ⟨c, hc⟩ := h.stage.pending (List.ne_nil_of_mem hmem)
      have hc : s.caller.pending = some c.command := hc
      rw [hc] at hrouted
      exact hrouted (routed_signal c hsignal)
    rw [Bool.not_eq_true] at hrouted
    simp [State.toCome, State.ahead, hrouted, hlines, hheld, hquiet]

/-- The line is put into the queue of the call. -/
theorem Inv.put (h : Inv s) (hheld : s.held = some l) :
    Inv { s with held := none, resp := s.resp ++ [l] } := by
  refine h.same rfl rfl ?_ ⟨h.wire.rest, h.wire.echo, h.wire.out⟩
  simp [State.toCome, State.ahead, hheld]

/-- An echo. -/
theorem Inv.echoed (h : Inv s) : Inv { s with echo := [], down := s.down ++ s.echo } := by
  obtain ⟨hlines, hrest⟩ := feed_echoed h.wire.rest h.wire.echo
  obtain ⟨hahead, hrest'⟩ := ahead_down s s.echo
  rw [hlines, List.append_nil] at hahead
  refine h.same rfl rfl ?_ ⟨hrest'.symm ▸ hrest, echoed_nil, h.wire.out⟩
  exact congrArg (fun ls => ls.filter isSignal ++ s.at_.owed) hahead

/-- What the ZBOSS thread prints. -/
theorem Inv.item (h : Inv s) {i : Receive.Item} (hi : Unasked rxHex i) :
    Inv { s with down := s.down ++ i.bytes } := by
  obtain ⟨hahead, hrest⟩ := ahead_down s i.bytes
  rcases unasked_bytes hi with hnone | ⟨t, hbytes, hplain, hquiet⟩
  · rw [hnone, List.append_nil]
    exact h
  · have hfeed : feed s.rest i.bytes = ([], [s.rest, t]) := hbytes ▸ feed_frame hplain s.rest
    rw [hfeed] at hahead hrest
    refine h.same rfl rfl ?_ ⟨?_, h.wire.echo, h.wire.out⟩
    · have hsignals : [s.rest, t].filter isSignal = [] := by
        simp [not_signal_echoed h.wire.rest, hquiet]
      refine (congrArg (fun ls => ls.filter isSignal ++ s.at_.owed) hahead).trans ?_
      rw [List.filter_append, hsignals, List.append_nil]
      rfl
    · exact hrest.symm ▸ echoed_nil

/-- `>` is printed. -/
theorem Inv.prompt (h : Inv s) {line : Text} {node : Node} {r : TxReq}
    (hat : s.at_ = .entry line node r) :
    Inv { s with at_ := .wait line node r, down := s.down ++ Write.binaryPrompt.bytes } := by
  obtain ⟨hahead, hrest⟩ := ahead_down s Write.binaryPrompt.bytes
  rw [feed_entry] at hahead hrest
  refine h.same rfl (by rw [hat]; rfl) ?_ ⟨?_, h.wire.echo, ?_⟩
  · have hsignals : [s.rest, [0x3E]].filter isSignal = [[0x3E]] := by
      rw [List.filter_cons_of_neg (by simp [not_signal_echoed h.wire.rest])]
      decide
    refine (congrArg (fun ls => ls.filter isSignal ++ []) hahead).trans ?_
    rw [List.filter_append, hsignals, List.append_nil, State.toCome, hat]
    rfl
  · have hnil : Echoed (State.rest { s with down := s.down ++ Write.binaryPrompt.bytes }) :=
      hrest.symm ▸ echoed_nil
    exact hnil
  · intro ls hls
    cases hls

/-- A reply is printed. -/
theorem Inv.print (h : Inv s) {ls : List Text} (hat : s.at_ = .print (l :: ls)) :
    Inv { s with at_ := .print ls, down := s.down ++ (Write.atPrint l).bytes } := by
  obtain ⟨hahead, hrest⟩ := ahead_down s (Write.atPrint l).bytes
  rw [(h.wire.out _ hat l List.mem_cons_self).feed] at hahead hrest
  refine h.same rfl (by rw [hat]; rfl) ?_ ⟨?_, h.wire.echo, ?_⟩
  · refine (congrArg (fun ahead => ahead.filter isSignal ++ ls.filter isSignal) hahead).trans ?_
    rw [State.toCome, hat, AtPc.owed, List.filter_append,
      List.filter_cons_of_neg (by simp [not_signal_echoed h.wire.rest]), List.append_assoc,
      ← List.filter_append, List.singleton_append]
  · have hnil : Echoed (State.rest { s with down := s.down ++ (Write.atPrint l).bytes }) :=
      hrest.symm ▸ echoed_nil
    exact hnil
  · intro ls' hls
    cases hls
    exact fun l' hl' => h.wire.out _ hat l' (List.mem_cons_of_mem _ hl')

theorem Inv.next (h : Inv s) (hat : s.at_ = .print []) : Inv { s with at_ := .getLine } := by
  refine h.same rfl (by rw [hat]; rfl) ?_ ⟨h.wire.rest, h.wire.echo, ?_⟩
  · rw [State.toCome, State.toCome, hat]
    rfl
  · intro ls hls
    cases hls

/-! ## Steps of the RX thread -/

/-- While no buffer is open, the bytes go to the line. -/
theorem foldl_typed {echoOn : Bool} {s : State} (h : s.binNeed = 0) (data : List UInt8) :
    data.foldl (rxByte echoOn) s = { s with
      rxLine := (typed s.rxLine data).1
      lineQ := (typed s.rxLine data).2.foldl (fun q line => putLine line q) s.lineQ
      echo := if echoOn then s.echo ++ data else s.echo } := by
  induction data generalizing s with
  | nil => simp [typed]
  | cons c data ih =>
    have hopen : ¬s.binBuf.length < s.binNeed := by omega
    have hbyte : rxByte echoOn s c = { s with
        rxLine := (lineByte c s.rxLine).1
        lineQ := (lineByte c s.rxLine).2.elim s.lineQ (putLine · s.lineQ)
        echo := if echoOn then s.echo ++ [c] else s.echo } := if_neg hopen
    rw [List.foldl_cons, hbyte, ih (by exact h)]
    simp only [typed, List.foldl_append]
    congr 1
    · cases echoOn <;> simp
    · cases (lineByte c s.rxLine).2 <;> rfl

/-- The open buffer takes all bytes, up to its end. -/
theorem foldl_open {echoOn : Bool} {s : State} {data : List UInt8}
    (hopen : s.binBuf.length < s.binNeed) (h : s.binBuf.length + data.length ≤ s.binNeed) :
    data.foldl (rxByte echoOn) s =
      if s.binBuf.length + data.length = s.binNeed then
        { s with binBuf := s.binBuf ++ data, binNeed := 0, binDone := true }
      else { s with binBuf := s.binBuf ++ data } := by
  induction data generalizing s with
  | nil =>
    rw [List.foldl_nil, if_neg (by simp; omega), List.append_nil]
  | cons c data ih =>
    rw [List.length_cons] at h
    by_cases hlast : s.binBuf.length + 1 = s.binNeed
    · have hnil : data = [] := List.eq_nil_of_length_eq_zero (by omega)
      subst hnil
      rw [if_pos (by simpa using hlast)]
      simp [rxByte, hopen, hlast]
    · have hbyte : rxByte echoOn s c = { s with binBuf := s.binBuf ++ [c] } := by
        rw [rxByte, if_pos hopen, if_neg hlast]
      have hlen : (s.binBuf ++ [c]).length = s.binBuf.length + 1 := by simp
      rw [List.foldl_cons, hbyte, ih (by simp only [hlen]; omega) (by simp only [hlen]; omega)]
      simp only [hlen, List.length_cons, List.append_assoc, List.singleton_append]
      by_cases hend : s.binBuf.length + (data.length + 1) = s.binNeed
      · rw [if_pos (by omega), if_pos hend]
      · rw [if_neg (by omega), if_neg hend]

/-- The first bytes of a command make no line. -/
theorem typed_start {c : Call} (hc : c.Valid) {start up : List UInt8}
    (h : start ++ up = sent c.command) (hne : up ≠ []) : (typed ⟨[], false⟩ start).2 = [] := by
  obtain ⟨u, x, rfl⟩ := (List.eq_nil_or_concat up).resolve_left hne
  rw [List.concat_eq_append, sent, ← List.append_assoc] at h
  have hstart : Typeable start := by
    intro d hd
    refine hc.typeable d ?_
    rw [← (List.append_inj' h rfl).1]
    exact List.mem_append_left _ hd
  rw [typed_text hstart (by decide)]

/-- A chunk of a command: the line is complete, or still being assembled. -/
theorem typed_chunk {c : Call} (hc : c.Valid) {start a b : List UInt8}
    (h : start ++ (a ++ b) = sent c.command) (hne : a ++ b ≠ []) :
    typed (typed ⟨[], false⟩ start).1 a =
      if b = [] then (⟨[], false⟩, [c.line]) else ((typed ⟨[], false⟩ (start ++ a)).1, []) := by
  have htyped := typed_append ⟨[], false⟩ start a
  rw [typed_start hc h hne, List.nil_append] at htyped
  rw [← List.append_assoc] at h
  by_cases hb : b = []
  · rw [hb, List.append_nil] at h
    rw [if_pos hb, ← c.typed hc, ← h]
    exact htyped.symm
  · rw [if_neg hb, ← typed_start hc h hb]
    exact htyped.symm

/-- The RX thread gets a chunk. -/
theorem Inv.receive (h : Inv s) {n : ℕ} (echoOn : Bool) (hup : s.up ≠ []) (hecho : s.echo = []) :
    Inv ((s.up.take n).foldl (rxByte echoOn) { s with up := s.up.drop n }) := by
  obtain ⟨hstage, hwire⟩ := h
  generalize hv : s.view = v at hstage
  cases hstage with
  | idle | queued | refused | entering | full | sent => exact absurd (congrArg View.up hv) hup
  | @typing c start up bin fin ran done hlog hc hsent hne =>
    obtain rfl : s.up = up := congrArg View.up hv
    obtain ⟨hcaller, -, hrx, hq, hbin, hneed, hfin, hreading, hcome, hran, hdone⟩ :=
      View.ext_iff.mp hv
    have hrx : s.rxLine = (typed ⟨[], false⟩ start).1 := hrx
    have hq : s.lineQ = [] := hq
    have hall : Echoed (s.up.take n) := by
      intro d hd
      refine hc.echoed d ?_
      rw [← hsent]
      exact List.mem_append_right _ (List.mem_of_mem_take hd)
    rw [← List.take_append_drop n s.up] at hsent hne
    have hchunk := typed_chunk hc hsent hne
    rw [← hrx] at hchunk
    rw [@foldl_typed echoOn { s with up := s.up.drop n } hneed (s.up.take n)]
    simp only [hchunk, hq]
    refine ⟨?_, hwire.rest, ?_, hwire.out⟩
    · by_cases hrest : s.up.drop n = []
      · refine (congrArg Stage ?_).mpr (@Stage.queued c bin fin ran done hlog)
        rw [if_pos hrest]
        exact View.ext hcaller hrest rfl rfl hbin hneed hfin hreading hcome hran hdone
      · rw [← List.append_assoc] at hsent
        refine (congrArg Stage ?_).mpr (@Stage.typing c _ _ bin fin ran done hlog hc hsent hrest)
        rw [if_neg hrest]
        exact View.ext hcaller rfl rfl rfl hbin hneed hfin hreading hcome hran hdone
    · show Echoed (if echoOn then s.echo ++ s.up.take n else s.echo)
      rw [hecho, List.nil_append]
      split_ifs
      · exact hall
      · exact echoed_nil
  | @reading c lines up bin node r ran done hlog hent hlines hdata hlen =>
    obtain rfl : s.binBuf = bin := congrArg View.binBuf hv
    obtain rfl : s.up = up := congrArg View.up hv
    obtain ⟨hcaller, -, hrx, hq, -, hneed, hfin, hreading, hcome, hran, hdone⟩ :=
      View.ext_iff.mp hv
    have hneed : s.binNeed = c.data.length := hneed
    have htotal := congrArg List.length hdata
    rw [List.length_append] at htotal
    have hchunk : (s.binBuf ++ s.up.take n) ++ s.up.drop n = c.data := by
      rw [List.append_assoc, List.take_append_drop, hdata]
    have htake : (s.up.take n).length ≤ s.up.length := List.length_take_le' _ _
    have hchunklen := congrArg List.length hchunk
    rw [List.length_append, List.length_append] at hchunklen
    rw [@foldl_open echoOn { s with up := s.up.drop n } (s.up.take n)
      (by simp only [hneed]; exact hlen) (by simp only [hneed]; omega)]
    by_cases hend : s.binBuf.length + (s.up.take n).length = s.binNeed
    · have hrest : s.up.drop n = [] := List.eq_nil_of_length_eq_zero (by omega)
      rw [hrest, List.append_nil] at hchunk
      rw [if_pos hend]
      refine ⟨(congrArg Stage ?_).mpr (.full hlog hent hlines), hwire.rest, hwire.echo, hwire.out⟩
      exact View.ext hcaller hrest hrx hq hchunk rfl rfl hreading hcome hran hdone
    · have hpart : (s.binBuf ++ s.up.take n).length < c.data.length := by
        rw [List.length_append]
        omega
      rw [if_neg hend]
      refine ⟨(congrArg Stage ?_).mpr (.reading hlog hent hlines hchunk hpart), hwire.rest,
        hwire.echo, hwire.out⟩
      exact View.ext hcaller rfl hrx hq rfl hneed hfin hreading hcome hran hdone

/-! ## Steps of the AT thread -/

/-- The replies of a handler are to come. -/
theorem finish_toCome {line : Text} {node : Node} {ran : Ran}
    (hquiet : s.ahead.filter isSignal = []) (hproper : Proper ran) :
    (s.finish line node ran).toCome = replies ⟨line, node, ran⟩ := by
  have hall : (replies ⟨line, node, ran⟩).filter isSignal = replies ⟨line, node, ran⟩ :=
    List.filter_eq_self.mpr fun l hl => (@mem_replies ⟨line, node, ran⟩ hproper l hl).2
  refine Eq.trans (congrArg (· ++ _) hquiet) ?_
  exact hall

theorem Wire.finish (h : Wire s) {line : Text} {node : Node} {ran : Ran} (hproper : Proper ran) :
    Wire (s.finish line node ran) := by
  refine ⟨h.rest, h.echo, ?_⟩
  intro ls hls l hl
  cases hls
  exact (@mem_replies ⟨line, node, ran⟩ hproper l hl).1

theorem quiet_of_toCome (h : s.toCome = []) : s.ahead.filter isSignal = [] :=
  (List.append_eq_nil_iff.mp h).1

/-- A command that waits in the queue is refused: `ERROR:` is printed, or nothing. -/
theorem Inv.refuse (hwire : Wire s) {c : Call} {bin : List UInt8} {fin : Bool} {ran : List Exec}
    {done : List (Call × Answer)} (hlog : List.Forall₂ Answered done ran)
    (hv : s.view = ⟨.prompt c, [], ⟨[], false⟩, [c.line], bin, 0, fin, none, [], ran, done⟩)
    {node : Node} {err : ℕ} (herr : 0 < err ∧ err < 256)
    (hexec : Executed c ⟨c.line, node, node.refuse err⟩) :
    Inv (State.finish { s with lineQ := [] } c.line node (node.refuse err)) := by
  obtain ⟨hcaller, hup, hrx, -, hbin, hneed, hfin, -, hcome, hran, hdone⟩ := View.ext_iff.mp hv
  have hquiet : s.ahead.filter isSignal = [] := quiet_of_toCome hcome
  have hproper := @proper_refuse node err herr.2
  refine ⟨?_, Wire.finish (s := { s with lineQ := [] }) ⟨hwire.rest, hwire.echo, hwire.out⟩
    hproper⟩
  refine (congrArg Stage ?_).mpr (@Stage.refused c bin fin _ ran done hlog hexec rfl herr)
  exact View.ext hcaller hup hrx rfl hbin hneed hfin rfl
    (finish_toCome (s := { s with lineQ := [] }) hquiet hproper) (congrArg (· ++ [_]) hran) hdone

/-- The command of a call is refused, or its handler reads the data. -/
theorem execute_cases {c : Call} {node : Node} (hcodes : Codes node) (s : State) (other : Ran) :
    (∃ err, (0 < err ∧ err < 256) ∧ Executed c ⟨c.line, node, node.refuse err⟩ ∧
      s.execute c.line node other = s.finish c.line node (node.refuse err)) ∨
    ∃ r, Entered c node r ∧ 0 < c.data.length ∧ s.execute c.line node other = { s with
      at_ := .entry c.line node r
      binBuf := []
      binNeed := c.data.length
      binDone := false } := by
  rcases c.dispatch with hlong | hhandler
  · left
    have hrun : Xcast.execute node c.line = some (node.refuse atErrMsgTooLong) := by
      rw [Xcast.execute, hlong]
    refine ⟨atErrMsgTooLong, by decide, executed_refuse hlong, ?_⟩
    rw [State.execute, hlong, hrun]
    rfl
  · cases hentry : senducastbEntry node (58 :: c.args) with
    | error err =>
      refine .inl ⟨err, entry_error hcodes hentry, executed_entry hhandler (by rw [hentry]), ?_⟩
      rw [State.execute, hhandler]
      simp only [hentry]
    | ok p =>
      obtain ⟨len, r⟩ := p
      obtain ⟨rfl, hpos⟩ := entry_length hentry
      refine .inr ⟨r, ⟨hcodes, hhandler, hentry⟩, hpos, ?_⟩
      rw [State.execute, hhandler]
      simp only [hentry]

/-- A line in the queue is that of the call. -/
theorem Stage.queue {v : View} (h : Stage v) {line : Text} {q : List Text}
    (hq : v.lineQ = line :: q) : ∃ (c : Call) (bin : List UInt8) (fin : Bool) (ran : List Exec)
      (done : List (Call × Answer)), line = c.line ∧ q = [] ∧ List.Forall₂ Answered done ran ∧
        v = ⟨.prompt c, [], ⟨[], false⟩, [c.line], bin, 0, fin, none, [], ran, done⟩ := by
  cases h with
  | idle | typing | refused | entering | reading | full | sent => cases hq
  | @queued c bin fin ran done hlog =>
    cases hq
    exact ⟨c, bin, fin, ran, done, rfl, rfl, hlog, rfl⟩

/-- The command is executed, up to the data. -/
theorem Inv.execute (h : Inv s) {node : Node} (hcodes : Codes node) (other : Ran) {line : Text}
    {q : List Text} (hq : s.lineQ = line :: q) :
    Inv (State.execute { s with lineQ := q } line { node with nextSeq := s.nextSeq } other) := by
  have hcodes := hcodes.seq s.nextSeq
  generalize { node with nextSeq := s.nextSeq } = node at hcodes ⊢
  obtain ⟨hstage, hwire⟩ := h
  obtain ⟨c, bin, fin, ran, done, rfl, rfl, hlog, hv⟩ := hstage.queue hq
  rcases execute_cases hcodes { s with lineQ := [] } other with ⟨err, herr, hexec, hstep⟩ |
    ⟨r, hent, hpos, hstep⟩
  · rw [hstep]
    exact Inv.refuse hwire hlog hv herr hexec
  · obtain ⟨hcaller, hup, hrx, -, -, -, -, -, hcome, hran, hdone⟩ := View.ext_iff.mp hv
    have hquiet : s.ahead.filter isSignal = [] := quiet_of_toCome hcome
    rw [hstep]
    refine ⟨?_, hwire.rest, hwire.echo, ?_⟩
    · refine (congrArg Stage ?_).mpr (.entering hlog hent hpos)
      exact View.ext hcaller hup hrx rfl rfl rfl rfl rfl (congrArg (· ++ [[0x3E]]) hquiet) hran
        hdone
    · intro ls hls
      cases hls

theorem kept_of_quiet {lines : List Text} (h : lines.filter isSignal = []) : Kept lines := by
  intro l hl
  have hquiet : isSignal l = false := by
    rw [Bool.eq_false_iff]
    exact List.filter_eq_nil_iff.mp h l hl
  exact ⟨(not_code_of_quiet hquiet).2.1, (not_code_of_quiet hquiet).2.2.1⟩

/-- The buffer is full: the request is submitted. -/
theorem Inv.filled (h : Inv s) {line : Text} {node : Node} {r : TxReq}
    (hat : s.at_ = .wait line node r) (hfin : s.binDone = true) :
    Inv (State.finish { s with binDone := false } line node (senducastbSend node r s.binBuf)) := by
  obtain ⟨hstage, hwire⟩ := h
  have hreading : s.at_.reading = some (line, node, r) := by rw [hat, AtPc.reading]
  generalize hv : s.view = v at hstage
  cases hstage with
  | idle | typing | queued | refused | sent =>
    have hnone : s.at_.reading = none := congrArg View.reading hv
    rw [hnone] at hreading
    cases hreading
  | entering | reading =>
    have hopen : s.binDone = false := congrArg View.binDone hv
    rw [hopen] at hfin
    cases hfin
  | @full c lines node' r' ran done hlog hent hlines =>
    obtain ⟨hcaller, hup, hrx, hq, hbin, hneed, -, hsame, hcome, hran, hdone⟩ :=
      View.ext_iff.mp hv
    cases hsame.symm.trans hreading
    have hbin : s.binBuf = c.data := hbin
    have hquiet : s.ahead.filter isSignal = [] := quiet_of_toCome hcome
    have hproper := proper_send hent.codes r c.data
    have hexec : Executed c ⟨c.line, node, senducastbSend node r c.data⟩ :=
      executed_entry hent.dispatch (by rw [hent.entry])
    have hsend : senducastbSend node r s.binBuf = senducastbSend node r c.data := by rw [hbin]
    rw [hsend]
    refine ⟨?_, Wire.finish (s := { s with binDone := false })
      ⟨hwire.rest, hwire.echo, hwire.out⟩ hproper⟩
    have hreplies : lines.filter isSignal ++ replies ⟨c.line, node, senducastbSend node r c.data⟩ =
        replies ⟨c.line, node, senducastbSend node r c.data⟩ := by
      rw [hlines, List.nil_append]
    refine (congrArg Stage ?_).mpr
      (@Stage.sent c lines _ c.data false _ ran done hlog hexec hproper (kept_of_quiet hlines)
        hreplies)
    exact View.ext hcaller hup hrx hq hbin hneed rfl rfl
      (finish_toCome (s := { s with binDone := false }) hquiet hproper) (congrArg (· ++ [_]) hran)
      hdone

/-! ## Steps of the caller -/

theorem Inv.call (h : Inv s) {c : Call} (hc : c.Valid) (hidle : s.caller = .idle) :
    Inv { s with resp := [], caller := .prompt c, up := s.up ++ sent c.command } := by
  obtain ⟨hstage, hwire⟩ := h
  generalize hv : s.view = v at hstage
  have hcaller := congrArg View.caller hv
  cases hstage with
  | typing | queued | refused | entering | reading | full | sent =>
    rw [State.view, hidle] at hcaller
    cases hcaller
  | @idle bin fin ran done hlog =>
    obtain ⟨-, hnil, hrx, hq, hbin, hneed, hfin, hreading, hcome, hran, hdone⟩ :=
      View.ext_iff.mp hv
    have hup : s.up ++ sent c.command = sent c.command := by
      have hnil : s.up = [] := hnil
      rw [hnil, List.nil_append]
    refine ⟨?_, hwire.rest, hwire.echo, hwire.out⟩
    refine (congrArg Stage ?_).mpr (@Stage.typing c [] (sent c.command) bin fin ran done hlog hc rfl
      (List.append_ne_nil_of_right_ne_nil _ (List.cons_ne_nil _ _)))
    refine View.ext rfl hup hrx hq hbin hneed hfin hreading ?_ hran hdone
    have hnone : s.toCome = [] := hcome
    obtain ⟨hquiet, howed⟩ := List.append_eq_nil_iff.mp hnone
    rw [State.ahead, List.filter_append] at hquiet
    refine List.append_eq_nil_iff.mpr ⟨?_, howed⟩
    exact (List.append_eq_nil_iff.mp hquiet).2

section

variable {v : View} {c : Call} {lines : List Text}

theorem Kept.concat (h : Kept lines) (hok : l ≠ ascii "OK") (hcode : errorCode l = none) :
    Kept (lines ++ [l]) := by
  intro l' hl'
  rcases List.mem_append.mp hl' with hl' | hl'
  · exact h l' hl'
  · rw [List.mem_singleton.mp hl']
    exact ⟨hok, hcode⟩

/-- `_collect` keeps a line that is no signal. -/
theorem Stage.more (h : Stage v) (hc : v.caller = .result c lines) (hquiet : isSignal l = false) :
    Stage { v with caller := .result c (lines ++ [l]) } := by
  have hfilter : (lines ++ [l]).filter isSignal = lines.filter isSignal := by
    rw [List.filter_append, List.filter_cons_of_neg (by simp [hquiet]), List.filter_nil,
      List.append_nil]
  cases h with
  | idle | typing | queued | refused | entering => cases hc
  | reading hlog hent hlines hdata hlen =>
    cases hc
    exact .reading hlog hent (hfilter.trans hlines) hdata hlen
  | full hlog hent hlines =>
    cases hc
    exact .full hlog hent (hfilter.trans hlines)
  | sent hlog hexec hproper hkept hreplies =>
    cases hc
    obtain ⟨-, hok, hcode, -⟩ := not_code_of_quiet hquiet
    exact .sent hlog hexec hproper (hkept.concat hok hcode)
      ((congrArg (· ++ _) hfilter).trans hreplies)

/-- After `>` the data is sent. -/
theorem Stage.entered (h : Stage v) (hc : v.caller = .prompt c)
    (hcome : v.toCome = [0x3E] :: rest) :
    Stage { v with caller := .result c [], up := v.up ++ c.data, toCome := rest } := by
  cases h with
  | idle | typing | queued | reading | full => cases hcome
  | @refused c' bin fin e ran done hlog hexec hprinted hresult =>
    have hproper : Proper e.ran := ⟨.inl hprinted, hresult.2⟩
    have hcome : replies e = [0x3E] :: rest := hcome
    rw [replies, hprinted, List.nil_append] at hcome
    rcases printResult_cases hproper.result e.node.vals with hnone | ⟨-, hok⟩ | ⟨code, -, -, herror⟩
    · rw [hnone] at hcome
      cases hcome
    · rw [hok] at hcome
      cases hcome
    · rw [herror] at hcome
      cases hcome
  | entering hlog hent hpos =>
    cases hc
    cases hcome
    exact .reading hlog hent rfl rfl hpos
  | sent => cases hc

/-- Before `>` only an error ends the call. -/
theorem Stage.raised (h : Stage v) (hc : v.caller = .prompt c) (hcome : v.toCome = l :: rest)
    (hgt : l ≠ [0x3E]) : ∃ code : UInt8, l = errorLine code ∧ Stage { v with
      caller := .idle
      toCome := rest
      done := v.done ++ [(c, .raised code.toNat)] } := by
  cases h with
  | idle | typing | queued | reading | full => cases hcome
  | @refused c' bin fin e ran done hlog hexec hprinted hresult =>
    cases hc
    have hproper : Proper e.ran := ⟨.inl hprinted, hresult.2⟩
    have hcome : replies e = l :: rest := hcome
    rw [replies, hprinted, List.nil_append] at hcome
    rcases printResult_cases hproper.result e.node.vals with hnone | ⟨hzero, -⟩ |
      ⟨code, hcode, -, herror⟩
    · rw [hnone] at hcome
      cases hcome
    · omega
    · rw [herror] at hcome
      obtain ⟨rfl, rfl⟩ := List.cons.inj hcome
      refine ⟨code, rfl, .idle (List.rel_append hlog (.cons ⟨hexec, ?_, ?_⟩ .nil))⟩
      · rw [answerOf, if_neg (by omega), hcode]
      · exact fun dst hjoined hmeans hne hlen => hexec.request hjoined hmeans hne hlen
  | entering =>
    cases hcome
    exact absurd rfl hgt
  | sent => cases hc

/-- After the data, the replies come in order, and the last one ends the call. -/
theorem Stage.replied (h : Stage v) (hc : v.caller = .result c lines)
    (hcome : v.toCome = l :: rest) :
    (∃ seq, l = seqLine seq ∧
      Stage { v with caller := .result c (lines ++ [l]), toCome := rest }) ∨
    (l = ascii "OK" ∧ Stage { v with
      caller := .idle
      toCome := rest
      done := v.done ++ [(c, .returned (seqOf lines))] }) ∨
    ∃ code : UInt8, l = errorLine code ∧ Stage { v with
      caller := .idle
      toCome := rest
      done := v.done ++ [(c, .raised code.toNat)] } := by
  cases h with
  | idle | typing | queued | reading | full => cases hcome
  | refused | entering => cases hc
  | @sent c' lines' toCome bin fin e ran done hlog hexec hproper hkept hreplies =>
    cases hc
    obtain rfl : toCome = l :: rest := hcome
    -- A line that the handler printed is a sequence number.
    have hprinted : l ∈ e.ran.printed → ∃ seq, l = seqLine seq ∧
        Stage ⟨.result c (lines ++ [l]), [], ⟨[], false⟩, [], bin, 0, fin, none, rest, ran ++ [e],
          done⟩ := by
      intro hl
      rcases hproper.printed with hnone | ⟨seq, hseq⟩
      · rw [hnone] at hl
        cases hl
      · rw [hseq, List.mem_singleton] at hl
        have hsignal : isSignal l = true := hl ▸ signal_seq seq
        have hnext : Kept (lines ++ [l]) := by
          rw [hl]
          exact hkept.concat (seq_ne_ok seq) (errorCode_seq seq)
        refine ⟨seq, hl, .sent hlog hexec hproper hnext ?_⟩
        rw [List.filter_append, List.filter_cons_of_pos hsignal, List.filter_nil,
          List.append_assoc, List.singleton_append]
        exact hreplies
    have hends : ∀ a, a = answerOf e.ran → rest = [] →
        Stage ⟨.idle, [], ⟨[], false⟩, [], bin, 0, fin, none, rest, ran ++ [e],
          done ++ [(c, a)]⟩ := by
      intro a ha hrest
      rw [hrest]
      refine .idle (List.rel_append hlog (.cons ⟨hexec, ha, ?_⟩ .nil))
      exact fun dst hjoined hmeans hne hlen => hexec.request hjoined hmeans hne hlen
    -- Where there is a result line, it is the last one.
    have hlast : ∀ x, e.ran.printed ++ [x] = lines.filter isSignal ++ l :: rest →
        l ∈ e.ran.printed ∨ l = x ∧ rest = [] ∧ lines.filter isSignal = e.ran.printed := by
      intro x hx
      rcases List.eq_nil_or_concat rest with rfl | ⟨rest', y, rfl⟩
      · obtain ⟨hinit, hl⟩ := List.append_inj' hx rfl
        exact .inr ⟨(List.singleton_inj.mp hl).symm, rfl, hinit.symm⟩
      · left
        rw [List.concat_eq_append, ← List.cons_append, ← List.append_assoc] at hx
        rw [(List.append_inj' hx rfl).1]
        exact List.mem_append_right _ List.mem_cons_self
    rw [replies] at hreplies
    rcases printResult_cases hproper.result e.node.vals with hnone | ⟨hzero, hok⟩ |
      ⟨code, hcode, hpos, herror⟩
    · rw [hnone, List.append_nil] at hreplies
      have hl : l ∈ e.ran.printed := by
        rw [← hreplies]
        exact List.mem_append_right _ List.mem_cons_self
      exact .inl (hprinted hl)
    · rw [hok] at hreplies
      rcases hlast _ hreplies.symm with hl | ⟨rfl, hrest, hlines⟩
      · exact .inl (hprinted hl)
      · refine .inr (.inl ⟨rfl, hends _ ?_ hrest⟩)
        rw [answerOf, if_pos hzero, ← seqOf_signals, hlines]
    · rw [herror] at hreplies
      rcases hlast _ hreplies.symm with hl | ⟨rfl, hrest, -⟩
      · exact .inl (hprinted hl)
      · refine .inr (.inr ⟨code, rfl, hends _ ?_ hrest⟩)
        rw [answerOf, if_neg (by omega), hcode]

end

/-- The caller gets a line. -/
theorem Inv.take (h : Inv s) (hresp : s.resp = l :: rest)
    (hs : State.got { s with resp := rest } l = some s') : Inv s' := by
  have hwire : Wire { s with resp := rest } := ⟨h.wire.rest, h.wire.echo, h.wire.out⟩
  cases hsignal : isSignal l with
  | false =>
    obtain ⟨hgt, hok, hcode, -⟩ := not_code_of_quiet hsignal
    have hpop : Inv { s with resp := rest } := by
      refine h.same rfl rfl ?_ hwire
      simp [State.toCome, State.ahead, hresp, hsignal]
    unfold State.got at hs
    dsimp only at hs
    split at hs
    · cases hs
    · rw [if_neg hgt, hcode] at hs
      cases hs
      exact hpop
    · rename_i c lines hcaller
      rw [if_neg hok, hcode] at hs
      cases hs
      exact ⟨hpop.stage.more hcaller hsignal, hwire.rest, hwire.echo, hwire.out⟩
  | true =>
    have hcome : s.view.toCome = l :: State.toCome { s with resp := rest } := by
      simp [State.view, State.toCome, State.ahead, hresp, hsignal]
    unfold State.got at hs
    dsimp only at hs
    split at hs
    · cases hs
    · rename_i c hcaller
      by_cases hgt : l = [0x3E]
      · rw [if_pos hgt] at hs
        cases hs
        exact ⟨h.stage.entered hcaller (hgt ▸ hcome), hwire.rest, hwire.echo, hwire.out⟩
      · obtain ⟨code, hl, hstage⟩ := h.stage.raised hcaller hcome hgt
        rw [if_neg hgt, hl, errorCode_error] at hs
        cases hs
        exact ⟨hstage, hwire.rest, hwire.echo, hwire.out⟩
    · rename_i c lines hcaller
      rcases h.stage.replied hcaller hcome with ⟨seq, hl, hstage⟩ | ⟨hok, hstage⟩ |
        ⟨code, hl, hstage⟩
      · have hstep : (if l = ascii "OK" then some (State.answer { s with resp := rest } c
            (.returned (seqOf lines))) else some { s with
              resp := rest, caller := .result c (lines ++ [l]) }) = some s' := by
          rw [← hs, hl, errorCode_seq]
        rw [if_neg (hl ▸ seq_ne_ok seq)] at hstep
        cases hstep
        exact ⟨hstage, hwire.rest, hwire.echo, hwire.out⟩
      · rw [if_pos hok] at hs
        cases hs
        exact ⟨hstage, hwire.rest, hwire.echo, hwire.out⟩
      · rw [if_neg (hl ▸ error_ne_ok code), hl, errorCode_error] at hs
        cases hs
        exact ⟨hstage, hwire.rest, hwire.echo, hwire.out⟩

/-! ## Runs -/

/-- **One step.** -/
theorem inv_step {a : Action} (h : Inv s) (hc : Covered rxHex s a)
    (hs : (machine rxHex).step s a = some s') : Inv s' := by
  cases a with
  | call c =>
    simp only [machine, step] at hs
    split at hs
    · cases hs
      exact h.call hc ‹_›
    · cases hs
  | take =>
    simp only [machine, step] at hs
    split at hs
    · exact h.take ‹_› hs
    · cases hs
  | read n =>
    simp only [machine, step] at hs
    split_ifs at hs with hfree
    cases hs
    exact h.read n hfree.1
  | line =>
    simp only [machine, step] at hs
    split at hs
    · cases hs
      exact h.line ‹_› ‹_›
    · cases hs
  | put =>
    simp only [machine, step] at hs
    split at hs
    · cases hs
      exact h.put ‹_›
    · cases hs
  | receive n echoOn =>
    simp only [machine, step] at hs
    split_ifs at hs with hfree
    cases hs
    exact h.receive echoOn hfree.1 hfree.2.2.2
  | echoed =>
    simp only [machine, step] at hs
    split_ifs at hs
    cases hs
    exact h.echoed
  | execute node other =>
    simp only [machine, step] at hs
    split at hs
    · cases hs
      exact h.execute hc other ‹_›
    · cases hs
  | prompt =>
    simp only [machine, step] at hs
    split at hs
    · cases hs
      exact h.prompt ‹_›
    · cases hs
  | filled =>
    simp only [machine, step] at hs
    split at hs
    · split_ifs at hs with hfin
      cases hs
      exact h.filled ‹_› hfin
    · cases hs
  | timeout | expired => exact hc.elim
  | print =>
    simp only [machine, step] at hs
    split at hs
    · cases hs
      exact h.print ‹_›
    · cases hs
  | next =>
    simp only [machine, step] at hs
    split at hs
    · cases hs
      exact h.next ‹_›
    · cases hs
  | item i =>
    simp only [machine, step] at hs
    cases hs
    exact h.item hc

theorem inv_of_reach (h : (machine rxHex).ReachIf (Covered rxHex) s) : Inv s :=
  Machine.ReachIf.invariant Inv (fun s h0 => by
    obtain rfl : s = init := h0
    exact inv_init) (fun _ _ _ hP hc hs => inv_step hP hc hs) h

end

/-- The call that is pending. -/
def Caller.current : Caller → Option Call
  | .idle => none
  | .prompt c | .result c _ => some c

/-- The lines that were executed are those of the calls that returned, and that of the pending call
may be the last. -/
theorem Stage.log {v : View} (h : Stage v) : ∃ answered current, v.ran = answered ++ current ∧
    List.Forall₂ Answered v.done answered ∧
    (current = [] ∨ ∃ c e, v.caller.current = some c ∧ current = [e] ∧ Executed c e) := by
  cases h with
  | idle hlog | typing hlog | queued hlog | entering hlog | reading hlog | full hlog =>
    exact ⟨_, [], (List.append_nil _).symm, hlog, .inl rfl⟩
  | refused hlog hexec | sent hlog hexec => exact ⟨_, _, rfl, hlog, .inr ⟨_, _, rfl, rfl, hexec⟩⟩

/-- Three bytes, the last of which would end a command line. -/
def sampleCall : Call := ⟨ascii "1A2B", 2, 2, 0x0104, 0x0006, [0x41, 0x54, 0x0D]⟩

/-- The command and the data come in two chunks each; a prompt cuts the echo in two, and another
comes between the replies. -/
def sampleRun : List Action :=
  [.call sampleCall, .receive 9 true, .echoed, .item (.line .leftPan), .receive 256 true,
    .execute sampleNode ⟨0, [], [], 0⟩, .prompt, .echoed, .read 24, .line, .put, .take, .line,
    .line, .line, .put, .take, .receive 1 true, .receive 256 true, .filled, .print,
    .item (.line .leftPan), .print, .next, .read 256, .line, .put, .take, .line, .put, .take, .line,
    .line, .line, .line, .put, .take]

theorem codes_sampleNode : Codes sampleNode := by
  refine ⟨fun r => ?_, fun ieee err h => ?_⟩
  · show atOk < 256
    decide
  · cases h
    decide

theorem sampleCall_valid : sampleCall.Valid := List.all_eq_true.mp (by decide)

theorem sampleRun_covered : ∀ a ∈ sampleRun, ∀ s, Covered true s a := by
  have hcodes := codes_sampleNode
  simp only [sampleRun, List.forall_mem_cons]
  simp [Covered, hcodes, Unasked]
  exact fun _ => sampleCall_valid

theorem sampleRun_exec : ((machine true).exec init sampleRun).map (fun s =>
    (s.done, s.ran.map fun e => e.ran.submitted)) = some ([(sampleCall, .returned 0)],
      [[{ unicast sampleNode 0x1A2B 2 2 0x0104 0x0006 false [0x41, 0x54, 0x0D] with
        seq := 0 }]]) := by
  decide +kernel

/-- A call that times out before it gets `>`: the next command fills its data. -/
def expiredRun : List Action :=
  [.call sampleCall, .receive 256 true, .echoed, .execute sampleNode ⟨0, [], [], 0⟩, .prompt,
    .expired, .call sampleCall, .receive 256 true, .filled]

example : ((machine true).exec init expiredRun).map (fun s =>
    (s.done, s.ran.map fun e => e.ran.submitted)) = some ([(sampleCall, .timedOut)],
      [[{ unicast sampleNode 0x1A2B 2 2 0x0104 0x0006 false (ascii "AT+") with seq := 0 }]]) := by
  decide +kernel

end ZbAt.BinaryCall
