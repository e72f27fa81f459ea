import ZbAt.BinaryCallProof

/-!
# Every call of `senducastb` ends

The steps of the threads, without new calls, without time-outs and without what the ZBOSS thread
prints, use up a measure of the bytes, lines and replies that are still under way; and as long as a
call is pending one of them can be taken, unless `S0E` hides the result.

* `State.cost` — the measure; `cost_step` — every step of the threads decreases it.
* `ends_of_stuck` — where no such step can be taken, the call has returned or its result is hidden.
* `senducastb_returns` — how long a run of such steps is, and how it ends.
-/

namespace ZbAt.BinaryCall

open Text Uart Host Sreg Xcast Tx Match Endpoint

/-! ## The measure -/

/-- A byte of a reply costs 4, and a line of it 1 when it is printed and 4 times the line ends. -/
def AtPc.cost : AtPc → ℕ
  | .getLine => 0
  | .entry .. => 114
  | .wait .. => 100
  | .print lines => 1 + (lines.map fun l => 4 * l.length + 17).sum

/-- The data that is sent after `>`. -/
def Caller.cost : Caller → ℕ
  | .prompt c => 136 * c.data.length
  | .idle | .result .. => 0

def State.cost (s : State) : ℕ :=
  s.resp.length + 2 * s.held.toList.length + 3 * s.lines.length + 4 * s.down.length +
    5 * s.echo.length + 136 * s.up.length + 130 * s.lineQ.length + s.at_.cost + s.caller.cost

/-- A step of the threads; a read gets a byte at least. -/
def Moves (s : State) : Action → Prop
  | .read n => 0 < n ∧ s.down ≠ []
  | .call _ | .item _ | .timeout | .expired => False
  | _ => True

instance (s : State) : ∀ a, Decidable (Moves s a)
  | .read _ | .call _ | .item _ | .timeout | .expired | .take | .line | .put | .receive _ _
  | .echoed | .execute _ _ | .prompt | .filled | .print | .next => by
    unfold Moves; infer_instance

/-- A covered step of the threads. -/
def Own (rxHex : Bool) (s : State) (a : Action) : Prop := Covered rxHex s a ∧ Moves s a

section

variable {rxHex : Bool} {s s' : State} {c : Call} {node : Node} {r : TxReq} {l line : Text}

theorem length_feed (buf : Text) (data : List UInt8) : (feed buf data).2.length ≤ data.length := by
  induction data generalizing buf with
  | nil => exact Nat.le_refl 0
  | cons b data ih =>
    have hbyte : (feedByte buf b).2.length ≤ 1 := by
      unfold feedByte
      split_ifs <;> simp
    have hrest := ih (feedByte buf b).1
    simp only [feed, List.length_append, List.length_cons]
    omega

theorem length_atPrint (l : Text) : (Write.atPrint l).bytes.length ≤ l.length + 4 := by
  have hbytes : (Write.atPrint l).bytes = crlf ++ l.take (atOutMax - 1) ++ crlf := by
    simp [Write.bytes, Write.calls]
  have hcrlf : crlf.length = 2 := rfl
  have htake : (l.take (atOutMax - 1)).length ≤ l.length := List.length_take_le' _ _
  rw [hbytes, List.length_append, List.length_append, hcrlf]
  omega

/-- A byte that the RX thread gets becomes an echo and a line at most. -/
theorem cost_rxByte (echoOn : Bool) (s : State) (b : UInt8) :
    (rxByte echoOn s b).cost ≤ s.cost + 135 := by
  have hput : ∀ (line : Option Text) (q : List Text),
      (line.elim q (putLine · q)).length ≤ q.length + 1 := by
    intro line q
    cases line with
    | none => exact Nat.le_succ _
    | some t =>
      rw [Option.elim_some, putLine]
      split_ifs
      · rw [List.length_append, List.length_singleton]
      · exact Nat.le_succ _
  unfold rxByte
  split_ifs
  · exact Nat.le_add_right _ _
  · exact Nat.le_add_right _ _
  · have hline := hput (lineByte b s.rxLine).2 s.lineQ
    simp only [State.cost, List.length_append, List.length_singleton]
    omega
  · have hline := hput (lineByte b s.rxLine).2 s.lineQ
    simp only [State.cost]
    omega

theorem cost_foldl (echoOn : Bool) (data : List UInt8) (s : State) :
    (data.foldl (rxByte echoOn) s).cost ≤ s.cost + 135 * data.length := by
  induction data generalizing s with
  | nil => exact Nat.le_refl _
  | cons b data ih =>
    have hrest := ih (rxByte echoOn s b)
    have hbyte := cost_rxByte echoOn s b
    rw [List.foldl_cons, List.length_cons]
    omega

/-- The replies of a handler. -/
theorem cost_replies {e : Exec} (h : Proper e.ran) : (AtPc.print (replies e)).cost ≤ 91 := by
  have hseq : ∀ seq, (seqLine seq).length = 6 := fun seq => by
    have hword : (ascii "SEQ:").length = 4 := rfl
    rw [seqLine, List.length_append, length_hexByte, hword]
  have herror : ∀ code, (errorLine code).length = 8 := fun code => by
    have hword : (ascii "ERROR:").length = 6 := rfl
    rw [errorLine, List.length_append, length_hexByte, hword]
  have hok : (ascii "OK").length = 2 := rfl
  have hprinted : (e.ran.printed.map fun l => 4 * l.length + 17).sum ≤ 41 := by
    rcases h.printed with hnone | ⟨seq, hone⟩
    · simp [hnone]
    · simp [hone, hseq]
  have hresult : ((printResult e.ran.result e.node.vals).map fun l => 4 * l.length + 17).sum ≤
      49 := by
    rcases printResult_cases h.result e.node.vals with hnone | ⟨-, hone⟩ | ⟨code, -, -, hone⟩
    · simp [hnone]
    · simp [hone, hok]
    · simp [hone, herror]
  rw [replies, AtPc.cost, List.map_append, List.sum_append]
  omega

theorem cost_finish {ran : Ran} (hproper : Proper ran) :
    (s.finish line node ran).cost + s.at_.cost ≤ s.cost + 91 := by
  have hreplies := @cost_replies ⟨line, node, ran⟩ hproper
  have hat : (s.finish line node ran).cost = s.resp.length + 2 * s.held.toList.length +
      3 * s.lines.length + 4 * s.down.length + 5 * s.echo.length + 136 * s.up.length +
      130 * s.lineQ.length + (AtPc.print (replies ⟨line, node, ran⟩)).cost + s.caller.cost := rfl
  rw [hat, State.cost]
  omega

/-- The node of a handler that reads has its codes. -/
theorem Stage.codes {v : View} (h : Stage v) (hreading : v.reading = some (line, node, r)) :
    Codes node := by
  cases h with
  | idle | typing | queued | refused | sent => cases hreading
  | entering _ hent | reading _ hent | full _ hent =>
    cases hreading
    exact hent.codes

/-- A line that is taken costs 1, whatever the caller does with it. -/
theorem cost_got (h : s.got l = some s') : s'.cost ≤ s.cost := by
  unfold State.got at h
  split at h
  · cases h
  · rename_i c hcaller
    split_ifs at h
    · cases h
      simp only [State.cost, hcaller, Caller.cost, List.length_append]
      omega
    · split at h
      · cases h
        simp only [State.cost, State.answer, hcaller, Caller.cost]
        omega
      · cases h
        exact Nat.le_refl _
  · rename_i c lines hcaller
    split_ifs at h
    · cases h
      simp only [State.cost, State.answer, hcaller, Caller.cost]
      omega
    · split at h
      · cases h
        simp only [State.cost, State.answer, hcaller, Caller.cost]
        omega
      · cases h
        simp only [State.cost, hcaller, Caller.cost]
        omega

/-- **One step** of the threads uses up some of the measure. -/
theorem cost_step {a : Action} (h : Inv s) (hown : Own rxHex s a)
    (hs : (machine rxHex).step s a = some s') : s'.cost < s.cost := by
  obtain ⟨hc, hm⟩ := hown
  cases a with
  | call c => exact hm.elim
  | take =>
    simp only [machine, step] at hs
    split at hs
    · rename_i l rest hresp
      have hle := cost_got hs
      have hpop : State.cost { s with resp := rest } + 1 = s.cost := by
        simp only [State.cost, hresp, List.length_cons]
        omega
      omega
    · cases hs
  | read n =>
    simp only [machine, step] at hs
    split_ifs at hs with hfree
    cases hs
    have hlines := length_feed s.buf (s.down.take n)
    have hpos : 0 < s.down.length := List.length_pos_iff.mpr hm.2
    have hn : 0 < n := hm.1
    rw [List.length_take] at hlines
    simp only [State.cost, hfree.1, hfree.2, List.length_drop, List.length_nil,
      Option.toList_none]
    omega
  | line =>
    simp only [machine, step] at hs
    split at hs
    · rename_i l rest hlines hheld
      cases hs
      have hput : ∀ b : Bool, (if b then some l else none).toList.length ≤ 1 := by
        intro b
        cases b <;> simp
      have hlen := hput (s.caller.pending.any (routed · rxHex l))
      simp only [State.cost, hlines, hheld, List.length_cons, Option.toList_none, List.length_nil]
      omega
    · cases hs
  | put =>
    simp only [machine, step] at hs
    split at hs
    · rename_i l hheld
      cases hs
      simp only [State.cost, hheld, List.length_append, Option.toList_none, Option.toList_some,
        List.length_singleton, List.length_nil]
      omega
    · cases hs
  | receive n echoOn =>
    simp only [machine, step] at hs
    split_ifs at hs with hfree
    cases hs
    obtain ⟨hup, hn, -⟩ := hfree
    have hpos : 0 < s.up.length := List.length_pos_iff.mpr hup
    have hfold := cost_foldl echoOn (s.up.take n) { s with up := s.up.drop n }
    have hdrop : State.cost { s with up := s.up.drop n } + 136 * min n s.up.length = s.cost := by
      simp only [State.cost, List.length_drop]
      omega
    rw [List.length_take] at hfold
    omega
  | echoed =>
    simp only [machine, step] at hs
    split_ifs at hs with hecho
    cases hs
    have hpos : 0 < s.echo.length := List.length_pos_iff.mpr hecho
    simp only [State.cost, List.length_append, List.length_nil]
    omega
  | execute node other =>
    simp only [machine, step] at hs
    split at hs
    · rename_i line q hat hq
      cases hs
      obtain ⟨c, -, -, -, -, rfl, rfl, -⟩ := h.stage.queue hq
      have hpop : State.cost { s with lineQ := [] } + 130 = s.cost := by
        simp only [State.cost, hq, List.length_singleton, List.length_nil]
        omega
      rcases execute_cases (Codes.seq hc s.nextSeq) { s with lineQ := [] } other with
        ⟨err, herr, -, hstep⟩ | ⟨r, -, -, hstep⟩
      · have hfinish := @cost_finish { s with lineQ := [] } { node with nextSeq := s.nextSeq }
          c.line _ (@proper_refuse { node with nextSeq := s.nextSeq } err herr.2)
        rw [hstep]
        omega
      · have hentry : State.cost { s with
            lineQ := []
            at_ := .entry c.line { node with nextSeq := s.nextSeq } r
            binBuf := []
            binNeed := c.data.length
            binDone := false } = State.cost { s with lineQ := [] } + 114 := by
          simp only [State.cost, hat, AtPc.cost]
          omega
        rw [hstep, hentry]
        omega
    · cases hs
  | prompt =>
    simp only [machine, step] at hs
    split at hs
    · rename_i line node r hat
      cases hs
      have hbytes : Write.binaryPrompt.bytes.length = 3 := rfl
      simp only [State.cost, hat, AtPc.cost, List.length_append, hbytes]
      omega
    · cases hs
  | filled =>
    simp only [machine, step] at hs
    split at hs
    · rename_i line node r hat
      split_ifs at hs with hfin
      cases hs
      have hcodes : Codes node := h.stage.codes (by rw [State.view, hat]; rfl)
      have hfinish := @cost_finish { s with binDone := false } node line _
        (proper_send hcodes r s.binBuf)
      have hwait : State.cost { s with binDone := false } = s.cost := rfl
      have hcost : AtPc.cost s.at_ = 100 := by rw [hat, AtPc.cost]
      simp only [hwait, hcost] at hfinish
      omega
    · cases hs
  | timeout | expired => exact hm.elim
  | print =>
    simp only [machine, step] at hs
    split at hs
    · rename_i l ls hat
      cases hs
      have hbytes := length_atPrint l
      simp only [State.cost, hat, AtPc.cost, List.length_append, List.map_cons, List.sum_cons]
      omega
    · cases hs
  | next =>
    simp only [machine, step] at hs
    split at hs
    · rename_i hat
      cases hs
      simp only [State.cost, hat, AtPc.cost, List.map_nil, List.sum_nil]
      omega
    · cases hs
  | item i => exact hm.elim

/-- Where nothing is under way, no thread can move. -/
theorem stuck_of_cost (h : Inv s) (hcost : s.cost = 0) {a : Action} (hown : Own rxHex s a) :
    (machine rxHex).step s a = none := by
  cases hs : (machine rxHex).step s a with
  | none => rfl
  | some s' =>
    have hlt := cost_step h hown hs
    omega

/-! ## Where no thread can move -/

/-- `S0E` hides the result of the last line. -/
def Hidden (s : State) : Prop :=
  ∃ e, s.ran.getLast? = some e ∧ printResult e.ran.result e.node.vals = []

/-- No thread can move. -/
structure Stuck (s : State) : Prop where
  resp : s.caller ≠ .idle → s.resp = []
  down : s.down = []
  lines : s.lines = []
  held : s.held = none
  up : s.up = []
  entry : ∀ line node r, s.at_ ≠ .entry line node r
  wait : ∀ line node r, s.at_ = .wait line node r → s.binDone = false
  print : ∀ ls, s.at_ ≠ .print ls
  getLine : s.at_ = .getLine → s.lineQ = []

theorem stuck_of_none (h : ∀ a, Own rxHex s a → (machine rxHex).step s a = none) : Stuck s := by
  have hstep : ∀ a, Own rxHex s a → step rxHex s a = none := h
  have hheld : s.held = none := by
    by_contra hne
    obtain ⟨l, hl⟩ := Option.ne_none_iff_exists'.mp hne
    have hput := hstep .put ⟨trivial, trivial⟩
    simp [step, hl] at hput
  have hlines : s.lines = [] := by
    by_contra hne
    obtain ⟨l, rest, hl⟩ := List.exists_cons_of_ne_nil hne
    have hline := hstep .line ⟨trivial, trivial⟩
    simp [step, hl, hheld] at hline
  have hecho : s.echo = [] := by
    by_contra hne
    have hechoed := hstep .echoed ⟨trivial, trivial⟩
    simp [step, hne] at hechoed
  refine ⟨fun hcaller => ?_, ?_, hlines, hheld, ?_, ?_, ?_, ?_, ?_⟩
  · by_contra hne
    obtain ⟨l, rest, hl⟩ := List.exists_cons_of_ne_nil hne
    have htake := hstep .take ⟨trivial, trivial⟩
    simp only [step, hl, State.got] at htake
    split at htake
    · exact hcaller ‹_›
    · split_ifs at htake
      split at htake <;> cases htake
    · split_ifs at htake
      split at htake <;> cases htake
  · by_contra hne
    have hread := hstep (.read 1) ⟨trivial, Nat.one_pos, hne⟩
    simp [step, hlines, hheld] at hread
  · by_contra hne
    have hreceive := hstep (.receive 1 true) ⟨trivial, trivial⟩
    simp [step, hne, hecho, Bin.rxBufSize] at hreceive
  · intro line node r hat
    have hprompt := hstep .prompt ⟨trivial, trivial⟩
    simp [step, hat] at hprompt
  · intro line node r hat
    have hfilled := hstep .filled ⟨trivial, trivial⟩
    simpa [step, hat] using hfilled
  · intro ls hat
    cases ls with
    | nil =>
      have hnext := hstep .next ⟨trivial, trivial⟩
      simp [step, hat] at hnext
    | cons l ls =>
      have hprint := hstep .print ⟨trivial, trivial⟩
      simp [step, hat] at hprint
  · intro hat
    by_contra hne
    obtain ⟨line, q, hq⟩ := List.exists_cons_of_ne_nil hne
    have hexec := hstep (.execute sampleNode ⟨0, [], [], 0⟩) ⟨codes_sampleNode, trivial⟩
    simp [step, hat, hq] at hexec

/-- Then the call has returned, or waits for a result that is not printed. -/
theorem ends_of_stuck (h : Inv s) (hs : Stuck s) : s.caller = .idle ∨ Hidden s := by
  obtain ⟨hstage, -⟩ := h
  have howed : s.at_.owed = [] := by
    cases hat : s.at_ with
    | getLine | wait => rfl
    | entry line node r => exact absurd hat (hs.entry line node r)
    | print ls => exact absurd hat (hs.print ls)
  have hcome : s.caller ≠ .idle → s.toCome = [] := by
    intro hcaller
    rw [State.toCome, State.ahead, hs.resp hcaller, hs.held, hs.lines, hs.down, howed]
    rfl
  generalize hv : s.view = v at hstage
  obtain ⟨hcaller, hup, hrx, hq, hbin, hneed, hfin, hreading, hcome', hran, hdone⟩ :=
    View.ext_iff.mp hv
  have hcaller : s.caller = v.caller := hcaller
  have hup : s.up = v.up := hup
  have hcome' : s.toCome = v.toCome := hcome'
  have hfree : v.reading = none → s.at_ = .getLine := by
    intro hnone
    have hreading : s.at_.reading = none := hreading.trans hnone
    cases hat : s.at_ with
    | getLine => rfl
    | entry line node r => exact absurd hat (hs.entry line node r)
    | wait line node r =>
      rw [hat] at hreading
      cases hreading
    | print ls => exact absurd hat (hs.print ls)
  -- The replies of the last line do not hold a result.
  have hhidden : ∀ e ran, s.ran = ran ++ [e] → printResult e.ran.result e.node.vals = [] →
      Hidden s := by
    intro e ran hlog hnone
    exact ⟨e, by rw [hlog, List.getLast?_concat], hnone⟩
  cases hstage with
  | idle => exact .inl hcaller
  | typing _ _ _ hne => exact absurd (hup.symm.trans hs.up) hne
  | queued =>
    have hnil : s.lineQ = [] := hs.getLine (hfree rfl)
    cases hq.symm.trans hnil
  | @refused c bin fin e ran done hlog hexec hprinted hresult =>
    have hnone : replies e = [] := by
      rw [← hcome (by rw [hcaller]; intro hc; cases hc)]
      exact hcome'.symm
    exact .inr (hhidden e ran hran (List.append_eq_nil_iff.mp hnone).2)
  | entering =>
    rw [hcome (by rw [hcaller]; intro hc; cases hc)] at hcome'
    cases hcome'
  | @reading c lines up bin node r ran done hlog hent hlines hdata hlen =>
    have hup : s.up = up := hup
    rw [← hdata, ← hup, hs.up, List.append_nil] at hlen
    exact absurd hlen (lt_irrefl _)
  | full =>
    have hreading : s.at_.reading = some _ := hreading
    cases hat : s.at_ with
    | getLine | print =>
      rw [hat] at hreading
      cases hreading
    | entry line node r => exact absurd hat (hs.entry line node r)
    | wait line node r => cases hfin.symm.trans (hs.wait line node r hat)
  | @sent c lines toCome bin fin e ran done hlog hexec hproper hkept hreplies =>
    have hnil : toCome = [] := by
      rw [← hcome (by rw [hcaller]; intro hc; cases hc)]
      exact hcome'.symm
    refine .inr (hhidden e ran hran ?_)
    rw [hnil, List.append_nil] at hreplies
    have hkeep : ∀ l ∈ printResult e.ran.result e.node.vals,
        l ≠ ascii "OK" ∧ errorCode l = none := by
      intro l hl
      refine hkept l (List.mem_of_mem_filter (p := isSignal) ?_)
      rw [hreplies]
      exact List.mem_append_right _ hl
    rcases printResult_cases hproper.result e.node.vals with hnone | ⟨-, hok⟩ | ⟨code, -, -, herror⟩
    · exact hnone
    · rw [hok] at hkeep
      exact absurd rfl (hkeep _ List.mem_cons_self).1
    · rw [herror] at hkeep
      cases (errorCode_error code).symm.trans (hkeep _ List.mem_cons_self).2

end

/-- The steps of a call, whose echo is cut by `>`, until no thread can move. -/
def callRun : List Action :=
  [.receive 9 true, .echoed, .receive 256 true, .execute sampleNode ⟨0, [], [], 0⟩, .prompt,
    .echoed, .read 256, .line, .put, .take, .line, .put, .take, .receive 1 true,
    .receive 256 true, .filled, .print, .print, .next, .read 256, .line, .put, .line, .put, .line,
    .line, .put, .take, .take, .take]

theorem callRun_exec : (((machine true).step init (.call sampleCall)).bind fun s =>
    (machine true).execIf Moves s callRun).map (fun s => (s.done, s.cost)) =
      some ([(sampleCall, .returned 0)], 0) := by
  decide +kernel

end ZbAt.BinaryCall
