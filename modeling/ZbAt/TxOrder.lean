import ZbAt.TxQueueProof

/-!
# Sending data: the order of `SEQ:XX` and the report

`send_unicast` prints `SEQ:XX` after submit has handed the request over, so the stack thread can
report it first (`not_seq_first`). The two lines of a unicast come in order in every run in which
ZBOSS neither refuses its payload nor calls `tx_done` for it before the AT thread has come past
`SEQ:XX` (`NotRushed`).
-/

namespace ZbAt.Tx

variable {s s' : State} {a : Action}

/-- The call whose `SEQ:XX` the AT thread is about to print, if it is not quiet. -/
def AtPc.announcing : AtPc → Option ℕ
  | .seqLine k r => if r.quiet then none else some k
  | _ => none

/-- The call whose payload the stack thread is about to pass to ZBOSS. -/
def StackPc.passing : StackPc → Option ℕ
  | .pass _ _ k => some k
  | _ => none

/-- The call whose payload was refused or is done, and which is not reported yet. -/
def StackPc.reporting : StackPc → Option ℕ
  | .drop _ _ k | .nack _ _ k | .done _ k _ | .ack _ k _ _ _ => some k
  | _ => none

/-- ZBOSS does not refuse the payload of a unicast, and does not call `tx_done` for it, while the
AT thread is between its submit and its `SEQ:XX`. -/
def NotRushed (s : State) : Action → Prop
  | .stack sendOk _ => ∀ k ∈ s.stack.passing, s.at_.announcing = some k → sendOk = true
  | .txDone i _ => ∀ p ∈ s.air[i]?, s.at_.announcing ≠ some p.2
  | _ => True

instance (s : State) : ∀ a, Decidable (NotRushed s a)
  | .stack _ _ | .txDone _ _ => by unfold NotRushed; infer_instance
  | .submit _ | .sendUnicast _ _ | .at_ _ _ | .txSend _ _ => .isTrue trivial

/-- The first event prints a report and the second the `SEQ:XX` of the same call. -/
def Ev.tooEarly : Ev → Ev → Bool
  | .reported j _ _ (some _), .seqPrinted k _ => j == k
  | _, _ => false

/-- Every `SEQ:XX` comes before the `ACK:XX` or `NACK:XX` of its call. -/
def SeqFirst (log : List Ev) : Prop := log.Pairwise fun e e' => e.tooEarly e' = false

/-- The events that a step adds, by the rules for the two lines. -/
def Adds (s : State) (a : Action) (evs : List Ev) : Prop :=
  SeqFirst evs ∧ (∀ k line, .seqPrinted k line ∈ evs → s.at_.announcing = some k) ∧
    ∀ k seq acked line, .reported k seq acked (some line) ∈ evs →
      (∃ sendOk s0e, a = .stack sendOk s0e) ∧ s.stack.reporting = some k

/-- Events other than the two lines. -/
def Ev.other : Ev → Bool
  | .reported _ _ _ (some _) | .seqPrinted _ _ => false
  | _ => true

theorem Adds.other {evs : List Ev} (h : evs.all Ev.other) : Adds s a evs := by
  rw [List.all_eq_true] at h
  refine ⟨List.pairwise_of_forall_mem_list ?_, ?_, ?_⟩
  · intro e he e' _
    have ho := h e he
    unfold Ev.tooEarly
    split
    · cases ho
    · rfl
  · intro k line hev
    cases h _ hev
  · intro k seq acked line hev
    cases h _ hev

/-- What a step adds to the log: one of the two lines, or something else. -/
inductive Logs (s : State) (a : Action) : List Ev → Prop
  | other {evs : List Ev} (h : evs.all Ev.other = true) : Logs s a evs
  | seqLine {k : ℕ} {r : TxReq} (hat : s.at_ = .seqLine k r) (hquiet : r.quiet = false) :
      Logs s a [.seqPrinted k (.seq r.seq)]
  | nack {sendOk : Bool} {s0e : ℕ} {slot : Fin txSlots} {buf : BufId} {k : ℕ}
      (ha : a = .stack sendOk s0e) (hst : s.stack = .nack slot buf k) :
      Logs s a [.reported k (s.slots slot).seq false
        (report s0e (s.slots slot).seq (s.slots slot).quiet false)]
  | ack {sendOk : Bool} {s0e : ℕ} {buf : BufId} {k : ℕ} {seq : UInt8} {quiet acked : Bool}
      (ha : a = .stack sendOk s0e) (hst : s.stack = .ack buf k seq quiet acked) :
      Logs s a [.reported k seq acked (report s0e seq quiet acked)]

/-- A step that logs nothing. -/
theorem logs_nothing (h : s'.log = s.log) : ∃ evs, s'.log = s.log ++ evs ∧ Logs s a evs :=
  ⟨[], by rw [h, List.append_nil], .other rfl⟩

theorem stepStack_logs {sendOk : Bool} {s0e : ℕ} (hs : stepStack sendOk s0e s = some s') :
    ∃ evs, s'.log = s.log ++ evs ∧ Logs s (.stack sendOk s0e) evs := by
  cases hst : s.stack with
  | idle => rw [stepStack, hst] at hs; cases hs
  | add slot buf k | drop slot buf k | clear slot =>
    simp only [stepStack, hst, Option.some.injEq] at hs
    subst hs
    exact logs_nothing rfl
  | pass slot buf k =>
    simp only [stepStack, hst] at hs
    split_ifs at hs <;> cases hs <;> exact ⟨_, rfl, .other rfl⟩
  | nack slot buf k =>
    simp only [stepStack, hst, Option.some.injEq] at hs
    subst hs
    exact ⟨_, rfl, .nack rfl hst⟩
  | free slot buf k | doneFree buf k =>
    simp only [stepStack, hst, Option.some.injEq] at hs
    subst hs
    exact ⟨_, rfl, .other rfl⟩
  | done buf k acked =>
    simp only [stepStack, hst] at hs
    cases hfind : inFlightFind buf s.inFlight with
    | none | some =>
      rw [hfind] at hs
      cases hs
      exact logs_nothing rfl
  | ack buf k seq quiet acked =>
    simp only [stepStack, hst, Option.some.injEq] at hs
    subst hs
    exact ⟨_, rfl, .ack rfl hst⟩

theorem stepAt_logs {bufOk : Bool} {s0e : ℕ} (hs : stepAt bufOk s0e s = some s') :
    ∃ evs, s'.log = s.log ++ evs ∧ Logs s a evs := by
  cases hat : s.at_ with
  | idle => rw [stepAt, hat] at hs; cases hs
  | undoInc slot k | store slot k r uni | undoCount slot k =>
    simp only [stepAt, hat, Option.some.injEq] at hs
    subst hs
    exact logs_nothing rfl
  | undoSlot slot k err =>
    simp only [stepAt, hat, Option.some.injEq] at hs
    subst hs
    exact ⟨_, rfl, .other rfl⟩
  | inc slot k r uni =>
    simp only [stepAt, hat] at hs
    split_ifs at hs <;> cases hs <;> exact logs_nothing rfl
  | scan i k r uni =>
    simp only [stepAt, hat] at hs
    split_ifs at hs <;> cases hs
    · exact logs_nothing rfl
    · exact logs_nothing rfl
    · exact ⟨_, rfl, .other rfl⟩
  | getBuf slot k r uni =>
    simp only [stepAt, hat] at hs
    by_cases hbuf : bufOk = true
    · rw [if_pos hbuf] at hs
      cases hs
      exact ⟨_, rfl, .other rfl⟩
    · rw [if_neg hbuf] at hs
      cases hs
      exact logs_nothing rfl
  | seqLine k r =>
    simp only [stepAt, hat] at hs
    split_ifs at hs with hloud <;> cases hs
    · rw [Bool.and_eq_true, Bool.not_eq_true'] at hloud
      exact ⟨_, rfl, .seqLine hat hloud.1⟩
    · exact logs_nothing rfl

/-- **What a step logs.** -/
theorem step_logs (hs : step s a = some s') : ∃ evs, s'.log = s.log ++ evs ∧ Logs s a evs := by
  cases a with
  | at_ bufOk s0e => exact stepAt_logs hs
  | stack sendOk s0e => exact stepStack_logs hs
  | submit r | sendUnicast r quiet =>
    simp only [step] at hs
    split_ifs at hs
    cases hs
    exact logs_nothing rfl
  | txSend i buf | txDone i acked =>
    simp only [step] at hs
    split at hs
    · cases hs
    · split_ifs at hs
      cases hs
      exact logs_nothing rfl

theorem adds_report {sendOk : Bool} {s0e k : ℕ} {seq : UInt8} {acked : Bool} {line : Option Line}
    (h : s.stack.reporting = some k) :
    Adds s (.stack sendOk s0e) [.reported k seq acked line] := by
  refine ⟨List.pairwise_singleton _ _, ?_, ?_⟩
  · intro j l hev
    cases List.mem_singleton.mp hev
  · intro j seq' acked' l hev
    cases List.mem_singleton.mp hev
    exact ⟨⟨sendOk, s0e, rfl⟩, h⟩

/-- What a step logs follows the rules for the two lines. -/
theorem Logs.adds {evs : List Ev} (h : Logs s a evs) : Adds s a evs := by
  cases h with
  | other h => exact .other h
  | @seqLine k r hat hquiet =>
    refine ⟨List.pairwise_singleton _ _, ?_, ?_⟩
    · intro j l hev
      cases List.mem_singleton.mp hev
      rw [hat, AtPc.announcing, hquiet]
      rfl
    · intro _ _ _ _ hev
      cases List.mem_singleton.mp hev
  | nack ha hst | ack ha hst =>
    subst ha
    exact adds_report (by rw [hst]; rfl)

theorem stepStack_at {sendOk : Bool} {s0e : ℕ} (hs : stepStack sendOk s0e s = some s') :
    s'.at_ = s.at_ := by
  cases hst : s.stack <;> simp only [stepStack, hst, reduceCtorEq] at hs <;>
    (try split_ifs at hs) <;> (try split at hs) <;> cases hs <;> rfl

/-- The stack thread comes to a report by a refused payload. -/
theorem stepStack_reporting {sendOk : Bool} {s0e k : ℕ} (hs : stepStack sendOk s0e s = some s')
    (hk : s'.stack.reporting = some k) :
    s.stack.reporting = some k ∨ s.stack.passing = some k ∧ sendOk = false := by
  cases hst : s.stack with
  | pass slot buf j =>
    simp only [stepStack, hst] at hs
    split_ifs at hs with hok hack <;> cases hs <;> cases hk
    exact .inr ⟨rfl, Bool.eq_false_iff.mpr hok⟩
  | idle => rw [stepStack, hst] at hs; cases hs
  | done buf j acked =>
    simp only [stepStack, hst] at hs
    split at hs <;> cases hs <;> cases hk
    exact .inl rfl
  | _ =>
    simp only [stepStack, hst, Option.some.injEq] at hs
    subst hs
    first | exact .inl hk | cases hk

theorem stepAt_stack {bufOk : Bool} {s0e : ℕ} (hs : stepAt bufOk s0e s = some s') :
    s'.stack = s.stack := by
  cases hat : s.at_ <;> simp only [stepAt, hat, reduceCtorEq] at hs <;>
    (try split_ifs at hs) <;> cases hs <;> rfl

/-- The AT thread comes to print `SEQ:XX` from the submit of the same call. -/
theorem announcing_step (hr : Rule s s') {k : ℕ} (hk : s'.at_.announcing = some k) :
    s.at_.announcing = some k ∨ s.at_.running = [k] := by
  cases hr with
  | @queue slot j r uni hat =>
    cases uni with
    | true =>
      simp only [AtPc.afterOk, if_pos, AtPc.announcing] at hk
      split_ifs at hk
      cases hk
      exact .inr (by rw [hat]; rfl)
    | false => cases hk
  | @noBuf slot j r uni hat => cases hack : r.ack <;> simp [hack, AtPc.announcing] at hk
  | call hat | taken hat | reserve hat | noSlot hat | tooMany hat | count hat | noCount hat
  | undoInc hat | store hat | undoCount hat | undoSlot hat | seqLine hat | seqOff hat => cases hk
  | _ => exact .inl hk

/-- The call was not reported, and is not about to be. -/
structure Quiet (s : State) (k : ℕ) : Prop where
  log : ∀ seq acked line, .reported k seq acked (some line) ∉ s.log
  stack : s.stack.reporting ≠ some k

/-- The lines came in order, and the call that is to be announced was not reported yet. -/
structure Ordered (s : State) : Prop where
  inOrder : SeqFirst s.log
  ahead : ∀ k, s.at_.announcing = some k → Quiet s k

theorem StackPc.reporting_unfinished {pc : StackPc} {k : ℕ} (h : pc.reporting = some k) :
    pc.unfinished = [k] := by
  cases pc <;> cases h <;> rfl

/-- Nothing is reported of a call whose submit still runs. -/
theorem running_quiet (hret : Returned s) (hl : Ledger s) {k : ℕ} (hrun : s.at_.running = [k]) :
    Quiet s k := by
  have hacc : acceptedOf k s.log = 0 := by
    have honce := hret.once k
    have hle : acceptedOf k s.log ≤ (returnedOf k s.log).length := List.count_le_length
    rw [hrun, List.count_singleton_self] at honce
    split_ifs at honce
    omega
  constructor
  · intro seq acked line hev
    have hmem : seq ∈ reportsOf k s.log := mem_reportsOf.mpr ⟨_, _, hev⟩
    obtain ⟨r, hr, hack, -⟩ := hl.seqs k seq hmem
    have hrep := hl.reported k ((acked_of hr).trans hack)
    have hpos := List.length_pos_of_mem hmem
    omega
  · intro hst
    have hended := hl.ended k
    rw [State.unfinished, StackPc.reporting_unfinished hst, List.append_assoc, List.count_append,
      List.count_singleton_self] at hended
    omega

/-- What is quiet before a step that the condition allows is quiet after it. -/
theorem Quiet.step {k : ℕ} (h : Quiet s k) (hk : s'.at_.announcing = some k)
    (ha : NotRushed s a) (hs : step s a = some s') : Quiet s' k := by
  obtain ⟨evs, hlog, hlogs⟩ := step_logs hs
  obtain ⟨-, -, hrep⟩ := hlogs.adds
  refine ⟨?_, ?_⟩
  · intro seq acked line hev
    rw [hlog, List.mem_append] at hev
    exact hev.elim (h.log seq acked line) fun hev => h.stack (hrep k seq acked line hev).2
  · cases a with
    | submit r | sendUnicast r quiet =>
      simp only [Tx.step] at hs
      split_ifs at hs
      cases hs
      exact h.stack
    | at_ bufOk s0e =>
      rw [stepAt_stack hs]
      exact h.stack
    | txSend i buf =>
      simp only [Tx.step] at hs
      split at hs
      · cases hs
      · split_ifs at hs
        cases hs
        intro hst
        cases hst
    | txDone i acked =>
      simp only [Tx.step] at hs
      split at hs
      · cases hs
      next buf j hair =>
        split_ifs at hs
        cases hs
        rintro ⟨⟩
        exact ha _ hair hk
    | stack sendOk s0e =>
      intro hst
      rw [stepStack_at hs] at hk
      rcases stepStack_reporting hs hst with hst | ⟨hpass, rfl⟩
      · exact h.stack hst
      · cases ha k hpass hk

theorem ordered_step (hret : Returned s) (hl : Ledger s) (h : Ordered s) (ha : NotRushed s a)
    (hs : step s a = some s') : Ordered s' := by
  obtain ⟨evs, hlog, hlogs⟩ := step_logs hs
  obtain ⟨hord, hseq, -⟩ := hlogs.adds
  refine ⟨?_, ?_⟩
  · rw [hlog]
    refine List.pairwise_append.mpr ⟨h.inOrder, hord, ?_⟩
    intro e he e' he'
    unfold Ev.tooEarly
    split
    next j seq acked line k line' =>
      apply beq_eq_false_iff_ne.mpr
      rintro rfl
      exact (h.ahead j (hseq _ _ he')).log _ _ _ he
    next => rfl
  · intro k hk
    have hstay := announcing_step (step_rule hs) hk
    have hquiet : Quiet s k := hstay.elim (h.ahead k) (running_quiet hret hl)
    exact hquiet.step hk ha hs

/-- **`SEQ:XX` first.** In a run in which ZBOSS neither refuses the payload of a unicast nor calls
`tx_done` for it while the AT thread is still to print its `SEQ:XX`, every `SEQ:XX` comes before
the `ACK:XX` or `NACK:XX` of its call. -/
theorem seq_first (h : machine.ReachIf NotRushed s) : SeqFirst s.log := by
  refine (h.invariant_of (fun s => Returned s ∧ Ledger s) Ordered (fun _ => ledger_reach)
    ?_ fun s a s' ⟨hret, hl⟩ _ ho ha hs => ordered_step hret hl ho ha hs).inOrder
  intro s h0
  cases h0
  exact ⟨List.Pairwise.nil, fun k hk => (nomatch hk)⟩

instance (log : List Ev) : Decidable (SeqFirst log) := by unfold SeqFirst; infer_instance

/-- A unicast whose `tx_send` runs before `SEQ:XX`, and whose `tx_done` after it. -/
def overlapRun : List Action :=
  [.sendUnicast { TxReq.zero with dst := 0x1234 } false, .at_ true 0, .at_ true 0, .at_ true 0,
    .at_ true 0, .txSend 0 7, .stack true 0, .stack true 0, .at_ true 0, .stack true 0,
    .txDone 0 true, .stack true 0, .stack true 0, .stack true 0]

theorem overlapRun_execIf : ((machine.execIf NotRushed init overlapRun).map fun s =>
    (s.log.contains (.seqPrinted 0 (.seq 0)),
      s.log.contains (.reported 0 0 true (some (.ack 0))))) = some (true, true) := by
  decide

/-- A unicast that prints both lines. -/
theorem seq_first_acked : ∃ s : State, .seqPrinted 0 (.seq 0) ∈ s.log ∧
    .reported 0 0 true (some (.ack 0)) ∈ s.log ∧ SeqFirst s.log := by
  obtain ⟨s, he, hs⟩ := Option.map_eq_some_iff.mp overlapRun_execIf
  simp only [Prod.mk.injEq, List.contains_iff_mem] at hs
  exact ⟨s, hs.1, hs.2, seq_first (.execIf (.init rfl) he)⟩

/-- A unicast whose payload is refused before the AT thread comes to print its `SEQ:XX`. -/
def earlyNackRun : List Action :=
  [.sendUnicast { TxReq.zero with dst := 0x1234 } false, .at_ true 0, .at_ true 0, .at_ true 0,
    .at_ true 0, .txSend 0 7, .stack true 0, .stack false 0, .stack true 0, .stack true 0,
    .at_ true 0]

theorem earlyNackRun_exec :
    ((machine.exec init earlyNackRun).map fun s => decide (SeqFirst s.log)) = some false := by
  decide

/-- `NACK:00` is printed before `SEQ:00`. -/
theorem not_seq_first : ¬ ∀ s, machine.Reach s → SeqFirst s.log := by
  intro h
  obtain ⟨s, he, hs⟩ := Option.map_eq_some_iff.mp earlyNackRun_exec
  exact of_decide_eq_false hs (h s (Machine.Reach.exec (.init rfl) he))

end ZbAt.Tx
