import ZbAt.ZbBootProof

/-!
# The outcome of AT+EN, AT+JN and AT+JPAN

A command that starts a network, with no network recorded and the stack not started, ends with the
result that the handler gave to `complete`, or with its timeout. A success that the stack reports
after the failure is decided still records the network (`not_failsQuietly`). In every run in which
no success comes late (`Timely`), a failure leaves nothing behind; and in every such run `AT_OK`
means that `network_up` has recorded the role (`start_outcome`).

`Attempt` follows the command by the position of the AT thread: `Prepared` up to `op = new_op`,
`Running` while it waits, and `Outcome` from the decision on. `Quiet` says that nothing was
recorded and that the handler is not about to.
-/

namespace ZbAt.Zbc

variable {s s' : State} {a : Action}

/-! ## The log of a command -/

def Ev.isReturn : Ev → Bool
  | .returned _ => true
  | _ => false

/-- What happened before the command returned, and from its return on. -/
def beforeReturn (log : List Ev) : List Ev := log.takeWhile fun e => !e.isReturn
def fromReturn (log : List Ev) : List Ev := log.dropWhile fun e => !e.isReturn

/-- The command has not returned. -/
def Pending (log : List Ev) : Prop := ∀ e ∈ log, e.isReturn = false

/-- `network_up` ran and left the node's role in the settings. -/
def recorded (log : List Ev) : Bool :=
  log.any fun
    | .networkUp role saved => role == saved && role != .none
    | _ => false

/-- A failed command leaves no recorded role, prints nothing and schedules no reboot after its
error, until the next command. -/
def FailsQuietly (s : State) : Prop := s.fresh = true →
  ∀ result post, fromReturn s.log = .returned result :: post → result ≠ atOk →
    s.savedRole = .none ∧ s.storedRole = .none ∧
      .jpan ∉ post ∧ .leftPan ∉ post ∧ .rebootScheduled ∉ post

/-- A command that returned `AT_OK` returned after `network_up` had recorded the role. -/
def OkRecorded (s : State) : Prop := s.fresh = true →
  ∀ post, fromReturn s.log = .returned atOk :: post → recorded (beforeReturn s.log) = true

theorem pending_nil : Pending [] := nofun

theorem Pending.append {log log' : List Ev} (h : Pending log) (h' : Pending log') :
    Pending (log ++ log') := fun e he => (List.mem_append.mp he).elim (h e) (h' e)

theorem Pending.takeWhile {log : List Ev} (h : Pending log) (l : List Ev) :
    (log ++ l).takeWhile (fun e => !e.isReturn) = log ++ l.takeWhile fun e => !e.isReturn :=
  List.takeWhile_append_of_pos fun e he => by simp [h e he]

theorem Pending.dropWhile {log : List Ev} (h : Pending log) (l : List Ev) :
    (log ++ l).dropWhile (fun e => !e.isReturn) = l.dropWhile fun e => !e.isReturn :=
  List.dropWhile_append_of_pos fun e he => by simp [h e he]

theorem Pending.fromReturn {log : List Ev} (h : Pending log) : fromReturn log = [] := by
  have := h.dropWhile []
  rwa [List.append_nil] at this

/-- The command returns. -/
theorem Pending.returned {log : List Ev} (h : Pending log) (result : ℕ) :
    Zbc.fromReturn (log ++ [.returned result]) = [.returned result] ∧
      beforeReturn (log ++ [.returned result]) = log := by
  refine ⟨h.dropWhile _, ?_⟩
  rw [beforeReturn, h.takeWhile]
  simp [Ev.isReturn]

/-- What happens later changes nothing before the return. -/
theorem returned_append {log : List Ev} {result : ℕ} {post : List Ev}
    (h : fromReturn log = .returned result :: post) (l : List Ev) :
    fromReturn (log ++ l) = .returned result :: (post ++ l) ∧
      beforeReturn (log ++ l) = beforeReturn log := by
  have hsplit : log = beforeReturn log ++ .returned result :: post := by
    rw [← h]
    exact (List.takeWhile_append_dropWhile).symm
  have hp : Pending (beforeReturn log) := fun e he => by
    simpa using List.mem_takeWhile_imp he
  have happ : log ++ l = beforeReturn log ++ .returned result :: (post ++ l) := by
    conv_lhs => rw [hsplit]
    rw [List.append_assoc, List.cons_append]
  constructor
  · rw [happ]
    exact hp.dropWhile _
  · conv_lhs => rw [happ]
    rw [beforeReturn, hp.takeWhile]
    simp [Ev.isReturn]

theorem recorded_append (log l : List Ev) :
    recorded (log ++ l) = (recorded log || recorded l) := List.any_append

/-! ## The condition -/

/-- The handler is in a success: in `network_up`, or in `complete(AT_OK)` after it. -/
def State.succeeding (s : State) : Bool :=
  match s.stack with
  | .upCheck _ _ | .upStored _ _ | .upSave _ _ | .upPrint _ _ => true
  | .complete result | .setResult result => result == atOk
  | .setOp | .give => s.opResult == atOk
  | _ => false

/-- The handler is about to find that the join it was told of is the running operation's. -/
def State.joining (s : State) : Bool :=
  match s.stack with
  | .steerOp g => g.ok && g.joined && s.op == .join
  | _ => false

/-- The wait of the command ran out of time: its next step leaves `k_sem_take`. -/
def State.timingOut (s : State) : Bool :=
  match s.at_ with
  | .take _ => !s.opDone
  | _ => false

/-- No success comes late. Until the command has succeeded, no DEVICE_REBOOT reports one, no
FORMATION reports one unless the operation runs, the wait does not run out of time while the
handler is in a success, and none is taken up after the wait ran out of time. -/
def Timely (s : State) : Action → Prop
  | .signal g => s.fresh = true → g.ok = true → recorded s.log = false →
      g.type ≠ .deviceReboot ∧
        (g.type = .formation → s.op ≠ .none ∧ s.at_.expired = false)
  | .at_ _ => s.fresh = true → s.timingOut = true → s.succeeding = false
  | .stack => s.fresh = true → s.at_.expired = true → s.joining = false
  | _ => True

instance (s : State) : ∀ a, Decidable (Timely s a)
  | .signal _ | .at_ _ | .stack => by unfold Timely; infer_instance
  | .main _ _ | .command _ _ | .reboot => .isTrue trivial

/-! ## The attempt -/

/-- The handler is not about to record a role, to print or to schedule a reboot, while no
operation can take a success. -/
def StackPc.quiet : StackPc → Bool
  | .upCheck _ _ | .upStored _ _ | .upSave _ _ | .upPrint _ _ | .leftPan _ | .schedule
  | .clearStored (.leftPan _) | .clearSave (.leftPan _) => false
  | .complete result | .setResult result | .clearStored (.complete result)
  | .clearSave (.complete result) => result != atOk
  | _ => true

/-- Nothing was recorded, and nothing is about to be. -/
structure Quiet (s : State) : Prop where
  stored : s.storedRole = .none
  saved : s.savedRole = .none
  stack : s.stack.quiet = true
  unrecorded : recorded s.log = false

/-- What the result of the operation says. -/
def Outcome (s : State) (result : ℕ) : Prop :=
  (result = atOk → recorded s.log = true) ∧ (result ≠ atOk → Quiet s)

/-- The operation runs: where the handler is. -/
def Handling (s : State) : Prop :=
  match s.stack with
  | .upCheck _ result => result = some atOk ∧ s.storedRole = .none ∧ s.savedRole = .none
  | .upStored _ result | .upSave _ result => result = some atOk
  | .upPrint g result => result = some atOk ∧ s.savedRole = g.role
  | .complete result | .setResult result => Outcome s result
  | .setOp => Outcome s s.opResult
  | _ => Quiet s

/-- The command waits for the operation, which runs or is decided. -/
def Running (s : State) : Prop :=
  s.op ≠ .none ∧ Handling s ∨ s.op = .none ∧ Outcome s s.opResult

/-- No network is recorded and nobody has started the stack. -/
structure Prepared (s : State) : Prop where
  log : s.log = []
  stored : s.storedRole = .none
  saved : s.savedRole = .none
  unstarted : s.stackStarted = false
  noStart : s.main.starting = false

def Phase (s : State) : AtPc → Prop
  | .startRole _ | .startStarted _ | .erase _ | .setRole _ | .configure _ | .semReset _
  | .setOp _ => Prepared s
  | .opStarted _ | .markStarted _ | .enable _ | .take _ => Running s
  | .timedOut _ => Quiet s
  | .readResult => s.op = .none ∧ (s.stack.completing = true → s.stack = .give) ∧
    Outcome s s.opResult
  | .ret result => s.op = .none ∧ Outcome s result
  | .idle => s.op = .none ∧ ∃ result post, fromReturn s.log = .returned result :: post ∧
    (result = atOk → recorded (beforeReturn s.log) = true) ∧
      (result ≠ atOk → Quiet s ∧ post = [])
  | _ => False

/-- The command that is to start a network. -/
structure Attempt (s : State) : Prop where
  op : s.op ≠ .leave ∧ s.op ≠ .factory
  pending : s.at_ ≠ .idle → Pending s.log
  phase : Phase s s.at_

/-! ## The stack thread -/

theorem role_ne_none (r : NwkRole) : currentRole r ≠ .none := by cases r <;> nofun

/-- What the handler adds to the log are no returns. -/
theorem stepStack_log (hs : stepStack s = some s') :
    ∃ log, s'.log = s.log ++ log ∧ Pending log := by
  cases hst : s.stack with
  | upPrint g result =>
    simp only [stepStack, hst, Option.some.injEq] at hs
    subst hs
    refine ⟨_, rfl, ?_⟩
    intro e he
    split_ifs at he <;> simp at he <;> rcases he with rfl | rfl <;> rfl
  | leftPan g =>
    simp only [stepStack, hst, Option.some.injEq] at hs
    subst hs
    dsimp only
    split_ifs
    · exact ⟨[], (List.append_nil _).symm, pending_nil⟩
    · exact ⟨_, rfl, by simp [Pending, Ev.isReturn]⟩
  | schedule =>
    simp only [stepStack, hst, Option.some.injEq] at hs
    subst hs
    exact ⟨_, rfl, by simp [Pending, Ev.isReturn]⟩
  | idle => rw [stepStack, hst] at hs; cases hs
  | _ =>
    simp only [stepStack, hst, Option.some.injEq] at hs
    subst hs
    exact ⟨[], (List.append_nil _).symm, pending_nil⟩

/-- Where nothing is recorded, the handler keeps quiet, unless it finds that it is told of the
running join. -/
theorem Quiet.step (h : Quiet s) (hop : s.op ≠ .leave ∧ s.op ≠ .factory)
    (hj : s.joining = false) (hs : stepStack s = some s') : Quiet s' ∧ s'.log = s.log := by
  obtain ⟨hstored, hsaved, hquiet, hrec⟩ := h
  cases hst : s.stack with
  | idle => rw [stepStack, hst] at hs; cases hs
  | upCheck g result | upStored g result | upSave g result | upPrint g result | leftPan g
  | schedule => rw [hst] at hquiet; cases hquiet
  | firstForm g | firstJoin g | leaveJoin g | leaveFactory g =>
    simp only [stepStack, hst, hop.2, if_false, Option.some.injEq] at hs
    subst hs
    exact ⟨⟨hstored, hsaved, by dsimp only; split_ifs <;> rfl, hrec⟩, rfl⟩
  | steerOp g =>
    simp only [stepStack, hst, Option.some.injEq] at hs
    subst hs
    refine ⟨⟨hstored, hsaved, ?_, hrec⟩, rfl⟩
    simp only [State.joining, hst] at hj
    split_ifs with hjoin hok
    · simp [hok, hjoin] at hj
    · rfl
    · rfl
  | steerRole g | leaveRole g =>
    simp only [stepStack, hst, hstored, ne_eq, not_true_eq_false, false_and, if_false,
      Option.some.injEq] at hs
    subst hs
    exact ⟨⟨rfl, hsaved, rfl, hrec⟩, rfl⟩
  | leaveLeave g =>
    simp only [stepStack, hst, hop.1, if_false, Option.some.injEq] at hs
    subst hs
    exact ⟨⟨hstored, hsaved, rfl, hrec⟩, rfl⟩
  | clearStored after =>
    simp only [stepStack, hst, Option.some.injEq] at hs
    subst hs
    rw [hst] at hquiet
    exact ⟨⟨rfl, hsaved, by cases after <;> exact hquiet, hrec⟩, rfl⟩
  | clearSave after =>
    simp only [stepStack, hst, Option.some.injEq] at hs
    subst hs
    rw [hst] at hquiet
    exact ⟨⟨hstored, rfl, by cases after <;> first | rfl | exact hquiet, hrec⟩, rfl⟩
  | complete result =>
    simp only [stepStack, hst, Option.some.injEq] at hs
    subst hs
    rw [hst] at hquiet
    exact ⟨⟨hstored, hsaved, by dsimp only; split_ifs; exacts [hquiet, rfl], hrec⟩, rfl⟩
  | setResult result | setOp | give =>
    simp only [stepStack, hst, Option.some.injEq] at hs
    subst hs
    exact ⟨⟨hstored, hsaved, rfl, hrec⟩, rfl⟩

/-- The handler sets `op` to nothing but `OP_NONE`, and `op_result` only in `complete`. -/
structure Completes (s s' : State) : Prop where
  op : s.stack ≠ .setOp → s'.op = s.op
  none : s.op = .none → s'.op = .none
  result : (∀ result, s.stack ≠ .setResult result) →
    s'.opResult = s.opResult ∧ s'.stack ≠ .setOp
  completing : s.op = .none → s'.stack.completing = true → s.stack.completing = true

theorem stepStack_completes (hs : stepStack s = some s') : Completes s s' := by
  cases hst : s.stack with
  | idle => rw [stepStack, hst] at hs; cases hs
  | setResult result =>
    simp only [stepStack, hst, Option.some.injEq] at hs
    subst hs
    exact ⟨fun _ => rfl, id, fun hne => absurd hst (hne result), fun _ _ => by rw [hst]; rfl⟩
  | setOp =>
    simp only [stepStack, hst, Option.some.injEq] at hs
    subst hs
    exact ⟨fun hne => absurd hst hne, fun _ => rfl, fun _ => ⟨rfl, by simp⟩,
      fun _ _ => by rw [hst]; rfl⟩
  | upPrint g result =>
    simp only [stepStack, hst, Option.some.injEq] at hs
    subst hs
    refine ⟨fun _ => rfl, id, fun _ => ⟨rfl, by cases result <;> simp [afterUp]⟩, fun _ hc => ?_⟩
    exact absurd hc (ne_true_of_eq_false (afterUp_completing result))
  | clearSave after =>
    simp only [stepStack, hst, Option.some.injEq] at hs
    subst hs
    refine ⟨fun _ => rfl, id, fun _ => ⟨rfl, by cases after <;> simp [AfterClear.next]⟩,
      fun _ hc => ?_⟩
    exact absurd hc (ne_true_of_eq_false after.next_completing)
  | complete result =>
    simp only [stepStack, hst, Option.some.injEq] at hs
    subst hs
    refine ⟨fun _ => rfl, id, fun _ => ⟨rfl, by dsimp only; split_ifs <;> simp⟩, fun hop hc => ?_⟩
    simp [hop] at hc
    cases hc
  | upStored g result | upSave g result | clearStored after | leftPan g | schedule | give =>
    simp only [stepStack, hst, Option.some.injEq] at hs
    subst hs
    exact ⟨fun _ => rfl, id, fun _ => ⟨rfl, by simp⟩, fun _ hc => (by cases hc)⟩
  | _ =>
    simp only [stepStack, hst, Option.some.injEq] at hs
    subst hs
    refine ⟨fun _ => rfl, id, fun _ => ⟨rfl, ?_⟩, ?_⟩
    · dsimp only
      split_ifs <;> simp
    · intro _ hc
      dsimp only at hc
      split_ifs at hc <;> cases hc

theorem State.joining_of_op (h : s.op ≠ .join) : s.joining = false := by
  unfold State.joining
  split <;> simp [h]

/-- A decided operation keeps its outcome. -/
theorem Outcome.step {result : ℕ} (h : Outcome s result) (hop : s.op = .none)
    (hs : stepStack s = some s') : Outcome s' result := by
  refine ⟨?_, ?_⟩
  · intro hok
    obtain ⟨log, hlog, -⟩ := stepStack_log hs
    rw [hlog, recorded_append, h.1 hok]
    rfl
  · intro hne
    exact ((h.2 hne).step (by simp [hop]) (State.joining_of_op (by simp [hop])) hs).1

theorem Quiet.handling (h : Quiet s) (hne : s.stack ≠ .setOp) : Handling s := by
  have hq := h.stack
  rw [Handling]
  cases hst : s.stack with
  | upCheck | upStored | upSave | upPrint =>
    rw [hst] at hq
    cases hq
  | complete result | setResult result =>
    rw [hst] at hq
    exact ⟨fun hok => by simp [hok, StackPc.quiet] at hq, fun _ => h⟩
  | setOp => exact absurd hst hne
  | _ => exact h

/-- The handler while the operation runs. -/
theorem Handling.step (hr : RunOp s) {q : Start} (hw : s.at_.waitsFor = some q)
    (hop : s.op ≠ .none) (h : Handling s) (hs : stepStack s = some s') : Running s' := by
  obtain ⟨hq, -, hgive⟩ : s.op = q.op ∧ s.opDone = false ∧ s.stack ≠ .give := by
    rcases hr.waiting q hw with hrun | ⟨hnone, -⟩
    · exact hrun
    · exact absurd hnone hop
  have hne : s.op ≠ .leave ∧ s.op ≠ .factory := by
    rw [hq]
    rcases q.op_cases with h | h <;> simp [h]
  -- Where the handler is not in a success, it keeps quiet.
  have hkeep : Quiet s → s.joining = false → (∀ result, s.stack ≠ .setResult result) →
      s.stack ≠ .setOp → Running s' := by
    intro hquiet hj hres hset
    have hc := stepStack_completes hs
    exact .inl ⟨by rw [hc.op hset]; exact hop,
      (hquiet.step hne hj hs).1.handling (hc.result hres).2⟩
  unfold Handling at h
  cases hst : s.stack with
  | idle => rw [stepStack, hst] at hs; cases hs
  | firstForm g | firstJoin g | steerRole g | leaveJoin g | leaveLeave g | leaveFactory g
  | leaveRole g | clearStored after | clearSave after =>
    rw [hst] at h
    exact hkeep h (by simp [State.joining, hst]) (by simp [hst]) (by simp [hst])
  | leftPan g | schedule =>
    rw [hst] at h
    have hquiet := h.stack
    rw [hst] at hquiet
    cases hquiet
  | steerOp g =>
    rw [hst] at h
    cases hj : s.joining with
    | false => exact hkeep h hj (by simp [hst]) (by simp [hst])
    | true =>
      simp only [State.joining, hst, Bool.and_eq_true, beq_iff_eq] at hj
      simp only [stepStack, hst, hj.1.1, hj.1.2, hj.2, Bool.and_self, if_true,
        Option.some.injEq] at hs
      subst hs
      exact .inl ⟨by simp, rfl, h.stored, h.saved⟩
  | upCheck g result =>
    rw [hst] at h
    obtain ⟨rfl, hstored, -⟩ := h
    simp only [stepStack, hst, hstored, ne_eq, (role_ne_none g.networkRole).symm, Signal.role,
      not_false_eq_true, if_true, Option.some.injEq] at hs
    subst hs
    exact .inl ⟨hop, rfl⟩
  | upStored g result =>
    rw [hst] at h
    simp only [stepStack, hst, Option.some.injEq] at hs
    subst hs
    exact .inl ⟨hop, h⟩
  | upSave g result =>
    rw [hst] at h
    simp only [stepStack, hst, Option.some.injEq] at hs
    subst hs
    exact .inl ⟨hop, h, rfl⟩
  | upPrint g result =>
    rw [hst] at h
    obtain ⟨rfl, hsaved⟩ := h
    simp only [stepStack, hst, Option.some.injEq] at hs
    subst hs
    refine .inl ⟨hop, ?_, fun hne => absurd rfl hne⟩
    intro _
    rw [recorded_append, hsaved]
    simp [recorded, Signal.role, role_ne_none]
  | complete result =>
    rw [hst] at h
    simp only [stepStack, hst, if_pos hop, Option.some.injEq] at hs
    subst hs
    refine .inl ⟨hop, h.1, ?_⟩
    intro hne
    obtain ⟨hstored, hsaved, hquiet, hrec⟩ := h.2 hne
    exact ⟨hstored, hsaved, by rw [hst] at hquiet; exact hquiet, hrec⟩
  | setResult result =>
    rw [hst] at h
    simp only [stepStack, hst, Option.some.injEq] at hs
    subst hs
    refine .inl ⟨hop, h.1, ?_⟩
    intro hne
    obtain ⟨hstored, hsaved, -, hrec⟩ := h.2 hne
    exact ⟨hstored, hsaved, rfl, hrec⟩
  | setOp =>
    rw [hst] at h
    simp only [stepStack, hst, Option.some.injEq] at hs
    subst hs
    refine .inr ⟨rfl, h.1, ?_⟩
    intro hne
    obtain ⟨hstored, hsaved, -, hrec⟩ := h.2 hne
    exact ⟨hstored, hsaved, rfl, hrec⟩
  | give => exact absurd hst hgive

theorem Running.step (hr : RunOp s) {q : Start} (hw : s.at_.waitsFor = some q) (h : Running s)
    (hs : stepStack s = some s') : Running s' := by
  rcases h with ⟨hop, h⟩ | ⟨hop, h⟩
  · exact h.step hr hw hop hs
  · have hc := stepStack_completes hs
    have hres : ∀ result, s.stack ≠ .setResult result := by
      intro result hst
      rcases hr.waiting q hw with ⟨hq, -⟩ | ⟨-, hgive, -⟩
      · exact q.op_ne_none (hq.symm.trans hop)
      · rw [hst] at hgive
        cases hgive rfl
    refine .inr ⟨hc.none hop, ?_⟩
    rw [(hc.result hres).1]
    exact h.step hop hs

/-- Nothing is handled before the start of the stack. -/
theorem Prepared.stack_idle (hr : RunOp s) (h : Prepared s) : s.stack = .idle := by
  by_contra hne
  exact hr.not_enabled h.unstarted (hr.handling hne)

theorem Phase.stack (hr : RunOp s) (hop : s.op ≠ .leave ∧ s.op ≠ .factory)
    (h : Phase s s.at_) (ha : s.at_.expired = true → s.joining = false)
    (hs : stepStack s = some s') : Phase s' s.at_ := by
  have hc := stepStack_completes hs
  cases hat : s.at_ with
  | startRole q | startStarted q | erase q | setRole q | configure q | semReset q | setOp q =>
    rw [hat] at h
    rw [stepStack, h.stack_idle hr] at hs
    cases hs
  | opStarted q | markStarted q | enable q | take q =>
    rw [hat] at h
    exact Running.step hr (by rw [hat]; rfl) h hs
  | timedOut q =>
    rw [hat] at h
    exact (h.step hop (ha (by rw [hat]; rfl)) hs).1
  | readResult =>
    rw [hat] at h
    obtain ⟨hnone, hgive, hout⟩ := h
    have hres : ∀ result, s.stack ≠ .setResult result := by
      intro result hst
      rw [hst] at hgive
      cases hgive rfl
    refine ⟨hc.none hnone, ?_, ?_⟩
    · intro hcomp
      -- `complete` has nothing left to do once its semaphore is given.
      have hst := hgive (hc.completing hnone hcomp)
      simp only [stepStack, hst, Option.some.injEq] at hs
      subst hs
      cases hcomp
    · rw [(hc.result hres).1]
      exact hout.step hnone hs
  | ret result =>
    rw [hat] at h
    exact ⟨hc.none h.1, h.2.step h.1 hs⟩
  | idle =>
    rw [hat] at h
    obtain ⟨hnone, result, post, hret, hok, hfail⟩ := h
    obtain ⟨log, hlog, -⟩ := stepStack_log hs
    obtain ⟨hret', hbefore⟩ := returned_append hret log
    refine ⟨hc.none hnone, result, post ++ log, by rw [hlog, hret'], ?_, ?_⟩
    · intro h
      rw [hlog, hbefore]
      exact hok h
    · intro h
      obtain ⟨hquiet, rfl⟩ := hfail h
      obtain ⟨hquiet', hsame⟩ := hquiet.step hop (State.joining_of_op (by simp [hnone])) hs
      rw [hlog, List.append_right_eq_self] at hsame
      exact ⟨hquiet', hsame⟩
  | _ => rw [hat] at h; exact h.elim

/-- The handler takes the attempt along. -/
theorem Attempt.stack (hr : RunOp s) (h : Attempt s)
    (ha : s.at_.expired = true → s.joining = false) (hs : stepStack s = some s') :
    Attempt s' := by
  have hat := (stepStack_frame hs).1
  have hc := stepStack_completes hs
  obtain ⟨log, hlog, hpend⟩ := stepStack_log hs
  refine ⟨?_, ?_, ?_⟩
  · by_cases hset : s.stack = .setOp
    · simp only [stepStack, hset, Option.some.injEq] at hs
      subst hs
      exact ⟨by simp, by simp⟩
    · rw [hc.op hset]
      exact h.op
  · intro hne
    rw [hlog]
    exact (h.pending (hat ▸ hne)).append hpend
  · rw [hat]
    exact h.phase.stack hr h.op ha hs

/-! ## The other threads -/

/-- A step of another thread than the handler: of what the attempt speaks of it only loads the
recorded role. -/
structure Follows (s s' : State) : Prop where
  stack : s'.stack = s.stack
  saved : s'.savedRole = s.savedRole
  log : s'.log = s.log
  result : s'.opResult = s.opResult
  stored : s'.storedRole = s.storedRole ∨ s'.storedRole = s.savedRole

theorem Follows.none (h : Follows s s') (hstored : s.storedRole = .none)
    (hsaved : s.savedRole = .none) : s'.storedRole = .none := by
  rcases h.stored with hrole | hrole
  · exact hrole.trans hstored
  · exact hrole.trans hsaved

theorem Quiet.follow (h : Quiet s) (hf : Follows s s') : Quiet s' :=
  ⟨hf.none h.stored h.saved, hf.saved.trans h.saved, by rw [hf.stack]; exact h.stack,
    by rw [hf.log]; exact h.unrecorded⟩

theorem Outcome.follow {result : ℕ} (h : Outcome s result) (hf : Follows s s') :
    Outcome s' result :=
  ⟨fun hok => by rw [hf.log]; exact h.1 hok, fun hne => (h.2 hne).follow hf⟩

theorem Handling.follow (h : Handling s) (hf : Follows s s') : Handling s' := by
  rw [Handling] at h ⊢
  rw [hf.stack]
  cases hst : s.stack with
  | upCheck g result =>
    rw [hst] at h
    obtain ⟨rfl, hstored, hsaved⟩ := h
    exact ⟨rfl, hf.none hstored hsaved, hf.saved.trans hsaved⟩
  | upStored | upSave =>
    rw [hst] at h
    exact h
  | upPrint =>
    rw [hst] at h
    exact ⟨h.1, hf.saved.trans h.2⟩
  | complete | setResult =>
    rw [hst] at h
    exact Outcome.follow h hf
  | setOp =>
    rw [hst] at h
    rw [hf.result]
    exact Outcome.follow h hf
  | _ =>
    rw [hst] at h
    exact Quiet.follow h hf

theorem Running.follow (h : Running s) (hf : Follows s s') (hop : s'.op = s.op) : Running s' := by
  rw [Running, hop, hf.result]
  exact h.imp (And.imp_right fun h => h.follow hf) (And.imp_right fun h => h.follow hf)

/-- `zbc_init` loads the recorded role, and starts the stack only where it finds one. -/
theorem stepMain_role {roleFirst : Bool} {mask : UInt32}
    (hs : stepMain roleFirst mask s = some s') :
    (s'.storedRole = s.storedRole ∨ s'.storedRole = s.savedRole) ∧
      (s.main.starting = false → s.storedRole = .none →
        s'.stackStarted = s.stackStarted ∧ s'.main.starting = false) := by
  cases hm : s.main with
  | done => rw [stepMain, hm] at hs; cases hs
  | load role pend =>
    simp only [stepMain, hm] at hs
    split_ifs at hs <;> cases hs
    · exact ⟨.inr rfl, fun _ _ => ⟨rfl, rfl⟩⟩
    · exact ⟨.inl rfl, fun _ _ => ⟨rfl, rfl⟩⟩
    · exact ⟨.inl rfl, fun _ _ => ⟨rfl, rfl⟩⟩
  | checkPend =>
    simp only [stepMain, hm] at hs
    split_ifs at hs <;> cases hs <;> exact ⟨.inl rfl, fun _ _ => ⟨rfl, rfl⟩⟩
  | checkRole =>
    simp only [stepMain, hm] at hs
    cases hs
    exact ⟨.inl rfl, fun _ hstored => ⟨rfl, by simp only [hstored]; rfl⟩⟩
  | setRole | markStarted =>
    simp only [stepMain, hm] at hs
    cases hs
    exact ⟨.inl rfl, fun hstart => (by cases hstart)⟩
  | atCmdStart | deletePend | inject | enable =>
    simp only [stepMain, hm] at hs
    cases hs
    exact ⟨.inl rfl, fun _ _ => ⟨rfl, rfl⟩⟩

/-- A step of another thread leaves the attempt where it is. -/
theorem Attempt.follow (h : Attempt s) (hf : Follows s s') (hat : s'.at_ = s.at_)
    (hop : s'.op = s.op) (hprep : Prepared s → Prepared s') : Attempt s' := by
  refine ⟨by rw [hop]; exact h.op, fun hne => by rw [hf.log]; exact h.pending (hat ▸ hne), ?_⟩
  have hphase := h.phase
  rw [hat]
  cases hpc : s.at_ with
  | startRole q | startStarted q | erase q | setRole q | configure q | semReset q | setOp q =>
    rw [hpc] at hphase
    exact hprep hphase
  | opStarted q | markStarted q | enable q | take q =>
    rw [hpc] at hphase
    exact Running.follow hphase hf hop
  | timedOut q =>
    rw [hpc] at hphase
    exact Quiet.follow hphase hf
  | readResult =>
    rw [hpc] at hphase
    rw [Phase, hop, hf.stack, hf.result]
    exact ⟨hphase.1, hphase.2.1, hphase.2.2.follow hf⟩
  | ret result =>
    rw [hpc] at hphase
    rw [Phase, hop]
    exact ⟨hphase.1, hphase.2.follow hf⟩
  | idle =>
    rw [hpc] at hphase
    obtain ⟨hnone, result, post, hret, hok, hfail⟩ := hphase
    rw [Phase, hop, hf.log]
    exact ⟨hnone, result, post, hret, hok, fun hne => (hfail hne).imp_left fun h => h.follow hf⟩
  | _ => rw [hpc] at hphase; exact hphase.elim

theorem Attempt.main {roleFirst : Bool} {mask : UInt32} (h : Attempt s)
    (hs : stepMain roleFirst mask s = some s') : Attempt s' := by
  obtain ⟨hat, hst, hop, hres, -, hsaved, -, hlog, -⟩ := stepMain_frame hs
  obtain ⟨hrole, hstart⟩ := stepMain_role hs
  have hf : Follows s s' := ⟨hst, hsaved, hlog, hres, hrole⟩
  apply h.follow hf hat hop
  intro hp
  obtain ⟨hns, hmain⟩ := hstart hp.noStart hp.stored
  exact ⟨hlog.trans hp.log, hf.none hp.stored hp.saved, hsaved.trans hp.saved,
    hns.trans hp.unstarted, hmain⟩

/-- When the wait runs out of time and the handler is not in a success, nothing was recorded. -/
theorem Running.timeout (hr : RunOp s) {q : Start} (hat : s.at_ = .take q)
    (hdone : s.opDone = false) (h : Running s) (hsucc : s.succeeding = false) : Quiet s := by
  unfold State.succeeding at hsucc
  rcases h with ⟨-, h⟩ | ⟨hop, h⟩
  · rw [Handling] at h
    cases hst : s.stack with
    | upCheck | upStored | upSave | upPrint =>
      rw [hst] at hsucc
      cases hsucc
    | complete | setResult | setOp =>
      rw [hst] at h hsucc
      exact h.2 (by simpa using hsucc)
    | _ =>
      rw [hst] at h
      exact h
  · have hst : s.stack = .give := by
      rcases hr.waiting q (by rw [hat]; rfl) with ⟨hq, -⟩ | ⟨-, -, hd⟩
      · exact absurd (hq.symm.trans hop) q.op_ne_none
      · simpa [hdone] using hd
    rw [hst] at hsucc
    exact h.2 (by simpa using hsucc)

theorem Start.timeoutErr_ne (q : Start) : q.timeoutErr ≠ atOk := by
  unfold Start.timeoutErr
  split_ifs <;> decide

/-- The operation starts to run. -/
theorem Prepared.running (hr : RunOp s) (h : Prepared s) (q : Start) :
    Running { s with op := q.op, at_ := .opStarted q } := by
  have hidle := h.stack_idle hr
  have hquiet : Quiet { s with op := q.op, at_ := .opStarted q } :=
    ⟨h.stored, h.saved, by simp only [hidle]; rfl, by simp only [h.log]; rfl⟩
  exact .inl ⟨q.op_ne_none, hquiet.handling (by simp [hidle])⟩

theorem Attempt.at {flag : Bool} (hr : RunOp s) (h : Attempt s)
    (ha : s.timingOut = true → s.succeeding = false) (hs : stepAt flag s = some s') :
    Attempt s' := by
  obtain ⟨hop, hpend, hphase⟩ := h
  cases hat : s.at_ with
  | idle => rw [stepAt, hat] at hs; cases hs
  | startRole q =>
    rw [hat] at hphase
    have hp : Prepared s := hphase
    simp only [stepAt, hat, hp.stored, ne_eq, not_true_eq_false, if_false, Option.some.injEq] at hs
    subst hs
    exact ⟨hop, fun _ => hpend (by simp [hat]), hp.log, rfl, hp.saved, hp.unstarted, hp.noStart⟩
  | startStarted q =>
    rw [hat] at hphase
    have hp : Prepared s := hphase
    simp only [stepAt, hat, hp.unstarted, Bool.false_eq_true, if_false, Option.some.injEq] at hs
    subst hs
    exact ⟨hop, fun _ => hpend (by simp [hat]), hp.log, hp.stored, hp.saved, rfl, hp.noStart⟩
  | erase q | setRole q | configure q | semReset q =>
    rw [hat] at hphase
    have hp : Prepared s := hphase
    simp only [stepAt, hat, Option.some.injEq] at hs
    subst hs
    exact ⟨hop, fun _ => hpend (by simp [hat]), hp.log, hp.stored, hp.saved, hp.unstarted,
      hp.noStart⟩
  | setOp q =>
    rw [hat] at hphase
    simp only [stepAt, hat, Option.some.injEq] at hs
    subst hs
    refine ⟨?_, fun _ => hpend (by simp [hat]), Prepared.running hr hphase q⟩
    rcases q.op_cases with h | h <;> simp [h]
  | opStarted q =>
    rw [hat] at hphase
    simp only [stepAt, hat, Option.some.injEq] at hs
    subst hs
    refine ⟨hop, fun _ => hpend (by simp [hat]), ?_⟩
    dsimp only
    split_ifs <;> exact Running.follow hphase ⟨rfl, rfl, rfl, rfl, .inl rfl⟩ rfl
  | markStarted q | enable q =>
    rw [hat] at hphase
    simp only [stepAt, hat, Option.some.injEq] at hs
    subst hs
    exact ⟨hop, fun _ => hpend (by simp [hat]),
      Running.follow hphase ⟨rfl, rfl, rfl, rfl, .inl rfl⟩ rfl⟩
  | take q =>
    rw [hat] at hphase
    simp only [stepAt, hat] at hs
    split_ifs at hs with hdone <;> cases hs
    · have hnone := hr.taken hat hdone
      refine ⟨hop, fun _ => hpend (by simp [hat]), hnone, ?_, ?_⟩
      · rcases hr.waiting q (by rw [hat]; rfl) with ⟨hq, -⟩ | ⟨-, hgive, -⟩
        · exact absurd (hq.symm.trans hnone) q.op_ne_none
        · exact hgive
      · rcases hphase with ⟨hne, -⟩ | ⟨-, hout⟩
        · exact absurd hnone hne
        · exact hout.follow ⟨rfl, rfl, rfl, rfl, .inl rfl⟩
    · have hd : s.opDone = false := by simpa using hdone
      have hquiet := Running.timeout hr hat hd hphase (ha (by simp [State.timingOut, hat, hd]))
      exact ⟨hop, fun _ => hpend (by simp [hat]), hquiet.follow ⟨rfl, rfl, rfl, rfl, .inl rfl⟩⟩
  | timedOut q =>
    rw [hat] at hphase
    have hquiet : Quiet s := hphase
    simp only [stepAt, hat, Option.some.injEq] at hs
    subst hs
    refine ⟨⟨by simp, by simp⟩, fun _ => hpend (by simp [hat]), rfl,
      fun hok => absurd hok q.timeoutErr_ne, ?_⟩
    intro _
    exact hquiet.follow ⟨rfl, rfl, rfl, rfl, .inl rfl⟩
  | readResult =>
    rw [hat] at hphase
    simp only [stepAt, hat, Option.some.injEq] at hs
    subst hs
    exact ⟨hop, fun _ => hpend (by simp [hat]), hphase.1,
      hphase.2.2.follow ⟨rfl, rfl, rfl, rfl, .inl rfl⟩⟩
  | ret result =>
    rw [hat] at hphase
    obtain ⟨hnone, hok, hfail⟩ := hphase
    simp only [stepAt, hat, Option.some.injEq] at hs
    subst hs
    obtain ⟨hret, hbefore⟩ := (hpend (by simp [hat])).returned result
    refine ⟨hop, fun hne => absurd rfl hne, hnone, result, [], hret, ?_, fun h => ⟨?_, rfl⟩⟩
    · intro h
      rw [hbefore]
      exact hok h
    · obtain ⟨hstored, hsaved, hquiet, hrec⟩ := hfail h
      refine ⟨hstored, hsaved, hquiet, ?_⟩
      rw [recorded_append, hrec]
      rfl
  | _ => rw [hat] at hphase; exact hphase.elim

/-! ## Signals -/

/-- A signal that does not bring the network up whatever the state is quiet. -/
theorem Signal.enter_quiet {g : Signal} (h : g.bringsUp = false) :
    g.enter.quiet = true ∧ g.enter ≠ .setOp := by
  unfold Signal.bringsUp at h
  unfold Signal.enter
  cases ht : g.type <;> simp only [ht] at h ⊢
  case deviceReboot | formation =>
    have hok : g.ok = false := by simpa using h
    simp [hok, StackPc.quiet, atErrCannotForm, atOk]
  case steering => split_ifs <;> exact ⟨rfl, nofun⟩
  all_goals exact ⟨rfl, nofun⟩

/-- The handler takes up a signal. -/
theorem Attempt.signal {g : Signal} (hr : RunOp s) (h : Attempt s) (hst : s.stack = .idle)
    (hen : .enable ∈ s.calls) (ha : g.ok = true → recorded s.log = false →
      g.type ≠ .deviceReboot ∧ (g.type = .formation → s.op ≠ .none ∧ s.at_.expired = false)) :
    Attempt { s with stack := g.enter } := by
  -- Before a success only the formation that the operation waits for is taken up.
  have hup : recorded s.log = false → g.bringsUp = true →
      s.op ≠ .none ∧ s.at_.expired = false ∧ g.enter = .upCheck g (some atOk) := by
    intro hrec hb
    simp only [Signal.bringsUp, Bool.and_eq_true, Bool.or_eq_true, beq_iff_eq] at hb
    obtain ⟨hne, hform⟩ := ha hb.1 hrec
    have htype := hb.2.resolve_left hne
    exact ⟨(hform htype).1, (hform htype).2, by simp [Signal.enter, htype, hb.1]⟩
  have hdecided : ∀ result, s.op = .none → Outcome s result →
      Outcome { s with stack := g.enter } result := by
    intro result hop hout
    refine ⟨hout.1, ?_⟩
    intro hne
    obtain ⟨hstored, hsaved, -, hrec⟩ := hout.2 hne
    refine ⟨hstored, hsaved, ?_, hrec⟩
    cases hb : g.bringsUp with
    | true => exact absurd hop (hup hrec hb).1
    | false => exact (Signal.enter_quiet hb).1
  suffices hall : ∀ pc, s.at_ = pc → Phase s pc → Phase { s with stack := g.enter } pc from
    ⟨h.op, h.pending, hall _ rfl h.phase⟩
  intro pc hat hphase
  cases pc with
  | startRole q | startStarted q | erase q | setRole q | configure q | semReset q | setOp q =>
    exact absurd hen (hr.not_enabled (Prepared.unstarted hphase))
  | opStarted q | markStarted q | enable q | take q =>
    rcases hphase with ⟨hop, hhand⟩ | ⟨hop, hout⟩
    · have hquiet : Quiet s := by
        unfold Handling at hhand
        rwa [hst] at hhand
      obtain ⟨hstored, hsaved, -, hrec⟩ := hquiet
      refine .inl ⟨hop, ?_⟩
      cases hb : g.bringsUp with
      | true =>
        unfold Handling
        dsimp only
        rw [(hup hrec hb).2.2]
        exact ⟨rfl, hstored, hsaved⟩
      | false =>
        obtain ⟨hq, hne⟩ := Signal.enter_quiet hb
        exact Quiet.handling ⟨hstored, hsaved, hq, hrec⟩ hne
    · exact .inr ⟨hop, hdecided _ hop hout⟩
  | timedOut q =>
    obtain ⟨hstored, hsaved, -, hrec⟩ := (show Quiet s from hphase)
    refine ⟨hstored, hsaved, ?_, hrec⟩
    cases hb : g.bringsUp with
    | true =>
      have hx := (hup hrec hb).2.1
      rw [hat] at hx
      cases hx
    | false => exact (Signal.enter_quiet hb).1
  | readResult =>
    refine ⟨hphase.1, ?_, hdecided _ hphase.1 hphase.2.2⟩
    intro hc
    exact absurd hc (ne_true_of_eq_false g.enter_completing)
  | ret result =>
    exact ⟨hphase.1, hdecided _ hphase.1 hphase.2⟩
  | idle =>
    obtain ⟨hnone, result, post, hret, hok, hfail⟩ := hphase
    refine ⟨hnone, result, post, hret, hok, fun hne => ⟨?_, (hfail hne).2⟩⟩
    have hout : Outcome s result := ⟨fun hok => absurd hok hne, fun hne => (hfail hne).1⟩
    exact (hdecided _ hnone hout).2 hne
  | _ => exact hphase.elim

/-! ## Every run -/

/-- `zbc_init` starts the stack for a role that it found, which only `leave_network` clears. -/
def Booting (s : State) : Prop := s.main.starting = true → s.stackStarted = false →
  s.storedRole ≠ .none ∨ s.at_.left = true

/-- `stored_role` changes on the AT thread only where the role is cleared, for good. -/
theorem stepAt_booting {flag : Bool} (h : Booting s) (hs : stepAt flag s = some s') :
    Booting s' := by
  obtain ⟨hmain, -⟩ := stepAt_frame hs
  intro hstart hns
  rw [hmain] at hstart
  cases hat : s.at_ with
  | idle => rw [stepAt, hat] at hs; cases hs
  | markStarted q => simp only [stepAt, hat] at hs; cases hs; cases hns
  | clearStored k => simp only [stepAt, hat] at hs; cases hs; exact .inr rfl
  | clearSave k => simp only [stepAt, hat] at hs; cases k <;> cases hs <;> exact .inr rfl
  | deletePend cause | reboot cause =>
    simp only [stepAt, hat] at hs
    cases hs
    have hb := h hstart hns
    rw [hat] at hb
    exact hb
  | answer cause =>
    simp only [stepAt, hat] at hs
    have hb : s.stackStarted = false → _ := h hstart
    rw [hat] at hb
    split_ifs at hs <;> cases hs
    · exact .inr rfl
    · exact hb hns
  | printLeft =>
    simp only [stepAt, hat] at hs
    split_ifs at hs <;> cases hs <;> exact .inr rfl
  | leaveRole k =>
    simp only [stepAt, hat] at hs
    have hb : s.stackStarted = false → _ := h hstart
    rw [hat] at hb
    cases k <;> split_ifs at hs <;> cases hs <;> exact (hb hns).imp_right fun hl => by cases hl
  | startRole q | startStarted q | opStarted q | take q | leaveJoined k | leaveTake k =>
    simp only [stepAt, hat] at hs
    have hb : s.stackStarted = false → _ := h hstart
    rw [hat] at hb
    split_ifs at hs <;> cases hs <;> exact (hb hns).imp_right fun hl => by cases hl
  | _ =>
    simp only [stepAt, hat] at hs
    cases hs
    have hb := h hstart hns
    rw [hat] at hb
    exact hb.imp_right fun hl => by cases hl

theorem booting_step (hr : RunOp s) (h : Booting s) (hs : step s a = some s') : Booting s' := by
  obtain ⟨-, hs⟩ := step_move hs
  cases a with
  | main roleFirst mask =>
    have hs : stepMain roleFirst mask s = some s' := hs
    have hat := (stepMain_frame hs).1
    intro hstart hns
    rw [hat]
    cases hm : s.main with
    | checkRole =>
      simp only [stepMain, hm] at hs
      split_ifs at hs with hrole <;> cases hs
      · exact .inl hrole
      · cases hstart
    | setRole =>
      simp only [stepMain, hm] at hs
      cases hs
      exact h (by rw [hm]; rfl) hns
    | done => rw [stepMain, hm] at hs; cases hs
    | load role pend | checkPend =>
      simp only [stepMain, hm] at hs
      split_ifs at hs <;> cases hs <;> cases hstart
    | _ =>
      simp only [stepMain, hm] at hs
      cases hs
      cases hstart
  | command line cmd =>
    simp only [move] at hs
    split_ifs at hs with hc
    cases hs
    intro hstart hns
    apply (h hstart hns).imp_right
    intro hl
    rw [hc.1] at hl
    cases hl
  | at_ flag => exact stepAt_booting h hs
  | signal g =>
    simp only [move] at hs
    split_ifs at hs
    cases hs
    exact h
  | stack =>
    have hs : stepStack s = some s' := hs
    obtain ⟨-, -, hstart, -⟩ := stepStack_frame hs
    intro _ hns
    rw [hstart] at hns
    refine absurd (hr.handling fun hidle => ?_) (hr.not_enabled hns)
    rw [stepStack, hidle] at hs
    cases hs
  | reboot =>
    simp only [move] at hs
    split_ifs at hs
    cases hs
    exact h

/-- What is known of every run, whatever its order. -/
theorem boot_reach (h : machine.Reach s) : RunOp s ∧ Booting s := by
  refine ⟨runOp_reach h, h.invariant_of RunOp Booting (fun _ => runOp_reach) ?_
    fun _ _ _ hr _ hb _ hs => booting_step hr hb hs⟩
  rintro _ ⟨role, pend, rfl⟩
  nofun

/-- A command that is to start a network, with none recorded and the stack not started. -/
theorem Attempt.begin (q : Start) (line : Text) (hr : RunOp s) (hb : Booting s)
    (hat : s.at_ = .idle) (hsaved : s.savedRole = .none) (hstored : s.storedRole = .none)
    (hns : s.stackStarted = false) :
    Attempt { s with line := line, at_ := .startRole q, log := [], fresh := true } := by
  have hop : s.op = .none := by
    rcases hr.unstarted hns with hop | hw
    · exact hop
    · rw [hat] at hw; cases hw
  have hmain : s.main.starting = false := by
    by_contra hm
    rcases hb (by simpa using hm) hns with hrole | hl
    · exact hrole hstored
    · rw [hat] at hl; cases hl
  exact ⟨by simp [hop], fun _ => pending_nil, rfl, hstored, hsaved, hns, hmain⟩

theorem Cmd.enter_start {cmd : Cmd} (h : cmd.start.isSome = true) :
    ∃ q, cmd.enter = .startRole q := by
  cases cmd with
  | en r | jn r | jpan channel epid r => exact ⟨_, rfl⟩
  | leave k | atz | other result => cases h

theorem attempt_step (hr : RunOp s) (hb : Booting s) (h : s.fresh = true → Attempt s)
    (ha : Timely s a) (hs : step s a = some s') : s'.fresh = true → Attempt s' := by
  obtain ⟨-, hs⟩ := step_move hs
  intro hfresh
  cases a with
  | main roleFirst mask =>
    obtain ⟨-, -, -, -, -, -, -, -, hf⟩ := stepMain_frame hs
    exact (h (hf ▸ hfresh)).main hs
  | command line cmd =>
    simp only [move] at hs
    split_ifs at hs with hc
    cases hs
    simp only [Bool.and_eq_true, decide_eq_true_eq, Bool.not_eq_true'] at hfresh
    obtain ⟨⟨⟨hstart, hsaved⟩, hstored⟩, hns⟩ := hfresh
    obtain ⟨q, hq⟩ := Cmd.enter_start hstart
    have hbegin := Attempt.begin q line hr hb hc.1 hsaved hstored hns
    simpa only [hq, hstart, hsaved, hstored, hns, decide_true, Bool.not_false, Bool.and_self]
      using hbegin
  | at_ flag =>
    have hf := (stepAt_frame hs).2.2.2
    have hfr : s.fresh = true := hf ▸ hfresh
    exact (h hfr).at hr (ha hfr) hs
  | signal g =>
    simp only [move] at hs
    split_ifs at hs with hc
    cases hs
    exact (h hfresh).signal hr hc.1 hc.2 (ha hfresh)
  | stack =>
    have hf := (stepStack_frame hs).2.2.2.2.2
    have hfr : s.fresh = true := hf ▸ hfresh
    exact (h hfr).stack hr (ha hfr) hs
  | reboot =>
    simp only [move] at hs
    split_ifs at hs
    cases hs
    exact (h hfresh).follow ⟨rfl, rfl, rfl, rfl, .inl rfl⟩ rfl rfl
      fun hp => ⟨hp.log, hp.stored, hp.saved, hp.unstarted, hp.noStart⟩

theorem attempt_reach (h : machine.ReachIf Timely s) : s.fresh = true → Attempt s := by
  refine h.invariant_of (fun s => RunOp s ∧ Booting s) (fun s => s.fresh = true → Attempt s)
    (fun _ => boot_reach) ?_ fun _ _ _ hr _ hatt ha hs => attempt_step hr.1 hr.2 hatt ha hs
  rintro _ ⟨role, pend, rfl⟩
  nofun

/-- A command that has returned waits for the next. -/
theorem Attempt.returned (h : Attempt s) {result : ℕ} {post : List Ev}
    (hret : fromReturn s.log = .returned result :: post) :
    (result = atOk → recorded (beforeReturn s.log) = true) ∧
      (result ≠ atOk → Quiet s ∧ post = []) := by
  have hat : s.at_ = .idle := by
    by_contra hne
    rw [(h.pending hne).fromReturn] at hret
    cases hret
  have hphase := h.phase
  rw [hat] at hphase
  obtain ⟨-, result', post', hret', hok, hfail⟩ := hphase
  rw [hret] at hret'
  cases hret'
  exact ⟨hok, hfail⟩

/-- **The outcome of a start.** In a run in which no success comes late, a command that is to start
a network and fails leaves no role recorded, prints nothing and schedules no reboot, and one that
returns `AT_OK` does so after `network_up` has recorded the role. -/
theorem start_outcome (h : machine.ReachIf Timely s) : FailsQuietly s ∧ OkRecorded s := by
  refine ⟨?_, ?_⟩
  · intro hfresh result post hret hne
    obtain ⟨hquiet, rfl⟩ := ((attempt_reach h hfresh).returned hret).2 hne
    exact ⟨hquiet.saved, hquiet.stored, nofun, nofun, nofun⟩
  · intro hfresh post hret
    exact ((attempt_reach h hfresh).returned hret).1 rfl

/-- A signal of a coordinator that has formed its network. -/
def coordinatorSignal (type : SignalType) (ok : Bool) : Signal :=
  { routerSignal type ok with networkRole := .coordinator }

/-- `AT+EN` forms a network. -/
def formedRun : List Action :=
  formRun ++ .signal (coordinatorSignal .deviceFirstStart true) :: List.replicate 1 .stack ++
    .signal (coordinatorSignal .formation true) :: List.replicate 8 .stack ++
      List.replicate 3 (.at_ false)

theorem formedRun_execIf : ((machine.execIf Timely (init .none none) formedRun).map fun s =>
    (s.fresh, s.log)) = some (true, [.networkUp .zc .zc, .jpan, .returned atOk]) := by
  decide

theorem start_outcome_formed : ∃ s : State, s.fresh = true ∧
    s.log = [.networkUp .zc .zc, .jpan, .returned atOk] ∧ FailsQuietly s ∧ OkRecorded s := by
  obtain ⟨s, he, hs⟩ := Option.map_eq_some_iff.mp formedRun_execIf
  simp only [Prod.mk.injEq] at hs
  exact ⟨s, hs.1, hs.2, start_outcome (.execIf (.init ⟨_, _, rfl⟩) he)⟩

/-- `AT+EN` times out, and the formation succeeds after its error. -/
def lateFormationRun : List Action :=
  formRun ++ List.replicate 3 (.at_ true) ++
    .signal (coordinatorSignal .formation true) :: List.replicate 5 .stack

theorem lateFormationRun_exec : ((machine.exec (init .none none) lateFormationRun).map fun s =>
    (s.fresh, s.savedRole, fromReturn s.log)) =
      some (true, .zc, [.returned atErrCannotForm, .networkUp .zc .zc, .jpan]) := by
  decide

/-- The network that `AT+EN` failed to form is recorded. -/
theorem not_failsQuietly : ¬ ∀ s, machine.Reach s → FailsQuietly s ∧ OkRecorded s := by
  intro h
  obtain ⟨s, he, hs⟩ := Option.map_eq_some_iff.mp lateFormationRun_exec
  simp only [Prod.mk.injEq] at hs
  obtain ⟨hfresh, hsaved, hret⟩ := hs
  have hnone := ((h s (Machine.Reach.exec (.init ⟨_, _, rfl⟩) he)).1 hfresh _ _ hret (by decide)).1
  rw [hsaved] at hnone
  cases hnone

end ZbAt.Zbc
