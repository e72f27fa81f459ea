import ZbAt.ZbCore

/-!
# Running an operation

The AT thread sets `op`, and waits for `complete` or the timeout. `RunOp` says, in every run, what
`op` and the semaphore are while a command waits for the start of a network.
-/

namespace ZbAt.Zbc

variable {s s' : State} {a : Action}

/-- From the erase to `op = new_op`. -/
def AtPc.preparing : AtPc → Bool
  | .erase _ | .setRole _ | .configure _ | .semReset _ | .setOp _ => true
  | _ => false

/-- The command that has set `op` and has not come out of `k_sem_take`. -/
def AtPc.waitsFor : AtPc → Option Start
  | .opStarted q | .markStarted q | .enable q | .take q => some q
  | _ => none

/-- The wait ran into its timeout, and `op` is still set. -/
def AtPc.expired : AtPc → Bool
  | .timedOut _ => true
  | _ => false

/-- The stack is started. -/
def AtPc.afterStart : AtPc → Bool
  | .enable _ | .take _ | .timedOut _ | .leaveReset _ | .leaveOp _ | .leaveSchedule _
  | .leaveTake _ | .leaveTimedOut _ => true
  | _ => false

/-- `complete`, past its check of `op` -/
def StackPc.completing : StackPc → Bool
  | .setResult _ | .setOp | .give => true
  | _ => false

/-- What `op` and `op_done` are while `run_op` prepares and waits. -/
structure RunOp (s : State) : Prop where
  enabled : .enable ∈ s.calls → s.stackStarted = true
  started : s.main = .enable ∨ s.at_.afterStart = true → s.stackStarted = true
  handling : s.stack ≠ .idle → .enable ∈ s.calls
  unstarted : s.stackStarted = false → s.op = .none ∨ s.at_.waitsFor.isSome = true
  preparing : s.at_.preparing = true → s.op = .none ∧ s.stack.completing = false
  reset : ∀ q, s.at_ = .setOp q → s.opDone = false
  waiting : ∀ q, s.at_.waitsFor = some q →
    s.op = q.op ∧ s.opDone = false ∧ s.stack ≠ .give ∨
      s.op = .none ∧ (s.stack.completing = true → s.stack = .give) ∧
        s.opDone = decide (s.stack ≠ .give)
  running : s.op = .form ∨ s.op = .join → s.at_.waitsFor.isSome = true ∨ s.at_.expired = true

/-! ## What a thread leaves alone -/

/-- The stack thread changes nothing of the other threads, and starts nothing. -/
theorem stepStack_frame (hs : stepStack s = some s') : s'.at_ = s.at_ ∧ s'.main = s.main ∧
    s'.stackStarted = s.stackStarted ∧ s'.calls = s.calls ∧ s'.rebooted = s.rebooted ∧
      s'.fresh = s.fresh := by
  cases hst : s.stack <;> simp only [stepStack, hst, Option.some.injEq, reduceCtorEq] at hs <;>
    subst hs <;> exact ⟨rfl, rfl, rfl, rfl, rfl, rfl⟩

/-- The main thread changes nothing of the other threads and of the operation. -/
theorem stepMain_frame {roleFirst : Bool} {mask : UInt32}
    (hs : stepMain roleFirst mask s = some s') : s'.at_ = s.at_ ∧ s'.stack = s.stack ∧
    s'.op = s.op ∧ s'.opResult = s.opResult ∧ s'.opDone = s.opDone ∧
      s'.savedRole = s.savedRole ∧ s'.rebooted = s.rebooted ∧ s'.log = s.log ∧
        s'.fresh = s.fresh := by
  cases hm : s.main <;> simp only [stepMain, hm, reduceCtorEq] at hs <;>
    (try split_ifs at hs) <;> cases hs <;> exact ⟨rfl, rfl, rfl, rfl, rfl, rfl, rfl, rfl, rfl⟩

/-- The AT thread changes nothing of the other threads. -/
theorem stepAt_frame {flag : Bool} (hs : stepAt flag s = some s') :
    s'.main = s.main ∧ s'.stack = s.stack ∧ s'.opResult = s.opResult ∧ s'.fresh = s.fresh := by
  cases hat : s.at_ <;> simp only [stepAt, hat, reduceCtorEq] at hs <;>
    (try split_ifs at hs) <;> cases hs <;> exact ⟨rfl, rfl, rfl, rfl⟩

/-! ## Running an operation -/

theorem Start.op_cases (q : Start) : q.op = .form ∨ q.op = .join := by
  unfold Start.op
  split_ifs
  · exact .inl rfl
  · exact .inr rfl

theorem Start.op_ne_none (q : Start) : q.op ≠ .none := by
  rcases q.op_cases with h | h <;> simp [h]

theorem runOp_init (role : Role) (pend : Option Text) : RunOp (init role pend) := by
  constructor <;> simp [init, AtPc.preparing, AtPc.waitsFor, AtPc.afterStart]

/-- A step of the handler outside of `complete`. -/
theorem RunOp.stack_move (h : RunOp s) {pc : StackPc} (hcalls : .enable ∈ s.calls)
    (hs : s.stack.completing = false) (hpc : pc.completing = false) {role saved : Role}
    {log : List Ev} {work : Bool} : RunOp { s with
      storedRole := role
      savedRole := saved
      rebootWork := work
      log := log
      stack := pc } := by
  refine ⟨h.enabled, h.started, fun _ => hcalls, h.unstarted,
    fun hp => ⟨(h.preparing hp).1, hpc⟩, h.reset, ?_, h.running⟩
  intro q hq
  have hne : s.stack ≠ .give := by rintro hg; rw [hg] at hs; cases hs
  have hne' : pc ≠ .give := by rintro rfl; cases hpc
  rcases h.waiting q hq with ⟨hop, hdone, -⟩ | ⟨hop, -, hdone⟩
  · exact .inl ⟨hop, hdone, hne'⟩
  · refine .inr ⟨hop, fun hc => absurd hc (ne_true_of_eq_false hpc), ?_⟩
    simpa [hne, hne'] using hdone

theorem Signal.enter_completing (g : Signal) : g.enter.completing = false := by
  unfold Signal.enter
  split <;> first | rfl | (split_ifs <;> rfl)

theorem afterUp_completing (result : Option ℕ) : (afterUp result).completing = false := by
  cases result <;> rfl

theorem AfterClear.next_completing (after : AfterClear) : after.next.completing = false := by
  cases after <;> rfl

theorem runOp_stack (h : RunOp s) (hs : stepStack s = some s') : RunOp s' := by
  have hcalls : s.stack ≠ .idle → .enable ∈ s.calls := h.handling
  cases hst : s.stack with
  | idle => rw [stepStack, hst] at hs; cases hs
  | firstForm g | firstJoin g | steerOp g | steerRole g | leaveJoin g | leaveLeave g
  | leaveFactory g | leaveRole g | upCheck g result =>
    simp only [stepStack, hst, Option.some.injEq] at hs
    subst hs
    exact h.stack_move (hcalls (by simp [hst])) (by rw [hst]; rfl) (by split_ifs <;> rfl)
  | upStored g result | upSave g result | clearStored after | leftPan g | schedule =>
    simp only [stepStack, hst, Option.some.injEq] at hs
    subst hs
    exact h.stack_move (hcalls (by simp [hst])) (by rw [hst]; rfl) rfl
  | upPrint g result =>
    simp only [stepStack, hst, Option.some.injEq] at hs
    subst hs
    exact h.stack_move (hcalls (by simp [hst])) (by rw [hst]; rfl) (afterUp_completing result)
  | clearSave after =>
    simp only [stepStack, hst, Option.some.injEq] at hs
    subst hs
    exact h.stack_move (hcalls (by simp [hst])) (by rw [hst]; rfl) after.next_completing
  | complete result =>
    simp only [stepStack, hst, Option.some.injEq] at hs
    subst hs
    split_ifs with hop
    · refine ⟨h.enabled, h.started, fun _ => hcalls (by simp [hst]), h.unstarted,
        fun hp => absurd (h.preparing hp).1 hop, h.reset, ?_, h.running⟩
      intro q hq
      rcases h.waiting q hq with ⟨hq, hdone, -⟩ | ⟨hq, -⟩
      · exact .inl ⟨hq, hdone, nofun⟩
      · exact absurd hq hop
    · exact h.stack_move (hcalls (by simp [hst])) (by rw [hst]; rfl) rfl
  | setResult result =>
    simp only [stepStack, hst, Option.some.injEq] at hs
    subst hs
    refine ⟨h.enabled, h.started, fun _ => hcalls (by simp [hst]), h.unstarted, ?_,
      h.reset, ?_, h.running⟩
    · intro hp
      have := (h.preparing hp).2
      rw [hst] at this
      cases this
    · intro q hq
      rcases h.waiting q hq with ⟨hop, hdone, -⟩ | ⟨-, hgive, -⟩
      · exact .inl ⟨hop, hdone, nofun⟩
      · rw [hst] at hgive
        cases hgive rfl
  | setOp =>
    simp only [stepStack, hst, Option.some.injEq] at hs
    subst hs
    refine ⟨h.enabled, h.started, fun _ => hcalls (by simp [hst]), fun _ => .inl rfl, ?_,
      h.reset, fun q hq => .inr ?_, fun hop => by simp at hop⟩
    · intro hp
      have := (h.preparing hp).2
      rw [hst] at this
      cases this
    · rcases h.waiting q hq with ⟨-, hdone, -⟩ | ⟨-, hgive, -⟩
      · exact ⟨rfl, fun _ => rfl, hdone⟩
      · rw [hst] at hgive
        cases hgive rfl
  | give =>
    simp only [stepStack, hst, Option.some.injEq] at hs
    subst hs
    refine ⟨h.enabled, h.started, fun hne => absurd rfl hne, h.unstarted,
      fun hp => ⟨(h.preparing hp).1, rfl⟩, ?_, fun q hq => .inr ?_, h.running⟩
    · intro q hq
      have := (h.preparing (by rw [hq]; rfl)).2
      rw [hst] at this
      cases this
    · rcases h.waiting q hq with ⟨-, -, hne⟩ | ⟨hop, -, -⟩
      · exact absurd hst hne
      · exact ⟨hop, nofun, rfl⟩

/-- A step of the AT thread outside of `run_op`. -/
theorem RunOp.at_move (h : RunOp s) {pc : AtPc} (hs : s.at_.waitsFor = none)
    (hx : s.at_.expired = false) (hpc : pc.waitsFor = none) (hprep : pc.preparing = false)
    (hstart : pc.afterStart = false ∨ s.stackStarted = true) {role saved : Role}
    {pend : Option Text} {calls : List Call} {log : List Ev} {rebooted : Option Cause}
    {line : Text} {fresh : Bool}
    (hcalls : .enable ∈ calls ↔ .enable ∈ s.calls) : RunOp { s with
      storedRole := role
      savedRole := saved
      savedPend := pend
      rebooted := rebooted
      line := line
      calls := calls
      log := log
      fresh := fresh
      at_ := pc } := by
  refine ⟨fun he => h.enabled (hcalls.mp he), ?_, fun hne => hcalls.mpr (h.handling hne),
    ?_, ?_, ?_, ?_, ?_⟩
  · rintro (hm | ha)
    · exact h.started (.inl hm)
    · rcases hstart with hpc | hst
      · exact absurd ha (ne_true_of_eq_false hpc)
      · exact hst
  · intro hns
    rcases h.unstarted hns with hop | hw
    · exact .inl hop
    · rw [hs] at hw; cases hw
  · intro hp
    rw [hprep] at hp; cases hp
  · intro q hq
    rw [show pc = _ from hq] at hprep; cases hprep
  · intro q hq
    rw [hpc] at hq; cases hq
  · intro hop
    rcases h.running hop with hw | hw
    · rw [hs] at hw; cases hw
    · rw [hx] at hw; cases hw

/-- A step of `prepare_new_network`. -/
theorem RunOp.prepare (h : RunOp s) {pc : AtPc} (hs : s.at_.preparing = true)
    (hpc : pc.preparing = true) {done : Bool} {calls : List Call}
    (hdone : ∀ q, pc = .setOp q → done = false)
    (hcalls : .enable ∈ calls ↔ .enable ∈ s.calls) :
    RunOp { s with opDone := done, calls := calls, at_ := pc } := by
  obtain ⟨hop, hst⟩ := h.preparing hs
  have hwait : pc.waitsFor = none := by cases pc <;> first | rfl | cases hpc
  have hafter : pc.afterStart = false := by cases pc <;> first | rfl | cases hpc
  refine ⟨fun he => h.enabled (hcalls.mp he), ?_, fun hne => hcalls.mpr (h.handling hne),
    fun _ => .inl hop, fun _ => ⟨hop, hst⟩, hdone, ?_, ?_⟩
  · rintro (hm | ha)
    · exact h.started (.inl hm)
    · rw [hafter] at ha; cases ha
  · intro q hq
    rw [hwait] at hq; cases hq
  · intro hrun
    rw [hop] at hrun; rcases hrun with hrun | hrun <;> cases hrun

/-- A step of `run_op` before it waits. -/
theorem RunOp.wait_move (h : RunOp s) {pc : AtPc} {q : Start} (hs : s.at_.waitsFor = some q)
    (hpc : pc.waitsFor = some q) {started : Bool} {calls : List Call}
    (hcalls : .enable ∈ calls → started = true)
    (hmono : s.stackStarted = true → started = true)
    (hsub : .enable ∈ s.calls → .enable ∈ calls)
    (hstart : pc.afterStart = false ∨ started = true) :
    RunOp { s with stackStarted := started, calls := calls, at_ := pc } := by
  have hprep : pc.preparing = false := by cases pc <;> first | rfl | cases hpc
  refine ⟨hcalls, ?_, fun hne => hsub (h.handling hne), fun _ => .inr (by rw [hpc]; rfl),
    ?_, ?_, ?_, fun _ => .inl (by rw [hpc]; rfl)⟩
  · rintro (hm | ha)
    · exact hmono (h.started (.inl hm))
    · rcases hstart with hpc | hst
      · exact absurd ha (ne_true_of_eq_false hpc)
      · exact hst
  · intro hp
    rw [hprep] at hp; cases hp
  · intro q hq
    rw [show pc = _ from hq] at hprep; cases hprep
  · intro q' hq
    exact h.waiting q' (hs.trans (hpc.symm.trans hq))

/-- The wait of `run_op` ends. -/
theorem RunOp.taken (h : RunOp s) {q : Start} (hat : s.at_ = .take q) (hdone : s.opDone = true) :
    s.op = .none := by
  rcases h.waiting q (by rw [hat]; rfl) with ⟨-, hd, -⟩ | ⟨hop, -⟩
  · rw [hd] at hdone; cases hdone
  · exact hop

/-- A step that leaves `op` at something else than `OP_FORM` and `OP_JOIN`, after the start of the
stack. -/
theorem RunOp.settle (h : RunOp s) {pc : AtPc} {op : Op} {done : Bool} {calls : List Call}
    (hstart : s.stackStarted = true) (hop : op ≠ .form ∧ op ≠ .join)
    (hpc : pc.waitsFor = none) (hprep : pc.preparing = false)
    (hcalls : .enable ∈ calls ↔ .enable ∈ s.calls) :
    RunOp { s with op := op, opDone := done, calls := calls, at_ := pc } := by
  refine ⟨fun _ => hstart, fun _ => hstart, fun hne => hcalls.mpr (h.handling hne),
    ?_, ?_, ?_, ?_, ?_⟩
  · intro hns
    rw [hstart] at hns; cases hns
  · intro hp
    rw [hprep] at hp; cases hp
  · intro q hq
    rw [show pc = _ from hq] at hprep; cases hprep
  · intro q hq
    rw [hpc] at hq; cases hq
  · intro hrun
    rcases hrun with hrun | hrun
    · exact absurd hrun hop.1
    · exact absurd hrun hop.2

theorem Leave.op_ne (k : Leave) : k.op ≠ .form ∧ k.op ≠ .join := by cases k <;> decide

/-- The calls that have to come before the start of the stack, and the start itself. -/
def Call.beforeStart : Call → Bool
  | .erase _ | .setRole _ _ | .enable => true
  | _ => false

theorem beforeStart_config (q : Start) {c : Call} (hc : c ∈ q.config) : c.beforeStart = false := by
  cases c with
  | erase recorded | setRole role mask | enable =>
    unfold Start.config at hc
    split_ifs at hc <;> cases hk : q.nwkKey <;> cases he : q.epid <;> simp [hk, he] at hc
  | _ => rfl

theorem enable_notMem_config (q : Start) : .enable ∉ q.config := fun he =>
  nomatch beforeStart_config q he

/-- While `op` is neither `OP_FORM` nor `OP_JOIN`. -/
theorem RunOp.op_ne (h : RunOp s) (hs : s.at_.waitsFor = none) (hx : s.at_.expired = false) :
    s.op ≠ .form ∧ s.op ≠ .join := by
  constructor <;> intro hop
  · rcases h.running (.inl hop) with hw | hw
    · rw [hs] at hw; cases hw
    · rw [hx] at hw; cases hw
  · rcases h.running (.inr hop) with hw | hw
    · rw [hs] at hw; cases hw
    · rw [hx] at hw; cases hw

theorem runOp_at {flag : Bool} (h : RunOp s) (hs : stepAt flag s = some s') : RunOp s' := by
  cases hat : s.at_ with
  | idle => rw [stepAt, hat] at hs; cases hs
  | ret result | deferSave | clearStored k | deletePend cause | reboot cause =>
    simp only [stepAt, hat] at hs
    cases hs
    exact h.at_move (by rw [hat]; rfl) (by rw [hat]; rfl) rfl rfl (.inl rfl) Iff.rfl
  | startRole q | answer cause | printLeft =>
    simp only [stepAt, hat] at hs
    split_ifs at hs <;> cases hs <;>
      exact h.at_move (by rw [hat]; rfl) (by rw [hat]; rfl) rfl rfl (.inl rfl) Iff.rfl
  | clearSave k =>
    simp only [stepAt, hat] at hs
    cases k <;> cases hs <;>
      exact h.at_move (by rw [hat]; rfl) (by rw [hat]; rfl) rfl rfl (.inl rfl) Iff.rfl
  | leaveRole k =>
    simp only [stepAt, hat] at hs
    cases k <;> split_ifs at hs <;> cases hs <;>
      exact h.at_move (by rw [hat]; rfl) (by rw [hat]; rfl) rfl rfl (.inl rfl) Iff.rfl
  | startStarted q =>
    simp only [stepAt, hat] at hs
    split_ifs at hs with hst <;> cases hs
    · exact h.at_move (by rw [hat]; rfl) (by rw [hat]; rfl) rfl rfl (.inl rfl) Iff.rfl
    · have hns : s.stackStarted = false := by simpa using hst
      have hidle : s.stack = .idle := by
        by_contra hne
        exact hst (h.enabled (h.handling hne))
      have hop : s.op = .none := by
        rcases h.unstarted hns with hop | hw
        · exact hop
        · rw [hat] at hw; cases hw
      refine ⟨h.enabled, ?_, h.handling, fun _ => .inl hop, fun _ => ⟨hop, by rw [hidle]; rfl⟩,
        fun q hq => (nomatch hq), fun q hq => (nomatch hq), ?_⟩
      · rintro (hm | ha)
        · exact h.started (.inl hm)
        · cases ha
      · intro hrun
        rw [hop] at hrun
        rcases hrun with hrun | hrun <;> cases hrun
  | erase q | setRole q =>
    simp only [stepAt, hat] at hs
    cases hs
    exact h.prepare (by rw [hat]; rfl) rfl (fun q hq => (nomatch hq)) (by simp)
  | configure q =>
    simp only [stepAt, hat] at hs
    cases hs
    refine h.prepare (by rw [hat]; rfl) rfl (fun q hq => (nomatch hq)) ?_
    simp [enable_notMem_config q]
  | semReset q =>
    simp only [stepAt, hat] at hs
    cases hs
    exact h.prepare (by rw [hat]; rfl) rfl (fun _ _ => rfl) Iff.rfl
  | setOp q =>
    simp only [stepAt, hat] at hs
    cases hs
    obtain ⟨-, hcomp⟩ := h.preparing (by rw [hat]; rfl)
    have hne : s.stack ≠ .give := by rintro hg; rw [hg] at hcomp; cases hcomp
    refine ⟨h.enabled, ?_, h.handling, fun _ => .inr rfl, fun hp => (nomatch hp),
      fun q hq => (nomatch hq), fun q' hq => .inl ⟨?_, h.reset q hat, hne⟩, fun _ => .inl rfl⟩
    · rintro (hm | ha)
      · exact h.started (.inl hm)
      · cases ha
    · cases hq
      rfl
  | opStarted q =>
    simp only [stepAt, hat] at hs
    split_ifs at hs with hst <;> cases hs
    · exact h.wait_move (by rw [hat]; rfl) rfl h.enabled id id (.inr hst)
    · exact h.wait_move (by rw [hat]; rfl) rfl h.enabled id id (.inl rfl)
  | markStarted q =>
    simp only [stepAt, hat] at hs
    cases hs
    exact h.wait_move (by rw [hat]; rfl) rfl (fun _ => rfl) (fun _ => rfl) id (.inr rfl)
  | enable q =>
    simp only [stepAt, hat] at hs
    cases hs
    have hst := h.started (.inr (by rw [hat]; rfl))
    exact h.wait_move (by rw [hat]; rfl) rfl (fun _ => hst) id (List.mem_append_left _)
      (.inr hst)
  | take q =>
    simp only [stepAt, hat] at hs
    have hst := h.started (.inr (by rw [hat]; rfl))
    split_ifs at hs with hdone <;> cases hs
    · exact h.settle hst (by simp [h.taken hat hdone]) rfl rfl Iff.rfl
    · refine ⟨h.enabled, fun _ => hst, h.handling, ?_, fun hp => (nomatch hp),
        fun q hq => (nomatch hq), fun q hq => (nomatch hq), fun _ => .inr rfl⟩
      intro hns
      rw [hst] at hns
      cases hns
  | timedOut q | leaveTimedOut k =>
    simp only [stepAt, hat] at hs
    cases hs
    exact h.settle (h.started (.inr (by rw [hat]; rfl))) (by decide) rfl rfl Iff.rfl
  | readResult =>
    simp only [stepAt, hat] at hs
    cases hs
    exact h.at_move (by rw [hat]; rfl) (by rw [hat]; rfl) rfl rfl (.inl rfl) Iff.rfl
  | leaveJoined k =>
    simp only [stepAt, hat] at hs
    split_ifs at hs with hst <;> cases hs
    · exact h.at_move (by rw [hat]; rfl) (by rw [hat]; rfl) rfl rfl
        (.inr (Bool.and_eq_true_iff.mp hst).1) Iff.rfl
    · exact h.at_move (by rw [hat]; rfl) (by rw [hat]; rfl) rfl rfl (.inl rfl) Iff.rfl
  | leaveReset k =>
    simp only [stepAt, hat] at hs
    cases hs
    exact h.settle (h.started (.inr (by rw [hat]; rfl)))
      (h.op_ne (by rw [hat]; rfl) (by rw [hat]; rfl)) rfl rfl Iff.rfl
  | leaveOp k =>
    simp only [stepAt, hat] at hs
    cases hs
    exact h.settle (h.started (.inr (by rw [hat]; rfl))) k.op_ne rfl rfl Iff.rfl
  | leaveSchedule k =>
    simp only [stepAt, hat] at hs
    cases hs
    exact h.settle (h.started (.inr (by rw [hat]; rfl)))
      (h.op_ne (by rw [hat]; rfl) (by rw [hat]; rfl)) rfl rfl (by simp)
  | leaveTake k =>
    simp only [stepAt, hat] at hs
    split_ifs at hs <;> cases hs <;>
      exact h.settle (h.started (.inr (by rw [hat]; rfl)))
        (h.op_ne (by rw [hat]; rfl) (by rw [hat]; rfl)) rfl rfl Iff.rfl

/-- A step of the main thread. -/
theorem RunOp.main_move (h : RunOp s) {pc : MainPc} {role : Role} {pendingCmd : Text}
    {pend : Option Text} {injected : List Text} {started : Bool} {calls : List Call}
    (hcalls : .enable ∈ calls → started = true)
    (hmono : s.stackStarted = true → started = true)
    (hsub : .enable ∈ s.calls → .enable ∈ calls) (hpc : pc ≠ .enable ∨ started = true) :
    RunOp { s with
      storedRole := role
      pendingCmd := pendingCmd
      savedPend := pend
      injected := injected
      stackStarted := started
      calls := calls
      main := pc } := by
  refine ⟨hcalls, ?_, fun hne => hsub (h.handling hne), fun hns => h.unstarted ?_, h.preparing,
    h.reset, h.waiting, h.running⟩
  · rintro (hm | ha)
    · rcases hpc with hne | hst
      · exact absurd hm hne
      · exact hst
    · exact hmono (h.started (.inr ha))
  · by_contra hst
    rw [hmono (by simpa using hst)] at hns
    cases hns

theorem runOp_main {roleFirst : Bool} {mask : UInt32} (h : RunOp s)
    (hs : stepMain roleFirst mask s = some s') : RunOp s' := by
  cases hm : s.main with
  | done => rw [stepMain, hm] at hs; cases hs
  | atCmdStart | deletePend | inject =>
    simp only [stepMain, hm] at hs
    cases hs
    exact h.main_move h.enabled id id (.inl nofun)
  | load role pend =>
    simp only [stepMain, hm] at hs
    split_ifs at hs <;> cases hs <;> exact h.main_move h.enabled id id (.inl nofun)
  | checkPend | checkRole =>
    simp only [stepMain, hm] at hs
    split_ifs at hs <;> cases hs <;> exact h.main_move h.enabled id id (.inl nofun)
  | setRole =>
    simp only [stepMain, hm] at hs
    cases hs
    exact h.main_move (fun he => h.enabled (by simpa using he)) id (List.mem_append_left _)
      (.inl nofun)
  | markStarted =>
    simp only [stepMain, hm] at hs
    cases hs
    exact h.main_move (fun _ => rfl) (fun _ => rfl) id (.inr rfl)
  | enable =>
    simp only [stepMain, hm] at hs
    cases hs
    have hst := h.started (.inl hm)
    exact h.main_move (fun _ => hst) id (List.mem_append_left _) (.inr hst)

theorem Cmd.enter_outside (cmd : Cmd) :
    cmd.enter.waitsFor = none ∧ cmd.enter.preparing = false ∧ cmd.enter.afterStart = false := by
  cases cmd <;> exact ⟨rfl, rfl, rfl⟩

theorem step_move (hs : step s a = some s') : s.rebooted = none ∧ move s a = some s' := by
  unfold step at hs
  split_ifs at hs with hr
  exact ⟨by simpa using hr, hs⟩

theorem runOp_step (h : RunOp s) (hs : step s a = some s') : RunOp s' := by
  obtain ⟨-, hs⟩ := step_move hs
  cases a with
  | main roleFirst mask => exact runOp_main h hs
  | command line cmd =>
    simp only [move] at hs
    split_ifs at hs with hc
    cases hs
    obtain ⟨hwait, hprep, hafter⟩ := cmd.enter_outside
    exact h.at_move (by rw [hc.1]; rfl) (by rw [hc.1]; rfl) hwait hprep (.inl hafter) Iff.rfl
  | at_ flag => exact runOp_at h hs
  | signal g =>
    simp only [move] at hs
    split_ifs at hs with hc
    cases hs
    exact h.stack_move hc.2 (by rw [hc.1]; rfl) g.enter_completing
  | stack => exact runOp_stack h hs
  | reboot =>
    simp only [move] at hs
    split_ifs at hs
    cases hs
    exact ⟨h.enabled, h.started, h.handling, h.unstarted, h.preparing, h.reset, h.waiting,
      h.running⟩

theorem runOp_reach (h : machine.Reach s) : RunOp s := by
  refine h.invariant RunOp ?_ fun _ _ _ hr _ hs => runOp_step hr hs
  rintro _ ⟨role, pend, rfl⟩
  exact runOp_init role pend

end ZbAt.Zbc
