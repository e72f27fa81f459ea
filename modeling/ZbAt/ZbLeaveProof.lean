import ZbAt.ZbOpProof

/-!
# Leaving the network

`AT+DASSL` and `AT&F` clear the recorded role, answer and reboot; `AT&F` without a recorded role has
nothing to clear. A signal that brings the network up again before the reboot records the role
again (`not_left_for_good`). In every run without such a signal (`NotUpAgain`) no role is recorded
at the reboot (`left_for_good`).

* `Synced` — between two calls of `role_save`, `stored_role` is what the settings hold.
* `Left` — from the clearing on, no role is recorded.
-/

namespace ZbAt.Zbc

variable {s s' : State} {a : Action}

/-- The reboots that `AT+DASSL` and `AT&F` end with. -/
def Cause.left : Cause → Bool
  | .leave _ | .factory => true
  | _ => false

/-- No role is left in the settings: the command has cleared it, or found none. -/
def AtPc.cleared : AtPc → Bool
  | .deletePend cause | .answer cause | .reboot cause => cause.left
  | .printLeft => true
  | _ => false

/-- The command has cleared `stored_role`, or found that it is clear. -/
def AtPc.left : AtPc → Bool
  | .clearSave _ => true
  | pc => pc.cleared

def AtPc.clearing : AtPc → Bool
  | .clearStored _ => true
  | _ => false

/-- `AT&F` is about to find no recorded role, and to leave it at that. -/
def State.skips (s : State) : Bool := s.at_ == .leaveRole .factory && s.storedRole == .none

/-- In `network_up`, up to `role_save`. -/
def StackPc.goingUp : StackPc → Bool
  | .upCheck _ _ | .upStored _ _ | .upSave _ _ => true
  | _ => false

/-- Between the two writes of `role_save(role)`. -/
def StackPc.saving : StackPc → Option Role
  | .upSave g _ => some g.role
  | .clearSave _ => some .none
  | _ => none

/-- `zbc_init` has still to load the recorded role. -/
def MainPc.loadsRole : MainPc → Bool
  | .load role _ => role
  | _ => false

/-- `zbc_init` has loaded the recorded role. -/
def MainPc.loaded : MainPc → Bool
  | .atCmdStart => false
  | pc => !pc.loadsRole

/-- The handler runs `network_up` for the signal, whatever the state. -/
def Signal.bringsUp (g : Signal) : Bool :=
  g.ok && (g.type == .deviceReboot || g.type == .formation)

/-- Once the command clears the role, or finds none, no signal brings the network up: none is
handled that does so, and none is in `network_up` already. `zbc_init` does not load the role
then, nor between the two writes of a `role_save`, and where the command finds none, it has done
so and no `role_save` is between its two writes. -/
def NotUpAgain (s : State) : Action → Prop
  | .signal g => s.at_.left = true → g.bringsUp = false
  | .at_ _ => (s.at_.clearing = true ∨ s.skips = true → s.stack.goingUp = false) ∧
      (s.skips = true → s.main.loaded = true ∧ s.stack.saving = none)
  | .main _ _ => s.at_.left = true ∨ s.stack.saving ≠ none → s.main.loadsRole = false
  | _ => True

instance (s : State) : ∀ a, Decidable (NotUpAgain s a)
  | .signal _ | .at_ _ | .main _ _ => by unfold NotUpAgain; infer_instance
  | .command _ _ | .stack | .reboot => .isTrue trivial

/-- No role is recorded at the reboot that ends `AT+DASSL` or `AT&F`. -/
def LeftForGood (s : State) : Prop :=
  ∀ cause, cause.left = true → s.rebooted = some cause → s.savedRole = .none

/-! ## What is recorded -/

/-- Until a command clears the role, `stored_role` is what the settings hold, or what the running
`role_save` is about to write. -/
structure Synced (s : State) : Prop where
  saving : s.at_.left = false → ∀ role ∈ s.stack.saving, s.storedRole = role
  saved : s.at_.left = false → s.stack.saving = none → s.main.loaded = true →
    s.savedRole = s.storedRole

/-- A step of the AT thread that records nothing. -/
theorem Synced.at_move (h : Synced s) (hs : s.at_.left = false) {s' : State}
    (hrole : s'.storedRole = s.storedRole ∧ s'.savedRole = s.savedRole) (hmain : s'.main = s.main)
    (hstack : s'.stack = s.stack) : Synced s' := by
  constructor
  · intro _
    rw [hstack, hrole.1]
    exact h.saving hs
  · intro _
    rw [hstack, hmain, hrole.1, hrole.2]
    exact h.saved hs

/-- Past the clearing there is nothing to keep. -/
theorem Synced.of_left (hs : s.at_.left = true) : Synced s := by
  constructor <;> intro hl <;> rw [hs] at hl <;> cases hl

theorem synced_at {flag : Bool} (h : Synced s) (hs : stepAt flag s = some s') : Synced s' := by
  obtain ⟨hmain, hstack, -⟩ := stepAt_frame hs
  cases hat : s.at_ with
  | idle => rw [stepAt, hat] at hs; cases hs
  | clearStored k =>
    simp only [stepAt, hat, Option.some.injEq] at hs
    subst hs
    exact .of_left rfl
  | clearSave k =>
    simp only [stepAt, hat, Option.some.injEq] at hs
    subst hs
    cases k <;> exact .of_left rfl
  | printLeft =>
    simp only [stepAt, hat, Option.some.injEq] at hs
    subst hs
    exact .of_left rfl
  | deletePend cause | answer cause | reboot cause =>
    cases hcause : cause.left with
    | true =>
      simp only [stepAt, hat, Option.some.injEq] at hs
      subst hs
      exact .of_left (by first | exact hcause | (split_ifs <;> first | rfl | exact hcause))
    | false =>
      simp only [stepAt, hat, Option.some.injEq] at hs
      subst hs
      exact h.at_move (by rw [hat]; exact hcause) ⟨rfl, rfl⟩ rfl rfl
  | _ =>
    refine h.at_move (by rw [hat]; rfl) ?_ hmain hstack
    simp only [stepAt, hat] at hs
    (try split_ifs at hs) <;> cases hs <;> exact ⟨rfl, rfl⟩

theorem Signal.enter_saving (g : Signal) : g.enter.saving = none := by
  unfold Signal.enter
  split <;> first | rfl | (split_ifs <;> rfl)

theorem afterUp_saving (result : Option ℕ) : (afterUp result).saving = none := by
  cases result <;> rfl

theorem AfterClear.next_saving (after : AfterClear) : after.next.saving = none := by
  cases after <;> rfl

theorem synced_stack (h : Synced s) (hs : stepStack s = some s') : Synced s' := by
  obtain ⟨hat, hmain, -⟩ := stepStack_frame hs
  -- A step outside of `role_save` records nothing.
  have hmove : s.stack.saving = none → s'.stack.saving = none →
      s'.storedRole = s.storedRole ∧ s'.savedRole = s.savedRole → Synced s' := by
    intro hsaving hsaving' hrole
    constructor
    · intro _ role hr
      rw [hsaving'] at hr
      cases hr
    · intro hl _
      rw [hat] at hl
      rw [hmain, hrole.1, hrole.2]
      exact h.saved hl hsaving
  cases hst : s.stack with
  | idle => rw [stepStack, hst] at hs; cases hs
  | upStored g result | clearStored after =>
    simp only [stepStack, hst, Option.some.injEq] at hs
    subst hs
    refine ⟨fun _ role hr => ?_, fun _ hn => (by cases hn)⟩
    cases hr
    rfl
  | upSave g result =>
    simp only [stepStack, hst, Option.some.injEq] at hs
    subst hs
    refine ⟨fun _ role hr => (by cases hr), fun hl _ _ => ?_⟩
    exact (h.saving hl g.role (by rw [hst]; rfl)).symm
  | clearSave after =>
    simp only [stepStack, hst, Option.some.injEq] at hs
    subst hs
    refine ⟨fun _ role hr => ?_, fun hl _ _ => ?_⟩
    · rw [after.next_saving] at hr
      cases hr
    · exact (h.saving hl .none (by rw [hst]; rfl)).symm
  | upPrint g result =>
    simp only [stepStack, hst, Option.some.injEq] at hs
    subst hs
    exact hmove (by rw [hst]; rfl) (afterUp_saving result) ⟨rfl, rfl⟩
  | _ =>
    refine hmove (by rw [hst]; rfl) ?_ ?_ <;> simp only [stepStack, hst] at hs <;> cases hs
    · first | rfl | (split_ifs <;> rfl)
    · exact ⟨rfl, rfl⟩

theorem synced_main {roleFirst : Bool} {mask : UInt32} (h : Synced s)
    (ha : s.stack.saving ≠ none → s.main.loadsRole = false)
    (hs : stepMain roleFirst mask s = some s') : Synced s' := by
  obtain ⟨hat, hst, -, -, -, hsaved, -⟩ := stepMain_frame hs
  cases hm : s.main with
  | load role pend =>
    cases role with
    | true =>
      have hsaving : s.stack.saving = none := by
        by_contra hne
        have hload := ha hne
        rw [hm] at hload
        cases hload
      constructor
      · intro _ r hr
        rw [hst, hsaving] at hr
        cases hr
      · intro _ _ hl
        simp only [stepMain, hm] at hs
        split_ifs at hs with hrole hpend <;> cases hs
        · rfl
        · cases hl
        · simp [hpend] at hrole
    | false =>
      simp only [stepMain, hm, Bool.false_and, Bool.false_eq_true, if_false] at hs
      split_ifs at hs <;> cases hs <;>
        exact ⟨h.saving, fun hl hn _ => h.saved hl hn (by rw [hm]; rfl)⟩
  | atCmdStart =>
    simp only [stepMain, hm, Option.some.injEq] at hs
    subst hs
    exact ⟨h.saving, fun _ _ hl => (by cases hl)⟩
  | done => rw [stepMain, hm] at hs; cases hs
  | _ =>
    simp only [stepMain, hm, Option.some.injEq] at hs
    subst hs
    exact ⟨h.saving, fun hl hn _ => h.saved hl hn (by rw [hm]; rfl)⟩

theorem Cmd.enter_left (cmd : Cmd) : cmd.enter.left = false := by cases cmd <;> rfl

theorem synced_step (h : Synced s) (ha : NotUpAgain s a) (hs : step s a = some s') :
    Synced s' := by
  obtain ⟨-, hs⟩ := step_move hs
  cases a with
  | main roleFirst mask => exact synced_main h (fun hne => ha (.inr hne)) hs
  | command line cmd =>
    simp only [move] at hs
    split_ifs at hs with hidle
    cases hs
    exact h.at_move (by rw [hidle.1]; rfl) ⟨rfl, rfl⟩ rfl rfl
  | at_ flag => exact synced_at h hs
  | signal g =>
    simp only [move] at hs
    split_ifs at hs with hidle
    cases hs
    refine ⟨fun _ role hr => ?_, fun hl _ => h.saved hl (by rw [hidle.1]; rfl)⟩
    rw [g.enter_saving] at hr
    cases hr
  | stack => exact synced_stack h hs
  | reboot =>
    simp only [move] at hs
    split_ifs at hs
    cases hs
    exact ⟨h.saving, h.saved⟩

theorem synced_reach (h : machine.ReachIf NotUpAgain s) : Synced s := by
  refine h.invariant Synced ?_ fun _ _ _ hy ha hs => synced_step hy ha hs
  rintro _ ⟨role, pend, rfl⟩
  exact ⟨fun _ role hr => (by cases hr), fun _ _ hl => (by cases hl)⟩

/-- `AT&F` that finds no recorded role: none is in the settings. -/
theorem Synced.skips (h : Synced s) (hskip : s.skips = true)
    (hc : s.main.loaded = true ∧ s.stack.saving = none) : s.savedRole = .none := by
  simp only [State.skips, Bool.and_eq_true, beq_iff_eq] at hskip
  rw [← hskip.2]
  exact h.saved (by rw [hskip.1]; rfl) hc.2 hc.1

/-! ## From the clearing on -/

structure Left (s : State) : Prop where
  stored : s.at_.left = true → s.storedRole = .none ∧ s.stack.goingUp = false
  saved : s.at_.cleared = true → s.savedRole = .none
  reboot : ∀ cause, cause.left = true → s.rebooted = some cause → s.at_.cleared = true

theorem AtPc.left_outside {pc : AtPc} (h : pc.left = true) :
    pc.waitsFor = none ∧ pc.expired = false := by
  cases pc <;> first | exact ⟨rfl, rfl⟩ | cases h

theorem AtPc.left_of_cleared {pc : AtPc} (h : pc.cleared = true) : pc.left = true := by
  cases pc <;> first | exact h | cases h

/-- A signal that does not bring the network up, or not in this state, does not come to
`network_up`. -/
theorem Signal.enter_goingUp {g : Signal} (h : g.bringsUp = false) : g.enter.goingUp = false := by
  unfold Signal.bringsUp at h
  unfold Signal.enter
  cases ht : g.type <;> simp only [ht] at h ⊢ <;> first | rfl | (split_ifs <;> simp_all <;> rfl)

theorem afterUp_goingUp (result : Option ℕ) : (afterUp result).goingUp = false := by
  cases result <;> rfl

theorem AfterClear.next_goingUp (after : AfterClear) : after.next.goingUp = false := by
  cases after <;> rfl

/-- Once the role is cleared, the handler neither records one nor comes to `network_up`. -/
theorem stepStack_left (hr : RunOp s) (h : Left s) (hleft : s.at_.left = true)
    (hs : stepStack s = some s') :
    s'.storedRole = .none ∧ s'.stack.goingUp = false ∧
      (s.savedRole = .none → s'.savedRole = .none) := by
  obtain ⟨hstored, hup⟩ := h.stored hleft
  obtain ⟨hwait, hx⟩ := AtPc.left_outside hleft
  obtain ⟨hform, hjoin⟩ := hr.op_ne hwait hx
  cases hst : s.stack with
  | idle => rw [stepStack, hst] at hs; cases hs
  | upCheck g result | upStored g result | upSave g result => rw [hst] at hup; cases hup
  | firstForm g | firstJoin g | steerOp g | leaveJoin g =>
    simp only [stepStack, hst, hform, hjoin, if_false, Option.some.injEq] at hs
    subst hs
    exact ⟨hstored, rfl, id⟩
  | steerRole g | leaveRole g =>
    simp only [stepStack, hst, hstored, ne_eq, not_true_eq_false, false_and, if_false,
      Option.some.injEq] at hs
    subst hs
    exact ⟨rfl, rfl, id⟩
  | leaveLeave g | leaveFactory g | complete result =>
    simp only [stepStack, hst, Option.some.injEq] at hs
    subst hs
    exact ⟨hstored, by split_ifs <;> rfl, id⟩
  | upPrint g result =>
    simp only [stepStack, hst, Option.some.injEq] at hs
    subst hs
    exact ⟨hstored, afterUp_goingUp result, id⟩
  | clearStored after | leftPan g | schedule | setResult result | setOp | give =>
    simp only [stepStack, hst, Option.some.injEq] at hs
    subst hs
    exact ⟨by first | rfl | exact hstored, rfl, id⟩
  | clearSave after =>
    simp only [stepStack, hst, Option.some.injEq] at hs
    subst hs
    exact ⟨hstored, after.next_goingUp, fun _ => rfl⟩

/-- Before the clearing there is nothing to keep. -/
theorem Left.of_not_left (h0 : ∀ cause, cause.left = true → s.rebooted ≠ some cause)
    (hs : s.at_.left = false) : Left s := by
  have hc : s.at_.cleared = false := by
    by_contra hc
    rw [AtPc.left_of_cleared (by simpa using hc)] at hs
    cases hs
  refine ⟨?_, ?_, ?_⟩
  · intro hl
    rw [hs] at hl; cases hl
  · intro hl
    rw [hc] at hl; cases hl
  · intro cause hleft hk
    exact absurd hk (h0 cause hleft)

/-- A step of the command after the clearing. -/
theorem Left.at_move (h : Left s) {pc : AtPc} (hs : s.at_.cleared = true) (hpc : pc.cleared = true)
    {pend : Option Text} {log : List Ev} {rebooted : Option Cause} :
    Left { s with savedPend := pend, log := log, rebooted := rebooted, at_ := pc } :=
  ⟨fun _ => h.stored (AtPc.left_of_cleared hs), fun _ => h.saved hs, fun _ _ _ => hpc⟩

theorem left_at {flag : Bool} (hy : Synced s) (h : Left s) (h0 : s.rebooted = none)
    (ha : NotUpAgain s (.at_ flag)) (hs : stepAt flag s = some s') : Left s' := by
  obtain ⟨hdown, hskip⟩ := ha
  cases hat : s.at_ with
  | idle => rw [stepAt, hat] at hs; cases hs
  | clearStored k =>
    simp only [stepAt, hat, Option.some.injEq] at hs
    subst hs
    refine ⟨fun _ => ⟨rfl, hdown (.inl (by rw [hat]; rfl))⟩, fun hc => (by cases hc), ?_⟩
    intro cause _ hj
    rw [h0] at hj
    cases hj
  | clearSave k =>
    simp only [stepAt, hat, Option.some.injEq] at hs
    subst hs
    refine ⟨fun _ => h.stored (by rw [hat]; rfl), fun _ => rfl, ?_⟩
    intro cause _ hj
    rw [h0] at hj
    cases hj
  | deletePend cause | answer cause | reboot cause =>
    simp only [stepAt, hat] at hs
    cases cause with
    | leave k =>
      cases k <;> (try split_ifs at hs) <;> cases hs <;> exact h.at_move (by rw [hat]; rfl) rfl
    | factory =>
      (try split_ifs at hs) <;> cases hs <;> exact h.at_move (by rw [hat]; rfl) rfl
    | atz | defer | work =>
      cases hs
      refine .of_not_left (fun cause hleft hc => ?_) rfl
      first
        | (rw [h0] at hc; cases hc)
        | (cases hc; cases hleft)
  | printLeft =>
    simp only [stepAt, hat] at hs
    split_ifs at hs <;> cases hs <;> exact h.at_move (by rw [hat]; rfl) rfl
  | leaveRole k =>
    simp only [stepAt, hat] at hs
    split_ifs at hs with hstored
    · cases k with
      | dassl => cases hs; exact .of_not_left (by simp [h0]) rfl
      | factory =>
        cases hs
        have hs : s.skips = true := by simp [State.skips, hat, hstored]
        refine ⟨fun _ => ⟨hstored, hdown (.inr hs)⟩, fun _ => hy.skips hs (hskip hs), ?_⟩
        intro cause _ hj
        rw [h0] at hj
        cases hj
    · cases hs
      exact .of_not_left (by simp [h0]) rfl
  | startRole q | startStarted q | opStarted q | take q | leaveJoined k | leaveTake k =>
    simp only [stepAt, hat] at hs
    split_ifs at hs <;> cases hs <;> exact .of_not_left (by simp [h0]) rfl
  | _ =>
    simp only [stepAt, hat] at hs
    cases hs
    exact .of_not_left (by simp [h0]) rfl

/-- Only the load of the role changes `stored_role` on the main thread. -/
theorem stepMain_storedRole {roleFirst : Bool} {mask : UInt32} (hl : s.main.loadsRole = false)
    (hs : stepMain roleFirst mask s = some s') : s'.storedRole = s.storedRole := by
  cases hm : s.main with
  | load role pend =>
    rw [hm] at hl
    simp only [stepMain, hm, show role = false from hl, Bool.false_and, Bool.false_eq_true,
      if_false] at hs
    split_ifs at hs <;> cases hs <;> rfl
  | done => rw [stepMain, hm] at hs; cases hs
  | _ => simp only [stepMain, hm] at hs; cases hs; rfl

theorem left_step (hr : RunOp s) (hy : Synced s) (h : Left s) (ha : NotUpAgain s a)
    (hs : step s a = some s') :
    Left s' := by
  obtain ⟨h0, hs⟩ := step_move hs
  cases a with
  | main roleFirst mask =>
    obtain ⟨hat, hst, -, -, -, hsaved, hreb, -⟩ := stepMain_frame hs
    refine ⟨?_, ?_, ?_⟩
    · intro hl
      rw [hat] at hl
      rw [hst, stepMain_storedRole (ha (.inl hl)) hs]
      exact h.stored hl
    · intro hc
      rw [hat] at hc
      rw [hsaved]
      exact h.saved hc
    · intro cause _ hk
      rw [hreb, h0] at hk
      cases hk
  | command line cmd =>
    simp only [move] at hs
    split_ifs at hs
    cases hs
    exact .of_not_left (by simp [h0]) cmd.enter_left
  | at_ flag => exact left_at hy h h0 ha hs
  | signal g =>
    simp only [move] at hs
    split_ifs at hs
    cases hs
    exact ⟨fun hl => ⟨(h.stored hl).1, Signal.enter_goingUp (ha hl)⟩, h.saved, h.reboot⟩
  | stack =>
    obtain ⟨hat, -, -, -, hreb, -⟩ := stepStack_frame hs
    refine ⟨?_, ?_, ?_⟩
    · intro hl
      rw [hat] at hl
      obtain ⟨hstored, hup, -⟩ := stepStack_left hr h hl hs
      exact ⟨hstored, hup⟩
    · intro hc
      rw [hat] at hc
      exact (stepStack_left hr h (AtPc.left_of_cleared hc) hs).2.2 (h.saved hc)
    · intro cause _ hk
      rw [hreb, h0] at hk
      cases hk
  | reboot =>
    simp only [move] at hs
    split_ifs at hs
    cases hs
    exact ⟨h.stored, h.saved, fun cause hleft hk => by cases hk; cases hleft⟩

theorem left_reach (h : machine.ReachIf NotUpAgain s) : Left s := by
  induction h with
  | init h0 =>
    obtain ⟨role, pend, rfl⟩ := h0
    exact .of_not_left nofun rfl
  | step hr ha hs ih => exact left_step (runOp_reach hr.reach) (synced_reach hr) ih ha hs

/-- **Leaving is final.** In a run in which no signal brings the network up once `AT+DASSL` or
`AT&F` clears the role or finds none, no role is recorded at the reboot. -/
theorem left_for_good (h : machine.ReachIf NotUpAgain s) : LeftForGood s :=
  fun cause hleft hc => (left_reach h).saved ((left_reach h).reboot cause hleft hc)

/-- A router is back in its network and `AT+DASSL` takes it out. -/
def dasslRun : List Action :=
  bootRun ++ .signal (routerSignal .deviceReboot true) :: List.replicate 2 .stack ++
    .command [] (.leave .dassl) :: List.replicate 5 (.at_ true) ++
      .signal (routerSignal .leave true) :: List.replicate 6 .stack ++
        List.replicate 6 (.at_ true)

theorem dasslRun_execIf : ((machine.execIf NotUpAgain (init .zr none) dasslRun).map fun s =>
    (s.rebooted, s.savedRole)) = some (some (.leave .dassl), .none) := by
  decide

theorem left_for_good_dassl : ∃ s : State, s.rebooted = some (.leave .dassl) ∧ LeftForGood s := by
  obtain ⟨s, he, hs⟩ := Option.map_eq_some_iff.mp dasslRun_execIf
  simp only [Prod.mk.injEq] at hs
  exact ⟨s, hs.1, left_for_good (.execIf (.init ⟨_, _, rfl⟩) he)⟩

/-- `AT+DASSL` while the router is still rejoining: the rejoin succeeds while the command
answers. -/
def rejoinedRun : List Action :=
  bootRun ++ .command [] (.leave .dassl) :: List.replicate 2 (.at_ false) ++
    List.replicate 2 (.at_ true) ++
      .signal (routerSignal .deviceReboot true) :: List.replicate 4 .stack ++
        List.replicate 3 (.at_ true)

theorem rejoinedRun_exec : ((machine.exec (init .zr none) rejoinedRun).map fun s =>
    (s.rebooted, s.savedRole)) = some (some (.leave .dassl), .zr) := by
  decide

/-- `AT&F` after an `AT+JN` that timed out and joined later: no role is recorded, so the command
clears none, and a signal records one before the reboot. -/
def unrecordedRun : List Action :=
  List.replicate 6 (.main true 0) ++ .command [] (.jn anyRegs) :: List.replicate 13 (.at_ true) ++
    .signal (routerSignal .steering true) :: List.replicate 2 .stack ++
      .command [] (.leave .factory) :: List.replicate 3 (.at_ true) ++
        .signal (routerSignal .deviceReboot true) :: List.replicate 4 .stack ++ [.at_ true]

example : ((machine.exec (init .none none) unrecordedRun).map fun s =>
    (s.rebooted, s.savedRole)) = some (some .factory, .zr) := by
  decide

/-- The module reboots with the role recorded again. -/
theorem not_left_for_good : ¬ ∀ s, machine.Reach s → LeftForGood s := by
  intro h
  obtain ⟨s, he, hs⟩ := Option.map_eq_some_iff.mp rejoinedRun_exec
  simp only [Prod.mk.injEq] at hs
  have hnone := h s (Machine.Reach.exec (.init ⟨_, _, rfl⟩) he) (.leave .dassl) rfl hs.1
  rw [hs.2] at hnone
  cases hnone

end ZbAt.Zbc
