import ZbAt.ZbLeaveProof

/-!
# Starting the stack once per boot

The AT thread runs before `zbc_init` has loaded the recorded role, so both can start the stack
(`not_started_once`). They do not in every run in which `start_network` finds the stack not started
only while no role is recorded, and `zbc_init` finds a role only while the stack is not started
(`KnownRole`): then the stack is started once, with its role fixed before (`started_once`).
-/

namespace ZbAt.Zbc

variable {s s' : State} {a : Action}

/-- The stack is started at most once, neither an erase nor a role comes after its start, and what
is erased is no recorded network. -/
def StartedOnce (s : State) : Prop :=
  (s.calls.Pairwise fun c c' => c = .enable → c'.beforeStart = false) ∧
    ∀ recorded, .erase recorded ∈ s.calls → recorded = .none

/-- `start_network` is about to look whether the stack is started. -/
def AtPc.choosing : AtPc → Bool
  | .startStarted _ => true
  | _ => false

/-- `start_network` finds the stack not started only while the settings record no role, and
`zbc_init` finds a role only while the stack is not started. -/
def KnownRole (s : State) : Action → Prop
  | .at_ _ => s.at_.choosing = true → s.stackStarted = false → s.savedRole = .none
  | .main _ _ => s.main = .checkRole → s.storedRole ≠ .none → s.stackStarted = false
  | _ => True

instance (s : State) : ∀ a, Decidable (KnownRole s a)
  | .at_ _ | .main _ _ => by unfold KnownRole; infer_instance
  | .command _ _ | .signal _ | .stack | .reboot => .isTrue trivial

/-- A command that found the stack not started and has not started it. -/
def AtPc.starting : AtPc → Bool
  | .erase _ | .setRole _ | .configure _ | .semReset _ | .setOp _ | .opStarted _
  | .markStarted _ => true
  | _ => false

def AtPc.enabling : AtPc → Bool
  | .enable _ => true
  | _ => false

/-- `zbc_init` found a role and has not started the stack. -/
def MainPc.starting : MainPc → Bool
  | .setRole | .markStarted => true
  | _ => false

/-- Only one thread starts the stack. -/
structure Starts (s : State) : Prop where
  order : StartedOnce s
  starting : s.at_.starting = true →
    s.stackStarted = false ∧ s.savedRole = .none ∧ s.storedRole = .none ∧
      s.main.starting = false
  enabling : s.at_.enabling = true →
    .enable ∉ s.calls ∧ s.main.starting = false ∧ s.main ≠ .enable
  main : s.main.starting = true → s.stackStarted = false ∧ (s.savedRole ≠ .none ∨ s.at_.left = true)
  mainEnabling : s.main = .enable → .enable ∉ s.calls
  synced : s.stackStarted = false → s.at_.left = false → s.storedRole ≠ .none →
    s.savedRole ≠ .none

theorem StartedOnce.append {calls : List Call} (h : StartedOnce s)
    (hnew : calls.Pairwise fun c c' => c = .enable → c'.beforeStart = false)
    (hold : .enable ∈ s.calls → ∀ c ∈ calls, c.beforeStart = false)
    (herase : ∀ recorded, .erase recorded ∈ calls → recorded = .none) :
    StartedOnce { s with calls := s.calls ++ calls } := by
  refine ⟨List.pairwise_append.mpr ⟨h.1, hnew, ?_⟩, ?_⟩
  · rintro c hc c' hc' rfl
    exact hold hc c' hc'
  · intro recorded he
    rcases List.mem_append.mp he with he | he
    · exact h.2 recorded he
    · exact herase recorded he

/-- What is called while the stack is not started comes in order. -/
theorem StartedOnce.append_one {c : Call} (h : StartedOnce s) (hold : .enable ∉ s.calls)
    (herase : ∀ recorded, c = .erase recorded → recorded = .none) :
    StartedOnce { s with calls := s.calls ++ [c] } :=
  h.append (List.pairwise_singleton _ _) (fun he => absurd he hold)
    fun recorded he => herase recorded (List.mem_singleton.mp he).symm

theorem RunOp.not_enabled (hr : RunOp s) (hns : s.stackStarted = false) : .enable ∉ s.calls := by
  intro he
  rw [hr.enabled he] at hns
  cases hns

theorem AtPc.afterStart_of_enabling {pc : AtPc} (h : pc.enabling = true) :
    pc.afterStart = true := by
  cases pc <;> first | rfl | cases h

theorem AtPc.not_enabling {pc : AtPc} (h : pc.starting = true) : pc.enabling = false := by
  cases pc <;> first | rfl | cases h

/-! ## The main thread -/

/-- A step of the main thread that starts nothing. -/
theorem Starts.main_move (h : Starts s) {pc : MainPc} {role : Role} {pendingCmd : Text}
    {pend : Option Text} {injected : List Text} (hpc : pc.starting = false) (hne : pc ≠ .enable)
    (hrole : role = s.storedRole ∨ role = s.savedRole) : Starts { s with
      storedRole := role
      pendingCmd := pendingCmd
      savedPend := pend
      injected := injected
      main := pc } := by
  refine ⟨h.order, ?_, fun he => ⟨(h.enabling he).1, hpc, hne⟩, ?_, fun hp => absurd hp hne, ?_⟩
  · intro hp
    obtain ⟨hns, hsaved, hstored, -⟩ := h.starting hp
    refine ⟨hns, hsaved, ?_, hpc⟩
    rcases hrole with rfl | rfl
    · exact hstored
    · exact hsaved
  · intro hp
    exact absurd hp (ne_true_of_eq_false hpc)
  · intro hns hl hrec
    rcases hrole with rfl | rfl
    · exact h.synced hns hl hrec
    · exact hrec

theorem starts_main {roleFirst : Bool} {mask : UInt32} (hr : RunOp s) (h : Starts s)
    (ha : s.main = .checkRole → s.storedRole ≠ .none → s.stackStarted = false)
    (hs : stepMain roleFirst mask s = some s') : Starts s' := by
  cases hm : s.main with
  | done => rw [stepMain, hm] at hs; cases hs
  | atCmdStart | deletePend | inject =>
    simp only [stepMain, hm] at hs
    cases hs
    exact h.main_move rfl (by simp) (.inl rfl)
  | load role pend =>
    simp only [stepMain, hm] at hs
    split_ifs at hs <;> cases hs
    · exact h.main_move rfl (by simp) (.inr rfl)
    · exact h.main_move rfl (by simp) (.inl rfl)
    · exact h.main_move rfl (by simp) (.inl rfl)
  | checkPend =>
    simp only [stepMain, hm] at hs
    split_ifs at hs <;> cases hs <;> exact h.main_move rfl (by simp) (.inl rfl)
  | checkRole =>
    simp only [stepMain, hm] at hs
    split_ifs at hs with hrec <;> cases hs
    · have hns := ha hm hrec
      refine ⟨h.order, fun hp => absurd (h.starting hp).2.2.1 hrec, ?_, ?_,
        fun hp => (by cases hp), h.synced⟩
      · intro he
        have hst := hr.started (.inr (AtPc.afterStart_of_enabling he))
        rw [hns] at hst
        cases hst
      · intro _
        refine ⟨hns, ?_⟩
        cases hl : s.at_.left with
        | true => exact .inr rfl
        | false => exact .inl (h.synced hns hl hrec)
    · exact h.main_move rfl (by simp) (.inl rfl)
  | setRole =>
    simp only [stepMain, hm] at hs
    cases hs
    obtain ⟨hns, hrec⟩ := h.main (by rw [hm]; rfl)
    have hstart : s.main.starting = true := by rw [hm]; rfl
    have hno := hr.not_enabled hns
    refine ⟨h.order.append_one hno (by simp), ?_, ?_, fun _ => ⟨hns, hrec⟩,
      fun hp => (by cases hp), h.synced⟩
    · intro hp
      have := (h.starting hp).2.2.2
      rw [hstart] at this
      cases this
    · intro he
      have := (h.enabling he).2.1
      rw [hstart] at this
      cases this
  | markStarted =>
    simp only [stepMain, hm] at hs
    cases hs
    have hstart : s.main.starting = true := by rw [hm]; rfl
    have hno := hr.not_enabled (h.main hstart).1
    refine ⟨h.order, ?_, ?_, fun hp => (by cases hp), fun _ => hno, fun hns => (by cases hns)⟩
    · intro hp
      have := (h.starting hp).2.2.2
      rw [hstart] at this
      cases this
    · intro he
      have := (h.enabling he).2.1
      rw [hstart] at this
      cases this
  | enable =>
    simp only [stepMain, hm] at hs
    cases hs
    have hst := hr.started (.inl hm)
    refine ⟨h.order.append_one (h.mainEnabling hm) (by simp), ?_, ?_,
      fun hp => (by cases hp), fun hp => (by cases hp), ?_⟩
    · intro hp
      have := (h.starting hp).1
      rw [hst] at this
      cases this
    · intro he
      exact absurd hm (h.enabling he).2.2
    · intro hns
      rw [hst] at hns
      cases hns

/-! ## The AT thread -/

/-- A step of the AT thread that starts nothing. -/
theorem Starts.at_move (h : Starts s) {pc : AtPc} (hpc : pc.starting = false)
    (hne : pc.enabling = false) (hleft : s.at_.left = true → pc.left = true) {op : Op}
    {done : Bool} {pend : Option Text} {log : List Ev} {rebooted : Option Cause} {line : Text}
    {fresh : Bool} : Starts { s with
      op := op
      opDone := done
      savedPend := pend
      log := log
      rebooted := rebooted
      line := line
      fresh := fresh
      at_ := pc } := by
  refine ⟨h.order, ?_, fun he => absurd he (ne_true_of_eq_false hne), ?_, h.mainEnabling,
    fun hns hl => h.synced hns ?_⟩
  · intro hp
    exact absurd hp (ne_true_of_eq_false hpc)
  · intro hp
    obtain ⟨hns, hrec⟩ := h.main hp
    exact ⟨hns, hrec.imp_right hleft⟩
  · by_contra hc
    rw [show pc.left = true from hleft (by simpa using hc)] at hl
    cases hl

/-- A step of a command that is to start the stack. -/
theorem Starts.start_move (h : Starts s) {pc : AtPc} (hs : s.at_.starting = true)
    (hpc : pc.starting = true) {op : Op} {done : Bool} {calls : List Call}
    (horder : StartedOnce { s with calls := calls }) (hsub : .enable ∉ calls) :
    Starts { s with op := op, opDone := done, calls := calls, at_ := pc } := by
  have hst := h.starting hs
  refine ⟨horder, fun _ => hst, ?_, ?_, fun _ => hsub, ?_⟩
  · intro he
    exact absurd he (ne_true_of_eq_false (AtPc.not_enabling hpc))
  · intro hp
    exact absurd hp (ne_true_of_eq_false hst.2.2.2)
  · intro _ _ hrec
    exact absurd hst.2.2.1 hrec

/-- The command clears the role. -/
theorem Starts.clear_move (h : Starts s) {pc : AtPc} {role saved : Role} (hpc : pc.left = true)
    (hstart : pc.starting = false) (hne : pc.enabling = false) :
    Starts { s with storedRole := role, savedRole := saved, at_ := pc } := by
  refine ⟨h.order, ?_, fun he => absurd he (ne_true_of_eq_false hne),
    fun hp => ⟨(h.main hp).1, .inr hpc⟩, h.mainEnabling, ?_⟩
  · intro hp
    exact absurd hp (ne_true_of_eq_false hstart)
  · intro _ hl
    exact absurd hpc (ne_true_of_eq_false hl)

theorem starts_at {flag : Bool} (hr : RunOp s) (h : Starts s)
    (ha : s.at_.choosing = true → s.stackStarted = false → s.savedRole = .none)
    (hs : stepAt flag s = some s') : Starts s' := by
  -- Outside of `leave_network` there is nothing to keep of it.
  have hleft : s.at_.left = false → ∀ pc : AtPc, s.at_.left = true → pc.left = true :=
    fun hf _ hl => absurd hl (ne_true_of_eq_false hf)
  cases hat : s.at_ with
  | idle => rw [stepAt, hat] at hs; cases hs
  | deferSave | timedOut q | readResult | ret result | leaveReset k | leaveOp k
  | leaveTimedOut k =>
    simp only [stepAt, hat] at hs
    cases hs
    exact h.at_move rfl rfl (hleft (by rw [hat]; rfl) _)
  | startRole q | take q | leaveJoined k | leaveTake k =>
    simp only [stepAt, hat] at hs
    split_ifs at hs <;> cases hs <;> exact h.at_move rfl rfl (hleft (by rw [hat]; rfl) _)
  | leaveRole k =>
    simp only [stepAt, hat] at hs
    cases k <;> split_ifs at hs <;> cases hs <;>
      exact h.at_move rfl rfl (hleft (by rw [hat]; rfl) _)
  | deletePend cause | reboot cause =>
    simp only [stepAt, hat] at hs
    cases hs
    exact h.at_move rfl rfl (by rw [hat]; exact id)
  | answer cause =>
    simp only [stepAt, hat] at hs
    split_ifs at hs <;> cases hs
    · exact h.at_move rfl rfl fun _ => rfl
    · exact h.at_move rfl rfl (by rw [hat]; exact id)
  | printLeft =>
    simp only [stepAt, hat] at hs
    split_ifs at hs <;> cases hs <;> exact h.at_move rfl rfl fun _ => rfl
  | clearStored k =>
    simp only [stepAt, hat] at hs
    cases hs
    exact h.clear_move rfl rfl rfl
  | clearSave k =>
    simp only [stepAt, hat] at hs
    cases k <;> cases hs <;> exact h.clear_move rfl rfl rfl
  | startStarted q =>
    simp only [stepAt, hat] at hs
    split_ifs at hs with hst <;> cases hs
    · exact h.at_move rfl rfl (hleft (by rw [hat]; rfl) _)
    · have hns : s.stackStarted = false := by simpa using hst
      have hsaved := ha (by rw [hat]; rfl) hns
      have hl : s.at_.left = false := by rw [hat]; rfl
      have hstored : s.storedRole = .none := by
        by_contra hrec
        exact h.synced hns hl hrec hsaved
      have hmain : s.main.starting = false := by
        by_contra hm
        rcases (h.main (by simpa using hm)).2 with hrec | hl'
        · exact hrec hsaved
        · exact absurd hl' (ne_true_of_eq_false hl)
      refine ⟨h.order, fun _ => ⟨hns, hsaved, hstored, hmain⟩, fun he => (by cases he),
        fun hp => absurd hp (ne_true_of_eq_false hmain), h.mainEnabling,
        fun _ _ hrec => absurd hstored hrec⟩
  | erase q =>
    simp only [stepAt, hat] at hs
    cases hs
    obtain ⟨hns, hsaved, -⟩ := h.starting (by rw [hat]; rfl)
    have hno := hr.not_enabled hns
    refine h.start_move (by rw [hat]; rfl) rfl (h.order.append_one hno ?_) (by simpa using hno)
    rintro _ ⟨⟩
    exact hsaved
  | setRole q =>
    simp only [stepAt, hat] at hs
    cases hs
    have hno := hr.not_enabled (h.starting (by rw [hat]; rfl)).1
    exact h.start_move (by rw [hat]; rfl) rfl (h.order.append_one hno (by simp))
      (by simpa using hno)
  | configure q =>
    simp only [stepAt, hat] at hs
    cases hs
    have hno := hr.not_enabled (h.starting (by rw [hat]; rfl)).1
    have hcfg : ∀ c ∈ q.config, c.beforeStart = false := fun _ => beforeStart_config q
    refine h.start_move (by rw [hat]; rfl) rfl (h.order.append ?_ (fun _ => hcfg) fun r he => ?_) ?_
    · exact List.pairwise_of_forall_mem_list fun _ _ c' hc' _ => hcfg c' hc'
    · cases hcfg _ he
    · intro he
      rcases List.mem_append.mp he with he | he
      · exact hno he
      · cases hcfg _ he
  | semReset q | setOp q =>
    simp only [stepAt, hat] at hs
    cases hs
    exact h.start_move (by rw [hat]; rfl) rfl h.order
      (hr.not_enabled (h.starting (by rw [hat]; rfl)).1)
  | opStarted q =>
    simp only [stepAt, hat] at hs
    have hns := (h.starting (by rw [hat]; rfl)).1
    rw [if_neg (by simp [hns])] at hs
    cases hs
    exact h.start_move (by rw [hat]; rfl) rfl h.order (hr.not_enabled hns)
  | markStarted q =>
    simp only [stepAt, hat] at hs
    cases hs
    obtain ⟨hns, -, -, hmain⟩ := h.starting (by rw [hat]; rfl)
    refine ⟨h.order, fun hp => (by cases hp), fun _ => ⟨hr.not_enabled hns, hmain, ?_⟩,
      fun hp => absurd hp (ne_true_of_eq_false hmain), h.mainEnabling, fun hst => (by cases hst)⟩
    intro hm
    have hst := hr.started (.inl hm)
    rw [hns] at hst
    cases hst
  | enable q =>
    simp only [stepAt, hat] at hs
    cases hs
    obtain ⟨hno, hmain, hne⟩ := h.enabling (by rw [hat]; rfl)
    have hst := hr.started (.inr (by rw [hat]; rfl))
    refine ⟨h.order.append_one hno (by simp), fun hp => (by cases hp), fun he => (by cases he),
      fun hp => absurd hp (ne_true_of_eq_false hmain), fun hm => absurd hm hne, ?_⟩
    intro hns
    rw [hst] at hns
    cases hns
  | leaveSchedule k =>
    simp only [stepAt, hat] at hs
    cases hs
    refine ⟨h.order.append (List.pairwise_singleton _ _) ?_ ?_,
      fun hp => (by cases hp), fun he => (by cases he), ?_, ?_, ?_⟩
    · intro _ c hc
      cases List.mem_singleton.mp hc
      rfl
    · intro r he
      cases List.mem_singleton.mp he
    · intro hp
      obtain ⟨hns, hrec⟩ := h.main hp
      exact ⟨hns, hrec.imp_right (hleft (by rw [hat]; rfl) _)⟩
    · intro hm
      simpa using h.mainEnabling hm
    · intro hns _
      exact h.synced hns (by rw [hat]; rfl)

/-! ## Every run -/

/-- The stack thread runs only once the stack is started. -/
theorem starts_stack (hr : RunOp s) (h : Starts s) (hs : stepStack s = some s') : Starts s' := by
  obtain ⟨hat, hmain, hstart, hcalls, -⟩ := stepStack_frame hs
  have hst : s.stackStarted = true := by
    refine hr.enabled (hr.handling fun hidle => ?_)
    rw [stepStack, hidle] at hs
    cases hs
  refine ⟨?_, ?_, ?_, ?_, ?_, ?_⟩
  · unfold StartedOnce
    rw [hcalls]
    exact h.order
  · intro hp
    rw [hat] at hp
    exact absurd hst (ne_true_of_eq_false (h.starting hp).1)
  · intro he
    rw [hcalls, hmain]
    exact h.enabling (hat ▸ he)
  · intro hp
    rw [hmain] at hp
    exact absurd hst (ne_true_of_eq_false (h.main hp).1)
  · intro hm
    rw [hcalls]
    exact h.mainEnabling (hmain ▸ hm)
  · intro hns
    rw [hstart, hst] at hns
    cases hns

theorem starts_step (hr : RunOp s) (h : Starts s) (ha : KnownRole s a) (hs : step s a = some s') :
    Starts s' := by
  obtain ⟨-, hs⟩ := step_move hs
  cases a with
  | main roleFirst mask => exact starts_main hr h ha hs
  | command line cmd =>
    simp only [move] at hs
    split_ifs at hs with hc
    cases hs
    refine h.at_move (by cases cmd <;> rfl) (by cases cmd <;> rfl) fun hl => ?_
    rw [hc.1] at hl
    cases hl
  | at_ flag => exact starts_at hr h ha hs
  | signal g =>
    simp only [move] at hs
    split_ifs at hs
    cases hs
    exact ⟨h.order, h.starting, h.enabling, h.main, h.mainEnabling, h.synced⟩
  | stack => exact starts_stack hr h hs
  | reboot =>
    simp only [move] at hs
    split_ifs at hs
    cases hs
    exact ⟨h.order, h.starting, h.enabling, h.main, h.mainEnabling, h.synced⟩

theorem starts_reach (h : machine.ReachIf KnownRole s) : Starts s := by
  refine h.invariant_of RunOp Starts (fun _ => runOp_reach) ?_
    fun _ _ _ hr _ hb ha hs => starts_step hr hb ha hs
  rintro _ ⟨role, pend, rfl⟩
  exact ⟨⟨List.Pairwise.nil, nofun⟩, nofun, nofun, nofun, nofun, fun _ _ hrec => absurd rfl hrec⟩

/-- **Started once.** In a run in which `start_network` finds the stack not started only while no
role is recorded, and `zbc_init` finds a role only while the stack is not started, the stack is
started at most once, with its role fixed before, and no recorded network is erased. -/
theorem started_once (h : machine.ReachIf KnownRole s) : StartedOnce s := (starts_reach h).order

theorem formRun_execIf : ((machine.execIf KnownRole (init .none none) formRun).map State.calls) =
    some [.erase .none, .setRole .zc 0x07FFF800, .enable] := by
  decide

theorem started_once_form : ∃ s : State,
    s.calls = [.erase .none, .setRole .zc 0x07FFF800, .enable] ∧ StartedOnce s := by
  obtain ⟨s, he, hs⟩ := Option.map_eq_some_iff.mp formRun_execIf
  exact ⟨s, hs, started_once (.execIf (.init ⟨_, _, rfl⟩) he)⟩

/-- `AT+JN` on a recorded router, taken up before `zbc_init` loads the role: both threads start the
stack. -/
def earlyJoinRun : List Action :=
  .main true 0 :: .command [] (.jn anyRegs) :: List.replicate 8 (.at_ false) ++
    List.replicate 8 (.main true 0) ++ List.replicate 2 (.at_ false)

theorem earlyJoinRun_exec : ((machine.exec (init .zr none) earlyJoinRun).map State.calls) =
    some [.erase .zr, .setRole .zr 0x07FFF800, .setRole .zr 0, .enable, .enable] := by
  decide

/-- The recorded network is erased, and the stack is started twice. -/
theorem not_started_once : ¬ ∀ s, machine.Reach s → StartedOnce s := by
  intro h
  obtain ⟨s, he, hs⟩ := Option.map_eq_some_iff.mp earlyJoinRun_exec
  have herase := (h s (Machine.Reach.exec (.init ⟨_, _, rfl⟩) he)).2 .zr
  rw [hs] at herase
  cases herase List.mem_cons_self

end ZbAt.Zbc
