import ZbAt.Machine
import ZbAt.Sreg

/-!
# Join control of the coordinator (zb_core.c)

`S0A` decides who may join. The AT thread writes it at any time; the ZBOSS thread applies it from
scheduled callbacks, from the refresh alarm that keeps the network open, and from two signals.

* `machine` — the callbacks, alarms and signals in any order, from `network_up` on. The calls that
  schedule something may fail, also in `network_up`, which the program ignores.
* `reopening_pending` — a network that may accept nodes is always about to be reopened, as long as
  those calls succeed.
* `policy_applied` — once its callbacks have run, the Trust Centre has the policy of `S0A`.
* `closed_kept` — when bit 5 keeps the network closed.
-/

namespace ZbAt.JoinPolicy

open Sreg

/-! ## The callbacks -/

/-- `S0A_BLOCK_JOIN_LOCAL`, `S0A_NO_UNSECURE_REJOIN`, `S0A_ENCRYPT_NWK_KEY` and
`S0A_BLOCK_JOIN_TC` -/
def s0aBlockJoinLocal : ℕ := 0x0
def s0aNoUnsecureRejoin : ℕ := 0x3
def s0aEncryptNwkKey : ℕ := 0x4
def s0aBlockJoinTc : ℕ := 0x5

/-- `PERMIT_JOIN_REFRESH_S`, and the delay after a failure. -/
def permitJoinRefreshS : ℕ := 150
def permitJoinRetryS : ℕ := 5

/-- What `zbc_tc_rejoin_apply`, `zbc_tc_unencrypted_key_transport` and
`zbc_tc_authenticate_always` were last given. -/
structure TcPolicy where
  rejoin : Bool
  unencryptedKeyTransport : Bool
  authenticateAlways : Bool
  deriving DecidableEq

/-- The policy that the registers ask for. -/
def policyOf (v : Vals) : TcPolicy where
  rejoin := !sregBit 0x0A s0aNoUnsecureRejoin v
  unencryptedKeyTransport := !sregBit 0x0A s0aEncryptNwkKey v
  authenticateAlways := sregBit 0x0A s0aBlockJoinLocal v

/-- `writing`: the AT thread has stored a value of `S0A` and has not yet called `sreg_written`.
`alarms` are the delays of the pending `permit_join_refresh` alarms, the counts those of the other
scheduled callbacks. `steering` counts the steerings whose signal is to come. `opened`: a
`PERMIT_JOIN_STATUS` above 0 was handled since the last close request. -/
structure State where
  vals : Vals
  writing : Bool
  apply : ℕ
  refresh : ℕ
  closeNetwork : ℕ
  closeLocal : ℕ
  alarms : List ℕ
  steering : ℕ
  tc : TcPolicy
  opened : Bool

def State.bit (s : State) (bit : ℕ) : Bool := sregBit 0x0A bit s.vals

/-- `permit_join_send`: a permit-joining request with duration 0, unless ZBOSS has no transaction
number for it. -/
def permitJoinSend (sent : Bool) (s : State) : State :=
  if sent then { s with opened := false } else s

/-- `permit_join_refresh`; `started` is what `bdb_start_top_level_commissioning` returns, and
`scheduled` says whether the alarm can be set. -/
def permitJoinRefresh (started scheduled : Bool) (s : State) : State :=
  if s.bit s0aBlockJoinTc then s
  else if started then { s with steering := s.steering + 1 }
  else if scheduled then { s with alarms := permitJoinRetryS :: s.alarms }
  else s

/-- `join_policy_apply`; `remaining` are the alarms that the cancel leaves, and `scheduled` says
whether the call of `zb_buf_get_out_delayed` or of `ZB_SCHEDULE_APP_CALLBACK` succeeds. -/
def joinPolicyApply (joined isZc scheduled : Bool) (remaining : List ℕ) (s : State) : State :=
  if !joined then s
  else if isZc then
    let s := { s with tc := policyOf s.vals, alarms := remaining }
    if s.bit s0aBlockJoinTc then { s with closeNetwork := s.closeNetwork + scheduled.toNat }
    else { s with refresh := s.refresh + scheduled.toNat }
  else if s.bit s0aBlockJoinLocal then { s with closeLocal := s.closeLocal + scheduled.toNat }
  else s

/-- `sreg_written` -/
def sregWritten (id : ℕ) (joined scheduled : Bool) (s : State) : State :=
  if id == 0x0A && joined then { s with apply := s.apply + scheduled.toNat } else s

/-- `STEERING` on the coordinator. -/
def steeringSignal (success scheduled : Bool) (remaining : List ℕ) (s : State) : State :=
  { s with alarms :=
      if scheduled then (if success then permitJoinRefreshS else permitJoinRetryS) :: remaining
      else remaining }

/-- `PERMIT_JOIN_STATUS` -/
def permitJoinStatus (duration : UInt8) (scheduled : Bool) (s : State) : State :=
  if duration > 0 && s.bit s0aBlockJoinLocal then
    { s with closeLocal := s.closeLocal + scheduled.toNat }
  else s

/-! ## The machine -/

inductive Action
  /-- The AT thread stores a value of `S0A`. -/
  | store (vals : Vals)
  /-- The AT thread calls `sreg_written`. -/
  | written (scheduled : Bool)
  | apply (remaining : List ℕ) (scheduled : Bool)
  | refresh (started scheduled : Bool)
  | closeNetwork (sent : Bool)
  | closeLocal (sent : Bool)
  /-- The `i`-th alarm fires. -/
  | alarm (i : ℕ) (started scheduled : Bool)
  /-- The signal that ends a steering, ours or another. -/
  | steering (success : Bool) (remaining : List ℕ) (scheduled : Bool)
  | permitJoinStatus (duration : UInt8) (scheduled : Bool)

/-- A joined coordinator. -/
def step (s : State) : Action → Option State
  | .store vals => if s.writing then none else some { s with vals := vals, writing := true }
  | .written scheduled =>
    if s.writing then some (sregWritten 0x0A true scheduled { s with writing := false }) else none
  | .apply remaining scheduled =>
    if 0 < s.apply ∧ remaining.Sublist s.alarms then
      some (joinPolicyApply true true scheduled remaining { s with apply := s.apply - 1 })
    else none
  | .refresh started scheduled =>
    if 0 < s.refresh then
      some (permitJoinRefresh started scheduled { s with refresh := s.refresh - 1 })
    else none
  | .closeNetwork sent =>
    if 0 < s.closeNetwork then
      some (permitJoinSend sent { s with closeNetwork := s.closeNetwork - 1 })
    else none
  | .closeLocal sent =>
    if 0 < s.closeLocal then some (permitJoinSend sent { s with closeLocal := s.closeLocal - 1 })
    else none
  | .alarm i started scheduled =>
    if i < s.alarms.length then
      some (permitJoinRefresh started scheduled { s with alarms := s.alarms.eraseIdx i })
    else none
  | .steering success remaining scheduled =>
    if remaining.Sublist s.alarms then
      some (steeringSignal success scheduled remaining { s with steering := s.steering - 1 })
    else none
  | .permitJoinStatus duration scheduled =>
    some (permitJoinStatus duration scheduled { s with opened := s.opened || duration > 0 })

/-- After `network_up`: the policy is to be applied if its callback could be scheduled (`up`), and
nothing else is pending. If it could not, the network was not opened before. -/
structure NetworkUp (up : Bool) (s : State) : Prop where
  apply : s.apply = up.toNat
  refresh : s.refresh = 0
  closeNetwork : s.closeNetwork = 0
  closeLocal : s.closeLocal = 0
  alarms : s.alarms = []
  steering : s.steering = 0
  opened : up = false → s.opened = false

def machine (up : Bool) : Machine State Action := ⟨NetworkUp up, step⟩

/-! ## What the callbacks do -/

section

variable {s s' : State}

/-- The refresh starts a steering, sets an alarm, or leaves a closed network alone; or it fails to
set the alarm. -/
theorem permitJoinRefresh_cases (started scheduled : Bool) (s : State) :
    (s.bit s0aBlockJoinTc = true ∨ scheduled = false) ∧ permitJoinRefresh started scheduled s = s ∨
    s.bit s0aBlockJoinTc = false ∧
      (permitJoinRefresh started scheduled s = { s with steering := s.steering + 1 } ∨
        permitJoinRefresh started scheduled s =
          { s with alarms := permitJoinRetryS :: s.alarms }) := by
  unfold permitJoinRefresh
  cases hb : s.bit s0aBlockJoinTc with
  | true => exact .inl ⟨.inl rfl, if_pos rfl⟩
  | false =>
    rw [if_neg Bool.false_ne_true]
    cases started with
    | true => exact .inr ⟨rfl, .inl rfl⟩
    | false =>
      cases scheduled with
      | true => exact .inr ⟨rfl, .inr rfl⟩
      | false => exact .inl ⟨.inr rfl, rfl⟩

/-- A step, action by action, where the actions of one callback are told apart by `S0A`. -/
inductive Stepped (s : State) : Action → State → Prop
  | store (vals : Vals) (h : s.writing = false) :
    Stepped s (.store vals) { s with vals := vals, writing := true }
  | written (scheduled : Bool) (h : s.writing = true) :
    Stepped s (.written scheduled)
      { s with writing := false, apply := s.apply + scheduled.toNat }
  | applyClosed {remaining : List ℕ} (scheduled : Bool) (h : 0 < s.apply)
      (hb : s.bit s0aBlockJoinTc = true) :
    Stepped s (.apply remaining scheduled)
      { s with apply := s.apply - 1, tc := policyOf s.vals, alarms := remaining,
               closeNetwork := s.closeNetwork + scheduled.toNat }
  | applyOpen {remaining : List ℕ} (scheduled : Bool) (h : 0 < s.apply)
      (hb : s.bit s0aBlockJoinTc = false) :
    Stepped s (.apply remaining scheduled)
      { s with apply := s.apply - 1, tc := policyOf s.vals, alarms := remaining,
               refresh := s.refresh + scheduled.toNat }
  | refresh (started scheduled : Bool) (h : 0 < s.refresh) :
    Stepped s (.refresh started scheduled)
      (permitJoinRefresh started scheduled { s with refresh := s.refresh - 1 })
  | closeNetwork (sent : Bool) (h : 0 < s.closeNetwork) :
    Stepped s (.closeNetwork sent)
      { s with closeNetwork := s.closeNetwork - 1, opened := !sent && s.opened }
  | closeLocal (sent : Bool) (h : 0 < s.closeLocal) :
    Stepped s (.closeLocal sent)
      { s with closeLocal := s.closeLocal - 1, opened := !sent && s.opened }
  | alarm {i : ℕ} (started scheduled : Bool) (h : i < s.alarms.length) :
    Stepped s (.alarm i started scheduled)
      (permitJoinRefresh started scheduled { s with alarms := s.alarms.eraseIdx i })
  | steering (success : Bool) (remaining : List ℕ) (scheduled : Bool) :
    Stepped s (.steering success remaining scheduled)
      (steeringSignal success scheduled remaining { s with steering := s.steering - 1 })
  | statusLocal {duration : UInt8} (scheduled : Bool) (hd : 0 < duration)
      (hb : s.bit s0aBlockJoinLocal = true) :
    Stepped s (.permitJoinStatus duration scheduled)
      { s with opened := true, closeLocal := s.closeLocal + scheduled.toNat }
  | statusOpen {duration : UInt8} {scheduled : Bool} (hd : 0 < duration)
      (hb : s.bit s0aBlockJoinLocal = false) :
    Stepped s (.permitJoinStatus duration scheduled) { s with opened := true }
  | statusZero {scheduled : Bool} : Stepped s (.permitJoinStatus 0 scheduled) s

theorem permitJoinSend_eq (sent : Bool) (s : State) :
    permitJoinSend sent s = { s with opened := !sent && s.opened } := by
  cases sent <;> rfl

theorem step_stepped {a : Action} (h : step s a = some s') : Stepped s a s' := by
  cases a with
  | store vals =>
    simp only [step] at h
    split_ifs at h with hw
    obtain rfl := Option.some.inj h
    exact .store vals (by simpa using hw)
  | written scheduled =>
    simp only [step] at h
    split_ifs at h with hw
    obtain rfl := Option.some.inj h
    exact .written scheduled hw
  | apply remaining scheduled =>
    simp only [step] at h
    split_ifs at h with hg
    obtain rfl := Option.some.inj h
    cases hb : s.bit s0aBlockJoinTc with
    | true =>
      have hb' : sregBit 0x0A s0aBlockJoinTc s.vals = true := hb
      simp only [joinPolicyApply, State.bit, hb', Bool.not_true, Bool.false_eq_true, if_false,
        if_true]
      exact .applyClosed scheduled hg.1 hb
    | false =>
      have hb' : sregBit 0x0A s0aBlockJoinTc s.vals = false := hb
      simp only [joinPolicyApply, State.bit, hb', Bool.not_true, Bool.false_eq_true, if_false,
        if_true]
      exact .applyOpen scheduled hg.1 hb
  | refresh started scheduled =>
    simp only [step] at h
    split_ifs at h with hg
    obtain rfl := Option.some.inj h
    exact .refresh started scheduled hg
  | closeNetwork sent =>
    simp only [step, permitJoinSend_eq] at h
    split_ifs at h with hg
    obtain rfl := Option.some.inj h
    exact .closeNetwork sent hg
  | closeLocal sent =>
    simp only [step, permitJoinSend_eq] at h
    split_ifs at h with hg
    obtain rfl := Option.some.inj h
    exact .closeLocal sent hg
  | alarm i started scheduled =>
    simp only [step] at h
    split_ifs at h with hg
    obtain rfl := Option.some.inj h
    exact .alarm started scheduled hg
  | steering success remaining scheduled =>
    simp only [step] at h
    split_ifs at h with hg
    obtain rfl := Option.some.inj h
    exact .steering success remaining scheduled
  | permitJoinStatus duration scheduled =>
    obtain rfl := Option.some.inj h
    by_cases hd : 0 < duration
    · cases hb : s.bit s0aBlockJoinLocal with
      | true =>
        have hb' : sregBit 0x0A s0aBlockJoinLocal s.vals = true := hb
        simp only [permitJoinStatus, State.bit, hb', hd, decide_true, Bool.or_true,
          Bool.and_true, if_true]
        exact .statusLocal scheduled hd hb
      | false =>
        have hb' : sregBit 0x0A s0aBlockJoinLocal s.vals = false := hb
        simp only [permitJoinStatus, State.bit, hb', hd, decide_true, Bool.or_true,
          Bool.and_false, Bool.false_eq_true, if_false]
        exact .statusOpen hd hb
    · obtain rfl : duration = 0 := by
        rw [UInt8.lt_iff_toNat_lt, UInt8.toNat_zero, Nat.not_lt, Nat.le_zero] at hd
        exact UInt8.toNat_inj.mp hd
      simp only [permitJoinStatus, gt_iff_lt, hd, decide_false, Bool.or_false, Bool.false_and,
        Bool.false_eq_true, if_false]
      exact .statusZero

end

/-! ## A network that may accept nodes -/

/-- Something that reopens the network is under way. -/
def Reopening (s : State) : Prop :=
  0 < s.apply ∨ 0 < s.refresh ∨ s.alarms ≠ [] ∨ 0 < s.steering ∨ s.writing = true

/-- The calls that schedule the policy, the refresh and its alarms succeed. (Close requests may
fail.) -/
def Scheduled (s : State) : Action → Prop
  | .written scheduled | .refresh _ scheduled | .alarm _ _ scheduled
  | .steering _ _ scheduled => scheduled = true
  | .apply _ scheduled => s.bit s0aBlockJoinTc = false → scheduled = true
  | .store _ | .closeNetwork _ | .closeLocal _ | .permitJoinStatus _ _ => True

instance (s : State) : ∀ a, Decidable (Scheduled s a)
  | .written _ | .refresh _ _ | .alarm _ _ _ | .steering _ _ _ | .apply _ _ => by
    unfold Scheduled; infer_instance
  | .store _ | .closeNetwork _ | .closeLocal _ | .permitJoinStatus _ _ => .isTrue trivial

/-- Bit 5 is set or the network is about to be reopened; the policy is that of `S0A` or about to
be applied. -/
structure Inv (s : State) : Prop where
  reopening : s.bit s0aBlockJoinTc = false → Reopening s
  policy : 0 < s.apply ∨ s.writing = true ∨ s.tc = policyOf s.vals

/-- A refresh of an open network leaves a steering or an alarm. -/
theorem inv_refresh (started : Bool) {scheduled : Bool} {s : State} (hc : scheduled = true)
    (h : 0 < s.apply ∨ s.writing = true ∨ s.tc = policyOf s.vals) :
    Inv (permitJoinRefresh started scheduled s) := by
  rcases permitJoinRefresh_cases started scheduled s with ⟨hb, hsame⟩ | ⟨-, hst | hal⟩
  · rw [hsame]
    have hclosed := hb.resolve_right (by simp [hc])
    exact ⟨fun hopen => absurd hclosed (ne_true_of_eq_false hopen), h⟩
  · rw [hst]
    exact ⟨fun _ => by simp [Reopening], h⟩
  · rw [hal]
    exact ⟨fun _ => by simp [Reopening], h⟩

theorem inv_step {s s' : State} {a : Action} (h : Inv s) (hc : Scheduled s a)
    (hs : step s a = some s') : Inv s' := by
  cases step_stepped hs with
  | store vals hw => exact ⟨fun _ => by simp [Reopening], by simp⟩
  | written scheduled hw =>
    obtain rfl : scheduled = true := hc
    exact ⟨fun _ => .inl (Nat.succ_pos _), .inl (Nat.succ_pos _)⟩
  | applyClosed scheduled hpos hb =>
    refine ⟨fun hopen => ?_, .inr (.inr rfl)⟩
    exact absurd hb (ne_true_of_eq_false hopen)
  | applyOpen scheduled hpos hb =>
    obtain rfl : scheduled = true := hc hb
    exact ⟨fun _ => .inr (.inl (Nat.succ_pos _)), .inr (.inr rfl)⟩
  | refresh started scheduled hpos => exact inv_refresh started hc h.policy
  | closeNetwork sent hpos => exact ⟨h.reopening, h.policy⟩
  | closeLocal sent hpos => exact ⟨h.reopening, h.policy⟩
  | alarm started scheduled hi => exact inv_refresh started hc h.policy
  | steering success remaining scheduled =>
    obtain rfl : scheduled = true := hc
    exact ⟨fun _ => by simp [Reopening, steeringSignal], h.policy⟩
  | statusLocal scheduled hd hb => exact ⟨h.reopening, h.policy⟩
  | statusOpen hd hb => exact ⟨h.reopening, h.policy⟩
  | statusZero => exact h

theorem inv_reach {s : State} (h : (machine true).ReachIf Scheduled s) : Inv s :=
  Machine.ReachIf.invariant Inv
    (fun s h0 => ⟨fun _ => .inl (by rw [h0.apply]; exact Nat.one_pos),
      .inl (by rw [h0.apply]; exact Nat.one_pos)⟩)
    (fun s a s' hP hc hs => inv_step hP hc hs) h

/-- **Reopening.** As long as scheduling succeeds: with bit 5 clear, no steering in progress and no
write of `S0A` in progress, the policy is to be applied, or the refresh is scheduled or has its
alarm. -/
theorem reopening_pending {s : State} (h : (machine true).ReachIf Scheduled s)
    (hopen : s.bit s0aBlockJoinTc = false) (hst : s.steering = 0) (hw : s.writing = false) :
    0 < s.apply ∨ 0 < s.refresh ∨ s.alarms ≠ [] := by
  rcases (inv_reach h).reopening hopen with ha | hr | hal | hs | hwr
  · exact .inl ha
  · exact .inr (.inl hr)
  · exact .inr (.inr hal)
  · omega
  · rw [hw] at hwr
    cases hwr

/-- **The policy.** As long as scheduling succeeds: with no write in progress and nothing to be
applied, the Trust Centre has the policy of `S0A`. -/
theorem policy_applied {s : State} (h : (machine true).ReachIf Scheduled s)
    (hw : s.writing = false) (ha : s.apply = 0) : s.tc = policyOf s.vals := by
  rcases (inv_reach h).policy with hpos | hwr | htc
  · omega
  · rw [hw] at hwr
    cases hwr
  · exact htc

/-- The default registers, and those with bit 5 of `S0A`. -/
def openVals : Vals := loadDefaults
def closedVals : Vals := Function.update loadDefaults ⟨8, by decide⟩ (Text.ascii "0020")

/-- After `network_up` with these registers. -/
def networkUp (vals : Vals) : State := ⟨vals, false, 1, 0, 0, 0, [], 0, policyOf vals, false⟩

theorem networkUp_init (vals : Vals) : (machine true).init (networkUp vals) :=
  ⟨rfl, rfl, rfl, rfl, rfl, rfl, nofun⟩

/-- Bit 3 of `S0A`: no unsecured rejoin. -/
def rejoinVals : Vals := Function.update loadDefaults ⟨8, by decide⟩ (Text.ascii "0008")

/-- The rejoin bit is written while the policy of `network_up` is still to be applied. -/
def rejoinRun : List Action :=
  [.store rejoinVals, .apply [] true, .written true, .refresh true true, .apply [] true]

theorem rejoinRun_execIf :
    ((machine true).execIf Scheduled (networkUp openVals) rejoinRun).map (fun s =>
      (s.writing, s.apply, s.tc.rejoin)) = some (false, 0, false) := by
  decide

theorem policy_applied_run : ∃ s, (machine true).ReachIf Scheduled s ∧ s.tc.rejoin = false ∧
    s.tc = policyOf s.vals := by
  obtain ⟨s, he, hs⟩ := Option.map_eq_some_iff.mp rejoinRun_execIf
  simp only [Prod.mk.injEq] at hs
  have hr : (machine true).ReachIf Scheduled s := .execIf (.init (networkUp_init _)) he
  exact ⟨s, hr, hs.2.2, policy_applied hr hs.1 hs.2.1⟩

/-- Bit 5 is set while the refresh has an alarm, which the write cancels; the close request fails,
and bit 5 is cleared again. -/
def reopenRun : List Action :=
  [.apply [] true, .refresh false true, .store closedVals, .written true, .apply [] true,
    .closeNetwork false, .store openVals, .written true]

theorem reopenRun_execIf :
    ((machine true).execIf Scheduled (networkUp openVals) reopenRun).map (fun s =>
      (s.bit s0aBlockJoinTc, s.steering, s.writing, s.alarms)) = some (false, 0, false, []) := by
  decide

theorem reopening_pending_run : ∃ s, (machine true).ReachIf Scheduled s ∧ s.alarms = [] ∧
    (0 < s.apply ∨ 0 < s.refresh ∨ s.alarms ≠ []) := by
  obtain ⟨s, he, hs⟩ := Option.map_eq_some_iff.mp reopenRun_execIf
  simp only [Prod.mk.injEq] at hs
  have hr : (machine true).ReachIf Scheduled s := .execIf (.init (networkUp_init _)) he
  exact ⟨s, hr, hs.2.2.2, reopening_pending hr hs.1 hs.2.1 hs.2.2.1⟩

/-! ## A network that is to stay closed -/

/-- A close request is scheduled, or the callback or the write that schedules it is to come. -/
def Closing (s : State) : Prop :=
  s.writing = true ∨ 0 < s.apply ∨ 0 < s.closeNetwork ∨ 0 < s.closeLocal

/-- All scheduled callbacks have run, and no write of `S0A` is in progress. -/
structure Settled (s : State) : Prop where
  writing : s.writing = false
  apply : s.apply = 0
  refresh : s.refresh = 0
  closeNetwork : s.closeNetwork = 0
  closeLocal : s.closeLocal = 0

/-- Bit 5 is set, and the network was opened since the last close request. -/
def State.forbidden (s : State) : Bool := s.bit s0aBlockJoinTc && s.opened

/-- An opening of the network that bit 5 forbids comes while a close request is still to come, or
bit 0 schedules one. While such an opening stands, no call that leads to a close request fails
(`sreg_written`, `join_policy_apply`, and the request itself), unless another one is to come. -/
def Covered (s : State) : Action → Prop
  | .permitJoinStatus duration scheduled => 0 < duration → s.bit s0aBlockJoinTc = true →
      s.bit s0aBlockJoinLocal = true ∧ scheduled = true ∨ Closing s
  | .written scheduled =>
    s.forbidden = true → scheduled = true ∨ Closing { s with writing := false }
  | .apply _ scheduled =>
    s.forbidden = true → scheduled = true ∨ Closing { s with apply := s.apply - 1 }
  | .closeNetwork sent =>
    s.forbidden = true → sent = true ∨ Closing { s with closeNetwork := s.closeNetwork - 1 }
  | .closeLocal sent =>
    s.forbidden = true → sent = true ∨ Closing { s with closeLocal := s.closeLocal - 1 }
  | .store _ | .refresh _ _ | .alarm _ _ _ | .steering _ _ _ => True

instance (s : State) : Decidable (Closing s) := inferInstanceAs (Decidable (_ ∨ _))

instance (s : State) : ∀ a, Decidable (Covered s a)
  | .permitJoinStatus _ _ | .written _ | .apply _ _ | .closeNetwork _ | .closeLocal _ => by
    unfold Covered; infer_instance
  | .store _ | .refresh _ _ | .alarm _ _ _ | .steering _ _ _ => .isTrue trivial

/-- With bit 5 set, an open network is about to be closed. -/
def Kept (s : State) : Prop := s.forbidden = true → Closing s

theorem kept_refresh (started scheduled : Bool) {s : State} (h : Kept s) :
    Kept (permitJoinRefresh started scheduled s) := by
  rcases permitJoinRefresh_cases started scheduled s with ⟨-, hsame⟩ | ⟨-, hst | hal⟩
  · rw [hsame]
    exact h
  · rw [hst]
    exact h
  · rw [hal]
    exact h

theorem forbidden_iff {s : State} :
    s.forbidden = true ↔ s.bit s0aBlockJoinTc = true ∧ s.opened = true := by
  rw [State.forbidden, Bool.and_eq_true]

theorem kept_step {s s' : State} {a : Action} (h : Kept s) (hc : Covered s a)
    (hs : step s a = some s') : Kept s' := by
  cases step_stepped hs with
  | store vals hw => exact fun _ => .inl rfl
  | written scheduled hw =>
    intro hopen
    cases scheduled with
    | true => exact .inr (.inl (Nat.succ_pos _))
    | false => exact (hc hopen).resolve_left Bool.false_ne_true
  | applyClosed scheduled hpos hb =>
    intro hopen
    cases scheduled with
    | true => exact .inr (.inr (.inl (Nat.succ_pos _)))
    | false => exact (hc hopen).resolve_left Bool.false_ne_true
  | applyOpen scheduled hpos hb =>
    intro hopen
    exact absurd (forbidden_iff.mp hopen).1 (ne_true_of_eq_false hb)
  | refresh started scheduled hpos => exact kept_refresh started scheduled h
  | closeNetwork sent hpos | closeLocal sent hpos =>
    intro hopen
    cases sent with
    | true => exact absurd (forbidden_iff.mp hopen).2 Bool.false_ne_true
    | false => exact (hc hopen).resolve_left Bool.false_ne_true
  | alarm started scheduled hi => exact kept_refresh started scheduled h
  | steering success remaining scheduled => exact h
  | statusLocal scheduled hd hb =>
    intro hopen
    cases scheduled with
    | true => exact .inr (.inr (.inr (Nat.succ_pos _)))
    | false => exact (hc hd (forbidden_iff.mp hopen).1).resolve_left (by simp)
  | statusOpen hd hb =>
    intro hopen
    refine (hc hd (forbidden_iff.mp hopen).1).resolve_left fun hlocal => ?_
    exact absurd hlocal.1 (ne_true_of_eq_false hb)
  | statusZero => exact h

theorem kept_networkUp {up : Bool} {s : State} (h : NetworkUp up s) : Kept s := by
  intro hopen
  cases up with
  | true => exact .inr (.inl (by rw [h.apply]; exact Nat.one_pos))
  | false =>
    have hclosed := h.opened rfl
    rw [(forbidden_iff.mp hopen).2] at hclosed
    cases hclosed

theorem kept {up : Bool} {s : State} (h : (machine up).ReachIf Covered s) : Kept s :=
  Machine.ReachIf.invariant Kept (fun _ => kept_networkUp)
    (fun _ _ _ hP hc hs => kept_step hP hc hs) h

/-- The callbacks that refresh a closed network run without effect. -/
theorem exec_refreshes (up : Bool) {n : ℕ} {s : State} (hb : s.bit s0aBlockJoinTc = true)
    (hn : s.refresh = n) : (machine up).exec s (List.replicate n (.refresh true true)) =
      some { s with refresh := 0 } := by
  induction n generalizing s with
  | zero => exact congrArg some (by rw [← hn])
  | succ n ih =>
    have hstep :
        (machine up).step s (.refresh true true) = some { s with refresh := s.refresh - 1 } := by
      have hpos : 0 < s.refresh := by omega
      have hrun : permitJoinRefresh true true { s with refresh := s.refresh - 1 } =
          { s with refresh := s.refresh - 1 } := if_pos hb
      exact (if_pos hpos).trans (congrArg some hrun)
    rw [List.replicate_succ, Machine.exec, hstep, Option.bind_some,
      ih (s := { s with refresh := s.refresh - 1 }) hb (by simp [hn])]

theorem Settled.not_closing {s : State} (h : Settled s) : ¬Closing s := by
  rintro (hw | ha | hn | hl)
  · rw [h.writing] at hw
    cases hw
  · exact absurd h.apply (Nat.pos_iff_ne_zero.mp ha)
  · exact absurd h.closeNetwork (Nat.pos_iff_ne_zero.mp hn)
  · exact absurd h.closeLocal (Nat.pos_iff_ne_zero.mp hl)

theorem settled_of_refresh {s : State} (h : ¬Closing s) : Settled { s with refresh := 0 } := by
  simp only [Closing, not_or, Bool.not_eq_true, Nat.pos_iff_ne_zero, not_not] at h
  exact ⟨h.1, h.2.1, rfl, h.2.2.1, h.2.2.2⟩

/-- **Kept closed.** In every run in which the forbidden openings are covered, a network with bit 5
set that has run its callbacks was not opened after the last close request. Each step that is not
covered leads to one that was, as soon as the refreshes that are scheduled have run. -/
theorem closed_kept {up : Bool} {s : State} (h : (machine up).ReachIf Covered s) :
    (s.bit s0aBlockJoinTc = true → Settled s → s.opened = false) ∧
    ∀ a s', (machine up).step s a = some s' → ¬Covered s a →
      ∃ t, (machine up).exec s' (List.replicate s.refresh (.refresh true true)) = some t ∧
        t.bit s0aBlockJoinTc = true ∧ Settled t ∧ t.opened = true := by
  constructor
  · intro hb hset
    rw [← Bool.not_eq_true]
    intro hopened
    exact absurd (kept h (forbidden_iff.mpr ⟨hb, hopened⟩)) hset.not_closing
  · intro a s' hs hno
    -- Without another close request to come, the refreshes are all that is left to run.
    have hrun : ∀ {t : State}, t.refresh = s.refresh → t.bit s0aBlockJoinTc = true →
        t.opened = true → ¬Closing t →
        ∃ u, (machine up).exec t (List.replicate s.refresh (.refresh true true)) = some u ∧
          u.bit s0aBlockJoinTc = true ∧ Settled u ∧ u.opened = true := by
      intro t hn htc hopened hclosing
      refine ⟨_, exec_refreshes up htc hn, htc, settled_of_refresh hclosing, hopened⟩
    cases step_stepped hs with
    | statusOpen hd hb =>
      simp only [Covered, not_forall, not_or] at hno
      obtain ⟨-, htc, -, hclosing⟩ := hno
      exact hrun rfl htc rfl hclosing
    | statusLocal scheduled hd hb =>
      simp only [Covered, not_forall, not_or, hb, true_and, Bool.not_eq_true] at hno
      obtain ⟨-, htc, rfl, hclosing⟩ := hno
      exact hrun rfl htc rfl hclosing
    | written scheduled hw | applyClosed scheduled hpos hb | closeNetwork sent hpos
    | closeLocal sent hpos =>
      simp only [Covered, not_forall, not_or, Bool.not_eq_true] at hno
      obtain ⟨hopen, rfl, hclosing⟩ := hno
      obtain ⟨htc, hopened⟩ := forbidden_iff.mp hopen
      exact hrun rfl htc hopened hclosing
    | applyOpen scheduled hpos hb =>
      simp only [Covered, not_forall] at hno
      exact absurd (forbidden_iff.mp hno.1).1 (ne_true_of_eq_false hb)
    | statusZero => exact absurd (fun hd => absurd hd (by decide)) hno
    | _ => exact absurd trivial hno

/-- What `closed_kept` is about: bit 5, the write, the callbacks, and whether it is open. -/
def summary (s : State) : Bool × Bool × List ℕ × Bool :=
  (s.bit s0aBlockJoinTc, s.writing, [s.apply, s.refresh, s.closeNetwork, s.closeLocal], s.opened)

theorem settled_of_summary {s : State} {opened : Bool}
    (h : summary s = (true, false, [0, 0, 0, 0], opened)) :
    s.bit s0aBlockJoinTc = true ∧ Settled s ∧ s.opened = opened := by
  simp only [summary, Prod.mk.injEq, List.cons.injEq, and_true] at h
  exact ⟨h.1, ⟨h.2.1, h.2.2.1.1, h.2.2.1.2.1, h.2.2.1.2.2.1, h.2.2.1.2.2.2⟩, h.2.2.2⟩

/-- A steering is started, bit 5 is set and the network closed, and then the steering opens it. -/
def lateSteering : List Action :=
  [.apply [] true, .refresh true true, .store closedVals, .written true, .apply [] true,
    .closeNetwork true, .permitJoinStatus 180 true, .steering true [] true]

theorem lateSteering_exec : ((machine true).exec (networkUp openVals) lateSteering).map summary =
    some (true, false, [0, 0, 0, 0], true) := by
  decide

/-- The steering leaves the network open. -/
theorem steering_opens : ¬∀ s, (machine true).Reach s → s.bit s0aBlockJoinTc = true →
    Settled s → s.opened = false := by
  intro hclaim
  obtain ⟨s, he, hs⟩ := Option.map_eq_some_iff.mp lateSteering_exec
  obtain ⟨hb, hset, hopened⟩ := settled_of_summary hs
  rw [hclaim s (Machine.Reach.exec (.init (networkUp_init _)) he) hb hset] at hopened
  cases hopened

/-- Bit 5 is set on an open network, and there is no buffer for the close request. -/
def noBufferRun : List Action :=
  [.apply [] true, .refresh true true, .permitJoinStatus 180 true, .steering true [] true,
    .store closedVals, .written true, .apply [] false]

example : ((machine true).exec (networkUp openVals) noBufferRun).map summary =
    some (true, false, [0, 0, 0, 0], true) := by
  decide

/-- The same as `lateSteering`, but the network is opened while the close is still to come. -/
def earlySteering : List Action :=
  [.apply [] true, .refresh true true, .store closedVals, .written true,
    .permitJoinStatus 180 true, .steering true [] true, .apply [150] true, .closeNetwork true]

theorem earlySteering_exec :
    ((machine true).execIf Covered (networkUp openVals) earlySteering).map summary =
      some (true, false, [0, 0, 0, 0], false) := by
  decide

theorem closed_kept_early : ∃ s, (machine true).ReachIf Covered s ∧ s.opened = false := by
  obtain ⟨s, he, hs⟩ := Option.map_eq_some_iff.mp earlySteering_exec
  obtain ⟨hb, hset, -⟩ := settled_of_summary hs
  have hr := Machine.ReachIf.execIf (.init (networkUp_init _)) he
  exact ⟨s, hr, (closed_kept hr).1 hb hset⟩

end ZbAt.JoinPolicy
