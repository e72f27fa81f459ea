import ZbAt.WaitIndex
import ZbAt.Prompts

/-!
# The answers to a match request, on the host

`Etrx.match` marks the end of the history, sends the request and then waits for one `MatchDesc`
after the other until its time is over. It keeps the successful answers with endpoints.

* `Inv` — what the loop knows: the answers found are the good ones among the events it has seen.
* `InTime` — the steps in which the loop neither takes an answer that came after the deadline nor
  ends while one from before the deadline stands behind its mark. A call that returns gives exactly
  the good answers between its mark and its deadline if all its steps were of this kind.
* `KeepsUp` — the circumstances of such a call: the clock reaches the deadline while the caller
  sleeps, and no good answer is appended after that while it waits.
* `answers_found` — the answers of a call that keeps up; its waits are exact in any case.
* `hastyRun` — the time runs out between the first of two answers and the loop's next look at the
  clock.
-/

namespace ZbAt.MatchCall

open Host Text

/-! ## The loop -/

/-- Where the caller is in `match`. -/
inductive Stage
  | start
  /-- In `self.cmd`, behind `self.mark()`. -/
  | command
  /-- At the head of the loop. -/
  | loop (deadline : ℤ)
  /-- Between `remaining` and the clock of `_wait_index`. -/
  | calling (deadline remaining : ℤ)
  | waits (deadline : ℤ)
  | done (deadline : ℤ)
  deriving DecidableEq

structure State where
  wait : Wait.State Prompt
  stage : Stage
  found : List Prompt

/-- `isinstance(e, MatchDesc)` -/
def isMatch : Prompt → Bool
  | .matchDesc _ _ _ => true
  | _ => false

/-- `ev.status == 0 and ev.endpoints` -/
def isFound : Prompt → Bool
  | .matchDesc _ status endpoints => status == 0 && !endpoints.isEmpty
  | _ => false

inductive Action
  | tick (k : ℕ)
  /-- The reader thread appends a prompt. -/
  | append (p : Prompt)
  | mark
  /-- `self.cmd` returns; a call in which it raises ends here. -/
  | sent
  /-- `remaining = deadline - time.monotonic()` and the test of it. -/
  | check
  | call
  /-- A round of `_wait_index`. -/
  | acquire
  | scan

/-- A round of `_wait_index` in the loop: what it returns goes into `found` if it is good, and
`TimeoutError` ends the loop. -/
def State.resume (s : State) (d : ℤ) (w : Wait.State Prompt) : State :=
  match w.pc with
  | .outside =>
    { wait := w, stage := .loop d, found := s.found ++ w.returned.getLast?.toList.filter isFound }
  | .raised _ => { s with wait := w, stage := .done d }
  | _ => { s with wait := w }

/-- An action of the waiting caller or of the reader. -/
def State.moved (s : State) (a : Wait.Action Prompt) : Option State :=
  (Wait.step isMatch s.wait a).map fun w => { s with wait := w }

def step (timeout : ℤ) (s : State) : Action → Option State
  | .tick k => s.moved (.tick k)
  | .append p => s.moved (.append p)
  | .mark =>
    match s.stage with
    | .start =>
      let mark := s.wait.history.length
      some { s with wait := { s.wait with first := mark, since := mark }, stage := .command }
    | _ => none
  | .sent =>
    match s.stage with
    | .command => some { s with stage := .loop (s.wait.now + timeout) }
    | _ => none
  | .check =>
    match s.stage with
    | .loop d =>
      let remaining := d - s.wait.now
      if remaining ≤ 0 then some { s with stage := .done d }
      else some { s with stage := .calling d remaining }
    | _ => none
  | .call =>
    match s.stage with
    | .calling d remaining =>
      (Wait.step isMatch s.wait (.call remaining)).map fun w =>
        { s with wait := w, stage := .waits d }
    | _ => none
  | .acquire =>
    match s.stage with
    | .waits _ => s.moved .acquire
    | _ => none
  | .scan =>
    match s.stage with
    | .waits d => (Wait.step isMatch s.wait .scan).map (s.resume d)
    | _ => none

/-- The stamps are those of a clock that never goes back. -/
structure Timed (s : Wait.State Prompt) : Prop where
  sorted : s.history.Pairwise fun x y => x.2 ≤ y.2
  le_now : ∀ x ∈ s.history, x.2 ≤ s.now

/-- Any history when the call starts. -/
def Start (s : State) : Prop :=
  Wait.Start s.wait ∧ Timed s.wait ∧ s.stage = .start ∧ s.found = []

def machine (timeout : ℤ) : Machine State Action := ⟨Start, step timeout⟩

/-- The good answers between the mark and the deadline. -/
def State.answers (s : State) (d : ℤ) : List Prompt :=
  (s.wait.events.filter fun x => isFound x.1 && decide (x.2 < d)).map Prod.fst

/-- Steps in which the loop takes no answer stamped at its deadline or later, and does not end
while a good answer from before its deadline stands behind its mark. -/
def InTime (s : State) : Action → Prop
  | .check =>
    match s.stage with
    | .loop d =>
      d ≤ s.wait.now → ∀ x ∈ s.wait.history.drop s.wait.since, isFound x.1 = true → d ≤ x.2
    | _ => True
  | .scan =>
    match s.stage, s.wait.pc with
    | .waits d, .scanning _ i => ∀ x ∈ s.wait.history[i]?.toList, isFound x.1 = true → x.2 < d
    | _, _ => True
  | _ => True

/-- The deadline of the call, once it is computed. -/
def Stage.deadline : Stage → Option ℤ
  | .start | .command => none
  | .loop d | .calling d _ | .waits d | .done d => some d

/-- The deadline of a call that is in `_wait_index`. -/
def Stage.waitsUntil : Stage → Option ℤ
  | .waits d => some d
  | _ => none

/-- In `self._cond.wait`, and nothing was appended since. -/
def asleep : Wait.Pc → Bool
  | .waiting _ _ false => true
  | _ => false

/-- The timeout is positive; the clock does not reach the deadline between an append or a taken
event and the caller's next sleep; and no good answer is appended at the deadline or later while
the caller waits. -/
def KeepsUp (timeout : ℤ) (s : State) : Action → Prop
  | .sent => 0 < timeout
  | .tick k => ∀ d ∈ s.stage.deadline, s.wait.now < d → d ≤ s.wait.now + k →
      asleep s.wait.pc = true
  | .append p => isFound p = true → ∀ d ∈ s.stage.waitsUntil, s.wait.now < d
  | _ => True

instance (timeout : ℤ) (s : State) : ∀ a, Decidable (KeepsUp timeout s a)
  | .sent | .tick _ | .append _ => by unfold KeepsUp; infer_instance
  | .mark | .check | .call | .acquire | .scan => .isTrue trivial

/-! ## Invariants -/

/-- The deadline of the wait that is under way. -/
def waitDeadline : Wait.Pc → Option ℤ
  | .entered d | .scanning d _ | .waiting d _ _ => some d
  | .outside | .raised _ => none

/-- The two threads of control agree: the wait is under way in one stage only, and its deadline is
not before the call's, because the clock is read again. -/
def Agrees (s : State) : Prop :=
  match s.stage with
  | .start | .command => s.wait.pc = .outside ∧ s.wait.since = s.wait.first
  | .loop _ => s.wait.pc = .outside
  | .calling d remaining => s.wait.pc = .outside ∧ d ≤ s.wait.now + remaining
  | .waits d => ∃ d', waitDeadline s.wait.pc = some d' ∧ d ≤ d'
  | .done d => d ≤ s.wait.now ∧ waitDeadline s.wait.pc = none

structure Inv (s : State) : Prop where
  wait : Wait.Inv isMatch s.wait
  timed : Timed s.wait
  found : s.found = s.wait.returned.filter isFound
  marked : s.stage ≠ .start → s.wait.first ≤ s.wait.history.length
  agrees : Agrees s

section

variable {timeout : ℤ} {s s' : State}

theorem Inv.pos_le (h : Inv s) (hstage : s.stage ≠ .start) :
    s.wait.pos ≤ s.wait.history.length := by
  rcases h.wait.pos_le with hle | heq
  · exact hle
  · exact heq ▸ h.marked hstage

/-- Behind `self.mark()` the mark lies in the history. -/
theorem Inv.mark_le (h : Inv s) {stage : Stage} (hstage : s.stage = stage)
    (hne : stage ≠ .start) : s.wait.first ≤ s.wait.history.length :=
  h.marked (hstage.trans_ne hne)

theorem inv_start (h : Start s) : Inv s := by
  obtain ⟨hw, htimed, hstage, hfound⟩ := h
  refine ⟨Wait.inv_start hw, htimed, ?_, fun hne => absurd hstage hne, ?_⟩
  · rw [hfound, hw.2.2]
    rfl
  · rw [Agrees, hstage]
    exact ⟨hw.1, hw.2.1⟩

/-! ## Steps of the wait -/

theorem Timed.tick {w : Wait.State Prompt} (h : Timed w) (k : ℕ) :
    Timed { w with now := w.now + k } :=
  ⟨h.sorted, fun x hx => (h.le_now x hx).trans (Int.le_add_of_nonneg_right k.cast_nonneg)⟩

theorem Timed.append {w : Wait.State Prompt} (h : Timed w) (p : Prompt) (pc : Wait.Pc) :
    Timed { w with history := w.history ++ [(p, w.now)], pc := pc } := by
  refine ⟨List.pairwise_append.mpr ⟨h.sorted, List.pairwise_singleton _ _, fun x hx y hy => ?_⟩,
    fun x hx => ?_⟩
  · rw [List.mem_singleton.mp hy]
    exact h.le_now x hx
  · rcases List.mem_append.mp hx with hx | hx
    · exact h.le_now x hx
    · rw [List.mem_singleton.mp hx]

/-! ## In time -/

/-- What the steps in time come to: no good answer seen is late, and none in time is left behind
when the call is over. -/
def OnTime (s : State) : Prop :=
  (∀ d, s.stage.deadline = some d → ∀ x ∈ s.wait.seen, isFound x.1 = true → x.2 < d) ∧
    ∀ d, s.stage = .done d → ∀ x ∈ s.wait.history.drop s.wait.pos, isFound x.1 = true → d ≤ x.2

theorem live {stage : Stage} (hstage : s.stage = stage) (h : ∀ d, stage ≠ .done d) :
    ∀ d, s.stage ≠ .done d := by
  rw [hstage]
  exact h

/-- Nothing is left behind while the call goes on. -/
theorem onTime_iff_of_live (hlive : ∀ d, s.stage ≠ .done d) : OnTime s ↔
    ∀ d, s.stage.deadline = some d → ∀ x ∈ s.wait.seen, isFound x.1 = true → x.2 < d :=
  ⟨fun h => h.1, fun h => ⟨h, fun d hd => absurd hd (hlive d)⟩⟩

/-- A step that looks at no event. -/
theorem onTime_congr (hlive : ∀ d, s.stage ≠ .done d) (hlive' : ∀ d, s'.stage ≠ .done d)
    (hdeadline : s'.stage.deadline = s.stage.deadline) (hseen : s'.wait.seen = s.wait.seen) :
    OnTime s' ↔ OnTime s := by
  rw [onTime_iff_of_live hlive, onTime_iff_of_live hlive', hdeadline, hseen]

/-- What a step does to the invariant and to `OnTime`. -/
structure Kept (s : State) (a : Action) (s' : State) : Prop where
  inv : Inv s'
  onTime : OnTime s' ↔ OnTime s ∧ InTime s a

/-- A step on which `InTime` puts no condition. -/
theorem Kept.free {a : Action} (hinv : Inv s') (ha : InTime s a) (h : OnTime s' ↔ OnTime s) :
    Kept s a s' :=
  ⟨hinv, h.trans (and_iff_left ha).symm⟩

theorem kept_tick (h : Inv s) (k : ℕ) :
    Kept s (.tick k) { s with wait := { s.wait with now := s.wait.now + k } } := by
  have hagrees := h.agrees
  have hle : s.wait.now ≤ s.wait.now + k := Int.le_add_of_nonneg_right k.cast_nonneg
  refine .free ⟨?_, h.timed.tick k, h.found, h.marked, ?_⟩ trivial Iff.rfl
  · have hs : Wait.step isMatch s.wait (.tick k) = some { s.wait with now := s.wait.now + k } := rfl
    exact h.wait.step hs
  · unfold Agrees at hagrees ⊢
    cases hstage : s.stage with
    | start => simpa only [hstage] using hagrees
    | command => simpa only [hstage] using hagrees
    | loop d => simpa only [hstage] using hagrees
    | calling d r =>
      simp only [hstage] at hagrees ⊢
      exact ⟨hagrees.1, by omega⟩
    | waits d => simpa only [hstage] using hagrees
    | done d =>
      simp only [hstage] at hagrees ⊢
      exact ⟨by omega, hagrees.2⟩

theorem notify_outside {pc : Wait.Pc} (h : pc = .outside) : pc.notify = .outside := by
  rw [h]
  rfl

@[simp] theorem waitDeadline_notify (pc : Wait.Pc) :
    waitDeadline pc.notify = waitDeadline pc := by
  cases pc <;> rfl

theorem agrees_append (h : Agrees s) (p : Prompt) :
    Agrees { s with wait := { s.wait with
      history := s.wait.history ++ [(p, s.wait.now)], pc := s.wait.pc.notify } } := by
  unfold Agrees at h ⊢
  cases hstage : s.stage with
  | start =>
    simp only [hstage] at h ⊢
    exact ⟨notify_outside h.1, h.2⟩
  | command =>
    simp only [hstage] at h ⊢
    exact ⟨notify_outside h.1, h.2⟩
  | loop d =>
    simp only [hstage] at h ⊢
    exact notify_outside h
  | calling d r =>
    simp only [hstage] at h ⊢
    exact ⟨notify_outside h.1, h.2⟩
  | waits d =>
    simp only [hstage, waitDeadline_notify] at h ⊢
    exact h
  | done d =>
    simp only [hstage, waitDeadline_notify] at h ⊢
    exact h

theorem kept_append (h : Inv s) (p : Prompt) (hlock : ¬s.wait.pc.locked = true) :
    Kept s (.append p) { s with wait := { s.wait with
      history := s.wait.history ++ [(p, s.wait.now)], pc := s.wait.pc.notify } } := by
  have hpos := Wait.pos_append (s := s.wait) p
  refine .free ⟨h.wait.append p hlock, h.timed.append p _, h.found, fun hne => ?_,
    agrees_append h.agrees p⟩ trivial ?_
  · have hle := h.marked hne
    simp only [List.length_append]
    omega
  · have hseen : { s.wait with
        history := s.wait.history ++ [(p, s.wait.now)], pc := s.wait.pc.notify }.seen =
        s.wait.seen := by
      rw [Wait.State.seen, hpos, Wait.seen_append h.wait.pos_le]
      rfl
    unfold OnTime
    simp only [hseen, hpos]
    -- an event that comes when the call is over comes after its deadline
    refine and_congr_right fun _ => forall_congr' fun d => imp_congr_right fun hd => ?_
    have hagrees := h.agrees
    simp only [Agrees, hd] at hagrees
    have hle := h.pos_le (by rw [hd]; exact Stage.noConfusion)
    rw [List.drop_append_of_le_length hle]
    refine ⟨fun hall x hx => hall x (List.mem_append_left _ hx), fun hall x hx hx' => ?_⟩
    rcases List.mem_append.mp hx with hx | hx
    · exact hall x hx hx'
    · rw [List.mem_singleton.mp hx]
      exact hagrees.1

theorem seen_of_pos {w : Wait.State Prompt} (hpc : w.pc = .outside) (hsince : w.since = w.first) :
    w.seen = [] := by
  rw [Wait.State.seen, Wait.State.pos, hpc, hsince]
  exact List.drop_eq_nil_of_le (List.length_take_le _ _)

theorem kept_mark (h : Inv s) (hstage : s.stage = .start) :
    Kept s .mark { s with
      wait := { s.wait with first := s.wait.history.length, since := s.wait.history.length },
      stage := .command } := by
  have hagrees := h.agrees
  simp only [Agrees, hstage] at hagrees
  obtain ⟨hpc, hsince⟩ := hagrees
  have hret : s.wait.returned = [] := by
    rw [h.wait.returned, seen_of_pos hpc hsince]
    rfl
  have hw : Wait.Start { s.wait with
      first := s.wait.history.length, since := s.wait.history.length } := ⟨hpc, rfl, hret⟩
  refine .free ⟨Wait.inv_start hw, ⟨h.timed.sorted, h.timed.le_now⟩, h.found, fun _ => le_rfl,
    ⟨hpc, rfl⟩⟩ trivial ?_
  rw [onTime_iff_of_live (live rfl fun _ => Stage.noConfusion),
    onTime_iff_of_live (live hstage fun _ => Stage.noConfusion)]
  simp [hstage, Stage.deadline]

theorem kept_sent (h : Inv s) (hstage : s.stage = .command) :
    Kept s .sent { s with stage := .loop (s.wait.now + timeout) } := by
  have hagrees := h.agrees
  simp only [Agrees, hstage] at hagrees
  obtain ⟨hpc, hsince⟩ := hagrees
  have hseen := seen_of_pos hpc hsince
  have hmark := h.mark_le hstage Stage.noConfusion
  refine .free ⟨h.wait, h.timed, h.found, fun _ => hmark, hpc⟩ trivial ?_
  rw [onTime_iff_of_live (live rfl fun _ => Stage.noConfusion),
    onTime_iff_of_live (live hstage fun _ => Stage.noConfusion)]
  -- nothing has been seen before the deadline is known
  simp [hseen]

theorem kept_check (h : Inv s) {d : ℤ} (hstage : s.stage = .loop d) :
    Kept s .check (if d - s.wait.now ≤ 0 then { s with stage := .done d }
      else { s with stage := .calling d (d - s.wait.now) }) := by
  have hpc := h.agrees
  simp only [Agrees, hstage] at hpc
  have hmark := h.mark_le hstage Stage.noConfusion
  have hlive := live hstage fun _ => Stage.noConfusion
  by_cases hd : d - s.wait.now ≤ 0
  · have hpos : s.wait.pos = s.wait.since := by rw [Wait.State.pos, hpc]
    have hle : d ≤ s.wait.now := by omega
    rw [if_pos hd]
    refine ⟨⟨h.wait, h.timed, h.found, fun _ => hmark, hle, by rw [hpc]; rfl⟩, ?_⟩
    rw [onTime_iff_of_live hlive]
    simp [OnTime, InTime, hstage, Stage.deadline, hpos, hle]
  · rw [if_neg hd]
    refine ⟨⟨h.wait, h.timed, h.found, fun _ => hmark, hpc, by simp⟩, ?_⟩
    have hle : ¬d ≤ s.wait.now := by omega
    have hin : InTime s .check := by
      simp only [InTime, hstage]
      exact fun hle' => absurd hle' hle
    rw [and_iff_left hin]
    refine onTime_congr hlive (live rfl fun _ => Stage.noConfusion) ?_ rfl
    rw [hstage]
    rfl

theorem kept_call (h : Inv s) {d remaining : ℤ} (hstage : s.stage = .calling d remaining)
    {w : Wait.State Prompt} (hs : Wait.step isMatch s.wait (.call remaining) = some w) :
    Kept s .call { s with wait := w, stage := .waits d } := by
  have hagrees := h.agrees
  simp only [Agrees, hstage] at hagrees
  obtain ⟨hpc, hle⟩ := hagrees
  have hinv := h.wait.step hs
  simp only [Wait.step, hpc, Option.some_inj] at hs
  subst hs
  have hmark := h.mark_le hstage Stage.noConfusion
  refine .free ⟨hinv, ⟨h.timed.sorted, h.timed.le_now⟩, h.found, fun _ => hmark,
    s.wait.now + remaining, rfl, hle⟩ trivial ?_
  refine onTime_congr (live hstage fun _ => Stage.noConfusion)
    (live rfl fun _ => Stage.noConfusion) ?_ ?_
  · rw [hstage]
    rfl
  · rw [Wait.State.seen, Wait.State.seen, Wait.State.pos, Wait.State.pos, hpc]

theorem kept_acquire (h : Inv s) {d : ℤ} (hstage : s.stage = .waits d)
    {w : Wait.State Prompt} (hs : Wait.step isMatch s.wait .acquire = some w) :
    Kept s .acquire { s with wait := w } := by
  have hagrees := h.agrees
  simp only [Agrees, hstage] at hagrees
  obtain ⟨d₀, hd₀, hle⟩ := hagrees
  have hinv := h.wait.step hs
  have hmark := h.mark_le hstage Stage.noConfusion
  have hlive := live hstage fun _ => Stage.noConfusion
  -- at the start or after a sleep, the loop goes on where the caller stands
  have hgo : ∀ d' i, s.wait.pos = i → waitDeadline s.wait.pc = some d' →
      some { s.wait with pc := .scanning d' i } = some w →
        Kept s .acquire { s with wait := w } := by
    intro d' i hpos hd' hw
    rw [Option.some_inj] at hw
    subst hw
    refine .free ⟨hinv, ⟨h.timed.sorted, h.timed.le_now⟩, h.found, fun _ => hmark, ?_⟩ trivial
      (onTime_congr hlive hlive rfl ?_)
    · rw [hd₀] at hd'
      simp only [Agrees, hstage]
      exact ⟨d₀, hd'.symm, hle⟩
    · rw [Wait.State.seen, Wait.State.seen, hpos]
      rfl
  simp only [Wait.step] at hs
  split at hs
  · next d' hpc => exact hgo d' s.wait.since (by rw [Wait.State.pos, hpc]) (by rw [hpc]; rfl) hs
  · next d' i b hpc => exact hgo d' i (by rw [Wait.State.pos, hpc]) (by rw [hpc]; rfl) hs
  · cases hs

/-! ## A round of the wait -/

theorem isMatch_of_isFound {p : Prompt} (h : isFound p = true) : isMatch p = true := by
  cases p <;> first | rfl | cases h

/-- The condition of a round concerns the next event. -/
theorem inTime_scan {d d' : ℤ} {i : ℕ} (hstage : s.stage = .waits d)
    (hpc : s.wait.pc = .scanning d' i) : InTime s .scan ↔
      ∀ x ∈ s.wait.history[i]?.toList, isFound x.1 = true → x.2 < d := by
  simp only [InTime, hstage, hpc]

/-- An event more has been seen, at the same deadline. -/
theorem onTime_snoc {d : ℤ} {x : Prompt × ℤ} (hlive : ∀ d, s.stage ≠ .done d)
    (hlive' : ∀ d, s'.stage ≠ .done d) (hd : s.stage.deadline = some d)
    (hd' : s'.stage.deadline = some d) (hseen : s'.wait.seen = s.wait.seen ++ [x]) :
    OnTime s' ↔ OnTime s ∧ (isFound x.1 = true → x.2 < d) := by
  rw [onTime_iff_of_live hlive, onTime_iff_of_live hlive', hd, hd', hseen]
  simp [or_imp, forall_and]

/-- The round at an event. -/
theorem kept_scan_some (h : Inv s) {d d' : ℤ} {i : ℕ} (hstage : s.stage = .waits d)
    (hpc : s.wait.pc = .scanning d' i) (hle : d ≤ d') {x : Prompt × ℤ}
    (hx : s.wait.history[i]? = some x) :
    Kept s .scan (s.resume d (s.wait.scan isMatch d' i)) := by
  have hinv := h.wait.scan hpc
  have hpos : s.wait.pos = i := by rw [Wait.State.pos, hpc]
  have hfirst : s.wait.first ≤ i := hpos ▸ h.wait.first_le
  have hmark := h.mark_le hstage Stage.noConfusion
  have hseen : (s.wait.scan isMatch d' i).seen = s.wait.seen ++ [x] := by
    rw [Wait.scan_seen hfirst hx, Wait.State.seen, hpos]
  have hlive := live hstage fun _ => Stage.noConfusion
  have hdeadline : s.stage.deadline = some d := by
    rw [hstage]
    rfl
  have hin : InTime s .scan ↔ (isFound x.1 = true → x.2 < d) := by
    rw [inTime_scan hstage hpc, hx]
    simp
  rw [Wait.scan_some hx] at hinv hseen ⊢
  by_cases hp : isMatch x.1 = true
  · rw [if_pos hp] at hinv hseen ⊢
    refine ⟨⟨hinv, ⟨h.timed.sorted, h.timed.le_now⟩, ?_, fun _ => hmark, rfl⟩, ?_⟩
    · simp [State.resume, h.found]
    · rw [hin]
      exact onTime_snoc hlive (live rfl fun _ => Stage.noConfusion) hdeadline rfl hseen
  · rw [if_neg hp] at hinv hseen ⊢
    refine ⟨⟨hinv, ⟨h.timed.sorted, h.timed.le_now⟩, h.found, fun _ => hmark, ?_⟩, ?_⟩
    · simp only [Agrees, State.resume, hstage]
      exact ⟨d', rfl, hle⟩
    · rw [hin]
      exact onTime_snoc hlive hlive hdeadline hdeadline hseen

/-- The round behind the last event. -/
theorem kept_scan_none (h : Inv s) {d d' : ℤ} {i : ℕ} (hstage : s.stage = .waits d)
    (hpc : s.wait.pc = .scanning d' i) (hle : d ≤ d') (hx : s.wait.history[i]? = none) :
    Kept s .scan (s.resume d (s.wait.scan isMatch d' i)) := by
  have hinv := h.wait.scan hpc
  have hlen : s.wait.history.length ≤ i := List.getElem?_eq_none_iff.mp hx
  have hpos : s.wait.pos = i := by rw [Wait.State.pos, hpc]
  have hmark := h.mark_le hstage Stage.noConfusion
  have hlive := live hstage fun _ => Stage.noConfusion
  have hin : InTime s .scan := by
    rw [inTime_scan hstage hpc, hx]
    simp
  rw [Wait.scan_none hx] at hinv ⊢
  by_cases hd : d' - s.wait.now ≤ 0
  · rw [if_pos hd] at hinv ⊢
    have hseen : { s.wait with pc := .raised i : Wait.State Prompt }.seen = s.wait.seen := by
      rw [Wait.State.seen, Wait.State.seen, hpos]
      rfl
    refine .free ⟨hinv, ⟨h.timed.sorted, h.timed.le_now⟩, h.found, fun _ => hmark, ?_⟩ hin ?_
    · simp only [Agrees, State.resume]
      exact ⟨by omega, rfl⟩
    · -- the whole history has been seen
      rw [onTime_iff_of_live hlive]
      have hrest : s.wait.history.drop i = [] := List.drop_eq_nil_of_le hlen
      simp only [OnTime, State.resume, Stage.deadline, hseen, hstage, Wait.State.pos, hrest]
      simp
  · rw [if_neg hd] at hinv ⊢
    refine .free ⟨hinv, ⟨h.timed.sorted, h.timed.le_now⟩, h.found, fun _ => hmark, ?_⟩ hin ?_
    · simp only [Agrees, State.resume, hstage]
      exact ⟨d', rfl, hle⟩
    · refine onTime_congr hlive hlive rfl ?_
      rw [Wait.State.seen, Wait.State.seen, hpos]
      rfl

/-- **One step.** -/
theorem kept_step (h : Inv s) {a : Action} (hs : step timeout s a = some s') : Kept s a s' := by
  cases a with
  | tick k =>
    cases hs
    exact kept_tick h k
  | append p =>
    simp only [step, State.moved, Wait.step] at hs
    split_ifs at hs with hlock
    · cases hs
    · rw [Option.map_some, Option.some_inj] at hs
      exact hs ▸ kept_append h p hlock
  | mark =>
    simp only [step] at hs
    split at hs
    · next hstage =>
      cases hs
      exact kept_mark h hstage
    · cases hs
  | sent =>
    simp only [step] at hs
    split at hs
    · next hstage =>
      cases hs
      exact kept_sent h hstage
    · cases hs
  | check =>
    simp only [step] at hs
    split at hs
    · next d hstage =>
      have hkept := kept_check h hstage
      split_ifs at hs hkept <;> (cases hs; exact hkept)
    · cases hs
  | call =>
    simp only [step] at hs
    split at hs
    · next d remaining hstage =>
      obtain ⟨w, hw, rfl⟩ := Option.map_eq_some_iff.mp hs
      exact kept_call h hstage hw
    · cases hs
  | acquire =>
    simp only [step] at hs
    split at hs
    · next d hstage =>
      obtain ⟨w, hw, rfl⟩ := Option.map_eq_some_iff.mp hs
      exact kept_acquire h hstage hw
    · cases hs
  | scan =>
    simp only [step] at hs
    split at hs
    · next d hstage =>
      have hagrees := h.agrees
      simp only [Agrees, hstage] at hagrees
      obtain ⟨w, hw, rfl⟩ := Option.map_eq_some_iff.mp hs
      simp only [Wait.step] at hw
      split at hw
      · next d' i hpc =>
        cases hw
        obtain ⟨d'', hd'', hle⟩ := hagrees
        rw [hpc] at hd''
        cases hd''
        cases hx : s.wait.history[i]? with
        | some x => exact kept_scan_some h hstage hpc hle hx
        | none => exact kept_scan_none h hstage hpc hle hx
      · cases hw
    · cases hs

theorem reach_inv (h : (machine timeout).Reach s) : Inv s :=
  h.invariant Inv (fun _ h0 => inv_start h0) fun _ _ _ hi _ hs => (kept_step hi hs).inv

/-- **Runs in time.** -/
theorem onTime_iff (h : (machine timeout).Reach s) :
    OnTime s ↔ (machine timeout).ReachIf InTime s := by
  refine h.iff_reachIf OnTime (fun s h0 => ?_) fun s a s' hr hs =>
    (kept_step (reach_inv hr) hs).onTime
  have hstage := h0.2.2.1
  rw [onTime_iff_of_live (live hstage fun _ => Stage.noConfusion), hstage]
  intro d hd
  cases hd

/-! ## The result -/

/-- The history behind the mark: what the caller has seen, and the rest. -/
theorem events_eq (h : Inv s) (hstage : s.stage ≠ .start) :
    s.wait.events = s.wait.seen ++ s.wait.history.drop s.wait.pos := by
  have hle := h.pos_le hstage
  have hfirst := h.wait.first_le
  conv_lhs => rw [Wait.State.events, ← List.take_append_drop s.wait.pos s.wait.history]
  rw [List.drop_append_of_le_length, Wait.State.seen]
  rw [List.length_take]
  omega

/-- What is left has come after what was seen. -/
theorem seen_le (h : Inv s) {x y : Prompt × ℤ} (hx : x ∈ s.wait.seen)
    (hy : y ∈ s.wait.history.drop s.wait.pos) : x.2 ≤ y.2 := by
  have hsorted := h.timed.sorted
  rw [← List.take_append_drop s.wait.pos s.wait.history] at hsorted
  exact (List.pairwise_append.mp hsorted).2.2 x (List.mem_of_mem_drop hx) y hy

/-- The answers found are the good ones among the events seen. -/
theorem found_eq (h : Inv s) :
    s.found = (s.wait.seen.filter fun x => isFound x.1).map Prod.fst := by
  rw [h.found, h.wait.returned, Wait.matching, List.filter_filter, List.filter_map]
  congr 1
  refine List.filter_congr fun x _ => ?_
  by_cases hx : isFound x.1 = true
  · simp [hx, isMatch_of_isFound hx]
  · simp [hx]

/-- Between two lists, the second one later: keeping what is before `d` gives the first list back
only where `d` lies between them. -/
theorem split_at {S R : List (Prompt × ℤ)} {d : ℤ} (hSR : ∀ x ∈ S, ∀ y ∈ R, x.2 ≤ y.2) :
    S.map Prod.fst = ((S ++ R).filter fun x => decide (x.2 < d)).map Prod.fst ↔
      (∀ x ∈ S, x.2 < d) ∧ ∀ y ∈ R, d ≤ y.2 := by
  rw [List.filter_append]
  constructor
  · intro heq
    have hlen := congrArg List.length heq
    simp only [List.length_map, List.length_append] at hlen
    have hS : ∀ x ∈ S, x.2 < d := by
      by_contra hlate
      push Not at hlate
      obtain ⟨x, hx, hxd⟩ := hlate
      -- a late one in the first list makes all of the second late
      have hR : R.filter (fun x => decide (x.2 < d)) = [] := by
        rw [List.filter_eq_nil_iff]
        intro y hy
        have hxy := hSR x hx y hy
        simpa using hxd.trans hxy
      rw [hR, List.length_nil, Nat.add_zero] at hlen
      have hall := List.length_filter_eq_length_iff.mp hlen.symm x hx
      simp only [decide_eq_true_eq] at hall
      omega
    refine ⟨hS, fun y hy => ?_⟩
    have hSall : S.filter (fun x => decide (x.2 < d)) = S :=
      List.filter_eq_self.mpr fun x hx => decide_eq_true (hS x hx)
    rw [hSall] at hlen
    have hR : R.filter (fun x => decide (x.2 < d)) = [] := by
      rw [← List.length_eq_zero_iff]
      omega
    have hno := List.filter_eq_nil_iff.mp hR y hy
    simpa using hno
  · rintro ⟨hS, hR⟩
    rw [List.filter_eq_self.mpr fun x hx => decide_eq_true (hS x hx),
      List.filter_eq_nil_iff.mpr fun y hy => by simpa using hR y hy, List.append_nil]

theorem found_eq_answers (h : Inv s) {d : ℤ} (hstage : s.stage = .done d) :
    s.found = s.answers d ↔ OnTime s := by
  have hne : s.stage ≠ .start := by
    rw [hstage]
    exact Stage.noConfusion
  have hans : s.answers d = ((s.wait.seen.filter (fun x => isFound x.1) ++
      (s.wait.history.drop s.wait.pos).filter (fun x => isFound x.1)).filter
        fun x => decide (x.2 < d)).map Prod.fst := by
    rw [State.answers, events_eq h hne, ← List.filter_append, List.filter_filter]
    congr 1
    exact List.filter_congr fun x _ => Bool.and_comm _ _
  rw [found_eq h, hans, split_at fun x hx y hy =>
    seen_le h (List.mem_of_mem_filter hx) (List.mem_of_mem_filter hy)]
  simp [OnTime, hstage, Stage.deadline, List.mem_filter]

/-! ## Keeping up -/

/-- The events that the caller has still to look at. -/
def State.unseen (s : State) : List (Prompt × ℤ) := s.wait.history.drop s.wait.pos

/-- What the circumstances come to: once the deadline has passed, the good answers that are still to
be looked at are late ones; while the caller waits, there are no late ones. -/
structure Ahead (s : State) : Prop where
  passed : ∀ d, s.stage.deadline = some d → d ≤ s.wait.now →
    ∀ x ∈ s.unseen, isFound x.1 = true → d ≤ x.2
  calling : ∀ d r, s.stage = .calling d r → s.wait.now < d
  early : ∀ d, s.stage = .waits d → ∀ x ∈ s.unseen, isFound x.1 = true → x.2 < d

theorem ahead_start (h : Start s) : Ahead s := by
  obtain ⟨-, -, hstage, -⟩ := h
  constructor
  · intro d hd
    rw [hstage] at hd
    cases hd
  · intro d r hd
    rw [hstage] at hd
    cases hd
  · intro d hd
    rw [hstage] at hd
    cases hd

/-- Neither the clock nor the events that are still to be looked at go on, and no wait begins. -/
theorem Ahead.move (h : Ahead s) (hnow : s'.wait.now = s.wait.now) (hunseen : s'.unseen ⊆ s.unseen)
    (hdeadline : s'.stage.deadline = s.stage.deadline)
    (hcalling : ∀ d r, s'.stage ≠ .calling d r) (hwaits : ∀ d, s'.stage = .waits d →
      s.stage = .waits d) : Ahead s' := by
  constructor
  · intro d hd hle x hx
    rw [hdeadline] at hd
    rw [hnow] at hle
    exact h.passed d hd hle x (hunseen hx)
  · intro d r hd
    exact absurd hd (hcalling d r)
  · intro d hd x hx
    exact h.early d (hwaits d hd) x (hunseen hx)

/-- A caller that sleeps has looked at every event. -/
theorem Inv.asleep (h : Inv s) (hpc : asleep s.wait.pc = true) : s.unseen = [] := by
  unfold MatchCall.asleep at hpc
  split at hpc
  · next d i hwait =>
    have hpos : s.wait.pos = i := by rw [Wait.State.pos, hwait]
    exact List.drop_eq_nil_of_le (hpos ▸ h.wait.asleep d i hwait)
  · cases hpc

theorem ahead_tick (hinv : Inv s) (h : Ahead s) {k : ℕ} (hk : KeepsUp timeout s (.tick k)) :
    Ahead { s with wait := { s.wait with now := s.wait.now + k } } := by
  constructor
  · intro d hd hle x hx
    by_cases hpast : d ≤ s.wait.now
    · exact h.passed d hd hpast x hx
    · have hnone := hinv.asleep (hk d hd (by omega) hle)
      have hx' : x ∈ s.unseen := hx
      rw [hnone] at hx'
      cases hx'
  · intro d r hd
    by_contra hpast
    have hsleep := hk d (by rw [show s.stage = _ from hd]; rfl) (h.calling d r hd) (by
      dsimp only at hpast
      omega)
    have hagrees := hinv.agrees
    rw [Agrees, show s.stage = _ from hd] at hagrees
    rw [hagrees.1] at hsleep
    cases hsleep
  · exact h.early

/-- The events that are still to be looked at, behind an append. -/
theorem mem_unseen_append (p : Prompt) {x : Prompt × ℤ}
    (hx : x ∈ State.unseen { s with wait := { s.wait with
      history := s.wait.history ++ [(p, s.wait.now)], pc := s.wait.pc.notify } }) :
    x ∈ s.unseen ∨ x = (p, s.wait.now) := by
  rw [State.unseen, Wait.pos_append (s := s.wait) p] at hx
  have hsub := List.mem_of_mem_drop hx
  rcases List.mem_append.mp hsub with hmem | hmem
  · rw [List.drop_append] at hx
    rcases List.mem_append.mp hx with hx | hx
    · exact .inl hx
    · exact .inr (List.mem_singleton.mp (List.mem_of_mem_drop hx))
  · exact .inr (List.mem_singleton.mp hmem)

theorem ahead_append (h : Ahead s) {p : Prompt} (hk : KeepsUp timeout s (.append p)) :
    Ahead { s with wait := { s.wait with
      history := s.wait.history ++ [(p, s.wait.now)], pc := s.wait.pc.notify } } := by
  constructor
  · intro d hd hle x hx hgood
    rcases mem_unseen_append p hx with hx | rfl
    · exact h.passed d hd hle x hx hgood
    · exact hle
  · exact h.calling
  · intro d hd x hx hgood
    rcases mem_unseen_append p hx with hx | rfl
    · exact h.early d hd x hx hgood
    · exact hk hgood d (by rw [show s.stage = _ from hd]; rfl)

/-- The loop asks for the time that is left. -/
theorem ahead_check (h : Ahead s) {d : ℤ} (hstage : s.stage = .loop d) :
    Ahead (if d - s.wait.now ≤ 0 then { s with stage := .done d }
      else { s with stage := .calling d (d - s.wait.now) }) := by
  split_ifs with hd
  · refine h.move rfl (fun x hx => hx) (by rw [hstage]; rfl) (fun _ _ => Stage.noConfusion)
      fun _ => Stage.noConfusion
  · refine ⟨?_, ?_, fun _ => Stage.noConfusion⟩
    · intro d' hd' hle
      cases hd'
      exact absurd hle (by dsimp only; omega)
    · intro d' r hd'
      cases hd'
      dsimp only
      omega

/-- The wait begins before the deadline. -/
theorem ahead_call (hinv : Inv s) (h : Ahead s) {d remaining : ℤ}
    (hstage : s.stage = .calling d remaining) {w : Wait.State Prompt}
    (hs : Wait.step isMatch s.wait (.call remaining) = some w) :
    Ahead { s with wait := w, stage := .waits d } := by
  have hnow := h.calling d remaining hstage
  have hpc := hinv.agrees
  rw [Agrees, hstage] at hpc
  simp only [Wait.step, hpc.1, Option.some_inj] at hs
  subst hs
  refine ⟨?_, fun _ _ => Stage.noConfusion, ?_⟩
  · intro d' hd' hle
    cases hd'
    exact absurd hle (by dsimp only; omega)
  · intro d' hd' x hx _
    cases hd'
    have hle := hinv.timed.le_now x (List.mem_of_mem_drop hx)
    omega

theorem ahead_acquire (h : Ahead s) {w : Wait.State Prompt}
    (hcalling : ∀ d r, s.stage ≠ .calling d r)
    (hs : Wait.step isMatch s.wait .acquire = some w) : Ahead { s with wait := w } := by
  simp only [Wait.step] at hs
  split at hs
  · next d hpc =>
    cases hs
    refine h.move rfl (fun x hx => ?_) rfl hcalling fun _ hd => hd
    rw [State.unseen, Wait.State.pos, hpc]
    exact hx
  · next d i b hpc =>
    cases hs
    refine h.move rfl (fun x hx => ?_) rfl hcalling fun _ hd => hd
    rw [State.unseen, Wait.State.pos, hpc]
    exact hx
  · cases hs

theorem ahead_scan (h : Ahead s) {d d' : ℤ} {i : ℕ} (hstage : s.stage = .waits d)
    (hpc : s.wait.pc = .scanning d' i) : Ahead (s.resume d (s.wait.scan isMatch d' i)) := by
  have hpos : s.wait.pos = i := by rw [Wait.State.pos, hpc]
  have hdrop : s.wait.history.drop (i + 1) ⊆ s.unseen := by
    rw [State.unseen, hpos, ← List.drop_drop]
    exact (List.drop_sublist 1 _).subset
  have hsame : s.wait.history.drop i ⊆ s.unseen := by rw [State.unseen, hpos]; exact fun x => id
  have hcalling : ∀ d r, s.stage ≠ .calling d r := by
    rw [hstage]
    exact fun _ _ => Stage.noConfusion
  cases hx : s.wait.history[i]? with
  | some x =>
    rw [Wait.scan_some hx]
    split_ifs
    · exact h.move rfl hdrop (by rw [hstage]; rfl) (fun _ _ => Stage.noConfusion)
        fun _ => Stage.noConfusion
    · exact h.move rfl hdrop rfl hcalling fun _ hd => hd
  | none =>
    rw [Wait.scan_none hx]
    split_ifs
    · exact h.move rfl hsame (by rw [hstage]; rfl) (fun _ _ => Stage.noConfusion)
        fun _ => Stage.noConfusion
    · exact h.move rfl hsame rfl hcalling fun _ hd => hd

theorem ahead_step (hinv : Inv s) (h : Ahead s) {a : Action} (hk : KeepsUp timeout s a)
    (hs : step timeout s a = some s') : Ahead s' := by
  cases a with
  | tick k =>
    cases hs
    exact ahead_tick hinv h hk
  | append p =>
    simp only [step, State.moved, Wait.step] at hs
    split_ifs at hs
    · cases hs
    · rw [Option.map_some, Option.some_inj] at hs
      exact hs ▸ ahead_append h hk
  | mark =>
    simp only [step] at hs
    split at hs
    · cases hs
      exact ⟨fun d hd => (by cases hd), fun _ _ => Stage.noConfusion, fun _ => Stage.noConfusion⟩
    · cases hs
  | sent =>
    simp only [step] at hs
    split at hs
    · cases hs
      have hpos : 0 < timeout := hk
      refine ⟨?_, fun _ _ => Stage.noConfusion, fun _ => Stage.noConfusion⟩
      intro d hd hle
      cases hd
      exact absurd hle (by dsimp only; omega)
    · cases hs
  | check =>
    simp only [step] at hs
    split at hs
    · next d hstage =>
      have hahead := ahead_check h hstage
      split_ifs at hs hahead <;> (cases hs; exact hahead)
    · cases hs
  | call =>
    simp only [step] at hs
    split at hs
    · next d remaining hstage =>
      obtain ⟨w, hw, rfl⟩ := Option.map_eq_some_iff.mp hs
      exact ahead_call hinv h hstage hw
    · cases hs
  | acquire =>
    simp only [step] at hs
    split at hs
    · next d hstage =>
      obtain ⟨w, hw, rfl⟩ := Option.map_eq_some_iff.mp hs
      exact ahead_acquire h (by rw [hstage]; exact fun _ _ => Stage.noConfusion) hw
    · cases hs
  | scan =>
    simp only [step] at hs
    split at hs
    · next d hstage =>
      obtain ⟨w, hw, rfl⟩ := Option.map_eq_some_iff.mp hs
      simp only [Wait.step] at hw
      split at hw
      · next d' i hpc =>
        cases hw
        exact ahead_scan h hstage hpc
      · cases hw
    · cases hs

/-- A caller that keeps up moves in time. -/
theorem Ahead.inTime (hinv : Inv s) (h : Ahead s) (a : Action) : InTime s a := by
  cases a with
  | check =>
    cases hstage : s.stage with
    | loop d =>
      simp only [InTime, hstage]
      intro hle x hx
      have hpc := hinv.agrees
      rw [Agrees, hstage] at hpc
      refine h.passed d (by rw [hstage]; rfl) hle x ?_
      rw [State.unseen, Wait.State.pos, hpc]
      exact hx
    | _ => simp only [InTime, hstage]
  | scan =>
    cases hstage : s.stage with
    | waits d =>
      cases hpc : s.wait.pc with
      | scanning d' i =>
        simp only [InTime, hstage, hpc, Option.mem_toList]
        intro x hx
        refine h.early d hstage x ?_
        rw [State.unseen, Wait.State.pos, hpc]
        exact List.mem_of_getElem? (by rw [List.getElem?_drop, Nat.add_zero]; exact hx)
      | _ => simp only [InTime, hstage, hpc]
    | _ => simp only [InTime, hstage]
  | _ => trivial

theorem inTime_of_keepsUp (h : (machine timeout).ReachIf (KeepsUp timeout) s) :
    Ahead s ∧ (machine timeout).ReachIf InTime s := by
  induction h with
  | init h0 => exact ⟨ahead_start h0, .init h0⟩
  | step hr hk hs ih =>
    have hinv := reach_inv hr.reach
    exact ⟨ahead_step hinv ih.1 hk hs, .step ih.2 (ih.1.inTime hinv _) hs⟩

/-- **The answers of the call.** In every run the waits return exactly the matching events they
have seen, all of them when they time out or sleep. In every run in which the clock does not reach
the deadline between an append or a taken event and the caller's next sleep, and no good answer is
appended at the deadline or later while it waits, a call of `match` that returns gives exactly the
good answers between its mark and its deadline. -/
theorem answers_found {E : Type} (pred : E → Bool) {w : Wait.State E}
    (hw : (Wait.machine pred).Reach w) (timeout : ℤ) {s : State}
    (h : (machine timeout).ReachIf (KeepsUp timeout) s) {d : ℤ} (hstage : s.stage = .done d) :
    (w.returned = Wait.matching pred w.seen ∧ w.seen <+: w.events ∧
      (∀ w' i, Wait.step pred w .scan = some w' → w'.pc = .raised i →
        w'.returned = Wait.matching pred w'.events) ∧
      ∀ d i, w.pc = .waiting d i false → w.returned = Wait.matching pred w.events) ∧
    s.found = s.answers d := by
  have hinv := Wait.reach_inv hw
  refine ⟨⟨hinv.returned, w.seen_prefix, fun w' i hs hr => hinv.raised hs hr,
    fun d i hpc => hinv.asleep_returned hpc⟩, ?_⟩
  rw [found_eq_answers (reach_inv h.reach) hstage, onTime_iff h.reach]
  exact (inTime_of_keepsUp h).2

end

/-! ## Two answers -/

/-- An answer with one endpoint. -/
def answer : Prompt := .matchDesc 0x1234 0 [1]

/-- Before the call, with nothing in the history. -/
def quiet : State := ⟨⟨0, [], 0, 0, .outside, []⟩, .start, []⟩

theorem quiet_start (timeout : ℤ) : (machine timeout).init quiet :=
  ⟨⟨rfl, rfl, rfl⟩, ⟨.nil, fun x hx => by cases hx⟩, rfl, rfl⟩

/-- One turn of the loop up to its first look at the history. -/
def turn : List Action := [.check, .call, .acquire, .scan]

/-- Both answers are taken; then the wait runs into its timeout. -/
def patientRun : List Action :=
  [.mark, .sent, .append answer, .append answer] ++ turn ++ turn ++ turn ++
    [.tick 5, .acquire, .scan]

/-- A wait that has returned its first event. -/
def waited : List (Wait.Action Prompt) := [.append answer, .call 5, .acquire, .scan]

theorem found_patient : ∃ w s, (Wait.machine isMatch).exec quiet.wait waited = some w ∧
    w.returned = Wait.matching isMatch w.seen ∧ (machine 5).exec quiet patientRun = some s ∧
    s.found = [answer, answer] ∧ s.found = s.answers 5 := by
  have hw : (Wait.machine isMatch).exec quiet.wait waited = some _ := rfl
  have hwait : (Wait.machine isMatch).Reach quiet.wait := .init ⟨rfl, rfl, rfl⟩
  have hrun : (machine 5).execIf (KeepsUp 5) quiet patientRun = some _ := rfl
  have hin : (machine 5).ReachIf (KeepsUp 5) _ := .execIf (.init (quiet_start 5)) hrun
  have hboth := answers_found isMatch (hwait.exec hw) 5 hin rfl
  exact ⟨_, _, hw, hboth.1.1, rfl, rfl, hboth.2⟩

/-- The time is over when the loop has taken the first answer. -/
def hastyRun : List Action :=
  [.mark, .sent, .append answer, .append answer] ++ turn ++ [.tick 5, .check]

/-- Both answers came before the deadline, and one is returned. -/
theorem hastyRun_found : ∃ s, (machine 5).exec quiet hastyRun = some s ∧ s.stage = .done 5 ∧
    s.found = [answer] ∧ s.answers 5 = [answer, answer] :=
  ⟨_, rfl, rfl, rfl, rfl⟩

/-- An answer comes at the deadline, before the caller has woken up, and is returned. -/
def lateRun : List Action :=
  [.mark, .sent] ++ turn ++ [.tick 5, .append answer, .acquire, .scan, .check]

example : ((machine 5).exec quiet lateRun).map (fun s => (s.stage, s.found, s.answers 5)) =
    some (.done 5, [answer], []) := rfl

theorem not_found_eq : ¬∀ s, (machine 5).Reach s → ∀ d, s.stage = .done d →
    s.found = s.answers d := by
  intro h
  obtain ⟨s, hrun, hdone, hfound, hans⟩ := hastyRun_found
  have heq := h s (Machine.Reach.exec (.init (quiet_start 5)) hrun) 5 hdone
  rw [hfound, hans] at heq
  cases heq

end ZbAt.MatchCall
