import ZbAt.Deferred
import ZbAt.SregProof
import ZbAt.ZbOpProof
import Mathlib.Data.List.Chain

/-!
# The stored line is executed once

In a boot with a stored line, the line is with the main thread or in `line_q` until the AT thread
takes it up, and nothing starts the stack or resets the module before (`Waits`). From then on, as in
a boot without one, the settings hold a line only when a command of the host stored it, right before
the reset (`Free`).

* `at_frame`, `stack_frame` — what the threads do to the settings and to each other.
* `inv` — the boots before this one, and where this one is.
* `stored_line_executed` — every boot executes the line that the boot before it stored, once and as
  it was stored, and that execution stores nothing.
-/

namespace ZbAt.Deferred

open Text Sreg Uart Xcast Zbc

/-! ## What the threads leave alone -/

/-- From a command that starts a network up to its deferral. -/
def beforeDeferral : AtPc → Bool
  | .startRole _ | .startStarted _ | .deferSave => true
  | _ => false

/-- What a command does to what the stored line depends on. -/
structure AtFrame (z z' : Zbc.State) : Prop where
  main : z'.main = z.main
  pendingCmd : z'.pendingCmd = z.pendingCmd
  line : z'.line = z.line
  before : beforeDeferral z'.at_ = true → beforeDeferral z.at_ = true
  startStarted : ∀ q, z'.at_ = .startStarted q → z'.stackStarted = z.stackStarted
  startRole : ∀ q, z'.at_ ≠ .startRole q
  deferSave : z'.at_ = .deferSave → ∃ q, z.at_ = .startStarted q ∧ z.stackStarted = true
  saved : z.at_ = .deferSave → z'.savedPend = some z.line ∧ z'.at_ = .reboot .defer
  kept : z.at_ ≠ .deferSave → z'.savedPend = z.savedPend ∨ z'.savedPend = none
  reboot : ∀ cause, z.at_ = .reboot cause → z'.at_ = .reboot cause ∧ z'.savedPend = z.savedPend

variable {z z' : Zbc.State}

/-- A step of a command after which it is not before a deferral. -/
theorem AtFrame.of_not_before (hmain : z'.main = z.main) (hpend : z'.pendingCmd = z.pendingCmd)
    (hline : z'.line = z.line) (hno : beforeDeferral z'.at_ = false) (hne : z.at_ ≠ .deferSave)
    (hkept : z'.savedPend = z.savedPend ∨ z'.savedPend = none)
    (hreboot : ∀ cause, z.at_ = .reboot cause → z'.at_ = .reboot cause ∧
      z'.savedPend = z.savedPend) : AtFrame z z' where
  main := hmain
  pendingCmd := hpend
  line := hline
  before h := absurd h (ne_true_of_eq_false hno)
  startStarted q h := by rw [h] at hno; cases hno
  startRole q h := by rw [h] at hno; cases hno
  deferSave h := by rw [h] at hno; cases hno
  saved h := absurd h hne
  kept _ := hkept
  reboot := hreboot

theorem at_frame {flag : Bool} (hs : stepAt flag z = some z') : AtFrame z z' := by
  cases hat : z.at_ with
  | idle => rw [stepAt, hat] at hs; cases hs
  | startRole q =>
    simp only [stepAt, hat, Option.some.injEq] at hs
    subst hs
    by_cases hrole : z.storedRole = .none
    · simp only [hrole, ne_eq, not_true_eq_false, if_false]
      refine ⟨rfl, rfl, rfl, ?_, fun _ _ => rfl, by simp, by simp, by simp [hat], fun _ => .inl rfl,
        by simp [hat]⟩
      rw [hat]
      exact fun _ => rfl
    · simp only [hrole, ne_eq, not_false_eq_true, if_true]
      exact .of_not_before rfl rfl rfl rfl (by simp [hat]) (.inl rfl) (by simp [hat])
  | startStarted q =>
    simp only [stepAt, hat, Option.some.injEq] at hs
    subst hs
    cases hst : z.stackStarted with
    | true =>
      simp only [if_true]
      refine ⟨rfl, rfl, rfl, ?_, by simp, by simp, fun _ => ⟨q, hat, hst⟩, by simp [hat],
        fun _ => .inl rfl, by simp [hat]⟩
      rw [hat]
      exact fun _ => rfl
    | false =>
      simp only [Bool.false_eq_true, if_false]
      exact .of_not_before rfl rfl rfl rfl (by simp [hat]) (.inl rfl) (by simp [hat])
  | deferSave =>
    simp only [stepAt, hat, Option.some.injEq] at hs
    subst hs
    refine ⟨rfl, rfl, rfl, by simp [beforeDeferral], by simp, by simp, by simp, fun _ => ⟨rfl, rfl⟩,
      fun h => absurd hat h, by simp [hat]⟩
  | reboot cause =>
    simp only [stepAt, hat, Option.some.injEq] at hs
    subst hs
    refine .of_not_before rfl rfl rfl rfl (by simp [hat]) (.inl rfl) ?_
    exact fun _ h => ⟨hat.symm.trans h, rfl⟩
  | deletePend cause =>
    simp only [stepAt, hat, Option.some.injEq] at hs
    subst hs
    exact .of_not_before rfl rfl rfl rfl (by simp [hat]) (.inr rfl) (by simp [hat])
  | erase | setRole | configure | semReset | setOp | markStarted | enable | timedOut | readResult
  | ret | leaveReset | leaveOp | leaveSchedule | leaveTimedOut | clearStored | printLeft =>
    simp only [stepAt, hat, Option.some.injEq] at hs
    subst hs
    exact .of_not_before rfl rfl rfl rfl (by simp [hat]) (.inl rfl) (by simp [hat])
  | opStarted | leaveJoined | answer =>
    simp only [stepAt, hat, Option.some.injEq] at hs
    subst hs
    refine .of_not_before rfl rfl rfl ?_ (by simp [hat]) (.inl rfl) (by simp [hat])
    dsimp only
    split_ifs <;> rfl
  | take | leaveTake =>
    simp only [stepAt, hat] at hs
    split_ifs at hs <;> cases hs <;>
      exact .of_not_before rfl rfl rfl rfl (by simp [hat]) (.inl rfl) (by simp [hat])
  | leaveRole k | clearSave k =>
    cases k <;> simp only [stepAt, hat] at hs <;> (try split_ifs at hs) <;> cases hs <;>
      exact .of_not_before rfl rfl rfl rfl (by simp [hat]) (.inl rfl) (by simp [hat])

/-- The stack thread, a signal and the reboot work leave the other threads and the stored line
alone. -/
structure StackFrame (z z' : Zbc.State) : Prop where
  main : z'.main = z.main
  at_ : z'.at_ = z.at_
  pendingCmd : z'.pendingCmd = z.pendingCmd
  savedPend : z'.savedPend = z.savedPend
  line : z'.line = z.line
  stackStarted : z'.stackStarted = z.stackStarted

theorem stack_frame (hs : stepStack z = some z') : StackFrame z z' := by
  cases hst : z.stack <;> simp only [stepStack, hst, Option.some.injEq, reduceCtorEq] at hs <;>
    subst hs <;> exact ⟨rfl, rfl, rfl, rfl, rfl, rfl⟩

/-! ## Lines -/

/-- The stored lines among these. -/
def fromBoot (lines : List Line) : List Line := lines.filter (·.stored)

@[simp] theorem fromBoot_append (a b : List Line) :
    fromBoot (a ++ b) = fromBoot a ++ fromBoot b := by
  simp [fromBoot]

@[simp] theorem fromBoot_host (t : Text) : fromBoot [⟨t, false⟩] = [] := rfl

@[simp] theorem fromBoot_stored (t : Text) : fromBoot [⟨t, true⟩] = [⟨t, true⟩] := rfl

/-- A line of the host leaves the stored lines in the queue alone. -/
theorem fromBoot_put (t : Text) (q : List Line) : fromBoot (put ⟨t, false⟩ q) = fromBoot q := by
  rw [put]
  split_ifs
  · rw [fromBoot_append, fromBoot_host, List.append_nil]
  · rfl

theorem mem_put {line l : Line} {q : List Line} (h : l ∈ put line q) : l ∈ q ∨ l = line := by
  rw [put] at h
  split_ifs at h
  · rcases List.mem_append.mp h with hq | hl
    · exact .inl hq
    · exact .inr (List.mem_singleton.mp hl)
  · exact .inl h

/-- A line that starts a network is not empty. -/
theorem command_ne_nil {line : Text} {r : Regs} {result : ℕ}
    (h : beforeDeferral (command line r result).enter = true) : line ≠ [] := by
  intro hnil
  subst hnil
  cases h

/-! ## The invariant -/

/-- A command that is harmless while the stored line waits, at a reset that it does not get to. -/
def ahead : AtPc → Bool
  | .idle | .startRole _ | .ret _ | .leaveRole _ | .answer _ => true
  | _ => false

/-- The line `t` is still with the main thread. -/
def Held (t : Text) (z : Zbc.State) : Prop :=
  match z.main with
  | .atCmdStart | .load _ true => z.savedPend = some t
  | .load _ false | .checkPend | .deletePend => z.pendingCmd = t
  | .inject => z.pendingCmd = t ∧ z.savedPend = none
  | _ => False

/-- The stored line `t` was not taken up, and the stack is not started. -/
structure Waits (t : Text) (s : State) : Prop where
  pend : s.log.pend = some t
  executed : fromBoot s.log.executed = []
  deferred : s.log.deferred = []
  place : Held t s.zbc ∧ fromBoot s.lineQ = [] ∨
    s.zbc.main = .done ∧ s.zbc.savedPend = none ∧ fromBoot s.lineQ = [⟨t, true⟩]
  unstarted : s.zbc.stackStarted = false
  rebootWork : s.zbc.rebootWork = false
  rebooted : s.zbc.rebooted = none
  at_ : ahead s.zbc.at_ = true

/-- The main thread has no stored line. -/
structure NoLine (z : Zbc.State) : Prop where
  pendingCmd : z.pendingCmd = []
  deletePend : z.main ≠ .deletePend
  inject : z.main ≠ .inject

/-- A line that can be stored. -/
def Storable (t : Text) : Prop := t ≠ [] ∧ t.length < Uart.atLineMax

/-- The settings hold no line, or the one that was stored right before the reset. -/
def Stored (s : State) : Prop :=
  s.log.deferred = [] ∧ s.zbc.savedPend = none ∨
    ∃ t, Storable t ∧ s.log.deferred = [⟨t, false⟩] ∧ s.zbc.savedPend = some t ∧
      s.zbc.main = .done ∧ s.zbc.at_ = .reboot .defer

/-- The boot has no stored line, or has taken it up. -/
structure Free (s : State) : Prop where
  executed : fromBoot s.log.executed = s.log.pend.toList.map (⟨·, true⟩)
  lineQ : fromBoot s.lineQ = []
  main : s.zbc.main = .done ∨ NoLine s.zbc
  stored : Stored s
  own : s.current = true → s.zbc.main = .done ∧ s.zbc.at_ ≠ .deferSave ∧
    (beforeDeferral s.zbc.at_ = true → s.zbc.stackStarted = false)

structure Inv (s : State) : Prop where
  past : ∀ b ∈ s.past, b.Served
  handed : (s.past ++ [s.log]).IsChain Handed
  first : ∀ b ∈ (s.past ++ [s.log]).head?, b.pend = none
  line : s.zbc.line.length < Uart.atLineMax
  lineQ : ∀ line ∈ s.lineQ, line.text.length < Uart.atLineMax
  starts : beforeDeferral s.zbc.at_ = true → s.zbc.line ≠ []
  phase : (∃ t, Storable t ∧ Waits t s) ∨ Free s

/-- While the line waits, `waiting` says so. -/
theorem Waits.waiting {t : Text} {s : State} (h : Waits t s) : s.waiting = true := by
  have hall : ∀ line ∈ s.log.executed, line.stored = false := fun line hmem => by
    simpa using List.filter_eq_nil_iff.mp h.executed line hmem
  rw [State.waiting, h.pend, Option.isSome_some, Bool.true_and, List.all_eq_true]
  intro line hmem
  rw [hall line hmem]
  rfl

/-! ## The next boot -/

/-- A boot that is not waiting has served its line. -/
theorem Free.served {s : State} (h : Free s) : s.log.Served := by
  refine ⟨h.executed, ?_⟩
  rcases h.stored with ⟨hnil, -⟩ | ⟨t, -, hone, -⟩
  · simp [hnil]
  · simp [hone]

/-- The next boot begins with the line that this one stored. -/
theorem Free.handed {s : State} (h : Free s) : Handed s.log s.next.log := by
  rcases h.stored with ⟨hnil, hpend⟩ | ⟨t, -, hone, hpend, -⟩
  · rw [Handed, hnil]
    exact hpend
  · rw [Handed, hone]
    exact hpend

/-- Power on with a stored line, or without. -/
theorem phase_powerOn (role : Role) (past : List BootLog) {pend : Option Text}
    (h : ∀ t ∈ pend, Storable t) :
    (∃ t, Storable t ∧ Waits t (powerOn role pend past)) ∨ Free (powerOn role pend past) := by
  cases pend with
  | none =>
    exact .inr ⟨rfl, rfl, .inr ⟨rfl, by simp [powerOn, Zbc.init], by simp [powerOn, Zbc.init]⟩,
      .inl ⟨rfl, rfl⟩, by simp [powerOn]⟩
  | some t =>
    exact .inl ⟨t, h t rfl, rfl, rfl, rfl, .inl ⟨rfl, rfl⟩, rfl, rfl, rfl, rfl⟩

theorem Inv.next {s : State} (h : Inv s) (hfree : Free s) : Inv s.next where
  past b hb := by
    rcases List.mem_append.mp hb with hold | hnew
    · exact h.past b hold
    · rw [List.mem_singleton.mp hnew]
      exact hfree.served
  handed := by
    show ((s.past ++ [s.log]) ++ [s.next.log]).IsChain Handed
    refine List.isChain_append.mpr ⟨h.handed, List.isChain_singleton _, ?_⟩
    intro b hb b' hb'
    rw [List.getLast?_concat] at hb
    cases hb
    cases hb'
    exact hfree.handed
  first := by
    show ∀ b ∈ ((s.past ++ [s.log]) ++ [s.next.log]).head?, b.pend = none
    rw [List.head?_append_of_ne_nil _ (by simp)]
    exact h.first
  line := Nat.zero_lt_succ 199
  lineQ := by simp [State.next, powerOn]
  starts := by simp [State.next, powerOn, Zbc.init, beforeDeferral]
  phase := by
    refine phase_powerOn _ _ fun t ht => ?_
    rcases hfree.stored with ⟨-, hpend⟩ | ⟨t', ht', -, hpend, -⟩
    · rw [hpend] at ht
      cases ht
    · rw [hpend] at ht
      cases ht
      exact ht'

/-! ## One step -/

section

variable {s : State} {t : Text}

/-- A step within the boot. -/
theorem Inv.within (h : Inv s) {z : Zbc.State} {q : List Line} {current : Bool}
    {executed deferred : List Line} (hline : z.line.length < Uart.atLineMax)
    (hq : ∀ line ∈ q, line.text.length < Uart.atLineMax)
    (hstarts : beforeDeferral z.at_ = true → z.line ≠ [])
    (hphase :
      (∃ t, Storable t ∧ Waits t ⟨z, q, current, ⟨s.log.pend, executed, deferred⟩, s.past⟩) ∨
        Free ⟨z, q, current, ⟨s.log.pend, executed, deferred⟩, s.past⟩) :
    Inv ⟨z, q, current, ⟨s.log.pend, executed, deferred⟩, s.past⟩ where
  past := h.past
  handed := by
    obtain ⟨hpast, -, hlast⟩ := List.isChain_append.mp h.handed
    refine List.isChain_append.mpr ⟨hpast, List.isChain_singleton _, ?_⟩
    intro b hb b' hb'
    cases hb'
    exact hlast b hb s.log rfl
  first := by
    have hfirst := h.first
    cases hpast : s.past with
    | nil =>
      rw [hpast] at hfirst
      intro b hb
      cases hb
      exact hfirst s.log rfl
    | cons b rest =>
      rw [hpast] at hfirst
      intro b' hb'
      exact hfirst b' hb'
  line := hline
  lineQ := hq
  starts := hstarts
  phase := hphase

theorem Inv.receive (h : Inv s) {line : Text} (hlen : line.length < Uart.atLineMax) :
    Inv { s with lineQ := put ⟨cstr line, false⟩ s.lineQ } := by
  refine h.within h.line ?_ h.starts ?_
  · intro l hl
    rcases mem_put hl with hold | rfl
    · exact h.lineQ l hold
    · exact lt_of_le_of_lt (List.takeWhile_sublist _).length_le hlen
  · rcases h.phase with ⟨t, ht, hw⟩ | hf
    · refine .inl ⟨t, ht, hw.pend, hw.executed, hw.deferred, ?_, hw.unstarted, hw.rebootWork,
        hw.rebooted, hw.at_⟩
      rw [fromBoot_put]
      exact hw.place
    · refine .inr ⟨hf.executed, ?_, hf.main, hf.stored, hf.own⟩
      rw [fromBoot_put]
      exact hf.lineQ

/-- A harmless command comes to no other than the harmless places. -/
theorem ahead_enter (cmd : Cmd) : ahead cmd.enter = true := by
  cases cmd <;> rfl

/-- The line that the AT thread takes, as the phase has it. -/
theorem Waits.take {line : Line} {rest : List Line} {z : Zbc.State} (hw : Waits t s)
    (hq : s.lineQ = line :: rest) (cmd : Cmd)
    (hz : z = { s.zbc with line := line.text, at_ := cmd.enter, log := [], fresh := z.fresh }) :
    Waits t ⟨z, rest, line.stored, { s.log with executed := s.log.executed ++ [line] }, s.past⟩ ∨
      Free ⟨z, rest, line.stored, { s.log with executed := s.log.executed ++ [line] }, s.past⟩ := by
  obtain ⟨text, stored⟩ := line
  cases stored with
  | false =>
    refine .inl ⟨hw.pend, ?_, hw.deferred, ?_, ?_, ?_, ?_, ?_⟩
    · rw [fromBoot_append, hw.executed]
      rfl
    · have hplace := hw.place
      rw [hq] at hplace
      rw [hz]
      exact hplace
    · rw [hz]
      exact hw.unstarted
    · rw [hz]
      exact hw.rebootWork
    · rw [hz]
      exact hw.rebooted
    · rw [hz]
      exact ahead_enter cmd
  | true =>
    rcases hw.place with ⟨-, hnone⟩ | ⟨hmain, hsaved, hone⟩
    · rw [hq] at hnone
      cases hnone
    · rw [hq] at hone
      obtain ⟨hline, hrest⟩ := List.cons.inj
        (show (⟨text, true⟩ : Line) :: fromBoot rest = [⟨t, true⟩] from hone)
      refine .inr ⟨?_, hrest, ?_, ?_, ?_⟩
      · rw [fromBoot_append, hw.executed, hline]
        show [(⟨t, true⟩ : Line)] = _
        rw [hw.pend]
        rfl
      · rw [hz]
        exact .inl hmain
      · refine .inl ⟨hw.deferred, ?_⟩
        rw [hz]
        exact hsaved
      · intro _
        rw [hz]
        refine ⟨hmain, ?_, fun _ => hw.unstarted⟩
        show cmd.enter ≠ .deferSave
        cases cmd <;> simp [Cmd.enter]

theorem Free.take {line : Line} {rest : List Line} {z : Zbc.State} (hf : Free s)
    (hidle : s.zbc.at_ = .idle) (hq : s.lineQ = line :: rest) (cmd : Cmd)
    (hz : z = { s.zbc with line := line.text, at_ := cmd.enter, log := [], fresh := z.fresh }) :
    Free ⟨z, rest, line.stored, { s.log with executed := s.log.executed ++ [line] }, s.past⟩ := by
  obtain ⟨text, stored⟩ := line
  have hnone := hf.lineQ
  rw [hq] at hnone
  cases stored with
  | true => cases hnone
  | false =>
    refine ⟨?_, hnone, ?_, ?_, fun h => by cases h⟩
    · rw [fromBoot_append, hf.executed]
      exact List.append_nil _
    · rw [hz]
      rcases hf.main with hdone | hno
      · exact .inl hdone
      · exact .inr ⟨hno.pendingCmd, hno.deletePend, hno.inject⟩
    · rcases hf.stored with ⟨hnil, hsaved⟩ | ⟨t, -, -, -, -, hreboot⟩
      · refine .inl ⟨hnil, ?_⟩
        rw [hz]
        exact hsaved
      · rw [hidle] at hreboot
        cases hreboot

theorem Inv.take (h : Inv s) {line : Line} {rest : List Line} {r : Regs} {result : ℕ}
    {z : Zbc.State} (hq : s.lineQ = line :: rest)
    (hs : Zbc.step s.zbc (.command line.text (command line.text r result)) = some z) :
    Inv ⟨z, rest, line.stored, { s.log with executed := s.log.executed ++ [line] }, s.past⟩ := by
  obtain ⟨-, hs⟩ := step_move hs
  simp only [move] at hs
  split_ifs at hs with hidle
  have hz : z = { s.zbc with
      line := line.text
      at_ := (command line.text r result).enter
      log := []
      fresh := z.fresh } := by
    cases hs
    rfl
  have hmem : line ∈ s.lineQ := by
    rw [hq]
    exact List.mem_cons_self
  refine h.within ?_ ?_ ?_ ?_
  · rw [hz]
    exact h.lineQ line hmem
  · intro l hl
    exact h.lineQ l (by rw [hq]; exact List.mem_cons_of_mem _ hl)
  · rw [hz]
    exact command_ne_nil
  · rcases h.phase with ⟨t, ht, hw⟩ | hf
    · rcases hw.take hq _ hz with hw' | hf'
      · exact .inl ⟨t, ht, hw'⟩
      · exact .inr hf'
    · exact .inr (hf.take hidle.1 hq _ hz)

/-! ## The main thread -/

/-- The main thread moves only while it holds the stored line. -/
theorem Waits.held {roleFirst : Bool} {mask : UInt32} {z : Zbc.State} (hw : Waits t s)
    (hs : stepMain roleFirst mask s.zbc = some z) : Held t s.zbc ∧ fromBoot s.lineQ = [] := by
  rcases hw.place with hheld | ⟨hdone, -⟩
  · exact hheld
  · rw [stepMain, hdone] at hs
    cases hs

/-- The main thread with a stored line. -/
theorem Waits.main_step {roleFirst : Bool} {mask : UInt32} {z : Zbc.State} (ht : Storable t)
    (hw : Waits t s) (hroom : s.zbc.main = .inject → s.lineQ.length < lineQDepth)
    (hs : stepMain roleFirst mask s.zbc = some z) : Waits t { s with
      zbc := z
      lineQ := if s.zbc.main = .inject then injectLine s.zbc.pendingCmd s.lineQ else s.lineQ } := by
  obtain ⟨hheld, hnone⟩ := hw.held hs
  obtain ⟨hpend, hexec, hdef, -, hun, hwork, hreb, hat⟩ := hw
  cases hm : s.zbc.main with
  | atCmdStart =>
    simp only [stepMain, hm, Option.some.injEq] at hs
    simp only [Held, hm] at hheld
    subst hs
    exact ⟨hpend, hexec, hdef, .inl ⟨hheld, hnone⟩, hun, hwork, hreb, hat⟩
  | load role pend =>
    simp only [stepMain, hm] at hs
    split_ifs at hs with hrole hload <;> cases hs
    · refine ⟨hpend, hexec, hdef, .inl ⟨?_, hnone⟩, hun, hwork, hreb, hat⟩
      cases pend <;> simpa only [Held, hm] using hheld
    · refine ⟨hpend, hexec, hdef, .inl ⟨?_, hnone⟩, hun, hwork, hreb, hat⟩
      simp only [Held, hm, hload] at hheld
      simp only [Held, hheld]
      exact if_pos ht.2
    · refine ⟨hpend, hexec, hdef, .inl ⟨?_, hnone⟩, hun, hwork, hreb, hat⟩
      simpa only [Held, hm, hload] using hheld
  | checkPend =>
    simp only [Held, hm] at hheld
    simp only [stepMain, hm, Option.some.injEq] at hs
    rw [if_pos (by rw [hheld]; exact ht.1)] at hs
    subst hs
    exact ⟨hpend, hexec, hdef, .inl ⟨hheld, hnone⟩, hun, hwork, hreb, hat⟩
  | deletePend =>
    simp only [Held, hm] at hheld
    simp only [stepMain, hm, Option.some.injEq] at hs
    subst hs
    exact ⟨hpend, hexec, hdef, .inl ⟨⟨hheld, rfl⟩, hnone⟩, hun, hwork, hreb, hat⟩
  | inject =>
    simp only [Held, hm] at hheld
    simp only [stepMain, hm, Option.some.injEq] at hs
    subst hs
    refine ⟨hpend, hexec, hdef, .inr ⟨rfl, hheld.2, ?_⟩, hun, hwork, hreb, hat⟩
    have htake : s.zbc.pendingCmd.take (Uart.atLineMax - 1) = t := by
      rw [hheld.1]
      exact List.take_of_length_le (Nat.le_sub_one_of_lt ht.2)
    show fromBoot (injectLine s.zbc.pendingCmd s.lineQ) = _
    rw [injectLine, htake, put, if_pos (hroom hm), fromBoot_append, hnone]
    rfl
  | checkRole | setRole | markStarted | enable | done => simp [Held, hm] at hheld

/-- The main thread without a stored line. -/
theorem Free.main_step {roleFirst : Bool} {mask : UInt32} {z : Zbc.State} (hf : Free s)
    (hs : stepMain roleFirst mask s.zbc = some z) : Free { s with
      zbc := z
      lineQ := if s.zbc.main = .inject then injectLine s.zbc.pendingCmd s.lineQ else s.lineQ } := by
  have hnot : s.zbc.main ≠ .done := by
    intro hdone
    rw [stepMain, hdone] at hs
    cases hs
  have hno : NoLine s.zbc := hf.main.resolve_left hnot
  have hsaved : s.log.deferred = [] ∧ s.zbc.savedPend = none := by
    rcases hf.stored with hnone | ⟨t, -, -, -, hdone, -⟩
    · exact hnone
    · exact absurd hdone hnot
  obtain ⟨hmain, hkept⟩ : (z.main = .done ∨ NoLine z) ∧ z.savedPend = none := by
    cases hm : s.zbc.main with
    | deletePend => exact absurd hm hno.deletePend
    | inject => exact absurd hm hno.inject
    | done => exact absurd hm hnot
    | load role pend =>
      simp only [stepMain, hm] at hs
      split_ifs at hs <;> cases hs
      · exact ⟨.inr ⟨hno.pendingCmd, by simp, by simp⟩, hsaved.2⟩
      · refine ⟨.inr ⟨?_, by simp, by simp⟩, hsaved.2⟩
        simp only [hsaved.2]
        exact hno.pendingCmd
      · exact ⟨.inr ⟨hno.pendingCmd, by simp, by simp⟩, hsaved.2⟩
    | checkPend =>
      simp only [stepMain, hm, Option.some.injEq] at hs
      rw [if_neg (by rw [hno.pendingCmd]; simp)] at hs
      subst hs
      exact ⟨.inr ⟨hno.pendingCmd, by simp, by simp⟩, hsaved.2⟩
    | checkRole =>
      simp only [stepMain, hm, Option.some.injEq] at hs
      subst hs
      refine ⟨?_, hsaved.2⟩
      by_cases hrole : s.zbc.storedRole = .none
      · exact .inl (if_neg (not_not.mpr hrole))
      · exact .inr ⟨hno.pendingCmd, by simp [hrole], by simp [hrole]⟩
    | atCmdStart | setRole | markStarted =>
      simp only [stepMain, hm, Option.some.injEq] at hs
      subst hs
      exact ⟨.inr ⟨hno.pendingCmd, by simp, by simp⟩, hsaved.2⟩
    | enable =>
      simp only [stepMain, hm, Option.some.injEq] at hs
      subst hs
      exact ⟨.inl rfl, hsaved.2⟩
  rw [if_neg hno.inject]
  exact ⟨hf.executed, hf.lineQ, hmain, .inl ⟨hsaved.1, hkept⟩,
    fun hown => absurd (hf.own hown).1 hnot⟩

theorem stepMain_line {roleFirst : Bool} {mask : UInt32} {z : Zbc.State}
    (hs : stepMain roleFirst mask s.zbc = some z) : z.line = s.zbc.line ∧ z.at_ = s.zbc.at_ := by
  refine ⟨?_, (stepMain_frame hs).1⟩
  cases hm : s.zbc.main <;> simp only [stepMain, hm, reduceCtorEq] at hs <;>
    (try split_ifs at hs) <;> cases hs <;> rfl

theorem Inv.main_step {roleFirst : Bool} {mask : UInt32} {z : Zbc.State} (h : Inv s)
    (hroom : s.zbc.main = .inject → s.lineQ.length < lineQDepth)
    (hs : Zbc.step s.zbc (.main roleFirst mask) = some z) : Inv { s with
      zbc := z
      lineQ := if s.zbc.main = .inject then injectLine s.zbc.pendingCmd s.lineQ else s.lineQ } := by
  obtain ⟨-, hs⟩ := step_move hs
  obtain ⟨hline, hat⟩ := stepMain_line hs
  refine h.within (by rw [hline]; exact h.line) ?_ (by rw [hline, hat]; exact h.starts) ?_
  · split_ifs
    · intro l hl
      rcases mem_put hl with hold | rfl
      · exact h.lineQ l hold
      · exact lt_of_le_of_lt (List.length_take_le _ _) (by decide)
    · exact h.lineQ
  · rcases h.phase with ⟨t, ht, hw⟩ | hf
    · exact .inl ⟨t, ht, hw.main_step ht hroom hs⟩
    · exact .inr (hf.main_step hs)

/-! ## The AT thread -/

/-- The AT thread while the stored line waits. -/
theorem Waits.at_step {flag : Bool} {z : Zbc.State} (hw : Waits t s)
    (hharmless : harmless s.zbc.storedRole s.zbc.at_ = true)
    (hs : stepAt flag s.zbc = some z) : s.zbc.at_ ≠ .deferSave ∧ Waits t { s with zbc := z } := by
  obtain ⟨hpend, hexec, hdef, hplace, hun, hwork, hreb, hat⟩ := hw
  cases hpc : s.zbc.at_ with
  | startRole q =>
    rw [hpc] at hharmless
    have hrole : s.zbc.storedRole ≠ .none := by simpa [harmless] using hharmless
    simp only [stepAt, hpc, Option.some.injEq] at hs
    rw [if_pos hrole] at hs
    subst hs
    exact ⟨by simp, hpend, hexec, hdef, hplace, hun, hwork, hreb, rfl⟩
  | ret result =>
    simp only [stepAt, hpc, Option.some.injEq] at hs
    subst hs
    exact ⟨by simp, hpend, hexec, hdef, hplace, hun, hwork, hreb, rfl⟩
  | leaveRole k =>
    rw [hpc] at hharmless
    cases k with
    | factory => cases hharmless
    | dassl =>
      have hrole : s.zbc.storedRole = .none := by simpa [harmless] using hharmless
      simp only [stepAt, hpc] at hs
      rw [if_pos hrole] at hs
      cases hs
      exact ⟨by simp, hpend, hexec, hdef, hplace, hun, hwork, hreb, rfl⟩
  | answer cause =>
    rw [hpc] at hharmless
    cases hharmless
  | idle =>
    rw [stepAt, hpc] at hs
    cases hs
  | _ =>
    rw [hpc] at hat
    cases hat

/-- The log of the boot after a step of the AT thread. -/
def logAt (s : State) : BootLog :=
  if s.zbc.at_ = .deferSave then
    { s.log with deferred := s.log.deferred ++ [⟨s.zbc.line, s.current⟩] }
  else s.log

/-- A step that leaves the main thread alone gives it no stored line. -/
theorem Free.main_frame {z : Zbc.State} (hf : Free s) (hmain : z.main = s.zbc.main)
    (hpend : z.pendingCmd = s.zbc.pendingCmd) : z.main = .done ∨ NoLine z := by
  rcases hf.main with hdone | hno
  · exact .inl (hmain.trans hdone)
  · refine .inr ⟨hpend.trans hno.pendingCmd, ?_, ?_⟩
    · rw [hmain]
      exact hno.deletePend
    · rw [hmain]
      exact hno.inject

/-- The AT thread while no stored line waits. -/
theorem Free.at_step {flag : Bool} {z : Zbc.State} (hf : Free s)
    (hdone : s.zbc.at_ = .deferSave → s.zbc.main = .done)
    (hline : s.zbc.line.length < Uart.atLineMax)
    (hstarts : beforeDeferral s.zbc.at_ = true → s.zbc.line ≠ [])
    (hs : stepAt flag s.zbc = some z) : Free { s with zbc := z, log := logAt s } := by
  have hframe := at_frame hs
  have hmain := hf.main_frame hframe.main hframe.pendingCmd
  have hown : s.current = true → z.main = .done ∧ z.at_ ≠ .deferSave ∧
      (beforeDeferral z.at_ = true → z.stackStarted = false) := by
    intro hcurrent
    obtain ⟨hm, hno, hun⟩ := hf.own hcurrent
    refine ⟨hframe.main.trans hm, ?_, ?_⟩
    · intro hdefer
      obtain ⟨q, hq, hst⟩ := hframe.deferSave hdefer
      have hst' := hun (by rw [hq]; rfl)
      rw [hst] at hst'
      cases hst'
    · intro hbefore
      have hst := hun (hframe.before hbefore)
      cases hat : z.at_ with
      | startRole q => exact absurd hat (hframe.startRole q)
      | startStarted q => exact (hframe.startStarted q hat).trans hst
      | deferSave =>
        obtain ⟨q, -, hst'⟩ := hframe.deferSave hat
        rw [hst] at hst'
        cases hst'
      | _ =>
        rw [hat] at hbefore
        cases hbefore
  by_cases hdefer : s.zbc.at_ = .deferSave
  · have hhost : s.current = false := by
      cases hcurrent : s.current with
      | true => exact absurd hdefer (hf.own hcurrent).2.1
      | false => rfl
    have hnil : s.log.deferred = [] := by
      rcases hf.stored with ⟨hnil, -⟩ | ⟨t, -, -, -, -, hreboot⟩
      · exact hnil
      · rw [hdefer] at hreboot
        cases hreboot
    obtain ⟨hsaved, hreboot⟩ := hframe.saved hdefer
    rw [logAt, if_pos hdefer]
    refine ⟨hf.executed, hf.lineQ, hmain, ?_, hown⟩
    refine .inr ⟨s.zbc.line, ⟨hstarts (by rw [hdefer]; rfl), hline⟩, ?_, hsaved,
      hframe.main.trans (hdone hdefer), hreboot⟩
    show s.log.deferred ++ [⟨s.zbc.line, s.current⟩] = [⟨s.zbc.line, false⟩]
    rw [hnil, hhost]
    rfl
  · rw [logAt, if_neg hdefer]
    refine ⟨hf.executed, hf.lineQ, hmain, ?_, hown⟩
    rcases hf.stored with ⟨hnil, hsaved⟩ | ⟨t, ht, hone, hsaved, hm, hreboot⟩
    · refine .inl ⟨hnil, ?_⟩
      rcases hframe.kept hdefer with hkept | hgone
      · exact hkept.trans hsaved
      · exact hgone
    · obtain ⟨hat, hkept⟩ := hframe.reboot _ hreboot
      exact .inr ⟨t, ht, hone, hkept.trans hsaved, hframe.main.trans hm, hat⟩

theorem Inv.at_step {flag : Bool} {z : Zbc.State} (h : Inv s)
    (hharmless : s.waiting = true → harmless s.zbc.storedRole s.zbc.at_ = true)
    (hdone : s.zbc.at_ = .deferSave → s.zbc.main = .done)
    (hs : Zbc.step s.zbc (.at_ flag) = some z) : Inv { s with zbc := z, log := logAt s } := by
  obtain ⟨-, hs⟩ := step_move hs
  have hframe := at_frame hs
  have hlog : logAt s = ⟨s.log.pend, s.log.executed, (logAt s).deferred⟩ := by
    rw [logAt]
    split_ifs <;> rfl
  rw [hlog]
  refine h.within (by rw [hframe.line]; exact h.line) h.lineQ ?_ ?_
  · intro hbefore
    rw [hframe.line]
    exact h.starts (hframe.before hbefore)
  · rw [← hlog]
    rcases h.phase with ⟨t, ht, hw⟩ | hf
    · obtain ⟨hne, hw'⟩ := hw.at_step (hharmless hw.waiting) hs
      rw [logAt, if_neg hne]
      exact .inl ⟨t, ht, hw'⟩
    · exact .inr (hf.at_step hdone h.line h.starts hs)

/-! ## The stack thread -/

/-- A step of the stack thread while no line waits. -/
theorem Free.stack_step {z : Zbc.State} (hf : Free s) (hframe : StackFrame s.zbc z) :
    Free { s with zbc := z } := by
  refine ⟨hf.executed, hf.lineQ, hf.main_frame hframe.main hframe.pendingCmd, ?_, ?_⟩
  · rcases hf.stored with ⟨hnil, hsaved⟩ | ⟨t, ht, hone, hsaved, hm, hreboot⟩
    · exact .inl ⟨hnil, hframe.savedPend.trans hsaved⟩
    · exact .inr ⟨t, ht, hone, hframe.savedPend.trans hsaved, hframe.main.trans hm,
        hframe.at_.trans hreboot⟩
  · intro hcurrent
    rw [hframe.main, hframe.at_, hframe.stackStarted]
    exact hf.own hcurrent

/-- The stack thread does not move while a line waits. -/
theorem Waits.stack_idle (hr : RunOp s.zbc) (hw : Waits t s) :
    .enable ∉ s.zbc.calls ∧ s.zbc.stack = .idle := by
  have hno := fun he => Bool.false_ne_true (hw.unstarted.symm.trans (hr.enabled he))
  exact ⟨hno, by_contra fun hne => hno (hr.handling hne)⟩

theorem Inv.stack_step {z : Zbc.State} (h : Inv s) (hwait : ∀ t, ¬Waits t s)
    (hframe : StackFrame s.zbc z) : Inv { s with zbc := z } := by
  refine h.within (by rw [hframe.line]; exact h.line) h.lineQ ?_ ?_
  · rw [hframe.line, hframe.at_]
    exact h.starts
  · rcases h.phase with ⟨t, -, hw⟩ | hf
    · exact absurd hw (hwait t)
    · exact .inr (hf.stack_step hframe)

theorem Inv.free (h : Inv s) (hwait : ∀ t, ¬Waits t s) : Free s := by
  rcases h.phase with ⟨t, -, hw⟩ | hf
  · exact absurd hw (hwait t)
  · exact hf

/-! ## Every run -/

variable {s' : State} {a : Action}

theorem inv_step (hr : RunOp s.zbc) (h : Inv s) (hc : Unhindered s a) (hs : step s a = some s') :
    Inv s' := by
  cases a with
  | receive line =>
    simp only [step] at hs
    split_ifs at hs with hrecv
    cases hs
    rw [Bool.and_eq_true, decide_eq_true_eq] at hrecv
    exact h.receive hrecv.2
  | take r result =>
    cases hq : s.lineQ with
    | nil => simp [step, hq] at hs
    | cons line rest =>
      simp only [step, hq] at hs
      obtain ⟨z, hz, rfl⟩ := Option.map_eq_some_iff.mp hs
      exact h.take hq hz
  | main roleFirst mask =>
    obtain ⟨z, hz, rfl⟩ := Option.map_eq_some_iff.mp hs
    exact h.main_step hc hz
  | at_ flag =>
    obtain ⟨z, hz, rfl⟩ := Option.map_eq_some_iff.mp hs
    exact h.at_step hc.1 hc.2 hz
  | signal g =>
    obtain ⟨z, hz, rfl⟩ := Option.map_eq_some_iff.mp hs
    obtain ⟨-, hz⟩ := step_move hz
    simp only [move] at hz
    split_ifs at hz with hen
    cases hz
    exact h.stack_step (fun t hw => (hw.stack_idle hr).1 hen.2) ⟨rfl, rfl, rfl, rfl, rfl, rfl⟩
  | stack =>
    obtain ⟨z, hz, rfl⟩ := Option.map_eq_some_iff.mp hs
    obtain ⟨-, hz⟩ := step_move hz
    refine h.stack_step (fun t hw => ?_) (stack_frame hz)
    simp only [move, stepStack, (hw.stack_idle hr).2] at hz
    cases hz
  | rebootWork =>
    obtain ⟨z, hz, rfl⟩ := Option.map_eq_some_iff.mp hs
    obtain ⟨-, hz⟩ := step_move hz
    simp only [move] at hz
    split_ifs at hz with hwork
    cases hz
    refine h.stack_step (fun t hw => ?_) ⟨rfl, rfl, rfl, rfl, rfl, rfl⟩
    rw [hw.rebootWork] at hwork
    cases hwork
  | restart =>
    simp only [step] at hs
    split_ifs at hs with hreb
    cases hs
    refine h.next (h.free fun t hw => ?_)
    rw [hw.rebooted] at hreb
    cases hreb
  | powerLoss =>
    cases hs
    refine h.next (h.free fun t hw => ?_)
    have hwaiting : s.waiting = false := hc
    rw [hw.waiting] at hwaiting
    cases hwaiting

/-- The threads of one boot run as in `Zbc.machine`. -/
theorem zbc_step (h : Zbc.machine.Reach s.zbc) (hs : step s a = some s') :
    Zbc.machine.Reach s'.zbc := by
  have hnext : Zbc.machine.Reach s.next.zbc := .init ⟨_, _, rfl⟩
  cases a with
  | receive line =>
    simp only [step] at hs
    split_ifs at hs
    cases hs
    exact h
  | take r result =>
    cases hq : s.lineQ with
    | nil => simp [step, hq] at hs
    | cons line rest =>
      simp only [step, hq] at hs
      obtain ⟨z, hz, rfl⟩ := Option.map_eq_some_iff.mp hs
      exact .step h trivial hz
  | main | at_ | signal | stack | rebootWork =>
    obtain ⟨z, hz, rfl⟩ := Option.map_eq_some_iff.mp hs
    exact .step h trivial hz
  | restart =>
    simp only [step] at hs
    split_ifs at hs
    cases hs
    exact hnext
  | powerLoss =>
    cases hs
    exact hnext

theorem zbc_reach (h : machine.Reach s) : Zbc.machine.Reach s.zbc := by
  refine h.invariant (fun s => Zbc.machine.Reach s.zbc) ?_ fun _ _ _ hz _ hs => zbc_step hz hs
  intro s' h0
  obtain ⟨role, rfl⟩ := h0
  exact .init ⟨_, _, rfl⟩

theorem inv_init (role : Role) : Inv (powerOn role none []) where
  past := by simp [powerOn]
  handed := List.isChain_singleton _
  first := by simp [powerOn]
  line := Nat.zero_lt_succ 199
  lineQ := by simp [powerOn]
  starts := by simp [powerOn, Zbc.init, beforeDeferral]
  phase := phase_powerOn role [] (by simp)

theorem inv (h : machine.ReachIf Unhindered s) : Inv s := by
  refine h.invariant_of (fun s => RunOp s.zbc) Inv (fun _ hr => runOp_reach (zbc_reach hr)) ?_
    fun _ _ _ hr _ hinv hc hs => inv_step hr hinv hc hs
  intro s' h0
  obtain ⟨role, rfl⟩ := h0
  exact inv_init role

/-- While the line waits, the main thread or the AT thread can go on. -/
theorem Waits.moves (hw : Waits t s) : ∃ a ∈ [.main true 0, .at_ true, .take anyRegs 0],
    (step s a).isSome = true := by
  have hstep : ∀ a, Zbc.step s.zbc a = move s.zbc a := fun a => by
    rw [Zbc.step, hw.rebooted]
    rfl
  rcases hw.place with ⟨hheld, -⟩ | ⟨hmain, -, hone⟩
  · refine ⟨.main true 0, by simp, ?_⟩
    rw [step, Option.isSome_map, hstep, move]
    cases hm : s.zbc.main with
    | done => simp [Held, hm] at hheld
    | load role pend =>
      simp only [stepMain, hm]
      split_ifs <;> rfl
    | _ => simp only [stepMain, hm, Option.isSome_some]
  · by_cases hidle : s.zbc.at_ = .idle
    · refine ⟨.take anyRegs 0, by simp, ?_⟩
      cases hq : s.lineQ with
      | nil => simp [hq, fromBoot] at hone
      | cons line rest =>
        simp [step, hq, hstep, move, hidle, hmain]
    · refine ⟨.at_ true, by simp, ?_⟩
      rw [step, Option.isSome_map, hstep, move]
      have hahead := hw.at_
      cases hat : s.zbc.at_ with
      | idle => exact absurd hat hidle
      | startRole | ret | answer => simp only [stepAt, hat, Option.isSome_some]
      | leaveRole k =>
        simp only [stepAt, hat]
        split_ifs <;> rfl
      | _ =>
        rw [hat] at hahead
        cases hahead

/-- The boot has neither settled nor ended while the line waits. -/
theorem Waits.unsettled (hw : Waits t s) : ¬(s.Settled ∨ s.zbc.rebooted.isSome = true) := by
  intro hend
  rcases hend with ⟨hmain, hempty, -⟩ | hreb
  · rcases hw.place with ⟨hheld, -⟩ | ⟨-, -, hone⟩
    · simp [Held, hmain] at hheld
    · simp [hempty, fromBoot] at hone
  · rw [hw.rebooted] at hreb
    cases hreb

theorem Free.not_waiting (hf : Free s) : s.waiting = false := by
  cases hpend : s.log.pend with
  | none => rw [State.waiting, hpend, Option.isSome_none, Bool.false_and]
  | some t =>
    have hexec := hf.executed
    rw [hpend] at hexec
    have hmem : (⟨t, true⟩ : Line) ∈ fromBoot s.log.executed := by
      rw [hexec]
      exact List.mem_singleton_self _
    have hsome : ¬s.log.executed.all (fun line => !line.stored) = true := fun hall => by
      simpa using List.all_eq_true.mp hall _ (List.mem_filter.mp hmem).1
    rw [State.waiting, Bool.eq_false_of_not_eq_true hsome, Bool.and_false]

/-- Never twice, and nothing but the stored line of the boot. -/
theorem Inv.atMostOnce (h : Inv s) :
    fromBoot s.log.executed <+: s.log.pend.toList.map (⟨·, true⟩) ∧
      ∀ line ∈ s.log.deferred, line.stored = false := by
  rcases h.phase with ⟨t, -, hw⟩ | hf
  · refine ⟨?_, by simp [hw.deferred]⟩
    rw [hw.executed]
    exact List.nil_prefix
  · refine ⟨?_, hf.served.deferred⟩
    rw [hf.executed]

/-- **The stored line is executed once.** In every run in which the stored lines find room in
`line_q`, and no line ahead of one starts a network or resets the module: every boot begins with the
line that a command of the host stored in the boot before, or with none; it executes exactly this
line from the settings, once and as it was stored, by its end or when it has settled, and never
twice; and that execution stores no line. -/
theorem stored_line_executed (h : machine.ReachIf Unhindered s) :
    (∀ b ∈ s.past, b.Served) ∧ (s.Settled ∨ s.zbc.rebooted.isSome = true → s.log.Served) ∧
    ((s.past ++ [s.log]).IsChain Handed ∧ ∀ b ∈ (s.past ++ [s.log]).head?, b.pend = none) ∧
    (s.log.executed.filter (·.stored) <+: s.log.pend.toList.map (⟨·, true⟩) ∧
      ∀ line ∈ s.log.deferred, line.stored = false) ∧
    (s.waiting = true → ∃ a ∈ [.main true 0, .at_ true, .take anyRegs 0],
      (step s a).isSome = true) := by
  have hinv := inv h
  refine ⟨hinv.past, ?_, ⟨hinv.handed, hinv.first⟩, hinv.atMostOnce, ?_⟩
  · exact fun hend => (hinv.free fun t hw => hw.unsettled hend).served
  · intro hwaiting
    rcases hinv.phase with ⟨t, -, hw⟩ | hf
    · exact hw.moves
    · exact absurd hwaiting (ne_true_of_eq_false hf.not_waiting)

end

/-! ## Runs -/

/-- `AT+EN` finds no channel, then `AT+JN` is stored for the next boot. -/
def deferRun : List Action :=
  List.flatten [List.replicate 6 (.main true 0), [.receive (ascii "AT+EN"), .take anyRegs 0],
    List.replicate 13 (.at_ true), [.receive (ascii "AT+JN"), .take anyRegs 0],
    List.replicate 4 (.at_ true), [.restart]]

/-- `n` lines are received before `zbc_init`, and executed. -/
def busyBoot (n : ℕ) : List Action :=
  List.flatten [List.replicate n (.receive (ascii "AT")), List.replicate 7 (.main true 0),
    (List.replicate n [.take anyRegs 0, .at_ true]).flatten]

/-- Behind seven lines, the stored one is executed until its join fails. -/
def sevenRun : List Action :=
  List.flatten [deferRun, busyBoot 7, [.take anyRegs 0], List.replicate 13 (.at_ true)]

theorem sevenRun_exec : (machine.execIf Unhindered (powerOn .none none []) sevenRun).map
    (fun s => (s.log.pend, s.zbc.main, s.lineQ, s.zbc.at_)) =
      some (some (ascii "AT+JN"), .done, [], .idle) := by
  decide +kernel

theorem stored_line_executed_seven : ∃ s : State, s.log.pend = some (ascii "AT+JN") ∧
    s.log.executed.filter (·.stored) = [⟨ascii "AT+JN", true⟩] := by
  obtain ⟨s, he, hs⟩ := Option.map_eq_some_iff.mp sevenRun_exec
  simp only [Prod.mk.injEq] at hs
  obtain ⟨hpend, hmain, hempty, hidle⟩ := hs
  have hr : machine.ReachIf Unhindered s := Machine.ReachIf.execIf (.init ⟨_, rfl⟩) he
  have hserved := (stored_line_executed hr).2.1 (.inl ⟨hmain, hempty, hidle⟩)
  refine ⟨s, hpend, ?_⟩
  rw [hserved.executed, hpend]
  rfl

theorem eightRun_exec :
    (machine.exec (powerOn .none none []) (deferRun ++ busyBoot 8)).map
      (fun s => (s.log, (s.zbc.main, s.lineQ, s.zbc.at_), s.zbc.savedPend)) =
        some (⟨some (ascii "AT+JN"), List.replicate 8 ⟨ascii "AT", false⟩, []⟩, (.done, [], .idle),
          none) := by
  decide +kernel

/-- **Eight lines before `zbc_init`** fill `line_q`: the stored line is deleted and never
executed. -/
theorem stored_line_lost : ∃ s : State, machine.Reach s ∧ s.Settled ∧
    s.log.pend = some (ascii "AT+JN") ∧ s.log.executed.filter (·.stored) = [] ∧
      s.zbc.savedPend = none := by
  obtain ⟨s, he, hs⟩ := Option.map_eq_some_iff.mp eightRun_exec
  simp only [Prod.mk.injEq] at hs
  obtain ⟨hlog, hsettled, hsaved⟩ := hs
  refine ⟨s, .exec (.init ⟨_, rfl⟩) he, hsettled, ?_, ?_, hsaved⟩
  · rw [hlog]
  · rw [hlog]
    rfl

end ZbAt.Deferred
