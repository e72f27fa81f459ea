import ZbAt.Machine
import ZbAt.Report
import ZbAt.Sreg

/-!
# NEWNODE prompts (zb_core.c)

The coordinator prints a `NEWNODE` line for a node that joins. ZBOSS reports a direct child twice,
first with `DEVICE_ASSOCIATED` and then with `DEVICE_UPDATE`, and a node that joins through a
router once; `print_newnode` remembers the EUI64 of the last node to tell a second report.

* `zbossSignalHandler` — the cases of the signal handler for joining and leaving nodes.
* `machine` — joins and leaves of any number of nodes in any order, with a record of the lines
  that each join printed.
* `Orderly` — joins that do not overlap, and leaves that are reported.
* `one_line_per_join` — then every join prints exactly one line; `overlapping_joins` otherwise not.
-/

namespace ZbAt.NewNode

open Sreg Report

/-! ## The handler -/

/-- `S0E_NEWNODE_OFF` and `S0F_NODELEFT_ON` -/
def s0eNewnodeOff : ℕ := 0x8
def s0fNodeleftOn : ℕ := 0xB

/-- What the handler reads besides the signal: the registers, `zb_address_short_by_ieee` and
whether the node is a coordinator. -/
structure Env where
  vals : Vals
  shortByIeee : Ieee → UInt16
  isZc : Bool

/-- The signals about joining and leaving nodes, with the fields that the handler reads. -/
inductive Signal
  | deviceAssociated (deviceAddr : Ieee)
  | deviceUpdate (shortAddr : UInt16) (longAddr : Ieee) (status : UInt8)
  | leaveIndication (shortAddr : UInt16) (deviceAddr : Ieee) (rejoin : Bool)

/-- `last_newnode` after a signal, and the lines printed. -/
abbrev Reaction := Ieee × List Line

/-- `ZB_IEEE_ADDR_ZERO` -/
def zeroAddr : Ieee := ⟨List.replicate 8 0, rfl⟩

/-- `print_newnode` -/
def printNewnode (v : Vals) (shortAddr : UInt16) (ieee last : Ieee) : Reaction :=
  if last = ieee then (last, [])
  else (ieee, if sregBit 0x0E s0eNewnodeOff v then [] else [.newnode shortAddr ieee])

/-- `print_nodeleft` -/
def printNodeleft (v : Vals) (shortAddr : UInt16) (ieee last : Ieee) : Reaction :=
  (if last = ieee then zeroAddr else last,
    if !sregBit 0x0F s0fNodeleftOn v then [] else [.nodeleft shortAddr ieee])

/-- `zboss_signal_handler` -/
def zbossSignalHandler (env : Env) (last : Ieee) : Signal → Reaction
  | .deviceAssociated deviceAddr =>
    if env.isZc then printNewnode env.vals (env.shortByIeee deviceAddr) deviceAddr last
    else (last, [])
  | .deviceUpdate shortAddr longAddr status =>
    if env.isZc && status == 0x01 then printNewnode env.vals shortAddr longAddr last
    else if env.isZc && status == 0x02 then printNodeleft env.vals shortAddr longAddr last
    else (last, [])
  | .leaveIndication shortAddr deviceAddr rejoin =>
    if env.isZc && !rejoin then printNodeleft env.vals shortAddr deviceAddr last
    else (last, [])

/-! ## Joins and leaves -/

/-- A join: the number of signals up to its first one, and the number of lines that its signals
have printed. -/
structure Join where
  ieee : Ieee
  since : ℕ
  lines : ℕ

/-- `pending` are the direct children whose `DEVICE_UPDATE` is still to come, `joins` the joins
that are complete, `signals` the signals so far, the latest one first. -/
structure State where
  lastNewnode : Ieee
  printed : List Line
  pending : List Join
  joins : List Join
  signals : List Signal

/-- What happens in the network. -/
inductive Move
  /-- A direct child joins. -/
  | associated (ieee : Ieee)
  /-- The `DEVICE_UPDATE` of the `i`-th pending child. -/
  | updated (i : ℕ) (shortAddr : UInt16)
  /-- A node joins through a router. -/
  | routed (shortAddr : UInt16) (ieee : Ieee)
  /-- Any other signal: a leave, or an update that is no unsecured join. -/
  | other (sig : Signal)

/-- The signal announces a join. -/
def Signal.isJoin : Signal → Bool
  | .deviceAssociated _ => true
  | .deviceUpdate _ _ status => status == 0x01
  | .leaveIndication .. => false

/-- A signal is handled, and the record of the joins becomes what `record` makes of it, given the
number of lines printed. -/
def State.handle (env : Env) (s : State) (sig : Signal)
    (record : ℕ → List Join × List Join) : State :=
  let r := zbossSignalHandler env s.lastNewnode sig
  { lastNewnode := r.1, printed := s.printed ++ r.2, pending := (record r.2.length).1,
    joins := (record r.2.length).2, signals := sig :: s.signals }

def move (env : Env) (s : State) : Move → Option State
  | .associated ieee =>
    some (s.handle env (.deviceAssociated ieee) fun n =>
      (⟨ieee, s.signals.length + 1, n⟩ :: s.pending, s.joins))
  | .updated i shortAddr => s.pending[i]?.map fun j =>
    s.handle env (.deviceUpdate shortAddr j.ieee 0x01) fun n =>
      (s.pending.eraseIdx i, { j with lines := j.lines + n } :: s.joins)
  | .routed shortAddr ieee =>
    some (s.handle env (.deviceUpdate shortAddr ieee 0x01) fun n =>
      (s.pending, ⟨ieee, s.signals.length + 1, n⟩ :: s.joins))
  | .other sig =>
    if sig.isJoin then none else some (s.handle env sig fun _ => (s.pending, s.joins))

/-- A coordinator with `NEWNODE` prompts enabled. -/
def Env.Enabled (env : Env) : Prop := env.isZc = true ∧ sregBit 0x0E s0eNewnodeOff env.vals = false

instance (env : Env) : Decidable env.Enabled := inferInstanceAs (Decidable (_ ∧ _))

def start : State := ⟨zeroAddr, [], [], [], []⟩

/-- Signals in any order, on a coordinator with the prompts enabled throughout. -/
def machine : Machine State (Env × Move) where
  init s := s = start
  step s a := if a.1.Enabled then move a.1 s a.2 else none

/-- The node whose join the signal reports. -/
def Signal.joins : Signal → Option Ieee
  | .deviceAssociated deviceAddr => some deviceAddr
  | .deviceUpdate _ longAddr status => if status == 0x01 then some longAddr else none
  | .leaveIndication .. => none

/-- The node whose leave the signal reports. -/
def Signal.leaves : Signal → Option Ieee
  | .deviceAssociated _ => none
  | .deviceUpdate _ longAddr status => if status == 0x02 then some longAddr else none
  | .leaveIndication _ deviceAddr rejoin => if rejoin then none else some deviceAddr

/-- The last join that was reported is one of this node, and no leave of the node since. -/
def reportedLast (ieee : Ieee) : List Signal → Bool
  | [] => false
  | sig :: rest =>
    match sig.joins with
    | some e => e = ieee
    | none => sig.leaves ≠ some ieee && reportedLast ieee rest

/-- The signals since the first one of the join. -/
def State.meanwhile (s : State) (j : Join) : List Signal :=
  s.signals.take (s.signals.length - j.since)

/-- Between the two signals of a direct child no other join is reported, and no leave of the child.
A node that was reported last joins again only after its leave or another join was reported. (And
no node has the address zero.) -/
def Orderly (s : State) : Move → Prop
  | .associated ieee | .routed _ ieee => ieee ≠ zeroAddr ∧ reportedLast ieee s.signals = false
  | .updated i _ => ∀ j ∈ s.pending[i]?, ∀ sig ∈ s.meanwhile j,
      sig.joins = none ∧ sig.leaves ≠ some j.ieee
  | .other _ => True

instance (s : State) : ∀ m, Decidable (Orderly s m)
  | .associated _ | .routed _ _ | .updated _ _ => by unfold Orderly; infer_instance
  | .other _ => .isTrue trivial

/-- Every complete join has printed exactly one line. -/
def OneEach (s : State) : Prop := ∀ j ∈ s.joins, j.lines = 1

/-- The line is a `NEWNODE` prompt with this EUI64. -/
def isNewnode (e : Ieee) : Line → Bool
  | .newnode _ ieee => decide (ieee = e)
  | _ => false

/-- The lines that the joins of a node have printed. -/
def linesOf (e : Ieee) (js : List Join) : ℕ := ((js.filter (·.ieee = e)).map (·.lines)).sum

@[simp] theorem linesOf_cons (e : Ieee) (j : Join) (js : List Join) :
    linesOf e (j :: js) = (if j.ieee = e then j.lines else 0) + linesOf e js := by
  unfold linesOf
  by_cases h : j.ieee = e <;> simp [h]

/-! ## One signal -/

section

variable {env : Env} {last : Ieee} {s s' : State}

/-- What a join signal prints, and what it leaves in `last_newnode`. -/
theorem printNewnode_lines (hon : sregBit 0x0E s0eNewnodeOff env.vals = false)
    (shortAddr : UInt16) (ieee : Ieee) :
    printNewnode env.vals shortAddr ieee last =
      (ieee, if last = ieee then [] else [.newnode shortAddr ieee]) := by
  unfold printNewnode
  rw [hon]
  by_cases h : last = ieee
  · rw [if_pos h, if_pos h, h]
  · rw [if_neg h, if_neg h]
    rfl

/-- A signal that announces no join prints no `NEWNODE` line. -/
theorem other_lines {sig : Signal} (h : sig.isJoin = false) (e : Ieee) :
    (zbossSignalHandler env last sig).2.filter (isNewnode e) = [] := by
  have hleft : ∀ shortAddr ieee, (printNodeleft env.vals shortAddr ieee last).2.filter
      (isNewnode e) = [] := by
    intro shortAddr ieee
    unfold printNodeleft
    dsimp only
    split_ifs <;> rfl
  cases sig with
  | deviceAssociated deviceAddr => cases h
  | deviceUpdate shortAddr longAddr status =>
    have hst : (status == 0x01) = false := h
    simp only [zbossSignalHandler, hst, Bool.and_false, Bool.false_eq_true, if_false]
    split_ifs
    · exact hleft shortAddr longAddr
    · rfl
  | leaveIndication shortAddr deviceAddr rejoin =>
    simp only [zbossSignalHandler]
    split_ifs
    · exact hleft shortAddr deviceAddr
    · rfl

/-- The lines of a join signal on an enabled coordinator. -/
def joinLines (last ieee : Ieee) (shortAddr : UInt16) : List Line :=
  if last = ieee then [] else [.newnode shortAddr ieee]

theorem length_joinLines (last ieee : Ieee) (shortAddr : UInt16) :
    (joinLines last ieee shortAddr).length = if last = ieee then 0 else 1 := by
  unfold joinLines
  split_ifs <;> rfl

theorem filter_joinLines (last ieee e : Ieee) (shortAddr : UInt16) :
    ((joinLines last ieee shortAddr).filter (isNewnode e)).length =
      if ieee = e then (joinLines last ieee shortAddr).length else 0 := by
  unfold joinLines
  by_cases hl : last = ieee
  · simp [hl]
  · by_cases he : ieee = e <;> simp [hl, he, isNewnode]

end

/-- A step of the machine, move by move. -/
inductive Stepped (s : State) (env : Env) : Move → State → Prop
  | associated (ieee : Ieee) : Stepped s env (.associated ieee)
      { lastNewnode := ieee,
        printed := s.printed ++ joinLines s.lastNewnode ieee (env.shortByIeee ieee),
        pending := ⟨ieee, s.signals.length + 1, if s.lastNewnode = ieee then 0 else 1⟩ ::
          s.pending,
        joins := s.joins,
        signals := .deviceAssociated ieee :: s.signals }
  | updated {i : ℕ} {j : Join} (shortAddr : UInt16) (hj : s.pending[i]? = some j) :
    Stepped s env (.updated i shortAddr)
      { lastNewnode := j.ieee, printed := s.printed ++ joinLines s.lastNewnode j.ieee shortAddr,
        pending := s.pending.eraseIdx i,
        joins := { j with lines := j.lines + if s.lastNewnode = j.ieee then 0 else 1 } ::
          s.joins,
        signals := .deviceUpdate shortAddr j.ieee 0x01 :: s.signals }
  | routed (shortAddr : UInt16) (ieee : Ieee) : Stepped s env (.routed shortAddr ieee)
      { lastNewnode := ieee, printed := s.printed ++ joinLines s.lastNewnode ieee shortAddr,
        pending := s.pending,
        joins := ⟨ieee, s.signals.length + 1, if s.lastNewnode = ieee then 0 else 1⟩ :: s.joins,
        signals := .deviceUpdate shortAddr ieee 0x01 :: s.signals }
  | other {sig : Signal} (lines : List Line) (hjoins : sig.joins = none)
      (hno : ∀ e, lines.filter (isNewnode e) = []) : Stepped s env (.other sig)
      { lastNewnode := if sig.leaves = some s.lastNewnode then zeroAddr else s.lastNewnode,
        printed := s.printed ++ lines,
        pending := s.pending,
        joins := s.joins,
        signals := sig :: s.signals }

/-- A join signal of a node prints as `print_newnode` does and leaves its EUI64. -/
theorem handle_join {env : Env} (hen : env.Enabled) (last : Ieee) (shortAddr : UInt16)
    (ieee : Ieee) : printNewnode env.vals shortAddr ieee last =
      (ieee, joinLines last ieee shortAddr) :=
  printNewnode_lines hen.2 shortAddr ieee

/-- A signal that announces no join forgets the node that leaves. -/
theorem other_last {env : Env} (hen : env.Enabled) {last : Ieee} {sig : Signal}
    (h : sig.isJoin = false) : sig.joins = none ∧ (zbossSignalHandler env last sig).1 =
      if sig.leaves = some last then zeroAddr else last := by
  cases sig with
  | deviceAssociated deviceAddr => cases h
  | deviceUpdate shortAddr longAddr status =>
    have hst : (status == 0x01) = false := h
    refine ⟨by rw [Signal.joins, hst]; rfl, ?_⟩
    simp only [zbossSignalHandler, hst, Bool.and_false, Bool.false_eq_true, if_false, hen.1,
      Bool.true_and, Signal.leaves]
    by_cases hleft : (status == 0x02) = true
    · simp only [hleft, if_true, printNodeleft, Option.some.injEq, eq_comm]
    · simp only [hleft, if_false, reduceCtorEq]
  | leaveIndication shortAddr deviceAddr rejoin =>
    refine ⟨rfl, ?_⟩
    simp only [zbossSignalHandler, hen.1, Bool.true_and, Signal.leaves]
    cases rejoin with
    | false => simp only [Bool.not_false, if_true, Bool.false_eq_true, if_false, printNodeleft,
        Option.some.injEq, eq_comm]
    | true => simp only [Bool.not_true, Bool.false_eq_true, if_false, if_true, reduceCtorEq]

theorem step_stepped {s s' : State} {a : Env × Move} (h : machine.step s a = some s') :
    Stepped s a.1 a.2 s' := by
  obtain ⟨env, m⟩ := a
  unfold machine at h
  dsimp only at h
  split_ifs at h with hen
  have hupdate : ∀ shortAddr ieee, zbossSignalHandler env s.lastNewnode
      (.deviceUpdate shortAddr ieee 0x01) = (ieee, joinLines s.lastNewnode ieee shortAddr) := by
    intro shortAddr ieee
    rw [zbossSignalHandler, if_pos (by simp [hen.1]), handle_join hen]
  cases m with
  | associated ieee =>
    obtain rfl := Option.some.inj h
    rw [State.handle, zbossSignalHandler, if_pos hen.1, handle_join hen, length_joinLines]
    exact .associated ieee
  | updated i shortAddr =>
    obtain ⟨j, hj, rfl⟩ := Option.map_eq_some_iff.mp h
    rw [State.handle, hupdate, length_joinLines]
    exact .updated shortAddr hj
  | routed shortAddr ieee =>
    obtain rfl := Option.some.inj h
    rw [State.handle, hupdate, length_joinLines]
    exact .routed shortAddr ieee
  | other sig =>
    rw [move] at h
    split_ifs at h with hjoin
    obtain rfl := Option.some.inj h
    have hno : sig.isJoin = false := by simpa using hjoin
    obtain ⟨hjoins, hlast⟩ := @other_last env hen s.lastNewnode sig hno
    rw [State.handle, hlast]
    exact .other _ hjoins (other_lines hno)

/-! ## Whole runs -/

/-- The lines printed are those of the joins. -/
def Tallied (s : State) : Prop :=
  ∀ e, (s.printed.filter (isNewnode e)).length = linesOf e s.pending + linesOf e s.joins

theorem linesOf_eraseIdx (e : Ieee) {js : List Join} {i : ℕ} {j : Join} (h : js[i]? = some j) :
    linesOf e js = (if j.ieee = e then j.lines else 0) + linesOf e (js.eraseIdx i) := by
  induction js generalizing i with
  | nil => simp at h
  | cons j' js ih =>
    cases i with
    | zero =>
      obtain rfl := Option.some.inj h
      simp
    | succ i =>
      rw [List.eraseIdx_cons_succ, linesOf_cons, linesOf_cons, ih h]
      omega

theorem tallied_step {s s' : State} {env : Env} {m : Move} (h : Tallied s)
    (hst : Stepped s env m s') : Tallied s' := by
  intro e
  cases hst with
  | associated ieee =>
    rw [List.filter_append, List.length_append, h, filter_joinLines, length_joinLines,
      linesOf_cons]
    dsimp only
    omega
  | @updated i j shortAddr hj =>
    rw [List.filter_append, List.length_append, h, filter_joinLines, length_joinLines,
      linesOf_eraseIdx e hj, linesOf_cons]
    by_cases he : j.ieee = e
    · simp only [he, if_true]
      omega
    · simp only [he, if_false]
      omega
  | routed shortAddr ieee =>
    rw [List.filter_append, List.length_append, h, filter_joinLines, length_joinLines,
      linesOf_cons]
    dsimp only
    omega
  | other lines hjoins hno =>
    rw [List.filter_append, hno, List.append_nil]
    exact h e

theorem tallied {s : State} (h : machine.Reach s) : Tallied s := by
  refine Machine.ReachIf.invariant Tallied ?_
    (fun s a s' hP _ hs => tallied_step hP (step_stepped hs)) h
  rintro s rfl
  exact fun e => rfl

/-- Nothing that concerns the child was reported. -/
def Undisturbed (e : Ieee) (sigs : List Signal) : Prop :=
  ∀ sig ∈ sigs, sig.joins = none ∧ sig.leaves ≠ some e

/-- In an orderly run `last_newnode` is the node that was reported last, a pending child has
printed its line, and its second signal finds it in `last_newnode`. -/
structure Serial (s : State) : Prop where
  last : ∀ e, e ≠ zeroAddr → s.lastNewnode = e → reportedLast e s.signals = true
  since : ∀ j ∈ s.pending, j.since ≤ s.signals.length
  first : ∀ j ∈ s.pending, j.lines = 1
  second : ∀ j ∈ s.pending, Undisturbed j.ieee (s.meanwhile j) → s.lastNewnode = j.ieee
  complete : OneEach s

section

variable {s s' : State} {sig : Signal} {e : Ieee} {env : Env} {m : Move}

/-- One more signal. -/
theorem take_meanwhile {j : Join} (h : j.since ≤ s.signals.length) :
    (sig :: s.signals).take ((sig :: s.signals).length - j.since) = sig :: s.meanwhile j := by
  rw [List.length_cons, Nat.succ_sub h, List.take_succ_cons]
  rfl

theorem reportedLast_join (hsig : sig.joins = some e) (e' : Ieee) (he : e = e') :
    reportedLast e' (sig :: s.signals) = true := by
  simp [reportedLast, hsig, he]

/-- A node that was not reported last is not in `last_newnode`. -/
theorem Serial.fresh (h : Serial s) (hc : e ≠ zeroAddr ∧ reportedLast e s.signals = false) :
    s.lastNewnode ≠ e := by
  intro hlast
  have hlater := h.last e hc.1 hlast
  rw [hc.2] at hlater
  cases hlater

/-- A join is reported: a pending child other than the one that it completes is disturbed. -/
theorem Serial.pending_join (h : Serial s) (hsig : sig.joins ≠ none) {j : Join}
    (hj : j ∈ s.pending) : j.since ≤ (sig :: s.signals).length ∧
      ¬Undisturbed j.ieee ((sig :: s.signals).take ((sig :: s.signals).length - j.since)) := by
  refine ⟨Nat.le_succ_of_le (h.since j hj), ?_⟩
  rw [take_meanwhile (h.since j hj)]
  exact fun hun => hsig (hun sig List.mem_cons_self).1

theorem serial_step (h : Serial s) (hc : Orderly s m) (hst : Stepped s env m s') : Serial s' := by
  cases hst with
  | associated ieee =>
    have hfresh := h.fresh hc
    have hjoin : (Signal.deviceAssociated ieee).joins ≠ none := nofun
    have hold := fun j hj => h.pending_join hjoin (j := j) hj
    refine ⟨fun e _ he => reportedLast_join rfl e he, ?_, ?_, ?_, h.complete⟩
    · exact List.forall_mem_cons.mpr ⟨le_rfl, fun j hj => (hold j hj).1⟩
    · exact List.forall_mem_cons.mpr ⟨if_neg hfresh, h.first⟩
    · exact List.forall_mem_cons.mpr ⟨fun _ => rfl, fun j hj hun => absurd hun (hold j hj).2⟩
  | @updated i j shortAddr hj =>
    have hmem : j ∈ s.pending := List.mem_of_getElem? hj
    have hlast : s.lastNewnode = j.ieee := h.second j hmem (hc j hj)
    have hrest : ∀ k ∈ s.pending.eraseIdx i, k ∈ s.pending := fun k => List.mem_of_mem_eraseIdx
    have hjoin : (Signal.deviceUpdate shortAddr j.ieee 0x01).joins ≠ none := nofun
    have hold := fun k hk => h.pending_join hjoin (j := k) (hrest k hk)
    refine ⟨fun e _ he => reportedLast_join rfl e he, fun k hk => (hold k hk).1,
      fun k hk => h.first k (hrest k hk), fun k hk hun => absurd hun (hold k hk).2, ?_⟩
    refine List.forall_mem_cons.mpr ⟨?_, h.complete⟩
    simp [hlast, h.first j hmem]
  | routed shortAddr ieee =>
    have hfresh := h.fresh hc
    have hjoin : (Signal.deviceUpdate shortAddr ieee 0x01).joins ≠ none := nofun
    have hold := fun j hj => h.pending_join hjoin (j := j) hj
    refine ⟨fun e _ he => reportedLast_join rfl e he, fun j hj => (hold j hj).1, h.first,
      fun j hj hun => absurd hun (hold j hj).2, ?_⟩
    exact List.forall_mem_cons.mpr ⟨if_neg hfresh, h.complete⟩
  | @other sig lines hjoins hno =>
    refine ⟨?_, fun j hj => Nat.le_succ_of_le (h.since j hj), h.first, ?_, h.complete⟩
    · intro e hne he
      dsimp only at he
      split_ifs at he with hleft
      · exact absurd he.symm hne
      · have hlater := h.last e hne he
        rw [he] at hleft
        simp [reportedLast, hjoins, hleft, hlater]
    · intro j hj hun
      rw [State.meanwhile, take_meanwhile (h.since j hj)] at hun
      obtain ⟨⟨-, hleft⟩, hbefore⟩ := List.forall_mem_cons.mp hun
      have hlast := h.second j hj hbefore
      rw [hlast, if_neg hleft]

end

theorem serial {s : State} (h : machine.ReachIf (fun s a => Orderly s a.2) s) : Serial s := by
  refine Machine.ReachIf.invariant Serial ?_
    (fun s a s' hP hc hs => serial_step hP hc (step_stepped hs)) h
  rintro s rfl
  refine ⟨?_, ?_, ?_, ?_, ?_⟩
  · intro e hne he
    exact absurd he.symm hne
  all_goals
    intro j hj
    cases hj

/-- With one line for every join, a node has as many lines as joins. -/
theorem linesOf_oneEach {e : Ieee} {js : List Join} (h : ∀ j ∈ js, j.lines = 1) :
    linesOf e js = (js.filter (·.ieee = e)).length := by
  induction js with
  | nil => rfl
  | cons j js ih =>
    rw [linesOf_cons, ih fun k hk => h k (List.mem_cons_of_mem _ hk), h j List.mem_cons_self]
    by_cases he : j.ieee = e
    · simp [he, Nat.add_comm]
    · simp [he]

theorem linesOf_none {e : Ieee} {js : List Join} (h : ∀ j ∈ js, j.ieee ≠ e) : linesOf e js = 0 := by
  induction js with
  | nil => rfl
  | cons j js ih =>
    rw [linesOf_cons, if_neg (h j List.mem_cons_self),
      ih fun k hk => h k (List.mem_cons_of_mem _ hk)]

/-- **One line for every join.** In a run in which between the two signals of a direct child no
other join and no leave of the child is reported, and a node that was reported last joins again only
after its leave or another join was reported, every complete join has printed exactly one line; so a
node of which no join is under way has as many `NEWNODE` lines as joins. -/
theorem one_line_per_join {s : State} (h : machine.ReachIf (fun s a => Orderly s a.2) s) :
    OneEach s ∧ ∀ e, (∀ j ∈ s.pending, j.ieee ≠ e) →
      (s.printed.filter (isNewnode e)).length = (s.joins.filter (·.ieee = e)).length := by
  refine ⟨(serial h).complete, ?_⟩
  intro e hpend
  rw [tallied h.reach, linesOf_none hpend, linesOf_oneEach (serial h).complete, Nat.zero_add]

/-! ## Two nodes -/

def nodeA : Ieee := ⟨List.replicate 8 0xA1, rfl⟩
def nodeB : Ieee := ⟨List.replicate 8 0xB2, rfl⟩

/-- A coordinator with the default registers. -/
def coordinator : Env := ⟨loadDefaults, fun _ => 0x1234, true⟩

/-- The number of `NEWNODE` lines of a node, of its complete joins and of the pending joins. -/
def tally (e : Ieee) (s : State) : ℕ × ℕ × ℕ :=
  ((s.printed.filter (isNewnode e)).length, (s.joins.filter (·.ieee = e)).length, s.pending.length)

/-- `nodeB` associates between the two signals of `nodeA`. -/
def overlapRun : List (Env × Move) :=
  [.associated nodeA, .associated nodeB, .updated 1 0x1234, .updated 0 0x5678].map (coordinator, ·)

theorem overlapRun_exec : (machine.exec start overlapRun).map (tally nodeA) = some (2, 1, 0) := by
  decide

/-- One join of `nodeA`, and two lines. -/
theorem overlapping_joins : ¬∀ s, machine.Reach s → ∀ e, (∀ j ∈ s.pending, j.ieee ≠ e) →
    (s.printed.filter (isNewnode e)).length = (s.joins.filter (·.ieee = e)).length := by
  intro hclaim
  obtain ⟨s, he, hs⟩ := Option.map_eq_some_iff.mp overlapRun_exec
  simp only [tally, Prod.mk.injEq] at hs
  have hpend := List.eq_nil_of_length_eq_zero hs.2.2
  have hcount := hclaim s (Machine.Reach.exec (.init rfl) he) nodeA (by simp [hpend])
  rw [hs.1, hs.2.1] at hcount
  cases hcount

/-- A node joins again and its leave was not reported: no line for the second join. -/
def againRun : List (Env × Move) :=
  [.associated nodeA, .updated 0 0x1234, .associated nodeA, .updated 0 0x1234].map (coordinator, ·)

example : (machine.exec start againRun).map (tally nodeA) = some (1, 2, 0) := by decide

/-- One node after the other, the first of which leaves and joins again through a router. -/
def serialRun : List (Env × Move) :=
  [.associated nodeA, .updated 0 0x1234, .associated nodeB, .updated 0 0x5678,
    .other (.leaveIndication 0x1234 nodeA false), .routed 0x4321 nodeA].map (coordinator, ·)

theorem serialRun_execIf : (machine.execIf (fun s a => Orderly s a.2) start serialRun).map
    (tally nodeA) = some (2, 2, 0) := by
  decide

theorem one_line_per_join_serial : ∃ s, machine.ReachIf (fun s a => Orderly s a.2) s ∧
    OneEach s ∧ (s.printed.filter (isNewnode nodeA)).length = 2 ∧
    (s.printed.filter (isNewnode nodeA)).length = (s.joins.filter (·.ieee = nodeA)).length := by
  obtain ⟨s, he, hs⟩ := Option.map_eq_some_iff.mp serialRun_execIf
  simp only [tally, Prod.mk.injEq] at hs
  have hr : machine.ReachIf (fun s a => Orderly s a.2) s := .execIf (.init rfl) he
  obtain ⟨hone, hcount⟩ := one_line_per_join hr
  have hpend := List.eq_nil_of_length_eq_zero hs.2.2
  exact ⟨s, hr, hone, hs.1, hcount nodeA (by simp [hpend])⟩

end ZbAt.NewNode
