import ZbAt.Machine
import Mathlib.Data.List.ReduceOption

/-!
# One queue, many listeners

One thread publishes entries: it appends each to a log and then puts it into a queue. Another takes
them from the queue and calls every listener with each, from a copy of the list of listeners.
Listeners can be added at any time. A mark in the queue stops the second thread.

* `machine` — the two threads, and the callers that add listeners and put the mark.
* `Inv` — the log is what had its round, what is on the way, and nothing else; what a listener has
  heard is a part of the log in one piece.
* `heard_part`, `heard_all`, `heard_stopped` — what a listener has heard, at any time, when all
  is done, and behind the mark.
-/

namespace ZbAt.FanOut

/-- A listener. `added` is the length of the log when it was added, `since` how many entries had
had their round. -/
structure Listener (E : Type) where
  added : ℕ
  since : ℕ
  heard : List E
  deriving DecidableEq

/-- The thread that calls the listeners, by what it does next. -/
inductive Pc (E : Type)
  /-- It waits for the next entry. -/
  | waiting
  /-- The copy of the list of listeners. -/
  | taken (e : E)
  /-- The call of the listener `next`; the copy has `last` of them. -/
  | round (e : E) (next last : ℕ)
  | stopped
  deriving DecidableEq

structure State (E : Type) where
  log : List E
  /-- The entry that is in the log and not yet in the queue. -/
  held : Option E
  queue : List (Option E)
  listeners : List (Listener E)
  pc : Pc E
  /-- The entries whose round has begun; this only records what happened. -/
  turned : List E
  /-- How many entries the queue had got when the first mark was put. -/
  closed : Option ℕ
  deriving DecidableEq

inductive Action (E : Type)
  | publish (e : E)
  | put
  | add
  | close
  | get
  | copy
  | call
  | finish

variable {E : Type}

/-- Another entry for a listener. -/
def Listener.hear (e : E) (l : Listener E) : Listener E := { l with heard := l.heard ++ [e] }

/-- The entry that was taken and has not had its round. -/
def Pc.entry : Pc E → List E
  | .taken e => [e]
  | _ => []

def step (s : State E) : Action E → Option (State E)
  | .publish e => match s.held with
    | none => some { s with log := s.log ++ [e], held := some e }
    | some _ => none
  | .put => s.held.map fun e => { s with held := none, queue := s.queue ++ [some e] }
  | .add => some { s with
      listeners := s.listeners ++ [⟨s.log.length, s.turned.length, []⟩] }
  | .close => some { s with
      queue := s.queue ++ [none]
      closed := some (s.closed.getD
        (s.turned.length + s.pc.entry.length + s.queue.reduceOption.length)) }
  | .get => match s.pc, s.queue with
    | .waiting, some e :: queue => some { s with pc := .taken e, queue := queue }
    | .waiting, none :: queue => some { s with pc := .stopped, queue := queue }
    | _, _ => none
  | .copy => match s.pc with
    | .taken e => some { s with
        pc := .round e 0 s.listeners.length, turned := s.turned ++ [e] }
    | _ => none
  | .call => match s.pc with
    | .round e next last => if next < last then
        some { s with
          pc := .round e (next + 1) last
          listeners := s.listeners.modify next (Listener.hear e) }
      else none
    | _ => none
  | .finish => match s.pc with
    | .round _ next last => if next = last then some { s with pc := .waiting } else none
    | _ => none

/-- Nothing was published, and there are no listeners yet. -/
def init : State E := ⟨[], none, [], [], .waiting, [], none⟩

def machine : Machine (State E) (Action E) := ⟨(· = init), step⟩

/-! ## The invariant -/

/-- How many of the `n` entries that had their round a listener has been called with. -/
def Pc.due (n i : ℕ) : Pc E → ℕ
  | .round _ next last => if next ≤ i ∧ i < last then n - 1 else n
  | _ => n

/-- What holds of the listener `i`. -/
structure Told (s : State E) (i : ℕ) (l : Listener E) : Prop where
  since : l.since ≤ s.turned.length
  added : l.since ≤ l.added ∧ l.added ≤ s.log.length
  early : ∀ e next last, s.pc = .round e next last → i < last → l.since < s.turned.length
  heard : l.heard = (s.turned.take (s.pc.due s.turned.length i)).drop l.since

/-- Where the first mark is. -/
def Marked (s : State E) : Prop :=
  match s.closed with
  | none => none ∉ s.queue ∧ s.pc ≠ .stopped
  | some k => s.pc = .stopped ∧ s.turned.length = k ∨
      s.pc ≠ .stopped ∧ ∃ (pre : List E) (rest : List (Option E)),
        s.queue = pre.map some ++ none :: rest ∧
          s.turned.length + s.pc.entry.length + pre.length = k

structure Inv (s : State E) : Prop where
  split : s.log = s.turned ++ s.pc.entry ++ s.queue.reduceOption ++ s.held.toList
  round : ∀ e next last, s.pc = .round e next last →
    next ≤ last ∧ last ≤ s.listeners.length ∧ ∃ before, s.turned = before ++ [e]
  told : ∀ i l, s.listeners[i]? = some l → Told s i l
  marked : Marked s

section

variable {s s' : State E} {i : ℕ} {l : Listener E}

theorem inv_init : Inv (init : State E) where
  split := rfl
  round := nofun
  told := nofun
  marked := ⟨List.not_mem_nil, nofun⟩

/-- A listener is told the same by a state that agrees on the rounds. -/
theorem Told.congr (h : Told s i l) (hturned : s'.turned = s.turned)
    (hlog : s.log.length ≤ s'.log.length) (hpc : s'.pc = s.pc) : Told s' i l where
  since := hturned ▸ h.since
  added := ⟨h.added.1, Nat.le_trans h.added.2 hlog⟩
  early := by
    rw [hpc, hturned]
    exact h.early
  heard := by
    rw [hpc, hturned]
    exact h.heard

/-- Behind the last entry that had its round, nothing more is due than in a wait. -/
theorem Told.ended (h : Told s i l) (hdue : s.pc.due s.turned.length i = s.turned.length)
    (hturned : s'.turned = s.turned) (hlog : s'.log = s.log)
    (hdue' : s'.pc.due s.turned.length i = s.turned.length)
    (hround : ∀ e next last, s'.pc ≠ .round e next last) : Told s' i l where
  since := hturned ▸ h.since
  added := hlog ▸ h.added
  early := fun e next last hpc => absurd hpc (hround e next last)
  heard := by
    rw [hturned, hdue', ← hdue]
    exact h.heard

theorem Inv.publish (h : Inv s) (hheld : s.held = none) (e : E) :
    Inv { s with log := s.log ++ [e], held := some e } where
  split := by
    have hsplit := h.split
    rw [hheld, Option.toList_none, List.append_nil] at hsplit
    exact congrArg (· ++ [e]) hsplit
  round := h.round
  told i l hl := (h.told i l hl).congr rfl (by simp) rfl
  marked := h.marked

/-- The mark stays where it is when the queue grows. -/
theorem Marked.grow (h : Marked s) {x : Option E} (hx : s.closed = none → x ≠ none)
    (hqueue : s'.queue = s.queue ++ [x]) (hclosed : s'.closed = s.closed) (hpc : s'.pc = s.pc)
    (hturned : s'.turned = s.turned) : Marked s' := by
  unfold Marked at h ⊢
  rw [hclosed, hpc, hturned, hqueue]
  cases hc : s.closed with
  | none =>
    rw [hc] at h
    refine ⟨fun hm => ?_, h.2⟩
    rcases List.mem_append.mp hm with hm | hm
    · exact h.1 hm
    · exact hx hc (List.mem_singleton.mp hm).symm
  | some k =>
    rw [hc] at h
    rcases h with hstop | ⟨hrun, pre, rest, hq, hk⟩
    · exact .inl hstop
    · refine .inr ⟨hrun, pre, rest ++ [x], ?_, hk⟩
      rw [hq, List.append_assoc, List.cons_append]

/-- Nor does it move while a round goes on. -/
theorem Marked.move (h : Marked s) (hrun : s.pc ≠ .stopped) (hrun' : s'.pc ≠ .stopped)
    (hqueue : s'.queue = s.queue) (hclosed : s'.closed = s.closed)
    (hsum : s'.turned.length + s'.pc.entry.length = s.turned.length + s.pc.entry.length) :
    Marked s' := by
  unfold Marked at h ⊢
  rw [hclosed, hqueue]
  cases hc : s.closed with
  | none =>
    rw [hc] at h
    exact ⟨h.1, hrun'⟩
  | some k =>
    rw [hc] at h
    rcases h with hstop | ⟨-, pre, rest, hq, hk⟩
    · exact absurd hstop.1 hrun
    · exact .inr ⟨hrun', pre, rest, hq, hsum ▸ hk⟩

theorem Inv.put (h : Inv s) {e : E} (hheld : s.held = some e) :
    Inv { s with held := none, queue := s.queue ++ [some e] } where
  split := by
    have hsplit := h.split
    rw [hheld] at hsplit
    rw [List.reduceOption_append]
    simpa using hsplit
  round := h.round
  told i l hl := (h.told i l hl).congr rfl (Nat.le_refl _) rfl
  marked := h.marked.grow (x := some e) (fun _ => nofun) rfl rfl rfl rfl

/-- Every entry that had its round is in the log. -/
theorem Inv.turned_le (h : Inv s) : s.turned.length ≤ s.log.length := by
  rw [h.split]
  simp only [List.length_append]
  omega

theorem Inv.add (h : Inv s) : Inv { s with
    listeners := s.listeners ++ [⟨s.log.length, s.turned.length, []⟩] } where
  split := h.split
  round e next last hpc := by
    obtain ⟨hnext, hlast, hturned⟩ := h.round e next last hpc
    refine ⟨hnext, ?_, hturned⟩
    rw [List.length_append]
    omega
  told i l hl := by
    by_cases hi : i < s.listeners.length
    · rw [List.getElem?_append_left hi] at hl
      exact (h.told i l hl).congr rfl (Nat.le_refl _) rfl
    · rw [List.getElem?_append_right (Nat.le_of_not_lt hi)] at hl
      have hnew : l = ⟨s.log.length, s.turned.length, []⟩ :=
        (List.mem_singleton.mp (List.mem_of_getElem? hl))
      rw [hnew]
      refine ⟨Nat.le_refl _, ⟨h.turned_le, Nat.le_refl _⟩, fun e next last hpc hlt => ?_, ?_⟩
      · have hlast := (h.round e next last hpc).2.1
        omega
      · exact (List.drop_eq_nil_of_le (List.length_take_le' _ _)).symm
  marked := h.marked

/-- A queue without a mark. -/
theorem map_some_reduceOption {q : List (Option E)} (h : none ∉ q) :
    q.reduceOption.map some = q := by
  induction q with
  | nil => rfl
  | cons x q ih =>
    have hq : none ∉ q := fun hm => h (List.mem_cons_of_mem _ hm)
    cases x with
    | none => exact absurd List.mem_cons_self h
    | some e => rw [List.reduceOption_cons_of_some, List.map_cons, ih hq]

theorem Inv.close (h : Inv s) : Inv { s with
    queue := s.queue ++ [none]
    closed := some (s.closed.getD
      (s.turned.length + s.pc.entry.length + s.queue.reduceOption.length)) } where
  split := by
    have hsplit := h.split
    rw [List.reduceOption_append]
    simpa using hsplit
  round := h.round
  told i l hl := (h.told i l hl).congr rfl (Nat.le_refl _) rfl
  marked := by
    have hmarked := h.marked
    cases hc : s.closed with
    | none =>
      unfold Marked at hmarked
      rw [hc] at hmarked
      obtain ⟨hno, hrun⟩ := hmarked
      refine .inr ⟨hrun, s.queue.reduceOption, [], ?_, rfl⟩
      rw [map_some_reduceOption hno]
    | some k =>
      refine hmarked.grow (s := s) (x := none) (fun hnone => ?_) rfl hc.symm rfl rfl
      rw [hc] at hnone
      cases hnone

/-- The queue's first entry is taken. -/
theorem Inv.get (h : Inv s) (hpc : s.pc = .waiting) {e : E} {queue : List (Option E)}
    (hqueue : s.queue = some e :: queue) : Inv { s with pc := .taken e, queue := queue } where
  split := by
    have hsplit := h.split
    rw [hpc, hqueue] at hsplit
    simpa [Pc.entry] using hsplit
  round := nofun
  told i l hl := (h.told i l hl).ended (by rw [hpc]; rfl) rfl rfl rfl nofun
  marked := by
    have hmarked := h.marked
    unfold Marked at hmarked ⊢
    rw [hqueue, hpc] at hmarked
    dsimp only
    cases hc : s.closed with
    | none =>
      rw [hc] at hmarked
      exact ⟨fun hm => hmarked.1 (List.mem_cons_of_mem _ hm), nofun⟩
    | some k =>
      rw [hc] at hmarked
      rcases hmarked with hstop | ⟨-, pre, rest, hq, hk⟩
      · cases hstop.1
      · cases pre with
        | nil => cases hq
        | cons e' pre =>
          simp only [List.map_cons, List.cons_append, List.cons.injEq, Option.some.injEq] at hq
          refine .inr ⟨nofun, pre, rest, hq.2, ?_⟩
          simp only [Pc.entry, List.length_cons, List.length_nil] at hk ⊢
          omega

/-- The mark is taken. -/
theorem Inv.stop (h : Inv s) (hpc : s.pc = .waiting) {queue : List (Option E)}
    (hqueue : s.queue = none :: queue) : Inv { s with pc := .stopped, queue := queue } where
  split := by
    have hsplit := h.split
    rw [hpc, hqueue] at hsplit
    simpa [Pc.entry] using hsplit
  round := nofun
  told i l hl := (h.told i l hl).ended (by rw [hpc]; rfl) rfl rfl rfl nofun
  marked := by
    have hmarked := h.marked
    unfold Marked at hmarked ⊢
    rw [hqueue, hpc] at hmarked
    dsimp only
    cases hc : s.closed with
    | none =>
      rw [hc] at hmarked
      exact absurd List.mem_cons_self hmarked.1
    | some k =>
      rw [hc] at hmarked
      rcases hmarked with hstop | ⟨-, pre, rest, hq, hk⟩
      · cases hstop.1
      · cases pre with
        | nil => exact .inl ⟨rfl, by simpa [Pc.entry] using hk⟩
        | cons e' pre => cases hq

/-- A round begins. -/
theorem Inv.copy (h : Inv s) {e : E} (hpc : s.pc = .taken e) : Inv { s with
    pc := .round e 0 s.listeners.length, turned := s.turned ++ [e] } where
  split := by
    have hsplit := h.split
    rw [hpc] at hsplit
    simpa [Pc.entry] using hsplit
  round e' next last heq := by
    cases heq
    exact ⟨Nat.zero_le _, Nat.le_refl _, s.turned, rfl⟩
  told i l hl := by
    have htold := h.told i l hl
    have hi : i < s.listeners.length := (List.getElem?_eq_some_iff.mp hl).1
    have hlen : (s.turned ++ [e]).length = s.turned.length + 1 := by simp
    refine ⟨?_, htold.added, fun e' next last heq hlt => ?_, ?_⟩
    · rw [hlen]
      exact Nat.le_succ_of_le htold.since
    · rw [hlen]
      exact Nat.lt_succ_of_le htold.since
    · have hheard := htold.heard
      rw [hpc] at hheard
      dsimp only [Pc.due] at hheard ⊢
      rw [if_pos ⟨Nat.zero_le _, hi⟩, hlen, Nat.add_sub_cancel, List.take_left']
      · rwa [List.take_length] at hheard
      · rfl
  marked := by
    refine h.marked.move (by rw [hpc]; nofun) nofun rfl rfl ?_
    rw [hpc]
    simp [Pc.entry]

/-- One call: the listener has now been called with all that had their round. -/
theorem Inv.call (h : Inv s) {e : E} {next last : ℕ} (hpc : s.pc = .round e next last)
    (hlt : next < last) : Inv { s with
      pc := .round e (next + 1) last
      listeners := s.listeners.modify next (Listener.hear e) } where
  split := by
    have hsplit := h.split
    rw [hpc] at hsplit
    exact hsplit
  round e' next' last' heq := by
    cases heq
    obtain ⟨-, hlast, hturned⟩ := h.round e next last hpc
    rw [List.length_modify]
    exact ⟨hlt, hlast, hturned⟩
  told i l hl := by
    obtain ⟨-, -, before, hturned⟩ := h.round e next last hpc
    have hlen : s.turned.length = before.length + 1 := by simp [hturned]
    by_cases hi : i = next
    · subst hi
      rw [List.getElem?_modify_eq] at hl
      obtain ⟨l₀, hl₀, rfl⟩ := Option.map_eq_some_iff.mp hl
      have htold := h.told i l₀ hl₀
      have hearly := htold.early e i last hpc hlt
      refine ⟨htold.since, htold.added, fun e' n' l' heq hlt' => ?_, ?_⟩
      · exact hearly
      · have hheard := htold.heard
        rw [hpc] at hheard
        dsimp only [Pc.due] at hheard ⊢
        rw [if_pos ⟨Nat.le_refl _, hlt⟩, hlen, Nat.add_sub_cancel, hturned,
          List.take_left' rfl] at hheard
        have hle : l₀.since ≤ before.length := by omega
        rw [if_neg (by omega), List.take_length, hturned]
        show l₀.heard ++ [e] = (before ++ [e]).drop l₀.since
        rw [List.drop_append_of_le_length hle, hheard]
    · have hl : (s.listeners.modify next (Listener.hear e))[i]? = some l := hl
      rw [List.getElem?_modify_ne _ _ (Ne.symm hi)] at hl
      have htold := h.told i l hl
      refine ⟨htold.since, htold.added, fun e' n' l' heq hlt' => ?_, ?_⟩
      · cases heq
        exact htold.early e next last hpc hlt'
      · have hheard := htold.heard
        rw [hpc] at hheard
        have hsame : (next ≤ i ∧ i < last) = (next + 1 ≤ i ∧ i < last) := by
          apply propext
          omega
        dsimp only [Pc.due] at hheard ⊢
        simp only [hsame] at hheard
        exact hheard
  marked := h.marked.move (by rw [hpc]; nofun) nofun rfl rfl (by rw [hpc]; rfl)

/-- A round ends. -/
theorem Inv.finish (h : Inv s) {e : E} {last : ℕ} (hpc : s.pc = .round e last last) :
    Inv { s with pc := .waiting } where
  split := by
    have hsplit := h.split
    rw [hpc] at hsplit
    exact hsplit
  round := nofun
  told i l hl := by
    refine (h.told i l hl).ended ?_ rfl rfl rfl nofun
    rw [hpc]
    exact if_neg (by omega)
  marked := h.marked.move (by rw [hpc]; nofun) nofun rfl rfl (by rw [hpc]; rfl)

theorem inv_step {a : Action E} (h : Inv s) (hs : step s a = some s') : Inv s' := by
  cases a with
  | publish e =>
    dsimp only [step] at hs
    split at hs
    · cases hs
      exact h.publish ‹_› e
    · cases hs
  | put =>
    obtain ⟨e, hheld, rfl⟩ := Option.map_eq_some_iff.mp hs
    exact h.put hheld
  | add =>
    cases hs
    exact h.add
  | close =>
    cases hs
    exact h.close
  | get =>
    dsimp only [step] at hs
    split at hs
    · cases hs
      exact h.get ‹_› ‹_›
    · cases hs
      exact h.stop ‹_› ‹_›
    · cases hs
  | copy =>
    dsimp only [step] at hs
    split at hs
    · cases hs
      exact h.copy ‹_›
    · cases hs
  | call =>
    dsimp only [step] at hs
    split at hs
    · split_ifs at hs with hlt
      cases hs
      exact h.call ‹_› hlt
    · cases hs
  | finish =>
    dsimp only [step] at hs
    split at hs
    · split_ifs at hs with heq
      cases hs
      subst heq
      exact h.finish ‹_›
    · cases hs

theorem reach_inv (h : machine.Reach s) : Inv s :=
  h.invariant Inv (fun _ hs => hs ▸ inv_init) fun _ _ _ hinv _ hs => inv_step hinv hs

/-! ## What a listener has heard -/

/-- A listener has heard one piece of the log, entry by entry. -/
theorem Inv.heard_part (h : Inv s) (hl : l ∈ s.listeners) :
    l.heard <+: s.log.drop l.since := by
  obtain ⟨i, hi⟩ := List.getElem?_of_mem hl
  have htold := h.told i l hi
  have hturned : s.turned <+: s.log := by
    rw [h.split, List.append_assoc, List.append_assoc]
    exact List.prefix_append _ _
  obtain ⟨rest, hrest⟩ := (List.take_prefix (s.pc.due s.turned.length i) s.turned).trans hturned
  rw [htold.heard, ← hrest, List.drop_append]
  exact List.prefix_append _ _

/-- Once nothing is on its way, every listener has heard all from its start on. -/
theorem Inv.heard_all (h : Inv s) (hl : l ∈ s.listeners) (hpc : s.pc = .waiting)
    (hqueue : s.queue = []) (hheld : s.held = none) : l.heard = s.log.drop l.since := by
  obtain ⟨i, hi⟩ := List.getElem?_of_mem hl
  have hheard := (h.told i l hi).heard
  have hsplit := h.split
  rw [hpc, hqueue, hheld] at hsplit
  rw [hpc] at hheard
  simp only [Pc.entry, List.append_nil, List.reduceOption_nil, Option.toList_none] at hsplit
  rw [hheard, hsplit]
  exact congrArg (List.drop _) List.take_length

/-- Behind the mark, every listener has heard all that was put before it. -/
theorem Inv.heard_stopped (h : Inv s) (hl : l ∈ s.listeners) (hpc : s.pc = .stopped) :
    ∃ k, s.closed = some k ∧ k ≤ s.log.length ∧ l.heard = (s.log.take k).drop l.since := by
  obtain ⟨i, hi⟩ := List.getElem?_of_mem hl
  have hheard := (h.told i l hi).heard
  have hmarked := h.marked
  have hsplit := h.split
  rw [hpc] at hheard hsplit
  unfold Marked at hmarked
  cases hc : s.closed with
  | none =>
    rw [hc] at hmarked
    exact absurd hpc hmarked.2
  | some k =>
    rw [hc] at hmarked
    rcases hmarked with ⟨-, hk⟩ | hrun
    · refine ⟨k, rfl, hk ▸ h.turned_le, ?_⟩
      rw [hheard, hsplit, List.append_assoc, List.append_assoc, List.take_left' hk]
      exact congrArg (List.drop _) List.take_length
    · exact absurd hpc hrun.1

end

end ZbAt.FanOut
