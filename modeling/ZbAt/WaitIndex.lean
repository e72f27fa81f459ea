import Mathlib.Data.List.Basic
import Mathlib.Data.Int.Order.Basic
import Mathlib.Tactic.SplitIfs
import ZbAt.Machine

/-!
# Waiting for prompts

The history of a module object grows at any moment, from the reader thread. A caller waits for the
next event that satisfies a predicate, and gives the index behind it to its next wait.

**The threads.** `_wait_index` holds the condition's lock while it looks at the history and gives
it up while it sleeps; `_on_line` needs the lock to append. `Pc` says where the caller is, and
with it who has the lock.

**The events.** Every event is stamped with the time of its append. No step reads the stamps.

* `State.seen` — the events from the first index on that the caller has looked at.
* `Inv.step` — after every step, exactly the events of `seen` that satisfy the predicate have been
  returned.
* `Inv.raised`, `Inv.asleep` — a caller that gives up has seen the whole history, and so has one
  that sleeps and was not woken.
-/

namespace ZbAt.Wait

/-! ## The caller -/

/-- Where the caller is in `_wait_index`: outside, in front of the lock, in the `while` loop with
the lock, in `self._cond.wait`, or out of it with `TimeoutError`. `i` is the loop's index. -/
inductive Pc
  | outside
  | entered (deadline : ℤ)
  | scanning (deadline : ℤ) (i : ℕ)
  | waiting (deadline : ℤ) (i : ℕ) (notified : Bool)
  | raised (i : ℕ)
  deriving DecidableEq

/-- The caller has the lock. -/
def Pc.locked : Pc → Bool
  | .scanning _ _ => true
  | _ => false

/-- `notify_all` -/
def Pc.notify : Pc → Pc
  | .waiting d i _ => .waiting d i true
  | pc => pc

/-- `first` is the index the caller started from, `since` the one its next call is given. -/
structure State (E : Type) where
  now : ℤ
  history : List (E × ℤ)
  first : ℕ
  since : ℕ
  pc : Pc
  returned : List E

inductive Action (E : Type)
  | tick (k : ℕ)
  /-- The reader thread appends a prompt. -/
  | append (e : E)
  /-- The caller calls `_wait_index`. -/
  | call (timeout : ℤ)
  /-- The caller gets the lock, at the start or when its sleep is over. -/
  | acquire
  /-- One round of the loop: the next event, or the look at the clock behind the last one. -/
  | scan

variable {E : Type}

/-- One round of the loop with the index `i`. -/
def State.scan (pred : E → Bool) (s : State E) (d : ℤ) (i : ℕ) : State E :=
  match s.history[i]? with
  | some (e, _) =>
    if pred e then { s with pc := .outside, since := i + 1, returned := s.returned ++ [e] }
    else { s with pc := .scanning d (i + 1) }
  | none =>
    if d - s.now ≤ 0 then { s with pc := .raised i }
    else { s with pc := .waiting d i false }

def step (pred : E → Bool) (s : State E) : Action E → Option (State E)
  | .tick k => some { s with now := s.now + k }
  | .append e =>
    if s.pc.locked then none
    else some { s with history := s.history ++ [(e, s.now)], pc := s.pc.notify }
  | .call timeout =>
    match s.pc with
    | .outside => some { s with pc := .entered (s.now + timeout) }
    | _ => none
  | .acquire =>
    match s.pc with
    | .entered d => some { s with pc := .scanning d s.since }
    -- the sleep ends with a notification, at the deadline or for no reason
    | .waiting d i _ => some { s with pc := .scanning d i }
    | _ => none
  | .scan =>
    match s.pc with
    | .scanning d i => some (s.scan pred d i)
    | _ => none

/-- Any history, and a caller that starts from any index. -/
def Start (s : State E) : Prop := s.pc = .outside ∧ s.since = s.first ∧ s.returned = []

def machine (pred : E → Bool) : Machine (State E) (Action E) := ⟨Start, step pred⟩

/-! ## What the caller has seen -/

/-- The index of the next event the caller will look at. -/
def State.pos (s : State E) : ℕ :=
  match s.pc with
  | .outside | .entered _ => s.since
  | .scanning _ i | .waiting _ i _ | .raised i => i

/-- The events from the first index on that the caller has looked at. -/
def State.seen (s : State E) : List (E × ℤ) := (s.history.take s.pos).drop s.first

/-- The events from the first index on. -/
def State.events (s : State E) : List (E × ℤ) := s.history.drop s.first

/-- The events of a piece of the history that satisfy the predicate. -/
def matching (pred : E → Bool) (xs : List (E × ℤ)) : List E := (xs.map Prod.fst).filter pred

structure Inv (pred : E → Bool) (s : State E) : Prop where
  first_le : s.first ≤ s.pos
  pos_le : s.pos ≤ s.history.length ∨ s.pos = s.first
  returned : s.returned = matching pred s.seen
  asleep : ∀ d i, s.pc = .waiting d i false → s.history.length ≤ i

section

variable {pred : E → Bool} {s s' : State E}

theorem matching_append (xs ys : List (E × ℤ)) :
    matching pred (xs ++ ys) = matching pred xs ++ matching pred ys := by
  rw [matching, List.map_append, List.filter_append]
  rfl

theorem inv_start (h : Start s) : Inv pred s := by
  obtain ⟨hpc, hsince, hret⟩ := h
  have hpos : s.pos = s.first := by rw [State.pos, hpc, hsince]
  refine ⟨Nat.le_of_eq hpos.symm, .inr hpos, ?_, fun d i hw => ?_⟩
  · have hseen : s.seen = [] := by
      rw [State.seen, hpos]
      exact List.drop_eq_nil_of_le (List.length_take_le _ _)
    rw [hret, hseen]
    rfl
  · rw [hpc] at hw
    cases hw

/-- The events seen are the first ones. -/
theorem State.seen_prefix (s : State E) : s.seen <+: s.events := by
  rw [State.seen, State.events, List.drop_take]
  exact List.take_prefix _ _

/-- A caller behind the last event has seen all. -/
theorem State.seen_eq (h : s.history.length ≤ s.pos) : s.seen = s.events := by
  rw [State.seen, State.events, List.take_of_length_le h]

/-! ## Steps -/

@[simp] theorem Pc.notify_locked (pc : Pc) : pc.notify.locked = pc.locked := by
  cases pc <;> rfl

/-- A new event is behind everything the caller has seen. -/
theorem seen_append {h : List (E × ℤ)} {first pos : ℕ} (hpos : pos ≤ h.length ∨ pos = first)
    (x : E × ℤ) : ((h ++ [x]).take pos).drop first = (h.take pos).drop first := by
  rcases hpos with hle | rfl
  · rw [List.take_append_of_le_length hle]
  · rw [List.drop_eq_nil_of_le (List.length_take_le _ _),
      List.drop_eq_nil_of_le (List.length_take_le _ _)]

/-- The next event is the one behind those seen. -/
theorem seen_succ {h : List (E × ℤ)} {first i : ℕ} {x : E × ℤ} (hfirst : first ≤ i)
    (hx : h[i]? = some x) :
    (h.take (i + 1)).drop first = (h.take i).drop first ++ [x] := by
  have hlen : i < h.length := (List.getElem?_eq_some_iff.mp hx).1
  rw [List.take_add_one, hx, Option.toList_some, List.drop_append_of_le_length]
  rw [List.length_take]
  omega

theorem pos_append (e : E) :
    { s with history := s.history ++ [(e, s.now)], pc := s.pc.notify : State E }.pos = s.pos := by
  unfold State.pos Pc.notify
  cases s.pc <;> rfl

theorem Inv.append (h : Inv pred s) (e : E) (hlock : ¬s.pc.locked = true) :
    Inv pred { s with history := s.history ++ [(e, s.now)], pc := s.pc.notify } := by
  have hpos := pos_append (s := s) e
  refine ⟨?_, ?_, ?_, ?_⟩
  · rw [hpos]
    exact h.first_le
  · rw [hpos, List.length_append]
    exact h.pos_le.imp_left fun hle => by omega
  · rw [State.seen, hpos, seen_append h.pos_le]
    exact h.returned
  · intro d i hw
    -- the notification reaches everyone who sleeps
    cases hpc : s.pc with
    | outside => simp [hpc, Pc.notify] at hw
    | entered d' => simp [hpc, Pc.notify] at hw
    | scanning d' j => exact absurd (by rw [hpc]; rfl) hlock
    | waiting d' j b => simp [hpc, Pc.notify] at hw
    | raised j => simp [hpc, Pc.notify] at hw

/-- The round at an event: it is seen, and returned if it satisfies the predicate. -/
theorem scan_some {d : ℤ} {i : ℕ} {x : E × ℤ} (hx : s.history[i]? = some x) :
    s.scan pred d i = if pred x.1 then
      { s with pc := .outside, since := i + 1, returned := s.returned ++ [x.1] }
    else { s with pc := .scanning d (i + 1) } := by
  simp only [State.scan, hx]

theorem scan_none {d : ℤ} {i : ℕ} (hx : s.history[i]? = none) :
    s.scan pred d i = if d - s.now ≤ 0 then { s with pc := .raised i }
      else { s with pc := .waiting d i false } := by
  simp only [State.scan, hx]

theorem scan_pos {d : ℤ} {i : ℕ} {x : E × ℤ} (hx : s.history[i]? = some x) :
    (s.scan pred d i).pos = i + 1 := by
  rw [scan_some hx]
  split_ifs <;> rfl

theorem scan_history (d : ℤ) (i : ℕ) : (s.scan pred d i).history = s.history ∧
    (s.scan pred d i).first = s.first ∧ (s.scan pred d i).now = s.now := by
  unfold State.scan
  split <;> split_ifs <;> exact ⟨rfl, rfl, rfl⟩

theorem scan_seen {d : ℤ} {i : ℕ} {x : E × ℤ} (hfirst : s.first ≤ i)
    (hx : s.history[i]? = some x) :
    (s.scan pred d i).seen = (s.history.take i).drop s.first ++ [x] := by
  rw [State.seen, scan_pos hx, (scan_history d i).1, (scan_history d i).2.1, seen_succ hfirst hx]

theorem Inv.scan (h : Inv pred s) {d : ℤ} {i : ℕ} (hpc : s.pc = .scanning d i) :
    Inv pred (s.scan pred d i) := by
  have hpos : s.pos = i := by rw [State.pos, hpc]
  have hfirst : s.first ≤ i := hpos ▸ h.first_le
  have hret : s.returned = matching pred ((s.history.take i).drop s.first) := by
    rw [h.returned, State.seen, hpos]
  cases hx : s.history[i]? with
  | some x =>
    have hlen : i < s.history.length := (List.getElem?_eq_some_iff.mp hx).1
    refine ⟨?_, .inl ?_, ?_, fun d' j hw => ?_⟩
    · rw [scan_pos hx, (scan_history d i).2.1]
      omega
    · rw [scan_pos hx, (scan_history d i).1]
      exact hlen
    · rw [scan_seen hfirst hx, matching_append, ← hret, scan_some hx]
      by_cases hp : pred x.1 = true
      · simp [hp, matching]
      · simp [hp, matching]
    · rw [scan_some hx] at hw
      split_ifs at hw
  | none =>
    have hlen : s.history.length ≤ i := List.getElem?_eq_none_iff.mp hx
    have hle : i ≤ s.history.length ∨ i = s.first := hpos ▸ h.pos_le
    rw [scan_none hx]
    by_cases hd : d - s.now ≤ 0
    · rw [if_pos hd]
      exact ⟨hfirst, hle, hret, fun d' j hw => by cases hw⟩
    · rw [if_neg hd]
      refine ⟨hfirst, hle, hret, fun d' j hw => ?_⟩
      cases hw
      exact hlen

/-- **Every step keeps the account.** -/
theorem Inv.step {a : Action E} (h : Inv pred s) (hs : step pred s a = some s') :
    Inv pred s' := by
  cases a with
  | tick k =>
    cases hs
    exact ⟨h.first_le, h.pos_le, h.returned, h.asleep⟩
  | append e =>
    simp only [Wait.step] at hs
    split_ifs at hs with hlock
    cases hs
    exact h.append e hlock
  | call timeout =>
    simp only [Wait.step] at hs
    split at hs
    · next hpc =>
      cases hs
      have hpos : s.pos = s.since := by rw [State.pos, hpc]
      have hret := h.returned
      rw [State.seen, hpos] at hret
      exact ⟨hpos ▸ h.first_le, hpos ▸ h.pos_le, hret, fun d i hw => by cases hw⟩
    · cases hs
  | acquire =>
    simp only [Wait.step] at hs
    -- the loop goes on where the caller stands
    have hgo : ∀ d i, s.pos = i → some { s with pc := .scanning d i } = some s' →
        Inv pred s' := by
      intro d i hpos hs'
      cases hs'
      have hret := h.returned
      rw [State.seen, hpos] at hret
      exact ⟨hpos ▸ h.first_le, hpos ▸ h.pos_le, hret, fun d i hw => by cases hw⟩
    split at hs
    · next d hpc => exact hgo d s.since (by rw [State.pos, hpc]) hs
    · next d i b hpc => exact hgo d i (by rw [State.pos, hpc]) hs
    · cases hs
  | scan =>
    simp only [Wait.step] at hs
    split at hs
    · next d i hpc =>
      cases hs
      exact h.scan hpc
    · cases hs

/-- **Exactly the matching events.** In every reachable state. -/
theorem reach_inv (h : (machine pred).Reach s) : Inv pred s :=
  h.invariant (Inv pred) (fun _ h0 => inv_start h0) fun _ _ _ hi _ hs => hi.step hs

/-- A round that ends the call with `TimeoutError` has seen the whole history. -/
theorem raised_length {i : ℕ} (hs : step pred s .scan = some s') (hr : s'.pc = .raised i) :
    s'.history.length ≤ s'.pos := by
  simp only [Wait.step] at hs
  split at hs
  · next d j hpc =>
    cases hs
    cases hx : s.history[j]? with
    | some x =>
      rw [scan_some hx] at hr
      split_ifs at hr
    | none =>
      have hlen : s.history.length ≤ j := List.getElem?_eq_none_iff.mp hx
      rw [scan_none hx] at hr ⊢
      split_ifs at hr ⊢
      exact hlen
  · cases hs

/-- **Up to the timeout.** -/
theorem Inv.raised (h : Inv pred s) {i : ℕ} (hs : Wait.step pred s .scan = some s')
    (hr : s'.pc = .raised i) : s'.returned = matching pred s'.events := by
  rw [(h.step hs).returned, State.seen_eq (raised_length hs hr)]

/-- **No lost wake-up.** A caller that sleeps and was not notified has returned everything. -/
theorem Inv.asleep_returned (h : Inv pred s) {d : ℤ} {i : ℕ} (hpc : s.pc = .waiting d i false) :
    s.returned = matching pred s.events := by
  have hpos : s.pos = i := by rw [State.pos, hpc]
  rw [h.returned, State.seen_eq (hpos ▸ h.asleep d i hpc)]

end

end ZbAt.Wait
