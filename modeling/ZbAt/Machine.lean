import Mathlib.Data.List.Basic

/-!
# Guarded machines

A program of several threads is a *machine*: `step s a` is the state after the action `a`, or
`none` when `a` is not enabled in `s`. An action names the thread that moves and everything the
environment decides in that step. The same function is replayed on one run (`exec`) and
quantified over (`ReachIf`).

* `ReachIf C` — the states of the runs whose steps all meet the condition `C`; `Reach` is the
  case without a condition.
* `ReachIf.invariant` — what holds at the start and is kept by every such step holds throughout.
* `Reach.iff_reachIf` — when a condition on the steps is exact for a property of whole runs.
* `Simulation` — every step of one machine is matched by a run of another; `Simulation.reach`
  carries reachability over.
* `answers` — a program that answers requests one after the other; `answers_related` compares two
  runs of it.
* `Runs.bounded` — a measure that every step of an invariant decreases bounds the length of runs.
* `Follows` — every entry of a log is justified by the entries before it.
* `account_step` — a log accounts for what its state still owes: one step of such an account.
-/

namespace ZbAt

/-- A machine with states `S` and actions `A`. -/
structure Machine (S A : Type*) where
  init : S → Prop
  step : S → A → Option S

namespace Machine

variable {S A T B : Type*} {M : Machine S A} {C D : S → A → Prop}

/-- The state after the actions `as`, taken in order; `none` if one of them is not enabled. -/
def exec (M : Machine S A) (s : S) : List A → Option S
  | [] => some s
  | a :: as => (M.step s a).bind fun s' => M.exec s' as

theorem exec_append (M : Machine S A) (s : S) (as bs : List A) :
    M.exec s (as ++ bs) = (M.exec s as).bind fun s' => M.exec s' bs := by
  induction as generalizing s with
  | nil => rfl
  | cons a as ih =>
    rw [List.cons_append, exec, exec]
    cases M.step s a with
    | none => rfl
    | some s' => exact ih s'

/-- The states of the runs whose steps all meet `C`. -/
inductive ReachIf (M : Machine S A) (C : S → A → Prop) : S → Prop
  | init {s : S} : M.init s → ReachIf M C s
  | step {s s' : S} {a : A} : ReachIf M C s → C s a → M.step s a = some s' → ReachIf M C s'

/-- The reachable states. -/
abbrev Reach (M : Machine S A) : S → Prop := M.ReachIf fun _ _ => True

theorem ReachIf.mono (hCD : ∀ s a, C s a → D s a) {s : S} (h : M.ReachIf C s) :
    M.ReachIf D s := by
  induction h with
  | init h => exact .init h
  | step _ hc hs ih => exact .step ih (hCD _ _ hc) hs

theorem ReachIf.reach {s : S} (h : M.ReachIf C s) : M.Reach s := h.mono fun _ _ _ => trivial

/-- **The invariant rule.** -/
theorem ReachIf.invariant (P : S → Prop) (h0 : ∀ s, M.init s → P s)
    (hstep : ∀ s a s', P s → C s a → M.step s a = some s' → P s') {s : S}
    (h : M.ReachIf C s) : P s := by
  induction h with
  | init h => exact h0 _ h
  | step _ hc hs ih => exact hstep _ _ _ ih hc hs

/-- The invariant rule with an invariant `I` already known of every reachable state. -/
theorem ReachIf.invariant_of (I P : S → Prop) (hI : ∀ s, M.Reach s → I s)
    (h0 : ∀ s, M.init s → P s)
    (hstep : ∀ s a s', I s → I s' → P s → C s a → M.step s a = some s' → P s') {s : S}
    (h : M.ReachIf C s) : P s := by
  induction h with
  | init h => exact h0 _ h
  | @step s s' a hr hc hs ih =>
    exact hstep _ _ _ (hI _ hr.reach) (hI _ (.step hr.reach trivial hs)) ih hc hs

/-- **The exact condition.** Where `P` survives a step exactly when the step meets `C`, the states
with `P` are those of the runs whose steps all meet `C`. -/
theorem Reach.iff_reachIf (P : S → Prop) (h0 : ∀ s, M.init s → P s)
    (hstep : ∀ s a s', M.Reach s → M.step s a = some s' → (P s' ↔ P s ∧ C s a)) {s : S}
    (h : M.Reach s) : P s ↔ M.ReachIf C s := by
  constructor
  · intro hP
    induction h with
    | init h => exact .init h
    | step hr _ hs ih =>
      obtain ⟨hP, hc⟩ := (hstep _ _ _ hr hs).mp hP
      exact .step (ih hP) hc hs
  · intro hC
    clear h
    induction hC with
    | init h => exact h0 _ h
    | step hr hc hs ih => exact (hstep _ _ _ hr.reach hs).mpr ⟨ih, hc⟩

/-- Replaying from a reachable state stays among the reachable states. -/
theorem Reach.exec {s s' : S} (h : M.Reach s) {as : List A} (he : M.exec s as = some s') :
    M.Reach s' := by
  induction as generalizing s with
  | nil => cases he; exact h
  | cons a as ih =>
    obtain ⟨t, ht, he⟩ := Option.bind_eq_some_iff.mp he
    exact ih (.step h trivial ht) he

/-- Replaying actions that meet the condition in every state. -/
theorem ReachIf.exec {s s' : S} (h : M.ReachIf C s) {as : List A} (hC : ∀ a ∈ as, ∀ s, C s a)
    (he : M.exec s as = some s') : M.ReachIf C s' := by
  induction as generalizing s with
  | nil => cases he; exact h
  | cons a as ih =>
    obtain ⟨t, ht, he⟩ := Option.bind_eq_some_iff.mp he
    exact ih (.step h (hC a List.mem_cons_self s) ht)
      (fun b hb => hC b (List.mem_cons_of_mem _ hb)) he

/-- Replaying with a decidable condition checked before every step. -/
def execIf (M : Machine S A) (C : S → A → Prop) [∀ s a, Decidable (C s a)] (s : S) :
    List A → Option S
  | [] => some s
  | a :: as => if C s a then (M.step s a).bind fun s' => M.execIf C s' as else none

theorem ReachIf.execIf [∀ s a, Decidable (C s a)] {s s' : S} (h : M.ReachIf C s) {as : List A}
    (he : M.execIf C s as = some s') : M.ReachIf C s' := by
  induction as generalizing s with
  | nil => cases he; exact h
  | cons a as ih =>
    simp only [Machine.execIf] at he
    split_ifs at he with hc
    obtain ⟨t, ht, he⟩ := Option.bind_eq_some_iff.mp he
    exact ih (.step h hc ht) he

/-! ## Simulation -/

/-- `R` relates every state of `M` reached under `C` to a state of `N`: it holds at the start, and
a step of `M` is matched by a run of `N`. -/
structure Simulation (M : Machine S A) (C : S → A → Prop) (N : Machine T B) (R : S → T → Prop) :
    Prop where
  init : ∀ s, M.init s → ∃ t, N.init t ∧ R s t
  step : ∀ s a s' t, R s t → C s a → M.step s a = some s' →
    ∃ bs t', N.exec t bs = some t' ∧ R s' t'

/-- **Simulation.** A state reached by `M` is related to one reached by `N`. -/
theorem Simulation.reach {N : Machine T B} {R : S → T → Prop} (h : Simulation M C N R) {s : S}
    (hs : M.ReachIf C s) : ∃ t, N.Reach t ∧ R s t := by
  induction hs with
  | init h0 =>
    obtain ⟨t, ht, hR⟩ := h.init _ h0
    exact ⟨t, .init ht, hR⟩
  | step _ hc hstep ih =>
    obtain ⟨t, ht, hR⟩ := ih
    obtain ⟨bs, t', he, hR'⟩ := h.step _ _ _ t hR hc hstep
    exact ⟨t', Reach.exec ht he, hR'⟩

/-! ## Runs that end -/

/-- A run of `n` steps that all meet `C`. -/
inductive Runs (M : Machine S A) (C : S → A → Prop) : S → ℕ → S → Prop
  | refl (s : S) : Runs M C s 0 s
  | step {s s' s'' : S} {a : A} {n : ℕ} : C s a → M.step s a = some s' → Runs M C s' n s'' →
      Runs M C s (n + 1) s''

/-- Replaying with a part of the condition checked before every step. -/
theorem Runs.execIf [∀ s a, Decidable (D s a)] {s s' : S} {as : List A}
    (hC : ∀ a ∈ as, ∀ s, D s a → C s a) (he : M.execIf D s as = some s') :
    M.Runs C s as.length s' := by
  induction as generalizing s with
  | nil =>
    cases he
    exact .refl _
  | cons a as ih =>
    simp only [Machine.execIf] at he
    split_ifs at he with hd
    obtain ⟨t, ht, he⟩ := Option.bind_eq_some_iff.mp he
    refine .step (hC a List.mem_cons_self s hd) ht (ih (fun b hb => ?_) he)
    exact hC b (List.mem_cons_of_mem _ hb)

/-- A run that keeps the condition reaches its last state. -/
theorem ReachIf.runs (hCD : ∀ s a, D s a → C s a) {s s' : S} {n : ℕ} (h : M.ReachIf C s)
    (hrun : M.Runs D s n s') : M.ReachIf C s' := by
  induction hrun with
  | refl => exact h
  | step hd hs _ ih => exact ih (.step h (hCD _ _ hd) hs)

/-- **The measure rule.** Where every such step keeps `I` and decreases `μ`, a run is at most as
long as the measure that it uses up. -/
theorem Runs.bounded (I : S → Prop) (μ : S → ℕ)
    (hstep : ∀ s a s', I s → C s a → M.step s a = some s' → I s' ∧ μ s' < μ s) {s s' : S} {n : ℕ}
    (h : M.Runs C s n s') (hI : I s) : I s' ∧ n + μ s' ≤ μ s := by
  induction h with
  | refl => exact ⟨hI, by omega⟩
  | step hc hs _ ih =>
    obtain ⟨hI', hlt⟩ := hstep _ _ _ hI hc hs
    obtain ⟨hlast, hle⟩ := ih hI'
    exact ⟨hlast, by omega⟩

end Machine

/-! ## Two runs -/

section

variable {S A O : Type*} {f : A → S → O × S} {R : S → S → Prop}

/-- The answers of a program to the requests, taken in order, and its last state. -/
def answers (f : A → S → O × S) : List A → S → List O × S
  | [], s => ([], s)
  | a :: as, s =>
    let (o, s') := f a s
    let (os, s'') := answers f as s'
    (o :: os, s'')

/-- **Two runs.** Where every single request gets the same answer in related states and leaves
related states, so do all requests together. -/
theorem answers_related {as : List A} (hstep : ∀ a ∈ as, ∀ s t, R s t →
    (f a s).1 = (f a t).1 ∧ R (f a s).2 (f a t).2) {s t : S} (h : R s t) :
    (answers f as s).1 = (answers f as t).1 ∧ R (answers f as s).2 (answers f as t).2 := by
  induction as generalizing s t with
  | nil => exact ⟨rfl, h⟩
  | cons a as ih =>
    obtain ⟨ho, hR⟩ := hstep a List.mem_cons_self s t h
    obtain ⟨hos, hR'⟩ := ih (fun b hb => hstep b (List.mem_cons_of_mem _ hb)) hR
    exact ⟨congrArg₂ List.cons ho hos, hR'⟩

end

/-! ## Logs -/

section

variable {Ev : Type*} {R : List Ev → Ev → Prop} {log : List Ev} {e : Ev}

/-- Every entry of the log is justified by the entries before it. -/
def Follows (R : List Ev → Ev → Prop) (log : List Ev) : Prop :=
  ∀ pre e post, log = pre ++ e :: post → R pre e

theorem follows_nil : Follows R [] := fun pre e post h => by simp at h

/-- A log stays justified when a justified entry is added. -/
theorem Follows.concat (h : Follows R log) (he : R log e) : Follows R (log ++ [e]) := by
  intro pre e' post heq
  rcases List.eq_nil_or_concat post with rfl | ⟨post', x, rfl⟩
  · obtain ⟨rfl, hl⟩ := List.append_inj' heq rfl
    cases hl
    exact he
  · rw [List.concat_eq_append, ← List.cons_append, ← List.append_assoc] at heq
    exact h pre e' post' (List.append_inj' heq rfl).1

/-- Two entries, the second justified by the log with the first. -/
theorem Follows.pair {e' : Ev} (h : Follows R log) (he : R log e) (he' : R (log ++ [e]) e') :
    Follows R (log ++ [e, e']) := by
  have hlog : log ++ [e, e'] = log ++ [e] ++ [e'] := by simp
  rw [hlog]
  exact (h.concat he).concat he'

/-- Entries that need no justification may be added. -/
theorem Follows.append {evs : List Ev} (h : Follows R log) (he : ∀ e ∈ evs, ∀ pre, R pre e) :
    Follows R (log ++ evs) := by
  induction evs generalizing log with
  | nil => simpa using h
  | cons e evs ih =>
    rw [List.append_cons]
    exact ih (h.concat (he e List.mem_cons_self _)) fun e' he' => he e' (List.mem_cons_of_mem _ he')

end

/-- **One step of an account.** `f` picks entries of the log, `held` are the keys whose entry is
still to come. An entry that a step adds is one that it owed, or one that has become due. -/
theorem account_step {Ev κ α : Type*} [DecidableEq κ] {f : List Ev → List α} {log evs : List Ev}
    {held held' : List κ} {k : κ} {due d : ℕ} (hf : ∀ a b, f (a ++ b) = f a ++ f b)
    (h : (f log).length + held.count k = due)
    (hstep : (f evs).length + held'.count k = held.count k + d) :
    (f (log ++ evs)).length + held'.count k = due + d := by
  rw [hf, List.length_append]
  omega

/-- Of the calls numbered from 0, one more was made. -/
theorem made_succ (n k : ℕ) :
    (if k < n + 1 then 1 else 0) = (if k < n then 1 else 0) + [n].count k := by
  rw [List.count_singleton]
  by_cases hk : n = k
  · simp [hk]
  · have hiff : k < n + 1 ↔ k < n := by omega
    simp [hk, hiff]

end ZbAt
