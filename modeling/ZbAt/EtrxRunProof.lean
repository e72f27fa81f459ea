import ZbAt.EtrxRun

/-!
# Every call gets its own answer

* `Clear` — a call starts with nothing outstanding.
* `Collecting` — where the lines of the current call are: collected, in the queue, at the reader or
  on the wire; and an answer ends with its first result.
* `calls_answered` — in every run whose steps all meet `InTurn`, every outcome is the one that was
  printed for its call.
* `lateRun` — the answer of a call that timed out is returned by the next one.
-/

namespace ZbAt.Host

open Text

section

variable {n k : ℕ} {line : Text} {owner : Option ℕ} {ts ts' : List Tagged}

/-! ## Lines of a call -/

@[simp] theorem linesFor_append : linesFor n (ts ++ ts') = linesFor n ts ++ linesFor n ts' :=
  List.filterMap_append

theorem linesFor_other (h : owner = some n → line = []) : linesFor n [(line, owner)] = [] := by
  simpa [linesFor] using h

theorem linesFor_none (h : ∀ t ∈ ts, t.2 ≠ some n) : linesFor n ts = [] := by
  rw [linesFor, List.filterMap_eq_nil_iff]
  intro t ht
  simp [h t ht]

/-- An answer ends with its first result. -/
def Closed (ls : List Text) : Prop := ∀ pre l post, ls = pre ++ l :: post → IsResult l → post = []

theorem Closed.nil : Closed [] := by
  intro pre l post h
  cases pre <;> cases h

theorem Closed.concat {ls : List Text} (h : ∀ l ∈ ls, ¬IsResult l) (line : Text) :
    Closed (ls ++ [line]) := by
  intro pre l post heq hl
  rcases List.eq_nil_or_concat post with rfl | ⟨post', x, rfl⟩
  · rfl
  · rw [List.concat_eq_append, ← List.cons_append, ← List.append_assoc] at heq
    have hpre := (List.append_inj' heq rfl).1
    exact absurd hl (h l (hpre ▸ List.mem_append_right _ List.mem_cons_self))

end

/-! ## Invariants -/

/-- Nothing of an earlier call is outstanding. -/
structure Clear (s : State) : Prop where
  resp : s.resp = []
  reader : s.reader = none
  todo : s.todo = []
  wire : ∀ t ∈ s.wire, t.2 = none

/-- The call `n` waits, and has collected `lines`. -/
structure Collecting (rxHex : Bool) (s : State) (n : ℕ) (lines : List Text) : Prop where
  todo : ∀ k ∈ s.todo, k = n
  own : ∀ t ∈ s.resp ++ s.reader.toList, t.2 = some n ∧ t.1 ≠ []
  wire : ∀ t ∈ s.wire, t.2 = none ∨ t.2 = some n ∧ (t.1 ≠ [] → taken rxHex s t.1 = true)
  printed : linesFor n s.printed = lines ++ linesFor n (s.resp ++ s.reader.toList ++ s.wire)
  closed : Closed (linesFor n s.printed)
  unfinished : n ∈ s.todo → ∀ l ∈ linesFor n s.printed, ¬IsResult l

/-- What is outstanding, by where the caller is. -/
def Flow (rxHex : Bool) (s : State) : Prop :=
  match s.phase with
  | .idle | .leave => True
  | .drain n _ => n = s.calls
  | .drained n _ | .start n _ => n = s.calls ∧ Clear s
  | .collect n lines => Collecting rxHex s n lines

structure Inv (rxHex : Bool) (s : State) : Prop where
  nodup : s.todo.Nodup
  todo_lt : ∀ n ∈ s.todo, n < s.calls
  printed_lt : ∀ t ∈ s.printed, ∀ n, t.2 = some n → n < s.calls
  reader : ∀ t ∈ s.reader, t.2 ≠ none ∧ t.1 ≠ []
  flow : Flow rxHex s
  events : ∀ e ∈ s.events, Faithful s e

theorem inv_init (rxHex : Bool) : Inv rxHex init := by
  refine ⟨List.nodup_nil, ?_, ?_, ?_, trivial, ?_⟩
  all_goals
    intro x hx
    cases hx

section

variable {rxHex : Bool} {s s' : State} {n : ℕ} {lines : List Text} {t : Tagged}

/-! ## The module prints -/

/-- A finished answer stays as it is. -/
theorem Faithful.print {e : Event} (he : Faithful s e) (howner : ∀ k, t.2 = some k → k ∈ s.todo)
    (hprinted : s'.printed = s.printed ++ [t]) (hsub : s'.todo ⊆ s.todo) : Faithful s' e := by
  have hkeep : ∀ n, n ∉ s.todo → linesFor n s'.printed = linesFor n s.printed := by
    intro n hn
    have hnone : linesFor n [t] = [] := by
      apply linesFor_none
      intro t' ht' hk
      obtain rfl := List.mem_singleton.mp ht'
      exact hn (howner n hk)
    rw [hprinted, linesFor_append, hnone, List.append_nil]
  cases e with
  | returned n lines =>
    obtain ⟨hn, hlines⟩ := he
    exact ⟨fun h => hn (hsub h), (hkeep n hn).trans hlines⟩
  | raised n code =>
    obtain ⟨hn, lines, line, hlines, hcode⟩ := he
    exact ⟨fun h => hn (hsub h), lines, line, (hkeep n hn).trans hlines, hcode⟩
  | timedOut n => trivial

/-- A line of the answer of the call that waits, or of none. -/
theorem Collecting.print (h : Collecting rxHex s n lines) {todo : List ℕ} (hsub : todo ⊆ s.todo)
    (htag : t.2 = none ∨ t.2 = some n ∧ n ∈ s.todo ∧ (t.1 ≠ [] → taken rxHex s t.1 = true))
    (hres : n ∈ todo → t.2 = some n → ¬IsResult t.1) :
    Collecting rxHex { s.print t with todo := todo } n lines := by
  refine ⟨fun k hk => h.todo k (hsub hk), h.own, ?_, ?_, ?_, ?_⟩
  · intro t' ht'
    rcases List.mem_append.mp ht' with ht' | ht'
    · exact h.wire t' ht'
    · rw [List.mem_singleton.mp ht']
      exact htag.imp_right fun ⟨hn, _, htaken⟩ => ⟨hn, htaken⟩
  · have hprinted := h.printed
    simp only [State.print, linesFor_append] at hprinted ⊢
    rw [hprinted]
    simp
  · simp only [State.print, linesFor_append]
    rcases htag with hnone | ⟨hn, hmem, -⟩
    · rw [@linesFor_none n [t] (by simp [hnone]), List.append_nil]
      exact h.closed
    · by_cases ht : t.1 = []
      · have hempty : linesFor n [t] = [] := linesFor_other fun _ => ht
        rw [hempty, List.append_nil]
        exact h.closed
      · have hone : linesFor n [t] = [t.1] := by simp [linesFor, hn, ht]
        rw [hone]
        exact Closed.concat (h.unfinished hmem) t.1
  · intro hmem l hl
    simp only [State.print, linesFor_append, List.mem_append] at hl
    rcases hl with hl | hl
    · exact h.unfinished (hsub hmem) l hl
    · obtain ⟨t', ht', hif⟩ := List.mem_filterMap.mp hl
      obtain rfl := List.mem_singleton.mp ht'
      split_ifs at hif with hn
      cases hif
      exact hres hmem hn.1

/-- The module prints a line of the answer that it is at, or an echo or prompt. -/
theorem Inv.print (h : Inv rxHex s) {todo : List ℕ} (hsub : todo.Sublist s.todo)
    (howner : ∀ k, t.2 = some k → s.todo.head? = some k)
    (hcur : s.serving = true → t.2 ≠ none → (t.1 ≠ [] → taken rxHex s t.1 = true) ∧
      (todo = s.todo → ¬IsResult t.1))
    (htodo : todo = s.todo ∨ todo = s.todo.tail) :
    Inv rxHex { s.print t with todo := todo } := by
  have hmem : ∀ k, t.2 = some k → k ∈ s.todo := fun k hk => List.mem_of_mem_head? (howner k hk)
  refine ⟨h.nodup.sublist hsub, fun k hk => h.todo_lt k (hsub.subset hk), ?_, h.reader, ?_,
    fun e he => (h.events e he).print hmem rfl hsub.subset⟩
  · intro t' ht' k hk
    rcases List.mem_append.mp ht' with ht' | ht'
    · exact h.printed_lt t' ht' k hk
    · rw [List.mem_singleton.mp ht'] at hk
      exact h.todo_lt k (hmem k hk)
  · have hflow := h.flow
    cases hp : s.phase with
    | idle | leave => simp only [Flow, State.print, hp]
    | drain n command =>
      simp only [Flow, State.print, hp] at hflow ⊢
      exact hflow
    | drained n command | start n command =>
      simp only [Flow, State.print, hp] at hflow ⊢
      obtain ⟨hn, hclear⟩ := hflow
      have hnil : s.todo = [] := hclear.todo
      refine ⟨hn, hclear.resp, hclear.reader, ?_, ?_⟩
      · rw [hnil, List.sublist_nil] at hsub
        exact hsub
      · intro t' ht'
        rcases List.mem_append.mp ht' with ht' | ht'
        · exact hclear.wire t' ht'
        · rw [List.mem_singleton.mp ht']
          cases ht : t.2 with
          | none => rfl
          | some k => rw [hnil] at hmem; exact absurd (hmem k ht) List.not_mem_nil
    | collect n lines =>
      simp only [Flow, hp] at hflow
      suffices hnext : Collecting rxHex { s.print t with todo := todo } n lines by
        simp only [Flow, State.print, hp]
        exact ⟨hnext.todo, hnext.own, hnext.wire, hnext.printed, hnext.closed, hnext.unfinished⟩
      cases ht : t.2 with
      | none => exact hflow.print hsub.subset (.inl ht) fun _ hn => by rw [ht] at hn; cases hn
      | some k =>
        obtain rfl := hflow.todo k (hmem k ht)
        have hserving : s.serving = true := by
          have hhead := howner k ht
          cases hs : s.todo with
          | nil => rw [hs] at hhead; cases hhead
          | cons j rest =>
            rw [hs] at hhead
            cases hhead
            simp [State.serving, hp, hs]
        obtain ⟨htaken, hres⟩ := hcur hserving (by rw [ht]; simp)
        refine hflow.print hsub.subset (.inr ⟨ht, hmem k ht, htaken⟩) fun hk _ => hres ?_
        -- An answer that the module goes on with is not its result.
        rcases htodo with htodo | htodo
        · exact htodo
        · exfalso
          have hhead := howner k ht
          have hnodup := h.nodup
          cases hs : s.todo with
          | nil => rw [hs] at hhead; cases hhead
          | cons j rest =>
            rw [hs] at hhead hnodup htodo
            cases hhead
            rw [htodo] at hk
            exact (List.nodup_cons.mp hnodup).1 hk

/-! ## The reader -/

/-- A line that goes to the queue is not empty. -/
theorem taken_ne_nil {line : Text} (h : taken rxHex s line = true) : line ≠ [] := by
  unfold taken at h
  cases hpending : s.pending with
  | none => rw [hpending] at h; cases h
  | some command =>
    rw [hpending] at h
    exact (routed_iff.mp h).1

/-- Reading a line: it is kept if it goes to the queue. -/
theorem Inv.read (h : Inv rxHex s) (hc : InTurn rxHex s .read) {rest : List Tagged}
    (hreader : s.reader = none) (hwire : s.wire = t :: rest) :
    Inv rxHex { s with wire := rest, reader := if taken rxHex s t.1 then some t else none } := by
  have hfree : t.2 = none → taken rxHex s t.1 = false := hc t (by rw [hwire]; rfl)
  refine ⟨h.nodup, h.todo_lt, h.printed_lt, ?_, ?_, h.events⟩
  · intro t' ht'
    dsimp only at ht'
    split_ifs at ht' with htaken
    · cases ht'
      refine ⟨fun hn => ?_, taken_ne_nil htaken⟩
      rw [hfree hn] at htaken
      cases htaken
    · cases ht'
  · have hflow := h.flow
    cases hp : s.phase with
    | idle | leave => simp only [Flow]
    | drain n command =>
      simp only [Flow, hp] at hflow ⊢
      exact hflow
    | drained n command | start n command =>
      simp only [Flow, hp] at hflow ⊢
      obtain ⟨hn, hclear⟩ := hflow
      have hwires := hclear.wire
      rw [hwire, List.forall_mem_cons] at hwires
      refine ⟨hn, hclear.resp, ?_, hclear.todo, hwires.2⟩
      simp [hfree hwires.1]
    | collect n lines =>
      simp only [Flow, hp] at hflow ⊢
      have hwires := hflow.wire
      have hprinted := hflow.printed
      rw [hwire, List.forall_mem_cons] at hwires
      rw [hreader, hwire] at hprinted
      have hsplit : linesFor n (t :: rest) = linesFor n [t] ++ linesFor n rest := by
        rw [← linesFor_append]
        rfl
      have hown := hflow.own
      rw [hreader] at hown
      -- A line that is dropped is none of the call's.
      have hdrop : taken rxHex s t.1 = false → linesFor n [t] = [] := by
        intro hno
        refine linesFor_other fun hn => ?_
        rcases hwires.1 with hnone | ⟨-, htaken⟩
        · rw [hn] at hnone
          cases hnone
        · by_contra hne
          rw [htaken hne] at hno
          cases hno
      cases htaken : taken rxHex s t.1 with
      | false =>
        refine ⟨hflow.todo, by simpa using hown, hwires.2, ?_, hflow.closed, hflow.unfinished⟩
        simpa [hsplit, hdrop htaken] using hprinted
      | true =>
        have hmine : t.2 = some n := by
          rcases hwires.1 with hnone | ⟨hn, -⟩
          · rw [hfree hnone] at htaken
            cases htaken
          · exact hn
        have hne : t.1 ≠ [] := taken_ne_nil htaken
        refine ⟨hflow.todo, ?_, hwires.2, ?_, hflow.closed, hflow.unfinished⟩
        · intro t' ht'
          rcases List.mem_append.mp ht' with ht' | ht'
          · exact hown t' (List.mem_append_left _ ht')
          · rw [if_pos rfl] at ht'
            rw [List.mem_singleton.mp ht']
            exact ⟨hmine, hne⟩
        · simpa using hprinted

/-- Putting a line into the queue: the reader holds lines of the current call only. -/
theorem Inv.put (h : Inv rxHex s) (hreader : s.reader = some t) :
    Inv rxHex { s with resp := s.resp ++ [t], reader := none } := by
  refine ⟨h.nodup, h.todo_lt, h.printed_lt, fun t' ht' => (by cases ht'), ?_, h.events⟩
  have hflow := h.flow
  cases hp : s.phase with
  | idle | leave => simp only [Flow]
  | drain n command =>
    simp only [Flow, hp] at hflow ⊢
    exact hflow
  | drained n command | start n command =>
    simp only [Flow, hp] at hflow
    rw [hflow.2.reader] at hreader
    cases hreader
  | collect n lines =>
    simp only [Flow, hp] at hflow ⊢
    have hown := hflow.own
    have hprinted := hflow.printed
    rw [hreader] at hown hprinted
    exact ⟨hflow.todo, by simpa using hown, hflow.wire, by simpa using hprinted, hflow.closed,
      hflow.unfinished⟩

/-! ## The caller -/

/-- The caller moves, and nothing is printed or read. -/
theorem Inv.move (h : Inv rxHex s) (hs : s'.printed = s.printed ∧ s'.todo = s.todo ∧
      s'.calls = s.calls ∧ s'.reader = s.reader)
    (hflow : Flow rxHex s') (hevents : ∀ e ∈ s'.events, e ∈ s.events ∨ Faithful s e) :
    Inv rxHex s' := by
  obtain ⟨hprinted, htodo, hcalls, hreader⟩ := hs
  have hfaithful : ∀ e, Faithful s e → Faithful s' e := by
    intro e he
    cases e with
    | returned | raised => simpa only [Faithful, hprinted, htodo] using he
    | timedOut => trivial
  refine ⟨?_, ?_, ?_, ?_, hflow, ?_⟩
  · rw [htodo]
    exact h.nodup
  · rw [htodo, hcalls]
    exact h.todo_lt
  · rw [hprinted, hcalls]
    exact h.printed_lt
  · rw [hreader]
    exact h.reader
  · intro e he
    exact (hevents e he).elim (fun he => hfaithful e (h.events e he)) (hfaithful e)

/-- The queue is empty, and nothing is outstanding. -/
theorem Inv.drained (h : Inv rxHex s) (hc : InTurn rxHex s .drainEnd) (hresp : s.resp = []) :
    Clear s := by
  obtain ⟨htodo, hfree⟩ := hc
  refine ⟨hresp, ?_, htodo, fun t ht => hfree t (List.mem_append_right _ ht)⟩
  cases hreader : s.reader with
  | none => rfl
  | some t => exact absurd (hfree t (by simp [hreader])) (h.reader t hreader).1

/-- Writing a command: nothing has been printed for it. -/
theorem Inv.write (h : Inv rxHex s) {command : Text} (hp : s.phase = .start n command) :
    Inv rxHex { s with phase := .collect n [], todo := s.todo ++ [n], calls := s.calls + 1 } := by
  have hflow := h.flow
  simp only [Flow, hp] at hflow
  obtain ⟨rfl, hresp, hreader, htodo, hwire⟩ := hflow
  have hprinted : linesFor s.calls s.printed = [] := linesFor_none fun t ht hn =>
    absurd (h.printed_lt t ht _ hn) (lt_irrefl _)
  have hcoming : linesFor s.calls s.wire = [] := linesFor_none fun t ht hn => by
    rw [hwire t ht] at hn
    cases hn
  refine ⟨?_, ?_, fun t ht k hk => Nat.lt_succ_of_lt (h.printed_lt t ht k hk), h.reader, ?_, ?_⟩
  · simp [htodo]
  · simp [htodo]
  · refine ⟨?_, ?_, fun t ht => .inl (hwire t ht), ?_, ?_, ?_⟩
    · simp [htodo]
    · simp [hresp, hreader]
    · simp [hprinted, hresp, hreader, hcoming]
    · simp only [hprinted]
      exact Closed.nil
    · simp [hprinted]
  · intro e he
    have hlt : ∀ k, k ∉ s.todo → linesFor k s.printed ≠ [] → k ∉ s.todo ++ [s.calls] := by
      intro k hk hne hmem
      rcases List.mem_append.mp hmem with hmem | hmem
      · exact hk hmem
      · rw [List.mem_singleton.mp hmem] at hne
        exact hne hprinted
    have hf := h.events e he
    cases e with
    | returned k ls => exact ⟨hlt k hf.1 (by rw [hf.2]; simp), hf.2⟩
    | raised k code =>
      obtain ⟨hk, ls, line, hls, hcode⟩ := hf
      exact ⟨hlt k hk (by rw [hls]; simp), ls, line, hls, hcode⟩
    | timedOut k => trivial

/-- Looking at a line: the line is the next one of the answer, and a result is its last one. -/
theorem Inv.get (h : Inv rxHex s) {rest : List Tagged} (hp : s.phase = .collect n lines)
    (hresp : s.resp = t :: rest) : Inv rxHex (collectLine { s with resp := rest } n lines t.1) := by
  have hflow := h.flow
  simp only [Flow, hp] at hflow
  have hown := hflow.own
  have hprinted := hflow.printed
  rw [hresp, List.cons_append, List.forall_mem_cons] at hown
  obtain ⟨⟨htag, hne⟩, hrest⟩ := hown
  have hone : linesFor n [t] = [t.1] := by simp [linesFor, htag, hne]
  have hnext : linesFor n s.printed =
      lines ++ t.1 :: linesFor n (rest ++ s.reader.toList ++ s.wire) := by
    rw [hprinted, hresp, List.cons_append, List.cons_append, ← List.singleton_append,
      linesFor_append, hone]
    rfl
  have hlast : IsResult t.1 → n ∉ s.todo ∧ linesFor n s.printed = lines ++ [t.1] := by
    intro hres
    have hpost := hflow.closed _ _ _ hnext hres
    refine ⟨fun hn => hflow.unfinished hn t.1 ?_ hres, by rw [hnext, hpost]⟩
    rw [hnext]
    exact List.mem_append_right _ List.mem_cons_self
  unfold collectLine
  split_ifs with hok
  · refine h.move ⟨rfl, rfl, rfl, rfl⟩ trivial fun e he => ?_
    rcases List.mem_append.mp he with he | he
    · exact .inl he
    · rw [List.mem_singleton.mp he]
      obtain ⟨hdone, hls⟩ := hlast (.inl hok)
      exact .inr ⟨hdone, by rw [hls, hok]⟩
  · cases hcode : errorCode t.1 with
    | some code =>
      refine h.move ⟨rfl, rfl, rfl, rfl⟩ trivial fun e he => ?_
      rcases List.mem_append.mp he with he | he
      · exact .inl he
      · rw [List.mem_singleton.mp he]
        obtain ⟨hdone, hls⟩ := hlast (.inr (by rw [hcode]; rfl))
        exact .inr ⟨hdone, lines, t.1, hls, hcode⟩
    | none =>
      refine h.move ⟨rfl, rfl, rfl, rfl⟩ ?_ fun e he => .inl he
      refine ⟨hflow.todo, hrest, hflow.wire, ?_, hflow.closed, hflow.unfinished⟩
      rw [hnext]
      simp

end

/-! ## Runs -/

theorem Inv.step {rxHex : Bool} {s s' : State} {a : Action} (h : Inv rxHex s)
    (hc : InTurn rxHex s a) (hstep : step rxHex s a = some s') : Inv rxHex s' := by
  have hflow := h.flow
  cases a with
  | call command =>
    simp only [Host.step] at hstep
    split at hstep
    · cases hstep
      exact h.move ⟨rfl, rfl, rfl, rfl⟩ rfl fun e he => .inl he
    · cases hstep
  | drainOne =>
    simp only [Host.step] at hstep
    split at hstep
    · rename_i n command t rest hp hresp
      cases hstep
      refine h.move ⟨rfl, rfl, rfl, rfl⟩ ?_ fun e he => .inl he
      simp only [Flow, hp] at hflow ⊢
      exact hflow
    · cases hstep
  | drainEnd =>
    simp only [Host.step] at hstep
    split at hstep
    · rename_i n command hp hresp
      cases hstep
      refine h.move ⟨rfl, rfl, rfl, rfl⟩ ?_ fun e he => .inl he
      simp only [Flow, hp] at hflow
      obtain ⟨hempty, hreader, htodo, hwire⟩ := h.drained hc hresp
      exact ⟨hflow, hempty, hreader, htodo, hwire⟩
    · cases hstep
  | setPending =>
    simp only [Host.step] at hstep
    split at hstep
    · rename_i n command hp
      cases hstep
      refine h.move ⟨rfl, rfl, rfl, rfl⟩ ?_ fun e he => .inl he
      simp only [Flow, hp] at hflow
      obtain ⟨hn, hempty, hreader, htodo, hwire⟩ := hflow
      exact ⟨hn, hempty, hreader, htodo, hwire⟩
    · cases hstep
  | write =>
    simp only [Host.step] at hstep
    split at hstep
    · rename_i n command hp
      cases hstep
      exact h.write hp
    · cases hstep
  | get =>
    simp only [Host.step] at hstep
    split at hstep
    · rename_i n lines t rest hp hresp
      cases hstep
      exact h.get hp hresp
    · cases hstep
  | timeout =>
    simp only [Host.step] at hstep
    split at hstep
    · cases hstep
      refine h.move ⟨rfl, rfl, rfl, rfl⟩ trivial fun e he => ?_
      rcases List.mem_append.mp he with he | he
      · exact .inl he
      · rw [List.mem_singleton.mp he]
        exact .inr trivial
    · cases hstep
  | leave =>
    simp only [Host.step] at hstep
    split at hstep
    · cases hstep
      exact h.move ⟨rfl, rfl, rfl, rfl⟩ trivial fun e he => .inl he
    · cases hstep
  | read =>
    simp only [Host.step] at hstep
    split at hstep
    · rename_i t rest hreader hwire
      cases hstep
      exact h.read hc hreader hwire
    · cases hstep
  | put =>
    simp only [Host.step] at hstep
    split at hstep
    · rename_i t hreader
      cases hstep
      exact h.put hreader
    · cases hstep
  | answer line =>
    simp only [Host.step] at hstep
    split at hstep
    · rename_i n rest htodo
      cases hstep
      refine h.print (List.Sublist.refl _) ?_ (fun hs _ => ?_) (.inl rfl)
      · intro k hk
        cases hk
        rw [htodo]
        rfl
      · exact ⟨(hc hs).2, fun _ => (hc hs).1⟩
    · cases hstep
  | finish line =>
    simp only [Host.step] at hstep
    split at hstep
    · rename_i n rest htodo
      split_ifs at hstep
      cases hstep
      refine h.print (by rw [htodo]; exact List.sublist_cons_self n rest) ?_ (fun hs _ => ?_)
        (.inr (by rw [htodo]; rfl))
      · intro k hk
        cases hk
        rw [htodo]
        rfl
      · refine ⟨fun _ => hc hs, fun heq => ?_⟩
        rw [htodo] at heq
        exact absurd (congrArg List.length heq) (by simp)
    · cases hstep
  | other line =>
    cases hstep
    exact h.print (List.Sublist.refl _) (fun n hn => by cases hn) (fun _ hn => absurd rfl hn)
      (.inl rfl)

/-- **Own answers.** In every run in which a call starts with no answer of an earlier one
outstanding, and no line looks like something that it is not, every call that returns gives the
lines that were printed for it, and every error is the one that was printed for it. -/
theorem calls_answered (rxHex : Bool) {s : State}
    (h : (machine rxHex).ReachIf (InTurn rxHex) s) : ∀ e ∈ s.events, Faithful s e := by
  have h0 : ∀ s, (machine rxHex).init s → Inv rxHex s := by
    rintro s rfl
    exact inv_init rxHex
  have hinv : Inv rxHex s := h.invariant (Inv rxHex) h0 fun s a s' hi hc hstep => hi.step hc hstep
  exact hinv.events

/-! ## A late answer -/

/-- A call from `_drain` to the written command. -/
def ask (command : Text) : List Action := [.call command, .drainEnd, .setPending, .write]

/-- The module prints a line, and it gets into the queue. -/
def deliver (a : Action) : List Action := [a, .read, .put]

/-- The first call times out and its answer comes before the second one starts. -/
def patientRun : List Action :=
  ask (ascii "AT") ++ [.timeout, .leave, .finish (ascii "OK"), .read] ++ ask (ascii "ATS00?") ++
    deliver (.answer (ascii "FFFF")) ++ deliver (.finish (ascii "OK")) ++ [.get, .get]

theorem calls_answered_patient :
    ∃ s, (machine true).exec init patientRun = some s ∧
      s.events = [.timedOut 0, .returned 1 [ascii "FFFF"]] ∧ ∀ e ∈ s.events, Faithful s e := by
  refine ⟨_, rfl, rfl, ?_⟩
  apply calls_answered true
  have hrun : (machine true).execIf (InTurn true) init patientRun = some _ := rfl
  exact .execIf (.init rfl) hrun

/-- The answer of `AT` comes after `ATS00?` was written. -/
def lateRun : List Action :=
  ask (ascii "AT") ++ [.timeout, .leave] ++ ask (ascii "ATS00?") ++
    deliver (.finish (ascii "OK")) ++ [.get]

/-- The second call returns before the module has printed anything for it. -/
theorem lateRun_returned : ∃ s, (machine true).exec init lateRun = some s ∧
    .returned 1 [] ∈ s.events ∧ linesFor 1 s.printed = [] :=
  ⟨_, rfl, by decide, by decide⟩

/-- `S0B` holds `OK`: the value line ends the call, and the module is still at its answer. -/
def okValueRun : List Action :=
  ask (ascii "ATS0B?") ++ deliver (.answer (ascii "OK")) ++ [.get]

example : ((machine true).exec init okValueRun).map (fun s => (s.events, s.todo)) =
    some ([.returned 0 []], [0]) := rfl

theorem not_calls_answered :
    ¬∀ s, (machine true).Reach s → ∀ e ∈ s.events, Faithful s e := by
  intro h
  obtain ⟨s, hrun, hmem, hnone⟩ := lateRun_returned
  have hlate : linesFor 1 s.printed = [ascii "OK"] :=
    (h s (Machine.Reach.exec (.init rfl) hrun) _ hmem).2
  rw [hnone] at hlate
  cases hlate

end ZbAt.Host
