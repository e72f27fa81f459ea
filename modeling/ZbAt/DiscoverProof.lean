import ZbAt.Discover

/-!
# Address discovery: what a call returns

While a call runs, `disc_ieee` is its EUI64, and `disc_result` is unknown or comes from an answer
with that EUI64 (`Progress`). Answers and failed requests of earlier calls can only wake it early.

* `inv` — `Progress` holds at every place of every call.
* `step_cases` — what a step can do; `rank` and `waited` bound the rest of a call by its place.
* `discover_answers` — where the address that a call returns comes from, when a call may give up,
  and after how many waits it ends.
-/

namespace ZbAt.Discover

/-! ## The events of a call -/

/-- The log ends with the event `start` and, after it, the events `b`. -/
def Since (start : Ev) (log b : List Ev) : Prop := ∃ a, log = a ++ start :: b

/-- No call of `discover` begins among the events. -/
def NoCall (b : List Ev) : Prop := ∀ c, .began c ∉ b

/-- A successful answer with the call's EUI64 and the address `nwk` was handled. -/
def Answered (c : Call) (b : List Ev) (nwk : UInt16) : Prop :=
  ∃ r, .handled r ∈ b ∧ r.status = zdpStatusSuccess ∧ r.ieeeAddr = c.ieee ∧ r.nwkAddr = nwk

section

variable {c : Call} {start e : Ev} {log b d : List Ev} {nwk : UInt16}

theorem Since.append (h : Since start log b) (evs : List Ev) :
    Since start (log ++ evs) (b ++ evs) := by
  obtain ⟨a, rfl⟩ := h
  exact ⟨a, by simp⟩

theorem Since.trans {start' : Ev} (h : Since start log b) (h' : Since start' b d) :
    Since start' log d := by
  obtain ⟨a, rfl⟩ := h
  obtain ⟨a', rfl⟩ := h'
  exact ⟨a ++ start :: a', by simp⟩

theorem since_self (start : Ev) (log : List Ev) : Since start (log ++ [start]) [] := ⟨log, rfl⟩

theorem NoCall.since (h : NoCall b) (hd : Since start b d) : NoCall d := by
  obtain ⟨a, rfl⟩ := hd
  intro c hm
  exact h c (List.mem_append_right _ (List.mem_cons_of_mem _ hm))

theorem NoCall.concat (h : NoCall b) (he : ∀ c, e ≠ .began c) : NoCall (b ++ [e]) := by
  intro c hm
  rcases List.mem_append.mp hm with hm | hm
  · exact h c hm
  · exact he c (List.mem_singleton.mp hm).symm

theorem Answered.append (h : Answered c b nwk) (evs : List Ev) : Answered c (b ++ evs) nwk := by
  obtain ⟨r, hr, hrest⟩ := h
  exact ⟨r, List.mem_append_left _ hr, hrest⟩

/-- An answer is an older one, or it has just been handled. -/
theorem Answered.concat (h : Answered c (b ++ [e]) nwk) :
    Answered c b nwk ∨ ∃ r, e = .handled r ∧ r.status = zdpStatusSuccess ∧ r.ieeeAddr = c.ieee := by
  obtain ⟨r, hr, hstatus, hieee, hnwk⟩ := h
  rcases List.mem_append.mp hr with hr | hr
  · exact .inl ⟨r, hr, hstatus, hieee, hnwk⟩
  · exact .inr ⟨r, (List.mem_singleton.mp hr).symm, hstatus, hieee⟩

end

/-! ## What the result says -/

/-- The result is unknown, or it is the address of an answer to the call. -/
def Found (c : Call) (b : List Ev) (result : UInt16) : Prop :=
  result = unknownShortAddr ∨ Answered c b result

/-- Once the call is initialised, the result is unknown only if no answer came since, or one with
the unknown address. -/
def Complete (c : Call) (b : List Ev) (result : UInt16) : Prop :=
  ∃ d, Since (.initialised c) b d ∧
    (result = unknownShortAddr → ∀ nwk, Answered c d nwk → Answered c d unknownShortAddr)

/-- What `disc_ieee` and `disc_result` are at a place of the call `c`, after its events `b`. -/
def Progress (c : Call) (b : List Ev) (ieee : IeeeAddr) (result : UInt16) : Pc → Prop
  | .copy todo => ∀ i ∉ todo, ieee i = c.ieee i
  | .clear => ieee = c.ieee
  | .semReset => ieee = c.ieee ∧ Found c b result
  | .getBuf _ | .semTake _ | .blocked _ | .taken _ | .compare =>
    ieee = c.ieee ∧ Found c b result ∧ Complete c b result
  | .out => ieee = c.ieee ∧ Answered c b result

section

variable {c : Call} {b : List Ev} {ieee : IeeeAddr} {result : UInt16} {p : Pc} {e : Ev}

theorem Found.append (h : Found c b result) (evs : List Ev) : Found c (b ++ evs) result :=
  h.imp_right fun h => h.append evs

theorem Complete.concat (h : Complete c b result)
    (he : ∀ r, e = .handled r → ¬(r.status = zdpStatusSuccess ∧ r.ieeeAddr = c.ieee)) :
    Complete c (b ++ [e]) result := by
  obtain ⟨d, hd, hres⟩ := h
  refine ⟨d ++ [e], hd.append [e], ?_⟩
  intro hunknown nwk hans
  rcases hans.concat with hold | ⟨r, hr, hnew⟩
  · exact (hres hunknown nwk hold).append [e]
  · exact absurd hnew (he r hr)

/-- An event that is no answer to the EUI64 changes nothing. -/
theorem Progress.concat (h : Progress c b ieee result p)
    (he : ∀ r, e = .handled r → ¬(r.status = zdpStatusSuccess ∧ r.ieeeAddr = ieee)) :
    Progress c (b ++ [e]) ieee result p := by
  cases p with
  | copy | clear => exact h
  | semReset => exact ⟨h.1, h.2.append [e]⟩
  | getBuf | semTake | blocked | taken | compare =>
    obtain ⟨rfl, hfound, hcomplete⟩ := h
    exact ⟨rfl, hfound.append [e], hcomplete.concat he⟩
  | out => exact ⟨h.1, h.2.append [e]⟩

/-- An answer to the EUI64 becomes the result. -/
theorem Progress.answer (h : Progress c b ieee result p) {r : NwkAddrResp}
    (hstatus : r.status = zdpStatusSuccess) (hieee : r.ieeeAddr = ieee) :
    Progress c (b ++ [.handled r]) ieee r.nwkAddr p := by
  have hnew : ∀ d, ieee = c.ieee → Answered c (d ++ [.handled r]) r.nwkAddr := fun d hc =>
    ⟨r, by simp, hstatus, hieee.trans hc, rfl⟩
  cases p with
  | copy | clear => exact h
  | semReset => exact ⟨h.1, .inr (hnew b h.1)⟩
  | getBuf | semTake | blocked | taken | compare =>
    obtain ⟨hc, -, d, hd, -⟩ := h
    refine ⟨hc, .inr (hnew b hc), d ++ [.handled r], hd.append _, ?_⟩
    intro hunknown nwk _
    exact hunknown ▸ hnew d hc
  | out => exact ⟨h.1, hnew b h.1⟩

end

/-- The call `c` is at the place `p`. -/
def Running (s : State) (c : Call) (p : Pc) : Prop :=
  ∃ b, Since (.began c) s.log b ∧ NoCall b ∧ Progress c b s.discIeee s.discResult p

def Inv (s : State) : Prop := ∀ c p, s.at_ = .run c p → Running s c p

section

variable {s s' : State} {c : Call} {p : Pc} {e : Ev}

/-! ## The callbacks -/

theorem semGive_frame (s : State) : (semGive s).discIeee = s.discIeee ∧
    (semGive s).discResult = s.discResult ∧ (semGive s).log = s.log ∧
    (semGive s).calls = s.calls := by
  unfold semGive
  split <;> exact ⟨rfl, rfl, rfl, rfl⟩

/-- A give moves the AT thread only out of its wait. -/
theorem semGive_moves (s : State) : (semGive s).at_ = s.at_ ∨
    ∃ c attempt, s.at_ = .run c (.blocked attempt) ∧
      (semGive s).at_ = .run c (.taken attempt) := by
  unfold semGive
  split
  · next c attempt hat => exact .inr ⟨c, attempt, hat, rfl⟩
  · exact .inl rfl

theorem semGive_at (h : (semGive s).at_ = .run c p) : s.at_ = .run c p ∨
    ∃ attempt, s.at_ = .run c (.blocked attempt) ∧ p = .taken attempt := by
  rcases semGive_moves s with hsame | ⟨c', attempt, hat, htaken⟩
  · exact .inl (hsame.symm.trans h)
  · rw [htaken] at h
    cases h
    exact .inr ⟨attempt, hat, rfl⟩

/-- Only a blocked thread runs into its timeout. -/
theorem step_timeout (hs : step s .timeout = some s') :
    ∃ c attempt, s.at_ = .run c (.blocked attempt) ∧
      s' = { s with at_ := .run c (nextAttempt attempt) } := by
  rw [step] at hs
  split at hs
  · next c attempt hat => exact ⟨c, attempt, hat, (Option.some.inj hs).symm⟩
  · cases hs

theorem Running.give (h : ∀ p, s.at_ = .run c p → Running s c p)
    (hat : (semGive s).at_ = .run c p) : Running (semGive s) c p := by
  obtain ⟨hieee, hresult, hlog, -⟩ := semGive_frame s
  rw [Running, hieee, hresult, hlog]
  rcases semGive_at hat with hsame | ⟨attempt, hblocked, rfl⟩
  · exact h p hsame
  · have hwait := h _ hblocked
    exact hwait

/-- An event that is no answer keeps the call where it is. -/
theorem Running.event (h : Running s c p) (hb : ∀ c, e ≠ .began c)
    (he : ∀ r, e = .handled r → ¬(r.status = zdpStatusSuccess ∧ r.ieeeAddr = s.discIeee))
    (hlog : s'.log = s.log ++ [e]) (hieee : s'.discIeee = s.discIeee)
    (hresult : s'.discResult = s.discResult) : Running s' c p := by
  obtain ⟨b, hsince, hno, hprog⟩ := h
  rw [Running, hlog, hieee, hresult]
  exact ⟨b ++ [e], hsince.append [e], hno.concat hb, hprog.concat he⟩

theorem inv_discResp (h : Inv s) (r : NwkAddrResp) : Inv (discResp r s) := by
  intro c p hat
  unfold discResp at hat ⊢
  dsimp only at hat ⊢
  by_cases hmatch : r.status = zdpStatusSuccess ∧ r.ieeeAddr = s.discIeee
  · rw [if_pos hmatch] at hat ⊢
    refine Running.give ?_ hat
    intro p hat
    obtain ⟨b, hsince, hno, hprog⟩ := h c p hat
    exact ⟨b ++ [.handled r], hsince.append _, hno.concat (by simp),
      hprog.answer hmatch.1 hmatch.2⟩
  · rw [if_neg hmatch] at hat ⊢
    refine (h c p hat).event (e := .handled r) (by simp) ?_ rfl rfl rfl
    intro r' hr'
    cases hr'
    exact hmatch

theorem inv_discSend (h : Inv s) (sendOk : Bool) : Inv (discSend sendOk s) := by
  have hevent : ∀ c p, s.at_ = .run c p → Running { s with
      sched := s.sched - 1
      log := s.log ++ [.requested ⟨broadcastRxOnWhenIdle, s.discIeee, 0, 0⟩ sendOk] } c p :=
    fun c p hat => (h c p hat).event (by simp) (by simp) rfl rfl rfl
  intro c p hat
  unfold discSend at hat ⊢
  dsimp only at hat ⊢
  cases sendOk with
  | true => exact hevent c p hat
  | false => exact Running.give (hevent c) hat

/-! ## The AT thread -/

/-- A move of the AT thread to another place, without an event. -/
theorem Running.move (h : Running s c p) {p' : Pc} (hlog : s'.log = s.log)
    (hmove : ∀ b, Progress c b s.discIeee s.discResult p →
      Progress c b s'.discIeee s'.discResult p') : Running s' c p' := by
  obtain ⟨b, hsince, hno, hprog⟩ := h
  exact ⟨b, hlog ▸ hsince, hno, hmove b hprog⟩

theorem Progress.next {b : List Ev} {ieee : IeeeAddr} {result : UInt16}
    (h : ieee = c.ieee ∧ Found c b result ∧ Complete c b result) (attempt : Attempt) :
    Progress c b ieee result (nextAttempt attempt) := by
  unfold nextAttempt
  split_ifs <;> exact h

theorem inv_stepAt (h : Running s c p) {bufOk : Bool} (hs : stepAt bufOk c s p = some s') :
    Inv s' := by
  have hrun : ∀ p', s'.at_ = .run c p' → Running s' c p' → Inv s' := by
    intro p' hat hrun c₁ p₁ hat₁
    rw [hat] at hat₁
    cases hat₁
    exact hrun
  have hidle : s'.at_ = .idle → Inv s' := by
    intro hat c₁ p₁ hat₁
    rw [hat] at hat₁
    cases hat₁
  cases p with
  | copy todo =>
    cases todo with
    | nil =>
      cases hs
      refine hrun _ rfl (h.move rfl ?_)
      intro b hprog
      funext i
      exact hprog i (by simp)
    | cons i todo =>
      cases hs
      refine hrun _ rfl (h.move rfl ?_)
      intro b hprog j hj
      show Function.update s.discIeee i (c.ieee i) j = c.ieee j
      by_cases hji : j = i
      · subst hji
        simp
      · rw [Function.update_of_ne hji]
        exact hprog j (by simp [hji, hj])
  | clear =>
    cases hs
    refine hrun _ rfl (h.move rfl ?_)
    intro b hprog
    exact ⟨hprog, .inl rfl⟩
  | semReset =>
    cases hs
    obtain ⟨b, hsince, hno, hieee, hfound⟩ := h
    refine hrun _ rfl ⟨b ++ [.initialised c], hsince.append _, hno.concat (by simp), hieee,
      hfound.append _, [], since_self _ b, ?_⟩
    intro _ nwk hans
    obtain ⟨r, hr, -⟩ := hans
    cases hr
  | getBuf attempt =>
    rw [stepAt] at hs
    split_ifs at hs
    · cases hs
      exact hrun _ rfl (h.move rfl fun b hprog => hprog)
    · cases hs
      exact hidle rfl
  | semTake attempt =>
    rw [stepAt] at hs
    dsimp only at hs
    split_ifs at hs
    · cases hs
      have hw : Running { s with log := s.log ++ [.waits c] } c _ :=
        h.event (e := .waits c) (by simp) (by simp) rfl rfl rfl
      exact hrun _ rfl (hw.move rfl fun b hprog => hprog)
    · cases hs
      have hw : Running { s with log := s.log ++ [.waits c] } c _ :=
        h.event (e := .waits c) (by simp) (by simp) rfl rfl rfl
      exact hrun _ rfl (hw.move rfl fun b hprog => hprog)
  | blocked => cases hs
  | taken attempt =>
    rw [stepAt] at hs
    split_ifs at hs
    · cases hs
      exact hrun _ rfl (h.move rfl fun b hprog => hprog)
    · cases hs
      exact hrun _ rfl (h.move rfl fun b hprog => Progress.next hprog attempt)
  | compare =>
    rw [stepAt] at hs
    split_ifs at hs with hunknown
    · cases hs
      exact hidle rfl
    · cases hs
      refine hrun _ rfl (h.move rfl ?_)
      intro b hprog
      exact ⟨hprog.1, hprog.2.1.resolve_left hunknown⟩
  | out =>
    cases hs
    exact hidle rfl

theorem inv_step {a : Action} (h : Inv s) (hs : step s a = some s') : Inv s' := by
  cases a with
  | discover ieee =>
    rw [step] at hs
    split_ifs at hs with hidle
    cases hs
    intro c p hat
    cases hat
    refine ⟨[], since_self _ s.log, ?_, ?_⟩
    · intro c hm
      cases hm
    · intro i hi
      exact absurd (List.mem_finRange i) hi
  | at_ bufOk =>
    cases hat : s.at_ with
    | idle =>
      simp only [step, hat] at hs
      cases hs
    | run c p =>
      simp only [step, hat] at hs
      exact inv_stepAt (h c p hat) hs
  | timeout =>
    obtain ⟨c, attempt, hat, rfl⟩ := step_timeout hs
    intro c₁ p₁ hat₁
    cases hat₁
    exact (h c _ hat).move rfl fun b hprog => Progress.next hprog attempt
  | discSend sendOk =>
    rw [step] at hs
    split_ifs at hs
    cases hs
    exact inv_discSend h sendOk
  | discResp r =>
    cases hs
    exact inv_discResp h r

theorem inv (h : machine.Reach s) : Inv s := by
  refine h.invariant Inv ?_ fun _ _ _ h _ hs => inv_step h hs
  intro s h0 c p hat
  cases h0
  cases hat

end

/-! ## What a step can do -/

/-- The waits that the call has begun, at most. -/
def Pc.waited : Pc → ℕ
  | .copy _ | .clear | .semReset => 0
  | .getBuf attempt | .semTake attempt => attempt
  | .blocked attempt | .taken attempt => attempt + 1
  | .compare | .out => discoveryAttempts

/-- The moves of the AT thread until the call returns, at most. -/
def Pc.rank : Pc → ℕ
  | .copy todo => todo.length + 17
  | .clear => 16
  | .semReset => 15
  | .getBuf attempt => 6 + 4 * (discoveryAttempts - 1 - attempt)
  | .semTake attempt => 5 + 4 * (discoveryAttempts - 1 - attempt)
  | .blocked attempt => 4 + 4 * (discoveryAttempts - 1 - attempt)
  | .taken attempt => 3 + 4 * (discoveryAttempts - 1 - attempt)
  | .compare => 2
  | .out => 1

/-- The AT thread moves, or its wait ends. -/
def Action.isMove : Action → Bool
  | .at_ _ | .timeout => true
  | .discover _ | .discSend _ | .discResp _ => false

/-- The results that a call can have at a place. -/
inductive Gives (s : State) : Pc → Except ℕ UInt16 → Prop
  | noBuffers {attempt : Attempt} : Gives s (.getBuf attempt) (.error atErrNoBuffers)
  | unreachable (h : s.discResult = unknownShortAddr) :
      Gives s .compare (.error atErrUnreachable)
  | ok : Gives s .out (.ok s.discResult)

/-- The AT thread has moved on from the place `p` of the call `c`. -/
inductive Moved (c : Call) (p : Pc) (s s' : State) : Prop
  | quiet {p' : Pc} {evs : List Ev} (at_ : s'.at_ = .run c p') (calls : s'.calls = s.calls)
      (log : s'.log = s.log ++ evs) (quiet : ∀ e ∈ evs, e = .initialised c)
      (rank : p'.rank < p.rank) (waited : p.waited ≤ p'.waited)
  | waits {p' : Pc} (at_ : s'.at_ = .run c p') (calls : s'.calls = s.calls)
      (log : s'.log = s.log ++ [.waits c]) (rank : p'.rank < p.rank)
      (waited : p.waited < p'.waited)
  | returned {result : Except ℕ UInt16} (at_ : s'.at_ = .idle) (calls : s'.calls = s.calls)
      (log : s'.log = s.log ++ [.returned c result]) (gives : Gives s p result)

/-- A callback of the stack. -/
structure Callback (s s' : State) : Prop where
  calls : s'.calls = s.calls
  log : ∃ e, s'.log = s.log ++ [e] ∧ ((∃ req ok, e = .requested req ok) ∨ ∃ r, e = .handled r)
  at_ : s'.at_ = s.at_ ∨
    ∃ c attempt, s.at_ = .run c (.blocked attempt) ∧ s'.at_ = .run c (.taken attempt)

/-- A call of `discover` begins. -/
structure Begins (s s' : State) (c : Call) : Prop where
  idle : s.at_ = .idle
  number : c.number = s.calls
  at_ : s'.at_ = .run c (.copy (List.finRange 8))
  calls : s'.calls = s.calls + 1
  log : s'.log = s.log ++ [.began c]

section

variable {s s' : State} {c : Call} {p : Pc}

theorem rank_nextAttempt (attempt : Attempt) :
    (nextAttempt attempt).rank < (Pc.taken attempt).rank := by
  have hlt := attempt.isLt
  unfold nextAttempt
  split_ifs with h
  · simp only [Pc.rank]
    omega
  · simp only [Pc.rank]
    omega

theorem waited_nextAttempt (attempt : Attempt) :
    (Pc.taken attempt).waited ≤ (nextAttempt attempt).waited := by
  have hlt := attempt.isLt
  unfold nextAttempt
  split_ifs with h
  · simp only [Pc.waited]
    omega
  · simp only [Pc.waited]
    omega

theorem stepAt_moved {bufOk : Bool} (hs : stepAt bufOk c s p = some s') : Moved c p s s' := by
  have hlog : s.log = s.log ++ [] := by simp
  cases p with
  | copy todo =>
    cases todo with
    | nil =>
      cases hs
      exact .quiet rfl rfl hlog (by simp) (by decide) (by decide)
    | cons i todo =>
      cases hs
      exact .quiet rfl rfl hlog (by simp) (by simp [Pc.rank]) (Nat.le_refl _)
  | clear =>
    cases hs
    exact .quiet rfl rfl hlog (by simp) (by decide) (by decide)
  | semReset =>
    cases hs
    exact .quiet rfl rfl rfl (by simp) (by decide) (by decide)
  | getBuf attempt =>
    rw [stepAt] at hs
    split_ifs at hs
    · cases hs
      exact .quiet rfl rfl hlog (by simp) (by simp [Pc.rank]) (Nat.le_refl _)
    · cases hs
      exact .returned rfl rfl rfl .noBuffers
  | semTake attempt =>
    rw [stepAt] at hs
    dsimp only at hs
    split_ifs at hs
    · cases hs
      exact .waits rfl rfl rfl (by simp [Pc.rank]) (by simp [Pc.waited])
    · cases hs
      exact .waits rfl rfl rfl (by simp [Pc.rank]) (by simp [Pc.waited])
  | blocked => cases hs
  | taken attempt =>
    rw [stepAt] at hs
    split_ifs at hs
    · cases hs
      have hlt := attempt.isLt
      exact .quiet rfl rfl hlog (by simp) (by simp only [Pc.rank]; omega)
        (by simp only [Pc.waited]; omega)
    · cases hs
      exact .quiet rfl rfl hlog (by simp) (rank_nextAttempt attempt) (waited_nextAttempt attempt)
  | compare =>
    rw [stepAt] at hs
    split_ifs at hs with hunknown
    · cases hs
      exact .returned rfl rfl rfl (.unreachable hunknown)
    · cases hs
      exact .quiet rfl rfl hlog (by simp) (by decide) (by decide)
  | out =>
    cases hs
    exact .returned rfl rfl rfl .ok

/-- **What a step can do.** A call begins, the AT thread moves on, or the stack makes a callback. -/
theorem step_cases {a : Action} (hs : step s a = some s') :
    (a.isMove = false ∧ ∃ c, Begins s s' c) ∨
    (a.isMove = true ∧ ∃ c p, s.at_ = .run c p ∧ Moved c p s s') ∨
    (a.isMove = false ∧ Callback s s') := by
  cases a with
  | discover ieee =>
    rw [step] at hs
    split_ifs at hs with hidle
    cases hs
    exact .inl ⟨rfl, _, hidle, rfl, rfl, rfl, rfl⟩
  | at_ bufOk =>
    cases hat : s.at_ with
    | idle =>
      simp only [step, hat] at hs
      cases hs
    | run c p =>
      simp only [step, hat] at hs
      exact .inr (.inl ⟨rfl, c, p, rfl, stepAt_moved hs⟩)
  | timeout =>
    obtain ⟨c, attempt, hat, rfl⟩ := step_timeout hs
    have hrank := rank_nextAttempt attempt
    have hmore : (Pc.taken attempt).rank < (Pc.blocked attempt).rank := by simp [Pc.rank]
    have hlog : s.log = s.log ++ [] := by simp
    exact .inr (.inl ⟨rfl, c, _, hat, .quiet rfl rfl hlog (by simp) (hrank.trans hmore)
      (waited_nextAttempt attempt)⟩)
  | discSend sendOk =>
    rw [step] at hs
    split_ifs at hs
    cases hs
    refine .inr (.inr ⟨rfl, ?_⟩)
    unfold discSend
    cases sendOk with
    | true => exact ⟨rfl, ⟨_, rfl, .inl ⟨_, _, rfl⟩⟩, .inl rfl⟩
    | false =>
      obtain ⟨-, -, hlog, hcalls⟩ := semGive_frame { s with
        sched := s.sched - 1
        log := s.log ++ [.requested ⟨broadcastRxOnWhenIdle, s.discIeee, 0, 0⟩ false] }
      exact ⟨hcalls, ⟨_, hlog, .inl ⟨_, _, rfl⟩⟩, semGive_moves _⟩
  | discResp r =>
    cases hs
    refine .inr (.inr ⟨rfl, ?_⟩)
    unfold discResp
    dsimp only
    split_ifs
    · obtain ⟨-, -, hlog, hcalls⟩ := semGive_frame { s with
        discResult := r.nwkAddr
        log := s.log ++ [.handled r] }
      exact ⟨hcalls, ⟨_, hlog, .inr ⟨_, rfl⟩⟩, semGive_moves _⟩
    · exact ⟨rfl, ⟨_, rfl, .inr ⟨_, rfl⟩⟩, .inl rfl⟩

/-! ## Results -/

/-- What came before a result. -/
def Justified (pre : List Ev) : Ev → Prop
  | .returned c (.ok nwk) => ∃ b, Since (.began c) pre b ∧ NoCall b ∧ Answered c b nwk
  | .returned c (.error code) => code = atErrUnreachable →
    ∃ d, Since (.initialised c) pre d ∧ NoCall d ∧
      ∀ nwk, Answered c d nwk → Answered c d unknownShortAddr
  | _ => True

theorem Running.justified (h : Running s c p) {result : Except ℕ UInt16}
    (hg : Gives s p result) : Justified s.log (.returned c result) := by
  obtain ⟨b, hsince, hno, hprog⟩ := h
  cases hg with
  | noBuffers =>
    intro hcode
    exact absurd hcode (by decide)
  | unreachable hunknown =>
    intro _
    obtain ⟨-, -, d, hd, hres⟩ := hprog
    exact ⟨d, hsince.trans hd, hno.since hd, hres hunknown⟩
  | ok => exact ⟨b, hsince, hno, hprog.2⟩

theorem justified_step {a : Action} (hinv : Inv s) (h : Follows Justified s.log)
    (hs : step s a = some s') : Follows Justified s'.log := by
  rcases step_cases hs with ⟨-, c, hb⟩ | ⟨-, c, p, hat, hm⟩ | ⟨-, hc⟩
  · rw [hb.log]
    exact h.concat trivial
  · cases hm with
    | quiet _ _ hlog hquiet =>
      rw [hlog]
      refine h.append fun e he pre => ?_
      rw [hquiet e he]
      exact trivial
    | waits _ _ hlog =>
      rw [hlog]
      exact h.concat trivial
    | returned _ _ hlog hgives =>
      rw [hlog]
      exact h.concat ((hinv c p hat).justified hgives)
  · obtain ⟨e, hlog, ⟨req, ok, rfl⟩ | ⟨r, rfl⟩⟩ := hc.log
    · rw [hlog]
      exact h.concat trivial
    · rw [hlog]
      exact h.concat trivial

theorem justified (h : machine.Reach s) : Follows Justified s.log := by
  refine h.invariant_of Inv (fun s => Follows Justified s.log) (fun _ => inv) ?_
    fun _ _ _ hinv _ hf _ hs => justified_step hinv hf hs
  intro s h0
  cases h0
  exact follows_nil

/-! ## Waits -/

/-- The waits of every call are counted. -/
structure Waits (s : State) : Prop where
  bounded : ∀ c, s.log.count (.waits c) ≤ discoveryAttempts
  later : ∀ c : Call, s.calls ≤ c.number → s.log.count (.waits c) = 0
  running : ∀ c p, s.at_ = .run c p → c.number < s.calls ∧ s.log.count (.waits c) ≤ p.waited

theorem waited_le (p : Pc) : p.waited ≤ discoveryAttempts := by
  cases p with
  | getBuf attempt | semTake attempt => exact Nat.le_of_lt attempt.isLt
  | blocked attempt | taken attempt => exact attempt.isLt
  | copy | clear | semReset => exact Nat.zero_le _
  | compare | out => exact Nat.le_refl _

/-- Events that are no waits change no count. -/
theorem count_waits_append {log evs : List Ev} (h : ∀ e ∈ evs, ∀ c, e ≠ .waits c) (c : Call) :
    (log ++ evs).count (.waits c) = log.count (.waits c) := by
  have hzero : evs.count (.waits c) = 0 := List.count_eq_zero.mpr fun hm => h _ hm c rfl
  rw [List.count_append, hzero, Nat.add_zero]

/-- A step without a wait. -/
theorem Waits.keep (h : Waits s) (hcount : ∀ c, s'.log.count (.waits c) = s.log.count (.waits c))
    (hcalls : s.calls ≤ s'.calls) (hrunning : ∀ c p, s'.at_ = .run c p →
      c.number < s'.calls ∧ s'.log.count (.waits c) ≤ p.waited) : Waits s' where
  bounded c := hcount c ▸ h.bounded c
  later c hc := (hcount c).trans (h.later c (hcalls.trans hc))
  running := hrunning

theorem waits_step {a : Action} (h : Waits s) (hs : step s a = some s') : Waits s' := by
  rcases step_cases hs with ⟨-, c, hb⟩ | ⟨-, c, p, hat, hm⟩ | ⟨-, hc⟩
  · have hcount : ∀ c', s'.log.count (.waits c') = s.log.count (.waits c') := by
      intro c'
      rw [hb.log]
      exact count_waits_append (by simp) c'
    refine h.keep hcount (by rw [hb.calls]; omega) fun c' p' hat' => ?_
    rw [hb.at_] at hat'
    cases hat'
    rw [hcount, h.later c (by rw [hb.number]), hb.number, hb.calls]
    exact ⟨Nat.lt_succ_self _, Nat.zero_le _⟩
  · obtain ⟨hlt, hwaited⟩ := h.running c p hat
    cases hm with
    | quiet hat' hcalls hlog hquiet _ hmore =>
      have hcount : ∀ c', s'.log.count (.waits c') = s.log.count (.waits c') := by
        intro c'
        rw [hlog]
        refine count_waits_append (fun e he c'' => ?_) c'
        rw [hquiet e he]
        simp
      refine h.keep hcount (Nat.le_of_eq hcalls.symm) fun c' p' hrun => ?_
      rw [hat'] at hrun
      cases hrun
      rw [hcount, hcalls]
      exact ⟨hlt, hwaited.trans hmore⟩
    | @waits p' hat' hcalls hlog _ hmore =>
      have hcount : ∀ c', s'.log.count (.waits c') =
          s.log.count (.waits c') + if c = c' then 1 else 0 := by
        intro c'
        rw [hlog, List.count_append, List.count_singleton]
        simp
      have hle := waited_le p'
      refine ⟨fun c' => ?_, fun c' hc' => ?_, fun c' p'' hrun => ?_⟩
      · rw [hcount]
        by_cases hcc : c = c'
        · subst hcc
          rw [if_pos rfl]
          omega
        · rw [if_neg hcc]
          exact h.bounded c'
      · rw [hcalls] at hc'
        have hcc : c ≠ c' := by
          intro heq
          subst heq
          omega
        rw [hcount, if_neg hcc]
        exact h.later c' hc'
      · rw [hat'] at hrun
        cases hrun
        rw [hcount, if_pos rfl, hcalls]
        exact ⟨hlt, by omega⟩
    | returned hat' hcalls hlog _ =>
      refine h.keep (fun c' => ?_) (Nat.le_of_eq hcalls.symm) fun c' p' hrun => ?_
      · rw [hlog]
        exact count_waits_append (by simp) c'
      · rw [hat'] at hrun
        cases hrun
  · obtain ⟨e, hlog, he⟩ := hc.log
    have hcount : ∀ c', s'.log.count (.waits c') = s.log.count (.waits c') := by
      intro c'
      rw [hlog]
      refine count_waits_append (fun e' he' c'' => ?_) c'
      obtain rfl := List.mem_singleton.mp he'
      rcases he with ⟨req, ok, rfl⟩ | ⟨r, rfl⟩ <;> simp
    refine h.keep hcount (Nat.le_of_eq hc.calls.symm) fun c' p' hrun => ?_
    rw [hcount, hc.calls]
    rcases hc.at_ with hsame | ⟨c, attempt, hblocked, htaken⟩
    · rw [hsame] at hrun
      exact h.running c' p' hrun
    · rw [htaken] at hrun
      cases hrun
      have hwait := h.running _ _ hblocked
      exact hwait

theorem waits (h : machine.Reach s) : Waits s := by
  refine h.invariant Waits ?_ fun _ _ _ h _ hs => waits_step h hs
  intro s h0
  cases h0
  exact ⟨fun _ => Nat.zero_le _, fun _ _ => rfl, fun c p hat => by cases hat⟩

/-! ## Every call ends -/

/-- A call that runs can go on. -/
theorem exists_move (hat : s.at_ = .run c p) :
    ∃ (a : Action) (t : State), a.isMove = true ∧ step s a = some t := by
  have hgo : ∀ t, stepAt true c s p = some t →
      ∃ (a : Action) (t : State), a.isMove = true ∧ step s a = some t := fun t ht =>
    ⟨.at_ true, t, rfl, by simp only [step, hat, ht]⟩
  cases p with
  | copy todo => cases todo <;> exact hgo _ rfl
  | clear | semReset | getBuf | out => exact hgo _ rfl
  | blocked attempt =>
    exact ⟨.timeout, { s with at_ := .run c (nextAttempt attempt) }, rfl,
      by simp only [step, hat]⟩
  | semTake attempt =>
    by_cases hdone : s.discDone
    · exact hgo _ (by rw [stepAt]; dsimp only; rw [if_pos hdone])
    · exact hgo _ (by rw [stepAt]; dsimp only; rw [if_neg hdone])
  | taken attempt =>
    by_cases hunknown : s.discResult ≠ unknownShortAddr
    · exact hgo _ (by rw [stepAt, if_pos hunknown])
    · exact hgo _ (by rw [stepAt, if_neg hunknown])
  | compare =>
    by_cases hunknown : s.discResult = unknownShortAddr
    · exact hgo _ (by rw [stepAt, if_pos hunknown])
    · exact hgo _ (by rw [stepAt, if_neg hunknown])

theorem log_step {a : Action} (hs : step s a = some s') : s.log <+: s'.log := by
  rcases step_cases hs with ⟨-, c, hb⟩ | ⟨-, c, p, -, hm⟩ | ⟨-, hc⟩
  · exact hb.log ▸ List.prefix_append _ _
  · cases hm with
    | quiet _ _ hlog => exact hlog ▸ List.prefix_append _ _
    | waits _ _ hlog => exact hlog ▸ List.prefix_append _ _
    | returned _ _ hlog => exact hlog ▸ List.prefix_append _ _
  · obtain ⟨e, hlog, -⟩ := hc.log
    exact hlog ▸ List.prefix_append _ _

theorem log_exec {as : List Action} (he : machine.exec s as = some s') : s.log <+: s'.log := by
  induction as generalizing s with
  | nil =>
    cases he
    exact List.prefix_rfl
  | cons a as ih =>
    obtain ⟨t, ht, he⟩ := Option.bind_eq_some_iff.mp he
    exact (log_step ht).trans (ih he)

/-- **Every call ends.** After as many moves as its place allows, the call has returned. -/
theorem returns {as : List Action} (hat : s.at_ = .run c p) (he : machine.exec s as = some s')
    (hmoves : p.rank ≤ as.countP Action.isMove) : ∃ result, .returned c result ∈ s'.log := by
  induction as generalizing s p with
  | nil =>
    have hpos : 0 < p.rank := by cases p <;> simp [Pc.rank]
    simp only [List.countP_nil] at hmoves
    omega
  | cons a as ih =>
    obtain ⟨t, ht, he⟩ := Option.bind_eq_some_iff.mp he
    rcases step_cases ht with ⟨-, c', hb⟩ | ⟨hmove, c', p', hat', hm⟩ | ⟨hmove, hc⟩
    · rw [hb.idle] at hat
      cases hat
    · rw [hat'] at hat
      cases hat
      rw [List.countP_cons_of_pos hmove] at hmoves
      cases hm with
      | quiet htat _ _ _ hrank => exact ih htat he (by omega)
      | waits htat _ _ hrank => exact ih htat he (by omega)
      | @returned result _ _ hlog _ =>
        refine ⟨result, (log_exec he).subset ?_⟩
        rw [hlog]
        simp
    · rw [List.countP_cons_of_neg (by simp [hmove])] at hmoves
      rcases hc.at_ with hsame | ⟨c', attempt, hblocked, htaken⟩
      · exact ih (hsame.trans hat) he hmoves
      · rw [hblocked] at hat
        cases hat
        have hrank : (Pc.taken attempt).rank < (Pc.blocked attempt).rank := by simp [Pc.rank]
        exact ih htaken he (by omega)

/-! ## What a call returns -/

/-- **Discovery.** A call returns only an address that a successful answer with its EUI64 carried,
handled after the call began. It does not give up when such an answer was handled after its
initialisation, unless one of them carried the unknown address. It waits at most three times, and
it ends. -/
theorem discover_answers (h : machine.Reach s) :
    (∀ pre c nwk post, s.log = pre ++ .returned c (.ok nwk) :: post →
      ∃ b, Since (.began c) pre b ∧ NoCall b ∧ Answered c b nwk) ∧
    (∀ pre c post, s.log = pre ++ .returned c (.error atErrUnreachable) :: post →
      ∃ d, Since (.initialised c) pre d ∧ NoCall d ∧
        ∀ nwk, Answered c d nwk → Answered c d unknownShortAddr) ∧
    (∀ c, s.log.count (.waits c) ≤ discoveryAttempts) ∧
    ∀ c p, s.at_ = .run c p →
      (∃ (a : Action) (t : State), a.isMove = true ∧ step s a = some t) ∧
      ∀ as s', machine.exec s as = some s' → p.rank ≤ as.countP Action.isMove →
        ∃ result, .returned c result ∈ s'.log := by
  have hjust := justified h
  refine ⟨?_, ?_, (waits h).bounded, ?_⟩
  · intro pre c nwk post hlog
    exact hjust pre _ post hlog
  · intro pre c post hlog
    exact hjust pre _ post hlog rfl
  · intro c p hat
    exact ⟨exists_move hat, fun as s' he hmoves => returns hat he hmoves⟩

end

/-! ## A late answer -/

/-- The EUI64s of two nodes. -/
def nodeA : IeeeAddr := fun _ => 0xA1

def nodeB : IeeeAddr := fun _ => 0xB2

/-- Moves of the AT thread. -/
def moves (n : ℕ) : List Action := List.replicate n (.at_ true)

/-- The search for one node times out three times, and its answer comes in the middle of the
search for the other. -/
def lateRun : List Action :=
  List.flatten [[.discover nodeA], moves 13, [.timeout], moves 2, [.timeout], moves 2, [.timeout],
    moves 1, [.discover nodeB], moves 13, [.discSend true, .discResp ⟨0, nodeA, 0x0001⟩,
    .discResp ⟨0, nodeB, 0x1234⟩], moves 3]

theorem lateRun_exec : (machine.exec init lateRun).map (fun s => s.log.getLast?) =
    some (some (.returned ⟨1, nodeB⟩ (.ok 0x1234))) := by
  rfl

theorem discover_answers_late : ∃ (s : State) (pre : List Ev),
    s.log = pre ++ [.returned ⟨1, nodeB⟩ (.ok 0x1234)] ∧
      ∃ b, Since (.began ⟨1, nodeB⟩) pre b ∧ NoCall b ∧ Answered ⟨1, nodeB⟩ b 0x1234 := by
  obtain ⟨s, he, hlast⟩ := Option.map_eq_some_iff.mp lateRun_exec
  obtain ⟨pre, hlog⟩ := List.getLast?_eq_some_iff.mp hlast
  have h0 : machine.Reach init := .init rfl
  obtain ⟨hok, -⟩ := discover_answers (h0.exec he)
  exact ⟨s, pre, hlog, hok pre _ _ [] hlog⟩

end ZbAt.Discover
