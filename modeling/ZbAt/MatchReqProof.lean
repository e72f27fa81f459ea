import ZbAt.MatchReq

/-!
# Match descriptor requests: one request for every accepted command

`match_pending` holds one request. A command that is accepted while an earlier `match_send` is
still to run writes over it, and the earlier request is lost (`not_sent_once`). A request that
`zb_zdo_match_desc_req` refuses is lost too: `match_send` frees its buffer. In every run in which
no copy changes a field that a `match_send` has still to read (`NotOverwritten`) and ZBOSS has a
transaction number for every request (`HasTsn`), every accepted command makes one request, its own
(`sent_once`).

* `Rule` — what a step can do.
* `Ledger` — every accepted command is owed or was sent.
* `Content` — what is still to be read, and what was read, belongs to the right command.
* `InBounds` — `memcpy` stays inside `match_pending.clusters`, in every run.
-/

namespace ZbAt.Match

open Text Sreg

variable {s s' : State} {a : Action}

/-! ## The parser -/

theorem length_parseIds {n : ℕ} {p p' : Option Text} {ids : List UInt16}
    (h : parseIds n p = some (ids, p')) : ids.length = n := by
  induction n generalizing p ids with
  | zero => cases h; rfl
  | succ n ih =>
    simp only [parseIds, Option.bind_eq_bind, Option.bind_eq_some_iff] at h
    obtain ⟨v, -, ⟨ids', q⟩, hids, h⟩ := h
    cases h
    rw [List.length_cons, ih hids]

theorem length_parseClusterList {p p' : Option Text} {ids : List UInt16}
    (h : parseClusterList p = some (ids, p')) : ids.length ≤ maxClusters := by
  simp only [parseClusterList, Option.bind_eq_bind, Option.bind_eq_some_iff] at h
  obtain ⟨v, -, h⟩ := h
  split_ifs at h with hv
  rw [length_parseIds h]
  omega

/-- The lists of an accepted command fit `struct match_req`. -/
theorem parseMatchreq_length {args : Text} {q : MatchArgs} (h : parseMatchreq args = some q) :
    q.inClusters.length ≤ maxClusters ∧ q.outClusters.length ≤ maxClusters := by
  unfold parseMatchreq at h
  split at h
  · simp only [Option.bind_eq_bind, Option.bind_eq_some_iff] at h
    obtain ⟨v, -, ⟨ins, p⟩, hin, ⟨outs, p'⟩, hout, h⟩ := h
    split_ifs at h
    cases h
    exact ⟨length_parseClusterList hin, length_parseClusterList hout⟩
  · cases h

/-! ## Rules -/

/-- What a step can do. -/
inductive Rule (s : State) (a : Action) : State → Prop
  | reject {args : Text} {err : ℕ} (hat : s.at_ = .idle) (herr : err ≠ atOk) : Rule s a { s with
      calls := s.calls ++ [args]
      log := s.log ++ [.returned s.calls.length err] }
  | parsed {args : Text} {q : MatchArgs} (hat : s.at_ = .idle)
      (hq : parseMatchreq args = some q) : Rule s a { s with
      calls := s.calls ++ [args]
      at_ := .copy allFields s.calls.length q.req }
  | copy {f : Field} {todo : List Field} {k : ℕ} {req : MatchReq} {bufOk : Bool}
      (hat : s.at_ = .copy (f :: todo) k req) (ha : a = .at_ bufOk) : Rule s a { s with
      matchPending := s.matchPending.copyField req f
      at_ := .copy todo k req }
  | copied {k : ℕ} {req : MatchReq} (hat : s.at_ = .copy [] k req) :
      Rule s a { s with at_ := .getBuf k }
  | queue {k : ℕ} (hat : s.at_ = .getBuf k) : Rule s a { s with
      sched := s.sched ++ [k]
      at_ := .idle
      log := s.log ++ [.returned k atOk] }
  | noBuf {k : ℕ} (hat : s.at_ = .getBuf k) : Rule s a { s with
      at_ := .idle
      log := s.log ++ [.returned k atErrNoBuffers] }
  | matchSend {buf : BufId} {k : ℕ} {rest : List ℕ} (hst : s.stack = .idle)
      (hsched : s.sched = k :: rest) :
      Rule s a { s with sched := rest, stack := .sizeIn buf k }
  | sizeIn {buf : BufId} {k : ℕ} (hst : s.stack = .sizeIn buf k) :
      Rule s a { s with stack := .sizeOut buf k s.matchPending.nIn }
  | sizeOut {buf : BufId} {k : ℕ} {nIn : UInt8} (hst : s.stack = .sizeOut buf k nIn) :
      Rule s a { s with stack := .profile buf k (nIn.toNat + s.matchPending.nOut.toNat) }
  | profile {buf : BufId} {k n : ℕ} (hst : s.stack = .profile buf k n) :
      Rule s a { s with stack := .numIn buf k n s.matchPending.profile }
  | numIn {buf : BufId} {k n : ℕ} {profile : UInt16} (hst : s.stack = .numIn buf k n profile) :
      Rule s a { s with stack := .numOut buf k n profile s.matchPending.nIn }
  | numOut {buf : BufId} {k n : ℕ} {profile : UInt16} {nIn : UInt8}
      (hst : s.stack = .numOut buf k n profile nIn) : Rule s a { s with
      stack := .clusters buf k n ⟨broadcastRxOnWhenIdle, broadcastRxOnWhenIdle, profile, nIn,
        s.matchPending.nOut, []⟩ }
  | cluster {buf : BufId} {k n : ℕ} {req : MatchDesc} (hst : s.stack = .clusters buf k n req)
      (hn : req.clusterList.length < n) (h : req.clusterList.length < 2 * maxClusters) :
      Rule s a { s with
      stack := .clusters buf k n (req.addCluster (s.matchPending.clusters ⟨_, h⟩)) }
  | send {buf : BufId} {k n : ℕ} {req : MatchDesc} {ok : Bool} {stack : StackPc}
      (ha : a = .stack ok) (hst : s.stack = .clusters buf k n req)
      (hn : ¬ (req.clusterList.length < n ∧ req.clusterList.length < 2 * maxClusters))
      (hs : stack = .idle ∨ stack = .free buf) : Rule s a { s with
      stack := stack
      log := s.log ++ [.matchDescReq k req ok] }
  | free {buf : BufId} (hst : s.stack = .free buf) : Rule s a { s with
      stack := .idle
      log := s.log ++ [.freed buf] }

theorem step_rule (hs : step s a = some s') : Rule s a s' := by
  cases a with
  | matchreq args joined =>
    simp only [step] at hs
    split_ifs at hs with hat
    cases hs
    unfold cmdMatchreq
    cases hq : parseMatchreq args with
    | none => exact .reject hat (by decide)
    | some q =>
      cases joined with
      | true => exact .parsed hat hq
      | false => exact .reject hat (by decide)
  | at_ bufOk =>
    cases hat : s.at_ with
    | idle => simp [step, stepAt, hat] at hs
    | copy todo k req =>
      cases todo with
      | nil =>
        simp only [step, stepAt, hat] at hs
        cases hs
        exact .copied hat
      | cons f todo =>
        simp only [step, stepAt, hat] at hs
        cases hs
        exact .copy hat rfl
    | getBuf k =>
      simp only [step, stepAt, hat] at hs
      split_ifs at hs <;> cases hs
      · exact .queue hat
      · exact .noBuf hat
  | matchSend buf =>
    cases hsched : s.sched with
    | nil => simp [step, hsched] at hs
    | cons k rest =>
      simp only [step, hsched] at hs
      split_ifs at hs with hst
      cases hs
      exact .matchSend hst hsched
  | stack sendOk =>
    cases hst : s.stack with
    | idle => simp [step, stepStack, hst] at hs
    | sizeIn buf k =>
      simp only [step, stepStack, hst] at hs
      cases hs
      exact .sizeIn hst
    | sizeOut buf k nIn =>
      simp only [step, stepStack, hst] at hs
      cases hs
      exact .sizeOut hst
    | profile buf k n =>
      simp only [step, stepStack, hst] at hs
      cases hs
      exact .profile hst
    | numIn buf k n profile =>
      simp only [step, stepStack, hst] at hs
      cases hs
      exact .numIn hst
    | numOut buf k n profile nIn =>
      simp only [step, stepStack, hst] at hs
      cases hs
      exact .numOut hst
    | clusters buf k n req =>
      simp only [step, stepStack, hst] at hs
      split_ifs at hs with h <;> cases hs
      · exact .cluster hst h.1 h.2
      · exact .send rfl hst h (.inl rfl)
      · exact .send rfl hst h (.inr rfl)
    | free buf =>
      simp only [step, stepStack, hst] at hs
      cases hs
      exact .free hst

/-! ## The ledger -/

/-- The results of the command `k`. -/
def returnedOf (k : ℕ) (log : List Ev) : List ℕ :=
  log.filterMap fun
    | .returned j result => if j = k then some result else none
    | _ => none

/-- The command that the AT thread executes. -/
def AtPc.running : AtPc → List ℕ
  | .idle => []
  | .copy _ k _ | .getBuf k => [k]

/-- `match_send` has read the whole request and calls `zb_zdo_match_desc_req` next. -/
def StackPc.calls : StackPc → Bool
  | .clusters _ _ n req => !(req.clusterList.length < n && req.clusterList.length < 2 * maxClusters)
  | _ => false

/-- ZBOSS has a transaction number when `zb_zdo_match_desc_req` is called: the call does not
return `ZB_ZDO_INVALID_TSN`. -/
def HasTsn (s : State) : Action → Prop
  | .stack sendOk => s.stack.calls = true → sendOk = true
  | _ => True

instance (s : State) : ∀ a, Decidable (HasTsn s a)
  | .stack _ => by unfold HasTsn; infer_instance
  | .matchreq _ _ | .at_ _ | .matchSend _ => .isTrue trivial

/-- Every command returns once, and every accepted one is sent once or still owed. -/
structure Ledger (s : State) : Prop where
  running : ∀ k ∈ s.at_.running, k < s.calls.length
  once : ∀ k, (returnedOf k s.log).length + s.at_.running.count k =
    if k < s.calls.length then 1 else 0
  sent : ∀ k, (requestsOf k s.log).length + s.owed.count k = (returnedOf k s.log).count atOk

section

variable (k : ℕ) (log : List Ev)

@[simp] theorem returnedOf_returned (j result : ℕ) : returnedOf k (log ++ [.returned j result]) =
    returnedOf k log ++ if j = k then [result] else [] := by
  rw [returnedOf, List.filterMap_append]
  by_cases h : j = k <;> simp [returnedOf, h]

theorem length_returnedOf (j result : ℕ) : (returnedOf k (log ++ [.returned j result])).length =
    (returnedOf k log).length + [j].count k := by
  rw [returnedOf_returned, List.length_append, List.count_singleton]
  by_cases h : j = k <;> simp [h]

@[simp] theorem returnedOf_matchDescReq (j : ℕ) (req : MatchDesc) (ok : Bool) :
    returnedOf k (log ++ [.matchDescReq j req ok]) = returnedOf k log := by
  simp [returnedOf]

@[simp] theorem returnedOf_freed (buf : BufId) :
    returnedOf k (log ++ [.freed buf]) = returnedOf k log := by
  simp [returnedOf]

@[simp] theorem requestsOf_returned (j result : ℕ) :
    requestsOf k (log ++ [.returned j result]) = requestsOf k log := by
  simp [requestsOf]

@[simp] theorem requestsOf_matchDescReq (j : ℕ) (req : MatchDesc) :
    requestsOf k (log ++ [.matchDescReq j req true]) =
      requestsOf k log ++ if j = k then [req] else [] := by
  rw [requestsOf, List.filterMap_append]
  by_cases h : j = k <;> simp [requestsOf, h]

/-- A request that was refused is none that was sent. -/
@[simp] theorem requestsOf_refused (j : ℕ) (req : MatchDesc) :
    requestsOf k (log ++ [.matchDescReq j req false]) = requestsOf k log := by
  simp [requestsOf]

@[simp] theorem requestsOf_freed (buf : BufId) :
    requestsOf k (log ++ [.freed buf]) = requestsOf k log := by
  simp [requestsOf]

end

theorem mem_returnedOf {k result : ℕ} {log : List Ev} :
    result ∈ returnedOf k log ↔ .returned k result ∈ log := by
  simp only [returnedOf, List.mem_filterMap]
  constructor
  · rintro ⟨e, he, h⟩
    split at h
    · split_ifs at h with hj
      cases h
      exact hj ▸ he
    · cases h
  · exact fun h => ⟨_, h, if_pos rfl⟩

theorem ledger_init : Ledger init := by
  refine ⟨fun k hk => (nomatch hk), ?_, fun k => rfl⟩
  intro k
  simp [init, returnedOf, AtPc.running]

/-- A command that is answered moves from the AT thread to the log. -/
theorem Ledger.answer (h : Ledger s) {k result : ℕ} (hat : s.at_.running = [k]) (j : ℕ) :
    (returnedOf j (s.log ++ [.returned k result])).length + AtPc.idle.running.count j =
      if j < s.calls.length then 1 else 0 := by
  have honce := h.once j
  rw [hat] at honce
  rw [length_returnedOf, ← honce]
  rfl

theorem ledger_rule (h : Ledger s) (hc : HasTsn s a) (hr : Rule s a s') : Ledger s' := by
  cases hr with
  | @reject args err hat herr =>
    refine ⟨?_, ?_, ?_⟩
    · simp [hat, AtPc.running]
    · intro k
      have honce := h.once k
      rw [length_returnedOf, List.length_append, List.length_singleton, made_succ, ← honce]
      exact Nat.add_right_comm _ _ _
    · intro k
      have hsent := h.sent k
      have hne : ([err] : List ℕ).count atOk = 0 := by simp [herr]
      simp only [State.owed, requestsOf_returned, returnedOf_returned, List.count_append] at hsent ⊢
      split_ifs <;> simp [hne, hsent]
  | @parsed args q hat hq =>
    refine ⟨?_, ?_, h.sent⟩
    · simp [AtPc.running]
    · intro k
      have honce := h.once k
      rw [hat] at honce
      rw [List.length_append, List.length_singleton, made_succ, ← honce]
      rfl
  | copy hat =>
    have hrun := h.running
    have honce := h.once
    rw [hat] at hrun honce
    exact ⟨hrun, honce, h.sent⟩
  | copied hat =>
    have hrun := h.running
    have honce := h.once
    rw [hat] at hrun honce
    exact ⟨hrun, honce, h.sent⟩
  | @queue k hat =>
    refine ⟨fun j hj => (nomatch hj), h.answer (by rw [hat]; rfl), ?_⟩
    intro j
    have hsent := h.sent j
    simp only [State.owed, requestsOf_returned, returnedOf_returned, List.count_append,
      List.count_singleton] at hsent ⊢
    by_cases hj : k = j <;> simp [hj] at hsent ⊢ <;> omega
  | @noBuf k hat =>
    refine ⟨fun j hj => (nomatch hj), h.answer (by rw [hat]; rfl), ?_⟩
    intro j
    have hsent := h.sent j
    simp only [State.owed, requestsOf_returned, returnedOf_returned, List.count_append] at hsent ⊢
    split_ifs <;> simp [hsent, atErrNoBuffers, atOk]
  | @matchSend buf k rest hst hsched =>
    refine ⟨h.running, h.once, ?_⟩
    intro j
    have hsent := h.sent j
    rw [State.owed, hst, hsched] at hsent
    exact hsent
  | sizeIn hst | sizeOut hst | profile hst | numIn hst | numOut hst | cluster hst =>
    refine ⟨h.running, h.once, ?_⟩
    intro j
    have hsent := h.sent j
    rw [State.owed, hst] at hsent
    exact hsent
  | @send buf k n req ok stack ha hst hn hs =>
    subst ha
    have hcalls : s.stack.calls = true := by
      rw [hst, StackPc.calls, Bool.not_eq_true', Bool.and_eq_false_iff, decide_eq_false_iff_not,
        decide_eq_false_iff_not]
      omega
    obtain rfl : ok = true := hc hcalls
    refine ⟨h.running, by simpa using h.once, ?_⟩
    intro j
    have hsent := h.sent j
    have hsending : stack.sending = [] := by rcases hs with rfl | rfl <;> rfl
    simp only [State.owed, hst, StackPc.sending, List.count_append, List.count_singleton]
      at hsent
    simp only [State.owed, hsending, requestsOf_matchDescReq, returnedOf_matchDescReq,
      List.length_append, List.nil_append]
    by_cases hj : k = j <;> simp [hj] at hsent ⊢ <;> omega
  | free hst =>
    refine ⟨h.running, by simpa using h.once, ?_⟩
    intro j
    have hsent := h.sent j
    rw [State.owed, hst] at hsent
    simpa [State.owed, StackPc.sending] using hsent

theorem ledger_reach (h : machine.ReachIf HasTsn s) : Ledger s :=
  h.invariant Ledger (fun _ h0 => by cases h0; exact ledger_init)
    fun _ _ _ hl hc hs => ledger_rule hl hc (step_rule hs)

/-! ## Bounds -/

/-- The counts fit the array. -/
def MatchReq.Fits (r : MatchReq) : Prop :=
  r.nIn.toNat ≤ maxClusters ∧ r.nOut.toNat ≤ maxClusters

def AtPc.Fits : AtPc → Prop
  | .copy _ _ req => req.Fits
  | _ => True

/-- What `memcpy` is to copy. -/
def StackPc.InBounds : StackPc → Prop
  | .sizeOut _ _ nIn => nIn.toNat ≤ maxClusters
  | .profile _ _ n | .numIn _ _ n _ | .numOut _ _ n _ _ | .clusters _ _ n _ => n ≤ 2 * maxClusters
  | _ => True

structure InBounds (s : State) : Prop where
  pending : s.matchPending.Fits
  at_ : s.at_.Fits
  stack : s.stack.InBounds

theorem parseMatchreq_fits {args : Text} {q : MatchArgs} (h : parseMatchreq args = some q) :
    q.req.Fits := by
  obtain ⟨hin, hout⟩ := parseMatchreq_length h
  exact ⟨(Nat.mod_le _ _).trans hin, (Nat.mod_le _ _).trans hout⟩

theorem MatchReq.Fits.copyField {p r : MatchReq} (hp : p.Fits) (hr : r.Fits) (f : Field) :
    (p.copyField r f).Fits := by
  cases f with
  | profile | cluster i => exact hp
  | nIn => exact ⟨hr.1, hp.2⟩
  | nOut => exact ⟨hp.1, hr.2⟩

theorem inBounds_rule (h : InBounds s) (hr : Rule s a s') : InBounds s' := by
  obtain ⟨hp, hat, hst⟩ := h
  cases hr with
  | reject hidle => exact ⟨hp, hat, hst⟩
  | parsed hidle hq => exact ⟨hp, parseMatchreq_fits hq, hst⟩
  | @copy f todo k req bufOk hcopy _ =>
    rw [hcopy] at hat
    exact ⟨hp.copyField hat f, hat, hst⟩
  | copied _ | queue _ | noBuf _ => exact ⟨hp, trivial, hst⟩
  | matchSend _ _ => exact ⟨hp, hat, trivial⟩
  | sizeIn _ => exact ⟨hp, hat, hp.1⟩
  | @sizeOut buf k nIn hsize =>
    rw [hsize] at hst
    have hsum : nIn.toNat + s.matchPending.nOut.toNat ≤ 2 * maxClusters := by
      have := add_le_add hst hp.2
      omega
    exact ⟨hp, hat, hsum⟩
  | profile hpc | numIn hpc | numOut hpc | cluster hpc => rw [hpc] at hst; exact ⟨hp, hat, hst⟩
  | send _ _ _ hs => exact ⟨hp, hat, by rcases hs with rfl | rfl <;> trivial⟩
  | free _ => exact ⟨hp, hat, trivial⟩

/-- **No overread.** In every run, `memcpy` stays inside `match_pending.clusters`. -/
theorem inBounds_reach (h : machine.Reach s) : InBounds s := by
  refine h.invariant InBounds ?_ fun _ _ _ hb _ hs => inBounds_rule hb (step_rule hs)
  intro _ h0
  cases h0
  exact ⟨⟨Nat.zero_le _, Nat.zero_le _⟩, trivial, trivial⟩

/-! ## The shared request -/

/-- The two requests have the same field. -/
def MatchReq.Agree (p r : MatchReq) : Field → Prop
  | .profile => p.profile = r.profile
  | .nIn => p.nIn = r.nIn
  | .nOut => p.nOut = r.nOut
  | .cluster i => p.clusters i = r.clusters i

instance (p r : MatchReq) : ∀ f, Decidable (p.Agree r f)
  | .profile | .nIn | .nOut | .cluster _ => by unfold MatchReq.Agree; infer_instance

theorem MatchReq.agree_copyField_self (p r : MatchReq) (f : Field) :
    (p.copyField r f).Agree r f := by
  cases f <;> simp [copyField, Agree]

theorem MatchReq.agree_copyField {p r q : MatchReq} {f g : Field} (h : g ≠ f) :
    (p.copyField r f).Agree q g ↔ p.Agree q g := by
  cases f <;> cases g <;> simp_all [copyField, Agree]

theorem MatchReq.copyField_of_agree {p r : MatchReq} {f : Field} (h : p.Agree r f) :
    p.copyField r f = p := by
  cases f with
  | cluster i =>
    rw [copyField, show r.clusters i = p.clusters i from h.symm, Function.update_eq_self]
  | profile | nIn | nOut =>
    simp only [Agree] at h
    simp only [copyField, ← h]

theorem mem_allFields (f : Field) : f ∈ allFields := by
  cases f <;> simp [allFields]

/-- `match_send` reads the field for this request. -/
def MatchArgs.uses (q : MatchArgs) : Field → Bool
  | .cluster i => i < q.inClusters.length + q.outClusters.length
  | _ => true

/-- `match_send` has still to read the field for this request. -/
def StackPc.reads : StackPc → MatchArgs → Field → Bool
  | .idle, _, _ | .free _, _, _ => false
  | .sizeIn .., q, f | .sizeOut .., q, f | .profile .., q, f => q.uses f
  | .numIn .., q, f => f != .profile && q.uses f
  | .numOut .., q, f => f != .profile && f != .nIn && q.uses f
  | .clusters _ _ _ req, q, .cluster i => req.clusterList.length ≤ i && q.uses (.cluster i)
  | .clusters .., _, _ => false

/-- A `match_send` that is owed or runs has still to read the field. -/
def State.needs (s : State) (f : Field) : Bool :=
  (s.sched.any fun k => (s.argsOf k).any fun q => q.uses f) ||
    s.stack.sending.any fun k => (s.argsOf k).any fun q => s.stack.reads q f

/-- The field that the AT thread is about to write, and where its value comes from. -/
def AtPc.writing : AtPc → Option (Field × MatchReq)
  | .copy (f :: _) _ req => some (f, req)
  | _ => none

/-- The step changes no field of `match_pending` that a `match_send` has still to read. -/
def NotOverwritten (s : State) : Action → Prop
  | .at_ _ => ∀ w ∈ s.at_.writing, s.needs w.1 = true → s.matchPending.Agree w.2 w.1
  | _ => True

instance (s : State) : ∀ a, Decidable (NotOverwritten s a)
  | .at_ _ => by unfold NotOverwritten; infer_instance
  | .matchreq _ _ | .matchSend _ | .stack _ => .isTrue trivial

/-! ## Content -/

/-- What `match_send` has read so far is from this request. -/
def StackPc.Read : StackPc → MatchArgs → Prop
  | .idle, _ | .free _, _ | .sizeIn .., _ => True
  | .sizeOut _ _ nIn, q => nIn = q.req.nIn
  | .profile _ _ n, q => n = q.desc.clusterList.length
  | .numIn _ _ n prof, q => n = q.desc.clusterList.length ∧ prof = q.profile
  | .numOut _ _ n prof nIn, q =>
    n = q.desc.clusterList.length ∧ prof = q.profile ∧ nIn = q.req.nIn
  | .clusters _ _ n req, q => n = q.desc.clusterList.length ∧
    { req with clusterList := q.desc.clusterList } = q.desc ∧
      req.clusterList <+: q.desc.clusterList

/-- What the AT thread has copied is in `match_pending`. -/
def AtPc.Copied : AtPc → MatchReq → MatchArgs → Prop
  | .idle, _, _ => True
  | .copy todo _ req, p, q => req = q.req ∧ ∀ f, f ∉ todo → p.Agree q.req f
  | .getBuf _, p, q => ∀ f, p.Agree q.req f

/-- Both threads work for the requests of their commands. -/
structure Content (s : State) : Prop where
  copied : ∀ k ∈ s.at_.running, ∃ q, s.argsOf k = some q ∧ s.at_.Copied s.matchPending q
  sched : ∀ k ∈ s.sched, ∃ q, s.argsOf k = some q ∧
    ∀ f, q.uses f = true → s.matchPending.Agree q.req f
  stack : ∀ k ∈ s.stack.sending, ∃ q, s.argsOf k = some q ∧ s.stack.Read q ∧
    ∀ f, s.stack.reads q f = true → s.matchPending.Agree q.req f
  sent : ∀ k, ∀ req ∈ requestsOf k s.log, ∃ q, s.argsOf k = some q ∧ req = q.desc

section

variable {q : MatchArgs} {k : ℕ}

/-- The arguments of a command do not change. -/
theorem argsOf_append (h : s.argsOf k = some q) (args : Text) :
    (s.calls ++ [args])[k]?.bind parseMatchreq = some q := by
  obtain ⟨t, ht, hq⟩ := Option.bind_eq_some_iff.mp h
  rw [List.getElem?_append_left (List.getElem?_eq_some_iff.mp ht).1, ht]
  exact hq

theorem argsOf_length (h : s.argsOf k = some q) :
    q.inClusters.length ≤ maxClusters ∧ q.outClusters.length ≤ maxClusters := by
  obtain ⟨t, -, hq⟩ := Option.bind_eq_some_iff.mp h
  exact parseMatchreq_length hq

theorem MatchArgs.length_desc (q : MatchArgs) :
    q.desc.clusterList.length = q.inClusters.length + q.outClusters.length :=
  List.length_append

/-- The sizes in the request are the lengths of the lists. -/
theorem argsOf_sizes (h : s.argsOf k = some q) :
    q.req.nIn.toNat + q.req.nOut.toNat = q.desc.clusterList.length := by
  obtain ⟨hin, hout⟩ := argsOf_length h
  rw [q.length_desc]
  unfold maxClusters at hin hout
  have h1 : q.req.nIn.toNat = q.inClusters.length := Nat.mod_eq_of_lt (by omega)
  have h2 : q.req.nOut.toNat = q.outClusters.length := Nat.mod_eq_of_lt (by omega)
  rw [h1, h2]

/-- A write that the condition allows keeps every field that is still to be read. -/
theorem agree_write {p r req : MatchReq} {f g : Field} {reads : Bool}
    (hw : reads = true → p.Agree r f) (hg : p.Agree req g) (hr : f = g → reads = true) :
    (p.copyField r f).Agree req g := by
  by_cases hfg : f = g
  · rwa [MatchReq.copyField_of_agree (hw (hr hfg))]
  · exact (MatchReq.agree_copyField (Ne.symm hfg)).mpr hg

/-- Reading the next cluster extends the part of the request that was read. -/
theorem read_cluster {buf : BufId} {n : ℕ} {req : MatchDesc} {p : MatchReq}
    (hread : (StackPc.clusters buf k n req).Read q) (hn : req.clusterList.length < n)
    (h : req.clusterList.length < 2 * maxClusters) (hp : p.Agree q.req (.cluster ⟨_, h⟩)) :
    (StackPc.clusters buf k n (req.addCluster (p.clusters ⟨_, h⟩))).Read q := by
  obtain ⟨rfl, hreq, hpre⟩ := hread
  refine ⟨rfl, hreq, ?_⟩
  have hid : p.clusters ⟨_, h⟩ = q.desc.clusterList[req.clusterList.length] := by
    apply Eq.trans hp
    rw [List.getElem_eq_getD 0]
    rfl
  have htake : req.clusterList ++ [q.desc.clusterList[req.clusterList.length]] =
      q.desc.clusterList.take (req.clusterList.length + 1) := by
    rw [← List.take_concat_get' _ _ hn, ← List.prefix_iff_eq_take.mp hpre]
  rw [MatchDesc.addCluster, hid, htake]
  exact List.take_prefix _ _

/-- When all clusters are read, the request is the command's. -/
theorem read_all {buf : BufId} {n : ℕ} {req : MatchDesc} (hq : s.argsOf k = some q)
    (hread : (StackPc.clusters buf k n req).Read q)
    (hn : ¬ (req.clusterList.length < n ∧ req.clusterList.length < 2 * maxClusters)) :
    req = q.desc := by
  obtain ⟨rfl, hreq, hpre⟩ := hread
  obtain ⟨hin, hout⟩ := argsOf_length hq
  have hlen := q.length_desc
  rw [← hpre.eq_of_length_le (by omega)] at hreq
  exact hreq

/-- A command that starts keeps what the others rely on. -/
theorem Content.call (h : Content s) (args : Text) {at_ : AtPc} {log : List Ev}
    (hcopied : ∀ k ∈ at_.running, ∃ q, (s.calls ++ [args])[k]?.bind parseMatchreq = some q ∧
      at_.Copied s.matchPending q)
    (hlog : ∀ k, requestsOf k log = requestsOf k s.log) :
    Content { s with calls := s.calls ++ [args], at_ := at_, log := log } := by
  refine ⟨hcopied, ?_, ?_, ?_⟩
  · intro k hk
    obtain ⟨q, hq, hag⟩ := h.sched k hk
    exact ⟨q, argsOf_append hq _, hag⟩
  · intro k hk
    obtain ⟨q, hq, hag⟩ := h.stack k hk
    exact ⟨q, argsOf_append hq _, hag⟩
  · intro k req hreq
    rw [hlog] at hreq
    obtain ⟨q, hq, hdesc⟩ := h.sent k req hreq
    exact ⟨q, argsOf_append hq _, hdesc⟩

/-- A write to a field that nobody has still to read, or of the value that it has. -/
theorem Content.copy (h : Content s) {f : Field} {todo : List Field} {req : MatchReq}
    (hat : s.at_ = .copy (f :: todo) k req)
    (hw : s.needs f = true → s.matchPending.Agree req f) : Content { s with
      matchPending := s.matchPending.copyField req f
      at_ := .copy todo k req } := by
  refine ⟨?_, ?_, ?_, h.sent⟩
  · intro j hj
    obtain ⟨q, hq, hcop⟩ := h.copied j (by rw [hat]; exact hj)
    rw [hat] at hcop
    obtain ⟨rfl, hcop⟩ := hcop
    refine ⟨q, hq, rfl, ?_⟩
    intro g hg
    by_cases hgf : g = f
    · exact hgf ▸ MatchReq.agree_copyField_self _ _ _
    · exact (MatchReq.agree_copyField hgf).mpr (hcop g (by simp [hgf, hg]))
  · intro j hj
    obtain ⟨q, hq, hag⟩ := h.sched j hj
    refine ⟨q, hq, fun g hg => agree_write hw (hag g hg) ?_⟩
    rintro rfl
    refine Bool.or_eq_true_iff.mpr (.inl (List.any_eq_true.mpr ⟨j, hj, ?_⟩))
    rw [hq]
    exact hg
  · intro j hj
    obtain ⟨q, hq, hread, hag⟩ := h.stack j hj
    refine ⟨q, hq, hread, fun g hg => agree_write hw (hag g hg) ?_⟩
    rintro rfl
    refine Bool.or_eq_true_iff.mpr (.inr (List.any_eq_true.mpr ⟨j, hj, ?_⟩))
    rw [hq]
    exact hg

/-- `match_send` goes on with the same request, and has less to read. -/
theorem Content.next (h : Content s) {stack : StackPc} (hsame : stack.sending = s.stack.sending)
    (hnext : ∀ j q, s.argsOf j = some q → s.stack.Read q →
      (∀ f, s.stack.reads q f = true → s.matchPending.Agree q.req f) →
        stack.Read q ∧ ∀ f, stack.reads q f = true → s.stack.reads q f = true) :
    Content { s with stack := stack } := by
  refine ⟨h.copied, h.sched, fun j hj => ?_, h.sent⟩
  obtain ⟨q, hq, hread, hag⟩ := h.stack j (hsame ▸ hj)
  obtain ⟨hread', hless⟩ := hnext j q hq hread hag
  exact ⟨q, hq, hread', fun f hf => hag f (hless f hf)⟩

/-- The request that is handed to the stack is the command's. -/
theorem Content.send (h : Content s) {buf : BufId} {n : ℕ} {req : MatchDesc} {ok : Bool}
    {stack : StackPc} (hst : s.stack = .clusters buf k n req)
    (hn : ¬ (req.clusterList.length < n ∧ req.clusterList.length < 2 * maxClusters))
    (hsending : stack.sending = []) : Content { s with
      stack := stack
      log := s.log ++ [.matchDescReq k req ok] } := by
  refine ⟨h.copied, h.sched, ?_, ?_⟩
  · intro j hj
    rw [hsending] at hj
    cases hj
  · intro j req' hreq
    cases ok with
    | false => exact h.sent j req' (by simpa using hreq)
    | true =>
      rw [requestsOf_matchDescReq, List.mem_append] at hreq
      rcases hreq with hreq | hreq
      · exact h.sent j req' hreq
      · split_ifs at hreq with hk
        · subst hk
          cases List.mem_singleton.mp hreq
          obtain ⟨q, hq, hread, -⟩ := h.stack k (by rw [hst]; exact List.mem_singleton_self k)
          rw [hst] at hread
          exact ⟨q, hq, read_all hq hread hn⟩
        · cases hreq

end

theorem content_rule (h : Content s) (ha : NotOverwritten s a) (hr : Rule s a s') : Content s' := by
  cases hr with
  | reject hat =>
    refine h.call _ (fun k hk => ?_) fun k => by simp
    rw [hat] at hk
    cases hk
  | @parsed args q hat hq =>
    refine h.call args (fun k hk => ?_) fun _ => rfl
    cases List.mem_singleton.mp hk
    exact ⟨q, by simpa using hq, rfl, fun f hf => absurd (mem_allFields f) hf⟩
  | @copy f todo k req bufOk hat hact =>
    subst hact
    exact h.copy hat (ha (f, req) (by rw [hat]; rfl))
  | copied hat =>
    refine ⟨?_, h.sched, h.stack, h.sent⟩
    intro j hj
    obtain ⟨q, hq, hcop⟩ := h.copied j (by rw [hat]; exact hj)
    rw [hat] at hcop
    exact ⟨q, hq, fun f => hcop.2 f (List.not_mem_nil)⟩
  | @queue k hat =>
    refine ⟨fun j hj => (nomatch hj), ?_, h.stack,
      fun j req hreq => h.sent j req (by simpa using hreq)⟩
    intro j hj
    rcases List.mem_append.mp hj with hj | hj
    · exact h.sched j hj
    · obtain ⟨q, hq, hcop⟩ := h.copied j (by rw [hat]; exact hj)
      rw [hat] at hcop
      exact ⟨q, hq, fun f _ => hcop f⟩
  | noBuf hat => exact ⟨fun j hj => (nomatch hj), h.sched, h.stack,
      fun j req hreq => h.sent j req (by simpa using hreq)⟩
  | @matchSend buf k rest hst hsched =>
    refine ⟨h.copied, fun j hj => h.sched j (by rw [hsched]; exact List.mem_cons_of_mem _ hj),
      ?_, h.sent⟩
    intro j hj
    cases List.mem_singleton.mp hj
    obtain ⟨q, hq, hag⟩ := h.sched k (by rw [hsched]; exact List.mem_cons_self)
    exact ⟨q, hq, trivial, hag⟩
  | sizeIn hst =>
    refine h.next (by rw [hst]; rfl) fun j q hq hread hag => ?_
    rw [hst] at hag ⊢
    exact ⟨hag .nIn rfl, fun f hf => hf⟩
  | sizeOut hst =>
    refine h.next (by rw [hst]; rfl) fun j q hq hread hag => ?_
    rw [hst] at hread hag ⊢
    have hout : s.matchPending.nOut = q.req.nOut := hag .nOut rfl
    refine ⟨?_, fun f hf => hf⟩
    rw [StackPc.Read, show _ = _ from hread, hout, argsOf_sizes hq]
  | profile hst =>
    refine h.next (by rw [hst]; rfl) fun j q hq hread hag => ?_
    rw [hst] at hread hag ⊢
    exact ⟨⟨hread, hag .profile rfl⟩, fun f hf => (Bool.and_eq_true_iff.mp hf).2⟩
  | numIn hst =>
    refine h.next (by rw [hst]; rfl) fun j q hq hread hag => ?_
    rw [hst] at hread hag ⊢
    refine ⟨⟨hread.1, hread.2, hag .nIn rfl⟩, fun f hf => ?_⟩
    simp only [StackPc.reads, Bool.and_eq_true] at hf ⊢
    exact ⟨hf.1.1, hf.2⟩
  | numOut hst =>
    refine h.next (by rw [hst]; rfl) fun j q hq hread hag => ?_
    rw [hst] at hread hag ⊢
    obtain ⟨hn, rfl, rfl⟩ := hread
    have hout : s.matchPending.nOut = q.req.nOut := hag .nOut rfl
    refine ⟨⟨hn, by rw [hout]; rfl, List.nil_prefix⟩, fun f hf => ?_⟩
    cases f with
    | cluster i => simpa [StackPc.reads] using hf
    | profile | nIn | nOut => cases hf
  | cluster hst hn hlt =>
    refine h.next (by rw [hst]; rfl) fun j q hq hread hag => ?_
    rw [hst] at hread hag ⊢
    refine ⟨read_cluster hread hn hlt (hag _ ?_), fun f hf => ?_⟩
    · simpa [StackPc.reads, MatchArgs.uses, ← q.length_desc, ← hread.1] using hn
    · cases f with
      | cluster i =>
        simp only [StackPc.reads, MatchDesc.addCluster, List.length_append, List.length_singleton,
          Bool.and_eq_true, decide_eq_true_eq] at hf ⊢
        exact ⟨by omega, hf.2⟩
      | profile | nIn | nOut => cases hf
  | send _ hst hn hs =>
    refine h.send hst hn ?_
    rcases hs with rfl | rfl <;> rfl
  | free hst =>
    exact ⟨h.copied, h.sched, fun j hj => (nomatch hj),
      fun j req hreq => h.sent j req (by simpa using hreq)⟩

theorem content_reach (h : machine.ReachIf NotOverwritten s) : Content s := by
  refine h.invariant Content ?_ fun _ _ _ hc ha hs =>
    content_rule hc ha (step_rule hs)
  intro _ h0
  cases h0
  exact ⟨fun k hk => (nomatch hk), fun k hk => (nomatch hk), fun k hk => (nomatch hk),
    fun k req hreq => (nomatch hreq)⟩

/-! ## One request for every accepted command -/

/-- Every command that was answered `AT_OK` made one Match_Desc_req or is still owed one, never
both, and what was sent for it is its own request. -/
def SentOnce (s : State) : Prop :=
  ∀ k, .returned k atOk ∈ s.log → (requestsOf k s.log).length + s.owed.count k = 1 ∧
    ∀ req ∈ requestsOf k s.log, ∃ q, s.argsOf k = some q ∧ req = q.desc

theorem Ledger.accepted_once (h : Ledger s) {k : ℕ} (hk : .returned k atOk ∈ s.log) :
    (requestsOf k s.log).length + s.owed.count k = 1 := by
  rw [h.sent k]
  have hpos := List.count_pos_iff.mpr (mem_returnedOf.mpr hk)
  have hle : (returnedOf k s.log).count atOk ≤ (returnedOf k s.log).length :=
    List.count_le_length
  have honce := h.once k
  split_ifs at honce <;> omega

/-- The copy overwrites nothing that is still to be read, and ZBOSS takes the requests. -/
def Covered (s : State) (a : Action) : Prop := NotOverwritten s a ∧ HasTsn s a

instance (s : State) (a : Action) : Decidable (Covered s a) := by
  unfold Covered
  infer_instance

/-- **One request each.** In a run in which no copy changes a field that a `match_send` has still
to read and `zb_zdo_match_desc_req` has a transaction number for every request, every accepted
command makes one Match_Desc_req, with its own profile and lists. -/
theorem sent_once (h : machine.ReachIf Covered s) : SentOnce s := fun k hk =>
  ⟨(ledger_reach (h.mono fun _ _ hc => hc.2)).accepted_once hk,
    (content_reach (h.mono fun _ _ hc => hc.1)).sent k⟩

/-- The arguments `:0104,01,0006,00` and `:0104,01,0008,00`. -/
def onOffArgs : Text := ascii ":0104,01,0006,00"
def levelArgs : Text := ascii ":0104,01,0008,00"

/-- The AT thread executes the command up to its answer. -/
def accept (args : Text) : List Action :=
  .matchreq args true :: List.replicate 21 (.at_ true)

/-- ZBOSS calls `match_send`, which runs to its end. -/
def send : List Action := .matchSend 1 :: List.replicate 7 (.stack true)

theorem onOffRun_execIf : ((machine.execIf Covered init (accept onOffArgs ++ send)).map
    fun s => (s.log.contains (.returned 0 atOk), requestsOf 0 s.log)) =
      some (true, [⟨0xFFFD, 0xFFFD, 0x0104, 1, 0, [6]⟩]) := by
  decide

theorem sent_once_onOff : ∃ s : State, .returned 0 atOk ∈ s.log ∧
    requestsOf 0 s.log = [⟨0xFFFD, 0xFFFD, 0x0104, 1, 0, [6]⟩] ∧ SentOnce s := by
  obtain ⟨s, he, hs⟩ := Option.map_eq_some_iff.mp onOffRun_execIf
  simp only [Prod.mk.injEq, List.contains_iff_mem] at hs
  exact ⟨s, hs.1, hs.2, sent_once (.execIf (.init rfl) he)⟩

/-- Two commands are accepted before the first `match_send` runs. -/
def overwrittenRun : List Action := accept onOffArgs ++ accept levelArgs ++ send

theorem overwrittenRun_exec : ((machine.exec init overwrittenRun).map fun s =>
    (s.log.contains (.returned 0 atOk), (s.argsOf 0).map MatchArgs.desc, requestsOf 0 s.log)) =
      some (true, some ⟨0xFFFD, 0xFFFD, 0x0104, 1, 0, [6]⟩,
        [⟨0xFFFD, 0xFFFD, 0x0104, 1, 0, [8]⟩]) := by
  decide

/-- The first command sends the clusters of the second. -/
theorem not_sent_once : ¬ ∀ s, machine.Reach s → SentOnce s := by
  intro h
  obtain ⟨s, he, hs⟩ := Option.map_eq_some_iff.mp overwrittenRun_exec
  simp only [Prod.mk.injEq, List.contains_iff_mem] at hs
  obtain ⟨hret, hdesc, hreq⟩ := hs
  obtain ⟨q, hq, hown⟩ := (h s (Machine.Reach.exec (.init rfl) he) 0 hret).2 _
    (by rw [hreq]; exact List.mem_singleton_self _)
  rw [hq, Option.map_some, ← hown] at hdesc
  cases hdesc

end ZbAt.Match
