import ZbAt.SlotTable
import ZbAt.TxQueue

/-!
# Sending data: every accepted request is passed on once and reported once

`Rule` says what a step can do, one constructor for each. The invariant has four parts, each kept
by every rule.

* `SlotsOk` — a slot bit is set exactly while one party holds the slot.
* `Content` — a slot that is waiting to be sent holds the request of its call.
* `Counted` — `in_flight_count` counts the used entries, the acknowledged requests that wait for
  `tx_send`, and the request that submit has counted already.
* `Tabled` — the used entries are those of the acknowledged payloads that ZBOSS has.
* `Ledger` — what the log says of a call matches where its request is.
-/

namespace ZbAt.Tx

/-- What a step can do. -/
inductive Rule (s : State) : State → Prop
  | call {r : TxReq} {uni : Bool} {n : UInt8} (hat : s.at_ = .idle) : Rule s { s with
      nextSeq := n
      at_ := .scan 0 s.calls.length r uni
      calls := s.calls ++ [r] }
  | taken {i k : ℕ} {r : TxReq} {uni : Bool} (hat : s.at_ = .scan i k r uni) :
      Rule s { s with at_ := .scan (i + 1) k r uni }
  | reserve {slot : Fin txSlots} {k : ℕ} {r : TxReq} {uni : Bool}
      (hat : s.at_ = .scan slot k r uni) (hfree : s.slotsUsed slot = false) : Rule s { s with
      slotsUsed := Function.update s.slotsUsed slot true
      at_ := .inc slot k r uni }
  | noSlot {i k : ℕ} {r : TxReq} {uni : Bool} (hat : s.at_ = .scan i k r uni) : Rule s { s with
      at_ := .idle
      log := s.log ++ [.returned k atErrNoBuffers] }
  | tooMany {slot : Fin txSlots} {k : ℕ} {r : TxReq} {uni : Bool}
      (hat : s.at_ = .inc slot k r uni) : Rule s { s with
      inFlightCount := s.inFlightCount + 1
      at_ := .undoInc slot k }
  | count {slot : Fin txSlots} {k : ℕ} {r : TxReq} {uni : Bool} (hat : s.at_ = .inc slot k r uni)
      (hack : r.ack = true) (hlt : s.inFlightCount < ucastInFlight) : Rule s { s with
      inFlightCount := s.inFlightCount + 1
      at_ := .store slot k r uni }
  | noCount {slot : Fin txSlots} {k : ℕ} {r : TxReq} {uni : Bool}
      (hat : s.at_ = .inc slot k r uni) (hack : r.ack = false) :
      Rule s { s with at_ := .store slot k r uni }
  | undoInc {slot : Fin txSlots} {k : ℕ} (hat : s.at_ = .undoInc slot k) : Rule s { s with
      inFlightCount := s.inFlightCount - 1
      at_ := .undoSlot slot k atErrTooManyUcast }
  | store {slot : Fin txSlots} {k : ℕ} {r : TxReq} {uni : Bool}
      (hat : s.at_ = .store slot k r uni) : Rule s { s with
      slots := Function.update s.slots slot r
      at_ := .getBuf slot k r uni }
  | queue {slot : Fin txSlots} {k : ℕ} {r : TxReq} {uni : Bool}
      (hat : s.at_ = .getBuf slot k r uni) : Rule s { s with
      sched := s.sched ++ [(slot, k)]
      at_ := .afterOk k r uni
      log := s.log ++ [.queued k, .returned k atOk] }
  | noBuf {slot : Fin txSlots} {k : ℕ} {r : TxReq} {uni : Bool}
      (hat : s.at_ = .getBuf slot k r uni) : Rule s { s with
      at_ := if r.ack then .undoCount slot k else .undoSlot slot k atErrNoBuffers }
  | undoCount {slot : Fin txSlots} {k : ℕ} (hat : s.at_ = .undoCount slot k) : Rule s { s with
      inFlightCount := s.inFlightCount - 1
      at_ := .undoSlot slot k atErrNoBuffers }
  | undoSlot {slot : Fin txSlots} {k err : ℕ} (hat : s.at_ = .undoSlot slot k err) :
      Rule s { s with
      slotsUsed := Function.update s.slotsUsed slot false
      at_ := .idle
      log := s.log ++ [.returned k err] }
  | seqLine {k : ℕ} {r : TxReq} (hat : s.at_ = .seqLine k r) : Rule s { s with
      at_ := .idle
      log := s.log ++ [.seqPrinted k (.seq r.seq)] }
  | seqOff {k : ℕ} {r : TxReq} (hat : s.at_ = .seqLine k r) : Rule s { s with at_ := .idle }
  | txSend {slot : Fin txSlots} {buf : BufId} {k : ℕ} {rest : List (Fin txSlots × ℕ)}
      (hst : s.stack = .idle) (hsched : s.sched.Perm ((slot, k) :: rest))
      (hbuf : buf ∉ s.air.map Prod.fst) :
      Rule s { s with sched := rest, stack := .add slot buf k }
  | txDone {buf : BufId} {k : ℕ} {acked : Bool} {rest : List (BufId × ℕ)}
      (hst : s.stack = .idle) (hair : s.air.Perm ((buf, k) :: rest)) :
      Rule s { s with air := rest, stack := .done buf k acked }
  | add {slot : Fin txSlots} {buf : BufId} {k : ℕ} (hst : s.stack = .add slot buf k)
      (hack : (s.slots slot).ack = true) : Rule s { s with
      inFlight := inFlightAdd buf (s.slots slot) s.inFlight
      stack := .pass slot buf k }
  | noAdd {slot : Fin txSlots} {buf : BufId} {k : ℕ} (hst : s.stack = .add slot buf k)
      (hack : (s.slots slot).ack = false) : Rule s { s with stack := .pass slot buf k }
  | pass {slot : Fin txSlots} {buf : BufId} {k : ℕ} (hst : s.stack = .pass slot buf k) :
      Rule s { s with
      air := s.air ++ [(buf, k)]
      stack := .clear slot
      log := s.log ++ [.passed k (s.slots slot) true] }
  | refuse {slot : Fin txSlots} {buf : BufId} {k : ℕ} (hst : s.stack = .pass slot buf k)
      (hack : (s.slots slot).ack = true) : Rule s { s with
      stack := .drop slot buf k
      log := s.log ++ [.passed k (s.slots slot) false] }
  | refusePlain {slot : Fin txSlots} {buf : BufId} {k : ℕ} (hst : s.stack = .pass slot buf k)
      (hack : (s.slots slot).ack = false) : Rule s { s with
      stack := .free slot buf k
      log := s.log ++ [.passed k (s.slots slot) false] }
  | drop {slot : Fin txSlots} {buf : BufId} {k : ℕ} (hst : s.stack = .drop slot buf k) :
      Rule s { s with
      inFlight := inFlightDrop buf s.inFlight
      inFlightCount := s.inFlightCount - 1
      stack := .nack slot buf k }
  | nack {slot : Fin txSlots} {buf : BufId} {k : ℕ} {line : Option Line}
      (hst : s.stack = .nack slot buf k) : Rule s { s with
      stack := .free slot buf k
      log := s.log ++ [.reported k (s.slots slot).seq false line] }
  | free {slot : Fin txSlots} {buf : BufId} {k : ℕ} (hst : s.stack = .free slot buf k) :
      Rule s { s with
      stack := .clear slot
      log := s.log ++ [.sendFailed k] }
  | clear {slot : Fin txSlots} (hst : s.stack = .clear slot) : Rule s { s with
      slotsUsed := Function.update s.slotsUsed slot false
      stack := .idle }
  | found {buf : BufId} {k : ℕ} {acked : Bool} {i : Fin ucastInFlight}
      (hst : s.stack = .done buf k acked) (hi : inFlightFind buf s.inFlight = some i) :
      Rule s { s with
      inFlight := Function.update s.inFlight i { s.inFlight i with used := false }
      inFlightCount := s.inFlightCount - 1
      stack := .ack buf k (s.inFlight i).seq (s.inFlight i).quiet acked }
  | notFound {buf : BufId} {k : ℕ} {acked : Bool} (hst : s.stack = .done buf k acked)
      (hnone : inFlightFind buf s.inFlight = none) : Rule s { s with stack := .doneFree buf k }
  | ack {buf : BufId} {k : ℕ} {seq : UInt8} {quiet acked : Bool} {line : Option Line}
      (hst : s.stack = .ack buf k seq quiet acked) : Rule s { s with
      stack := .doneFree buf k
      log := s.log ++ [.reported k seq acked line] }
  | doneFree {buf : BufId} {k : ℕ} (hst : s.stack = .doneFree buf k) : Rule s { s with
      stack := .idle
      log := s.log ++ [.txDone k] }

theorem stepAt_rule {bufOk : Bool} {s0e : ℕ} {s s' : State} (hs : stepAt bufOk s0e s = some s') :
    Rule s s' := by
  cases hat : s.at_ with
  | idle => rw [stepAt, hat] at hs; cases hs
  | scan i k r uni =>
    simp only [stepAt, hat] at hs
    split_ifs at hs with hi hu
    · cases hs; exact .taken hat
    · cases hs
      have hfree : s.slotsUsed ⟨i, hi⟩ = false := by simpa using hu
      exact .reserve hat hfree
    · cases hs; exact .noSlot hat
  | inc slot k r uni =>
    simp only [stepAt, hat] at hs
    split_ifs at hs with hack hge
    · cases hs; exact .tooMany hat
    · cases hs; exact .count hat hack (by omega)
    · cases hs; exact .noCount hat (by simpa using hack)
  | undoInc slot k =>
    simp only [stepAt, hat] at hs
    cases hs
    exact .undoInc hat
  | store slot k r uni =>
    simp only [stepAt, hat] at hs
    cases hs
    exact .store hat
  | getBuf slot k r uni =>
    simp only [stepAt, hat] at hs
    by_cases hbuf : bufOk = true
    · rw [if_pos hbuf] at hs
      cases hs
      exact .queue hat
    · rw [if_neg hbuf] at hs
      cases hs
      exact .noBuf hat
  | undoCount slot k =>
    simp only [stepAt, hat] at hs
    cases hs
    exact .undoCount hat
  | undoSlot slot k err =>
    simp only [stepAt, hat] at hs
    cases hs
    exact .undoSlot hat
  | seqLine k r =>
    simp only [stepAt, hat] at hs
    split_ifs at hs
    · cases hs; exact .seqLine hat
    · cases hs; exact .seqOff hat

theorem stepStack_rule {sendOk : Bool} {s0e : ℕ} {s s' : State}
    (hs : stepStack sendOk s0e s = some s') : Rule s s' := by
  cases hst : s.stack with
  | idle => rw [stepStack, hst] at hs; cases hs
  | add slot buf k =>
    simp only [stepStack, hst] at hs
    cases hs
    cases hack : (s.slots slot).ack with
    | true => exact .add hst hack
    | false => exact .noAdd hst hack
  | pass slot buf k =>
    simp only [stepStack, hst] at hs
    split_ifs at hs with _ hack
    · cases hs; exact .pass hst
    · cases hs; exact .refuse hst hack
    · cases hs; exact .refusePlain hst (by simpa using hack)
  | drop slot buf k =>
    simp only [stepStack, hst] at hs
    cases hs
    exact .drop hst
  | nack slot buf k =>
    simp only [stepStack, hst] at hs
    cases hs
    exact .nack hst
  | free slot buf k =>
    simp only [stepStack, hst] at hs
    cases hs
    exact .free hst
  | clear slot =>
    simp only [stepStack, hst] at hs
    cases hs
    exact .clear hst
  | done buf k acked =>
    simp only [stepStack, hst] at hs
    cases hfind : inFlightFind buf s.inFlight with
    | some i =>
      rw [hfind] at hs
      cases hs
      exact .found hst hfind
    | none =>
      rw [hfind] at hs
      cases hs
      exact .notFound hst hfind
  | ack buf k seq quiet acked =>
    simp only [stepStack, hst] at hs
    cases hs
    exact .ack hst
  | doneFree buf k =>
    simp only [stepStack, hst] at hs
    cases hs
    exact .doneFree hst

theorem perm_eraseIdx {α : Type*} {l : List α} {i : ℕ} {a : α} (h : l[i]? = some a) :
    l.Perm (a :: l.eraseIdx i) := by
  obtain ⟨hi, rfl⟩ := List.getElem?_eq_some_iff.mp h
  exact (List.getElem_cons_eraseIdx_perm hi).symm

theorem step_rule {s s' : State} {a : Action} (hs : step s a = some s') : Rule s s' := by
  cases a with
  | submit r =>
    simp only [step] at hs
    split_ifs at hs with hat
    cases hs
    exact .call hat
  | sendUnicast r quiet =>
    simp only [step] at hs
    split_ifs at hs with hat
    cases hs
    exact .call hat
  | at_ bufOk s0e => exact stepAt_rule hs
  | txSend i buf =>
    cases hi : s.sched[i]? with
    | none =>
      simp only [step, hi] at hs
      cases hs
    | some owed =>
      obtain ⟨slot, k⟩ := owed
      simp only [step, hi] at hs
      split_ifs at hs with hc
      cases hs
      exact .txSend hc.1 (perm_eraseIdx hi) hc.2
  | txDone i acked =>
    cases hi : s.air[i]? with
    | none =>
      simp only [step, hi] at hs
      cases hs
    | some sent =>
      obtain ⟨buf, k⟩ := sent
      simp only [step, hi] at hs
      split_ifs at hs with hc
      cases hs
      exact .txDone hc (perm_eraseIdx hi)
  | stack sendOk s0e => exact stepStack_rule hs

/-! ## Who holds a slot, and what is in it -/

def AtPc.slots : AtPc → List (Fin txSlots)
  | .inc slot _ _ _ | .undoInc slot _ | .store slot _ _ _ | .getBuf slot _ _ _
  | .undoCount slot _ | .undoSlot slot _ _ => [slot]
  | _ => []

def StackPc.slots : StackPc → List (Fin txSlots)
  | .add slot _ _ | .pass slot _ _ | .drop slot _ _ | .nack slot _ _ | .free slot _ _
  | .clear slot => [slot]
  | _ => []

/-- The slots held: by submit, by a call that ZBOSS owes, by `tx_send`. -/
def State.holders (s : State) : List (Fin txSlots) :=
  s.at_.slots ++ s.sched.map Prod.fst ++ s.stack.slots

/-- A slot bit is set exactly while one party holds the slot. -/
def SlotsOk (s : State) : Prop :=
  ∀ i, s.holders.count i = if s.slotsUsed i then 1 else 0

variable {s s' : State}

theorem SlotsOk.keep (h : SlotsOk s) (hc : ∀ i, s'.holders.count i = s.holders.count i)
    (hu : s'.slotsUsed = s.slotsUsed) : SlotsOk s' := by
  intro i
  rw [hc, hu]
  exact h i

theorem SlotsOk.take (h : SlotsOk s) {slot : Fin txSlots} (hfree : s.slotsUsed slot = false)
    (hc : ∀ i, s'.holders.count i = (slot :: s.holders).count i)
    (hu : s'.slotsUsed = Function.update s.slotsUsed slot true) : SlotsOk s' := by
  intro i
  have hi := h i
  rw [hc, hu]
  by_cases he : i = slot
  · subst he
    simp_all
  · simpa [he, List.count_cons, Ne.symm he] using hi

theorem SlotsOk.release (h : SlotsOk s) {slot : Fin txSlots}
    (hc : ∀ i, s.holders.count i = (slot :: s'.holders).count i)
    (hu : s'.slotsUsed = Function.update s.slotsUsed slot false) : SlotsOk s' := by
  intro i
  have hi := h i
  rw [hc] at hi
  rw [hu]
  by_cases he : i = slot
  · subst he
    have hle : (i :: s'.holders).count i ≤ 1 := by rw [hi]; split_ifs <;> omega
    rw [List.count_cons_self] at hle
    rw [Function.update_self, if_neg (by simp)]
    omega
  · simpa [he, List.count_cons, Ne.symm he] using hi

theorem AtPc.afterOk_slots (k : ℕ) (r : TxReq) (uni : Bool) :
    (AtPc.afterOk k r uni).slots = [] := by
  cases uni <;> rfl

theorem slots_step (h : SlotsOk s) (hr : Rule s s') : SlotsOk s' := by
  cases hr with
  | reserve hat hfree => exact h.take hfree (by simp [State.holders, AtPc.slots, hat]) rfl
  | undoSlot hat => exact h.release (by simp [State.holders, AtPc.slots, hat]) rfl
  | @clear slot hst =>
    refine h.release ?_ (rfl : _ = Function.update s.slotsUsed slot false)
    intro i
    simp only [State.holders, StackPc.slots, hst, List.count_append, List.count_cons,
      List.count_nil]
    omega
  | queue hat =>
    refine h.keep ?_ rfl
    intro i
    simp only [State.holders, AtPc.afterOk_slots, hat]
    simp only [AtPc.slots, List.map_append, List.map_cons, List.map_nil, List.count_append,
      List.count_nil]
    omega
  | noBuf hat =>
    refine h.keep ?_ rfl
    intro i
    simp only [State.holders, hat]
    split_ifs <;> rfl
  | txSend hst hsched hbuf =>
    refine h.keep ?_ rfl
    intro i
    have hp := (hsched.map Prod.fst).count_eq i
    simp only [List.map_cons, List.count_cons] at hp
    simp only [State.holders, hst, StackPc.slots, List.count_append, List.count_cons,
      List.count_nil]
    omega
  | _ => exact h.keep (fun i => by simp only [State.holders, AtPc.slots, StackPc.slots, *]) rfl

/-! ## Contents -/

/-- The request that submit works on. -/
def AtPc.request : AtPc → List (ℕ × TxReq)
  | .scan _ k r _ | .inc _ k r _ | .store _ k r _ | .getBuf _ k r _ | .seqLine k r => [(k, r)]
  | _ => []

/-- The slot that submit has filled. -/
def AtPc.filled : AtPc → List (Fin txSlots × ℕ)
  | .getBuf slot k _ _ => [(slot, k)]
  | _ => []

/-- The slot that `tx_send` reads. -/
def StackPc.reading : StackPc → List (Fin txSlots × ℕ)
  | .add slot _ k | .pass slot _ k | .drop slot _ k | .nack slot _ k => [(slot, k)]
  | _ => []

/-- The slots that hold the request of a call. -/
def State.filled (s : State) : List (Fin txSlots × ℕ) :=
  s.at_.filled ++ s.sched ++ s.stack.reading

structure Content (s : State) : Prop where
  request : ∀ p ∈ s.at_.request, s.calls[p.1]? = some p.2
  filled : ∀ p ∈ s.filled, s.calls[p.2]? = some (s.slots p.1)
  refused : ∀ slot buf k, s.stack = .drop slot buf k ∨ s.stack = .nack slot buf k →
    (s.slots slot).ack = true

theorem getElem?_calls {calls : List TxReq} {k : ℕ} {r r' : TxReq} (h : calls[k]? = some r) :
    (calls ++ [r'])[k]? = some r := by
  obtain ⟨hk, -⟩ := List.getElem?_eq_some_iff.mp h
  rw [List.getElem?_append_left hk, h]

theorem Content.keep (h : Content s) (hreq : s'.at_.request ⊆ s.at_.request)
    (hfil : s'.filled ⊆ s.filled)
    (href : ∀ slot buf k, s'.stack = .drop slot buf k ∨ s'.stack = .nack slot buf k →
      (s.slots slot).ack = true)
    (hc : s'.calls = s.calls) (hsl : s'.slots = s.slots) : Content s' := by
  refine ⟨?_, ?_, ?_⟩
  · intro p hp
    rw [hc]; exact h.request p (hreq hp)
  · intro p hp
    rw [hc, hsl]; exact h.filled p (hfil hp)
  · intro slot buf k hst
    rw [hsl]; exact href slot buf k hst

theorem StackPc.reading_slots (pc : StackPc) : ∀ p ∈ pc.reading, p.1 ∈ pc.slots := by
  cases pc <;> simp [StackPc.reading, StackPc.slots]

theorem AtPc.afterOk_request (k : ℕ) (r : TxReq) (uni : Bool) :
    (AtPc.afterOk k r uni).request ⊆ [(k, r)] := by
  cases uni <;> simp [AtPc.afterOk, AtPc.request]

theorem AtPc.afterOk_filled (k : ℕ) (r : TxReq) (uni : Bool) :
    (AtPc.afterOk k r uni).filled = [] := by
  cases uni <;> rfl

/-- Nobody else holds the slot that submit fills. -/
theorem SlotsOk.mine (h : SlotsOk s) (slot : Fin txSlots) (hat : s.at_.slots = [slot]) :
    slot ∉ s.sched.map Prod.fst ∧ slot ∉ s.stack.slots := by
  have hi := h slot
  simp only [State.holders, hat, List.count_append, List.count_cons_self] at hi
  rw [← List.count_eq_zero, ← List.count_eq_zero]
  split_ifs at hi <;> omega

theorem content_step (hsl : SlotsOk s) (h : Content s) (hr : Rule s s') : Content s' := by
  cases hr with
  | call hat =>
    refine ⟨fun p hp => ?_, fun p hp => getElem?_calls (h.filled p ?_), h.refused⟩
    · simp only [AtPc.request, List.mem_singleton] at hp
      simp [hp]
    · simpa [State.filled, AtPc.filled, hat] using hp
  | @store slot k r uni hat =>
    obtain ⟨hsched, hstack⟩ := hsl.mine slot (by rw [hat]; rfl)
    have hreq := h.request (k, r) (by simp [AtPc.request, hat])
    have hother : ∀ p ∈ s.sched ++ s.stack.reading, p.1 ≠ slot := by
      rintro p hp rfl
      rcases List.mem_append.mp hp with hp | hp
      · exact hsched (List.mem_map_of_mem hp)
      · exact hstack (StackPc.reading_slots _ _ hp)
    refine ⟨by simpa [AtPc.request] using hreq, ?_, ?_⟩
    · intro p hp
      simp only [State.filled, AtPc.filled, List.append_assoc, List.mem_append,
        List.mem_singleton] at hp
      rcases hp with rfl | hp
      · simpa using hreq
      · have hp := List.mem_append.mpr hp
        dsimp only
        rw [Function.update_of_ne (hother p hp)]
        exact h.filled p (by simpa [State.filled, AtPc.filled, hat] using hp)
    · intro slot' buf j hst
      dsimp only at hst ⊢
      have hne : slot' ≠ slot := hother (slot', j) (by
        rcases hst with hst | hst <;> simp [StackPc.reading, hst])
      rw [Function.update_of_ne hne]
      exact h.refused slot' buf j hst
  | queue hat =>
    refine h.keep ?_ ?_ h.refused rfl rfl
    · simpa [AtPc.request, hat] using AtPc.afterOk_request _ _ _
    · intro p hp
      simp only [State.filled, AtPc.afterOk_filled] at hp
      simpa [State.filled, AtPc.filled, hat, or_assoc, or_left_comm] using hp
  | noBuf hat =>
    refine h.keep ?_ ?_ h.refused rfl rfl
    · dsimp only; split_ifs <;> simp [AtPc.request]
    · dsimp only [State.filled]; split_ifs <;> simp [AtPc.filled]
  | txSend hst hsched hbuf =>
    refine h.keep (by simp) ?_ (by simp) rfl rfl
    intro p hp
    simp only [State.filled, StackPc.reading, hst, List.append_nil, List.mem_append,
      hsched.mem_iff, List.mem_cons] at hp ⊢
    tauto
  | refuse hst hack =>
    refine h.keep (by simp) ?_ ?_ rfl rfl
    · simp [State.filled, StackPc.reading, hst]
    · rintro _ _ _ (hst' | hst') <;> cases hst'
      exact hack
  | drop hst =>
    refine h.keep (by simp) ?_ ?_ rfl rfl
    · simp [State.filled, StackPc.reading, hst]
    · rintro _ _ _ (hst' | hst') <;> cases hst'
      exact h.refused _ _ _ (.inl hst)
  | taken hat | reserve hat | noSlot hat | tooMany hat | count hat | noCount hat | undoInc hat
  | undoCount hat | undoSlot hat | seqLine hat | seqOff hat =>
    refine h.keep ?_ ?_ h.refused rfl rfl
    · simp only [AtPc.request, hat, List.nil_subset, List.Subset.refl]
    · simp only [State.filled, AtPc.filled, hat, List.Subset.refl]
  | txDone hst | add hst | noAdd hst | pass hst | refusePlain hst | nack hst | free hst | clear hst
  | found hst | notFound hst | ack hst | doneFree hst =>
    refine h.keep (List.Subset.refl _) ?_ (fun _ _ _ hst' => by simp at hst') rfl rfl
    simp only [State.filled, StackPc.reading, hst, List.append_nil, List.Subset.refl,
      List.subset_append_left]

/-! ## The table -/

abbrev Entry := BufId × Bool × UInt8

def InFlight.entry (e : InFlight) : Option Entry :=
  if e.used then some (e.buf, e.quiet, e.seq) else none

/-- The used entries of the table. -/
def Table.entries (t : Table) : List Entry := slotEntries fun i => (t i).entry

theorem Table.usedCount_eq (t : Table) : t.usedCount = t.entries.length := by
  rw [entries, slotEntries, List.length_filterMap_eq_countP, usedCount]
  apply List.countP_congr
  intro i _
  cases hu : (t i).used <;> simp [InFlight.entry, hu]

theorem Table.exists_unused {t : Table} (h : t.usedCount < ucastInFlight) :
    ∃ i, (t i).used = false := by
  rw [t.usedCount_eq] at h
  obtain ⟨i, hi⟩ := exists_free h
  cases hu : (t i).used with
  | false => exact ⟨i, hu⟩
  | true => simp [InFlight.entry, hu] at hi

theorem Table.entries_update {t : Table} (i : Fin ucastInFlight) (e : InFlight) :
    entries (Function.update t i e) =
      slotEntries (Function.update (fun i => (t i).entry) i e.entry) := by
  apply congrArg slotEntries
  funext j
  by_cases hj : j = i
  · subst hj; simp
  · simp [hj]

/-- `in_flight_add` adds the entry, when one is free. -/
theorem inFlightAdd_entries {t : Table} (h : t.usedCount < ucastInFlight) (buf : BufId)
    (r : TxReq) : (inFlightAdd buf r t).entries.Perm ((buf, r.quiet, r.seq) :: t.entries) := by
  unfold inFlightAdd
  split
  case h_1 i hi =>
    have hu : (t i).used = false := by simpa using List.find?_some hi
    rw [Table.entries_update]
    exact slotEntries_set (by simp [InFlight.entry, hu]) _
  case h_2 hnone =>
    obtain ⟨i, hi⟩ := Table.exists_unused h
    have := List.find?_eq_none.mp hnone i (List.mem_finRange i)
    simp [hi] at this

theorem inFlightDrop_entries (buf : BufId) (t : Table) :
    (inFlightDrop buf t).entries = t.entries.filter fun e => e.1 != buf := by
  rw [Table.entries, Table.entries, ← slotEntries_keep]
  apply congrArg slotEntries
  funext i
  unfold inFlightDrop
  cases hu : (t i).used with
  | false => simp [InFlight.entry, hu]
  | true => by_cases hb : (t i).buf = buf <;> simp [InFlight.entry, Option.filter, hu, hb]

/-- `tx_done` removes the entry of its buffer. -/
theorem inFlightFind_entries {t : Table} {buf : BufId} {i : Fin ucastInFlight}
    (h : inFlightFind buf t = some i) : t.entries.Perm ((buf, (t i).quiet, (t i).seq) ::
      Table.entries (Function.update t i { t i with used := false })) := by
  have hi := List.find?_some h
  simp only [Bool.and_eq_true, beq_iff_eq] at hi
  rw [Table.entries_update]
  exact slotEntries_clear (by simp [InFlight.entry, hi.1, hi.2])

theorem inFlightFind_none {t : Table} {buf : BufId} (h : inFlightFind buf t = none) :
    ∀ e ∈ t.entries, e.1 ≠ buf := by
  intro e he
  obtain ⟨i, hi⟩ := mem_slotEntries.mp he
  have hno := List.find?_eq_none.mp h i (List.mem_finRange i)
  unfold InFlight.entry at hi
  split_ifs at hi with hu
  cases hi
  simpa [hu] using hno

/-- The entry that an acknowledged payload has. -/
def entryOf (calls : List TxReq) (p : BufId × ℕ) : Option Entry :=
  match calls[p.2]? with
  | some r => if r.ack then some (p.1, r.quiet, r.seq) else none
  | none => none

/-- The payload that is in the table while the stack thread runs. -/
def StackPc.tabled : StackPc → List (BufId × ℕ)
  | .pass _ buf k | .drop _ buf k | .done buf k _ => [(buf, k)]
  | _ => []

/-- The buffer that the stack thread uses. -/
def StackPc.live : StackPc → List (BufId × ℕ)
  | .add _ buf k | .pass _ buf k | .drop _ buf k | .done buf k _ => [(buf, k)]
  | _ => []

/-- The used entries are those of the acknowledged payloads. -/
structure Tabled (s : State) : Prop where
  entries : s.inFlight.entries.Perm ((s.stack.tabled ++ s.air).filterMap (entryOf s.calls))
  bufs : ((s.stack.live ++ s.air).map Prod.fst).Nodup
  known : ∀ p ∈ s.stack.live ++ s.air, p.2 < s.calls.length
  acking : ∀ buf k seq quiet acked, s.stack = .ack buf k seq quiet acked →
    ∃ r, s.calls[k]? = some r ∧ r.ack = true ∧ r.seq = seq

/-- What submit has added to `in_flight_count` for its request. -/
def AtPc.counted : AtPc → ℕ
  | .store _ _ r _ | .getBuf _ _ r _ => if r.ack then 1 else 0
  | .undoInc _ _ | .undoCount _ _ => 1
  | _ => 0

/-- What submit has added within the limit. -/
def AtPc.granted : AtPc → ℕ
  | .undoInc _ _ => 0
  | pc => pc.counted

structure Counted (s : State) : Prop where
  count : s.inFlightCount = s.inFlight.usedCount + s.waitingAcks + s.at_.counted
  bound : s.inFlight.usedCount + s.waitingAcks + s.at_.granted ≤ ucastInFlight

theorem entryOf_acked {calls : List TxReq} {k : ℕ} {r : TxReq} (hk : calls[k]? = some r)
    (hack : r.ack = true) (buf : BufId) : entryOf calls (buf, k) = some (buf, r.quiet, r.seq) := by
  simp [entryOf, hk, hack]

theorem entryOf_plain {calls : List TxReq} {k : ℕ} {r : TxReq} (hk : calls[k]? = some r)
    (hack : r.ack = false) (buf : BufId) : entryOf calls (buf, k) = none := by
  simp [entryOf, hk, hack]

theorem entryOf_eq_some {calls : List TxReq} {p : BufId × ℕ} {e : Entry}
    (h : entryOf calls p = some e) :
    ∃ r, calls[p.2]? = some r ∧ r.ack = true ∧ e = (p.1, r.quiet, r.seq) := by
  unfold entryOf at h
  cases hr : calls[p.2]? with
  | none =>
    rw [hr] at h
    cases h
  | some r =>
    rw [hr] at h
    dsimp only at h
    split_ifs at h with hack
    cases h
    exact ⟨r, rfl, hack, rfl⟩

theorem entryOf_append {calls : List TxReq} {p : BufId × ℕ} (h : p.2 < calls.length) (r : TxReq) :
    entryOf (calls ++ [r]) p = entryOf calls p := by
  rw [entryOf, entryOf, List.getElem?_append_left h]

/-- Payloads with other buffers have entries with other buffers. -/
theorem entries_other {calls : List TxReq} {l : List (BufId × ℕ)} {buf : BufId}
    (h : buf ∉ l.map Prod.fst) : ∀ e ∈ l.filterMap (entryOf calls), e.1 ≠ buf := by
  rintro e he rfl
  obtain ⟨p, hp, hpe⟩ := List.mem_filterMap.mp he
  obtain ⟨r, -, -, rfl⟩ := entryOf_eq_some hpe
  exact h (List.mem_map_of_mem hp)

theorem Tabled.keep (h : Tabled s) (ht : s'.inFlight = s.inFlight) (hc : s'.calls = s.calls)
    (htab : (s'.stack.tabled ++ s'.air).Perm (s.stack.tabled ++ s.air))
    (hlive : (s'.stack.live ++ s'.air).Perm (s.stack.live ++ s.air))
    (hack : ∀ buf k seq quiet acked, s'.stack = .ack buf k seq quiet acked →
      s.stack = .ack buf k seq quiet acked) : Tabled s' where
  entries := by
    rw [ht, hc]
    exact h.entries.trans (htab.filterMap _).symm
  bufs := (hlive.map Prod.fst).nodup_iff.mpr h.bufs
  known := by
    rw [hc]
    exact fun p hp => h.known p (hlive.mem_iff.mp hp)
  acking := by
    rw [hc]
    exact fun buf k seq quiet acked hst => h.acking _ _ _ _ _ (hack _ _ _ _ _ hst)

/-- The stack thread's payload beside those on the air. -/
theorem Tabled.split (h : Tabled s) (buf : BufId) (k : ℕ) (htab : s.stack.tabled = [(buf, k)])
    (hlive : s.stack.live = [(buf, k)]) :
    s.inFlight.entries.Perm ((entryOf s.calls (buf, k)).toList ++
      s.air.filterMap (entryOf s.calls)) ∧
    buf ∉ s.air.map Prod.fst ∧ (s.air.map Prod.fst).Nodup ∧ ∀ p ∈ s.air, p.2 < s.calls.length := by
  have hent := h.entries
  have hbufs := h.bufs
  have hkn := h.known
  rw [htab, List.filterMap_append] at hent
  rw [hlive, List.map_append, List.map_cons] at hbufs
  obtain ⟨hbuf, hair⟩ := List.nodup_cons.mp hbufs
  refine ⟨?_, hbuf, hair, fun p hp => hkn p (List.mem_append_right _ hp)⟩
  cases he : entryOf s.calls (buf, k) <;> simpa [List.filterMap_cons, he] using hent

/-- `tx_done` finds the entry of its payload. -/
theorem found_entry {t : Table} {calls : List TxReq} {air : List (BufId × ℕ)} {buf : BufId}
    {k : ℕ} {i : Fin ucastInFlight}
    (hent : t.entries.Perm ((entryOf calls (buf, k)).toList ++ air.filterMap (entryOf calls)))
    (hbuf : buf ∉ air.map Prod.fst) (hi : inFlightFind buf t = some i) :
    ∃ r, calls[k]? = some r ∧ r.ack = true ∧ r.quiet = (t i).quiet ∧ r.seq = (t i).seq ∧
      (Table.entries (Function.update t i { t i with used := false })).Perm
        (air.filterMap (entryOf calls)) := by
  have hp := (inFlightFind_entries hi).symm.trans hent
  have hmem := hp.subset List.mem_cons_self
  rcases List.mem_append.mp hmem with hm | hm
  · have he := Option.mem_toList.mp hm
    obtain ⟨r, hr, hack, heq⟩ := entryOf_eq_some he
    simp only [Prod.mk.injEq, true_and] at heq
    rw [Option.mem_def.mp he] at hp
    exact ⟨r, hr, hack, heq.1.symm, heq.2.symm, hp.cons_inv⟩
  · exact absurd rfl (entries_other hbuf _ hm)

theorem Content.known (h : Content s) {p : Fin txSlots × ℕ} (hp : p ∈ s.filled) :
    p.2 < s.calls.length :=
  (List.getElem?_eq_some_iff.mp (h.filled p hp)).1

theorem StackPc.tabled_live (pc : StackPc) : pc.tabled ⊆ pc.live := by
  cases pc <;> simp [StackPc.tabled, StackPc.live]

theorem Counted.room (hk : Counted s) {slot : Fin txSlots} {buf : BufId} {k : ℕ}
    (hst : s.stack = .add slot buf k) (hack : s.acked k = true) :
    s.inFlight.usedCount < ucastInFlight := by
  have hb := hk.bound
  have hpos : 0 < s.waitingAcks :=
    List.countP_pos_iff.mpr ⟨k, by simp [State.waiting, StackPc.adding, hst], hack⟩
  omega

theorem tabled_step (hc : Content s) (hk : Counted s) (h : Tabled s) (hr : Rule s s') :
    Tabled s' := by
  cases hr with
  | call hat =>
    refine ⟨?_, h.bufs, ?_, ?_⟩
    · refine h.entries.trans (List.Perm.of_eq (List.filterMap_congr fun p hp => ?_))
      refine (entryOf_append (h.known p ?_) _).symm
      exact List.append_subset.mpr ⟨fun _ hp => List.mem_append_left _ (StackPc.tabled_live _ hp),
        List.subset_append_right _ _⟩ hp
    · intro p hp
      exact Nat.lt_of_lt_of_le (h.known p hp) (by simp)
    · intro buf k seq quiet acked hst
      obtain ⟨r, hr, h1, h2⟩ := h.acking _ _ _ _ _ hst
      exact ⟨r, getElem?_calls hr, h1, h2⟩
  | @txSend slot buf k rest hst hsched hbuf =>
    have hfil : (slot, k) ∈ s.filled := by simp [State.filled, hsched.mem_iff]
    refine ⟨?_, ?_, ?_, fun _ _ _ _ _ hst' => (nomatch hst')⟩
    · simpa [StackPc.tabled, hst] using h.entries
    · have hb := h.bufs
      rw [hst] at hb
      simpa [StackPc.live, hbuf] using hb
    · have hkn := h.known
      rw [hst] at hkn
      simpa [StackPc.live, hc.known hfil] using hkn
  | txDone hst hair =>
    refine h.keep rfl rfl ?_ ?_ fun _ _ _ _ _ hst' => (nomatch hst')
    · simpa [StackPc.tabled, hst] using hair.symm
    · simpa [StackPc.live, hst] using hair.symm
  | @add slot buf k hst hack =>
    have hreq := hc.filled (slot, k) (by simp [State.filled, StackPc.reading, hst])
    have hroom := hk.room hst (by simpa [State.acked, hreq] using hack)
    refine ⟨?_, ?_, ?_, fun _ _ _ _ _ hst' => (nomatch hst')⟩
    · apply (inFlightAdd_entries hroom buf _).trans
      dsimp only [StackPc.tabled, List.cons_append, List.nil_append]
      rw [List.filterMap_cons_some (entryOf_acked hreq hack buf)]
      simpa [StackPc.tabled, hst] using h.entries
    · simpa [StackPc.live, hst] using h.bufs
    · simpa [StackPc.live, hst] using h.known
  | @noAdd slot buf k hst hack =>
    have hreq := hc.filled (slot, k) (by simp [State.filled, StackPc.reading, hst])
    refine ⟨?_, ?_, ?_, fun _ _ _ _ _ hst' => (nomatch hst')⟩
    · dsimp only [StackPc.tabled, List.cons_append, List.nil_append]
      rw [List.filterMap_cons_none (entryOf_plain hreq hack buf)]
      simpa [StackPc.tabled, hst] using h.entries
    · simpa [StackPc.live, hst] using h.bufs
    · simpa [StackPc.live, hst] using h.known
  | @pass slot buf k hst =>
    refine h.keep rfl rfl ?_ ?_ fun _ _ _ _ _ hst' => (nomatch hst')
    · simp [StackPc.tabled, hst]
    · simp [StackPc.live, hst]
  | @refusePlain slot buf k hst hack =>
    have hreq := hc.filled (slot, k) (by simp [State.filled, StackPc.reading, hst])
    obtain ⟨hent, -, hair, hkn⟩ := h.split buf k (by simp [StackPc.tabled, hst])
      (by simp [StackPc.live, hst])
    rw [entryOf_plain hreq hack buf] at hent
    exact ⟨hent, hair, hkn, fun _ _ _ _ _ hst' => (nomatch hst')⟩
  | @drop slot buf k hst =>
    obtain ⟨hent, hbuf, hair, hkn⟩ := h.split buf k (by simp [StackPc.tabled, hst])
      (by simp [StackPc.live, hst])
    refine ⟨?_, hair, hkn, fun _ _ _ _ _ hst' => (nomatch hst')⟩
    have hother : ∀ e ∈ s.air.filterMap (entryOf s.calls), e.1 ≠ buf := entries_other hbuf
    have hmine : ∀ e ∈ (entryOf s.calls (buf, k)).toList, e.1 = buf := fun e he => by
      obtain ⟨r, -, -, rfl⟩ := entryOf_eq_some (Option.mem_toList.mp he)
      rfl
    dsimp only
    rw [inFlightDrop_entries]
    refine (hent.filter _).trans (List.Perm.of_eq ?_)
    rw [List.filter_append, List.filter_eq_nil_iff.mpr fun e he => by simp [hmine e he],
      List.filter_eq_self.mpr fun e he => by simp [hother e he]]
    rfl
  | @found buf k acked i hst hi =>
    obtain ⟨hent, hbuf, hair, hkn⟩ := h.split buf k (by simp [StackPc.tabled, hst])
      (by simp [StackPc.live, hst])
    obtain ⟨r, hr, hack, hq, hs, hrest⟩ := found_entry hent hbuf hi
    refine ⟨hrest, hair, hkn, ?_⟩
    intro _ _ _ _ _ hst'
    cases hst'
    exact ⟨r, hr, hack, hs⟩
  | @notFound buf k acked hst hnone =>
    obtain ⟨hent, hbuf, hair, hkn⟩ := h.split buf k (by simp [StackPc.tabled, hst])
      (by simp [StackPc.live, hst])
    refine ⟨?_, hair, hkn, fun _ _ _ _ _ hst' => (nomatch hst')⟩
    cases he : entryOf s.calls (buf, k) with
    | none => rwa [he] at hent
    | some e =>
      obtain ⟨r, -, -, rfl⟩ := entryOf_eq_some he
      have hmem := hent.mem_iff.mpr (List.mem_append_left _ (Option.mem_toList.mpr he))
      exact absurd rfl (inFlightFind_none hnone _ hmem)
  | refuse hst | nack hst | free hst | clear hst | ack hst | doneFree hst =>
    refine h.keep rfl rfl ?_ ?_ fun _ _ _ _ _ hst' => (nomatch hst')
    · simp only [StackPc.tabled, hst, List.Perm.refl]
    · simp only [StackPc.live, hst, List.Perm.refl]
  | _ => exact h.keep rfl rfl (.refl _) (.refl _) fun _ _ _ _ _ hst => hst

/-! ## The counter -/

theorem Counted.keep (h : Counted s) (ht : s'.inFlight = s.inFlight)
    (hw : s'.waitingAcks = s.waitingAcks)
    (hat : s'.at_.granted ≤ s.at_.granted)
    (hc : s'.inFlightCount - s'.at_.counted = s.inFlightCount - s.at_.counted) : Counted s' := by
  have h1 := h.count
  have h2 := h.bound
  refine ⟨?_, ?_⟩
  · rw [ht, hw]; omega
  · rw [ht, hw]; omega

theorem Counted.of (used waiting counted granted : ℕ) (hu : s'.inFlight.usedCount = used)
    (hw : s'.waitingAcks = waiting) (hc : s'.at_.counted = counted)
    (hg : s'.at_.granted = granted) (hcount : s'.inFlightCount = used + waiting + counted)
    (hbound : used + waiting + granted ≤ ucastInFlight) : Counted s' :=
  ⟨by rw [hu, hw, hc, hcount], by rw [hu, hw, hg]; exact hbound⟩

theorem AtPc.afterOk_counted (k : ℕ) (r : TxReq) (uni : Bool) :
    (AtPc.afterOk k r uni).counted = 0 ∧ (AtPc.afterOk k r uni).granted = 0 := by
  cases uni <;> exact ⟨rfl, rfl⟩

theorem acked_of {calls : List TxReq} {k : ℕ} {r : TxReq} (h : calls[k]? = some r) :
    calls[k]?.elim false TxReq.ack = r.ack := by
  rw [h]; rfl

theorem waiting_filled (s : State) : s.waiting ⊆ s.filled.map Prod.snd := by
  intro k hk
  rcases List.mem_append.mp hk with hk | hk
  · cases hst : s.stack <;> simp [StackPc.adding, hst] at hk
    simp [State.filled, StackPc.reading, hst, hk]
  · simp only [State.filled, List.map_append, List.mem_append]
    exact .inl (.inr hk)

/-- The stack thread's entry beside those of the payloads on the air. -/
theorem Tabled.usedCount_split (h : Tabled s) {buf : BufId} {k : ℕ} {r : TxReq}
    (htab : s.stack.tabled = [(buf, k)]) (hlive : s.stack.live = [(buf, k)])
    (hr : s.calls[k]? = some r) (hack : r.ack = true) :
    s.inFlight.usedCount = (s.air.filterMap (entryOf s.calls)).length + 1 := by
  have hp := (h.split buf k htab hlive).1
  rw [entryOf_acked hr hack buf] at hp
  rw [Table.usedCount_eq, hp.length_eq]
  simp [Nat.add_comm]

theorem counted_step (hc : Content s) (ht : Tabled s) (ht' : Tabled s') (h : Counted s)
    (hr : Rule s s') : Counted s' := by
  have hcount := h.count
  have hbound := h.bound
  cases hr with
  | @call r uni n hat =>
    refine h.keep rfl (List.countP_congr fun k hk => ?_) ?_ ?_
    · obtain ⟨p, hp, rfl⟩ := List.mem_map.mp (waiting_filled s hk)
      simp only [State.acked, List.getElem?_append_left (hc.known hp)]
    · simp [AtPc.granted, AtPc.counted]
    · simp [AtPc.counted, hat]
  | @count slot k r uni hat hack hlt =>
    simp only [hat, AtPc.counted, AtPc.granted] at hcount hbound
    have hone : (AtPc.store slot k r uni).counted = 1 := by simp [AtPc.counted, hack]
    exact .of s.inFlight.usedCount s.waitingAcks 1 1 rfl rfl hone hone (by dsimp only; omega)
      (by omega)
  | @queue slot k r uni hat =>
    have hreq := hc.request (k, r) (by simp [AtPc.request, hat])
    have hg : s.at_.granted = s.at_.counted := by rw [hat]; rfl
    have hw : (s.stack.adding ++ (s.sched ++ [(slot, k)]).map Prod.snd).countP s.acked =
        s.waitingAcks + s.at_.counted := by
      rw [List.map_append, ← List.append_assoc, List.countP_append, hat]
      simp [AtPc.counted, State.acked, acked_of hreq, State.waitingAcks, State.waiting]
    exact .of s.inFlight.usedCount (s.waitingAcks + s.at_.counted) 0 0 rfl hw
      (AtPc.afterOk_counted k r uni).1 (AtPc.afterOk_counted k r uni).2
      (by dsimp only; omega) (by omega)
  | @noBuf slot k r uni hat =>
    refine h.keep rfl rfl ?_ ?_
    · cases hack : r.ack <;> simp [AtPc.granted, AtPc.counted, hat, hack]
    · cases hack : r.ack <;> simp [AtPc.counted, hat, hack]
  | txSend hst hsched hbuf =>
    refine h.keep rfl ?_ le_rfl rfl
    have hp := (hsched.map Prod.snd).countP_eq s.acked
    simp only [State.waitingAcks, State.waiting, hst]
    exact hp.symm
  | @add slot buf k hst hack =>
    have hreq := hc.filled (slot, k) (by simp [State.filled, StackPc.reading, hst])
    have hak : s.acked k = true := by simpa [State.acked, hreq] using hack
    have hu := (inFlightAdd_entries (h.room hst hak) buf (s.slots slot)).length_eq
    rw [List.length_cons, ← Table.usedCount_eq, ← Table.usedCount_eq] at hu
    have hw : s.waitingAcks = (s.sched.map Prod.snd).countP s.acked + 1 := by
      simp [State.waitingAcks, State.waiting, StackPc.adding, hst, hak]
    exact .of (s.inFlight.usedCount + 1) ((s.sched.map Prod.snd).countP s.acked) s.at_.counted
      s.at_.granted hu rfl rfl rfl (by dsimp only; omega) (by omega)
  | @noAdd slot buf k hst hack =>
    have hreq := hc.filled (slot, k) (by simp [State.filled, StackPc.reading, hst])
    have hak : s.acked k = false := by simpa [State.acked, hreq] using hack
    refine h.keep rfl ?_ le_rfl rfl
    simp only [State.waitingAcks, State.waiting, StackPc.adding, hst, List.cons_append,
      List.nil_append, List.countP_cons, hak]
    rfl
  | @drop slot buf k hst =>
    have hreq := hc.filled (slot, k) (by simp [State.filled, StackPc.reading, hst])
    have hu := ht.usedCount_split (by rw [hst]; rfl) (by rw [hst]; rfl) hreq
      (hc.refused _ _ _ (.inl hst))
    have hu' : (inFlightDrop buf s.inFlight).usedCount =
        (s.air.filterMap (entryOf s.calls)).length :=
      (Table.usedCount_eq _).trans ht'.entries.length_eq
    have hw : s.waitingAcks = (s.sched.map Prod.snd).countP s.acked := by
      simp [State.waitingAcks, State.waiting, StackPc.adding, hst]
    exact .of _ ((s.sched.map Prod.snd).countP s.acked) s.at_.counted s.at_.granted hu' rfl rfl rfl
      (by dsimp only; omega) (by omega)
  | @found buf k acked i hst hi =>
    obtain ⟨r, hr, hack, -⟩ := ht'.acking _ _ _ _ _ rfl
    have hu := ht.usedCount_split (by rw [hst]; rfl) (by rw [hst]; rfl) hr hack
    have hu' : Table.usedCount (Function.update s.inFlight i { s.inFlight i with used := false }) =
        (s.air.filterMap (entryOf s.calls)).length :=
      (Table.usedCount_eq _).trans ht'.entries.length_eq
    have hw : s.waitingAcks = (s.sched.map Prod.snd).countP s.acked := by
      simp [State.waitingAcks, State.waiting, StackPc.adding, hst]
    exact .of _ ((s.sched.map Prod.snd).countP s.acked) s.at_.counted s.at_.granted hu' rfl rfl rfl
      (by dsimp only; omega) (by omega)
  | taken hat | reserve hat | noSlot hat | tooMany hat | noCount hat hack | undoInc hat
  | store hat | undoCount hat | undoSlot hat | seqLine hat | seqOff hat =>
    refine h.keep rfl rfl ?_ ?_
    · simp [AtPc.granted, AtPc.counted, *]
    · simp [AtPc.counted, *]
  | txDone hst | pass hst | refuse hst | refusePlain hst | nack hst | free hst | clear hst
  | notFound hst | ack hst | doneFree hst =>
    refine h.keep rfl ?_ le_rfl rfl
    simp only [State.waitingAcks, State.waiting, StackPc.adding, hst]
    rfl

structure Inv (s : State) : Prop where
  slots : SlotsOk s
  content : Content s
  tabled : Tabled s
  counted : Counted s

theorem inv_init : Inv init where
  slots := fun _ => rfl
  content := by
    refine ⟨?_, ?_, ?_⟩ <;> simp [init, State.filled, AtPc.request, AtPc.filled, StackPc.reading]
  tabled := by
    refine ⟨List.Perm.of_eq (by decide), ?_, ?_, ?_⟩ <;> simp [init, StackPc.live]
  counted := ⟨by decide, by decide⟩

theorem inv_step (h : Inv s) (hr : Rule s s') : Inv s' :=
  have ht' := tabled_step h.content h.counted h.tabled hr
  ⟨slots_step h.slots hr, content_step h.slots h.content hr, ht',
    counted_step h.content h.tabled ht' h.counted hr⟩

theorem inv_reach (h : machine.Reach s) : Inv s :=
  h.invariant Inv (fun _ h0 => by cases h0; exact inv_init) fun _ _ _ h _ hs =>
    inv_step h (step_rule hs)

/-! ## The log -/

/-- The results that submit returned for the call `k`. -/
def returnedOf (k : ℕ) (log : List Ev) : List ℕ :=
  log.filterMap fun
    | .returned j result => if j = k then some result else none
    | _ => none

/-- The ends of `tx_send` with a refused payload and of `tx_done` for the call `k`. -/
def endedOf (k : ℕ) (log : List Ev) : List ℕ :=
  log.filterMap fun
    | .sendFailed j | .txDone j => if j = k then some j else none
    | _ => none

/-- The call whose submit runs. -/
def AtPc.running : AtPc → List ℕ
  | .scan _ k _ _ | .inc _ k _ _ | .undoInc _ k | .store _ k _ _ | .getBuf _ k _ _
  | .undoCount _ k | .undoSlot _ k _ => [k]
  | _ => []

/-- The call that the stack thread reports, if at all. -/
def StackPc.unreported : StackPc → List ℕ
  | .add _ _ k | .pass _ _ k | .drop _ _ k | .nack _ _ k | .done _ k _ | .ack _ k _ _ _ => [k]
  | _ => []

/-- The call that the stack thread works on. -/
def StackPc.unfinished : StackPc → List ℕ
  | .free _ _ k | .doneFree _ k => [k]
  | pc => pc.unreported

/-- The accepted calls without a report. -/
def State.unreported (s : State) : List ℕ :=
  s.stack.unreported ++ s.sched.map Prod.snd ++ s.air.map Prod.snd

/-- The accepted calls whose `tx_send` or `tx_done` is still to end. -/
def State.unfinished (s : State) : List ℕ :=
  s.stack.unfinished ++ s.sched.map Prod.snd ++ s.air.map Prod.snd

/-- Every call returns once. -/
structure Returned (s : State) : Prop where
  once : ∀ k, (returnedOf k s.log).length + s.at_.running.count k =
    if k < s.calls.length then 1 else 0
  refused : ∀ slot k err, s.at_ = .undoSlot slot k err → err ≠ atOk

/-- How often submit accepted the call `k`. -/
def acceptedOf (k : ℕ) (log : List Ev) : ℕ := (returnedOf k log).count atOk

/-- What happened to the call `k` accounts for its acceptance. -/
structure Ledger (s : State) : Prop where
  sent : ∀ k, (passedOf k s.log).length + s.unsent.count k = acceptedOf k s.log
  passed : ∀ k, ∀ r ∈ passedOf k s.log, s.calls[k]? = some r
  reported : ∀ k, s.acked k = true →
    (reportsOf k s.log).length + s.unreported.count k = acceptedOf k s.log
  seqs : ∀ k, ∀ seq ∈ reportsOf k s.log, ∃ r, s.calls[k]? = some r ∧ r.ack = true ∧ r.seq = seq
  ended : ∀ k, (endedOf k s.log).length + s.unfinished.count k = acceptedOf k s.log

section
variable (k : ℕ) (log evs : List Ev)

@[simp] theorem passedOf_append : passedOf k (log ++ evs) = passedOf k log ++ passedOf k evs :=
  List.filterMap_append

@[simp] theorem reportsOf_append :
    reportsOf k (log ++ evs) = reportsOf k log ++ reportsOf k evs :=
  List.filterMap_append

@[simp] theorem returnedOf_append :
    returnedOf k (log ++ evs) = returnedOf k log ++ returnedOf k evs :=
  List.filterMap_append

@[simp] theorem endedOf_append : endedOf k (log ++ evs) = endedOf k log ++ endedOf k evs :=
  List.filterMap_append

end

theorem AtPc.afterOk_running (k : ℕ) (r : TxReq) (uni : Bool) :
    (AtPc.afterOk k r uni).running = [] := by
  cases uni <;> rfl

theorem Returned.keep (h : Returned s) (hc : s'.calls = s.calls) {evs : List Ev}
    (hlog : s'.log = s.log ++ evs)
    (hk : ∀ k, (returnedOf k evs).length + s'.at_.running.count k = s.at_.running.count k)
    (href : ∀ slot k err, s'.at_ = .undoSlot slot k err → err ≠ atOk) : Returned s' := by
  refine ⟨?_, href⟩
  intro k
  rw [hlog, hc]
  exact account_step (d := 0) (returnedOf_append k) (h.once k) (hk k)

/-- The call that runs returns. -/
theorem returnedOf_self (k j result : ℕ) :
    (returnedOf k [.returned j result]).length = [j].count k := by
  by_cases hj : j = k <;> simp [returnedOf, hj]

theorem returned_step (h : Returned s) (hr : Rule s s') : Returned s' := by
  have hnil : s.log = s.log ++ [] := (List.append_nil _).symm
  cases hr with
  | call hat =>
    refine ⟨?_, fun _ _ _ hat' => (nomatch hat')⟩
    intro k
    have hk := h.once k
    rw [hat] at hk
    rw [List.length_append, List.length_singleton, made_succ, ← hk]
    rfl
  | noSlot hat | undoSlot hat =>
    refine h.keep rfl rfl ?_ fun _ _ _ hat' => (nomatch hat')
    intro k
    rw [returnedOf_self, hat]
    rfl
  | @queue slot k r uni hat =>
    refine h.keep rfl rfl ?_ ?_
    · intro j
      have hret : (returnedOf j [.queued k, .returned k atOk]).length = [k].count j :=
        returnedOf_self j k atOk
      rw [hret, AtPc.afterOk_running, hat]
      rfl
    · intro _ _ _ hat'
      cases uni <;> exact (nomatch hat')
  | @noBuf slot k r uni hat =>
    refine h.keep rfl hnil ?_ ?_
    · intro j
      cases hack : r.ack <;> simp [returnedOf, AtPc.running, hat]
    · intro _ _ _ hat'
      cases hack : r.ack <;> simp [hack] at hat'
      exact hat'.2.2 ▸ by decide
  | undoInc hat | undoCount hat =>
    refine h.keep rfl hnil ?_ ?_
    · intro k
      rw [hat]
      exact Nat.zero_add _
    · intro _ _ _ hat'
      cases hat'
      decide
  | taken hat | reserve hat | tooMany hat | count hat | noCount hat | store hat | seqOff hat =>
    refine h.keep rfl hnil ?_ fun _ _ _ hat' => (nomatch hat')
    intro k
    rw [hat]
    exact Nat.zero_add _
  | seqLine hat =>
    refine h.keep rfl rfl ?_ fun _ _ _ hat' => (nomatch hat')
    intro k
    rw [hat]
    rfl
  | pass hst | refuse hst | refusePlain hst | nack hst | free hst | ack hst | doneFree hst =>
    exact h.keep rfl rfl (fun _ => Nat.zero_add _) h.refused
  | _ => exact h.keep rfl hnil (fun _ => Nat.zero_add _) h.refused

@[simp] theorem acceptedOf_append (k : ℕ) (log evs : List Ev) :
    acceptedOf k (log ++ evs) = acceptedOf k log + acceptedOf k evs := by
  simp [acceptedOf, List.count_append]

/-- A refusal accepts nothing. -/
theorem acceptedOf_refused (k j : ℕ) {result : ℕ} (h : result ≠ atOk) :
    acceptedOf k [.returned j result] = 0 := by
  by_cases hj : j = k <;> simp [acceptedOf, returnedOf, hj, h]

theorem noBuffers_ne : atErrNoBuffers ≠ atOk := by decide

theorem acceptedOf_queue (k j : ℕ) :
    acceptedOf k [.queued j, .returned j atOk] = [j].count k := by
  by_cases hj : j = k <;> simp [acceptedOf, returnedOf, hj]

/-- The call whose payload is handed over. -/
theorem passedOf_self (k j : ℕ) (r : TxReq) (ok : Bool) :
    (passedOf k [.passed j r ok]).length = [j].count k := by
  by_cases hj : j = k <;> simp [passedOf, hj]

theorem reportsOf_self (k j : ℕ) (seq : UInt8) (acked : Bool) (line : Option Line) :
    (reportsOf k [.reported j seq acked line]).length = [j].count k := by
  by_cases hj : j = k <;> simp [reportsOf, hj]

theorem endedOf_self (k j : ℕ) :
    (endedOf k [.sendFailed j]).length = [j].count k ∧
      (endedOf k [.txDone j]).length = [j].count k := by
  by_cases hj : j = k <;> simp [endedOf, hj]

section Account
variable {α : Type*} {f : List Ev → List α} {log evs : List Ev} {held held' : List ℕ} {k : ℕ}

/-- `account_step` for what is due once a call was accepted. -/
theorem account_accepted (hf : ∀ a b, f (a ++ b) = f a ++ f b)
    (h : (f log).length + held.count k = acceptedOf k log)
    (hstep : (f evs).length + held'.count k = held.count k + acceptedOf k evs) :
    (f (log ++ evs)).length + held'.count k = acceptedOf k (log ++ evs) := by
  rw [acceptedOf_append]
  exact account_step hf h hstep

/-- The step logs something else. -/
theorem account_other (hf : ∀ a b, f (a ++ b) = f a ++ f b)
    (h : (f log).length + held.count k = acceptedOf k log) (hevs : f evs = [])
    (hacc : acceptedOf k evs = 0) (hheld : held'.count k = held.count k) :
    (f (log ++ evs)).length + held'.count k = acceptedOf k (log ++ evs) := by
  apply account_accepted hf h
  rw [hevs, hacc, hheld]
  exact Nat.zero_add _

/-- The step takes the call on. -/
theorem account_accept {j : ℕ} (hf : ∀ a b, f (a ++ b) = f a ++ f b)
    (h : (f log).length + held.count k = acceptedOf k log)
    (hevs : f [.queued j, .returned j atOk] = [])
    (hheld : held'.count k = held.count k + [j].count k) :
    (f (log ++ [.queued j, .returned j atOk])).length + held'.count k =
      acceptedOf k (log ++ [.queued j, .returned j atOk]) := by
  apply account_accepted hf h
  rw [hevs, acceptedOf_queue, hheld]
  exact Nat.zero_add _

/-- The step logs the entry that was held. -/
theorem account_settle {j : ℕ} (hf : ∀ a b, f (a ++ b) = f a ++ f b)
    (h : (f log).length + held.count k = acceptedOf k log)
    (hevs : (f evs).length = [j].count k) (hacc : acceptedOf k evs = 0)
    (hheld : held.count k = (j :: held').count k) :
    (f (log ++ evs)).length + held'.count k = acceptedOf k (log ++ evs) := by
  apply account_accepted hf h
  rw [hevs, hacc, hheld, ← List.count_append]
  rfl

end Account

theorem sent_step (hret : Returned s) (h : Ledger s) (hr : Rule s s') (k : ℕ) :
    (passedOf k s'.log).length + s'.unsent.count k = acceptedOf k s'.log := by
  have hk := h.sent k
  cases hr with
  | noSlot hat =>
    exact account_other (passedOf_append k) hk rfl (acceptedOf_refused _ _ noBuffers_ne) rfl
  | undoSlot hat =>
    exact account_other (passedOf_append k) hk rfl
      (acceptedOf_refused _ _ (hret.refused _ _ _ hat)) rfl
  | seqLine hat => exact account_other (passedOf_append k) hk rfl rfl rfl
  | queue hat =>
    apply account_accept (passedOf_append k) hk rfl
    simp only [State.unsent, List.map_append, List.map_cons, List.map_nil, List.count_append,
      Nat.add_assoc]
  | txSend hst hsched hbuf =>
    have hp := (hsched.map Prod.snd).count_eq k
    rw [State.unsent, hst] at hk
    rw [← hk]
    exact congrArg _ hp.symm
  | pass hst | refuse hst hack | refusePlain hst hack =>
    apply account_settle (passedOf_append k) hk (passedOf_self ..) rfl
    rw [State.unsent, hst]
    rfl
  | nack hst | free hst | ack hst | doneFree hst =>
    apply account_other (passedOf_append k) hk rfl rfl
    rw [State.unsent, State.unsent, hst]
    rfl
  | txDone hst | add hst | noAdd hst | drop hst | clear hst | found hst | notFound hst =>
    rw [State.unsent, hst] at hk
    exact hk
  | _ => exact hk

theorem StackPc.unreported_le (pc : StackPc) (k : ℕ) :
    pc.unreported.count k ≤ pc.unfinished.count k := by
  cases pc <;> simp [StackPc.unreported, StackPc.unfinished]

theorem State.unreported_le (s : State) (k : ℕ) : s.unreported.count k ≤ s.unfinished.count k := by
  have := s.stack.unreported_le k
  simp only [State.unreported, State.unfinished, List.count_append]
  omega

/-- Nothing is known of a call that was not made yet. -/
theorem Ledger.unknown (h : Ledger s) (hret : Returned s) {k : ℕ} (hk : s.calls.length ≤ k) :
    acceptedOf k s.log = 0 ∧ s.unreported.count k = 0 ∧ reportsOf k s.log = [] := by
  have honce := hret.once k
  rw [if_neg (by omega)] at honce
  have hacc : acceptedOf k s.log = 0 :=
    Nat.le_zero.mp (List.count_le_length.trans (by omega))
  have hended := h.ended k
  have hle := s.unreported_le k
  refine ⟨hacc, by omega, List.eq_nil_iff_forall_not_mem.mpr ?_⟩
  intro seq hseq
  obtain ⟨r, hr, -⟩ := h.seqs k seq hseq
  have := (List.getElem?_eq_some_iff.mp hr).1
  omega

/-- `tx_done` does not miss the entry of an acknowledged payload. -/
theorem Tabled.not_missed (h : Tabled s) {buf : BufId} {k : ℕ} {acked : Bool}
    (hst : s.stack = .done buf k acked) (hnone : inFlightFind buf s.inFlight = none) :
    s.acked k = false := by
  have hent := (h.split buf k (by rw [hst]; rfl) (by rw [hst]; rfl)).1
  cases hreq : s.calls[k]? with
  | none => simp [State.acked, hreq]
  | some r =>
    cases hack : r.ack with
    | false => rw [State.acked, acked_of hreq, hack]
    | true =>
      rw [entryOf_acked hreq hack] at hent
      exact absurd rfl (inFlightFind_none hnone _ (hent.mem_iff.mpr List.mem_cons_self))

theorem reported_step (hinv : Inv s) (hret : Returned s) (h : Ledger s) (hr : Rule s s') (k : ℕ)
    (hack' : s'.acked k = true) :
    (reportsOf k s'.log).length + s'.unreported.count k = acceptedOf k s'.log := by
  cases hr with
  | call hat =>
    by_cases hlt : k < s.calls.length
    · apply h.reported k
      simpa [State.acked, List.getElem?_append_left hlt] using hack'
    · obtain ⟨hacc, hun, hrep⟩ := h.unknown hret (Nat.le_of_not_lt hlt)
      exact (congrArg₂ (fun a b => a + b) (congrArg List.length hrep) hun).trans hacc.symm
  | noSlot hat =>
    exact account_other (reportsOf_append k) (h.reported k hack') rfl
      (acceptedOf_refused _ _ noBuffers_ne) rfl
  | undoSlot hat =>
    exact account_other (reportsOf_append k) (h.reported k hack') rfl
      (acceptedOf_refused _ _ (hret.refused _ _ _ hat)) rfl
  | seqLine hat => exact account_other (reportsOf_append k) (h.reported k hack') rfl rfl rfl
  | queue hat =>
    apply account_accept (reportsOf_append k) (h.reported k hack') rfl
    simp only [State.unreported, List.map_append, List.map_cons, List.map_nil, List.count_append]
    omega
  | txSend hst hsched hbuf =>
    have hp := (hsched.map Prod.snd).count_eq k
    rw [← h.reported k hack']
    simp only [State.unreported, StackPc.unreported, hst, List.map_cons, List.count_append,
      List.count_cons, List.count_nil] at hp ⊢
    omega
  | txDone hst hair =>
    have hp := (hair.map Prod.snd).count_eq k
    rw [← h.reported k hack']
    simp only [State.unreported, StackPc.unreported, hst, List.map_cons, List.count_append,
      List.count_cons, List.count_nil] at hp ⊢
    omega
  | pass hst =>
    apply account_other (reportsOf_append k) (h.reported k hack') rfl rfl
    simp only [State.unreported, StackPc.unreported, hst, List.map_append, List.map_cons,
      List.map_nil, List.count_append, List.count_nil]
    omega
  | refuse hst hack | free hst | doneFree hst =>
    apply account_other (reportsOf_append k) (h.reported k hack') rfl rfl
    rw [State.unreported, State.unreported, hst]
    rfl
  | @refusePlain slot buf j hst hack =>
    have hreq := hinv.content.filled (slot, j) (by simp [State.filled, StackPc.reading, hst])
    have hne : k ≠ j := by
      rintro rfl
      simp [State.acked, acked_of hreq, hack] at hack'
    apply account_other (reportsOf_append k) (h.reported k hack') rfl rfl
    rw [State.unreported, State.unreported, hst]
    exact (List.count_cons_of_ne hne.symm).symm
  | @notFound buf j acked hst hnone =>
    have hne : k ≠ j := by
      rintro rfl
      exact Bool.false_ne_true ((hinv.tabled.not_missed hst hnone).symm.trans hack')
    rw [← h.reported k hack', State.unreported, State.unreported, hst]
    exact congrArg _ (List.count_cons_of_ne hne.symm).symm
  | nack hst | ack hst =>
    apply account_settle (reportsOf_append k) (h.reported k hack') (reportsOf_self ..) rfl
    rw [State.unreported, hst]
    rfl
  | add hst | noAdd hst | drop hst | clear hst | found hst =>
    have hk := h.reported k hack'
    rw [State.unreported, hst] at hk
    exact hk
  | _ => exact h.reported k hack'

theorem ended_step (hret : Returned s) (h : Ledger s) (hr : Rule s s') (k : ℕ) :
    (endedOf k s'.log).length + s'.unfinished.count k = acceptedOf k s'.log := by
  have hk := h.ended k
  cases hr with
  | noSlot hat =>
    exact account_other (endedOf_append k) hk rfl (acceptedOf_refused _ _ noBuffers_ne) rfl
  | undoSlot hat =>
    exact account_other (endedOf_append k) hk rfl
      (acceptedOf_refused _ _ (hret.refused _ _ _ hat)) rfl
  | seqLine hat => exact account_other (endedOf_append k) hk rfl rfl rfl
  | queue hat =>
    apply account_accept (endedOf_append k) hk rfl
    simp only [State.unfinished, List.map_append, List.map_cons, List.map_nil, List.count_append]
    omega
  | txSend hst hsched hbuf =>
    have hp := (hsched.map Prod.snd).count_eq k
    rw [← hk]
    simp only [State.unfinished, StackPc.unfinished, StackPc.unreported, hst, List.map_cons,
      List.count_append, List.count_cons, List.count_nil] at hp ⊢
    omega
  | txDone hst hair =>
    have hp := (hair.map Prod.snd).count_eq k
    rw [← hk]
    simp only [State.unfinished, StackPc.unfinished, StackPc.unreported, hst, List.map_cons,
      List.count_append, List.count_cons, List.count_nil] at hp ⊢
    omega
  | pass hst =>
    apply account_other (endedOf_append k) hk rfl rfl
    simp only [State.unfinished, StackPc.unfinished, StackPc.unreported, hst, List.map_append,
      List.map_cons, List.map_nil, List.count_append, List.count_nil]
    omega
  | refuse hst | refusePlain hst | nack hst | ack hst =>
    apply account_other (endedOf_append k) hk rfl rfl
    rw [State.unfinished, State.unfinished, hst]
    rfl
  | free hst =>
    apply account_settle (endedOf_append k) hk (endedOf_self k _).1 rfl
    rw [State.unfinished, hst]
    rfl
  | doneFree hst =>
    apply account_settle (endedOf_append k) hk (endedOf_self k _).2 rfl
    rw [State.unfinished, hst]
    rfl
  | add hst | noAdd hst | drop hst | clear hst | found hst | notFound hst =>
    rw [State.unfinished, hst] at hk
    exact hk
  | _ => exact hk

theorem mem_passedOf {k : ℕ} {r : TxReq} {log : List Ev} :
    r ∈ passedOf k log ↔ ∃ ok, .passed k r ok ∈ log := by
  simp only [passedOf, List.mem_filterMap]
  constructor
  · rintro ⟨ev, hev, hr⟩
    cases ev <;> simp at hr
    exact ⟨_, hr.1 ▸ hr.2 ▸ hev⟩
  · rintro ⟨ok, hev⟩
    exact ⟨_, hev, by simp⟩

theorem mem_reportsOf {k : ℕ} {seq : UInt8} {log : List Ev} :
    seq ∈ reportsOf k log ↔ ∃ acked line, .reported k seq acked line ∈ log := by
  simp only [reportsOf, List.mem_filterMap]
  constructor
  · rintro ⟨ev, hev, hr⟩
    cases ev <;> simp at hr
    exact ⟨_, _, hr.1 ▸ hr.2 ▸ hev⟩
  · rintro ⟨acked, line, hev⟩
    exact ⟨_, hev, by simp⟩

theorem passed_step (hinv : Inv s) (h : Ledger s) (hr : Rule s s') (k : ℕ) :
    ∀ r ∈ passedOf k s'.log, s'.calls[k]? = some r := by
  cases hr with
  | call hat => exact fun r hr => getElem?_calls (h.passed k r hr)
  | @pass slot buf j hst | @refuse slot buf j hst hack | @refusePlain slot buf j hst hack =>
    have hreq := hinv.content.filled (slot, j) (by simp [State.filled, StackPc.reading, hst])
    intro r hr
    rcases List.mem_append.mp (passedOf_append .. ▸ hr) with hr | hr
    · exact h.passed k r hr
    · obtain ⟨_, hev⟩ := mem_passedOf.mp hr
      cases List.mem_singleton.mp hev
      exact hreq
  | queue | seqLine | noSlot | undoSlot | nack | free | ack | doneFree =>
    intro r hr
    rcases List.mem_append.mp (passedOf_append .. ▸ hr) with hr | hr
    · exact h.passed k r hr
    · exact absurd hr List.not_mem_nil
  | _ => exact h.passed k

theorem seqs_step (hinv : Inv s) (h : Ledger s) (hr : Rule s s') (k : ℕ) :
    ∀ seq ∈ reportsOf k s'.log, ∃ r, s'.calls[k]? = some r ∧ r.ack = true ∧ r.seq = seq := by
  cases hr with
  | call hat =>
    intro seq hseq
    obtain ⟨r, hr, h1, h2⟩ := h.seqs k seq hseq
    exact ⟨r, getElem?_calls hr, h1, h2⟩
  | @nack slot buf j line hst =>
    have hreq := hinv.content.filled (slot, j) (by simp [State.filled, StackPc.reading, hst])
    have hack := hinv.content.refused slot buf j (.inr hst)
    intro seq hseq
    rcases List.mem_append.mp (reportsOf_append .. ▸ hseq) with hseq | hseq
    · exact h.seqs k seq hseq
    · obtain ⟨_, _, hev⟩ := mem_reportsOf.mp hseq
      cases List.mem_singleton.mp hev
      exact ⟨_, hreq, hack, rfl⟩
  | @ack buf j seq quiet acked line hst =>
    obtain ⟨r, hr, h1, h2⟩ := hinv.tabled.acking _ _ _ _ _ hst
    intro seq' hseq
    rcases List.mem_append.mp (reportsOf_append .. ▸ hseq) with hseq | hseq
    · exact h.seqs k seq' hseq
    · obtain ⟨_, _, hev⟩ := mem_reportsOf.mp hseq
      cases List.mem_singleton.mp hev
      exact ⟨r, hr, h1, h2⟩
  | queue | seqLine | noSlot | undoSlot | pass | refuse | refusePlain | free | doneFree =>
    intro seq hseq
    rcases List.mem_append.mp (reportsOf_append .. ▸ hseq) with hseq | hseq
    · exact h.seqs k seq hseq
    · exact absurd hseq List.not_mem_nil
  | _ => exact h.seqs k

theorem ledger_init : Returned init ∧ Ledger init := by
  refine ⟨⟨fun _ => rfl, fun _ _ _ h => (nomatch h)⟩, ⟨fun _ => rfl, ?_, fun _ _ => rfl, ?_,
    fun _ => rfl⟩⟩ <;> exact fun _ _ h => (nomatch h)

theorem ledger_reach (h : machine.Reach s) : Returned s ∧ Ledger s := by
  refine h.invariant_of Inv (fun s => Returned s ∧ Ledger s) (fun _ => inv_reach)
    ?_ fun s a s' hinv _ ⟨hret, hl⟩ _ hs => ?_
  · intro s h0
    cases h0
    exact ledger_init
  · have hr := step_rule hs
    exact ⟨returned_step hret hr, ⟨sent_step hret hl hr, passed_step hinv hl hr,
      reported_step hinv hret hl hr, seqs_step hinv hl hr, ended_step hret hl hr⟩⟩

/-- The result of a call that has returned is its only one. -/
theorem Returned.eq_singleton (h : Returned s) {k result : ℕ} (hres : .returned k result ∈ s.log) :
    returnedOf k s.log = [result] := by
  have hmem : result ∈ returnedOf k s.log := List.mem_filterMap.mpr ⟨_, hres, by simp⟩
  have hlen : (returnedOf k s.log).length ≤ 1 := by
    have := h.once k
    split_ifs at this <;> omega
  obtain ⟨r, hr⟩ := List.length_eq_one_iff.mp
    (Nat.le_antisymm hlen (List.length_pos_of_mem hmem))
  rw [hr, List.mem_singleton] at hmem
  rw [hr, hmem]

theorem Returned.accepted (h : Returned s) {k result : ℕ} (hres : .returned k result ∈ s.log) :
    acceptedOf k s.log = if result = atOk then 1 else 0 := by
  rw [acceptedOf, h.eq_singleton hres]
  split_ifs with hr <;> simp [hr]

theorem length_endedOf_pos {k : ℕ} {log : List Ev}
    (h : .sendFailed k ∈ log ∨ .txDone k ∈ log) : 0 < (endedOf k log).length := by
  refine List.length_pos_of_mem (a := k) (List.mem_filterMap.mpr ?_)
  rcases h with h | h <;> exact ⟨_, h, by simp⟩

/-! ## The results -/

theorem count_outside (h : machine.Reach s) (hat : s.at_.outside) :
    s.inFlightCount = s.inFlight.usedCount + s.waitingAcks ∧
      0 ≤ s.inFlightCount ∧ s.inFlightCount ≤ ucastInFlight := by
  have hk := (inv_reach h).counted
  have hcount := hk.count
  have hbound := hk.bound
  have h0 : s.at_.counted = 0 := by
    cases hpc : s.at_ <;> first | rfl | simp [AtPc.outside, hpc] at hat
  refine ⟨?_, ?_, ?_⟩ <;> omega

theorem accepted_once (h : machine.Reach s) {k : ℕ} {r : TxReq} (hk : s.calls[k]? = some r)
    (hok : .returned k atOk ∈ s.log) :
    (passedOf k s.log).length + s.unsent.count k = 1 ∧ ∀ r' ∈ passedOf k s.log, r' = r := by
  obtain ⟨hret, hl⟩ := ledger_reach h
  have hacc := hret.accepted hok
  refine ⟨(hl.sent k).trans hacc, ?_⟩
  intro r' hr'
  exact Option.some.inj ((hl.passed k r' hr').symm.trans hk)

theorem reported_once (h : machine.Reach s) {k : ℕ} {r : TxReq} (hk : s.calls[k]? = some r)
    (hok : .returned k atOk ∈ s.log) (hack : r.ack = true) :
    (reportsOf k s.log).length ≤ 1 ∧
      (.sendFailed k ∈ s.log ∨ .txDone k ∈ s.log → reportsOf k s.log = [r.seq]) := by
  obtain ⟨hret, hl⟩ := ledger_reach h
  have hacc := hret.accepted hok
  rw [if_pos rfl] at hacc
  have hrep := hl.reported k ((acked_of hk).trans hack)
  refine ⟨by omega, ?_⟩
  intro hend
  have hended := hl.ended k
  have hpos := length_endedOf_pos hend
  have hle := s.unreported_le k
  obtain ⟨seq, hseq⟩ := List.length_eq_one_iff.mp (by omega : (reportsOf k s.log).length = 1)
  obtain ⟨r', hr', -, rfl⟩ := hl.seqs k seq (by rw [hseq]; exact List.mem_singleton_self _)
  rw [hseq, Option.some.inj (hr'.symm.trans hk)]

theorem refused_silent (h : machine.Reach s) {k result : ℕ} (hres : .returned k result ∈ s.log)
    (hne : result ≠ atOk) : passedOf k s.log = [] ∧ reportsOf k s.log = [] := by
  obtain ⟨hret, hl⟩ := ledger_reach h
  have hacc := hret.accepted hres
  rw [if_neg hne] at hacc
  have hsent := hl.sent k
  refine ⟨List.eq_nil_of_length_eq_zero (by omega), ?_⟩
  apply List.eq_nil_iff_forall_not_mem.mpr
  intro seq hseq
  obtain ⟨r, hr, hack, -⟩ := hl.seqs k seq hseq
  have hrep := hl.reported k ((acked_of hr).trans hack)
  have hpos := List.length_pos_of_mem hseq
  omega

/-- **Accounting.** In every reachable state: while submit is not running, `in_flight_count` is
the number of used entries and of acknowledged requests that wait for `tx_send`;
`in_flight_add` finds a free entry; an accepted request is passed to ZBOSS once, as it was
submitted; an accepted acknowledged request is reported once, with its own number, by the time
`tx_send` has failed or `tx_done` has run; and a refused request is neither passed nor reported. -/
theorem tx_accounting (h : machine.Reach s) :
    (s.at_.outside → s.inFlightCount = s.inFlight.usedCount + s.waitingAcks ∧
      0 ≤ s.inFlightCount ∧ s.inFlightCount ≤ ucastInFlight) ∧
    (∀ slot buf k, s.stack = .add slot buf k → (s.slots slot).ack = true →
      ∃ i, (s.inFlight i).used = false) ∧
    (∀ k r, s.calls[k]? = some r → .returned k atOk ∈ s.log →
      (passedOf k s.log).length + s.unsent.count k = 1 ∧ (∀ r' ∈ passedOf k s.log, r' = r) ∧
      (r.ack = true → (reportsOf k s.log).length ≤ 1 ∧
        (.sendFailed k ∈ s.log ∨ .txDone k ∈ s.log → reportsOf k s.log = [r.seq]))) ∧
    (∀ k result, .returned k result ∈ s.log → result ≠ atOk →
      passedOf k s.log = [] ∧ reportsOf k s.log = []) := by
  have hinv := inv_reach h
  refine ⟨count_outside h, ?_, ?_, fun k result => refused_silent h⟩
  · intro slot buf k hst hack
    have hreq := hinv.content.filled (slot, k) (by simp [State.filled, StackPc.reading, hst])
    exact Table.exists_unused (hinv.counted.room hst ((acked_of hreq).trans hack))
  · intro k r hk hok
    obtain ⟨h1, h2⟩ := accepted_once h hk hok
    exact ⟨h1, h2, reported_once h hk hok⟩

/-- A unicast that is sent and acknowledged. -/
def ackedRun : List Action :=
  [.sendUnicast { TxReq.zero with dst := 0x1234 } false, .at_ true 0, .at_ true 0, .at_ true 0,
    .at_ true 0, .at_ true 0, .txSend 0 7, .stack true 0, .stack true 0, .stack true 0,
    .txDone 0 true, .stack true 0, .stack true 0, .stack true 0]

theorem ackedRun_exec : (machine.exec init ackedRun).map (fun s => (s.at_, s.calls, s.log)) =
    some (.idle, [{ TxReq.zero with dst := 0x1234, ack := true }],
      [.queued 0, .returned 0 atOk, .seqPrinted 0 (.seq 0),
        .passed 0 { TxReq.zero with dst := 0x1234, ack := true } true,
        .reported 0 0 true (some (.ack 0)), .txDone 0]) := by
  decide

theorem tx_accounting_acked : ∃ s : State, s.at_ = .idle ∧ .txDone 0 ∈ s.log ∧
    s.inFlightCount = s.inFlight.usedCount + s.waitingAcks ∧ reportsOf 0 s.log = [0] := by
  obtain ⟨s, he, hs⟩ := Option.map_eq_some_iff.mp ackedRun_exec
  simp only [Prod.mk.injEq] at hs
  obtain ⟨hat, hcalls, hlog⟩ := hs
  have hr : machine.Reach s := Machine.Reach.exec (.init rfl) he
  obtain ⟨h1, -, h3, -⟩ := tx_accounting hr
  have hdone : Ev.txDone 0 ∈ s.log := by rw [hlog]; decide
  obtain ⟨-, -, hrep⟩ := h3 0 _ (by rw [hcalls]; rfl) (by rw [hlog]; decide)
  exact ⟨s, hat, hdone, (h1 (by rw [hat]; rfl)).1, (hrep rfl).2 (.inr hdone)⟩

end ZbAt.Tx
