import ZbAt.Lossy
import ZbAt.TxSeq

/-!
# Sending data: what becomes of the unicasts

`report` is called for every unicast that was accepted, and prints `ACK:XX` or `NACK:XX` unless the
unicast is quiet or `S0E` hides the line.

* `Told` — `report` is called with the number and the flag of its own unicast.
* `outcomes` — what `report` was told, in order; `printed` — what it printed of that.
* `outcomes_accepted` — the outcomes are those of the accepted unicasts that are not pending.
-/

namespace ZbAt.Tx

/-! ## What is reported -/

/-- What `S0E` reads when the stack thread moves. -/
def Reads (P : ℕ → Prop) (_ : State) : Action → Prop
  | .stack _ s0e => P s0e
  | _ => True

/-- `S0E` hides neither line. -/
def Shown (s0e : ℕ) : Prop := s0e.testBit s0eAckOff = false ∧ s0e.testBit s0eNackOff = false

/-- The number of a unicast that is to be reported. -/
def numberOf (calls : List TxReq) (k : ℕ) : Option UInt8 :=
  calls[k]?.bind fun r => if r.ack && !r.quiet then some r.seq else none

/-- The line of an outcome. -/
def lineFor (seq : UInt8) (acked : Bool) : Line := if acked then .ack seq else .nack seq

/-- The number in a line. -/
def Line.number : Line → UInt8
  | .seq n | .ack n | .nack n => n

/-- The outcomes of the unicasts, in the order in which they became known. -/
def outcomes (s : State) : List Line :=
  s.log.filterMap fun
    | .reported k seq acked _ => (numberOf s.calls k).map fun _ => lineFor seq acked
    | _ => none

/-- The lines that `report` printed. -/
def printed (s : State) : List Line :=
  s.log.filterMap fun
    | .reported _ _ _ line => line
    | _ => none

/-- The calls that `report` was called for. -/
def reported (log : List Ev) : List ℕ :=
  log.filterMap fun
    | .reported k _ _ _ => some k
    | _ => none

/-- The calls that `submit` accepted. -/
def accepted (log : List Ev) : List ℕ :=
  log.filterMap fun
    | .returned k result => if result = atOk then some k else none
    | _ => none

/-! ## Whose number is reported -/

section

variable {P : ℕ → Prop} {s s' : State} {a : Action} {k : ℕ} {r : TxReq}

/-- The stack thread reports for the call whose number and flag it holds. -/
structure Told (P : ℕ → Prop) (s : State) : Prop where
  acking : ∀ buf k seq quiet acked, s.stack = .ack buf k seq quiet acked →
    ∃ r, s.calls[k]? = some r ∧ r.quiet = quiet ∧ r.seq = seq
  log : ∀ k seq acked line, .reported k seq acked line ∈ s.log →
    ∃ r s0e, s.calls[k]? = some r ∧ P s0e ∧ r.seq = seq ∧ line = report s0e seq r.quiet acked

/-- A step makes no other calls of those that were made. -/
theorem Rule.getElem?_calls (h : Rule s s') (hk : s.calls[k]? = some r) :
    s'.calls[k]? = some r := by
  cases h <;> first | exact hk | exact Tx.getElem?_calls hk

/-- `tx_done` reports what it found in the table. -/
theorem Rule.acking (h : Rule s s') {buf : BufId} {seq : UInt8} {quiet acked : Bool}
    (hst : s'.stack = .ack buf k seq quiet acked) : s.stack = .ack buf k seq quiet acked ∨
      ∃ i, s.stack = .done buf k acked ∧ inFlightFind buf s.inFlight = some i ∧
        (s.inFlight i).seq = seq ∧ (s.inFlight i).quiet = quiet := by
  cases h with
  | found hdone hi =>
    cases hst
    exact .inr ⟨_, hdone, hi, rfl, rfl⟩
  | _ => first | exact .inl hst | cases hst

/-- The step that calls `report`. -/
theorem report_step (hs : step s a = some s') {seq : UInt8} {acked : Bool} {line : Option Line}
    (hmem : .reported k seq acked line ∈ s'.log) : .reported k seq acked line ∈ s.log ∨
      ∃ sendOk s0e, a = .stack sendOk s0e ∧
        ((∃ slot buf, s.stack = .nack slot buf k ∧ (s.slots slot).seq = seq ∧
            line = report s0e seq (s.slots slot).quiet acked) ∨
          ∃ buf quiet, s.stack = .ack buf k seq quiet acked ∧
            line = report s0e seq quiet acked) := by
  cases a with
  | submit r | sendUnicast r quiet =>
    simp only [step] at hs
    split_ifs at hs
    cases hs
    exact .inl hmem
  | at_ bufOk s0e =>
    replace hs : stepAt bufOk s0e s = some s' := hs
    left
    cases hat : s.at_ <;> simp only [stepAt, hat, reduceCtorEq] at hs <;>
      (try split_ifs at hs) <;> cases hs <;> simpa using hmem
  | txSend i buf | txDone i acked =>
    simp only [step] at hs
    split at hs
    · cases hs
    · split_ifs at hs
      cases hs
      exact .inl hmem
  | stack sendOk s0e =>
    replace hs : stepStack sendOk s0e s = some s' := hs
    cases hst : s.stack with
    | nack slot buf j =>
      simp only [stepStack, hst, Option.some.injEq] at hs
      subst hs
      rcases List.mem_append.mp hmem with hmem | hmem
      · exact .inl hmem
      · cases List.mem_singleton.mp hmem
        exact .inr ⟨_, _, rfl, .inl ⟨_, _, rfl, rfl, rfl⟩⟩
    | ack buf j seq' quiet acked' =>
      simp only [stepStack, hst, Option.some.injEq] at hs
      subst hs
      rcases List.mem_append.mp hmem with hmem | hmem
      · exact .inl hmem
      · cases List.mem_singleton.mp hmem
        exact .inr ⟨_, _, rfl, .inr ⟨_, _, rfl, rfl⟩⟩
    | idle =>
      rw [stepStack, hst] at hs
      cases hs
    | _ =>
      left
      simp only [stepStack, hst] at hs
      (try split_ifs at hs) <;> (try split at hs) <;> cases hs <;> simpa using hmem

theorem told_step (hinv : Inv s) (h : Told P s) (ha : Reads P s a) (hs : step s a = some s') :
    Told P s' := by
  have hrule := step_rule hs
  constructor
  · intro buf k seq quiet acked hst
    rcases hrule.acking hst with hst | ⟨i, hst, hi, hseq, hquiet⟩
    · obtain ⟨r, hr, hrest⟩ := h.acking _ _ _ _ _ hst
      exact ⟨r, hrule.getElem?_calls hr, hrest⟩
    · obtain ⟨hent, hbuf, -⟩ := hinv.tabled.split buf k (by simp [StackPc.tabled, hst])
        (by simp [StackPc.live, hst])
      obtain ⟨r, hr, -, hq, hs, -⟩ := found_entry hent hbuf hi
      exact ⟨r, hrule.getElem?_calls hr, hq.trans hquiet, hs.trans hseq⟩
  · intro k seq acked line hmem
    rcases report_step hs hmem with hmem | ⟨sendOk, s0e, rfl, hreport⟩
    · obtain ⟨r, s0e, hr, hrest⟩ := h.log _ _ _ _ hmem
      exact ⟨r, s0e, hrule.getElem?_calls hr, hrest⟩
    · rcases hreport with ⟨slot, buf, hst, hseq, hline⟩ | ⟨buf, quiet, hst, hline⟩
      · have hr := hinv.content.filled (slot, k) (by simp [State.filled, StackPc.reading, hst])
        exact ⟨_, s0e, hrule.getElem?_calls hr, ha, hseq, hline⟩
      · obtain ⟨r, hr, hquiet, hseq⟩ := h.acking _ _ _ _ _ hst
        exact ⟨r, s0e, hrule.getElem?_calls hr, ha, hseq, by rw [hquiet]; exact hline⟩

theorem told (h : machine.ReachIf (Reads P) s) : Told P s := by
  refine h.invariant_of Inv (Told P) (fun _ => inv_reach) ?_ fun s a s' hinv _ ht ha hs =>
    told_step hinv ht ha hs
  rintro s rfl
  exact ⟨nofun, nofun⟩

/-! ## Outcomes and accepted unicasts -/

theorem numberOf_eq_some {calls : List TxReq} {n : UInt8} (h : numberOf calls k = some n) :
    ∃ r, calls[k]? = some r ∧ r.ack = true ∧ r.quiet = false ∧ r.seq = n := by
  obtain ⟨r, hr, hif⟩ := Option.bind_eq_some_iff.mp h
  split_ifs at hif with hloud
  simp only [Bool.and_eq_true, Bool.not_eq_true'] at hloud
  exact ⟨r, hr, hloud.1, hloud.2, Option.some.inj hif⟩

/-- What is printed is printed of an outcome. -/
theorem printed_sublist (h : machine.ReachIf (Reads P) s) : (printed s).Sublist (outcomes s) := by
  refine Lossy.filterMap_sublist fun e he => ?_
  cases e with
  | reported k seq acked line =>
    obtain ⟨r, s0e, hr, -, hseq, rfl⟩ := (told h).log _ _ _ _ he
    obtain ⟨r', hr', hack, -⟩ := reported_call h.reach he
    obtain rfl : r' = r := Option.some.inj (hr'.symm.trans hr)
    cases hl : report s0e seq r'.quiet acked with
    | none => exact .inl rfl
    | some l =>
      have hquiet : r'.quiet = false := by
        by_contra hq
        rw [Bool.not_eq_false] at hq
        rw [report, hq, if_pos rfl] at hl
        cases hl
      right
      dsimp only
      rw [report_line hl, numberOf, hr, Option.bind_some, hack, hquiet]
      rfl
  | _ => exact .inl rfl

/-- If `S0E` never hides a line, every outcome is printed. -/
theorem printed_eq (h : machine.ReachIf (Reads P) s) (hP : ∀ s0e, P s0e → Shown s0e) :
    printed s = outcomes s := by
  refine List.filterMap_congr fun e he => ?_
  cases e with
  | reported k seq acked line =>
    obtain ⟨r, s0e, hr, hs0e, hseq, rfl⟩ := (told h).log _ _ _ _ he
    obtain ⟨r', hr', hack, -⟩ := reported_call h.reach he
    obtain rfl : r' = r := Option.some.inj (hr'.symm.trans hr)
    obtain ⟨hackOn, hnackOn⟩ := hP s0e hs0e
    dsimp only
    rw [report, numberOf, hr, Option.bind_some, hack, hackOn, hnackOn, lineFor]
    cases r'.quiet <;> cases acked <;> rfl
  | _ => rfl

/-- An outcome has the number of its unicast. -/
theorem outcomes_numbers (h : machine.ReachIf (Reads P) s) :
    (outcomes s).map Line.number = (reported s.log).filterMap (numberOf s.calls) := by
  rw [outcomes, reported, List.map_filterMap, List.filterMap_filterMap]
  refine List.filterMap_congr fun e he => ?_
  cases e with
  | reported k seq acked line =>
    dsimp only
    rw [Option.bind_some, Option.map_map]
    cases hn : numberOf s.calls k with
    | none => rfl
    | some n =>
      obtain ⟨r, hr, -, -, rfl⟩ := numberOf_eq_some hn
      obtain ⟨r', s0e, hr', -, rfl, -⟩ := (told h).log _ _ _ _ he
      obtain rfl : r' = r := Option.some.inj (hr'.symm.trans hr)
      cases acked <;> rfl
  | _ => rfl

theorem count_reported (log : List Ev) (k : ℕ) :
    (reported log).count k = (reportsOf k log).length := by
  induction log with
  | nil => rfl
  | cons e log ih =>
    cases e with
    | reported j seq acked line =>
      have hcons : reported (.reported j seq acked line :: log) = j :: reported log := rfl
      rw [hcons, List.count_cons, ih]
      by_cases hj : j = k
      · simp [reportsOf, hj]
      · simp [reportsOf, hj]
    | _ => exact ih

theorem count_accepted (log : List Ev) (k : ℕ) : (accepted log).count k = acceptedOf k log := by
  induction log with
  | nil => rfl
  | cons e log ih =>
    cases e with
    | returned j result =>
      rw [acceptedOf] at ih ⊢
      rw [accepted, returnedOf, List.filterMap_cons, List.filterMap_cons]
      by_cases hok : result = atOk
      · by_cases hj : j = k
        · simpa [accepted, returnedOf, hok, hj] using ih
        · simpa [accepted, returnedOf, hok, hj] using ih
      · by_cases hj : j = k
        · simpa [accepted, returnedOf, hok, hj] using ih
        · simpa [accepted, returnedOf, hok, hj] using ih
    | _ => exact ih

/-- Every accepted unicast is reported or pending. -/
theorem reported_perm (h : machine.Reach s) :
    (reported s.log ++ s.unreported.filter s.acked).Perm ((accepted s.log).filter s.acked) := by
  obtain ⟨-, hl⟩ := ledger_reach h
  rw [List.perm_iff_count]
  intro k
  rw [List.count_append, count_reported]
  by_cases hack : s.acked k = true
  · rw [List.count_filter hack, List.count_filter hack, count_accepted]
    exact hl.reported k hack
  · have hnone : ∀ l : List ℕ, (l.filter s.acked).count k = 0 := fun l =>
      List.count_eq_zero.mpr fun hk => hack (List.mem_filter.mp hk).2
    have hsilent : reportsOf k s.log = [] := by
      rw [List.eq_nil_iff_forall_not_mem]
      intro seq hseq
      obtain ⟨r, hr, hr', -⟩ := hl.seqs k seq hseq
      exact hack ((acked_of hr).trans hr')
    rw [hnone, hnone, hsilent, List.length_nil]

theorem filterMap_acked (s : State) (l : List ℕ) :
    (l.filter s.acked).filterMap (numberOf s.calls) = l.filterMap (numberOf s.calls) := by
  rw [List.filterMap_filter]
  congr 1
  funext k
  split_ifs with hack
  · rfl
  · cases hn : numberOf s.calls k with
    | none => rfl
    | some n =>
      obtain ⟨r, hr, hr', -⟩ := numberOf_eq_some hn
      exact absurd ((acked_of hr).trans hr') hack

/-- **The outcomes.** The outcomes have the numbers of the accepted unicasts that are to be
reported, each once, less those that are pending. -/
theorem outcomes_accepted (h : machine.ReachIf (Reads P) s) :
    ((outcomes s).map Line.number ++ s.unreported.filterMap (numberOf s.calls)).Perm
      ((accepted s.log).filterMap (numberOf s.calls)) := by
  have hperm := (reported_perm h.reach).filterMap (numberOf s.calls)
  rwa [List.filterMap_append, filterMap_acked, filterMap_acked, ← outcomes_numbers h] at hperm

end

end ZbAt.Tx
