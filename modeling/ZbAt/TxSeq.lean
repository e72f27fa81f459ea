import ZbAt.TxOrder

/-!
# Sending data: sequence numbers

`send_unicast` numbers its requests with an 8-bit counter, also those that `submit` refuses. The
number is what `SEQ:XX`, `ACK:XX` and `NACK:XX` show.

* `Numbered` — a unicast has the number of unicasts before it, modulo 256.
* `Pending` — a unicast was accepted and is not reported yet.
* `seq_identifies` — when two pending unicasts share a number, and what a report says.
* `seq_reused` — a slow unicast whose number is given out again.
-/

namespace ZbAt.Tx

variable {s s' : State}

/-- The commands call `submit` for broadcasts and `send_unicast` for everything that is
acknowledged. -/
def FromCommands (_ : State) : Action → Prop
  | .submit r => r.ack = false
  | _ => True

instance (s : State) (a : Action) : Decidable (FromCommands s a) := by
  cases a with
  | submit r => exact inferInstanceAs (Decidable (r.ack = false))
  | _ => exact isTrue trivial

/-- The number of unicasts among the calls. -/
def unicasts (calls : List TxReq) : ℕ := calls.countP TxReq.ack

/-- The unicast of the call `k` was accepted and is not reported yet. -/
structure State.Pending (s : State) (k : ℕ) (r : TxReq) : Prop where
  call : s.calls[k]? = some r
  ack : r.ack = true
  accepted : .returned k atOk ∈ s.log
  unreported : reportsOf k s.log = []

/-! ## Numbering -/

/-- Unicasts are numbered in the order of their calls. -/
structure Numbered (s : State) : Prop where
  next : s.nextSeq = UInt8.ofNat (unicasts s.calls)
  seqs : ∀ k r, s.calls[k]? = some r → r.ack = true →
    r.seq = UInt8.ofNat (unicasts (s.calls.take k))

theorem stepAt_numbers {bufOk : Bool} {s0e : ℕ} (hs : stepAt bufOk s0e s = some s') :
    s'.calls = s.calls ∧ s'.nextSeq = s.nextSeq := by
  cases hat : s.at_ <;> simp only [stepAt, hat, reduceCtorEq] at hs <;>
    (try split_ifs at hs) <;> cases hs <;> exact ⟨rfl, rfl⟩

theorem stepStack_numbers {sendOk : Bool} {s0e : ℕ} (hs : stepStack sendOk s0e s = some s') :
    s'.calls = s.calls ∧ s'.nextSeq = s.nextSeq := by
  cases hst : s.stack <;> simp only [stepStack, hst, reduceCtorEq] at hs <;>
    (try split_ifs at hs) <;> (try split at hs) <;> cases hs <;> exact ⟨rfl, rfl⟩

theorem Numbered.keep (h : Numbered s) (hs : s'.calls = s.calls ∧ s'.nextSeq = s.nextSeq) :
    Numbered s' := by
  obtain ⟨hcalls, hnext⟩ := hs
  constructor
  · rw [hnext, hcalls, h.next]
  · rw [hcalls]
    exact h.seqs

/-- One more call: a unicast takes the next number. -/
theorem Numbered.call (h : Numbered s) {r : TxReq} {n : UInt8} (hc : s'.calls = s.calls ++ [r])
    (hn : s'.nextSeq = n) (hr : r.ack = true → r.seq = s.nextSeq)
    (hnext : n = if r.ack then s.nextSeq + 1 else s.nextSeq) : Numbered s' := by
  constructor
  · rw [hn, hc, hnext, h.next, unicasts, unicasts, List.countP_append, List.countP_singleton]
    by_cases hack : r.ack = true
    · rw [if_pos hack, if_pos hack, UInt8.ofNat_add]
      rfl
    · rw [if_neg hack, if_neg hack, Nat.add_zero]
  · intro k r' hk hack
    rw [hc] at hk
    by_cases hlt : k < s.calls.length
    · rw [List.getElem?_append_left hlt] at hk
      rw [hc, List.take_append_of_le_length (Nat.le_of_lt hlt)]
      exact h.seqs k r' hk hack
    · have hlen := (List.getElem?_eq_some_iff.mp hk).1
      rw [List.length_append, List.length_singleton] at hlen
      obtain rfl : k = s.calls.length := by omega
      rw [List.getElem?_append_right (Nat.le_refl _), Nat.sub_self] at hk
      obtain rfl := Option.some.inj hk
      rw [hc, List.take_left, hr hack, h.next]

theorem numbered_step {a : Action} (h : Numbered s) (hc : FromCommands s a)
    (hs : machine.step s a = some s') : Numbered s' := by
  replace hs : step s a = some s' := hs
  cases a with
  | submit r =>
    simp only [step] at hs
    split_ifs at hs
    cases hs
    have hack : r.ack = false := hc
    exact h.call rfl rfl (fun hr => absurd hr (ne_true_of_eq_false hack)) (by simp [hack])
  | sendUnicast r quiet =>
    simp only [step] at hs
    split_ifs at hs
    cases hs
    exact h.call rfl rfl (fun _ => rfl) rfl
  | at_ bufOk s0e => exact h.keep (stepAt_numbers hs)
  | stack sendOk s0e => exact h.keep (stepStack_numbers hs)
  | txSend i buf | txDone i acked =>
    simp only [step] at hs
    split at hs
    · cases hs
    · split_ifs at hs
      cases hs
      exact h.keep ⟨rfl, rfl⟩

theorem numbered (h : machine.ReachIf FromCommands s) : Numbered s :=
  h.invariant Numbered
    (by
      rintro s rfl
      exact ⟨rfl, fun k r hk => by simp [init] at hk⟩)
    (fun s a s' hP hc hs => numbered_step hP hc hs)

/-- The calls from the `j`-th up to the `k`-th, without the `k`-th. -/
def State.between (s : State) (j k : ℕ) : List TxReq := (s.calls.drop j).take (k - j)

/-- Two unicasts have the same number when a multiple of 256 calls lies from one to the other. -/
theorem Numbered.seq_eq_iff (h : Numbered s) {j k : ℕ} {rj rk : TxReq} (hjk : j ≤ k)
    (hj : s.calls[j]? = some rj) (hk : s.calls[k]? = some rk) (haj : rj.ack = true)
    (hak : rk.ack = true) : rj.seq = rk.seq ↔ 256 ∣ unicasts (s.between j k) := by
  have hsplit : s.calls.take k = s.calls.take j ++ s.between j k := by
    rw [State.between, ← List.take_add, Nat.add_sub_cancel' hjk]
  have hcount :
      unicasts (s.calls.take k) = unicasts (s.calls.take j) + unicasts (s.between j k) := by
    rw [hsplit, unicasts, List.countP_append]
    rfl
  rw [h.seqs j rj hj haj, h.seqs k rk hk hak, hcount, ← UInt8.toNat_inj, UInt8.toNat_ofNat',
    UInt8.toNat_ofNat']
  omega

/-! ## Reports -/

/-- What is printed of a report shows its number. -/
def Ev.Honest (e : Ev) : Prop :=
  ∀ k seq acked l, e = .reported k seq acked (some l) → l = if acked then .ack seq else .nack seq

theorem report_line {s0e : ℕ} {seq : UInt8} {quiet acked : Bool} {l : Line}
    (h : report s0e seq quiet acked = some l) : l = if acked then .ack seq else .nack seq := by
  unfold report at h
  cases acked <;> split_ifs at h <;> simp_all

theorem honest_report (k : ℕ) (s0e : ℕ) (seq : UInt8) (quiet acked : Bool) :
    (Ev.reported k seq acked (report s0e seq quiet acked)).Honest := by
  intro j seq' acked' l he
  cases hl : report s0e seq quiet acked with
  | none =>
    rw [hl] at he
    cases he
  | some l' =>
    rw [hl] at he
    cases he
    exact report_line hl

theorem Ev.other.honest {e : Ev} (h : e.other = true) : e.Honest := by
  intro k seq acked l he
  rw [he] at h
  cases h

/-- What a step logs is honest. -/
theorem Logs.honest {a : Action} {evs : List Ev} (h : Logs s a evs) : ∀ e ∈ evs, e.Honest := by
  cases h with
  | other h => exact fun e he => Ev.other.honest (List.all_eq_true.mp h e he)
  | seqLine =>
    intro e he j seq acked l hrep
    rw [List.mem_singleton.mp he] at hrep
    cases hrep
  | nack | ack =>
    intro e he
    rw [List.mem_singleton.mp he]
    exact honest_report _ _ _ _ _

theorem honest (h : machine.Reach s) : ∀ e ∈ s.log, e.Honest :=
  h.invariant (fun s => ∀ e ∈ s.log, e.Honest)
    (by
      rintro s rfl e he
      simp [init] at he)
    (by
      intro s a s' hP _ hs e he
      obtain ⟨evs, hlog, hlogs⟩ := step_logs hs
      rw [hlog] at he
      exact (List.mem_append.mp he).elim (hP e) (hlogs.honest e))

/-- A report is of a call that was accepted. -/
theorem reported_accepted (h : machine.Reach s) {k : ℕ} {seq : UInt8}
    (hmem : seq ∈ reportsOf k s.log) : .returned k atOk ∈ s.log := by
  obtain ⟨-, hl⟩ := ledger_reach h
  obtain ⟨r, hr, hack, -⟩ := hl.seqs k seq hmem
  have hcount := hl.reported k ((acked_of hr).trans hack)
  have hlen := List.length_pos_of_mem hmem
  have hpos : 0 < acceptedOf k s.log := by omega
  obtain ⟨e, he, hif⟩ := List.mem_filterMap.mp (List.count_pos_iff.mp hpos)
  split at hif
  · split_ifs at hif with hk
    cases hif
    exact hk ▸ he
  · cases hif

/-- A report is the only one of its call, which is a unicast with that number. -/
theorem reported_call (h : machine.Reach s) {k : ℕ} {seq : UInt8} {acked : Bool}
    {line : Option Line} (hrep : .reported k seq acked line ∈ s.log) :
    ∃ r, s.calls[k]? = some r ∧ r.ack = true ∧ r.seq = seq ∧ reportsOf k s.log = [seq] := by
  obtain ⟨hret, hl⟩ := ledger_reach h
  have hmem : seq ∈ reportsOf k s.log := mem_reportsOf.mpr ⟨acked, line, hrep⟩
  obtain ⟨r, hr, hack, hseq⟩ := hl.seqs k seq hmem
  have hcount := hl.reported k ((acked_of hr).trans hack)
  have hone := hret.once k
  have hacc : acceptedOf k s.log ≤ (returnedOf k s.log).length := List.count_le_length
  have hle : (reportsOf k s.log).length ≤ 1 := by
    split_ifs at hone <;> omega
  obtain ⟨seq', hs⟩ := List.length_eq_one_iff.mp
    (Nat.le_antisymm hle (List.length_pos_of_mem hmem))
  rw [hs] at hmem
  exact ⟨r, hr, hack, hseq, by rw [hs, List.mem_singleton.mp hmem]⟩

/-! ## Unicasts in flight -/

/-- The first of two unicasts is one of the calls from it to the second. -/
theorem unicasts_between_pos {j k : ℕ} {r : TxReq} (hjk : j < k) (hj : s.calls[j]? = some r)
    (hack : r.ack = true) : 0 < unicasts (s.between j k) := by
  have hmem : r ∈ s.between j k := by
    rw [State.between, List.mem_iff_getElem?]
    refine ⟨0, ?_⟩
    rw [List.getElem?_take_of_lt (by omega), List.getElem?_drop]
    exact hj
  exact List.countP_pos_iff.mpr ⟨r, hmem, hack⟩

/-- **Sequence numbers.** Two unicasts in flight have the same number exactly when the number of
unicasts from the one to the other, refused ones included, is a multiple of 256; so they differ
while there are fewer. Each printed `ACK:XX` or `NACK:XX` shows the number of its unicast, which
was accepted and is reported that once. -/
theorem seq_identifies (h : machine.ReachIf FromCommands s) :
    (∀ j k rj rk, j < k → s.Pending j rj → s.Pending k rk →
      (rj.seq = rk.seq ↔ 256 ∣ unicasts (s.between j k)) ∧
      (unicasts (s.between j k) < 256 → rj.seq ≠ rk.seq)) ∧
    ∀ k seq acked line, .reported k seq acked line ∈ s.log →
      .returned k atOk ∈ s.log ∧
      ∃ r, s.calls[k]? = some r ∧ r.ack = true ∧ r.seq = seq ∧ reportsOf k s.log = [seq] ∧
        ∀ l, line = some l → l = if acked then .ack seq else .nack seq := by
  constructor
  · intro j k rj rk hjk hj hk
    have hiff := (numbered h).seq_eq_iff (Nat.le_of_lt hjk) hj.call hk.call hj.ack hk.ack
    refine ⟨hiff, ?_⟩
    intro hlt heq
    have hpos := unicasts_between_pos hjk hj.call hj.ack
    have hle := Nat.le_of_dvd hpos (hiff.mp heq)
    omega
  · intro k seq acked line hrep
    obtain ⟨r, hr, hack, hseq, hone⟩ := reported_call h.reach hrep
    have hok := reported_accepted h.reach (hone ▸ List.mem_singleton_self seq)
    refine ⟨hok, r, hr, hack, hseq, hone, ?_⟩
    rintro l rfl
    exact honest h.reach _ hrep k seq acked l rfl

/-- Two unicasts are in flight. -/
def pairRun : List Action :=
  [.sendUnicast TxReq.zero true, .at_ true 0, .at_ true 0, .at_ true 0, .at_ true 0, .at_ true 0,
    .sendUnicast TxReq.zero true, .at_ true 0, .at_ true 0, .at_ true 0, .at_ true 0, .at_ true 0,
    .at_ true 0]

theorem pairRun_exec : (machine.execIf FromCommands init pairRun).map (fun s => (s.calls, s.log)) =
    some ([{ TxReq.zero with ack := true, quiet := true },
        { TxReq.zero with ack := true, quiet := true, seq := 1 }],
      [.queued 0, .returned 0 atOk, .queued 1, .returned 1 atOk]) := by
  decide

theorem seq_identifies_pair : ∃ (s : State) (r r' : TxReq),
    s.Pending 0 r ∧ s.Pending 1 r' ∧ r.seq ≠ r'.seq := by
  obtain ⟨s, he, hs⟩ := Option.map_eq_some_iff.mp pairRun_exec
  simp only [Prod.mk.injEq] at hs
  obtain ⟨hcalls, hlog⟩ := hs
  have h0 : s.Pending 0 { TxReq.zero with ack := true, quiet := true } :=
    ⟨by rw [hcalls]; rfl, rfl, by rw [hlog]; decide, by rw [hlog]; rfl⟩
  have h1 : s.Pending 1 { TxReq.zero with ack := true, quiet := true, seq := 1 } :=
    ⟨by rw [hcalls]; rfl, rfl, by rw [hlog]; decide, by rw [hlog]; rfl⟩
  have hr : machine.ReachIf FromCommands s := Machine.ReachIf.execIf (.init rfl) he
  refine ⟨s, _, _, h0, h1, ((seq_identifies hr).1 0 1 _ _ (by decide) h0 h1).2 ?_⟩
  rw [State.between, hcalls]
  decide

/-! ## A slow unicast -/

/-- Four unicasts are accepted, and their `tx_send` is to come. -/
def fillRun : List Action :=
  (List.range txSlots).flatMap fun i =>
    .sendUnicast TxReq.zero true :: List.replicate (i + 5) (.at_ true 0)

/-- A unicast is refused for want of a slot. -/
def refusedCall : List Action := .sendUnicast TxReq.zero true :: List.replicate 5 (.at_ true 0)

/-- The second of the four is sent, and another unicast takes its slot. -/
def reuseRun : List Action :=
  .txSend 1 7 :: List.replicate 3 (.stack true 0) ++
    .sendUnicast TxReq.zero true :: List.replicate 6 (.at_ true 0)

/-- The request of a quiet unicast without data. -/
def quietReq (seq : UInt8) : TxReq := { TxReq.zero with ack := true, quiet := true, seq := seq }

/-- All slots are used by four unicasts that wait for `tx_send`. -/
structure Full (s : State) : Prop where
  at_ : s.at_ = .idle
  stack : s.stack = .idle
  sched : s.sched = [(0, 0), (1, 1), (2, 2), (3, 3)]
  air : s.air = []
  slotsUsed : ∀ i, s.slotsUsed i = true
  count : s.inFlightCount = 4

/-- The state after the four unicasts. -/
def filled : State := (machine.exec init fillRun).getD init

theorem fillRun_exec : machine.exec init fillRun = some filled := by
  have h : (machine.exec init fillRun).isSome = true := by decide
  obtain ⟨s, hs⟩ := Option.isSome_iff_exists.mp h
  rw [filled, hs]
  rfl

theorem filled_full : Full filled := by
  constructor <;> decide

theorem filled_log : filled.nextSeq = 4 ∧
    filled.calls = [quietReq 0, quietReq 1, quietReq 2, quietReq 3] ∧
    filled.log = [.queued 0, .returned 0 atOk, .queued 1, .returned 1 atOk, .queued 2,
      .returned 2 atOk, .queued 3, .returned 3 atOk] := by
  decide

/-- A refused unicast takes a number, and changes nothing else but the record of the calls. -/
def State.refuse (s : State) : State :=
  { s with
    nextSeq := s.nextSeq + 1
    calls := s.calls ++ [quietReq s.nextSeq]
    log := s.log ++ [.returned s.calls.length atErrNoBuffers] }

theorem Full.refuse (h : Full s) : machine.exec s refusedCall = some s.refuse ∧ Full s.refuse := by
  refine ⟨?_, h.at_, h.stack, h.sched, h.air, h.slotsUsed, h.count⟩
  simp [refusedCall, Machine.exec, machine, step, stepAt, h.at_, h.slotsUsed, txSlots,
    State.refuse, quietReq]

/-- `n` refused unicasts. -/
theorem refuse_run (n : ℕ) {s : State} (h : Full s) : ∃ t cs evs,
    machine.exec s (List.replicate n refusedCall).flatten = some t ∧ Full t ∧
      t.nextSeq = s.nextSeq + UInt8.ofNat n ∧ t.calls = s.calls ++ cs ∧ cs.length = n ∧
      t.log = s.log ++ evs ∧ ∀ k, reportsOf k evs = [] := by
  induction n generalizing s with
  | zero => exact ⟨s, [], [], rfl, h, by simp, by simp, rfl, by simp, fun k => rfl⟩
  | succ n ih =>
    obtain ⟨hone, hfull⟩ := h.refuse
    obtain ⟨t, cs, evs, hex, ht, hseq, hcalls, hlen, hlog, hrep⟩ := ih hfull
    refine ⟨t, quietReq s.nextSeq :: cs, .returned s.calls.length atErrNoBuffers :: evs, ?_, ht, ?_,
      ?_, by simp [hlen], ?_, ?_⟩
    · rw [List.replicate_succ, List.flatten_cons, Machine.exec_append, hone]
      exact hex
    · rw [hseq, UInt8.ofNat_add, State.refuse, UInt8.add_assoc, UInt8.add_comm 1]
      rfl
    · rw [hcalls, State.refuse, List.append_assoc]
      rfl
    · rw [hlog, State.refuse, List.append_assoc]
      rfl
    · intro k
      exact hrep k

/-- The second of the four is sent, and its slot is free again. -/
theorem Full.send {t : State} (h : Full t) : ∃ u,
    machine.exec t (.txSend 1 7 :: List.replicate 3 (.stack true 0)) = some u ∧ u.at_ = .idle ∧
      (u.slotsUsed = Function.update t.slotsUsed 1 false ∧ u.inFlightCount = 4) ∧
      u.nextSeq = t.nextSeq ∧ u.calls = t.calls ∧
      u.log = t.log ++ [.passed 1 (t.slots 1) true] := by
  simp [Machine.exec, machine, step, stepStack, h.at_, h.stack, h.sched, h.air, h.count]

/-- Once a slot is free again, the next unicast is accepted with the next number. -/
theorem Full.reuse {t : State} (h : Full t) :
    (machine.exec t reuseRun).map (fun u => (u.calls, u.log)) =
      some (t.calls ++ [quietReq t.nextSeq], t.log ++ [.passed 1 (t.slots 1) true,
        .queued t.calls.length, .returned t.calls.length atOk]) := by
  obtain ⟨u, hu, hidle, ⟨hslots, hcount⟩, hseq, hcalls, hlog⟩ := h.send
  have hused : u.slotsUsed 0 = true ∧ u.slotsUsed 1 = false := by
    rw [hslots, Function.update_self, Function.update_of_ne (by decide)]
    exact ⟨h.slotsUsed 0, rfl⟩
  rw [reuseRun, Machine.exec_append, hu, Option.bind_some]
  simp [Machine.exec, machine, step, stepAt, hidle, hused, hcount, hseq, hcalls, hlog, txSlots,
    ucastInFlight, AtPc.afterOk, quietReq]

/-- The whole run: a unicast waits for its `tx_send` while 252 others are refused. -/
def slowRun : List Action := fillRun ++ ((List.replicate 252 refusedCall).flatten ++ reuseRun)

theorem slowRun_commands : ∀ a ∈ slowRun, ∀ s, FromCommands s a := by
  have hparts : ∀ a ∈ fillRun ++ (refusedCall ++ reuseRun), FromCommands init a := by decide
  intro a ha s
  have hmem : a ∈ fillRun ++ (refusedCall ++ reuseRun) := by
    simp only [slowRun, List.mem_append, List.mem_flatten, List.mem_replicate] at ha ⊢
    rcases ha with ha | ⟨l, ⟨-, rfl⟩, ha⟩ | ha
    · exact .inl ha
    · exact .inr (.inl ha)
    · exact .inr (.inr ha)
  have hinit := hparts a hmem
  cases a with
  | submit r => exact hinit
  | _ => trivial

/-- The first unicast and the 257th are in flight with the same number. -/
theorem seq_reused : ¬∀ s, machine.ReachIf FromCommands s → ∀ j k rj rk, j ≠ k → s.Pending j rj →
    s.Pending k rk → rj.seq ≠ rk.seq := by
  intro hclaim
  obtain ⟨hseq0, hcalls0, hlog0⟩ := filled_log
  obtain ⟨t, cs, evs, hex, ht, hseq, hcalls, hlen, hlog, hrep⟩ := refuse_run 252 filled_full
  obtain ⟨u, hu, hview⟩ := Option.map_eq_some_iff.mp ht.reuse
  simp only [Prod.mk.injEq] at hview
  obtain ⟨hucalls, hulog⟩ := hview
  have hrun : machine.exec init slowRun = some u := by
    rw [slowRun, Machine.exec_append, fillRun_exec, Option.bind_some, Machine.exec_append, hex,
      Option.bind_some, hu]
  have hr := Machine.ReachIf.exec (.init rfl) slowRun_commands hrun
  have hlent : t.calls.length = 256 := by rw [hcalls, List.length_append, hlen, hcalls0]; rfl
  have hreports : ∀ k, reportsOf k u.log = [] := by
    intro k
    rw [hulog, hlog, hlog0, reportsOf_append, reportsOf_append, hrep]
    rfl
  have h0 : u.Pending 0 (quietReq 0) := by
    refine ⟨?_, rfl, ?_, hreports 0⟩
    · rw [hucalls, hcalls, hcalls0]
      rfl
    · rw [hulog, hlog, hlog0]
      simp
  have h256 : u.Pending 256 (quietReq 0) := by
    refine ⟨?_, rfl, ?_, hreports 256⟩
    · rw [hucalls, hseq, hseq0, ← hlent, List.getElem?_append_right (Nat.le_refl _), Nat.sub_self]
      rfl
    · rw [hulog, hlent]
      simp
  exact hclaim u hr 0 256 _ _ (by decide) h0 h256 rfl

end ZbAt.Tx
