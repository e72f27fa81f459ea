import ZbAt.UartBinProof

/-!
# One binary entry

The AT thread asks for some bytes, and they arrive behind the prompt.

* `receive` — what `at_uart_read_binary` gives.
* `receive_eq` — it gives the bytes, however they are cut into chunks.
-/

namespace ZbAt.Uart.Bin

/-- The AT thread enters `at_uart_read_binary` and prints the prompt; then these chunks arrive,
and the AT thread takes the semaphore. -/
def enter (len : ℕ) (chunks : List (List UInt8)) : List Action :=
  [.readBinary len, .at_, .at_, .at_] ++
    (chunks.flatMap fun data => .rxEvent data :: List.replicate (data.length + 1) .rx) ++ [.at_]

/-- What `at_uart_read_binary` gives, called in the state `s`, when the chunks arrive behind its
prompt. -/
def receive (s : State) (chunks : List (List UInt8)) (len : ℕ) : Option (List UInt8) :=
  (machine.exec s (enter len chunks)).bind fun s' =>
    if s'.log.getLast? = some (.returned s.calls.length true) then some (s'.bufs s.calls.length)
    else none

/-! ## Filling the buffer -/

/-- The entry `k` has taken `bs`. -/
structure Filling (k len : ℕ) (bs : List UInt8) (s : State) : Prop where
  binBuf : s.binBuf = k
  at_ : s.at_ = .take k len
  buf : s.bufs k = bufWith len bs
  pending : bs.length < len → s.binHave = bs.length ∧ s.binNeed = len
  complete : bs.length = len → s.binDone = true

section

variable {k len : ℕ} {bs : List UInt8} {s : State}

/-- The entry takes one byte. -/
theorem Filling.byte (h : Filling k len bs s) (hlt : bs.length < len) {c : UInt8}
    {todo : List UInt8} (hrx : s.rx = .loop (c :: todo) []) :
    ∃ s', stepRx s = some s' ∧ Filling k len (bs ++ [c]) s' ∧ s'.rx = .loop todo [] := by
  obtain ⟨hhave, hneed⟩ := h.pending hlt
  have hopen : s.binHave < s.binNeed := by omega
  have hbuf : (s.bufs s.binBuf).set s.binHave c = bufWith len (bs ++ [c]) := by
    rw [h.binBuf, h.buf, hhave, bufWith_set hlt]
  have hlen : (bs ++ [c]).length = bs.length + 1 := List.length_append
  by_cases hlast : s.binHave + 1 = s.binNeed
  · simp only [stepRx, hrx, binByte, hopen, if_true, State.add, hlast, hbuf]
    refine ⟨_, rfl, ⟨h.binBuf, h.at_, ?_, fun hlt' => ?_, fun _ => rfl⟩, rfl⟩
    · rw [h.binBuf]
      exact Function.update_self _ _ _
    · omega
  · simp only [stepRx, hrx, binByte, hopen, if_true, State.add, hlast, if_false, hbuf]
    refine ⟨_, rfl, ⟨h.binBuf, h.at_, ?_, fun _ => ⟨?_, hneed⟩, fun hall => ?_⟩, rfl⟩
    · rw [h.binBuf]
      exact Function.update_self _ _ _
    · rw [hlen, hhave]
    · omega

/-- The entry takes one chunk. -/
theorem Filling.chunk (h : Filling k len bs s) {data : List UInt8}
    (hle : (bs ++ data).length ≤ len) (hrx : s.rx = .loop data []) :
    ∃ s', machine.exec s (List.replicate (data.length + 1) .rx) = some s' ∧
      Filling k len (bs ++ data) s' ∧ s'.rx = .idle := by
  induction data generalizing bs s with
  | nil =>
    refine ⟨{ s with rx := .idle }, ?_, ?_, rfl⟩
    · simp [Machine.exec, machine, step, stepRx, hrx]
    · rw [List.append_nil]
      exact ⟨h.binBuf, h.at_, h.buf, h.pending, h.complete⟩
  | cons c data ih =>
    rw [List.length_append, List.length_cons] at hle
    obtain ⟨s₁, hstep, h₁, hrx₁⟩ := h.byte (by omega) hrx
    obtain ⟨s', hexec, h', hidle⟩ := ih h₁
      (by simp only [List.length_append, List.length_singleton]; omega) hrx₁
    refine ⟨s', ?_, by simpa using h', hidle⟩
    rw [List.length_cons, List.replicate_succ]
    have hone : machine.step s .rx = some s₁ := hstep
    rw [Machine.exec, hone]
    exact hexec

/-- The entry takes one chunk after the other. -/
theorem Filling.chunks (h : Filling k len bs s) {chunks : List (List UInt8)}
    (hle : (bs ++ chunks.flatten).length ≤ len) (hrx : s.rx = .idle) :
    ∃ s', machine.exec s (chunks.flatMap fun data =>
        .rxEvent data :: List.replicate (data.length + 1) .rx) = some s' ∧
      Filling k len (bs ++ chunks.flatten) s' := by
  induction chunks generalizing bs s with
  | nil => exact ⟨s, rfl, by simpa using h⟩
  | cons data chunks ih =>
    rw [List.flatten_cons, ← List.append_assoc] at hle
    have hdata : (bs ++ data).length ≤ len := by
      rw [List.length_append] at hle
      omega
    have hstart : Filling k len bs { s with rx := .loop data [] } :=
      ⟨h.binBuf, h.at_, h.buf, h.pending, h.complete⟩
    obtain ⟨s₁, hexec₁, h₁, hidle₁⟩ := hstart.chunk hdata rfl
    obtain ⟨s', hexec, h'⟩ := ih h₁ hle hidle₁
    refine ⟨s', ?_, by simpa using h'⟩
    have hevent : machine.step s (.rxEvent data) = some { s with rx := .loop data [] } := by
      simp [machine, step, hrx]
    rw [List.flatMap_cons, List.cons_append, Machine.exec, hevent, Option.bind_some,
      Machine.exec_append, hexec₁]
    exact hexec

end

/-- **Binary entries.** The bytes that arrive behind the prompt are what is read, however they are
cut into chunks. -/
theorem receive_eq {s : State} (hat : s.at_ = .idle) (hrx : s.rx = .idle)
    {chunks : List (List UInt8)} (hne : chunks.flatten ≠ []) :
    receive s chunks chunks.flatten.length = some chunks.flatten := by
  have hpos := List.length_pos_iff.mpr hne
  obtain ⟨s₀, hprompt, hfill, hidle⟩ : ∃ s₀, machine.exec s
      [.readBinary chunks.flatten.length, .at_, .at_, .at_] = some s₀ ∧
      Filling s.calls.length chunks.flatten.length [] s₀ ∧ s₀.rx = .idle := by
    simp only [Machine.exec, machine, step, hat, if_true, Option.bind_some,
      readBinary, stepAt, State.add]
    refine ⟨_, rfl, ⟨rfl, rfl, ?_, fun _ => ⟨rfl, rfl⟩, fun hz => ?_⟩, hrx⟩
    · simp [bufWith]
    · rw [List.length_nil] at hz
      omega
  have hle : (([] : List UInt8) ++ chunks.flatten).length ≤ chunks.flatten.length := Nat.le_refl _
  obtain ⟨s', hexec, h'⟩ := hfill.chunks hle hidle
  have hdone : s'.binDone = true := h'.complete rfl
  have hat' := h'.at_
  have htake : machine.exec s' [.at_] = some
      ({ s' with binDone := false, at_ := .idle }.add [.returned s.calls.length true]) := by
    simp only [Machine.exec, machine, step, stepAt, hat', hdone, if_true, Option.bind_some]
  have hbuf := h'.buf
  rw [List.nil_append] at hbuf
  rw [receive, enter, Machine.exec_append, Machine.exec_append, hprompt, Option.bind_some, hexec,
    Option.bind_some, htake]
  simp [State.add, hbuf, bufWith]

end ZbAt.Uart.Bin
