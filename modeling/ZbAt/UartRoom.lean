import ZbAt.UartRxProof

/-!
# The AT input path: room for received data

`uart_cb` grants the driver a buffer only with two entries of `rx_events` free, but a buffer can
take any number of entries: the inactivity timeout ends a chunk after any byte.

* `Driven` — the machine of `UartRx` with what the driver still has to report, under the driver's
  full contract: it fills one buffer after the other, each from its start on.
* `InTime` — a chunk that does not fill its buffer comes while there is an entry for it and one for
  every buffer that is not full.
* `received_in_time` — then `k_msgq_put` finds an entry every time; and this is what it takes.
-/

namespace ZbAt.Uart.Rx

/-! ## The driver's contract -/

/-- `filled` bytes of the first held buffer are reported. `dropped`: an `UART_RX_RDY` found
`rx_events` full. -/
structure Driven where
  s : State
  filled : ℕ
  dropped : Bool

/-- What the driver does: it reports the bytes of its first buffer in order, and takes a buffer
only while it has no next one. -/
def Driven.Contract (d : Driven) : Action → Prop
  | .rxRdy buf offset _ => d.s.held.head? = some buf ∧ offset = d.filled
  | .rxBufRequest rspOk => rspOk = true → d.s.held.length < 2
  | _ => True

instance (d : Driven) (a : Action) : Decidable (d.Contract a) := by
  cases a with
  | rxRdy buf offset len => exact inferInstanceAs (Decidable (_ ∧ _))
  | rxBufRequest rspOk => exact inferInstanceAs (Decidable (_ → _))
  | _ => exact isTrue trivial

def Driven.filledAfter (d : Driven) : Action → ℕ
  | .rxRdy _ _ len => d.filled + len
  | .rxBufReleased buf => if d.s.held.head? = some buf then 0 else d.filled
  | _ => d.filled

/-- The `k_msgq_put` of `UART_RX_RDY` fails. -/
def Driven.drops (d : Driven) : Action → Bool
  | .rxRdy .. => rxEventCount ≤ d.s.rxEvents.length
  | _ => false

def Driven.step (base : ℕ) (d : Driven) (a : Action) : Option Driven :=
  if d.Contract a then
    (Rx.step base d.s a).map fun s' => ⟨s', d.filledAfter a, d.dropped || d.drops a⟩
  else none

def driven (base : ℕ) : Machine Driven Action := ⟨(· = ⟨init, 0, false⟩), Driven.step base⟩

/-- The buffers that the driver holds and has not filled. -/
def Driven.open_ (d : Driven) : ℕ := d.s.held.length - if d.filled = rxBufSize then 1 else 0

/-- A chunk that ends before its buffer is full leaves an entry for each buffer that is not full:
the thread has kept up with the chunks before. -/
def InTime (d : Driven) : Action → Prop
  | .rxRdy _ offset len =>
    offset + len < rxBufSize → d.s.rxEvents.length + d.open_ < rxEventCount
  | _ => True

instance (d : Driven) (a : Action) : Decidable (InTime d a) := by
  cases a with
  | rxRdy buf offset len => exact inferInstanceAs (Decidable (_ → _))
  | _ => exact isTrue trivial

section

variable {base : ℕ} {d d' : Driven} {a : Action}

theorem driven_step (h : (driven base).step d a = some d') : d.Contract a ∧
    ∃ s', Rx.step base d.s a = some s' ∧ d' = ⟨s', d.filledAfter a, d.dropped || d.drops a⟩ := by
  replace h : Driven.step base d a = some d' := h
  unfold Driven.step at h
  split_ifs at h with hc
  obtain ⟨s', hs, rfl⟩ := Option.map_eq_some_iff.mp h
  exact ⟨hc, s', hs, rfl⟩

/-- Under the contract the path is the one of `UartRx`. -/
theorem driven_simulation : Machine.Simulation (driven base) (fun _ _ => True) (machine base)
    fun d s => d.s = s where
  init := by
    rintro d rfl
    exact ⟨_, rfl, rfl⟩
  step := by
    rintro d a d' s rfl - hs
    obtain ⟨-, s', hs', rfl⟩ := driven_step hs
    refine ⟨[a], s', ?_, rfl⟩
    exact Option.bind_eq_some_iff.mpr ⟨s', hs', rfl⟩

theorem driven_inv (h : (driven base).Reach d) : Inv base d.s := by
  obtain ⟨s, hr, rfl⟩ := driven_simulation.reach h
  exact inv_reach hr

/-! ## The invariant -/

/-- Every buffer that the driver has not filled has an entry of `rx_events` left. -/
structure Ready (d : Driven) : Prop where
  /-- The thread enables reception only while it is off, with nothing queued. -/
  flag : d.s.rxDisabled = true → d.s.thread = .clear ∨ d.s.enabled = false
  empty : ∀ pc, d.s.thread = .enabling pc → d.s.rxEvents = []
  two : d.s.held.length ≤ 2
  idle : d.s.held = [] → d.filled = 0
  room : d.s.rxEvents.length + d.open_ ≤ rxEventCount
  kept : d.dropped = false

/-- `rx_enable` changes the slab only, or hands a buffer to the driver. -/
theorem rxEnable_cases {ok : Bool} {s s' : State} {pc : EnablePc} {r : EnablePc ⊕ Bool}
    (hs : rxEnable base ok s pc = some (s', r)) :
    (r ≠ .inr true ∧ ∃ P, s' = { s with pool := P }) ∨
      r = .inr true ∧ s.enabled = false ∧
        ∃ buf, s' = { s with enabled := true, held := s.held ++ [buf], rxOff := false } := by
  cases pc with
  | alloc =>
    simp only [rxEnable] at hs
    split at hs
    · cases hs; exact .inl ⟨by simp, _, rfl⟩
    · cases hs; exact .inl ⟨by simp, _, rfl⟩
  | set b => cases hs; exact .inl ⟨by simp, _, rfl⟩
  | enable buf =>
    simp only [rxEnable] at hs
    split_ifs at hs with hok hen
    · cases hs; exact .inr ⟨rfl, by simpa using hen, buf, rfl⟩
    · cases hs; exact .inl ⟨by simp, _, rfl⟩
  | unref buf =>
    simp only [rxEnable] at hs
    split_ifs at hs
    · cases hs; exact .inl ⟨by simp, _, rfl⟩
    · cases hs; exact .inl ⟨by simp, _, rfl⟩
  | free b => cases hs; exact .inl ⟨by simp, _, rfl⟩

/-- A step of a thread that leaves the queue and the driver alone. -/
theorem Ready.move (h : Ready d) {s' : State} (hev : s'.rxEvents = d.s.rxEvents)
    (hheld : s'.held = d.s.held)
    (hflag : s'.rxDisabled = true → s'.thread = .clear ∨ s'.enabled = false)
    (hempty : ∀ pc, s'.thread = .enabling pc → s'.rxEvents = []) :
    Ready ⟨s', d.filled, d.dropped⟩ where
  flag := hflag
  empty := hempty
  two := by rw [hheld]; exact h.two
  idle := by rw [hheld]; exact h.idle
  room := by
    have hroom := h.room
    simp only [Driven.open_, hev, hheld] at hroom ⊢
    exact hroom
  kept := h.kept

/-- The driver gets its first buffer, with nothing queued. -/
theorem Ready.enable (h : Ready d) {s' : State} {buf : ℕ} (hoff : d.s.held = [])
    (hev : s'.rxEvents = []) (hheld : s'.held = [buf])
    (hflag : s'.rxDisabled = true → s'.thread = .clear ∨ s'.enabled = false) :
    Ready ⟨s', d.filled, d.dropped⟩ where
  flag := hflag
  empty := fun _ _ => hev
  two := by rw [hheld]; exact Nat.le_succ 1
  idle := by rw [hheld]; intro hnil; cases hnil
  room := by
    have h0 := h.idle hoff
    simp [Driven.open_, hev, hheld, h0, rxBufSize, rxEventCount]
  kept := h.kept

theorem ready_main (hi : Inv base d.s) (h : Ready d) {ok : Bool} {s' : State}
    (hs : mainThread base ok d.s = some s') : Ready ⟨s', d.filled, d.dropped⟩ := by
  unfold mainThread at hs
  cases hm : d.s.main with
  | none => rw [hm] at hs; cases hs
  | some pc =>
    rw [hm] at hs
    obtain ⟨⟨s₁, r⟩, hr, rfl⟩ := Option.map_eq_some_iff.mp hs
    obtain ⟨hen, hdis, hev, ht⟩ := hi.starting (by simp [hm])
    rcases rxEnable_cases hr with ⟨-, P, rfl⟩ | ⟨-, -, buf, rfl⟩
    · exact h.move rfl rfl h.flag h.empty
    · have hoff := hi.off hen
      have hheld : d.s.held ++ [buf] = [buf] := by rw [hoff]; rfl
      refine h.enable hoff hev hheld ?_
      intro hd
      have hd' : d.s.rxDisabled = true := hd
      rw [hdis] at hd'
      cases hd'

theorem ready_thread (hi : Inv base d.s) (h : Ready d) {ok : Bool} {s' : State}
    (hs : rxThread base ok d.s = some s') : Ready ⟨s', d.filled, d.dropped⟩ := by
  have hoff : d.s.thread ≠ .clear → d.s.rxDisabled = true → d.s.enabled = false :=
    fun hc hd => (h.flag hd).resolve_left hc
  unfold rxThread at hs
  cases ht : d.s.thread with
  | top =>
    rw [ht] at hs hoff
    dsimp only at hs
    split at hs
    · cases hs
      exact h.move rfl rfl (fun hd => .inr (hoff (by simp) hd)) (by simp)
    · rename_i ev rest he
      cases hs
      refine ⟨fun hd => .inr (hoff (by simp) hd), by simp, h.two, h.idle, ?_, h.kept⟩
      have hroom := h.room
      rw [he, List.length_cons] at hroom
      simp only [Driven.open_] at hroom ⊢
      omega
  | process ev =>
    rw [ht] at hs hoff
    cases hs
    exact h.move rfl rfl (fun hd => .inr (hoff (by simp) hd)) (by simp)
  | unref ev =>
    rw [ht] at hs hoff
    cases hs
    refine h.move rfl rfl (fun hd => .inr (hoff (by simp) hd)) ?_
    intro pc hpc
    dsimp only at hpc
    split_ifs at hpc
  | free b =>
    rw [ht] at hs hoff
    cases hs
    exact h.move rfl rfl (fun hd => .inr (hoff (by simp) hd)) (by simp)
  | checkFlag =>
    rw [ht] at hs hoff
    cases hs
    refine h.move rfl rfl (fun hd => .inr (hoff (by simp) hd)) ?_
    intro pc hpc
    dsimp only at hpc
    split_ifs at hpc
  | checkQueue =>
    rw [ht] at hs hoff
    cases hs
    refine h.move rfl rfl (fun hd => .inr (hoff (by simp) hd)) ?_
    intro pc hpc
    dsimp only at hpc
    split_ifs at hpc with hlen
    exact List.eq_nil_of_length_eq_zero hlen
  | enabling pc =>
    rw [ht] at hs hoff
    obtain ⟨⟨s₁, r⟩, hr, rfl⟩ := Option.map_eq_some_iff.mp hs
    have hev := h.empty pc ht
    rcases rxEnable_cases hr with ⟨-, P, rfl⟩ | ⟨rfl, hen, buf, rfl⟩
    · exact h.move rfl rfl (fun hd => .inr (hoff (by simp) hd)) (fun _ _ => hev)
    · have hnil := hi.off hen
      have hheld : d.s.held ++ [buf] = [buf] := by rw [hnil]; rfl
      exact h.enable hnil hev hheld fun _ => .inl rfl
  | clear =>
    rw [ht] at hs
    cases hs
    exact h.move rfl rfl (fun hd => absurd hd Bool.false_ne_true) (by simp)

/-- While the driver receives, the thread is not enabling reception. -/
theorem Ready.not_enabling (hi : Inv base d.s) (h : Ready d) (hen : d.s.enabled = true)
    (pc : EnablePc) : d.s.thread ≠ .enabling pc := by
  intro ht
  rcases h.flag (hi.flagged (by rw [ht]; rfl)) with hc | hoff
  · rw [ht] at hc
    cases hc
  · rw [hen] at hoff
    cases hoff

theorem Ready.open_pos {buf : ℕ} (hm : buf ∈ d.s.held) (hf : d.filled < rxBufSize) :
    0 < d.open_ := by
  have hlen := List.length_pos_of_mem hm
  rw [Driven.open_, if_neg (Nat.ne_of_lt hf)]
  omega

/-- A chunk finds an entry, and leaves one for every buffer that is not full. -/
theorem ready_rdy (hi : Inv base d.s) (h : Ready d) {buf offset len : ℕ} {s' : State}
    (hcon : d.Contract (.rxRdy buf offset len)) (hc : InTime d (.rxRdy buf offset len))
    (hs : Rx.step base d.s (.rxRdy buf offset len) = some s') :
    Ready ⟨s', d.filled + len, d.dropped || d.drops (.rxRdy buf offset len)⟩ := by
  simp only [Rx.step] at hs
  split_ifs at hs with hg
  cases hs
  obtain ⟨hm, hpos, hle⟩ := hg
  obtain ⟨-, rfl⟩ := hcon
  have hopen := Ready.open_pos hm (by omega)
  have hroom := h.room
  have hlt : d.s.rxEvents.length < rxEventCount := by omega
  have hdrops : d.drops (.rxRdy buf d.filled len) = false := by
    rw [Driven.drops, decide_eq_false_iff_not]
    omega
  rw [cbRxRdy, if_pos hlt]
  refine ⟨h.flag, fun pc ht => absurd ht (h.not_enabling hi (hi.enabled_of_held hm) pc), h.two, ?_,
    ?_, by rw [h.kept, hdrops]; rfl⟩
  · intro hnil
    have hnil' : d.s.held = [] := hnil
    rw [hnil'] at hm
    cases hm
  · rw [Driven.open_, if_neg (by omega)] at hroom hopen
    simp only [Driven.open_, List.length_append, List.length_singleton]
    by_cases hfull : d.filled + len = rxBufSize
    · rw [if_pos hfull]
      omega
    · have hcond := hc (by omega)
      rw [Driven.open_, if_neg (by omega)] at hcond
      rw [if_neg hfull]
      omega

/-- A granted buffer finds an entry for itself and one for the buffer before it. -/
theorem ready_request (h : Ready d) {rspOk : Bool} {s' : State}
    (hcon : d.Contract (.rxBufRequest rspOk))
    (hs : Rx.step base d.s (.rxBufRequest rspOk) = some s') : Ready ⟨s', d.filled, d.dropped⟩ := by
  simp only [Rx.step] at hs
  split_ifs at hs with hen
  cases hs
  unfold cbRxBufRequest
  by_cases hfree : rxEventCount - d.s.rxEvents.length < 2
  · rw [if_pos hfree]
    exact h
  · rw [if_neg hfree]
    cases hal : rxBufAlloc base d.s.pool with
    | none => exact h
    | some alloc =>
      dsimp only
      split_ifs with hok
      · have hlt := hcon hok
        refine ⟨h.flag, h.empty, ?_, ?_, ?_, h.kept⟩
        · rw [List.length_append, List.length_singleton]
          exact hlt
        · intro hnil
          exact absurd hnil (by simp)
        · simp only [Driven.open_, List.length_append, List.length_singleton, rxEventCount]
            at hfree ⊢
          omega
      · exact h.move rfl rfl h.flag h.empty

theorem ready_released (h : Ready d) {buf : ℕ} {s' : State}
    (hs : Rx.step base d.s (.rxBufReleased buf) = some s') :
    Ready ⟨s', d.filledAfter (.rxBufReleased buf), d.dropped⟩ := by
  simp only [Rx.step] at hs
  split_ifs at hs with hm
  cases hs
  have hlen := List.length_erase_of_mem hm
  have hroom := h.room
  have htwo := h.two
  refine ⟨h.flag, h.empty, ?_, ?_, ?_, h.kept⟩
  · exact Nat.le_trans (Nat.le_of_eq hlen) (by omega)
  · intro hnil
    cases hheld : d.s.held with
    | nil =>
      rw [hheld] at hm
      cases hm
    | cons b rest =>
      by_cases hb : b = buf
      · rw [Driven.filledAfter, hheld, if_pos (by rw [hb]; rfl)]
      · have hnil' : d.s.held.erase buf = [] := hnil
        rw [hheld, List.erase_cons_tail (by simpa using hb)] at hnil'
        cases hnil'
  · simp only [Driven.open_, Driven.filledAfter, cbRxBufReleased, hlen] at hroom ⊢
    split_ifs at hroom ⊢ <;> omega

theorem ready_step (hi : Inv base d.s) (h : Ready d) (hc : InTime d a)
    (hs : (driven base).step d a = some d') : Ready d' := by
  obtain ⟨hcon, s', hs', rfl⟩ := driven_step hs
  cases a with
  | rxRdy buf offset len => exact ready_rdy hi h hcon hc hs'
  | main ok =>
    have hready := ready_main hi h hs'
    simpa [Driven.drops, Driven.filledAfter] using hready
  | thread ok =>
    have hready := ready_thread hi h hs'
    simpa [Driven.drops, Driven.filledAfter] using hready
  | rxBufRequest rspOk =>
    have hready := ready_request h hcon hs'
    simpa [Driven.drops, Driven.filledAfter] using hready
  | rxBufReleased buf =>
    have hready := ready_released h hs'
    simpa [Driven.drops] using hready
  | rxDisabled =>
    simp only [Rx.step] at hs'
    split_ifs at hs' with hg
    cases hs'
    have hready : Ready ⟨cbRxDisabled d.s, d.filled, d.dropped⟩ :=
      h.move rfl rfl (fun _ => .inr rfl) h.empty
    simpa [Driven.drops, Driven.filledAfter] using hready
  | rxStopped =>
    cases hs'
    simpa [Driven.drops, Driven.filledAfter] using h

theorem ready (h : (driven base).ReachIf InTime d) : Ready d := by
  refine Machine.ReachIf.invariant_of (fun d => Inv base d.s) Ready (fun d => driven_inv) ?_ ?_ h
  · rintro d rfl
    exact ⟨fun hd => absurd hd Bool.false_ne_true, fun _ _ => rfl, Nat.zero_le _, fun _ => rfl,
      Nat.zero_le _, rfl⟩
  · intro d a d' hi _ hd hc hs
    exact ready_step hi hd hc hs

/-! ## A chunk that comes too early -/

/-- The driver moves, and no thread. -/
def Action.byDriver : Action → Bool
  | .main _ | .thread _ => false
  | _ => true

/-- The driver alone can bring about that a chunk is dropped. -/
def Drops (base : ℕ) (d : Driven) : Prop :=
  ∃ as t, as.all Action.byDriver = true ∧ (driven base).exec d as = some t ∧ t.dropped = true

theorem Drops.now (h : d.dropped = true) : Drops base d := ⟨[], d, rfl, rfl, h⟩

theorem Drops.before (h : Drops base d') (ha : a.byDriver = true)
    (hs : (driven base).step d a = some d') : Drops base d := by
  obtain ⟨as, t, has, he, ht⟩ := h
  refine ⟨a :: as, t, ?_, ?_, ht⟩
  · rw [List.all_cons, ha, has]
    rfl
  · rw [Machine.exec, hs]
    exact he

/-- The driver has reported `len` more bytes of its first buffer. -/
def Driven.rdy (base : ℕ) (d : Driven) (buf len : ℕ) : Driven :=
  ⟨cbRxRdy base buf d.filled len d.s, d.filled + len,
    d.dropped || rxEventCount ≤ d.s.rxEvents.length⟩

theorem driven_rdy {buf len : ℕ} (hb : d.s.held.head? = some buf) (hpos : 0 < len)
    (hle : d.filled + len ≤ rxBufSize) :
    (driven base).step d (.rxRdy buf d.filled len) = some (d.rdy base buf len) := by
  have hm : buf ∈ d.s.held := List.mem_of_mem_head? hb
  have hcon : d.Contract (.rxRdy buf d.filled len) := ⟨hb, rfl⟩
  have hs : Rx.step base d.s (.rxRdy buf d.filled len) =
      some (cbRxRdy base buf d.filled len d.s) := if_pos ⟨hm, hpos, hle⟩
  show Driven.step base d (.rxRdy buf d.filled len) = _
  rw [Driven.step, if_pos hcon, hs]
  rfl

theorem driven_released {buf : ℕ} (hb : d.s.held.head? = some buf) :
    (driven base).step d (.rxBufReleased buf) =
      some ⟨cbRxBufReleased base buf d.s, 0, d.dropped⟩ := by
  have hm : buf ∈ d.s.held := List.mem_of_mem_head? hb
  have hcon : d.Contract (.rxBufReleased buf) := trivial
  have hs : Rx.step base d.s (.rxBufReleased buf) = some (cbRxBufReleased base buf d.s) :=
    if_pos hm
  show Driven.step base d (.rxBufReleased buf) = _
  rw [Driven.step, if_pos hcon, hs]
  simp [Driven.filledAfter, hb, Driven.drops]

theorem held_cbRxRdy (buf offset len : ℕ) (s : State) :
    (cbRxRdy base buf offset len s).held = s.held := by
  unfold cbRxRdy
  dsimp only
  split_ifs <;> rfl

theorem length_cbRxRdy {s : State} (h : s.rxEvents.length < rxEventCount) (buf offset len : ℕ) :
    (cbRxRdy base buf offset len s).rxEvents.length = s.rxEvents.length + 1 := by
  rw [cbRxRdy, if_pos h, List.length_append, List.length_singleton]

/-- With the queue full, a buffer that the driver has not filled is enough. -/
theorem drops_full {buf : ℕ} (hb : d.s.held.head? = some buf) (hf : d.filled < rxBufSize)
    (hfull : rxEventCount ≤ d.s.rxEvents.length) : Drops base d := by
  refine Drops.before (.now ?_) rfl (driven_rdy hb (by omega : 0 < rxBufSize - d.filled) (by omega))
  rw [Driven.rdy, decide_eq_true hfull, Bool.or_true]

/-- With one entry left, a second buffer is enough: the driver fills both. -/
theorem drops_second {buf next : ℕ} (hheld : d.s.held = [buf, next]) (hf : d.filled < rxBufSize)
    (hlen : d.s.rxEvents.length + 1 = rxEventCount) : Drops base d := by
  have hb : d.s.held.head? = some buf := by rw [hheld]; rfl
  have hheld' : (d.rdy base buf (rxBufSize - d.filled)).s.held = [buf, next] :=
    (held_cbRxRdy _ _ _ _).trans hheld
  refine Drops.before ?_ rfl (driven_rdy hb (by omega : 0 < rxBufSize - d.filled) (by omega))
  refine Drops.before ?_ rfl (driven_released (by rw [hheld']; rfl))
  have hnext : ((d.rdy base buf (rxBufSize - d.filled)).s.held.erase buf).head? = some next := by
    rw [hheld']
    simp
  have hempty : 0 < rxBufSize := by decide
  refine drops_full (d := ⟨cbRxBufReleased _ _ _, 0, _⟩) hnext hempty ?_
  show rxEventCount ≤ (cbRxRdy base buf d.filled (rxBufSize - d.filled) d.s).rxEvents.length
  rw [length_cbRxRdy (by omega)]
  omega

/-- A chunk that comes too early is dropped, or the driver alone can make it drop another. -/
theorem drops_early (h : Ready d) (hs : (driven base).step d a = some d') (hc : ¬InTime d a) :
    Drops base d' := by
  cases a with
  | rxRdy buf offset len =>
    obtain ⟨⟨hb, rfl⟩, -⟩ := driven_step hs
    simp only [InTime, Classical.not_imp, Nat.not_lt] at hc
    obtain ⟨hpart, hmany⟩ := hc
    obtain ⟨-, s', hs', -⟩ := driven_step hs
    simp only [Rx.step] at hs'
    split_ifs at hs' with hg
    rw [driven_rdy hb hg.2.1 (Nat.le_of_lt hpart)] at hs
    cases hs
    by_cases hfull : rxEventCount ≤ d.s.rxEvents.length
    · exact .now (by rw [Driven.rdy, decide_eq_true hfull, Bool.or_true])
    · have hheld : (d.rdy base buf len).s.held = d.s.held := held_cbRxRdy _ _ _ _
      have hlen : (d.rdy base buf len).s.rxEvents.length = d.s.rxEvents.length + 1 :=
        length_cbRxRdy (by omega) _ _ _
      have htwo := h.two
      rw [Driven.open_, if_neg (by omega)] at hmany
      by_cases hone : d.s.rxEvents.length + 1 = rxEventCount
      · exact drops_full (by rw [hheld]; exact hb) hpart (by omega)
      · -- one entry is left after the chunk, and two buffers
        obtain ⟨b, next, hbn⟩ := List.length_eq_two.mp (by omega : d.s.held.length = 2)
        obtain rfl : b = buf := by
          rw [hbn] at hb
          exact Option.some.inj hb
        exact drops_second (hheld.trans hbn) hpart (by omega)
  | _ => exact absurd trivial hc

end

/-- **Received in time.** In every run in which no chunk comes too early, every chunk finds an entry
of `rx_events`. From the first one that comes too early the driver can go on, with the threads
standing still, to where a chunk is dropped. -/
theorem received_in_time (base : ℕ) :
    (∀ d, (driven base).ReachIf InTime d → d.dropped = false) ∧
    ∀ d a d', (driven base).ReachIf InTime d → (driven base).step d a = some d' → ¬InTime d a →
      ∃ as t, as.all Action.byDriver = true ∧ (driven base).exec d' as = some t ∧
        t.dropped = true := by
  refine ⟨fun d h => (ready h).kept, ?_⟩
  intro d a d' h hs hc
  exact drops_early (ready h) hs hc

/-- `at_uart_init` enables reception, and `n` bytes arrive one at a time. -/
def slowBytes (n : ℕ) : List Action :=
  List.replicate 3 (.main true) ++ (List.range n).map fun i => .rxRdy (dataOf 0 0) i 1

theorem slowBytes_exec :
    ((driven 0).exec ⟨init, 0, false⟩ (slowBytes 9)).map (·.dropped) = some true := by
  decide

/-- Nine bytes of one buffer, more than 2 ms apart, while the thread is blocked. -/
theorem bytes_dropped : ¬∀ base d, (driven base).Reach d → d.dropped = false := by
  intro hclaim
  obtain ⟨d, he, hd⟩ := Option.map_eq_some_iff.mp slowBytes_exec
  rw [hclaim 0 d (Machine.Reach.exec (.init rfl) he)] at hd
  cases hd

/-- Seven such bytes, and one that the thread was in time for. -/
def timelyBytes : List Action :=
  slowBytes 7 ++ [.thread true, .rxRdy (dataOf 0 0) 7 1, .rxBufRequest true,
    .thread true, .thread true, .thread true, .thread true, .rxRdy (dataOf 0 0) 8 248]

theorem timelyBytes_exec : ((driven 0).execIf InTime ⟨init, 0, false⟩ timelyBytes).map
    (fun d => (d.s.rxEvents.length, d.filled)) = some (7, 256) := by
  decide

theorem received_in_time_bytes : ∃ d, (driven 0).ReachIf InTime d ∧ d.filled = 256 ∧
    d.dropped = false := by
  obtain ⟨d, he, hd⟩ := Option.map_eq_some_iff.mp timelyBytes_exec
  simp only [Prod.mk.injEq] at hd
  have hr := Machine.ReachIf.execIf (.init rfl) he
  exact ⟨d, hr, hd.2, (received_in_time 0).1 d hr⟩

end ZbAt.Uart.Rx
