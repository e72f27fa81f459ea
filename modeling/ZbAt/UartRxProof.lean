import ZbAt.UartRx

/-!
# The AT input path: every block is accounted for

`Core` says of the slab, the buffers the driver holds (`held`), the buffers `rx_enable` has in
hand (`handed`), the blocks between a reference count and the free list (`busy`) and the events
queued or in process: the reference counts are right, a buffer has one holder, and every pointer
points into the data of a block. Each operation of the source is one rule for `Core`; the steps
of the machine are put together from these.

* `inv_reach` — `Core` holds in every reachable state.
* `flag_reach` — while no `UART_RX_DISABLED` lands between the thread's `uart_rx_enable` and its
  `atomic_set`, reception that is off is flagged.
-/

namespace ZbAt.Uart.Rx

open RefPool

/-- The block that `rx_enable` has between its reference count and the free list. -/
def EnablePc.busy (pc : EnablePc) : List ℕ := pc.allocating ++ pc.freeing

def ThreadPc.busy (t : ThreadPc) : List ℕ := t.allocating ++ t.freeing

/-- The blocks between their reference count and the free list. -/
def State.busy (s : State) : List ℕ := (s.main.elim [] EnablePc.busy) ++ s.thread.busy

variable {base : ℕ}

/-! ## Addresses -/

/-- `rx_block` finds the block of every address inside its data. -/
theorem rxBlock_dataOf (base b : ℕ) {off : ℕ} (h : off < rxBufSize) :
    rxBlock base (dataOf base b + off) = b := by
  simp only [rxBlock, dataOf, sizeofRxBuf, dataOffset, rxBufSize] at h ⊢
  omega

@[simp] theorem rxBlock_dataOf_zero (base b : ℕ) : rxBlock base (dataOf base b) = b :=
  rxBlock_dataOf base b (by decide : 0 < rxBufSize)

theorem blocks_nodup : (List.range rxBufCount).Nodup := List.nodup_range

/-! ## The core of the invariant -/

/-- The blocks of all references: one for each buffer held or in hand, one for each event. -/
def refBlocks (base : ℕ) (held handed : List ℕ) (evs : List RxEvent) : List ℕ :=
  (handed ++ held).map (rxBlock base) ++ evs.map fun ev => rxBlock base ev.data

structure Core (base : ℕ) (P : RefPool ℕ) (held handed busy : List ℕ) (evs : List RxEvent) :
    Prop where
  pool : P.Ok (List.range rxBufCount) busy (refBlocks base held handed evs)
  owners : ((handed ++ held).map (rxBlock base)).Nodup
  bufs : ∀ p ∈ handed ++ held, ∃ b < rxBufCount, p = dataOf base b
  evs : ∀ ev ∈ evs, ∃ b < rxBufCount, ∃ off, ev.data = dataOf base b + off ∧ 0 < ev.len ∧
    off + ev.len ≤ rxBufSize

variable {P : RefPool ℕ} {held handed busy : List ℕ} {evs : List RxEvent}

theorem mem_refBlocks {p : ℕ} (h : p ∈ handed ++ held) :
    rxBlock base p ∈ refBlocks base held handed evs :=
  List.mem_append_left _ (List.mem_map_of_mem h)

/-- `k_mem_slab_alloc` -/
theorem Core.alloc (h : Core base P held handed busy evs) {b : ℕ} {rest : List ℕ}
    (hf : P.free = b :: rest) : Core base { P with free := rest } held handed (b :: busy) evs :=
  { h with pool := h.pool.pop hf }

/-- The first reference of a new block. -/
theorem Core.set (h : Core base P held handed busy evs) {b : ℕ} {rest : List ℕ}
    (hb : busy = b :: rest) :
    Core base (P.setRefs b 1) held (dataOf base b :: handed) rest evs := by
  subst hb
  have hpool := h.pool.set blocks_nodup
  have h0 := h.pool.busy_count blocks_nodup List.mem_cons_self
  have hlt : b < rxBufCount := by
    have hp := h.pool.place b
    rw [List.count_cons_self] at hp
    exact List.mem_range.mp (List.count_pos_iff.mp (by omega))
  refine { h with pool := by simpa [refBlocks] using hpool, owners := ?_, bufs := ?_ }
  · simp only [List.cons_append, List.map_cons, rxBlock_dataOf_zero]
    refine List.nodup_cons.mpr ⟨?_, h.owners⟩
    intro hm
    exact List.count_eq_zero.mp h0 (List.mem_append_left _ hm)
  · intro p hp
    rcases List.mem_cons.mp hp with rfl | hp
    · exact ⟨b, hlt, rfl⟩
    · exact h.bufs p hp

/-- The driver takes a buffer. -/
theorem Core.hold {buf : ℕ} (h : Core base P held (buf :: handed) busy evs) :
    Core base P (held ++ [buf]) handed busy evs := by
  have hperm : (buf :: handed ++ held).Perm (handed ++ (held ++ [buf])) := by
    rw [← List.append_assoc]
    exact (List.perm_append_singleton buf (handed ++ held)).symm
  exact {
    pool := h.pool.perm .rfl ((hperm.map _).append_right _)
    owners := (hperm.map _).nodup_iff.mp h.owners
    bufs := fun p hp => h.bufs p (hperm.mem_iff.mpr hp)
    evs := h.evs }

/-- `atomic_dec` for a buffer in hand. -/
theorem Core.unrefHanded {buf : ℕ} (h : Core base P held (buf :: handed) busy evs) :
    Core base (P.setRefs (rxBlock base buf) (P.refs (rxBlock base buf) - 1)) held handed
      (if P.refs (rxBlock base buf) = 1 then rxBlock base buf :: busy else busy) evs where
  pool := h.pool.unref
  owners := (List.nodup_cons.mp h.owners).2
  bufs := fun p hp => h.bufs p (List.mem_cons_of_mem _ hp)
  evs := h.evs

/-- `atomic_dec` for an event. -/
theorem Core.unrefEvent {ev : RxEvent} (h : Core base P held handed busy (ev :: evs)) :
    Core base (P.setRefs (rxBlock base ev.data) (P.refs (rxBlock base ev.data) - 1)) held handed
      (if P.refs (rxBlock base ev.data) = 1 then rxBlock base ev.data :: busy else busy) evs where
  pool := (h.pool.perm .rfl List.perm_middle).unref
  owners := h.owners
  bufs := h.bufs
  evs := fun e he => h.evs e (List.mem_cons_of_mem _ he)

/-- `k_mem_slab_free` -/
theorem Core.free {b : ℕ} (h : Core base P held handed (b :: busy) evs) :
    Core base { P with free := b :: P.free } held handed busy evs :=
  { h with pool := h.pool.push }

/-- `rx_buf_unref` in the callback, for a buffer in its hand. -/
theorem Core.rxBufUnref {buf : ℕ} (h : Core base P held (buf :: handed) busy evs) :
    Core base (rxBufUnref base buf P) held handed busy evs := by
  have hu := h.unrefHanded
  unfold Rx.rxBufUnref
  dsimp only
  split_ifs at hu ⊢ with h1
  · exact hu.free
  · exact hu

/-- The callback takes a buffer back from the driver. -/
theorem Core.release {buf : ℕ} (h : Core base P held handed busy evs) (hm : buf ∈ held) :
    Core base P (held.erase buf) (buf :: handed) busy evs := by
  have hperm : (handed ++ held).Perm (buf :: handed ++ held.erase buf) :=
    ((List.perm_cons_erase hm).append_left handed).trans List.perm_middle
  exact {
    pool := h.pool.perm .rfl ((hperm.map _).append_right _)
    owners := (hperm.map _).nodup_iff.mp h.owners
    bufs := fun p hp => h.bufs p (hperm.mem_iff.mpr hp)
    evs := h.evs }

/-- `rx_buf_ref` and the event that the reference is for. -/
theorem Core.event {buf off len : ℕ} (h : Core base P held handed busy evs) (hm : buf ∈ held)
    (hlen : 0 < len) (hoff : off + len ≤ rxBufSize) :
    Core base (rxBufRef base buf P) held handed busy (evs ++ [⟨buf + off, len⟩]) := by
  have hmem : buf ∈ handed ++ held := List.mem_append_right _ hm
  obtain ⟨b, hb, rfl⟩ := h.bufs buf hmem
  have hblock : rxBlock base (dataOf base b + off) = b := rxBlock_dataOf base b (by omega)
  have hpool := h.pool.ref (mem_refBlocks hmem)
  refine { h with pool := ?_, evs := ?_ }
  · apply hpool.perm .rfl
    simp only [refBlocks, List.map_append, List.map_cons, List.map_nil, hblock,
      rxBlock_dataOf_zero, ← List.append_assoc]
    exact (List.perm_append_singleton _ _).symm
  · intro e he
    rcases List.mem_append.mp he with he | he
    · exact h.evs e he
    · rw [List.mem_singleton.mp he]
      exact ⟨b, hb, off, rfl, hlen, hoff⟩

/-- `rx_buf_ref` undone by `rx_buf_unref` (the event queue is full). -/
theorem Core.dropped {buf : ℕ} (h : Core base P held handed busy evs) (hm : buf ∈ held) :
    Core base (Rx.rxBufUnref base buf (rxBufRef base buf P)) held handed busy evs := by
  have hmem : buf ∈ handed ++ held := List.mem_append_right _ hm
  have hu := (h.pool.ref (mem_refBlocks hmem)).unref
  refine { h with pool := ?_ }
  unfold Rx.rxBufUnref rxBufRef
  dsimp only
  split_ifs at hu ⊢ with h1
  · exact hu.push
  · exact hu

/-! ## The calls of rx_enable -/


/-- What `rx_enable` has in hand where it continues, or nothing when it returned. -/
def resHanded : EnablePc ⊕ Bool → List ℕ := Sum.elim EnablePc.handed fun _ => []

def resBusy : EnablePc ⊕ Bool → List ℕ := Sum.elim EnablePc.busy fun _ => []

theorem core_rxEnable {ok : Bool} {s s' : State} {pc : EnablePc} {r : EnablePc ⊕ Bool}
    (h : Core base s.pool s.held pc.handed pc.busy evs)
    (hs : rxEnable base ok s pc = some (s', r)) :
    Core base s'.pool s'.held (resHanded r) (resBusy r) evs := by
  cases pc with
  | alloc =>
    simp only [rxEnable] at hs
    split at hs
    · cases hs; exact h
    · cases hs; exact h.alloc ‹_›
  | set b => cases hs; exact h.set rfl
  | enable buf =>
    simp only [rxEnable] at hs
    split_ifs at hs
    · cases hs; exact h.hold
    · cases hs; exact h
  | unref buf =>
    have hu := h.unrefHanded
    simp only [rxEnable] at hs
    split_ifs at hs hu <;> cases hs <;> exact hu
  | free b => cases hs; exact h.free

/-- `rx_enable` touches the slab and, when it succeeds, the driver. -/
theorem rxEnable_frame {ok : Bool} {s s' : State} {pc : EnablePc} {r : EnablePc ⊕ Bool}
    (hs : rxEnable base ok s pc = some (s', r)) :
    s'.rxEvents = s.rxEvents ∧ s'.thread = s.thread ∧ s'.main = s.main ∧
      s'.rxDisabled = s.rxDisabled ∧
      ((r = .inr true ∧ s'.enabled = true ∧ s'.rxOff = false) ∨
        (r ≠ .inr true ∧ s'.enabled = s.enabled ∧ s'.held = s.held ∧ s'.rxOff = s.rxOff)) := by
  cases pc with
  | alloc => simp only [rxEnable] at hs; split at hs <;> cases hs <;> simp
  | set b => cases hs; simp
  | enable buf => simp only [rxEnable] at hs; split_ifs at hs <;> cases hs <;> simp
  | unref buf => simp only [rxEnable] at hs; split_ifs at hs <;> cases hs <;> simp
  | free b => cases hs; simp

/-! ## The invariant -/

/-- `rx_thread` has taken the flag for set, and not cleared it yet. -/
def ThreadPc.restarting : ThreadPc → Bool
  | .checkQueue | .enabling _ | .clear => true
  | _ => false

structure Inv (base : ℕ) (s : State) : Prop where
  core : Core base s.pool s.held s.handed s.busy s.events
  off : s.enabled = false → s.held = []
  /-- Until `at_uart_init` returns, the driver has nothing and the thread waits. -/
  starting : s.main ≠ none → s.enabled = false ∧ s.rxDisabled = false ∧ s.rxEvents = [] ∧
    (s.thread = .top ∨ s.thread = .checkFlag)
  flagged : s.thread.restarting = true → s.rxDisabled = true

theorem inv_init (base : ℕ) : Inv base init where
  core := ⟨⟨fun _ => rfl, fun b => rfl⟩, List.nodup_nil, fun _ h => absurd h List.not_mem_nil,
    fun _ h => absurd h List.not_mem_nil⟩
  off := fun _ => rfl
  starting := fun _ => ⟨rfl, rfl, rfl, .inl rfl⟩
  flagged := fun h => by cases h

theorem Inv.main_none {s : State} (h : Inv base s) (hd : s.rxDisabled = true) : s.main = none := by
  by_contra hm
  have := (h.starting hm).2.1
  rw [hd] at this
  cases this

theorem State.handed_of_main {s : State} (h : s.main = none) : s.handed = s.thread.handed := by
  simp [State.handed, h]

theorem State.busy_of_main {s : State} (h : s.main = none) : s.busy = s.thread.busy := by
  simp [State.busy, h]

theorem resume_lists (r : EnablePc ⊕ Bool) :
    (ThreadPc.resume r).handed = resHanded r ∧ (ThreadPc.resume r).busy = resBusy r ∧
      (ThreadPc.resume r).processing = [] := by
  rcases r with pc | b
  · exact ⟨rfl, rfl, rfl⟩
  · cases b <;> exact ⟨rfl, rfl, rfl⟩

/-- A step of the thread that leaves the slab and the driver alone. -/
theorem inv_threadMove {s : State} (h : Inv base s) {t : ThreadPc} {evs : List RxEvent}
    (hevs : t.processing ++ evs = s.thread.processing ++ s.rxEvents)
    (hh : t.handed = s.thread.handed) (hb : t.busy = s.thread.busy)
    (hst : s.main ≠ none → evs = [] ∧ (t = .top ∨ t = .checkFlag))
    (hfl : t.restarting = true → s.rxDisabled = true) :
    Inv base { s with rxEvents := evs, thread := t } where
  core := by
    have hc := h.core
    simp only [State.handed, State.busy, State.events, hh, hb, hevs] at hc ⊢
    exact hc
  off := h.off
  starting := fun hm => ⟨(h.starting hm).1, (h.starting hm).2.1, hst hm⟩
  flagged := hfl

/-- A step of the thread that is not waiting for `at_uart_init`: `hc` is the core after it. -/
theorem inv_threadRun {s : State} (h : Inv base s) (hmain : s.main = none) {P : RefPool ℕ}
    {t : ThreadPc}
    (hc : Core base P s.held t.handed t.busy (t.processing ++ s.rxEvents))
    (hfl : t.restarting = true → s.rxDisabled = true) :
    Inv base { s with pool := P, thread := t } where
  core := by
    simp only [State.handed, State.busy, State.events, hmain, Option.elim_none, List.nil_append]
    exact hc
  off := h.off
  starting := fun hm => absurd hmain hm
  flagged := hfl

theorem inv_enabling {s s' : State} (h : Inv base s) {ok : Bool} {pc : EnablePc}
    {r : EnablePc ⊕ Bool} (ht : s.thread = .enabling pc)
    (hs : rxEnable base ok s pc = some (s', r)) : Inv base { s' with thread := .resume r } := by
  have hd : s.rxDisabled = true := h.flagged (by rw [ht]; rfl)
  have hm := h.main_none hd
  have hc := h.core
  rw [State.handed_of_main hm, State.busy_of_main hm, State.events, ht] at hc
  have hcore := core_rxEnable hc hs
  obtain ⟨hev, -, hmain, hdis, hout⟩ := rxEnable_frame hs
  have hm' : s'.main = none := hmain.trans hm
  obtain ⟨hrh, hrb, hrp⟩ := resume_lists r
  refine ⟨?_, ?_, fun hn => absurd hm' hn, fun _ => hdis.trans hd⟩
  · simp only [State.handed, State.busy, State.events, hm', hrh, hrb, hrp, hev]
    exact hcore
  · show s'.enabled = false → s'.held = []
    rcases hout with ⟨-, he, -⟩ | ⟨-, he, hh, -⟩
    · rw [he]; exact fun h => by cases h
    · rw [he, hh]; exact h.off

/-- The thread only waits while `at_uart_init` runs. -/
theorem Inv.main_none_of_thread {s : State} (h : Inv base s) (h1 : s.thread ≠ .top)
    (h2 : s.thread ≠ .checkFlag) : s.main = none := by
  by_contra hm
  exact (h.starting hm).2.2.2.elim h1 h2

theorem inv_thread {s s' : State} (h : Inv base s) {ok : Bool}
    (hs : rxThread base ok s = some s') : Inv base s' := by
  have hstart := h.starting
  have hc := h.core
  unfold rxThread at hs
  cases ht : s.thread with
  | top =>
    rw [ht] at hs
    dsimp only at hs
    split at hs
    · rename_i he
      cases hs
      exact inv_threadMove h (by rw [ht]; rfl) (by rw [ht]; rfl) (by rw [ht]; rfl)
        (fun _ => ⟨he, .inr rfl⟩) (fun hr => by cases hr)
    · rename_i ev rest he
      cases hs
      refine inv_threadMove h (by rw [ht, he]; rfl) (by rw [ht]; rfl) (by rw [ht]; rfl)
        ?_ (fun hr => by cases hr)
      intro hm
      have := (hstart hm).2.2.1
      rw [he] at this
      cases this
  | checkFlag =>
    rw [ht] at hs
    cases hs
    split_ifs with hd
    · exact inv_threadMove h (by rw [ht]; rfl) (by rw [ht]; rfl) (by rw [ht]; rfl)
        (fun hm => absurd (h.main_none hd) hm) (fun _ => hd)
    · exact inv_threadMove h (by rw [ht]; rfl) (by rw [ht]; rfl) (by rw [ht]; rfl)
        (fun hm => ⟨(hstart hm).2.2.1, .inl rfl⟩) (fun hr => by cases hr)
  | enabling pc =>
    rw [ht] at hs
    obtain ⟨⟨s₁, r⟩, hr, rfl⟩ := Option.map_eq_some_iff.mp hs
    exact inv_enabling h ht hr
  | checkQueue =>
    have hm := h.main_none_of_thread (by rw [ht]; nofun) (by rw [ht]; nofun)
    have hd := h.flagged (by rw [ht]; rfl)
    rw [State.handed_of_main hm, State.busy_of_main hm, State.events, ht] at hc
    rw [ht] at hs
    cases hs
    split_ifs
    · exact inv_threadRun h hm hc fun _ => hd
    · exact inv_threadRun h hm hc fun _ => hd
  | process ev =>
    have hm := h.main_none_of_thread (by rw [ht]; nofun) (by rw [ht]; nofun)
    rw [State.handed_of_main hm, State.busy_of_main hm, State.events, ht] at hc
    rw [ht] at hs
    cases hs
    exact inv_threadRun h hm hc fun hr => by cases hr
  | unref ev =>
    have hm := h.main_none_of_thread (by rw [ht]; nofun) (by rw [ht]; nofun)
    rw [State.handed_of_main hm, State.busy_of_main hm, State.events, ht] at hc
    have hu := Core.unrefEvent hc
    rw [ht] at hs
    cases hs
    split_ifs at hu ⊢
    · exact inv_threadRun h hm hu fun hr => by cases hr
    · exact inv_threadRun h hm hu fun hr => by cases hr
  | free b =>
    have hm := h.main_none_of_thread (by rw [ht]; nofun) (by rw [ht]; nofun)
    rw [State.handed_of_main hm, State.busy_of_main hm, State.events, ht] at hc
    rw [ht] at hs
    cases hs
    exact inv_threadRun h hm hc.free fun hr => by cases hr
  | clear =>
    have hm := h.main_none_of_thread (by rw [ht]; nofun) (by rw [ht]; nofun)
    rw [State.handed_of_main hm, State.busy_of_main hm, State.events, ht] at hc
    rw [ht] at hs
    cases hs
    refine ⟨?_, h.off, fun hn => absurd hm hn, fun hr => by cases hr⟩
    simp only [State.handed, State.busy, State.events, hm, Option.elim_none, List.nil_append]
    exact hc

theorem inv_main {s s' : State} (h : Inv base s) {ok : Bool}
    (hs : mainThread base ok s = some s') : Inv base s' := by
  unfold mainThread at hs
  cases hm : s.main with
  | none => rw [hm] at hs; cases hs
  | some pc =>
    rw [hm] at hs
    obtain ⟨⟨s₁, r⟩, hr, rfl⟩ := Option.map_eq_some_iff.mp hs
    obtain ⟨hen, hdis, hev, ht⟩ := h.starting (by rw [hm]; nofun)
    have hlists : s.thread.handed = [] ∧ s.thread.busy = [] ∧ s.thread.restarting = false := by
      rcases ht with ht | ht <;> rw [ht] <;> exact ⟨rfl, rfl, rfl⟩
    have hc := h.core
    simp only [State.handed, State.busy, hm, hlists, Option.elim_some, List.append_nil] at hc
    have hcore := core_rxEnable hc hr
    obtain ⟨hev', ht', -, hdis', hout⟩ := rxEnable_frame hr
    refine ⟨?_, ?_, ?_, ?_⟩
    · have hres : r.getLeft?.elim [] EnablePc.handed = resHanded r ∧
          r.getLeft?.elim [] EnablePc.busy = resBusy r := by cases r <;> exact ⟨rfl, rfl⟩
      simp only [State.handed, State.busy, State.events, ht', hev', hres, hlists, List.append_nil]
      exact hcore
    · show s₁.enabled = false → s₁.held = []
      rcases hout with ⟨-, he, -⟩ | ⟨-, he, hh, -⟩
      · rw [he]; exact fun h => by cases h
      · rw [he, hh]; exact h.off
    · intro hn
      rcases hout with ⟨rfl, -⟩ | ⟨-, he, -⟩
      · exact absurd rfl hn
      · exact ⟨he.trans hen, hdis'.trans hdis, hev'.trans hev, by rw [ht']; exact ht⟩
    · intro hf
      have hf' : s₁.thread.restarting = true := hf
      rw [ht', hlists.2.2] at hf'
      cases hf'

/-! ## The callback's steps -/

theorem Inv.main_none_of_enabled {s : State} (h : Inv base s) (he : s.enabled = true) :
    s.main = none := by
  by_contra hm
  have := (h.starting hm).1
  rw [he] at this
  cases this

theorem Inv.enabled_of_held {s : State} (h : Inv base s) {buf : ℕ} (hm : buf ∈ s.held) :
    s.enabled = true := by
  cases he : s.enabled with
  | true => rfl
  | false => rw [h.off he] at hm; cases hm

theorem inv_rxRdy {s : State} (h : Inv base s) {buf off len : ℕ} (hm : buf ∈ s.held)
    (hlen : 0 < len) (hoff : off + len ≤ rxBufSize) : Inv base (cbRxRdy base buf off len s) := by
  have hmain := h.main_none_of_enabled (h.enabled_of_held hm)
  unfold cbRxRdy
  dsimp only
  split_ifs
  · refine ⟨?_, h.off, fun hn => absurd hmain hn, h.flagged⟩
    have := h.core.event hm hlen hoff
    simpa [State.handed, State.busy, State.events] using this
  · exact ⟨h.core.dropped hm, h.off, fun hn => absurd hmain hn, h.flagged⟩

theorem inv_rxBufRequest {s : State} (h : Inv base s) (he : s.enabled = true) (rspOk : Bool) :
    Inv base (cbRxBufRequest base rspOk s) := by
  have hmain := h.main_none_of_enabled he
  unfold cbRxBufRequest
  split
  · exact h
  · unfold rxBufAlloc
    rcases hf : s.pool.free with _ | ⟨b, rest⟩
    · exact h
    · have hc := (h.core.alloc hf).set rfl
      cases rspOk with
      | true =>
        exact ⟨hc.hold, fun hd => (nomatch he.symm.trans hd), fun hn => absurd hmain hn, h.flagged⟩
      | false => exact ⟨hc.rxBufUnref, h.off, fun hn => absurd hmain hn, h.flagged⟩

theorem inv_rxBufReleased {s : State} (h : Inv base s) {buf : ℕ} (hm : buf ∈ s.held) :
    Inv base (cbRxBufReleased base buf s) := by
  have he := h.enabled_of_held hm
  exact ⟨(h.core.release hm).rxBufUnref, fun hd => (nomatch he.symm.trans hd),
    fun hn => absurd (h.main_none_of_enabled he) hn, h.flagged⟩

theorem inv_rxDisabled {s : State} (h : Inv base s) (he : s.enabled = true) (hh : s.held = []) :
    Inv base (cbRxDisabled s) :=
  ⟨h.core, fun _ => hh, fun hn => absurd (h.main_none_of_enabled he) hn, fun _ => rfl⟩

theorem inv_step {s s' : State} {a : Action} (h : Inv base s) (hs : step base s a = some s') :
    Inv base s' := by
  cases a with
  | main ok => exact inv_main h hs
  | thread ok => exact inv_thread h hs
  | rxRdy buf offset len =>
    simp only [step] at hs
    split_ifs at hs with hg
    cases hs
    exact inv_rxRdy h hg.1 hg.2.1 hg.2.2
  | rxBufRequest rspOk =>
    simp only [step] at hs
    split_ifs at hs with hg
    cases hs
    exact inv_rxBufRequest h hg rspOk
  | rxBufReleased buf =>
    simp only [step] at hs
    split_ifs at hs with hg
    cases hs
    exact inv_rxBufReleased h hg
  | rxDisabled =>
    simp only [step] at hs
    split_ifs at hs with hg
    cases hs
    exact inv_rxDisabled h hg.1 hg.2
  | rxStopped => cases hs; exact h

theorem inv_reach {s : State} (h : (machine base).Reach s) : Inv base s :=
  h.invariant (Inv base) (by rintro s rfl; exact inv_init base) fun _ _ _ hi _ hs => inv_step hi hs

/-! ## Reading the invariant -/

theorem count_busy (s : State) (b : ℕ) :
    s.busy.count b = s.allocating.count b + s.freeing.count b := by
  rcases hm : s.main with _ | pc
  · simp [State.busy, State.allocating, State.freeing, ThreadPc.busy, hm]
  · simp only [State.busy, State.allocating, State.freeing, ThreadPc.busy, EnablePc.busy, hm,
      Option.elim_some, List.count_append]
    omega

theorem mem_busy {s : State} {b : ℕ} : b ∈ s.busy ↔ b ∈ s.freeing ∨ b ∈ s.allocating := by
  simp only [← List.count_pos_iff, count_busy]
  omega

/-- The references to a block: at most one from the driver's side, the others from events. -/
theorem Inv.count_refBlocks {s : State} (h : Inv base s) (b : ℕ) :
    (refBlocks base s.held s.handed s.events).count b =
      s.driverRef base b + s.eventRefs base b := by
  rw [refBlocks, List.count_append, State.eventRefs]
  congr 1
  have h1 := List.nodup_iff_count_le_one.mp h.core.owners b
  unfold State.driverRef
  split_ifs with hm
  · have := List.count_pos_iff.mpr hm
    omega
  · exact List.count_eq_zero.mpr hm

/-- What is not free is busy, or has a reference. -/
theorem Inv.place {s : State} (h : Inv base s) (b : ℕ) :
    s.pool.free.count b + s.allocating.count b + s.freeing.count b +
      min 1 (s.driverRef base b + s.eventRefs base b) = (List.range rxBufCount).count b := by
  have hp := h.core.pool.place b
  rw [h.count_refBlocks, count_busy] at hp
  omega

/-! ## What a step does to a block on its way out of the free list -/

theorem rxEnable_allocating {ok : Bool} {s s' : State} {pc : EnablePc} {r : EnablePc ⊕ Bool}
    (hs : rxEnable base ok s pc = some (s', r)) (b : ℕ) :
    (b ∈ r.getLeft?.elim [] EnablePc.allocating → b ∈ s.pool.free) ∧
      (b ∈ pc.allocating → b ∈ (r.getLeft?.elim [] EnablePc.handed).map (rxBlock base)) := by
  cases pc with
  | alloc =>
    simp only [rxEnable] at hs
    split at hs
    · cases hs; simp [EnablePc.allocating]
    · rename_i hf
      cases hs
      rw [hf]
      exact ⟨fun h => by rw [List.mem_singleton.mp h]; exact List.mem_cons_self,
        fun h => absurd h List.not_mem_nil⟩
  | set c => cases hs; simp [EnablePc.allocating, EnablePc.handed]
  | enable buf =>
    simp only [rxEnable] at hs
    split_ifs at hs <;> cases hs <;> simp [EnablePc.allocating]
  | unref buf =>
    simp only [rxEnable] at hs
    split_ifs at hs <;> cases hs <;> simp [EnablePc.allocating]
  | free c => cases hs; simp [EnablePc.allocating]

/-- A block is being allocated only if it was free; from there it gets its first reference. -/
def Allocates (base : ℕ) (s s' : State) : Prop :=
  ∀ b, (b ∈ s'.allocating → b ∈ s.pool.free ∨ b ∈ s.allocating) ∧
    (b ∈ s.allocating → b ∈ s'.allocating ∨ b ∈ s'.handed.map (rxBlock base))

theorem allocates_of_eq {s s' : State} (h : s'.allocating = s.allocating) :
    Allocates base s s' :=
  fun _ => ⟨fun hb => .inr (h ▸ hb), fun hb => .inl (h ▸ hb)⟩

theorem resume_allocating (r : EnablePc ⊕ Bool) :
    (ThreadPc.resume r).allocating = r.getLeft?.elim [] EnablePc.allocating ∧
      (ThreadPc.resume r).handed = r.getLeft?.elim [] EnablePc.handed := by
  rcases r with pc | b
  · exact ⟨rfl, rfl⟩
  · cases b <;> exact ⟨rfl, rfl⟩

theorem allocates_thread {s s' : State} {ok : Bool} (hs : rxThread base ok s = some s') :
    Allocates base s s' := by
  unfold rxThread at hs
  cases ht : s.thread with
  | enabling pc =>
    rw [ht] at hs
    obtain ⟨⟨s₁, r⟩, hr, rfl⟩ := Option.map_eq_some_iff.mp hs
    obtain ⟨-, -, hm, -⟩ := rxEnable_frame hr
    obtain ⟨h1, h2⟩ := resume_allocating r
    intro b
    obtain ⟨ha, hb⟩ := rxEnable_allocating hr b
    have hpc : (ThreadPc.enabling pc).allocating = pc.allocating := rfl
    simp only [State.allocating, State.handed, ht, hm, h1, h2, hpc, List.mem_append,
      List.map_append]
    clear hs
    tauto
  | top =>
    rw [ht] at hs
    dsimp only at hs
    split at hs <;> cases hs <;>
      exact allocates_of_eq (by simp [State.allocating, ThreadPc.allocating, ht])
  | unref ev =>
    rw [ht] at hs
    cases hs
    apply allocates_of_eq
    simp only [State.allocating, ht]
    split_ifs <;> rfl
  | checkFlag =>
    rw [ht] at hs
    cases hs
    apply allocates_of_eq
    simp only [State.allocating, ht]
    split_ifs <;> rfl
  | checkQueue =>
    rw [ht] at hs
    cases hs
    apply allocates_of_eq
    simp only [State.allocating, ht]
    split_ifs <;> rfl
  | _ =>
    rw [ht] at hs
    cases hs
    exact allocates_of_eq (by simp [State.allocating, ThreadPc.allocating, ht])

theorem allocates_main {s s' : State} {ok : Bool} (hs : mainThread base ok s = some s') :
    Allocates base s s' := by
  unfold mainThread at hs
  cases hm : s.main with
  | none => rw [hm] at hs; cases hs
  | some pc =>
    rw [hm] at hs
    obtain ⟨⟨s₁, r⟩, hr, rfl⟩ := Option.map_eq_some_iff.mp hs
    obtain ⟨-, ht, -⟩ := rxEnable_frame hr
    intro b
    obtain ⟨ha, hb⟩ := rxEnable_allocating hr b
    simp only [State.allocating, State.handed, ht, hm, List.mem_append, List.map_append,
      Option.elim_some]
    tauto

/-- The actions of the driver callback. -/
def Action.callback : Action → Prop
  | .main _ | .thread _ => False
  | _ => True

/-- The callback moves no thread, and only `UART_RX_DISABLED` touches the flag. -/
theorem callback_frame {s s' : State} {a : Action} (ha : a.callback)
    (hs : step base s a = some s') :
    s'.main = s.main ∧ s'.thread = s.thread ∧
      (a ≠ .rxDisabled → s'.rxOff = s.rxOff ∧ s'.rxDisabled = s.rxDisabled) := by
  cases a with
  | main ok => exact ha.elim
  | thread ok => exact ha.elim
  | rxRdy buf offset len =>
    simp only [step] at hs
    split_ifs at hs
    cases hs
    unfold cbRxRdy
    dsimp only
    split_ifs <;> exact ⟨rfl, rfl, fun _ => ⟨rfl, rfl⟩⟩
  | rxBufRequest rspOk =>
    simp only [step] at hs
    split_ifs at hs
    cases hs
    unfold cbRxBufRequest
    split
    · exact ⟨rfl, rfl, fun _ => ⟨rfl, rfl⟩⟩
    · split
      · exact ⟨rfl, rfl, fun _ => ⟨rfl, rfl⟩⟩
      · split <;> exact ⟨rfl, rfl, fun _ => ⟨rfl, rfl⟩⟩
  | rxBufReleased buf =>
    simp only [step] at hs
    split_ifs at hs
    cases hs
    exact ⟨rfl, rfl, fun _ => ⟨rfl, rfl⟩⟩
  | rxDisabled =>
    simp only [step] at hs
    split_ifs at hs
    cases hs
    exact ⟨rfl, rfl, fun h => absurd rfl h⟩
  | rxStopped => cases hs; exact ⟨rfl, rfl, fun _ => ⟨rfl, rfl⟩⟩

theorem allocates_step {s s' : State} {a : Action} (hs : step base s a = some s') :
    Allocates base s s' := by
  by_cases ha : a.callback
  · obtain ⟨hm, ht, -⟩ := callback_frame ha hs
    exact allocates_of_eq (by rw [State.allocating, State.allocating, hm, ht])
  · cases a with
    | main ok => exact allocates_main hs
    | thread ok => exact allocates_thread hs
    | _ => exact absurd trivial ha

/-! ## The accounting of the slab -/

/-- The references to a block. -/
def State.refCount (base : ℕ) (s : State) (b : ℕ) : ℕ := s.driverRef base b + s.eventRefs base b

theorem driverRef_of_handed {s : State} {b : ℕ} (h : b ∈ s.handed.map (rxBlock base)) :
    s.refCount base b ≠ 0 := by
  have hm : b ∈ (s.handed ++ s.held).map (rxBlock base) := by
    rw [List.map_append]; exact List.mem_append_left _ h
  rw [State.refCount, State.driverRef, if_pos hm]
  omega

/-- A block whose last reference goes is free, or `k_mem_slab_free` is called for it next. -/
theorem freed_of_drop {s s' : State} {a : Action} (h : Inv base s) (h' : Inv base s')
    (hs : step base s a = some s') {b : ℕ} (hb : b < rxBufCount) (h1 : s.refCount base b ≠ 0)
    (h0 : s'.refCount base b = 0) : b ∈ s'.pool.free ∨ b ∈ s'.freeing := by
  have hp := h.place b
  have hp' := h'.place b
  have hrange : (List.range rxBufCount).count b = 1 :=
    List.count_eq_one_of_mem blocks_nodup (List.mem_range.mpr hb)
  have hal := (allocates_step hs b).1
  simp only [← List.count_pos_iff] at hal ⊢
  unfold State.refCount at h1 h0
  omega

/-- A block comes into the free list only when its last reference goes, or after it went. -/
theorem drop_of_freed {s s' : State} {a : Action} (h : Inv base s) (h' : Inv base s')
    (hs : step base s a = some s') {b : ℕ} (hf : b ∉ s.pool.free) (hf' : b ∈ s'.pool.free) :
    s'.refCount base b = 0 ∧ (s.refCount base b ≠ 0 ∨ b ∈ s.freeing) := by
  have hp := h.place b
  have hp' := h'.place b
  have hle := List.nodup_iff_count_le_one.mp blocks_nodup b
  have hpos := List.count_pos_iff.mpr hf'
  have hal := (allocates_step hs b).2
  have hf0 := List.count_eq_zero.mpr hf
  have hh : b ∈ s'.handed.map (rxBlock base) → s'.refCount base b ≠ 0 := driverRef_of_handed
  simp only [← List.count_pos_iff] at hal hh ⊢
  unfold State.refCount at hh ⊢
  omega

/-- With nothing queued, in process or at the driver, the slab is full save for what `rx_enable`
itself has in hand. -/
theorem Inv.free_perm {s : State} (h : Inv base s) (hheld : s.held = []) (hev : s.events = []) :
    (s.pool.free ++ s.busy ++ s.handed.map (rxBlock base)).Perm (List.range rxBufCount) := by
  apply List.perm_iff_count.mpr
  intro b
  have hp := h.core.pool.place b
  have h1 := List.nodup_iff_count_le_one.mp h.core.owners b
  rw [refBlocks, hev, hheld, List.append_nil, List.map_nil, List.append_nil] at hp
  rw [hheld, List.append_nil] at h1
  rw [List.count_append, List.count_append]
  omega

/-- Where `rx_enable` is about to allocate, it has no block in hand yet. -/
theorem Inv.alloc_lists {s : State} (h : Inv base s)
    (ha : s.main = some .alloc ∨ s.thread = .enabling .alloc) : s.busy = [] ∧ s.handed = [] := by
  rcases ha with hm | ht
  · obtain ⟨-, -, -, ht⟩ := h.starting (by rw [hm]; nofun)
    rcases ht with ht | ht <;> simp only [State.busy, State.handed, hm, ht] <;> exact ⟨rfl, rfl⟩
  · have hm := h.main_none_of_thread (by rw [ht]; nofun) (by rw [ht]; nofun)
    rw [State.handed_of_main hm, State.busy_of_main hm, ht]
    exact ⟨rfl, rfl⟩

/-- **The receive buffers.** In every reachable state: the count of a block is its references; a
block is in the free list, on its way in or out of it, or referenced, and never twice; a step
frees a block exactly when its last reference goes; `rx_block` maps every pointer into a buffer
back to its block; and with no event and no buffer at the driver, the slab is full save for the
block `rx_enable` has in hand, so that its allocation succeeds. -/
theorem rx_accounting (base : ℕ) (s : State) (h : (machine base).Reach s) :
    (∀ b < rxBufCount, s.pool.refs b = s.driverRef base b + s.eventRefs base b) ∧
    ((s.pool.free ++ s.freeing ++ s.allocating).Nodup ∧
      ∀ b < rxBufCount, (b ∈ s.pool.free ∨ b ∈ s.freeing ∨ b ∈ s.allocating) ↔
        s.refCount base b = 0) ∧
    (∀ a s', step base s a = some s' → ∀ b < rxBufCount,
      (s.refCount base b ≠ 0 → s'.refCount base b = 0 → b ∈ s'.pool.free ∨ b ∈ s'.freeing) ∧
      (b ∉ s.pool.free → b ∈ s'.pool.free →
        s'.refCount base b = 0 ∧ (s.refCount base b ≠ 0 ∨ b ∈ s.freeing))) ∧
    ((∀ buf ∈ s.held, ∃ b < rxBufCount, buf = dataOf base b ∧
        ∀ off < rxBufSize, rxBlock base (buf + off) = b) ∧
      ∀ ev ∈ s.events, ∃ b < rxBufCount, dataOf base b ≤ ev.data ∧
        ev.data + ev.len ≤ dataOf base b + rxBufSize ∧ rxBlock base ev.data = b) ∧
    (s.held = [] → s.events = [] →
      (s.pool.free ++ s.freeing ++ s.allocating ++ s.handed.map (rxBlock base)).Perm
        (List.range rxBufCount) ∧
      (s.main = some .alloc ∨ s.thread = .enabling .alloc →
        s.pool.free.Perm (List.range rxBufCount))) := by
  have hinv := inv_reach h
  have hbusy (b : ℕ) := count_busy s b
  refine ⟨?_, ⟨?_, ?_⟩, ?_, ⟨?_, ?_⟩, fun hheld hev => ⟨?_, ?_⟩⟩
  · intro b _
    rw [hinv.core.pool.refs_eq b, hinv.count_refBlocks]
    push_cast
    rfl
  · apply List.nodup_iff_count_le_one.mpr
    intro b
    have h1 := List.nodup_iff_count_le_one.mp (hinv.core.pool.free_nodup blocks_nodup) b
    rw [List.count_append, hbusy] at h1
    rw [List.count_append, List.count_append]
    omega
  · intro b hb
    rw [State.refCount, ← hinv.count_refBlocks, ← mem_busy]
    exact hinv.core.pool.mem_free_or_busy blocks_nodup (List.mem_range.mpr hb)
  · intro a s' hs b hb
    have hinv' := inv_step hinv hs
    exact ⟨freed_of_drop hinv hinv' hs hb, drop_of_freed hinv hinv' hs⟩
  · intro buf hm
    obtain ⟨b, hb, rfl⟩ := hinv.core.bufs buf (List.mem_append_right _ hm)
    exact ⟨b, hb, rfl, fun off hoff => rxBlock_dataOf base b hoff⟩
  · intro ev hev
    obtain ⟨b, hb, off, hd, hlen, hoff⟩ := hinv.core.evs ev hev
    rw [hd]
    exact ⟨b, hb, by omega, by omega, rxBlock_dataOf base b (by omega)⟩
  · refine List.Perm.trans (List.perm_iff_count.mpr fun b => ?_) (hinv.free_perm hheld hev)
    simp only [List.count_append, hbusy]
    omega
  · intro ha
    obtain ⟨hb, hh⟩ := hinv.alloc_lists ha
    simpa [hb, hh] using hinv.free_perm hheld hev

/-- One received chunk, queued while its buffer is already released. -/
def chunkRun : List Action :=
  [.main true, .main true, .main true, .rxRdy 4 0 2, .rxBufReleased 4]

theorem chunkRun_exec : ((machine 0).exec init chunkRun).map
    (fun s => (s.held, s.events, s.pool.free, s.pool.refs 0)) =
      some ([], [⟨4, 2⟩], [1, 2], 1) := by decide

theorem rx_accounting_chunk : ∃ s : State, s.events = [⟨4, 2⟩] ∧ s.held = [] ∧
    s.pool.refs 0 = s.driverRef 0 0 + s.eventRefs 0 0 := by
  obtain ⟨s, he, hs⟩ := Option.map_eq_some_iff.mp chunkRun_exec
  simp only [Prod.mk.injEq] at hs
  have hr : (machine 0).Reach s := Machine.Reach.exec (.init rfl) he
  exact ⟨s, hs.2.1, hs.1, (rx_accounting 0 s hr).1 0 (by decide)⟩

/-! ## Reception that is off is flagged -/

/-- Reception is off only with the flag set, and never while the thread is about to clear it. -/
def Flagged (s : State) : Prop :=
  (s.rxOff = true → s.rxDisabled = true) ∧ (s.thread = .clear → s.rxOff = false)

theorem flagged_main {s s' : State} {ok : Bool} (h : Flagged s)
    (hs : mainThread base ok s = some s') : Flagged s' := by
  obtain ⟨hflag, hclear⟩ := h
  unfold mainThread at hs
  cases hm : s.main with
  | none => rw [hm] at hs; cases hs
  | some pc =>
    rw [hm] at hs
    obtain ⟨⟨s₁, r⟩, hr, rfl⟩ := Option.map_eq_some_iff.mp hs
    obtain ⟨-, ht, -, hd, hout⟩ := rxEnable_frame hr
    rcases hout with ⟨-, -, hoff⟩ | ⟨-, -, -, hoff⟩
    · exact ⟨fun h => (nomatch hoff.symm.trans h), fun _ => hoff⟩
    · exact ⟨fun h => hd.trans (hflag (hoff.symm.trans h)),
        fun h => hoff.trans (hclear (ht.symm.trans h))⟩

theorem flagged_thread {s s' : State} {ok : Bool} (h : Flagged s)
    (hs : rxThread base ok s = some s') : Flagged s' := by
  obtain ⟨hflag, hclear⟩ := h
  unfold rxThread at hs
  cases ht : s.thread with
  | enabling pc =>
    rw [ht] at hs
    obtain ⟨⟨s₁, r⟩, hr, rfl⟩ := Option.map_eq_some_iff.mp hs
    obtain ⟨-, -, -, hd, hout⟩ := rxEnable_frame hr
    rcases hout with ⟨-, -, hoff⟩ | ⟨hne, -, -, hoff⟩
    · exact ⟨fun h => (nomatch hoff.symm.trans h), fun _ => hoff⟩
    · refine ⟨fun h => hd.trans (hflag (hoff.symm.trans h)), ?_⟩
      intro h
      rcases r with pc' | b
      · cases h
      · cases b with
        | true => exact absurd rfl hne
        | false => cases h
  | clear =>
    rw [ht] at hs
    cases hs
    exact ⟨fun h => (nomatch (hclear ht).symm.trans h), fun h => by cases h⟩
  | top =>
    rw [ht] at hs
    dsimp only at hs
    split at hs <;> cases hs <;> exact ⟨hflag, fun h => by cases h⟩
  | unref ev =>
    rw [ht] at hs
    cases hs
    split_ifs <;> exact ⟨hflag, fun h => by cases h⟩
  | checkFlag =>
    rw [ht] at hs
    cases hs
    split_ifs <;> exact ⟨hflag, fun h => by cases h⟩
  | checkQueue =>
    rw [ht] at hs
    cases hs
    split_ifs <;> exact ⟨hflag, fun h => by cases h⟩
  | _ => rw [ht] at hs; cases hs; exact ⟨hflag, fun h => by cases h⟩

theorem flagged_step {s s' : State} {a : Action} (h : Flagged s) (ha : NotInClear s a)
    (hs : step base s a = some s') : Flagged s' := by
  by_cases hcb : a.callback
  · obtain ⟨-, ht, hframe⟩ := callback_frame hcb hs
    by_cases hd : a = .rxDisabled
    · subst hd
      simp only [step] at hs
      split_ifs at hs
      cases hs
      exact ⟨fun _ => rfl, fun ht => absurd ht (ha rfl)⟩
    · obtain ⟨hoff, hdis⟩ := hframe hd
      exact ⟨fun hn => hdis.trans (h.1 (hoff.symm.trans hn)),
        fun hc => hoff.trans (h.2 (ht.symm.trans hc))⟩
  · cases a with
    | main ok => exact flagged_main h hs
    | thread ok => exact flagged_thread h hs
    | _ => exact absurd trivial hcb

theorem flagged_init : Flagged init := ⟨nofun, nofun⟩

/-- **Reception is restarted.** In a run in which the driver never disables reception between the
thread's `uart_rx_enable` and its `atomic_set`, reception that is off is always flagged, also when
the thread is back at the top of its loop. -/
theorem rx_off_flagged (base : ℕ) (s : State) (h : (machine base).ReachIf NotInClear s)
    (hoff : s.rxOff = true) : s.rxDisabled = true :=
  (h.invariant Flagged (by rintro s rfl; exact flagged_init)
    fun _ _ _ hi ha hs => flagged_step hi ha hs).1 hoff

/-- Reception starts, its only buffer is released, and the driver stops. -/
def stopRun : List Action :=
  [.main true, .main true, .main true, .rxBufReleased 4, .rxDisabled]

theorem stopRun_exec : ((machine 0).execIf NotInClear init stopRun).map
    (fun s => (s.thread, s.rxOff)) = some (.top, true) := by decide

theorem rx_off_flagged_stop : ∃ s : State, s.rxOff = true ∧ s.rxDisabled = true := by
  obtain ⟨s, he, hs⟩ := Option.map_eq_some_iff.mp stopRun_exec
  simp only [Prod.mk.injEq] at hs
  exact ⟨s, hs.2, rx_off_flagged 0 s (.execIf (.init rfl) he) hs.2⟩

/-- The thread enables reception again, and the driver stops once more before the thread clears
the flag. -/
def lostStopRun : List Action :=
  stopRun ++ List.replicate 6 (.thread true) ++ [.rxBufReleased 4, .rxDisabled, .thread true]

theorem lostStopRun_exec : ((machine 0).exec init lostStopRun).map
    (fun s => (s.thread, s.rxOff, s.rxDisabled)) = some (.top, true, false) := by decide

/-- The second stop is lost: reception is off and the flag is clear. -/
theorem rx_off_unflagged : ¬ ∀ base s, (machine base).Reach s → s.thread = .top →
    s.rxOff = true → s.rxDisabled = true := by
  intro h
  obtain ⟨s, he, hs⟩ := Option.map_eq_some_iff.mp lostStopRun_exec
  simp only [Prod.mk.injEq] at hs
  have hd := h 0 s (Machine.Reach.exec (.init rfl) he) hs.1 hs.2.1
  rw [hs.2.2] at hd
  cases hd

end ZbAt.Uart.Rx
