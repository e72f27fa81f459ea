import ZbAt.Machine
import ZbAt.RefPool

/-!
# The AT input path (at_uart.c, receive half)

The driver fills blocks of the slab `rx_slab`; each `UART_RX_RDY` is queued by reference and
processed by `rx_thread`. A block counts its references: one for the driver, one for each event.
`UART_RX_DISABLED` only sets the flag `rx_disabled`; the thread enables reception again.

* `rxBlock` — the block a data pointer points into, by division as in the source.
* `EnablePc`, `ThreadPc` — where `rx_enable` and `rx_thread` are, one call at a time.
* `machine` — the callback can run between any two calls of the thread and of the main thread's
  `at_uart_init`. The guards of the callback's actions are the driver's contract.

Addresses are numbers; `base` is the address of `rx_slab.buffer`.
-/

namespace ZbAt.Uart.Rx

/-- `RX_BUF_SIZE` -/
def rxBufSize : ℕ := 256

/-- `RX_BUF_COUNT` -/
def rxBufCount : ℕ := 3

/-- `RX_EVENT_COUNT` -/
def rxEventCount : ℕ := 8

/-- The offset of `data` in `struct rx_buf`, behind the 32-bit `refs`. -/
def dataOffset : ℕ := 4

/-- `sizeof(struct rx_buf)` -/
def sizeofRxBuf : ℕ := dataOffset + rxBufSize

/-- `struct rx_event` -/
structure RxEvent where
  data : ℕ
  len : ℕ
  deriving DecidableEq

/-- The calls of `rx_enable`, up to the next one: `k_mem_slab_alloc`, the first reference,
`uart_rx_enable`, and on its failure the two halves of `rx_buf_unref`. -/
inductive EnablePc
  | alloc
  | set (b : ℕ)
  | enable (buf : ℕ)
  | unref (buf : ℕ)
  | free (b : ℕ)
  deriving DecidableEq

/-- The calls of `rx_thread`, up to the next one. `top` is the head of its loop. -/
inductive ThreadPc
  | top
  | process (ev : RxEvent)
  | unref (ev : RxEvent)
  | free (b : ℕ)
  | checkFlag
  | checkQueue
  | enabling (pc : EnablePc)
  | clear
  deriving DecidableEq

structure State where
  /-- `rx_slab` and the `refs` of its blocks. -/
  pool : RefPool ℕ
  rxEvents : List RxEvent
  rxDisabled : Bool
  /-- The main thread's `rx_enable` in `at_uart_init`; `none` once it returned. -/
  main : Option EnablePc
  thread : ThreadPc
  /-- The driver receives. -/
  enabled : Bool
  /-- The buffers the driver holds. -/
  held : List ℕ
  /-- The driver reported `UART_RX_DISABLED` after the last `uart_rx_enable` that succeeded. -/
  rxOff : Bool

inductive Action
  /-- The next call of the main thread; `ok` is what `uart_rx_enable` answers. -/
  | main (ok : Bool)
  /-- The next call of `rx_thread`. -/
  | thread (ok : Bool)
  /-- The driver callback. -/
  | rxRdy (buf offset len : ℕ)
  | rxBufRequest (rspOk : Bool)
  | rxBufReleased (buf : ℕ)
  | rxDisabled
  | rxStopped
  deriving DecidableEq

/-! ## Blocks and references -/

section

variable (base : ℕ)

/-- `b->data` -/
def dataOf (b : ℕ) : ℕ := base + b * sizeofRxBuf + dataOffset

/-- `rx_block` -/
def rxBlock (p : ℕ) : ℕ := (p - base) / sizeofRxBuf

/-- `rx_buf_ref` -/
def rxBufRef (p : ℕ) (P : RefPool ℕ) : RefPool ℕ :=
  P.setRefs (rxBlock base p) (P.refs (rxBlock base p) + 1)

/-- `rx_buf_unref` in the callback, where nothing comes between its two calls. -/
def rxBufUnref (p : ℕ) (P : RefPool ℕ) : RefPool ℕ :=
  let b := rxBlock base p
  let P' := P.setRefs b (P.refs b - 1)
  if P.refs b = 1 then { P' with free := b :: P'.free } else P'

/-- `rx_buf_alloc` in the callback. -/
def rxBufAlloc (P : RefPool ℕ) : Option (ℕ × RefPool ℕ) :=
  match P.free with
  | [] => none
  | b :: rest => some (dataOf base b, { P with free := rest }.setRefs b 1)

/-! ## The threads -/

/-- One call of `rx_enable`: the state after it, and where it continues or what it returns
(0 as `true`). -/
def rxEnable (ok : Bool) (s : State) : EnablePc → Option (State × (EnablePc ⊕ Bool))
  | .alloc =>
    match s.pool.free with
    | [] => some (s, .inr false)
    | b :: rest => some ({ s with pool := { s.pool with free := rest } }, .inl (.set b))
  | .set b => some ({ s with pool := s.pool.setRefs b 1 }, .inl (.enable (dataOf base b)))
  | .enable buf =>
    if ok then
      -- The driver is not enabled twice (-EBUSY).
      if s.enabled then none
      else some ({ s with enabled := true, held := s.held ++ [buf], rxOff := false }, .inr true)
    else some (s, .inl (.unref buf))
  | .unref buf =>
    let b := rxBlock base buf
    let s' := { s with pool := s.pool.setRefs b (s.pool.refs b - 1) }
    if s.pool.refs b = 1 then some (s', .inl (.free b)) else some (s', .inr false)
  | .free b => some ({ s with pool := { s.pool with free := b :: s.pool.free } }, .inr false)

/-- Where `rx_thread` continues in or after `rx_enable`. -/
def ThreadPc.resume : EnablePc ⊕ Bool → ThreadPc
  | .inl pc => .enabling pc
  | .inr true => .clear
  | .inr false => .top

/-- One call of `rx_thread`. `rx_process` only prints and assembles lines, so nothing here
depends on it. -/
def rxThread (ok : Bool) (s : State) : Option State :=
  match s.thread with
  -- k_msgq_get(&rx_events, &ev, RX_RETRY_DELAY): it times out only while the queue is empty.
  | .top =>
    match s.rxEvents with
    | [] => some { s with thread := .checkFlag }
    | ev :: rest => some { s with rxEvents := rest, thread := .process ev }
  | .process ev => some { s with thread := .unref ev }
  | .unref ev =>
    let b := rxBlock base ev.data
    let next := if s.pool.refs b = 1 then .free b else .checkFlag
    some { s with pool := s.pool.setRefs b (s.pool.refs b - 1), thread := next }
  | .free b =>
    some { s with pool := { s.pool with free := b :: s.pool.free }, thread := .checkFlag }
  | .checkFlag => some { s with thread := if s.rxDisabled then .checkQueue else .top }
  | .checkQueue =>
    some { s with thread := if s.rxEvents.length = 0 then .enabling .alloc else .top }
  | .enabling pc =>
    (rxEnable base ok s pc).map fun (s', r) => { s' with thread := .resume r }
  | .clear => some { s with rxDisabled := false, thread := .top }

/-- One call of the main thread's `rx_enable` in `at_uart_init`. -/
def mainThread (ok : Bool) (s : State) : Option State :=
  match s.main with
  | none => none
  | some pc =>
    (rxEnable base ok s pc).map fun (s', r) => { s' with main := r.getLeft? }

/-! ## The callback -/

/-- `uart_cb` on `UART_RX_RDY`. -/
def cbRxRdy (buf offset len : ℕ) (s : State) : State :=
  let P := rxBufRef base buf s.pool
  if s.rxEvents.length < rxEventCount then
    { s with pool := P, rxEvents := s.rxEvents ++ [⟨buf + offset, len⟩] }
  else { s with pool := rxBufUnref base buf P }

/-- `uart_cb` on `UART_RX_BUF_REQUEST`; `rspOk` is what `uart_rx_buf_rsp` answers. -/
def cbRxBufRequest (rspOk : Bool) (s : State) : State :=
  if rxEventCount - s.rxEvents.length < 2 then s
  else match rxBufAlloc base s.pool with
    | none => s
    | some (buf, P) =>
      if rspOk then { s with pool := P, held := s.held ++ [buf] }
      else { s with pool := rxBufUnref base buf P }

/-- `uart_cb` on `UART_RX_BUF_RELEASED`. -/
def cbRxBufReleased (buf : ℕ) (s : State) : State :=
  { s with held := s.held.erase buf, pool := rxBufUnref base buf s.pool }

/-- `uart_cb` on `UART_RX_DISABLED`. -/
def cbRxDisabled (s : State) : State :=
  { s with enabled := false, rxDisabled := true, rxOff := true }

def step (s : State) : Action → Option State
  | .main ok => mainThread base ok s
  | .thread ok => rxThread base ok s
  -- Data is reported only for a buffer the driver holds, and inside it.
  | .rxRdy buf offset len =>
    if buf ∈ s.held ∧ 0 < len ∧ offset + len ≤ rxBufSize then
      some (cbRxRdy base buf offset len s)
    else none
  | .rxBufRequest rspOk => if s.enabled then some (cbRxBufRequest base rspOk s) else none
  -- A buffer the driver took is released once.
  | .rxBufReleased buf => if buf ∈ s.held then some (cbRxBufReleased base buf s) else none
  -- Reception is disabled only after all buffers are released.
  | .rxDisabled => if s.enabled ∧ s.held = [] then some (cbRxDisabled s) else none
  | .rxStopped => some s

/-- `at_uart_init` has set the callback and started the thread. -/
def init : State where
  pool := ⟨List.range rxBufCount, fun _ => 0⟩
  rxEvents := []
  rxDisabled := false
  main := some .alloc
  thread := .top
  enabled := false
  held := []
  rxOff := false

def machine : Machine State Action := ⟨(· = init), step base⟩

end

/-- The driver does not disable reception between the thread's successful `uart_rx_enable` and
the `atomic_set(&rx_disabled, 0)` after it. -/
def NotInClear (s : State) (a : Action) : Prop := a = .rxDisabled → s.thread ≠ .clear

instance (s : State) (a : Action) : Decidable (NotInClear s a) := by
  unfold NotInClear; infer_instance

/-! ## Who refers to a block -/

/-- The buffer that `rx_enable` hands to the driver. -/
def EnablePc.handed : EnablePc → List ℕ
  | .enable buf | .unref buf => [buf]
  | _ => []

/-- The block that `rx_enable` took from the slab and has not given its first reference yet. -/
def EnablePc.allocating : EnablePc → List ℕ
  | .set b => [b]
  | _ => []

/-- The block that `rx_enable` dropped the last reference of. -/
def EnablePc.freeing : EnablePc → List ℕ
  | .free b => [b]
  | _ => []

def ThreadPc.handed : ThreadPc → List ℕ
  | .enabling pc => pc.handed
  | _ => []

def ThreadPc.allocating : ThreadPc → List ℕ
  | .enabling pc => pc.allocating
  | _ => []

def ThreadPc.freeing : ThreadPc → List ℕ
  | .enabling pc => pc.freeing
  | .free b => [b]
  | _ => []

/-- The event in process. -/
def ThreadPc.processing : ThreadPc → List RxEvent
  | .process ev | .unref ev => [ev]
  | _ => []

/-- The buffers being handed over to the driver. -/
def State.handed (s : State) : List ℕ := (s.main.elim [] EnablePc.handed) ++ s.thread.handed

/-- The blocks on their way out of the free list. -/
def State.allocating (s : State) : List ℕ :=
  (s.main.elim [] EnablePc.allocating) ++ s.thread.allocating

/-- The blocks on their way back into the free list: `k_mem_slab_free` is the next call. -/
def State.freeing (s : State) : List ℕ := (s.main.elim [] EnablePc.freeing) ++ s.thread.freeing

/-- The events queued or in process. -/
def State.events (s : State) : List RxEvent := s.thread.processing ++ s.rxEvents

section

variable (base : ℕ)

/-- 1 if the driver holds the block or it is being handed over. -/
def State.driverRef (s : State) (b : ℕ) : ℕ :=
  if b ∈ (s.handed ++ s.held).map (rxBlock base) then 1 else 0

/-- How many events, queued or in process, point into the block. -/
def State.eventRefs (s : State) (b : ℕ) : ℕ :=
  (s.events.map fun ev => rxBlock base ev.data).count b

end

end ZbAt.Uart.Rx
