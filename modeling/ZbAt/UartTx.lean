import ZbAt.Machine
import ZbAt.Ring

/-!
# The AT output path (at_uart.c, transmit half)

Writers copy whole lines into the ring `tx_ring` while they hold the mutex `tx_lock`; the driver
sends the ring piece by piece, and each `UART_TX_DONE` or `UART_TX_ABORTED` callback starts the
next piece. The semaphore `tx_idle` is free while no transfer runs.

* `Write` — what a thread writes under one hold of `tx_lock`.
* `Pc` — where the holder of `tx_lock` is in `tx_write`, `tx_start` and `tx_flush`.
* `uartTx` — the machine: the holder moves one call at a time, and the callback can run between
  any two of its steps.

The driver's part of a step (whether `uart_tx` accepts, how many bytes it reports, where the ring
wraps) is chosen by the action. `sent` and `writes` only record what happened.
-/

namespace ZbAt.Uart

abbrev Byte := UInt8

/-- `TX_BUF_SIZE` -/
abbrev txBufSize : ℕ := 1024

/-- `AT_OUT_MAX` -/
def atOutMax : ℕ := 256

def crlf : List Byte := [0x0D, 0x0A]

/-! ## The writers -/

/-- What is written under one hold of `tx_lock`. C strings stand without their terminator, and
the line of `at_print` as `vsnprintf` would write it into an unbounded buffer. -/
inductive Write
  | atPrintParts (head body tail : Option (List Byte))
  | atPrint (line : List Byte)
  | echo (data : List Byte)
  | binaryPrompt
  deriving DecidableEq

/-- The arguments of the `tx_write` calls, in order. -/
def Write.calls : Write → List (List Byte)
  | .atPrintParts head body tail =>
    [crlf] ++ head.toList ++ body.toList ++ tail.toList ++ [crlf]
  | .atPrint line => [crlf, line.take (atOutMax - 1), crlf]
  | .echo data => [data]
  | .binaryPrompt => [[0x0D, 0x0A, 0x3E]]

/-- The bytes of a locked write. -/
def Write.bytes (w : Write) : List Byte := w.calls.flatten

/-- Where `tx_start` returns to: the loop of `tx_write`, with what is left of this call and the
calls after it, or the end of `tx_flush`. -/
inductive After
  | write (cur : List Byte) (rest : List (List Byte))
  | unlock
  deriving DecidableEq

/-- The calls of `tx_start`, up to the next one. -/
inductive StartPc
  | claim
  | uartTx (p : List Byte)
  | finish
  | give
  deriving DecidableEq

/-- The holder of `tx_lock`, by the call it makes next. -/
inductive Pc
  | write (cur : List Byte) (rest : List (List Byte))
  | wait (cur : List Byte) (rest : List (List Byte))
  | flush
  | start (at_ : StartPc) (k : After)
  | unlock
  deriving DecidableEq

/-- The step after `tx_start` returned. -/
def After.pc : After → Pc
  | .write cur rest => .write cur rest
  | .unlock => .unlock

/-! ## The machine -/

structure State where
  txRing : Ring Byte txBufSize
  txIdle : Bool
  txLock : Option (ℕ × Pc)
  /-- The transfers the driver runs, each with the bytes it was given. -/
  transfers : List (List Byte)
  /-- The bytes the driver reported as sent. -/
  sent : List Byte
  /-- The locked writes, in the order in which `tx_lock` was taken. -/
  writes : List Write
  deriving DecidableEq

inductive Action
  /-- `k_mutex_lock(&tx_lock)` by a thread that has something to write. -/
  | lock (thread : ℕ) (w : Write)
  /-- The holder's next call. `contig` bytes of the ring lie in one piece from the read position;
  `accept` is what `uart_tx` answers. -/
  | run (contig : ℕ) (accept : Bool)
  /-- `UART_TX_DONE` or `UART_TX_ABORTED` of the transfer `i`, with `len` bytes sent; `contig` and
  `accept` are for the transfer it may start. -/
  | txDone (i len contig : ℕ) (accept : Bool)
  deriving DecidableEq

def init : State := ⟨Ring.empty, true, none, [], [], []⟩

/-- `tx_start`, called with `tx_idle` taken. -/
def txStart (contig : ℕ) (accept : Bool) (s : State) : State :=
  let p := s.txRing.claim txBufSize contig
  let ring := s.txRing.getClaim txBufSize contig
  if p.length = 0 ∨ accept = false then
    { s with txRing := ring.getFinish 0, txIdle := true }
  else
    { s with txRing := ring, transfers := s.transfers ++ [p] }

/-- `uart_cb` on `UART_TX_DONE` and `UART_TX_ABORTED`. -/
def uartCbTx (len contig : ℕ) (accept : Bool) (s : State) : State :=
  let s := { s with txRing := s.txRing.getFinish len }
  if s.txRing.isEmpty then { s with txIdle := true } else txStart contig accept s

/-- One call of the thread `t` that holds `tx_lock`. -/
def runHolder (t contig : ℕ) (accept : Bool) (s : State) : Pc → Option State
  -- tx_write: the loop ends with the call's last byte, and the next call begins.
  | .write [] [] => some { s with txLock := some (t, .flush) }
  | .write [] (c :: rest) => some { s with txLock := some (t, .write c rest) }
  | .write cur rest =>
    let left := cur.drop (s.txRing.fits cur)
    let next := if left = [] then .write [] rest else .wait left rest
    some { s with txRing := s.txRing.put cur, txLock := some (t, next) }
  -- k_sem_take(&tx_idle, K_FOREVER)
  | .wait cur rest =>
    if s.txIdle then
      some { s with txIdle := false, txLock := some (t, .start .claim (.write cur rest)) }
    else none
  -- tx_flush: k_sem_take(&tx_idle, K_NO_WAIT)
  | .flush =>
    if s.txIdle then
      some { s with txIdle := false, txLock := some (t, .start .claim .unlock) }
    else some { s with txLock := some (t, .unlock) }
  | .start .claim k =>
    let p := s.txRing.claim txBufSize contig
    let next := if p.length = 0 then .finish else .uartTx p
    some { s with
      txRing := s.txRing.getClaim txBufSize contig
      txLock := some (t, .start next k) }
  | .start (.uartTx p) k =>
    if accept then some { s with transfers := s.transfers ++ [p], txLock := some (t, k.pc) }
    else some { s with txLock := some (t, .start .finish k) }
  | .start .finish k =>
    some { s with txRing := s.txRing.getFinish 0, txLock := some (t, .start .give k) }
  | .start .give k => some { s with txIdle := true, txLock := some (t, k.pc) }
  | .unlock => some { s with txLock := none }

def step (s : State) : Action → Option State
  | .lock t w =>
    match s.txLock with
    | none => some { s with txLock := some (t, .write [] w.calls), writes := s.writes ++ [w] }
    | some _ => none
  | .run contig accept =>
    match s.txLock with
    | none => none
    | some (t, pc) => if 0 < contig then runHolder t contig accept s pc else none
  | .txDone i len contig accept =>
    match s.transfers[i]? with
    | none => none
    | some p =>
      if len ≤ p.length ∧ 0 < contig then
        some (uartCbTx len contig accept
          { s with transfers := s.transfers.eraseIdx i, sent := s.sent ++ p.take len })
      else none

def machine : Machine State Action := ⟨(· = init), step⟩

/-- Steps in which `uart_tx` accepts every transfer it is given. -/
def Accepts (_ : State) : Action → Prop
  | .lock _ _ => True
  | .run _ accept | .txDone _ _ _ accept => accept = true

instance (s : State) (a : Action) : Decidable (Accepts s a) := by
  cases a <;> unfold Accepts <;> infer_instance

/-- The bytes that the holder of `tx_lock` has still to copy. -/
def Pc.pending : Pc → List Byte
  | .write cur rest | .wait cur rest | .start _ (.write cur rest) => cur ++ rest.flatten
  | .flush | .start _ .unlock | .unlock => []

def State.pending (s : State) : List Byte :=
  match s.txLock with
  | none => []
  | some (_, pc) => pc.pending

/-- The concatenation of the locked writes, in lock order. -/
def State.written (s : State) : List Byte := s.writes.flatMap Write.bytes

end ZbAt.Uart
