import ZbAt.Machine
import ZbAt.Text

/-!
# Lines and binary entries (at_uart.c, receive thread)

`rx_process` gives each received byte to a pending binary entry, or else echoes it and gives it to
the line assembler. The AT thread arms an entry in `at_uart_read_binary`, waits for the semaphore
`bin_done`, and cancels the entry when the wait times out.

* `lineByte` — the line assembler.
* `AtPc`, `RxPc` — where the two threads are. A section under `bin_lock` is one step.
* `machine` — the threads interleave step by step; the action chooses what is received and when
  the wait times out.

Calls of `at_uart_read_binary` are numbered, and so are the received bytes: a byte is received
when `bin_byte` gets it. `calls`, `received`, the numbers of the bytes and `log` only record what
happened.
-/

namespace ZbAt.Uart

open Text

/-! ## The line assembler -/

/-- `AT_LINE_MAX` -/
def atLineMax : ℕ := 200

/-- `LINE_Q_DEPTH` -/
def lineQDepth : ℕ := 8

/-- `line_overflow` -/
def lineOverflow : Text := [1]

/-- `rx_line`, up to `rx_len`, and `rx_overflow`. -/
structure LineBuf where
  rxLine : Text
  rxOverflow : Bool
  deriving DecidableEq

/-- `line_byte`: the buffer after it, and the line it puts into `line_q`. -/
def lineByte (c : UInt8) (l : LineBuf) : LineBuf × Option Text :=
  if c = 0x0D then
    (⟨[], false⟩,
      if l.rxOverflow then some lineOverflow else if l.rxLine ≠ [] then some l.rxLine else none)
  else if c = 0x0A then (l, none)
  else if c = 0x08 ∨ c = 0x7F then (⟨l.rxLine.dropLast, l.rxOverflow⟩, none)
  else if l.rxLine.length < atLineMax - 1 then (⟨l.rxLine ++ [c], l.rxOverflow⟩, none)
  else (⟨l.rxLine, true⟩, none)

/-- `k_msgq_put(&line_q, line, K_NO_WAIT)`: a line that finds the queue full is dropped. -/
def putLine (line : Text) (q : List Text) : List Text :=
  if q.length < lineQDepth then q ++ [line] else q

namespace Bin

/-- A received byte with its number. -/
abbrev Rx := ℕ × UInt8

/-- The AT thread, by what it does next in the call `k` of `at_uart_read_binary`. -/
inductive AtPc
  | idle
  /-- `k_sem_reset(&bin_done)` -/
  | reset (k len : ℕ)
  /-- the section that sets `bin_buf`, `bin_have` and `bin_need` -/
  | arm (k len : ℕ)
  /-- `tx_write("\r\n>", 3)` -/
  | prompt (k len : ℕ)
  /-- `k_sem_take(&bin_done, timeout)` -/
  | take (k len : ℕ)
  /-- the section that clears `bin_need` and `bin_have` after a timeout -/
  | cancel (k len : ℕ)
  deriving DecidableEq

/-- The receive thread in `rx_process`, by what it does next; `todo` is what is left of the event
and `echo` what it has collected. -/
inductive RxPc
  | idle
  /-- the head of the loop: `bin_byte`, or the echo once nothing is left -/
  | loop (todo : List UInt8) (echo : List Rx)
  /-- the test of `echo_on` -/
  | echo (b : Rx) (todo : List UInt8) (echo : List Rx)
  /-- `line_byte` -/
  | line (b : Rx) (todo : List UInt8) (echo : List Rx)
  deriving DecidableEq

/-- What happened, in order. -/
inductive Ev
  | armed (k len : ℕ)
  /-- `bin_byte` got the byte; the entry `k` took it, if any. -/
  | received (b : Rx) (entry : Option ℕ)
  /-- `k_sem_give(&bin_done)` for the entry `k` -/
  | completed (k : ℕ)
  | cancelled (k : ℕ)
  /-- `line_byte` got the byte. -/
  | line (b : Rx)
  /-- These bytes were written as an echo. -/
  | echoed (bs : List Rx)
  | prompted (k : ℕ)
  /-- `at_uart_read_binary` returned 0, or `-ETIMEDOUT`. -/
  | returned (k : ℕ) (ok : Bool)
  deriving DecidableEq

structure State where
  /-- The call whose buffer `bin_buf` points to. -/
  binBuf : ℕ
  binNeed : ℕ
  binHave : ℕ
  binDone : Bool
  /-- The buffers of the calls. -/
  bufs : ℕ → List UInt8
  at_ : AtPc
  rx : RxPc
  lineBuf : LineBuf
  lineQ : List Text
  echoOn : Bool
  /-- The length that each call asked for. -/
  calls : List ℕ
  /-- How many bytes were received. -/
  received : ℕ
  log : List Ev

inductive Action
  /-- The AT thread calls `at_uart_read_binary` for `len` bytes. -/
  | readBinary (len : ℕ)
  /-- The AT thread's next step. -/
  | at_
  /-- The timeout of `k_sem_take` passes. -/
  | timeout
  /-- `rx_thread` gets an event with these bytes. -/
  | rxEvent (data : List UInt8)
  /-- The receive thread's next step. -/
  | rx
  /-- `at_uart_set_echo` -/
  | setEcho (on : Bool)
  /-- `at_uart_get_line` -/
  | getLine
  /-- `at_uart_inject_line` -/
  | injectLine (line : Text)
  deriving DecidableEq

def init : State where
  binBuf := 0
  binNeed := 0
  binHave := 0
  binDone := false
  bufs := fun _ => []
  at_ := .idle
  rx := .idle
  lineBuf := ⟨[], false⟩
  lineQ := []
  echoOn := true
  calls := []
  received := 0
  log := []

def State.add (s : State) (evs : List Ev) : State := { s with log := s.log ++ evs }

/-- `bin_byte`: whether a pending entry took the byte. -/
def binByte (b : Rx) (s : State) : State × Bool :=
  let s := { s with received := s.received + 1 }
  if s.binHave < s.binNeed then
    let s := { s with
      bufs := Function.update s.bufs s.binBuf ((s.bufs s.binBuf).set s.binHave b.2)
      binHave := s.binHave + 1 }.add [.received b (some s.binBuf)]
    if s.binHave = s.binNeed then
      ({ s with binNeed := 0, binDone := true }.add [.completed s.binBuf], true)
    else (s, true)
  else (s.add [.received b none], false)

/-- The call of `at_uart_read_binary`; the buffer holds zeros. -/
def readBinary (len : ℕ) (s : State) : State := { s with
  bufs := Function.update s.bufs s.calls.length (List.replicate len 0)
  calls := s.calls ++ [len]
  at_ := .reset s.calls.length len }

/-- One step of `at_uart_read_binary`. -/
def stepAt (s : State) : Option State :=
  match s.at_ with
  | .idle => none
  | .reset k len => some { s with binDone := false, at_ := .arm k len }
  | .arm k len =>
    some ({ s with binBuf := k, binHave := 0, binNeed := len, at_ := .prompt k len }.add
      [.armed k len])
  | .prompt k len => some ({ s with at_ := .take k len }.add [.prompted k])
  | .take k _ =>
    if s.binDone then some ({ s with binDone := false, at_ := .idle }.add [.returned k true])
    else none
  | .cancel k _ =>
    some ({ s with binNeed := 0, binHave := 0, at_ := .idle }.add
      [.cancelled k, .returned k false])

/-- The timeout of `k_sem_take`, which did not get the semaphore. -/
def stepTimeout (s : State) : Option State :=
  match s.at_ with
  | .take k len => if s.binDone then none else some { s with at_ := .cancel k len }
  | _ => none

/-- `RX_BUF_SIZE`, the size of `echo` -/
def rxBufSize : ℕ := 256

/-- One step of `rx_process`. -/
def stepRx (s : State) : Option State :=
  match s.rx with
  | .idle => none
  | .loop (c :: todo) echo =>
    let b := (s.received, c)
    let (s, taken) := binByte b s
    some { s with rx := if taken then .loop todo echo else .echo b todo echo }
  | .loop [] [] => some { s with rx := .idle }
  | .loop [] (b :: echo) => some ({ s with rx := .idle }.add [.echoed (b :: echo)])
  | .echo b todo echo => some { s with
      rx := .line b todo (if s.echoOn ∧ echo.length < rxBufSize then echo ++ [b] else echo) }
  | .line b todo echo =>
    let (l, line) := lineByte b.2 s.lineBuf
    some ({ s with
      lineBuf := l
      lineQ := line.elim s.lineQ fun line => putLine line s.lineQ
      rx := .loop todo echo }.add [.line b])

def step (s : State) : Action → Option State
  | .readBinary len => if s.at_ = .idle then some (readBinary len s) else none
  | .at_ => stepAt s
  | .timeout => stepTimeout s
  | .rxEvent data => if s.rx = .idle then some { s with rx := .loop data [] } else none
  | .rx => stepRx s
  | .setEcho on => some { s with echoOn := on }
  | .getLine => if s.at_ = .idle then some { s with lineQ := s.lineQ.tail } else none
  | .injectLine line =>
    some { s with lineQ := putLine (line.take (atLineMax - 1)) s.lineQ }

def machine : Machine State Action := ⟨(· = init), step⟩

/-! ## What the log says -/

/-- The bytes received. -/
def receivedIn (log : List Ev) : List Rx :=
  log.filterMap fun
    | .received b _ => some b
    | _ => none

/-- The bytes that the entry `k` took. -/
def takenBy (k : ℕ) (log : List Ev) : List Rx :=
  log.filterMap fun
    | .received b (some j) => if j = k then some b else none
    | _ => none

/-- The entry that is armed after this log, if any. -/
def armedAfter (log : List Ev) : Option ℕ :=
  log.foldl (fun armed e =>
    match e with
    | .armed k _ => some k
    | .completed _ | .cancelled _ => none
    | _ => armed) none

/-- The byte that the receive thread has for the line assembler. -/
def RxPc.held : RxPc → List Rx
  | .echo b _ _ | .line b _ _ => [b]
  | _ => []

/-- The bytes it has collected to echo. -/
def RxPc.echoes : RxPc → List Rx
  | .loop _ bs | .echo _ _ bs | .line _ _ bs => bs
  | .idle => []

end Bin

end ZbAt.Uart
