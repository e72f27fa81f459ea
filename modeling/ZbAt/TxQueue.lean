import Mathlib.Data.Int.Notation
import Mathlib.Data.List.FinRange
import Mathlib.Logic.Function.Basic
import ZbAt.At
import ZbAt.Machine

/-!
# Sending data (zb_msg.c, transmit half)

`submit` runs on the AT thread: it reserves one of four request slots, counts an acknowledged
request in `in_flight_count`, copies the request into the slot and asks ZBOSS for a buffer. The
stack thread then calls `tx_send` with the buffer and the slot, and `tx_done` once the payload is
out. Acknowledged requests are tracked in the table `in_flight` and reported with `ACK:XX` or
`NACK:XX`; `send_unicast` prints `SEQ:XX` after `submit` returned.

* `AtPc`, `StackPc` — where the two threads are. A step makes at most one access to what they
  share; the table `in_flight` belongs to the stack thread, so its updates ride along.
* `machine` — the threads interleave step by step. What ZBOSS decides (buffers, results, the
  order of its callbacks) and the value of `S0E` at each read are chosen by the action.

Submit calls are numbered. `calls`, `sched`, `air` and `log` record what was called, what ZBOSS
still owes, and what happened; the program never reads `calls` and `log`.
-/

namespace ZbAt.Tx

/-- `TX_SLOTS` -/
abbrev txSlots : ℕ := 4

/-- `UCAST_IN_FLIGHT` -/
abbrev ucastInFlight : ℕ := 10

/-- Bits of `S0E`. -/
def s0eAckOff : ℕ := 0x6
def s0eNackOff : ℕ := 0x7
def s0eSeqOff : ℕ := 0xC

/-- `zb_bufid_t` -/
abbrev BufId := UInt8

/-- `struct tx_req` -/
structure TxReq where
  dst : UInt16
  profile : UInt16
  cluster : UInt16
  srcEp : UInt8
  dstEp : UInt8
  seq : UInt8
  ack : Bool
  quiet : Bool
  len : UInt8
  data : List UInt8
  deriving DecidableEq

/-- `struct tx_req r = { 0 }` -/
def TxReq.zero : TxReq := ⟨0, 0, 0, 0, 0, 0, false, false, 0, []⟩

/-- `struct in_flight` -/
structure InFlight where
  used : Bool
  quiet : Bool
  buf : BufId
  seq : UInt8
  deriving DecidableEq

abbrev Table := Fin ucastInFlight → InFlight

/-- The lines that the two threads print. -/
inductive Line
  | seq (n : UInt8)
  | ack (n : UInt8)
  | nack (n : UInt8)
  deriving DecidableEq

/-- `report`: the line printed, when `S0E` reads `s0e`. -/
def report (s0e : ℕ) (seq : UInt8) (quiet acked : Bool) : Option Line :=
  if quiet then none
  else if acked && !s0e.testBit s0eAckOff then some (.ack seq)
  else if !acked && !s0e.testBit s0eNackOff then some (.nack seq)
  else none

/-- `in_flight_add` -/
def inFlightAdd (buf : BufId) (r : TxReq) (t : Table) : Table :=
  match (List.finRange ucastInFlight).find? fun i => !(t i).used with
  | some i => Function.update t i ⟨true, r.quiet, buf, r.seq⟩
  | none => t

/-- The entry `tx_done` stops at. -/
def inFlightFind (buf : BufId) (t : Table) : Option (Fin ucastInFlight) :=
  (List.finRange ucastInFlight).find? fun i => (t i).used && (t i).buf == buf

/-- The loop of `tx_send` that takes the entries of a refused buffer back. -/
def inFlightDrop (buf : BufId) (t : Table) : Table := fun i =>
  if (t i).used && (t i).buf == buf then { t i with used := false } else t i

/-! ## The machine -/

/-- The AT thread, by what it does next. `k` is the number of the submit call, `r` its request;
`uni` if `send_unicast` called it. -/
inductive AtPc
  | idle
  /-- `atomic_test_and_set_bit(&slots_used, i)` -/
  | scan (i k : ℕ) (r : TxReq) (uni : Bool)
  /-- `atomic_inc(&in_flight_count)`, if acknowledged -/
  | inc (slot : Fin txSlots) (k : ℕ) (r : TxReq) (uni : Bool)
  /-- `atomic_dec(&in_flight_count)` of a request too many -/
  | undoInc (slot : Fin txSlots) (k : ℕ)
  /-- `slots[slot] = *r` -/
  | store (slot : Fin txSlots) (k : ℕ) (r : TxReq) (uni : Bool)
  /-- `zb_buf_get_out_delayed_ext(tx_send, slot, 0)` -/
  | getBuf (slot : Fin txSlots) (k : ℕ) (r : TxReq) (uni : Bool)
  /-- `atomic_dec(&in_flight_count)` of a request without a buffer -/
  | undoCount (slot : Fin txSlots) (k : ℕ)
  /-- `atomic_clear_bit(&slots_used, slot)`, and submit returns `err` -/
  | undoSlot (slot : Fin txSlots) (k err : ℕ)
  /-- `send_unicast` prints `SEQ:XX`. -/
  | seqLine (k : ℕ) (r : TxReq)
  deriving DecidableEq

/-- The stack thread, by what it does next for the request of the call `k`. -/
inductive StackPc
  | idle
  /-- `tx_send`: `in_flight_add`, if acknowledged -/
  | add (slot : Fin txSlots) (buf : BufId) (k : ℕ)
  /-- `zb_aps_send_user_payload` -/
  | pass (slot : Fin txSlots) (buf : BufId) (k : ℕ)
  /-- The payload was refused: the entry and the count are taken back, if acknowledged. -/
  | drop (slot : Fin txSlots) (buf : BufId) (k : ℕ)
  /-- `report(r->seq, r->quiet, false)` -/
  | nack (slot : Fin txSlots) (buf : BufId) (k : ℕ)
  /-- `zb_buf_free` of the refused buffer -/
  | free (slot : Fin txSlots) (buf : BufId) (k : ℕ)
  /-- `atomic_clear_bit(&slots_used, slot)` -/
  | clear (slot : Fin txSlots)
  /-- `tx_done`: the loop over `in_flight` -/
  | done (buf : BufId) (k : ℕ) (acked : Bool)
  /-- `tx_done` reports. -/
  | ack (buf : BufId) (k : ℕ) (seq : UInt8) (quiet acked : Bool)
  /-- `zb_buf_free(param)` -/
  | doneFree (buf : BufId) (k : ℕ)
  deriving DecidableEq

/-- What happened, in order. -/
inductive Ev
  /-- ZBOSS accepted to call `tx_send` for the call `k`. -/
  | queued (k : ℕ)
  | returned (k result : ℕ)
  /-- `zb_aps_send_user_payload` was called with this request. -/
  | passed (k : ℕ) (r : TxReq) (ok : Bool)
  /-- `report` was called, and printed `line`. -/
  | reported (k : ℕ) (seq : UInt8) (acked : Bool) (line : Option Line)
  /-- `tx_send` came to its end with the payload refused. -/
  | sendFailed (k : ℕ)
  /-- `tx_done` came to its end. -/
  | txDone (k : ℕ)
  | seqPrinted (k : ℕ) (line : Line)
  deriving DecidableEq

structure State where
  slots : Fin txSlots → TxReq
  slotsUsed : Fin txSlots → Bool
  inFlight : Table
  inFlightCount : ℤ
  nextSeq : UInt8
  at_ : AtPc
  stack : StackPc
  /-- The calls of `tx_send` that ZBOSS accepted and has not made yet. -/
  sched : List (Fin txSlots × ℕ)
  /-- The payloads ZBOSS accepted and has not reported with `tx_done` yet. -/
  air : List (BufId × ℕ)
  /-- The requests of the submit calls so far. -/
  calls : List TxReq
  log : List Ev

inductive Action
  /-- The AT thread calls `submit(&r)`. -/
  | submit (r : TxReq)
  /-- The AT thread calls `send_unicast(&r, quiet)`. -/
  | sendUnicast (r : TxReq) (quiet : Bool)
  /-- The AT thread's next step: ZBOSS accepts the request for a buffer, `S0E` reads `s0e`. -/
  | at_ (bufOk : Bool) (s0e : ℕ)
  /-- ZBOSS calls `tx_send` for the `i`-th call it owes, with the buffer `buf`. -/
  | txSend (i : ℕ) (buf : BufId)
  /-- ZBOSS calls `tx_done` for the `i`-th payload it has. -/
  | txDone (i : ℕ) (acked : Bool)
  /-- The stack thread's next step: ZBOSS accepts the payload, `S0E` reads `s0e`. -/
  | stack (sendOk : Bool) (s0e : ℕ)
  deriving DecidableEq

def init : State where
  slots := fun _ => .zero
  slotsUsed := fun _ => false
  inFlight := fun _ => ⟨false, false, 0, 0⟩
  inFlightCount := 0
  nextSeq := 0
  at_ := .idle
  stack := .idle
  sched := []
  air := []
  calls := []
  log := []

/-- Where the AT thread continues when submit returned `AT_OK`. -/
def AtPc.afterOk (k : ℕ) (r : TxReq) (uni : Bool) : AtPc := if uni then .seqLine k r else .idle

/-- One step of `submit` and of `send_unicast` after it. -/
def stepAt (bufOk : Bool) (s0e : ℕ) (s : State) : Option State :=
  match s.at_ with
  | .idle => none
  | .scan i k r uni =>
    if h : i < txSlots then
      if s.slotsUsed ⟨i, h⟩ then some { s with at_ := .scan (i + 1) k r uni }
      else some { s with
        slotsUsed := Function.update s.slotsUsed ⟨i, h⟩ true
        at_ := .inc ⟨i, h⟩ k r uni }
    else some { s with at_ := .idle, log := s.log ++ [.returned k atErrNoBuffers] }
  | .inc slot k r uni =>
    if r.ack then some { s with
      inFlightCount := s.inFlightCount + 1
      at_ := if s.inFlightCount ≥ ucastInFlight then .undoInc slot k else .store slot k r uni }
    else some { s with at_ := .store slot k r uni }
  | .undoInc slot k => some { s with
      inFlightCount := s.inFlightCount - 1
      at_ := .undoSlot slot k atErrTooManyUcast }
  | .store slot k r uni => some { s with
      slots := Function.update s.slots slot r
      at_ := .getBuf slot k r uni }
  | .getBuf slot k r uni =>
    if bufOk then some { s with
      sched := s.sched ++ [(slot, k)]
      at_ := .afterOk k r uni
      log := s.log ++ [.queued k, .returned k atOk] }
    else some { s with
      at_ := if r.ack then .undoCount slot k else .undoSlot slot k atErrNoBuffers }
  | .undoCount slot k => some { s with
      inFlightCount := s.inFlightCount - 1
      at_ := .undoSlot slot k atErrNoBuffers }
  | .undoSlot slot k err => some { s with
      slotsUsed := Function.update s.slotsUsed slot false
      at_ := .idle
      log := s.log ++ [.returned k err] }
  | .seqLine k r =>
    if !r.quiet && !s0e.testBit s0eSeqOff then some { s with
      at_ := .idle
      log := s.log ++ [.seqPrinted k (.seq r.seq)] }
    else some { s with at_ := .idle }

/-- One step of `tx_send` or `tx_done`. -/
def stepStack (sendOk : Bool) (s0e : ℕ) (s : State) : Option State :=
  match s.stack with
  | .idle => none
  | .add slot buf k => some { s with
      inFlight := if (s.slots slot).ack then inFlightAdd buf (s.slots slot) s.inFlight
        else s.inFlight
      stack := .pass slot buf k }
  | .pass slot buf k =>
    if sendOk then some { s with
      air := s.air ++ [(buf, k)]
      stack := .clear slot
      log := s.log ++ [.passed k (s.slots slot) true] }
    else some { s with
      stack := if (s.slots slot).ack then .drop slot buf k else .free slot buf k
      log := s.log ++ [.passed k (s.slots slot) false] }
  | .drop slot buf k => some { s with
      inFlight := inFlightDrop buf s.inFlight
      inFlightCount := s.inFlightCount - 1
      stack := .nack slot buf k }
  | .nack slot buf k => some { s with
      stack := .free slot buf k
      log := s.log ++ [.reported k (s.slots slot).seq false
        (report s0e (s.slots slot).seq (s.slots slot).quiet false)] }
  | .free slot _ k => some { s with
      stack := .clear slot
      log := s.log ++ [.sendFailed k] }
  | .clear slot => some { s with
      slotsUsed := Function.update s.slotsUsed slot false
      stack := .idle }
  | .done buf k acked =>
    match inFlightFind buf s.inFlight with
    | some i => some { s with
        inFlight := Function.update s.inFlight i { s.inFlight i with used := false }
        inFlightCount := s.inFlightCount - 1
        stack := .ack buf k (s.inFlight i).seq (s.inFlight i).quiet acked }
    | none => some { s with stack := .doneFree buf k }
  | .ack buf k seq quiet acked => some { s with
      stack := .doneFree buf k
      log := s.log ++ [.reported k seq acked (report s0e seq quiet acked)] }
  | .doneFree _ k => some { s with
      stack := .idle
      log := s.log ++ [.txDone k] }

/-- The calls of `submit` wait until the AT thread is idle, ZBOSS's callbacks until the stack
thread is. A buffer handed to `tx_send` is none that a payload still uses. -/
def step (s : State) : Action → Option State
  | .submit r =>
    if s.at_ = .idle then
      some { s with at_ := .scan 0 s.calls.length r false, calls := s.calls ++ [r] }
    else none
  | .sendUnicast r quiet =>
    if s.at_ = .idle then
      let r := { r with ack := true, quiet := quiet, seq := s.nextSeq }
      some { s with
        nextSeq := s.nextSeq + 1
        at_ := .scan 0 s.calls.length r true
        calls := s.calls ++ [r] }
    else none
  | .at_ bufOk s0e => stepAt bufOk s0e s
  | .txSend i buf =>
    match s.sched[i]? with
    | none => none
    | some (slot, k) =>
      if s.stack = .idle ∧ buf ∉ s.air.map Prod.fst then
        some { s with sched := s.sched.eraseIdx i, stack := .add slot buf k }
      else none
  | .txDone i acked =>
    match s.air[i]? with
    | none => none
    | some (buf, k) =>
      if s.stack = .idle then
        some { s with air := s.air.eraseIdx i, stack := .done buf k acked }
      else none
  | .stack sendOk s0e => stepStack sendOk s0e s

def machine : Machine State Action := ⟨(· = init), step⟩

/-! ## What the log says of a call -/

/-- The requests passed to `zb_aps_send_user_payload` for the call `k`. -/
def passedOf (k : ℕ) (log : List Ev) : List TxReq :=
  log.filterMap fun
    | .passed j r _ => if j = k then some r else none
    | _ => none

/-- The sequence numbers that `report` was called with for the call `k`. -/
def reportsOf (k : ℕ) (log : List Ev) : List UInt8 :=
  log.filterMap fun
    | .reported j seq _ _ => if j = k then some seq else none
    | _ => none

/-- The call `k` is acknowledged. -/
def State.acked (s : State) (k : ℕ) : Bool := s.calls[k]?.elim false TxReq.ack

/-- The call whose `tx_send` the stack thread runs, up to `in_flight_add`. -/
def StackPc.adding : StackPc → List ℕ
  | .add _ _ k => [k]
  | _ => []

/-- The calls that hold a slot and whose `tx_send` has not run yet. -/
def State.waiting (s : State) : List ℕ := s.stack.adding ++ s.sched.map Prod.snd

/-- The acknowledged requests that hold a slot and whose `tx_send` has not run yet. -/
def State.waitingAcks (s : State) : ℕ := s.waiting.countP s.acked

/-- The call whose payload the stack thread is about to pass to ZBOSS. -/
def StackPc.unsent : StackPc → List ℕ
  | .add _ _ k | .pass _ _ k => [k]
  | _ => []

/-- The accepted calls whose request was not passed to ZBOSS yet. -/
def State.unsent (s : State) : List ℕ := s.stack.unsent ++ s.sched.map Prod.snd

/-- The number of used entries. -/
def Table.usedCount (t : Table) : ℕ := (List.finRange ucastInFlight).countP fun i => (t i).used

/-- submit is not running. -/
def AtPc.outside : AtPc → Bool
  | .idle | .seqLine _ _ => true
  | _ => false

end ZbAt.Tx
