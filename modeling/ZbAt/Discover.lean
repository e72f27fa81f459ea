import Mathlib.Data.Fintype.Pi
import Mathlib.Data.List.FinRange
import Mathlib.Logic.Function.Basic
import ZbAt.At
import ZbAt.Machine

/-!
# Address discovery (zb_msg.c, `discover`)

`discover` runs on the AT thread: it asks the network for the address of an EUI64 and waits, up to
three times, for an answer. One EUI64, one result and one semaphore serve all calls; answers and
failed requests of earlier calls can come at any time.

* `machine` — the AT thread moves one access at a time. Between any two of its steps ZBOSS makes
  the calls of `disc_send` that it owes, and calls `disc_resp` with any answer. These callbacks run
  to their end: the AT thread has a lower priority than the stack.
* `Ev` — what happened; `log` records it, and the program never reads it.
-/

namespace ZbAt.Discover

/-- `zb_ieee_addr_t` -/
abbrev IeeeAddr := Fin 8 → UInt8

/-- `DISCOVERY_ATTEMPTS` -/
def discoveryAttempts : ℕ := 3

/-- `ZB_UNKNOWN_SHORT_ADDR` -/
def unknownShortAddr : UInt16 := 0xFFFF

/-- `ZB_ZDP_STATUS_SUCCESS` -/
def zdpStatusSuccess : UInt8 := 0

/-- `zb_zdo_nwk_addr_resp_head_t` -/
structure NwkAddrResp where
  status : UInt8
  ieeeAddr : IeeeAddr
  nwkAddr : UInt16
  deriving DecidableEq

/-- `zb_zdo_nwk_addr_req_param_t` -/
structure NwkAddrReq where
  dstAddr : UInt16
  ieeeAddr : IeeeAddr
  requestType : UInt8
  startIndex : UInt8
  deriving DecidableEq

/-- A call of `discover`; the calls are numbered. -/
structure Call where
  number : ℕ
  ieee : IeeeAddr
  deriving DecidableEq

/-- The number of an attempt. -/
abbrev Attempt := Fin discoveryAttempts

/-- The AT thread in `discover`, by what it does next. -/
inductive Pc
  /-- `ZB_IEEE_ADDR_COPY(disc_ieee, ieee)`, with the bytes `todo` to go -/
  | copy (todo : List (Fin 8))
  /-- `disc_result = ZB_UNKNOWN_SHORT_ADDR` -/
  | clear
  /-- `k_sem_reset(&disc_done)` -/
  | semReset
  /-- `zb_buf_get_out_delayed(disc_send)` -/
  | getBuf (attempt : Attempt)
  /-- `k_sem_take(&disc_done, DISCOVERY_WAIT)` -/
  | semTake (attempt : Attempt)
  /-- in `k_sem_take` -/
  | blocked (attempt : Attempt)
  /-- `k_sem_take` returned 0; `disc_result` is read -/
  | taken (attempt : Attempt)
  /-- `disc_result` is compared after the loop -/
  | compare
  /-- `*out = disc_result` -/
  | out
  deriving DecidableEq

inductive AtPc
  | idle
  | run (c : Call) (p : Pc)
  deriving DecidableEq

/-- What happened, in order. -/
inductive Ev
  | began (c : Call)
  /-- `disc_ieee`, `disc_result` and the semaphore are set. -/
  | initialised (c : Call)
  /-- `k_sem_take` was called. -/
  | waits (c : Call)
  | returned (c : Call) (result : Except ℕ UInt16)
  /-- `disc_send` made this request, or ZBOSS refused it. -/
  | requested (req : NwkAddrReq) (ok : Bool)
  /-- `disc_resp` was called with this answer. -/
  | handled (r : NwkAddrResp)
  deriving DecidableEq

structure State where
  discIeee : IeeeAddr
  discResult : UInt16
  /-- The count of `disc_done`, 0 or 1. -/
  discDone : Bool
  at_ : AtPc
  /-- The calls of `disc_send` that ZBOSS accepted and has not made yet. -/
  sched : ℕ
  /-- The number of calls of `discover`. -/
  calls : ℕ
  log : List Ev

inductive Action
  /-- The AT thread calls `discover`. -/
  | discover (ieee : IeeeAddr)
  /-- The AT thread's next step; ZBOSS accepts the request for a buffer. -/
  | at_ (bufOk : Bool)
  /-- `DISCOVERY_WAIT` is over. -/
  | timeout
  /-- ZBOSS makes a call of `disc_send`, and accepts the request. -/
  | discSend (sendOk : Bool)
  /-- ZBOSS calls `disc_resp`. -/
  | discResp (r : NwkAddrResp)
  deriving DecidableEq

def init : State := ⟨fun _ => 0, 0, false, .idle, 0, 0, []⟩

/-- `k_sem_give(&disc_done)`: a waiting thread takes it at once. -/
def semGive (s : State) : State :=
  match s.at_ with
  | .run c (.blocked attempt) => { s with at_ := .run c (.taken attempt) }
  | _ => { s with discDone := true }

/-- `disc_resp` -/
def discResp (r : NwkAddrResp) (s : State) : State :=
  let s := { s with log := s.log ++ [.handled r] }
  if r.status = zdpStatusSuccess ∧ r.ieeeAddr = s.discIeee then
    semGive { s with discResult := r.nwkAddr }
  else s

/-- `ZB_NWK_BROADCAST_RX_ON_WHEN_IDLE` -/
def broadcastRxOnWhenIdle : UInt16 := 0xFFFD

/-- `disc_send` -/
def discSend (sendOk : Bool) (s : State) : State :=
  let req : NwkAddrReq := ⟨broadcastRxOnWhenIdle, s.discIeee, 0, 0⟩
  let s := { s with sched := s.sched - 1, log := s.log ++ [.requested req sendOk] }
  if sendOk then s else semGive s

/-- The end of an attempt without a result. -/
def nextAttempt (attempt : Attempt) : Pc :=
  if h : attempt + 1 < discoveryAttempts then .getBuf ⟨attempt + 1, h⟩ else .compare

/-- `discover` returns. -/
def finish (c : Call) (result : Except ℕ UInt16) (s : State) : State :=
  { s with at_ := .idle, log := s.log ++ [.returned c result] }

/-- One step of `discover`. -/
def stepAt (bufOk : Bool) (c : Call) (s : State) : Pc → Option State
  | .copy (i :: todo) => some { s with
      discIeee := Function.update s.discIeee i (c.ieee i)
      at_ := .run c (.copy todo) }
  | .copy [] => some { s with at_ := .run c .clear }
  | .clear => some { s with discResult := unknownShortAddr, at_ := .run c .semReset }
  | .semReset => some { s with
      discDone := false
      at_ := .run c (.getBuf ⟨0, by decide⟩)
      log := s.log ++ [.initialised c] }
  | .getBuf attempt =>
    if bufOk then some { s with sched := s.sched + 1, at_ := .run c (.semTake attempt) }
    else some (finish c (.error atErrNoBuffers) s)
  | .semTake attempt =>
    let s := { s with log := s.log ++ [Ev.waits c] }
    if s.discDone then some { s with discDone := false, at_ := .run c (.taken attempt) }
    else some { s with at_ := .run c (.blocked attempt) }
  | .blocked _ => none
  | .taken attempt =>
    if s.discResult ≠ unknownShortAddr then some { s with at_ := .run c .compare }
    else some { s with at_ := .run c (nextAttempt attempt) }
  | .compare =>
    if s.discResult = unknownShortAddr then some (finish c (.error atErrUnreachable) s)
    else some { s with at_ := .run c .out }
  | .out => some (finish c (.ok s.discResult) s)

def step (s : State) : Action → Option State
  | .discover ieee =>
    if s.at_ = .idle then some { s with
      at_ := .run ⟨s.calls, ieee⟩ (.copy (List.finRange 8))
      calls := s.calls + 1
      log := s.log ++ [.began ⟨s.calls, ieee⟩] }
    else none
  | .at_ bufOk =>
    match s.at_ with
    | .idle => none
    | .run c p => stepAt bufOk c s p
  | .timeout =>
    match s.at_ with
    | .run c (.blocked attempt) => some { s with at_ := .run c (nextAttempt attempt) }
    | _ => none
  | .discSend sendOk => if 0 < s.sched then some (discSend sendOk s) else none
  | .discResp r => some (discResp r s)

def machine : Machine State Action := ⟨(· = init), step⟩

end ZbAt.Discover
