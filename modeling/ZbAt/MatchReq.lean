import Mathlib.Data.Fintype.Pi
import Mathlib.Data.List.FinRange
import Mathlib.Logic.Function.Basic
import ZbAt.Machine
import ZbAt.Sreg

/-!
# Match descriptor requests (zb_msg.c, `AT+MATCHREQ`)

`cmd_matchreq` runs on the AT thread: it parses its request, copies it to `match_pending` and asks
ZBOSS for a buffer. The stack thread then calls `match_send`, which reads `match_pending`.

* `parseMatchreq` — the checks of `cmd_matchreq` and what they accept.
* `machine` — the threads interleave between the accesses to the fields of `match_pending`.

Commands are numbered. `calls` and `log` record what was called and what happened; the program
never reads them.
-/

namespace ZbAt.Match

open Text Sreg

/-! ## The command line -/

/-- `next_field`: the field and what is left. -/
def nextField : Option Text → Option Text × Option Text
  | none => (none, none)
  | some start =>
    match strchr start 44 with
    | none => (some start, none)
    | some rest => (some (start.takeWhile (· != 44)), some rest)

/-- A field of exactly `len` hex digits. -/
def hexField (len : ℕ) (field : Option Text) : Option ℕ :=
  match field with
  | none => none
  | some t => if t.length != len then none else atParseHexN t len

/-- The loop of `parse_cluster_list`: `n` cluster IDs. -/
def parseIds : ℕ → Option Text → Option (List UInt16 × Option Text)
  | 0, p => some ([], p)
  | n + 1, p => do
    let (field, p) := nextField p
    let v ← hexField 4 field
    let (ids, p) ← parseIds n p
    return (v.toUInt16 :: ids, p)

/-- `parse_cluster_list` -/
def parseClusterList (p : Option Text) : Option (List UInt16 × Option Text) := do
  let (field, p) := nextField p
  let v ← hexField 2 field
  if v > maxClusters then none else parseIds v p

/-- What `AT+MATCHREQ` asks for. -/
structure MatchArgs where
  profile : UInt16
  inClusters : List UInt16
  outClusters : List UInt16
  deriving DecidableEq

/-- `cmd_matchreq`, as far as the syntax goes. -/
def parseMatchreq (args : Text) : Option MatchArgs :=
  match args with
  | 58 :: t => do
    let (field, p) := nextField (some t)
    let profile ← hexField 4 field
    let (ins, p) ← parseClusterList p
    let (outs, p) ← parseClusterList p
    if p.isSome then none else return ⟨profile.toUInt16, ins, outs⟩
  | _ => none

/-- `struct match_req` -/
structure MatchReq where
  profile : UInt16
  nIn : UInt8
  nOut : UInt8
  clusters : Fin (2 * maxClusters) → UInt16
  deriving DecidableEq

/-- `struct match_req req = { 0 }` -/
def MatchReq.zero : MatchReq := ⟨0, 0, 0, fun _ => 0⟩

/-- The request that `cmd_matchreq` fills in. -/
def MatchArgs.req (q : MatchArgs) : MatchReq where
  profile := q.profile
  nIn := q.inClusters.length.toUInt8
  nOut := q.outClusters.length.toUInt8
  clusters := fun i => (q.inClusters ++ q.outClusters).getD i 0

/-- `ZB_NWK_BROADCAST_RX_ON_WHEN_IDLE` -/
def broadcastRxOnWhenIdle : UInt16 := 0xFFFD

/-- `zb_zdo_match_desc_param_t` -/
structure MatchDesc where
  nwkAddr : UInt16
  addrOfInterest : UInt16
  profileId : UInt16
  numInClusters : UInt8
  numOutClusters : UInt8
  clusterList : List UInt16
  deriving DecidableEq

def MatchDesc.addCluster (req : MatchDesc) (id : UInt16) : MatchDesc :=
  { req with clusterList := req.clusterList ++ [id] }

/-- The Match_Desc_req that the command stands for. -/
def MatchArgs.desc (q : MatchArgs) : MatchDesc where
  nwkAddr := broadcastRxOnWhenIdle
  addrOfInterest := broadcastRxOnWhenIdle
  profileId := q.profile
  numInClusters := q.inClusters.length.toUInt8
  numOutClusters := q.outClusters.length.toUInt8
  clusterList := q.inClusters ++ q.outClusters

/-! ## The machine -/

/-- The parts of a request that are read and written one at a time. -/
inductive Field
  | profile
  | nIn
  | nOut
  | cluster (i : Fin (2 * maxClusters))
  deriving DecidableEq

def allFields : List Field :=
  .profile :: .nIn :: .nOut :: (List.finRange (2 * maxClusters)).map .cluster

/-- One access of `match_pending = req`. -/
def MatchReq.copyField (p : MatchReq) (r : MatchReq) : Field → MatchReq
  | .profile => { p with profile := r.profile }
  | .nIn => { p with nIn := r.nIn }
  | .nOut => { p with nOut := r.nOut }
  | .cluster i => { p with clusters := Function.update p.clusters i (r.clusters i) }

/-- `zb_bufid_t` -/
abbrev BufId := UInt8

/-- The AT thread, by what it does next for the command `k`. -/
inductive AtPc
  | idle
  /-- `match_pending = req`, with the fields `todo` to go -/
  | copy (todo : List Field) (k : ℕ) (req : MatchReq)
  /-- `zb_buf_get_out_delayed(match_send)` -/
  | getBuf (k : ℕ)
  deriving DecidableEq

/-- The stack thread in `match_send(bufid)`, by what it does next for the command `k`. -/
inductive StackPc
  | idle
  /-- `match_pending.n_in`, for the size -/
  | sizeIn (buf : BufId) (k : ℕ)
  /-- `match_pending.n_out`, for the size -/
  | sizeOut (buf : BufId) (k : ℕ) (nIn : UInt8)
  /-- `req->profile_id = match_pending.profile` -/
  | profile (buf : BufId) (k n : ℕ)
  /-- `req->num_in_clusters = match_pending.n_in` -/
  | numIn (buf : BufId) (k n : ℕ) (profile : UInt16)
  /-- `req->num_out_clusters = match_pending.n_out` -/
  | numOut (buf : BufId) (k n : ℕ) (profile : UInt16) (nIn : UInt8)
  /-- `memcpy` of `n` clusters, then `zb_zdo_match_desc_req` -/
  | clusters (buf : BufId) (k n : ℕ) (req : MatchDesc)
  /-- `zb_buf_free` of a refused request -/
  | free (buf : BufId)
  deriving DecidableEq

/-- What happened, in order. -/
inductive Ev
  | returned (k result : ℕ)
  /-- `zb_zdo_match_desc_req` was called with this request, which ZBOSS accepted or not. -/
  | matchDescReq (k : ℕ) (req : MatchDesc) (ok : Bool)
  | freed (buf : BufId)
  deriving DecidableEq

structure State where
  matchPending : MatchReq
  at_ : AtPc
  stack : StackPc
  /-- The calls of `match_send` that ZBOSS accepted and has not made yet. -/
  sched : List ℕ
  /-- The arguments of the commands so far. -/
  calls : List Text
  log : List Ev

inductive Action
  /-- The AT thread executes `AT+MATCHREQ` with these arguments; `zbc_joined` says `joined`. -/
  | matchreq (args : Text) (joined : Bool)
  /-- The AT thread's next step; ZBOSS accepts the request for a buffer. -/
  | at_ (bufOk : Bool)
  /-- ZBOSS makes the oldest call of `match_send` that it owes. -/
  | matchSend (buf : BufId)
  /-- The stack thread's next step; ZBOSS accepts the request. -/
  | stack (sendOk : Bool)
  deriving DecidableEq

def init : State := ⟨.zero, .idle, .idle, [], [], []⟩

/-- `cmd_matchreq`, up to the copy. -/
def cmdMatchreq (args : Text) (joined : Bool) (s : State) : State :=
  let k := s.calls.length
  let s := { s with calls := s.calls ++ [args] }
  match parseMatchreq args with
  | none => { s with log := s.log ++ [.returned k atErrInvalidParam] }
  | some q =>
    if !joined then { s with log := s.log ++ [.returned k atErrNotJoined] }
    else { s with at_ := .copy allFields k q.req }

/-- One step of `cmd_matchreq` from the copy on. -/
def stepAt (bufOk : Bool) (s : State) : Option State :=
  match s.at_ with
  | .idle => none
  | .copy (f :: todo) k req => some { s with
      matchPending := s.matchPending.copyField req f
      at_ := .copy todo k req }
  | .copy [] k _ => some { s with at_ := .getBuf k }
  | .getBuf k =>
    if bufOk then some { s with
      sched := s.sched ++ [k]
      at_ := .idle
      log := s.log ++ [.returned k atOk] }
    else some { s with
      at_ := .idle
      log := s.log ++ [.returned k atErrNoBuffers] }

/-- One step of `match_send`. -/
def stepStack (sendOk : Bool) (s : State) : Option State :=
  let p := s.matchPending
  match s.stack with
  | .idle => none
  | .sizeIn buf k => some { s with stack := .sizeOut buf k p.nIn }
  | .sizeOut buf k nIn => some { s with stack := .profile buf k (nIn.toNat + p.nOut.toNat) }
  | .profile buf k n => some { s with stack := .numIn buf k n p.profile }
  | .numIn buf k n profile => some { s with stack := .numOut buf k n profile p.nIn }
  | .numOut buf k n profile nIn => some { s with
      stack := .clusters buf k n
        ⟨broadcastRxOnWhenIdle, broadcastRxOnWhenIdle, profile, nIn, p.nOut, []⟩ }
  | .clusters buf k n req =>
    if h : req.clusterList.length < n ∧ req.clusterList.length < 2 * maxClusters then some { s with
      stack := .clusters buf k n (req.addCluster (p.clusters ⟨_, h.2⟩)) }
    else some { s with
      stack := if sendOk then .idle else .free buf
      log := s.log ++ [.matchDescReq k req sendOk] }
  | .free buf => some { s with
      stack := .idle
      log := s.log ++ [.freed buf] }

def step (s : State) : Action → Option State
  | .matchreq args joined => if s.at_ = .idle then some (cmdMatchreq args joined s) else none
  | .at_ bufOk => stepAt bufOk s
  | .matchSend buf =>
    match s.sched with
    | [] => none
    | k :: sched =>
      if s.stack = .idle then some { s with sched := sched, stack := .sizeIn buf k } else none
  | .stack sendOk => stepStack sendOk s

def machine : Machine State Action := ⟨(· = init), step⟩

/-! ## What the log says of a command -/

/-- What the command `k` asks for. -/
def State.argsOf (s : State) (k : ℕ) : Option MatchArgs := s.calls[k]?.bind parseMatchreq

/-- The Match_Desc_reqs of the command `k`: the requests that `zb_zdo_match_desc_req` took. -/
def requestsOf (k : ℕ) (log : List Ev) : List MatchDesc :=
  log.filterMap fun
    | .matchDescReq j req true => if j = k then some req else none
    | _ => none

/-- The command whose `match_send` runs and has not called `zb_zdo_match_desc_req` yet. -/
def StackPc.sending : StackPc → List ℕ
  | .idle | .free _ => []
  | .sizeIn _ k | .sizeOut _ k _ | .profile _ k _ | .numIn _ k _ _ | .numOut _ k _ _ _
  | .clusters _ k _ _ => [k]

/-- The accepted commands whose request is still to be made. -/
def State.owed (s : State) : List ℕ := s.stack.sending ++ s.sched

end ZbAt.Match
