import ZbAt.Endpoint
import ZbAt.Receive
import ZbAt.XcastProof

/-!
# Calls of `senducastb` (protocol.py, at_uart.c, at_cmd.c, zb_msg.c)

`cmd_binary` sends a command, waits for `>`, and only then sends the data, as raw bytes: nothing
but the place in the stream tells them from commands. On the module one thread assembles lines or
fills the buffer of `at_uart_read_binary`, another executes the lines, and a third prints prompts
whenever it likes.

* `machine` — the host's two threads, the wires, and the three threads of the module; an action is
  one step of one of them.
* `Covered` — the runs in which neither `at_uart_read_binary` nor a call times out.
* `Answered` — what a call must have done, and returned.
-/

namespace ZbAt.BinaryCall

open Text Uart Host Sreg Xcast Tx Match Endpoint

/-! ## The host -/

/-- The arguments of `senducastb`. -/
structure Call where
  addr : Text
  srcEp : UInt8
  dstEp : UInt8
  profile : UInt16
  cluster : UInt16
  data : List UInt8
  deriving DecidableEq

def Call.command (c : Call) : Text :=
  senducastb c.addr c.srcEp c.dstEp c.profile c.cluster c.data.length

/-- `p.seq`, if the line is a `Seq`. -/
def seqCode (line : Text) : Option ℕ :=
  match parsePrompt line true with
  | some (.seq seq) => some seq
  | _ => none

/-- `_seq` -/
def seqOf (lines : List Text) : ℤ := (lines.findSome? seqCode).elim (-1) Int.ofNat

/-- What a call returns, the code of the `EtrxError` that it raises, or its `TimeoutError`. -/
inductive Answer
  | returned (seq : ℤ)
  | raised (code : ℕ)
  | timedOut
  deriving DecidableEq

/-- `cmd_binary`, by what it waits for. -/
inductive Caller
  | idle
  /-- the loop up to `>` -/
  | prompt (c : Call)
  /-- `_collect` -/
  | result (c : Call) (lines : List Text)
  deriving DecidableEq

/-- `_pending` -/
def Caller.pending : Caller → Option Text
  | .idle => none
  | .prompt c | .result c _ => some c.command

/-! ## The module -/

/-- `cmd_senducastb` up to `at_uart_read_binary`: what it returns, or the length that it reads and
the request so far. -/
def senducastbEntry (node : Node) (args : Text) : Except ℕ (ℕ × TxReq) :=
  if !node.joined then .error atErrNotJoined
  else
    match args with
    | 58 :: t =>
      let (lenStr, p) := nextField (some t)
      match hexField 2 lenStr with
      | none => .error atErrInvalidParam
      | some len =>
        if len = 0 then .error atErrInvalidParam
        else if len > payloadMax then .error atErrMsgTooLong
        else
          match parseTarget node p .zero with
          | .error err => .error err
          | .ok r => .ok (len, r)
    | _ => .error atErrInvalidParam

/-- `cmd_senducastb` after `at_uart_read_binary`. -/
def senducastbSend (node : Node) (r : TxReq) (data : List UInt8) : Ran :=
  sendUnicast node (setData data r) (sregBit 0x10 s10QuietSend node.vals)

theorem cmdSenducastb_eq (node : Node) (args : Text) : cmdSenducastb node args =
    match senducastbEntry node args with
    | .error err => node.refuse err
    | .ok (len, r) =>
      match node.readBinary len with
      | none => node.refuse atErrXcastbTimeout
      | some data => senducastbSend node r data := by
  unfold cmdSenducastb
  fun_cases senducastbEntry node args with
  | case1 args hjoined => simp only [if_pos hjoined]
  | case2 hjoined t lenStr p hfield hlen => simp only [if_neg hjoined, hfield, hlen]
  | case3 hjoined t lenStr p hfield hlen => simp only [if_neg hjoined, hfield, hlen, if_true]
  | case4 hjoined t lenStr p hfield len hlen hzero hlong =>
    simp only [if_neg hjoined, hfield, hlen, if_neg hzero, if_pos hlong]
  | case5 hjoined t lenStr p hfield len hlen hzero hlong err htarget =>
    simp only [if_neg hjoined, hfield, hlen, if_neg hzero, if_neg hlong, htarget]
  | case6 hjoined t lenStr p hfield len hlen hzero hlong r htarget =>
    simp only [if_neg hjoined, hfield, hlen, if_neg hzero, if_neg hlong, htarget]
    rfl
  | case7 args hjoined hno => simp only [if_neg hjoined]

/-- The AT thread, by what it does next. -/
inductive AtPc
  /-- `at_uart_get_line` -/
  | getLine
  /-- `at_uart_read_binary` is about to print `>`, for this line, node and request. -/
  | entry (line : Text) (node : Node) (r : TxReq)
  /-- It waits for `bin_done`. -/
  | wait (line : Text) (node : Node) (r : TxReq)
  /-- The lines that are still to be printed. -/
  | print (lines : List Text)

/-- A line that was executed: the node at that time, and what was done. -/
structure Exec where
  line : Text
  node : Node
  ran : Ran

/-! ## The machine -/

/-- `ran` and `done` only record what happened. -/
structure State where
  caller : Caller
  /-- `_resp` -/
  resp : List Text
  /-- What the reader thread is about to put into `_resp`. -/
  held : Option Text
  /-- The lines of the last chunk. -/
  lines : List Text
  /-- `_reader` -/
  buf : Text
  /-- The bytes on the way to the host. -/
  down : List UInt8
  /-- The bytes on the way to the module. -/
  up : List UInt8
  rxLine : LineBuf
  /-- What `rx_process` is about to echo. -/
  echo : List UInt8
  lineQ : List Text
  /-- `bin_buf`, up to `bin_have`. -/
  binBuf : List UInt8
  binNeed : ℕ
  binDone : Bool
  at_ : AtPc
  nextSeq : UInt8
  ran : List Exec
  done : List (Call × Answer)

inductive Action
  /-- A thread calls `senducastb`; `_cmd_lock` is free. -/
  | call (c : Call)
  /-- `_next_line`, and what the caller does with the line. -/
  | take
  /-- `_next_line` at the deadline -/
  | expired
  /-- The reader thread reads up to `n` bytes, handles a line of them, or puts it into `_resp`. -/
  | read (n : ℕ)
  | line
  | put
  /-- The RX thread gets a chunk of up to `n` bytes, or echoes one. -/
  | receive (n : ℕ) (echoOn : Bool)
  | echoed
  /-- The AT thread executes a line; `other` is what the handlers do that send no data. -/
  | execute (node : Node) (other : Ran)
  /-- It prints `>`, its wait ends, it prints a line, and it is done with them. -/
  | prompt
  | filled
  | timeout
  | print
  | next
  /-- The ZBOSS thread prints. -/
  | item (i : Receive.Item)

/-- `bin_byte`, and `line_byte` for the bytes that it does not take. -/
def rxByte (echoOn : Bool) (s : State) (c : UInt8) : State :=
  if s.binBuf.length < s.binNeed then
    if s.binBuf.length + 1 = s.binNeed then
      { s with binBuf := s.binBuf ++ [c], binNeed := 0, binDone := true }
    else { s with binBuf := s.binBuf ++ [c] }
  else
    let (rxLine, line) := lineByte c s.rxLine
    { s with
      rxLine := rxLine
      lineQ := line.elim s.lineQ (putLine · s.lineQ)
      echo := if echoOn then s.echo ++ [c] else s.echo }

/-- A handler is done. -/
def State.finish (s : State) (line : Text) (node : Node) (ran : Ran) : State :=
  { s with
    at_ := .print (ran.printed ++ printResult ran.result node.vals)
    nextSeq := ran.nextSeq
    ran := s.ran ++ [⟨line, node, ran⟩] }

/-- `execute`, up to `at_uart_read_binary`. -/
def State.execute (s : State) (line : Text) (node : Node) (other : Ran) : State :=
  match dispatch line with
  | .handler .senducastb args =>
    match senducastbEntry node args with
    | .error err => s.finish line node (node.refuse err)
    | .ok (len, r) =>
      { s with at_ := .entry line node r, binBuf := [], binNeed := len, binDone := false }
  | _ => s.finish line node ((Xcast.execute node line).getD other)

/-- A call is over. -/
def State.answer (s : State) (c : Call) (a : Answer) : State :=
  { s with caller := .idle, done := s.done ++ [(c, a)] }

/-- The caller gets a line. -/
def State.got (s : State) (l : Text) : Option State :=
  match s.caller with
  | .idle => none
  | .prompt c =>
    if l = [0x3E] then some { s with caller := .result c [], up := s.up ++ c.data }
    else
      match errorCode l with
      | some code => some (s.answer c (.raised code))
      | none => some s
  | .result c lines =>
    if l = ascii "OK" then some (s.answer c (.returned (seqOf lines)))
    else
      match errorCode l with
      | some code => some (s.answer c (.raised code))
      | none => some { s with caller := .result c (lines ++ [l]) }

def step (rxHex : Bool) (s : State) : Action → Option State
  | .call c => match s.caller with
    | .idle => some { s with resp := [], caller := .prompt c, up := s.up ++ sent c.command }
    | _ => none
  | .take => match s.resp with
    | l :: rest => State.got { s with resp := rest } l
    | [] => none
  | .expired => match s.caller with
    | .idle => none
    | .prompt c | .result c _ => some (s.answer c .timedOut)
  | .read n =>
    if s.lines = [] ∧ s.held = none then
      let (buf, lines) := feed s.buf (s.down.take n)
      some { s with buf := buf, lines := lines, down := s.down.drop n }
    else none
  | .line => match s.lines, s.held with
    | l :: rest, none => some { s with
        lines := rest
        held := if s.caller.pending.any (routed · rxHex l) then some l else none }
    | _, _ => none
  | .put => match s.held with
    | some l => some { s with held := none, resp := s.resp ++ [l] }
    | none => none
  | .receive n echoOn =>
    if s.up ≠ [] ∧ 0 < n ∧ n ≤ Bin.rxBufSize ∧ s.echo = [] then
      some ((s.up.take n).foldl (rxByte echoOn) { s with up := s.up.drop n })
    else none
  | .echoed => if s.echo = [] then none else some { s with echo := [], down := s.down ++ s.echo }
  | .execute node other => match s.at_, s.lineQ with
    | .getLine, line :: q =>
      some (State.execute { s with lineQ := q } line { node with nextSeq := s.nextSeq } other)
    | _, _ => none
  | .prompt => match s.at_ with
    | .entry line node r =>
      some { s with at_ := .wait line node r, down := s.down ++ Write.binaryPrompt.bytes }
    | _ => none
  | .filled => match s.at_ with
    | .wait line node r =>
      if s.binDone then
        some (State.finish { s with binDone := false } line node (senducastbSend node r s.binBuf))
      else none
    | _ => none
  | .timeout => match s.at_ with
    | .wait line node _ => some (State.finish { s with binBuf := [], binNeed := 0 } line node
        (node.refuse atErrXcastbTimeout))
    | _ => none
  | .print => match s.at_ with
    | .print (l :: ls) =>
      some { s with at_ := .print ls, down := s.down ++ (Write.atPrint l).bytes }
    | _ => none
  | .next => match s.at_ with
    | .print [] => some { s with at_ := .getLine }
    | _ => none
  | .item i => some { s with down := s.down ++ i.bytes }

def init : State where
  caller := .idle
  resp := []
  held := none
  lines := []
  buf := []
  down := []
  up := []
  rxLine := ⟨[], false⟩
  echo := []
  lineQ := []
  binBuf := []
  binNeed := 0
  binDone := false
  at_ := .getLine
  nextSeq := 0
  ran := []
  done := []

def machine (rxHex : Bool) : Machine State Action := ⟨(· = init), step rxHex⟩

/-! ## What a call should do -/

/-- The results are those of `at.h`. -/
structure Codes (node : Node) : Prop where
  submit : ∀ r, node.submit r < 256
  discover : ∀ ieee err, node.discover ieee = .error err → 0 < err ∧ err < 256

/-- What ZBOSS's thread prints is a prompt, in one line, and no result. -/
def Unasked (rxHex : Bool) : Receive.Item → Prop
  | .frame v f => Receive.Item.Legible rxHex (.frame v f)
  | .line l => l ≠ .ok ∧ (∀ code, l ≠ .error code) ∧ (∀ n, l ≠ .seq n) ∧
      ∀ ieee ind payload on, l ≠ .rx ieee ind payload on
  | _ => False

/-- Addresses are hex digits, and neither `at_uart_read_binary` nor a call times out. -/
def Covered (rxHex : Bool) (_ : State) : Action → Prop
  | .call c => ∀ d ∈ c.addr, isxdigit d = true
  | .execute node _ => Codes node
  | .item i => Unasked rxHex i
  | .timeout | .expired => False
  | _ => True

/-- The line that the AT thread gets: the command, if it fits. -/
def Call.line (c : Call) : Text := if c.command.length < atLineMax then c.command else lineOverflow

/-- The node, as far as the call is concerned: its data arrives. -/
def Call.reach (c : Call) (node : Node) : Node := { node with readBinary := fun _ => some c.data }

/-- What the caller should be told. -/
def answerOf (ran : Ran) : Answer :=
  if ran.result = 0 then .returned (seqOf ran.printed) else .raised ran.result

/-- The module executed the command of the call, with its data. -/
structure Executed (c : Call) (e : Exec) : Prop where
  line : e.line = c.line
  ran : Xcast.execute (c.reach e.node) c.line = some e.ran

/-- A call that returned: its data went into one request, and the caller was told what came of
it. -/
structure Answered (d : Call × Answer) (e : Exec) : Prop where
  executed : Executed d.1 e
  told : d.2 = answerOf e.ran
  request : ∀ dst, e.node.joined = true → Means e.node d.1.addr dst → d.1.data ≠ [] →
    d.1.data.length ≤ 82 → e.ran.submitted =
      [unicast e.node dst d.1.srcEp d.1.dstEp d.1.profile d.1.cluster
        (sregBit 0x10 0xB e.node.vals) d.1.data]

end ZbAt.BinaryCall
