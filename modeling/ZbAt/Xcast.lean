import ZbAt.MatchReq
import ZbAt.TxQueue
import ZbAt.UartBin

/-!
# Commands that send data (at_cmd.c, zb_msg.c)

From the bytes of the UART to the requests that are submitted: `line_byte` assembles a line,
`execute` finds its handler, and the handler splits its arguments and calls `submit`.

* `typed` — the lines that received bytes make up.
* `dispatch` — `execute`, up to the handler's call.
* `cmdUcast`, `cmdBcast`, `cmdSenducast`, `cmdSenducastb` — the handlers; `Ran` is what they did.
* `Node` — what they read, and what the calls they make return.
* `ucast`, `bcast`, `senducast`, `senducastb` — the commands that the host writes.
-/

namespace ZbAt.Xcast

open Text Sreg Tx Uart Match

/-! ## Lines -/

/-- `line_byte`, called for one byte after the other: the buffer, and the lines put into the
queue. -/
def typed : LineBuf → List UInt8 → LineBuf × List Text
  | l, [] => (l, [])
  | l, c :: data =>
    let (l, line) := lineByte c l
    let (l, rest) := typed l data
    (l, line.toList ++ rest)

/-! ## The dispatcher -/

/-- The handlers of the command tables. -/
inductive Handler
  | at_ | ati | atz | tokdump
  | en | jn | jpan | dassl | n | factory
  | ucast | bcast | senducast | senducastb | matchreq
  deriving DecidableEq

/-- `base_cmds` -/
def baseCmds : List (Text × Handler) :=
  [(ascii "", .at_), (ascii "I", .ati), (ascii "Z", .atz), (ascii "+TOKDUMP", .tokdump)]

/-- `zbc_cmds` -/
def zbcCmds : List (Text × Handler) :=
  [(ascii "+EN", .en), (ascii "+JN", .jn), (ascii "+JPAN", .jpan), (ascii "+DASSL", .dassl),
    (ascii "+N", .n), (ascii "&F", .factory)]

/-- `zbm_cmds` -/
def zbmCmds : List (Text × Handler) :=
  [(ascii "+UCAST", .ucast), (ascii "+BCAST", .bcast), (ascii "+SENDUCAST", .senducast),
    (ascii "+SENDUCASTB", .senducastb), (ascii "+MATCHREQ", .matchreq)]

/-- `cmd_tables` -/
def cmdTables : List (List (Text × Handler)) := [baseCmds, zbcCmds, zbmCmds]

/-- What `execute` calls. -/
inductive Dispatch
  | result (code : ℕ)
  | sregAtCommand (arg : Text)
  | handler (h : Handler) (args : Text)
  deriving DecidableEq

/-- The set of `strcspn(p, ":=?")` -/
def isStop (c : UInt8) : Bool := c == 58 || c == 61 || c == 63

/-- `execute`, up to the call. -/
def dispatch (line : Text) : Dispatch :=
  if line.head? = some 1 then .result atErrMsgTooLong
  else if toupper (line.getD 0 0) ≠ 65 ∨ toupper (line.getD 1 0) ≠ 84 then .result atErrUnknownCmd
  else
    let p := line.drop 2
    if toupper (p.getD 0 0) = 83 ∧ isxdigit (p.getD 1 0) then .sregAtCommand (p.drop 1)
    else
      let n := (p.takeWhile fun c => !isStop c).length
      match cmdTables.flatten.find? fun c =>
        c.1.length == n && c.1.map toupper == (p.take n).map toupper with
      | some c => .handler c.2 (p.drop n)
      | none => .result atErrUnknownCmd

/-! ## The handlers -/

/-- `PAYLOAD_MAX` -/
def payloadMax : ℕ := 82

/-- `ZB_NWK_BROADCAST_ROUTER_COORDINATOR` -/
def broadcastRouterCoordinator : UInt16 := 0xFFFC

/-- `ZB_UNKNOWN_SHORT_ADDR` -/
def unknownShortAddr : UInt16 := 0xFFFF

/-- `S10_QUIET_SEND` -/
def s10QuietSend : ℕ := 0xB

/-- What the handlers read, and what the calls they make return. -/
structure Node where
  /-- `zbc_joined` -/
  joined : Bool
  /-- The S-registers. -/
  vals : Vals
  nextSeq : UInt8
  /-- `zb_address_short_by_ieee` -/
  shortByIeee : List UInt8 → UInt16
  /-- `discover` -/
  discover : List UInt8 → Except ℕ UInt16
  /-- The result of `submit`. -/
  submit : TxReq → ℕ
  /-- What `at_uart_read_binary` reads, or nothing when it times out. -/
  readBinary : ℕ → Option (List UInt8)

/-- What a handler did. -/
structure Ran where
  result : ℕ
  /-- The requests it submitted. -/
  submitted : List TxReq
  /-- The lines it printed. -/
  printed : List Text
  nextSeq : UInt8
  deriving DecidableEq

/-- A handler that returns without having done anything. -/
def Node.refuse (node : Node) (result : ℕ) : Ran := ⟨result, [], [], node.nextSeq⟩

/-- `resolve` -/
def resolve (node : Node) (addr : Text) : Except ℕ UInt16 :=
  if addr.length = 4 then
    match atParseHexN addr 4 with
    | some v => .ok v.toUInt16
    | none => .error atErrInvalidParam
  else if addr.length ≠ 16 then .error atErrInvalidParam
  else
    match atParseHexRev addr 8 with
    | none => .error atErrInvalidParam
    | some ieee =>
      let s := node.shortByIeee ieee
      if s ≠ unknownShortAddr then .ok s else node.discover ieee

/-- `xcast_defaults` -/
def xcastDefaults (node : Node) (r : TxReq) : TxReq :=
  let eps := sregU32 0x40 node.vals
  { r with
    srcEp := (eps >>> 8).toUInt8
    dstEp := eps.toUInt8
    cluster := (sregU32 0x42 node.vals).toUInt16
    profile := (sregU32 0x44 node.vals).toUInt16 }

/-- `memcpy` of the data, and its length -/
def setData (data : Text) (r : TxReq) : TxReq :=
  { r with data := data, len := data.length.toUInt8 }

/-- `send_unicast` -/
def sendUnicast (node : Node) (r : TxReq) (quiet : Bool) : Ran :=
  let r := { r with ack := true, quiet := quiet, seq := node.nextSeq }
  let err := node.submit r
  { result := err
    submitted := [r]
    printed :=
      if err = 0 ∧ !quiet ∧ !sregBit 0x0E s0eSeqOff node.vals then
        [ascii "SEQ:" ++ hexText 2 r.seq.toNat]
      else []
    nextSeq := node.nextSeq + 1 }

/-- `cmd_ucast` -/
def cmdUcast (node : Node) (args : Text) : Ran :=
  if !node.joined then node.refuse atErrNotJoined
  else
    match args with
    | 58 :: t =>
      match strchr t 61 with
      | none => node.refuse atErrInvalidParam
      | some data =>
        if data.length > payloadMax then node.refuse atErrMsgTooLong
        else
          match resolve node (t.takeWhile (· != 61)) with
          | .error err => node.refuse err
          | .ok dst =>
            let r := setData data (xcastDefaults node { TxReq.zero with dst := dst })
            sendUnicast node r false
    | _ => node.refuse atErrInvalidParam

/-- `cmd_bcast` -/
def cmdBcast (node : Node) (args : Text) : Ran :=
  if !node.joined then node.refuse atErrNotJoined
  else
    match args with
    | 58 :: t =>
      let (hops, stop) := strtol t
      if stop.length + 2 ≠ t.length ∨ stop.head? ≠ some 44 ∨ hops < 0 ∨ hops > 30 then
        node.refuse atErrInvalidParam
      else
        let data := stop.drop 1
        if data.length > payloadMax then node.refuse atErrMsgTooLong
        else
          let r := setData data
            { xcastDefaults node .zero with dst := broadcastRouterCoordinator }
          ⟨node.submit r, [r], [], node.nextSeq⟩
    | _ => node.refuse atErrInvalidParam

/-- `parse_target` -/
def parseTarget (node : Node) (p : Option Text) (r : TxReq) : Except ℕ TxReq :=
  let (addr, p) := nextField p
  let (src, p) := nextField p
  let (dst, p) := nextField p
  let (profile, p) := nextField p
  let (cluster, _) := nextField p
  match addr, hexField 2 src, hexField 2 dst, hexField 4 profile, hexField 4 cluster with
  | some addr, some src, some dst, some profile, some cluster =>
    match resolve node addr with
    | .error err => .error err
    | .ok short => .ok { r with
        srcEp := src.toUInt8
        dstEp := dst.toUInt8
        profile := profile.toUInt16
        cluster := cluster.toUInt16
        dst := short }
  | _, _, _, _, _ => .error atErrInvalidParam

/-- What follows `n` more commas. -/
def afterCommas : ℕ → Text → Option Text
  | 0, t => some t
  | n + 1, t => (strchr t 44).bind (afterCommas n)

/-- `cmd_senducast` -/
def cmdSenducast (node : Node) (args : Text) : Ran :=
  if !node.joined then node.refuse atErrNotJoined
  else
    match args with
    | 58 :: t =>
      match afterCommas 5 t with
      | none => node.refuse atErrInvalidParam
      | some data =>
        if data.length > payloadMax then node.refuse atErrMsgTooLong
        else
          -- `comma[-1] = '\0'`
          match parseTarget node (some (t.take (t.length - data.length - 1))) .zero with
          | .error err => node.refuse err
          | .ok r => sendUnicast node (setData data r) (sregBit 0x10 s10QuietSend node.vals)
    | _ => node.refuse atErrInvalidParam

/-- `cmd_senducastb` -/
def cmdSenducastb (node : Node) (args : Text) : Ran :=
  if !node.joined then node.refuse atErrNotJoined
  else
    match args with
    | 58 :: t =>
      let (lenStr, p) := nextField (some t)
      match hexField 2 lenStr with
      | none => node.refuse atErrInvalidParam
      | some len =>
        if len = 0 then node.refuse atErrInvalidParam
        else if len > payloadMax then node.refuse atErrMsgTooLong
        else
          match parseTarget node p .zero with
          | .error err => node.refuse err
          | .ok r =>
            match node.readBinary len with
            | none => node.refuse atErrXcastbTimeout
            | some data => sendUnicast node (setData data r) (sregBit 0x10 s10QuietSend node.vals)
    | _ => node.refuse atErrInvalidParam

/-- `execute`, as far as it ends here: the other handlers send no data. -/
def execute (node : Node) (line : Text) : Option Ran :=
  match dispatch line with
  | .result code => some (node.refuse code)
  | .handler .ucast args => some (cmdUcast node args)
  | .handler .bcast args => some (cmdBcast node args)
  | .handler .senducast args => some (cmdSenducast node args)
  | .handler .senducastb args => some (cmdSenducastb node args)
  | _ => none

/-! ## The host's commands (protocol.py) -/

/-- `ucast` -/
def ucast (addr text : Text) : Text := ascii "AT+UCAST:" ++ (addr ++ (ascii "=" ++ text))

/-- `bcast` -/
def bcast (text : Text) (hops : ℕ) : Text :=
  ascii "AT+BCAST:" ++ (decDigits 2 hops ++ (ascii "," ++ text))

/-- `{addr},{src_ep:02X},{dst_ep:02X},{profile:04X},{cluster:04X}` -/
def target (addr : Text) (srcEp dstEp : UInt8) (profile cluster : UInt16) : Text :=
  addr ++ (ascii "," ++ (hexText 2 srcEp.toNat ++ (ascii "," ++ (hexText 2 dstEp.toNat ++
    (ascii "," ++ (hexText 4 profile.toNat ++ (ascii "," ++ hexText 4 cluster.toNat)))))))

/-- `senducast` -/
def senducast (addr : Text) (srcEp dstEp : UInt8) (profile cluster : UInt16) (text : Text) : Text :=
  ascii "AT+SENDUCAST:" ++ (target addr srcEp dstEp profile cluster ++ (ascii "," ++ text))

/-- `senducastb`, up to the data -/
def senducastb (addr : Text) (srcEp dstEp : UInt8) (profile cluster : UInt16) (len : ℕ) : Text :=
  ascii "AT+SENDUCASTB:" ++
    (hexText 2 len ++ (ascii "," ++ target addr srcEp dstEp profile cluster))

/-- What `cmd` and `cmd_binary` write first. -/
def sent (command : Text) : List UInt8 := command ++ [0x0D]

end ZbAt.Xcast
