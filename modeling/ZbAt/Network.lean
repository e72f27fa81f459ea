import ZbAt.Deferred
import ZbAt.StackSetup

/-!
# A node and its network (zb_core.c, at_cmd.c, protocol.py)

The AT thread runs one command after the other; a command that starts or leaves a network blocks
until ZBOSS is done with it. Here each command is one step, and ZBOSS is what it answers.

* `Pan`, `Stack` — what ZBOSS says of the network, and what it does with its setup.
* `Node` — the module with its registers, the recorded role, and the network it is in.
* `Node.startNetwork` — `start_network`, with the reboot of a command that is deferred.
* `Node.execute` — a command line, and the lines that it prints.
* `network`, `info`, `form`, `join`, … — the methods of `Etrx` that talk to such a node.
-/

namespace ZbAt.Network

open Text Sreg Uart Report Host Zbc
open Xcast (dispatch Handler typed sent)
open Endpoint (Module printResult)

/-! ## ZBOSS -/

/-- The network that the node is in, as ZBOSS describes it. -/
structure Pan where
  /-- `current_role` -/
  role : Role
  named : role ≠ .none
  channel : UInt8
  panId : UInt16
  extendedPanId : Ieee
  shortAddr : UInt16

/-- How `run_op` fails: the handler completes it with an error, or it times out. -/
inductive Failure
  | completed | timedOut
  deriving DecidableEq

/-- What ZBOSS has and does. -/
structure Stack where
  /-- `zb_get_long_address` -/
  longAddress : Ieee
  /-- Its settings at power on. -/
  powerOn : Zboss
  /-- The outcome of forming or joining with these settings. -/
  run : Zboss → Except Failure Pan

/-- The error of `start_network`. -/
def Failure.code (role : Role) : Failure → ℕ
  | .completed => if role = .zc then atErrCannotForm else atErrCannotJoin
  | .timedOut => if role = .zc then atErrCannotForm else atErrNoNetwork

/-! ## The node -/

structure Node where
  module : Module
  /-- `stored_role`, which is also in the settings. -/
  storedRole : Role
  stackStarted : Bool
  /-- What was set in ZBOSS since the boot. -/
  zboss : Zboss
  /-- The network, when `ZB_JOINED`. -/
  pan : Option Pan

def Node.vals (n : Node) : Vals := n.module.store.val

/-- `sreg_dynamic_read` -/
def sregDynamicRead (st : Stack) (n : Node) (id : ℕ) : Text :=
  if id = 0x04 then atHexRev st.longAddress.1
  else if id = 0x05 then hexText 4 (n.pan.elim 0xFFFE fun p => p.shortAddr).toNat
  else if id = 0x0D then ascii "nRF54L15,R309N"
  else []

/-- `main` after a reset with no command stored: a recorded network is set up and started. -/
def powerOn (st : Stack) (role : Role) (saved : Settings) : Node :=
  let m := Endpoint.boot saved
  if role = .none then ⟨m, .none, false, st.powerOn, none⟩
  else ⟨m, role, true, setRole role (channelMask m.store.val) m.store.val st.powerOn, none⟩

/-- `at_reboot` -/
def Node.reboot (st : Stack) (n : Node) : Node := powerOn st n.storedRole n.module.store.saved

def s0eJpanOff : ℕ := 0x3
def s0eLeftpanOff : ℕ := 0x4

/-- `print_jpan` -/
def jpanText (p : Pan) : Text :=
  ascii "JPAN:" ++ natText p.channel.toNat ++ ascii "," ++ hexText 4 p.panId.toNat ++ ascii "," ++
    atHexRev p.extendedPanId.1

def printJpan (v : Vals) (p : Pan) : List Text :=
  if sregBit 0x0E s0eJpanOff v then [] else [jpanText p]

/-- `network_up` -/
def Node.networkUp (p : Pan) (n : Node) : Node × List Text :=
  ({ n with storedRole := p.role, pan := some p }, printJpan n.vals p)

/-- `prepare_new_network` and `run_op`: the node, the result, and the lines printed. -/
def Node.runOp (st : Stack) (q : Start) (n : Node) : Node × ℕ × List Text :=
  let z := prepareNewNetwork q.role q.mask q.epid n.vals n.zboss
  let n := { n with zboss := z, stackStarted := true }
  match st.run z with
  | .ok p =>
    let (n, lines) := n.networkUp p
    (n, atOk, lines)
  | .error f => (n, f.code q.role, [])

/-! ## The commands -/

/-- The arguments of `start_network`, when those of the line are right. -/
def startOf (line : Text) (v : Vals) : Option Start := (Deferred.command line (regsOf v) 0).start

/-- A command that starts a network, with the stack not started. -/
def Node.startNetwork (st : Stack) (line : Text) (n : Node) : Node × List Text :=
  match startOf line n.vals with
  | none => (n, printResult atErrInvalidParam n.vals)
  | some q =>
    if n.storedRole ≠ .none then (n, printResult atErrInPan n.vals)
    else
      let (n, result, lines) := n.runOp st q
      (n, lines ++ printResult result n.vals)

/-- With the stack started, the line is stored, and executed after the reboot. -/
def Node.cmdStart (st : Stack) (line : Text) (n : Node) : Node × List Text :=
  if (startOf line n.vals).isSome ∧ n.storedRole = .none ∧ n.stackStarted then
    (n.reboot st).startNetwork st line
  else n.startNetwork st line

/-- `cmd_dassl` -/
def cmdDassl (st : Stack) (args : Text) (n : Node) : Node × List Text :=
  if args ≠ [] then (n, printResult atErrInvalidParam n.vals)
  else if n.storedRole = .none then (n, printResult atErrNotJoined n.vals)
  else
    (powerOn st .none n.module.store.saved, printResult atOk n.vals ++
      if sregBit 0x0E s0eLeftpanOff n.vals then [] else [ascii "LeftPAN"])

/-- `cmd_factory` -/
def cmdFactory (st : Stack) (args : Text) (n : Node) : Node × List Text :=
  if args ≠ [] then (n, printResult atErrInvalidParam n.vals)
  else
    let s := sregFactoryReset n.module.store
    (powerOn st .none s.saved, printResult atOk s.val)

/-- `cmd_atz` -/
def cmdAtz (st : Stack) (args : Text) (n : Node) : Node × List Text :=
  if args ≠ [] then (n, printResult atErrInvalidParam n.vals)
  else (n.reboot st, printResult atOk n.vals)

/-- `role_name` -/
def roleName (role : Role) (v : Vals) : Text :=
  match role with
  | .zc => ascii "COO"
  | .zr => ascii "FFD"
  | _ =>
    if sregBit 0x0A s0aTypeHigh v && sregBit 0x0A s0aTypeLow v then ascii "MED"
    else if sregBit 0x0A s0aTypeLow v then ascii "SED"
    else ascii "ZED"

/-- The line of `cmd_n`: the power with a sign and two digits. -/
def networkText (p : Pan) (v : Vals) : Text :=
  ascii "+N=" ++ roleName p.role v ++ ascii "," ++ natText p.channel.toNat ++ ascii "," ++
    decText (sregS8 0x01 v) ++ ascii "," ++ hexText 4 p.panId.toNat ++ ascii "," ++
    atHexRev p.extendedPanId.1

/-- `cmd_n` -/
def cmdN (args : Text) (n : Node) : List Text :=
  if args ≠ [] ∧ args ≠ ascii "?" then printResult atErrInvalidParam n.vals
  else (n.pan.elim (ascii "+N=NoPAN") fun p => networkText p n.vals) :: printResult atOk n.vals

/-- `cmd_ati` -/
def cmdAti (st : Stack) (args : Text) (n : Node) : List Text :=
  if args ≠ [] then printResult atErrInvalidParam n.vals
  else ascii "Telegesis nRF54L15" :: ascii "R309N" :: atHexRev st.longAddress.1 ::
    printResult atOk n.vals

/-- `execute` and `at_print_result`. The handlers that send data are left out. -/
def Node.execute (st : Stack) (line : Text) (n : Node) : Option (Node × List Text) :=
  match dispatch line with
  | .handler .en _ | .handler .jn _ | .handler .jpan _ => some (n.cmdStart st line)
  | .handler .dassl args => some (cmdDassl st args n)
  | .handler .factory args => some (cmdFactory st args n)
  | .handler .atz args => some (cmdAtz st args n)
  | .handler .n args => some (n, cmdN args n)
  | .handler .ati args => some (n, cmdAti st args n)
  | _ => (Endpoint.serve (sregDynamicRead st n) line n.module).map fun (m, lines) =>
    ({ n with module := m }, lines)

/-! ## The host (protocol.py) -/

/-- `cmd`: the lines of the response, or nothing when it raises an error. -/
def cmd (st : Stack) (command : Text) (n : Node) : Option (List Text × Node) :=
  (n.execute st command).bind fun (n', lines) =>
    let echo := if n.module.store.echo then sent command else []
    match outcome command true (echo ++ responses lines) with
    | .returned values => some (values, n')
    | _ => none

/-- `NetworkInfo` -/
structure NetworkInfo where
  role : Text
  channel : ℤ
  power : ℤ
  pan : ℕ
  epid : Text
  deriving DecidableEq

/-- `\w`, of the characters up to U+00FF -/
def isWord (c : UInt8) : Bool :=
  isdigit c || (0x41 ≤ c && c ≤ 0x5A) || c == 0x5F || (0x61 ≤ c && c ≤ 0x7A) || c == 0xAA ||
    c == 0xB2 || c == 0xB3 || c == 0xB5 || c == 0xB9 || c == 0xBA || (0xBC ≤ c && c ≤ 0xBE) ||
    (0xC0 ≤ c && c != 0xD7 && c != 0xF7)

/-- `_N_RE` -/
def nPattern : Pat := chain [word "+N=", .group (.many1 isWord), word ",", natGroup, word ",",
  intGroup, word ",", hexGroup 4, word ",", hexGroup 16, dollar]

/-- `_N_RE.match(line)` -/
def parseNetwork (line : Text) : Option NetworkInfo :=
  (nPattern.first line).map fun (m, _) =>
    ⟨cap m 1, intDec (cap m 2), intDec (cap m 3), intHex (cap m 4), cap m 5⟩

/-- The loop of `network`; nothing when it raises an error. -/
def networkOf : List Text → Option (Option NetworkInfo)
  | [] => none
  | line :: rest =>
    if line = ascii "+N=NoPAN" then some none
    else match parseNetwork line with
      | some info => some (some info)
      | none => networkOf rest

/-- `_values` -/
def valuesOf (lines : List Text) : List Text :=
  lines.filter fun line => (parsePrompt line true).isNone

/-- `_jpan` -/
def jpanOf (lines : List Text) : Option Prompt :=
  (lines.filterMap fun line => parsePrompt line true).find? fun
    | .jpan .. => true
    | _ => false

/-- `network` -/
def network (st : Stack) (n : Node) : Option (Option NetworkInfo × Node) :=
  (cmd st (ascii "AT+N") n).bind fun (lines, n) => (networkOf lines).map fun info => (info, n)

/-- `form` -/
def form (st : Stack) (n : Node) : Option (Prompt × Node) :=
  (cmd st (ascii "AT+EN") n).bind fun (lines, n) => (jpanOf lines).map fun p => (p, n)

/-- `join`, without a channel -/
def join (st : Stack) (n : Node) : Option (Prompt × Node) :=
  (cmd st (ascii "AT+JN") n).bind fun (lines, n) => (jpanOf lines).map fun p => (p, n)

/-- `wait_ready`: the module answers the first `AT`, or none of them. -/
def waitReady (st : Stack) (n : Node) : Option Node := (cmd st (ascii "AT") n).map Prod.snd

/-- `leave` -/
def leave (st : Stack) (n : Node) : Option Node :=
  (cmd st (ascii "AT+DASSL") n).bind fun (_, n) => waitReady st n

/-- `factory_reset` -/
def factoryReset (st : Stack) (n : Node) : Option Node :=
  (cmd st (ascii "AT&F") n).bind fun (_, n) => waitReady st n

/-- What `network` returns of a network. -/
def infoOf (p : Pan) (v : Vals) : NetworkInfo where
  role := roleName p.role v
  channel := p.channel.toNat
  power := sregS8 0x01 v
  pan := p.panId.toNat
  epid := atHexRev p.extendedPanId.1

end ZbAt.Network
