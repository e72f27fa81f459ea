import ZbAt.UartBin
import ZbAt.Xcast
import ZbAt.ZbCore

/-!
# Commands for the next boot (zb_core.c, at_uart.c)

A command that needs the stack anew stores its line and reboots (`defer_to_next_boot`). `zbc_init`
deletes the stored line and puts it into `line_q`, behind the lines that were received since power
on; what does not fit there is dropped.

* `command` — the handler that `execute` calls for a line, as a command of `Zbc`.
* `machine` — boot after boot of `Zbc.machine`, with `line_q` between the receive thread, `zbc_init`
  and the AT thread.
* `Unhindered` — there is room for the stored line, and no line ahead of it starts a network or
  resets the module.

Lines carry whether they are the stored one, and `BootLog` records what became of them; the program
never reads either.
-/

namespace ZbAt.Deferred

open Text Sreg Uart Xcast Zbc

/-! ## From a line to its command -/

/-- `cmd_jpan`, up to `start_network`. -/
def cmdJpan (args : Text) (r : Regs) : Cmd :=
  match strchr args 44 with
  | none => .other atErrInvalidParam
  | some id =>
    let (channel, rest) := strtol (args.drop 1)
    if args.head? ≠ some 58 ∨ rest ≠ 44 :: id ∨ channel < 11 ∨ 26 < channel then
      .other atErrInvalidParam
    else
      match if id.length = 16 then atParseHexRev id 8 else none with
      | some epid => .jpan channel.toNat (some epid) r
      | none =>
        if id.length = 4 ∧ (atParseHexN id 4).isSome then .jpan channel.toNat none r
        else .other atErrInvalidParam

/-- A handler that takes no arguments. -/
def withoutArgs (args : Text) (cmd : Cmd) : Cmd :=
  if args ≠ [] then .other atErrInvalidParam else cmd

/-- `execute`: the command of a line. The handlers that do not start, leave or reset return
`result`. -/
def command (line : Text) (r : Regs) (result : ℕ) : Cmd :=
  match dispatch line with
  | .result code => .other code
  | .handler .en args => withoutArgs args (.en r)
  | .handler .jn args => withoutArgs args (.jn r)
  | .handler .jpan args => cmdJpan args r
  | .handler .dassl args => withoutArgs args (.leave .dassl)
  | .handler .factory args => withoutArgs args (.leave .factory)
  | .handler .atz args => withoutArgs args .atz
  | _ => .other result

/-! ## The machine -/

/-- A message of `line_q`. -/
structure Line where
  text : Text
  /-- It comes from `zbc_init`. -/
  stored : Bool
  deriving DecidableEq

/-- `k_msgq_put(&line_q, line, K_NO_WAIT)` -/
def put (line : Line) (q : List Line) : List Line :=
  if q.length < lineQDepth then q ++ [line] else q

/-- A boot. -/
structure BootLog where
  /-- `at/zb/pend` at power on -/
  pend : Option Text
  /-- The lines that the AT thread took up. -/
  executed : List Line
  /-- The lines that `defer_to_next_boot` stored. -/
  deferred : List Line
  deriving DecidableEq

structure State where
  zbc : Zbc.State
  lineQ : List Line
  /-- The AT thread executes the stored line. -/
  current : Bool
  log : BootLog
  /-- The boots before. -/
  past : List BootLog

inductive Action
  /-- The receive thread has a complete line. -/
  | receive (line : Text)
  /-- The AT thread takes a line; the registers, and the result of the other handlers. -/
  | take (r : Regs) (result : ℕ)
  | main (roleFirst : Bool) (mask : UInt32)
  | at_ (flag : Bool)
  | signal (g : Signal)
  | stack
  | rebootWork
  /-- The boot after `sys_reboot`. -/
  | restart
  | powerLoss
  deriving DecidableEq

/-- Power on, with these settings. -/
def powerOn (role : Role) (pend : Option Text) (past : List BootLog) : State :=
  ⟨Zbc.init role pend, [], false, ⟨pend, [], []⟩, past⟩

/-- The boot ends, and the next one begins with what the settings hold. -/
def State.next (s : State) : State :=
  powerOn s.zbc.savedRole s.zbc.savedPend (s.past ++ [s.log])

/-- `at_uart_inject_line` copies at most `AT_LINE_MAX - 1` characters. -/
def injectLine (line : Text) (q : List Line) : List Line :=
  put ⟨line.take (Uart.atLineMax - 1), true⟩ q

def step (s : State) : Action → Option State
  | .receive line =>
    if s.zbc.rebooted.isNone && !line.isEmpty && line.length < Uart.atLineMax then
      some { s with lineQ := put ⟨cstr line, false⟩ s.lineQ }
    else none
  | .take r result =>
    match s.lineQ with
    | [] => none
    | line :: rest =>
      (Zbc.step s.zbc (.command line.text (command line.text r result))).map fun z => { s with
        zbc := z
        lineQ := rest
        current := line.stored
        log := { s.log with executed := s.log.executed ++ [line] } }
  | .main roleFirst mask => (Zbc.step s.zbc (.main roleFirst mask)).map fun z => { s with
      zbc := z
      lineQ := if s.zbc.main = .inject then injectLine s.zbc.pendingCmd s.lineQ else s.lineQ }
  | .at_ flag => (Zbc.step s.zbc (.at_ flag)).map fun z => { s with
      zbc := z
      log := if s.zbc.at_ = .deferSave then
          { s.log with deferred := s.log.deferred ++ [⟨s.zbc.line, s.current⟩] }
        else s.log }
  | .signal g => (Zbc.step s.zbc (.signal g)).map fun z => { s with zbc := z }
  | .stack => (Zbc.step s.zbc .stack).map fun z => { s with zbc := z }
  | .rebootWork => (Zbc.step s.zbc .reboot).map fun z => { s with zbc := z }
  | .restart => if s.zbc.rebooted.isSome then some s.next else none
  | .powerLoss => some s.next

/-- From a module that has stored no line, in any network or none. -/
def machine : Machine State Action := ⟨fun s => ∃ role, s = powerOn role none [], step⟩

/-! ## What is expected -/

/-- The stored line of the boot was executed once, as it was stored, and did not store itself. -/
structure BootLog.Served (b : BootLog) : Prop where
  executed : b.executed.filter (·.stored) = b.pend.toList.map (⟨·, true⟩)
  deferred : ∀ line ∈ b.deferred, line.stored = false

/-- A boot begins with the line that the boot before it stored. -/
def Handed (b b' : BootLog) : Prop := b'.pend = b.deferred.getLast?.map Line.text

/-- `zbc_init` is through, and every line that was received is executed. -/
def State.Settled (s : State) : Prop :=
  s.zbc.main = .done ∧ s.lineQ = [] ∧ s.zbc.at_ = .idle

/-! ## When nothing is in its way -/

/-- The boot began with a stored line, which the AT thread has not taken up. -/
def State.waiting (s : State) : Bool :=
  s.log.pend.isSome && s.log.executed.all fun line => !line.stored

/-- The next step of a command neither starts a network nor goes on to a reset: `start_network`
finds a role, `AT+DASSL` finds none, and the command is not `AT&F` or `ATZ`. -/
def harmless (storedRole : Role) : AtPc → Bool
  | .startRole _ => storedRole ≠ .none
  | .leaveRole .dassl => storedRole = .none
  | .leaveRole .factory | .answer _ => false
  | _ => true

/-- `zbc_init` finds room in `line_q`. While the stored line waits, the commands ahead of it are
harmless, and the power stays on. A line is stored only when `zbc_init` is through. -/
def Unhindered (s : State) : Action → Prop
  | .main _ _ => s.zbc.main = .inject → s.lineQ.length < lineQDepth
  | .at_ _ => (s.waiting = true → harmless s.zbc.storedRole s.zbc.at_ = true) ∧
      (s.zbc.at_ = .deferSave → s.zbc.main = .done)
  | .powerLoss => s.waiting = false
  | _ => True

instance (s : State) : (a : Action) → Decidable (Unhindered s a)
  | .main _ _ => inferInstanceAs (Decidable (_ → _))
  | .at_ _ => inferInstanceAs (Decidable (_ ∧ _))
  | .powerLoss => inferInstanceAs (Decidable (_ = _))
  | .receive _ | .take .. | .signal _ | .stack | .rebootWork | .restart => .isTrue trivial

end ZbAt.Deferred
