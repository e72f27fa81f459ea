import ZbAt.At
import ZbAt.Machine

/-!
# Zigbee stack control (zb_core.c, main.c)

One boot of the module, as an interleaving of four parties: the main thread (`at_cmd_start`, then
`zbc_init`), the AT thread (one command after the other), the stack thread
(`zboss_signal_handler`, one signal after the other) and the reboot work.

* `MainPc`, `AtPc`, `StackPc` — where the threads are. A step makes at most one access to what
  they share.
* `machine` — the threads interleave step by step, from any saved role and pending command. The
  commands, the signals with what the stack says while they are handled, and the timeouts are
  chosen by the action.

`calls`, `log` and `fresh` record what was done; the program never reads them.
-/

namespace ZbAt.Zbc

/-- `enum zbc_role` -/
inductive Role
  | none | zc | zr | zed
  deriving DecidableEq

/-- `enum op` -/
inductive Op
  | none | form | join | leave | factory
  deriving DecidableEq

/-- `zb_get_network_role` -/
inductive NwkRole
  | coordinator | router | endDevice | none
  deriving DecidableEq

/-- `current_role` -/
def currentRole : NwkRole → Role
  | .coordinator => .zc
  | .router => .zr
  | _ => .zed

/-! ## Commands -/

/-- The registers that the commands read: `channel_mask()`, `end_device_type()`,
`preferred_epid()`, `S02`, and `S08` unless it is zero. -/
structure Regs where
  channelMask : UInt32
  endDevice : Bool
  preferredEpid : Option (List UInt8)
  panId : UInt16
  nwkKey : Option (List UInt8)
  deriving DecidableEq

/-- The arguments of `start_network`, and what `prepare_new_network` reads from the registers. -/
structure Start where
  role : Role
  mask : UInt32
  epid : Option (List UInt8)
  panId : UInt16
  nwkKey : Option (List UInt8)
  deriving DecidableEq

/-- `OP_FORM` or `OP_JOIN` -/
def Start.op (q : Start) : Op := if q.role = .zc then .form else .join

/-- The result of `run_op` when it times out. -/
def Start.timeoutErr (q : Start) : ℕ := if q.role = .zc then atErrCannotForm else atErrNoNetwork

/-- `cmd_en` -/
def cmdEn (r : Regs) : Start := ⟨.zc, r.channelMask, r.preferredEpid, r.panId, r.nwkKey⟩

/-- `cmd_jn` -/
def cmdJn (r : Regs) : Start :=
  ⟨if r.endDevice then .zed else .zr, r.channelMask, r.preferredEpid, r.panId, r.nwkKey⟩

/-- `cmd_jpan`, with arguments that it accepts -/
def cmdJpan (channel : ℕ) (epid : Option (List UInt8)) (r : Regs) : Start :=
  ⟨if r.endDevice then .zed else .zr, 1 <<< channel.toUInt32, epid, r.panId, r.nwkKey⟩

/-- `cmd_dassl` and `cmd_factory` -/
inductive Leave
  | dassl | factory
  deriving DecidableEq

def Leave.op : Leave → Op
  | .dassl => .leave
  | .factory => .factory

/-- The handlers that `execute` can come to. -/
inductive Cmd
  | en (r : Regs)
  | jn (r : Regs)
  | jpan (channel : ℕ) (epid : Option (List UInt8)) (r : Regs)
  | leave (k : Leave)
  | atz
  /-- Every other handler, and commands with wrong arguments. -/
  | other (result : ℕ)
  deriving DecidableEq

/-- The commands that start a network. -/
def Cmd.start : Cmd → Option Start
  | .en r => some (cmdEn r)
  | .jn r => some (cmdJn r)
  | .jpan channel epid r => some (cmdJpan channel epid r)
  | _ => none

/-! ## Signals -/

/-- The signals whose handling reads or writes the state. -/
inductive SignalType
  | deviceFirstStart | deviceReboot | formation | steering | leave | other
  deriving DecidableEq

/-- A signal, with what the stack and the registers say while it is handled. -/
structure Signal where
  type : SignalType
  /-- The status is `RET_OK`. -/
  ok : Bool
  networkRole : NwkRole
  /-- `ZB_JOINED()` -/
  joined : Bool
  /-- `bdb_start_top_level_commissioning` succeeds. -/
  started : Bool
  /-- The leave type is `ZB_NWK_LEAVE_TYPE_REJOIN`. -/
  rejoin : Bool
  /-- `S0E_JPAN_OFF` and `S0E_LEFTPAN_OFF` are set. -/
  jpanOff : Bool
  leftPanOff : Bool
  deriving DecidableEq

def Signal.isZc (g : Signal) : Bool := g.networkRole == .coordinator

def Signal.role (g : Signal) : Role := currentRole g.networkRole

/-! ## The threads -/

/-- Calls of the stack. -/
inductive Call
  /-- `zigbee_erase_persistent_storage`, while the settings record `recorded`. -/
  | erase (recorded : Role)
  | setRole (role : Role) (mask : UInt32)
  | setPanId (panId : UInt16)
  | setupNwkKey (key : List UInt8)
  | setExtendedPanId (epid : List UInt8)
  | enable
  | resetViaLocalAction
  deriving DecidableEq

/-- The calls of `prepare_new_network` after `set_role`. -/
def Start.config (q : Start) : List Call :=
  (if q.role = .zc then
    (if q.panId ≠ 0 then [.setPanId q.panId] else []) ++ (q.nwkKey.map Call.setupNwkKey).toList
  else []) ++ (q.epid.map Call.setExtendedPanId).toList

/-- What happened since the AT thread took up its last command line. -/
inductive Ev
  | returned (result : ℕ)
  | ok
  /-- `network_up` came to its end, with `recorded` in the settings. -/
  | networkUp (role recorded : Role)
  | jpan
  | leftPan
  | rebootScheduled
  deriving DecidableEq

/-- Who rebooted. -/
inductive Cause
  /-- `AT+DASSL` or `AT&F`, after `leave_network` -/
  | leave (k : Leave)
  /-- `AT&F` without a recorded role -/
  | factory
  | atz
  | defer
  | work
  deriving DecidableEq

/-- The main thread, by what it does next. -/
inductive MainPc
  | atCmdStart
  /-- `settings_load_subtree_direct`: the keys that are still to be loaded -/
  | load (role pend : Bool)
  /-- `if (pending_cmd[0] != '\0')` -/
  | checkPend
  /-- `settings_delete("at/zb/pend")` -/
  | deletePend
  /-- `at_uart_inject_line(pending_cmd)` -/
  | inject
  /-- `if (stored_role != ZBC_ROLE_NONE)` -/
  | checkRole
  /-- `set_role(stored_role, channel_mask())` -/
  | setRole
  /-- `stack_started = true` -/
  | markStarted
  /-- `zigbee_enable()` -/
  | enable
  | done
  deriving DecidableEq

/-- The AT thread, by what it does next. -/
inductive AtPc
  | idle
  /-- start_network: `if (stored_role != ZBC_ROLE_NONE)` -/
  | startRole (q : Start)
  /-- `if (stack_started)` -/
  | startStarted (q : Start)
  /-- defer_to_next_boot: `settings_save_one("at/zb/pend", ...)` -/
  | deferSave
  /-- prepare_new_network: `zigbee_erase_persistent_storage(ZB_TRUE)` -/
  | erase (q : Start)
  /-- `set_role(role, mask)` -/
  | setRole (q : Start)
  /-- the calls after `set_role` -/
  | configure (q : Start)
  /-- run_op: `k_sem_reset(&op_done)` -/
  | semReset (q : Start)
  /-- `op = new_op` -/
  | setOp (q : Start)
  /-- `if (!stack_started)` -/
  | opStarted (q : Start)
  /-- `stack_started = true` -/
  | markStarted (q : Start)
  /-- `zigbee_enable()` -/
  | enable (q : Start)
  /-- `k_sem_take(&op_done, timeout)` -/
  | take (q : Start)
  /-- `op = OP_NONE` after the timeout -/
  | timedOut (q : Start)
  /-- `return op_result` -/
  | readResult
  /-- The handler returns `result`. -/
  | ret (result : ℕ)
  /-- cmd_dassl, cmd_factory: the check of `stored_role` -/
  | leaveRole (k : Leave)
  /-- leave_network: `if (zbc_joined())` -/
  | leaveJoined (k : Leave)
  /-- `k_sem_reset(&op_done)` -/
  | leaveReset (k : Leave)
  /-- `op = leave_op` -/
  | leaveOp (k : Leave)
  /-- `ZB_SCHEDULE_APP_CALLBACK(zb_bdb_reset_via_local_action, 0)` -/
  | leaveSchedule (k : Leave)
  /-- `k_sem_take(&op_done, LEAVE_TIMEOUT)` -/
  | leaveTake (k : Leave)
  /-- `op = OP_NONE` after the timeout -/
  | leaveTimedOut (k : Leave)
  /-- role_save(ZBC_ROLE_NONE): `stored_role = role` -/
  | clearStored (k : Leave)
  /-- `settings_save_one("at/zb/role", ...)` -/
  | clearSave (k : Leave)
  /-- cmd_factory: `settings_delete("at/zb/pend")` -/
  | deletePend (cause : Cause)
  /-- `at_print_result(AT_OK)` -/
  | answer (cause : Cause)
  /-- cmd_dassl: `LeftPAN` -/
  | printLeft
  /-- at_reboot -/
  | reboot (cause : Cause)
  deriving DecidableEq

/-- What follows a `role_save(ZBC_ROLE_NONE)` of the signal handler. -/
inductive AfterClear
  | done
  | complete (result : ℕ)
  | leftPan (g : Signal)
  deriving DecidableEq

/-- The stack thread in `zboss_signal_handler`, by what it does next. -/
inductive StackPc
  | idle
  /-- DEVICE_FIRST_START: `op == OP_FORM` -/
  | firstForm (g : Signal)
  /-- `op == OP_JOIN` -/
  | firstJoin (g : Signal)
  /-- STEERING: `op == OP_JOIN` -/
  | steerOp (g : Signal)
  /-- `stored_role != ZBC_ROLE_NONE` -/
  | steerRole (g : Signal)
  /-- LEAVE: `op == OP_JOIN` -/
  | leaveJoin (g : Signal)
  /-- `op == OP_LEAVE` -/
  | leaveLeave (g : Signal)
  /-- `op == OP_FACTORY` -/
  | leaveFactory (g : Signal)
  /-- `stored_role != ZBC_ROLE_NONE` -/
  | leaveRole (g : Signal)
  /-- network_up: `if (stored_role != role)`. Then `complete(result)`, if there is one. -/
  | upCheck (g : Signal) (result : Option ℕ)
  /-- role_save: `stored_role = role` -/
  | upStored (g : Signal) (result : Option ℕ)
  /-- `settings_save_one("at/zb/role", ...)` -/
  | upSave (g : Signal) (result : Option ℕ)
  /-- `print_jpan()` -/
  | upPrint (g : Signal) (result : Option ℕ)
  /-- role_save(ZBC_ROLE_NONE): `stored_role = role` -/
  | clearStored (after : AfterClear)
  /-- `settings_save_one("at/zb/role", ...)` -/
  | clearSave (after : AfterClear)
  /-- `at_print("LeftPAN")` -/
  | leftPan (g : Signal)
  /-- `k_work_reschedule(&reboot_work, ...)` -/
  | schedule
  /-- complete: `if (op != OP_NONE)` -/
  | complete (result : ℕ)
  /-- `op_result = result` -/
  | setResult (result : ℕ)
  /-- `op = OP_NONE` -/
  | setOp
  /-- `k_sem_give(&op_done)` -/
  | give
  deriving DecidableEq

/-- The first access of the handler: the `switch`, down to what is shared. -/
def Signal.enter (g : Signal) : StackPc :=
  match g.type with
  | .deviceFirstStart => .firstForm g
  | .deviceReboot => if g.ok then .upCheck g none else .idle
  | .formation => if g.ok then .upCheck g (some atOk) else .complete atErrCannotForm
  | .steering => if g.isZc then .idle else .steerOp g
  | .leave => .leaveJoin g
  | .other => .idle

def Cmd.enter (cmd : Cmd) : AtPc :=
  match cmd with
  | .en r => .startRole (cmdEn r)
  | .jn r => .startRole (cmdJn r)
  | .jpan channel epid r => .startRole (cmdJpan channel epid r)
  | .leave k => .leaveRole k
  | .atz => .answer .atz
  | .other result => .ret result

/-- Where `network_up` continues. -/
def afterUp : Option ℕ → StackPc
  | some result => .complete result
  | none => .idle

def AfterClear.next : AfterClear → StackPc
  | .done => .idle
  | .complete result => .complete result
  | .leftPan g => .leftPan g

/-! ## The machine -/

/-- `AT_LINE_MAX` -/
def atLineMax : ℕ := 200

structure State where
  op : Op
  opResult : ℕ
  /-- The semaphore `op_done` is available. -/
  opDone : Bool
  stackStarted : Bool
  storedRole : Role
  pendingCmd : Text
  /-- `reboot_work` is scheduled. -/
  rebootWork : Bool
  /-- `current_line` -/
  line : Text
  /-- The settings `at/zb/role` (`none` if it is not there) and `at/zb/pend`. -/
  savedRole : Role
  savedPend : Option Text
  main : MainPc
  at_ : AtPc
  stack : StackPc
  rebooted : Option Cause
  /-- The lines given to `at_uart_inject_line`. -/
  injected : List Text
  calls : List Call
  log : List Ev
  /-- The last command was to start a network, with no network recorded and the stack not
  started. -/
  fresh : Bool

inductive Action
  /-- The main thread's next step: which key is loaded first, and `channel_mask()`. -/
  | main (roleFirst : Bool) (mask : UInt32)
  /-- The AT thread takes up a line, which `execute` finds to be this command. -/
  | command (line : Text) (cmd : Cmd)
  /-- The AT thread's next step. A wait runs into its timeout, `ZB_JOINED()` holds, or the
  prompts are on, if `flag`. -/
  | at_ (flag : Bool)
  /-- ZBOSS calls `zboss_signal_handler`. -/
  | signal (g : Signal)
  /-- The stack thread's next step. -/
  | stack
  /-- `reboot_fn` -/
  | reboot
  deriving DecidableEq

/-- One step of `main`. -/
def stepMain (roleFirst : Bool) (mask : UInt32) (s : State) : Option State :=
  match s.main with
  | .atCmdStart => some { s with main := .load true true }
  | .load role pend =>
    if role && (roleFirst || !pend) then some { s with
      storedRole := s.savedRole
      main := .load false pend }
    else if pend then some { s with
      pendingCmd := match s.savedPend with
        | some t => if t.length < atLineMax then t else s.pendingCmd
        | none => s.pendingCmd
      main := .load role false }
    else some { s with main := .checkPend }
  | .checkPend => some { s with main := if s.pendingCmd ≠ [] then .deletePend else .checkRole }
  | .deletePend => some { s with savedPend := none, main := .inject }
  | .inject => some { s with injected := s.injected ++ [s.pendingCmd], main := .done }
  | .checkRole => some { s with main := if s.storedRole ≠ .none then .setRole else .done }
  | .setRole => some { s with
      calls := s.calls ++ [.setRole s.storedRole mask]
      main := .markStarted }
  | .markStarted => some { s with stackStarted := true, main := .enable }
  | .enable => some { s with calls := s.calls ++ [.enable], main := .done }
  | .done => none

/-- One step of a command. -/
def stepAt (flag : Bool) (s : State) : Option State :=
  match s.at_ with
  | .idle => none
  | .startRole q => some { s with
      at_ := if s.storedRole ≠ .none then .ret atErrInPan else .startStarted q }
  | .startStarted q => some { s with at_ := if s.stackStarted then .deferSave else .erase q }
  | .deferSave => some { s with savedPend := some s.line, at_ := .reboot .defer }
  | .erase q => some { s with calls := s.calls ++ [.erase s.savedRole], at_ := .setRole q }
  | .setRole q => some { s with
      calls := s.calls ++ [.setRole q.role q.mask]
      at_ := .configure q }
  | .configure q => some { s with calls := s.calls ++ q.config, at_ := .semReset q }
  | .semReset q => some { s with opDone := false, at_ := .setOp q }
  | .setOp q => some { s with op := q.op, at_ := .opStarted q }
  | .opStarted q => some { s with at_ := if s.stackStarted then .take q else .markStarted q }
  | .markStarted q => some { s with stackStarted := true, at_ := .enable q }
  | .enable q => some { s with calls := s.calls ++ [.enable], at_ := .take q }
  | .take q =>
    if s.opDone then some { s with opDone := false, at_ := .readResult }
    else if flag then some { s with at_ := .timedOut q } else none
  | .timedOut q => some { s with op := .none, at_ := .ret q.timeoutErr }
  | .readResult => some { s with at_ := .ret s.opResult }
  | .ret result => some { s with at_ := .idle, log := s.log ++ [.returned result] }
  | .leaveRole k =>
    if s.storedRole = .none then some { s with
      at_ := match k with
        | .dassl => .ret atErrNotJoined
        | .factory => .deletePend .factory }
    else some { s with at_ := .leaveJoined k }
  | .leaveJoined k => some { s with
      at_ := if s.stackStarted && flag then .leaveReset k else .clearStored k }
  | .leaveReset k => some { s with opDone := false, at_ := .leaveOp k }
  | .leaveOp k => some { s with op := k.op, at_ := .leaveSchedule k }
  | .leaveSchedule k => some { s with
      calls := s.calls ++ [.resetViaLocalAction]
      at_ := .leaveTake k }
  | .leaveTake k =>
    if s.opDone then some { s with opDone := false, at_ := .clearStored k }
    else if flag then some { s with at_ := .leaveTimedOut k } else none
  | .leaveTimedOut k => some { s with op := .none, at_ := .clearStored k }
  | .clearStored k => some { s with storedRole := .none, at_ := .clearSave k }
  | .clearSave k => some { s with
      savedRole := .none
      at_ := match k with
        | .dassl => .answer (.leave .dassl)
        | .factory => .deletePend (.leave .factory) }
  | .deletePend cause => some { s with savedPend := none, at_ := .answer cause }
  | .answer cause => some { s with
      log := s.log ++ [.ok]
      at_ := if cause = .leave .dassl then .printLeft else .reboot cause }
  | .printLeft => some { s with
      log := if flag then s.log ++ [.leftPan] else s.log
      at_ := .reboot (.leave .dassl) }
  | .reboot cause => some { s with rebooted := some cause }

/-- One step of `zboss_signal_handler`. -/
def stepStack (s : State) : Option State :=
  match s.stack with
  | .idle => none
  | .firstForm g => some { s with
      stack := if s.op = .form then
          if !g.ok || !g.started then .complete atErrCannotForm else .idle
        else .firstJoin g }
  | .firstJoin g => some { s with
      stack := if s.op = .join then
          if !g.ok || !g.started then .complete atErrCannotJoin else .idle
        else .clearStored .done }
  | .steerOp g => some { s with
      stack := if s.op = .join then
          if g.ok && g.joined then .upCheck g (some atOk) else .complete atErrCannotJoin
        else .steerRole g }
  | .steerRole g => some { s with
      stack := if s.storedRole ≠ .none ∧ (g.ok && g.joined) then .upCheck g none else .idle }
  | .leaveJoin g => some { s with
      stack := if s.op = .join then .clearStored (.complete atErrCannotJoin) else .leaveLeave g }
  | .leaveLeave g => some { s with
      stack := if s.op = .leave then .complete atOk else .leaveFactory g }
  | .leaveFactory g => some { s with
      stack := if s.op = .factory then .complete atOk
        else if !g.ok then .idle
        else if g.rejoin then .idle
        else .leaveRole g }
  | .leaveRole g => some { s with
      stack := if s.storedRole ≠ .none then .clearStored (.leftPan g) else .idle }
  | .upCheck g result => some { s with
      stack := if s.storedRole ≠ g.role then .upStored g result else .upPrint g result }
  | .upStored g result => some { s with storedRole := g.role, stack := .upSave g result }
  | .upSave g result => some { s with savedRole := g.role, stack := .upPrint g result }
  | .upPrint g result => some { s with
      log := s.log ++ .networkUp g.role s.savedRole :: if g.jpanOff then [] else [.jpan]
      stack := afterUp result }
  | .clearStored after => some { s with storedRole := .none, stack := .clearSave after }
  | .clearSave after => some { s with savedRole := .none, stack := after.next }
  | .leftPan g => some { s with
      log := if g.leftPanOff then s.log else s.log ++ [.leftPan]
      stack := .schedule }
  | .schedule => some { s with
      rebootWork := true
      log := s.log ++ [.rebootScheduled]
      stack := .idle }
  | .complete result => some { s with
      stack := if s.op ≠ .none then .setResult result else .idle }
  | .setResult result => some { s with opResult := result, stack := .setOp }
  | .setOp => some { s with op := .none, stack := .give }
  | .give => some { s with opDone := true, stack := .idle }

/-- A step of one of the parties. The AT thread takes commands from `at_cmd_start` on, ZBOSS
signals from `zigbee_enable` on. -/
def move (s : State) : Action → Option State
  | .main roleFirst mask => stepMain roleFirst mask s
  | .command line cmd =>
    if s.at_ = .idle ∧ s.main ≠ .atCmdStart then some { s with
      line := line
      at_ := cmd.enter
      log := []
      fresh := cmd.start.isSome && decide (s.savedRole = .none) &&
        decide (s.storedRole = .none) && !s.stackStarted }
    else none
  | .at_ flag => stepAt flag s
  | .signal g =>
    if s.stack = .idle ∧ .enable ∈ s.calls then some { s with stack := g.enter } else none
  | .stack => stepStack s
  | .reboot => if s.rebootWork then some { s with rebooted := some .work } else none

/-- Nothing moves after the reboot. -/
def step (s : State) (a : Action) : Option State := if s.rebooted.isSome then none else move s a

/-- At power on, with these settings. -/
def init (role : Role) (pend : Option Text) : State where
  op := .none
  opResult := 0
  opDone := false
  stackStarted := false
  storedRole := .none
  pendingCmd := []
  rebootWork := false
  line := []
  savedRole := role
  savedPend := pend
  main := .atCmdStart
  at_ := .idle
  stack := .idle
  rebooted := none
  injected := []
  calls := []
  log := []
  fresh := false

def machine : Machine State Action := ⟨fun s => ∃ role pend, s = init role pend, step⟩

/-! ## Runs -/

/-- `main`, from `at_cmd_start` on, when a network is recorded. -/
def bootRun : List Action := List.replicate 9 (.main true 0)

/-- Registers that restrict nothing. -/
def anyRegs : Regs := ⟨0x07FFF800, false, none, 0, none⟩

/-- `main` without a network, then `AT+EN` up to its wait. -/
def formRun : List Action :=
  List.replicate 6 (.main true 0) ++ .command [] (.en anyRegs) :: List.replicate 10 (.at_ false)

/-- A signal of a router that is in a network. -/
def routerSignal (type : SignalType) (ok : Bool) : Signal where
  type := type
  ok := ok
  networkRole := .router
  joined := true
  started := true
  rejoin := false
  jpanOff := false
  leftPanOff := false

end ZbAt.Zbc
