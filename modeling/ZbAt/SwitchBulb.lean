import ZbAt.Machine
import ZbAt.PromptsProof
import ZbAt.Report
import ZbAt.Zcl

/-!
# A switch and a bulb (switch.py, bulb.py)

`Switch._send` sends an On/Off command and waits for the Default Response with its sequence number
among the prompts since. The bulb handles its prompts in order: it changes its light and answers.

* `waitIndex`, `isResponse` — the search of `wait_for`, and what `_send` looks for.
* `handleZcl` — `Bulb._handle_zcl`: the light after a prompt, and the answer.
* `machine` — both programs and the frames between them. A frame that is sent is shown once, at any
  time and after any other frames; other lines come at any time on both sides.
* `Undisturbed` — the other lines are no commands to the bulb, and no responses to the command that
  the switch waits for.

Calls are numbered. Frames and prompts carry the number of the call that they belong to; the
programs never read it.
-/

namespace ZbAt.SwitchBulb

open Text Zcl Host

/-! ## Frames and prompts -/

/-- A frame, as the arguments of `senducastb`. -/
structure Frame where
  srcEp : UInt8
  dstEp : UInt8
  profile : UInt16
  cluster : UInt16
  data : List UInt8
  deriving DecidableEq

/-- What else the prompt of a frame shows. -/
structure Shown where
  ieee : Option Report.Ieee
  srcAddr : UInt16
  rssi : Int8
  lqi : UInt8
  on : Bool

/-- The line that the receiver's module prints for a frame. -/
def Frame.line (f : Frame) (e : Shown) : Text :=
  printed (Report.Line.rx e.ieee ⟨e.srcAddr, f.profile, f.cluster, f.dstEp, f.srcEp, e.rssi, e.lqi⟩
    f.data e.on).write

/-- A frame on its way. -/
structure Packet where
  frame : Frame
  call : Option ℕ
  deriving DecidableEq

/-- A prompt that was recorded. -/
structure Event where
  prompt : Prompt
  call : Option ℕ
  deriving DecidableEq

/-- `_on_line`: the prompts that are recorded and handed to the listeners. -/
def isRecorded : Prompt → Bool
  | .ok | .error _ | .seq _ => false
  | _ => true

/-- `_on_line`: the history, or the queue of the listeners, after a line. -/
def onLine (line : Text) (call : Option ℕ) (events : List Event) : List Event :=
  match parsePrompt line true with
  | some p => if isRecorded p then events ++ [⟨p, call⟩] else events
  | none => events

/-! ## The switch -/

/-- `on`, `off` and `toggle` -/
inductive Command
  | off | on | toggle
  deriving DecidableEq

def Command.code : Command → UInt8
  | .off => cmdOff
  | .on => cmdOn
  | .toggle => cmdToggle

/-- `ENDPOINT`, of both programs -/
def endpoint : UInt8 := 0x02

/-- `_is_response` -/
def isResponse (p : Prompt) (seq : UInt8) : Bool :=
  match p with
  | .rx _ _ _ dstEp _ cluster payload _ _ =>
    cluster == clusterOnOff.toNat && dstEp == endpoint.toNat &&
      match parse payload with
      | some frame => (parseDefaultResponse frame).isSome && frame.seq == seq
      | none => false
  | _ => false

/-- The loop of `_wait_index` over the prompts from index `i` on. -/
def waitIndex (pred : Event → Bool) : List Event → ℕ → Option (Event × ℕ)
  | [], _ => none
  | ev :: rest, i => if pred ev then some (ev, i + 1) else waitIndex pred rest (i + 1)

/-- `parse_default_response(parse(ev.payload))` -/
def response (p : Prompt) : Option (UInt8 × UInt8) :=
  match p with
  | .rx _ _ _ _ _ _ payload _ _ => (parse payload).bind parseDefaultResponse
  | _ => none

/-- `_send`, by what it does next. -/
inductive Caller
  | idle
  /-- `senducastb` -/
  | send (seq : UInt8) (c : Command) (mark : ℕ)
  /-- `wait_for` -/
  | wait (seq : UInt8) (c : Command) (mark : ℕ)
  deriving DecidableEq

/-- A call that returned: the response that it took its status from, and the bulb's light. -/
structure Result where
  status : UInt8
  answers : UInt8
  call : Option ℕ
  light : Bool
  deriving DecidableEq

/-- `_send`: the frame of a command. -/
def commandFrame (seq : UInt8) (c : Command) : Frame :=
  ⟨endpoint, endpoint, profileHa, clusterOnOff, onOffCommand seq c.code⟩

/-! ## The bulb -/

/-- `_reply`: the address, and the frame. -/
def reply (nwk srcEp cluster : ℕ) (payload : List UInt8) : ℕ × Frame :=
  (nwk, ⟨endpoint, srcEp.toUInt8, profileHa, cluster.toUInt16, payload⟩)

/-- `_handle_zcl`: the light, and the reply. -/
def handleZcl (nwk srcEp cluster : ℕ) (payload : List UInt8) (light : Bool) :
    Bool × Option (ℕ × Frame) :=
  if cluster ≠ clusterOnOff.toNat then (light, none)
  else
    match parse payload with
    | none => (light, none)
    | some frame =>
      if frame.clusterSpecific ∧ frame.command ∈ [cmdOff, cmdOn, cmdToggle] then
        let newState :=
          if frame.command = cmdOff then false
          else if frame.command = cmdOn then true
          else !light
        (newState,
          if !frame.disableDefaultResponse then
            some (reply nwk srcEp cluster (defaultResponse frame.seq frame.command statusSuccess))
          else none)
      else if !frame.clusterSpecific ∧ frame.command = readAttributes then
        (light, some (reply nwk srcEp cluster (readOnOffResponse frame.seq light)))
      else (light, none)

/-- `Bulb._on_event` -/
def onEvent (p : Prompt) (light : Bool) : Bool × Option (ℕ × Frame) :=
  match p with
  | .rx _ nwk profile dstEp srcEp cluster payload _ _ =>
    if dstEp = endpoint.toNat ∧ profile = profileHa.toNat then
      handleZcl nwk srcEp cluster payload light
    else (light, none)
  | _ => (light, none)

/-! ## Both programs -/

structure State where
  seq : UInt8
  history : List Event
  caller : Caller
  /-- Frames of the switch that the bulb's module has not shown yet. -/
  toBulb : List Packet
  /-- Frames of the bulb that the switch's module has not shown yet. -/
  toSwitch : List Packet
  /-- The prompts that the bulb has not handled yet. -/
  events : List Event
  light : Bool
  /-- The commands of the calls so far. -/
  commands : List Command
  /-- The calls that returned. -/
  results : List Result

inductive Action
  | call (c : Command)
  /-- The switch's module sends the frame. -/
  | send
  /-- The bulb's module shows a frame of the switch. -/
  | atBulb (i : ℕ) (e : Shown)
  /-- The bulb handles a prompt. -/
  | handle
  /-- The switch's module shows a frame of the bulb. -/
  | atSwitch (i : ℕ) (e : Shown)
  /-- `wait_for` returns, and `_send` with it. -/
  | finish
  /-- The switch's module prints another line. -/
  | lineAtSwitch (line : Text)
  /-- The bulb's module prints another line. -/
  | lineAtBulb (line : Text)

def init : State := ⟨0, [], .idle, [], [], [], false, [], []⟩

/-- The replies of the bulb that go to the switch. -/
def sentToSwitch (switchAddr : UInt16) (call : Option ℕ) : Option (ℕ × Frame) → List Packet
  | some (nwk, f) => if nwk = switchAddr.toNat then [⟨f, call⟩] else []
  | none => []

/-- The bulb's program after one event. -/
def handle (switchAddr : UInt16) (ev : Event) (s : State) : State :=
  let (light, answer) := onEvent ev.prompt s.light
  { s with
    light := light
    toSwitch := s.toSwitch ++ sentToSwitch switchAddr ev.call answer }

/-- `switchAddr` is the network address of the switch; frames of the switch show it. -/
def step (switchAddr : UInt16) (s : State) : Action → Option State
  | .call c =>
    match s.caller with
    | .idle => some { s with
        seq := s.seq + 1
        caller := .send (s.seq + 1) c s.history.length
        commands := s.commands ++ [c] }
    | _ => none
  | .send =>
    match s.caller with
    | .send seq c mark => some { s with
        toBulb := s.toBulb ++ [⟨commandFrame seq c, some (s.commands.length - 1)⟩]
        caller := .wait seq c mark }
    | _ => none
  | .atBulb i e =>
    match s.toBulb[i]? with
    | some p => some { s with
        toBulb := s.toBulb.eraseIdx i
        events := onLine (p.frame.line { e with srcAddr := switchAddr }) p.call s.events }
    | none => none
  | .handle =>
    match s.events with
    | ev :: rest => some (handle switchAddr ev { s with events := rest })
    | [] => none
  | .atSwitch i e =>
    match s.toSwitch[i]? with
    | some p => some { s with
        toSwitch := s.toSwitch.eraseIdx i
        history := onLine (p.frame.line e) p.call s.history }
    | none => none
  | .finish =>
    match s.caller with
    | .wait seq _ mark =>
      match waitIndex (fun ev => isResponse ev.prompt seq) (s.history.drop mark) mark with
      | some (ev, _) =>
        match response ev.prompt with
        | some (answers, status) => some { s with
            caller := .idle
            results := s.results ++ [⟨status, answers, ev.call, s.light⟩] }
        | none => none
      | none => none
    | _ => none
  | .lineAtSwitch line => some { s with history := onLine line none s.history }
  | .lineAtBulb line => some { s with events := onLine line none s.events }

def machine (switchAddr : UInt16) : Machine State Action := ⟨(· = init), step switchAddr⟩

/-! ## What is expected -/

/-- The light after a command. -/
def Command.apply (light : Bool) : Command → Bool
  | .off => false
  | .on => true
  | .toggle => !light

/-- The light after the commands, starting from off. -/
def lightAfter (cs : List Command) : Bool := cs.foldl Command.apply false

/-- A prompt that changes the light: an On/Off command to endpoint 2. -/
def isCommand (p : Prompt) : Bool :=
  match p with
  | .rx _ _ profile dstEp _ cluster payload _ _ =>
    dstEp == endpoint.toNat && profile == profileHa.toNat && cluster == clusterOnOff.toNat &&
      match parse payload with
      | some frame => frame.clusterSpecific && [cmdOff, cmdOn, cmdToggle].contains frame.command
      | none => false
  | _ => false

/-- The sequence number of the call that runs. -/
def Caller.pending : Caller → Option UInt8
  | .idle => none
  | .send seq _ _ | .wait seq _ _ => some seq

/-- Another line is no command to the bulb, and no Default Response to the call that runs. -/
def Undisturbed (s : State) : Action → Prop
  | .lineAtSwitch line => ∀ p ∈ parsePrompt line true, ∀ seq ∈ s.caller.pending,
    isResponse p seq = false
  | .lineAtBulb line => ∀ p ∈ parsePrompt line true, isCommand p = false
  | _ => True

instance (s : State) : (a : Action) → Decidable (Undisturbed s a)
  | .lineAtSwitch line => inferInstanceAs (Decidable (∀ p ∈ parsePrompt line true, ∀ seq ∈
      s.caller.pending, isResponse p seq = false))
  | .lineAtBulb line =>
    inferInstanceAs (Decidable (∀ p ∈ parsePrompt line true, isCommand p = false))
  | .call _ | .send | .atBulb .. | .handle | .atSwitch .. | .finish => .isTrue trivial

end ZbAt.SwitchBulb
