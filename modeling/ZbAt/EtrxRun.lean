import ZbAt.Etrx
import ZbAt.Machine

/-!
# Calls of `cmd`, one after the other (protocol.py)

One thread at a time is in `cmd`, since it holds `_cmd_lock`. The reader thread looks at `_pending`
first and puts the line into the queue later, so the caller can move in between. The module
answers the commands in the order in which they arrive, whenever it likes. The line keeps the
order, and loses nothing.

* `Tagged` — a line with the call whose answer it belongs to. The tag only records this: no step
  of the program looks at it.
* `machine` — the caller, the reader and the module.
* `Faithful` — an outcome is the one that the module printed for that very call.
* `InTurn` — the steps in which a call starts with nothing outstanding, and no line looks like
  something that it is not.
-/

namespace ZbAt.Host

open Text

/-- A line of the stream, and the call whose answer it belongs to; echoes and prompts belong to
none. -/
abbrev Tagged := Text × Option ℕ

/-- Where the caller is in `cmd`, with the number of the call. -/
inductive Phase
  | idle
  /-- the loop of `_drain` -/
  | drain (n : ℕ) (command : Text)
  /-- `_drain` has found the queue empty -/
  | drained (n : ℕ) (command : Text)
  /-- `_pending` is set -/
  | start (n : ℕ) (command : Text)
  /-- `_collect`, after `lines` -/
  | collect (n : ℕ) (lines : List Text)
  /-- the outcome is known, and `_pending` is still set -/
  | leave
  deriving DecidableEq

inductive Event
  | returned (n : ℕ) (lines : List Text)
  | raised (n code : ℕ)
  | timedOut (n : ℕ)
  deriving DecidableEq

structure State where
  phase : Phase
  /-- `_pending` -/
  pending : Option Text
  /-- `_resp` -/
  resp : List Tagged
  /-- The line that `_on_line` is about to put into the queue. -/
  reader : Option Tagged
  /-- The lines that the module has printed and the reader has not read. -/
  wire : List Tagged
  /-- The calls whose answers the module has not finished, in order. -/
  todo : List ℕ
  /-- How many commands were written. -/
  calls : ℕ
  /-- All lines that the module has printed. -/
  printed : List Tagged
  /-- The outcomes of the calls. -/
  events : List Event
  deriving DecidableEq

inductive Action
  | call (command : Text)
  /-- `get_nowait` in `_drain` -/
  | drainOne
  /-- `empty()` is true in `_drain` -/
  | drainEnd
  | setPending
  | write
  /-- `_next_line` returns a line, and `_collect` looks at it -/
  | get
  /-- `_next_line` raises `TimeoutError` -/
  | timeout
  /-- `_pending = None`, and the lock is released -/
  | leave
  /-- `_on_line` up to the decision -/
  | read
  /-- `_resp.put` -/
  | put
  /-- The module prints a line of the answer it is at. -/
  | answer (line : Text)
  /-- The module prints the result of the answer it is at. -/
  | finish (line : Text)
  /-- The module prints something else: an echo or a prompt. -/
  | other (line : Text)
  deriving DecidableEq

def init : State := ⟨.idle, none, [], none, [], [], 0, [], []⟩

/-- A line that ends a response. -/
def IsResult (line : Text) : Prop := line = ascii "OK" ∨ (errorCode line).isSome = true

instance (line : Text) : Decidable (IsResult line) := inferInstanceAs (Decidable (_ ∨ _))

/-- `_on_line` puts the line into the queue. -/
def taken (rxHex : Bool) (s : State) (line : Text) : Bool :=
  match s.pending with
  | some command => routed command rxHex line
  | none => false

/-- A line arrives on the wire. -/
def State.print (s : State) (t : Tagged) : State :=
  { s with wire := s.wire ++ [t], printed := s.printed ++ [t] }

/-- `_collect` looks at a line, after `lines`. -/
def collectLine (s : State) (n : ℕ) (lines : List Text) (line : Text) : State :=
  if line = ascii "OK" then
    { s with phase := .leave, events := s.events ++ [.returned n lines] }
  else
    match errorCode line with
    | some code => { s with phase := .leave, events := s.events ++ [.raised n code] }
    | none => { s with phase := .collect n (lines ++ [line]) }

def step (rxHex : Bool) (s : State) : Action → Option State
  | .call command =>
    match s.phase with
    | .idle => some { s with phase := .drain s.calls command }
    | _ => none
  | .drainOne =>
    match s.phase, s.resp with
    | .drain _ _, _ :: rest => some { s with resp := rest }
    | _, _ => none
  | .drainEnd =>
    match s.phase, s.resp with
    | .drain n command, [] => some { s with phase := .drained n command }
    | _, _ => none
  | .setPending =>
    match s.phase with
    | .drained n command => some { s with phase := .start n command, pending := some command }
    | _ => none
  | .write =>
    match s.phase with
    | .start n _ =>
      some { s with phase := .collect n [], todo := s.todo ++ [n], calls := s.calls + 1 }
    | _ => none
  | .get =>
    match s.phase, s.resp with
    | .collect n lines, t :: rest => some (collectLine { s with resp := rest } n lines t.1)
    | _, _ => none
  | .timeout =>
    match s.phase with
    | .collect n _ => some { s with phase := .leave, events := s.events ++ [.timedOut n] }
    | _ => none
  | .leave =>
    match s.phase with
    | .leave => some { s with phase := .idle, pending := none }
    | _ => none
  | .read =>
    match s.reader, s.wire with
    | none, t :: rest =>
      some { s with wire := rest, reader := if taken rxHex s t.1 then some t else none }
    | _, _ => none
  | .put =>
    match s.reader with
    | some t => some { s with resp := s.resp ++ [t], reader := none }
    | none => none
  | .answer line =>
    match s.todo with
    | n :: _ => some (s.print (line, some n))
    | [] => none
  | .finish line =>
    match s.todo with
    | n :: rest => if IsResult line then some { s.print (line, some n) with todo := rest } else none
    | [] => none
  | .other line => some (s.print (line, none))

def machine (rxHex : Bool) : Machine State Action := ⟨(· = init), step rxHex⟩

/-! ## What a call should give -/

/-- The lines of a call's answer. An empty line cannot be told from a line end. -/
def linesFor (n : ℕ) (ts : List Tagged) : List Text :=
  ts.filterMap fun t => if t.2 = some n ∧ t.1 ≠ [] then some t.1 else none

/-- The outcome is the one that the module printed for this call: the module has finished its
answer, which ends with this result. -/
def Faithful (s : State) : Event → Prop
  | .returned n lines => n ∉ s.todo ∧ linesFor n s.printed = lines ++ [ascii "OK"]
  | .raised n code => n ∉ s.todo ∧
    ∃ lines line, linesFor n s.printed = lines ++ [line] ∧ errorCode line = some code
  | .timedOut _ => True

/-- The module is at the answer of the call that waits. -/
def State.serving (s : State) : Bool :=
  match s.phase, s.todo with
  | .collect n _, k :: _ => n == k
  | _, _ => false

/-- When `_drain` finds the queue empty, the module has finished the answers of all earlier calls
and the reader has read them. What the module prints for the call that waits looks neither like the
echo of its command nor like a prompt, and its value lines do not look like a result. No echo or
prompt that the reader reads looks like a line of the pending command's response. -/
def InTurn (rxHex : Bool) (s : State) : Action → Prop
  | .drainEnd => s.todo = [] ∧ ∀ t ∈ s.reader.toList ++ s.wire, t.2 = none
  | .answer line => s.serving = true → ¬IsResult line ∧ (line ≠ [] → taken rxHex s line = true)
  | .finish line => s.serving = true → taken rxHex s line = true
  | .read => ∀ t ∈ s.wire.head?, t.2 = none → taken rxHex s t.1 = false
  | _ => True

instance (rxHex : Bool) (s : State) (a : Action) : Decidable (InTurn rxHex s a) := by
  unfold InTurn
  split <;> infer_instance

end ZbAt.Host
