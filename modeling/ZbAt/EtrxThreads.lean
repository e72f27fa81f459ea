import ZbAt.FanOut
import ZbAt.EtrxEcho
import ZbAt.SwitchBulb

/-!
# The threads of `Etrx` (protocol.py)

The reader thread splits what the module sends into lines. Each prompt goes into the history and
into the queue of the event thread, which calls the listeners; callers send commands and add
listeners whenever they like, the listeners among them.

* `onLine` — `_on_line`: what a line is for.
* `machine` — the two threads and their callers; an action is one step of one of them.
* `history_eq` — the history and the lines that are still to come are those of the bytes read,
  whatever commands are pending.
* `listeners_hear` — what every listener has heard, at any time and after `close`.
-/

namespace ZbAt.Threads

open Text Host
open SwitchBulb (isRecorded)

/-! ## Lines -/

/-- `_on_line`: whether the line goes to the pending command, and the prompt that is recorded. -/
def onLine (pending : Option Text) (rxHex : Bool) (line : Text) : Bool × Option Prompt :=
  if line = [] then (false, none)
  else if pending.any fun command => upper line = upper command then (false, none)
  else
    let prompt := parsePrompt line rxHex
    (pending.isSome && isResponse prompt, prompt.filter isRecorded)

/-- The prompt of a line, if it is one that is recorded. -/
def recorded (rxHex : Bool) (line : Text) : Option Prompt :=
  (parsePrompt line rxHex).filter isRecorded

/-! ## The machine -/

/-- `_rx_loop`, by what it does next. -/
inductive RxPc
  /-- `while not self._stop.is_set()` -/
  | test
  /-- `self._t.read()` -/
  | read
  /-- the loop over the lines of a chunk -/
  | lines (todo : List Text)
  | ended
  deriving DecidableEq

/-- `data` is all that was read; it only records what happened. -/
structure State where
  /-- `_reader` -/
  buf : Text
  rx : RxPc
  pending : Option Text
  /-- `_resp` -/
  resp : List Text
  stop : Bool
  /-- `_history`, `_events`, `_listeners` and `_event_loop` -/
  events : FanOut.State Prompt
  data : List UInt8
  deriving DecidableEq

inductive Action
  /-- The reader thread's next step; `chunk` is what a read returns. -/
  | rx (chunk : List UInt8)
  /-- `self._events.put(prompt)` -/
  | put
  /-- `_event_loop`: the next step of the thread; `raised` is what a listener does. -/
  | get
  | copy
  | call (raised : Bool)
  | finish
  /-- `add_listener` -/
  | addListener
  /-- `cmd` or `cmd_binary` sets `_pending`, or clears it. -/
  | setPending (command : Option Text)
  /-- `_resp.get` -/
  | getResp
  /-- `close` sets `_stop`, and then puts `None`. -/
  | setStop
  | putNone

/-- A step of the queue and its listeners. -/
def State.fan (s : State) (a : FanOut.Action Prompt) : Option State :=
  (FanOut.step s.events a).map fun events => { s with events := events }

/-- A line is handled. -/
def State.line (rxHex : Bool) (s : State) (line : Text) : Option State :=
  let (response, prompt) := onLine s.pending rxHex line
  let s := { s with resp := if response then s.resp ++ [line] else s.resp }
  match prompt with
  | some p => s.fan (.publish p)
  | none => some s

def step (rxHex : Bool) (s : State) : Action → Option State
  | .rx chunk => match s.rx with
    | .test => some { s with rx := if s.stop then .ended else .read }
    | .read =>
      let (buf, lines) := feed s.buf chunk
      some { s with buf := buf, rx := .lines lines, data := s.data ++ chunk }
    | .lines [] => if s.events.held.isNone then some { s with rx := .test } else none
    | .lines (l :: todo) =>
      if s.events.held.isNone then State.line rxHex { s with rx := .lines todo } l else none
    | .ended => none
  | .put => s.fan .put
  | .get => s.fan .get
  | .copy => s.fan .copy
  | .call _ => s.fan .call
  | .finish => s.fan .finish
  | .addListener => s.fan .add
  | .setPending command => some { s with pending := command }
  | .getResp => some { s with resp := s.resp.tail }
  | .setStop => some { s with stop := true }
  | .putNone => s.fan .close

def init : State := ⟨[], .test, none, [], false, FanOut.init, []⟩

def machine (rxHex : Bool) : Machine State Action := ⟨(· = init), step rxHex⟩

/-- The commands that are sent start with `AT`. -/
def Commands (_ : State) : Action → Prop
  | .setPending (some command) => IsAt command
  | _ => True

/-- The lines that were read and not handled yet. -/
def State.todo (s : State) : List Text :=
  match s.rx with
  | .lines todo => todo
  | _ => []

section

variable {rxHex : Bool} {s s' : State} {l : FanOut.Listener Prompt}

/-! ## The history -/

set_option maxRecDepth 4000 in
theorem upperChar_head : ∀ c : UInt8,
    ((upperChar c).head? = some 65 → upperChar c = [65] ∧ toupper c = 65) ∧
      ((upperChar c).head? = some 84 → upperChar c = [84] ∧ toupper c = 84) :=
  forall_char (by decide)

theorem upperChar_ne_nil (c : UInt8) : upperChar c ≠ [] := by
  unfold upperChar
  split_ifs <;> simp

theorem upper_cons_head {c : UInt8} {t : Text} {x : ℕ} {rest : List ℕ}
    (h : upper (c :: t) = x :: rest) : (upperChar c).head? = some x := by
  rw [upper_cons] at h
  have hhead := congrArg List.head? h
  rwa [List.head?_append_of_ne_nil _ (upperChar_ne_nil c), List.head?_cons] at hhead

/-- What looks like a command of the module in upper case is one. -/
theorem isAt_of_upper {line : Text} {rest : List ℕ} (h : upper line = 65 :: 84 :: rest) :
    IsAt line := by
  cases line with
  | nil => cases h
  | cons a t =>
    obtain ⟨ha, hupa⟩ := (upperChar_head a).1 (upper_cons_head h)
    rw [upper_cons, ha, List.singleton_append, List.cons.injEq] at h
    have ht := h.2
    cases t with
    | nil => cases ht
    | cons b t =>
      obtain ⟨-, hupb⟩ := (upperChar_head b).2 (upper_cons_head ht)
      rw [IsAt, List.take_succ_cons, List.take_succ_cons, List.take_zero, List.map_cons,
        List.map_cons, hupa, hupb]
      rfl

/-- A prompt is no echo of a command. -/
theorem recorded_echo {line command : Text} (hat : IsAt command)
    (heq : upper line = upper command) : recorded rxHex line = none := by
  obtain ⟨rest, hrest⟩ := hat.upper
  have hline : IsAt line := isAt_of_upper (heq.trans hrest)
  have hne : line ≠ [] := by
    rintro rfl
    cases hline
  rw [recorded, parse_part hline hne (List.prefix_refl _)]
  rfl

theorem recorded_nil : recorded rxHex [] = none := by
  cases rxHex <;> decide

/-- Which command is pending makes no difference to the history. -/
theorem onLine_recorded {pending : Option Text} (hat : ∀ command ∈ pending, IsAt command)
    (line : Text) : (onLine pending rxHex line).2 = recorded rxHex line := by
  unfold onLine
  by_cases hnil : line = []
  · rw [if_pos hnil, hnil, recorded_nil]
  · rw [if_neg hnil]
    by_cases hecho : (pending.any fun command => upper line = upper command) = true
    · rw [if_pos hecho]
      cases pending with
      | none => cases hecho
      | some command => exact (recorded_echo (hat command rfl) (of_decide_eq_true hecho)).symm
    · rw [if_neg hecho]
      rfl

/-- What holds of the reader thread. -/
structure Reads (rxHex : Bool) (s : State) : Prop where
  pending : ∀ command ∈ s.pending, IsAt command
  buf : s.buf = (feed [] s.data).1
  history : s.events.log ++ s.todo.filterMap (recorded rxHex) =
    (linesOf s.data).filterMap (recorded rxHex)

/-- A step of the listeners leaves the history as it is. -/
theorem fan_log {a : FanOut.Action Prompt} {events : FanOut.State Prompt}
    (h : FanOut.step s.events a = some events) (ha : ∀ p, a ≠ .publish p) :
    events.log = s.events.log := by
  cases a with
  | publish p => exact absurd rfl (ha p)
  | put =>
    obtain ⟨e, -, rfl⟩ := Option.map_eq_some_iff.mp h
    rfl
  | add =>
    cases h
    rfl
  | close =>
    cases h
    rfl
  | get =>
    dsimp only [FanOut.step] at h
    split at h <;> cases h <;> rfl
  | copy =>
    dsimp only [FanOut.step] at h
    split at h <;> cases h
    rfl
  | call =>
    dsimp only [FanOut.step] at h
    split at h
    · split_ifs at h
      cases h
      rfl
    · cases h
  | finish =>
    dsimp only [FanOut.step] at h
    split at h
    · split_ifs at h
      cases h
      rfl
    · cases h

theorem Reads.fan (h : Reads rxHex s) {a : FanOut.Action Prompt} (ha : ∀ p, a ≠ .publish p)
    (hs : s.fan a = some s') : Reads rxHex s' := by
  obtain ⟨events, hstep, rfl⟩ := Option.map_eq_some_iff.mp hs
  have hlog := fan_log hstep ha
  exact ⟨h.pending, h.buf, (congrArg (· ++ _) hlog).trans h.history⟩

/-- A line that is handled moves from the lines to the history. -/
theorem Reads.line (h : Reads rxHex s) {line : Text} {todo : List Text}
    (hrx : s.rx = .lines (line :: todo)) (hheld : s.events.held = none)
    (hs : State.line rxHex { s with rx := .lines todo } line = some s') : Reads rxHex s' := by
  have honLine := @onLine_recorded rxHex s.pending h.pending line
  have hhistory := h.history
  have htodo : s.todo = line :: todo := by rw [State.todo, hrx]
  unfold State.line at hs
  dsimp only at hs
  rw [honLine] at hs
  rw [htodo] at hhistory
  cases hrec : recorded rxHex line with
  | none =>
    rw [hrec] at hs
    cases hs
    rw [List.filterMap_cons_none hrec] at hhistory
    exact ⟨h.pending, h.buf, hhistory⟩
  | some p =>
    rw [hrec] at hs
    obtain ⟨events, hstep, rfl⟩ := Option.map_eq_some_iff.mp hs
    dsimp only [FanOut.step] at hstep
    rw [hheld] at hstep
    cases hstep
    rw [List.filterMap_cons_some hrec] at hhistory
    refine ⟨h.pending, h.buf, ?_⟩
    rw [← hhistory]
    exact List.append_assoc _ _ _

/-- A chunk is read. -/
theorem Reads.read (h : Reads rxHex s) (hrx : s.rx = .read) (chunk : List UInt8) :
    Reads rxHex { s with
      buf := (feed s.buf chunk).1
      rx := .lines (feed s.buf chunk).2
      data := s.data ++ chunk } where
  pending := h.pending
  buf := by
    rw [feed_append, ← h.buf]
  history := by
    have hhistory := h.history
    have htodo : s.todo = [] := by rw [State.todo, hrx]
    rw [htodo, List.filterMap_nil, List.append_nil] at hhistory
    rw [linesOf, feed_append, List.filterMap_append, ← h.buf]
    exact congrArg (· ++ _) hhistory

/-- What a step does. -/
inductive StepTo (rxHex : Bool) (s : State) : Action → State → Prop
  | fan {a : Action} {f : FanOut.Action Prompt} {s' : State} (hf : ∀ p, f ≠ .publish p)
      (hs : s.fan f = some s') : StepTo rxHex s a s'
  | read {chunk : List UInt8} (hrx : s.rx = .read) : StepTo rxHex s (.rx chunk) { s with
      buf := (feed s.buf chunk).1, rx := .lines (feed s.buf chunk).2, data := s.data ++ chunk }
  | line {chunk : List UInt8} {line : Text} {todo : List Text} {s' : State}
      (hrx : s.rx = .lines (line :: todo)) (hheld : s.events.held = none)
      (hs : State.line rxHex { s with rx := .lines todo } line = some s') :
      StepTo rxHex s (.rx chunk) s'
  /-- The reader thread at a point where it has no line. -/
  | move {chunk : List UInt8} {rx : RxPc} (htodo : s.todo = [])
      (htodo' : State.todo { s with rx := rx } = []) :
      StepTo rxHex s (.rx chunk) { s with rx := rx }
  | pending (command : Option Text) :
      StepTo rxHex s (.setPending command) { s with pending := command }
  | caller {a : Action} (resp : List Text) (stop : Bool) :
      StepTo rxHex s a { s with resp := resp, stop := stop }

theorem stepTo {a : Action} (hs : step rxHex s a = some s') : StepTo rxHex s a s' := by
  cases a with
  | rx chunk =>
    dsimp only [step] at hs
    split at hs
    case h_1 hrx =>
      cases hs
      refine .move (by rw [State.todo, hrx]) ?_
      by_cases hstop : s.stop = true <;> simp [State.todo, hstop]
    case h_2 hrx =>
      cases hs
      exact .read hrx
    case h_3 hrx =>
      split_ifs at hs
      cases hs
      exact .move (by rw [State.todo, hrx]) rfl
    case h_4 hrx =>
      split_ifs at hs with hheld
      exact .line hrx (Option.isNone_iff_eq_none.mp hheld) hs
    case h_5 hrx => cases hs
  | put => exact .fan (f := .put) (fun _ h => nomatch h) hs
  | get => exact .fan (f := .get) (fun _ h => nomatch h) hs
  | copy => exact .fan (f := .copy) (fun _ h => nomatch h) hs
  | call raised => exact .fan (f := .call) (fun _ h => nomatch h) hs
  | finish => exact .fan (f := .finish) (fun _ h => nomatch h) hs
  | addListener => exact .fan (f := .add) (fun _ h => nomatch h) hs
  | putNone => exact .fan (f := .close) (fun _ h => nomatch h) hs
  | setPending command =>
    cases hs
    exact .pending command
  | getResp =>
    cases hs
    exact .caller s.resp.tail s.stop
  | setStop =>
    cases hs
    exact .caller s.resp true

theorem reads_step {a : Action} (h : Reads rxHex s) (ha : Commands s a)
    (hs : step rxHex s a = some s') : Reads rxHex s' := by
  cases stepTo hs with
  | fan hf hs => exact h.fan hf hs
  | read hrx => exact h.read hrx _
  | line hrx hheld hs => exact h.line hrx hheld hs
  | move htodo htodo' =>
    refine ⟨h.pending, h.buf, ?_⟩
    rw [htodo', ← h.history, htodo]
  | pending command =>
    refine ⟨fun c hc => ?_, h.buf, h.history⟩
    cases command with
    | none => cases hc
    | some command =>
      cases hc
      exact ha
  | caller resp stop => exact ⟨h.pending, h.buf, h.history⟩

theorem reach_reads (h : (machine rxHex).ReachIf Commands s) : Reads rxHex s :=
  h.invariant (Reads rxHex) (fun s hs => by
    have hinit : s = init := hs
    subst hinit
    exact ⟨nofun, rfl, rfl⟩) fun _ _ _ hr ha hs => reads_step hr ha hs

/-! ## The listeners -/

theorem fan_inv {a : FanOut.Action Prompt} (h : FanOut.Inv s.events) (hs : s.fan a = some s') :
    FanOut.Inv s'.events := by
  obtain ⟨events, hstep, rfl⟩ := Option.map_eq_some_iff.mp hs
  exact FanOut.inv_step h hstep

theorem inv_step {a : Action} (h : FanOut.Inv s.events) (hs : step rxHex s a = some s') :
    FanOut.Inv s'.events := by
  cases stepTo hs with
  | fan hf hs => exact fan_inv h hs
  | line hrx hheld hs =>
    unfold State.line at hs
    dsimp only at hs
    split at hs
    · exact fan_inv (by exact h) hs
    · cases hs
      exact h
  | read hrx => exact h
  | move htodo htodo' => exact h
  | pending command => exact h
  | caller resp stop => exact h

theorem reach_inv (h : (machine rxHex).Reach s) : FanOut.Inv s.events :=
  h.invariant (fun s => FanOut.Inv s.events) (fun s hs => by
    have hinit : s = init := hs
    subst hinit
    exact FanOut.inv_init) fun _ _ _ hinv _ hs => inv_step hinv hs

/-- Nothing is on its way to the listeners, and no line is left to be handled. -/
structure Quiet (s : State) : Prop where
  todo : s.todo = []
  held : s.events.held = none
  queue : s.events.queue = []
  waiting : s.events.pc = .waiting

/-- The prompts of the bytes that were read. -/
def State.prompts (rxHex : Bool) (s : State) : List Prompt :=
  (linesOf s.data).filterMap (recorded rxHex)

/-- A listener has heard a piece of the prompts, without a gap. -/
theorem heard_piece (h : (machine rxHex).ReachIf Commands s) (hl : l ∈ s.events.listeners) :
    l.heard <+: (s.prompts rxHex).drop l.since := by
  have hreads := (reach_reads h).history
  rw [State.prompts, ← hreads, List.drop_append]
  exact ((reach_inv h.reach).heard_part hl).trans (List.prefix_append _ _)

/-- With nothing on its way, it has heard all of them. -/
theorem heard_quiet (h : (machine rxHex).ReachIf Commands s) (hl : l ∈ s.events.listeners)
    (hquiet : Quiet s) : l.heard = (s.prompts rxHex).drop l.since := by
  have hreads := (reach_reads h).history
  rw [hquiet.todo, List.filterMap_nil, List.append_nil] at hreads
  rw [State.prompts, ← hreads]
  exact (reach_inv h.reach).heard_all hl hquiet.waiting hquiet.queue hquiet.held

/-- **The listeners.** In every run, each listener has heard a piece of the prompts of the bytes
read, in order and without a gap, that starts no later than with the first that was recorded after
it was added; it has heard all of them when nothing is on its way. When `close` has ended the event
thread, it has heard those that were in the queue before. -/
theorem listeners_hear (h : (machine rxHex).ReachIf Commands s) (hl : l ∈ s.events.listeners) :
    l.since ≤ l.added ∧ l.heard <+: (s.prompts rxHex).drop l.since ∧
    (Quiet s → l.heard = (s.prompts rxHex).drop l.since) ∧
    (s.events.pc = .stopped → ∃ k, s.events.closed = some k ∧
      l.heard = ((s.prompts rxHex).take k).drop l.since) := by
  have hinv := reach_inv h.reach
  obtain ⟨i, hi⟩ := List.getElem?_of_mem hl
  refine ⟨(hinv.told i l hi).added.1, heard_piece h hl, heard_quiet h hl, fun hstop => ?_⟩
  obtain ⟨k, hclosed, hle, hheard⟩ := hinv.heard_stopped hl hstop
  refine ⟨k, hclosed, ?_⟩
  rw [State.prompts, ← (reach_reads h).history, List.take_append_of_le_length hle]
  exact hheard

end

/-! ## A listener that fails -/

/-- A listener is added, two lines arrive in three chunks, and the call with the first raises an
exception. -/
def ackRun : List Action :=
  [.addListener, .rx [], .rx (ascii "\r\nACK"), .rx [], .rx [], .rx [],
    .rx (ascii ":05\r\n\r\nNACK:06\r\n"), .rx [], .put, .get, .copy, .rx [], .rx [], .put,
    .call true, .finish, .get, .copy, .call false, .finish, .rx []]

theorem listeners_hear_ack : ∃ s l, (machine true).exec init ackRun = some s ∧
    l ∈ s.events.listeners ∧ l.heard = [.ack 5, .nack 6] := by
  have hrun : (machine true).exec init ackRun = some ⟨[], .test, none, [], false,
      ⟨[.ack 5, .nack 6], none, [], [⟨0, 0, [.ack 5, .nack 6]⟩], .waiting, [.ack 5, .nack 6], none⟩,
      ascii "\r\nACK:05\r\n\r\nNACK:06\r\n"⟩ := by decide +kernel
  have hreach : (machine true).ReachIf Commands _ :=
    .exec (.init rfl) (by simp [ackRun, Commands]) hrun
  have hheard := (listeners_hear hreach List.mem_cons_self).2.2.1 ⟨rfl, rfl, rfl, rfl⟩
  refine ⟨_, _, hrun, List.mem_cons_self, hheard.trans ?_⟩
  decide +kernel

end ZbAt.Threads
