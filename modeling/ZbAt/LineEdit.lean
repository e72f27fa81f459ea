import ZbAt.SregProof
import ZbAt.XcastProof

/-!
# What a typed line does (at_uart.c, at_cmd.c)

The receive thread edits the line, `line_q` carries its bytes, and the AT thread reads them as a C
string. A line that did not fit is replaced by the mark `line_overflow`, which `execute` finds by
its first byte.

* `act` — what `execute` does with a message of `line_q`.
* `machine` — received bytes and the AT thread, interleaved; no binary entry is armed.
* `reference` — the editing that is meant, on the whole stream.
* `acts_eq_reference_iff` — the AT thread does what is meant exactly when no line that fits holds
  a NUL or begins with the byte of the mark; what it does is what `execute` does.
-/

namespace ZbAt.LineEdit

open Text Sreg Uart Xcast

/-! ## The two threads -/

inductive Act
  /-- The answer is 0x74. -/
  | tooLong
  /-- This line is executed. -/
  | line (t : Text)
  deriving DecidableEq

/-- What `execute` does with a message: it reads a C string, and looks at its first byte. -/
def act (msg : Text) : Act := if (cstr msg).head? = some 1 then .tooLong else .line (cstr msg)

/-- How the answer is found. -/
def Act.dispatch : Act → Dispatch
  | tooLong => .result atErrMsgTooLong
  | line t => Xcast.dispatch t

structure State where
  lineBuf : LineBuf
  lineQ : List Text
  /-- What was received. -/
  received : List UInt8
  /-- What the AT thread did. -/
  acts : List Act
  deriving DecidableEq

inductive Action
  /-- `line_byte` -/
  | rx (c : UInt8)
  /-- `at_uart_get_line`, and `execute` -/
  | getLine
  deriving DecidableEq

def init : State := ⟨⟨[], false⟩, [], [], []⟩

def step (s : State) : Action → Option State
  | .rx c =>
    let (l, line) := lineByte c s.lineBuf
    some { s with
      lineBuf := l
      lineQ := line.elim s.lineQ fun line => putLine line s.lineQ
      received := s.received ++ [c] }
  | .getLine =>
    match s.lineQ with
    | [] => none
    | msg :: q => some { s with lineQ := q, acts := s.acts ++ [act msg] }

def machine : Machine State Action := ⟨(· = init), step⟩

/-- A line finds room in `line_q`. -/
def Room (s : State) : Action → Prop
  | .rx c => (lineByte c s.lineBuf).2 = none ∨ s.lineQ.length < lineQDepth
  | .getLine => True

instance (s : State) : (a : Action) → Decidable (Room s a)
  | .rx c => inferInstanceAs (Decidable ((lineByte c s.lineBuf).2 = none ∨ _))
  | .getLine => .isTrue trivial

/-! ## The editing that is meant -/

/-- One byte that ends no line: LF is ignored, BS and DEL remove the last byte. -/
def edit (kept : Text) (c : UInt8) : Text :=
  if c = 0x0A then kept else if c = 0x08 ∨ c = 0x7F then kept.dropLast else kept ++ [c]

/-- What is kept of the bytes of a line. -/
def kept (bytes : List UInt8) : Text := bytes.foldl edit []

/-- At some byte of the line more was kept than fits. -/
def tooLong (bytes : List UInt8) : Bool :=
  bytes.inits.any fun first => atLineMax - 1 < (kept first).length

/-- The bytes of each line that CR ended. -/
def lines (data : List UInt8) : List (List UInt8) := (data.splitOn 0x0D).dropLast

/-- What a line asks for; an empty line asks for nothing. -/
def wanted (bytes : List UInt8) : Option Act :=
  if tooLong bytes then some .tooLong
  else if kept bytes = [] then none else some (.line (kept bytes))

/-- What the AT thread is to do after these bytes. -/
def reference (data : List UInt8) : List Act := (lines data).filterMap wanted

/-- A line that fits is a C string, and does not begin like the mark. -/
def Plain (bytes : List UInt8) : Prop :=
  tooLong bytes = false → 0 ∉ kept bytes ∧ (kept bytes).head? ≠ some 1

instance (bytes : List UInt8) : Decidable (Plain bytes) :=
  inferInstanceAs (Decidable (tooLong bytes = false → _))

/-! ## The answer of `execute` -/

theorem act_dispatch (msg : Text) : (act msg).dispatch = dispatch (cstr msg) := by
  unfold act
  by_cases h : (cstr msg).head? = some 1
  · rw [if_pos h, dispatch, if_pos h, Act.dispatch]
  · rw [if_neg h, Act.dispatch]

/-- A line that is executed is not answered with 0x74 here. -/
theorem dispatch_ne_tooLong {msg t : Text} (h : act msg = .line t) :
    dispatch t ≠ .result atErrMsgTooLong := by
  have hmark : t.head? ≠ some 1 := by
    unfold act at h
    split_ifs at h with hmark
    cases h
    exact hmark
  intro heq
  rw [dispatch, if_neg hmark] at heq
  dsimp only at heq
  split_ifs at heq
  · cases heq
  · split at heq
    · cases heq
    · cases heq

/-! ## Editing -/

section

variable {bytes : List UInt8} {c : UInt8}

theorem kept_concat (bytes : List UInt8) (c : UInt8) :
    kept (bytes ++ [c]) = edit (kept bytes) c := by
  simp only [kept, List.foldl_append, List.foldl_cons, List.foldl_nil]

theorem tooLong_concat (bytes : List UInt8) (c : UInt8) : tooLong (bytes ++ [c]) =
    (tooLong bytes || decide (atLineMax - 1 < (kept (bytes ++ [c])).length)) := by
  simp [tooLong, List.inits_append]

/-- What is kept of a line that was never too long fits. -/
theorem length_kept (h : tooLong bytes = false) : (kept bytes).length ≤ atLineMax - 1 := by
  rcases List.eq_nil_or_concat bytes with rfl | ⟨bytes, c, rfl⟩
  · exact Nat.zero_le _
  · rw [List.concat_eq_append, tooLong_concat, Bool.or_eq_false_iff, decide_eq_false_iff_not] at h
    rw [List.concat_eq_append]
    exact Nat.not_lt.mp h.2

/-- A byte that adds nothing makes no line too long. -/
theorem tooLong_of_le (h : (kept (bytes ++ [c])).length ≤ (kept bytes).length) :
    tooLong (bytes ++ [c]) = tooLong bytes := by
  rw [tooLong_concat]
  by_cases ht : tooLong bytes = true
  · rw [ht, Bool.true_or]
  · have hle := length_kept (Bool.eq_false_of_not_eq_true ht)
    rw [decide_eq_false (by omega), Bool.or_false]

/-- The buffer of `line_byte` after these bytes of a line. -/
structure Holds (bytes : List UInt8) (l : LineBuf) : Prop where
  overflow : l.rxOverflow = tooLong bytes
  line : tooLong bytes = false → l.rxLine = kept bytes

theorem holds_nil : Holds [] ⟨[], false⟩ := ⟨rfl, fun _ => rfl⟩

/-- A byte that ends no line. -/
theorem Holds.byte {l : LineBuf} (h : Holds bytes l) (hc : c ≠ 0x0D) :
    Holds (bytes ++ [c]) (lineByte c l).1 ∧ (lineByte c l).2 = none := by
  obtain ⟨hover, hline⟩ := h
  have hkept := kept_concat bytes c
  have hlong := tooLong_concat bytes c
  rw [lineByte, if_neg hc]
  by_cases hlf : c = 0x0A
  · rw [edit, if_pos hlf] at hkept
    rw [if_pos hlf]
    have hsame : tooLong (bytes ++ [c]) = tooLong bytes := tooLong_of_le (by rw [hkept])
    refine ⟨⟨hover.trans hsame.symm, fun hfit => ?_⟩, rfl⟩
    rw [hsame] at hfit
    rw [hkept, hline hfit]
  · rw [edit, if_neg hlf] at hkept
    rw [if_neg hlf]
    by_cases hbs : c = 0x08 ∨ c = 0x7F
    · rw [if_pos hbs] at hkept
      rw [if_pos hbs]
      have hsame : tooLong (bytes ++ [c]) = tooLong bytes := by
        apply tooLong_of_le
        rw [hkept, List.length_dropLast]
        omega
      refine ⟨⟨hover.trans hsame.symm, fun hfit => ?_⟩, rfl⟩
      rw [hsame] at hfit
      rw [hkept, hline hfit]
    · rw [if_neg hbs] at hkept
      rw [if_neg hbs]
      have hlen : (kept (bytes ++ [c])).length = (kept bytes).length + 1 := by
        rw [hkept, List.length_append, List.length_singleton]
      by_cases ht : tooLong bytes = true
      · have hlong : tooLong (bytes ++ [c]) = true := by rw [hlong, ht, Bool.true_or]
        have hfit : ¬tooLong (bytes ++ [c]) = false := fun hf => by rw [hlong] at hf; cases hf
        split_ifs
        · exact ⟨⟨hover.trans (ht.trans hlong.symm), fun hf => absurd hf hfit⟩, rfl⟩
        · exact ⟨⟨hlong.symm, fun hf => absurd hf hfit⟩, rfl⟩
      · have hfit := Bool.eq_false_of_not_eq_true ht
        rw [hline hfit]
        by_cases hroom : (kept bytes).length < atLineMax - 1
        · rw [if_pos hroom]
          refine ⟨⟨?_, fun _ => hkept.symm⟩, rfl⟩
          dsimp only
          rw [hlong, hover, decide_eq_false (by omega), Bool.or_false]
        · rw [if_neg hroom]
          have hover : tooLong (bytes ++ [c]) = true := by
            rw [hlong, decide_eq_true (by omega), Bool.or_true]
          exact ⟨⟨hover.symm, fun hf => by rw [hover] at hf; cases hf⟩, rfl⟩

/-- What CR puts into the queue. -/
def message (bytes : List UInt8) : Option Text :=
  if tooLong bytes then some lineOverflow
  else if kept bytes = [] then none else some (kept bytes)

theorem Holds.cr {l : LineBuf} (h : Holds bytes l) :
    lineByte 0x0D l = (⟨[], false⟩, message bytes) := by
  obtain ⟨hover, hline⟩ := h
  rw [lineByte, if_pos rfl, hover, message]
  by_cases ht : tooLong bytes = true
  · rw [if_pos ht, if_pos ht]
  · rw [if_neg ht, if_neg ht, hline (Bool.eq_false_of_not_eq_true ht), ite_not]

/-- **Lines.** `line_byte` puts one message into the queue for each line that is not empty. -/
theorem typed_lines {l : LineBuf} (h : Holds bytes l) (hcr : 0x0D ∉ bytes) (data : List UInt8) :
    (typed l data).2 = (lines (bytes ++ data)).filterMap message := by
  induction data generalizing bytes l with
  | nil =>
    rw [List.append_nil, lines, List.splitOn_eq_singleton hcr]
    rfl
  | cons c data ih =>
    by_cases hc : c = 0x0D
    · subst hc
      have hne : data.splitOn 0x0D ≠ [] := List.splitOn_ne_nil _ _
      rw [typed, h.cr, lines, List.splitOn_append_cons_self_of_not_mem hcr,
        List.dropLast_cons_of_ne_nil hne, List.filterMap_cons]
      dsimp only
      rw [ih holds_nil List.not_mem_nil, List.nil_append]
      cases message bytes with
      | none => rfl
      | some msg => rfl
    · obtain ⟨hholds, hnone⟩ := h.byte hc
      have hmem : 0x0D ∉ bytes ++ [c] := by
        rw [List.mem_append, List.mem_singleton, not_or]
        exact ⟨hcr, fun heq => hc heq.symm⟩
      have hbyte : lineByte c l = ((lineByte c l).1, none) := Prod.ext rfl hnone
      rw [typed, hbyte]
      dsimp only
      rw [ih hholds hmem, ← List.append_cons]
      rfl

/-! ## The mark in the line -/

theorem act_mark : act lineOverflow = .tooLong := rfl

/-- A message is executed as a whole when it is a C string that does not begin like the mark. -/
theorem act_eq_line {msg : Text} : act msg = .line msg ↔ 0 ∉ msg ∧ msg.head? ≠ some 1 := by
  unfold act
  constructor
  · intro h
    by_cases hmark : (cstr msg).head? = some 1
    · rw [if_pos hmark] at h
      cases h
    · rw [if_neg hmark, Act.line.injEq] at h
      rw [h] at hmark
      exact ⟨h ▸ zero_not_mem_cstr msg, hmark⟩
  · rintro ⟨hnul, hmark⟩
    rw [cstr_eq hnul, if_neg hmark]

/-- One line: the AT thread acts on its message as is meant. -/
theorem message_wanted (bytes : List UInt8) :
    (message bytes).map act = wanted bytes ↔ Plain bytes := by
  unfold message wanted Plain
  by_cases ht : tooLong bytes = true
  · rw [if_pos ht, if_pos ht, ht]
    exact ⟨fun _ hf => Bool.noConfusion hf, fun _ => congrArg some act_mark⟩
  · rw [if_neg ht, if_neg ht]
    by_cases hempty : kept bytes = []
    · rw [if_pos hempty, if_pos hempty, hempty]
      exact ⟨fun _ _ => ⟨List.not_mem_nil, Option.some_ne_none 1 ∘ Eq.symm⟩, fun _ => rfl⟩
    · rw [if_neg hempty, if_neg hempty, Option.map_some, Option.some_inj, act_eq_line]
      exact ⟨fun h _ => h, fun h => h (Bool.eq_false_of_not_eq_true ht)⟩

theorem isSome_wanted (bytes : List UInt8) : (wanted bytes).isSome = (message bytes).isSome := by
  unfold message wanted
  split_ifs <;> rfl

/-- Line by line. -/
theorem messages_wanted (bss : List (List UInt8)) :
    (bss.filterMap message).map act = bss.filterMap wanted ↔ ∀ bytes ∈ bss, Plain bytes := by
  induction bss with
  | nil => simp
  | cons bytes bss ih =>
    have hone := message_wanted bytes
    have hsome := isSome_wanted bytes
    rw [List.forall_mem_cons, ← hone, ← ih]
    cases hm : message bytes with
    | none =>
      rw [hm, Option.isSome_none, Option.isSome_eq_false_iff, Option.isNone_iff_eq_none] at hsome
      rw [List.filterMap_cons_none hm, List.filterMap_cons_none hsome, hsome]
      exact ⟨fun h => ⟨rfl, h⟩, fun h => h.2⟩
    | some msg =>
      rw [hm, Option.isSome_some, Option.isSome_iff_exists] at hsome
      obtain ⟨a, ha⟩ := hsome
      rw [List.filterMap_cons_some hm, List.filterMap_cons_some ha, ha, List.map_cons,
        List.cons_eq_cons, Option.map_some, Option.some_inj]

/-! ## The run -/

/-- What the AT thread did, and what it will do with the queue, are its acts on the lines. -/
structure Serves (s : State) : Prop where
  buffer : (typed init.lineBuf s.received).1 = s.lineBuf
  acts : s.acts ++ s.lineQ.map act = (typed init.lineBuf s.received).2.map act

theorem Serves.step {s s' : State} {a : Action} (h : Serves s) (hroom : Room s a)
    (hstep : machine.step s a = some s') : Serves s' := by
  cases a with
  | rx c =>
    simp only [machine, LineEdit.step, Option.some_inj] at hstep
    subst hstep
    have htyped := typed_append init.lineBuf s.received [c]
    rw [h.buffer] at htyped
    refine ⟨?_, ?_⟩
    · rw [htyped]
      rfl
    · rw [htyped, List.map_append, ← h.acts]
      cases hline : (lineByte c s.lineBuf).2 with
      | none => simp [typed, hline]
      | some line =>
        have hfree : s.lineQ.length < lineQDepth :=
          hroom.resolve_left (hline ▸ Option.some_ne_none line)
        simp [typed, hline, putLine, hfree]
  | getLine =>
    obtain ⟨buffer, acts⟩ := h
    cases hq : s.lineQ with
    | nil => simp [machine, LineEdit.step, hq] at hstep
    | cons msg q =>
      simp only [machine, LineEdit.step, hq, Option.some_inj] at hstep
      subst hstep
      refine ⟨buffer, ?_⟩
      rw [← acts, hq, List.map_cons, List.append_assoc]
      rfl

theorem serves {s : State} (h : machine.ReachIf Room s) : Serves s :=
  h.invariant Serves (fun s hs => by cases hs; exact ⟨rfl, rfl⟩)
    fun _ _ _ hserves hroom hstep => hserves.step hroom hstep

/-- **What typed lines do.** Once it has taken all lines, the AT thread has done exactly what the
stream asks for if, and only if, no line that fits holds a NUL or begins with the byte of the
mark. Its answers are those that `execute` finds for the messages of the lines, and none of the
lines that it executed is answered like a line that did not fit. -/
theorem acts_eq_reference_iff {s : State} (h : machine.ReachIf Room s) (hq : s.lineQ = []) :
    (s.acts = reference s.received ↔ ∀ bytes ∈ lines s.received, Plain bytes) ∧
      s.acts.map Act.dispatch =
        ((lines s.received).filterMap message).map (fun msg => dispatch (cstr msg)) ∧
      ∀ t, .line t ∈ s.acts → dispatch t ≠ .result atErrMsgTooLong := by
  have hacts := (serves h).acts
  rw [hq, List.map_nil, List.append_nil, init, typed_lines holds_nil List.not_mem_nil,
    List.nil_append] at hacts
  refine ⟨?_, ?_, fun t ht => ?_⟩
  · rw [hacts, reference, messages_wanted]
  · rw [hacts, List.map_map]
    exact List.map_congr_left fun msg _ => act_dispatch msg
  · rw [hacts] at ht
    obtain ⟨msg, -, hmsg⟩ := List.mem_map.mp ht
    exact dispatch_ne_tooLong hmsg

end

/-! ## Runs -/

/-- The AT thread after it has taken the lines of a stream. -/
def after (data : List UInt8) (lines : ℕ) : Option State :=
  machine.execIf Room init (data.map .rx ++ List.replicate lines .getLine)

/-- A line with a NUL is cut there and executed; one that begins with the byte of the mark is
answered like a line that did not fit. -/
theorem acts_nul_and_mark : ∃ s, machine.ReachIf Room s ∧ s.lineQ = [] ∧
    s.received = ascii "ATZ" ++ 0x00 :: ascii "I\r" ++ 0x01 :: ascii "AT\r" ∧
    s.acts = [.line (ascii "ATZ"), .tooLong] ∧
    reference s.received = [.line (ascii "ATZ" ++ 0x00 :: ascii "I"), .line (1 :: ascii "AT")] := by
  have hrun : (after (ascii "ATZ" ++ 0x00 :: ascii "I\r" ++ 0x01 :: ascii "AT\r") 2).isSome =
    true := by decide
  obtain ⟨s, hs⟩ := Option.isSome_iff_exists.mp hrun
  refine ⟨s, .execIf (.init rfl) hs, ?_⟩
  cases hs
  decide

/-- A line with corrections, one that did not fit although it was shortened, and a last one. -/
def editedStream : List UInt8 :=
  ascii "AX" ++ 0x08 :: ascii "TX" ++ 0x7F :: 0x0A :: 0x0D ::
    List.replicate 200 0x41 ++ List.replicate 198 0x08 ++ 0x0D :: ascii "ATI\r"

theorem editedStream_after : (after editedStream 3).map (fun s => (s.lineQ, s.received, s.acts)) =
    some ([], editedStream, [.line (ascii "AT"), .tooLong, .line (ascii "ATI")]) := by
  decide +kernel

theorem acts_edited : ∃ s : State, s.received = editedStream ∧
    s.acts = [.line (ascii "AT"), .tooLong, .line (ascii "ATI")] ∧
    (s.acts = reference s.received ↔ ∀ bytes ∈ lines s.received, Plain bytes) ∧
      s.acts.map Act.dispatch =
        ((lines s.received).filterMap message).map (fun msg => dispatch (cstr msg)) ∧
      ∀ t, .line t ∈ s.acts → dispatch t ≠ .result atErrMsgTooLong := by
  obtain ⟨s, he, hs⟩ := Option.map_eq_some_iff.mp editedStream_after
  obtain ⟨hq, hs⟩ := Prod.mk.inj hs
  obtain ⟨hreceived, hacts⟩ := Prod.mk.inj hs
  exact ⟨s, hreceived, hacts, acts_eq_reference_iff (.execIf (.init rfl) he) hq⟩

end ZbAt.LineEdit
