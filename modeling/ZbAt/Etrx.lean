import ZbAt.RoundTrip

/-!
# Commands and their responses (protocol.py)

The reader thread splits the stream into lines and hands some of them to the pending command; the
command collects them until its result. Here both are run over the lines one after the other.

* `routed` — what `_on_line` puts into the queue of the pending command.
* `collect` — `_collect`, on the queue's lines.
* `outcome` — the outcome of `cmd` when the module sends some bytes.
* `Counts` — a line that can change the outcome; `outcome_insert` and `counts_of_insert` say that
  inserted lines change no outcome if and only if none of them counts.
-/

namespace ZbAt.Host

open Text Uart

/-! ## Routing and collecting -/

/-- `str.upper` of one Latin-1 character: one character or two, of Unicode. -/
def upperChar (c : UInt8) : List ℕ :=
  if 0x61 ≤ c && c ≤ 0x7A || 0xE0 ≤ c && c ≤ 0xFE && c != 0xF7 then [c.toNat - 32]
  else if c = 0xB5 then [0x39C]
  else if c = 0xDF then [0x53, 0x53]
  else if c = 0xFF then [0x178]
  else [c.toNat]

/-- `str.upper` -/
def upper (t : Text) : List ℕ := t.flatMap upperChar

/-- `prompt is None or isinstance(prompt, (Ok, Error, Seq, Jpan))` -/
def isResponse : Option Prompt → Bool
  | none | some .ok | some (.error _) | some (.seq _) | some (.jpan ..) => true
  | some _ => false

/-- `_on_line`: the line goes to the command `command`, which is pending. -/
def routed (command : Text) (rxHex : Bool) (line : Text) : Bool :=
  line ≠ [] && upper line ≠ upper command && isResponse (parsePrompt line rxHex)

/-- The outcome of `cmd`, if no time-out comes first. -/
inductive Outcome
  | returned (lines : List Text)
  | raised (code : ℕ)
  | waiting
  deriving DecidableEq

/-- `_collect`, after `lines`. -/
def collect : List Text → List Text → Outcome
  | [], _ => .waiting
  | line :: rest, lines =>
    if line = ascii "OK" then .returned lines
    else
      match parsePrompt line true with
      | some (.error code) => .raised code
      | _ => collect rest (lines ++ [line])

/-- The outcome of `cmd(command)` on these lines. -/
def outcomeOf (command : Text) (rxHex : Bool) (lines : List Text) : Outcome :=
  collect (lines.filter (routed command rxHex)) []

/-- The outcome of `cmd(command)` when the module sends `data`. -/
def outcome (command : Text) (rxHex : Bool) (data : List UInt8) : Outcome :=
  outcomeOf command rxHex (linesOf data)

/-- The results that end a response. -/
def Final (line : Text) : Prop :=
  line = ascii "OK" ∨ ∃ code : UInt8, line = ascii "ERROR:" ++ hexText 2 code.toNat

/-- What the module prints for the response lines `lines`. -/
def responses (lines : List Text) : List UInt8 :=
  lines.flatMap fun line => (Write.atPrint line).bytes

/-- The commands that the module executes start with `AT`, in either case. -/
def IsAt (command : Text) : Prop := (command.take 2).map toupper = ascii "AT"

instance (command : Text) : Decidable (IsAt command) := inferInstanceAs (Decidable (_ = _))

theorem feed_responses (lines : List Text) : (feed [] (responses lines)).1 = [] := by
  induction lines with
  | nil => rfl
  | cons line rest ih =>
    have hclosed : (feed [] (Write.atPrint line).bytes).1 = [] := by
      have hbytes : (Write.atPrint line).bytes = crlf ++ line.take (atOutMax - 1) ++ crlf := by
        simp [Write.bytes, Write.calls]
      rw [hbytes]
      exact feed_closed [] _
    rw [responses, List.flatMap_cons, feed_append, hclosed]
    exact ih

theorem upper_cons (c : UInt8) (t : Text) : upper (c :: t) = upperChar c ++ upper t := rfl

set_option maxRecDepth 4000 in
theorem upperChar_of_toupper : ∀ c, (toupper c = 65 → c = 65 ∨ c = 97) ∧
    (toupper c = 84 → c = 84 ∨ c = 116) :=
  forall_char (by decide)

theorem IsAt.cases {command : Text} (h : IsAt command) : ∃ a b rest,
    command = a :: b :: rest ∧ (a = 65 ∨ a = 97) ∧ (b = 84 ∨ b = 116) := by
  cases command with
  | nil => cases h
  | cons a t =>
    cases t with
    | nil => exact absurd (congrArg List.length h) (by simp [ascii])
    | cons b rest =>
      obtain ⟨ha, hb⟩ := List.cons.inj h
      exact ⟨a, b, rest, rfl, (upperChar_of_toupper a).1 ha,
        (upperChar_of_toupper b).2 (List.cons.inj hb).1⟩

theorem IsAt.upper {command : Text} (h : IsAt command) :
    ∃ rest, upper command = 65 :: 84 :: upper rest := by
  obtain ⟨a, b, rest, rfl, ha, hb⟩ := h.cases
  refine ⟨rest, ?_⟩
  rw [upper_cons, upper_cons]
  rcases ha with rfl | rfl
  · rcases hb with rfl | rfl <;> rfl
  · rcases hb with rfl | rfl <;> rfl

/-- A command does not look like a result. -/
theorem IsAt.ne_ok {command : Text} (h : IsAt command) :
    Host.upper command ≠ Host.upper (ascii "OK") := by
  obtain ⟨rest, hrest⟩ := h.upper
  rw [hrest]
  intro hok
  cases hok

/-! ## Lines that matter -/

/-- The code of a line that `_collect` takes for an error. -/
def errorCode (line : Text) : Option ℕ :=
  match parsePrompt line true with
  | some (.error code) => some code
  | _ => none

/-- A line that can change the outcome: it is routed, and if the results `OK` look like the
command's echo, it is an error. -/
def Counts (command : Text) (rxHex : Bool) (line : Text) : Prop :=
  routed command rxHex line = true ∧
    (upper command = upper (ascii "OK") → (errorCode line).isSome = true)

instance (command : Text) (rxHex : Bool) (line : Text) : Decidable (Counts command rxHex line) :=
  inferInstanceAs (Decidable (_ ∧ _))

section

variable {command line : Text} {rxHex : Bool} {pre post inserted lines acc : List Text}

theorem collect_cons (line : Text) (rest acc : List Text) : collect (line :: rest) acc =
    if line = ascii "OK" then .returned acc
    else
      match errorCode line with
      | some code => .raised code
      | none => collect rest (acc ++ [line]) := by
  rw [collect, errorCode]
  split_ifs
  · rfl
  · cases parsePrompt line true with
    | none => rfl
    | some p => cases p <;> rfl

/-- What was collected stands in front of the lines that are returned. -/
theorem collect_mono {ls : List Text} (h : collect lines acc = .returned ls) : acc <+: ls := by
  induction lines generalizing acc with
  | nil => cases h
  | cons line rest ih =>
    rw [collect_cons] at h
    split_ifs at h
    · cases h
      exact List.prefix_rfl
    · cases hcode : errorCode line with
      | some code =>
        rw [hcode] at h
        cases h
      | none =>
        rw [hcode] at h
        exact (List.prefix_append acc [line]).trans (ih h)

/-- Without an `OK`, the first error decides. -/
theorem collect_of_noOk (h : ∀ l ∈ lines, l ≠ ascii "OK") :
    collect lines acc =
      match lines.findSome? errorCode with
      | some code => .raised code
      | none => .waiting := by
  induction lines generalizing acc with
  | nil => rfl
  | cons line rest ih =>
    rw [collect_cons, if_neg (h line List.mem_cons_self), List.findSome?_cons]
    cases errorCode line with
    | some code => rfl
    | none => exact ih fun l hl => h l (List.mem_cons_of_mem _ hl)

/-- Empty lines change nothing. -/
theorem outcomeOf_nil (pre post : List Text) :
    outcomeOf command rxHex (pre ++ [] :: post) = outcomeOf command rxHex (pre ++ post) := by
  simp [outcomeOf, routed]

/-- A result is a line of its own. -/
theorem linesOf_final {final : Text} (h : Final final) :
    linesOf (responses [final]) = [[], final] := by
  have hline : ∃ l : Report.Line, l.write = .atPrint final := by
    rcases h with rfl | ⟨code, rfl⟩
    · exact ⟨.ok, rfl⟩
    · exact ⟨.error code, rfl⟩
  obtain ⟨l, hl⟩ := hline
  have hbytes := bytes_line l
  have hplain := (clean_line l).1.plain
  rw [hl] at hbytes hplain
  rw [linesOf, responses, List.flatMap_cons, List.flatMap_nil, List.append_nil, hbytes,
    feed_frame hplain]
  rfl

/-- An `OK` that looks like the echo is not routed. -/
theorem ne_ok_of_routed (hc : upper command = upper (ascii "OK"))
    (h : routed command rxHex line = true) : line ≠ ascii "OK" := by
  rintro rfl
  simp [routed, hc] at h

/-- When the results `OK` look like the command's echo, the first error decides. -/
theorem outcomeOf_of_echo (hc : upper command = upper (ascii "OK")) (lines : List Text) :
    outcomeOf command rxHex lines =
      match (lines.filter (routed command rxHex)).findSome? errorCode with
      | some code => .raised code
      | none => .waiting := by
  have hno : ∀ l ∈ lines.filter (routed command rxHex), l ≠ ascii "OK" := fun l hl =>
    ne_ok_of_routed hc (List.mem_filter.mp hl).2
  rw [outcomeOf, collect_of_noOk hno]

/-- **Lines that do not count** change no outcome. -/
theorem outcome_insert (h : ∀ line ∈ inserted, ¬Counts command rxHex line) (pre post : List Text) :
    outcomeOf command rxHex (pre ++ inserted ++ post) = outcomeOf command rxHex (pre ++ post) := by
  by_cases hc : upper command = upper (ascii "OK")
  · have hins : (inserted.filter (routed command rxHex)).findSome? errorCode = none := by
      rw [List.findSome?_eq_none_iff]
      intro l hl
      obtain ⟨hmem, hrouted⟩ := List.mem_filter.mp hl
      by_contra hsome
      exact h l hmem ⟨hrouted, fun _ => Option.isSome_iff_ne_none.mpr hsome⟩
    rw [outcomeOf_of_echo hc, outcomeOf_of_echo hc]
    simp only [List.filter_append, List.findSome?_append, hins, Option.or_none]
  · have hins : inserted.filter (routed command rxHex) = [] := by
      rw [List.filter_eq_nil_iff]
      intro l hl hrouted
      exact h l hl ⟨hrouted, fun hok => absurd hok hc⟩
    simp only [outcomeOf, List.filter_append, hins, List.append_nil]

theorem routed_iff : routed command rxHex line = true ↔
    line ≠ [] ∧ upper line ≠ upper command ∧ isResponse (parsePrompt line rxHex) = true := by
  simp [routed, and_assoc]

theorem routed_ok (hc : upper command ≠ upper (ascii "OK")) :
    routed command rxHex (ascii "OK") = true := by
  refine routed_iff.mpr ⟨by decide, Ne.symm hc, ?_⟩
  rw [parse_ok, isResponse]

theorem routed_error {code : UInt8}
    (hc : upper (ascii "ERROR:" ++ hexText 2 code.toNat) ≠ upper command) :
    routed command rxHex (ascii "ERROR:" ++ hexText 2 code.toNat) = true := by
  refine routed_iff.mpr ⟨List.cons_ne_nil _ _, hc, ?_⟩
  rw [parse_error, isResponse]

/-- Some error line is not the command's echo. -/
theorem exists_routed_error (command : Text) (rxHex : Bool) :
    ∃ code : UInt8, routed command rxHex (ascii "ERROR:" ++ hexText 2 code.toNat) = true := by
  have hdiff : upper (ascii "ERROR:" ++ hexText 2 (5 : UInt8).toNat) ≠
      upper (ascii "ERROR:" ++ hexText 2 (6 : UInt8).toNat) := by decide
  by_cases h5 : upper (ascii "ERROR:" ++ hexText 2 (5 : UInt8).toNat) = upper command
  · exact ⟨6, routed_error fun h6 => hdiff (h5.trans h6.symm)⟩
  · exact ⟨5, routed_error h5⟩

/-- **Lines that count** change the outcome of some response. -/
theorem counts_of_insert (h : ∀ final, Final final →
      outcomeOf command rxHex (inserted ++ [final]) = outcomeOf command rxHex [final]) :
    ∀ line ∈ inserted, ¬Counts command rxHex line := by
  intro line hline hcounts
  have hok := h (ascii "OK") (.inl rfl)
  by_cases hc : upper command = upper (ascii "OK")
  · -- No `OK` is routed: the response waits for ever, but for the error.
    have hsome : ((inserted.filter (routed command rxHex)).findSome? errorCode).isSome = true := by
      rw [List.findSome?_isSome_iff]
      exact ⟨line, List.mem_filter.mpr ⟨hline, hcounts.1⟩, hcounts.2 hc⟩
    obtain ⟨code, hcode⟩ := Option.isSome_iff_exists.mp hsome
    have hnone : [ascii "OK"].filter (routed command rxHex) = [] := by
      simp [routed, hc]
    rw [outcomeOf_of_echo hc, outcomeOf_of_echo hc, List.filter_append, List.findSome?_append,
      hcode, hnone] at hok
    cases hok
  · have hmem : line ∈ inserted.filter (routed command rxHex) :=
      List.mem_filter.mpr ⟨hline, hcounts.1⟩
    obtain ⟨r, rest, hr⟩ := List.exists_cons_of_ne_nil (List.ne_nil_of_mem hmem)
    have hbase : [ascii "OK"].filter (routed command rxHex) = [ascii "OK"] := by
      simp [routed_ok hc]
    rw [outcomeOf, outcomeOf, List.filter_append, hr, hbase, List.cons_append, collect_cons,
      collect_cons, if_pos rfl] at hok
    by_cases hrok : r = ascii "OK"
    · -- The inserted `OK` comes before an error.
      obtain ⟨code, hcode⟩ := exists_routed_error command rxHex
      have herr := h _ (.inr ⟨code, rfl⟩)
      have hne : ascii "ERROR:" ++ hexText 2 code.toNat ≠ ascii "OK" := by
        simp [ascii]
      have hparse : errorCode (ascii "ERROR:" ++ hexText 2 code.toNat) = some code.toNat := by
        rw [errorCode, parse_error]
      rw [outcomeOf, outcomeOf, List.filter_append, hr, List.filter_cons, if_pos hcode,
        List.cons_append, collect_cons, if_pos hrok, collect_cons, if_neg hne, hparse] at herr
      cases herr
    · rw [if_neg hrok] at hok
      cases hcode : errorCode r with
      | some code =>
        rw [hcode] at hok
        cases hok
      | none =>
        rw [hcode] at hok
        have hpre := collect_mono hok
        simp at hpre

end

end ZbAt.Host
