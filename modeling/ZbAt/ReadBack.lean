import ZbAt.EndpointProof

/-!
# Writing a register and reading it back (sreg.c, protocol.py)

A value passes the line buffer, the cut at the separator, `normalise`, `at_print` and `LineReader`.
On its line in the response it stands for itself, and the host takes every line for what it looks
like.

* `answer` — a command over the UART: the module after it, and the lines that the host reads.
* `sregSet`, `sregGet` — with a password, and with the lines behind the response.
* `ReadsBack` — `sreg_get` returns this text, and the next command gets its own response.
* `Shown` — the texts that look like nothing but a value.
* `reads_back` — what was written is read back exactly when it is shown; every register but `S0B`
  holds only such texts.
-/

namespace ZbAt.ReadBack

open Text Uart Sreg Xcast Host Endpoint

/-! ## The commands -/

/-- `at_cmd_thread`, for one line after the other: the module after them, and the lines printed. -/
def run (dyn : ℕ → Text) : List Text → Module → Option (Module × List Text)
  | [], m => some (m, [])
  | line :: rest, m =>
    (serve dyn line m).bind fun (m, printed) =>
      (run dyn rest m).map fun (m, more) => (m, printed ++ more)

/-- The host writes `command + "\r"`: the module after it, and the lines of `LineReader`. -/
def answer (dyn : ℕ → Text) (command : Text) (m : Module) : Option (Module × List Text) :=
  (run dyn (typed ⟨[], false⟩ (sent command)).2 m).map fun (m', printed) =>
    (m', linesOf ((if m.store.echo then sent command else []) ++ responses printed))

/-- `_collect` takes this line and returns, or raises an error. -/
def ends (command line : Text) : Bool :=
  routed command true line && (line == ascii "OK" || (errorCode line).isSome)

/-- The lines behind the one that ended `_collect`. -/
def restOf (command : Text) (lines : List Text) : List Text :=
  (lines.dropWhile fun line => !ends command line).tail

/-- `f":{password}" if password else ""` -/
def passwordPart : Option Text → Text
  | none | some [] => []
  | some (c :: pw) => ascii ":" ++ c :: pw

/-- `f"ATS{reg:02X}={value}" + …` -/
def setCommand (reg : ℕ) (value : Text) (password : Option Text) : Text :=
  writeCommand reg (value ++ passwordPart password)

/-- `sreg_set`: the module after it, or nothing when it raises an error. -/
def sregSet (dyn : ℕ → Text) (reg : ℕ) (value : Text) (password : Option Text) (m : Module) :
    Option Module :=
  (answer dyn (setCommand reg value password) m).bind fun (m, lines) =>
    match outcomeOf (setCommand reg value password) true lines with
    | .returned _ => some m
    | _ => none

/-- What `sreg_get` leaves. -/
structure Got where
  value : Text
  module : Module
  /-- The lines behind the response: each of them is drained, or gets to the next command. -/
  rest : List Text

/-- `sreg_get` -/
def sregGet (dyn : ℕ → Text) (reg : ℕ) (m : Module) : Option Got :=
  (answer dyn (readCommand reg) m).bind fun (m, lines) =>
    match outcomeOf (readCommand reg) true lines with
    | .returned collected =>
      let values := collected.filter fun line => (parsePrompt line true).isNone
      some ⟨values.getLast?.getD [], m, restOf (readCommand reg) lines⟩
    | _ => none

/-- However many of the lines in `rest` come late, no command notices them. -/
def NothingLeft (rest : List Text) : Prop :=
  ∀ next late own, late <:+ rest → outcomeOf next true (late ++ own) = outcomeOf next true own

/-- `sreg_get` returns `u`, changes nothing, and leaves nothing to the next command. -/
def ReadsBack (dyn : ℕ → Text) (reg : ℕ) (u : Text) (m : Module) : Prop :=
  ∃ got, sregGet dyn reg m = some got ∧ got.value = u ∧ got.module = m ∧ NothingLeft got.rest

/-- The text is no prompt and no echo of the command that reads it, and no `>` stands in front of
it that `LineReader` would cut off. -/
structure Shown (reg : ℕ) (u : Text) : Prop where
  parse : parsePrompt u true = none
  echo : upper u ≠ upper (readCommand reg)
  prompt : u.head? = some 0x3E → u = ascii ">"

/-- The line buffer keeps the value and the password, and no separator cuts the value. -/
structure Whole (value : Text) (password : Option Text) : Prop where
  typeable : Typeable (value ++ passwordPart password)
  colon : 58 ∉ value
  semicolon : passwordPart password = [] → 59 ∉ value

/-! ## Lines of a response -/

section

variable {command t u : Text} {lines acc ls : List Text}

/-- What is collected came as lines, and an `OK` came. -/
theorem collect_returned (h : collect lines acc = .returned ls) :
    ascii "OK" ∈ lines ∧ ∀ l ∈ ls, l ∈ acc ∨ l ∈ lines := by
  induction lines generalizing acc with
  | nil => cases h
  | cons line rest ih =>
    rw [collect_cons] at h
    by_cases hok : line = ascii "OK"
    · rw [if_pos hok] at h
      cases h
      exact ⟨hok ▸ List.mem_cons_self, fun l hl => .inl hl⟩
    · rw [if_neg hok] at h
      cases hcode : errorCode line with
      | some code =>
        rw [hcode] at h
        cases h
      | none =>
        rw [hcode] at h
        obtain ⟨hmem, hsub⟩ := ih h
        refine ⟨List.mem_cons_of_mem _ hmem, fun l hl => ?_⟩
        rcases hsub l hl with hl | hl
        · rcases List.mem_append.mp hl with hl | hl
          · exact .inl hl
          · exact .inr (List.mem_singleton.mp hl ▸ List.mem_cons_self)
        · exact .inr (List.mem_cons_of_mem _ hl)

/-- The echo, or the empty line without it, stands in front of what is printed. -/
theorem linesOf_echoed (h : Plain command) (echo : Bool) (data : List UInt8) :
    linesOf ((if echo then sent command else []) ++ (crlf ++ data)) =
      (if echo then command else []) :: linesOf data := by
  have hfirst : linesOf ((if echo then sent command else []) ++ crlf) =
      [if echo then command else []] := by
    cases echo with
    | false => rfl
    | true => exact linesOf_echo h
  rw [← List.append_assoc, linesOf_append (feed_closed [] _), hfirst]
  rfl

/-- Without a line printed, the echo is no line yet. -/
theorem linesOf_open (h : Plain command) (echo : Bool) :
    linesOf ((if echo then sent command else []) ++ responses []) = [] := by
  cases echo with
  | false => rfl
  | true =>
    show linesOf (command ++ [0x0D] ++ []) = []
    rw [List.append_nil, linesOf, feed_append, feed_plain h]
    rfl

/-- Only `>` itself is a line that starts with `>`. -/
theorem head_of_mem_feed {buf line : Text} {data : List UInt8} (hbuf : buf.head? ≠ some 0x3E)
    (h : line ∈ (feed buf data).2) (hline : line.head? = some 0x3E) : line = ascii ">" := by
  induction data generalizing buf with
  | nil => cases h
  | cons b data ih =>
    have hbyte : (∀ l ∈ (feedByte buf b).2, l.head? = some 0x3E → l = ascii ">") ∧
        (feedByte buf b).1.head? ≠ some 0x3E := by
      unfold feedByte
      split_ifs with hlf hcr hgt
      · simp [hbuf]
      · simp [hbuf]
      · exact ⟨fun l hl _ => List.mem_singleton.mp hl, by decide⟩
      · refine ⟨List.forall_mem_nil _, ?_⟩
        cases buf with
        | nil => simpa using hgt
        | cons c buf => exact hbuf
    simp only [feed, List.mem_append] at h
    rcases h with h | h
    · exact hbyte.1 line h hline
    · exact ih hbyte.2 h

end

/-! ## Commands over the UART -/

section

variable {dyn : ℕ → Text} {command : Text} {m m' : Module} {r : Reg} {code : ℕ} {v : Vals}

/-- A command is executed as one line, unless it does not fit. -/
theorem answer_line (h : Typeable command) (hne : command ≠ []) :
    answer dyn command m =
      (serve dyn (if command.length < atLineMax then command else lineOverflow) m).map
        fun (m', printed) =>
          (m', linesOf ((if m.store.echo then sent command else []) ++ responses printed)) := by
  rw [answer, typed_line h hne]
  dsimp only
  rw [run]
  cases serve dyn (if command.length < atLineMax then command else lineOverflow) m with
  | none => rfl
  | some o => simp [run]

/-- An error stands on its line as it is, or cut to the length of a line. -/
theorem plain_error (code : ℕ) :
    Plain ((ascii "ERROR:" ++ hexText 2 code).take (atOutMax - 1)) := by
  have hclean := clean_hexText 2 code
  have hwhole : Plain (ascii "ERROR:" ++ hexText 2 code) := by
    refine ⟨fun hm => ?_, fun hm => ?_, ?_⟩
    · rcases List.mem_append.mp hm with hm | hm
      · revert hm
        decide
      · exact (hclean _ hm).1 rfl
    · rcases List.mem_append.mp hm with hm | hm
      · revert hm
        decide
      · exact (hclean _ hm).2.1 rfl
    · show (some 69 : Option UInt8) ≠ some 0x3E
      decide
  exact hwhole.part (List.take_prefix _ _)

/-- The host gets an `OK` only if the command succeeded and `S0E` does not hide it. -/
theorem ok_of_mem (hplain : Plain command) (hat : IsAt command) (echo : Bool)
    (h : ascii "OK" ∈ linesOf ((if echo then sent command else []) ++
      responses (printResult code v))) : code = atOk ∧ sregBit 0x0E 1 v = false := by
  by_cases hok : code = atOk ∧ sregBit 0x0E 1 v = false
  · exact hok
  have hnot : ¬(code = atOk ∧ (!sregBit 0x0E 1 v) = true) := by simpa using hok
  rw [printResult, if_neg hnot] at h
  by_cases herr : code > 0 ∧ (!sregBit 0x0E 0 v) = true
  · have hbytes : responses [ascii "ERROR:" ++ hexText 2 code] =
        crlf ++ ((ascii "ERROR:" ++ hexText 2 code).take (atOutMax - 1) ++ crlf) := by
      rw [responses, List.flatMap_cons, List.flatMap_nil, List.append_nil, bytes_atPrint_crlf,
        List.append_assoc]
    have hline : linesOf ((ascii "ERROR:" ++ hexText 2 code).take (atOutMax - 1) ++ crlf) =
        [(ascii "ERROR:" ++ hexText 2 code).take (atOutMax - 1)] := by
      rw [linesOf, feed_append, feed_plain (plain_error code), feed_crlf]
      rfl
    rw [if_pos herr, hbytes, linesOf_echoed hplain, hline] at h
    rcases List.mem_pair.mp h with h | h
    · cases echo with
      | false => cases h
      | true => exact absurd (congrArg upper h.symm) hat.ne_ok
    · have hhead : (69 : UInt8) = 79 := (List.cons.inj h.symm).1
      exact absurd hhead (by decide)
  · rw [if_neg herr, linesOf_open hplain] at h
    cases h

end

/-! ## Writing -/

section

variable {dyn : ℕ → Text} {r : Reg} {value : Text} {password : Option Text} {m m' : Module}

/-- The separator is the one in front of the password. -/
theorem Whole.split (h : Whole value password) :
    (splitPassword (value ++ passwordPart password)).1 = value := by
  have hplain : passwordPart password = [] →
      (splitPassword (value ++ passwordPart password)).1 = value := by
    intro hnil
    rw [hnil, List.append_nil, splitPassword_whole h.colon (h.semicolon hnil)]
  cases password with
  | none => exact hplain rfl
  | some pw =>
    cases pw with
    | nil => exact hplain rfl
    | cons c pw =>
      obtain ⟨htake, hcut⟩ := takeWhile_cut h.colon (c :: pw)
      show (splitPassword (value ++ 58 :: c :: pw)).1 = value
      rw [splitPassword, hcut, htake]

/-- A write prints no line. -/
theorem writeReg_printed (r : Reg) (bit : Option ℕ) (rest : Text) (s : Store) :
    (writeReg r bit rest s).printed = [] := by
  have hstore : ∀ t, (storeReg r t s).printed = [] := by
    intro t
    rw [storeReg]
    cases normalise r.info t <;> rfl
  rcases writeReg_unchecked r bit rest s with ⟨err, -, hrefuse⟩ | hgo
  · rw [hrefuse]
    rfl
  · rw [hgo]
    cases bit with
    | none => exact hstore _
    | some bit =>
      rw [writeUnchecked]
      cases bitText r bit (splitPassword rest).1 s.val with
      | none => rfl
      | some t => exact hstore t

/-- A write that succeeds stores the canonical form of the text in front of the separator. -/
theorem writeReg_stored {rest : Text} {s : Store}
    (h : (writeReg r none rest s).result = atOk) :
    ∃ u, normalise r.info (splitPassword rest).1 = .ok u ∧
      (writeReg r none rest s).store.val = Function.update s.val r u := by
  rcases writeReg_unchecked r none rest s with ⟨err, hne, hrefuse⟩ | hgo
  · rw [hrefuse] at h
    exact absurd h hne
  · rw [hgo] at h ⊢
    rcases storeReg_cases r (splitPassword rest).1 s with ⟨err, hne, hrefuse⟩ | ⟨u, hu, hst⟩
    · have hresult : (storeReg r (splitPassword rest).1 s).result = atOk := h
      rw [hrefuse] at hresult
      exact absurd hresult hne
    · exact ⟨u, hu, hst.val⟩

/-- The command arrives as it is written, and does not look like an `OK`. -/
theorem Whole.command (h : Whole value password) (reg : ℕ) :
    Typeable (setCommand reg value password) ∧ Plain (setCommand reg value password) ∧
      IsAt (setCommand reg value password) := by
  have htail : Typeable (ascii "=" ++ (value ++ passwordPart password)) :=
    typeable_append.mpr ⟨by decide, h.typeable⟩
  refine ⟨typeable_append.mpr ⟨by decide, typeable_append.mpr ⟨typeable_hexText _ _, htail⟩⟩, ?_⟩
  exact plain_command reg (fun hm => (htail _ hm).2.2.2.1 rfl) fun hm => (htail _ hm).2.2.1 rfl

/-- The module writes to the register. -/
theorem serve_set (h : Whole value password) (r : Reg) (m : Module) :
    serve dyn (setCommand r.info.id value password) m =
      some ({ m with store := (writeReg r none (value ++ passwordPart password) m.store).store },
        printResult (writeReg r none (value ++ passwordPart password) m.store).result
          (writeReg r none (value ++ passwordPart password) m.store).store.val) := by
  obtain ⟨a, b, hab, hdigits, ha, hb⟩ := exists_digits r
  have hline : setCommand r.info.id value password =
      ascii "ATS" ++ (a :: b :: 61 :: (value ++ passwordPart password)) := by
    rw [setCommand, writeCommand, hab]
    rfl
  have hnul : 0 ∉ 61 :: (value ++ passwordPart password) :=
    List.not_mem_cons_of_ne_of_not_mem (by decide) fun hm => (h.typeable _ hm).1 rfl
  have hdispatch : dispatch (ascii "ATS" ++ (a :: b :: 61 :: (value ++ passwordPart password))) =
      .sregAtCommand (a :: b :: 61 :: (value ++ passwordPart password)) := dispatch_ats ha
  rw [hline, serve, hdispatch]
  dsimp only
  rw [cstr_digits ha hb hnul, sregAtCommand_write (.whole hdigits (find_id r)), writeReg_printed]
  rfl

/-- A call that returns got the `OK` of the line that was executed. -/
theorem ok_of_set {line : Text} {m₁ : Module} {code : ℕ} (h : Whole value password)
    (hset : sregSet dyn r.info.id value password m = some m')
    (hline : line = if (setCommand r.info.id value password).length < atLineMax
      then setCommand r.info.id value password else lineOverflow)
    (hserve : serve dyn line m = some (m₁, printResult code m₁.store.val)) :
    m' = m₁ ∧ code = atOk ∧ okHidden m₁ = false := by
  obtain ⟨htyped, hplain, hat⟩ := h.command r.info.id
  rw [sregSet, answer_line htyped (List.cons_ne_nil _ _), ← hline, hserve] at hset
  dsimp only [Option.map_some, Option.bind_some] at hset
  cases hout : outcomeOf (setCommand r.info.id value password) true
      (linesOf ((if m.store.echo then sent (setCommand r.info.id value password) else []) ++
        responses (printResult code m₁.store.val))) with
  | raised c =>
    rw [hout] at hset
    cases hset
  | waiting =>
    rw [hout] at hset
    cases hset
  | returned ls =>
    rw [hout] at hset
    have hmem := (List.mem_filter.mp (collect_returned hout).1).1
    exact ⟨(Option.some.inj hset).symm, ok_of_mem hplain hat m.store.echo hmem⟩

/-- **Writing.** A call that returns has stored the canonical form of the whole value. -/
theorem stored_of_set (h : Whole value password)
    (hset : sregSet dyn r.info.id value password m = some m') :
    ∃ u, normalise r.info value = .ok u ∧ m'.store.val = Function.update m.store.val r u ∧
      okHidden m' = false := by
  by_cases hlen : (setCommand r.info.id value password).length < atLineMax
  · have hserve := @serve_set dyn value password h r m
    obtain ⟨rfl, hok, hhidden⟩ := ok_of_set h hset (if_pos hlen).symm hserve
    obtain ⟨u, hu, hval⟩ := writeReg_stored hok
    rw [h.split] at hu
    exact ⟨u, hu, hval, hhidden⟩
  · have hserve : serve dyn lineOverflow m =
        some (m, printResult atErrMsgTooLong m.store.val) := rfl
    obtain ⟨-, hok, -⟩ := ok_of_set h hset (if_neg hlen).symm hserve
    cases hok

end

/-! ## Reading -/

section

variable {dyn : ℕ → Text} {r : Reg} {u : Text} {m : Module} {reg : ℕ} {got : Got}

/-- **What comes back.** Whatever `sreg_get` returns is shown. -/
theorem shown_of_get (hget : sregGet dyn reg m = some got) : Shown reg got.value := by
  obtain ⟨⟨m', lines⟩, hanswer, hcollected⟩ := Option.bind_eq_some_iff.mp hget
  obtain ⟨⟨m₁, printed⟩, -, hdata⟩ := Option.map_eq_some_iff.mp hanswer
  obtain ⟨-, hlines⟩ := Prod.mk.inj hdata
  dsimp only at hcollected
  cases hout : outcomeOf (readCommand reg) true lines with
  | raised c =>
    rw [hout] at hcollected
    cases hcollected
  | waiting =>
    rw [hout] at hcollected
    cases hcollected
  | returned collected =>
    rw [hout] at hcollected
    obtain rfl := Option.some.inj hcollected
    dsimp only
    cases hlast : (collected.filter fun line => (parsePrompt line true).isNone).getLast? with
    | none =>
      have hnil : ListText [] := List.forall_mem_nil _
      exact ⟨hnil.parse true, hnil.not_echo (isAt_append _), fun h => by cases h⟩
    | some u =>
      obtain ⟨hmem, hparse⟩ := List.mem_filter.mp (List.mem_of_getLast? hlast)
      have hfrom : u ∈ lines.filter (routed (readCommand reg) true) :=
        ((collect_returned hout).2 u hmem).resolve_left List.not_mem_nil
      obtain ⟨hline, hrouted⟩ := List.mem_filter.mp hfrom
      refine ⟨Option.isNone_iff_eq_none.mp hparse, (routed_iff.mp hrouted).2.1, fun hhead => ?_⟩
      rw [← hlines] at hline
      exact head_of_mem_feed (by decide) hline hhead

/-- The response to the command that reads a register. -/
theorem answer_read (hdyn : r.info.type ≠ .dyn) (hwo : r.info.has .wo = false)
    (hlen : (m.store.val r).length < atOutMax) (hshow : okHidden m = false) :
    answer dyn (readCommand r.info.id) m =
      some (m, (if m.store.echo then readCommand r.info.id else []) ::
        (linesOf (m.store.val r ++ crlf) ++ [[]]) ++ [ascii "OK"]) := by
  obtain ⟨a, b, hab, -⟩ := exists_digits r
  have hfits : (readCommand r.info.id).length < atLineMax := by
    have hsix : 6 < atLineMax := by decide
    rw [readCommand, hab]
    exact hsix
  have htyped : Typeable (readCommand r.info.id) :=
    typeable_append.mpr ⟨by decide, typeable_append.mpr ⟨typeable_hexText _ _, by decide⟩⟩
  have hplain : Plain (readCommand r.info.id) :=
    (plain_command r.info.id (by decide) (by decide)).1
  have hbytes : responses [m.store.val r, ascii "OK"] =
      crlf ++ ((m.store.val r ++ crlf) ++ responses [ascii "OK"]) := by
    rw [responses, List.flatMap_cons, bytes_atPrint_crlf, List.take_of_length_le (by omega)]
    simp only [List.append_assoc]
    rfl
  rw [answer_line htyped (List.cons_ne_nil _ _), if_pos hfits, serve_shown dyn hdyn hwo,
    printResult_ok, hshow, if_neg Bool.false_ne_true, Option.map_some]
  dsimp only
  rw [hbytes, linesOf_echoed hplain, linesOf_append (feed_closed [] _),
    linesOf_final (.inl rfl), List.cons_append, List.append_assoc]
  rfl

/-- On its line a shown text stands for itself. -/
theorem Shown.lines (h : Shown reg u) (hcr : 0x0D ∉ u) (hlf : 0x0A ∉ u) :
    ∃ blank : List Text, linesOf (u ++ crlf) = u :: blank ∧ ∀ l ∈ blank, l = [] := by
  by_cases hhead : u.head? = some 0x3E
  · obtain rfl := h.prompt hhead
    exact ⟨[[]], rfl, by simp⟩
  · have hplain : Plain u := ⟨hcr, hlf, hhead⟩
    refine ⟨[], ?_, List.forall_mem_nil _⟩
    rw [linesOf, feed_append, feed_plain hplain, feed_crlf]
    rfl

/-- The host hands on the text, unless it is empty, and does not take it for the end. -/
theorem Shown.collected (h : Shown reg u) :
    [u].filter (routed (readCommand reg) true) = (if u = [] then [] else [u]) ∧
      errorCode u = none ∧ u ≠ ascii "OK" := by
  refine ⟨?_, ?_, ?_⟩
  · by_cases hnil : u = []
    · rw [if_pos hnil, hnil]
      rfl
    · have hrouted : routed (readCommand reg) true u = true :=
        routed_iff.mpr ⟨hnil, h.echo, by rw [h.parse, isResponse]⟩
      rw [if_neg hnil, List.filter_cons_of_pos hrouted, List.filter_nil]
  · rw [errorCode, h.parse]
  · intro hok
    have hparse := h.parse
    rw [hok, parse_ok] at hparse
    cases hparse

theorem routed_nil (command : Text) : routed command true [] = false := by simp [routed]

/-- A line that is not handed on, the text, and empty lines in front of the `OK`. -/
theorem Shown.response (h : Shown reg u) {first : Text} {blank : List Text}
    (hfirst : routed (readCommand reg) true first = false) (hblank : ∀ l ∈ blank, l = []) :
    outcomeOf (readCommand reg) true (first :: u :: blank ++ [ascii "OK"]) =
        .returned (if u = [] then [] else [u]) ∧
      restOf (readCommand reg) (first :: u :: blank ++ [ascii "OK"]) = [] := by
  obtain ⟨hfilter, hcode, hne⟩ := h.collected
  have hat : IsAt (readCommand reg) := isAt_append _
  have hok : routed (readCommand reg) true (ascii "OK") = true := routed_ok hat.ne_ok
  have hskip : ∀ l ∈ blank, routed (readCommand reg) true l = false := fun l hl =>
    hblank l hl ▸ routed_nil _
  constructor
  · have hempty : blank.filter (routed (readCommand reg) true) = [] :=
      List.filter_eq_nil_iff.mpr fun l hl => by simp [hskip l hl]
    have hvalue : (u :: blank).filter (routed (readCommand reg) true) =
        if u = [] then [] else [u] := by
      rw [← List.singleton_append, List.filter_append, hfilter, hempty, List.append_nil]
    rw [outcomeOf, List.filter_append, List.filter_cons_of_neg (by simp [hfirst]), hvalue,
      List.filter_cons_of_pos hok, List.filter_nil]
    by_cases hnil : u = []
    · simp [hnil, collect_cons]
    · simp [hnil, collect_cons, hcode, hne]
  · have hgo : ∀ l ∈ first :: u :: blank, (!ends (readCommand reg) l) = true := by
      intro l hl
      rcases List.mem_cons.mp hl with rfl | hl
      · simp [ends, hfirst]
      · rcases List.mem_cons.mp hl with rfl | hl
        · simp [ends, hcode, hne]
        · simp [ends, hskip l hl]
    rw [restOf, List.dropWhile_append_of_pos hgo]
    simp [ends, hok]

/-- **Reading.** A shown text is returned, and nothing is left behind the response. -/
theorem sregGet_shown (hdyn : r.info.type ≠ .dyn) (hwo : r.info.has .wo = false)
    (hlen : (m.store.val r).length < atOutMax) (hshow : okHidden m = false)
    (h : Shown r.info.id (m.store.val r)) (hcr : 0x0D ∉ m.store.val r)
    (hlf : 0x0A ∉ m.store.val r) :
    sregGet dyn r.info.id m = some ⟨m.store.val r, m, []⟩ := by
  obtain ⟨blank, hlines, hblank⟩ := h.lines hcr hlf
  have hfirst : routed (readCommand r.info.id) true
      (if m.store.echo then readCommand r.info.id else []) = false := by
    cases m.store.echo with
    | false => exact routed_nil _
    | true => simp [routed]
  have hblanks : ∀ l ∈ blank ++ [[]], l = [] :=
    List.forall_mem_append.mpr ⟨hblank, List.forall_mem_singleton.mpr rfl⟩
  obtain ⟨hout, hrest⟩ := h.response hfirst hblanks
  have hanswer := @answer_read dyn r m hdyn hwo hlen hshow
  rw [hlines] at hanswer
  rw [sregGet, hanswer, Option.bind_some]
  dsimp only [List.cons_append] at hout hrest ⊢
  rw [hout, hrest]
  by_cases hnil : m.store.val r = []
  · simp [hnil]
  · simp [hnil, h.parse]

end

/-! ## Canonical texts -/

section

variable {r : Reg} {t u value : Text} {password : Option Text} {reg : ℕ}

/-- A text of hex digits, commas and minus signs. -/
def ValueText (t : Text) : Prop := ∀ c ∈ t, isxdigit c = true ∨ c = 44 ∨ c = 45

theorem ValueText.lacks (h : ValueText t) {x : UInt8}
    (hx : ¬(isxdigit x = true ∨ x = 44 ∨ x = 45)) : x ∉ t := fun hm => hx (h x hm)

theorem valueText_of_list (h : ListText t) : ValueText t := fun c hc => (h c hc).imp_right .inl

set_option maxRecDepth 4000 in
theorem upperChar_value : ∀ c : UInt8, isxdigit c = true ∨ c = 44 ∨ c = 45 → 84 ∉ upperChar c :=
  forall_char (by decide)

/-- Such a text looks like nothing but a value. -/
theorem ValueText.shown (h : ValueText t) (reg : ℕ) : Shown reg t where
  parse := by
    have hneeds : ∀ q ∈ simplePrompts, ∃ x ∈ q.1.needs,
        ¬(isxdigit x = true ∨ x = 44 ∨ x = 45) := by decide
    refine parse_of_needs (fun q hq => ?_) (h.lacks (by decide)) (h.lacks (by decide)) true
    obtain ⟨x, hx, hbad⟩ := hneeds q hq
    exact ⟨x, hx, h.lacks hbad⟩
  echo := not_echo_of (fun c hc => upperChar_value c (h c hc)) (isAt_append _)
  prompt hhead := absurd (List.mem_of_mem_head? hhead) (h.lacks (by decide))

theorem valueText_decText (d : ℤ) : ValueText (decText d) := by
  have hdigits : ValueText (decDigits 2 d.natAbs) := fun c hc =>
    .inl (isxdigit_of_isdigit (decDigits_all 2 d.natAbs c hc))
  rw [decText]
  split_ifs
  · exact List.forall_mem_cons.mpr ⟨.inr (.inr rfl), hdigits⟩
  · exact hdigits

/-- Only `S0B` and the password hold free texts. -/
theorem free_text : ∀ r : Reg, r.info.type = .str → r.info.id = 0x0B ∨ r.info.has .wo = true := by
  decide

/-- What a register holds is a free text, as it was given, or a text of digits. -/
theorem canonical_cases (h : normalise r.info t = .ok u) :
    r.info.type = .str ∧ u = t ∨ ValueText u := by
  obtain ⟨x, hd, rfl, -⟩ := normalise_idem h
  cases hd with
  | @num n => exact .inr (valueText_of_list (listText_hexText _ n))
  | @int d => exact .inr (valueText_decText d)
  | @bytes bs => exact .inr fun c hc => .inl ((hexBytes_eq_some (hexBytes_bytesText bs)).1 c hc)
  | text hr => exact .inl ⟨hr, rfl⟩
  | @ids l => exact .inr (valueText_of_list (listText_idsText l))

/-- A canonical text fits on a line. -/
theorem canonical_fits (h : normalise r.info t = .ok u) : u.length < atOutMax := by
  have hmax : ∀ r : Reg, r.info.maxLen < valMax := by decide
  obtain ⟨x, hd, rfl, -⟩ := normalise_idem h
  have hlen := hd.length_encode (hmax r)
  have hline : valMax < atOutMax := by decide
  omega

/-- A canonical text has no line end, if the value has none. -/
theorem Whole.clean (h : Whole value password) (hu : normalise r.info value = .ok u) :
    0x0D ∉ u ∧ 0x0A ∉ u := by
  rcases canonical_cases hu with ⟨-, rfl⟩ | hvalue
  · have htyped := (typeable_append.mp h.typeable).1
    exact ⟨fun hm => (htyped _ hm).2.2.2.1 rfl, fun hm => (htyped _ hm).2.2.1 rfl⟩
  · exact ⟨hvalue.lacks (by decide), hvalue.lacks (by decide)⟩

end

/-! ## The result -/

section

variable {dyn : ℕ → Text} {r : Reg} {value : Text} {password : Option Text} {m m' : Module}

/-- **Reading back.** After a call of `sreg_set` that returns, the register holds the canonical
form of the whole value. `sreg_get` returns it, with nothing left behind, exactly when it looks
like nothing but a value; in every register but `S0B` it always does. -/
theorem reads_back (hwo : r.info.has .wo = false) (h : Whole value password)
    (hset : sregSet dyn r.info.id value password m = some m') :
    ∃ u, normalise r.info value = .ok u ∧ m'.store.val r = u ∧
      (ReadsBack dyn r.info.id u m' ↔ Shown r.info.id u) ∧
      (r.info.id ≠ 0x0B → Shown r.info.id u) := by
  obtain ⟨u, hu, hval, hshow⟩ := stored_of_set h hset
  have hholds : m'.store.val r = u := by
    rw [hval, Function.update_self]
  have hdyn : r.info.type ≠ .dyn := by
    intro hdyn
    rw [normalise_dyn hdyn] at hu
    cases hu
  refine ⟨u, hu, hholds, ⟨fun hback => ?_, fun hshown => ?_⟩, fun hid => ?_⟩
  · obtain ⟨got, hget, rfl, -⟩ := hback
    exact shown_of_get hget
  · obtain ⟨hcr, hlf⟩ := h.clean hu
    have hlen := canonical_fits hu
    rw [← hholds] at hshown hcr hlf hlen
    refine ⟨_, sregGet_shown hdyn hwo hlen hshow hshown hcr hlf, hholds, rfl, ?_⟩
    intro next late own hlate
    rw [List.suffix_nil.mp hlate]
    rfl
  · rcases canonical_cases hu with ⟨hstr, -⟩ | hvalue
    · rcases free_text r hstr with h0B | hw
      · exact absurd h0B hid
      · rw [hwo] at hw
        cases hw
    · exact hvalue.shown _

end

/-! ## Names that are not read back -/

/-- `S0B` -/
def nameReg : Reg := ⟨9, by decide⟩

/-- After a call of `sreg_set` that returns, `sreg_get` returns the canonical form of the value. -/
def Restored (dyn : ℕ → Text) (r : Reg) (value : Text) (password : Option Text) (m : Module) :
    Prop :=
  ∀ m', sregSet dyn r.info.id value password m = some m' →
    ∃ u, normalise r.info value = .ok u ∧ m'.store.val r = u ∧ ReadsBack dyn r.info.id u m'

/-- The name is written to a module with the factory settings, and read. -/
def rename (value : Text) : Option Got :=
  (sregSet (fun _ => []) 0x0B value none (boot [])).bind (sregGet (fun _ => []) 0x0B)

/-- A name that comes back as something else. -/
theorem not_restored {value t : Text} (hname : normalise nameReg.info value = .ok value)
    (hget : (rename value).map Got.value = some t) (hne : t ≠ value) :
    ¬Restored (fun _ => []) nameReg value none (boot []) := by
  intro h
  obtain ⟨got, hrename, rfl⟩ := Option.map_eq_some_iff.mp hget
  obtain ⟨m', hset, hgot⟩ := Option.bind_eq_some_iff.mp hrename
  obtain ⟨u, hu, -, got', hget', hvalue, -⟩ := h m' hset
  have heq : got = got' := Option.some.inj (hgot.symm.trans hget')
  have htext : value = u := Except.ok.inj (hname.symm.trans hu)
  exact hne (heq ▸ hvalue.trans htext.symm)

/-- The host takes a name for the result, and leaves the result to the next command; a separator
or a backspace cuts a name. -/
theorem not_reads_back :
    (boot []).store.echo = true ∧ nameReg.info.has .ro = false ∧ nameReg.info.has .wo = false ∧
      ¬Restored (fun _ => []) nameReg (ascii "OK") none (boot []) ∧
      (rename (ascii "OK")).map (fun got => (got.value, got.rest)) =
        some ([], [[], ascii "OK"]) ∧
      ¬Restored (fun _ => []) nameReg (ascii "a:b") none (boot []) ∧
      ¬Restored (fun _ => []) nameReg (ascii "a;b") none (boot []) ∧
      ¬Restored (fun _ => []) nameReg [97, 8, 98] none (boot []) := by
  have hok : (rename (ascii "OK")).map Got.value = some [] := by decide
  have hcolon : (rename (ascii "a:b")).map Got.value = some (ascii "a") := by decide
  have hsemicolon : (rename (ascii "a;b")).map Got.value = some (ascii "a") := by decide
  have hback : (rename [97, 8, 98]).map Got.value = some (ascii "b") := by decide
  exact ⟨by decide, by decide, by decide, not_restored rfl hok (by decide), by decide,
    not_restored rfl hcolon (by decide), not_restored rfl hsemicolon (by decide),
    not_restored rfl hback (by decide)⟩

theorem reads_back_name :
    ∃ m', sregSet (fun _ => []) 0x0B (ascii "Lamp;1") (some (ascii "x")) (boot []) = some m' ∧
      m'.store.val nameReg = ascii "Lamp;1" ∧
      ReadsBack (fun _ => []) 0x0B (ascii "Lamp;1") m' := by
  have hret : (sregSet (fun _ => []) 0x0B (ascii "Lamp;1") (some (ascii "x")) (boot [])).isSome =
      true := by decide
  obtain ⟨m', hset⟩ := Option.isSome_iff_exists.mp hret
  have hwhole : Whole (ascii "Lamp;1") (some (ascii "x")) := by
    refine ⟨?_, ?_, ?_⟩ <;> decide
  have hshown : Shown 0x0B (ascii "Lamp;1") := by
    refine ⟨?_, ?_, ?_⟩ <;> decide
  obtain ⟨u, hu, hholds, hback, -⟩ := reads_back (r := nameReg) (by decide) hwhole hset
  have htext : ascii "Lamp;1" = u := Except.ok.inj hu
  subst htext
  exact ⟨m', hset, hholds, hback.mpr hshown⟩

end ZbAt.ReadBack
