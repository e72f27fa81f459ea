import ZbAt.Etrx

/-!
# Prompts between the echo and the responses

The module echoes a command in as many writes as it arrives in, and then prints the response
lines. Prompts are whole writes of other threads, between any two of these.

* `Async` — the prompts that can be printed at any time, in the form in which the host leaves them
  to the listeners: text payloads without line ends, RX in hex.
* `Outside` — no prompt stands inside the echoed command.
* `echo_outcome` — prompts change no outcome of a command exactly when they stand outside the
  echo of its text.
-/

namespace ZbAt.Host

open Text Uart Report

/-! ## Prompts at any time -/

/-- The lines that are printed at any time, and are no response. -/
def isAsync : Line → Bool
  | .ok | .error _ | .seq _ | .jpan .. => false
  | .ack _ | .nack _ | .leftPan | .newnode .. | .nodeleft .. | .announce .. | .matchDesc ..
  | .rx .. => true

/-- A payload of a text that has no line end. -/
abbrev TextPayload := { p : List UInt8 // p.length ≤ 255 ∧ 0x0D ∉ p ∧ 0x0A ∉ p }

inductive Async
  | line (l : { l : Line // isAsync l = true })
  | text (broadcast : Bool) (ieee : Option Ieee) (ind : Ind) (payload : TextPayload) (on : Bool)

def Async.write : Async → Write
  | .line l => l.1.write
  | .text broadcast ieee ind payload on => printText (textKind broadcast) ieee ind payload.1 on

/-- A prompt is printed on a line of its own, and is no response. -/
theorem Async.line_of (a : Async) : ∃ t, a.write.bytes = crlf ++ t ++ crlf ∧ Plain t ∧
    isResponse (parsePrompt t true) = false := by
  cases a with
  | line l =>
    obtain ⟨l, hl⟩ := l
    refine ⟨printed l.write, bytes_line l, (clean_line l).1.plain, ?_⟩
    rw [parse_line]
    cases l <;> first | rfl | cases hl
  | text broadcast ieee ind payload on =>
    obtain ⟨p, hlen, hcr, hlf⟩ := payload
    refine ⟨_, bytes_printText _ ieee ind p on,
      plain_text broadcast ieee ind on (Nat.lt_succ_of_le hlen) hcr hlf, ?_⟩
    rw [parse_text broadcast ieee ind on true (Nat.lt_succ_of_le hlen)]
    rfl

/-! ## Streams with prompts -/

/-- Writes of one kind, with prompts between them. -/
abbrev Mixed (α : Type) := List (Async ⊕ α)

/-- What is written besides the prompts. -/
def own {α : Type} (ws : Mixed α) : List α := ws.filterMap Sum.getRight?

/-- The bytes of the writes. -/
def mixedBytes {α : Type} (f : α → Write) (ws : Mixed α) : List UInt8 :=
  ws.flatMap fun w => (w.elim Async.write f).bytes

/-- The echo of a command and its response lines, with prompts among them. -/
def session (echo : Mixed (List UInt8)) (lines : Mixed Text) : List UInt8 :=
  mixedBytes .echo echo ++ mixedBytes .atPrint lines

/-- No prompt stands inside the echo of the command, of which `t` was echoed before. -/
def Outside (command : Text) : Text → Mixed (List UInt8) → Prop
  | _, [] => True
  | t, .inl _ :: ws => (t = [] ∨ command <+: t) ∧ Outside command t ws
  | t, .inr chunk :: ws => Outside command (t ++ chunk) ws

section

variable {command t buf : Text} {rxHex : Bool} {echo : Mixed (List UInt8)} {lines : Mixed Text}

/-- A write that is no echo starts with a line end. -/
theorem bytes_atPrint_crlf (line : Text) :
    (Write.atPrint line).bytes = crlf ++ line.take (atOutMax - 1) ++ crlf := by
  simp [Write.bytes, Write.calls]

theorem mixedBytes_crlf (h : own lines ≠ []) :
    ∃ rest, mixedBytes .atPrint lines = crlf ++ rest := by
  cases lines with
  | nil => exact absurd rfl h
  | cons w ws =>
    rw [mixedBytes, List.flatMap_cons]
    cases w with
    | inl a =>
      obtain ⟨text, htext, -⟩ := a.line_of
      refine ⟨text ++ crlf ++ mixedBytes .atPrint ws, ?_⟩
      rw [Sum.elim_inl, htext]
      simp only [List.append_assoc]
      rfl
    | inr line =>
      refine ⟨line.take (atOutMax - 1) ++ crlf ++ mixedBytes .atPrint ws, ?_⟩
      rw [Sum.elim_inr, bytes_atPrint_crlf]
      simp only [List.append_assoc]
      rfl

/-- Among the response lines, prompts are not noticed. -/
theorem routed_mixed (command : Text) (lines : Mixed Text) :
    (linesOf (mixedBytes .atPrint lines)).filter (routed command true) =
      (linesOf (responses (own lines))).filter (routed command true) := by
  induction lines with
  | nil => rfl
  | cons w ws ih =>
    cases w with
    | inl a =>
      obtain ⟨text, htext, hplain, hresp⟩ := a.line_of
      have hclosed : (feed [] a.write.bytes).1 = [] := by
        rw [htext]
        exact feed_closed [] _
      have hlines : (linesOf a.write.bytes).filter (routed command true) = [] := by
        rw [linesOf, htext, feed_frame hplain, List.filter_eq_nil_iff]
        intro l hl hrouted
        obtain ⟨hne, -, hr⟩ := routed_iff.mp hrouted
        rcases List.mem_pair.mp hl with rfl | rfl
        · exact hne rfl
        · rw [hresp] at hr
          cases hr
      rw [mixedBytes, List.flatMap_cons, Sum.elim_inl, linesOf_append hclosed, List.filter_append,
        hlines]
      exact ih
    | inr line =>
      have hclosed : (feed [] (Write.atPrint line).bytes).1 = [] := by
        rw [bytes_atPrint_crlf]
        exact feed_closed [] _
      have hown : own (Sum.inr line :: ws) = line :: own ws := rfl
      rw [mixedBytes, List.flatMap_cons, Sum.elim_inr, linesOf_append hclosed, hown, responses,
        List.flatMap_cons, linesOf_append hclosed, List.filter_append, List.filter_append]
      exact congrArg _ ih

/-- The first response line ends the line of the echo, whatever it is. -/
theorem outcome_session (command : Text) (data : List UInt8) (h : own lines ≠ []) :
    outcome command true (data ++ mixedBytes .atPrint lines) =
      outcomeOf command true (linesOf (data ++ crlf) ++ linesOf (responses (own lines))) := by
  obtain ⟨rest, hrest⟩ := mixedBytes_crlf h
  have hmixed := routed_mixed command lines
  have hlines : linesOf (mixedBytes .atPrint lines) = [] :: linesOf rest := by
    rw [hrest, linesOf, feed_append, feed_crlf]
    rfl
  have hsplit : linesOf (data ++ mixedBytes .atPrint lines) =
      linesOf (data ++ crlf) ++ linesOf rest := by
    rw [hrest, ← List.append_assoc, linesOf_append (feed_closed [] data)]
  rw [outcome, hsplit, ← outcomeOf_nil, ← hlines, outcomeOf, outcomeOf, List.filter_append,
    List.filter_append, hmixed]

/-- An echo in one piece is not noticed. -/
theorem linesOf_echo (h : Plain command) : linesOf (command ++ [0x0D] ++ crlf) = [command] := by
  rw [linesOf, feed_append, feed_append, feed_plain h]
  have hcr : feed command [0x0D] = (command, []) := rfl
  rw [hcr, feed_crlf]
  rfl

theorem not_counts_echo : ¬Counts command rxHex command := fun h => (routed_iff.mp h.1).2.1 rfl

theorem not_counts_nil : ¬Counts command rxHex [] := fun h => (routed_iff.mp h.1).1 rfl

/-- A command whose echo nothing interrupts gets its response. -/
theorem outcome_echo (hplain : Plain command) {lines : List Text} (hne : lines ≠ []) :
    outcome command true (command ++ [0x0D] ++ responses lines) =
      outcomeOf command true (linesOf (responses lines)) := by
  have hown : own (lines.map Sum.inr : Mixed Text) = lines := by
    simp [own, List.filterMap_map, Function.comp_def]
  have hbytes : mixedBytes .atPrint (lines.map Sum.inr : Mixed Text) = responses lines := by
    simp [mixedBytes, responses, List.flatMap_map]
  have hne' : own (lines.map Sum.inr : Mixed Text) ≠ [] := by rwa [hown]
  have hsession := outcome_session command (command ++ [0x0D]) hne'
  rw [hbytes, hown, linesOf_echo hplain] at hsession
  have hcount : ∀ line ∈ [command], ¬Counts command true line := by
    simpa using not_counts_echo
  have hinsert := outcome_insert hcount [] (linesOf (responses lines))
  exact hsession.trans hinsert

/-! ## Echoes of commands of the module -/

/-- No prompt starts like a part of such a command. -/
theorem parse_part (hat : IsAt command) (ht : t ≠ []) (hpre : t <+: command) :
    parsePrompt t rxHex = none := by
  obtain ⟨a, b, rest, rfl, ha, hb⟩ := hat.cases
  have hno : (∀ q ∈ simplePrompts, Fails q.1 t) ∧ Fails Host.textHead t ∧
      (ascii "RX:").isPrefixOf t = false := by
    obtain ⟨x, t, rfl⟩ := List.exists_cons_of_ne_nil ht
    obtain ⟨hx, htail⟩ := List.cons_prefix_cons.mp hpre
    subst hx
    cases t with
    | nil =>
      have hone : (∀ q ∈ simplePrompts, ∀ h ∈ q.1.heads, ¬h <+: [x]) ∧
          (∀ h ∈ Host.textHead.heads, ¬h <+: [x]) ∧ (ascii "RX:").isPrefixOf [x] = false := by
        rcases ha with rfl | rfl
        · decide
        · decide
      exact ⟨fun q hq => fails_of_no_head (hone.1 q hq), fails_of_no_head hone.2.1, hone.2.2⟩
    | cons y t =>
      obtain ⟨hy, -⟩ := List.cons_prefix_cons.mp htail
      subst hy
      have htwo : (∀ q ∈ simplePrompts, ∀ h ∈ q.1.heads, Apart h [x, y]) ∧
          (∀ h ∈ Host.textHead.heads, Apart h [x, y]) ∧ (82 == x) = false := by
        rcases ha with rfl | rfl
        · rcases hb with rfl | rfl
          · decide
          · decide
        · rcases hb with rfl | rfl
          · decide
          · decide
      refine ⟨fun q hq => fails_of_heads (htwo.1 q hq) t, fails_of_heads htwo.2.1 t, ?_⟩
      change ((82 == x) && _) = false
      rw [htwo.2.2, Bool.false_and]
  have hsimple : simplePrompts.findSome? (fun q => (q.1.first t).map fun m => q.2 m.1) = none := by
    rw [List.findSome?_eq_none_iff]
    intro q hq
    rw [(hno.1 q hq).first]
    rfl
  rw [parsePrompt, hsimple]
  dsimp only
  rw [hno.2.2, if_neg (by decide), parseText, hno.2.1.first]
  rfl

theorem upper_ne_nil (ht : t ≠ []) : upper t ≠ [] := by
  obtain ⟨c, t, rfl⟩ := List.exists_cons_of_ne_nil ht
  have hc : upperChar c ≠ [] := by
    unfold upperChar
    split_ifs <;> exact List.cons_ne_nil _ _
  rw [upper_cons]
  exact fun h => hc (List.append_eq_nil_iff.mp h).1

/-- A part of the command's text counts. -/
theorem counts_part (hat : IsAt command) (ht : t ≠ []) (hpre : t <+: command)
    (hne : ¬command <+: t) : Counts command rxHex t := by
  have hupper : upper t ≠ upper command := by
    obtain ⟨s, hs⟩ := hpre
    have hs_ne : s ≠ [] := by
      rintro rfl
      rw [List.append_nil] at hs
      exact hne (hs ▸ List.prefix_rfl)
    have happend : upper command = upper t ++ upper s := by
      rw [← hs, upper, List.flatMap_append]
      rfl
    rw [happend]
    intro h
    exact upper_ne_nil hs_ne (List.self_eq_append_right.mp h)
  refine ⟨routed_iff.mpr ⟨ht, hupper, ?_⟩, fun hok => absurd hok hat.ne_ok⟩
  rw [parse_part hat ht hpre, isResponse]

/-- What the host has in its buffer when `t` was echoed and no prompt stood inside the text. -/
def Seen (command t buf : Text) : Prop :=
  t <+: command ∧ buf = t ∨ command <+: t ∧ (buf = command ∨ buf = [])

theorem Plain.part (hplain : Plain command) (h : t <+: command) : Plain t := by
  refine ⟨fun hm => hplain.cr (h.subset hm), fun hm => hplain.lf (h.subset hm), fun hp => ?_⟩
  obtain ⟨s, rfl⟩ := h
  apply hplain.prompt
  rw [List.head?_append, hp]
  rfl

theorem Seen.chunk (hplain : Plain command) {chunk : List UInt8} (h : Seen command t buf)
    (hpre : t ++ chunk <+: command ++ [0x0D]) :
    ∃ buf', feed buf chunk = (buf', []) ∧ Seen command (t ++ chunk) buf' := by
  rcases h with ⟨ht, rfl⟩ | ⟨ht, hbuf⟩
  · have hfeed := feed_append [] buf chunk
    rw [feed_plain (hplain.part ht)] at hfeed
    rcases List.prefix_concat_iff.mp hpre with hall | hpart
    · have hwhole : feed [] (buf ++ chunk) = (command, []) := by
        rw [hall, feed_append, feed_plain hplain]
        rfl
      refine ⟨command, ?_, .inr ⟨hall ▸ List.prefix_append _ _, .inl rfl⟩⟩
      rw [hwhole] at hfeed
      exact Prod.ext (congrArg Prod.fst hfeed).symm (congrArg Prod.snd hfeed).symm
    · refine ⟨buf ++ chunk, ?_, .inl ⟨hpart, rfl⟩⟩
      rw [feed_plain (hplain.part hpart)] at hfeed
      exact Prod.ext (congrArg Prod.fst hfeed).symm (congrArg Prod.snd hfeed).symm
  · refine ⟨buf, ?_, .inr ⟨ht.trans (List.prefix_append _ _), hbuf⟩⟩
    obtain ⟨s, rfl⟩ := ht
    rw [List.append_assoc, List.prefix_append_right_inj] at hpre
    have hchunk := (List.sublist_append_right s chunk).trans hpre.sublist
    rcases List.sublist_cons_iff.mp hchunk with h | ⟨rest, rfl, h⟩
    · rw [List.sublist_nil.mp h]
      rfl
    · rw [List.sublist_nil.mp h]
      rfl

/-- The buffer counts while it holds a part of the text. -/
theorem Seen.not_counts_iff (hat : IsAt command) (h : Seen command t buf) :
    ¬Counts command rxHex buf ↔ t = [] ∨ command <+: t := by
  by_cases hout : t = [] ∨ command <+: t
  · refine iff_of_true ?_ hout
    rcases h with ⟨ht, rfl⟩ | ⟨-, rfl | rfl⟩
    · rcases hout with rfl | hall
      · exact not_counts_nil
      · rw [ht.eq_of_length_le hall.length_le]
        exact not_counts_echo
    · exact not_counts_echo
    · exact not_counts_nil
  · refine iff_of_false (fun hno => hno ?_) hout
    rw [not_or] at hout
    rcases h with ⟨ht, rfl⟩ | ⟨ht, -⟩
    · exact counts_part hat hout.1 ht hout.2
    · exact absurd ht hout.2

/-- A prompt outside the text leaves an empty buffer. -/
theorem seen_nil (hout : t = [] ∨ command <+: t) : Seen command t [] := by
  rcases hout with rfl | ht
  · exact .inl ⟨ List.nil_prefix, rfl⟩
  · exact .inr ⟨ht, .inr rfl⟩

/-- A prompt makes a line of what is in the buffer. -/
theorem counts_async (a : Async) (ws : Mixed (List UInt8)) :
    (∀ line ∈ (feed buf (mixedBytes .echo (.inl a :: ws) ++ crlf)).2, ¬Counts command true line) ↔
      ¬Counts command true buf ∧
        ∀ line ∈ (feed [] (mixedBytes .echo ws ++ crlf)).2, ¬Counts command true line := by
  obtain ⟨text, htext, htplain, hresp⟩ := a.line_of
  have hprompt : ¬Counts command true text := by
    intro hcounts
    have hr := (routed_iff.mp hcounts.1).2.2
    rw [hresp] at hr
    cases hr
  have hfeed : (feed buf (mixedBytes .echo (.inl a :: ws) ++ crlf)).2 =
      [buf, text] ++ (feed [] (mixedBytes .echo ws ++ crlf)).2 := by
    rw [mixedBytes, List.flatMap_cons, Sum.elim_inl, htext, List.append_assoc, feed_append,
      feed_frame htplain]
    rfl
  rw [hfeed]
  simp [hprompt]

theorem counts_outside (hat : IsAt command) (hplain : Plain command) (h : Seen command t buf)
    (hecho : t ++ (own echo).flatten = command ++ [0x0D]) :
    (∀ line ∈ (feed buf (mixedBytes .echo echo ++ crlf)).2, ¬Counts command true line) ↔
      Outside command t echo := by
  induction echo generalizing t buf with
  | nil =>
    have hnil : own ([] : Mixed (List UInt8)) = [] := rfl
    rw [hnil, List.flatten_nil, List.append_nil] at hecho
    have hall : command <+: t := hecho ▸ List.prefix_append _ _
    have hbuf : ¬Counts command true buf := (h.not_counts_iff hat).mpr (.inr hall)
    have hfeed : feed buf (mixedBytes .echo [] ++ crlf) = ([], [buf]) := feed_crlf buf
    rw [hfeed]
    simpa [Outside] using hbuf
  | cons w ws ih =>
    cases w with
    | inl a =>
      rw [counts_async, Outside, h.not_counts_iff hat]
      exact and_congr_right fun hout => ih (seen_nil hout) hecho
    | inr chunk =>
      have hown : own (Sum.inr chunk :: ws : Mixed (List UInt8)) = chunk :: own ws := rfl
      rw [hown, List.flatten_cons, ← List.append_assoc] at hecho
      obtain ⟨buf', hfeed, hseen⟩ := h.chunk hplain (hecho ▸ List.prefix_append _ _)
      have hrest := ih hseen hecho
      rw [Outside, ← hrest, mixedBytes, List.flatMap_cons, Sum.elim_inr]
      have hbytes : (Write.echo chunk).bytes = chunk := by simp [Write.bytes, Write.calls]
      rw [hbytes, List.append_assoc, feed_append, hfeed]
      rfl

end

/-- **Prompts among the echo.** -/
theorem echo_outcome {command : Text} (hplain : Plain command) {echo : Mixed (List UInt8)}
    (hecho : (own echo).flatten = command ++ [0x0D]) :
    ((∀ (lines : Mixed Text) body final, own lines = body ++ [final] → Final final →
        outcome command true (session echo lines) =
          outcome command true (command ++ [0x0D] ++ responses (own lines))) ↔
      ∀ line ∈ linesOf (mixedBytes .echo echo ++ crlf), ¬Counts command true line) ∧
    (IsAt command →
      ((∀ line ∈ linesOf (mixedBytes .echo echo ++ crlf), ¬Counts command true line) ↔
        Outside command [] echo)) := by
  have hbase : ∀ lines : List Text, lines ≠ [] →
      outcome command true (command ++ [0x0D] ++ responses lines) =
        outcomeOf command true (linesOf (responses lines)) := fun _ => outcome_echo hplain
  refine ⟨⟨fun h => ?_, fun h lines body final hown _ => ?_⟩, fun hat => ?_⟩
  · apply counts_of_insert
    intro final hfinal
    have hline := h [.inr final] [] final rfl hfinal
    have hone : own ([.inr final] : Mixed Text) = [final] := rfl
    rw [session, outcome_session _ _ (by rw [hone]; simp), hbase _ (by rw [hone]; simp), hone,
      linesOf_final hfinal, outcomeOf_nil] at hline
    rw [hline]
    exact outcomeOf_nil [] [final]
  · have hne : own lines ≠ [] := by
      rw [hown]
      simp
    rw [session, outcome_session _ _ hne, hbase _ hne]
    exact outcome_insert h [] _
  · exact counts_outside hat hplain (seen_nil (.inl rfl)) hecho

/-! ## An echo cut in two -/

/-- A node acknowledges a message while `ATS00?` is typed. -/
def cutEcho : Mixed (List UInt8) :=
  [.inr (ascii "ATS0"), .inl (.line ⟨.ack 7, rfl⟩), .inr (ascii "0?\r")]

theorem echo_outcome_register :
    outcome (ascii "ATS00?") true (session
        [.inr (ascii "ATS0"), .inr (ascii "0?"), .inl (.line ⟨.ack 7, rfl⟩), .inr [0x0D]]
        [.inr (ascii "FFFF"), .inl (.line ⟨.nack 8, rfl⟩), .inr (ascii "OK")]) =
      outcome (ascii "ATS00?") true
        (ascii "ATS00?" ++ [0x0D] ++ responses [ascii "FFFF", ascii "OK"]) := by
  have hplain : Plain (ascii "ATS00?") := ⟨by decide, by decide, by decide⟩
  have hecho : (own [.inr (ascii "ATS0"), .inr (ascii "0?"), .inl (.line ⟨.ack 7, rfl⟩),
      .inr [0x0D]]).flatten = ascii "ATS00?" ++ [0x0D] := by decide
  have h := echo_outcome hplain hecho
  have hout : ∀ line ∈ linesOf (mixedBytes .echo _ ++ crlf), ¬Counts (ascii "ATS00?") true line :=
    (h.2 (by decide)).mpr ⟨.inr (by decide), trivial⟩
  exact h.1.mpr hout _ [ascii "FFFF"] (ascii "OK") rfl (.inl rfl)

/-- The two parts of the echo are returned as lines of the response. -/
theorem cutEcho_returned :
    outcome (ascii "ATS00?") true (session cutEcho [.inr (ascii "FFFF"), .inr (ascii "OK")]) =
      .returned [ascii "ATS0", ascii "0?", ascii "FFFF"] ∧
    outcome (ascii "ATS00?") true
      (ascii "ATS00?" ++ [0x0D] ++ responses [ascii "FFFF", ascii "OK"]) =
      .returned [ascii "FFFF"] := by decide

theorem not_echo_outcome :
    outcome (ascii "ATS00?") true (session cutEcho [.inr (ascii "FFFF"), .inr (ascii "OK")]) ≠
      outcome (ascii "ATS00?") true
        (ascii "ATS00?" ++ [0x0D] ++ responses [ascii "FFFF", ascii "OK"]) := by
  rw [cutEcho_returned.1, cutEcho_returned.2]
  decide

end ZbAt.Host
