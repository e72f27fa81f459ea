import ZbAt.LineReader
import ZbAt.PromptsProof

/-!
# From the firmware's prints to the host's prompts

The bytes of a print reach the host cut into chunks anyhow. The host splits them into lines and
parses each line that is not empty.

* `printed_line` — a structured line is printed whole between two line ends, and none of its
  characters is a line end or a `>`.
* `lines_parsed` — every sequence of structured lines is read back.
* `text_parsed` — a text is read back exactly when its payload has no CR and no LF.
-/

namespace ZbAt.Host

open Text Uart Report

/-! ## Structured lines -/

/-- No line ends, and no `>`. -/
def Clean (t : Text) : Prop := ∀ c ∈ t, c ≠ 0x0D ∧ c ≠ 0x0A ∧ c ≠ 0x3E

instance (t : Text) : Decidable (Clean t) := List.decidableBAll _ t

section

variable {s t : Text}

@[simp] theorem clean_append : Clean (s ++ t) ↔ Clean s ∧ Clean t := List.forall_mem_append

theorem Clean.plain (h : Clean t) : Plain t := by
  refine ⟨fun hm => (h _ hm).1 rfl, fun hm => (h _ hm).2.1 rfl, fun hp => ?_⟩
  exact (h _ (List.mem_of_mem_head? hp)).2.2 rfl

set_option maxRecDepth 4000 in
theorem clean_of_upperHex : ∀ c, upperHex c = true → c ≠ 0x0D ∧ c ≠ 0x0A ∧ c ≠ 0x3E :=
  forall_char (by decide)

theorem clean_hexText (w n : ℕ) : Clean (hexText w n) := fun c hc =>
  clean_of_upperHex c (upperHex_hexText w n c hc)

theorem clean_natText (n : ℕ) : Clean (natText n) := by
  intro c hc
  have hdigit := decDigits_all 1 n c hc
  apply clean_of_upperHex
  unfold isdigit at hdigit
  simp [upperHex, hdigit]

theorem clean_intText (v : ℤ) : Clean (intText v) := by
  unfold intText
  split_ifs
  · exact List.forall_mem_cons.mpr ⟨by decide, clean_natText _⟩
  · exact clean_natText _

theorem clean_bytesText (bs : List UInt8) : Clean (bytesText bs) := by
  intro c hc
  obtain ⟨b, -, hb⟩ := List.mem_flatMap.mp hc
  exact clean_hexText 2 b.toNat c hb

theorem clean_atHexRev (a : Ieee) : Clean (atHexRev a.1) := clean_bytesText a.1.reverse

theorem clean_epsText (eps : List UInt8) : Clean (epsText eps) := by
  intro c hc
  obtain ⟨ep, -, hep⟩ := List.mem_flatMap.mp hc
  rcases List.mem_cons.mp hep with rfl | hep
  · decide
  · exact clean_hexText 2 ep.toNat c hep

theorem clean_euiPart (ieee : Option Ieee) : Clean (euiPart ieee) := by
  cases ieee with
  | none => exact fun c hc => by cases hc
  | some a => exact clean_append.mpr ⟨clean_atHexRev a, by decide⟩

theorem clean_tailText (on : Bool) (ind : Ind) : Clean (tailText on ind) := by
  cases on with
  | false => exact fun c hc => by cases hc
  | true =>
    refine clean_append.mpr ⟨by decide, clean_append.mpr ⟨clean_intText _, ?_⟩⟩
    exact clean_append.mpr ⟨by decide, clean_natText _⟩

end

/-- A structured line has no line end and no `>`, and is not empty. -/
theorem clean_line (l : Line) : Clean (printed l.write) ∧ printed l.write ≠ [] := by
  cases l with
  | ok | leftPan => exact ⟨by decide, by decide⟩
  | error n | seq n | ack n | nack n =>
    exact ⟨clean_append.mpr ⟨by decide, clean_hexText 2 _⟩, List.cons_ne_nil _ _⟩
  | jpan channel pan epid =>
    refine ⟨?_, List.cons_ne_nil _ _⟩
    simp only [printed, Line.write, clean_append, clean_natText, clean_hexText, clean_atHexRev,
      and_true]
    decide
  | newnode shortAddr ieee =>
    refine ⟨?_, List.cons_ne_nil _ _⟩
    simp only [printed, Line.write, clean_append, clean_hexText, clean_atHexRev, and_true]
    decide
  | nodeleft shortAddr ieee =>
    refine ⟨?_, List.cons_ne_nil _ _⟩
    simp only [printed, Line.write, clean_append, clean_hexText, clean_atHexRev, and_true]
    decide
  | announce capability ieee shortAddr =>
    have hkind : Clean (announceKind capability) ∧ announceKind capability ≠ [] := by
      rcases announceKind_cases capability with h | h | h
      · rw [h]
        decide
      · rw [h]
        decide
      · rw [h]
        decide
    simp only [printed, Line.write, clean_append, clean_hexText, clean_atHexRev, hkind.1, and_true,
      true_and]
    refine ⟨by decide, ?_⟩
    simp [hkind.2]
  | matchDesc srcAddr status eps =>
    simp only [printed, Line.write, matchLine_eq, clean_append, clean_hexText, clean_epsText,
      and_true]
    exact ⟨by decide, List.cons_ne_nil _ _⟩
  | rx ieee ind payload on =>
    have hlen : (payload.take rxShowMax).length < 256 := by
      rw [List.length_take, rxShowMax]
      omega
    have hdata := clean_bytesText (payload.take rxShowMax)
    unfold bytesText at hdata
    simp only [printed, Line.write, printRx, Option.getD_some, rxHead_eq ieee ind hlen, tailPart_eq,
      if_true, rxFields, clean_append, clean_hexText, clean_euiPart, clean_tailText, hdata,
      and_true, true_and]
    exact ⟨by decide, List.cons_ne_nil _ _⟩

theorem bytes_atPrint {line : Text} (h : line.length ≤ 255) :
    (Write.atPrint line).bytes = crlf ++ printed (.atPrint line) ++ crlf := by
  have hfit : line.length ≤ atOutMax - 1 := h
  rw [Write.bytes, Write.calls, List.take_of_length_le hfit]
  simp [printed]

theorem bytes_atPrintParts (head body tail : Text) :
    (Write.atPrintParts (some head) (some body) (some tail)).bytes =
      crlf ++ (head ++ body ++ tail) ++ crlf := by
  simp [Write.bytes, Write.calls]

/-- Nothing of a structured line is cut off. -/
theorem bytes_line (l : Line) : l.write.bytes = crlf ++ printed l.write ++ crlf := by
  cases l with
  | ok | leftPan => exact bytes_atPrint (by decide)
  | error n | seq n | ack n | nack n =>
    apply bytes_atPrint
    rw [List.length_append, length_hexByte]
    decide
  | jpan channel pan epid =>
    apply bytes_atPrint
    have hch : (natText channel.toNat).length ≤ 3 :=
      length_natText_le (Nat.lt_of_lt_of_le channel.toNat_lt (by decide))
    have hwords : (ascii "JPAN:").length = 5 ∧ (ascii ",").length = 1 := ⟨rfl, rfl⟩
    simp only [List.length_append, length_hexWord, length_atHexRev, hwords]
    omega
  | newnode shortAddr ieee =>
    apply bytes_atPrint
    simp only [List.length_append, length_hexWord, length_atHexRev]
    decide
  | nodeleft shortAddr ieee =>
    apply bytes_atPrint
    simp only [List.length_append, length_hexWord, length_atHexRev]
    decide
  | announce capability ieee shortAddr =>
    apply bytes_atPrint
    have hkind : (announceKind capability).length = 3 := by
      rcases announceKind_cases capability with h | h | h
      · rw [h]
        rfl
      · rw [h]
        rfl
      · rw [h]
        rfl
    simp only [List.length_append, length_hexWord, length_atHexRev, hkind]
    decide
  | matchDesc srcAddr status eps =>
    apply bytes_atPrint
    have hwords : (ascii "MatchDesc:").length = 10 ∧ (ascii ",").length = 1 := ⟨rfl, rfl⟩
    have heps := length_epsText (if status = zdpSuccess then eps.take 31 else [])
    have hmax : (if status = zdpSuccess then eps.take 31 else []).length ≤ 31 := by
      split_ifs
      · exact List.length_take_le 31 eps
      · exact Nat.zero_le 31
    simp only [matchLine_eq, List.length_append, length_hexByte, length_hexWord, hwords, heps]
    omega
  | rx ieee ind payload on => exact bytes_atPrintParts _ _ _

/-- **Structured lines.** However the stream is cut into chunks, the host reads the prompts that
were printed. -/
theorem lines_parsed (lines : List Line) {chunks : List (List UInt8)}
    (h : chunks.flatten = lines.flatMap fun l => l.write.bytes) :
    ((feedChunks [] chunks).2.filter (· ≠ [])).map (parsePrompt · true) =
      lines.map fun l => some (prompt l) := by
  rw [feed_flatten, h]
  clear h
  induction lines with
  | nil => rfl
  | cons l lines ih =>
    obtain ⟨hclean, hne⟩ := clean_line l
    rw [List.flatMap_cons, bytes_line, feed_append, feed_frame hclean.plain]
    have hlines : (([[], printed l.write] : List Text).filter (· ≠ [])) = [printed l.write] := by
      simp [hne]
    rw [List.filter_append, hlines, List.map_append, ih, List.map_singleton, parse_line]
    rfl

theorem lines_parsed_seq : ((feedChunks [] [ascii "\r\nSEQ:0", ascii "5\r\n\r\nOK\r",
    [0x0A]]).2.filter (· ≠ [])).map (parsePrompt · true) = [some (.seq 5), some .ok] :=
  lines_parsed [.seq 5, .ok] (by decide)

/-! ## Texts -/

section

variable {line data : Text} {kind : Text} {eui : Option Text} {rssi lqi : Option ℤ} {rxHex : Bool}

/-- No structured line is a text. -/
theorem simple_ne_text
    (h : simplePrompts.findSome? (fun q => (q.1.first line).map fun m => q.2 m.1) =
    some (.text kind eui data rssi lqi)) : False := by
  obtain ⟨q, hq, hm⟩ := List.exists_of_findSome?_eq_some h
  obtain ⟨m, -, hbuild⟩ := Option.map_eq_some_iff.mp hm
  have hall : ∀ q ∈ simplePrompts, ∀ m kind eui data rssi lqi,
      q.2 m ≠ .text kind eui data rssi lqi := by
    simp [simplePrompts]
  exact hall q hq _ _ _ _ _ _ hbuild

theorem parseRx_ne_text (h : parseRx line rxHex = some (.text kind eui data rssi lqi)) : False := by
  unfold parseRx at h
  simp only [Option.bind_eq_bind, Option.bind_eq_some_iff, Option.pure_def] at h
  obtain ⟨m, -, h⟩ := h
  split_ifs at h
  all_goals
    obtain ⟨tail, -, h⟩ := Option.bind_eq_some_iff.mp h
    obtain ⟨payload, -, h⟩ := Option.bind_eq_some_iff.mp h
    cases h

/-- The data of a text stands in its line. -/
theorem mem_of_parse_text (h : parsePrompt line rxHex = some (.text kind eui data rssi lqi)) :
    ∀ c ∈ data, c ∈ line := by
  unfold parsePrompt at h
  split at h
  · rename_i prompt hsimple
    cases h
    exact (simple_ne_text hsimple).elim
  · split_ifs at h
    · exact (parseRx_ne_text h).elim
    · unfold parseText at h
      simp only [Option.bind_eq_bind, Option.bind_eq_some_iff, Option.pure_def] at h
      obtain ⟨m, hm, h⟩ := h
      split_ifs at h
      obtain ⟨tail, -, h⟩ := Option.bind_eq_some_iff.mp h
      cases h
      intro c hc
      exact (first_suffix hm).subset (List.mem_of_mem_take hc)

end

theorem bytes_printText (kind : Text) (ieee : Option Ieee) (ind : Ind) (payload : List UInt8)
    (on : Bool) : (printText kind ieee ind payload on).bytes =
      crlf ++ (Report.textHead kind ieee payload.length ++ payload ++ tailPart on ind) ++ crlf :=
  bytes_atPrintParts _ _ _

theorem head_text (broadcast : Bool) (ieee : Option Ieee) {len : ℕ} (hlen : len < 256) (t : Text) :
    ∃ c s, c ≠ 0x3E ∧ Report.textHead (textKind broadcast) ieee len ++ t = c :: s := by
  rw [textHead_eq broadcast ieee hlen]
  cases broadcast with
  | false => exact ⟨85, _, by decide, rfl⟩
  | true => exact ⟨66, _, by decide, rfl⟩

theorem clean_textHead (broadcast : Bool) (ieee : Option Ieee) {len : ℕ} (hlen : len < 256) :
    Clean (Report.textHead (textKind broadcast) ieee len) := by
  have hkind : Clean (textKind broadcast) := by cases broadcast <;> decide
  simp only [textHead_eq broadcast ieee hlen, clean_append, clean_euiPart, clean_hexText, hkind,
    and_true, true_and]
  decide

/-- A text without line ends stands on a line of its own. -/
theorem plain_text (broadcast : Bool) (ieee : Option Ieee) (ind : Ind) {payload : List UInt8}
    (on : Bool) (hlen : payload.length < 256) (hcr : 0x0D ∉ payload) (hlf : 0x0A ∉ payload) :
    Plain (Report.textHead (textKind broadcast) ieee payload.length ++ payload ++
      tailPart on ind) := by
  have hhead := clean_textHead broadcast ieee hlen
  have htail : Clean (tailPart on ind) := tailPart_eq on ind ▸ clean_tailText on ind
  refine ⟨?_, ?_, ?_⟩
  · simp [hhead.plain.cr, hcr, htail.plain.cr]
  · simp [hhead.plain.lf, hlf, htail.plain.lf]
  · obtain ⟨c, s, hc, hs⟩ := head_text broadcast ieee hlen (payload ++ tailPart on ind)
    rw [List.append_assoc, hs]
    simpa using hc

/-- **Texts.** A text is read back exactly when its payload has no line end. -/
theorem text_parsed (broadcast : Bool) (ieee : Option Ieee) (ind : Ind) {payload : List UInt8}
    (on rxHex : Bool) (hlen : payload.length ≤ 255) :
    (∀ chunks : List (List UInt8),
      chunks.flatten = (printText (textKind broadcast) ieee ind payload on).bytes →
        ∃ line, (feedChunks [] chunks).2.filter (· ≠ []) = [line] ∧
          parsePrompt line rxHex = some (textPrompt broadcast ieee ind payload on)) ↔
      0x0D ∉ payload ∧ 0x0A ∉ payload := by
  constructor
  · intro h
    obtain ⟨line, hline, hparse⟩ := h [_] (List.flatten_singleton)
    have hmem : line ∈ (feedChunks [] _).2 :=
      List.mem_of_mem_filter (hline ▸ List.mem_singleton_self _)
    rw [feed_flatten] at hmem
    obtain ⟨hlf, hcr⟩ := mem_feed ⟨List.not_mem_nil, List.not_mem_nil⟩ hmem
    have hsub := mem_of_parse_text hparse
    exact ⟨fun hm => hcr (hsub _ hm), fun hm => hlf (hsub _ hm)⟩
  · rintro ⟨hcr, hlf⟩ chunks hchunks
    have hplain := plain_text broadcast ieee ind on (Nat.lt_succ_of_le hlen) hcr hlf
    have hparse := parse_text broadcast ieee ind on rxHex (Nat.lt_succ_of_le hlen)
    obtain ⟨c, s, -, hs⟩ := head_text broadcast ieee (Nat.lt_succ_of_le hlen)
      (payload ++ tailPart on ind)
    refine ⟨_, ?_, hparse⟩
    rw [feed_flatten, hchunks, bytes_printText, feed_frame hplain, List.append_assoc, hs]
    rfl

/-- A text of two lines, as it is sent by another node. -/
def twoLines : List UInt8 := ascii "a\nOK"

def sampleInd : Ind := ⟨0x3F21, 0xC091, 0x0002, 1, 1, -40, 200⟩

theorem text_parsed_hello :
    ∃ line, (feedChunks [] [ascii "\r", ascii "\nUCAST:08=hello", ascii ", =,-40,200\r\n"]).2.filter
        (· ≠ []) = [line] ∧
      parsePrompt line true = some (textPrompt false none sampleInd (ascii "hello, =") true) :=
  (text_parsed false none sampleInd true true (by decide)).mpr ⟨by decide, by decide⟩ _ (by decide)

/-- The host reads two lines. -/
theorem twoLines_split : (feedChunks []
    [(printText (textKind false) none sampleInd twoLines false).bytes]).2.filter (· ≠ []) =
      [ascii "UCAST:04=a", ascii "OK"] := by decide

theorem not_text_parsed : ¬∃ line, (feedChunks []
    [(printText (textKind false) none sampleInd twoLines false).bytes]).2.filter (· ≠ []) = [line] ∧
      parsePrompt line true = some (textPrompt false none sampleInd twoLines false) := by
  rintro ⟨line, hline, -⟩
  rw [twoLines_split] at hline
  cases hline

end ZbAt.Host
