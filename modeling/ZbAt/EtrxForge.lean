import ZbAt.Etrx

/-!
# Payloads of other nodes among the responses

A text that another node sent is printed between the response lines of a pending command. Its
payload is printed as it is, line ends included.

* `firstLine_routed` — what stands before a line feed of the payload is taken for a response.
* `parseTail_drop` — when carriage returns are dropped, the length reaches into the tail, and the
  rest is no tail unless it is empty.
* `payload_outcome` — a payload leaves every outcome unchanged exactly when none of the lines it
  is printed as counts; for a command of the module that means no line feed, and no carriage
  return or as many as the tail has characters.
-/

namespace ZbAt.Host

open Text Uart Report

section

variable {command : Text} {rxHex : Bool} {t : Text}

/-! ## Tails -/

/-- A tail has two commas. -/
theorem tail_commas {m : Pattern.Match UInt8} (h : m ∈ tailPattern.run t) :
    t = [] ∨ t = [0x0A] ∨ 2 ≤ t.count 44 := by
  obtain ⟨m₁, h₁, h⟩ := List.mem_flatMap.mp h
  obtain ⟨m₂, h₂, -⟩ := List.mem_map.mp h
  have hend : m₁.2 = [] ∨ m₁.2 = [0x0A] := by
    change m₂ ∈ (Pattern.eos 0x0A).run m₁.2 at h₂
    simp only [Pattern.run, List.mem_ite_nil_right] at h₂
    exact h₂.1
  rcases List.mem_append.mp h₁ with h₁ | h₁
  · right
    right
    obtain ⟨n₁, hn₁, h₁⟩ := List.mem_flatMap.mp h₁
    obtain ⟨n₂, hn₂, -⟩ := List.mem_map.mp h₁
    obtain ⟨n₃, hn₃, h₃⟩ := List.mem_flatMap.mp hn₂
    obtain ⟨n₄, hn₄, -⟩ := List.mem_map.mp h₃
    obtain ⟨n₅, hn₅, -⟩ := List.mem_flatMap.mp hn₄
    simp only [word, Pattern.run, List.mem_ite_nil_right, List.mem_singleton,
      List.isPrefixOf_iff_prefix] at hn₁ hn₅
    obtain ⟨⟨r₁, hr₁⟩, rfl⟩ := hn₁
    obtain ⟨⟨r₂, hr₂⟩, -⟩ := hn₅
    have hsub := (run_suffix hn₃).sublist.count_le 44
    subst hr₁
    rw [← hr₂] at hsub
    have hcomma : (ascii ",").count 44 = 1 := rfl
    simp only [List.drop_left, List.count_append, hcomma] at hsub ⊢
    omega
  · rw [List.mem_singleton.mp h₁] at hend
    rcases hend with h | h
    · exact .inl h
    · exact .inr (.inl h)

theorem comma_free (n : ℕ) : (natText n).count 44 = 0 := by
  apply List.count_eq_zero_of_not_mem
  intro h
  exact absurd (decDigits_all 1 n _ h) (by decide)

theorem comma_free_int (v : ℤ) : (intText v).count 44 = 0 := by
  unfold intText
  split_ifs
  · rw [List.count_cons, comma_free]
    rfl
  · exact comma_free _

/-- The end of a tail is no tail. -/
theorem parseTail_drop (on : Bool) (ind : Ind) {k : ℕ} (hk : k ≤ (tailText on ind).length) :
    (parseTail ((tailText on ind).drop k)).isSome = true ↔
      k = 0 ∨ k = (tailText on ind).length := by
  constructor
  · intro h
    by_contra hno
    rw [not_or] at hno
    obtain ⟨m, hm⟩ : ∃ m, m ∈ tailPattern.run ((tailText on ind).drop k) := by
      rw [parseTail, Option.isSome_map] at h
      obtain ⟨m, hm⟩ := Option.isSome_iff_exists.mp h
      exact ⟨m, List.mem_of_mem_head? hm⟩
    cases on with
    | false => exact hno.1 (Nat.le_zero.mp hk)
    | true =>
      have hcount : ((tailText true ind).drop k).count 44 ≤ 1 := by
        obtain ⟨j, rfl⟩ := Nat.exists_eq_succ_of_ne_zero hno.1
        have hsub := (List.drop_sublist j (intText ind.rssi.toInt ++ (ascii "," ++
          natText ind.lqi.toNat))).count_le 44
        have hcomma : (ascii ",").count 44 = 1 := rfl
        simp only [List.count_append, comma_free, comma_free_int, hcomma] at hsub
        exact hsub
      rcases tail_commas hm with h | h | h
      · have hlen := congrArg List.length h
        rw [List.length_drop, List.length_nil] at hlen
        omega
      · have hmem : 0x0A ∈ tailText true ind :=
          List.mem_of_mem_drop (h ▸ List.mem_singleton_self (0x0A : UInt8))
        exact (clean_tailText true ind _ hmem).2.1 rfl
      · omega
  · rintro (rfl | rfl)
    · rw [List.drop_zero, parseTail_tailText]
      rfl
    · rw [List.drop_length]
      rfl

end

/-! ## The lines of a text -/

section

variable {command : Text} (rxHex broadcast : Bool) (ieee : Option Ieee) (ind : Ind)
  {payload : List UInt8} (on : Bool)

theorem linesOf_textHead {n : ℕ} (hn : n < 256) (data : List UInt8) :
    linesOf (crlf ++ (Report.textHead (textKind broadcast) ieee n ++ data)) =
      [] :: (feed (Report.textHead (textKind broadcast) ieee n) data).2 := by
  have hplain := (clean_textHead broadcast ieee hn).plain
  rw [linesOf, feed_append, feed_crlf, feed_append, feed_plain hplain]
  rfl

theorem textHead_ne_nil {n : ℕ} (hn : n < 256) :
    Report.textHead (textKind broadcast) ieee n ≠ [] := by
  obtain ⟨c, s, -, hs⟩ := head_text broadcast ieee hn []
  rw [List.append_nil] at hs
  rw [hs]
  exact List.cons_ne_nil _ _

/-- Without a line feed, a text is one line. Carriage returns are dropped. -/
theorem linesOf_text (hlen : payload.length < 256) (hlf : 0x0A ∉ payload) :
    linesOf (printText (textKind broadcast) ieee ind payload on).bytes =
      [[], Report.textHead (textKind broadcast) ieee payload.length ++
        (payload.filter (· != 0x0D) ++ tailText on ind)] := by
  have hne := textHead_ne_nil broadcast ieee hlen
  have htail := (clean_tailText on ind).plain
  have hkeep : (tailText on ind).filter (· != 0x0D) = tailText on ind := by
    refine List.filter_eq_self.mpr fun d hd => bne_iff_ne.mpr ?_
    rintro rfl
    exact htail.cr hd
  have hfeed := feed_text (t := payload ++ tailText on ind) hne
    (fun h => (List.mem_append.mp h).elim hlf htail.lf)
  rw [List.filter_append, hkeep] at hfeed
  rw [bytes_printText, tailPart_eq]
  simp only [List.append_assoc]
  rw [linesOf_textHead broadcast ieee hlen, ← List.append_assoc payload, feed_append, hfeed,
    feed_crlf]
  rfl

/-- A line feed ends the line within the data. -/
theorem firstLine_text (hlen : payload.length < 256) (hlf : 0x0A ∈ payload) :
    ∃ data : Text, data.length < payload.length ∧
      Report.textHead (textKind broadcast) ieee payload.length ++ data ∈
        linesOf (printText (textKind broadcast) ieee ind payload on).bytes := by
  have hne := textHead_ne_nil broadcast ieee hlen
  rw [bytes_printText]
  simp only [List.append_assoc]
  rw [linesOf_textHead broadcast ieee hlen]
  generalize Report.textHead (textKind broadcast) ieee payload.length = head at hne ⊢
  obtain ⟨u, post, rfl, hu⟩ := List.eq_append_cons_of_mem hlf
  refine ⟨u.filter (· != 0x0D), ?_, ?_⟩
  · have hle := List.length_filter_le (· != 0x0D) u
    rw [List.length_append, List.length_cons]
    omega
  · rw [List.append_assoc, feed_append, feed_text hne hu]
    simp [feed, feedByte]

/-- For a command of the module, the lines of a text that count are those that are no prompt. -/
theorem counts_iff (hat : IsAt command) {n : ℕ} (hn : n < 256) (data : Text) :
    Counts command rxHex (Report.textHead (textKind broadcast) ieee n ++ data) ↔
      data.length < n ∨ parseTail (data.drop n) = none := by
  obtain ⟨c, s, -, hs⟩ := head_text broadcast ieee hn data
  have hne : Report.textHead (textKind broadcast) ieee n ++ data ≠ [] := by
    rw [hs]
    exact List.cons_ne_nil _ _
  have hupper : upper (Report.textHead (textKind broadcast) ieee n ++ data) ≠ upper command := by
    obtain ⟨rest, hrest⟩ := hat.upper
    rw [hrest, textHead_eq broadcast ieee hn]
    cases broadcast with
    | false => exact fun h => absurd (List.cons.inj h).1 (by decide)
    | true => exact fun h => absurd (List.cons.inj h).1 (by decide)
  rw [Counts, routed_iff, parse_textHead broadcast ieee hn]
  split_ifs with hshort
  · simp [hne, hupper, hshort, isResponse, hat.ne_ok]
  · cases htail : parseTail (data.drop n) with
    | none => simp [hne, hupper, isResponse, hat.ne_ok]
    | some tail => simp [hshort, isResponse]

end

/-! ## Payloads that leave every outcome unchanged -/

section

variable {command : Text} (rxHex broadcast : Bool) (ieee : Option Ieee) (ind : Ind)
  {payload : List UInt8} (on : Bool)

/-- The outcome of a command when a text with the payload is printed between its response lines
`pre` and `post`. -/
def outcomeWith (command : Text) (rxHex broadcast : Bool) (ieee : Option Ieee) (ind : Ind)
    (on : Bool) (pre post : List Text) (payload : List UInt8) : Outcome :=
  outcome command rxHex (responses pre ++
    (printText (textKind broadcast) ieee ind payload on).bytes ++ responses post)

theorem outcomeWith_eq (pre post : List Text) (payload : List UInt8) :
    outcomeWith command rxHex broadcast ieee ind on pre post payload =
      outcomeOf command rxHex (linesOf (responses pre) ++
        linesOf (printText (textKind broadcast) ieee ind payload on).bytes ++
          linesOf (responses post)) := by
  have hpre := feed_responses pre
  have hclosed : (feed [] (responses pre ++
      (printText (textKind broadcast) ieee ind payload on).bytes)).1 = [] := by
    rw [bytes_printText, ← List.append_assoc]
    exact feed_closed [] _
  rw [outcomeWith, outcome, linesOf_append hclosed, linesOf_append hpre]

/-- An empty payload leaves every outcome unchanged. -/
theorem not_counts_empty : ∀ line ∈ linesOf (printText (textKind broadcast) ieee ind [] on).bytes,
    ¬Counts command rxHex line := by
  have hlen : ([] : List UInt8).length < 256 := by decide
  have hlines := linesOf_text broadcast ieee ind on hlen List.not_mem_nil
  intro line hline hcounts
  rw [hlines] at hline
  obtain ⟨hne, -, hresp⟩ := routed_iff.mp hcounts.1
  rcases List.mem_pair.mp hline with rfl | rfl
  · exact hne rfl
  · have hparse := parse_text broadcast ieee ind on rxHex hlen
    rw [tailPart_eq, List.append_assoc] at hparse
    rw [List.filter_nil, hparse] at hresp
    cases hresp

/-- The payloads whose printing a command of the module does not notice. -/
theorem not_counts_iff (hat : IsAt command) (hlen : payload.length < 256) :
    (∀ line ∈ linesOf (printText (textKind broadcast) ieee ind payload on).bytes,
      ¬Counts command rxHex line) ↔
    0x0A ∉ payload ∧
      (payload.count 0x0D = 0 ∨ payload.count 0x0D = (tailPart on ind).length) := by
  by_cases hlf : 0x0A ∈ payload
  · obtain ⟨data, hshort, hmem⟩ := firstLine_text broadcast ieee ind on hlen hlf
    have hcounts := (counts_iff rxHex broadcast ieee hat hlen data).mpr (.inl hshort)
    exact ⟨fun h => absurd hcounts (h _ hmem), fun h => absurd hlf h.1⟩
  · have hfilter : payload.count 0x0D + (payload.filter (· != 0x0D)).length = payload.length := by
      rw [List.length_eq_countP_add_countP (l := payload) (· == 0x0D), List.count,
        ← List.countP_eq_length_filter]
      simp only [bne, Bool.not_eq_true, Bool.decide_eq_false]
    rw [linesOf_text broadcast ieee ind on hlen hlf, tailPart_eq]
    have hempty : ¬Counts command rxHex [] := fun h => (routed_iff.mp h.1).1 rfl
    have hdrop : (payload.filter (· != 0x0D) ++ tailText on ind).drop payload.length =
        (tailText on ind).drop (payload.count 0x0D) := by
      rw [List.drop_append, List.drop_of_length_le (by omega), List.nil_append]
      congr 1
      omega
    simp only [List.forall_mem_cons, hempty, not_false_eq_true, true_and, List.not_mem_nil,
      false_implies, implies_true, and_true, hlf, counts_iff rxHex broadcast ieee hat hlen,
      List.length_append, hdrop, not_or, not_lt]
    constructor
    · rintro ⟨hle, hsome⟩
      refine (parseTail_drop on ind (by omega)).mp ?_
      exact Option.isSome_iff_ne_none.mpr hsome
    · intro h
      have hle : payload.count 0x0D ≤ (tailText on ind).length := by
        rcases h with h | h
        · omega
        · omega
      exact ⟨by omega, Option.isSome_iff_ne_none.mp ((parseTail_drop on ind hle).mpr h)⟩

/-- **Payloads of other nodes.** A payload leaves every outcome as an empty one does, exactly when
none of the lines of its text counts. For a command of the module these are the payloads without a
line feed that have no carriage return, or as many as the tail has characters. -/
theorem payload_outcome (command : Text) (hlen : payload.length ≤ 255) :
    ((∀ pre post, outcomeWith command rxHex broadcast ieee ind on pre post payload =
        outcomeWith command rxHex broadcast ieee ind on pre post []) ↔
      ∀ line ∈ linesOf (printText (textKind broadcast) ieee ind payload on).bytes,
        ¬Counts command rxHex line) ∧
    (IsAt command →
      ((∀ line ∈ linesOf (printText (textKind broadcast) ieee ind payload on).bytes,
        ¬Counts command rxHex line) ↔
      0x0A ∉ payload ∧
        (payload.count 0x0D = 0 ∨ payload.count 0x0D = (tailPart on ind).length))) := by
  refine ⟨⟨fun h => ?_, fun h pre post => ?_⟩, fun hat => ?_⟩
  · apply counts_of_insert
    intro final hfinal
    have hpost := h [] [final]
    rw [outcomeWith_eq, outcomeWith_eq, outcome_insert
      (not_counts_empty rxHex broadcast ieee ind on), linesOf_final hfinal, outcomeOf_nil,
      outcomeOf_nil] at hpost
    exact hpost
  · rw [outcomeWith_eq, outcomeWith_eq, outcome_insert h,
      outcome_insert (not_counts_empty rxHex broadcast ieee ind on)]
  · exact not_counts_iff rxHex broadcast ieee ind on hat (Nat.lt_succ_of_le hlen)

end

/-! ## A forged result -/

theorem payload_outcome_register :
    outcomeWith (ascii "ATS00?") true false none sampleInd false [ascii "FFFF"] [ascii "OK"]
        (ascii "a,b=c") =
      outcomeWith (ascii "ATS00?") true false none sampleInd false [ascii "FFFF"] [ascii "OK"]
        [] := by
  have hlen : (ascii "a,b=c").length ≤ 255 := by decide
  have h := payload_outcome true false none sampleInd false (ascii "ATS00?") hlen
  exact h.1.mpr ((h.2 (by decide)).mpr ⟨by decide, .inl (by decide)⟩) _ _

/-- Another node sends a line feed and `OK`: the value of the register is lost. -/
theorem payload_forged :
    outcomeWith (ascii "ATS00?") true false none sampleInd false [] [ascii "FFFF", ascii "OK"]
      (ascii "\nOK") = .returned [ascii "UCAST:03="] ∧
    outcomeWith (ascii "ATS00?") true false none sampleInd false [] [ascii "FFFF", ascii "OK"]
      (ascii "hi!") = .returned [ascii "FFFF"] := by decide

theorem not_payload_outcome :
    ¬∀ p q : List UInt8, p.length ≤ 255 → q.length ≤ 255 →
      outcomeWith (ascii "ATS00?") true false none sampleInd false []
          [ascii "FFFF", ascii "OK"] p =
        outcomeWith (ascii "ATS00?") true false none sampleInd false []
          [ascii "FFFF", ascii "OK"] q := by
  intro h
  have hpq := h (ascii "\nOK") (ascii "hi!") (by decide) (by decide)
  rw [payload_forged.1, payload_forged.2] at hpq
  cases hpq

end ZbAt.Host
