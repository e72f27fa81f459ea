import ZbAt.Network

/-!
# What the host learns about the network (zb_core.c, at_cmd.c, protocol.py)

A node that rejoins prints `JPAN` at any time, also between the lines of a response, and the host
takes that line for one of the response.

* `Woven` — the lines of a response, with `JPAN` lines among them.
* `Value` — a line that the host hands on and takes for nothing else; `heard_values` says what a
  command returns whose lines are values.
* `network_read` — `network` and `info` return what the node has, whatever is printed in between.
-/

namespace ZbAt.Network

open Text Sreg Uart Report Host Zbc
open Xcast (dispatch Handler typed sent)
open Endpoint (Module printResult linesOf_responses outcomeOf_spaced ok_line isAt_append)

/-! ## Responses with prompts among them -/

/-- The lines `ls`, with `JPAN` lines of the stack thread among them. -/
inductive Woven : List Text → List Text → Prop
  | nil : Woven [] []
  | line (t : Text) {ls out : List Text} : Woven ls out → Woven (t :: ls) (t :: out)
  | jpan (p : Pan) {ls out : List Text} : Woven ls out → Woven ls (jpanText p :: out)

/-- What the host makes of the writes of the module: the echo of the command, if it is on, and then
these. -/
def heard (command : Text) (echo : Bool) (ws : Mixed Text) : Host.Outcome :=
  outcome command true ((if echo then sent command else []) ++ mixedBytes .atPrint ws)

/-- A line of a response to `command` that is no prompt and no echo. -/
structure Value (command line : Text) : Prop where
  plain : Plain line
  fits : line.length < atOutMax
  ne : line ≠ []
  parse : parsePrompt line true = none
  echo : upper line ≠ upper command

/-- A line that `_collect` adds to the response. -/
structure Response (command line : Text) : Prop where
  plain : Plain line
  fits : line.length < atOutMax
  routed : routed command true line = true
  ne_ok : line ≠ ascii "OK"
  code : errorCode line = none

section

variable {command line : Text} {body ls out acc post : List Text} {ws : Mixed Text}

theorem Value.response (h : Value command line) : Response command line where
  plain := h.plain
  fits := h.fits
  routed := routed_iff.mpr ⟨h.ne, h.echo, by rw [h.parse]; rfl⟩
  ne_ok hok := by
    have hparse := h.parse
    rw [hok, parse_ok] at hparse
    cases hparse
  code := by rw [errorCode, h.parse]

theorem Woven.mem (h : Woven ls out) : ∀ t ∈ out, t ∈ ls ∨ ∃ p, t = jpanText p := by
  induction h with
  | nil => exact List.forall_mem_nil _
  | line t _ ih =>
    intro u hu
    rcases List.mem_cons.mp hu with rfl | hu
    · exact .inl List.mem_cons_self
    · exact (ih u hu).imp_left (List.mem_cons_of_mem _)
  | jpan p _ ih =>
    intro u hu
    rcases List.mem_cons.mp hu with rfl | hu
    · exact .inr ⟨p, rfl⟩
    · exact ih u hu

/-- A result in the response cuts it in two. -/
theorem Woven.cut {t : Text} (h : Woven ls out) (hls : ls = body ++ [t]) :
    ∃ pre post, out = pre ++ t :: post ∧ Woven body pre := by
  induction h generalizing body with
  | nil => simp at hls
  | @line u ls out hw ih =>
    cases body with
    | nil =>
      obtain ⟨rfl, rfl⟩ := List.cons.inj hls
      exact ⟨[], out, rfl, .nil⟩
    | cons v body =>
      rw [List.cons_append] at hls
      obtain ⟨rfl, htail⟩ := List.cons.inj hls
      obtain ⟨pre, post, rfl, hpre⟩ := ih htail
      exact ⟨u :: pre, post, rfl, .line u hpre⟩
  | jpan p _ ih =>
    obtain ⟨pre, post, rfl, hpre⟩ := ih hls
    exact ⟨jpanText p :: pre, post, rfl, .jpan p hpre⟩

theorem parse_jpanText (p : Pan) : ∃ c pan epid,
    parsePrompt (jpanText p) true = some (.jpan c pan epid) :=
  ⟨_, _, _, parse_line (.jpan p.channel p.panId p.extendedPanId)⟩

theorem plain_jpanText (p : Pan) : Plain (jpanText p) :=
  (clean_line (.jpan p.channel p.panId p.extendedPanId)).1.plain

theorem length_jpanText (p : Pan) : (jpanText p).length < atOutMax := by
  have hch : (natText p.channel.toNat).length ≤ 3 :=
    length_natText_le (Nat.lt_of_lt_of_le p.channel.toNat_lt (by decide))
  have hwords : (ascii "JPAN:").length = 5 ∧ (ascii ",").length = 1 := ⟨rfl, rfl⟩
  have hmax : 31 < atOutMax := by decide
  simp only [jpanText, List.length_append, length_hexWord, length_atHexRev, hwords]
  omega

/-- The values of a response are its lines without the prompts. -/
theorem Woven.values (h : Woven ls out) (hls : ∀ l ∈ ls, parsePrompt l true = none) :
    valuesOf out = ls := by
  induction h with
  | nil => rfl
  | line t _ ih =>
    have ht := hls t List.mem_cons_self
    rw [valuesOf, List.filter_cons_of_pos (by rw [ht]; rfl)]
    exact congrArg _ (ih fun l hl => hls l (List.mem_cons_of_mem _ hl))
  | jpan p _ ih =>
    obtain ⟨c, pan, epid, hp⟩ := parse_jpanText p
    rw [valuesOf, List.filter_cons_of_neg (by simp [hp])]
    exact ih hls

/-- A `JPAN` line is taken for a line of the response. -/
theorem response_jpan (hat : IsAt command) (p : Pan) : Response command (jpanText p) := by
  obtain ⟨c, pan, epid, hp⟩ := parse_jpanText p
  refine ⟨plain_jpanText p, length_jpanText p, routed_iff.mpr ⟨List.cons_ne_nil _ _, ?_, ?_⟩,
    fun hok => ?_, by rw [errorCode, hp]⟩
  · intro heq
    obtain ⟨rest, hrest⟩ := hat.upper
    rw [hrest] at heq
    cases heq
  · rw [hp]
    rfl
  · rw [hok, parse_ok] at hp
    cases hp

/-- `_collect` stops at the first `OK`. -/
theorem collect_ok (h : ∀ l ∈ ls, l ≠ ascii "OK" ∧ errorCode l = none) :
    collect (ls ++ ascii "OK" :: post) acc = .returned (acc ++ ls) := by
  induction ls generalizing acc with
  | nil => rw [List.nil_append, collect_cons, if_pos rfl, List.append_nil]
  | cons l ls ih =>
    obtain ⟨hne, hcode⟩ := h l List.mem_cons_self
    rw [List.cons_append, collect_cons, if_neg hne, hcode]
    dsimp only
    rw [ih fun l hl => h l (List.mem_cons_of_mem _ hl), List.append_assoc]
    rfl

/-- The response is what stands in front of the `OK`. -/
theorem outcomeOf_responses (hat : IsAt command) (h : ∀ l ∈ body, Response command l) :
    outcomeOf command true (body ++ ascii "OK" :: post) = .returned body := by
  have hfilter : body.filter (routed command true) = body :=
    List.filter_eq_self.mpr fun l hl => (h l hl).routed
  rw [outcomeOf, List.filter_append, hfilter, List.filter_cons_of_pos (routed_ok hat.ne_ok),
    collect_ok fun l hl => ⟨(h l hl).ne_ok, (h l hl).code⟩]
  rfl

/-- With the echo in front of them, the outcome is that of the lines written. -/
theorem heard_eq (hplain : Plain command) (echo : Bool)
    (h : ∀ l ∈ own ws, Plain l ∧ l.length < atOutMax) (hne : own ws ≠ []) :
    heard command echo ws = outcomeOf command true (own ws) := by
  have hecho : ∀ line ∈ linesOf ((if echo then sent command else []) ++ crlf),
      ¬Counts command true line := by
    cases echo with
    | false =>
      intro line hl
      cases List.mem_singleton.mp (show line ∈ [[]] from hl)
      exact not_counts_nil
    | true =>
      intro line hl
      rw [if_pos rfl, sent, linesOf_echo hplain] at hl
      cases List.mem_singleton.mp hl
      exact not_counts_echo
  rw [heard, outcome_session _ _ hne, linesOf_responses h]
  have hinsert := outcome_insert hecho [] ((own ws).flatMap fun l => [[], l])
  exact hinsert.trans (outcomeOf_spaced command (own ws))

/-- **What a command returns** whose lines are values: these lines, and the prompts among them. -/
theorem heard_values (hplain : Plain command) (hat : IsAt command) (echo : Bool)
    (hbody : ∀ l ∈ body, Value command l) (hws : Woven (body ++ [ascii "OK"]) (own ws)) :
    ∃ out, Woven body out ∧ heard command echo ws = .returned out := by
  obtain ⟨pre, post, hown, hpre⟩ := hws.cut rfl
  have hlines : ∀ l ∈ own ws, Plain l ∧ l.length < atOutMax := by
    intro l hl
    rcases hws.mem l hl with hl | ⟨p, rfl⟩
    · rcases List.mem_append.mp hl with hl | hl
      · exact ⟨(hbody l hl).plain, (hbody l hl).fits⟩
      · cases List.mem_singleton.mp hl
        exact ok_line
    · exact ⟨plain_jpanText p, length_jpanText p⟩
  have hresponse : ∀ l ∈ pre, Response command l := by
    intro l hl
    rcases hpre.mem l hl with hl | ⟨p, rfl⟩
    · exact (hbody l hl).response
    · exact response_jpan hat p
  refine ⟨pre, hpre, ?_⟩
  rw [heard_eq hplain echo hlines (by rw [hown]; simp), hown]
  exact outcomeOf_responses hat hresponse

end

/-! ## The lines of AT+N and ATI -/

section

variable {t : Text}

/-- A text that no prompt starts like. -/
theorem parse_of_start {u : Text} (hsimple : ∀ q ∈ simplePrompts, ∀ h ∈ q.1.heads, Apart h u)
    (htext : ∀ h ∈ Host.textHead.heads, Apart h u) (hrx : Apart (ascii "RX:") u) (s : Text) :
    parsePrompt (u ++ s) true = none := by
  have hno : (ascii "RX:").isPrefixOf (u ++ s) = false := by
    rw [Bool.eq_false_iff]
    intro hpre
    rcases List.prefix_or_prefix_of_prefix (List.isPrefixOf_iff_prefix.mp hpre)
      (List.prefix_append u s) with h | h
    · exact hrx.1 h
    · exact hrx.2 h
  rw [parsePrompt, findSome_none hsimple]
  dsimp only
  rw [hno, if_neg (by decide), parseText, (fails_of_heads htext s).first]
  rfl

theorem parse_plus (s : Text) : parsePrompt (ascii "+N=" ++ s) true = none :=
  parse_of_start (by decide) (by decide) (by decide) s

/-- The names of the roles. -/
def roleNames : List Text := [ascii "COO", ascii "FFD", ascii "MED", ascii "SED", ascii "ZED"]

theorem roleName_mem (role : Role) (v : Vals) : roleName role v ∈ roleNames := by
  have hend : ∀ high low : Bool, (if high && low then ascii "MED"
      else if low then ascii "SED" else ascii "ZED") ∈ roleNames := by decide
  cases role with
  | zc => exact List.mem_cons_self
  | zr => exact List.mem_cons_of_mem _ List.mem_cons_self
  | none | zed => exact hend _ _

theorem roleName_word (role : Role) (v : Vals) : roleName role v ≠ [] ∧
    (∀ c ∈ roleName role v, isWord c = true) ∧ Clean (roleName role v) ∧
      (roleName role v).length = 3 := by
  have hall : ∀ t ∈ roleNames, (t ≠ [] ∧ t.all isWord = true) ∧
      t.all (fun c => c != 0x0D && c != 0x0A && c != 0x3E) = true ∧ t.length = 3 := by decide
  obtain ⟨⟨hne, hword⟩, hclean, hlen⟩ := hall _ (roleName_mem role v)
  refine ⟨hne, List.all_eq_true.mp hword, fun c hc => ?_, hlen⟩
  simpa [and_assoc] using List.all_eq_true.mp hclean c hc

/-- A comma ends a number or a word. -/
theorem isWord_comma (s : Text) : ∀ c ∈ (ascii "," ++ s).head?, isWord c = false := by
  intro c hc
  obtain rfl : 44 = c := Option.some.inj hc
  decide

/-- The power has a sign and digits, or digits only. -/
theorem first_decText (v : ℤ) {s : Text} (hs : ∀ c ∈ s.head?, isdigit c = false) :
    First intGroup (decText v ++ s) [some (decText v)] s := by
  have hne : decDigits 2 v.natAbs ≠ [] := decDigits_ne_nil (by decide) _
  have hdigits := first_many1 hne (decDigits_all 2 v.natAbs) hs
  unfold decText
  split_ifs with hv
  · have hminus : First (.opt (word "-")) (ascii "-" ++ (decDigits 2 v.natAbs ++ s)) []
        (decDigits 2 v.natAbs ++ s) := (first_word "-" _).opt
    exact (hminus.seq hdigits).group
  · have hsign : 45 ∉ decDigits 2 v.natAbs := fun h => absurd (decDigits_all 2 _ _ h) (by decide)
    have hno : Fails (word "-") (decDigits 2 v.natAbs ++ s) := fails_lit_cons hne hsign [] s
    exact (hno.opt.seq hdigits).group

/-- The line of `cmd_n` gives back the network. -/
theorem parse_networkText (p : Pan) (v : Vals) :
    parseNetwork (networkText p v) = some (infoOf p v) := by
  obtain ⟨hne, hword, -⟩ := roleName_word p.role v
  have hepid := first_ieee p.extendedPanId []
  rw [List.append_nil] at hepid
  have hpan := first_hexText (w := 4) p.panId.toNat_lt (ascii "," ++ atHexRev p.extendedPanId.1)
  have hpower := first_decText (sregS8 0x01 v)
    (isdigit_comma (hexText 4 p.panId.toNat ++ (ascii "," ++ atHexRev p.extendedPanId.1)))
  have hch := first_natText p.channel.toNat (isdigit_comma (decText (sregS8 0x01 v) ++
    (ascii "," ++ (hexText 4 p.panId.toNat ++ (ascii "," ++ atHexRev p.extendedPanId.1)))))
  have hrole := (first_many1 hne hword (isWord_comma (natText p.channel.toNat ++ (ascii "," ++
    (decText (sregS8 0x01 v) ++ (ascii "," ++ (hexText 4 p.panId.toNat ++
      (ascii "," ++ atHexRev p.extendedPanId.1)))))))).group
  have hfirst := (first_word "+N=" _).seq (hrole.seq ((first_word "," _).seq (hch.seq
    ((first_word "," _).seq (hpower.seq ((first_word "," _).seq (hpan.seq
      ((first_word "," _).seq (hepid.seq first_dollar)))))))))
  have hline : networkText p v = ascii "+N=" ++ (roleName p.role v ++ (ascii "," ++
      (natText p.channel.toNat ++ (ascii "," ++ (decText (sregS8 0x01 v) ++ (ascii "," ++
        (hexText 4 p.panId.toNat ++ (ascii "," ++ atHexRev p.extendedPanId.1)))))))) := by
    simp only [networkText, List.append_assoc]
  rw [parseNetwork, hline, show nPattern.first _ = _ from hfirst]
  simp [infoOf, cap, intHex, intDec]
  rfl

theorem length_decText (v : ℤ) (h : v.natAbs < 1000) : (decText v).length ≤ 4 := by
  have hdigits : (decDigits 2 v.natAbs).length ≤ 3 := by
    rw [decDigits, List.length_map]
    exact length_printNum_le (by decide) (by decide) h
  unfold decText
  split_ifs
  · rw [List.length_cons]
    omega
  · omega

theorem natAbs_sregS8 (id : ℕ) (v : Vals) : (sregS8 id v).natAbs < 1000 := by
  unfold sregS8
  cases find id with
  | none =>
    show (0 : ℤ).natAbs < 1000
    decide
  | some r =>
    have hlo := Int.le_bmod (x := (strtol (v r)).1) (m := 256) (by decide)
    have hhi := Int.bmod_lt (x := (strtol (v r)).1) (m := 256) (by decide)
    rw [Option.elim_some]
    omega

theorem clean_decText (v : ℤ) : Clean (decText v) := by
  have hdigits : Clean (decDigits 2 v.natAbs) := by
    intro c hc
    have hdigit := decDigits_all 2 v.natAbs c hc
    apply clean_of_upperHex
    unfold isdigit at hdigit
    simp [upperHex, hdigit]
  unfold decText
  split_ifs
  · exact List.forall_mem_cons.mpr ⟨by decide, hdigits⟩
  · exact hdigits

/-- A clean line that starts like no prompt and no echo is a value. -/
theorem Value.of_start {command u : Text} {c : UInt8} (hat : IsAt command)
    (hc : Clean (c :: u)) (hlen : (c :: u).length < atOutMax)
    (hparse : parsePrompt (c :: u) true = none) (hup : (upperChar c).head? ≠ some 65) :
    Value command (c :: u) where
  plain := Clean.plain hc
  fits := hlen
  ne := List.cons_ne_nil _ _
  parse := hparse
  echo heq := by
    obtain ⟨rest, hrest⟩ := hat.upper
    rw [hrest, upper_cons] at heq
    cases hcs : upperChar c with
    | nil =>
      unfold upperChar at hcs
      split_ifs at hcs
    | cons x xs =>
      rw [hcs] at heq
      obtain ⟨rfl, -⟩ := List.cons.inj heq
      exact hup (congrArg List.head? hcs)

theorem value_networkText {command : Text} (hat : IsAt command) (p : Pan) (v : Vals) :
    Value command (networkText p v) := by
  obtain ⟨-, -, hclean, hlen⟩ := roleName_word p.role v
  have hpower := clean_decText (sregS8 0x01 v)
  have hline : networkText p v = 43 :: (ascii "N=" ++ (roleName p.role v ++ (ascii "," ++
      (natText p.channel.toNat ++ (ascii "," ++ (decText (sregS8 0x01 v) ++ (ascii "," ++
        (hexText 4 p.panId.toNat ++ (ascii "," ++ atHexRev p.extendedPanId.1))))))))) := by
    simp only [networkText, List.append_assoc]
    rfl
  have hch : (natText p.channel.toNat).length ≤ 3 :=
    length_natText_le (Nat.lt_of_lt_of_le p.channel.toNat_lt (by decide))
  have hnum := length_decText _ (natAbs_sregS8 0x01 v)
  have hwords : (ascii "+N=").length = 3 ∧ (ascii ",").length = 1 := ⟨rfl, rfl⟩
  have hmax : 100 < atOutMax := by decide
  have hlt : (networkText p v).length < atOutMax := by
    simp only [networkText, List.length_append, length_hexWord, length_atHexRev, hwords, hlen]
    omega
  have hall : Clean (networkText p v) := by
    simp only [networkText, clean_append, clean_natText, clean_hexText, clean_atHexRev, hclean,
      hpower, and_true]
    decide
  have hparse := parse_plus (roleName p.role v ++ (ascii "," ++ (natText p.channel.toNat ++
    (ascii "," ++ (decText (sregS8 0x01 v) ++ (ascii "," ++ (hexText 4 p.panId.toNat ++
      (ascii "," ++ atHexRev p.extendedPanId.1))))))))
  rw [hline] at hall hlt ⊢
  exact .of_start hat hall hlt hparse (by decide)

/-- The lines of `AT+N` and `ATI` are values. -/
theorem value_noPan {command : Text} (hat : IsAt command) : Value command (ascii "+N=NoPAN") :=
  .of_start hat (by decide) (by decide) (parse_plus (ascii "NoPAN")) (by decide)

theorem value_device {command : Text} (hat : IsAt command) :
    Value command (ascii "Telegesis nRF54L15") :=
  .of_start hat (by decide) (by decide)
    (parse_of_start (u := ascii "Tel") (by decide) (by decide) (by decide)
      (ascii "egesis nRF54L15")) (by decide)

theorem value_revision {command : Text} (hat : IsAt command) : Value command (ascii "R309N") :=
  .of_start hat (by decide) (by decide)
    (parse_of_start (u := ascii "R309") (by decide) (by decide) (by decide) (ascii "N"))
    (by decide)

theorem value_ieee {command : Text} (hat : IsAt command) (a : Ieee) :
    Value command (atHexRev a.1) := by
  have hlist : Endpoint.ListText (atHexRev a.1) := by
    intro c hc
    obtain ⟨b, -, hb⟩ := List.mem_flatMap.mp hc
    exact .inl (hexText_all 2 b.toNat c hb)
  have hlen := length_atHexRev a
  have hmax : 16 < atOutMax := by decide
  refine ⟨hlist.plain, by omega, ?_, hlist.parse true, hlist.not_echo hat⟩
  intro hnil
  rw [hnil] at hlen
  cases hlen

end

/-! ## AT+N and ATI -/

/-- The module executes the command and writes its lines, with prompts among them. -/
def Spoken (st : Stack) (n : Node) (command : Text) (ws : Mixed Text) : Prop :=
  ∃ lines, n.execute st command = some (n, lines) ∧ Woven lines (own ws)

/-- `network`, when the module writes this. -/
def networkHeard (echo : Bool) (ws : Mixed Text) : Option (Option NetworkInfo) :=
  match heard (ascii "AT+N") echo ws with
  | .returned lines => networkOf lines
  | _ => none

/-- `info`, when the module writes this. -/
def infoHeard (echo : Bool) (ws : Mixed Text) : Option (Text × Text × Text) :=
  match heard (ascii "ATI") echo ws with
  | .returned lines =>
    match valuesOf lines with
    | device :: revision :: eui :: _ => some (device, revision, eui)
    | _ => none
  | _ => none

section

variable {st : Stack} {n : Node} {t : Text} {out : List Text} {r : Option NetworkInfo}

theorem networkOf_jpan (p : Pan) (lines : List Text) :
    networkOf (jpanText p :: lines) = networkOf lines := by
  have hfails : nPattern.first (jpanText p) = none := by
    have hline : jpanText p = ascii "JPAN:" ++ (natText p.channel.toNat ++ (ascii "," ++
        (hexText 4 p.panId.toNat ++ (ascii "," ++ atHexRev p.extendedPanId.1)))) := by
      simp only [jpanText, List.append_assoc]
    rw [hline]
    exact (fails_of_heads (by decide) _).first
  have hne : jpanText p ≠ ascii "+N=NoPAN" := by
    intro heq
    have hhead : (74 : UInt8) = 43 := (List.cons.inj heq).1
    exact absurd hhead (by decide)
  rw [networkOf, if_neg hne, parseNetwork, hfails]
  rfl

/-- Prompts among the lines are skipped. -/
theorem networkOf_woven (ht : ∀ rest, networkOf (t :: rest) = some r) (h : Woven [t] out) :
    networkOf out = some r := by
  generalize hls : [t] = ls at h
  induction h with
  | nil => cases hls
  | line u _ _ =>
    obtain ⟨rfl, -⟩ := List.cons.inj hls
    exact ht _
  | jpan p _ ih =>
    rw [networkOf_jpan]
    exact ih hls

/-- The line of `cmd_n`. -/
theorem value_pan {command : Text} (hat : IsAt command) (pan : Option Pan) (v : Vals) :
    Value command (pan.elim (ascii "+N=NoPAN") fun p => networkText p v) := by
  cases pan with
  | none => exact value_noPan hat
  | some p => exact value_networkText hat p v

/-- The host stops at this line. -/
theorem networkOf_pan (pan : Option Pan) (v : Vals) (rest : List Text) :
    networkOf ((pan.elim (ascii "+N=NoPAN") fun p => networkText p v) :: rest) =
      some (pan.map fun p => infoOf p v) := by
  cases pan with
  | none => rw [Option.elim_none, networkOf, if_pos rfl, Option.map_none]
  | some p =>
    have hne : networkText p v ≠ ascii "+N=NoPAN" := by
      intro heq
      have hparse := parse_networkText p v
      have hno : (parseNetwork (ascii "+N=NoPAN")).isNone = true := by decide
      rw [heq] at hparse
      rw [hparse] at hno
      cases hno
    rw [Option.elim_some, networkOf, if_neg hne, parse_networkText, Option.map_some]

/-- **The network is read back.** Whatever prompts and `JPAN` lines the module prints between its
lines, `network` returns the network that the node is in, and `info` its description. -/
theorem network_read (hshown : Endpoint.okHidden n.module = false) {wsN wsI : Mixed Text}
    (hN : Spoken st n (ascii "AT+N") wsN) (hI : Spoken st n (ascii "ATI") wsI) (echo : Bool) :
    networkHeard echo wsN = some (n.pan.map fun p => infoOf p n.vals) ∧
      infoHeard echo wsI =
        some (ascii "Telegesis nRF54L15", ascii "R309N", atHexRev st.longAddress.1) := by
  have hok : printResult atOk n.vals = [ascii "OK"] := by
    have hprinted := Endpoint.printResult_ok n.module
    rwa [hshown, if_neg Bool.false_ne_true] at hprinted
  have hdispatch : dispatch (ascii "AT+N") = .handler .n [] ∧
      dispatch (ascii "ATI") = .handler .ati [] := by decide
  constructor
  · obtain ⟨lines, hexec, hws⟩ := hN
    have hat : IsAt (ascii "AT+N") := isAt_append _
    have hplain : Plain (ascii "AT+N") :=
      @Endpoint.plain_at (ascii "+N") (by decide) (by decide)
    rw [Node.execute, hdispatch.1] at hexec
    obtain rfl : cmdN [] n = lines := (Prod.mk.inj (Option.some.inj hexec)).2
    rw [cmdN, if_neg (by decide), hok] at hws
    have hvalue := value_pan hat n.pan n.vals
    obtain ⟨out, hout, hheard⟩ := heard_values hplain hat echo
      (List.forall_mem_singleton.mpr hvalue) hws
    rw [networkHeard, hheard]
    exact networkOf_woven (networkOf_pan n.pan n.vals) hout
  · obtain ⟨lines, hexec, hws⟩ := hI
    have hat : IsAt (ascii "ATI") := isAt_append _
    have hplain : Plain (ascii "ATI") :=
      @Endpoint.plain_at (ascii "I") (by decide) (by decide)
    rw [Node.execute, hdispatch.2] at hexec
    obtain rfl : cmdAti st [] n = lines := (Prod.mk.inj (Option.some.inj hexec)).2
    rw [cmdAti, if_neg (by decide), hok] at hws
    have hvalues : ∀ l ∈ [ascii "Telegesis nRF54L15", ascii "R309N", atHexRev st.longAddress.1],
        Value (ascii "ATI") l := by
      intro l hl
      simp only [List.mem_cons, List.not_mem_nil, or_false] at hl
      rcases hl with rfl | rfl | rfl
      · exact value_device hat
      · exact value_revision hat
      · exact value_ieee hat _
    obtain ⟨out, hout, hheard⟩ := heard_values hplain hat echo hvalues hws
    rw [infoHeard, hheard]
    dsimp only
    rw [hout.values fun l hl => (hvalues l hl).parse]

end

/-- A router with the default settings that has just rejoined. -/
def routerPan : Pan := ⟨.zr, by decide, 15, 0x1A2B, ⟨[1, 2, 3, 4, 5, 6, 7, 8], rfl⟩, 0x3C4D⟩

def routerStack : Stack where
  longAddress := ⟨[8, 7, 6, 5, 4, 3, 2, 1], rfl⟩
  powerOn := ⟨none, 0, none, false, [], false, false, none, none, none⟩
  run := fun _ => .error .timedOut

def router : Node := (powerOn routerStack .zr []).networkUp routerPan |>.1

theorem network_read_router :
    networkHeard true [.inr (jpanText routerPan), .inr (networkText routerPan router.vals),
        .inl (.line ⟨.leftPan, rfl⟩), .inr (ascii "OK")] =
      some (some (infoOf routerPan router.vals)) ∧
    infoHeard true [.inr (ascii "Telegesis nRF54L15"), .inr (ascii "R309N"),
        .inr (jpanText routerPan), .inr (atHexRev routerStack.longAddress.1), .inr (ascii "OK")] =
      some (ascii "Telegesis nRF54L15", ascii "R309N",
        atHexRev routerStack.longAddress.1) := by
  have hshown : Endpoint.okHidden router.module = false := by decide
  have hok : printResult atOk router.vals = [ascii "OK"] := by
    have hprinted := Endpoint.printResult_ok router.module
    rwa [hshown, if_neg Bool.false_ne_true] at hprinted
  have hN : Spoken routerStack router (ascii "AT+N") [.inr (jpanText routerPan),
      .inr (networkText routerPan router.vals), .inl (.line ⟨.leftPan, rfl⟩),
      .inr (ascii "OK")] := by
    refine ⟨networkText routerPan router.vals :: [ascii "OK"], ?_, ?_⟩
    · rw [← hok]
      rfl
    · exact .jpan routerPan (.line _ (.line _ .nil))
  have hI : Spoken routerStack router (ascii "ATI") [.inr (ascii "Telegesis nRF54L15"),
      .inr (ascii "R309N"), .inr (jpanText routerPan),
      .inr (atHexRev routerStack.longAddress.1), .inr (ascii "OK")] := by
    refine ⟨ascii "Telegesis nRF54L15" :: ascii "R309N" ::
      atHexRev routerStack.longAddress.1 :: [ascii "OK"], ?_, ?_⟩
    · rw [← hok]
      rfl
    · exact .line _ (.line _ (.jpan routerPan (.line _ (.line _ .nil))))
  exact network_read hshown hN hI true

end ZbAt.Network
