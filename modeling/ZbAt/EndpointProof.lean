import ZbAt.Endpoint
import ZbAt.XcastProof

/-!
# Configuring endpoint 2

What the host reads is what the register holds, and what it writes is what the descriptor says
after the next boot. The host resets the module only if it wrote something.

* `sregGet_eq`, `sregSet_eq`, `reset_eq` — the host's steps; each of them returns as long as the
  module prints `OK`.
* `writeChanged_eq` — the loop: the registers after it, and whether it wrote one.
* `configure_settles` — the descriptor is the one asked for, except when the registers already
  held it and the descriptor was older.
-/

namespace ZbAt.Endpoint

open Text Uart Sreg Xcast Host

/-! ## Answers of the module -/

section

variable {command t : Text} {lines : List Text}

/-- Lines that are printed one after the other, with an empty line in front of each. -/
theorem linesOf_responses (h : ∀ l ∈ lines, Plain l ∧ l.length < atOutMax) :
    linesOf (responses lines) = lines.flatMap fun l => [[], l] := by
  induction lines with
  | nil => rfl
  | cons l rest ih =>
    obtain ⟨hplain, hlen⟩ := h l List.mem_cons_self
    have hbytes : (Write.atPrint l).bytes = crlf ++ l ++ crlf := by
      rw [bytes_atPrint_crlf, List.take_of_length_le (by omega)]
    have hclosed : (feed [] (Write.atPrint l).bytes).1 = [] := by
      rw [hbytes]
      exact feed_closed [] _
    have hline : linesOf (Write.atPrint l).bytes = [[], l] := by
      rw [hbytes, linesOf, feed_frame hplain]
    have hrest := ih fun l hl => h l (List.mem_cons_of_mem _ hl)
    show linesOf ((Write.atPrint l).bytes ++ responses rest) = _
    rw [linesOf_append hclosed, hline, hrest]
    rfl

theorem outcomeOf_spaced (command : Text) (lines : List Text) :
    outcomeOf command true (lines.flatMap fun l => [[], l]) = outcomeOf command true lines := by
  have hfilter : (lines.flatMap fun l => [[], l]).filter (routed command true) =
      lines.filter (routed command true) := by
    induction lines with
    | nil => rfl
    | cons l rest ih =>
      have hnil : routed command true [] = false := by simp [routed]
      show ([] :: l :: rest.flatMap fun l => [[], l]).filter (routed command true) = _
      rw [List.filter_cons_of_neg (by simp [hnil]), List.filter_cons, List.filter_cons, ih]
  rw [outcomeOf, outcomeOf, hfilter]

/-- With the echo and without it, the outcome is that of the lines printed. -/
theorem outcome_answer (hplain : Plain command) (echo : Bool)
    (h : ∀ l ∈ lines, Plain l ∧ l.length < atOutMax) :
    outcome command true ((if echo then command ++ [0x0D] else []) ++ responses lines) =
      outcomeOf command true lines := by
  have hlines : outcomeOf command true (linesOf (responses lines)) =
      outcomeOf command true lines := by
    rw [linesOf_responses h, outcomeOf_spaced]
  cases echo with
  | false => exact hlines
  | true =>
    cases lines with
    | nil =>
      have hopen : linesOf (command ++ [0x0D] ++ responses []) = [] := by
        show linesOf (command ++ [0x0D] ++ []) = []
        rw [List.append_nil, linesOf, feed_append, feed_plain hplain]
        rfl
      show outcomeOf command true (linesOf (command ++ [0x0D] ++ responses [])) = _
      rw [hopen]
    | cons l rest =>
      have hecho := outcome_echo hplain (List.cons_ne_nil l rest)
      exact hecho.trans hlines

/-! ## Texts of digits and commas -/

/-- A text of hex digits and commas. -/
def ListText (t : Text) : Prop := ∀ c ∈ t, isxdigit c = true ∨ c = 44

theorem ListText.lacks (h : ListText t) {x : UInt8} (hx : ¬(isxdigit x = true ∨ x = 44)) :
    x ∉ t := fun hm => hx (h x hm)

theorem ListText.plain (h : ListText t) : Plain t where
  cr := h.lacks (by decide)
  lf := h.lacks (by decide)
  prompt hp := h.lacks (by decide) (List.mem_of_mem_head? hp)

set_option maxRecDepth 4000 in
theorem upperChar_ne : ∀ c : UInt8, isxdigit c = true ∨ c = 44 → 84 ∉ upperChar c :=
  forall_char (by decide)

theorem ListText.noNul (h : ListText t) : 0 ∉ t := h.lacks (by decide)

/-- A text that lacks a character of every prompt is no prompt. -/
theorem parse_of_needs (hsimple : ∀ q ∈ simplePrompts, ∃ x ∈ q.1.needs, x ∉ t) (hcolon : 58 ∉ t)
    (hr : 82 ∉ t) (rxHex : Bool) : parsePrompt t rxHex = none := by
  have hnone : simplePrompts.findSome? (fun q => (q.1.first t).map fun m => q.2 m.1) = none := by
    rw [List.findSome?_eq_none_iff]
    intro q hq
    obtain ⟨x, hx, hlacks⟩ := hsimple q hq
    rw [(fails_of_needs hx hlacks).first]
    rfl
  have htext : Fails Host.textHead t := fails_of_needs (x := 58) (by decide) hcolon
  have hrx : (ascii "RX:").isPrefixOf t = false := by
    rw [Bool.eq_false_iff]
    intro hpre
    exact hr ((List.isPrefixOf_iff_prefix.mp hpre).subset (by decide))
  rw [parsePrompt, hnone]
  dsimp only
  rw [hrx, if_neg (by decide), parseText, htext.first]
  rfl

/-- A text without a `T`, in either case, is no echo of a command. -/
theorem not_echo_of (h : ∀ c ∈ t, 84 ∉ upperChar c) (hat : IsAt command) :
    upper t ≠ upper command := by
  obtain ⟨rest, hrest⟩ := hat.upper
  intro heq
  have hm : 84 ∈ upper t := by
    rw [heq, hrest]
    simp
  obtain ⟨c, hc, hup⟩ := List.mem_flatMap.mp hm
  exact h c hc hup

/-- Every prompt has a character that is no digit and no comma. -/
theorem ListText.parse (h : ListText t) (rxHex : Bool) : parsePrompt t rxHex = none := by
  have hneeds : ∀ q ∈ simplePrompts, ∃ x ∈ q.1.needs, ¬(isxdigit x = true ∨ x = 44) := by decide
  refine parse_of_needs (fun q hq => ?_) (h.lacks (by decide)) (h.lacks (by decide)) rxHex
  obtain ⟨x, hx, hbad⟩ := hneeds q hq
  exact ⟨x, hx, h.lacks hbad⟩

/-- Such a text is no echo of a command. -/
theorem ListText.not_echo (h : ListText t) (hat : IsAt command) : upper t ≠ upper command :=
  not_echo_of (fun c hc => upperChar_ne c (h c hc)) hat

theorem ListText.routed (h : ListText t) (hat : IsAt command) :
    Host.routed command true t = !t.isEmpty := by
  rw [Host.routed, h.parse, isResponse]
  cases t with
  | nil => rfl
  | cons c s => simp [h.not_echo hat]

/-- What the host collects when the module prints the register `t` and `OK`. -/
theorem outcomeOf_value (h : ListText t) (hat : IsAt command) :
    outcomeOf command true [t, ascii "OK"] = .returned (if t = [] then [] else [t]) := by
  have hok : Host.routed command true (ascii "OK") = true := routed_ok hat.ne_ok
  have herr : errorCode t = none := by rw [errorCode, h.parse]
  have hne : t ≠ ascii "OK" := by
    intro ht
    have hm : 75 ∈ t := by
      rw [ht]
      decide
    exact h.lacks (by decide) hm
  rw [outcomeOf, List.filter_cons, h.routed hat, List.filter_cons_of_pos hok, List.filter_nil]
  by_cases ht : t = []
  · simp [ht, collect_cons]
  · simp [ht, collect_cons, herr, hne]

/-- Without the `OK` the host waits for it. -/
theorem outcomeOf_open (h : ListText t) (hat : IsAt command) :
    outcomeOf command true [t] = .waiting := by
  have herr : errorCode t = none := by rw [errorCode, h.parse]
  have hne : t ≠ ascii "OK" := by
    intro ht
    have hm : 75 ∈ t := by
      rw [ht]
      decide
    exact h.lacks (by decide) hm
  rw [outcomeOf, List.filter_cons, h.routed hat, List.filter_nil]
  by_cases ht : t = []
  · simp [ht, collect]
  · simp [ht, collect_cons, collect, herr, hne]

theorem outcomeOf_ok (hat : IsAt command) :
    outcomeOf command true [ascii "OK"] = .returned [] := by
  rw [outcomeOf, List.filter_cons_of_pos (routed_ok hat.ne_ok), List.filter_nil, collect_cons,
    if_pos rfl]

end

/-! ## The registers of the descriptor -/

/-- The registers that the host writes, with their types. -/
def descRegs : List (ℕ × SregType) :=
  [(0x48, .u16), (0x49, .u16), (0x4B, .clusters), (0x4C, .clusters)]

/-- A register of the descriptor is saved, can be read and written without a password, and holds
a number or a list of clusters. -/
structure Shared (r : Reg) : Prop where
  nv : r.info.has .nv = true
  ro : r.info.has .ro = false
  pw : r.info.has .pw = false
  wo : r.info.has .wo = false
  type : r.info.type = .u16 ∨ r.info.type = .clusters
  echo : r.info.id ≠ 0x12
  result : r.info.id ≠ 0x0E

theorem exists_shared {id : ℕ} {type : SregType} (h : (id, type) ∈ descRegs) :
    ∃ r, find id = some r ∧ r.info.id = id ∧ r.info.type = type ∧ Shared r := by
  have htab : ∀ e ∈ descRegs, ∃ r, find e.1 = some r ∧ r.info.id = e.1 ∧ r.info.type = e.2 ∧
      r.info.has .nv = true ∧ r.info.has .ro = false ∧ r.info.has .pw = false ∧
      r.info.has .wo = false ∧ (r.info.type = .u16 ∨ r.info.type = .clusters) ∧
      r.info.id ≠ 0x12 ∧ r.info.id ≠ 0x0E := by decide
  obtain ⟨r, hr, hid, htype, hnv, hro, hpw, hwo, htypes, hecho, hresult⟩ := htab _ h
  exact ⟨r, hr, hid, htype, hnv, hro, hpw, hwo, htypes, hecho, hresult⟩

theorem Shared.not_dyn {r : Reg} (h : Shared r) : r.info.type ≠ .dyn := by
  rcases h.type with ht | ht
  · simp [ht]
  · simp [ht]

theorem listText_hexText (w n : ℕ) : ListText (hexText w n) := fun c hc =>
  .inl (hexText_all w n c hc)

theorem listText_idsText (l : List UInt16) : ListText (idsText l) := by
  induction l with
  | nil =>
    intro c hc
    cases hc
  | cons v l ih =>
    cases l with
    | nil =>
      have hone : idsText [v] = hexText 4 v.toNat := by simp [idsText]
      rw [hone]
      exact listText_hexText 4 v.toNat
    | cons w l =>
      have hcons : idsText (v :: w :: l) = hexText 4 v.toNat ++ [44] ++ idsText (w :: l) := by
        simp only [idsText, List.map_cons, List.intercalate_cons_cons]
      intro c hc
      rw [hcons, List.mem_append, List.mem_append, List.mem_singleton] at hc
      rcases hc with (hc | hc) | hc
      · exact listText_hexText 4 v.toNat c hc
      · exact .inr hc
      · exact ih c hc

/-- Such a register holds digits and commas. -/
theorem Shared.listText {r : Reg} (hr : Shared r) {t u : Text} (h : normalise r.info t = .ok u) :
    ListText u := by
  obtain ⟨x, hd, rfl, -⟩ := normalise_idem h
  rcases hr.type with ht | ht
  · obtain ⟨n, -, rfl⟩ := hd.of_num (.inr ht)
    exact listText_hexText _ n
  · obtain ⟨l, -, rfl⟩ := hd.of_ids ht
    exact listText_idsText l

/-- Without a separator the whole text is the value. -/
theorem splitPassword_whole {t : Text} (hcolon : 58 ∉ t) (hsemicolon : 59 ∉ t) :
    splitPassword t = (t, none) := by
  have hcut : ∀ x : UInt8, x ∉ t → strchr t x = none := by
    intro x hx
    rcases strchr_cut (t := t) (c := x) with ⟨hnone, -⟩ | ⟨rest, -, hsplit⟩
    · exact hnone
    · have hm : x ∈ t := by
        rw [hsplit]
        simp
      exact absurd hm hx
  rw [Sreg.splitPassword, hcut 58 hcolon, hcut 59 hsemicolon]

theorem ListText.splitPassword {t : Text} (h : ListText t) : splitPassword t = (t, none) :=
  splitPassword_whole (h.lacks (by decide)) (h.lacks (by decide))

/-! ## The commands that the host sends -/

theorem dispatch_ats {rest : Text} (h : isxdigit (rest.getD 0 0) = true) :
    dispatch (ascii "ATS" ++ rest) = .sregAtCommand rest := by
  have hline : ascii "ATS" ++ rest = 65 :: 84 :: 83 :: rest := rfl
  have hup : ¬(toupper (65 : UInt8) ≠ 65 ∨ toupper (84 : UInt8) ≠ 84) := by decide
  have hs : toupper (83 : UInt8) = 83 := by decide
  have hmark : ¬(65 :: 84 :: 83 :: rest).head? = some (1 : UInt8) := by
    rw [List.head?_cons]
    decide
  rw [hline, dispatch, if_neg hmark]
  simp only [List.getD_cons_zero, List.getD_cons_succ]
  rw [if_neg hup]
  simp only [List.drop_succ_cons, List.drop_zero, List.getD_cons_zero, List.getD_cons_succ]
  rw [if_pos ⟨hs, h⟩]

/-- The two digits of a register. -/
theorem exists_digits (r : Reg) : ∃ a b, hexText 2 r.info.id = [a, b] ∧
    hexValue [a, b] = some r.info.id ∧ isxdigit a = true ∧ isxdigit b = true := by
  have hlt : ∀ r : Reg, r.info.id < 16 ^ 2 := by decide
  obtain ⟨a, b, hab⟩ := List.length_eq_two.mp (length_hexText (hlt r))
  have hvalue : hexValue [a, b] = some r.info.id := by
    rw [← hab]
    exact hexValue_hexText 2 r.info.id
  have hx := isxdigit_of_hexValue hvalue
  exact ⟨a, b, hab, hvalue, hx a (by simp), hx b (by simp)⟩

theorem cstr_digits {a b : UInt8} (ha : isxdigit a = true) (hb : isxdigit b = true) {rest : Text}
    (hrest : 0 ∉ rest) : cstr (a :: b :: rest) = a :: b :: rest := by
  have hdigit : ∀ c, isxdigit c = true → (0 : UInt8) ≠ c := by
    intro c hc h0
    subst h0
    cases hc
  apply cstr_eq
  apply List.not_mem_cons_of_ne_of_not_mem (hdigit a ha)
  exact List.not_mem_cons_of_ne_of_not_mem (hdigit b hb) hrest

section

variable {r : Reg} {m : Module} {value : Text} (dyn : ℕ → Text)

theorem sregAtCommand_read {a b : UInt8} {id : ℕ} (hid : hexValue [a, b] = some id)
    (hr : find id = some r) (s : Store) :
    sregAtCommand dyn [a, b, 63] s = readReg dyn r none s := by
  have hx := isxdigit_of_hexValue hid
  have hstop : isxdigit 63 = false := by decide
  have hn : ([a, b, 63].takeWhile isxdigit).length = 2 := by
    simp [hx a (by simp), hx b (by simp), hstop]
  have hp : (atParseHexN [a, b, 63] 2).bind find = some r := by
    rw [atParseHexN_eq (by decide) (by decide), if_neg (by simp)]
    simpa [hid] using hr
  have hread : ([a, b, 63].drop 2 == ascii "?") = true := rfl
  simp only [sregAtCommand, hn, hp, hread]
  rfl

/-- The module answers with the text of a register that it shows. -/
theorem serve_shown (hdyn : r.info.type ≠ .dyn) (hwo : r.info.has .wo = false) (m : Module) :
    serve dyn (readCommand r.info.id) m =
      some (m, m.store.val r :: printResult atOk m.store.val) := by
  obtain ⟨a, b, hab, hvalue, ha, hb⟩ := exists_digits r
  have hline : readCommand r.info.id = ascii "ATS" ++ [a, b, 63] := by
    rw [readCommand, hab]
    rfl
  have hcstr : cstr [a, b, 63] = [a, b, 63] := cstr_digits ha hb (by decide)
  have hread : readReg dyn r none m.store = ⟨atOk, m.store, [m.store.val r], []⟩ := by
    simp [readReg, hdyn, hwo]
  have hdispatch : dispatch (ascii "ATS" ++ [a, b, 63]) = .sregAtCommand [a, b, 63] :=
    dispatch_ats ha
  rw [hline, serve, hdispatch]
  simp only [hcstr, sregAtCommand_read dyn hvalue (find_id r), hread]
  rfl

theorem serve_read (hr : Shared r) (m : Module) :
    serve dyn (readCommand r.info.id) m =
      some (m, m.store.val r :: printResult atOk m.store.val) :=
  serve_shown dyn hr.not_dyn hr.wo m

/-- The host's write stores the value. -/
theorem sregAtCommand_value (hr : Shared r) (hvalue : normalise r.info value = .ok value)
    {a b : UInt8} (hdigits : hexValue [a, b] = some r.info.id) (s : Store) :
    sregAtCommand dyn (cstr (a :: b :: 61 :: value)) s = storeReg r value s := by
  have hlist := hr.listText hvalue
  have hx := isxdigit_of_hexValue hdigits
  have hrest : 0 ∉ 61 :: value := List.not_mem_cons_of_ne_of_not_mem (by decide) hlist.noNul
  rw [cstr_digits (hx a (by simp)) (hx b (by simp)) hrest,
    sregAtCommand_write (.whole hdigits (find_id r)), writeReg_unguarded hr.ro hr.pw,
    hlist.splitPassword]
  rfl

/-- The module stores the value. -/
theorem serve_write (hr : Shared r) (hvalue : normalise r.info value = .ok value) (m : Module) :
    serve dyn (writeCommand r.info.id value) m =
      some ({ m with store := (storeReg r value m.store).store },
        printResult atOk (storeReg r value m.store).store.val) := by
  obtain ⟨a, b, hab, hdigits, ha, -⟩ := exists_digits r
  have hline : writeCommand r.info.id value = ascii "ATS" ++ (a :: b :: 61 :: value) := by
    rw [writeCommand, hab]
    rfl
  have hst := storeReg_stored (s := m.store) hvalue
  have hprinted : (storeReg r value m.store).printed = [] := by
    simp only [storeReg, hvalue]
  have hdispatch : dispatch (ascii "ATS" ++ (a :: b :: 61 :: value)) =
      .sregAtCommand (a :: b :: 61 :: value) := dispatch_ats ha
  rw [hline, serve, hdispatch]
  simp only [sregAtCommand_value dyn hr hvalue hdigits, hst.result, hprinted]
  rfl

/-- The write is a step of the module. -/
theorem step_write (hr : Shared r) (hvalue : normalise r.info value = .ok value) (m : Module) :
    ∃ act, step m act = { m with store := (storeReg r value m.store).store } := by
  obtain ⟨a, b, -, hdigits, -⟩ := exists_digits r
  refine ⟨.ats (fun _ => []) (a :: b :: 61 :: value), ?_⟩
  simp only [step, Sreg.step, sregAtCommand_value _ hr hvalue hdigits]

end

/-! ## The host's steps -/

/-- `S0E` bit 1 hides `OK`, and the host waits for it. -/
def okHidden (m : Module) : Bool := sregBit 0x0E 1 m.store.val

theorem printResult_ok (m : Module) :
    printResult atOk m.store.val = if okHidden m then [] else [ascii "OK"] := by
  cases hbit : sregBit 0x0E 1 m.store.val with
  | true => simp [printResult, okHidden, hbit, atOk]
  | false => simp [printResult, okHidden, hbit]

theorem isAt_append (rest : Text) : IsAt (ascii "AT" ++ rest) := rfl

theorem plain_at {rest : Text} (hcr : 0x0D ∉ rest) (hlf : 0x0A ∉ rest) :
    Plain (ascii "AT" ++ rest) where
  cr := by simpa [ascii] using hcr
  lf := by simpa [ascii] using hlf
  prompt := by
    show (some 65 : Option UInt8) ≠ some 0x3E
    decide

/-- The commands that address a register. -/
theorem plain_command (reg : ℕ) {tail : Text} (hcr : 0x0D ∉ tail) (hlf : 0x0A ∉ tail) :
    Plain (ascii "ATS" ++ (hexText 2 reg ++ tail)) ∧
      IsAt (ascii "ATS" ++ (hexText 2 reg ++ tail)) := by
  have hdigits : ∀ c ∈ hexText 2 reg, c ≠ 0x0D ∧ c ≠ 0x0A := fun c hc =>
    ⟨(clean_hexText 2 reg c hc).1, (clean_hexText 2 reg c hc).2.1⟩
  have hline : ascii "ATS" ++ (hexText 2 reg ++ tail) =
      ascii "AT" ++ (83 :: (hexText 2 reg ++ tail)) := rfl
  rw [hline]
  refine ⟨plain_at ?_ ?_, isAt_append _⟩
  · simp only [List.mem_cons, List.mem_append, not_or]
    exact ⟨by decide, fun hm => (hdigits _ hm).1 rfl, hcr⟩
  · simp only [List.mem_cons, List.mem_append, not_or]
    exact ⟨by decide, fun hm => (hdigits _ hm).2 rfl, hlf⟩

/-- The registers of a reachable module are those of a reachable store. -/
theorem reach_store {m : Module} (h : machine.Reach m) : Sreg.machine.Reach m.store := by
  induction h with
  | init h0 =>
    cases h0
    exact .init rfl
  | @step m m' a _ _ hs ih =>
    have hstore : m'.store = Sreg.step m.store a := by
      obtain rfl := Option.some.inj hs
      cases a <;> rfl
    rw [hstore]
    exact .step ih trivial rfl

/-- A register of the descriptor keeps a text of digits and commas that fits on a line. -/
theorem Shared.value {m : Module} (h : machine.Reach m) {r : Reg} (hr : Shared r) :
    normalise r.info (m.store.val r) = .ok (m.store.val r) ∧ ListText (m.store.val r) ∧
      (m.store.val r).length < atOutMax := by
  have hok := (store_ok (reach_store h)).vals r
  have hvalue := hok.canonical hr.not_dyn
  have hfits := hok.fits
  refine ⟨hvalue, hr.listText hvalue, ?_⟩
  have hmax : valMax < atOutMax := by decide
  omega

theorem okHidden_congr {m m' : Module} (h : ∀ r : Reg, r.info.id = 0x0E →
    m'.store.val r = m.store.val r) : okHidden m' = okHidden m := by
  obtain ⟨r, hr, hid⟩ : ∃ r, find 0x0E = some r ∧ r.info.id = 0x0E := by decide
  rw [okHidden, okHidden, sregBit, sregBit, sregU32, sregU32, hr, Option.elim_some,
    Option.elim_some, h r hid]

theorem regText_update {id : ℕ} {r : Reg} (h : id ≠ r.info.id) (v : Vals) (t : Text) :
    regText id (Function.update v r t) = regText id v := by
  cases hf : find id with
  | none => rw [regText, regText, hf, Option.elim_none, Option.elim_none]
  | some r' =>
    have hid : r'.info.id = id := by simpa using List.find?_some hf
    have hne : r' ≠ r := by
      intro heq
      exact h (heq ▸ hid.symm)
    rw [regText, regText, hf, Option.elim_some, Option.elim_some, Function.update_of_ne hne]

/-- The registers of the descriptor do not hide `OK`. -/
theorem okHidden_write {r : Reg} (hr : Shared r) {value : Text}
    (hvalue : normalise r.info value = .ok value) (m : Module) :
    okHidden { m with store := (storeReg r value m.store).store } = okHidden m := by
  have hst := storeReg_stored (s := m.store) hvalue
  apply okHidden_congr
  intro r' hr'
  have hne : r' ≠ r := by
    intro heq
    exact hr.result (heq ▸ hr')
  show (storeReg r value m.store).store.val r' = _
  rw [hst.val, Function.update_of_ne hne]

section

variable {dyn : ℕ → Text} {w : World} {r : Reg} {value : Text}

theorem cmd_eq {command : Text} {m : Module} {lines : List Text} (hplain : Plain command)
    (hserve : serve dyn command w.module = some (m, lines))
    (hlines : ∀ l ∈ lines, Plain l ∧ l.length < atOutMax) :
    cmd dyn command w =
      match outcomeOf command true lines with
      | .returned values => some (values, ⟨m, w.sent ++ [command]⟩)
      | _ => none := by
  have houtcome := outcome_answer hplain w.module.store.echo hlines
  rw [cmd, hserve, Option.bind_some]
  dsimp only
  cases hcollected : outcomeOf command true lines <;>
    rw [hcollected] at houtcome <;> rw [houtcome]

theorem ok_line : Plain (ascii "OK") ∧ (ascii "OK").length < atOutMax := by
  refine ⟨⟨?_, ?_, ?_⟩, ?_⟩ <;> decide

/-- **Reading.** `sreg_get` returns what the register holds, unless the module hides `OK`. -/
theorem sregGet_eq (h : machine.Reach w.module) (hr : Shared r) :
    sregGet dyn r.info.id w = if okHidden w.module then none
      else some (w.module.store.val r, ⟨w.module, w.sent ++ [readCommand r.info.id]⟩) := by
  obtain ⟨-, hlist, hlen⟩ := hr.value h
  have hcr : 0x0D ∉ ascii "?" := by decide
  have hlf : 0x0A ∉ ascii "?" := by decide
  obtain ⟨hplain, hat⟩ := plain_command r.info.id hcr hlf
  rw [← readCommand] at hplain hat
  have hserve := serve_read dyn hr w.module
  rw [printResult_ok] at hserve
  have hvalue : Plain (w.module.store.val r) ∧ (w.module.store.val r).length < atOutMax :=
    ⟨hlist.plain, hlen⟩
  cases hhide : okHidden w.module with
  | true =>
    rw [hhide, if_pos rfl] at hserve
    rw [sregGet, cmd_eq hplain hserve (by simpa using hvalue), outcomeOf_open hlist hat]
    rfl
  | false =>
    rw [hhide, if_neg Bool.false_ne_true] at hserve
    have hlines : ∀ l ∈ [w.module.store.val r, ascii "OK"], Plain l ∧ l.length < atOutMax := by
      intro l hl
      rcases List.mem_pair.mp hl with rfl | rfl
      · exact hvalue
      · exact ok_line
    rw [sregGet, cmd_eq hplain hserve hlines, outcomeOf_value hlist hat]
    by_cases ht : w.module.store.val r = []
    · simp [ht]
    · simp [ht, hlist.parse]

/-- **Writing.** `sreg_set` stores the value. -/
theorem sregSet_eq (hok : okHidden w.module = false) (hr : Shared r)
    (hvalue : normalise r.info value = .ok value) :
    sregSet dyn r.info.id value w =
      some ⟨{ w.module with store := (storeReg r value w.module.store).store },
        w.sent ++ [writeCommand r.info.id value]⟩ := by
  have hlist := hr.listText hvalue
  have hcr : 0x0D ∉ ascii "=" ++ value := by
    simpa [ascii] using hlist.plain.cr
  have hlf : 0x0A ∉ ascii "=" ++ value := by
    simpa [ascii] using hlist.plain.lf
  obtain ⟨hplain, hat⟩ := plain_command r.info.id hcr hlf
  rw [← writeCommand] at hplain hat
  have hserve := serve_write dyn hr hvalue w.module
  have hprinted := printResult_ok
    { w.module with store := (storeReg r value w.module.store).store }
  rw [okHidden_write hr hvalue, hok, if_neg Bool.false_ne_true] at hprinted
  rw [hprinted] at hserve
  rw [sregSet, cmd_eq hplain hserve (by simpa using ok_line), outcomeOf_ok hat]
  rfl

end

/-- A module that was reached and prints `OK`. -/
structure Ready (m : Module) : Prop where
  reach : machine.Reach m
  shown : okHidden m = false

section

variable {dyn : ℕ → Text} {w : World} {m : Module}

/-- A reboot keeps the register that hides `OK`. -/
theorem Ready.boot (h : Ready m) : Ready (boot m.store.saved) where
  reach := .step h.reach trivial (show machine.step m .reboot = _ from rfl)
  shown := by
    have hst := reach_store h.reach
    rw [← h.shown]
    apply okHidden_congr
    intro r hr
    have hv : ¬Volatile r := by
      rw [Volatile, hr]
      decide
    exact (mirrors hst).reboot (store_ok hst) hv

theorem Ready.write (h : Ready m) {r : Reg} (hr : Shared r) {value : Text}
    (hvalue : normalise r.info value = .ok value) :
    Ready { m with store := (storeReg r value m.store).store } where
  reach := by
    obtain ⟨act, hact⟩ := step_write hr hvalue m
    exact .step h.reach trivial (congrArg some hact)
  shown := (okHidden_write hr hvalue m).trans h.shown

/-- **Resetting.** `reset` boots the module. -/
theorem reset_eq (h : Ready w.module) : reset dyn w =
    some ⟨boot w.module.store.saved, w.sent ++ [ascii "ATZ"] ++ [ascii "AT"]⟩ := by
  have hatz : dispatch (ascii "ATZ") = .handler .atz [] := by decide
  have hat : dispatch (ascii "AT") = .handler .at_ [] := by decide
  have hplainz : Plain (ascii "ATZ") := by refine ⟨?_, ?_, ?_⟩ <;> decide
  have hplain : Plain (ascii "AT") := by refine ⟨?_, ?_, ?_⟩ <;> decide
  have hprinted := printResult_ok w.module
  rw [h.shown, if_neg Bool.false_ne_true] at hprinted
  have hprinted' := printResult_ok (boot w.module.store.saved)
  rw [h.boot.shown, if_neg Bool.false_ne_true] at hprinted'
  have hserve : serve dyn (ascii "ATZ") w.module =
      some (boot w.module.store.saved, [ascii "OK"]) := by
    rw [← hprinted, serve, hatz]
    rfl
  have hserve' : serve dyn (ascii "AT") (boot w.module.store.saved) =
      some (boot w.module.store.saved, [ascii "OK"]) := by
    rw [← hprinted', serve, hat]
    rfl
  rw [reset, cmd_eq hplainz hserve (by simpa using ok_line), outcomeOf_ok (by decide)]
  dsimp only
  rw [Option.bind_some, cmd_eq hplain hserve' (by simpa using ok_line),
    outcomeOf_ok (by decide)]
  rfl

/-! ## The loop -/

/-- A register of the descriptor and a value that it takes unchanged. -/
def Target (p : ℕ × Text) : Prop :=
  ∃ r, find p.1 = some r ∧ r.info.id = p.1 ∧ Shared r ∧ normalise r.info p.2 = .ok p.2

/-- What the loop leaves: `flag` tells whether a register was written. -/
structure Wrote (ps : List (ℕ × Text)) (changed : Bool) (w : World) (flag : Bool) (w' : World) :
    Prop where
  ready : Ready w'.module
  ep2 : w'.module.ep2 = w.module.ep2
  frame : ∀ id ∉ ps.map Prod.fst,
    regText id w'.module.store.val = regText id w.module.store.val
  values : ∀ p ∈ ps, regText p.1 w'.module.store.val = p.2
  flag : flag = true ↔ changed = true ∨ ∃ p ∈ ps, regText p.1 w.module.store.val ≠ p.2

variable {ps : List (ℕ × Text)}

/-- **The loop.** Every register ends with its value. -/
theorem writeChanged_eq (hps : ∀ p ∈ ps, Target p) (hnd : (ps.map Prod.fst).Nodup)
    (h : Ready w.module) (changed : Bool) :
    ∃ flag w', writeChanged dyn ps changed w = some (flag, w') ∧ Wrote ps changed w flag w' := by
  induction ps generalizing w changed with
  | nil => exact ⟨changed, w, rfl, h, rfl, fun _ _ => rfl, by simp, by simp⟩
  | cons p rest ih =>
    obtain ⟨reg, value⟩ := p
    obtain ⟨hnew, hnd'⟩ := List.nodup_cons.mp hnd
    have hrest : ∀ p ∈ rest, Target p := fun p hp => hps p (List.mem_cons_of_mem _ hp)
    obtain ⟨r, hr, hid, hshared, hvalue⟩ := hps _ List.mem_cons_self
    dsimp only at hr hid hvalue hnew
    subst hid
    have htext : ∀ v : Vals, regText r.info.id v = v r := fun v => by
      rw [regText, hr, Option.elim_some]
    have hget := @sregGet_eq dyn w r h.reach hshared
    rw [h.shown, if_neg Bool.false_ne_true] at hget
    by_cases heq : w.module.store.val r = value
    · obtain ⟨flag, w', hrun, hw⟩ := ih hrest hnd'
        (w := ⟨w.module, w.sent ++ [readCommand r.info.id]⟩) h changed
      refine ⟨flag, w', ?_, hw.ready, hw.ep2, ?_, ?_, ?_⟩
      · rw [writeChanged, hget, Option.bind_some]
        dsimp only
        rw [if_neg (not_not.mpr heq)]
        exact hrun
      · intro id hno
        exact hw.frame id fun hm => hno (List.mem_cons_of_mem _ hm)
      · intro p hp
        rcases List.mem_cons.mp hp with rfl | hp
        · exact (hw.frame _ hnew).trans ((htext _).trans heq)
        · exact hw.values p hp
      · rw [hw.flag, List.exists_mem_cons_iff, htext, heq]
        simp
    · have hready := h.write hshared hvalue
      have hst := storeReg_stored (s := w.module.store) hvalue
      obtain ⟨flag, w', hrun, hw⟩ := ih hrest hnd' (w := ⟨_, w.sent ++ [readCommand r.info.id] ++
        [writeCommand r.info.id value]⟩) hready true
      have hframe : ∀ id ≠ r.info.id, regText id (storeReg r value w.module.store).store.val =
          regText id w.module.store.val := by
        intro id hne
        rw [hst.val]
        exact regText_update hne _ _
      refine ⟨flag, w', ?_, hw.ready, hw.ep2, ?_, ?_, ?_⟩
      · rw [writeChanged, hget, Option.bind_some]
        dsimp only
        rw [if_pos heq, sregSet_eq (by exact h.shown) hshared hvalue, Option.bind_some]
        exact hrun
      · intro id hno
        rw [List.map_cons, List.mem_cons, not_or] at hno
        exact (hw.frame id hno.2).trans (hframe id hno.1)
      · intro p hp
        rcases List.mem_cons.mp hp with rfl | hp
        · refine (hw.frame _ hnew).trans ?_
          show regText r.info.id (storeReg r value w.module.store).store.val = value
          rw [hst.val, htext, Function.update_self]
        · exact hw.values p hp
      · have hdiffers : regText r.info.id w.module.store.val ≠ value := by
          rw [htext]
          exact heq
        refine iff_of_true (hw.flag.mpr (.inl rfl)) (.inr ?_)
        exact ⟨_, List.mem_cons_self, hdiffers⟩

/-- When every register has its value, the loop only reads. -/
theorem writeChanged_same (hps : ∀ p ∈ ps, Target p) (h : Ready w.module)
    (hsame : ∀ p ∈ ps, regText p.1 w.module.store.val = p.2) (changed : Bool) :
    writeChanged dyn ps changed w =
      some (changed, ⟨w.module, w.sent ++ ps.map fun p => readCommand p.1⟩) := by
  induction ps generalizing w with
  | nil => simp [writeChanged]
  | cons p rest ih =>
    obtain ⟨reg, value⟩ := p
    have hrest : ∀ p ∈ rest, Target p := fun p hp => hps p (List.mem_cons_of_mem _ hp)
    have hvalue := hsame _ List.mem_cons_self
    obtain ⟨r, hr, hid, hshared, -⟩ := hps _ List.mem_cons_self
    dsimp only at hr hid hvalue
    subst hid
    rw [regText, hr, Option.elim_some] at hvalue
    have hget := @sregGet_eq dyn w r h.reach hshared
    rw [h.shown, if_neg Bool.false_ne_true] at hget
    rw [writeChanged, hget, Option.bind_some]
    dsimp only
    have htail := ih hrest (w := ⟨w.module, w.sent ++ [readCommand r.info.id]⟩) h
      fun p hp => hsame p (List.mem_cons_of_mem _ hp)
    rw [if_neg (not_not.mpr hvalue), htail]
    simp

end

/-! ## What the host asks for -/

section

variable {id : ℕ} {v : Vals}

theorem denote_num (h : (id, .u16) ∈ descRegs) (n : UInt16) :
    ∃ r, find id = some r ∧ r.info.id = id ∧ Shared r ∧
      denote r.info (hexText 4 n.toNat) = some (.num n.toNat) ∧
      encode r.info (.num n.toNat) = hexText 4 n.toNat := by
  obtain ⟨r, hr, hid, htype, hshared⟩ := exists_shared h
  have hlen := length_hexWord n
  have hecho := hshared.echo
  refine ⟨r, hr, hid, hshared, ?_, ?_⟩
  · simp [denote, htype, SregType.digits, hlen, hexValue_hexText, hecho]
  · simp [encode, htype, SregType.digits]

theorem denote_ids (h : (id, .clusters) ∈ descRegs) {l : List UInt16}
    (hl : l.length ≤ maxClusters) :
    ∃ r, find id = some r ∧ r.info.id = id ∧ Shared r ∧
      denote r.info (idsText l) = some (.ids l) ∧ encode r.info (.ids l) = idsText l := by
  obtain ⟨r, hr, hid, htype, hshared⟩ := exists_shared h
  refine ⟨r, hr, hid, hshared, ?_, rfl⟩
  simp only [denote, htype, idList_idsText, Option.bind_some]
  rw [if_neg (by omega)]

theorem Target.of_denote {t : Text} {x : RegValue}
    (h : ∃ r, find id = some r ∧ r.info.id = id ∧ Shared r ∧ denote r.info t = some x ∧
      encode r.info x = t) : Target (id, t) := by
  obtain ⟨r, hr, hid, hshared, hdenote, hencode⟩ := h
  refine ⟨r, hr, hid, hshared, ?_⟩
  rw [normalise_eq hshared.not_dyn, hdenote, ← hencode]

/-- `sreg_u32` reads the number that was written. -/
theorem sregU32_num (h : (id, .u16) ∈ descRegs) {n : UInt16}
    (ht : regText id v = hexText 4 n.toNat) : sregU32 id v = n.toNat := by
  obtain ⟨r, hr, -, -, hdenote, -⟩ := denote_num h n
  rw [regText, hr, Option.elim_some] at ht
  rw [← ht] at hdenote
  exact sregU32_eq hr (denotes_of_denote hdenote)

/-- `sreg_clusters` reads the clusters that were written. -/
theorem sregClusters_ids (h : (id, .clusters) ∈ descRegs) {l : List UInt16}
    (hl : l.length ≤ maxClusters) (ht : regText id v = idsText l) :
    sregClusters id maxClusters v = l := by
  obtain ⟨r, hr, -, -, hdenote, -⟩ := denote_ids h hl
  rw [regText, hr, Option.elim_some] at ht
  rw [← ht] at hdenote
  exact sregClusters_eq hr (denotes_of_denote hdenote)

end

section

variable {dyn : ℕ → Text} {profile deviceId : UInt16} {ins outs : List UInt16} {w w' : World}

/-- The registers take the texts that the host writes. -/
theorem target_wanted (hins : ins.length ≤ maxClusters) (houts : outs.length ≤ maxClusters) :
    ∀ p ∈ wanted profile deviceId ins outs, Target p := by
  intro p hp
  simp only [wanted, List.mem_cons, List.not_mem_nil, or_false] at hp
  rcases hp with rfl | rfl | rfl | rfl
  · exact .of_denote (denote_num (by decide) profile)
  · exact .of_denote (denote_num (by decide) deviceId)
  · exact .of_denote (denote_ids (by decide) hins)
  · exact .of_denote (denote_ids (by decide) houts)

/-- The lists in the array, one behind the other. -/
theorem memcpy_lists (ins outs rest : List UInt16) :
    (memcpy (memcpy rest 0 ins) ins.length outs).take ins.length = ins ∧
      ((memcpy (memcpy rest 0 ins) ins.length outs).drop ins.length).take outs.length = outs := by
  have hfirst : (memcpy rest 0 ins).take ins.length = ins := by
    simp [memcpy]
  rw [memcpy, hfirst, List.append_assoc]
  refine ⟨List.take_left, ?_⟩
  rw [List.drop_left]
  exact List.take_left

/-- **The descriptor.** It says what the registers hold when it is built. -/
theorem described_build (hins : ins.length ≤ maxClusters) (houts : outs.length ≤ maxClusters)
    {v : Vals} (h : ∀ p ∈ wanted profile deviceId ins outs, regText p.1 v = p.2) (e : Ep2) :
    Described (ep2Build v e) profile deviceId ins outs := by
  simp only [wanted, List.forall_mem_cons] at h
  obtain ⟨h48, h49, h4B, h4C, -⟩ := h
  have hprofile : sregU32 0x48 v = profile.toNat := sregU32_num (by decide) h48
  have hdevice : sregU32 0x49 v = deviceId.toNat := sregU32_num (by decide) h49
  have hin : sregClusters 0x4B maxClusters v = ins := sregClusters_ids (by decide) hins h4B
  have hout : sregClusters 0x4C maxClusters v = outs := sregClusters_ids (by decide) houts h4C
  have hsmall : ∀ l : List UInt16, l.length ≤ maxClusters → l.length.toUInt8.toNat = l.length := by
    intro l hl
    have hlt : maxClusters < UInt8.size := by decide
    exact UInt8.toNat_ofNat_of_lt' (by omega)
  obtain ⟨hfirst, hsecond⟩ := memcpy_lists ins outs e.desc.appClusterList
  refine ⟨?_, ?_, ?_, ?_, ?_⟩
  · simp [ep2Build, hprofile]
  · simp [ep2Build, hprofile]
  · simp [ep2Build, hdevice]
  · simp only [SimpleDesc.inputs, ep2Build, hin, hout, hsmall ins hins]
    exact hfirst
  · simp only [SimpleDesc.outputs, ep2Build, hin, hout, hsmall ins hins, hsmall outs houts]
    exact hsecond

/-- A reboot keeps the registers of the descriptor. -/
theorem regText_boot (h : Ready w.module) {p : ℕ × Text} (hp : Target p) :
    regText p.1 (boot w.module.store.saved).store.val = regText p.1 w.module.store.val := by
  obtain ⟨r, hr, -, hshared, -⟩ := hp
  have hst := reach_store h.reach
  have hv : ¬Volatile r := not_volatile hshared.nv
  rw [regText, regText, hr, Option.elim_some, Option.elim_some]
  exact (mirrors hst).reboot (store_ok hst) hv

/-- A call returns only if the module prints `OK`. -/
theorem ready_of_returned (hreach : machine.Reach w.module) {changed : Bool}
    (hret : configureEndpoint2 dyn profile deviceId ins outs w = some (changed, w')) :
    Ready w.module := by
  have hmem : (0x48, SregType.u16) ∈ descRegs := by decide
  obtain ⟨r, -, hid, -, hshared⟩ := exists_shared hmem
  refine ⟨hreach, ?_⟩
  by_contra hhide
  rw [Bool.not_eq_false] at hhide
  have hget := @sregGet_eq dyn w r hreach hshared
  rw [hid, hhide, if_pos rfl] at hget
  rw [configureEndpoint2, wanted, writeChanged, hget] at hret
  cases hret

/-- A call after which nothing is left to write returns `False` and only reads. -/
theorem configure_same (h : Ready w.module) (hins : ins.length ≤ maxClusters)
    (houts : outs.length ≤ maxClusters)
    (hsame : ∀ p ∈ wanted profile deviceId ins outs, regText p.1 w.module.store.val = p.2) :
    configureEndpoint2 dyn profile deviceId ins outs w =
      some (false, ⟨w.module, w.sent ++
        (wanted profile deviceId ins outs).map fun p => readCommand p.1⟩) := by
  rw [configureEndpoint2, writeChanged_same (target_wanted hins houts) h hsame]
  rfl

variable (dyn) in
/-- **Configuring endpoint 2.** From every reachable module, a call that returns leaves the
descriptor that was asked for, and a second call returns `False` and only reads, exactly when some
register differed before it or the descriptor was already the one asked for. -/
theorem configure_settles (h : machine.Reach w.module) (hins : ins.length ≤ 8)
    (houts : outs.length ≤ 8) {changed : Bool}
    (hret : configureEndpoint2 dyn profile deviceId ins outs w = some (changed, w')) :
    (Described w'.module.ep2 profile deviceId ins outs ∧
      configureEndpoint2 dyn profile deviceId ins outs w' =
        some (false, ⟨w'.module, w'.sent ++
          (wanted profile deviceId ins outs).map fun p => readCommand p.1⟩)) ↔
    ((∃ p ∈ wanted profile deviceId ins outs, regText p.1 w.module.store.val ≠ p.2) ∨
      Described w.module.ep2 profile deviceId ins outs) := by
  have hready := ready_of_returned h hret
  have htargets := @target_wanted profile deviceId ins outs hins houts
  by_cases hsame : ∀ p ∈ wanted profile deviceId ins outs, regText p.1 w.module.store.val = p.2
  · -- Nothing is written, and the descriptor stays what it was.
    have hno : ¬∃ p ∈ wanted profile deviceId ins outs,
        regText p.1 w.module.store.val ≠ p.2 := by
      push Not
      exact hsame
    have hrun := @configure_same dyn profile deviceId ins outs w hready hins houts hsame
    rw [hret, Option.some_inj, Prod.mk.injEq] at hrun
    obtain ⟨-, rfl⟩ := hrun
    have hsecond := @configure_same dyn profile deviceId ins outs
      ⟨w.module, w.sent ++ (wanted profile deviceId ins outs).map fun p => readCommand p.1⟩
      hready hins houts hsame
    rw [or_iff_right hno]
    exact and_iff_left hsecond
  · -- Something is written, and the module boots.
    push Not at hsame
    have hnodup : ((wanted profile deviceId ins outs).map Prod.fst).Nodup := by
      have hids : [0x48, 0x49, 0x4B, 0x4C].Nodup := by decide
      exact hids
    obtain ⟨flag, w₁, hrun, hw⟩ := @writeChanged_eq dyn w _ htargets hnodup hready false
    obtain rfl : flag = true := hw.flag.mpr (.inr hsame)
    have hboot : w' = ⟨boot w₁.module.store.saved, w₁.sent ++ [ascii "ATZ"] ++ [ascii "AT"]⟩ := by
      rw [configureEndpoint2, hrun, Option.bind_some] at hret
      dsimp only at hret
      rw [if_pos rfl, reset_eq hw.ready] at hret
      exact (congrArg Prod.snd (Option.some.inj hret)).symm
    have hvalues : ∀ p ∈ wanted profile deviceId ins outs,
        regText p.1 (boot w₁.module.store.saved).store.val = p.2 := fun p hp =>
      (regText_boot hw.ready (htargets p hp)).trans (hw.values p hp)
    subst hboot
    refine iff_of_true ⟨described_build hins houts hvalues _, ?_⟩ (.inl hsame)
    exact configure_same hw.ready.boot hins houts hvalues

end

/-! ## Registers written by hand -/

/-- `S48` was written since the module booted. -/
def edited : World := ⟨step (boot []) (.ats (fun _ => []) (ascii "48=1234")), []⟩

theorem edited_ready : Ready edited.module := by
  have hstep : machine.step (boot []) (.ats (fun _ => []) (ascii "48=1234")) =
      some edited.module := rfl
  refine ⟨.step (.init rfl) trivial hstep, ?_⟩
  decide

/-- The host finds the registers as it wants them, and does not reset the module. -/
theorem edited_not_described : machine.Reach edited.module ∧
    ∃ w', configureEndpoint2 (fun _ => []) 0x1234 0 [] [] edited = some (false, w') ∧
      ¬Described w'.module.ep2 0x1234 0 [] [] := by
  have hsame : ∀ p ∈ wanted 0x1234 0 [] [], regText p.1 edited.module.store.val = p.2 := by decide
  refine ⟨edited_ready.reach, _, configure_same edited_ready (by decide) (by decide) hsame, ?_⟩
  intro hdesc
  have hprofile : edited.module.ep2.desc.appProfileId ≠ 0x1234 := by decide
  exact hprofile hdesc.1

theorem configure_settles_fresh :
    ∃ w', configureEndpoint2 (fun _ => []) 0x0104 0x0100 [6, 0] [10] ⟨boot [], []⟩ =
        some (true, w') ∧
      Described w'.module.ep2 0x0104 0x0100 [6, 0] [10] := by
  have hrun : (configureEndpoint2 (fun _ => []) 0x0104 0x0100 [6, 0] [10] ⟨boot [], []⟩).map
      Prod.fst = some true := by decide
  obtain ⟨⟨changed, w'⟩, hret, hchanged⟩ := Option.map_eq_some_iff.mp hrun
  obtain rfl : changed = true := hchanged
  have hreach : machine.Reach (boot []) := .init rfl
  have hiff := configure_settles (fun _ => []) (w := ⟨boot [], []⟩) hreach (by decide) (by decide)
    hret
  have hdiffers : ∃ p ∈ wanted 0x0104 0x0100 [6, 0] [10],
      regText p.1 (boot []).store.val ≠ p.2 := by decide
  exact ⟨w', hret, (hiff.mpr (.inl hdiffers)).1⟩

end ZbAt.Endpoint
