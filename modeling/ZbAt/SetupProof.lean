import ZbAt.Setup

/-!
# A network as the options ask for it (net.py)

Every command of the set-up changes the node in one way, so the procedures can be run over the
registers alone.

* `NodeOk` — what holds of a node between commands; `Node.put` — a register written.
* `sregSet_eq`, `sregBitSet_eq`, `leave_eq`, … — what each call of the host does.
* `apply_eq` — the options are written.
-/

namespace ZbAt.Network

open Text Sreg Uart Report Host Zbc
open Xcast (dispatch Handler typed sent)
open Endpoint (Module Ready printResult ok_line isAt_append plain_command)
open ReadBack (passwordPart setCommand)

/-! ## Nodes between commands -/

/-- A register written, and saved if it is to be saved. -/
def put (r : Reg) (new : Text) (s : Store) : Store :=
  let val := Function.update s.val r new
  ⟨val, if r.info.has .nv then settingsSaveOne (keyOf r.info) (new ++ [0]) s.saved else s.saved,
    if r.info.id = 0x12 then echoOf val else s.echo⟩

def Node.put (r : Reg) (new : Text) (n : Node) : Node :=
  { n with module := { n.module with store := Network.put r new n.module.store } }

/-- Between commands: the module prints `OK`, a node in a network has recorded its role, and nothing
was set in ZBOSS before it was started. -/
structure NodeOk (st : Stack) (n : Node) : Prop where
  ready : Ready n.module
  recorded : ∀ p, n.pan = some p → n.storedRole = p.role
  fresh : n.stackStarted = false → n.zboss = st.powerOn

theorem store_of_stored {r : Reg} {new : Text} {s : Store} {o : Sreg.Outcome}
    (h : Stored r new s o) : o.store = put r new s := by
  obtain ⟨-, hval, hsaved, hecho, -⟩ := h
  rw [hval] at hecho
  cases hst : o.store with
  | mk val saved echo =>
    rw [hst] at hval hsaved hecho
    dsimp only at hval hsaved hecho
    rw [hval, hsaved, hecho]
    rfl

section

variable {st : Stack} {n n' : Node} {command : Text} {lines : List Text}

/-- A command whose lines are plain. -/
theorem cmd_eq (hplain : Plain command) (hexec : n.execute st command = some (n', lines))
    (hlines : ∀ l ∈ lines, Plain l ∧ l.length < atOutMax) :
    cmd st command n =
      match outcomeOf command true lines with
      | .returned values => some (values, n')
      | _ => none := by
  have houtcome := Endpoint.outcome_answer hplain n.module.store.echo hlines
  rw [cmd, hexec, Option.bind_some]
  dsimp only [sent]
  cases hcollected : outcomeOf command true lines <;>
    rw [hcollected] at houtcome <;> rw [houtcome]

theorem NodeOk.printed (h : NodeOk st n) : printResult atOk n.vals = [ascii "OK"] := by
  have hprinted := Endpoint.printResult_ok n.module
  rwa [h.ready.shown, if_neg Bool.false_ne_true] at hprinted

/-- A command that only prints `OK`. -/
theorem cmd_ok (hplain : Plain command) (hat : IsAt command)
    (hexec : n.execute st command = some (n', [ascii "OK"])) :
    cmd st command n = some ([], n') := by
  rw [cmd_eq hplain hexec (by simpa using ok_line), Endpoint.outcomeOf_ok hat]

theorem waitReady_eq (h : NodeOk st n) : waitReady st n = some n := by
  have hexec : n.execute st (ascii "AT") = some (n, [ascii "OK"]) := by
    have hdispatch : dispatch (ascii "AT") = .handler .at_ [] := by decide
    rw [Node.execute, hdispatch]
    dsimp only
    rw [Endpoint.serve, hdispatch, ← h.printed]
    rfl
  have hplain : Plain (ascii "AT") := @Endpoint.plain_at [] (by decide) (by decide)
  rw [waitReady, cmd_ok hplain (isAt_append []) hexec]
  rfl

theorem network_eq (h : NodeOk st n) :
    network st n = some (n.pan.map fun p => infoOf p n.vals, n) := by
  have hdispatch : dispatch (ascii "AT+N") = .handler .n [] := by decide
  have hat : IsAt (ascii "AT+N") := isAt_append _
  have hplain : Plain (ascii "AT+N") := @Endpoint.plain_at (ascii "+N") (by decide) (by decide)
  have hvalue := value_pan hat n.pan n.vals
  have hexec : n.execute st (ascii "AT+N") =
      some (n, [n.pan.elim (ascii "+N=NoPAN") fun p => networkText p n.vals, ascii "OK"]) := by
    rw [Node.execute, hdispatch]
    dsimp only
    rw [cmdN, if_neg (by decide), h.printed]
  have hlines : ∀ l ∈ [n.pan.elim (ascii "+N=NoPAN") fun p => networkText p n.vals, ascii "OK"],
      Plain l ∧ l.length < atOutMax := by
    intro l hl
    rcases List.mem_pair.mp hl with rfl | rfl
    · exact ⟨hvalue.plain, hvalue.fits⟩
    · exact ok_line
  have hout := @outcomeOf_responses _ _ [] hat (List.forall_mem_singleton.mpr hvalue.response)
  rw [List.singleton_append] at hout
  rw [network, cmd_eq hplain hexec hlines, hout]
  dsimp only [Option.bind_some]
  rw [networkOf_pan]
  rfl

/-- A command that the module refuses raises an error, or is never answered. -/
theorem cmd_refused {code : ℕ} {v : Vals} (hplain : Plain command) (hat : IsAt command)
    (hcode : code ≠ atOk) (hexec : n.execute st command = some (n', printResult code v)) :
    cmd st command n = none := by
  rw [cmd, hexec, Option.bind_some]
  dsimp only
  cases hout : outcome command true ((if n.module.store.echo then sent command else []) ++
      responses (printResult code v)) with
  | raised c => rfl
  | waiting => rfl
  | returned values =>
    have hmem := (List.mem_filter.mp (ReadBack.collect_returned hout).1).1
    exact absurd (ReadBack.ok_of_mem hplain hat n.module.store.echo hmem).1 hcode

end

/-! ## Writing registers -/

section

variable {st : Stack} {n : Node} {r : Reg} {new : Text}

theorem okHidden_put (hid : r.info.id ≠ 0x0E) :
    Endpoint.okHidden (n.put r new).module = Endpoint.okHidden n.module := by
  apply Endpoint.okHidden_congr
  intro r' hr'
  have hne : r' ≠ r := by
    rintro rfl
    exact hid hr'
  exact Function.update_of_ne hne _ _

/-- A command that writes a register. -/
theorem execute_ats {a b : UInt8} {arg rest : Text} {bit : Option ℕ}
    (ha : isxdigit a = true) (hnul : 0 ∉ a :: b :: arg) (hw : WriteTo (a :: b :: arg) r bit rest) :
    n.execute st (ascii "ATS" ++ (a :: b :: arg)) =
      some ({ n with module := { n.module with
          store := (writeReg r bit rest n.module.store).store } },
        printResult (writeReg r bit rest n.module.store).result
          (writeReg r bit rest n.module.store).store.val) := by
  have hdispatch : dispatch (ascii "ATS" ++ (a :: b :: arg)) = .sregAtCommand (a :: b :: arg) :=
    Endpoint.dispatch_ats ha
  rw [Node.execute, hdispatch]
  dsimp only
  rw [Endpoint.serve, hdispatch]
  dsimp only
  rw [cstr_eq hnul, sregAtCommand_write hw, ReadBack.writeReg_printed]
  rfl

/-- An accepted write is answered with `OK`. -/
theorem cmd_write {a b : UInt8} {arg rest : Text} {bit : Option ℕ} (h : NodeOk st n)
    (ha : isxdigit a = true) (hnul : 0 ∉ a :: b :: arg) (hw : WriteTo (a :: b :: arg) r bit rest)
    (hplain : Plain (ascii "ATS" ++ (a :: b :: arg)))
    (hst : Stored r new n.module.store (writeReg r bit rest n.module.store))
    (hid : r.info.id ≠ 0x0E) :
    cmd st (ascii "ATS" ++ (a :: b :: arg)) n = some ([], n.put r new) ∧
      NodeOk st (n.put r new) := by
  have hshown : Endpoint.okHidden (n.put r new).module = false :=
    (okHidden_put hid).trans h.ready.shown
  have hprinted := Endpoint.printResult_ok (n.put r new).module
  rw [hshown, if_neg Bool.false_ne_true] at hprinted
  constructor
  · refine cmd_ok hplain (isAt_append _) ?_
    rw [execute_ats ha hnul hw, hst.result, store_of_stored hst, ← hprinted]
    rfl
  · have hstep : Endpoint.step n.module (.ats (fun _ => []) (a :: b :: arg)) =
        (n.put r new).module := by
      rw [Endpoint.step, Sreg.step, cstr_eq hnul, sregAtCommand_write hw, store_of_stored hst]
      · rfl
      · intro h
        cases h
    exact ⟨⟨.step h.ready.reach trivial (congrArg some hstep), hshown⟩, h.recorded, h.fresh⟩

/-- A register that the host writes without a password, or with it. -/
structure Written (r : Reg) : Prop where
  ro : r.info.has .ro = false
  shown : r.info.id ≠ 0x0E

/-- `sreg_set` stores the value. -/
theorem sregSet_eq {value : Text} (h : NodeOk st n) (hr : Written r)
    (hpw : r.info.has .pw = false) (hlist : Endpoint.ListText value)
    (hvalue : normalise r.info value = .ok value) :
    sregSet st r.info.id value none n = some (n.put r value) ∧ NodeOk st (n.put r value) := by
  obtain ⟨a, b, hab, hdigits, ha, hb⟩ := Endpoint.exists_digits r
  have hline : setCommand r.info.id value none = ascii "ATS" ++ (a :: b :: 61 :: value) := by
    rw [setCommand, Endpoint.writeCommand, hab, passwordPart, List.append_nil]
    rfl
  have hplain := (@plain_command r.info.id (ascii "=" ++ value)
    (by simpa [ascii] using hlist.plain.cr) (by simpa [ascii] using hlist.plain.lf)).1
  rw [hab] at hplain
  have hnul : 0 ∉ a :: b :: 61 :: value := by
    have hdigit : ∀ c, isxdigit c = true → (0 : UInt8) ≠ c := by
      rintro c hc rfl
      exact absurd hc (by decide)
    simp [hdigit a ha, hdigit b hb, hlist.noNul]
  have hst : Stored r value n.module.store (writeReg r none value n.module.store) := by
    rw [writeReg_unguarded hr.ro hpw, hlist.splitPassword]
    exact storeReg_stored hvalue
  obtain ⟨hcmd, hok⟩ := cmd_write h ha hnul (.whole hdigits (find_id r)) hplain hst hr.shown
  refine ⟨?_, hok⟩
  rw [sregSet, hline, hcmd]
  rfl

/-- A 16-bit register keeps four digits as they are, and they are read as the number. -/
theorem word_register {x : ℕ} (htype : r.info.type = .u16) (hid : r.info.id ≠ 0x12)
    (hx : x < 2 ^ 16) : normalise r.info (hexText 4 x) = .ok (hexText 4 x) ∧
      ∀ v : Vals, v r = hexText 4 x → sregU32 r.info.id v = x := by
  have hlen : (hexText 4 x).length = 4 := length_hexText (Nat.lt_of_lt_of_le hx (by decide))
  have hden : denote r.info (hexText 4 x) = some (.num x) := by
    simp [denote, htype, hlen, hid, SregType.digits]
  constructor
  · rw [normalise_num (.inr htype), hden]
    simp [encode, htype, SregType.digits]
  · intro v hv
    exact sregU32_eq (find_id r) (hv ▸ denotes_of_denote hden)

theorem setBit_lt {x bit : ℕ} (hx : x < 2 ^ 16) (hbit : bit < 16) (on : Bool) :
    setBit x bit on < 2 ^ 16 := by
  apply Nat.lt_pow_two_of_testBit
  intro i hi
  rw [testBit_setBit (Nat.lt_of_lt_of_le hx (by decide)), if_neg (by omega)]
  exact Nat.testBit_lt_two_pow (Nat.lt_of_lt_of_le hx (Nat.pow_le_pow_right (by decide) hi))

theorem s0a_lt : 8 < regTable.length := by decide

/-- `S0A` -/
def s0a : Reg := ⟨8, s0a_lt⟩

/-- The value of `S0A` with a bit written. -/
def withBit (v : Vals) (bit : ℕ) (on : Bool) : Text := hexText 4 (setBit (sregU32 0x0A v) bit on)

theorem bitCommand_eq {bit : ℕ} (hbit : bit < 16) (on : Bool) : ∃ c,
    hexValue [c] = some bit ∧ isxdigit c = true ∧
      bitCommand 0x0A bit on (some hostPassword) = ascii "ATS" ++ (48 :: 65 :: c :: 61 ::
        (ascii (if on then "1" else "0") ++ (58 :: hostPassword))) := by
  obtain ⟨c, hc⟩ := List.length_eq_one_iff.mp (length_hexText (w := 1) hbit)
  have hvalue : hexValue [c] = some bit := hc ▸ hexValue_hexText 1 bit
  refine ⟨c, hvalue, isxdigit_of_hexValue hvalue c List.mem_cons_self, ?_⟩
  have hreg : hexText 2 0x0A = [48, 65] := by decide
  rw [bitCommand, hc, hreg]
  rfl

theorem s0a_info : s0a.info.has .pw = true ∧ s0a.info.has .ro = false ∧ s0a.info.id = 0x0A ∧
    s0a.info.type = .u16 := by decide

/-- What the write of a bit of `S0A` does. -/
theorem writeReg_bit {bit : ℕ} {s : Store} (hv : ValsOk s.val) (hbit : bit < 16) (on : Bool) :
    (password s = hostPassword → Stored s0a (withBit s.val bit on) s (writeReg s0a (some bit)
      (ascii (if on then "1" else "0") ++ (58 :: hostPassword)) s)) ∧
    (password s ≠ hostPassword → writeReg s0a (some bit)
      (ascii (if on then "1" else "0") ++ (58 :: hostPassword)) s =
        .refuse atErrBadPassword s) := by
  obtain ⟨hpw, hro, hid, htype⟩ := s0a_info
  have hsuf : Suffixed (ascii (if on then "1" else "0") ++ (58 :: hostPassword))
      (ascii (if on then "1" else "0")) hostPassword := by
    refine .inl ⟨rfl, ?_⟩
    cases on <;> decide
  have hsplit := splitPassword_eq_some.mpr hsuf
  rw [writeReg_guarded hro hpw, hsplit]
  constructor
  · intro hp
    have hok : passwordOk (some hostPassword) s.val = true := by
      have hiff := @passwordOk_iff (ascii (if on then "1" else "0") ++ (58 :: hostPassword)) s
      rw [hsplit] at hiff
      refine hiff.mpr ⟨ascii (if on then "1" else "0"), ?_⟩
      rw [hp]
      exact hsuf
    have hlt : sregU32 0x0A s.val < 2 ^ 16 := hid ▸ word_lt hv htype
    have hread : strtoul (s.val s0a) = sregU32 0x0A s.val := (sregU32_id s0a s.val).symm
    have htext : bitText s0a bit (ascii (if on then "1" else "0")) s.val =
        some (withBit s.val bit on) := by
      rw [withBit, ← hread]
      cases on <;> rfl
    rw [if_pos hok, writeUnchecked, htext]
    exact storeReg_stored (word_register htype (by rw [hid]; decide) (setBit_lt hlt hbit on)).1
  · intro hp
    have hno : ¬passwordOk (some hostPassword) s.val = true := by
      have hiff := @passwordOk_iff (ascii (if on then "1" else "0") ++ (58 :: hostPassword)) s
      rw [hsplit] at hiff
      rw [hiff]
      rintro ⟨value, hsuf'⟩
      have heq := splitPassword_eq_some.mpr hsuf'
      rw [hsplit] at heq
      exact hp (Option.some.inj (Prod.mk.inj heq).2).symm
    rw [if_neg hno]

/-- `sreg_bit_set` writes the bit, if the password is right. -/
theorem sregBitSet_eq {bit : ℕ} (h : NodeOk st n) (hbit : bit < 16) (on : Bool) :
    (password n.module.store = hostPassword →
      sregBitSet st 0x0A bit on (some hostPassword) n = some (n.put s0a (withBit n.vals bit on)) ∧
        NodeOk st (n.put s0a (withBit n.vals bit on))) ∧
    (password n.module.store ≠ hostPassword →
      sregBitSet st 0x0A bit on (some hostPassword) n = none) := by
  obtain ⟨c, hk, hc, hline⟩ := bitCommand_eq hbit on
  obtain ⟨hpw, hro, hid, htype⟩ := s0a_info
  have hreg : hexValue [48, 65] = some 0x0A := by decide
  have hw : WriteTo (48 :: 65 :: c :: 61 :: (ascii (if on then "1" else "0") ++
      (58 :: hostPassword))) s0a (some bit) (ascii (if on then "1" else "0") ++
        (58 :: hostPassword)) := .bit hreg (find_id s0a) hk
  have hvals : ValsOk n.module.store.val := (store_ok (Endpoint.reach_store h.ready.reach)).vals
  obtain ⟨hgood, hbad⟩ := writeReg_bit hvals hbit on
  have hlacks : ∀ x : UInt8, isxdigit x = false →
      (∀ on : Bool, x ∉ 61 :: (ascii (if on then "1" else "0") ++ (58 :: hostPassword))) →
        x ∉ c :: 61 :: (ascii (if on then "1" else "0") ++ (58 :: hostPassword)) := by
    intro x hx hrest
    refine List.not_mem_cons_of_ne_of_not_mem ?_ (hrest on)
    rintro rfl
    rw [hc] at hx
    cases hx
  have hplain : Plain (ascii "ATS" ++ (48 :: 65 :: c :: 61 ::
      (ascii (if on then "1" else "0") ++ (58 :: hostPassword)))) :=
    (plain_command 0x0A (hlacks 0x0D (by decide) (by decide)) (hlacks 0x0A (by decide)
      (by decide))).1
  have hnul : 0 ∉ 48 :: 65 :: c :: 61 :: (ascii (if on then "1" else "0") ++
      (58 :: hostPassword)) := by
    have htail := hlacks 0 (by decide) (by decide)
    simpa using htail
  constructor
  · intro hp
    obtain ⟨hcmd, hok⟩ := cmd_write h (by decide) hnul hw hplain (hgood hp) (by rw [hid]; decide)
    refine ⟨?_, hok⟩
    rw [sregBitSet, hline, hcmd]
    rfl
  · intro hp
    have hexec := @execute_ats st n s0a 48 65 _ _ (some bit) (by decide) hnul hw
    rw [hbad hp] at hexec
    have hcode : atErrBadPassword ≠ atOk := by decide
    rw [sregBitSet, hline, cmd_refused hplain (isAt_append _) hcode hexec]
    rfl

end

/-! ## Leaving, resetting and starting -/

section

variable {st : Stack} {n : Node}

theorem NodeOk.reboot (h : NodeOk st n) (role : Role) :
    NodeOk st (powerOn st role n.module.store.saved) := by
  by_cases hrole : role = .none
  · rw [powerOn, if_pos hrole]
    exact ⟨h.ready.boot, nofun, fun _ => rfl⟩
  · rw [powerOn, if_neg hrole]
    exact ⟨h.ready.boot, nofun, nofun⟩

theorem NodeOk.factoryReset (h : NodeOk st n) :
    NodeOk st (powerOn st .none (sregFactoryReset n.module.store).saved) := by
  have hreset : NodeOk st { n with
      module := { n.module with store := sregFactoryReset n.module.store } } := by
    refine ⟨⟨.step h.ready.reach trivial (show Endpoint.machine.step _ .factoryReset = _ from rfl),
      ?_⟩, h.recorded, h.fresh⟩
    show sregBit 0x0E 1 (initVolatile loadDefaults) = false
    decide
  exact hreset.reboot .none

theorem plain_leftPan : Plain (ascii "LeftPAN") ∧ (ascii "LeftPAN").length < atOutMax :=
  ⟨(clean_line .leftPan).1.plain, by decide⟩

/-- `leave` ends with a module that has no network. -/
theorem leave_eq (h : NodeOk st n) (hrole : n.storedRole ≠ .none) :
    leave st n = some (powerOn st .none n.module.store.saved) := by
  have hdispatch : dispatch (ascii "AT+DASSL") = .handler .dassl [] := by decide
  have hat : IsAt (ascii "AT+DASSL") := isAt_append _
  have hplain : Plain (ascii "AT+DASSL") :=
    @Endpoint.plain_at (ascii "+DASSL") (by decide) (by decide)
  let post : List Text := if sregBit 0x0E s0eLeftpanOff n.vals then [] else [ascii "LeftPAN"]
  have hexec : n.execute st (ascii "AT+DASSL") =
      some (powerOn st .none n.module.store.saved, ascii "OK" :: post) := by
    rw [Node.execute, hdispatch]
    dsimp only
    rw [cmdDassl, if_neg (fun hne => hne rfl), if_neg hrole, h.printed]
    rfl
  have hpost : ∀ l ∈ post, l = ascii "LeftPAN" := by
    intro l hl
    by_cases hoff : sregBit 0x0E s0eLeftpanOff n.vals = true
    · rw [show post = [] from if_pos hoff] at hl
      cases hl
    · rw [show post = [ascii "LeftPAN"] from if_neg hoff] at hl
      exact List.mem_singleton.mp hl
  have hlines : ∀ l ∈ ascii "OK" :: post, Plain l ∧ l.length < atOutMax := by
    intro l hl
    rcases List.mem_cons.mp hl with rfl | hl
    · exact ok_line
    · exact hpost l hl ▸ plain_leftPan
  have hout := @outcomeOf_responses _ [] post hat (List.forall_mem_nil _)
  rw [List.nil_append] at hout
  rw [leave, cmd_eq hplain hexec hlines, hout]
  exact waitReady_eq (h.reboot .none)

theorem factoryReset_eq (h : NodeOk st n) :
    factoryReset st n =
      some (powerOn st .none (sregFactoryReset n.module.store).saved) := by
  have hdispatch : dispatch (ascii "AT&F") = .handler .factory [] := by decide
  have hplain : Plain (ascii "AT&F") := @Endpoint.plain_at (ascii "&F") (by decide) (by decide)
  have hexec : n.execute st (ascii "AT&F") =
      some (powerOn st .none (sregFactoryReset n.module.store).saved, [ascii "OK"]) := by
    have hprinted : printResult atOk (initVolatile loadDefaults) = [ascii "OK"] := by decide
    rw [Node.execute, hdispatch]
    dsimp only
    rw [cmdFactory, if_neg (fun hne => hne rfl), ← hprinted]
    rfl
  rw [Network.factoryReset, cmd_ok hplain (isAt_append _) hexec]
  exact waitReady_eq h.factoryReset

/-- The node that starts a network: a node whose stack is started reboots first. -/
def Node.idle (st : Stack) (n : Node) : Node :=
  if n.stackStarted then powerOn st .none n.module.store.saved else n

/-- The node in its new network. -/
def Node.joined (z : Zboss) (p : Pan) (n : Node) : Node :=
  { n with zboss := z, stackStarted := true, storedRole := p.role, pan := some p }

theorem NodeOk.idle (h : NodeOk st n) : NodeOk st (n.idle st) := by
  unfold Node.idle
  split_ifs
  · exact h.reboot .none
  · exact h

theorem idle_fresh (h : NodeOk st n) (hrole : n.storedRole = .none) :
    (n.idle st).storedRole = .none ∧ (n.idle st).stackStarted = false ∧
      (n.idle st).zboss = st.powerOn := by
  unfold Node.idle
  by_cases hs : n.stackStarted = true
  · rw [if_pos hs]
    exact ⟨rfl, rfl, rfl⟩
  · rw [if_neg hs]
    have hns : n.stackStarted = false := by simpa using hs
    exact ⟨hrole, hns, h.fresh hns⟩

/-- A reboot keeps the registers that are not copies of others. -/
theorem idle_vals (h : NodeOk st n) {r : Reg} (hv : ¬Volatile r) :
    (n.idle st).vals r = n.vals r := by
  have hst := Endpoint.reach_store h.ready.reach
  unfold Node.idle
  split_ifs
  · exact (mirrors hst).reboot (store_ok hst) hv
  · rfl

theorem code_ne (f : Failure) (role : Role) : f.code role ≠ atOk := by
  cases f <;> cases role <;> decide

/-- What `run_op` comes to on a node without a role. -/
theorem cmdStart_eq {command : Text} {mk : Regs → Start} {q : Start} {z : Zboss}
    (h : NodeOk st n) (hrole : n.storedRole = .none)
    (hstart : ∀ v, startOf command v = some (mk (regsOf v)))
    (hq : q = mk (regsOf (n.idle st).vals))
    (hz : z = prepareNewNetwork q.role q.mask q.epid (n.idle st).vals st.powerOn) :
    n.cmdStart st command = match st.run z with
      | .ok p => ((n.idle st).joined z p, printJpan (n.idle st).vals p ++ [ascii "OK"])
      | .error f => ({ n.idle st with zboss := z, stackStarted := true },
          printResult (f.code q.role) (n.idle st).vals) := by
  obtain ⟨hrole', hns, hboss⟩ := idle_fresh h hrole
  have hgo : n.cmdStart st command = (n.idle st).startNetwork st command := by
    by_cases hs : n.stackStarted = true
    · have hcond : (startOf command n.vals).isSome = true ∧ n.storedRole = .none ∧
          n.stackStarted = true := ⟨by rw [hstart]; rfl, hrole, hs⟩
      rw [Node.cmdStart, if_pos hcond, Node.idle, if_pos hs, Node.reboot, hrole]
    · rw [Node.cmdStart, if_neg fun hc => hs hc.2.2, Node.idle, if_neg hs]
  have hprinted := h.idle.printed
  rw [hgo, Node.startNetwork, hstart, ← hq]
  dsimp only
  rw [if_neg (not_not_intro hrole'), Node.runOp, hboss, ← hz]
  cases st.run z with
  | ok p => exact congrArg (fun lines => ((n.idle st).joined z p, _ ++ lines)) hprinted
  | error f => rfl

/-- **Starting a network.** With a role recorded it is an error. Otherwise the stack is set up from
the registers, after a reboot if it was started before; the host gets the network if it is up and
`S0E` does not hide it. -/
theorem start_eq {command : Text} {mk : Regs → Start} {q : Start} {z : Zboss} (h : NodeOk st n)
    (hplain : Plain command) (hat : IsAt command)
    (hexec : ∀ n : Node, n.execute st command = some (n.cmdStart st command))
    (hstart : ∀ v, startOf command v = some (mk (regsOf v)))
    (hq : q = mk (regsOf (n.idle st).vals))
    (hz : z = prepareNewNetwork q.role q.mask q.epid (n.idle st).vals st.powerOn) :
    cmd st command n = if n.storedRole ≠ .none then none
      else match st.run z with
        | .ok p => some (printJpan (n.idle st).vals p, (n.idle st).joined z p)
        | .error _ => none := by
  by_cases hrole : n.storedRole = .none
  · have hrun := cmdStart_eq h hrole hstart hq hz
    have hx := hexec n
    rw [if_neg (not_not_intro hrole)]
    cases hz' : st.run z with
    | ok p =>
      rw [hrun, hz'] at hx
      dsimp only at hx ⊢
      have hjpan : ∀ l ∈ printJpan (n.idle st).vals p, l = jpanText p := by
        intro l hl
        unfold printJpan at hl
        split_ifs at hl
        · cases hl
        · exact List.mem_singleton.mp hl
      have hlines : ∀ l ∈ printJpan (n.idle st).vals p ++ [ascii "OK"],
          Plain l ∧ l.length < atOutMax := by
        intro l hl
        rcases List.mem_append.mp hl with hl | hl
        · exact hjpan l hl ▸ ⟨plain_jpanText p, length_jpanText p⟩
        · exact List.mem_singleton.mp hl ▸ ok_line
      rw [cmd_eq hplain hx hlines, @outcomeOf_responses _ _ [] hat fun l hl =>
        hjpan l hl ▸ response_jpan hat p]
    | error f =>
      rw [hrun, hz'] at hx
      exact cmd_refused hplain hat (code_ne f q.role) hx
  · have hx := hexec n
    have hnot : ¬((startOf command n.vals).isSome = true ∧ n.storedRole = .none ∧
        n.stackStarted = true) := fun hc => hrole hc.2.1
    rw [Node.cmdStart, if_neg hnot, Node.startNetwork, hstart] at hx
    dsimp only at hx
    rw [if_pos hrole] at hx
    rw [if_pos hrole]
    exact cmd_refused hplain hat (by decide) hx

theorem form_eq {q : Start} {z : Zboss} (h : NodeOk st n)
    (hq : q = cmdEn (regsOf (n.idle st).vals))
    (hz : z = prepareNewNetwork q.role q.mask q.epid (n.idle st).vals st.powerOn) :
    cmd st (ascii "AT+EN") n = if n.storedRole ≠ .none then none
      else match st.run z with
        | .ok p => some (printJpan (n.idle st).vals p, (n.idle st).joined z p)
        | .error _ => none := by
  have hdispatch : dispatch (ascii "AT+EN") = .handler .en [] := by decide
  have hplain : Plain (ascii "AT+EN") := @Endpoint.plain_at (ascii "+EN") (by decide) (by decide)
  refine start_eq h hplain (isAt_append _) (fun n => ?_) (fun v => ?_) hq hz
  · rw [Node.execute, hdispatch]
  · rw [startOf, Deferred.command, hdispatch]
    rfl

theorem join_eq {q : Start} {z : Zboss} (h : NodeOk st n)
    (hq : q = cmdJn (regsOf (n.idle st).vals))
    (hz : z = prepareNewNetwork q.role q.mask q.epid (n.idle st).vals st.powerOn) :
    cmd st (ascii "AT+JN") n = if n.storedRole ≠ .none then none
      else match st.run z with
        | .ok p => some (printJpan (n.idle st).vals p, (n.idle st).joined z p)
        | .error _ => none := by
  have hdispatch : dispatch (ascii "AT+JN") = .handler .jn [] := by decide
  have hplain : Plain (ascii "AT+JN") := @Endpoint.plain_at (ascii "+JN") (by decide) (by decide)
  refine start_eq h hplain (isAt_append _) (fun n => ?_) (fun v => ?_) hq hz
  · rw [Node.execute, hdispatch]
  · rw [startOf, Deferred.command, hdispatch]
    rfl

end

/-! ## Writing the options -/

/-- `S00`, `S02` and `S0F` -/
def s00 : Reg := ⟨0, by decide⟩
def s02 : Reg := ⟨2, by decide⟩
def s0f : Reg := ⟨13, by decide⟩

/-- The registers that the procedures write. -/
def optionRegs : List Reg := [s00, s02, HexRev.epidReg, s0a, s0f]

/-- The node with the options written that need no password. -/
def Node.optioned (net : NetworkOptions) (n : Node) : Node :=
  ((n.put s00 (hexText 4 net.mask)).put s02 (hexText 4 net.panId.toNat)).put HexRev.epidReg
    net.epidText

/-- The node with the options written. -/
def Node.applied (net : NetworkOptions) (n : Node) : Node :=
  (n.optioned net).put s0a (withBit n.vals s0aNoTclkRequest net.legacy)

section

variable {st : Stack} {n : Node} {net : NetworkOptions} {v : Vals}

theorem vals_put (r : Reg) (new : Text) : (n.put r new).vals = Function.update n.vals r new := rfl

theorem mask_lt (net : NetworkOptions) : net.mask < 2 ^ 16 := by
  unfold NetworkOptions.mask
  cases net.channel with
  | none => decide
  | some c =>
    rw [Option.elim_some, Nat.one_shiftLeft]
    exact Nat.pow_lt_pow_right (by decide) (by have := c.2.2; omega)

set_option maxRecDepth 4000 in
theorem toupper_twice : ∀ c, toupper (toupper c) = toupper c := forall_char (by decide)

set_option maxRecDepth 4000 in
theorem isxdigit_upper : ∀ c, isxdigit c = true → isxdigit (toupper c) = true :=
  forall_char (by decide)

/-- The digits of the extended PAN ID. -/
theorem epidText_digits (net : NetworkOptions) : net.epidText.length = 16 ∧
    (∀ c ∈ net.epidText, isxdigit c = true) ∧ net.epidText.map toupper = net.epidText := by
  have hdigits : (net.epid.elim (List.replicate 16 48) Subtype.val).length = 16 ∧
      ∀ c ∈ net.epid.elim (List.replicate 16 48) Subtype.val, isxdigit c = true := by
    cases net.epid with
    | none =>
      refine ⟨List.length_replicate, fun c hc => ?_⟩
      rw [List.eq_of_mem_replicate hc]
      decide
    | some e => exact e.2
  rw [NetworkOptions.epidText]
  refine ⟨by rw [List.length_map, hdigits.1], fun c hc => ?_, ?_⟩
  · obtain ⟨d, hd, rfl⟩ := List.mem_map.mp hc
    exact isxdigit_upper d (hdigits.2 d hd)
  · rw [List.map_map]
    exact List.map_congr_left fun c _ => toupper_twice c

theorem normalise_epid (net : NetworkOptions) :
    normalise HexRev.epidReg.info net.epidText = .ok net.epidText := by
  obtain ⟨hlen, hall, hupper⟩ := epidText_digits net
  obtain ⟨bs, hbs, -, htext⟩ := HexRev.hexBytes_of_digits (n := 8) hlen hall
  have hdenote : denote HexRev.epidReg.info net.epidText = some (.bytes bs) := by
    have htype : HexRev.epidReg.info.type = .hex64 := rfl
    simp only [denote, htype, SregType.digits, hlen, if_true, hbs, Option.map_some]
  rw [normalise_bytes (.inl rfl), hdenote]
  exact congrArg Except.ok (htext.trans hupper)

theorem password_put {r : Reg} {new : Text} (hr : r.info.id ≠ 0x0C) :
    password (n.put r new).module.store = password n.module.store := by
  refine Function.update_of_ne ?_ _ _
  rintro rfl
  exact hr rfl

/-- The digits of a number are written as they are. -/
theorem sregSet_word {r : Reg} {x : ℕ} (h : NodeOk st n) (hr : Written r)
    (htype : r.info.type = .u16) (hpw : r.info.has .pw = false) (hid : r.info.id ≠ 0x12)
    (hx : x < 2 ^ 16) :
    sregSet st r.info.id (hexText 4 x) none n = some (n.put r (hexText 4 x)) ∧
      NodeOk st (n.put r (hexText 4 x)) :=
  sregSet_eq h hr hpw
    (fun c hc => .inl (isxdigit_of_hexValue (hexValue_hexText 4 x) c hc))
    (word_register htype hid hx).1

theorem vals_optioned {r : Reg} (h0 : r ≠ s00) (h2 : r ≠ s02) (h3 : r ≠ HexRev.epidReg) :
    (n.optioned net).vals r = n.vals r := by
  rw [Node.optioned, vals_put, vals_put, vals_put, Function.update_of_ne h3,
    Function.update_of_ne h2, Function.update_of_ne h0]

/-- `apply` writes the options, if the password is right. -/
theorem apply_eq (h : NodeOk st n) :
    (password n.module.store = hostPassword →
      net.apply st n = some (n.applied net) ∧ NodeOk st (n.applied net)) ∧
    (password n.module.store ≠ hostPassword → net.apply st n = none) := by
  obtain ⟨hset0, hok0⟩ := sregSet_word h ⟨rfl, by decide⟩ (show s00.info.type = .u16 from rfl) rfl
    (by decide) (mask_lt net)
  obtain ⟨hset2, hok2⟩ := sregSet_word hok0 ⟨rfl, by decide⟩
    (show s02.info.type = .u16 from rfl) rfl (by decide) (UInt16.toNat_lt net.panId)
  obtain ⟨hset3, hok3⟩ := sregSet_eq hok2 ⟨rfl, by decide⟩
    (show HexRev.epidReg.info.has .pw = false from rfl)
    (fun c hc => .inl ((epidText_digits net).2.1 c hc)) (normalise_epid net)
  have hread : withBit (n.optioned net).vals s0aNoTclkRequest net.legacy =
      withBit n.vals s0aNoTclkRequest net.legacy := by
    have hs0a : ∀ v : Vals, sregU32 0x0A v = strtoul (v s0a) := sregU32_id s0a
    rw [withBit, withBit, hs0a, hs0a, vals_optioned (by decide) (by decide) (by decide)]
  have hpw : password (n.optioned net).module.store = password n.module.store := by
    rw [Node.optioned, password_put (by decide), password_put (by decide),
      password_put (by decide)]
  have hprogram : net.apply st n =
      sregBitSet st 0x0A s0aNoTclkRequest net.legacy (some hostPassword) (n.optioned net) := by
    rw [NetworkOptions.apply]
    refine (congrArg (fun o => Option.bind o _) hset0).trans ?_
    rw [Option.bind_some]
    refine (congrArg (fun o => Option.bind o _) hset2).trans ?_
    rw [Option.bind_some]
    refine (congrArg (fun o => Option.bind o _) hset3).trans ?_
    rw [Option.bind_some]
    rfl
  have hbit := @sregBitSet_eq st (n.optioned net) s0aNoTclkRequest hok3 (by decide) net.legacy
  rw [hread, hpw, ← hprogram] at hbit
  exact hbit

end

end ZbAt.Network
