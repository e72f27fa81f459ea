import ZbAt.SregPersist

/-!
# S-registers: keys stay secret

What a host reads back through the register commands does not depend on the write-only registers.

* `Agree ids` — two stores differ at most in the values of the registers `ids`.
* `command_agree` — a command shows the same in two such stores, as long as it does not compare
  its password with a differing `S0C`.
* `keys_never_leak` — whole sessions: the keys `S08` and `S09` never show, and neither does the
  password when nothing is written.
-/

namespace ZbAt.Sreg

open Text

/-! ## Sessions -/

/-- A register command of the host with the text of its arguments. -/
inductive Command
  | ats (arg : Text)
  | tokdump (args : Text)

def Command.run (dyn : ℕ → Text) (s : Store) : Command → Outcome
  | .ats arg => sregAtCommand dyn (cstr arg) s
  | .tokdump args => sregCmdTokdump dyn (cstr args) s

/-- The command writes to no register. -/
def Command.Reads : Command → Prop
  | .ats arg => ¬∃ r bit rest, WriteTo (cstr arg) r bit rest
  | .tokdump _ => True

/-- What a command shows: its result, the lines it prints and the registers it reports. -/
def Outcome.shown (o : Outcome) : ℕ × List Text × List ℕ := (o.result, o.printed, o.written)

/-- What the commands show, each with what `sreg_dynamic_read` gives to it, and the store after
them. -/
def session (cmds : List ((ℕ → Text) × Command)) (s : Store) :
    List (ℕ × List Text × List ℕ) × Store :=
  answers (fun c s => ((c.2.run c.1 s).shown, (c.2.run c.1 s).store)) cmds s

/-! ## Agreement -/

/-- The saved entries of all registers but `ids`. -/
def savedOthers (ids : List ℕ) (saved : Settings) : Settings :=
  saved.filter fun e => allRegs.all fun r => e.1 != keyOf r.info || !ids.contains r.info.id

/-- The stores differ at most in the values of the registers `ids`. -/
structure Agree (ids : List ℕ) (s t : Store) : Prop where
  val : ∀ r : Reg, r.info.id ∉ ids → s.val r = t.val r
  saved : savedOthers ids s.saved = savedOthers ids t.saved
  echo : s.echo = t.echo

/-- The registers `ids` are write-only, and no command computes with their values. -/
def Secret (ids : List ℕ) : Prop :=
  ∀ r : Reg, r.info.id ∈ ids → r.info.has .wo = true ∧ numeric r.info = false

instance (ids : List ℕ) : Decidable (Secret ids) := inferInstanceAs (Decidable (∀ _, _))

/-- Two outcomes show the same and leave stores that agree. -/
structure SameShown (ids : List ℕ) (o o' : Outcome) : Prop where
  shown : o.shown = o'.shown
  store : Agree ids o.store o'.store

section

variable {ids : List ℕ} {s t : Store}

/-- Whether an entry is kept depends on the register of its key. -/
theorem savedOthers_keep (r : Reg) (bytes : Text) :
    (allRegs.all fun r' => (keyOf r.info, bytes).1 != keyOf r'.info || !ids.contains r'.info.id) =
      !ids.contains r.info.id := by
  rw [Bool.eq_iff_iff, List.all_eq_true]
  constructor
  · intro h
    simpa using h r (List.mem_finRange r)
  · intro h r' _
    by_cases hr : r = r'
    · subst hr
      simpa using h
    · have hkey : keyOf r.info ≠ keyOf r'.info := fun heq => hr (keyOf_injective heq)
      simp [hkey]

theorem savedOthers_saveOne (r : Reg) (bytes : Text) (saved : Settings) :
    savedOthers ids (settingsSaveOne (keyOf r.info) bytes saved) =
      if r.info.id ∈ ids then savedOthers ids saved
      else settingsSaveOne (keyOf r.info) bytes (savedOthers ids saved) := by
  rw [savedOthers, settingsSaveOne, List.filter_cons, savedOthers_keep]
  by_cases hr : r.info.id ∈ ids
  · rw [if_neg (by simp [hr]), if_pos hr, List.filter_filter]
    refine List.filter_congr fun e _ => ?_
    by_cases hkey : e.1 = keyOf r.info
    · have hdrop := @savedOthers_keep ids r e.2
      rw [← hkey] at hdrop
      simp only [hkey, bne_self_eq_false, Bool.and_false]
      simpa [hr, hkey] using hdrop.symm
    · simp [hkey]
  · rw [if_pos (by simp [hr]), if_neg hr, settingsSaveOne, List.filter_filter, savedOthers,
      List.filter_filter]
    exact congrArg _ (List.filter_congr fun e _ => Bool.and_comm _ _)

/-! ## Reads -/

theorem SameShown.refuse (h : Agree ids s t) (err : ℕ) :
    SameShown ids (.refuse err s) (.refuse err t) := ⟨rfl, h⟩

/-- What a read shows of a register, and what the dump shows of it. -/
def shownValue (dyn : ℕ → Text) (v : Vals) (r : Reg) : Text :=
  if r.info.type = .dyn then dyn r.info.id else if r.info.has .wo then [] else v r

theorem shownValue_agree (hsec : Secret ids) (h : Agree ids s t) (dyn : ℕ → Text) (r : Reg) :
    shownValue dyn s.val r = shownValue dyn t.val r := by
  unfold shownValue
  by_cases hr : r.info.id ∈ ids
  · rw [(hsec r hr).1]
    rfl
  · rw [h.val r hr]

theorem readReg_agree (hsec : Secret ids) (h : Agree ids s t) (dyn : ℕ → Text) (r : Reg)
    (bit : Option ℕ) : SameShown ids (readReg dyn r bit s) (readReg dyn r bit t) := by
  refine ⟨?_, by rwa [readReg_store, readReg_store]⟩
  have hval := shownValue_agree hsec h dyn r
  unfold shownValue at hval
  unfold readReg
  rw [hval]
  cases bit with
  | none => rfl
  | some bit =>
    dsimp only
    split_ifs <;> rfl

theorem tokdump_agree (hsec : Secret ids) (h : Agree ids s t) (dyn : ℕ → Text) (args : Text) :
    SameShown ids (sregCmdTokdump dyn args s) (sregCmdTokdump dyn args t) := by
  have hval := funext (shownValue_agree hsec h dyn)
  unfold sregCmdTokdump
  split_ifs
  · exact .refuse h _
  · refine ⟨?_, h⟩
    have hline := congrArg (fun f : Reg → Text => allRegs.map fun r =>
      ascii "S" ++ hexText 2 r.info.id ++ ascii ":" ++ f r) hval
    exact congrArg (fun lines => (atOk, lines, ([] : List ℕ))) hline

/-! ## Writes -/

/-- The same text is refused in both stores, or stored in both. -/
theorem storeReg_agree (h : Agree ids s t) (r : Reg) (value : Text) :
    SameShown ids (storeReg r value s) (storeReg r value t) := by
  cases hn : normalise r.info value with
  | error err =>
    simp only [storeReg, hn]
    exact .refuse h err
  | ok new =>
    have hs := storeReg_stored (s := s) hn
    have ht := storeReg_stored (s := t) hn
    refine ⟨?_, ⟨?_, ?_, ?_⟩⟩
    · simp only [storeReg, hn]
      rfl
    · intro r' hr'
      rw [hs.val, ht.val]
      by_cases heq : r' = r
      · rw [heq, Function.update_self, Function.update_self]
      · rw [Function.update_of_ne heq, Function.update_of_ne heq, h.val r' hr']
    · rw [hs.saved, ht.saved]
      split_ifs
      · rw [savedOthers_saveOne, savedOthers_saveOne, h.saved]
      · exact h.saved
    · rw [hs.echo, ht.echo]
      split_ifs with hid
      · have hu : ∀ v : Vals, sregU32 0x12 (Function.update v r new) = strtoul new := by
          intro v
          rw [← hid, sregU32_id, Function.update_self]
        rw [hs.val, ht.val, echoOf, echoOf, sregBit, sregBit, hu, hu]
      · exact h.echo

/-- A bit of a register outside `ids` is changed in equal values; the others have no bits. -/
theorem bitText_agree (hsec : Secret ids) (h : Agree ids s t) (r : Reg) (bit : ℕ) (arg : Text) :
    bitText r bit arg s.val = bitText r bit arg t.val := by
  unfold bitText
  by_cases hr : r.info.id ∈ ids
  · simp [(hsec r hr).2]
  · rw [h.val r hr]

theorem writeUnchecked_agree (hsec : Secret ids) (h : Agree ids s t) (r : Reg) (bit : Option ℕ)
    (value : Text) :
    SameShown ids (writeUnchecked r bit value s) (writeUnchecked r bit value t) := by
  cases bit with
  | none => exact storeReg_agree h r value
  | some bit =>
    unfold writeUnchecked
    dsimp only
    rw [bitText_agree hsec h]
    cases bitText r bit value t.val with
    | none => exact .refuse h _
    | some text => exact storeReg_agree h r text

/-- The check compares with the same password where `S0C` does not differ. -/
theorem passwordOk_agree (h : Agree ids s t) (hpw : 0x0C ∉ ids) (pw : Option Text) :
    passwordOk pw s.val = passwordOk pw t.val := by
  have h0C : find 0x0C = some ⟨10, by decide⟩ := by decide
  unfold passwordOk
  rw [h0C]
  cases pw with
  | none => rfl
  | some pw => exact congrArg (pw == ·) (h.val ⟨10, by decide⟩ hpw)

theorem writeReg_agree (hsec : Secret ids) (hpw : 0x0C ∉ ids) (h : Agree ids s t) (r : Reg)
    (bit : Option ℕ) (arg : Text) :
    SameShown ids (writeReg r bit arg s) (writeReg r bit arg t) := by
  by_cases hro : r.info.has .ro = true
  · rw [writeReg, writeReg, if_pos hro, if_pos hro]
    exact .refuse h _
  · rw [Bool.not_eq_true] at hro
    by_cases hg : r.info.has .pw = true
    · rw [writeReg_guarded hro hg, writeReg_guarded hro hg, passwordOk_agree h hpw]
      split_ifs
      · exact writeUnchecked_agree hsec h r bit _
      · exact .refuse h _
    · rw [Bool.not_eq_true] at hg
      rw [writeReg_unguarded hro hg, writeReg_unguarded hro hg]
      exact writeUnchecked_agree hsec h r bit _

/-! ## Commands -/

theorem ats_agree (hsec : Secret ids) (h : Agree ids s t) (dyn : ℕ → Text) (arg : Text)
    (hw : 0x0C ∈ ids → ¬∃ r bit rest, WriteTo arg r bit rest) :
    SameShown ids (sregAtCommand dyn arg s) (sregAtCommand dyn arg t) := by
  unfold sregAtCommand
  cases hr : (atParseHexN arg 2).bind find with
  | none =>
    dsimp only
    split_ifs <;> exact .refuse h _
  | some r =>
    dsimp only
    by_cases hn : ((arg.takeWhile isxdigit).length != 2 &&
        (arg.takeWhile isxdigit).length != 3) = true
    · rw [if_pos hn, if_pos hn]
      exact .refuse h _
    · rw [if_neg hn, if_neg hn]
      simp only [Bool.and_eq_true, bne_iff_ne, not_and_or, not_not] at hn
      generalize (if (arg.takeWhile isxdigit).length = 3 then _ else none : Option ℕ) = bit
      by_cases hread : (arg.drop (arg.takeWhile isxdigit).length == ascii "?") = true
      · rw [if_pos hread, if_pos hread]
        exact readReg_agree hsec h dyn r bit
      · rw [if_neg hread, if_neg hread]
        split_ifs with hsign
        · -- the argument is a write, so the password is one that both stores share
          have hto := exists_writeTo hn hr (beq_iff_eq.mp hsign)
          exact writeReg_agree hsec (fun hpw => hw hpw ⟨r, hto⟩) h r bit _
        · exact .refuse h _

/-- **One command.** In two stores that agree outside write-only registers it shows the same, and
they still agree, as long as it writes nothing or both have the same password. -/
theorem command_agree (hsec : Secret ids) (h : Agree ids s t) (dyn : ℕ → Text) (c : Command)
    (hw : 0x0C ∈ ids → c.Reads) : SameShown ids (c.run dyn s) (c.run dyn t) := by
  cases c with
  | ats arg => exact ats_agree hsec h dyn (cstr arg) hw
  | tokdump args => exact tokdump_agree hsec h dyn (cstr args)

theorem session_agree (hsec : Secret ids) (h : Agree ids s t)
    (cmds : List ((ℕ → Text) × Command)) (hw : 0x0C ∈ ids → ∀ c ∈ cmds, c.2.Reads) :
    (session cmds s).1 = (session cmds t).1 ∧
      Agree ids (session cmds s).2 (session cmds t).2 := by
  refine answers_related ?_ h
  intro c hc s t hst
  have hcmd := command_agree hsec hst c.1 c.2 fun hpw => hw hpw c hc
  exact ⟨hcmd.shown, hcmd.store⟩

end

/-- **Keys never leak.** Two stores that differ only in `S08` and `S09` show the same in every
session of `ATS` and `AT+TOKDUMP`, and differ only in `S08` and `S09` after it. In a session that
writes nothing the same holds of stores that also differ in `S0C`. -/
theorem keys_never_leak (cmds : List ((ℕ → Text) × Command)) (s t : Store) :
    (Agree [0x08, 0x09] s t →
      (session cmds s).1 = (session cmds t).1 ∧
        Agree [0x08, 0x09] (session cmds s).2 (session cmds t).2) ∧
    ((∀ c ∈ cmds, c.2.Reads) → Agree [0x08, 0x09, 0x0C] s t →
      (session cmds s).1 = (session cmds t).1 ∧
        Agree [0x08, 0x09, 0x0C] (session cmds s).2 (session cmds t).2) := by
  constructor
  · intro h
    exact session_agree (by decide) h cmds fun hpw => absurd hpw (by decide)
  · intro hreads h
    exact session_agree (by decide) h cmds fun _ => hreads

/-- The store of a device on which a link key was set. -/
def keyed : Store :=
  (sregAtCommand (fun _ => []) (ascii "09=00112233445566778899AABBCCDDEEFF:password")
    (sregInit [])).store

/-- A write of the key with a wrong password and with the right one, one to a bit of it, a read and
a dump. -/
def keySession : List ((ℕ → Text) × Command) :=
  [ascii "09=000102030405060708090A0B0C0D0E0F:wrong",
    ascii "09=000102030405060708090A0B0C0D0E0F:password", ascii "093=1:password",
    ascii "09?"].map (fun arg => (fun _ => [], .ats arg)) ++ [(fun _ => [], .tokdump [])]

/-- A read of the password and a dump. -/
def readSession : List ((ℕ → Text) × Command) :=
  [(fun _ => [], .ats (ascii "0C?")), (fun _ => [], .tokdump [])]

theorem readSession_reads : ∀ c ∈ readSession, c.2.Reads := by
  intro c hc
  simp only [readSession, List.mem_cons, List.not_mem_nil, or_false] at hc
  rcases hc with rfl | rfl
  · rintro ⟨r, bit, rest, h⟩
    have htext : cstr (ascii "0C?") = [48, 67, 63] := by decide
    rw [htext] at h
    cases h
  · trivial

/-- The store of a device whose password was changed. -/
def locked : Store :=
  (sregAtCommand (fun _ => []) (ascii "0C=secret:password") (sregInit [])).store

theorem keys_never_leak_keyed :
    keyed.val ⟨7, by decide⟩ ≠ (sregInit []).val ⟨7, by decide⟩ ∧
    (session keySession keyed).1 = (session keySession (sregInit [])).1 ∧
    locked.val ⟨10, by decide⟩ ≠ (sregInit []).val ⟨10, by decide⟩ ∧
    (session readSession locked).1 = (session readSession (sregInit [])).1 := by
  refine ⟨by decide, ?_, by decide, ?_⟩
  · exact ((keys_never_leak keySession keyed (sregInit [])).1 ⟨by decide, by decide, by decide⟩).1
  · exact ((keys_never_leak readSession locked (sregInit [])).2 readSession_reads
      ⟨by decide, by decide, by decide⟩).1

end ZbAt.Sreg
