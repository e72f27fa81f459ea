import ZbAt.SregProof

/-!
# S-registers: what an ATS command may change

* `WriteTo` — the argument addresses a register, or one of its bits, for a write.
* `Suffixed` — the text after the `=` ends in a separator and a password.
* `command_frame` — a command that is refused changes nothing; an accepted write changes the
  addressed register, its own saved entry and, for `S12`, the echo.
* `password_guard` — registers with a password change only with the password that `S0C` holds,
  and no password locks its owner out.
-/

namespace ZbAt.Sreg

open Text

/-! ## Addressing -/

/-- The argument `arg` writes `rest` to the register `r`, or to its bit `bit`. -/
inductive WriteTo : Text → Reg → Option ℕ → Text → Prop
  | whole {a b : UInt8} {id : ℕ} {r : Reg} {rest : Text} (hid : hexValue [a, b] = some id)
      (hr : find id = some r) : WriteTo (a :: b :: 61 :: rest) r none rest
  | bit {a b c : UInt8} {id k : ℕ} {r : Reg} {rest : Text} (hid : hexValue [a, b] = some id)
      (hr : find id = some r) (hk : hexValue [c] = some k) :
      WriteTo (a :: b :: c :: 61 :: rest) r (some k) rest

theorem find_id : ∀ r : Reg, find r.info.id = some r := by decide

theorem isxdigit_of_hexValue {t : Text} {v : ℕ} (h : hexValue t = some v) :
    ∀ c ∈ t, isxdigit c = true := (hexValue_eq_some h).1

theorem isxdigit_eq_sign : isxdigit 61 = false := by decide

theorem readReg_written (dyn : ℕ → Text) (r : Reg) (bit : Option ℕ) (s : Store) :
    (readReg dyn r bit s).written = [] := by
  unfold readReg
  cases bit with
  | none => rfl
  | some bit =>
    dsimp only
    split_ifs <;> rfl

section

variable {dyn : ℕ → Text} {arg rest : Text} {r : Reg} {bit : Option ℕ} {s : Store}

theorem sregAtCommand_write (h : WriteTo arg r bit rest) :
    sregAtCommand dyn arg s = writeReg r bit rest s := by
  cases h with
  | @whole a b id r rest hid hr =>
    have hx := isxdigit_of_hexValue hid
    have hn : ((a :: b :: 61 :: rest).takeWhile isxdigit).length = 2 := by
      simp [hx a (by simp), hx b (by simp), isxdigit_eq_sign]
    have hp : (atParseHexN (a :: b :: 61 :: rest) 2).bind find = some r := by
      rw [atParseHexN_eq (by decide) (by decide), if_neg (by simp)]
      simpa [hid] using hr
    have hread : ((a :: b :: 61 :: rest).drop 2 == ascii "?") = false := rfl
    simp only [sregAtCommand, hn, hp, hread, Bool.false_eq_true, if_false]
    rfl
  | @bit a b c id k r rest hid hr hk =>
    have hx := isxdigit_of_hexValue hid
    have hxc := isxdigit_of_hexValue hk
    have hn : ((a :: b :: c :: 61 :: rest).takeWhile isxdigit).length = 3 := by
      simp [hx a (by simp), hx b (by simp), hxc c (by simp), isxdigit_eq_sign]
    have hp : (atParseHexN (a :: b :: c :: 61 :: rest) 2).bind find = some r := by
      rw [atParseHexN_eq (by decide) (by decide), if_neg (by simp)]
      simpa [hid] using hr
    have hb : atParseHexN ((a :: b :: c :: 61 :: rest).drop 2) 1 = some k := by
      rw [atParseHexN_eq (by decide) (by decide), if_neg (by simp)]
      simpa using hk
    have hread : ((a :: b :: c :: 61 :: rest).drop 3 == ascii "?") = false := rfl
    simp only [sregAtCommand, hn, hp, hread, hb, Bool.false_eq_true, if_false]
    rfl

/-- Two or three digits of a register, and an `=` after them, address a write. -/
theorem exists_writeTo (hn : (arg.takeWhile isxdigit).length = 2 ∨
    (arg.takeWhile isxdigit).length = 3) (hr : (atParseHexN arg 2).bind find = some r)
    (heq : arg[(arg.takeWhile isxdigit).length]? = some 61) :
    ∃ bit rest, WriteTo arg r bit rest := by
  have hall : ∀ c ∈ arg.takeWhile isxdigit, isxdigit c = true := fun c hc =>
    List.mem_takeWhile_imp hc
  have hsplit := List.takeWhile_append_dropWhile (p := isxdigit) (l := arg)
  generalize arg.takeWhile isxdigit = ds at hn heq hall hsplit
  generalize arg.dropWhile isxdigit = tl at hsplit
  subst hsplit
  rw [List.getElem?_append_right (Nat.le_refl _), Nat.sub_self, ← List.head?_eq_getElem?] at heq
  obtain ⟨rest, rfl⟩ := List.head?_eq_some_iff.mp heq
  obtain ⟨id, hid, hf⟩ := Option.bind_eq_some_iff.mp hr
  rw [atParseHexN_eq (by decide) (by decide)] at hid
  split_ifs at hid with hlt
  rcases hn with hn | hn
  · obtain ⟨a, b, rfl⟩ := List.length_eq_two.mp hn
    exact ⟨none, rest, .whole (by simpa using hid) hf⟩
  · obtain ⟨a, b, c, rfl⟩ := List.length_eq_three.mp hn
    have hk : hexValue [c] = some (number 16 (digitVals [c])) := by
      rw [hexValue, if_pos (by simpa using hall c (by simp))]
    exact ⟨_, rest, .bit (by simpa using hid) hf hk⟩

/-- **What a command does.** It writes to a register, or it leaves everything as it is. -/
theorem command_cases (dyn : ℕ → Text) (arg : Text) (s : Store) :
    (∃ r bit rest, WriteTo arg r bit rest) ∨
      (sregAtCommand dyn arg s).store = s ∧ (sregAtCommand dyn arg s).written = [] := by
  by_cases hw : ∃ r bit rest, WriteTo arg r bit rest
  · exact .inl hw
  · right
    unfold sregAtCommand
    cases hr : (atParseHexN arg 2).bind find with
    | none =>
      dsimp only
      split_ifs <;> exact ⟨rfl, rfl⟩
    | some r =>
      dsimp only
      by_cases hn : ((arg.takeWhile isxdigit).length != 2 &&
          (arg.takeWhile isxdigit).length != 3) = true
      · rw [if_pos hn]
        exact ⟨rfl, rfl⟩
      · rw [if_neg hn]
        by_cases hread : (arg.drop (arg.takeWhile isxdigit).length == ascii "?") = true
        · rw [if_pos hread]
          exact ⟨readReg_store _ _ _ _, readReg_written _ _ _ _⟩
        · rw [if_neg hread, if_neg]
          · exact ⟨rfl, rfl⟩
          · intro heq
            rw [beq_iff_eq] at heq
            simp only [Bool.and_eq_true, bne_iff_ne, not_and_or, not_not] at hn
            exact hw ⟨r, exists_writeTo hn hr heq⟩

end

/-! ## What a write changes -/

/-- `write_reg` once the password is checked: the value is stored, or the bit. -/
def writeUnchecked (r : Reg) (bit : Option ℕ) (value : Text) (s : Store) : Outcome :=
  match bit with
  | none => storeReg r value s
  | some bit =>
    match bitText r bit value s.val with
    | none => .refuse atErrInvalidParam s
    | some t => storeReg r t s

/-- A register without a password takes what stands before a separator, whatever follows it. -/
theorem writeReg_unguarded {r : Reg} (hro : r.info.has .ro = false) (hpw : r.info.has .pw = false)
    (bit : Option ℕ) (rest : Text) (s : Store) :
    writeReg r bit rest s = writeUnchecked r bit (splitPassword rest).1 s := by
  rw [writeReg, if_neg (by simp [hro])]
  simp only [hpw, Bool.false_and, Bool.false_eq_true, if_false]
  rfl

theorem writeReg_guarded {r : Reg} (hro : r.info.has .ro = false) (hpw : r.info.has .pw = true)
    (bit : Option ℕ) (rest : Text) (s : Store) :
    writeReg r bit rest s = if passwordOk (splitPassword rest).2 s.val
      then writeUnchecked r bit (splitPassword rest).1 s else .refuse atErrBadPassword s := by
  rw [writeReg, if_neg (by simp [hro])]
  simp only [hpw, Bool.true_and]
  cases passwordOk (splitPassword rest).2 s.val <;> rfl

/-- A write either refuses, or goes on without a password check. -/
theorem writeReg_unchecked (r : Reg) (bit : Option ℕ) (rest : Text) (s : Store) :
    (∃ err ≠ atOk, writeReg r bit rest s = .refuse err s) ∨
      writeReg r bit rest s = writeUnchecked r bit (splitPassword rest).1 s := by
  cases hro : r.info.has .ro with
  | true => exact .inl ⟨atErrReadOnly, by decide, by rw [writeReg, if_pos hro]⟩
  | false =>
    cases hpw : r.info.has .pw with
    | false => exact .inr (writeReg_unguarded hro hpw bit rest s)
    | true =>
      rw [writeReg_guarded hro hpw]
      split_ifs
      · exact .inr rfl
      · exact .inl ⟨_, by decide, rfl⟩

/-- A refused write leaves everything as it is. -/
theorem normalise_error {r : SregInfo} {t : Text} {err : ℕ} (h : normalise r t = .error err) :
    err ≠ atOk := by
  by_cases hr : r.type = .dyn
  · rw [normalise_dyn hr] at h
    cases h
    decide
  · rw [normalise_eq hr] at h
    split at h
    · cases h
    · cases h
      decide

/-- The store after an accepted write of `value`. -/
structure Stored (r : Reg) (value : Text) (s : Store) (o : Outcome) : Prop where
  result : o.result = atOk
  val : o.store.val = Function.update s.val r value
  saved : o.store.saved = if r.info.has .nv
    then settingsSaveOne (keyOf r.info) (value ++ [0]) s.saved else s.saved
  echo : o.store.echo = if r.info.id = 0x12 then echoOf o.store.val else s.echo
  written : o.written = [r.info.id]

theorem storeReg_stored {r : Reg} {t value : Text} {s : Store}
    (h : normalise r.info t = .ok value) :
    Stored r value s (storeReg r t s) := by
  simp only [storeReg, h, persist]
  constructor
  · rfl
  · dsimp only
    split_ifs <;> rfl
  · dsimp only
    split_ifs <;> simp
  · dsimp only
    split_ifs <;> rfl
  · rfl

/-- A write stores a text that `normalise` accepts, or changes nothing. -/
theorem storeReg_cases (r : Reg) (t : Text) (s : Store) :
    (∃ err ≠ atOk, storeReg r t s = .refuse err s) ∨
      ∃ value, normalise r.info t = .ok value ∧ Stored r value s (storeReg r t s) := by
  cases h : normalise r.info t with
  | error err => exact .inl ⟨err, normalise_error h, by simp only [storeReg, h]⟩
  | ok value => exact .inr ⟨value, rfl, storeReg_stored h⟩

/-- The text that a write passes to `normalise`. -/
def written (r : Reg) (bit : Option ℕ) (value : Text) (v : Vals) : Option Text :=
  bit.elim (some value) fun bit => bitText r bit value v

theorem writeUnchecked_cases (r : Reg) (bit : Option ℕ) (value : Text) (s : Store) :
    (∃ err ≠ atOk, writeUnchecked r bit value s = .refuse err s) ∨
      ∃ t new, written r bit value s.val = some t ∧ normalise r.info t = .ok new ∧
        Stored r new s (writeUnchecked r bit value s) := by
  have hstore : ∀ t, written r bit value s.val = some t →
      writeUnchecked r bit value s = storeReg r t s := by
    intro t ht
    cases bit with
    | none => cases ht; rfl
    | some bit =>
      have hb : bitText r bit value s.val = some t := ht
      rw [writeUnchecked, hb]
  cases ht : written r bit value s.val with
  | none =>
    cases bit with
    | none => cases ht
    | some bit =>
      have hb : bitText r bit value s.val = none := ht
      exact .inl ⟨atErrInvalidParam, by decide, by rw [writeUnchecked, hb]⟩
  | some t =>
    rw [hstore t ht]
    rcases storeReg_cases r t s with hrefuse | ⟨new, hnew, hst⟩
    · exact .inl hrefuse
    · exact .inr ⟨t, new, rfl, hnew, hst⟩

section

variable {dyn : ℕ → Text} {arg rest : Text} {r : Reg} {bit : Option ℕ} {s : Store}

variable (dyn s) in
/-- **One write.** It leaves everything as it is, or it stores one value. -/
theorem write_stored (h : WriteTo arg r bit rest) :
    (∃ err ≠ atOk, sregAtCommand dyn arg s = .refuse err s) ∨
      ∃ t new, written r bit (splitPassword rest).1 s.val = some t ∧
        normalise r.info t = .ok new ∧ Stored r new s (sregAtCommand dyn arg s) := by
  rw [sregAtCommand_write h]
  rcases writeReg_unchecked r bit rest s with hrefuse | hgo
  · exact .inl hrefuse
  · rw [hgo]
    exact writeUnchecked_cases r bit _ s

/-- A refused command changes nothing. -/
theorem refused_unchanged (dyn : ℕ → Text) (arg : Text) (s : Store)
    (h : (sregAtCommand dyn arg s).result ≠ atOk) :
    (sregAtCommand dyn arg s).store = s ∧ (sregAtCommand dyn arg s).written = [] := by
  rcases command_cases dyn arg s with ⟨r, bit, rest, hw⟩ | hsame
  · rcases write_stored dyn s hw with ⟨err, -, hr⟩ | ⟨t, new, -, -, hst⟩
    · rw [hr]
      exact ⟨rfl, rfl⟩
    · exact absurd hst.result h
  · exact hsame

/-! ## Bits -/

theorem strtoul_lt (t : Text) : strtoul t < 2 ^ 32 := by
  unfold strtoul
  dsimp only
  generalize number 16 _ = v
  have hmax : ulongMax = 2 ^ 32 - 1 := rfl
  split_ifs
  · omega
  · exact Nat.mod_lt _ (by decide)
  · omega

/-- `v | BIT(bit)` and `v & ~BIT(bit)` change one bit. -/
theorem testBit_setBit {v : ℕ} (hv : v < 2 ^ 32) (k : ℕ) (on : Bool) (j : ℕ) :
    (setBit v k on).testBit j = if j = k then on else v.testBit j := by
  have hhigh : 32 ≤ j → v.testBit j = false := fun hj =>
    Nat.testBit_lt_two_pow (Nat.lt_of_lt_of_le hv (Nat.pow_le_pow_right (by decide) hj))
  unfold setBit
  cases on with
  | true =>
    rw [if_pos rfl, Nat.testBit_or, Nat.testBit_two_pow]
    by_cases hjk : j = k
    · simp [hjk]
    · simp [hjk, Ne.symm hjk]
  | false =>
    rw [if_neg Bool.false_ne_true, Nat.testBit_and, Nat.testBit_xor, Nat.testBit_two_pow,
      Nat.testBit_two_pow_sub_one]
    by_cases hj : j < 32
    · by_cases hjk : j = k
      · simp [hjk, hjk ▸ hj]
      · simp [hjk, hj, Ne.symm hjk]
    · rw [hhigh (by omega)]
      by_cases hjk : j = k
      · simp [hjk]
      · simp [hjk]

/-- An accepted text of hex digits is read back as the number it denotes. -/
theorem strtoul_normalise {t new : Text} {n : ℕ} (hr : r.info.type = .u8 ∨ r.info.type = .u16)
    (hn : hexValue t = some n) (h : normalise r.info t = .ok new) : strtoul new = n := by
  obtain ⟨x, hd, rfl, -⟩ := normalise_idem h
  obtain ⟨m, hm, rfl⟩ := hd.of_num hr
  rw [hn] at hm
  cases hm
  have hu := sregU32_eq (v := fun _ => encode r.info (.num n)) (find_id r)
    (denotes_of_denote hd.encode)
  rwa [sregU32, find_id, Option.elim_some] at hu

theorem bitText_some {bit : ℕ} {value t : Text} {v : Vals} (h : bitText r bit value v = some t) :
    (r.info.type = .u8 ∨ r.info.type = .u16) ∧ (value = ascii "0" ∨ value = ascii "1") ∧
      hexValue t = some (setBit (strtoul (v r)) bit (value == ascii "1")) := by
  unfold bitText at h
  split at h
  · cases h
  rename_i hbad
  obtain rfl := Option.some.inj h
  simp only [numeric, Bool.or_eq_true, Bool.and_eq_true, Bool.not_eq_true', bne_iff_ne, not_or,
    not_and_or, not_not, Bool.not_eq_false, beq_iff_eq] at hbad
  exact ⟨hbad.1, hbad.2, hexValue_hexText _ _⟩

/-- An accepted write of a bit changes that bit of the register alone. -/
theorem testBit_written {k : ℕ} {value t new : Text}
    (ht : written r (some k) value s.val = some t) (hnew : normalise r.info t = .ok new) :
    (value = ascii "0" ∨ value = ascii "1") ∧
      ∀ j, (strtoul new).testBit j =
        if j = k then value == ascii "1" else (strtoul (s.val r)).testBit j := by
  obtain ⟨hty, hval, hx⟩ := bitText_some (r := r) ht
  refine ⟨hval, ?_⟩
  intro j
  rw [strtoul_normalise hty hx hnew, testBit_setBit (strtoul_lt _)]

end

theorem sregU32_id (r : Reg) (v : Vals) : sregU32 r.info.id v = strtoul (v r) := by
  rw [sregU32, find_id, Option.elim_some]

/-- **The frame of a command.** For every store and argument, a command that does not return
`AT_OK` leaves the store as it is and calls `sreg_written` for nothing, and so does every command
that is no write. An accepted write changes at most the register it addresses, its saved entry if
the register is non-volatile, and for `S12` the echo, which then is the negation of bit 4; a write
of a bit changes that bit alone. -/
theorem command_frame (dyn : ℕ → Text) (arg : Text) (s : Store) :
    ∀ o, o = sregAtCommand dyn arg s →
      (o.result ≠ atOk → o.store = s ∧ o.written = []) ∧
      ((¬∃ r bit rest, WriteTo arg r bit rest) → o.store = s ∧ o.written = []) ∧
      ∀ r bit rest, WriteTo arg r bit rest → o.result = atOk →
        (∀ r', r' ≠ r → o.store.val r' = s.val r') ∧
        (∀ e, e.1 ≠ keyOf r.info ∨ r.info.has .nv = false → (e ∈ o.store.saved ↔ e ∈ s.saved)) ∧
        (r.info.id ≠ 0x12 → o.store.echo = s.echo) ∧
        (r.info.id = 0x12 → o.store.echo = !sregBit 0x12 4 o.store.val) ∧
        ∀ k, bit = some k →
          ((splitPassword rest).1 = ascii "0" ∨ (splitPassword rest).1 = ascii "1") ∧
          ∀ j, (sregU32 r.info.id o.store.val).testBit j =
            if j = k then (splitPassword rest).1 == ascii "1"
            else (sregU32 r.info.id s.val).testBit j := by
  rintro o rfl
  refine ⟨refused_unchanged dyn arg s, ?_, ?_⟩
  · intro hno
    rcases command_cases dyn arg s with hw | hsame
    · exact absurd hw hno
    · exact hsame
  · intro r bit rest hw hok
    rcases write_stored dyn s hw with ⟨err, herr, hr⟩ | ⟨t, new, ht, hnew, hst⟩
    · rw [hr] at hok
      exact absurd hok herr
    · refine ⟨?_, ?_, ?_, ?_, ?_⟩
      · intro r' hr'
        rw [hst.val, Function.update_of_ne hr']
      · intro e he
        rw [hst.saved]
        split_ifs with hnv
        · have hkey : e.1 ≠ keyOf r.info := he.resolve_right (by simp [hnv])
          have hne : e ≠ (keyOf r.info, new ++ [0]) := fun h => hkey (congrArg Prod.fst h)
          simp [settingsSaveOne, hne, hkey]
        · exact Iff.rfl
      · intro hid
        rw [hst.echo, if_neg hid]
      · intro hid
        rw [hst.echo, if_pos hid, echoOf]
      · rintro k rfl
        obtain ⟨hval, hbits⟩ := testBit_written ht hnew
        refine ⟨hval, ?_⟩
        intro j
        rw [sregU32_id, sregU32_id, hst.val, Function.update_self]
        exact hbits j

theorem command_frame_inputs :
    (∀ j, (sregU32 0x0F
        (sregAtCommand (fun _ => []) (ascii "0F4=1") (sregInit [])).store.val).testBit j =
      if j = 4 then true else (sregU32 0x0F (sregInit []).val).testBit j) ∧
    (sregAtCommand (fun _ => []) (ascii "12=0C10") (sregInit [])).store.echo = false ∧
    (sregAtCommand (fun _ => []) (ascii "0A=8000") (sregInit [])).store = sregInit [] ∧
    (sregAtCommand (fun _ => []) (ascii "0F?") (sregInit [])).store = sregInit [] := by
  refine ⟨?_, ?_, ?_, ?_⟩
  · have hw : WriteTo (ascii "0F4=1") ⟨13, by decide⟩ (some 4) (ascii "1") :=
      WriteTo.bit rfl (by decide : find 15 = _) rfl
    obtain ⟨-, -, -, -, hbit⟩ := (command_frame (fun _ => []) _ (sregInit []) _ rfl).2.2 _ _ _ hw
      (by decide)
    exact (hbit 4 rfl).2
  · have hw : WriteTo (ascii "12=0C10") ⟨15, by decide⟩ none (ascii "0C10") :=
      WriteTo.whole rfl (by decide : find 18 = _)
    obtain ⟨-, -, -, hecho, -⟩ := (command_frame (fun _ => []) _ (sregInit []) _ rfl).2.2 _ _ _ hw
      (by decide)
    rw [hecho rfl]
    decide
  · exact ((command_frame (fun _ => []) _ (sregInit []) _ rfl).1 (by decide)).1
  · refine ((command_frame (fun _ => []) _ (sregInit []) _ rfl).2.1 ?_).1
    rintro ⟨r, bit, rest, h⟩
    have htext : ascii "0F?" = [48, 70, 63] := by decide
    rw [htext] at h
    cases h

/-! ## Passwords -/

/-- `S0C` -/
def password (s : Store) : Text := (find 0x0C).elim [] s.val

/-- `rest` is a value, the first `:`, or the first `;` when there is no `:`, and the password. -/
def Suffixed (rest value pw : Text) : Prop :=
  rest = value ++ 58 :: pw ∧ 58 ∉ value ∨ 58 ∉ rest ∧ rest = value ++ 59 :: pw ∧ 59 ∉ value

/-- The separator that the code looks for is that of the specification. -/
theorem splitPassword_eq_some {rest value pw : Text} :
    splitPassword rest = (value, some pw) ↔ Suffixed rest value pw := by
  constructor
  · intro h
    unfold splitPassword at h
    rcases strchr_cut (t := rest) (c := 58) with ⟨hnone, hno⟩ | ⟨pw', hsome, ht⟩
    · rw [hnone] at h
      rcases strchr_cut (t := rest) (c := 59) with ⟨hnone', -⟩ | ⟨pw', hsome, ht⟩
      · rw [hnone'] at h
        cases h
      · rw [hsome] at h
        cases h
        exact .inr ⟨hno, ht, not_mem_takeWhile_bne _ _⟩
    · rw [hsome] at h
      cases h
      exact .inl ⟨ht, not_mem_takeWhile_bne _ _⟩
  · rintro (⟨rfl, hv⟩ | ⟨hno, rfl, hv⟩)
    · obtain ⟨htake, hch⟩ := takeWhile_cut hv pw
      rw [splitPassword, hch]
      exact congrArg (·, some pw) htake
    · obtain ⟨htake, hch⟩ := takeWhile_cut hv pw
      rcases strchr_cut (t := value ++ 59 :: pw) (c := 58) with ⟨hnone, -⟩ | ⟨pw', -, ht⟩
      · rw [splitPassword, hnone, hch]
        exact congrArg (·, some pw) htake
      · rw [ht] at hno
        simp at hno

/-- The password check passes exactly when the text ends in the password of `S0C`. -/
theorem passwordOk_iff {rest : Text} {s : Store} :
    passwordOk (splitPassword rest).2 s.val = true ↔ ∃ value, Suffixed rest value (password s) := by
  have h0C : find 0x0C = some ⟨10, by decide⟩ := by decide
  simp only [← splitPassword_eq_some, password, h0C, Option.elim_some, passwordOk]
  constructor
  · intro h
    cases hp : (splitPassword rest).2 with
    | none => rw [hp] at h; cases h
    | some pw =>
      rw [hp] at h
      obtain rfl := beq_iff_eq.mp h
      exact ⟨(splitPassword rest).1, Prod.ext rfl hp⟩
  · rintro ⟨value, h⟩
    rw [h]
    exact beq_self_eq_true _

/-- The argument writes to `r` with the password of `S0C`. -/
def GuardedWrite (arg : Text) (r : Reg) (s : Store) : Prop :=
  ∃ bit rest value, WriteTo arg r bit rest ∧ Suffixed rest value (password s)

/-- The registers with a password are the four of the manual, and all may be written. -/
theorem has_pw_iff : ∀ r : Reg,
    (r.info.has .pw = true ↔ r.info.id ∈ [0x08, 0x09, 0x0A, 0x0C]) ∧
      (r.info.has .pw = true → r.info.has .ro = false) := by
  decide

section

variable {dyn : ℕ → Text} {arg rest value : Text} {r : Reg} {bit : Option ℕ} {s : Store}

theorem write_without_password (hpw : r.info.has .pw = true) (hw : WriteTo arg r bit rest)
    (hno : ¬∃ value, Suffixed rest value (password s)) :
    sregAtCommand dyn arg s = .refuse atErrBadPassword s := by
  rw [sregAtCommand_write hw, writeReg_guarded ((has_pw_iff r).2 hpw) hpw, if_neg]
  rwa [passwordOk_iff]

theorem write_with_password (hpw : r.info.has .pw = true) (hw : WriteTo arg r bit rest)
    (hsuf : Suffixed rest value (password s)) :
    sregAtCommand dyn arg s = writeUnchecked r bit value s := by
  rw [sregAtCommand_write hw, writeReg_guarded ((has_pw_iff r).2 hpw) hpw,
    if_pos (passwordOk_iff.mpr ⟨value, hsuf⟩), splitPassword_eq_some.mpr hsuf]

/-- A command changes a register with a password only with the password. -/
theorem guarded_of_changed (hpw : r.info.has .pw = true)
    (h : (sregAtCommand dyn arg s).store.val r ≠ s.val r) : GuardedWrite arg r s := by
  rcases command_cases dyn arg s with ⟨r', bit, rest, hw⟩ | ⟨hsame, -⟩
  · rcases write_stored dyn s hw with ⟨err, -, hr⟩ | ⟨t, new, -, -, hst⟩
    · rw [hr] at h
      exact absurd rfl h
    · by_cases hr : r = r'
      · subst hr
        by_cases hsuf : ∃ value, Suffixed rest value (password s)
        · obtain ⟨value, hsuf⟩ := hsuf
          exact ⟨bit, rest, value, hw, hsuf⟩
        · rw [write_without_password hpw hw hsuf] at h
          exact absurd rfl h
      · rw [hst.val, Function.update_of_ne hr] at h
        exact absurd rfl h
  · rw [hsame] at h
    exact absurd rfl h

end

/-- The store after the commands `cmds`, each with what `sreg_dynamic_read` gives to it. -/
def runAts (cmds : List ((ℕ → Text) × Text)) (s : Store) : Store :=
  cmds.foldl (fun s c => step s (.ats c.1 c.2)) s

@[simp] theorem runAts_concat (cmds : List ((ℕ → Text) × Text)) (c : (ℕ → Text) × Text)
    (s : Store) : runAts (cmds ++ [c]) s = step (runAts cmds s) (.ats c.1 c.2) := by
  simp [runAts]

/-- A run without such a write leaves the register alone. -/
theorem runAts_unchanged {r : Reg} (hpw : r.info.has .pw = true) (s : Store)
    (cmds : List ((ℕ → Text) × Text))
    (h : ∀ pre c post, cmds = pre ++ c :: post → ¬GuardedWrite (cstr c.2) r (runAts pre s)) :
    (runAts cmds s).val r = s.val r := by
  induction cmds using List.reverseRecOn with
  | nil => rfl
  | append_singleton cmds c ih =>
    have hpre := ih fun pre d post hd => h pre d (post ++ [c]) (by simp [hd])
    have hlast := h cmds c [] rfl
    rw [runAts_concat, ← hpre]
    by_contra hne
    exact hlast (guarded_of_changed hpw hne)

/-- An argument that restores the default of `r` with the password `pw`. -/
def restoreArg (r : Reg) (pw : Text) : Text :=
  hexText 2 r.info.id ++ 61 :: (r.info.dflt ++ 58 :: pw)

theorem restoreArg_writeTo {r : Reg} (hpw : r.info.has .pw = true) (pw : Text) :
    WriteTo (restoreArg r pw) r none (r.info.dflt ++ 58 :: pw) := by
  have hlen : ∀ r : Reg, r.info.has .pw = true → (hexText 2 r.info.id).length = 2 := by decide
  obtain ⟨a, b, hab⟩ := List.length_eq_two.mp (hlen r hpw)
  have hid := hexValue_hexText 2 r.info.id
  rw [hab] at hid
  rw [restoreArg, hab]
  exact .whole hid (find_id r)

theorem restoreArg_accepted {r : Reg} (hpw : r.info.has .pw = true) (dyn : ℕ → Text) (s : Store) :
    (sregAtCommand dyn (restoreArg r (password s)) s).result = atOk := by
  have hdflt : ∀ r : Reg, r.info.has .pw = true → 58 ∉ r.info.dflt ∧ r.info.type ≠ .dyn := by decide
  obtain ⟨hno, hty⟩ := hdflt r hpw
  rw [write_with_password hpw (restoreArg_writeTo hpw _) (.inl ⟨rfl, hno⟩)]
  exact (storeReg_stored ((default_ok r).canonical hty)).result

theorem password_noNul {s : Store} (h : StoreOk s) : 0 ∉ password s := by
  unfold password
  cases find 0x0C with
  | none => exact List.not_mem_nil
  | some r => exact (h.vals r).noNul

theorem restoreArg_noNul {r : Reg} {pw : Text} (hpw : 0 ∉ pw) : 0 ∉ restoreArg r pw := by
  have hid := zero_not_mem_hex (hexText_all 2 r.info.id)
  have hdflt := (default_ok r).noNul
  simp [restoreArg, hid, hdflt, hpw]

/-- **The password.** From every reachable store, in every run of `ATS` commands, a register with a
password changes only at a write with a separator and the value that `S0C` has just then; any
other write to it returns `0x20`, and a write with that suffix does what it would do without a
check. Whatever password is set, there is an argument that each of these registers accepts. -/
theorem password_guard {s : Store} (h : machine.Reach s) :
    (∀ r : Reg, r.info.has .pw = true ↔ r.info.id ∈ [0x08, 0x09, 0x0A, 0x0C]) ∧
    ∀ r : Reg, r.info.has .pw = true →
      (∀ cmds c, (runAts (cmds ++ [c]) s).val r ≠ (runAts cmds s).val r →
        GuardedWrite (cstr c.2) r (runAts cmds s)) ∧
      (∀ cmds, (∀ pre c post, cmds = pre ++ c :: post →
        ¬GuardedWrite (cstr c.2) r (runAts pre s)) → (runAts cmds s).val r = s.val r) ∧
      (∀ dyn arg bit rest, WriteTo arg r bit rest →
        (¬∃ value, Suffixed rest value (password s)) →
          (sregAtCommand dyn arg s).result = atErrBadPassword) ∧
      (∀ dyn arg bit rest value, WriteTo arg r bit rest → Suffixed rest value (password s) →
        ((sregAtCommand dyn arg s).result = atOk ↔ (writeUnchecked r bit value s).result = atOk)) ∧
      ∀ dyn, ∃ arg, 0 ∉ arg ∧ (∃ bit rest, WriteTo arg r bit rest) ∧
        (sregAtCommand dyn arg s).result = atOk := by
  refine ⟨fun r => (has_pw_iff r).1, ?_⟩
  intro r hpw
  refine ⟨?_, runAts_unchanged hpw s, ?_, ?_, ?_⟩
  · intro cmds c hne
    rw [runAts_concat] at hne
    exact guarded_of_changed hpw hne
  · intro dyn arg bit rest hw hno
    rw [write_without_password hpw hw hno]
    rfl
  · intro dyn arg bit rest value hw hsuf
    rw [write_with_password hpw hw hsuf]
  · intro dyn
    exact ⟨restoreArg r (password s), restoreArg_noNul (password_noNul (store_ok h)),
      ⟨none, _, restoreArg_writeTo hpw _⟩, restoreArg_accepted hpw dyn s⟩

/-- The password is changed to one with a `;`, then `S0A` is written. -/
def passwordRun : List Action :=
  [.ats (fun _ => []) (ascii "0C=a;b:password"), .ats (fun _ => []) (ascii "0A=8000:a;b")]

theorem passwordRun_exec : (machine.exec (sregInit []) passwordRun).map (fun s =>
    (password s, s.val ⟨8, by decide⟩)) = some (ascii "a;b", ascii "8000") := by
  decide

theorem password_guard_run : ∃ s : Store, password s = ascii "a;b" ∧
    (∀ dyn, (sregAtCommand dyn (ascii "0A=0400") s).result = atErrBadPassword) ∧
    ∀ dyn, ∃ arg, 0 ∉ arg ∧ (sregAtCommand dyn arg s).result = atOk := by
  obtain ⟨s, he, hs⟩ := Option.map_eq_some_iff.mp passwordRun_exec
  simp only [Prod.mk.injEq] at hs
  obtain ⟨-, hguard⟩ := password_guard (Machine.Reach.exec (.init rfl) he)
  obtain ⟨-, -, hrefuse, -, hopen⟩ := hguard ⟨8, by decide⟩ (by decide)
  refine ⟨s, hs.1, ?_, ?_⟩
  · intro dyn
    have hw : WriteTo (ascii "0A=0400") ⟨8, by decide⟩ none (ascii "0400") :=
      WriteTo.whole rfl (by decide : find 10 = _)
    refine hrefuse dyn _ _ _ hw ?_
    rintro ⟨value, h⟩
    have hno : splitPassword (ascii "0400") = (ascii "0400", none) := by decide
    rw [splitPassword_eq_some.mpr h] at hno
    cases hno
  · intro dyn
    obtain ⟨arg, h0, -, hok⟩ := hopen dyn
    exact ⟨arg, h0, hok⟩

end ZbAt.Sreg
