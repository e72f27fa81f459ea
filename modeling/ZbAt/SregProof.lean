import ZbAt.Machine
import ZbAt.SregValue

/-!
# S-registers: every stored value is canonical

`machine` runs `ATS` commands, factory resets and reboots. `StoreOk` says that every register
with a value of its own holds a canonical text, and so does every saved entry.

* `store_ok` — `StoreOk` holds of every reachable store.
* `write_reads` — after an accepted write the readers return the value that the text denotes.
-/

namespace ZbAt.Sreg

open Text

inductive Action
  /-- `ATS` with the text `arg`; `dyn` is what `sreg_dynamic_read` gives. -/
  | ats (dyn : ℕ → Text) (arg : Text)
  | tokdump (dyn : ℕ → Text) (args : Text)
  | factoryReset
  | reboot

def step (s : Store) : Action → Store
  | .ats dyn arg => (sregAtCommand dyn (cstr arg) s).store
  | .tokdump dyn args => (sregCmdTokdump dyn (cstr args) s).store
  | .factoryReset => sregFactoryReset s
  | .reboot => sregInit s.saved

/-- A device that boots with no saved settings. -/
def machine : Machine Store Action := ⟨(· = sregInit []), fun s a => some (step s a)⟩

/-! ## The invariant -/

/-- A text that the register may hold. -/
structure ValOk (r : Reg) (t : Text) : Prop where
  canonical : r.info.type ≠ .dyn → normalise r.info t = .ok t
  noNul : 0 ∉ t
  fits : t.length + 1 ≤ valMax

def ValsOk (v : Vals) : Prop := ∀ r, ValOk r (v r)

/-- The entry holds the value of a register, with its terminator. -/
def EntryOk (e : Text × Text) : Prop := ∃ r t, e = (keyOf r.info, t ++ [0]) ∧ ValOk r t

structure StoreOk (s : Store) : Prop where
  vals : ValsOk s.val
  saved : ∀ e ∈ s.saved, EntryOk e

/-! ## The table -/

theorem default_ok (r : Reg) : ValOk r r.info.dflt := by
  have hall : ∀ r : Reg, (r.info.type ≠ .dyn → normalise r.info r.info.dflt = .ok r.info.dflt) ∧
      0 ∉ r.info.dflt ∧ r.info.dflt.length + 1 ≤ valMax := by decide
  exact ⟨(hall r).1, (hall r).2.1, (hall r).2.2⟩

theorem keyBelow_keyOf : ∀ r : Reg, (keyBelow (keyOf r.info)).bind
    (fun key => if key.length = 2 then (atParseHexN key 2).bind find else none) = some r := by
  decide

theorem maxLen_lt : ∀ r : Reg, r.info.maxLen < valMax := by decide

/-! ## Normalised values -/

theorem zero_not_mem_hex {t : Text} (h : ∀ c ∈ t, isxdigit c = true) : 0 ∉ t := fun hm =>
  absurd (h 0 hm) (by decide)

theorem zero_not_mem_idsText (l : List UInt16) : 0 ∉ idsText l := by
  induction l with
  | nil => simp [idsText]
  | cons v l ih =>
    have hv := zero_not_mem_hex (hexText_all 4 v.toNat)
    cases l with
    | nil => simpa [idsText] using hv
    | cons w l =>
      rw [idsText, List.map_cons] at ih
      simp only [idsText, List.map_cons, List.intercalate_cons_cons, List.mem_append,
        List.mem_singleton, not_or]
      exact ⟨⟨hv, by decide⟩, ih⟩

theorem Denotes.noNul {r : SregInfo} {t : Text} {x : RegValue} (h : Denotes r t x) (ht : 0 ∉ t) :
    0 ∉ ZbAt.Sreg.encode r x := by
  cases h with
  | num => exact zero_not_mem_hex (hexText_all _ _)
  | @int v =>
    have hd : 0 ∉ decDigits 2 v.natAbs := zero_not_mem_hex fun c hc =>
      isxdigit_of_isdigit (decDigits_all _ _ c hc)
    simp only [ZbAt.Sreg.encode, decText]
    split_ifs
    · simpa using hd
    · exact hd
  | @bytes bs =>
    rw [ZbAt.Sreg.encode, bytesText, List.mem_flatMap]
    rintro ⟨b, -, hb⟩
    exact zero_not_mem_hex (hexText_all _ _) hb
  | text => exact ht
  | ids => exact zero_not_mem_idsText _

theorem ValOk.of_normalise {r : Reg} {t u : Text} (h : normalise r.info t = .ok u) (ht : 0 ∉ t) :
    ValOk r u := by
  obtain ⟨x, hd, rfl, hu⟩ := normalise_idem h
  exact ⟨fun _ => hu, hd.noNul ht, hd.length_encode (maxLen_lt r)⟩

/-- Registers of one type validate alike, but for `S12`. -/
theorem normalise_congr {r r' : SregInfo} (ht : r.type = r'.type) (hm : r.maxLen = r'.maxLen)
    (hr : r.id ≠ 0x12) (hr' : r'.id ≠ 0x12) (t : Text) : normalise r t = normalise r' t := by
  have h1 : (r.id == 0x12) = false := beq_eq_false_iff_ne.mpr hr
  have h2 : (r'.id == 0x12) = false := beq_eq_false_iff_ne.mpr hr'
  simp only [normalise, ht, hm, h1, h2]

/-! ## The operations keep the invariant -/

theorem ValsOk.update {v : Vals} (h : ValsOk v) {r : Reg} {t : Text} (ht : ValOk r t) :
    ValsOk (Function.update v r t) := by
  intro r'
  by_cases hr : r' = r
  · subst hr; simpa using ht
  · simpa [hr] using h r'

theorem ValsOk.copyReg {v : Vals} (h : ValsOk v) {dst src : ℕ}
    (hc : ∀ d ∈ find dst, ∀ s ∈ find src,
      d.info.type = s.info.type ∧ d.info.maxLen = s.info.maxLen ∧
      d.info.id ≠ 0x12 ∧ s.info.id ≠ 0x12) : ValsOk (copyReg dst src v) := by
  unfold ZbAt.Sreg.copyReg
  split
  case h_1 d s hd hs =>
    obtain ⟨ht, hm, h1, h2⟩ := hc d hd s hs
    refine h.update ⟨?_, (h s).noNul, (h s).fits⟩
    intro hdyn
    rw [normalise_congr ht hm h1 h2]
    exact (h s).canonical (ht ▸ hdyn)
  case h_2 => exact h

theorem ValsOk.initVolatile {v : Vals} (h : ValsOk v) : ValsOk (initVolatile v) :=
  ((h.copyReg (by decide)).copyReg (by decide)).copyReg (by decide)

theorem loadDefaults_ok : ValsOk loadDefaults := default_ok

theorem cstr_eq {t : Text} (h : 0 ∉ t) : cstr t = t :=
  List.takeWhile_eq_self_iff.mpr fun _ hc => bne_iff_ne.mpr fun h0 => h (h0 ▸ hc)

theorem zero_not_mem_cstr (t : Text) : 0 ∉ cstr t := fun h => by
  simpa using List.mem_takeWhile_imp h

/-- Loading a saved value puts it back into its register. -/
theorem loadCb_keyOf {r : Reg} {t : Text} (h : ValOk r t) (v : Vals) :
    (keyBelow (keyOf r.info)).elim v (fun key => loadCb key (t ++ [0]) v) =
      Function.update v r t := by
  have hk := keyBelow_keyOf r
  obtain ⟨key, hkey, hf⟩ := Option.bind_eq_some_iff.mp hk
  split_ifs at hf with h2
  rw [hkey, Option.elim_some, loadCb, if_neg (by simp [h2]), hf]
  dsimp only
  have hfits := h.fits
  rw [if_neg (by simpa using hfits), if_pos (by simp)]
  simp [cstr_eq h.noNul]

theorem settingsLoad_ok {saved : Settings} (hs : ∀ e ∈ saved, EntryOk e) {v : Vals}
    (hv : ValsOk v) : ValsOk (settingsLoad saved v) := by
  induction saved generalizing v with
  | nil => exact hv
  | cons e saved ih =>
    obtain ⟨r, t, rfl, ht⟩ := hs e List.mem_cons_self
    rw [settingsLoad, List.foldl_cons, loadCb_keyOf ht]
    exact ih (fun e he => hs e (List.mem_cons_of_mem _ he)) (hv.update ht)

theorem storeOk_init {saved : Settings} (hs : ∀ e ∈ saved, EntryOk e) : StoreOk (sregInit saved) :=
  ⟨(settingsLoad_ok hs loadDefaults_ok).initVolatile, hs⟩

theorem persist_ok {s : Store} (h : StoreOk s) (r : Reg) : StoreOk (persist r s) := by
  unfold persist
  split_ifs with hnv
  · refine ⟨h.vals, ?_⟩
    intro e he
    rcases List.mem_cons.mp he with rfl | he
    · exact ⟨r, s.val r, rfl, h.vals r⟩
    · exact h.saved e (List.mem_of_mem_filter he)
  · exact h

theorem storeReg_ok {s : Store} (h : StoreOk s) {r : Reg} {t : Text} (ht : 0 ∉ t) :
    StoreOk (storeReg r t s).store := by
  unfold storeReg
  cases hn : normalise r.info t with
  | error err => exact h
  | ok value =>
    have hval : StoreOk { s with val := Function.update s.val r value } :=
      ⟨h.vals.update (.of_normalise hn ht), h.saved⟩
    have hp := persist_ok hval r
    dsimp only
    split_ifs
    · exact ⟨hp.vals, hp.saved⟩
    · exact hp

theorem deleteSaved_subset (rs : List Reg) (saved : Settings) : deleteSaved rs saved ⊆ saved := by
  induction rs generalizing saved with
  | nil => exact List.Subset.refl _
  | cons r rs ih =>
    apply List.Subset.trans (ih _)
    split_ifs
    · exact List.filter_subset_self _
    · exact List.Subset.refl _

theorem sregFactoryReset_val (s : Store) :
    (sregFactoryReset s).val = initVolatile loadDefaults := by
  simp only [sregFactoryReset]

theorem sregFactoryReset_saved (s : Store) :
    (sregFactoryReset s).saved = deleteSaved allRegs s.saved := by
  simp only [sregFactoryReset]

theorem factoryReset_ok {s : Store} (h : StoreOk s) : StoreOk (sregFactoryReset s) where
  vals := by
    rw [sregFactoryReset_val]
    exact loadDefaults_ok.initVolatile
  saved e he := by
    rw [sregFactoryReset_saved] at he
    exact h.saved e (deleteSaved_subset _ _ he)

/-! ## Commands -/

/-- A write either leaves the store alone or stores a text: the one given, or that of a changed
bit. -/
theorem writeReg_cases (r : Reg) (bit : Option ℕ) (arg : Text) (s : Store) :
    (∃ err ≠ atOk, writeReg r bit arg s = .refuse err s) ∨
      ∃ t, writeReg r bit arg s = storeReg r t s ∧
        (bit = none ∧ t = (splitPassword arg).1 ∨ bit ≠ none ∧ ∃ w n, t = hexText w n) := by
  unfold writeReg
  split_ifs with hro
  · exact .inl ⟨_, by decide, rfl⟩
  · dsimp only
    split_ifs with hpw
    · exact .inl ⟨_, by decide, rfl⟩
    · cases bit with
      | none => exact .inr ⟨_, rfl, .inl ⟨rfl, rfl⟩⟩
      | some bit =>
        dsimp only
        cases ht : bitText r bit (splitPassword arg).1 s.val with
        | none => exact .inl ⟨_, by decide, rfl⟩
        | some t =>
          refine .inr ⟨t, rfl, .inr ⟨by simp, ?_⟩⟩
          unfold bitText at ht
          split_ifs at ht <;> exact ⟨_, _, (Option.some.inj ht).symm⟩

theorem splitPassword_subset (arg : Text) : (splitPassword arg).1 ⊆ arg := by
  unfold splitPassword
  split
  · exact List.takeWhile_subset _
  · split
    · exact List.takeWhile_subset _
    · exact List.Subset.refl _

theorem readReg_store (dyn : ℕ → Text) (r : Reg) (bit : Option ℕ) (s : Store) :
    (readReg dyn r bit s).store = s := by
  unfold readReg
  cases bit with
  | none => rfl
  | some bit =>
    dsimp only
    split_ifs <;> rfl

theorem writeReg_ok {s : Store} (h : StoreOk s) (r : Reg) (bit : Option ℕ) {arg : Text}
    (ha : 0 ∉ arg) : StoreOk (writeReg r bit arg s).store := by
  rcases writeReg_cases r bit arg s with ⟨err, -, hw⟩ | ⟨t, hw, hv⟩
  · rw [hw]; exact h
  · rw [hw]
    apply storeReg_ok h
    rcases hv with ⟨-, rfl⟩ | ⟨-, w, n, rfl⟩
    · exact fun h0 => ha (splitPassword_subset arg h0)
    · exact zero_not_mem_hex (hexText_all w n)

theorem sregAtCommand_ok {s : Store} (h : StoreOk s) (dyn : ℕ → Text) {arg : Text}
    (ha : 0 ∉ arg) : StoreOk (sregAtCommand dyn arg s).store := by
  unfold sregAtCommand
  cases (atParseHexN arg 2).bind find with
  | none =>
    dsimp only
    split_ifs <;> exact h
  | some r =>
    have hrest : ∀ n, 0 ∉ arg.drop n := fun n h0 => ha (List.mem_of_mem_drop h0)
    dsimp only
    split_ifs
    · exact h
    · rw [readReg_store]; exact h
    · rw [readReg_store]; exact h
    · exact writeReg_ok h r _ (hrest _)
    · exact writeReg_ok h r _ (hrest _)
    · exact h

theorem step_ok {s : Store} (h : StoreOk s) (a : Action) : StoreOk (step s a) := by
  cases a with
  | ats dyn arg => exact sregAtCommand_ok h dyn (zero_not_mem_cstr arg)
  | tokdump dyn args =>
    unfold step sregCmdTokdump
    dsimp only
    split_ifs <;> exact h
  | factoryReset => exact factoryReset_ok h
  | reboot => exact storeOk_init h.saved

theorem store_ok {s : Store} (h : machine.Reach s) : StoreOk s :=
  h.invariant StoreOk (fun _ h0 => by cases h0; exact storeOk_init (by simp))
    fun _ a _ h _ hs => by cases hs; exact step_ok h a

/-! ## Writing and reading -/

/-- An accepted text is stored by its value. -/
theorem storeReg_denotes {r : Reg} {t : Text} {s : Store} (h : (storeReg r t s).result = atOk) :
    ∃ x, Denotes r.info t x ∧ Denotes r.info ((storeReg r t s).store.val r) x := by
  unfold storeReg at h ⊢
  cases hn : normalise r.info t with
  | error err =>
    rw [hn] at h
    have herr : err = atErrInvalidParam ∨ err = atErrReadOnly := by
      by_cases hr : r.info.type = .dyn
      · rw [normalise_dyn hr] at hn
        exact .inr (Except.error.inj hn).symm
      · rw [normalise_eq hr] at hn
        split at hn
        · cases hn
        · exact .inl (Except.error.inj hn).symm
    rcases herr with rfl | rfl <;> cases h
  | ok value =>
    obtain ⟨x, hd, rfl, -⟩ := normalise_idem hn
    refine ⟨x, hd, ?_⟩
    have hval : ∀ s' : Store, (persist r s').val = s'.val := fun s' => by
      unfold persist
      split_ifs <;> rfl
    have hnew : ∀ s' : Store, s'.val r = encode r.info x → Denotes r.info (s'.val r) x := by
      intro s' hs
      rw [hs]
      exact denotes_of_denote hd.encode
    apply hnew _
    dsimp only
    split_ifs <;> simp [hval]

/-- A whole-value write that is accepted stores its text. -/
theorem whole_write {dyn : ℕ → Text} {c₁ c₂ : UInt8} {text : Text} {s : Store}
    (h : (sregAtCommand dyn (c₁ :: c₂ :: 61 :: text) s).result = atOk) :
    ∃ id r, atParseHexN [c₁, c₂] 2 = some id ∧ find id = some r ∧
      sregAtCommand dyn (c₁ :: c₂ :: 61 :: text) s = storeReg r (splitPassword text).1 s := by
  have heq : isxdigit 61 = false := by decide
  have hp : atParseHexN (c₁ :: c₂ :: 61 :: text) 2 = atParseHexN [c₁, c₂] 2 := by
    rw [atParseHexN_eq (by decide) (by decide), atParseHexN_eq (by decide) (by decide)]
    simp
  unfold sregAtCommand at h ⊢
  by_cases hx : isxdigit c₁ = true ∧ isxdigit c₂ = true
  · have hn : ((c₁ :: c₂ :: 61 :: text).takeWhile isxdigit).length = 2 := by
      simp [hx.1, hx.2, heq]
    rw [hn, hp] at h ⊢
    dsimp only at h ⊢
    rw [if_neg (by decide)] at h ⊢
    cases hf : (atParseHexN [c₁, c₂] 2).bind find with
    | none => rw [hf] at h; cases h
    | some r =>
      rw [hf] at h
      obtain ⟨id, hid, hr⟩ := Option.bind_eq_some_iff.mp hf
      refine ⟨id, r, hid, hr, ?_⟩
      have hread : ((c₁ :: c₂ :: 61 :: text).drop 2 == ascii "?") = false := rfl
      have hwrite : ((c₁ :: c₂ :: 61 :: text)[2]? == some 61) = true := rfl
      dsimp only at h ⊢
      rw [hread, if_neg Bool.false_ne_true, hwrite, if_pos rfl, if_neg (by decide)] at h
      rw [hread, if_neg Bool.false_ne_true, hwrite, if_pos rfl, if_neg (by decide)]
      change writeReg r none text s = _
      change (writeReg r none text s).result = atOk at h
      rcases writeReg_cases r none text s with ⟨err, herr, hw⟩ | ⟨t, hw, ⟨-, rfl⟩ | ⟨hne, -⟩⟩
      · rw [hw] at h
        exact absurd h herr
      · exact hw
      · exact absurd rfl hne
  · have hn : ((c₁ :: c₂ :: 61 :: text).takeWhile isxdigit).length < 2 := by
      by_cases h1 : isxdigit c₁ = true
      · have h2 : isxdigit c₂ = false := by simpa [h1] using hx
        simp [h1, h2]
      · simp [h1]
    dsimp only at h
    rw [if_pos (by simp only [Bool.and_eq_true, bne_iff_ne]; omega)] at h
    cases h

section

variable {r : SregInfo} {t : Text} {x : RegValue} (h : Denotes r t x)
include h

theorem Denotes.of_num (hr : r.type = .u8 ∨ r.type = .u16) :
    ∃ n, hexValue t = some n ∧ x = .num n := by
  cases h with
  | num _ hn => exact ⟨_, hn, rfl⟩
  | bytes hr' => rcases hr' with hr' | hr' <;> simp [hr'] at hr
  | int hr' | text hr' | ids hr' => simp [hr'] at hr

theorem Denotes.of_int (hr : r.type = .s8) : ∃ d, decValue t = some d ∧ x = .int d := by
  cases h with
  | int _ hv => exact ⟨_, hv, rfl⟩
  | num hr' | bytes hr' => simp [hr] at hr'
  | text hr' | ids hr' => cases hr.symm.trans hr'

theorem Denotes.of_bytes (hr : r.type = .hex64 ∨ r.type = .key128) :
    ∃ bs, hexBytes t = some bs ∧ 2 * bs.length = r.type.digits ∧ x = .bytes bs := by
  cases h with
  | bytes _ hb hlen => exact ⟨_, hb, hlen, rfl⟩
  | num hr' => rcases hr' with hr' | hr' <;> simp [hr'] at hr
  | int hr' | text hr' | ids hr' => simp [hr'] at hr

theorem Denotes.of_ids (hr : r.type = .clusters) : ∃ l, idList t = some l ∧ x = .ids l := by
  cases h with
  | ids _ hl => exact ⟨_, hl, rfl⟩
  | num hr' | bytes hr' => simp [hr] at hr'
  | int hr' | text hr' => cases hr.symm.trans hr'

end

/-- **Canonical values.** In every reachable store each register that has a value of its own
holds a text that `normalise` returns unchanged and that fits with its terminator; and after an
accepted whole-value write the readers return what the text written denotes. -/
theorem store_canonical {s : Store} (h : machine.Reach s) :
    (∀ r : Reg, r.info.type ≠ .dyn → normalise r.info (s.val r) = .ok (s.val r) ∧
      (s.val r).length + 1 ≤ valMax) ∧
    ∀ dyn c₁ c₂ text o, o = sregAtCommand dyn (c₁ :: c₂ :: 61 :: text) s → o.result = atOk →
      ∃ id r, atParseHexN [c₁, c₂] 2 = some id ∧ find id = some r ∧
        (r.info.type = .u8 ∨ r.info.type = .u16 →
          ∃ n, hexValue (splitPassword text).1 = some n ∧ sregU32 id o.store.val = n) ∧
        (r.info.type = .s8 →
          ∃ d, decValue (splitPassword text).1 = some d ∧ sregS8 id o.store.val = d) ∧
        (r.info.type = .hex64 →
          ∃ bs, hexBytes (splitPassword text).1 = some bs ∧ sregBytes id 8 o.store.val = some bs) ∧
        (r.info.type = .key128 →
          ∃ bs, hexBytes (splitPassword text).1 = some bs ∧ sregBytes id 16 o.store.val = some bs) ∧
        (r.info.type = .clusters → ∃ l, idList (splitPassword text).1 = some l ∧
          sregClusters id maxClusters o.store.val = l) := by
  have hok := store_ok h
  refine ⟨fun r hr => ⟨(hok.vals r).canonical hr, (hok.vals r).fits⟩, ?_⟩
  rintro dyn c₁ c₂ text o rfl hres
  obtain ⟨id, r, hid, hr, hw⟩ := whole_write hres
  rw [hw] at hres
  obtain ⟨x, ht, hv⟩ := storeReg_denotes hres
  refine ⟨id, r, hid, hr, ?_⟩
  rw [hw]
  refine ⟨?_, ?_, ?_, ?_, ?_⟩
  · intro hty
    obtain ⟨n, hn, rfl⟩ := ht.of_num hty
    exact ⟨n, hn, sregU32_eq hr hv⟩
  · intro hty
    obtain ⟨d, hd, rfl⟩ := ht.of_int hty
    exact ⟨d, hd, sregS8_eq hr hv⟩
  · intro hty
    obtain ⟨bs, hb, hlen, rfl⟩ := ht.of_bytes (.inl hty)
    rw [hty] at hlen
    have h8 : bs.length = 8 := by simp only [SregType.digits] at hlen; omega
    exact ⟨bs, hb, h8 ▸ sregBytes_eq hr hv⟩
  · intro hty
    obtain ⟨bs, hb, hlen, rfl⟩ := ht.of_bytes (.inr hty)
    rw [hty] at hlen
    have h16 : bs.length = 16 := by simp only [SregType.digits] at hlen; omega
    exact ⟨bs, hb, h16 ▸ sregBytes_eq hr hv⟩
  · intro hty
    obtain ⟨l, hl, rfl⟩ := ht.of_ids hty
    exact ⟨l, hl, sregClusters_eq hr hv⟩

/-- `S02` is written in lower case, and the device restarts. -/
def panIdRun : List Action :=
  [.ats (fun _ => []) (ascii "02=ab"), .ats (fun _ => []) (ascii "4B=0006,0a0b:"), .reboot]

theorem panIdRun_exec : (machine.exec (sregInit []) panIdRun).map (fun s =>
    (s.saved.length, (sregAtCommand (fun _ => []) (ascii "02=12C") s).result)) =
    some (2, atOk) := by
  decide

theorem store_canonical_panId : ∃ s : Store, s.saved.length = 2 ∧
    (∀ r : Reg, r.info.type ≠ .dyn → normalise r.info (s.val r) = .ok (s.val r)) ∧
    ∃ id, atParseHexN (ascii "02") 2 = some id ∧
      sregU32 id (sregAtCommand (fun _ => []) (ascii "02=12C") s).store.val = 0x12C := by
  obtain ⟨s, he, hs⟩ := Option.map_eq_some_iff.mp panIdRun_exec
  simp only [Prod.mk.injEq] at hs
  obtain ⟨hcan, hread⟩ := store_canonical (Machine.Reach.exec (.init rfl) he)
  obtain ⟨id, r, hid, hr, hnum, -⟩ := hread (fun _ => []) 48 50 (ascii "12C") _ rfl hs.2
  have hid2 : id = 2 := by
    have h2 : atParseHexN [48, 50] 2 = some 2 := by decide
    exact Option.some.inj (hid.symm.trans h2)
  have hty : r.info.type = .u16 := by
    subst hid2
    have hall : ∀ r ∈ find 2, r.info.type = .u16 := by decide
    exact hall r hr
  obtain ⟨n, hn, hu⟩ := hnum (.inr hty)
  have h300 : hexValue (splitPassword (ascii "12C")).1 = some 0x12C := by decide
  rw [hn] at h300
  exact ⟨s, hs.1, fun r hr => (hcan r hr).1, id, hid, hu.trans (Option.some.inj h300)⟩

end ZbAt.Sreg
