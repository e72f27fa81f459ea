import ZbAt.SregGuard

/-!
# S-registers: memory and the settings store

A register with `F_NV` has two copies: its value in memory, and an entry of the settings store
that is written on every change and deleted by a factory reset.

* `Mirrors` — the two copies agree: every entry holds the value of its register, and a register
  without an entry has its default.
* `mirrors` — they agree in every reachable store.
* `power_cycle` — a reboot gives back every non-volatile register and resets the others; after a
  factory reset it gives the store of a device that has never saved anything.
-/

namespace ZbAt.Sreg

open Text

/-- The keys of the settings store. -/
def keys (saved : Settings) : List Text := saved.map Prod.fst

@[simp] theorem keys_cons (e : Text × Text) (saved : Settings) :
    keys (e :: saved) = e.1 :: keys saved := rfl

/-- The registers that `init_volatile` copies: `S40`, `S42` and `S44`, with their sources. -/
def volatilePairs : List (ℕ × ℕ) := [(0x40, 0x41), (0x42, 0x43), (0x44, 0x45)]

/-- `r` is one of the registers that `init_volatile` sets. -/
def Volatile (r : Reg) : Prop := r.info.id ∈ volatilePairs.map Prod.fst

instance : DecidablePred Volatile := fun _ => inferInstanceAs (Decidable (_ ∈ _))

/-- The two copies agree. -/
structure Mirrors (s : Store) : Prop where
  entries : ∀ e ∈ s.saved, ∃ r : Reg, r.info.has .nv = true ∧
    e = (keyOf r.info, s.val r ++ [0])
  unsaved : ∀ r : Reg, r.info.has .nv = true → keyOf r.info ∉ keys s.saved →
    s.val r = r.info.dflt
  fixed : ∀ r : Reg, r.info.has .nv = false → ¬Volatile r → s.val r = r.info.dflt

/-! ## The table -/

theorem keyOf_injective {r r' : Reg} (h : keyOf r.info = keyOf r'.info) : r = r' := by
  have hr := keyBelow_keyOf r
  rw [h, keyBelow_keyOf r'] at hr
  exact (Option.some.inj hr).symm

/-- A register that `init_volatile` sets is not saved. -/
theorem not_volatile : ∀ {r : Reg}, r.info.has .nv = true → ¬Volatile r := by decide

/-- A register that is neither saved nor set by `init_volatile` is read-only. -/
theorem ro_of_fixed : ∀ {r : Reg}, r.info.has .nv = false → ¬Volatile r →
    r.info.has .ro = true := by
  decide

/-! ## Loading -/

theorem copyReg_val {dst src : ℕ} {d s : Reg} (hd : find dst = some d) (hs : find src = some s)
    (v : Vals) : copyReg dst src v = Function.update v d (v s) := by
  rw [copyReg, hd, hs]

/-- The registers that `init_volatile` sets, and what they take. -/
theorem initVolatile_eq (v : Vals) : initVolatile v =
    Function.update (Function.update (Function.update v ⟨16, by decide⟩ (v ⟨17, by decide⟩))
      ⟨18, by decide⟩ (v ⟨19, by decide⟩)) ⟨20, by decide⟩ (v ⟨21, by decide⟩) := by
  have h40 : find 0x40 = some ⟨16, by decide⟩ := by decide
  have h41 : find 0x41 = some ⟨17, by decide⟩ := by decide
  have h42 : find 0x42 = some ⟨18, by decide⟩ := by decide
  have h43 : find 0x43 = some ⟨19, by decide⟩ := by decide
  have h44 : find 0x44 = some ⟨20, by decide⟩ := by decide
  have h45 : find 0x45 = some ⟨21, by decide⟩ := by decide
  rw [initVolatile, copyReg_val h40 h41, copyReg_val h42 h43, copyReg_val h44 h45]
  simp [Function.update_of_ne]

theorem initVolatile_of_not {r : Reg} (h : ¬Volatile r) (v : Vals) : initVolatile v r = v r := by
  have hne : ∀ i : Reg, Volatile i → r ≠ i := fun i hi hr => h (hr ▸ hi)
  rw [initVolatile_eq, Function.update_of_ne (hne _ (by decide)),
    Function.update_of_ne (hne _ (by decide)), Function.update_of_ne (hne _ (by decide))]

theorem initVolatile_pair {p : ℕ × ℕ} (h : p ∈ volatilePairs) {d s : Reg}
    (hd : find p.1 = some d) (hs : find p.2 = some s) (v : Vals) : initVolatile v d = v s := by
  simp only [volatilePairs, List.mem_cons, List.not_mem_nil, or_false] at h
  rw [initVolatile_eq]
  rcases h with rfl | rfl | rfl
  · cases hd
    cases hs
    simp
  · cases hd
    cases hs
    simp
  · cases hd
    cases hs
    simp

/-- Loading entries that all hold the values `v'` gives these to the registers that have one. -/
theorem settingsLoad_apply {saved : Settings} {v' : Vals} (hv' : ∀ r, ValOk r (v' r))
    (h : ∀ e ∈ saved, ∃ r : Reg, e = (keyOf r.info, v' r ++ [0])) (v : Vals) (r : Reg) :
    settingsLoad saved v r = if keyOf r.info ∈ keys saved then v' r else v r := by
  induction saved generalizing v with
  | nil => rfl
  | cons e saved ih =>
    obtain ⟨r', rfl⟩ := h e List.mem_cons_self
    rw [settingsLoad, List.foldl_cons, loadCb_keyOf (hv' r')]
    refine (ih (fun e he => h e (List.mem_cons_of_mem _ he)) _).trans ?_
    by_cases hr : r = r'
    · subst hr
      rw [Function.update_self, keys_cons, if_pos List.mem_cons_self, ite_self]
    · have hkey : keyOf r.info ≠ keyOf r'.info := fun hk => hr (keyOf_injective hk)
      rw [Function.update_of_ne hr]
      exact if_congr (by simp [hkey]) rfl rfl

/-! ## The invariant -/

/-- What a reboot gives to a register when the copies agree. -/
theorem Mirrors.reboot {s : Store} (h : Mirrors s) (hok : StoreOk s) {r : Reg}
    (hv : ¬Volatile r) : (sregInit s.saved).val r = s.val r := by
  have hent : ∀ e ∈ s.saved, ∃ r : Reg, e = (keyOf r.info, s.val r ++ [0]) := fun e he =>
    (h.entries e he).imp fun _ he => he.2
  show initVolatile (settingsLoad s.saved loadDefaults) r = s.val r
  rw [initVolatile_of_not hv, settingsLoad_apply hok.vals hent]
  split_ifs with hkey
  · rfl
  · cases hnv : r.info.has .nv with
    | true => exact (h.unsaved r hnv hkey).symm
    | false => exact (h.fixed r hnv hv).symm

theorem Mirrors.init {s : Store} (h : Mirrors s) (hok : StoreOk s) :
    Mirrors (sregInit s.saved) where
  entries e he := by
    obtain ⟨r, hnv, rfl⟩ := h.entries e he
    have hv : ¬Volatile r := not_volatile hnv
    exact ⟨r, hnv, by rw [h.reboot hok hv]⟩
  unsaved r hnv hkey := by
    have hv : ¬Volatile r := not_volatile hnv
    rw [h.reboot hok hv]
    exact h.unsaved r hnv hkey
  fixed r hnv hv := by
    rw [h.reboot hok hv]
    exact h.fixed r hnv hv

theorem mem_deleteSaved {rs : List Reg} {saved : Settings} {e : Text × Text} :
    e ∈ deleteSaved rs saved ↔
      e ∈ saved ∧ ∀ r ∈ rs, r.info.has .nv = true → e.1 ≠ keyOf r.info := by
  induction rs generalizing saved with
  | nil => simp [deleteSaved]
  | cons r rs ih =>
    rw [deleteSaved, ih]
    split_ifs with hnv
    · simp [settingsDelete, hnv, and_assoc]
    · simp [hnv]

/-- A factory reset deletes every entry. -/
theorem Mirrors.deleteSaved_nil {s : Store} (h : Mirrors s) : deleteSaved allRegs s.saved = [] := by
  apply List.eq_nil_iff_forall_not_mem.mpr
  intro e he
  obtain ⟨hmem, hno⟩ := mem_deleteSaved.mp he
  obtain ⟨r, hnv, rfl⟩ := h.entries e hmem
  exact hno r (List.mem_finRange r) hnv rfl

theorem Mirrors.factoryReset {s : Store} (h : Mirrors s) : Mirrors (sregFactoryReset s) where
  entries e he := by
    rw [sregFactoryReset_saved, h.deleteSaved_nil] at he
    cases he
  unsaved r hnv _ := by
    have hv : ¬Volatile r := not_volatile hnv
    rw [sregFactoryReset_val, initVolatile_of_not hv, loadDefaults]
  fixed r _ hv := by
    rw [sregFactoryReset_val, initVolatile_of_not hv, loadDefaults]

/-- A write to a register keeps its two copies in step. -/
theorem Mirrors.stored {s : Store} (h : Mirrors s) {r : Reg} {new : Text} {o : Outcome}
    (ho : Stored r new s o) (hro : r.info.has .ro = false) : Mirrors o.store where
  entries e he := by
    rw [ho.saved] at he
    split_ifs at he with hnv
    · rcases List.mem_cons.mp he with rfl | he
      · exact ⟨r, hnv, by rw [ho.val, Function.update_self]⟩
      · obtain ⟨hmem, hne⟩ := List.mem_filter.mp he
        obtain ⟨r', hnv', rfl⟩ := h.entries e hmem
        have hr : r' ≠ r := by
          rintro rfl
          simp at hne
        exact ⟨r', hnv', by rw [ho.val, Function.update_of_ne hr]⟩
    · obtain ⟨r', hnv', rfl⟩ := h.entries e he
      have hr : r' ≠ r := by
        rintro rfl
        exact hnv hnv'
      exact ⟨r', hnv', by rw [ho.val, Function.update_of_ne hr]⟩
  unsaved r' hnv hkey := by
    have hr : r' ≠ r := by
      rintro rfl
      rw [ho.saved, if_pos hnv] at hkey
      exact hkey List.mem_cons_self
    rw [ho.val, Function.update_of_ne hr]
    apply h.unsaved r' hnv
    intro hmem
    apply hkey
    rw [ho.saved]
    split_ifs
    · obtain ⟨e, he, hk⟩ := List.mem_map.mp hmem
      have hne : e.1 ≠ keyOf r.info := fun h => hr (keyOf_injective (hk.symm.trans h))
      refine List.mem_map.mpr ⟨e, List.mem_cons_of_mem _ (List.mem_filter.mpr ⟨he, ?_⟩), hk⟩
      simpa using hne
    · exact hmem
  fixed r' hnv hv := by
    have hr : r' ≠ r := by
      rintro rfl
      simp [ro_of_fixed hnv hv] at hro
    rw [ho.val, Function.update_of_ne hr]
    exact h.fixed r' hnv hv

/-- Only a register that is not read-only is written. -/
theorem Stored.not_ro {dyn : ℕ → Text} {arg rest new : Text} {r : Reg} {bit : Option ℕ} {s : Store}
    (hw : WriteTo arg r bit rest) (h : Stored r new s (sregAtCommand dyn arg s)) :
    r.info.has .ro = false := by
  by_contra hro
  have hres := h.result
  rw [sregAtCommand_write hw, writeReg, if_pos (by simpa using hro)] at hres
  cases hres

theorem Mirrors.step {s : Store} (h : Mirrors s) (hok : StoreOk s) (a : Action) :
    Mirrors (step s a) := by
  cases a with
  | ats dyn arg =>
    rcases command_cases dyn (cstr arg) s with ⟨r, bit, rest, hw⟩ | ⟨hsame, -⟩
    · rcases write_stored dyn s hw with ⟨err, -, hr⟩ | ⟨t, new, -, -, hst⟩
      · simpa only [ZbAt.Sreg.step, hr, Outcome.refuse] using h
      · exact h.stored hst (hst.not_ro hw)
    · simpa only [ZbAt.Sreg.step, hsame] using h
  | tokdump dyn args =>
    show Mirrors (sregCmdTokdump dyn (cstr args) s).store
    unfold sregCmdTokdump
    split_ifs <;> exact h
  | factoryReset => exact h.factoryReset
  | reboot => exact h.init hok

/-- A device that has saved nothing boots with every register at its default. -/
theorem mirrors_boot : Mirrors (sregInit []) where
  entries e he := by cases he
  unsaved r hnv _ := by
    have hv : ¬Volatile r := not_volatile hnv
    exact initVolatile_of_not hv _
  fixed r _ hv := initVolatile_of_not hv _

theorem mirrors {s : Store} (h : machine.Reach s) : Mirrors s :=
  h.invariant_of StoreOk Mirrors (fun _ => store_ok)
    (fun _ h0 => by cases h0; exact mirrors_boot)
    fun _ a _ hok _ hm _ hs => by cases hs; exact hm.step hok a

/-- **Power cycles.** After any run of commands, factory resets and power cycles, a power cycle
gives back the value of every `F_NV` register, sets `S40`, `S42` and `S44` from `S41`, `S43` and
`S45`, every other register to its default, and the echo to the negation of `S12` bit 4; after a
factory reset it gives the store of a device with no saved settings. -/
theorem power_cycle {s : Store} (h : machine.Reach s) :
    (∀ r : Reg, r.info.has .nv = true → (step s .reboot).val r = s.val r) ∧
    (∀ p ∈ volatilePairs, ∀ dst src, find p.1 = some dst → find p.2 = some src →
      (step s .reboot).val dst = s.val src) ∧
    (∀ r : Reg, r.info.has .nv = false → r.info.id ∉ [0x40, 0x42, 0x44] →
      (step s .reboot).val r = r.info.dflt) ∧
    (step s .reboot).echo = (!sregBit 0x12 4 (step s .reboot).val) ∧
    step (step s .factoryReset) .reboot = sregInit [] := by
  have hm := mirrors h
  have hok := store_ok h
  have hkeep : ∀ r : Reg, r.info.has .nv = true → (step s .reboot).val r = s.val r := by
    intro r hnv
    have hv : ¬Volatile r := not_volatile hnv
    exact hm.reboot hok hv
  refine ⟨hkeep, ?_, ?_, rfl, ?_⟩
  · intro p hp dst src hd hs
    have hsrc : src.info.has .nv = true := by
      have htab : ∀ p ∈ volatilePairs, ∀ src ∈ find p.2, src.info.has .nv = true := by decide
      exact htab p hp src hs
    have hv : ¬Volatile src := not_volatile hsrc
    rw [← hkeep src hsrc]
    show initVolatile _ dst = initVolatile _ src
    rw [initVolatile_pair hp hd hs, initVolatile_of_not hv]
  · intro r hnv hid
    exact (hm.reboot hok hid).trans (hm.fixed r hnv hid)
  · show sregInit (sregFactoryReset s).saved = sregInit []
    rw [sregFactoryReset_saved, hm.deleteSaved_nil]

/-- `S02` and `S40` are written, and the device restarts. -/
def cycleRun : List Action :=
  [.ats (fun _ => []) (ascii "02=4321"), .ats (fun _ => []) (ascii "40=0202")]

theorem cycleRun_exec : (machine.exec (sregInit []) cycleRun).map (fun s =>
    (s.val ⟨2, by decide⟩, s.val ⟨16, by decide⟩, s.val ⟨17, by decide⟩)) =
    some (ascii "4321", ascii "0202", ascii "0101") := by
  decide

theorem power_cycle_run : ∃ s : Store, s.val ⟨16, by decide⟩ = ascii "0202" ∧
    (step s .reboot).val ⟨2, by decide⟩ = ascii "4321" ∧
    (step s .reboot).val ⟨16, by decide⟩ = ascii "0101" ∧
    (step (step s .factoryReset) .reboot).val ⟨2, by decide⟩ = ascii "0000" := by
  obtain ⟨s, he, hs⟩ := Option.map_eq_some_iff.mp cycleRun_exec
  simp only [Prod.mk.injEq] at hs
  obtain ⟨hkeep, hvol, -, -, hreset⟩ := power_cycle (Machine.Reach.exec (.init rfl) he)
  refine ⟨s, hs.2.1, ?_, ?_, ?_⟩
  · exact (hkeep ⟨2, by decide⟩ (by decide)).trans hs.1
  · have hp : (0x40, 0x41) ∈ volatilePairs := by decide
    exact (hvol _ hp ⟨16, by decide⟩ ⟨17, by decide⟩ (by decide) (by decide)).trans hs.2.2
  · rw [hreset]
    decide

end ZbAt.Sreg
