import ZbAt.EndpointProof

/-!
# Cluster lists, from the register to the descriptor (sreg.c, zb_msg.c)

`normalise` walks the text of `S4B` or `S4C` and looks ahead; `sreg_clusters` walks the stored
text again at the next boot, and `ep2_build` packs both lists into one array.

* `Groups` — the texts that are meant: groups of four digits with single commas between them.
* `Declares` — the descriptor has these input and output clusters, in one array.
* `clusters_declared` — which texts are accepted, what is stored, and what is declared.
-/

namespace ZbAt.Endpoint

open Text Sreg

/-! ## The texts -/

/-- Exactly four hex digits, for this ID. -/
def IsGroup (id : UInt16) (g : Text) : Prop := g.length = 4 ∧ hexValue g = some id.toNat

/-- A group for each ID, and single commas between them. -/
def Groups (ids : List UInt16) (t : Text) : Prop :=
  ∃ gs : List Text, List.Forall₂ IsGroup ids gs ∧ t = [44].intercalate gs

/-- Nothing, or 1 to 8 groups. -/
structure ClusterValue (ids : List UInt16) (t : Text) : Prop where
  groups : Groups ids t
  le : ids.length ≤ maxClusters

/-- The two lists of a descriptor. -/
structure Declares (d : SimpleDesc) (ins outs : List UInt16) : Prop where
  inCount : d.appInputClusterCount.toNat = ins.length
  outCount : d.appOutputClusterCount.toNat = outs.length
  list : d.appClusterList.take (ins.length + outs.length) = ins ++ outs
  le : ins.length + outs.length ≤ 2 * maxClusters
  room : d.appClusterList.length = 2 * maxClusters

/-- The text after `ATS` that writes a register. -/
def writeText (id : ℕ) (arg : Text) : Text := hexText 2 id ++ 61 :: arg

/-- The value in an argument: a password may follow it. -/
def valueOf (arg : Text) : Text := (splitPassword (cstr arg)).1

section

variable {ids : List UInt16} {t : Text}

theorem IsGroup.no_comma {id : UInt16} {g : Text} (h : IsGroup id g) : 44 ∉ g :=
  Xcast.not_mem_digits (hexValue_eq_some h.2).1 (by decide)

theorem no_comma {gs : List Text} (h : List.Forall₂ IsGroup ids gs) : ∀ g ∈ gs, 44 ∉ g := by
  induction h with
  | nil =>
    intro g hg
    cases hg
  | cons hg hrest ih => exact List.forall_mem_cons.mpr ⟨hg.no_comma, ih⟩

theorem groupIds_iff {gs : List Text} :
    groupIds gs = some ids ↔ List.Forall₂ IsGroup ids gs := by
  induction gs generalizing ids with
  | nil => simp [groupIds, eq_comm]
  | cons g gs ih =>
    rw [groupIds, Option.bind_eq_some_iff]
    constructor
    · rintro ⟨v, hv, hrest⟩
      obtain ⟨ids', hids, rfl⟩ := Option.map_eq_some_iff.mp hrest
      obtain ⟨hlen, hvalue, -⟩ := groupId_eq_some hv
      exact .cons ⟨hlen, hvalue⟩ (ih.mp hids)
    · rintro (_ | ⟨⟨hlen, hvalue⟩, hrest⟩)
      refine ⟨_, ?_, Option.map_eq_some_iff.mpr ⟨_, ih.mpr hrest, rfl⟩⟩
      rw [groupId, if_pos hlen, hvalue]
      simp

/-- The list that a text of groups denotes. -/
theorem groups_iff : Groups ids t ↔ idList t = some ids := by
  constructor
  · rintro ⟨gs, hgs, rfl⟩
    cases hgs with
    | nil => rfl
    | @cons id g ids gs hg hrest =>
      have hall : groupIds (g :: gs) = some (id :: ids) := groupIds_iff.mpr (.cons hg hrest)
      have hcomma := no_comma (List.Forall₂.cons hg hrest)
      have hsplit := List.splitOn_intercalate (44 : UInt8) hcomma (List.cons_ne_nil g gs)
      have hne : [44].intercalate (g :: gs) ≠ [] := by
        intro h
        rw [h] at hsplit
        have hnil : [([] : Text)] = g :: gs := hsplit
        cases hnil
        cases hg.1
      rw [idList, if_neg hne, hsplit, hall]
  · intro h
    by_cases ht : t = []
    · subst ht
      cases h
      exact ⟨[], .nil, rfl⟩
    · rw [idList, if_neg ht, groupIds_iff] at h
      exact ⟨t.splitOn 44, h, (List.intercalate_splitOn 44).symm⟩

theorem Groups.unique {ids' : List UInt16} (h : Groups ids t) (h' : Groups ids' t) : ids = ids' :=
  Option.some.inj ((groups_iff.mp h).symm.trans (groups_iff.mp h'))

/-- The canonical text of the list is the text in upper case. -/
theorem Groups.upper (h : Groups ids t) : idsText ids = t.map toupper := by
  obtain ⟨gs, hgs, rfl⟩ := h
  have hmap : ids.map (fun i => hexText 4 i.toNat) = gs.map (List.map toupper) := by
    induction hgs with
    | nil => rfl
    | cons hg hrest ih =>
      have htext := (hexValue_eq_some hg.2).2.2
      rw [hg.1] at htext
      rw [List.map_cons, List.map_cons, ih, htext]
  rw [idsText, hmap]
  clear hgs hmap
  induction gs with
  | nil => rfl
  | cons g gs ih =>
    cases gs with
    | nil => simp
    | cons g' gs =>
      rw [List.map_cons] at ih ⊢
      rw [List.map_cons, List.intercalate_cons_cons, ih, List.intercalate_cons_cons,
        List.map_append, List.map_append]
      rfl

end

/-! ## The registers -/

/-- The two registers. -/
theorem exists_clusters {id : ℕ} (hid : id = 0x4B ∨ id = 0x4C) :
    ∃ r, find id = some r ∧ r.info.id = id ∧ r.info.type = .clusters ∧ Shared r := by
  rcases hid with rfl | rfl
  · exact exists_shared (by decide)
  · exact exists_shared (by decide)

theorem normalise_clusters {r : SregInfo} (hr : r.type = .clusters) (t : Text) :
    normalise r t = normaliseClusters [] maxClusters t := by
  unfold normalise
  rw [hr]

/-- The values that the registers take, and what they make of them. -/
theorem normalise_value {r : SregInfo} (hr : r.type = .clusters) (t : Text) :
    (∀ ids, ClusterValue ids t → normalise r t = .ok (t.map toupper)) ∧
      ((∀ ids, ¬ClusterValue ids t) → normalise r t = .error atErrInvalidParam) := by
  rw [normalise_clusters hr, normaliseClusters_eq]
  constructor
  · rintro ids ⟨hgroups, hle⟩
    rw [groups_iff.mp hgroups]
    dsimp only
    rw [if_pos hle, ← hgroups.upper, sepText]
    by_cases hids : ids = []
    · rw [if_pos hids, hids]
      rfl
    · rw [if_neg hids, List.nil_append]
  · intro hno
    cases hlist : idList t with
    | none => rfl
    | some ids =>
      dsimp only
      rw [if_neg fun hle => hno ids ⟨groups_iff.mpr hlist, hle⟩]

/-- A cluster list in upper case is the same list. -/
theorem ClusterValue.upper {ids : List UInt16} {t : Text} (h : ClusterValue ids t) :
    ClusterValue ids (t.map toupper) where
  groups := by
    rw [← h.groups.upper]
    exact groups_iff.mpr (idList_idsText ids)
  le := h.le

section

variable {r : Reg} (hr : Shared r) (dyn : ℕ → Text) (arg : Text)
include hr

/-- A write stores the value that stands before a separator. -/
theorem sregAtCommand_text (s : Store) :
    sregAtCommand dyn (cstr (writeText r.info.id arg)) s = storeReg r (valueOf arg) s := by
  obtain ⟨a, b, hab, hvalue, ha, hb⟩ := exists_digits r
  have hdigit : ∀ c, isxdigit c = true → (c != 0) = true := by
    intro c hc
    rw [bne_iff_ne]
    rintro rfl
    cases hc
  have hcstr : cstr (writeText r.info.id arg) = a :: b :: 61 :: cstr arg := by
    rw [writeText, hab, cstr]
    simp [hdigit a ha, hdigit b hb, cstr]
  rw [hcstr, sregAtCommand_write (.whole hvalue (find_id r)), writeReg_unguarded hr.ro hr.pw]
  rfl

end

/-! ## The descriptor at the next boot -/

/-- A register of the endpoint survives a boot. -/
theorem Shared.boot {m : Module} (h : machine.Reach m) {r : Reg} (hr : Shared r) :
    (boot m.store.saved).store.val r = m.store.val r :=
  (mirrors (reach_store h)).reboot (store_ok (reach_store h)) (not_volatile hr.nv)

/-- A reachable module holds cluster lists. -/
theorem exists_value {m : Module} (h : machine.Reach m) {id : ℕ} (hid : id = 0x4B ∨ id = 0x4C) :
    ∃ ids, ClusterValue ids (regText id m.store.val) ∧
      sregClusters id maxClusters (boot m.store.saved).store.val = ids := by
  obtain ⟨r, hr, -, htype, hshared⟩ := exists_clusters hid
  have hcanonical := (hshared.value h).1
  have htext : regText id m.store.val = m.store.val r := by
    rw [regText, hr, Option.elim_some]
  obtain ⟨ids, hids⟩ : ∃ ids, ClusterValue ids (m.store.val r) := by
    by_contra hno
    rw [(normalise_value htype _).2 (not_exists.mp hno)] at hcanonical
    cases hcanonical
  refine ⟨ids, htext ▸ hids, ?_⟩
  rw [sregClusters, hr, Option.elim_some, hshared.boot h]
  exact clustersLoop_eq (groups_iff.mp hids.groups) hids.le

theorem length_memcpy {dst src : List UInt16} {start : ℕ} (h : start + src.length ≤ dst.length) :
    (memcpy dst start src).length = dst.length := by
  simp only [memcpy, List.length_append, List.length_take, List.length_drop]
  omega

/-- `ep2_build` packs the lists that it reads. -/
theorem declares_build {v : Vals} {ins outs : List UInt16}
    (hins : sregClusters 0x4B maxClusters v = ins) (houts : sregClusters 0x4C maxClusters v = outs)
    (hi : ins.length ≤ maxClusters) (ho : outs.length ≤ maxClusters) :
    Declares (ep2Build v .zero).desc ins outs := by
  have hcount : ∀ l : List UInt16, l.length ≤ maxClusters →
      l.length.toUInt8.toNat = l.length := fun l hl =>
    Nat.mod_eq_of_lt (hl.trans_lt (by decide))
  have hzero : (Ep2.zero.desc.appClusterList).length = 2 * maxClusters := rfl
  have hfirst : (memcpy Ep2.zero.desc.appClusterList 0 ins).length = 2 * maxClusters := by
    rw [length_memcpy (by rw [hzero]; omega), hzero]
  obtain ⟨htake, hdrop⟩ := memcpy_lists ins outs Ep2.zero.desc.appClusterList
  constructor
  · simp only [ep2Build, hins, hcount ins hi]
  · simp only [ep2Build, houts, hcount outs ho]
  · simp only [ep2Build, hins, houts]
    rw [List.take_add, htake, hdrop]
  · omega
  · simp only [ep2Build, hins, houts]
    rw [length_memcpy (by rw [hfirst]; omega), hfirst]

/-- **Cluster lists.** A write to `S4B` or `S4C` is accepted exactly for a list of at most 8 IDs,
and stores it in upper case; a reachable module holds such lists, and declares them after its next
boot. -/
theorem clusters_declared :
    (∀ m : Module, machine.Reach m → ∀ id, id = 0x4B ∨ id = 0x4C → ∀ dyn arg,
      ((sregAtCommand dyn (cstr (writeText id arg)) m.store).result = atOk ↔
        ∃ ids, ClusterValue ids (valueOf arg)) ∧
      ∀ ids, ClusterValue ids (valueOf arg) →
        ∃ m', machine.step m (.ats dyn (writeText id arg)) = some m' ∧ machine.Reach m' ∧
          regText id m'.store.val = (valueOf arg).map toupper ∧
          ClusterValue ids (regText id m'.store.val)) ∧
    ∀ m : Module, machine.Reach m →
      (∀ id, id = 0x4B ∨ id = 0x4C → ∃ ids, ClusterValue ids (regText id m.store.val)) ∧
      ∀ ins outs, ClusterValue ins (regText 0x4B m.store.val) →
        ClusterValue outs (regText 0x4C m.store.val) →
        Declares (boot m.store.saved).ep2.desc ins outs := by
  refine ⟨fun m h id hid dyn arg => ?_, fun m h =>
    ⟨fun id hid => ?_, fun ins outs hins houts => ?_⟩⟩
  · obtain ⟨r, hr, rfl, htype, hshared⟩ := exists_clusters hid
    have hcommand := sregAtCommand_text hshared dyn arg m.store
    obtain ⟨hok, hrefused⟩ := normalise_value htype (valueOf arg)
    refine ⟨⟨fun hres => ?_, fun ⟨ids, hids⟩ => ?_⟩, fun ids hids => ?_⟩
    · by_contra hno
      rw [hcommand, storeReg, hrefused (not_exists.mp hno)] at hres
      cases hres
    · rw [hcommand]
      exact (storeReg_stored (hok ids hids)).result
    · have hval := (storeReg_stored (s := m.store) (hok ids hids)).val
      have htext : regText r.info.id (storeReg r (valueOf arg) m.store).store.val =
          (valueOf arg).map toupper := by
        rw [regText, hr, Option.elim_some, hval, Function.update_self]
      refine ⟨step m (.ats dyn (writeText r.info.id arg)), rfl, .step h trivial rfl, ?_⟩
      have hstep : (step m (.ats dyn (writeText r.info.id arg))).store =
          (storeReg r (valueOf arg) m.store).store := congrArg Outcome.store hcommand
      rw [hstep, htext]
      exact ⟨rfl, hids.upper⟩
  · obtain ⟨ids, hids, -⟩ := exists_value h hid
    exact ⟨ids, hids⟩
  · obtain ⟨ins', hins', hin⟩ := exists_value h (.inl rfl)
    obtain ⟨outs', houts', hout⟩ := exists_value h (.inr rfl)
    rw [hins.groups.unique hins'.groups, houts.groups.unique houts'.groups]
    exact declares_build hin hout hins'.le houts'.le

/-- Two clusters in lower case. -/
theorem clusters_declared_two : (sregAtCommand (fun _ => [])
    (cstr (writeText 0x4B (ascii "0006,fc01"))) (boot []).store).result = atOk := by
  have hvalue : ClusterValue [0x0006, 0xFC01] (valueOf (ascii "0006,fc01")) :=
    ⟨⟨[ascii "0006", ascii "fc01"], .cons ⟨rfl, rfl⟩ (.cons ⟨rfl, rfl⟩ .nil), rfl⟩, by decide⟩
  exact (clusters_declared.1 (boot []) (.init rfl) 0x4B (.inl rfl) _ _).1.mpr ⟨_, hvalue⟩

end ZbAt.Endpoint
