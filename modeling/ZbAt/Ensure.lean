import ZbAt.SetupProof

/-!
# The network that the role scripts ask for (net.py)

`ensure_coordinator` and `ensure_joined` either keep a network or form or join one with the options.

* `applied`, `typed_type` — the registers, once the options are written.
* `Node.prepared`, `prepare_eq` — the network that is kept, and the node that is left without one.
* `ensure_kept`, `ensure_fresh` — what the two procedures come to, and when they fail.
* `coordinator_ensured`, `joined_ensured` — the stack is set up as asked.
* `ensured_again` — doing it again keeps the network.
-/

namespace ZbAt.Network

open Text Sreg Uart Report Host Zbc

section

variable {st : Stack} {n n' : Node} {net : NetworkOptions} {v v' : Vals} {want : List Text}

/-! ## The registers -/

/-- Writing a bit of `S0A` changes that bit. -/
theorem bit_withBit (hv : ValsOk v) {bit : ℕ} (hbit : bit < 16) (on : Bool)
    (h : v' s0a = withBit v bit on) (k : ℕ) :
    sregBit 0x0A k v' = if k = bit then on else sregBit 0x0A k v := by
  have hlt : sregU32 0x0A v < 2 ^ 16 := word_lt (r := s0a) hv rfl
  have hread := (word_register (r := s0a) rfl (by decide) (setBit_lt hlt hbit on)).2 v' h
  rw [sregBit, show sregU32 0x0A v' = _ from hread, testBit_setBit (by omega), sregBit]

/-- The extended PAN ID in `S03` is the one that the options ask for. -/
theorem epid_asked (net : NetworkOptions) (h : v HexRev.epidReg = net.epidText) :
    HexRev.preferredEpid v = net.epid? := by
  obtain ⟨hlen, hall, hupper⟩ := epidText_digits net
  obtain ⟨bs, hbs, -, -⟩ := HexRev.hexBytes_of_digits (n := 8) hlen hall
  unfold NetworkOptions.epid?
  by_cases hzero : net.epidText = List.replicate 16 48
  · have hall : HexRev.sregIsZero 0x03 v = true := by
      rw [HexRev.sregIsZero, HexRev.find_epid, Option.elim_some, h, hzero]
      decide
    rw [if_pos hzero, HexRev.preferredEpid, if_pos hall]
  · have hnonzero : ∃ c ∈ net.epidText, c ≠ 48 := by
      by_contra hall
      push Not at hall
      exact hzero (List.eq_replicate_iff.mpr ⟨hlen, hall⟩)
    rw [if_neg hzero, hbs, Option.map_some,
      HexRev.preferredEpid_eq (h.trans hupper.symm) hlen hnonzero hbs]

/-- The texts of the registers once the options are written. -/
structure Recorded (net : NetworkOptions) (v : Vals) : Prop where
  channels : v s00 = hexText 4 net.mask
  panId : v s02 = hexText 4 net.panId.toNat
  epid : v HexRev.epidReg = net.epidText
  legacy : sregBit 0x0A s0aNoTclkRequest v = net.legacy

theorem Recorded.applied (h : Recorded net v) : Applied net v where
  channels := (word_register (r := s00) rfl (by decide) (mask_lt net)).2 v h.channels
  panId := (word_register (r := s02) rfl (by decide) (UInt16.toNat_lt net.panId)).2 v h.panId
  epid := epid_asked net h.epid
  legacy := h.legacy

theorem NodeOk.vals (h : NodeOk st n) : ValsOk n.vals :=
  (store_ok (Endpoint.reach_store h.ready.reach)).vals

/-- A write of a register keeps the others. -/
theorem vals_put_of_ne {r r' : Reg} {new : Text} (h : r' ≠ r) : (n.put r new).vals r' = n.vals r' :=
  Function.update_of_ne h _ _

theorem vals_put_self {r : Reg} {new : Text} : (n.put r new).vals r = new :=
  Function.update_self _ _ _

theorem recorded_applied (h : NodeOk st n) : Recorded net (n.applied net).vals where
  channels := by
    rw [Node.applied, vals_put_of_ne (by decide), Node.optioned, vals_put_of_ne (by decide),
      vals_put_of_ne (by decide), vals_put_self]
  panId := by
    rw [Node.applied, vals_put_of_ne (by decide), Node.optioned, vals_put_of_ne (by decide),
      vals_put_self]
  epid := by
    rw [Node.applied, vals_put_of_ne (by decide), Node.optioned, vals_put_self]
  legacy := by
    have hbit := bit_withBit h.vals (by decide : s0aNoTclkRequest < 16) net.legacy
      (show (n.applied net).vals s0a = _ from vals_put_self) s0aNoTclkRequest
    rwa [if_pos rfl] at hbit

/-- Another bit of `S0A` written. -/
theorem Recorded.withBit (h : Recorded net n.vals) (hv : ValsOk n.vals) {bit : ℕ} (hbit : bit < 16)
    (hne : bit ≠ s0aNoTclkRequest) (on : Bool) :
    Recorded net (n.put s0a (withBit n.vals bit on)).vals where
  channels := (vals_put_of_ne (by decide)).trans h.channels
  panId := (vals_put_of_ne (by decide)).trans h.panId
  epid := (vals_put_of_ne (by decide)).trans h.epid
  legacy := by
    have hsame := bit_withBit hv hbit on
      (show (n.put s0a (Network.withBit n.vals bit on)).vals s0a = _ from vals_put_self)
      s0aNoTclkRequest
    rw [if_neg (Ne.symm hne)] at hsame
    exact hsame.trans h.legacy

/-! ## The device type -/

/-- The node with the first bit of its device type written, and with both. -/
def Node.typedHigh (d : DeviceType) (n : Node) : Node :=
  n.put s0a (Network.withBit n.vals s0aTypeHigh (d == .endDevice))

def Node.typed (d : DeviceType) (n : Node) : Node :=
  (n.typedHigh d).put s0a (Network.withBit (n.typedHigh d).vals s0aTypeLow false)

/-- The role that `ensure_joined` joins with. -/
def DeviceType.role : DeviceType → Role
  | .router => .zr
  | .endDevice => .zed

/-- The two bits of `S0A` are those of the device type. -/
structure Typed (d : DeviceType) (v : Vals) : Prop where
  high : sregBit 0x0A s0aTypeHigh v = (d == .endDevice)
  low : sregBit 0x0A s0aTypeLow v = false

/-- `_set_device_type` writes both bits, if the password is right, and keeps the options. -/
theorem setDeviceType_eq (h : NodeOk st n) (hp : password n.module.store = hostPassword)
    (d : DeviceType) (hrec : Recorded net n.vals) :
    setDeviceType st d n = some (n.typed d) ∧ NodeOk st (n.typed d) ∧
      Recorded net (n.typed d).vals ∧ Typed d (n.typed d).vals := by
  obtain ⟨hset, hok⟩ := (sregBitSet_eq h (by decide : s0aTypeHigh < 16) (d == .endDevice)).1 hp
  have hp' : password (n.typedHigh d).module.store = hostPassword :=
    (password_put (by decide)).trans hp
  obtain ⟨hset', hok'⟩ := (sregBitSet_eq hok (by decide : s0aTypeLow < 16) false).1 hp'
  have hrec' : Recorded net (n.typedHigh d).vals :=
    hrec.withBit h.vals (by decide) (by decide) (d == .endDevice)
  have hlow := bit_withBit hok.vals (by decide : s0aTypeLow < 16) false
    (show (n.typed d).vals s0a = _ from vals_put_self)
  have hhigh := bit_withBit h.vals (by decide : s0aTypeHigh < 16) (d == .endDevice)
    (show (n.typedHigh d).vals s0a = _ from vals_put_self)
  refine ⟨?_, hok', hrec'.withBit hok.vals (by decide) (by decide) false, ?_, ?_⟩
  · rw [setDeviceType, hset]
    exact hset'
  · rw [hlow, if_neg (by decide)]
    exact (hhigh s0aTypeHigh).trans (if_pos rfl)
  · rw [hlow, if_pos rfl]

/-! ## The network that is kept -/

/-- The node that `_prepare` looks at: after the factory reset, if it was asked for. -/
def Node.base (st : Stack) (net : NetworkOptions) (n : Node) : Node :=
  if net.reset then powerOn st .none (sregFactoryReset n.module.store).saved else n

/-- The network that `_prepare` keeps. -/
def Node.kept (st : Stack) (net : NetworkOptions) (want : List Text) (n : Node) : Option Pan :=
  (n.base st net).pan.filter fun p => isWanted want (roleName p.role (n.base st net).vals)

/-- The node that `_prepare` leaves: a network that is not kept is left. -/
def Node.prepared (st : Stack) (net : NetworkOptions) (want : List Text) (n : Node) : Node :=
  if (n.kept st net want).isNone ∧ (n.base st net).pan.isSome then
    powerOn st .none (n.base st net).module.store.saved
  else n.base st net

theorem NodeOk.base (h : NodeOk st n) : NodeOk st (n.base st net) := by
  unfold Node.base
  split_ifs
  · exact h.factoryReset
  · exact h

theorem NodeOk.prepared (h : NodeOk st n) : NodeOk st (n.prepared st net want) := by
  unfold Node.prepared
  split_ifs
  · exact h.base.reboot .none
  · exact h.base

/-- `_prepare` keeps a network with a role that is wanted, and leaves any other. -/
theorem prepare_eq (h : NodeOk st n) :
    prepare st net want n = some ((n.kept st net want).map fun p =>
      infoOf p (n.prepared st net want).vals, n.prepared st net want) := by
  have hb := @NodeOk.base st n net h
  have hbase : (if net.reset then factoryReset st n else some n) = some (n.base st net) := by
    unfold Node.base
    split_ifs
    · exact factoryReset_eq h
    · rfl
  rw [prepare, waitReady_eq h]
  simp only [Option.bind_eq_bind, Option.bind_some, hbase, network_eq hb]
  cases hpan : (n.base st net).pan with
  | none => simp [Node.prepared, Node.kept, hpan]
  | some p =>
    have hrole : (n.base st net).storedRole ≠ .none := by
      rw [hb.recorded p hpan]
      exact p.named
    by_cases hwant : isWanted want (roleName p.role (n.base st net).vals) = true
    · have hkept : n.kept st net want = some p := by
        rw [Node.kept, hpan, Option.filter_some, if_pos hwant]
      simp [Node.prepared, hkept, infoOf, hwant]
    · have hkept : n.kept st net want = none := by
        rw [Node.kept, hpan, Option.filter_some, if_neg hwant]
      simp [Node.prepared, hkept, infoOf, hwant, hpan, leave_eq hb hrole]

/-! ## Starting a network -/

/-- A register is read from its own text. -/
theorem sregU32_congr {id : ℕ} (h : ∀ r : Reg, r.info.id = id → v' r = v r) :
    sregU32 id v' = sregU32 id v := by
  rw [sregU32, sregU32]
  cases hr : find id with
  | none => rfl
  | some r => exact congrArg strtoul (h r (by simpa using List.find?_some hr))

theorem idle_s0a (h : NodeOk st n) (k : ℕ) :
    sregBit 0x0A k (n.idle st).vals = sregBit 0x0A k n.vals := by
  have hregs : ∀ r : Reg, r.info.id = 0x0A → ¬Volatile r := by decide
  have hsame : sregU32 0x0A (n.idle st).vals = sregU32 0x0A n.vals :=
    sregU32_congr fun r hr => idle_vals h (hregs r hr)
  rw [sregBit, sregBit, hsame]

/-- The device type survives the reboot of a command that is deferred. -/
theorem Typed.idle {d : DeviceType} (ht : Typed d n.vals) (h : NodeOk st n) :
    Typed d (n.idle st).vals where
  high := (idle_s0a h _).trans ht.high
  low := (idle_s0a h _).trans ht.low

/-- The options survive the reboot of a command that is deferred. -/
theorem Recorded.idle (hrec : Recorded net n.vals) (h : NodeOk st n) :
    Recorded net (n.idle st).vals where
  channels := (idle_vals h (by decide)).trans hrec.channels
  panId := (idle_vals h (by decide)).trans hrec.panId
  epid := (idle_vals h (by decide)).trans hrec.epid
  legacy := (idle_s0a h _).trans hrec.legacy

theorem jpanOf_printed (v : Vals) (p : Pan) :
    (jpanOf (printJpan v p)).isSome = !sregBit 0x0E s0eJpanOff v := by
  obtain ⟨c, pan, epid, hp⟩ := parse_jpanText p
  unfold printJpan
  cases sregBit 0x0E s0eJpanOff v with
  | true => rfl
  | false =>
    simp [jpanOf, hp]

/-- `form` or `join`, and `network` behind it. -/
theorem started_eq {start : Node → Option (Prompt × Node)} {line : Text} {z : Zboss}
    (hstart : ∀ n, start n = (cmd st line n).bind fun (lines, n) =>
      (jpanOf lines).map fun p => (p, n))
    (h : NodeOk st n)
    (hcmd : cmd st line n = if n.storedRole ≠ .none then none
      else match st.run z with
        | .ok p => some (printJpan (n.idle st).vals p, (n.idle st).joined z p)
        | .error _ => none) (r : Option NetworkInfo × Node) :
    ((start n).bind fun s => network st s.2) = some r ↔
      n.storedRole = .none ∧ sregBit 0x0E s0eJpanOff (n.idle st).vals = false ∧
        ∃ p, st.run z = .ok p ∧
          r = (some (infoOf p (n.idle st).vals), (n.idle st).joined z p) := by
  rw [hstart, hcmd]
  by_cases hrole : n.storedRole = .none
  · rw [if_neg (not_not_intro hrole)]
    cases hz : st.run z with
    | error f => simp
    | ok p =>
      have hok : NodeOk st ((n.idle st).joined z p) := ⟨h.idle.ready, fun q hq => by
        rw [← Option.some.inj hq]; rfl, nofun⟩
      have hnet : network st ((n.idle st).joined z p) =
          some (some (infoOf p (n.idle st).vals), (n.idle st).joined z p) := network_eq hok
      have hprinted := jpanOf_printed (n.idle st).vals p
      dsimp only
      rw [Option.bind_some]
      dsimp only
      cases hj : jpanOf (printJpan (n.idle st).vals p) with
      | none =>
        rw [hj] at hprinted
        have hoff : sregBit 0x0E s0eJpanOff (n.idle st).vals = true := by simpa using hprinted
        simp [hoff]
      | some q =>
        rw [hj] at hprinted
        have hon : sregBit 0x0E s0eJpanOff (n.idle st).vals = false := by simpa using hprinted
        simp [hrole, hon, hnet, eq_comm]
  · rw [if_pos hrole]
    simp [hrole]

/-! ## The two procedures -/

/-- The node with the flags of the prompts written. -/
def Node.flagged (flags : UInt16) (n : Node) : Node := n.put s0f (hexText 4 flags.toNat)

theorem flagged_eq (h : NodeOk st n) (flags : UInt16) :
    sregSet st 0x0F (hexText 4 flags.toNat) none n = some (n.flagged flags) ∧
      NodeOk st (n.flagged flags) := by
  have hset := sregSet_word (r := s0f) h ⟨rfl, by decide⟩ rfl rfl (by decide)
    (UInt16.toNat_lt flags)
  have hid : s0f.info.id = 0x0F := rfl
  rw [hid] at hset
  exact hset

/-- With a network that is kept, only the flags are written. -/
theorem ensure_kept {setUp : Node → Option Node} {start : Node → Option (Prompt × Node)}
    (h : NodeOk st n) (flags : UInt16) {p : Pan} (hkept : n.kept st net want = some p) :
    ensure st net want flags setUp start n =
      some (some (infoOf p (n.prepared st net want).vals),
        (n.prepared st net want).flagged flags) := by
  have hflags := (flagged_eq (@NodeOk.prepared st n net want h) flags).1
  rw [ensure, prepare_eq h, hkept]
  simp only [Option.bind_eq_bind, Option.bind_some, Option.map_some, hflags]
  rfl

/-- With none, the options are written, and a network is started. -/
theorem ensure_fresh {setUp : Node → Option Node} {start : Node → Option (Prompt × Node)}
    (h : NodeOk st n) (flags : UInt16) (hkept : n.kept st net want = none) :
    ensure st net want flags setUp start n =
      (setUp ((n.prepared st net want).flagged flags)).bind fun n =>
        (start n).bind fun s => network st s.2 := by
  have hflags := (flagged_eq (@NodeOk.prepared st n net want h) flags).1
  rw [ensure, prepare_eq h, hkept]
  simp only [Option.bind_eq_bind, Option.bind_some, Option.map_none, hflags]

/-- `set_role` sets the role, the channels and the support of older devices. -/
theorem setRole_asks {role : Role} (hrole : role ≠ .none) (mask : UInt32) (v : Vals) (z : Zboss) :
    (setRole role mask v z).role = some role ∧ (setRole role mask v z).channelMask = mask ∧
      (setRole role mask v z).panId = z.panId ∧
      (setRole role mask v z).extendedPanId = z.extendedPanId ∧
      (setRole role mask v z).legacyDeviceSupport =
        (role == .zc || sregBit 0x0A s0aNoTclkRequest v) := by
  cases role with
  | none => exact absurd rfl hrole
  | zc => exact ⟨rfl, rfl, rfl, rfl, rfl⟩
  | zr => exact ⟨rfl, rfl, rfl, rfl, rfl⟩
  | zed => exact ⟨rfl, rfl, rfl, rfl, rfl⟩

/-- The coordinator's own settings leave the others as they are. -/
theorem prepareNewNetwork_eq (role : Role) (mask : UInt32) (epid : Option (List UInt8)) (v : Vals)
    (z : Zboss) : ∃ key, prepareNewNetwork role mask epid v z =
      { setRole role mask v z with
        nwkKey := key
        panId := if role = .zc ∧ sregU32 0x02 v ≠ 0 then some (sregU32 0x02 v).toUInt16
          else (setRole role mask v z).panId
        extendedPanId := epid.elim (setRole role mask v z).extendedPanId some } := by
  unfold prepareNewNetwork
  dsimp only
  generalize (if HexRev.sregIsZero 0x08 v then none else sregBytes 0x08 16 v) = key
  generalize setRole role mask v z = w
  refine ⟨if role = .zc then key.elim w.nwkKey some else w.nwkKey, ?_⟩
  by_cases hrole : role = .zc
  · by_cases hpan : sregU32 0x02 v ≠ 0
    · cases key <;> cases epid <;> simp [hrole, hpan]
    · cases key <;> cases epid <;> simp [hrole, hpan]
  · cases epid <;> simp [hrole]

/-- The setup of the stack is the one that the options ask for. -/
theorem asksFor {role : Role} (hrole : role ≠ .none) (h : Applied net v) (base : Zboss) :
    AsksFor net role base
      (prepareNewNetwork role (channelMask v) (HexRev.preferredEpid v) v base) := by
  have hpan : (sregU32 0x02 v).toUInt16 = net.panId := by
    rw [h.panId]
    exact UInt16.ofNat_toNat
  have hzero : sregU32 0x02 v ≠ 0 ↔ net.panId ≠ 0 := by
    rw [h.panId, ne_eq, ne_eq, ← UInt16.toNat_inj]
    rfl
  have hmask : channelMask v = net.mask.toUInt32 <<< 11 := by rw [channelMask, h.channels]
  obtain ⟨key, heq⟩ := prepareNewNetwork_eq role (channelMask v) (HexRev.preferredEpid v) v base
  obtain ⟨hstarted, hchannels, hpanId, hepid, hlegacy⟩ :=
    setRole_asks hrole (channelMask v) v base
  rw [heq]
  refine ⟨hstarted, hchannels.trans hmask, ?_, ?_, hlegacy.trans (by rw [h.legacy])⟩
  · simp only [hzero, hpan, hpanId]
  · simp only [h.epid, hepid]

/-- A node can be set up: no role is recorded, the password is the one that the host knows, and
`JPAN` is shown. -/
structure CanStart (n : Node) : Prop where
  unrecorded : n.storedRole = .none
  password : password n.module.store = hostPassword
  shown : sregBit 0x0E s0eJpanOff n.vals = false

/-- What becomes of a node without a network. If it cannot be set up, the procedure fails. If it
can, the registers and the setup are those that the options ask for, a joined device has the bits of
its type in `S0A`, and the procedure returns the network that ZBOSS comes to with this setup. -/
structure Ensures (st : Stack) (net : NetworkOptions) (role : Role) (flags : UInt16) (n : Node)
    (result : Option (Option NetworkInfo × Node)) : Prop where
  fails : ¬CanStart n → result = none
  done : CanStart n → ∃ (n₁ : Node) (z : Zboss), NodeOk st n₁ ∧ Applied net n₁.vals ∧
    (∀ d : DeviceType, d.role = role → Typed d n₁.vals) ∧
    sregU32 0x0F n₁.vals = flags.toNat ∧
    (∀ r ∉ optionRegs, ¬Volatile r → n₁.vals r = n.vals r) ∧ AsksFor net role st.powerOn z ∧
    ∀ r, result = some r ↔
      ∃ p, st.run z = .ok p ∧ r = (some (infoOf p n₁.vals), n₁.joined z p)

/-- The writes of the options, as a function of the node: `setUp` comes to `g`. -/
structure SetsUp (st : Stack) (net : NetworkOptions) (setUp : Node → Option Node)
    (g : Node → Node) : Prop where
  wrong : ∀ {n}, NodeOk st n → password n.module.store ≠ hostPassword → setUp n = none
  right : ∀ {n}, NodeOk st n → password n.module.store = hostPassword →
    setUp n = some (g n) ∧ NodeOk st (g n) ∧ Recorded net (g n).vals
  storedRole : ∀ n, (g n).storedRole = n.storedRole
  frame : ∀ n, ∀ r, r ∉ optionRegs ∨ r = s0f → (g n).vals r = n.vals r

/-- The node behind the writes of `setUp`. -/
def Node.written (st : Stack) (net : NetworkOptions) (want : List Text) (flags : UInt16)
    (g : Node → Node) (n : Node) : Node := g ((n.prepared st net want).flagged flags)

/-- Both procedures, for a node without a network. -/
theorem ensures_fresh {setUp : Node → Option Node} {g : Node → Node}
    {start : Node → Option (Prompt × Node)} {line : Text} {role : Role} {q : Start}
    (h : NodeOk st n) (flags : UInt16) (hkept : n.kept st net want = none)
    (hset : SetsUp st net setUp g) (hrole : role ≠ .none)
    (htyped : ∀ d : DeviceType, d.role = role → ∀ {n}, NodeOk st n →
      password n.module.store = hostPassword → Typed d (g n).vals)
    (hq : password (n.prepared st net want).module.store = hostPassword → q.role = role ∧
      q.mask = channelMask ((n.written st net want flags g).idle st).vals ∧
        q.epid = HexRev.preferredEpid ((n.written st net want flags g).idle st).vals)
    (hstart : ∀ n, start n = (cmd st line n).bind fun (lines, n) =>
      (jpanOf lines).map fun p => (p, n))
    (hcmd : ∀ m z, m = n.written st net want flags g → NodeOk st m →
      z = prepareNewNetwork q.role q.mask q.epid (m.idle st).vals st.powerOn →
      cmd st line m = if m.storedRole ≠ .none then none
        else match st.run z with
          | .ok p => some (printJpan (m.idle st).vals p, (m.idle st).joined z p)
          | .error _ => none) :
    Ensures st net role flags (n.prepared st net want)
      (ensure st net want flags setUp start n) := by
  have h₀ := @NodeOk.prepared st n net want h
  have hflagged := (flagged_eq h₀ flags).2
  have hpw : password ((n.prepared st net want).flagged flags).module.store =
      password (n.prepared st net want).module.store := password_put (by decide)
  have hkeeps : ∀ r ∉ optionRegs, (n.written st net want flags g).vals r =
      (n.prepared st net want).vals r := by
    intro r hr
    have hne : r ≠ s0f := by
      rintro rfl
      exact hr (by decide)
    rw [Node.written, hset.frame _ r (.inl hr), Node.flagged, vals_put_of_ne hne]
  have hrun := @ensure_fresh st n net want setUp start h flags hkept
  by_cases hp : password (n.prepared st net want).module.store = hostPassword
  · obtain ⟨hsetUp, hok, hrec⟩ := hset.right hflagged (hpw.trans hp)
    rw [hsetUp, Option.bind_some] at hrun
    have hidle : ∀ r, ¬Volatile r → ((n.written st net want flags g).idle st).vals r =
        (n.written st net want flags g).vals r := fun r hr => idle_vals hok hr
    have hframe : ∀ r ∉ optionRegs, ¬Volatile r →
        ((n.written st net want flags g).idle st).vals r = (n.prepared st net want).vals r :=
      fun r hr hvol => (hidle r hvol).trans (hkeeps r hr)
    have hshown : sregU32 0x0E ((n.written st net want flags g).idle st).vals =
        sregU32 0x0E (n.prepared st net want).vals := by
      have hregs : ∀ r : Reg, r.info.id = 0x0E → r ∉ optionRegs ∧ ¬Volatile r := by decide
      exact sregU32_congr fun r hr => hframe r (hregs r hr).1 (hregs r hr).2
    have hrec' : Recorded net ((n.written st net want flags g).idle st).vals := hrec.idle hok
    have hflags : sregU32 0x0F ((n.written st net want flags g).idle st).vals = flags.toNat := by
      refine (word_register (r := s0f) rfl (by decide) (UInt16.toNat_lt flags)).2 _ ?_
      rw [hidle s0f (by decide), Node.written, hset.frame _ s0f (.inr rfl)]
      exact vals_put_self
    obtain ⟨z, hz⟩ : ∃ z, z = prepareNewNetwork q.role q.mask q.epid
      ((n.written st net want flags g).idle st).vals st.powerOn := ⟨_, rfl⟩
    have hasks : AsksFor net role st.powerOn z := by
      rw [hz, (hq hp).1, (hq hp).2.1, (hq hp).2.2]
      exact asksFor hrole hrec'.applied st.powerOn
    have hresult := started_eq hstart hok (hcmd _ z rfl hok hz)
    rw [← hrun, hset.storedRole] at hresult
    refine ⟨fun hno => ?_, fun hcan => ?_⟩
    · rw [Option.eq_none_iff_forall_ne_some]
      intro r hr
      obtain ⟨hstored, hjpan, -⟩ := (hresult r).mp hr
      refine hno ⟨hstored, hp, ?_⟩
      rw [sregBit, ← hshown]
      exact hjpan
    · refine ⟨(n.written st net want flags g).idle st, z, hok.idle, hrec'.applied, fun d hd => ?_,
        hflags, hframe, hasks, fun r => ?_⟩
      · exact (htyped d hd hflagged (hpw.trans hp)).idle hok
      have hjpan :
          sregBit 0x0E s0eJpanOff ((n.written st net want flags g).idle st).vals = false := by
        rw [sregBit, hshown]
        exact hcan.shown
      rw [hresult r]
      exact ⟨fun hr => hr.2.2, fun hr => ⟨hcan.unrecorded, hjpan, hr⟩⟩
  · rw [hset.wrong hflagged (fun heq => hp (hpw.symm.trans heq)), Option.bind_none] at hrun
    exact ⟨fun _ => hrun, fun hcan => absurd hcan.password hp⟩

theorem setsUp_apply : SetsUp st net (net.apply st) (Node.applied net) where
  wrong h := (apply_eq h).2
  right h hp := ⟨((apply_eq h).1 hp).1, ((apply_eq h).1 hp).2, recorded_applied h⟩
  storedRole _ := rfl
  frame n r hr := by
    have hne : r ≠ s00 ∧ r ≠ s02 ∧ r ≠ HexRev.epidReg ∧ r ≠ s0a := by
      rcases hr with hr | rfl
      · simp only [optionRegs, List.mem_cons, List.not_mem_nil, or_false, not_or] at hr
        exact ⟨hr.1, hr.2.1, hr.2.2.1, hr.2.2.2.1⟩
      · decide
    rw [Node.applied, vals_put_of_ne hne.2.2.2, vals_optioned hne.1 hne.2.1 hne.2.2.1]

/-- The writes of the options and of the device type. -/
theorem joined_written (h : NodeOk st n) (hp : password n.module.store = hostPassword)
    (d : DeviceType) :
    (net.apply st n).bind (setDeviceType st d) = some ((n.applied net).typed d) ∧
      NodeOk st ((n.applied net).typed d) ∧ Recorded net ((n.applied net).typed d).vals ∧
        Typed d ((n.applied net).typed d).vals := by
  obtain ⟨happly, hok, hrec⟩ := (@setsUp_apply st net).right h hp
  have hp' : password (n.applied net).module.store = hostPassword := by
    rw [Node.applied, password_put (by decide), Node.optioned, password_put (by decide),
      password_put (by decide), password_put (by decide), hp]
  rw [happly, Option.bind_some]
  exact setDeviceType_eq hok hp' d hrec

theorem setsUp_joined (d : DeviceType) :
    SetsUp st net (fun n => (net.apply st n).bind (setDeviceType st d))
      (fun n => (n.applied net).typed d) where
  wrong h hp := by rw [(apply_eq h).2 hp, Option.bind_none]
  right h hp := by
    obtain ⟨hset, hok, hrec, -⟩ := joined_written h hp d
    exact ⟨hset, hok, hrec⟩
  storedRole _ := rfl
  frame n r hr := by
    have hne : r ≠ s0a := by
      rcases hr with hr | rfl
      · rintro rfl
        exact hr (by decide)
      · decide
    rw [Node.typed, vals_put_of_ne hne, Node.typedHigh, vals_put_of_ne hne]
    exact (@setsUp_apply st net).frame n r hr

theorem coordinator_fresh (h : NodeOk st n) (net : NetworkOptions) (flags : UInt16)
    (hkept : n.kept st net [ascii "COO"] = none) :
    Ensures st net .zc flags (n.prepared st net [ascii "COO"])
      (ensureCoordinator st net flags n) := by
  let q := cmdEn
    (regsOf ((n.written st net [ascii "COO"] flags (Node.applied net)).idle st).vals)
  refine ensures_fresh (q := q) h flags hkept setsUp_apply (by decide)
    (fun d hd => by cases d <;> cases hd) (fun _ => ⟨rfl, rfl, rfl⟩) (fun n => rfl)
    (fun m z hm hok hz => ?_)
  exact form_eq hok (by rw [hm]) hz

theorem joined_fresh (h : NodeOk st n) (net : NetworkOptions) (d : DeviceType) (flags : UInt16)
    (hkept : n.kept st net (joinedRoles d) = none) :
    Ensures st net d.role flags (n.prepared st net (joinedRoles d))
      (ensureJoined st net d flags n) := by
  let m := n.written st net (joinedRoles d) flags fun n => (n.applied net).typed d
  let q := cmdJn (regsOf (m.idle st).vals)
  have hrole : d.role ≠ .none := by cases d <;> decide
  have hq (hp : password (n.prepared st net (joinedRoles d)).module.store = hostPassword) :
      q.role = d.role := by
    have hflagged := (flagged_eq (@NodeOk.prepared st n net (joinedRoles d) h) flags).2
    obtain ⟨-, hok, -, htyped⟩ :=
      @joined_written _ _ net hflagged ((password_put (by decide)).trans hp) d
    have hbits : Typed d (m.idle st).vals := htyped.idle hok
    have hdevice : endDeviceType (m.idle st).vals = (d == .endDevice) := by
      rw [endDeviceType, hbits.high, hbits.low, Bool.or_false]
    show (if endDeviceType (m.idle st).vals = true then Role.zed else .zr) = d.role
    rw [hdevice]
    cases d <;> rfl
  have hwritten : ∀ d' : DeviceType, d'.role = d.role → ∀ {n}, NodeOk st n →
      password n.module.store = hostPassword → Typed d' ((n.applied net).typed d).vals := by
    intro d' hd n hok hp
    have hsame : d' = d := by cases d' <;> cases d <;> first | rfl | cases hd
    rw [hsame]
    exact (joined_written hok hp d).2.2.2
  refine ensures_fresh (q := q) h flags hkept (setsUp_joined d) hrole hwritten
    (fun hp => ⟨hq hp, rfl, rfl⟩) (fun n => rfl) (fun m z hm hok hz => ?_)
  exact join_eq hok (by rw [hm]) hz

/-- **A coordinator.** A network that the module coordinates is kept, and only the flags of the
prompts are written. Without one, the stack is set up as the options ask for. -/
theorem coordinator_ensured (h : NodeOk st n) (net : NetworkOptions) (flags : UInt16) :
    (∀ p, n.kept st net [ascii "COO"] = some p → ensureCoordinator st net flags n =
      some (some (infoOf p (n.prepared st net [ascii "COO"]).vals),
        (n.prepared st net [ascii "COO"]).flagged flags)) ∧
    (n.kept st net [ascii "COO"] = none →
      Ensures st net .zc flags (n.prepared st net [ascii "COO"])
        (ensureCoordinator st net flags n)) :=
  ⟨fun _ hkept => ensure_kept h flags hkept, coordinator_fresh h net flags⟩

/-- **A joined device.** A network that the module is in as a device of the type is kept, and only
the flags of the prompts are written. Without one, the type is written, and the stack is set up as
the options ask for. -/
theorem joined_ensured (h : NodeOk st n) (net : NetworkOptions) (d : DeviceType)
    (flags : UInt16) :
    (∀ p, n.kept st net (joinedRoles d) = some p → ensureJoined st net d flags n =
      some (some (infoOf p (n.prepared st net (joinedRoles d)).vals),
        (n.prepared st net (joinedRoles d)).flagged flags)) ∧
    (n.kept st net (joinedRoles d) = none →
      Ensures st net d.role flags (n.prepared st net (joinedRoles d))
        (ensureJoined st net d flags n)) :=
  ⟨fun _ hkept => ensure_kept h flags hkept, joined_fresh h net d flags⟩

end

theorem zc_named : Role.zc ≠ .none := Role.noConfusion

/-- A module that has just been flashed, and a ZBOSS that forms or joins one network. -/
def coordinatorPan : Pan := ⟨.zc, zc_named, 20, 0x1A2B, routerPan.extendedPanId, 0⟩

def formingStack : Stack where
  longAddress := routerStack.longAddress
  powerOn := routerStack.powerOn
  run := fun z => if z.role = some .zc then .ok coordinatorPan
    else if z.role = some .zr then .ok routerPan else .error .timedOut

def blank : Node := powerOn formingStack .none []

def channelTwenty : NetworkOptions := ⟨some ⟨20, by decide⟩, none, none, true, false⟩

theorem blank_ok : NodeOk formingStack blank := by
  refine ⟨⟨.init rfl, ?_⟩, nofun, fun _ => rfl⟩
  decide

theorem blank_canStart : CanStart blank := ⟨rfl, by decide, by decide⟩

theorem coordinator_ensured_blank : ∃ n z, AsksFor channelTwenty .zc routerStack.powerOn z ∧
    ensureCoordinator formingStack channelTwenty 0x0C00 blank =
      some (some (infoOf coordinatorPan n.vals), Node.joined z coordinatorPan n) := by
  obtain ⟨n, z, -, -, -, -, -, hasks, hiff⟩ :=
    ((coordinator_ensured blank_ok channelTwenty 0x0C00).2 rfl).done blank_canStart
  have hrole : z.role = some .zc := hasks.started
  exact ⟨n, z, hasks, (hiff _).mpr ⟨coordinatorPan, if_pos hrole, rfl⟩⟩

theorem joined_ensured_blank : ∃ n z, Typed .router n.vals ∧
    AsksFor channelTwenty .zr routerStack.powerOn z ∧
      ensureJoined formingStack channelTwenty .router 0x0C00 blank =
        some (some (infoOf routerPan n.vals), Node.joined z routerPan n) := by
  obtain ⟨n, z, -, -, htyped, -, -, hasks, hiff⟩ :=
    ((joined_ensured blank_ok channelTwenty .router 0x0C00).2 rfl).done blank_canStart
  have hrole : z.role = some .zr := hasks.started
  have hother : ¬z.role = some .zc := by
    rw [hrole]
    decide
  exact ⟨n, z, htyped .router rfl, hasks,
    (hiff _).mpr ⟨routerPan, (if_neg hother).trans (if_pos hrole), rfl⟩⟩

/-! ## Doing it again -/

section

variable {st : Stack} {n n' : Node} {net : NetworkOptions} {want : List Text}

/-- ZBOSS starts with the role that it was given. -/
def Honours (st : Stack) : Prop := ∀ z p, st.run z = .ok p → z.role = some p.role

/-- A network of a wanted role, and what was said of it. -/
structure Held (st : Stack) (want : List Text) (info : Option NetworkInfo) (n : Node) : Prop where
  ok : NodeOk st n
  held : ∃ p, n.pan = some p ∧ roleName p.role n.vals ∈ want ∧ info = some (infoOf p n.vals)

theorem flagged_vals {id : ℕ} (hid : id ≠ 0x0F) (flags : UInt16) :
    sregU32 id (n.flagged flags).vals = sregU32 id n.vals ∧
      sregS8 id (n.flagged flags).vals = sregS8 id n.vals := by
  have hregs : ∀ r : Reg, find id = some r → (n.flagged flags).vals r = n.vals r := by
    intro r hr
    refine vals_put_of_ne ?_
    rintro rfl
    have hall : allRegs.find? (fun r => r.info.id == id) = some s0f := hr
    have hfound := List.find?_some hall
    exact hid (beq_iff_eq.mp hfound).symm
  rw [sregU32, sregU32, sregS8, sregS8]
  cases hr : find id with
  | none => exact ⟨rfl, rfl⟩
  | some r => simp only [Option.elim_some, hregs r hr, and_self]

theorem roleName_flagged (role : Role) (flags : UInt16) :
    roleName role (n.flagged flags).vals = roleName role n.vals := by
  have hs0a := (@flagged_vals n 0x0A (by decide) flags).1
  unfold roleName sregBit
  rw [hs0a]

theorem infoOf_flagged (p : Pan) (flags : UInt16) :
    infoOf p (n.flagged flags).vals = infoOf p n.vals := by
  rw [infoOf, infoOf, roleName_flagged, (@flagged_vals n 0x01 (by decide) flags).2]

theorem Held.flagged {info : Option NetworkInfo} (h : Held st want info n) (flags : UInt16) :
    Held st want info (n.flagged flags) := by
  obtain ⟨p, hpan, hwant, hinfo⟩ := h.held
  refine ⟨(flagged_eq h.ok flags).2, p, hpan, ?_, ?_⟩
  · rwa [roleName_flagged]
  · rwa [infoOf_flagged]

theorem isWanted_iff {role : Text} : isWanted want role = true ↔ role ∈ want := decide_eq_true_iff

/-- What is kept is held. -/
theorem held_kept (h : NodeOk st n) {p : Pan} (hkept : n.kept st net want = some p) :
    Held st want (some (infoOf p (n.prepared st net want).vals)) (n.prepared st net want) := by
  have hbase : n.prepared st net want = n.base st net := by
    rw [Node.prepared, hkept, if_neg fun hand => Bool.false_ne_true hand.1]
  obtain ⟨hpan, hwant⟩ := Option.filter_eq_some_iff.mp hkept
  rw [hbase]
  exact ⟨h.base, p, hpan, isWanted_iff.mp hwant, rfl⟩

/-- A network that is held is kept, as it is. -/
theorem Held.again {setUp : Node → Option Node} {start : Node → Option (Prompt × Node)}
    {info : Option NetworkInfo} (h : Held st want info n) (flags : UInt16)
    (hreset : net.reset = false) :
    ensure st net want flags setUp start n = some (info, n.flagged flags) := by
  obtain ⟨p, hpan, hwant, hinfo⟩ := h.held
  have hbase : n.base st net = n := if_neg (by simp [hreset])
  have hkept : n.kept st net want = some p := by
    rw [Node.kept, hbase, hpan, Option.filter_some, if_pos (isWanted_iff.mpr hwant)]
  have hprepared : n.prepared st net want = n := by
    rw [Node.prepared, hkept, hbase, if_neg fun hand => Bool.false_ne_true hand.1]
  rw [ensure_kept h.ok flags hkept, hprepared, hinfo]

/-- What a procedure returns is held. -/
theorem held_of_ensures {role : Role} {flags : UInt16} {info : Option NetworkInfo}
    {result : Option (Option NetworkInfo × Node)} (hst : Honours st)
    (hwant : ∀ v, roleName role v ∈ want) (h : Ensures st net role flags n result)
    (hresult : result = some (info, n')) : Held st want info n' := by
  have hcan : CanStart n := by
    by_contra hno
    rw [h.fails hno] at hresult
    cases hresult
  obtain ⟨n₁, z, hok, -, -, -, -, hasks, hiff⟩ := h.done hcan
  obtain ⟨p, hp, heq⟩ := (hiff _).mp hresult
  cases heq
  have hrole : p.role = role := by
    have hstarted := hst z p hp
    rw [hasks.started] at hstarted
    exact (Option.some.inj hstarted).symm
  refine ⟨⟨hok.ready, fun q hq => ?_, nofun⟩, p, rfl, hrole ▸ hwant _, rfl⟩
  rw [← Option.some.inj hq]
  rfl

theorem joinedRoles_role (d : DeviceType) (v : Vals) : roleName d.role v ∈ joinedRoles d := by
  cases d with
  | router => exact List.mem_singleton.mpr rfl
  | endDevice =>
    show roleName .zed v ∈ [ascii "ZED", ascii "SED", ascii "MED"]
    unfold roleName
    dsimp only
    split_ifs <;> simp

/-- Runs of a procedure one after the other, without a factory reset, keep what is held. -/
theorem Held.runs {f : NetworkOptions → UInt16 → Node → Option (Option NetworkInfo × Node)}
    {info : Option NetworkInfo}
    (hf : ∀ net flags n, net.reset = false → Held st want info n →
      f net flags n = some (info, n.flagged flags))
    (h : Held st want info n) (runs : List (NetworkOptions × UInt16))
    (hreset : ∀ r ∈ runs, r.1.reset = false) :
    runs.foldlM (fun s r => f r.1 r.2 s.2) (info, n) =
      some (info, runs.foldl (fun n r => n.flagged r.2) n) := by
  induction runs generalizing n with
  | nil => rfl
  | cons r runs ih =>
    rw [List.foldlM_cons, hf r.1 r.2 n (hreset r List.mem_cons_self) h]
    exact ih (h.flagged r.2) fun s hs => hreset s (List.mem_cons_of_mem _ hs)

/-- What `ensure_coordinator` returns is held. -/
theorem coordinator_held (h : NodeOk st n) (hst : Honours st) {flags : UInt16}
    {info : Option NetworkInfo} (hrun : ensureCoordinator st net flags n = some (info, n')) :
    Held st [ascii "COO"] info n' := by
  cases hkept : n.kept st net [ascii "COO"] with
  | none =>
    exact held_of_ensures hst (fun v => List.mem_singleton.mpr rfl)
      (coordinator_fresh h net flags hkept) hrun
  | some p =>
    rw [ensureCoordinator, ensure_kept h flags hkept] at hrun
    cases hrun
    exact (held_kept h hkept).flagged flags

/-- What `ensure_joined` returns is held. -/
theorem joined_held (h : NodeOk st n) (hst : Honours st) {d : DeviceType} {flags : UInt16}
    {info : Option NetworkInfo} (hrun : ensureJoined st net d flags n = some (info, n')) :
    Held st (joinedRoles d) info n' := by
  cases hkept : n.kept st net (joinedRoles d) with
  | none =>
    exact held_of_ensures hst (joinedRoles_role d) (joined_fresh h net d flags hkept) hrun
  | some p =>
    rw [ensureJoined, ensure_kept h flags hkept] at hrun
    cases hrun
    exact (held_kept h hkept).flagged flags

/-- **Doing it again.** Once a procedure has returned, later runs of it without a factory reset keep
the network whatever their options are, and return the same. -/
theorem ensured_again (h : NodeOk st n) (hst : Honours st) (net : NetworkOptions) (d : DeviceType)
    (flags : UInt16) (runs : List (NetworkOptions × UInt16))
    (hreset : ∀ r ∈ runs, r.1.reset = false) (info : Option NetworkInfo) :
    (ensureCoordinator st net flags n = some (info, n') →
      runs.foldlM (fun s r => ensureCoordinator st r.1 r.2 s.2) (info, n') =
        some (info, runs.foldl (fun n r => n.flagged r.2) n')) ∧
    (ensureJoined st net d flags n = some (info, n') →
      runs.foldlM (fun s r => ensureJoined st r.1 d r.2 s.2) (info, n') =
        some (info, runs.foldl (fun n r => n.flagged r.2) n')) :=
  ⟨fun hrun => Held.runs (f := ensureCoordinator st) (fun _ flags _ hno h => h.again flags hno)
      (coordinator_held h hst hrun) runs hreset,
    fun hrun => Held.runs (f := fun net flags n => ensureJoined st net d flags n)
      (fun _ flags _ hno h => h.again flags hno) (joined_held h hst hrun) runs hreset⟩

end

theorem honours_forming : Honours formingStack := by
  intro z p hrun
  unfold formingStack at hrun
  dsimp only at hrun
  split_ifs at hrun with hzc hzr
  · cases hrun
    exact hzc
  · cases hrun
    exact hzr

/-- A coordinator is set up, and two later runs with other options keep its network. -/
theorem ensured_again_blank : ∃ info n',
    ensureCoordinator formingStack channelTwenty 0x0C00 blank = some (info, n') ∧
      [(channelTwenty, 0), (⟨none, some 7, none, false, false⟩, 0x0400)].foldlM
        (fun s r => ensureCoordinator formingStack r.1 r.2 s.2) (info, n') =
          some (info, (n'.flagged 0).flagged 0x0400) := by
  obtain ⟨n, z, -, -, -, -, -, hasks, hiff⟩ :=
    (coordinator_fresh blank_ok channelTwenty 0x0C00 rfl).done blank_canStart
  have hrole : z.role = some .zc := hasks.started
  have hrun := (hiff _).mpr ⟨coordinatorPan, if_pos hrole, rfl⟩
  exact ⟨_, _, hrun, (ensured_again blank_ok honours_forming channelTwenty .router 0x0C00 _
    (by simp [channelTwenty]) _).1 hrun⟩

end ZbAt.Network
