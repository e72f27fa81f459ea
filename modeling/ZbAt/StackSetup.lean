import ZbAt.HexRev
import ZbAt.ZbBootProof

/-!
# What the stack is set up with (zb_core.c, zb_secpol.c)

The role, the channels, the keys and the IDs of a network are given to ZBOSS before it starts; it
reads them when it forms or joins.

* `Zboss` — what the firmware sets, with the setters of zb_secpol.c.
* `setRole`, `prepareNewNetwork` — how a role and a new network are set up from the registers.
* `regsOf` — what the commands read from the registers.
* `runCalls` — the setup that calls of the stack leave; `runCalls_start` says that the calls of a
  command are those of `prepareNewNetwork`.
* `set_up_once` — in every run in which the role is known (`KnownRole`), the calls until the start
  and the start are those of one command, or of a role and the channels that `main` read, each once.
-/

namespace ZbAt.Zbc

open Text Sreg HexRev

/-! ## The settings of the stack -/

/-- What the firmware sets in ZBOSS. A value that was never set is the stack's own. -/
structure Zboss where
  /-- `zb_set_network_*_role` -/
  role : Option Role
  channelMask : UInt32
  /-- `zb_set_rx_on_when_idle` -/
  rxOnWhenIdle : Option Bool
  /-- `zb_bdb_set_legacy_device_support` -/
  legacyDeviceSupport : Bool
  /-- `ZB_AIB().tc_standard_key` -/
  tcStandardKey : List UInt8
  /-- `ZB_TCPOL().aps_unencrypted_transport_key_join` -/
  unencryptedTransportKeyJoin : Bool
  /-- `ZB_CERT_HACKS().allow_aps_unencrypted_transport_key` -/
  allowUnencryptedTransportKey : Bool
  /-- `zb_set_pan_id` -/
  panId : Option UInt16
  /-- `zb_secur_setup_nwk_key` -/
  nwkKey : Option (List UInt8)
  /-- `zb_set_extended_pan_id` -/
  extendedPanId : Option (List UInt8)
  deriving DecidableEq

/-- `zbc_tc_link_key_apply` -/
def zbcTcLinkKeyApply (key : List UInt8) (z : Zboss) : Zboss := { z with tcStandardKey := key }

/-- `zbc_tc_unencrypted_key_transport` -/
def zbcTcUnencryptedKeyTransport (unencrypted : Bool) (z : Zboss) : Zboss :=
  { z with unencryptedTransportKeyJoin := unencrypted }

/-- `zbc_accept_unencrypted_key_transport` -/
def zbcAcceptUnencryptedKeyTransport (accept : Bool) (z : Zboss) : Zboss :=
  { z with allowUnencryptedTransportKey := accept }

/-- The bits of `S0A` that are read before the stack starts. -/
def s0aEncryptNwkKey : ℕ := 0x4
def s0aUseS09Key : ℕ := 0x8
def s0aNoTclkRequest : ℕ := 0xA
def s0aTypeLow : ℕ := 0xE
def s0aTypeHigh : ℕ := 0xF

/-- `ZB_STANDARD_TC_KEY`: `ZigBeeAlliance09` -/
def standardTcKey : List UInt8 := ascii "ZigBeeAlliance09"

/-- The preconfigured link key: that of `S09`, or the standard one. -/
def tcLinkKey (v : Vals) : List UInt8 :=
  if sregBit 0x0A s0aUseS09Key v then (sregBytes 0x09 16 v).getD standardTcKey else standardTcKey

/-- `security_prestart` -/
def securityPrestart (role : Role) (v : Vals) (z : Zboss) : Zboss :=
  let z := zbcTcLinkKeyApply (tcLinkKey v) z
  if role = .zc then zbcTcUnencryptedKeyTransport (!sregBit 0x0A s0aEncryptNwkKey v) z
  else zbcAcceptUnencryptedKeyTransport true z

/-- `set_role` -/
def setRole (role : Role) (mask : UInt32) (v : Vals) (z : Zboss) : Zboss :=
  let z := { securityPrestart role v z with channelMask := mask }
  if role = .zc then { z with role := some .zc, legacyDeviceSupport := true }
  else
    let z := if role = .zr then { z with role := some .zr }
      else { z with role := some .zed, rxOnWhenIdle := some true }
    { z with legacyDeviceSupport := sregBit 0x0A s0aNoTclkRequest v }

/-! ## What the commands read -/

/-- `channel_mask` -/
def channelMask (v : Vals) : UInt32 := (sregU32 0x00 v).toUInt32 <<< 11

/-- `end_device_type` -/
def endDeviceType (v : Vals) : Bool :=
  sregBit 0x0A s0aTypeHigh v || sregBit 0x0A s0aTypeLow v

/-- The registers that `cmd_en`, `cmd_jn`, `cmd_jpan` and `prepare_new_network` read. -/
def regsOf (v : Vals) : Regs where
  channelMask := channelMask v
  endDevice := endDeviceType v
  preferredEpid := preferredEpid v
  panId := (sregU32 0x02 v).toUInt16
  nwkKey := if sregIsZero 0x08 v then none else sregBytes 0x08 16 v

/-- `prepare_new_network`, behind the erase -/
def prepareNewNetwork (role : Role) (mask : UInt32) (epid : Option (List UInt8)) (v : Vals)
    (z : Zboss) : Zboss :=
  let z := setRole role mask v z
  let z :=
    if role = .zc then
      let z := if sregU32 0x02 v ≠ 0 then { z with panId := some (sregU32 0x02 v).toUInt16 } else z
      match if sregIsZero 0x08 v then none else sregBytes 0x08 16 v with
      | some key => { z with nwkKey := some key }
      | none => z
    else z
  match epid with
  | some epid => { z with extendedPanId := some epid }
  | none => z

/-! ## Calls of the stack -/

/-- What a call sets; the registers are those at the call. -/
def Call.run (v : Vals) (z : Zboss) : Call → Zboss
  | .setRole role mask => Zbc.setRole role mask v z
  | .setPanId panId => { z with panId := some panId }
  | .setupNwkKey key => { z with nwkKey := some key }
  | .setExtendedPanId epid => { z with extendedPanId := some epid }
  | .erase _ | .enable | .resetViaLocalAction => z

/-- The setup that calls leave. -/
def runCalls (v : Vals) (calls : List Call) (z : Zboss) : Zboss := calls.foldl (Call.run v) z

/-- The calls of `prepare_new_network`, with no role recorded. -/
def Start.calls (q : Start) : List Call :=
  .erase .none :: .setRole q.role q.mask :: q.config

section

variable {v : Vals} {z : Zboss}

theorem runCalls_append (v : Vals) (a b : List Call) (z : Zboss) :
    runCalls v (a ++ b) z = runCalls v b (runCalls v a z) := List.foldl_append

/-- A 16-bit register is zero as a number exactly when it is zero as a `zb_uint16_t`. -/
theorem toUInt16_eq_zero {n : ℕ} (h : n < 2 ^ 16) : n.toUInt16 = 0 ↔ n = 0 := by
  rw [← UInt16.toNat_inj]
  have hn : n.toUInt16.toNat = n := Nat.mod_eq_of_lt h
  rw [hn]
  exact Iff.rfl

/-- The calls of a command set up what `prepare_new_network` sets up. -/
theorem runCalls_start (role : Role) (mask : UInt32) (epid : Option (List UInt8)) (v : Vals)
    (hpan : sregU32 0x02 v < 2 ^ 16) (z : Zboss) :
    runCalls v (Start.calls ⟨role, mask, epid, (regsOf v).panId, (regsOf v).nwkKey⟩) z =
      prepareNewNetwork role mask epid v z := by
  have hzero : (regsOf v).panId ≠ 0 ↔ sregU32 0x02 v ≠ 0 := not_congr (toUInt16_eq_zero hpan)
  have hepid : ∀ z : Zboss, runCalls v (epid.map Call.setExtendedPanId).toList z =
      match epid with
      | some epid => { z with extendedPanId := some epid }
      | none => z := by
    intro z
    cases epid <;> rfl
  have hkey : ∀ z : Zboss, runCalls v ((regsOf v).nwkKey.map Call.setupNwkKey).toList z =
      match (regsOf v).nwkKey with
      | some key => { z with nwkKey := some key }
      | none => z := by
    intro z
    cases (regsOf v).nwkKey <;> rfl
  have hstart : runCalls v (Start.calls ⟨role, mask, epid, (regsOf v).panId, (regsOf v).nwkKey⟩) z =
      runCalls v (Start.config ⟨role, mask, epid, (regsOf v).panId, (regsOf v).nwkKey⟩)
        (setRole role mask v z) := rfl
  unfold prepareNewNetwork
  rw [hstart, Start.config, runCalls_append, hepid]
  dsimp only
  by_cases hrole : role = .zc
  · rw [if_pos hrole, if_pos hrole, runCalls_append, hkey]
    by_cases hp : sregU32 0x02 v ≠ 0
    · rw [if_pos hp, if_pos (hzero.mpr hp)]
      rfl
    · rw [if_neg hp, if_neg (mt hzero.mp hp)]
      rfl
  · rw [if_neg hrole, if_neg hrole]
    rfl

end

/-! ## One preparation -/

/-- The calls that set the stack up, or start it. -/
def State.setup (s : State) : List Call := s.calls.filter (· ≠ .resetViaLocalAction)

/-- What a command on its way to start the stack has called. -/
def AtPc.made : AtPc → Option (List Call)
  | .erase _ => some []
  | .setRole _ => some [.erase .none]
  | .configure q => some [.erase .none, .setRole q.role q.mask]
  | .semReset q | .setOp q | .opStarted q | .markStarted q | .enable q => some q.calls
  | _ => none

/-- What a command on its way to start the stack was asked for. -/
def AtPc.asked : AtPc → Option Start
  | .startRole q | .startStarted q | .erase q | .setRole q | .configure q | .semReset q | .setOp q
  | .opStarted q | .markStarted q | .enable q => some q
  | _ => none

/-- The registers that a command has read. -/
def Cmd.regs : Cmd → Option Regs
  | .en r | .jn r | .jpan _ _ r => some r
  | _ => none

/-- One of the commands asks for this start. -/
def Asks (C : Cmd → Prop) (q : Start) : Prop := ∃ cmd : Cmd, C cmd ∧ cmd.start = some q

/-- The commands are among these, and so is the mask that `main` reads. -/
def Given (C : Cmd → Prop) (M : UInt32 → Prop) : Action → Prop
  | .command _ cmd => C cmd
  | .main _ mask => M mask
  | _ => True

instance (C : Cmd → Prop) (M : UInt32 → Prop) [DecidablePred C] [DecidablePred M] :
    ∀ a, Decidable (Given C M a)
  | .command _ _ | .main _ _ => by unfold Given; infer_instance
  | .at_ _ | .signal _ | .stack | .reboot => .isTrue trivial

/-- A thread on its way to start the stack has made its own calls, and no others were made. -/
structure SetUp (C : Cmd → Prop) (M : UInt32 → Prop) (s : State) : Prop where
  asked : ∀ q, s.at_.asked = some q → Asks C q
  idle : s.stackStarted = false → s.at_.made = none → s.main ≠ .markStarted → s.setup = []
  command : ∀ calls, s.at_.made = some calls → s.setup = calls
  main : s.main = .markStarted ∨ s.main = .enable →
    ∃ role mask, M mask ∧ s.setup = [.setRole role mask]
  started : .enable ∈ s.calls → (∃ q, Asks C q ∧ s.setup = q.calls ++ [.enable]) ∨
    ∃ role mask, M mask ∧ s.setup = [.setRole role mask, .enable]

section

variable {v : Vals} {C : Cmd → Prop} {M : UInt32 → Prop} {s s' : State} {a : Action}

theorem setup_append {c : Call} (hc : c ≠ .resetViaLocalAction)
    (h : s'.calls = s.calls ++ [c]) : s'.setup = s.setup ++ [c] := by
  simp [State.setup, h, hc]

theorem setup_config (q : Start) (h : s'.calls = s.calls ++ q.config) :
    s'.setup = s.setup ++ q.config := by
  have hfilter : q.config.filter (· ≠ .resetViaLocalAction) = q.config := by
    refine List.filter_eq_self.mpr fun c hc => ?_
    rw [decide_eq_true_eq]
    rintro rfl
    unfold Start.config at hc
    split_ifs at hc <;> cases hk : q.nwkKey <;> cases he : q.epid <;> simp [hk, he] at hc
  rw [State.setup, h, List.filter_append, hfilter]
  rfl

/-- A step that calls nothing, or only leaves. -/
theorem SetUp.move (h : SetUp C M s) (hsetup : s'.setup = s.setup)
    (henable : .enable ∈ s'.calls → .enable ∈ s.calls)
    (hidle : s'.stackStarted = false → s'.at_.made = none → s'.main ≠ .markStarted →
      s.stackStarted = false ∧ s.at_.made = none ∧ s.main ≠ .markStarted)
    (hat : ∀ calls, s'.at_.made = some calls → s.at_.made = some calls)
    (hasked : ∀ q, s'.at_.asked = some q → s.at_.asked = some q)
    (hmain : s'.main = .markStarted ∨ s'.main = .enable →
      s.main = .markStarted ∨ s.main = .enable) : SetUp C M s' where
  asked q hq := h.asked q (hasked q hq)
  idle hns hm hne := by
    obtain ⟨hns, hm, hne⟩ := hidle hns hm hne
    exact hsetup.trans (h.idle hns hm hne)
  command calls hm := hsetup.trans (h.command calls (hat calls hm))
  main hm := hsetup ▸ h.main (hmain hm)
  started he := hsetup ▸ h.started (henable he)

/-- A step of the main thread that calls nothing. -/
theorem SetUp.main_move (h : SetUp C M s) {pc : MainPc} (hm : s.main ≠ .markStarted)
    (hpc : pc ≠ .markStarted) (hne : pc ≠ .enable) {role : Role} {pendingCmd : Text}
    {pend : Option Text} {injected : List Text} : SetUp C M { s with
      storedRole := role
      pendingCmd := pendingCmd
      savedPend := pend
      injected := injected
      main := pc } :=
  h.move rfl id (fun hns hmade _ => ⟨hns, hmade, hm⟩) (fun _ => id) (fun _ => id)
    fun hp => (hp.elim (absurd · hpc) (absurd · hne))

/-- A step of the AT thread that calls nothing, outside of a start. -/
theorem SetUp.at_move (h : SetUp C M s) {pc : AtPc} (hs : s.at_.made = none) (hpc : pc.made = none)
    (hasked : ∀ q, pc.asked = some q → s.at_.asked = some q) {op : Op} {done : Bool}
    {role saved : Role} {pend : Option Text} {log : List Ev} {rebooted : Option Cause} :
    SetUp C M { s with
      op := op
      opDone := done
      storedRole := role
      savedRole := saved
      savedPend := pend
      log := log
      rebooted := rebooted
      at_ := pc } := by
  refine h.move rfl id (fun hns _ hne => ⟨hns, hs, hne⟩) (fun calls hm => ?_) hasked id
  rw [show pc.made = some calls from hm] at hpc
  cases hpc

/-- A step of a command on its way that calls nothing. -/
theorem SetUp.way_move (h : SetUp C M s) {pc : AtPc} {calls : List Call}
    (hs : s.at_.made = some calls) (hpc : pc.made = some calls)
    (hasked : ∀ q, pc.asked = some q → s.at_.asked = some q) {op : Op} {done started : Bool} :
    SetUp C M { s with op := op, opDone := done, stackStarted := started, at_ := pc } := by
  refine h.move rfl id (fun _ hm => ?_) (fun calls' hm => ?_) hasked id
  · rw [show pc.made = none from hm] at hpc
    cases hpc
  · rw [hs, ← hpc]
    exact hm

theorem AtPc.way_of_made {pc : AtPc} {calls : List Call} (h : pc.made = some calls) :
    pc.starting = true ∨ pc.enabling = true := by
  cases pc <;> first | exact .inl rfl | exact .inr rfl | cases h

/-- Only one thread is on its way. -/
theorem Starts.made_none (h : Starts s) (hm : s.main.starting = true) : s.at_.made = none := by
  cases hmade : s.at_.made with
  | none => rfl
  | some calls =>
    rcases AtPc.way_of_made hmade with hs | he
    · exact absurd hm (ne_true_of_eq_false (h.starting hs).2.2.2)
    · exact absurd hm (ne_true_of_eq_false (h.enabling he).2.1)

theorem MainPc.ne_of_starting {pc pc' : MainPc} (h : pc.starting = false)
    (h' : pc'.starting = true) : pc ≠ pc' := by
  rintro rfl
  rw [h'] at h
  cases h

/-- A command that is to start the stack makes its next calls. -/
theorem SetUp.call {calls : List Call} (h : SetUp C M s) (hr : RunOp s) (hst : Starts s)
    (hs : s.at_.starting = true) (hmade : s'.at_.made = some calls) (hsetup : s'.setup = calls)
    (hmain : s'.main = s.main) (henable : .enable ∈ s'.calls → .enable ∈ s.calls)
    (hasked : s'.at_.asked = s.at_.asked) : SetUp C M s' := by
  obtain ⟨hns, -, -, hm⟩ := hst.starting hs
  refine ⟨hasked ▸ h.asked, ?_, ?_, ?_, fun he => absurd (henable he) (hr.not_enabled hns)⟩
  · intro _ hnone
    rw [hmade] at hnone
    cases hnone
  · intro calls' hmade'
    rw [hmade] at hmade'
    cases hmade'
    exact hsetup
  · intro hm'
    rw [hmain] at hm'
    rcases hm' with hm' | hm'
    · exact absurd hm' (MainPc.ne_of_starting hm rfl)
    · have hstarted := hr.started (.inl hm')
      rw [hns] at hstarted
      cases hstarted

theorem setUp_main {roleFirst : Bool} {mask : UInt32} (hr : RunOp s) (hst : Starts s)
    (h : SetUp C M s) (ha : M mask) (hs : stepMain roleFirst mask s = some s') :
    SetUp C M s' := by
  cases hm : s.main with
  | done => rw [stepMain, hm] at hs; cases hs
  | atCmdStart | deletePend | inject =>
    simp only [stepMain, hm] at hs
    cases hs
    exact h.main_move (by simp [hm]) (by simp) (by simp)
  | load role pend =>
    simp only [stepMain, hm] at hs
    split_ifs at hs <;> cases hs <;> exact h.main_move (by simp [hm]) (by simp) (by simp)
  | checkPend | checkRole =>
    simp only [stepMain, hm] at hs
    split_ifs at hs <;> cases hs <;> exact h.main_move (by simp [hm]) (by simp) (by simp)
  | setRole =>
    simp only [stepMain, hm] at hs
    cases hs
    have hstart : s.main.starting = true := by rw [hm]; rfl
    have hns := (hst.main hstart).1
    have hnone := hst.made_none hstart
    have hnil := h.idle hns hnone (by simp [hm])
    refine ⟨h.asked, fun _ _ hne => absurd rfl hne, ?_, fun _ => ⟨s.storedRole, mask, ha, ?_⟩, ?_⟩
    · intro calls hmade
      rw [show s.at_.made = some calls from hmade] at hnone
      cases hnone
    · rw [setup_append (c := .setRole s.storedRole mask) (s := s) (by simp) rfl, hnil]
      rfl
    · intro he
      have hno := hr.not_enabled hns
      simp [hno] at he
  | markStarted =>
    simp only [stepMain, hm] at hs
    cases hs
    exact ⟨h.asked, fun hns => (by cases hns), h.command, fun _ => h.main (.inl hm), h.started⟩
  | enable =>
    simp only [stepMain, hm] at hs
    cases hs
    obtain ⟨role, read, hread, hsetup⟩ := h.main (.inr hm)
    have hstarted := hr.started (.inl hm)
    refine ⟨h.asked, ?_, ?_, fun hd => by simp at hd, fun _ => .inr ⟨role, read, hread, ?_⟩⟩
    · intro hns
      rw [hstarted] at hns
      cases hns
    · intro calls hmade
      rcases AtPc.way_of_made hmade with hway | hway
      · have hns := (hst.starting hway).1
        rw [hstarted] at hns
        cases hns
      · exact absurd hm (hst.enabling hway).2.2
    · rw [setup_append (c := .enable) (s := s) (by simp) rfl, hsetup]
      rfl

theorem setUp_at {flag : Bool} (hr : RunOp s) (hst : Starts s) (h : SetUp C M s)
    (ha : s.at_.choosing = true → s.stackStarted = false → s.savedRole = .none)
    (hs : stepAt flag s = some s') : SetUp C M s' := by
  have hst' := starts_at hr hst ha hs
  cases hat : s.at_ with
  | idle => rw [stepAt, hat] at hs; cases hs
  | deferSave | timedOut q | readResult | ret result | leaveReset k | leaveOp k
  | leaveTimedOut k | clearStored k | deletePend cause | reboot cause =>
    simp only [stepAt, hat] at hs
    cases hs
    exact h.at_move (by rw [hat]; rfl) rfl (by simp [AtPc.asked])
  | take q | leaveJoined k | leaveTake k | printLeft | answer cause =>
    simp only [stepAt, hat] at hs
    split_ifs at hs <;> cases hs <;> exact h.at_move (by rw [hat]; rfl) rfl (by simp [AtPc.asked])
  | leaveRole k | clearSave k =>
    simp only [stepAt, hat] at hs
    cases k <;> (try split_ifs at hs) <;> cases hs <;>
      exact h.at_move (by rw [hat]; rfl) rfl (by simp [AtPc.asked])
  | startRole q =>
    simp only [stepAt, hat] at hs
    split_ifs at hs <;> cases hs
    · exact h.at_move (by rw [hat]; rfl) rfl (by simp [AtPc.asked])
    · exact h.at_move (by rw [hat]; rfl) rfl (by rw [hat]; exact fun _ => id)
  | startStarted q =>
    simp only [stepAt, hat] at hs
    split_ifs at hs with hstarted <;> cases hs
    · exact h.at_move (by rw [hat]; rfl) rfl (by simp [AtPc.asked])
    · have hns : s.stackStarted = false := by simpa using hstarted
      have hmain := (hst'.starting rfl).2.2.2
      have hnil := h.idle hns (by rw [hat]; rfl) (MainPc.ne_of_starting hmain rfl)
      refine ⟨fun q' hq => h.asked q' ?_, fun _ hm => (by cases hm), ?_, h.main, h.started⟩
      · rw [hat]
        exact hq
      · rintro calls ⟨⟩
        exact hnil
  | erase q =>
    simp only [stepAt, hat] at hs
    cases hs
    have hway : s.at_.starting = true := by rw [hat]; rfl
    refine h.call hr hst hway rfl ?_ rfl (by simp) (by rw [hat]; rfl)
    rw [setup_append (c := .erase s.savedRole) (s := s) (by simp) rfl,
      h.command [] (by rw [hat]; rfl), (hst.starting hway).2.1]
    rfl
  | setRole q =>
    simp only [stepAt, hat] at hs
    cases hs
    refine h.call hr hst (by rw [hat]; rfl) rfl ?_ rfl (by simp) (by rw [hat]; rfl)
    rw [setup_append (c := .setRole q.role q.mask) (s := s) (by simp) rfl,
      h.command [.erase .none] (by rw [hat]; rfl)]
    rfl
  | configure q =>
    simp only [stepAt, hat] at hs
    cases hs
    refine h.call hr hst (by rw [hat]; rfl) rfl ?_ rfl ?_ (by rw [hat]; rfl)
    · rw [setup_config q (s := s) rfl,
        h.command [.erase .none, .setRole q.role q.mask] (by rw [hat]; rfl)]
      rfl
    · intro he
      rcases List.mem_append.mp he with he | he
      · exact he
      · cases beforeStart_config q he
  | semReset q | setOp q | markStarted q =>
    simp only [stepAt, hat] at hs
    cases hs
    exact h.way_move (by rw [hat]; rfl) rfl (by rw [hat]; exact fun _ => id)
  | opStarted q =>
    simp only [stepAt, hat] at hs
    have hns := (hst.starting (by rw [hat]; rfl)).1
    rw [if_neg (by simp [hns])] at hs
    cases hs
    exact h.way_move (by rw [hat]; rfl) rfl (by rw [hat]; exact fun _ => id)
  | enable q =>
    simp only [stepAt, hat] at hs
    cases hs
    obtain ⟨-, hmain, hne⟩ := hst.enabling (by rw [hat]; rfl)
    have hstarted := hr.started (.inr (by rw [hat]; rfl))
    refine ⟨fun _ hq => (by cases hq), ?_, ?_, ?_,
      fun _ => .inl ⟨q, h.asked q (by rw [hat]; rfl), ?_⟩⟩
    · intro hns
      rw [hstarted] at hns
      cases hns
    · intro calls hm
      cases hm
    · intro hm
      rcases hm with hm | hm
      · exact absurd hm (MainPc.ne_of_starting hmain rfl)
      · exact absurd hm hne
    · rw [setup_append (c := .enable) (s := s) (by simp) rfl, h.command q.calls (by rw [hat]; rfl)]
  | leaveSchedule k =>
    simp only [stepAt, hat] at hs
    cases hs
    refine h.move ?_ (by simp) (fun hns _ hne => ⟨hns, by rw [hat]; rfl, hne⟩)
      (by simp [AtPc.made]) (by simp [AtPc.asked]) id
    simp [State.setup]

theorem setUp_step (hr : RunOp s) (hst : Starts s) (h : SetUp C M s) (ha : KnownRole s a)
    (hgiven : Given C M a) (hs : step s a = some s') : SetUp C M s' := by
  obtain ⟨-, hs⟩ := step_move hs
  cases a with
  | main roleFirst mask => exact setUp_main hr hst h hgiven hs
  | at_ flag => exact setUp_at hr hst h ha hs
  | command line cmd =>
    simp only [move] at hs
    split_ifs at hs with hc
    cases hs
    refine ⟨?_, fun hns _ hne => h.idle hns (by rw [hc.1]; rfl) hne, ?_, h.main, h.started⟩
    · intro q hq
      cases cmd with
      | en r | jn r | jpan channel epid r => exact ⟨_, hgiven, hq⟩
      | leave k | atz | other result => cases hq
    · intro calls hm
      cases cmd <;> cases hm
  | signal g =>
    simp only [move] at hs
    split_ifs at hs
    cases hs
    exact ⟨h.asked, h.idle, h.command, h.main, h.started⟩
  | stack =>
    obtain ⟨hat, hmain, hstart, hcalls, -⟩ := stepStack_frame hs
    have hsetup : s'.setup = s.setup := by rw [State.setup, hcalls]; rfl
    refine ⟨hat ▸ h.asked, ?_, ?_, ?_, ?_⟩
    · rw [hat, hmain, hstart, hsetup]
      exact h.idle
    · rw [hat, hsetup]
      exact h.command
    · rw [hmain, hsetup]
      exact h.main
    · rw [hcalls, hsetup]
      exact h.started
  | reboot =>
    simp only [move] at hs
    split_ifs at hs
    cases hs
    exact ⟨h.asked, h.idle, h.command, h.main, h.started⟩

/-- The role is known, and the commands and the mask are among these. -/
def KnownStart (C : Cmd → Prop) (M : UInt32 → Prop) (s : State) (a : Action) : Prop :=
  KnownRole s a ∧ Given C M a

instance (C : Cmd → Prop) (M : UInt32 → Prop) [DecidablePred C] [DecidablePred M] (s : State)
    (a : Action) : Decidable (KnownStart C M s a) := inferInstanceAs (Decidable (_ ∧ _))

theorem setUp_reach (h : machine.ReachIf (KnownStart C M) s) : SetUp C M s := by
  have hboth : Starts s ∧ SetUp C M s := by
    refine h.invariant_of RunOp (fun s => Starts s ∧ SetUp C M s) (fun _ => runOp_reach) ?_ ?_
    · rintro _ ⟨role, pend, rfl⟩
      exact ⟨starts_reach (.init ⟨role, pend, rfl⟩), nofun, fun _ _ _ => rfl, nofun,
        fun hm => (by rcases hm with hm | hm <;> cases hm), nofun⟩
    · intro s a s' hr _ hb ha hs
      exact ⟨starts_step hr hb.1 ha.1 hs, setUp_step hr hb.1 hb.2 ha.1 ha.2 hs⟩
  exact hboth.2

theorem runCalls_setup (v : Vals) (s : State) (z : Zboss) :
    runCalls v s.calls z = runCalls v s.setup z := by
  unfold State.setup
  induction s.calls generalizing z with
  | nil => rfl
  | cons c calls ih =>
    by_cases hc : c = .resetViaLocalAction
    · subst hc
      exact ih z
    · rw [List.filter_cons_of_pos (by simpa using hc)]
      exact ih (c.run v z)

/-- A 16-bit register is read as 16 bits. -/
theorem word_lt (hv : ValsOk v) {r : Reg} (htype : r.info.type = .u16) :
    sregU32 r.info.id v < 2 ^ 16 := by
  have hcanon := (hv r).canonical (by simp [htype])
  rw [normalise_eq (by simp [htype])] at hcanon
  cases hx : denote r.info (v r) with
  | none => rw [hx] at hcanon; cases hcanon
  | some x =>
    cases denotes_of_denote hx with
    | num hnum hn hlt hid =>
      rw [sregU32_eq (find_id r) (.num hnum hn hlt hid)]
      rwa [htype] at hlt
    | int h => simp [htype] at h
    | bytes h => simp [htype] at h
    | text h => simp [htype] at h
    | ids h => simp [htype] at h

theorem panId_lt (hv : ValsOk v) : sregU32 0x02 v < 2 ^ 16 :=
  @word_lt v hv ⟨2, by decide⟩ rfl

theorem start_regs {cmd : Cmd} {r : Regs} {q : Start} (hregs : cmd.regs = some r)
    (hstart : cmd.start = some q) : q = ⟨q.role, q.mask, q.epid, r.panId, r.nwkKey⟩ := by
  cases cmd <;> cases hregs <;> cases hstart <;> rfl

/-- **Set up once.** In a run in which `start_network` finds the stack not started only while no
role is recorded, and `zbc_init` finds a role only while the stack is not started, all that a
started stack was called with are the calls of one of the commands and the start, each once, which
set up the whole network of the command as the registers were that it read; or one role with the
channels that `main` read, and the start. -/
theorem set_up_once (h : machine.ReachIf (KnownStart C M) s) (he : .enable ∈ s.calls) :
    (∃ (cmd : Cmd) (q : Start), C cmd ∧ cmd.start = some q ∧ s.setup = q.calls ++ [.enable] ∧
        ∀ v, ValsOk v → cmd.regs = some (regsOf v) → ∀ z,
          runCalls v s.calls z = prepareNewNetwork q.role q.mask q.epid v z) ∨
      ∃ role mask, M mask ∧ s.setup = [.setRole role mask, .enable] ∧
        ∀ v z, runCalls v s.calls z = setRole role mask v z := by
  rcases (setUp_reach h).started he with
    ⟨q, ⟨cmd, hcmd, hstart⟩, hsetup⟩ | ⟨role, mask, hmask, hsetup⟩
  · refine .inl ⟨cmd, q, hcmd, hstart, hsetup, fun v hv hregs z => ?_⟩
    rw [runCalls_setup, hsetup, runCalls_append]
    conv_lhs => rw [start_regs hregs hstart]
    exact runCalls_start q.role q.mask q.epid v (panId_lt hv) (runCalls v [.enable] z)
  · refine .inr ⟨role, mask, hmask, hsetup, fun v z => ?_⟩
    rw [runCalls_setup, hsetup]
    rfl

end

/-- `AT+EN` on a device with the default settings. -/
def formCmd : Cmd := .en (regsOf loadDefaults)

def firstFormRun : List Action :=
  List.replicate 6 (.main true (channelMask loadDefaults)) ++
    .command [] formCmd :: List.replicate 10 (.at_ false)

theorem firstFormRun_execIf :
    ((machine.execIf (KnownStart (· = formCmd) (· = channelMask loadDefaults)) (init .none none)
      firstFormRun).map State.calls) = some [.erase .none, .setRole .zc 0x07FFF800, .enable] := by
  decide

theorem set_up_once_form : ∃ s : State, .enable ∈ s.calls ∧
    ((∃ (cmd : Cmd) (q : Start), cmd = formCmd ∧ cmd.start = some q ∧
        s.setup = q.calls ++ [.enable] ∧ ∀ v, ValsOk v → cmd.regs = some (regsOf v) → ∀ z,
          runCalls v s.calls z = prepareNewNetwork q.role q.mask q.epid v z) ∨
      ∃ role mask, mask = channelMask loadDefaults ∧ s.setup = [.setRole role mask, .enable] ∧
        ∀ v z, runCalls v s.calls z = setRole role mask v z) := by
  obtain ⟨s, he, hs⟩ := Option.map_eq_some_iff.mp firstFormRun_execIf
  have henable : .enable ∈ s.calls := by
    rw [hs]
    decide
  exact ⟨s, henable, set_up_once (.execIf (.init ⟨_, _, rfl⟩) he) henable⟩

end ZbAt.Zbc
