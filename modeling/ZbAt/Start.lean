import ZbAt.EndpointProof
import ZbAt.Ensure
import ZbAt.Zcl

/-!
# Starting the role scripts (switch.py, bulb.py, net.py)

`start` puts a module into a network as its options ask, then configures endpoint 2. If that wrote a
register, the module was reset, and `start` polls `AT+N` until ZBOSS has brought the module back
into the network that is recorded.

* `configureEndpoint2`, `waitNetwork` — over the commands of a `Node`; what ZBOSS does between the
  polls is given.
* `startDevice` — `start` of the switch and the bulb.
* `Built` — the descriptor is that of the registers: nobody wrote them since the boot.
* `start_ready` — a module that was started is in the network that is returned, with the endpoint
  and the prompts that the script needs; `start` returns if the network can be set up and ZBOSS
  comes back; and a later `start` changes nothing.
-/

namespace ZbAt.Network

open Text Sreg Uart Report Host Zbc
open Xcast (dispatch Handler typed sent)
open Endpoint (Module Ready printResult wanted regText Described readCommand writeCommand)
open ReadBack (setCommand passwordPart)

/-! ## The host (protocol.py, net.py) -/

/-- `sreg_get` -/
def sregGet (st : Stack) (reg : ℕ) (n : Node) : Option (Text × Node) :=
  (cmd st (readCommand reg) n).map fun (lines, n) => ((valuesOf lines).getLast?.getD [], n)

/-- `reset` -/
def reset (st : Stack) (n : Node) : Option Node :=
  (cmd st (ascii "ATZ") n).bind fun (_, n) => waitReady st n

/-- The loop of `configure_endpoint2`. -/
def writeChanged (st : Stack) : List (ℕ × Text) → Bool → Node → Option (Bool × Node)
  | [], changed, n => some (changed, n)
  | (reg, value) :: rest, changed, n =>
    (sregGet st reg n).bind fun (old, n) =>
      if old ≠ value then (sregSet st reg value none n).bind (writeChanged st rest true)
      else writeChanged st rest changed n

/-- `configure_endpoint2` -/
def configureEndpoint2 (st : Stack) (profile deviceId : UInt16) (ins outs : List UInt16)
    (n : Node) : Option (Bool × Node) :=
  (writeChanged st (wanted profile deviceId ins outs) false n).bind fun (changed, n) =>
    if changed then (reset st n).map fun n => (true, n) else some (false, n)

/-- `wait_network`. Each element is a poll before the deadline, with the network that ZBOSS has
brought the module back into since the last one, if it has. -/
def waitNetwork (st : Stack) : List (Option Pan) → Node → Option (NetworkInfo × Node)
  | [], _ => none
  | back :: polls, n =>
    (network st (back.elim n fun p => (n.networkUp p).1)).bind fun (info, n) =>
      match info with
      | some i => some (i, n)
      | none => waitNetwork st polls n

/-- `start` of the switch, up to `find`, and of the bulb. -/
def startDevice (st : Stack) (net : NetworkOptions) (d : DeviceType) (flags : UInt16)
    (profile deviceId : UInt16) (ins outs : List UInt16) (polls : List (Option Pan)) (n : Node) :
    Option (NetworkInfo × Node) := do
  let (info, n) ← ensureJoined st net d flags n
  let (changed, n) ← configureEndpoint2 st profile deviceId ins outs n
  if changed then waitNetwork st polls n else info.map fun i => (i, n)

/-- `S0F_APP` -/
def s0fApp : UInt16 := 0x1104

/-- `CLUSTER_BASIC` and `CLUSTER_IDENTIFY` -/
def clusterBasic : UInt16 := 0x0000
def clusterIdentify : UInt16 := 0x0003

/-- `Bulb.start` -/
def bulbStart (st : Stack) (net : NetworkOptions) : List (Option Pan) → Node →
    Option (NetworkInfo × Node) :=
  startDevice st net .router s0fApp Zcl.profileHa 0x0100
    [clusterBasic, clusterIdentify, Zcl.clusterOnOff] []

/-- `Switch.start`, up to `find` -/
def switchStart (st : Stack) (net : NetworkOptions) : List (Option Pan) → Node →
    Option (NetworkInfo × Node) :=
  startDevice st net .endDevice s0fApp Zcl.profileHa 0x0000 [clusterBasic, clusterIdentify]
    [Zcl.clusterOnOff]

/-! ## Commands on registers -/

section

variable {st : Stack} {n n' : Node} {profile deviceId : UInt16} {ins outs : List UInt16}

/-- The node as the host of its module alone sees it. -/
def Node.world (n : Node) (cmds : List Text) : Endpoint.World := ⟨n.module, cmds⟩

/-- A command on a register is one of the module alone. -/
theorem cmd_world (r : Reg) (tail : Text) (cmds : List Text) :
    cmd st (ascii "ATS" ++ (hexText 2 r.info.id ++ tail)) n =
      (Endpoint.cmd (sregDynamicRead st n) (ascii "ATS" ++ (hexText 2 r.info.id ++ tail))
        (n.world cmds)).map fun (lines, w) => (lines, { n with module := w.module }) := by
  obtain ⟨a, b, hab, -, ha, -⟩ := Endpoint.exists_digits r
  have hdispatch : dispatch (ascii "ATS" ++ (hexText 2 r.info.id ++ tail)) =
      .sregAtCommand (hexText 2 r.info.id ++ tail) := Endpoint.dispatch_ats (by rw [hab]; exact ha)
  rw [cmd, Endpoint.cmd, Node.execute, hdispatch, Node.world]
  dsimp only
  rw [Endpoint.serve, hdispatch]
  dsimp only [Option.map_some, Option.bind_some, sent]
  cases outcome (ascii "ATS" ++ (hexText 2 r.info.id ++ tail)) true _ <;> rfl

theorem sregGet_world (r : Reg) (cmds : List Text) : sregGet st r.info.id n =
    (Endpoint.sregGet (sregDynamicRead st n) r.info.id (n.world cmds)).map fun (old, w) =>
      (old, { n with module := w.module }) := by
  rw [sregGet, Endpoint.sregGet, readCommand, cmd_world r _ cmds, Option.map_map, Option.map_map]
  rfl

theorem sregSet_world (r : Reg) (value : Text) (cmds : List Text) :
    sregSet st r.info.id value none n =
      (Endpoint.sregSet (sregDynamicRead st n) r.info.id value (n.world cmds)).map fun w =>
        { n with module := w.module } := by
  have hline : setCommand r.info.id value none = writeCommand r.info.id value := by
    rw [setCommand, passwordPart, List.append_nil]
  rw [sregSet, Endpoint.sregSet, hline, writeCommand, cmd_world r _ cmds, Option.map_map,
    Option.map_map]
  rfl

/-- The loop, too. -/
theorem writeChanged_world {ps : List (ℕ × Text)} (hps : ∀ p ∈ ps, Endpoint.Target p)
    (changed : Bool) (cmds : List Text) : writeChanged st ps changed n =
      (Endpoint.writeChanged (sregDynamicRead st n) ps changed (n.world cmds)).map
        fun (flag, w) => (flag, { n with module := w.module }) := by
  induction ps generalizing n changed cmds with
  | nil => rfl
  | cons p ps ih =>
    obtain ⟨reg, value⟩ := p
    obtain ⟨r, -, hid, -⟩ := hps _ List.mem_cons_self
    dsimp only at hid
    subst hid
    have hrest : ∀ p ∈ ps, Endpoint.Target p := fun p hp => hps p (List.mem_cons_of_mem _ hp)
    rw [writeChanged, Endpoint.writeChanged, sregGet_world r cmds]
    cases Endpoint.sregGet (sregDynamicRead st n) r.info.id (n.world cmds) with
    | none => rfl
    | some got =>
      obtain ⟨old, w⟩ := got
      dsimp only [Option.map_some, Option.bind_some]
      split_ifs
      · rw [sregSet_world r value w.sent]
        show Option.bind (Option.map _ (Endpoint.sregSet (sregDynamicRead st n) r.info.id value
          w)) _ = _
        cases Endpoint.sregSet (sregDynamicRead st n) r.info.id value w with
        | none => rfl
        | some w' => exact @ih { n with module := w'.module } hrest true w'.sent
      · exact @ih { n with module := w.module } hrest changed w.sent

/-- `reset` boots the module. -/
theorem reset_eq (h : NodeOk st n) : reset st n = some (n.reboot st) := by
  have hdispatch : dispatch (ascii "ATZ") = .handler .atz [] := by decide
  have hplain : Plain (ascii "ATZ") := @Endpoint.plain_at (ascii "Z") (by decide) (by decide)
  have hexec : n.execute st (ascii "ATZ") = some (n.reboot st, [ascii "OK"]) := by
    rw [Node.execute, hdispatch]
    dsimp only
    rw [cmdAtz, if_neg (fun hne => hne rfl), h.printed]
  rw [reset, cmd_ok hplain (Endpoint.isAt_append _) hexec]
  exact waitReady_eq (h.reboot _)

/-! ## Configuring endpoint 2 -/

theorem NodeOk.withModule (h : NodeOk st n) {m : Module} (hm : Ready m) :
    NodeOk st { n with module := m } := ⟨hm, h.recorded, h.fresh⟩

theorem target_ids : ((wanted profile deviceId ins outs).map Prod.fst).Nodup := by
  have hids : [0x48, 0x49, 0x4B, 0x4C].Nodup := by decide
  exact hids

/-- With the values in the registers, nothing is done. -/
theorem configure_same (h : NodeOk st n) (hins : ins.length ≤ 8) (houts : outs.length ≤ 8)
    (hsame : ∀ p ∈ wanted profile deviceId ins outs, regText p.1 n.vals = p.2) :
    configureEndpoint2 st profile deviceId ins outs n = some (false, n) := by
  have htargets := @Endpoint.target_wanted profile deviceId ins outs hins houts
  have hloop := @Endpoint.writeChanged_same (sregDynamicRead st n) (n.world []) _ htargets h.ready
    hsame false
  rw [configureEndpoint2, writeChanged_world htargets false [], hloop]
  rfl

/-- Otherwise they are written, and the module boots. -/
theorem configure_changed (h : NodeOk st n) (hins : ins.length ≤ 8) (houts : outs.length ≤ 8)
    (hdiff : ∃ p ∈ wanted profile deviceId ins outs, regText p.1 n.vals ≠ p.2) :
    ∃ w, Endpoint.Wrote (wanted profile deviceId ins outs) false (n.world []) true w ∧
      configureEndpoint2 st profile deviceId ins outs n =
        some (true, ({ n with module := w.module } : Node).reboot st) := by
  have htargets := @Endpoint.target_wanted profile deviceId ins outs hins houts
  obtain ⟨flag, w, hloop, hw⟩ := @Endpoint.writeChanged_eq (sregDynamicRead st n) (n.world []) _
    htargets target_ids h.ready false
  obtain rfl : flag = true := hw.flag.mpr (.inr hdiff)
  refine ⟨w, hw, ?_⟩
  rw [configureEndpoint2, writeChanged_world htargets false [], hloop]
  dsimp only [Option.map_some, Option.bind_some]
  rw [if_pos rfl, reset_eq (h.withModule hw.ready)]
  rfl

/-- A number is read from the text of its register. -/
theorem sregU32_regText {id : ℕ} {v v' : Vals} (h : regText id v' = regText id v) :
    sregU32 id v' = sregU32 id v := by
  rw [regText, regText] at h
  rw [sregU32, sregU32]
  cases hr : find id with
  | none => rfl
  | some r =>
    rw [hr] at h
    exact congrArg strtoul h

/-- What the module is after it was configured and has booted. -/
structure Configured (st : Stack) (profile deviceId : UInt16) (ins outs : List UInt16)
    (n n' : Node) : Prop where
  ok : NodeOk st n'
  role : n'.storedRole = n.storedRole
  off : n'.pan = none
  values : ∀ p ∈ wanted profile deviceId ins outs, regText p.1 n'.vals = p.2
  described : Described n'.module.ep2 profile deviceId ins outs
  flags : sregU32 0x0F n'.vals = sregU32 0x0F n.vals

theorem configured_boot (h : NodeOk st n) (hins : ins.length ≤ 8) (houts : outs.length ≤ 8)
    {w : Endpoint.World}
    (hw : Endpoint.Wrote (wanted profile deviceId ins outs) false (n.world []) true w) :
    Configured st profile deviceId ins outs n
      (({ n with module := w.module } : Node).reboot st) := by
  have htargets := @Endpoint.target_wanted profile deviceId ins outs hins houts
  have hok := (h.withModule hw.ready).reboot n.storedRole
  have hmodule : (({ n with module := w.module } : Node).reboot st).module =
      Endpoint.boot w.module.store.saved := by
    rw [Node.reboot, powerOn]
    split_ifs <;> rfl
  have hvalues : ∀ p ∈ wanted profile deviceId ins outs,
      regText p.1 (Endpoint.boot w.module.store.saved).store.val = p.2 := fun p hp =>
    (Endpoint.regText_boot hw.ready (htargets p hp)).trans (hw.values p hp)
  have hflags : regText 0x0F (Endpoint.boot w.module.store.saved).store.val =
      regText 0x0F n.vals := by
    have hst := Endpoint.reach_store hw.ready.reach
    have hframe : regText 0x0F w.module.store.val = regText 0x0F n.vals :=
      hw.frame 0x0F (show 0x0F ∉ [0x48, 0x49, 0x4B, 0x4C] by decide)
    have hboot : (Endpoint.boot w.module.store.saved).store.val s0f = w.module.store.val s0f :=
      (mirrors hst).reboot (store_ok hst) (by decide)
    exact (show regText 0x0F (Endpoint.boot w.module.store.saved).store.val = _ from hboot).trans
      hframe
  refine ⟨hok, ?_, ?_, ?_, ?_, ?_⟩
  · rw [Node.reboot, powerOn]
    split_ifs with hrole
    · exact hrole.symm
    · rfl
  · rw [Node.reboot, powerOn]
    split_ifs <;> rfl
  · rwa [Node.vals, hmodule]
  · rw [hmodule]
    exact Endpoint.described_build hins houts hvalues _
  · rw [Node.vals, hmodule]
    exact sregU32_regText hflags

/-! ## Waiting for the network -/

theorem NodeOk.networkUp (h : NodeOk st n) (p : Pan) : NodeOk st (n.networkUp p).1 := by
  refine ⟨h.ready, fun q hq => ?_, h.fresh⟩
  rw [← Option.some.inj hq]
  rfl

/-- The first poll that finds the module in a network ends the wait. -/
theorem waitNetwork_eq (h : NodeOk st n) (hoff : n.pan = none) (polls : List (Option Pan)) :
    waitNetwork st polls n =
      (polls.findSome? id).map fun p => (infoOf p n.vals, (n.networkUp p).1) := by
  induction polls with
  | nil => rfl
  | cons back polls ih =>
    cases back with
    | none =>
      rw [waitNetwork, Option.elim_none, network_eq h, hoff]
      exact ih
    | some p =>
      rw [waitNetwork, Option.elim_some, network_eq (h.networkUp p)]
      rfl

/-! ## The descriptor while a network is set up -/

/-- The descriptor is that of the registers: they were not written since the module booted. -/
def Built (n : Node) : Prop :=
  ∃ v, n.module.ep2 = Endpoint.ep2Build v .zero ∧
    ∀ e ∈ Endpoint.descRegs, regText e.1 v = regText e.1 n.vals

theorem built_powerOn (role : Role) (saved : Settings) : Built (powerOn st role saved) := by
  unfold powerOn
  split_ifs <;> exact ⟨_, rfl, fun _ _ => rfl⟩

theorem Built.put (h : Built n) {r : Reg} (hr : ∀ e ∈ Endpoint.descRegs, e.1 ≠ r.info.id)
    (new : Text) : Built (n.put r new) := by
  obtain ⟨v, hep, hv⟩ := h
  refine ⟨v, hep, fun e he => (hv e he).trans ?_⟩
  exact (Endpoint.regText_update (hr e he) n.vals new).symm

theorem Built.prepared (h : Built n) (net : NetworkOptions) (want : List Text) :
    Built (n.prepared st net want) := by
  unfold Node.prepared Node.base
  split_ifs
  · exact built_powerOn _ _
  · exact built_powerOn _ _
  · exact built_powerOn _ _
  · exact h

/-- With the values in the registers, it is the descriptor that the host asks for. -/
theorem Built.described (h : Built n) (hins : ins.length ≤ 8) (houts : outs.length ≤ 8)
    (hsame : ∀ p ∈ wanted profile deviceId ins outs, regText p.1 n.vals = p.2) :
    Described n.module.ep2 profile deviceId ins outs := by
  obtain ⟨v, hep, hv⟩ := h
  rw [hep]
  refine Endpoint.described_build hins houts (fun p hp => ?_) _
  have hid : p.1 ∈ Endpoint.descRegs.map Prod.fst := List.mem_map_of_mem hp
  obtain ⟨e, he, heq⟩ := List.mem_map.mp hid
  rw [← heq, hv e he, heq]
  exact hsame p hp

variable {net : NetworkOptions} {d : DeviceType} {flags : UInt16} {info : Option NetworkInfo}

/-- The host's writes are not on the registers of the descriptor. -/
theorem Built.written (h : Built n) (net : NetworkOptions) (d : DeviceType) :
    Built ((n.applied net).typed d) := by
  have hoptioned : Built (n.optioned net) :=
    ((h.put (r := s00) (by decide) _).put (r := s02) (by decide) _).put (by decide) _
  have happlied : Built (n.applied net) := hoptioned.put (by decide) _
  exact (happlied.put (r := s0a) (by decide) _).put (by decide) _

theorem Built.idle (h : Built n) (st : Stack) : Built (n.idle st) := by
  unfold Node.idle
  split_ifs
  · exact built_powerOn _ _
  · exact h

/-- `ensure_joined` leaves the descriptor of the registers. -/
theorem joined_built (h : NodeOk st n) (hb : Built n)
    (hrun : ensureJoined st net d flags n = some (info, n')) : Built n' := by
  have hok := @NodeOk.prepared st n net (joinedRoles d) h
  have hflagged : Built ((n.prepared st net (joinedRoles d)).flagged flags) :=
    (@Built.prepared st n hb net (joinedRoles d)).put (by decide) _
  rw [ensureJoined] at hrun
  cases hkept : n.kept st net (joinedRoles d) with
  | some p =>
    rw [ensure_kept h flags hkept] at hrun
    cases hrun
    exact hflagged
  | none =>
    rw [ensure_fresh h flags hkept] at hrun
    have hfok := (flagged_eq hok flags).2
    by_cases hp : password ((n.prepared st net (joinedRoles d)).flagged flags).module.store =
      hostPassword
    · obtain ⟨hset, hwok, -⟩ := (@setsUp_joined st net d).right hfok hp
      rw [hset, Option.bind_some] at hrun
      obtain ⟨-, -, p, -, hr⟩ := (started_eq (fun _ => rfl) hwok (join_eq hwok rfl rfl) _).mp hrun
      cases hr
      exact (hflagged.written net d).idle st
    · rw [(@setsUp_joined st net d).wrong hfok hp] at hrun
      cases hrun

/-- The flags are in the register. -/
theorem sregU32_flagged (n : Node) (flags : UInt16) :
    sregU32 0x0F (n.flagged flags).vals = flags.toNat :=
  (word_register (r := s0f) rfl (by decide) (UInt16.toNat_lt flags)).2 _ vals_put_self

/-- `ensure_joined` writes the flags. -/
theorem joined_flags (h : NodeOk st n)
    (hrun : ensureJoined st net d flags n = some (info, n')) :
    sregU32 0x0F n'.vals = flags.toNat := by
  cases hkept : n.kept st net (joinedRoles d) with
  | some p =>
    rw [ensureJoined, ensure_kept h flags hkept] at hrun
    cases hrun
    exact sregU32_flagged _ flags
  | none =>
    have hfresh := joined_fresh h net d flags hkept
    have hcan : CanStart (n.prepared st net (joinedRoles d)) := by
      by_contra hno
      rw [hfresh.fails hno] at hrun
      cases hrun
    obtain ⟨n₁, z, -, -, -, hflags, -, -, hiff⟩ := hfresh.done hcan
    obtain ⟨p, -, hr⟩ := (hiff _).mp hrun
    cases hr
    exact hflags

/-! ## Starting -/

/-- A module that serves the script: it is in the network, endpoint 2 is the one of the script, and
so are the flags of the prompts. -/
structure Serving (st : Stack) (d : DeviceType) (flags profile deviceId : UInt16)
    (ins outs : List UInt16) (i : NetworkInfo) (n : Node) : Prop where
  held : Held st (joinedRoles d) (some i) n
  values : ∀ p ∈ wanted profile deviceId ins outs, regText p.1 n.vals = p.2
  described : Described n.module.ep2 profile deviceId ins outs
  flags : sregU32 0x0F n.vals = flags.toNat

variable {polls : List (Option Pan)} {i : NetworkInfo}

/-- What `configure_endpoint2` and the polls come to, behind `ensure_joined`. -/
theorem startDevice_same (h : NodeOk st n') (hins : ins.length ≤ 8) (houts : outs.length ≤ 8)
    (hrun : ensureJoined st net d flags n = some (info, n'))
    (hsame : ∀ p ∈ wanted profile deviceId ins outs, regText p.1 n'.vals = p.2) :
    startDevice st net d flags profile deviceId ins outs polls n =
      info.map fun i => (i, n') := by
  rw [startDevice, hrun]
  simp only [Option.bind_eq_bind, Option.bind_some, configure_same h hins houts hsame,
    Bool.false_eq_true, if_false]

theorem startDevice_changed (h : NodeOk st n') (hins : ins.length ≤ 8) (houts : outs.length ≤ 8)
    (hrun : ensureJoined st net d flags n = some (info, n'))
    (hdiff : ∃ p ∈ wanted profile deviceId ins outs, regText p.1 n'.vals ≠ p.2) :
    ∃ n'', Configured st profile deviceId ins outs n' n'' ∧
      startDevice st net d flags profile deviceId ins outs polls n =
        (polls.findSome? id).map fun p => (infoOf p n''.vals, (n''.networkUp p).1) := by
  obtain ⟨w, hw, hconfigure⟩ := configure_changed h hins houts hdiff
  have hboot := configured_boot h hins houts hw
  refine ⟨_, hboot, ?_⟩
  rw [startDevice, hrun, ← waitNetwork_eq hboot.ok hboot.off]
  simp only [Option.bind_eq_bind, Option.bind_some, hconfigure, if_true]

theorem Configured.serving (h : Configured st profile deviceId ins outs n n')
    (hflags : sregU32 0x0F n.vals = flags.toNat) {p : Pan} (hp : p.role = d.role) :
    Serving st d flags profile deviceId ins outs (infoOf p n'.vals) (n'.networkUp p).1 where
  held := by
    refine ⟨h.ok.networkUp p, p, rfl, ?_, rfl⟩
    rw [hp]
    exact joinedRoles_role d _
  values := h.values
  described := h.described
  flags := h.flags.trans hflags

/-- A `start` that returns leaves a module that serves the script. -/
theorem startDevice_serving (h : NodeOk st n) (hb : Built n) (hst : Honours st)
    (hins : ins.length ≤ 8) (houts : outs.length ≤ 8)
    (hback : ∀ p, some p ∈ polls → p.role = d.role)
    (hstart : startDevice st net d flags profile deviceId ins outs polls n = some (i, n')) :
    Serving st d flags profile deviceId ins outs i n' := by
  cases hrun : ensureJoined st net d flags n with
  | none =>
    rw [startDevice, hrun] at hstart
    cases hstart
  | some r =>
    obtain ⟨info, n₁⟩ := r
    have hheld := joined_held h hst hrun
    have hflags := joined_flags h hrun
    by_cases hsame : ∀ p ∈ wanted profile deviceId ins outs, regText p.1 n₁.vals = p.2
    · rw [startDevice_same hheld.ok hins houts hrun hsame] at hstart
      obtain ⟨j, rfl, hj⟩ := Option.map_eq_some_iff.mp hstart
      cases hj
      exact ⟨hheld, hsame, (joined_built h hb hrun).described hins houts hsame, hflags⟩
    · push Not at hsame
      obtain ⟨n₂, hconf, heq⟩ := @startDevice_changed st n n₁ profile deviceId ins outs net d flags
        info polls hheld.ok hins houts hrun hsame
      rw [heq] at hstart
      obtain ⟨p, hp, hr⟩ := Option.map_eq_some_iff.mp hstart
      obtain ⟨back, hmem, hback'⟩ := List.exists_of_findSome?_eq_some hp
      obtain rfl : back = some p := hback'
      cases hr
      exact hconf.serving hflags (hback p hmem)

/-- A module that serves the script is left as it is. -/
theorem Serving.again (h : Serving st d flags profile deviceId ins outs i n)
    (hins : ins.length ≤ 8) (houts : outs.length ≤ 8) (hreset : net.reset = false) :
    startDevice st net d flags profile deviceId ins outs polls n =
        some (i, n.flagged flags) ∧
      Serving st d flags profile deviceId ins outs i (n.flagged flags) := by
  have hrun : ensureJoined st net d flags n = some (some i, n.flagged flags) :=
    h.held.again flags hreset
  have hvalues : ∀ p ∈ wanted profile deviceId ins outs,
      regText p.1 (n.flagged flags).vals = p.2 := by
    intro p hp
    have hids : ∀ id ∈ [0x48, 0x49, 0x4B, 0x4C], id ≠ s0f.info.id := by decide
    have hne : p.1 ≠ s0f.info.id :=
      hids p.1 (show p.1 ∈ (wanted profile deviceId ins outs).map Prod.fst from
        List.mem_map_of_mem hp)
    exact (Endpoint.regText_update hne n.vals _).trans (h.values p hp)
  have hok := (flagged_eq h.held.ok flags).2
  refine ⟨?_, h.held.flagged flags, hvalues, h.described, sregU32_flagged n flags⟩
  rw [startDevice_same hok hins houts hrun hvalues]
  rfl

/-- Starts one after the other, without a factory reset. -/
theorem Serving.runs (h : Serving st d flags profile deviceId ins outs i n)
    (hins : ins.length ≤ 8) (houts : outs.length ≤ 8)
    (runs : List (NetworkOptions × List (Option Pan))) (hreset : ∀ r ∈ runs, r.1.reset = false) :
    runs.foldlM (fun s r => startDevice st r.1 d flags profile deviceId ins outs r.2 s.2) (i, n) =
      some (i, runs.foldl (fun n _ => n.flagged flags) n) := by
  induction runs generalizing n with
  | nil => rfl
  | cons r runs ih =>
    obtain ⟨hrun, hserving⟩ := @Serving.again st n profile deviceId ins outs r.1 d flags r.2 i h
      hins houts (hreset r List.mem_cons_self)
    rw [List.foldlM_cons, hrun]
    exact ih hserving fun s hs => hreset s (List.mem_cons_of_mem _ hs)

/-- `start` returns if the network is set up and ZBOSS comes back. -/
theorem startDevice_returns (h : NodeOk st n) (hst : Honours st) (hins : ins.length ≤ 8)
    (houts : outs.length ≤ 8) (hrun : (ensureJoined st net d flags n).isSome)
    (hback : ∃ p, some p ∈ polls) :
    (startDevice st net d flags profile deviceId ins outs polls n).isSome := by
  obtain ⟨⟨info, n₁⟩, hrun⟩ := Option.isSome_iff_exists.mp hrun
  have hheld := joined_held h hst hrun
  by_cases hsame : ∀ p ∈ wanted profile deviceId ins outs, regText p.1 n₁.vals = p.2
  · obtain ⟨p, -, -, rfl⟩ := hheld.held
    rw [startDevice_same hheld.ok hins houts hrun hsame]
    rfl
  · push Not at hsame
    obtain ⟨n₂, -, heq⟩ := @startDevice_changed st n n₁ profile deviceId ins outs net d flags
      info polls hheld.ok hins houts hrun hsame
    obtain ⟨p, hp⟩ := hback
    rw [heq, Option.isSome_map, List.findSome?_isSome_iff]
    exact ⟨some p, hp, rfl⟩

/-- **Starting a device.** A `start` that returns has put the module into the network that it
returns, with the endpoint and the flags of the script, and later ones without a factory reset
return the same and write the flags only. It returns if the network can be set up and ZBOSS comes
back into it. -/
theorem start_ready (h : NodeOk st n) (hb : Built n) (hst : Honours st) (net : NetworkOptions)
    (d : DeviceType) (flags profile deviceId : UInt16) (hins : ins.length ≤ 8)
    (houts : outs.length ≤ 8) (hback : ∀ p, some p ∈ polls → p.role = d.role) :
    (∀ i n', startDevice st net d flags profile deviceId ins outs polls n = some (i, n') →
      Serving st d flags profile deviceId ins outs i n' ∧
        ∀ runs : List (NetworkOptions × List (Option Pan)), (∀ r ∈ runs, r.1.reset = false) →
          runs.foldlM (fun s r => startDevice st r.1 d flags profile deviceId ins outs r.2 s.2)
            (i, n') = some (i, runs.foldl (fun n _ => n.flagged flags) n')) ∧
    ((ensureJoined st net d flags n).isSome → (∃ p, some p ∈ polls) →
      (startDevice st net d flags profile deviceId ins outs polls n).isSome) := by
  refine ⟨fun i n' hstart => ?_, startDevice_returns h hst hins houts⟩
  have hserving := startDevice_serving h hb hst hins houts hback hstart
  exact ⟨hserving, hserving.runs hins houts⟩

end

/-- A bulb on a module that has just been flashed, which is back in the network at the second poll,
and two later starts with other options. -/
theorem start_ready_blank : ∃ i n',
    bulbStart formingStack channelTwenty [none, some routerPan] blank = some (i, n') ∧
      Described n'.module.ep2 0x0104 0x0100 [0, 3, 6] [] ∧
      [(⟨none, some 7, none, false, false⟩, []), (⟨none, none, none, true, false⟩, [none])].foldlM
        (fun s r => bulbStart formingStack r.1 r.2 s.2) (i, n') =
          some (i, (n'.flagged s0fApp).flagged s0fApp) := by
  have hback : ∀ p, some p ∈ [none, some routerPan] → p.role = DeviceType.router.role := by
    intro p hp
    obtain rfl : p = routerPan := by simpa using hp
    rfl
  have hready := @start_ready formingStack blank [clusterBasic, clusterIdentify, Zcl.clusterOnOff]
    [] [none, some routerPan] blank_ok (built_powerOn _ _) honours_forming channelTwenty .router
    s0fApp Zcl.profileHa 0x0100 (by decide) (by decide) hback
  have hjoined : (ensureJoined formingStack channelTwenty .router s0fApp blank).isSome := by
    obtain ⟨n, z, -, -, -, -, -, hasks, hiff⟩ :=
      (joined_fresh blank_ok channelTwenty .router s0fApp rfl).done blank_canStart
    have hrole : z.role = some .zr := hasks.started
    have hother : ¬z.role = some .zc := by
      rw [hrole]
      decide
    have hrun := (hiff _).mpr ⟨routerPan, (if_neg hother).trans (if_pos hrole), rfl⟩
    rw [hrun]
    rfl
  obtain ⟨⟨i, n'⟩, hstart⟩ := Option.isSome_iff_exists.mp
    (hready.2 hjoined ⟨routerPan, List.mem_cons_of_mem _ List.mem_cons_self⟩)
  obtain ⟨hserving, hruns⟩ := hready.1 i n' hstart
  exact ⟨i, n', hstart, hserving.described, hruns _ (by simp)⟩

end ZbAt.Network
