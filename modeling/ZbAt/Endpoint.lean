import ZbAt.EtrxEcho
import ZbAt.SregPersist
import ZbAt.Xcast

/-!
# The descriptor of endpoint 2 (zb_msg.c, net.py)

The module builds the simple descriptor of endpoint 2 from `S48`, `S49`, `S4A`, `S4B` and `S4C`
when it boots, and never again. The host writes the registers that differ from what it wants, and
resets the module if it wrote one.

* `ep2Build` — `ep2_build`.
* `Module`, `machine` — the registers and the descriptor, over commands, factory resets and
  reboots.
* `serve` — a command line executed: the module after it, and the lines printed.
* `configureEndpoint2` — `configure_endpoint2`, over the bytes that the module answers with.
* `Described` — the descriptor is the one that the host asks for.
-/

namespace ZbAt.Endpoint

open Text Uart Sreg Xcast Host

/-! ## The descriptor -/

/-- `ZB_AF_SIMPLE_DESC_TYPE(8, 8)` -/
structure SimpleDesc where
  endpoint : UInt8
  appProfileId : UInt16
  appDeviceId : UInt16
  appDeviceVersion : ℕ
  appInputClusterCount : UInt8
  appOutputClusterCount : UInt8
  appClusterList : List UInt16

/-- `ep2_desc` and the profile of `ep2`. -/
structure Ep2 where
  desc : SimpleDesc
  profileId : UInt16

/-- `EP_APP` -/
def epApp : UInt8 := 2

/-- `TEXT_PROFILE` -/
def textProfile : UInt16 := 0xC091

/-- The static values before `ep2_build`. -/
def Ep2.zero : Ep2 := ⟨⟨0, 0, 0, 0, 0, 0, List.replicate 16 0⟩, textProfile⟩

/-- `memcpy(&dst[at], src, …)` -/
def memcpy (dst : List UInt16) (start : ℕ) (src : List UInt16) : List UInt16 :=
  dst.take start ++ src ++ dst.drop (start + src.length)

/-- `ep2_build` -/
def ep2Build (v : Vals) (e : Ep2) : Ep2 :=
  let ins := sregClusters 0x4B maxClusters v
  let outs := sregClusters 0x4C maxClusters v
  let profile := (sregU32 0x48 v).toUInt16
  { desc := {
      endpoint := epApp
      appProfileId := profile
      appDeviceId := (sregU32 0x49 v).toUInt16
      appDeviceVersion := sregU32 0x4A v &&& 0x0F
      appInputClusterCount := ins.length.toUInt8
      appOutputClusterCount := outs.length.toUInt8
      appClusterList := memcpy (memcpy e.desc.appClusterList 0 ins) ins.length outs }
    profileId := profile }

/-- The input clusters in the list. -/
def SimpleDesc.inputs (d : SimpleDesc) : List UInt16 :=
  d.appClusterList.take d.appInputClusterCount.toNat

/-- The output clusters stand behind the input clusters. -/
def SimpleDesc.outputs (d : SimpleDesc) : List UInt16 :=
  (d.appClusterList.drop d.appInputClusterCount.toNat).take d.appOutputClusterCount.toNat

/-! ## The module -/

structure Module where
  store : Store
  ep2 : Ep2

/-- `main`: `sreg_init`, then `zbm_init`. -/
def boot (saved : Settings) : Module :=
  ⟨sregInit saved, ep2Build (sregInit saved).val .zero⟩

def step (m : Module) : Sreg.Action → Module
  | .reboot => boot m.store.saved
  | a => { m with store := Sreg.step m.store a }

/-- A device that boots with no saved settings. -/
def machine : Machine Module Sreg.Action := ⟨(· = boot []), fun m a => some (step m a)⟩

/-- `at_print_result`: the lines printed. -/
def printResult (result : ℕ) (v : Vals) : List Text :=
  if result = atOk ∧ !sregBit 0x0E 1 v then [ascii "OK"]
  else if result > 0 ∧ !sregBit 0x0E 0 v then [ascii "ERROR:" ++ hexText 2 result]
  else []

/-- `cmd_at` -/
def cmdAt (args : Text) (m : Module) : Module × List Text :=
  (m, printResult (if args ≠ [] then atErrUnknownCmd else atOk) m.store.val)

/-- `cmd_atz`: the result is printed before the reboot. -/
def cmdAtz (args : Text) (m : Module) : Module × List Text :=
  if args ≠ [] then (m, printResult atErrInvalidParam m.store.val)
  else (boot m.store.saved, printResult atOk m.store.val)

/-- `execute` and `at_print_result`: the module after a command line, and the lines printed. The
handlers that send data or run the stack are left out. `dyn` is `sreg_dynamic_read`. -/
def serve (dyn : ℕ → Text) (line : Text) (m : Module) : Option (Module × List Text) :=
  match dispatch line with
  | .result code => some (m, printResult code m.store.val)
  | .sregAtCommand arg =>
    let o := sregAtCommand dyn (cstr arg) m.store
    some ({ m with store := o.store }, o.printed ++ printResult o.result o.store.val)
  | .handler .at_ args => some (cmdAt args m)
  | .handler .atz args => some (cmdAtz args m)
  | .handler .tokdump args =>
    let o := sregCmdTokdump dyn (cstr args) m.store
    some ({ m with store := o.store }, o.printed ++ printResult o.result o.store.val)
  | .handler _ _ => none

/-! ## The host (protocol.py, net.py) -/

/-- The module, and the commands that the host sent to it. -/
structure World where
  module : Module
  sent : List Text

/-- `cmd`: the lines of the response, or nothing when it raises an error. The module echoes the
command before it executes it. -/
def cmd (dyn : ℕ → Text) (command : Text) (w : World) : Option (List Text × World) :=
  (serve dyn command w.module).bind fun (m, lines) =>
    let echo := if w.module.store.echo then command ++ [0x0D] else []
    match outcome command true (echo ++ responses lines) with
    | .returned values => some (values, ⟨m, w.sent ++ [command]⟩)
    | _ => none

/-- `f"ATS{reg:02X}?"` -/
def readCommand (reg : ℕ) : Text := ascii "ATS" ++ (hexText 2 reg ++ ascii "?")

/-- `f"ATS{reg:02X}={value}"` -/
def writeCommand (reg : ℕ) (value : Text) : Text :=
  ascii "ATS" ++ (hexText 2 reg ++ (ascii "=" ++ value))

/-- `sreg_get` -/
def sregGet (dyn : ℕ → Text) (reg : ℕ) (w : World) : Option (Text × World) :=
  (cmd dyn (readCommand reg) w).map fun (lines, w) =>
    let values := lines.filter fun line => (parsePrompt line true).isNone
    (values.getLast?.getD [], w)

/-- `sreg_set`, without a password -/
def sregSet (dyn : ℕ → Text) (reg : ℕ) (value : Text) (w : World) : Option World :=
  (cmd dyn (writeCommand reg value) w).map Prod.snd

/-- `reset`: the module answers the first `AT` of `wait_ready`, or none of them. -/
def reset (dyn : ℕ → Text) (w : World) : Option World :=
  (cmd dyn (ascii "ATZ") w).bind fun (_, w) => (cmd dyn (ascii "AT") w).map Prod.snd

/-- `wanted` -/
def wanted (profile deviceId : UInt16) (ins outs : List UInt16) : List (ℕ × Text) :=
  [(0x48, hexText 4 profile.toNat), (0x49, hexText 4 deviceId.toNat), (0x4B, idsText ins),
    (0x4C, idsText outs)]

/-- The loop of `configure_endpoint2`. -/
def writeChanged (dyn : ℕ → Text) : List (ℕ × Text) → Bool → World → Option (Bool × World)
  | [], changed, w => some (changed, w)
  | (reg, value) :: rest, changed, w =>
    (sregGet dyn reg w).bind fun (old, w) =>
      if old ≠ value then (sregSet dyn reg value w).bind (writeChanged dyn rest true)
      else writeChanged dyn rest changed w

/-- `configure_endpoint2`, or nothing when it raises an error. -/
def configureEndpoint2 (dyn : ℕ → Text) (profile deviceId : UInt16) (ins outs : List UInt16)
    (w : World) : Option (Bool × World) :=
  (writeChanged dyn (wanted profile deviceId ins outs) false w).bind fun (changed, w) =>
    if changed then (reset dyn w).map fun w => (true, w) else some (false, w)

/-- The endpoint has this profile and device ID, and exactly these clusters. -/
def Described (e : Ep2) (profile deviceId : UInt16) (ins outs : List UInt16) : Prop :=
  e.desc.appProfileId = profile ∧ e.profileId = profile ∧ e.desc.appDeviceId = deviceId ∧
    e.desc.inputs = ins ∧ e.desc.outputs = outs

/-- The text that a register holds. -/
def regText (id : ℕ) (v : Vals) : Text := (find id).elim [] v

end ZbAt.Endpoint
