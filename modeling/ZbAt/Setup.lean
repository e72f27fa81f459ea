import ZbAt.NetworkProof
import ZbAt.ReadBack

/-!
# Setting up a network (net.py)

The role scripts set a module up before they use it: unless it is in a network with the role they
want, they leave that network, write the options to the registers, and form or join another one.

* `NetworkOptions` — the options, with `apply`.
* `prepare` — `_prepare`: the network is kept if it has the wanted role.
* `ensureCoordinator`, `ensureJoined` — the two procedures, over the commands of a `Node`.
* `Applied` — the registers as the options ask for them.
-/

namespace ZbAt.Network

open Text Sreg Uart Report Host Zbc
open ReadBack (passwordPart setCommand)

/-! ## Registers (protocol.py) -/

/-- `sreg_set` -/
def sregSet (st : Stack) (reg : ℕ) (value : Text) (password : Option Text) (n : Node) :
    Option Node := (cmd st (setCommand reg value password) n).map Prod.snd

/-- `f"ATS{reg:02X}{bit:X}={1 if on else 0}" + …` -/
def bitCommand (reg bit : ℕ) (on : Bool) (password : Option Text) : Text :=
  ascii "ATS" ++ (hexText 2 reg ++ (hexText 1 bit ++ (ascii "=" ++
    (ascii (if on then "1" else "0") ++ passwordPart password))))

/-- `sreg_bit_set` -/
def sregBitSet (st : Stack) (reg bit : ℕ) (on : Bool) (password : Option Text) (n : Node) :
    Option Node := (cmd st (bitCommand reg bit on password) n).map Prod.snd

/-- `PASSWORD` -/
def hostPassword : Text := ascii "password"

/-! ## The options (net.py) -/

/-- The channels that `--channel` takes. -/
abbrev Channel := { c : ℕ // 11 ≤ c ∧ c ≤ 26 }

/-- An extended PAN ID of 16 hex digits. -/
abbrev EpidText := { t : Text // t.length = 16 ∧ ∀ c ∈ t, isxdigit c = true }

/-- `NetworkOptions` -/
structure NetworkOptions where
  channel : Option Channel
  pan : Option UInt16
  epid : Option EpidText
  legacy : Bool
  reset : Bool

/-- The channel mask that `apply` writes. -/
def NetworkOptions.mask (net : NetworkOptions) : ℕ :=
  net.channel.elim 0xFFFF fun c => 1 <<< (c.1 - 11)

/-- `self.pan or 0` -/
def NetworkOptions.panId (net : NetworkOptions) : UInt16 := net.pan.getD 0

/-- `(self.epid or "0" * 16).upper()` -/
def NetworkOptions.epidText (net : NetworkOptions) : Text :=
  (net.epid.elim (List.replicate 16 48) Subtype.val).map toupper

/-- `apply` -/
def NetworkOptions.apply (st : Stack) (net : NetworkOptions) (n : Node) : Option Node := do
  let n ← sregSet st 0x00 (hexText 4 net.mask) none n
  let n ← sregSet st 0x02 (hexText 4 net.panId.toNat) none n
  let n ← sregSet st 0x03 net.epidText none n
  sregBitSet st 0x0A s0aNoTclkRequest net.legacy (some hostPassword) n

/-! ## The procedures -/

/-- `ROUTER` and `END_DEVICE` -/
inductive DeviceType
  | router | endDevice
  deriving DecidableEq

/-- `_set_device_type` -/
def setDeviceType (st : Stack) (d : DeviceType) (n : Node) : Option Node := do
  let n ← sregBitSet st 0x0A s0aTypeHigh (d == .endDevice) (some hostPassword) n
  sregBitSet st 0x0A s0aTypeLow false (some hostPassword) n

/-- `info.role in want_role` -/
def isWanted (wantRole : List Text) (role : Text) : Bool := decide (role ∈ wantRole)

/-- `_prepare` -/
def prepare (st : Stack) (net : NetworkOptions) (wantRole : List Text) (n : Node) :
    Option (Option NetworkInfo × Node) := do
  let n ← waitReady st n
  let n ← (if net.reset then factoryReset st n else some n)
  let (info, n) ← network st n
  match info with
  | some i =>
    if isWanted wantRole i.role then return (some i, n)
    else return (none, ← leave st n)
  | none => return (none, n)

/-- Both procedures: `setUp` writes the options, `start` forms or joins. -/
def ensure (st : Stack) (net : NetworkOptions) (wantRole : List Text) (promptFlags : UInt16)
    (setUp : Node → Option Node) (start : Node → Option (Prompt × Node)) (n : Node) :
    Option (Option NetworkInfo × Node) := do
  let (info, n) ← prepare st net wantRole n
  let n ← sregSet st 0x0F (hexText 4 promptFlags.toNat) none n
  match info with
  | some i => return (some i, n)
  | none =>
    let n ← setUp n
    let (_, n) ← start n
    network st n

/-- `ensure_coordinator` -/
def ensureCoordinator (st : Stack) (net : NetworkOptions) (promptFlags : UInt16) (n : Node) :
    Option (Option NetworkInfo × Node) :=
  ensure st net [ascii "COO"] promptFlags (net.apply st) (form st) n

/-- The roles that `ensure_joined` keeps. -/
def joinedRoles (d : DeviceType) : List Text :=
  if d = .router then [ascii "FFD"] else [ascii "ZED", ascii "SED", ascii "MED"]

/-- `ensure_joined` -/
def ensureJoined (st : Stack) (net : NetworkOptions) (d : DeviceType) (promptFlags : UInt16)
    (n : Node) : Option (Option NetworkInfo × Node) :=
  ensure st net (joinedRoles d) promptFlags
    (fun n => (net.apply st n).bind (setDeviceType st d)) (join st) n

/-! ## What they are for -/

/-- The extended PAN ID that the options ask for, as ZBOSS gets it; zeros ask for none. -/
def NetworkOptions.epid? (net : NetworkOptions) : Option (List UInt8) :=
  if net.epidText = List.replicate 16 48 then none
  else (hexBytes net.epidText).map List.reverse

/-- The registers are as the options ask for. -/
structure Applied (net : NetworkOptions) (v : Vals) : Prop where
  channels : sregU32 0x00 v = net.mask
  panId : sregU32 0x02 v = net.panId.toNat
  epid : HexRev.preferredEpid v = net.epid?
  legacy : sregBit 0x0A s0aNoTclkRequest v = net.legacy

/-- The setup of the stack that the options ask for. -/
structure AsksFor (net : NetworkOptions) (role : Role) (base z : Zboss) : Prop where
  started : z.role = some role
  channels : z.channelMask = net.mask.toUInt32 <<< 11
  panId : z.panId = if role = .zc ∧ net.panId ≠ 0 then some net.panId else base.panId
  epid : z.extendedPanId = (net.epid?).elim base.extendedPanId some
  legacy : z.legacyDeviceSupport = (role == .zc || net.legacy)

end ZbAt.Network
