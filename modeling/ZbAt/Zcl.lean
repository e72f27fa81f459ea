import Mathlib.Data.UInt

/-!
# ZCL frames of the host applications (zcl.py)

* `ZclFrame`, `parse` — a frame, and the bytes that are one.
* `onOffCommand`, `defaultResponse`, `readOnOffResponse` — the frames that the applications send.
* `parseDefaultResponse` — the command that a Default Response answers, and its status.
-/

namespace ZbAt.Zcl

/-- `PROFILE_HA` -/
def profileHa : UInt16 := 0x0104

/-- `CLUSTER_ON_OFF` -/
def clusterOnOff : UInt16 := 0x0006

def cmdOff : UInt8 := 0x00
def cmdOn : UInt8 := 0x01
def cmdToggle : UInt8 := 0x02

def readAttributes : UInt8 := 0x00
def readAttributesResponse : UInt8 := 0x01
def defaultResponseCommand : UInt8 := 0x0B

def typeBoolean : UInt8 := 0x10
def statusSuccess : UInt8 := 0x00

def fcClusterSpecific : UInt8 := 0x01
def fcManufacturerSpecific : UInt8 := 0x04
def fcServerToClient : UInt8 := 0x08
def fcDisableDefaultResponse : UInt8 := 0x10

structure ZclFrame where
  clusterSpecific : Bool
  serverToClient : Bool
  disableDefaultResponse : Bool
  seq : UInt8
  command : UInt8
  payload : List UInt8
  deriving DecidableEq

/-- `parse`, or nothing when it raises `ValueError`. -/
def parse : List UInt8 → Option ZclFrame
  | fc :: seq :: command :: payload =>
    if fc &&& fcManufacturerSpecific ≠ 0 then none
    else some ⟨fc &&& fcClusterSpecific ≠ 0, fc &&& fcServerToClient ≠ 0,
      fc &&& fcDisableDefaultResponse ≠ 0, seq, command, payload⟩
  | _ => none

/-- `on_off_command` -/
def onOffCommand (seq command : UInt8) : List UInt8 := [fcClusterSpecific, seq, command]

/-- `default_response` -/
def defaultResponse (seq command status : UInt8) : List UInt8 :=
  [fcServerToClient ||| fcDisableDefaultResponse, seq, defaultResponseCommand, command, status]

/-- `read_on_off_response` -/
def readOnOffResponse (seq : UInt8) (on : Bool) : List UInt8 :=
  [fcServerToClient ||| fcDisableDefaultResponse, seq, readAttributesResponse, 0x00, 0x00,
    statusSuccess, typeBoolean, if on then 1 else 0]

/-- `parse_default_response`: the command and the status, or nothing when it raises
`ValueError`. -/
def parseDefaultResponse (frame : ZclFrame) : Option (UInt8 × UInt8) :=
  if frame.clusterSpecific ∨ frame.command ≠ defaultResponseCommand then none
  else
    match frame.payload with
    | command :: status :: _ => some (command, status)
    | _ => none

/-! ## What is sent is what is read -/

theorem parse_onOffCommand (seq command : UInt8) :
    parse (onOffCommand seq command) = some ⟨true, false, false, seq, command, []⟩ := rfl

theorem parse_defaultResponse (seq command status : UInt8) :
    parse (defaultResponse seq command status) =
      some ⟨false, true, true, seq, defaultResponseCommand, [command, status]⟩ := rfl

theorem parse_readOnOffResponse (seq : UInt8) (on : Bool) :
    parse (readOnOffResponse seq on) = some ⟨false, true, true, seq, readAttributesResponse,
      [0x00, 0x00, statusSuccess, typeBoolean, if on then 1 else 0]⟩ := rfl

/-- A Default Response tells the command and the status. -/
theorem parseDefaultResponse_defaultResponse (seq command status : UInt8) :
    (parse (defaultResponse seq command status)).bind parseDefaultResponse =
      some (command, status) := rfl

end ZbAt.Zcl
