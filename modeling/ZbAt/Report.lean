import ZbAt.Text
import ZbAt.UartTx

/-!
# The lines the firmware prints (at_cmd.c, zb_core.c, zb_msg.c)

* `Line` — a line with a fixed structure; `Line.write` is what its print function hands to
  `at_print` or `at_print_parts`.
* `printText` — the prompts `UCAST:` and `BCAST:`, whose payload is printed as it is.

Whether a prompt is printed at all depends on `S0E` and `S0F`; here it is.
-/

namespace ZbAt.Report

open Text Uart

/-- `zb_ieee_addr_t` and `zb_ext_pan_id_t`: eight bytes, least significant first. -/
abbrev Ieee := { bytes : List UInt8 // bytes.length = 8 }

/-- `at_hex_rev` -/
def atHexRev (lsbFirst : List UInt8) : Text := lsbFirst.reverse.flatMap fun b => hexText 2 b.toNat

/-- What the print functions read of `zb_apsde_data_indication_t`. -/
structure Ind where
  srcAddr : UInt16
  profileid : UInt16
  clusterid : UInt16
  dstEndpoint : UInt8
  srcEndpoint : UInt8
  rssi : Int8
  lqi : UInt8
  deriving DecidableEq

/-- `snprintf` into a buffer of `size` bytes. -/
def snprintf (size : ℕ) (t : Text) : Text := t.take (size - 1)

/-- `eui_part` of `data_indication`; the address is known or not. -/
def euiPart (ieee : Option Ieee) : Text := ieee.elim [] fun a => atHexRev a.1 ++ ascii ","

/-- The tail with RSSI and LQI, printed when its bit of `S0A` or `S0F` is set. -/
def tailPart (on : Bool) (ind : Ind) : Text :=
  if on then
    snprintf 16 (ascii "," ++ intText ind.rssi.toInt ++ ascii "," ++ natText ind.lqi.toNat)
  else []

/-- `head` of `print_text` -/
def textHead (kind : Text) (ieee : Option Ieee) (len : ℕ) : Text :=
  snprintf 40 (kind ++ ascii ":" ++ euiPart ieee ++ hexText 2 len ++ ascii "=")

/-- The kind of a text that `data_indication` passes to `print_text`. -/
def textKind (broadcast : Bool) : Text := if broadcast then ascii "BCAST" else ascii "UCAST"

/-- `print_text` -/
def printText (kind : Text) (ieee : Option Ieee) (ind : Ind) (payload : List UInt8) (on : Bool) :
    Write :=
  .atPrintParts (some (textHead kind ieee payload.length)) (some payload) (some (tailPart on ind))

/-- `RX_SHOW_MAX` -/
def rxShowMax : ℕ := 128

/-- `head` of `print_rx` -/
def rxHead (ieee : Option Ieee) (ind : Ind) (len : ℕ) : Text :=
  snprintf 64 (ascii "RX:" ++ euiPart ieee ++ hexText 4 ind.srcAddr.toNat ++ ascii "," ++
    hexText 4 ind.profileid.toNat ++ ascii "," ++ hexText 2 ind.dstEndpoint.toNat ++ ascii "," ++
    hexText 2 ind.srcEndpoint.toNat ++ ascii "," ++ hexText 4 ind.clusterid.toNat ++ ascii "," ++
    hexText 2 len ++ ascii ":")

/-- `print_rx`; `hex` is bit 12 of `S0F`. -/
def printRx (ieee : Option Ieee) (ind : Ind) (payload : List UInt8) (hex on : Bool) : Write :=
  let shown := payload.take rxShowMax
  .atPrintParts (some (rxHead ieee ind shown.length))
    (some (if hex then shown.flatMap fun b => hexText 2 b.toNat else shown))
    (some (tailPart on ind))

/-- `CAP_DEVICE_TYPE_FFD` and `CAP_RX_ON_WHEN_IDLE` -/
def capFfd : ℕ := 1
def capRxOn : ℕ := 3

/-- `kind` of `print_announce` -/
def announceKind (capability : UInt8) : Text :=
  if capability.toNat.testBit capFfd then ascii "FFD"
  else if capability.toNat.testBit capRxOn then ascii "ZED"
  else ascii "SED"

/-- `ZB_ZDP_STATUS_SUCCESS` -/
def zdpSuccess : UInt8 := 0

/-- The size of `line` in `match_resp`. -/
def matchLineSize : ℕ := 16 + 3 * 32

/-- The loop of `match_resp` over the endpoints, with `line` printed so far. -/
def matchEps : Text → List UInt8 → Text
  | line, [] => line
  | line, ep :: eps =>
    if line.length + 3 < matchLineSize then
      matchEps (line ++
        (ascii "," ++ hexText 2 ep.toNat).take (matchLineSize - line.length - 1)) eps
    else line

/-- The line of `match_resp`. -/
def matchLine (srcAddr : UInt16) (status : UInt8) (eps : List UInt8) : Text :=
  matchEps (snprintf matchLineSize
      (ascii "MatchDesc:" ++ hexText 4 srcAddr.toNat ++ ascii "," ++ hexText 2 status.toNat))
    (if status = zdpSuccess then eps else [])

/-- The lines with a fixed structure. -/
inductive Line
  /-- `at_print_result` -/
  | ok
  | error (result : UInt8)
  /-- `send_unicast` and `report` -/
  | seq (n : UInt8)
  | ack (n : UInt8)
  | nack (n : UInt8)
  /-- `print_jpan` -/
  | jpan (channel : UInt8) (pan : UInt16) (epid : Ieee)
  | leftPan
  /-- `print_newnode` -/
  | newnode (shortAddr : UInt16) (ieee : Ieee)
  /-- `print_nodeleft` -/
  | nodeleft (shortAddr : UInt16) (ieee : Ieee)
  /-- `print_announce` -/
  | announce (capability : UInt8) (ieee : Ieee) (shortAddr : UInt16)
  /-- `match_resp` -/
  | matchDesc (srcAddr : UInt16) (status : UInt8) (eps : List UInt8)
  /-- `print_rx` in hex mode -/
  | rx (ieee : Option Ieee) (ind : Ind) (payload : List UInt8) (on : Bool)

/-- What is printed for a line. -/
def Line.write : Line → Write
  | .ok => .atPrint (ascii "OK")
  | .error result => .atPrint (ascii "ERROR:" ++ hexText 2 result.toNat)
  | .seq n => .atPrint (ascii "SEQ:" ++ hexText 2 n.toNat)
  | .ack n => .atPrint (ascii "ACK:" ++ hexText 2 n.toNat)
  | .nack n => .atPrint (ascii "NACK:" ++ hexText 2 n.toNat)
  | .jpan channel pan epid => .atPrint (ascii "JPAN:" ++ natText channel.toNat ++ ascii "," ++
      hexText 4 pan.toNat ++ ascii "," ++ atHexRev epid.1)
  | .leftPan => .atPrint (ascii "LeftPAN")
  | .newnode shortAddr ieee => .atPrint (ascii "NEWNODE:" ++ hexText 4 shortAddr.toNat ++
      ascii "," ++ atHexRev ieee.1 ++ ascii ",FFFF")
  | .nodeleft shortAddr ieee => .atPrint (ascii "NODELEFT:" ++ hexText 4 shortAddr.toNat ++
      ascii "," ++ atHexRev ieee.1)
  | .announce capability ieee shortAddr => .atPrint (announceKind capability ++ ascii ":" ++
      atHexRev ieee.1 ++ ascii "," ++ hexText 4 shortAddr.toNat)
  | .matchDesc srcAddr status eps => .atPrint (matchLine srcAddr status eps)
  | .rx ieee ind payload on => printRx ieee ind payload true on

end ZbAt.Report
