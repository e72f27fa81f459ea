import ZbAt.Pattern
import ZbAt.Text

/-!
# Parsing prompts (prompts.py)

A line is decoded as Latin-1, so its characters are bytes; `\d` matches the ten ASCII digits, since
Latin-1 has no others.

* `Prompt` — the prompt objects.
* `simplePrompts` — `_SIMPLE`: the patterns in the order in which they are tried, each with what
  builds the prompt from the groups.
* `parsePrompt` — `parse_prompt`.
-/

namespace ZbAt.Host

open Text

inductive Prompt
  | ok
  | error (code : ℕ)
  | seq (seq : ℕ)
  | ack (seq : ℕ)
  | nack (seq : ℕ)
  | jpan (channel : ℤ) (pan : ℕ) (epid : Text)
  | leftPan
  | newNode (nwk : ℕ) (eui : Text) (parent : ℕ)
  | announce (kind eui : Text) (nwk : ℕ) (rssi lqi : Option ℤ)
  | nodeLeft (nwk : ℕ) (eui : Text)
  | text (kind : Text) (eui : Option Text) (data : List UInt8) (rssi lqi : Option ℤ)
  | rx (eui : Option Text) (nwk profile dstEp srcEp cluster : ℕ) (payload : List UInt8)
      (rssi lqi : Option ℤ)
  | matchDesc (nwk status : ℕ) (endpoints : List ℕ)
  deriving DecidableEq

/-! ## Pieces of patterns -/

/-- `[0-9A-F]` -/
def upperHex (c : UInt8) : Bool := (48 ≤ c && c ≤ 57) || (65 ≤ c && c ≤ 70)

abbrev Pat := Pattern UInt8

/-- The parts of a pattern, one behind the other. -/
def chain : List Pat → Pat
  | [] => .lit []
  | [a] => a
  | a :: rest => .seq a (chain rest)

/-- A word of the pattern. -/
def word (s : String) : Pat := .lit (ascii s)

/-- `_H2`, `_H4` and `_EUI`: a group of `n` digits. -/
def hexGroup (n : ℕ) : Pat := .group (.rep n upperHex)

/-- `(\d+)` -/
def natGroup : Pat := .group (.many1 isdigit)

/-- `(-?\d+)` -/
def intGroup : Pat := .group (.seq (.opt (word "-")) (.many1 isdigit))

/-- `$` -/
def dollar : Pat := .eos 0x0A

/-- `(?:,(-?\d+),(\d+))?` -/
def tailOpt : Pat := .opt (chain [word ",", intGroup, word ",", natGroup])

/-- `(?:,.*)?` -/
def anyOpt : Pat := .opt (.seq (word ",") (.many (· != 0x0A)))

/-- `(?:_EUI,)?` -/
def euiOpt : Pat := .opt (.seq (hexGroup 16) (word ","))

/-! ## Groups -/

/-- `m[i]` of a group that took part. -/
def cap (m : List (Option Text)) (i : ℕ) : Text := (m.getD (i - 1) none).getD []

/-- `m[i]` of a group that need not take part. -/
def capOpt (m : List (Option Text)) (i : ℕ) : Option Text := m.getD (i - 1) none

/-- `int(s, 16)` of digits -/
def intHex (s : Text) : ℕ := (hexValue s).getD 0

/-- `int(s)` of digits, with a sign or without -/
def intDec (s : Text) : ℤ := (decValue s).getD 0

/-- `_opt_int` -/
def optInt (s : Option Text) : Option ℤ := s.map intDec

/-- `_SIMPLE` -/
def simplePrompts : List (Pat × (List (Option Text) → Prompt)) :=
  [(chain [word "OK", dollar], fun _ => .ok),
    (chain [word "ERROR:", hexGroup 2, dollar], fun m => .error (intHex (cap m 1))),
    (chain [word "SEQ:", hexGroup 2, dollar], fun m => .seq (intHex (cap m 1))),
    (chain [word "ACK:", hexGroup 2, anyOpt, dollar], fun m => .ack (intHex (cap m 1))),
    (chain [word "NACK:", hexGroup 2, anyOpt, dollar], fun m => .nack (intHex (cap m 1))),
    (chain [word "JPAN:", natGroup, word ",", hexGroup 4, word ",", hexGroup 16, dollar],
      fun m => .jpan (intDec (cap m 1)) (intHex (cap m 2)) (cap m 3)),
    (chain [word "LeftPAN", dollar], fun _ => .leftPan),
    (chain [word "NEWNODE:", .opt (word " "), hexGroup 4, word ",", hexGroup 16, word ",",
      hexGroup 4, dollar], fun m => .newNode (intHex (cap m 1)) (cap m 2) (intHex (cap m 3))),
    (chain [word "NODELEFT:", .opt (word " "), hexGroup 4, word ",", hexGroup 16, dollar],
      fun m => .nodeLeft (intHex (cap m 1)) (cap m 2)),
    (chain [word "MatchDesc:", hexGroup 4, word ",", hexGroup 2,
      .group (.star (.seq (word ",") (.rep 2 upperHex))), dollar],
      fun m => .matchDesc (intHex (cap m 1)) (intHex (cap m 2))
        (((cap m 3).splitOn 44).tail.map intHex)),
    (chain [.group (.alt (word "FFD") (.alt (word "ZED") (.alt (word "SED") (.alt (word "MED")
      (word "COO"))))), word ":", hexGroup 16, word ",", hexGroup 4, tailOpt, dollar],
      fun m => .announce (cap m 1) (cap m 2) (intHex (cap m 3)) (optInt (capOpt m 4))
        (optInt (capOpt m 5)))]

/-- `_TEXT_HEAD` -/
def textHead : Pat :=
  chain [.group (.alt (word "UCAST") (.alt (word "BCAST") (word "MCAST"))), word ":", euiOpt,
    hexGroup 2, word "="]

/-- `_RX_HEAD` -/
def rxHead : Pat :=
  chain [word "RX:", euiOpt, hexGroup 4, word ",", hexGroup 4, word ",", hexGroup 2, word ",",
    hexGroup 2, word ",", hexGroup 4, word ",", hexGroup 2, word ":"]

/-- `_TAIL` -/
def tailPattern : Pat := chain [tailOpt, dollar]

/-! ## Parsing -/

/-- `_tail` -/
def parseTail (rest : Text) : Option (Option ℤ × Option ℤ) :=
  (tailPattern.first rest).map fun m => (optInt (capOpt m.1 1), optInt (capOpt m.1 2))

/-- `_parse_text` -/
def parseText (line : Text) : Option Prompt := do
  let (m, rest) ← textHead.first line
  let n := intHex (cap m 3)
  if rest.length < n then none
  else
    let (rssi, lqi) ← parseTail (rest.drop n)
    return .text (cap m 1) (capOpt m 2) (rest.take n) rssi lqi

/-- `bytes.fromhex`, which skips white space before each pair of digits. -/
def bytesFromHex : Text → Option (List UInt8)
  | [] => some []
  | [c] => if isspace c then some [] else none
  | c :: d :: s =>
    if isspace c then bytesFromHex (d :: s)
    else (hexValue [c, d]).bind fun v => (bytesFromHex s).map (v.toUInt8 :: ·)

/-- `_parse_rx` -/
def parseRx (line : Text) (rxHex : Bool) : Option Prompt := do
  let (m, rest) ← rxHead.first line
  let n := intHex (cap m 7)
  let width := if rxHex then 2 * n else n
  if rest.length < width then none
  else
    let (rssi, lqi) ← parseTail (rest.drop width)
    let payload ← if rxHex then bytesFromHex (rest.take width) else some (rest.take width)
    return .rx (capOpt m 1) (intHex (cap m 2)) (intHex (cap m 3)) (intHex (cap m 4))
      (intHex (cap m 5)) (intHex (cap m 6)) payload rssi lqi

/-- `parse_prompt` -/
def parsePrompt (line : Text) (rxHex : Bool) : Option Prompt :=
  match simplePrompts.findSome? fun p => (p.1.first line).map fun m => p.2 m.1 with
  | some prompt => some prompt
  | none => if (ascii "RX:").isPrefixOf line then parseRx line rxHex else parseText line

end ZbAt.Host
