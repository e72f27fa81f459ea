import Mathlib.Data.List.FinRange
import Mathlib.Logic.Function.Basic
import ZbAt.At

/-!
# S-registers (sreg.c)

The register table, its validation, the `ATS` commands and persistence.

* `normalise` — validates a text for a register and gives its canonical form.
* `sregU32`, `sregS8`, `sregBytes`, `sregClusters` — how the firmware reads registers.
* `sregAtCommand` — reads and writes, with the password check.
* `sregInit`, `sregFactoryReset`, `persist` — the settings store, a map from keys to bytes.

Texts are without their terminator; `cstr` cuts a buffer at its first zero byte.
-/

namespace ZbAt.Sreg

open Text

/-- `enum sreg_type` -/
inductive SregType
  | u8 | u16 | s8 | hex64 | key128 | str | clusters | dyn
  deriving DecidableEq

/-- `F_NV`, `F_RO`, `F_PW`, `F_WO` -/
inductive Flag
  | nv | ro | pw | wo
  deriving DecidableEq

/-- `VAL_MAX` -/
def valMax : ℕ := 48

/-- `SREG_MAX_CLUSTERS` -/
def maxClusters : ℕ := 8

/-- The constant fields of `struct sreg`. -/
structure SregInfo where
  id : ℕ
  type : SregType
  flags : List Flag
  maxLen : ℕ
  dflt : Text

def SregInfo.has (r : SregInfo) (f : Flag) : Bool := r.flags.contains f

/-- `regs` -/
def regTable : List SregInfo :=
  [⟨0x00, .u16, [.nv], 0, ascii "FFFF"⟩,
    ⟨0x01, .s8, [.nv], 0, ascii "07"⟩,
    ⟨0x02, .u16, [.nv], 0, ascii "0000"⟩,
    ⟨0x03, .hex64, [.nv], 0, ascii "0000000000000000"⟩,
    ⟨0x04, .dyn, [.ro], 0, ascii ""⟩,
    ⟨0x05, .dyn, [.ro], 0, ascii ""⟩,
    ⟨0x08, .key128, [.nv, .pw, .wo], 0, ascii "00000000000000000000000000000000"⟩,
    ⟨0x09, .key128, [.nv, .pw, .wo], 0, ascii "5A6967426565416C6C69616E63653039"⟩,
    ⟨0x0A, .u16, [.nv, .pw], 0, ascii "0000"⟩,
    ⟨0x0B, .str, [.nv], 16, ascii ""⟩,
    ⟨0x0C, .str, [.nv, .pw, .wo], 8, ascii "password"⟩,
    ⟨0x0D, .dyn, [.ro], 0, ascii ""⟩,
    ⟨0x0E, .u16, [.nv], 0, ascii "0000"⟩,
    ⟨0x0F, .u16, [.nv], 0, ascii "0006"⟩,
    ⟨0x10, .u16, [.nv], 0, ascii "0000"⟩,
    ⟨0x12, .u16, [.nv], 0, ascii "0C00"⟩,
    ⟨0x40, .u16, [], 0, ascii "0101"⟩,
    ⟨0x41, .u16, [.nv], 0, ascii "0101"⟩,
    ⟨0x42, .u16, [], 0, ascii "0002"⟩,
    ⟨0x43, .u16, [.nv], 0, ascii "0002"⟩,
    ⟨0x44, .u16, [], 0, ascii "C091"⟩,
    ⟨0x45, .u16, [.nv], 0, ascii "C091"⟩,
    ⟨0x48, .u16, [.nv], 0, ascii "C091"⟩,
    ⟨0x49, .u16, [.nv], 0, ascii "0000"⟩,
    ⟨0x4A, .u8, [.nv], 0, ascii "00"⟩,
    ⟨0x4B, .clusters, [.nv], 0, ascii ""⟩,
    ⟨0x4C, .clusters, [.nv], 0, ascii ""⟩,
    ⟨0x4E, .u16, [.nv], 0, ascii "0000"⟩]

/-- The place of a register in the table. -/
abbrev Reg := Fin regTable.length

def Reg.info (r : Reg) : SregInfo := regTable.get r

/-- The registers in the order of the table. -/
def allRegs : List Reg := List.finRange regTable.length

/-- The values of the registers. -/
abbrev Vals := Reg → Text

/-- The settings store: keys and the bytes stored under them. -/
abbrev Settings := List (Text × Text)

structure Store where
  val : Vals
  saved : Settings
  echo : Bool

/-- `find` -/
def find (id : ℕ) : Option Reg := allRegs.find? fun r => r.info.id == id

/-! ## Validation -/

/-- `all_hex` -/
def allHex (s : Text) (len : ℕ) : Bool := (s.take len).all isxdigit

/-- `numeric` -/
def numeric (r : SregInfo) : Bool := r.type == .u8 || r.type == .u16

/-- What follows the group of four digits that `p` starts with, and its comma. -/
def nextGroup (p : Text) : Text := p.drop (if p[4]? = some 44 then 5 else 4)

/-- The group that `p` starts with is not four hex digits, or nothing follows its comma. -/
def badGroup (p : Text) : Bool :=
  p.length < 4 || !allHex p 4 || (p[4]? != some 44 && p[4]? != none) ||
    (p[4]? == some 44 && p[5]? == none)

/-- The loop of `normalise` over the groups of a cluster list: `left` more are allowed, and `sep`
is printed before the next. -/
def normaliseClusters (sep : Text) : ℕ → Text → Except ℕ Text
  | _, [] => .ok []
  | 0, _ :: _ => .error atErrInvalidParam
  | left + 1, c :: s =>
    if badGroup (c :: s) then .error atErrInvalidParam
    else
      let v := (atParseHexN (c :: s) 4).getD 0
      (normaliseClusters [44] left (nextGroup (c :: s))).map fun rest => sep ++ hexText 4 v ++ rest

/-- `normalise` -/
def normalise (r : SregInfo) (s : Text) : Except ℕ Text :=
  match r.type with
  | .u8 | .u16 =>
    let digits := if r.type = .u8 then 2 else 4
    if s.length == 0 || s.length > digits then .error atErrInvalidParam
    else match atParseHexN s s.length with
      | none => .error atErrInvalidParam
      | some v =>
        if r.id == 0x12 && v >>> 8 != 0x0C then .error atErrInvalidParam
        else .ok (hexText digits v)
  | .s8 =>
    let (d, rest) := strtol s
    if s.length == 0 || rest != [] || d < -40 || d > 8 then .error atErrInvalidParam
    else .ok (decText d)
  | .hex64 | .key128 =>
    let digits := if r.type = .hex64 then 16 else 32
    if s.length != digits || !allHex s s.length then .error atErrInvalidParam
    else .ok (s.map toupper)
  | .str => if s.length > r.maxLen then .error atErrInvalidParam else .ok s
  | .clusters => normaliseClusters [] maxClusters s
  | .dyn => .error atErrReadOnly

/-! ## Readers -/

/-- `sreg_u32` -/
def sregU32 (id : ℕ) (v : Vals) : ℕ := (find id).elim 0 fun r => strtoul (v r)

/-- `sreg_s8`: `atoi`, then the cast to `int8_t`. -/
def sregS8 (id : ℕ) (v : Vals) : ℤ := (find id).elim 0 fun r => Int.bmod (strtol (v r)).1 256

/-- `sreg_bit` -/
def sregBit (id bit : ℕ) (v : Vals) : Bool := (sregU32 id v).testBit bit

/-- The loop of `sreg_bytes`; `byte` keeps its value when two characters are no digits. -/
def bytesLoop : ℕ → Text → ℕ → List UInt8
  | 0, _, _ => []
  | len + 1, s, byte =>
    let byte := (atParseHexN s 2).getD byte
    byte.toUInt8 :: bytesLoop len (s.drop 2) byte

/-- `sreg_bytes` -/
def sregBytes (id len : ℕ) (v : Vals) : Option (List UInt8) :=
  (find id).bind fun r =>
    if (v r).length != 2 * len then none else some (bytesLoop len (v r) 0)

/-- The loop of `sreg_clusters`: `left` more IDs fit. -/
def clustersLoop : ℕ → Text → List UInt16
  | 0, _ => []
  | _ + 1, [] => []
  | left + 1, c :: s =>
    match atParseHexN (c :: s) 4 with
    | some v => v.toUInt16 :: clustersLoop left (nextGroup (c :: s))
    | none => []

/-- `sreg_clusters` -/
def sregClusters (id max : ℕ) (v : Vals) : List UInt16 :=
  (find id).elim [] fun r => clustersLoop max (v r)

/-! ## The settings store -/

def settingsSaveOne (key bytes : Text) (s : Settings) : Settings :=
  (key, bytes) :: s.filter fun e => e.1 != key

def settingsDelete (key : Text) (s : Settings) : Settings := s.filter fun e => e.1 != key

/-- `"at/s"` -/
def subtree : Text := ascii "at/s"

/-- `key_of` -/
def keyOf (r : SregInfo) : Text := subtree ++ ascii "/" ++ hexText 2 r.id

/-- The part of a key below the subtree. -/
def keyBelow (key : Text) : Option Text :=
  if (subtree ++ ascii "/").isPrefixOf key then some (key.drop (subtree.length + 1)) else none

/-- `persist`: the value with its terminator. -/
def persist (r : Reg) (s : Store) : Store :=
  if r.info.has .nv then { s with saved := settingsSaveOne (keyOf r.info) (s.val r ++ [0]) s.saved }
  else s

/-- The C string at the start of a buffer. -/
def cstr (buf : Text) : Text := buf.takeWhile (· != 0)

/-- `load_cb` -/
def loadCb (key bytes : Text) (v : Vals) : Vals :=
  if key.length != 2 then v
  else match (atParseHexN key 2).bind find with
    | none => v
    | some r =>
      if bytes.length > valMax then v
      else if bytes.length > 0 then Function.update v r (cstr (bytes.take (bytes.length - 1)))
      else v

/-- `settings_load_subtree_direct("at/s", load_cb)` -/
def settingsLoad (s : Settings) (v : Vals) : Vals :=
  s.foldl (fun v e => (keyBelow e.1).elim v fun key => loadCb key e.2 v) v

/-- `load_defaults` -/
def loadDefaults : Vals := fun r => r.info.dflt

/-- `strcpy(find(dst)->val, find(src)->val)` -/
def copyReg (dst src : ℕ) (v : Vals) : Vals :=
  match find dst, find src with
  | some d, some s => Function.update v d (v s)
  | _, _ => v

/-- `init_volatile` -/
def initVolatile (v : Vals) : Vals := copyReg 0x44 0x45 (copyReg 0x42 0x43 (copyReg 0x40 0x41 v))

/-- What `apply_side_effects` does for `S12`: the echo is on unless bit 4 is set. -/
def echoOf (v : Vals) : Bool := !sregBit 0x12 4 v

/-- `sreg_init` -/
def sregInit (saved : Settings) : Store :=
  let v := initVolatile (settingsLoad saved loadDefaults)
  ⟨v, saved, echoOf v⟩

/-- The loop of `sreg_factory_reset` over the registers. -/
def deleteSaved : List Reg → Settings → Settings
  | [], saved => saved
  | r :: rs, saved =>
    deleteSaved rs (if r.info.has .nv then settingsDelete (keyOf r.info) saved else saved)

/-- `sreg_factory_reset` -/
def sregFactoryReset (s : Store) : Store :=
  { s with val := initVolatile loadDefaults, saved := deleteSaved allRegs s.saved }

/-! ## The ATS commands -/

/-- What a command does: its result, the new store, the lines printed and the calls of
`sreg_written`. -/
structure Outcome where
  result : ℕ
  store : Store
  printed : List Text
  written : List ℕ

/-- A command that returns `result` and does nothing. -/
def Outcome.refuse (result : ℕ) (s : Store) : Outcome := ⟨result, s, [], []⟩

/-- `read_reg`; `dyn` is `sreg_dynamic_read`. -/
def readReg (dyn : ℕ → Text) (r : Reg) (bit : Option ℕ) (s : Store) : Outcome :=
  let val := if r.info.type = .dyn then dyn r.info.id
    else if r.info.has .wo then [] else s.val r
  match bit with
  | some bit =>
    if !numeric r.info then .refuse atErrInvalidParam s
    else ⟨atOk, s, [ascii (if (strtoul val).testBit bit then "1" else "0")], []⟩
  | none => ⟨atOk, s, [val], []⟩

/-- The text up to the separator, and what follows the separator if there is one. -/
def splitPassword (arg : Text) : Text × Option Text :=
  match strchr arg 58 with
  | some pw => (arg.takeWhile (· != 58), some pw)
  | none =>
    match strchr arg 59 with
    | some pw => (arg.takeWhile (· != 59), some pw)
    | none => (arg, none)

/-- The password check of `write_reg`. -/
def passwordOk (pw : Option Text) (v : Vals) : Bool :=
  match pw, find 0x0C with
  | some pw, some r => pw == v r
  | _, _ => false

/-- `v | BIT(bit)` and `v & ~BIT(bit)` of 32 bits. -/
def setBit (v bit : ℕ) (on : Bool) : ℕ :=
  if on then v ||| 2 ^ bit else v &&& ((2 ^ 32 - 1) ^^^ 2 ^ bit)

/-- The text that a single-bit write passes to `normalise`. -/
def bitText (r : Reg) (bit : ℕ) (arg : Text) (v : Vals) : Option Text :=
  if !numeric r.info || (arg != ascii "0" && arg != ascii "1") then none
  else some (hexText (if r.info.type = .u8 then 2 else 4)
    (setBit (strtoul (v r)) bit (arg == ascii "1")))

/-- The second half of `write_reg`: the value is validated and stored. -/
def storeReg (r : Reg) (arg : Text) (s : Store) : Outcome :=
  match normalise r.info arg with
  | .error err => .refuse err s
  | .ok value =>
    let s := persist r { s with val := Function.update s.val r value }
    let s := if r.info.id = 0x12 then { s with echo := echoOf s.val } else s
    ⟨atOk, s, [], [r.info.id]⟩

/-- `write_reg` -/
def writeReg (r : Reg) (bit : Option ℕ) (arg : Text) (s : Store) : Outcome :=
  if r.info.has .ro then .refuse atErrReadOnly s
  else
    let (arg, pw) := splitPassword arg
    if r.info.has .pw && !passwordOk pw s.val then .refuse atErrBadPassword s
    else match bit with
      | none => storeReg r arg s
      | some bit =>
        match bitText r bit arg s.val with
        | none => .refuse atErrInvalidParam s
        | some arg => storeReg r arg s

/-- `sreg_at_command`: `arg` is the text after `ATS`. -/
def sregAtCommand (dyn : ℕ → Text) (arg : Text) (s : Store) : Outcome :=
  let n := (arg.takeWhile isxdigit).length
  if n != 2 && n != 3 then .refuse atErrInvalidSreg s
  else match (atParseHexN arg 2).bind find with
    | none => .refuse atErrInvalidSreg s
    | some r =>
      let bit := if n = 3 then atParseHexN (arg.drop 2) 1 else none
      if arg.drop n == ascii "?" then readReg dyn r bit s
      else if arg[n]? == some 61 then writeReg r bit (arg.drop (n + 1)) s
      else .refuse atErrInvalidParam s

/-- `sreg_cmd_tokdump` -/
def sregCmdTokdump (dyn : ℕ → Text) (args : Text) (s : Store) : Outcome :=
  if args != [] then .refuse atErrInvalidParam s
  else ⟨atOk, s, allRegs.map fun r =>
    ascii "S" ++ hexText 2 r.info.id ++ ascii ":" ++
      (if r.info.type = .dyn then dyn r.info.id
        else if r.info.has .wo then [] else s.val r), []⟩

end ZbAt.Sreg
