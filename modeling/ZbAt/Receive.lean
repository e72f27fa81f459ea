import ZbAt.Bulb
import ZbAt.EtrxThreads
import ZbAt.RoundTrip
import ZbAt.SregProof

/-!
# Received frames, from the stack to the listeners (zb_msg.c, protocol.py)

`data_indication` gets every frame that ZBOSS delivers, and prints it if the registers ask for it.
What it prints is mixed with the lines and echoes of commands, cut into chunks, split into lines
again, and handed to the listeners of the host.

* `dataIndication` — the frames that belong to the host, and what is printed of them.
* `Item` — what the module writes, in order; `Legible` — a payload that is printed as it is has no
  line end in it.
* `recorded_items` — the host records exactly the prompts of what was written.
* `frames_heard` — every listener hears them.
* `bulb_follows` — the light of the bulb is what the frames have made of it.
-/

namespace ZbAt.Receive

open Text Uart Report Host Sreg
open Threads (recorded)

/-! ## The firmware -/

/-- `EP_TEXT` and `EP_APP` -/
def epText : UInt8 := 1
def epApp : UInt8 := 2

/-- `TEXT_PROFILE` and `TEXT_CLUSTER` -/
def textProfile : UInt16 := 0xC091
def textCluster : UInt16 := 0x0002

/-- `ZB_AF_ZDO_PROFILE_ID` -/
def zdoProfile : UInt16 := 0x0000

def s0aRxRssi : ℕ := 0x6
def s0eTextOff : ℕ := 0xE
def s0fShowAll : ℕ := 0x1
def s0fShowEp : ℕ := 0x8
def s0fRxHex : ℕ := 0xC
def s0fTextRssi : ℕ := 0xE

/-- A frame that ZBOSS delivers. `broadcast` is `ZB_NWK_IS_ADDRESS_BROADCAST(ind->dst_addr)`, `ieee`
what `zb_address_ieee_by_short` knows of the sender. -/
structure Indication where
  ind : Ind
  broadcast : Bool
  ieee : Option Ieee
  payload : List UInt8

/-- A text, for endpoint 1. -/
def Indication.IsText (f : Indication) : Prop :=
  f.ind.dstEndpoint = epText ∧ f.ind.profileid = textProfile ∧ f.ind.clusterid = textCluster

instance (f : Indication) : Decidable f.IsText := inferInstanceAs (Decidable (_ ∧ _))

/-- The frames that `data_indication` leaves to ZBOSS. -/
def Indication.Foreign (f : Indication) : Prop :=
  f.ind.profileid = zdoProfile ∨ f.ind.dstEndpoint ≠ epText ∧ f.ind.dstEndpoint ≠ epApp

instance (f : Indication) : Decidable f.Foreign := inferInstanceAs (Decidable (_ ∨ _))

/-- `data_indication`: whether it keeps the frame, and what is printed. -/
def dataIndication (v : Vals) (f : Indication) : Bool × Option Write :=
  if f.Foreign then (false, none)
  else if f.IsText then
    (true, if !sregBit 0x0E s0eTextOff v then
      some (printText (textKind f.broadcast) f.ieee f.ind f.payload (sregBit 0x0F s0fTextRssi v))
    else none)
  else
    (true, if sregBit 0x0F s0fShowEp v && !sregBit 0x0F s0fShowAll v then
      some (printRx f.ieee f.ind f.payload (sregBit 0x0F s0fRxHex v) (sregBit 0x0A s0aRxRssi v))
    else none)

/-! ## What the module writes -/

inductive Item
  /-- A frame, with the registers at the time. -/
  | frame (v : Vals) (f : Indication)
  /-- A line with a fixed structure. -/
  | line (l : Line)
  /-- A line of a response that is no prompt. -/
  | value (t : Text)
  /-- The echo of a command. -/
  | echo (command : Text)
  /-- The `>` of a binary entry. -/
  | entry

def Item.bytes : Item → List UInt8
  | .frame v f => (dataIndication v f).2.elim [] Write.bytes
  | .line l => l.write.bytes
  | .value t => (Write.atPrint t).bytes
  | .echo command => command ++ [0x0D]
  | .entry => Write.binaryPrompt.bytes

/-- The stream of the module. -/
def stream (items : List Item) : List UInt8 := items.flatMap Item.bytes

/-! ## What it means -/

/-- The sender's address, as the prompts have it. -/
def euiOf (ieee : Option Ieee) : Option Text := ieee.map fun a => bytesText a.1.reverse

/-- A frame that is shown as `RX`, in the fields of the prompt. -/
def Indication.rx (f : Indication) (on : Bool) : Bulb.Rx where
  eui := euiOf f.ieee
  nwk := f.ind.srcAddr
  profile := f.ind.profileid
  dstEp := f.ind.dstEndpoint
  srcEp := f.ind.srcEndpoint
  cluster := f.ind.clusterid
  payload := f.payload.take rxShowMax
  rssi := if on then some f.ind.rssi.toInt else none
  lqi := if on then some (f.ind.lqi.toNat : ℤ) else none

/-- The frames are shown. -/
def Shows (v : Vals) : Prop := sregBit 0x0F s0fShowEp v = true ∧ sregBit 0x0F s0fShowAll v = false

instance (v : Vals) : Decidable (Shows v) := inferInstanceAs (Decidable (_ ∧ _))

/-- What the host should make of a frame. -/
def Indication.prompt (v : Vals) (f : Indication) : Option Prompt :=
  if f.Foreign then none
  else if f.IsText then
    if sregBit 0x0E s0eTextOff v then none
    else some (textPrompt f.broadcast f.ieee f.ind f.payload (sregBit 0x0F s0fTextRssi v))
  else if Shows v then some (f.rx (sregBit 0x0A s0aRxRssi v)).prompt
  else none

def Item.prompt : Item → Option Prompt
  | .frame v f => f.prompt v
  | .line l => (some (Host.prompt l)).filter SwitchBulb.isRecorded
  | .value _ | .echo _ | .entry => none

/-- No line end. -/
def OneLine (payload : List UInt8) : Prop := 0x0D ∉ payload ∧ 0x0A ∉ payload

instance (payload : List UInt8) : Decidable (OneLine payload) := inferInstanceAs (Decidable (_ ∧ _))

/-- The host can read the item: a payload that is printed as it is has no line end, and the host
expects hex where the module prints it. -/
def Item.Legible (rxHex : Bool) : Item → Prop
  | .frame v f => (f.prompt v).isSome = true →
    if f.IsText then f.payload.length ≤ 255 ∧ OneLine f.payload
    else sregBit 0x0F s0fRxHex v = rxHex ∧ (rxHex = false → OneLine (f.payload.take rxShowMax))
  | .line l => ∀ ieee ind payload on, l ≠ .rx ieee ind payload on
  | .value t => Plain t ∧ t.length ≤ 255 ∧ recorded rxHex t = none
  | .echo command => IsAt command ∧ Plain command
  | .entry => True

section

variable {rxHex : Bool} {buf t : Text} {i : Item} {items : List Item} {v : Vals} {f : Indication}

/-! ## One line -/

/-- The data of an `RX` line, in hex or as it is. -/
def dataText (rxHex : Bool) (shown : List UInt8) : Text :=
  if rxHex then bytesText shown else shown

/-- A line with data as they are is parsed back, too. -/
theorem parse_shown (ieee : Option Ieee) (ind : Ind) {shown : List UInt8} (on rxHex : Bool)
    (hlen : shown.length < 256) :
    parsePrompt (Report.rxHead ieee ind shown.length ++ dataText rxHex shown ++
      tailPart on ind) rxHex = some (.rx (euiOf ieee) ind.srcAddr.toNat ind.profileid.toNat
        ind.dstEndpoint.toNat ind.srcEndpoint.toNat ind.clusterid.toNat shown
        (if on then some ind.rssi.toInt else none)
        (if on then some (ind.lqi.toNat : ℤ) else none)) := by
  cases rxHex with
  | true => exact parse_rx ieee ind on hlen
  | false =>
    have hm : Host.rxHead.first _ = some _ := first_rxHead ieee ind hlen (shown ++ tailText on ind)
    have hrx : (ascii "RX:").isPrefixOf (ascii "RX:" ++ (euiPart ieee ++
        rxFields ind shown.length ++ (shown ++ tailText on ind))) = true := by
      simp
    have hint : ∀ w n, intHex (hexText w n) = n := fun w n => by simp [intHex]
    rw [rxHead_eq ieee ind hlen, tailPart_eq, dataText, if_neg Bool.false_ne_true]
    simp only [List.append_assoc] at hm hrx ⊢
    rw [parsePrompt, findSome_none (u := ascii "RX:") (by decide)]
    dsimp only
    rw [hrx, if_pos rfl, parseRx, hm]
    simp [cap, capOpt, hint, parseTail_tailText, euiOf]

theorem plain_shown (ieee : Option Ieee) (ind : Ind) {shown : List UInt8} (on rxHex : Bool)
    (hlen : shown.length < 256) (h : rxHex = false → OneLine shown) :
    Plain (Report.rxHead ieee ind shown.length ++ dataText rxHex shown ++ tailPart on ind) := by
  have hhead : Clean (Report.rxHead ieee ind shown.length) := by
    simp only [rxHead_eq ieee ind hlen, rxFields, clean_append, clean_hexText, clean_euiPart,
      true_and]
    decide
  have htail : Clean (tailPart on ind) := tailPart_eq on ind ▸ clean_tailText on ind
  have hdata : OneLine (dataText rxHex shown) := by
    cases rxHex with
    | true =>
      have hclean := (clean_bytesText shown).plain
      exact ⟨hclean.cr, hclean.lf⟩
    | false => exact h rfl
  refine ⟨?_, ?_, ?_⟩
  · simp [hhead.plain.cr, hdata.1, htail.plain.cr]
  · simp [hhead.plain.lf, hdata.2, htail.plain.lf]
  · rw [rxHead_eq ieee ind hlen]
    intro hc
    cases hc

/-- The structured lines but `RX` are parsed back in either mode. -/
theorem parse_fixed (l : Line) (h : ∀ ieee ind payload on, l ≠ .rx ieee ind payload on)
    (rxHex : Bool) : parsePrompt (printed l.write) rxHex = some (Host.prompt l) := by
  cases l with
  | ok => exact parse_ok rxHex
  | error result => exact parse_error rxHex result
  | seq n => exact parse_seq rxHex n
  | ack n => exact parse_ack rxHex n
  | nack n => exact parse_nack rxHex n
  | jpan channel pan epid => exact parse_jpan rxHex channel pan epid
  | leftPan => exact parse_leftPan rxHex
  | newnode shortAddr ieee => exact parse_newnode rxHex shortAddr ieee
  | nodeleft shortAddr ieee => exact parse_nodeleft rxHex shortAddr ieee
  | announce capability ieee shortAddr => exact parse_announce rxHex capability ieee shortAddr
  | matchDesc srcAddr status eps => exact parse_matchDesc srcAddr status eps rxHex
  | rx ieee ind payload on => exact absurd rfl (h ieee ind payload on)

/-! ## The stream -/

/-- What the reader may have in its buffer between two writes: nothing, or an echo. -/
def Settled (buf : Text) : Prop := buf = [] ∨ IsAt buf

theorem Settled.recorded (h : Settled buf) : recorded rxHex buf = none := by
  rcases h with rfl | hat
  · exact Threads.recorded_nil
  · exact Threads.recorded_echo hat rfl

theorem isAt_longer (h : IsAt buf) (t : Text) : IsAt (buf ++ t) := by
  obtain ⟨a, b, rest, rfl, -, -⟩ := h.cases
  exact h

/-- What a write does to the reader. -/
def Gives (rxHex : Bool) (data : List UInt8) (p : Option Prompt) : Prop :=
  ∀ buf, Settled buf → Settled (feed buf data).1 ∧
    (feed buf data).2.filterMap (recorded rxHex) = p.toList

/-- A line between two line ends. -/
theorem gives_frame (hplain : Plain t) : Gives rxHex (crlf ++ t ++ crlf) (recorded rxHex t) := by
  intro buf hbuf
  rw [feed_frame hplain]
  refine ⟨.inl rfl, ?_⟩
  rw [List.filterMap_cons_none hbuf.recorded]
  cases h : recorded rxHex t with
  | none => rw [List.filterMap_cons_none h]; rfl
  | some p => rw [List.filterMap_cons_some h]; rfl

theorem gives_nil : Gives rxHex [] none := fun _ hbuf => ⟨hbuf, rfl⟩

theorem recorded_of_parse {p : Prompt} (h : parsePrompt t rxHex = some p) :
    recorded rxHex t = (some p).filter SwitchBulb.isRecorded := by rw [Threads.recorded, h]

/-- A frame that is shown is a line of its own, which is parsed back. -/
theorem frame_line (h : Item.Legible rxHex (.frame v f)) :
    (Item.frame v f).bytes = [] ∧ f.prompt v = none ∨
      ∃ t p, (Item.frame v f).bytes = crlf ++ t ++ crlf ∧ Plain t ∧
        parsePrompt t rxHex = some p ∧ SwitchBulb.isRecorded p = true ∧ f.prompt v = some p := by
  have h : (f.prompt v).isSome = true → if f.IsText then f.payload.length ≤ 255 ∧ OneLine f.payload
      else sregBit 0x0F s0fRxHex v = rxHex ∧
        (rxHex = false → OneLine (f.payload.take rxShowMax)) := h
  rw [Item.bytes, dataIndication]
  unfold Indication.prompt at h ⊢
  by_cases hforeign : f.Foreign
  · rw [if_pos hforeign, if_pos hforeign]
    exact .inl ⟨rfl, rfl⟩
  rw [if_neg hforeign] at h
  rw [if_neg hforeign, if_neg hforeign]
  by_cases htext : f.IsText
  · rw [if_pos htext, if_pos htext] at h
    rw [if_pos htext, if_pos htext]
    cases hoff : sregBit 0x0E s0eTextOff v with
    | true => exact .inl ⟨rfl, rfl⟩
    | false =>
      rw [hoff] at h
      obtain ⟨hlen, hone⟩ := h rfl
      have hlt : f.payload.length < 256 := Nat.lt_succ_of_le hlen
      exact .inr ⟨_, _, bytes_printText _ _ _ _ _,
        plain_text f.broadcast f.ieee f.ind _ hlt hone.1 hone.2,
        parse_text f.broadcast f.ieee f.ind _ rxHex hlt, rfl, rfl⟩
  · rw [if_neg htext, if_neg htext] at h
    rw [if_neg htext, if_neg htext]
    by_cases hshow : Shows v
    · rw [if_pos hshow] at h
      obtain ⟨hhex, hone⟩ := h rfl
      have hlen : (f.payload.take rxShowMax).length < 256 := by
        rw [List.length_take, rxShowMax]
        omega
      rw [if_pos hshow, hshow.1, hshow.2, hhex]
      exact .inr ⟨_, _, bytes_atPrintParts _ _ _,
        plain_shown f.ieee f.ind (sregBit 0x0A s0aRxRssi v) rxHex hlen hone,
        parse_shown f.ieee f.ind _ rxHex hlen, rfl, rfl⟩
    · have hhidden : (sregBit 0x0F s0fShowEp v && !sregBit 0x0F s0fShowAll v) = false := by
        rw [Bool.eq_false_iff]
        intro hand
        obtain ⟨hep, hall⟩ := Bool.and_eq_true_iff.mp hand
        exact hshow ⟨hep, by simpa using hall⟩
      rw [if_neg hshow, hhidden]
      exact .inl ⟨rfl, rfl⟩

/-- A frame gives its prompt. -/
theorem gives_indication (h : Item.Legible rxHex (.frame v f)) :
    Gives rxHex (Item.frame v f).bytes (f.prompt v) := by
  rcases frame_line h with ⟨hnone, hprompt⟩ | ⟨t, p, hbytes, hplain, hparse, hrec, hprompt⟩
  · rw [hnone, hprompt]
    exact gives_nil
  · have hgives := @gives_frame rxHex t hplain
    rw [recorded_of_parse hparse, Option.filter_some_pos hrec] at hgives
    rw [hbytes, hprompt]
    exact hgives

/-- **One write.** What the host makes of an item does not depend on what came before. -/
theorem gives_item (h : i.Legible rxHex) : Gives rxHex i.bytes i.prompt := by
  cases i with
  | frame v f => exact gives_indication h
  | line l =>
    have hgives := @gives_frame rxHex _ (clean_line l).1.plain
    rw [recorded_of_parse (parse_fixed l h rxHex)] at hgives
    rw [Item.bytes, bytes_line]
    exact hgives
  | value t =>
    obtain ⟨hplain, hlen, hnone⟩ := h
    have hgives := @gives_frame rxHex t hplain
    rw [hnone] at hgives
    rw [Item.bytes, bytes_atPrint hlen]
    exact hgives
  | echo command =>
    obtain ⟨hat, hplain⟩ := h
    intro buf hbuf
    have hcr : feed (buf ++ command) [0x0D] = (buf ++ command, []) := rfl
    have hfeed : feed buf (command ++ [0x0D]) = (buf ++ command, []) := by
      rcases hbuf with rfl | hbuf
      · rw [feed_append, feed_plain hplain]
        exact congrArg (fun r => (r.1, [] ++ r.2)) hcr
      · have hne : buf ≠ [] := by
          rintro rfl
          cases hbuf
        have hkeep : command.filter (· != 0x0D) = command := by
          refine List.filter_eq_self.mpr fun c hc => bne_iff_ne.mpr ?_
          rintro rfl
          exact hplain.cr hc
        rw [feed_append, feed_text hne hplain.lf, hkeep]
        exact congrArg (fun r => (r.1, [] ++ r.2)) hcr
    rw [Item.bytes, hfeed]
    refine ⟨.inr ?_, rfl⟩
    rcases hbuf with rfl | hbuf
    · exact hat
    · exact isAt_longer hbuf command
  | entry =>
    intro buf hbuf
    have hfeed : feed buf Write.binaryPrompt.bytes = ([], [buf, [0x3E]]) := by
      have hbytes : Write.binaryPrompt.bytes = crlf ++ [0x3E] := rfl
      rw [hbytes, feed_append, feed_crlf]
      rfl
    have hprompt : recorded rxHex [0x3E] = none := by cases rxHex <;> decide
    rw [Item.bytes, hfeed]
    refine ⟨.inl rfl, ?_⟩
    rw [List.filterMap_cons_none hbuf.recorded, List.filterMap_cons_none hprompt]
    rfl

theorem filterMap_cons_toList {α β : Type} (g : α → Option β) (a : α) (as : List α) :
    (a :: as).filterMap g = (g a).toList ++ as.filterMap g := by
  cases hg : g a with
  | none => rw [List.filterMap_cons_none hg]; rfl
  | some b => rw [List.filterMap_cons_some hg]; rfl

/-- **The stream.** However commands, their echoes and the frames follow each other, the host
records the prompts of the frames and lines, in order. -/
theorem recorded_items (h : ∀ i ∈ items, i.Legible rxHex) (hbuf : Settled buf) :
    (feed buf (stream items)).2.filterMap (recorded rxHex) = items.filterMap Item.prompt := by
  induction items generalizing buf with
  | nil => rfl
  | cons i items ih =>
    obtain ⟨hsettled, hi⟩ := gives_item (h i List.mem_cons_self) buf hbuf
    have hrest := ih (fun j hj => h j (List.mem_cons_of_mem _ hj)) hsettled
    rw [stream, List.flatMap_cons, feed_append, List.filterMap_append, hi]
    refine (congrArg (i.prompt.toList ++ ·) hrest).trans ?_
    exact (filterMap_cons_toList Item.prompt i items).symm

/-! ## The listeners -/

/-- The lines of a part of a stream come first. -/
theorem linesOf_mono {data rest : List UInt8} (h : data <+: rest) :
    linesOf data <+: linesOf rest := by
  obtain ⟨more, rfl⟩ := h
  rw [linesOf, linesOf, feed_append]
  exact List.prefix_append _ _

theorem prompts_items {s : Threads.State} (h : ∀ i ∈ items, i.Legible rxHex)
    (hdata : s.data = stream items) : s.prompts rxHex = items.filterMap Item.prompt := by
  rw [Threads.State.prompts, hdata, linesOf]
  exact recorded_items h (.inl rfl)

/-- Of a part of the stream, a listener has heard a part of the prompts. -/
theorem heard_items (hitems : ∀ i ∈ items, i.Legible rxHex) {s : Threads.State}
    (h : (Threads.machine rxHex).ReachIf Threads.Commands s) {l : FanOut.Listener Prompt}
    (hl : l ∈ s.events.listeners) (hpre : s.data <+: stream items) :
    l.heard <+: (items.filterMap Item.prompt).drop l.since := by
  have hall : (linesOf (stream items)).filterMap (recorded rxHex) =
      items.filterMap Item.prompt := recorded_items hitems (.inl rfl)
  obtain ⟨rest, hrest⟩ := linesOf_mono hpre
  rw [← hrest, List.filterMap_append] at hall
  rw [← hall, List.drop_append]
  exact (Threads.heard_piece h hl).trans (List.prefix_append _ _)

/-- Of the whole stream, it has heard all once nothing is on its way. -/
theorem heard_all (hitems : ∀ i ∈ items, i.Legible rxHex) {s : Threads.State}
    (h : (Threads.machine rxHex).ReachIf Threads.Commands s) {l : FanOut.Listener Prompt}
    (hl : l ∈ s.events.listeners) (hdata : s.data = stream items) (hquiet : Threads.Quiet s) :
    l.heard = (items.filterMap Item.prompt).drop l.since := by
  rw [← prompts_items hitems hdata]
  exact Threads.heard_quiet h hl hquiet

/-- The light after the listener of the bulb was called with these prompts. -/
def lightOf (ps : List Prompt) : Bool :=
  ps.foldl (fun light p => (SwitchBulb.onEvent p light).1) false

/-- The command that a frame brings to the bulb. -/
def Item.command : Item → Option SwitchBulb.Command
  | .frame v f => match Bulb.request (f.rx (sregBit 0x0A s0aRxRssi v)) with
    | .command c _ _ => some c
    | _ => none
  | _ => none

/-- The module shows the frames for the bulb, and none of them is a command of a server. -/
def Item.FromClient : Item → Prop
  | .frame v f => (f.rx (sregBit 0x0A s0aRxRssi v)).Addressed → Shows v ∧
      ∀ frame ∈ Zcl.parse (f.payload.take rxShowMax), frame.clusterSpecific = true →
        frame.command ∈ [Zcl.cmdOff, Zcl.cmdOn, Zcl.cmdToggle] → frame.serverToClient = false
  | _ => True

/-- What a frame makes of the light. -/
def lightBy (r : Bulb.Rx) (light : Bool) : Bool :=
  match Bulb.request r with
  | .command c _ _ => c.apply light
  | _ => light

/-- The bulb follows a frame that is no command of a server. -/
theorem onEvent_light {r : Bulb.Rx} (light : Bool)
    (h : r.Addressed → ∀ frame ∈ Zcl.parse r.payload, frame.clusterSpecific = true →
      frame.command ∈ [Zcl.cmdOff, Zcl.cmdOn, Zcl.cmdToggle] → frame.serverToClient = false) :
    (SwitchBulb.onEvent r.prompt light).1 = lightBy r light := by
  unfold lightBy Bulb.request
  by_cases haddr : r.Addressed
  swap
  · rw [if_neg haddr, Bulb.onEvent_of_not_addressed haddr]
  rw [if_pos haddr, Bulb.onEvent_addressed haddr]
  cases hparse : Zcl.parse r.payload with
  | none => rw [Bulb.handle_none hparse]
  | some frame =>
    have hserver := h haddr frame hparse
    dsimp only
    cases hspec : frame.clusterSpecific with
    | true =>
      rcases Bulb.commandOf_cases frame.command with ⟨hno, hof⟩ | ⟨c, hc, -⟩
      · rw [Bulb.handle_other hparse (fun _ => hno) (by simp [hspec]), Bulb.requestOf, if_pos hspec,
          hof]
        cases frame.serverToClient <;> rfl
      · have hclient := hserver hspec (hc ▸ Bulb.code_mem c)
        rw [Bulb.handle_command hparse hspec hc, Bulb.requestOf_command hspec hc, hclient]
        rfl
    | false =>
      by_cases hread : frame.command = Zcl.readAttributes
      · rw [Bulb.handle_read hparse hspec hread, Bulb.requestOf, if_neg (by simp [hspec]),
          if_pos hread]
      · rw [Bulb.handle_other hparse (by simp [hspec]) (fun _ => hread), Bulb.requestOf,
          if_neg (by simp [hspec]), if_neg hread]

/-- A frame for the bulb is neither left to ZBOSS nor a text. -/
theorem not_foreign {on : Bool} (h : (f.rx on).Addressed) : ¬f.Foreign ∧ ¬f.IsText := by
  obtain ⟨hep, hprofile, -⟩ := h
  have hep : f.ind.dstEndpoint = epApp := hep
  have hprofile : f.ind.profileid = Zcl.profileHa := hprofile
  constructor
  · rintro (hzdo | hother)
    · rw [hprofile] at hzdo
      exact absurd hzdo (by decide)
    · exact hother.2 hep
  · rintro ⟨htext, -⟩
    rw [hep] at htext
    exact absurd htext (by decide)

/-- No line with a fixed structure but `RX` concerns the bulb. -/
theorem onEvent_line {l : Line} (h : ∀ ieee ind payload on, l ≠ .rx ieee ind payload on)
    (light : Bool) : (SwitchBulb.onEvent (Host.prompt l) light).1 = light := by
  cases l with
  | rx ieee ind payload on => exact absurd rfl (h ieee ind payload on)
  | _ => rfl

/-- One item, and what it makes of the light. -/
theorem light_item (hlegible : i.Legible rxHex) (h : i.FromClient) (light : Bool) :
    i.prompt.toList.foldl (fun light p => (SwitchBulb.onEvent p light).1) light =
      i.command.toList.foldl SwitchBulb.Command.apply light := by
  cases i with
  | line l =>
    have hline := onEvent_line hlegible light
    rw [Item.prompt, Option.filter_some]
    split_ifs
    · exact hline
    · rfl
  | value t => rfl
  | echo command => rfl
  | entry => rfl
  | frame v f =>
    have hcommand : (Item.command (.frame v f)).toList.foldl SwitchBulb.Command.apply light =
        lightBy (f.rx (sregBit 0x0A s0aRxRssi v)) light := by
      unfold Item.command lightBy
      dsimp only
      cases Bulb.request (f.rx (sregBit 0x0A s0aRxRssi v)) <;> rfl
    rw [hcommand]
    by_cases haddr : (f.rx (sregBit 0x0A s0aRxRssi v)).Addressed
    · obtain ⟨hforeign, htext⟩ := not_foreign haddr
      obtain ⟨hshow, hclient⟩ := h haddr
      rw [Item.prompt, Indication.prompt, if_neg hforeign, if_neg htext, if_pos hshow]
      exact onEvent_light light fun _ => hclient
    · have hby : lightBy (f.rx (sregBit 0x0A s0aRxRssi v)) light = light := by
        rw [lightBy, Bulb.request, if_neg haddr]
      rw [hby, Item.prompt, Indication.prompt]
      split_ifs
      · rfl
      · rfl
      · rfl
      · exact congrArg Prod.fst (Bulb.onEvent_of_not_addressed haddr)
      · rfl

/-- The light after the prompts of the items is what the commands among them make of it. -/
theorem light_items (hitems : ∀ i ∈ items, i.Legible rxHex) (hclient : ∀ i ∈ items, i.FromClient) :
    lightOf (items.filterMap Item.prompt) =
      SwitchBulb.lightAfter (items.filterMap Item.command) := by
  rw [lightOf, SwitchBulb.lightAfter]
  generalize false = light
  induction items generalizing light with
  | nil => rfl
  | cons i items ih =>
    have hi := light_item (hitems i List.mem_cons_self) (hclient i List.mem_cons_self) light
    have hrest := ih (fun j hj => hitems j (List.mem_cons_of_mem _ hj)) fun j hj =>
      hclient j (List.mem_cons_of_mem _ hj)
    rw [filterMap_cons_toList, filterMap_cons_toList, List.foldl_append, List.foldl_append, hi]
    exact hrest _

end

/-! ## One frame -/

theorem s0f_lt : 13 < regTable.length := by decide

/-- The registers of the bulb's module, and the command On from a switch. -/
def bulbVals : Vals := Function.update loadDefaults ⟨13, s0f_lt⟩ (ascii "1104")

def onFrame : Indication where
  ind := ⟨0x1A2B, 0x0104, 0x0006, 2, 2, -40, 200⟩
  broadcast := false
  ieee := none
  payload := [0x01, 0x05, 0x01]

/-- The echo and the result of a command stand before the frame. -/
def onItems : List Item := [.echo (ascii "AT"), .line .ok, .frame bulbVals onFrame]

theorem onItems_legible : ∀ i ∈ onItems, i.Legible true := by
  have hshown : sregBit 0x0F s0fRxHex bulbVals = true ∧ ¬onFrame.IsText := by decide
  intro i hi
  simp only [onItems, List.mem_cons, List.not_mem_nil, or_false] at hi
  rcases hi with rfl | rfl | rfl
  · exact ⟨by decide, by decide, by decide, by decide⟩
  · exact nofun
  · intro _
    rw [if_neg hshown.2]
    exact ⟨hshown.1, nofun⟩

theorem onItems_client : ∀ i ∈ onItems, i.FromClient := by
  have hframe : Shows bulbVals ∧ ((Zcl.parse (onFrame.payload.take rxShowMax)).all fun frame =>
      !frame.serverToClient) = true := by decide
  intro i hi
  simp only [onItems, List.mem_cons, List.not_mem_nil, or_false] at hi
  rcases hi with rfl | rfl | rfl
  · trivial
  · trivial
  · intro _
    refine ⟨hframe.1, fun frame hparse _ _ => ?_⟩
    have hall := hframe.2
    rw [hparse] at hall
    simpa using hall

/-- The listener is added, and the stream arrives in two chunks. -/
def onRun : List Threads.Action :=
  [.addListener, .setPending (some (ascii "AT")), .rx [], .rx ((stream onItems).take 9),
    .rx [], .rx [], .setPending none, .rx [], .rx [], .rx ((stream onItems).drop 9), .rx [],
    .rx [], .put, .get, .copy, .call true, .finish, .rx []]

def onPrompt : Prompt := (onFrame.rx false).prompt

def onState : Threads.State where
  buf := []
  rx := .test
  pending := none
  resp := [ascii "OK"]
  stop := false
  events := ⟨[onPrompt], none, [], [⟨0, 0, [onPrompt]⟩], .waiting, [onPrompt], none⟩
  data := stream onItems

theorem onRun_reach : (Threads.machine true).exec Threads.init onRun = some onState ∧
    (Threads.machine true).ReachIf Threads.Commands onState := by
  have hrun : (Threads.machine true).exec Threads.init onRun = some onState := by decide +kernel
  have hat : IsAt (ascii "AT") := by decide
  exact ⟨hrun, .exec (.init rfl) (by simp [onRun, Threads.Commands, hat]) hrun⟩

end ZbAt.Receive
