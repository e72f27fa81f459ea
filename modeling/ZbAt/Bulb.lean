import ZbAt.SwitchBulb

/-!
# What the bulb does with a frame

`Bulb._on_event` gets every `RX` prompt. What a frame asks of an On/Off light is its `Request`,
read off the payload; the bulb should do just that.

* `Request`, `request` — a command of a client, a read of attributes, or nothing for the bulb.
* `Obeys` — the light and the reply are those that the request asks for.
* `Fits` — the frames on which the bulb obeys: no command from a server, unless it asks for no
  answer and for the light as it is, and no read that leaves the OnOff attribute out.
* `obeys_iff` — the bulb obeys in every step of a run if and only if all its frames fit.
-/

namespace ZbAt.Bulb

open Text Zcl Host SwitchBulb

/-! ## Requests -/

/-- An `RX` prompt: the fields as the module prints them. -/
structure Rx where
  eui : Option Text
  nwk : UInt16
  profile : UInt16
  dstEp : UInt8
  srcEp : UInt8
  cluster : UInt16
  payload : List UInt8
  rssi : Option ℤ
  lqi : Option ℤ

def Rx.prompt (r : Rx) : Prompt :=
  .rx r.eui r.nwk.toNat r.profile.toNat r.dstEp.toNat r.srcEp.toNat r.cluster.toNat r.payload
    r.rssi r.lqi

/-- `ATTR_ON_OFF` -/
def attrOnOff : UInt16 := 0x0000

/-- The attributes that a read asks for: two bytes each, the low one first. -/
def attributeIds : List UInt8 → List UInt16
  | lo :: hi :: rest => (lo.toUInt16 + hi.toUInt16 * 256) :: attributeIds rest
  | _ => []

/-- `read_attributes` -/
def readAttributesFrame (seq : UInt8) (attrIds : List UInt16) : List UInt8 :=
  [0x00, seq, readAttributes] ++ attrIds.flatMap fun a : UInt16 => [a.toUInt8, (a >>> 8).toUInt8]

/-- What a frame on the On/Off cluster asks for. -/
inductive Request
  | command (c : Command) (seq : UInt8) (quiet : Bool)
  | read (seq : UInt8) (ids : List UInt16)
  | other
  deriving DecidableEq

/-- The command with a code. -/
def commandOf (code : UInt8) : Option Command :=
  if code = cmdOff then some .off
  else if code = cmdOn then some .on
  else if code = cmdToggle then some .toggle
  else none

/-- Commands come from a client; a read has no direction of its own. -/
def requestOf (frame : ZclFrame) : Request :=
  if frame.clusterSpecific then
    match frame.serverToClient, commandOf frame.command with
    | false, some c => .command c frame.seq frame.disableDefaultResponse
    | _, _ => .other
  else if frame.command = readAttributes then .read frame.seq (attributeIds frame.payload)
  else .other

/-- For endpoint 2, in the HA profile, on the On/Off cluster. -/
def Rx.Addressed (r : Rx) : Prop :=
  r.dstEp = endpoint ∧ r.profile = profileHa ∧ r.cluster = clusterOnOff

instance (r : Rx) : Decidable r.Addressed := inferInstanceAs (Decidable (_ ∧ _))

def request (r : Rx) : Request :=
  if r.Addressed then
    match parse r.payload with
    | some frame => requestOf frame
    | none => .other
  else .other

/-- A frame back to the sender's endpoint. -/
def Rx.answer (r : Rx) (payload : List UInt8) : ℕ × Frame :=
  (r.nwk.toNat, ⟨endpoint, r.srcEp, profileHa, clusterOnOff, payload⟩)

/-- What a request makes of the light, and its answer. -/
def Request.effect (r : Rx) (light : Bool) : Request → Bool × Option (ℕ × Frame)
  | .command c seq quiet =>
    (c.apply light,
      if quiet then none else some (r.answer (defaultResponse seq c.code statusSuccess)))
  | .read seq ids =>
    (light, if attrOnOff ∈ ids then some (r.answer (readOnOffResponse seq light)) else none)
  | .other => (light, none)

/-! ## The bulb's run -/

/-- A prompt that was handled, with the light before it, and what the bulb did. -/
structure Entry where
  light : Bool
  rx : Rx
  done : Bool × Option (ℕ × Frame)

structure State where
  light : Bool
  log : List Entry

/-- The bulb gets a prompt. -/
def step (s : State) (r : Rx) : Option State :=
  let done := onEvent r.prompt s.light
  some ⟨done.1, s.log ++ [⟨s.light, r, done⟩]⟩

/-- The light is off when the script starts. -/
def machine : Machine State Rx := ⟨(· = ⟨false, []⟩), step⟩

/-- The bulb did what the frame asks for. -/
def Obeys (e : Entry) : Prop := e.done = (request e.rx).effect e.rx e.light

instance (e : Entry) : Decidable (Obeys e) := inferInstanceAs (Decidable (_ = _))

/-- A command from a server asks for no answer and for the light as it is, and a read asks for the
OnOff attribute. -/
def FrameFits (light : Bool) (frame : ZclFrame) : Prop :=
  (frame.clusterSpecific = true → frame.serverToClient = true →
    frame.command ∈ [cmdOff, cmdOn, cmdToggle] →
      frame.disableDefaultResponse = true ∧ frame.command = if light then cmdOn else cmdOff) ∧
  (frame.clusterSpecific = false → frame.command = readAttributes →
    attrOnOff ∈ attributeIds frame.payload)

instance (light : Bool) (frame : ZclFrame) : Decidable (FrameFits light frame) :=
  inferInstanceAs (Decidable (_ ∧ _))

/-- The frames on which the bulb does what they ask for. -/
def Fits (s : State) (r : Rx) : Prop :=
  r.Addressed → ∀ frame ∈ parse r.payload, FrameFits s.light frame

instance (s : State) (r : Rx) : Decidable (Fits s r) := inferInstanceAs (Decidable (_ → _))

/-- The commands among the frames of a run. -/
def commands (log : List Entry) : List Command :=
  log.filterMap fun e =>
    match request e.rx with
    | .command c _ _ => some c
    | _ => none

/-! ## One frame -/

section

variable {s s' : State} {r : Rx} {frame : ZclFrame} {light : Bool}

theorem commandOf_cases (code : UInt8) :
    code ∉ [cmdOff, cmdOn, cmdToggle] ∧ commandOf code = none ∨
      ∃ c : Command, code = c.code ∧ commandOf code = some c := by
  by_cases hoff : code = cmdOff
  · exact .inr ⟨.off, hoff, by rw [hoff]; rfl⟩
  by_cases hon : code = cmdOn
  · exact .inr ⟨.on, hon, by rw [hon]; rfl⟩
  by_cases htoggle : code = cmdToggle
  · exact .inr ⟨.toggle, htoggle, by rw [htoggle]; rfl⟩
  · exact .inl ⟨by simp [hoff, hon, htoggle], by simp [commandOf, hoff, hon, htoggle]⟩

theorem code_mem (c : Command) : c.code ∈ [cmdOff, cmdOn, cmdToggle] := by
  cases c <;> decide

/-- The light of a command, as `_handle_zcl` computes it. -/
theorem apply_eq (c : Command) : c.apply light =
    if c.code = cmdOff then false else if c.code = cmdOn then true else !light := by
  cases c <;> rfl

/-- A command leaves the light as it is where it asks for what is there. -/
theorem apply_eq_light (c : Command) :
    c.apply light = light ↔ c.code = if light then cmdOn else cmdOff := by
  cases c <;> cases light <;> decide

theorem onEvent_of_not_addressed (h : ¬r.Addressed) : onEvent r.prompt light = (light, none) := by
  simp only [onEvent, Rx.prompt]
  by_cases hep : r.dstEp.toNat = endpoint.toNat ∧ r.profile.toNat = profileHa.toNat
  · have hcluster : r.cluster.toNat ≠ clusterOnOff.toNat := by
      intro hc
      exact h ⟨UInt8.toNat_inj.mp hep.1, UInt16.toNat_inj.mp hep.2, UInt16.toNat_inj.mp hc⟩
    rw [if_pos hep, handleZcl, if_pos hcluster]
  · rw [if_neg hep]

/-- A frame for the bulb, by `_handle_zcl`. -/
theorem onEvent_addressed (h : r.Addressed) : onEvent r.prompt light =
    handleZcl r.nwk.toNat r.srcEp.toNat clusterOnOff.toNat r.payload light := by
  obtain ⟨hep, hprofile, hcluster⟩ := h
  simp only [onEvent, Rx.prompt, hep, hprofile, hcluster, and_self, if_true]

theorem reply_eq (payload : List UInt8) :
    reply r.nwk.toNat r.srcEp.toNat clusterOnOff.toNat payload = r.answer payload := by
  simp [reply, Rx.answer]

theorem handle_none (h : parse r.payload = none) :
    handleZcl r.nwk.toNat r.srcEp.toNat clusterOnOff.toNat r.payload light = (light, none) := by
  simp only [handleZcl, h, ne_eq, not_true_eq_false, if_false]

/-- A cluster-specific command is followed, from wherever it comes. -/
theorem handle_command (h : parse r.payload = some frame) (hspec : frame.clusterSpecific = true)
    {c : Command} (hc : frame.command = c.code) :
    handleZcl r.nwk.toNat r.srcEp.toNat clusterOnOff.toNat r.payload light =
      (c.apply light, if frame.disableDefaultResponse then none
        else some (r.answer (defaultResponse frame.seq c.code statusSuccess))) := by
  have hmem := code_mem c
  rw [apply_eq]
  simp only [handleZcl, h, ne_eq, not_true_eq_false, if_false, hspec, hc, hmem, and_self, if_true,
    reply_eq]
  cases frame.disableDefaultResponse <;> rfl

/-- A read is answered, whatever it asks for. -/
theorem handle_read (h : parse r.payload = some frame) (hspec : frame.clusterSpecific = false)
    (hc : frame.command = readAttributes) :
    handleZcl r.nwk.toNat r.srcEp.toNat clusterOnOff.toNat r.payload light =
      (light, some (r.answer (readOnOffResponse frame.seq light))) := by
  simp [handleZcl, h, hspec, hc, reply_eq]

/-- Nothing else is. -/
theorem handle_other (h : parse r.payload = some frame)
    (hcommand : frame.clusterSpecific = true → frame.command ∉ [cmdOff, cmdOn, cmdToggle])
    (hread : frame.clusterSpecific = false → frame.command ≠ readAttributes) :
    handleZcl r.nwk.toNat r.srcEp.toNat clusterOnOff.toNat r.payload light = (light, none) := by
  simp only [handleZcl, h, ne_eq, not_true_eq_false, if_false]
  cases hspec : frame.clusterSpecific with
  | true => simp [hcommand hspec]
  | false => simp [hread hspec]

theorem requestOf_command (hspec : frame.clusterSpecific = true) {c : Command}
    (hc : frame.command = c.code) : requestOf frame =
      if frame.serverToClient then .other
      else .command c frame.seq frame.disableDefaultResponse := by
  have hof : commandOf c.code = some c := by cases c <;> rfl
  rw [requestOf, if_pos hspec, hc, hof]
  cases frame.serverToClient <;> rfl

/-- **One frame.** The bulb obeys exactly the frames that fit. -/
theorem obeys_step (s : State) (r : Rx) :
    Obeys ⟨s.light, r, onEvent r.prompt s.light⟩ ↔ Fits s r := by
  rw [Obeys, request]
  by_cases haddr : r.Addressed
  swap
  · rw [if_neg haddr, onEvent_of_not_addressed haddr]
    exact iff_of_true rfl fun h => absurd h haddr
  rw [if_pos haddr, onEvent_addressed haddr]
  cases hparse : parse r.payload with
  | none =>
    rw [handle_none hparse]
    refine iff_of_true rfl fun _ frame hf => ?_
    rw [hparse] at hf
    cases hf
  | some frame =>
    have hfits : Fits s r ↔ FrameFits s.light frame := by
      rw [Fits, forall_prop_of_true haddr, hparse]
      simp
    rw [hfits, FrameFits]
    dsimp only
    cases hspec : frame.clusterSpecific with
    | true =>
      rcases commandOf_cases frame.command with ⟨hno, hof⟩ | ⟨c, hc, hof⟩
      · rw [handle_other hparse (fun _ => hno) (by simp [hspec]), requestOf, if_pos hspec, hof]
        refine iff_of_true ?_ ⟨fun _ _ hmem => absurd hmem hno, by simp⟩
        cases frame.serverToClient <;> rfl
      · rw [handle_command hparse hspec hc, requestOf_command hspec hc, hc]
        -- a command of a client has its effect; one from a server should have none
        cases frame.serverToClient with
        | false => simp [Request.effect]
        | true =>
          have hmem := code_mem c
          cases frame.disableDefaultResponse <;>
            simp [Request.effect, hmem, apply_eq_light]
    | false =>
      by_cases hread : frame.command = readAttributes
      · rw [handle_read hparse hspec hread, requestOf, if_neg (by simp [hspec]), if_pos hread]
        by_cases hattr : attrOnOff ∈ attributeIds frame.payload <;>
          simp [Request.effect, hattr, hread]
      · rw [handle_other hparse (by simp [hspec]) (fun _ => hread), requestOf,
          if_neg (by simp [hspec]), if_neg hread]
        exact iff_of_true rfl ⟨fun h => by simp at h, fun _ h => absurd h hread⟩

/-! ## Runs -/

/-- What a frame that was obeyed made of the light. -/
theorem Obeys.light_eq {e : Entry} (h : Obeys e) :
    e.done.1 = (commands [e]).foldl Command.apply e.light := by
  rw [h]
  simp only [commands, List.filterMap_cons, List.filterMap_nil]
  cases request e.rx <;> rfl

theorem commands_append (log log' : List Entry) :
    commands (log ++ log') = commands log ++ commands log' := List.filterMap_append

/-- **The bulb's run.** The bulb does in every step what the frame asks for if and only if every
frame fits; and then its light is what the commands of clients have made of it. -/
theorem obeys_iff {s : State} (h : machine.Reach s) :
    ((∀ e ∈ s.log, Obeys e) ↔ machine.ReachIf Fits s) ∧
      ((∀ e ∈ s.log, Obeys e) → s.light = lightAfter (commands s.log)) := by
  constructor
  · refine h.iff_reachIf (fun s => ∀ e ∈ s.log, Obeys e) ?_ ?_
    · rintro s rfl e he
      cases he
    · intro s r s' _ hs
      cases hs
      rw [← obeys_step]
      simp [or_imp, forall_and]
  · refine h.invariant (fun s => (∀ e ∈ s.log, Obeys e) → s.light = lightAfter (commands s.log))
      ?_ ?_
    · rintro s rfl _
      rfl
    · intro s r s' ih _ hs hall
      cases hs
      have hlast := (hall _ (List.mem_append_right _ List.mem_cons_self)).light_eq
      have hlight := ih fun e he => hall e (List.mem_append_left _ he)
      rw [commands_append, lightAfter, List.foldl_append, ← lightAfter, ← hlight]
      exact hlast

end

/-! ## A frame from a server -/

/-- A frame on the On/Off cluster for the bulb. -/
def onOffFrame (payload : List UInt8) : Rx :=
  ⟨none, 0x1A2B, profileHa, endpoint, endpoint, clusterOnOff, payload, none, none⟩

/-- On, with an answer, and a read of the OnOff attribute. -/
def clientFrames : List Rx :=
  [onOffFrame (onOffCommand 5 cmdOn), onOffFrame (readAttributesFrame 9 [attrOnOff])]

theorem obeys_client : ∃ s, machine.exec ⟨false, []⟩ clientFrames = some s ∧ s.light = true ∧
    ∀ e ∈ s.log, Obeys e := by
  have hrun : machine.execIf Fits ⟨false, []⟩ clientFrames = some _ := rfl
  have hin : machine.ReachIf Fits _ := .execIf (.init rfl) hrun
  exact ⟨_, rfl, rfl, (obeys_iff hin.reach).1.mpr hin⟩

/-- On from a server, which switches the light on and is answered, and a read of the attribute
`0x4000`, which is answered with the OnOff attribute. -/
def strayFrames : List Rx :=
  [onOffFrame [fcClusterSpecific ||| fcServerToClient, 5, cmdOn],
    onOffFrame (readAttributesFrame 9 [0x4000])]

theorem not_obeys : ¬∀ s, machine.Reach s → ∀ e ∈ s.log, Obeys e := by
  intro h
  have hrun : machine.exec ⟨false, []⟩ strayFrames = some _ := rfl
  have hfirst := h _ (Machine.Reach.exec (.init rfl) hrun) _ List.mem_cons_self
  exact absurd hfirst (by decide)

end ZbAt.Bulb
