import ZbAt.SwitchBulb

/-!
# Every command of the switch is answered

There is at most one command on its way: with the switch's module, with the bulb, or its response
with the bulb's module or in the switch's history (`Stage`). What else the two programs see changes
no light and is no response (`Quiet`), and the history before a call is not searched.

* `onEvent_command`, `isResponse_answer` — a command shown to the bulb, and its answer shown to the
  switch.
* `inv` — the invariant of both programs.
* `commands_answered` — every call returns the status of its own response, and the light is what
  the commands so far make of it.
-/

namespace ZbAt.SwitchBulb

open Text Zcl Host

/-! ## Frames that are shown -/

/-- The prompt of a frame. -/
def Frame.prompt (f : Frame) (e : Shown) : Prompt :=
  Host.prompt (.rx e.ieee ⟨e.srcAddr, f.profile, f.cluster, f.dstEp, f.srcEp, e.rssi, e.lqi⟩
    f.data e.on)

/-- The answer to a command. -/
def answerFrame (seq : UInt8) (c : Command) : Frame :=
  ⟨endpoint, endpoint, profileHa, clusterOnOff, defaultResponse seq c.code statusSuccess⟩

/-- A frame that answers a read. -/
def IsRead (f : Frame) : Prop := ∃ seq on, f.data = readOnOffResponse seq on

section

variable {f : Frame} {e : Shown} {c : Command} {seq : UInt8} {p : Prompt}

/-- A frame that is shown is recorded. -/
theorem onLine_frame (f : Frame) (e : Shown) (call : Option ℕ) (events : List Event) :
    onLine (f.line e) call events = events ++ [⟨f.prompt e, call⟩] := by
  rw [onLine, Frame.line, parse_line]
  rfl

/-- Another line is recorded as one prompt, or not at all. -/
theorem onLine_cases (line : Text) (call : Option ℕ) (events : List Event) :
    onLine line call events = events ∨
      ∃ p, parsePrompt line true = some p ∧ onLine line call events = events ++ [⟨p, call⟩] := by
  rw [onLine]
  cases h : parsePrompt line true with
  | none => exact .inl rfl
  | some p =>
    dsimp only
    split_ifs
    · exact .inr ⟨p, rfl, rfl⟩
    · exact .inl rfl

/-- A short frame is shown whole. -/
theorem Frame.prompt_eq (e : Shown) (h : f.data.length ≤ 128) : f.prompt e =
    .rx (e.ieee.map fun a => bytesText a.1.reverse) e.srcAddr.toNat f.profile.toNat f.dstEp.toNat
      f.srcEp.toNat f.cluster.toNat f.data (if e.on then some e.rssi.toInt else none)
      (if e.on then some (e.lqi.toNat : ℤ) else none) := by
  rw [Frame.prompt, Host.prompt, List.take_of_length_le h]

/-- **A command at the bulb** changes the light and is answered. -/
theorem onEvent_command (seq : UInt8) (c : Command) (e : Shown) (light : Bool) :
    onEvent ((commandFrame seq c).prompt e) light =
      (c.apply light, some (e.srcAddr.toNat, answerFrame seq c)) := by
  show handleZcl e.srcAddr.toNat endpoint.toNat clusterOnOff.toNat (onOffCommand seq c.code)
    light = _
  rw [handleZcl, if_neg (not_not.mpr rfl), parse_onOffCommand]
  cases c <;> rfl

/-- Nothing else changes the light, and only a read is answered. -/
theorem onEvent_other (h : isCommand p = false) (light : Bool) :
    (onEvent p light).1 = light ∧ ∀ nwk f, (onEvent p light).2 = some (nwk, f) → IsRead f := by
  cases p with
  | rx eui nwk profile dstEp srcEp cluster payload rssi lqi =>
    rw [onEvent]
    split_ifs with hep
    · rw [handleZcl]
      split_ifs with hcluster
      · exact ⟨rfl, by simp⟩
      · cases hparse : parse payload with
        | none => exact ⟨rfl, by simp⟩
        | some frame =>
          have hno : ¬(frame.clusterSpecific ∧ frame.command ∈ [cmdOff, cmdOn, cmdToggle]) := by
            intro hcommand
            rw [not_not] at hcluster
            simp [isCommand, hep, hcluster, hparse, hcommand.1] at h
            simp [h] at hcommand
          dsimp only
          rw [if_neg hno]
          split_ifs
          · refine ⟨rfl, fun nwk' f hf => ?_⟩
            cases hf
            exact ⟨frame.seq, light, rfl⟩
          · exact ⟨rfl, by simp⟩
    · exact ⟨rfl, by simp⟩
  | _ => exact ⟨rfl, by simp [onEvent]⟩

/-- **An answer at the switch** is the response that the call looks for. -/
theorem isResponse_answer (seq : UInt8) (c : Command) (e : Shown) :
    isResponse ((answerFrame seq c).prompt e) seq = true ∧
      response ((answerFrame seq c).prompt e) = some (c.code, statusSuccess) := by
  constructor
  · have hparse := parse_defaultResponse seq c.code statusSuccess
    rw [Frame.prompt_eq e (by simp [answerFrame, defaultResponse]), isResponse]
    simp [answerFrame, hparse, parseDefaultResponse]
  · exact parseDefaultResponse_defaultResponse seq c.code statusSuccess

/-- The answer to a read is no response. -/
theorem isResponse_read (h : IsRead f) (e : Shown) (seq : UInt8) :
    isResponse (f.prompt e) seq = false := by
  obtain ⟨seq', on, hdata⟩ := h
  have hparse := parse_readOnOffResponse seq' on
  rw [Frame.prompt_eq e (by simp [hdata, readOnOffResponse]), isResponse, hdata]
  simp [hparse, parseDefaultResponse, readAttributesResponse, defaultResponseCommand]

end

/-! ## What belongs to a call -/

/-- The prompts that belong to calls. -/
def marked (events : List Event) : List Event := events.filter fun ev => ev.call.isSome

/-- The frames that belong to calls. -/
def markedFrames (packets : List Packet) : List Packet := packets.filter fun p => p.call.isSome

@[simp] theorem marked_nil : marked [] = [] := rfl

@[simp] theorem marked_append (a b : List Event) : marked (a ++ b) = marked a ++ marked b := by
  simp [marked]

@[simp] theorem marked_none (p : Prompt) : marked [⟨p, none⟩] = [] := rfl

@[simp] theorem marked_some (p : Prompt) (n : ℕ) : marked [⟨p, some n⟩] = [⟨p, some n⟩] := rfl

@[simp] theorem markedFrames_append (a b : List Packet) :
    markedFrames (a ++ b) = markedFrames a ++ markedFrames b := by
  simp [markedFrames]

section

variable {α : Type} {q : α → Bool} {l : List α} {i : ℕ} {x y : α}

/-- Taking out an element that is filtered out. -/
theorem filter_eraseIdx_neg (hx : l[i]? = some x) (hq : q x = false) :
    (l.eraseIdx i).filter q = l.filter q := by
  obtain ⟨hi, rfl⟩ := List.getElem?_eq_some_iff.mp hx
  have hsplit : l = l.take i ++ l[i] :: l.drop (i + 1) := by simp
  have hfilter := congrArg (List.filter q) hsplit
  rw [List.filter_append, List.filter_cons_of_neg (by simp [hq])] at hfilter
  rw [List.eraseIdx_eq_take_drop_succ, List.filter_append, hfilter]

/-- Taking out the only element that is not filtered out. -/
theorem filter_eraseIdx_pos (hx : l[i]? = some x) (hq : q x = true) (hone : l.filter q = [y]) :
    x = y ∧ (l.eraseIdx i).filter q = [] := by
  obtain ⟨hi, rfl⟩ := List.getElem?_eq_some_iff.mp hx
  have hsplit : l = l.take i ++ l[i] :: l.drop (i + 1) := by simp
  rw [hsplit, List.filter_append, List.filter_cons_of_pos hq] at hone
  rw [List.eraseIdx_eq_take_drop_succ, List.filter_append]
  rcases hfirst : (l.take i).filter q with _ | ⟨z, zs⟩
  · rw [hfirst, List.nil_append] at hone
    obtain ⟨hxy, hrest⟩ := List.cons.inj hone
    exact ⟨hxy, by rw [hrest, List.nil_append]⟩
  · rw [hfirst] at hone
    have hlen := congrArg List.length hone
    simp at hlen

end

/-! ## The invariant -/

/-- What belongs to no call is harmless. -/
structure Quiet (s : State) : Prop where
  events : ∀ ev ∈ s.events, ev.call = none → isCommand ev.prompt = false
  answers : ∀ p ∈ s.toSwitch, p.call = none → IsRead p.frame

/-- Nothing is on its way, and the light is what the commands `cs` make of it. -/
structure Settled (s : State) (cs : List Command) : Prop where
  toBulb : s.toBulb = []
  events : marked s.events = []
  toSwitch : markedFrames s.toSwitch = []
  light : s.light = lightAfter cs

/-- Where the command of the call `n` is, or its response. -/
inductive Stage (switchAddr : UInt16) (seq : UInt8) (c : Command) (mark n : ℕ) (s : State) : Prop
  | outgoing (toBulb : s.toBulb = [⟨commandFrame seq c, some n⟩]) (events : marked s.events = [])
      (toSwitch : markedFrames s.toSwitch = []) (history : marked (s.history.drop mark) = [])
      (light : s.light = lightAfter (s.commands.take n))
  | atBulb {e : Shown} (addr : e.srcAddr = switchAddr) (toBulb : s.toBulb = [])
      (events : marked s.events = [⟨(commandFrame seq c).prompt e, some n⟩])
      (toSwitch : markedFrames s.toSwitch = []) (history : marked (s.history.drop mark) = [])
      (light : s.light = lightAfter (s.commands.take n))
  | answered (toBulb : s.toBulb = []) (events : marked s.events = [])
      (toSwitch : markedFrames s.toSwitch = [⟨answerFrame seq c, some n⟩])
      (history : marked (s.history.drop mark) = []) (light : s.light = lightAfter s.commands)
  | shown {e : Shown} (settled : Settled s s.commands)
      (history : marked (s.history.drop mark) = [⟨(answerFrame seq c).prompt e, some n⟩])

/-- A call that has not returned. -/
structure Pending (s : State) (seq : UInt8) (c : Command) (mark : ℕ) : Prop where
  commands : s.commands = s.commands.take s.results.length ++ [c]
  room : mark ≤ s.history.length
  noise : ∀ ev ∈ s.history.drop mark, ev.call = none → isResponse ev.prompt seq = false

/-- Every result is that of its own command. -/
def Answered (s : State) : Prop := ∀ n r, s.results[n]? = some r →
  ∃ c, s.commands[n]? = some c ∧
    r = (⟨statusSuccess, c.code, some n, lightAfter (s.commands.take (n + 1))⟩ : Result)

/-- Where the switch is. -/
def Calling (switchAddr : UInt16) (s : State) : Prop :=
  match s.caller with
  | .idle => Settled s s.commands ∧ s.commands.length = s.results.length
  | .send seq c mark => Pending s seq c mark ∧
      Settled s (s.commands.take s.results.length) ∧ marked (s.history.drop mark) = []
  | .wait seq c mark => Pending s seq c mark ∧ Stage switchAddr seq c mark s.results.length s

structure Inv (switchAddr : UInt16) (s : State) : Prop where
  quiet : Quiet s
  answered : Answered s
  calling : Calling switchAddr s

/-! ## What belongs to no call -/

/-- Nothing that belongs to a call has moved, and what was recorded is no response. -/
structure Same (s s' : State) : Prop where
  caller : s'.caller = s.caller
  commands : s'.commands = s.commands
  results : s'.results = s.results
  light : s'.light = s.light
  toBulb : s'.toBulb = s.toBulb
  events : marked s'.events = marked s.events
  toSwitch : markedFrames s'.toSwitch = markedFrames s.toSwitch
  history : ∃ added, s'.history = s.history ++ added ∧
    ∀ ev ∈ added, ev.call = none ∧ ∀ seq ∈ s.caller.pending, isResponse ev.prompt seq = false

section

variable {switchAddr : UInt16} {s s' : State} {seq : UInt8} {c : Command} {mark n : ℕ}
  {cs : List Command} {ev : Event}

theorem Same.settled (h : Same s s') (hset : Settled s cs) : Settled s' cs :=
  ⟨h.toBulb.trans hset.toBulb, h.events.trans hset.events, h.toSwitch.trans hset.toSwitch,
    h.light.trans hset.light⟩

theorem Same.answered (h : Same s s') (ha : Answered s) : Answered s' := by
  intro n r hr
  rw [h.results] at hr
  rw [h.commands]
  exact ha n r hr

/-- No prompt of a call is recorded. -/
theorem Same.marked_drop (h : Same s s') (hroom : mark ≤ s.history.length) :
    marked (s'.history.drop mark) = marked (s.history.drop mark) := by
  obtain ⟨added, hadded, hnone⟩ := h.history
  have hmarked : marked added = [] := by
    rw [marked, List.filter_eq_nil_iff]
    intro ev hev
    simp [(hnone ev hev).1]
  rw [hadded, List.drop_append_of_le_length hroom, marked_append, hmarked, List.append_nil]

theorem Same.pending (h : Same s s') (hseq : seq ∈ s.caller.pending) (hp : Pending s seq c mark) :
    Pending s' seq c mark := by
  obtain ⟨added, hadded, hnone⟩ := h.history
  refine ⟨?_, ?_, ?_⟩
  · rw [h.commands, h.results]
    exact hp.commands
  · rw [hadded, List.length_append]
    exact Nat.le_add_right_of_le hp.room
  · rw [hadded, List.drop_append_of_le_length hp.room]
    intro ev hev hcall
    rcases List.mem_append.mp hev with hold | hnew
    · exact hp.noise ev hold hcall
    · exact (hnone ev hnew).2 seq hseq

theorem Same.stage (h : Same s s') (hroom : mark ≤ s.history.length)
    (hs : Stage switchAddr seq c mark n s) : Stage switchAddr seq c mark n s' := by
  have hdrop := h.marked_drop hroom
  have hcommands := h.commands
  cases hs with
  | outgoing toBulb events toSwitch history light =>
    exact .outgoing (h.toBulb.trans toBulb) (h.events.trans events) (h.toSwitch.trans toSwitch)
      (hdrop.trans history) (by rw [h.light, hcommands, light])
  | atBulb addr toBulb events toSwitch history light =>
    exact .atBulb addr (h.toBulb.trans toBulb) (h.events.trans events)
      (h.toSwitch.trans toSwitch) (hdrop.trans history) (by rw [h.light, hcommands, light])
  | answered toBulb events toSwitch history light =>
    exact .answered (h.toBulb.trans toBulb) (h.events.trans events) (h.toSwitch.trans toSwitch)
      (hdrop.trans history) (by rw [h.light, hcommands, light])
  | shown settled history =>
    exact .shown (by rw [hcommands]; exact h.settled settled) (hdrop.trans history)

/-- A step that moves nothing of a call. -/
theorem Same.calling (h : Same s s') (hc : Calling switchAddr s) : Calling switchAddr s' := by
  rw [Calling, h.caller]
  rw [Calling] at hc
  cases hcaller : s.caller with
  | idle =>
    rw [hcaller] at hc
    rw [h.commands, h.results]
    exact ⟨h.settled hc.1, hc.2⟩
  | send seq c mark =>
    rw [hcaller] at hc
    obtain ⟨hp, hset, hdrop⟩ := hc
    refine ⟨h.pending (by rw [hcaller]; rfl) hp, ?_, (h.marked_drop hp.room).trans hdrop⟩
    rw [h.commands, h.results]
    exact h.settled hset
  | wait seq c mark =>
    rw [hcaller] at hc
    obtain ⟨hp, hs⟩ := hc
    refine ⟨h.pending (by rw [hcaller]; rfl) hp, ?_⟩
    rw [h.results]
    exact h.stage hp.room hs

/-! ## The search -/

/-- The prompt that `_wait_index` finds is one of those, and meets the condition. -/
theorem waitIndex_found {pred : Event → Bool} {events : List Event} {i j : ℕ}
    (h : waitIndex pred events i = some (ev, j)) : ev ∈ events ∧ pred ev = true := by
  induction events generalizing i with
  | nil => cases h
  | cons first rest ih =>
    rw [waitIndex] at h
    by_cases hpred : pred first = true
    · rw [if_pos hpred] at h
      cases h
      exact ⟨List.mem_cons_self, hpred⟩
    · rw [if_neg hpred] at h
      obtain ⟨hmem, hev⟩ := ih h
      exact ⟨List.mem_cons_of_mem _ hmem, hev⟩

/-- It finds one when there is one. -/
theorem waitIndex_of_mem {pred : Event → Bool} {events : List Event} (i : ℕ) (hmem : ev ∈ events)
    (hpred : pred ev = true) : ∃ found, waitIndex pred events i = some found := by
  induction events generalizing i with
  | nil => cases hmem
  | cons first rest ih =>
    rw [waitIndex]
    by_cases hfirst : pred first = true
    · exact ⟨_, if_pos hfirst⟩
    · rw [if_neg hfirst]
      rcases List.mem_cons.mp hmem with rfl | hrest
      · exact absurd hpred hfirst
      · exact ih (i + 1) hrest

/-- **The response that is found** is that of the call, and nothing is on its way. -/
theorem Pending.found {i j : ℕ} (hp : Pending s seq c mark)
    (hs : Stage switchAddr seq c mark n s)
    (h : waitIndex (fun ev => isResponse ev.prompt seq) (s.history.drop mark) i = some (ev, j)) :
    Settled s s.commands ∧ ∃ e, ev = ⟨(answerFrame seq c).prompt e, some n⟩ := by
  obtain ⟨hmem, hresponse⟩ := waitIndex_found h
  have hcall : ev.call.isSome = true := by
    cases hcall : ev.call with
    | none => simp [hp.noise ev hmem hcall] at hresponse
    | some m => rfl
  have hmarked : ev ∈ marked (s.history.drop mark) := List.mem_filter.mpr ⟨hmem, hcall⟩
  cases hs with
  | outgoing _ _ _ history => simp [history] at hmarked
  | atBulb _ _ _ _ history => simp [history] at hmarked
  | answered _ _ _ history => simp [history] at hmarked
  | shown settled history =>
    rw [history, List.mem_singleton] at hmarked
    exact ⟨settled, _, hmarked⟩

/-! ## One step -/

/-- A step that records a harmless prompt at the bulb. -/
theorem Inv.event (h : Inv switchAddr s) {p : Prompt} (hp : isCommand p = false) :
    Inv switchAddr { s with events := s.events ++ [⟨p, none⟩] } := by
  have hsame : Same s { s with events := s.events ++ [⟨p, none⟩] } :=
    ⟨rfl, rfl, rfl, rfl, rfl, by simp, rfl, [], by simp, by simp⟩
  refine ⟨⟨?_, h.quiet.answers⟩, hsame.answered h.answered, hsame.calling h.calling⟩
  intro ev hev hcall
  rcases List.mem_append.mp hev with hold | hnew
  · exact h.quiet.events ev hold hcall
  · rw [List.mem_singleton.mp hnew]
    exact hp

/-- A step that records a prompt at the switch that is no response. -/
theorem Inv.record (h : Inv switchAddr s) {p : Prompt}
    (hp : ∀ seq ∈ s.caller.pending, isResponse p seq = false) :
    Inv switchAddr { s with history := s.history ++ [⟨p, none⟩] } := by
  have hsame : Same s { s with history := s.history ++ [⟨p, none⟩] } := by
    refine ⟨rfl, rfl, rfl, rfl, rfl, rfl, rfl, [⟨p, none⟩], rfl, ?_⟩
    intro ev hev
    rw [List.mem_singleton.mp hev]
    exact ⟨rfl, hp⟩
  exact ⟨⟨h.quiet.events, h.quiet.answers⟩, hsame.answered h.answered, hsame.calling h.calling⟩

theorem Inv.call (h : Inv switchAddr s) (hcaller : s.caller = .idle) (c : Command) :
    Inv switchAddr { s with
      seq := s.seq + 1
      caller := .send (s.seq + 1) c s.history.length
      commands := s.commands ++ [c] } := by
  have hc := h.calling
  rw [Calling, hcaller] at hc
  obtain ⟨hset, hlen⟩ := hc
  have htake : (s.commands ++ [c]).take s.results.length = s.commands := by
    rw [← hlen, List.take_left]
  refine ⟨⟨h.quiet.events, h.quiet.answers⟩, ?_, ?_⟩
  · intro n r hr
    obtain ⟨c', hc', heq⟩ := h.answered n r hr
    have hn : n < s.commands.length := (List.getElem?_eq_some_iff.mp hc').1
    refine ⟨c', ?_, ?_⟩
    · show (s.commands ++ [c])[n]? = some c'
      rw [List.getElem?_append_left hn, hc']
    · show r = (⟨statusSuccess, c'.code, some n,
        lightAfter ((s.commands ++ [c]).take (n + 1))⟩ : Result)
      rw [List.take_append_of_le_length hn, heq]
  · refine ⟨⟨?_, le_refl _, ?_⟩, ?_, ?_⟩
    · show s.commands ++ [c] = (s.commands ++ [c]).take s.results.length ++ [c]
      rw [htake]
    · intro ev hev
      simp at hev
    · show Settled _ ((s.commands ++ [c]).take s.results.length)
      rw [htake]
      exact ⟨hset.toBulb, hset.events, hset.toSwitch, hset.light⟩
    · simp

/-- One call more than results is running. -/
theorem Pending.length (h : Pending s seq c mark) : s.commands.length = s.results.length + 1 := by
  have hlen := congrArg List.length h.commands
  rw [List.length_append, List.length_take, List.length_singleton] at hlen
  omega

theorem Inv.send (h : Inv switchAddr s) (hcaller : s.caller = .send seq c mark) :
    Inv switchAddr { s with
      toBulb := s.toBulb ++ [⟨commandFrame seq c, some (s.commands.length - 1)⟩]
      caller := .wait seq c mark } := by
  have hc := h.calling
  rw [Calling, hcaller] at hc
  obtain ⟨hp, hset, hdrop⟩ := hc
  refine ⟨⟨h.quiet.events, h.quiet.answers⟩, h.answered, ⟨hp.commands, hp.room, hp.noise⟩, ?_⟩
  refine .outgoing ?_ hset.events hset.toSwitch hdrop hset.light
  rw [hset.toBulb, hp.length]
  rfl

/-- Nothing of a call is on its way, or the call waits for its response. -/
theorem Calling.settled_or_waits (h : Calling switchAddr s) : (∃ cs, Settled s cs) ∨
    ∃ seq c mark, s.caller = .wait seq c mark ∧ Pending s seq c mark ∧
      Stage switchAddr seq c mark s.results.length s := by
  rw [Calling] at h
  cases hcaller : s.caller with
  | idle =>
    rw [hcaller] at h
    exact .inl ⟨_, h.1⟩
  | send seq c mark =>
    rw [hcaller] at h
    exact .inl ⟨_, h.2.1⟩
  | wait seq c mark =>
    rw [hcaller] at h
    exact .inr ⟨seq, c, mark, rfl, h⟩

/-- A frame on its way to the bulb is the command of the call. -/
theorem Calling.toBulb (h : Calling switchAddr s) {p : Packet} (hp : p ∈ s.toBulb) :
    ∃ seq c mark, s.caller = .wait seq c mark ∧ Pending s seq c mark ∧
      s.toBulb = [⟨commandFrame seq c, some s.results.length⟩] ∧ marked s.events = [] ∧
      markedFrames s.toSwitch = [] ∧ marked (s.history.drop mark) = [] ∧
      s.light = lightAfter (s.commands.take s.results.length) := by
  rcases h.settled_or_waits with ⟨cs, hset⟩ | ⟨seq, c, mark, hcaller, hpending, hstage⟩
  · simp [hset.toBulb] at hp
  · cases hstage with
    | outgoing toBulb events toSwitch history light =>
      exact ⟨seq, c, mark, hcaller, hpending, toBulb, events, toSwitch, history, light⟩
    | atBulb _ toBulb => simp [toBulb] at hp
    | answered toBulb => simp [toBulb] at hp
    | shown settled => simp [settled.toBulb] at hp

/-- A prompt that belongs to a call is its command, at the bulb. -/
theorem Calling.event (h : Calling switchAddr s) (hev : ev ∈ s.events) {m : ℕ}
    (hcall : ev.call = some m) :
    ∃ seq c mark e, s.caller = .wait seq c mark ∧ Pending s seq c mark ∧ e.srcAddr = switchAddr ∧
      s.toBulb = [] ∧ ev = ⟨(commandFrame seq c).prompt e, some s.results.length⟩ ∧
      marked s.events = [ev] ∧ markedFrames s.toSwitch = [] ∧
      marked (s.history.drop mark) = [] ∧
      s.light = lightAfter (s.commands.take s.results.length) := by
  have hmarked : ev ∈ marked s.events := List.mem_filter.mpr ⟨hev, by rw [hcall]; rfl⟩
  rcases h.settled_or_waits with ⟨cs, hset⟩ | ⟨seq, c, mark, hcaller, hpending, hstage⟩
  · simp [hset.events] at hmarked
  · cases hstage with
    | outgoing _ events => simp [events] at hmarked
    | atBulb addr toBulb events toSwitch history light =>
      rw [events, List.mem_singleton] at hmarked
      exact ⟨seq, c, mark, _, hcaller, hpending, addr, toBulb, hmarked, by rw [events, hmarked],
        toSwitch, history, light⟩
    | answered _ events => simp [events] at hmarked
    | shown settled => simp [settled.events] at hmarked

/-- A frame of the bulb that belongs to a call is the answer to its command. -/
theorem Calling.toSwitch (h : Calling switchAddr s) {p : Packet} (hp : p ∈ s.toSwitch) {m : ℕ}
    (hcall : p.call = some m) :
    ∃ seq c mark, s.caller = .wait seq c mark ∧ Pending s seq c mark ∧ s.toBulb = [] ∧
      marked s.events = [] ∧
      markedFrames s.toSwitch = [⟨answerFrame seq c, some s.results.length⟩] ∧
      marked (s.history.drop mark) = [] ∧ s.light = lightAfter s.commands := by
  have hmarked : p ∈ markedFrames s.toSwitch := List.mem_filter.mpr ⟨hp, by rw [hcall]; rfl⟩
  rcases h.settled_or_waits with ⟨cs, hset⟩ | ⟨seq, c, mark, hcaller, hpending, hstage⟩
  · simp [hset.toSwitch] at hmarked
  · cases hstage with
    | outgoing _ _ toSwitch => simp [toSwitch] at hmarked
    | atBulb _ _ _ toSwitch => simp [toSwitch] at hmarked
    | answered toBulb events toSwitch history light =>
      exact ⟨seq, c, mark, hcaller, hpending, toBulb, events, toSwitch, history, light⟩
    | shown settled => simp [settled.toSwitch] at hmarked

theorem Inv.atBulb (h : Inv switchAddr s) {p : Packet} {i : ℕ} (hp : s.toBulb[i]? = some p)
    (e : Shown) :
    Inv switchAddr { s with
      toBulb := s.toBulb.eraseIdx i
      events := onLine (p.frame.line { e with srcAddr := switchAddr }) p.call s.events } := by
  obtain ⟨seq, c, mark, hcaller, hpending, hbulb, hevents, hswitch, hdrop, hlight⟩ :=
    h.calling.toBulb (List.mem_of_getElem? hp)
  have hi : i = 0 := by
    have hlen := (List.getElem?_eq_some_iff.mp hp).1
    rw [hbulb, List.length_singleton] at hlen
    omega
  subst hi
  rw [hbulb] at hp
  cases hp
  rw [onLine_frame]
  refine ⟨⟨?_, h.quiet.answers⟩, h.answered, ?_⟩
  · intro ev hev hcall
    rcases List.mem_append.mp hev with hold | hnew
    · exact h.quiet.events ev hold hcall
    · rw [List.mem_singleton.mp hnew] at hcall
      cases hcall
  · rw [Calling, hcaller]
    refine ⟨⟨hpending.commands, hpending.room, hpending.noise⟩, ?_⟩
    refine .atBulb (e := { e with srcAddr := switchAddr }) rfl ?_ ?_ hswitch hdrop hlight
    · show s.toBulb.eraseIdx 0 = []
      rw [hbulb]
      rfl
    · show marked (s.events ++ _) = _
      rw [marked_append, hevents]
      rfl

/-- The bulb handles a prompt that belongs to no call. -/
theorem Inv.handle_none (h : Inv switchAddr s) {rest : List Event} (hev : s.events = ev :: rest)
    (hcall : ev.call = none) :
    Inv switchAddr (handle switchAddr ev { s with events := rest }) := by
  have hcommand : isCommand ev.prompt = false :=
    h.quiet.events ev (by rw [hev]; exact List.mem_cons_self) hcall
  obtain ⟨hlight, hread⟩ := onEvent_other hcommand s.light
  have hquiet : ∀ p ∈ sentToSwitch switchAddr ev.call (onEvent ev.prompt s.light).2,
      p.call = none ∧ IsRead p.frame := by
    intro p hp
    cases hanswer : (onEvent ev.prompt s.light).2 with
    | none =>
      rw [hanswer] at hp
      cases hp
    | some answer =>
      obtain ⟨nwk, f⟩ := answer
      rw [hanswer, sentToSwitch] at hp
      by_cases hnwk : nwk = switchAddr.toNat
      · rw [if_pos hnwk] at hp
        rw [List.mem_singleton.mp hp]
        exact ⟨hcall, hread nwk f hanswer⟩
      · rw [if_neg hnwk] at hp
        cases hp
  have hnone :
      markedFrames (sentToSwitch switchAddr ev.call (onEvent ev.prompt s.light).2) = [] := by
    rw [markedFrames, List.filter_eq_nil_iff]
    intro p hp
    simp [(hquiet p hp).1]
  have hsame : Same s (handle switchAddr ev { s with events := rest }) := by
    refine ⟨rfl, rfl, rfl, hlight, rfl, ?_, ?_, [], (List.append_nil _).symm, by simp⟩
    · show marked rest = marked s.events
      rw [hev, marked, marked, List.filter_cons_of_neg (by simp [hcall])]
    · show markedFrames (s.toSwitch ++
        sentToSwitch switchAddr ev.call (onEvent ev.prompt s.light).2) = _
      rw [markedFrames_append, hnone, List.append_nil]
  refine ⟨⟨?_, ?_⟩, hsame.answered h.answered, hsame.calling h.calling⟩
  · intro ev' hev' hcall'
    exact h.quiet.events ev' (by rw [hev]; exact List.mem_cons_of_mem _ hev') hcall'
  · intro p hp hcall'
    rcases List.mem_append.mp hp with hold | hnew
    · exact h.quiet.answers p hold hcall'
    · exact (hquiet p hnew).2

/-- The bulb handles the command of the call. -/
theorem Inv.handle_some (h : Inv switchAddr s) {rest : List Event} (hev : s.events = ev :: rest)
    {m : ℕ} (hcall : ev.call = some m) :
    Inv switchAddr (handle switchAddr ev { s with events := rest }) := by
  obtain ⟨seq, c, mark, e, hcaller, hp, haddr, hbulb, rfl, hmarked, hswitch, hdrop, hlight⟩ :=
    h.calling.event (by rw [hev]; exact List.mem_cons_self) hcall
  have hhandle : handle switchAddr ⟨(commandFrame seq c).prompt e, some s.results.length⟩
      { s with events := rest } = { s with
        events := rest
        light := c.apply s.light
        toSwitch := s.toSwitch ++ [⟨answerFrame seq c, some s.results.length⟩] } := by
    rw [handle, onEvent_command]
    simp [sentToSwitch, haddr]
  rw [hhandle]
  refine ⟨⟨?_, ?_⟩, h.answered, ?_⟩
  · intro ev' hev' hcall'
    exact h.quiet.events ev' (by rw [hev]; exact List.mem_cons_of_mem _ hev') hcall'
  · intro p hp' hcall'
    rcases List.mem_append.mp hp' with hold | hnew
    · exact h.quiet.answers p hold hcall'
    · rw [List.mem_singleton.mp hnew] at hcall'
      cases hcall'
  · rw [Calling, hcaller]
    refine ⟨⟨hp.commands, hp.room, hp.noise⟩, .answered hbulb ?_ ?_ hdrop ?_⟩
    · show marked rest = []
      rw [hev, marked, List.filter_cons_of_pos rfl] at hmarked
      exact (List.cons.inj hmarked).2
    · rw [markedFrames_append, hswitch]
      rfl
    · show c.apply s.light = lightAfter s.commands
      rw [hp.commands, hlight, lightAfter, lightAfter, List.foldl_append]
      rfl

theorem Inv.atSwitch (h : Inv switchAddr s) {p : Packet} {i : ℕ} (hp : s.toSwitch[i]? = some p)
    (e : Shown) :
    Inv switchAddr { s with
      toSwitch := s.toSwitch.eraseIdx i
      history := onLine (p.frame.line e) p.call s.history } := by
  have hmem := List.mem_of_getElem? hp
  have hquiet : ∀ p' ∈ s.toSwitch.eraseIdx i, p'.call = none → IsRead p'.frame :=
    fun p' hp' => h.quiet.answers p' (List.mem_of_mem_eraseIdx hp')
  rw [onLine_frame]
  cases hcall : p.call with
  | none =>
    have hsame : Same s { s with
        toSwitch := s.toSwitch.eraseIdx i
        history := s.history ++ [⟨p.frame.prompt e, none⟩] } := by
      refine ⟨rfl, rfl, rfl, rfl, rfl, rfl, ?_, [⟨p.frame.prompt e, none⟩], rfl, ?_⟩
      · exact filter_eraseIdx_neg hp (by rw [hcall]; rfl)
      · intro ev hev
        rw [List.mem_singleton.mp hev]
        exact ⟨rfl, fun seq _ => isResponse_read (h.quiet.answers p hmem hcall) e seq⟩
    exact ⟨⟨h.quiet.events, hquiet⟩, hsame.answered h.answered, hsame.calling h.calling⟩
  | some m =>
    obtain ⟨seq, c, mark, hcaller, hpending, hbulb, hevents, hone, hdrop, hlight⟩ :=
      h.calling.toSwitch hmem hcall
    obtain ⟨rfl, hnone⟩ := filter_eraseIdx_pos hp (by rw [hcall]; rfl) hone
    cases hcall
    refine ⟨⟨h.quiet.events, hquiet⟩, h.answered, ?_⟩
    rw [Calling, hcaller]
    refine ⟨⟨hpending.commands, ?_, ?_⟩, ?_⟩
    · show mark ≤ (s.history ++ _).length
      rw [List.length_append]
      exact Nat.le_add_right_of_le hpending.room
    · show ∀ ev ∈ (s.history ++ _).drop mark, _
      rw [List.drop_append_of_le_length hpending.room]
      intro ev hev hcall'
      rcases List.mem_append.mp hev with hold | hnew
      · exact hpending.noise ev hold hcall'
      · rw [List.mem_singleton.mp hnew] at hcall'
        cases hcall'
    · refine .shown (e := e) ⟨hbulb, hevents, hnone, hlight⟩ ?_
      show marked ((s.history ++ _).drop mark) = _
      rw [List.drop_append_of_le_length hpending.room, marked_append, hdrop]
      rfl

theorem Inv.finish (h : Inv switchAddr s) (hcaller : s.caller = .wait seq c mark) {i j : ℕ}
    (hfound : waitIndex (fun ev => isResponse ev.prompt seq) (s.history.drop mark) i =
      some (ev, j)) :
    response ev.prompt = some (c.code, statusSuccess) ∧
      Inv switchAddr { s with
        caller := .idle
        results := s.results ++ [⟨statusSuccess, c.code, ev.call, s.light⟩] } := by
  have hc := h.calling
  rw [Calling, hcaller] at hc
  obtain ⟨hp, hstage⟩ := hc
  obtain ⟨hset, e, rfl⟩ := hp.found hstage hfound
  refine ⟨(isResponse_answer seq c e).2, ⟨h.quiet.events, h.quiet.answers⟩, ?_, ?_⟩
  · intro n r hr
    by_cases hn : n < s.results.length
    · exact h.answered n r (by rwa [List.getElem?_append_left hn] at hr)
    · have hlen := (List.getElem?_eq_some_iff.mp hr).1
      have hn' : n = s.results.length := by
        rw [List.length_append, List.length_singleton] at hlen
        omega
      subst hn'
      rw [List.getElem?_concat_length] at hr
      cases hr
      refine ⟨c, ?_, ?_⟩
      · show s.commands[s.results.length]? = some c
        have hlast := hp.commands
        rw [hlast, List.getElem?_append_right (by simp), List.length_take, hp.length]
        simp
      · show (⟨_, _, _, s.light⟩ : Result) =
          ⟨_, _, _, lightAfter (s.commands.take (s.results.length + 1))⟩
        rw [← hp.length, List.take_length, hset.light]
  · refine ⟨⟨hset.toBulb, hset.events, hset.toSwitch, hset.light⟩, ?_⟩
    show s.commands.length = (s.results ++ _).length
    rw [List.length_append, List.length_singleton, hp.length]

/-! ## Every run -/

theorem inv_init (switchAddr : UInt16) : Inv switchAddr init :=
  ⟨⟨by simp [init], by simp [init]⟩, by simp [Answered, init], ⟨rfl, rfl, rfl, rfl⟩, rfl⟩

theorem inv_step (a : Action) (h : Inv switchAddr s) (hundisturbed : Undisturbed s a)
    (hstep : step switchAddr s a = some s') : Inv switchAddr s' := by
  cases a with
  | call c =>
    cases hcaller : s.caller with
    | idle =>
      simp only [step, hcaller, Option.some.injEq] at hstep
      rw [← hstep]
      exact h.call hcaller c
    | send | wait => simp [step, hcaller] at hstep
  | send =>
    cases hcaller : s.caller with
    | send seq c mark =>
      simp only [step, hcaller, Option.some.injEq] at hstep
      rw [← hstep]
      exact h.send hcaller
    | idle | wait => simp [step, hcaller] at hstep
  | atBulb i e =>
    cases hp : s.toBulb[i]? with
    | none => simp [step, hp] at hstep
    | some p =>
      simp only [step, hp, Option.some.injEq] at hstep
      rw [← hstep]
      exact h.atBulb hp e
  | handle =>
    cases hev : s.events with
    | nil => simp [step, hev] at hstep
    | cons ev rest =>
      simp only [step, hev, Option.some.injEq] at hstep
      rw [← hstep]
      cases hcall : ev.call with
      | none => exact h.handle_none hev hcall
      | some m => exact h.handle_some hev hcall
  | atSwitch i e =>
    cases hp : s.toSwitch[i]? with
    | none => simp [step, hp] at hstep
    | some p =>
      simp only [step, hp, Option.some.injEq] at hstep
      rw [← hstep]
      exact h.atSwitch hp e
  | finish =>
    cases hcaller : s.caller with
    | wait seq c mark =>
      simp only [step, hcaller] at hstep
      cases hfound : waitIndex (fun ev => isResponse ev.prompt seq) (s.history.drop mark) mark with
      | none => simp [hfound] at hstep
      | some found =>
        obtain ⟨ev, j⟩ := found
        obtain ⟨hresponse, hinv⟩ := h.finish hcaller hfound
        simp only [hfound, hresponse, Option.some.injEq] at hstep
        rw [← hstep]
        exact hinv
    | idle | send => simp [step, hcaller] at hstep
  | lineAtSwitch line =>
    rw [step, Option.some.injEq] at hstep
    rw [← hstep]
    rcases onLine_cases line none s.history with hsame | ⟨p, hp, hadded⟩
    · rw [hsame]
      exact h
    · rw [hadded]
      exact h.record (hundisturbed p hp)
  | lineAtBulb line =>
    rw [step, Option.some.injEq] at hstep
    rw [← hstep]
    rcases onLine_cases line none s.events with hsame | ⟨p, hp, hadded⟩
    · rw [hsame]
      exact h
    · rw [hadded]
      exact h.event (hundisturbed p hp)

theorem inv (h : (machine switchAddr).ReachIf Undisturbed s) : Inv switchAddr s :=
  h.invariant (Inv switchAddr)
    (fun s' (hs : s' = init) => by rw [hs]; exact inv_init switchAddr)
    fun _ a _ hs hundisturbed hstep => inv_step a hs hundisturbed hstep

/-- A call returns once nothing is on its way. -/
theorem Inv.returns (h : Inv switchAddr s) (hcaller : s.caller = .wait seq c mark)
    (hbulb : s.toBulb = []) (hevents : s.events = []) (hswitch : s.toSwitch = []) :
    ∃ s', step switchAddr s .finish = some s' := by
  have hc := h.calling
  rw [Calling, hcaller] at hc
  cases hc.2 with
  | outgoing toBulb => simp [toBulb] at hbulb
  | atBulb _ _ events => simp [hevents] at events
  | answered _ _ toSwitch => simp [hswitch, markedFrames] at toSwitch
  | @shown e _ history =>
    have hmem : (⟨(answerFrame seq c).prompt e, some s.results.length⟩ : Event) ∈
        s.history.drop mark := by
      have hmarked : (⟨(answerFrame seq c).prompt e, some s.results.length⟩ : Event) ∈
          marked (s.history.drop mark) := by
        rw [history]
        exact List.mem_singleton_self _
      exact (List.mem_filter.mp hmarked).1
    obtain ⟨⟨ev, j⟩, hfound⟩ := @waitIndex_of_mem _ (fun ev => isResponse ev.prompt seq) _ mark
      hmem (isResponse_answer seq c e).1
    simp only [step, hcaller, hfound, (h.finish hcaller hfound).1]
    exact ⟨_, rfl⟩

/-- **Every command is answered.** In every run in which the other lines are no commands to the
bulb and no responses to the call that runs, every call returns status 0 from the response to its
own command, with the light as the commands so far make it; and a call returns once all frames are
shown. -/
theorem commands_answered (switchAddr : UInt16) (s : State)
    (h : (machine switchAddr).ReachIf Undisturbed s) :
    (∀ n r, s.results[n]? = some r → ∃ c, s.commands[n]? = some c ∧
      r = (⟨statusSuccess, c.code, some n, lightAfter (s.commands.take (n + 1))⟩ : Result)) ∧
    ∀ seq c mark, s.caller = .wait seq c mark → s.toBulb = [] → s.events = [] → s.toSwitch = [] →
      ∃ s', step switchAddr s .finish = some s' :=
  ⟨(inv h).answered, fun _ _ _ hcaller hbulb hevents hswitch =>
    (inv h).returns hcaller hbulb hevents hswitch⟩

end

/-! ## Runs -/

/-- A frame is received from `srcAddr`, without an EUI64. -/
def shownFrom (srcAddr : UInt16) : Shown := ⟨none, srcAddr, -40, 255, true⟩

/-- On, then toggle up to its response. An announcement and a response with the number of the second
call arrive at the switch in the first, the response to the first in the second; a read of another
node arrives at the bulb. -/
def twoCalls : List Action :=
  [.call .on, .send, .lineAtSwitch (ascii "FFD:F4CE36000000B002,1234"),
    .lineAtSwitch (ascii "RX:5678,0104,02,02,0006,05:18020B0286"), .atBulb 0 (shownFrom 0x1234),
    .lineAtBulb (ascii "RX:9999,0104,02,01,0006,05:0007000000"), .handle,
    .atSwitch 0 (shownFrom 0x5678), .handle, .finish,
    .call .toggle, .send, .lineAtSwitch (ascii "RX:5678,0104,02,02,0006,05:18010B0100"),
    .atBulb 0 (shownFrom 0x1234), .handle, .atSwitch 0 (shownFrom 0x5678)]

theorem twoCalls_exec : ((machine 0x1234).execIf Undisturbed init twoCalls).map
    (fun s => (s.results, s.caller, s.toBulb, s.events.length, s.toSwitch)) =
      some ([⟨0, 1, some 0, true⟩], .wait 2 .toggle 3, [], 0, []) := by
  decide +kernel

/-- The first call has its status from the bulb, and the second one can return. -/
theorem commands_answered_two : ∃ s : State, s.results.length = 1 ∧
    (∃ c, s.commands[0]? = some c ∧ (⟨0, 1, some 0, true⟩ : Result) =
      ⟨statusSuccess, c.code, some 0, lightAfter (s.commands.take 1)⟩) ∧
    ∃ s', step 0x1234 s .finish = some s' := by
  obtain ⟨s, he, hs⟩ := Option.map_eq_some_iff.mp twoCalls_exec
  simp only [Prod.mk.injEq] at hs
  obtain ⟨hresults, hcaller, hbulb, hevents, hswitch⟩ := hs
  have hr := Machine.ReachIf.execIf (.init rfl) he
  obtain ⟨hanswered, hreturns⟩ := commands_answered 0x1234 s hr
  refine ⟨s, by rw [hresults]; rfl, hanswered 0 _ (by rw [hresults]; rfl), ?_⟩
  exact hreturns _ _ _ hcaller hbulb (List.length_eq_zero_iff.mp hevents) hswitch

/-- Another node sends a Default Response with the sequence number of the call. -/
def foreignResponse : List Action :=
  [.call .on, .send, .lineAtSwitch (ascii "RX:9999,0104,02,01,0006,05:18010B0186"), .finish]

theorem foreignResponse_exec : ((machine 0x1234).exec init foreignResponse).map
    (fun s => (s.results, s.commands)) = some ([⟨0x86, 1, none, false⟩], [.on]) := by
  decide +kernel

/-- **A response of another node** is taken for the bulb's, before the bulb has the command. -/
theorem commands_answered_foreign : ∃ s : State, (machine 0x1234).Reach s ∧
    ∃ r, s.results[0]? = some r ∧ r.status ≠ statusSuccess ∧ r.call ≠ some 0 ∧
      r.light ≠ lightAfter (s.commands.take 1) := by
  obtain ⟨s, he, hs⟩ := Option.map_eq_some_iff.mp foreignResponse_exec
  simp only [Prod.mk.injEq] at hs
  refine ⟨s, .exec (.init rfl) he, ⟨0x86, 1, none, false⟩, by rw [hs.1]; rfl, by decide,
    by decide, ?_⟩
  rw [hs.2]
  decide

end ZbAt.SwitchBulb
