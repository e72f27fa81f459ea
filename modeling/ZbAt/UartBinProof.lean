import ZbAt.UartBin

/-!
# Binary entries: what a call of at_uart_read_binary gets

`StepTo` lists what one step can do. The entry that the AT thread works on is `Quiet` until it is
armed and `Pending` from then on: open while bytes are missing, and done from its last byte on. A
completion of an entry can be left in `bin_done` by a call that timed out; the next call takes it
back before it arms its own entry.

* `read_binary` — a call that returns 0 has the bytes received since it was armed.
-/

namespace ZbAt.Uart.Bin

/-! ## Steps -/

/-- A step of the receive thread, of a caller of `at_uart_set_echo` or of a user of `line_q`. -/
structure RxStep (s : State) (rx : RxPc) (evs : List Ev) : Prop where
  held : ∀ b, b ∈ s.rx.held ↔ .line b ∈ evs ∨ b ∈ rx.held
  echoes : ∀ b, b ∈ rx.echoes ∨ (∃ bs, .echoed bs ∈ evs ∧ b ∈ bs) → b ∈ s.rx.echoes ∨ b ∈ s.rx.held
  evs : ∀ e ∈ evs, (∃ b, e = .line b) ∨ ∃ bs, e = .echoed bs

/-- The buffers with the byte `c` in its place of the armed one. -/
def State.putByte (s : State) (c : UInt8) : ℕ → List UInt8 :=
  Function.update s.bufs s.binBuf ((s.bufs s.binBuf).set s.binHave c)

/-- What one step can do. -/
inductive StepTo (s : State) : State → Prop
  | call (len : ℕ) (h : s.at_ = .idle) : StepTo s (readBinary len s)
  | reset {k len : ℕ} (h : s.at_ = .reset k len) :
      StepTo s { s with binDone := false, at_ := .arm k len }
  | arm {k len : ℕ} (h : s.at_ = .arm k len) :
      StepTo s ({ s with binBuf := k, binHave := 0, binNeed := len, at_ := .prompt k len }.add
        [.armed k len])
  | prompt {k len : ℕ} (h : s.at_ = .prompt k len) :
      StepTo s ({ s with at_ := .take k len }.add [.prompted k])
  | take {k len : ℕ} (h : s.at_ = .take k len) (hd : s.binDone = true) :
      StepTo s ({ s with binDone := false, at_ := .idle }.add [.returned k true])
  | timeout {k len : ℕ} (h : s.at_ = .take k len) : StepTo s { s with at_ := .cancel k len }
  | cancel {k len : ℕ} (h : s.at_ = .cancel k len) :
      StepTo s ({ s with binNeed := 0, binHave := 0, at_ := .idle }.add
        [.cancelled k, .returned k false])
  | taken {c : UInt8} {todo : List UInt8} {echo : List Rx} (h : s.rx = .loop (c :: todo) echo)
      (hn : s.binHave + 1 < s.binNeed) :
      StepTo s ({ s with
        bufs := s.putByte c
        binHave := s.binHave + 1
        received := s.received + 1
        rx := .loop todo echo }.add [.received (s.received, c) (some s.binBuf)])
  | filled {c : UInt8} {todo : List UInt8} {echo : List Rx} (h : s.rx = .loop (c :: todo) echo)
      (hn : s.binHave + 1 = s.binNeed) :
      StepTo s ({ s with
        bufs := s.putByte c
        binHave := s.binHave + 1
        binNeed := 0
        binDone := true
        received := s.received + 1
        rx := .loop todo echo }.add
          [.received (s.received, c) (some s.binBuf), .completed s.binBuf])
  | missed {c : UInt8} {todo : List UInt8} {echo : List Rx} (h : s.rx = .loop (c :: todo) echo)
      (hn : s.binNeed ≤ s.binHave) :
      StepTo s ({ s with
        received := s.received + 1
        rx := .echo (s.received, c) todo echo }.add [.received (s.received, c) none])
  | rx {rx : RxPc} {evs : List Ev} (h : RxStep s rx evs) (l : LineBuf) (q : List Text) (on : Bool) :
      StepTo s ({ s with rx := rx, lineBuf := l, lineQ := q, echoOn := on }.add evs)

theorem RxStep.refl (s : State) : RxStep s s.rx [] where
  held b := by simp
  echoes b h := by simpa using Or.inl (b := b ∈ s.rx.held) h
  evs e he := by cases he

/-- A step of the receive thread that the log does not show. -/
theorem RxStep.quiet {s : State} {rx : RxPc} (h : RxStep s rx []) (l : LineBuf) (q : List Text)
    (on : Bool) : StepTo s { s with rx := rx, lineBuf := l, lineQ := q, echoOn := on } := by
  have hs := StepTo.rx h l q on
  simpa only [State.add, List.append_nil] using hs

/-- `bin_byte`: an entry takes the byte, as its last one or not, or there is none. -/
theorem stepTo_byte {s s' : State} {c : UInt8} {todo : List UInt8} {echo : List Rx}
    (hrx : s.rx = .loop (c :: todo) echo) (h : stepRx s = some s') : StepTo s s' := by
  simp only [stepRx, hrx] at h
  rcases Nat.lt_trichotomy (s.binHave + 1) s.binNeed with hn | hn | hn
  · have hlt : s.binHave < s.binNeed := by omega
    have hne : ¬s.binHave + 1 = s.binNeed := by omega
    simp only [binByte, State.add, hlt, hne, if_true, if_false, Option.some.injEq] at h
    exact h ▸ .taken hrx hn
  · have hlt : s.binHave < s.binNeed := by omega
    simp only [binByte, State.add, hlt, hn, if_true, Option.some.injEq, List.append_assoc] at h
    have hs := StepTo.filled hrx hn
    rw [hn] at hs
    exact h ▸ hs
  · have hge : ¬s.binHave < s.binNeed := by omega
    simp only [binByte, hge, if_false, Option.some.injEq] at h
    exact h ▸ .missed hrx (by omega)

theorem stepTo_stepRx {s s' : State} (h : stepRx s = some s') : StepTo s s' := by
  cases hrx : s.rx with
  | idle => rw [stepRx, hrx] at h; cases h
  | loop data echo =>
    cases data with
    | cons c todo => exact stepTo_byte hrx h
    | nil =>
      cases echo with
      | nil =>
        simp only [stepRx, hrx, Option.some.injEq] at h
        subst h
        have hidle : RxStep s .idle [] := by
          refine ⟨?_, ?_, ?_⟩
          · simp [hrx, RxPc.held]
          · simp [RxPc.echoes]
          · simp
        exact hidle.quiet s.lineBuf s.lineQ s.echoOn
      | cons b echo =>
        simp only [stepRx, hrx, Option.some.injEq] at h
        subst h
        refine .rx ⟨?_, ?_, ?_⟩ _ _ _
        · simp [hrx, RxPc.held]
        · intro b' hb
          rw [hrx]
          left
          simpa [RxPc.echoes] using hb
        · simp
  | echo b todo echo =>
    simp only [stepRx, hrx, Option.some.injEq] at h
    subst h
    have hline : RxStep s (.line b todo
        (if s.echoOn ∧ echo.length < rxBufSize then echo ++ [b] else echo)) [] := by
      refine ⟨?_, ?_, ?_⟩
      · simp [hrx, RxPc.held]
      · intro b' hb
        have hb' : b' ∈ echo ++ [b] := by
          rcases hb with hb | ⟨bs, hbs, -⟩
          · simp only [RxPc.echoes] at hb
            split_ifs at hb
            · exact hb
            · exact List.mem_append_left _ hb
          · cases hbs
        simpa [hrx, RxPc.echoes, RxPc.held] using hb'
      · simp
    exact hline.quiet s.lineBuf s.lineQ s.echoOn
  | line b todo echo =>
    simp only [stepRx, hrx, Option.some.injEq] at h
    subst h
    refine .rx ⟨?_, ?_, ?_⟩ _ _ _
    · simp [hrx, RxPc.held, eq_comm]
    · intro b' hb
      rw [hrx]
      left
      simpa [RxPc.echoes] using hb
    · intro e he
      exact .inl ⟨b, List.mem_singleton.mp he⟩

/-- Every step is one of them. -/
theorem stepTo {s s' : State} {a : Action} (h : step s a = some s') : StepTo s s' := by
  cases a with
  | readBinary len =>
    simp only [step] at h
    split_ifs at h with hidle
    cases h
    exact .call len hidle
  | at_ =>
    simp only [step, stepAt] at h
    split at h
    · cases h
    · cases h; exact .reset ‹_›
    · cases h; exact .arm ‹_›
    · cases h; exact .prompt ‹_›
    · split_ifs at h with hd
      cases h
      exact .take ‹_› hd
    · cases h; exact .cancel ‹_›
  | timeout =>
    simp only [step, stepTimeout] at h
    split at h
    · split_ifs at h
      cases h
      exact .timeout ‹_›
    · cases h
  | rxEvent data =>
    simp only [step] at h
    split_ifs at h with hidle
    cases h
    have hloop : RxStep s (.loop data []) [] := by
      refine ⟨?_, ?_, ?_⟩
      · simp [hidle, RxPc.held]
      · simp [RxPc.echoes]
      · simp
    exact hloop.quiet s.lineBuf s.lineQ s.echoOn
  | rx => exact stepTo_stepRx h
  | setEcho on =>
    cases h
    exact (RxStep.refl s).quiet s.lineBuf s.lineQ on
  | getLine =>
    simp only [step] at h
    split_ifs at h
    cases h
    exact (RxStep.refl s).quiet s.lineBuf s.lineQ.tail s.echoOn
  | injectLine line =>
    cases h
    exact (RxStep.refl s).quiet s.lineBuf _ s.echoOn

/-! ## Logs -/

section

variable {k : ℕ} {a b log : List Ev}

@[simp] theorem receivedIn_append : receivedIn (a ++ b) = receivedIn a ++ receivedIn b :=
  List.filterMap_append ..

@[simp] theorem takenBy_append : takenBy k (a ++ b) = takenBy k a ++ takenBy k b :=
  List.filterMap_append ..

/-- Entries that are about no binary entry: echoes, lines and prompts. -/
def Ev.silent : Ev → Prop
  | .line _ | .echoed _ | .prompted _ => True
  | _ => False

variable {evs : List Ev} (h : ∀ e ∈ evs, e.silent)
include h

theorem receivedIn_silent : receivedIn evs = [] := by
  rw [receivedIn, List.filterMap_eq_nil_iff]
  intro e he
  have hs := h e he
  cases e <;> first | rfl | cases hs

theorem takenBy_silent : takenBy k evs = [] := by
  rw [takenBy, List.filterMap_eq_nil_iff]
  intro e he
  have hs := h e he
  cases e <;> first | rfl | cases hs

theorem armedAfter_silent : armedAfter (log ++ evs) = armedAfter log := by
  induction evs generalizing log with
  | nil => rw [List.append_nil]
  | cons e evs ih =>
    have hs := h e List.mem_cons_self
    rw [List.append_cons, ih fun e he => h e (List.mem_cons_of_mem _ he), armedAfter,
      List.foldl_append]
    cases e <;> first | rfl | cases hs

theorem mem_silent {e : Ev} (he : ¬e.silent) : e ∈ log ++ evs ↔ e ∈ log := by
  rw [List.mem_append]
  exact or_iff_left fun hm => he (h e hm)

end

theorem RxStep.silent {s : State} {rx : RxPc} {evs : List Ev} (h : RxStep s rx evs) :
    ∀ e ∈ evs, e.silent := by
  intro e he
  rcases h.evs e he with ⟨b, rfl⟩ | ⟨bs, rfl⟩
  · trivial
  · trivial

/-- What must stand in the log before an entry. -/
def Rule (pre : List Ev) : Ev → Prop
  | .armed k _ => takenBy k pre = []
  | .received _ (some k) => armedAfter pre = some k ∧ ∀ ok, .returned k ok ∉ pre
  | .returned k true => ∃ pre' mid len, pre = pre' ++ .armed k len :: mid ∧ takenBy k pre' = [] ∧
      .completed k ∈ mid ∧ len ≤ (receivedIn mid).length ∧
      takenBy k mid = (receivedIn mid).take len
  | _ => True

theorem rule_silent {e : Ev} (he : e.silent) (pre : List Ev) : Rule pre e := by
  cases e <;> trivial

/-! ## The entry of the AT thread -/

/-- The entry lacks bytes: it has all that were received since it was armed. -/
structure Open (s : State) (k len : ℕ) (mid : List Ev) : Prop where
  short : (receivedIn mid).length < len
  taken : takenBy k mid = receivedIn mid
  have_ : s.binHave = (receivedIn mid).length
  need : s.binNeed = len
  armed : armedAfter s.log = some k
  waiting : s.binDone = false

/-- The entry takes no more bytes. -/
structure Done (s : State) (k len : ℕ) (mid : List Ev) : Prop where
  enough : len ≤ (receivedIn mid).length
  taken : takenBy k mid = (receivedIn mid).take len
  quiet : s.binNeed ≤ s.binHave
  completed : s.binDone = true → .completed k ∈ mid

/-- The entry `k` is armed after `pre`. -/
structure Pending (s : State) (k len : ℕ) (pre mid : List Ev) : Prop where
  log : s.log = pre ++ .armed k len :: mid
  buf : s.binBuf = k
  before : takenBy k pre = []
  entry : Open s k len mid ∨ Done s k len mid

def EntryOk (s : State) : Prop :=
  match s.at_ with
  | .idle | .reset _ _ => s.binNeed ≤ s.binHave
  | .arm _ _ => s.binNeed ≤ s.binHave ∧ s.binDone = false
  | .prompt k len | .take k len | .cancel k len => ∃ pre mid, Pending s k len pre mid

section

variable {s s' : State} {k len : ℕ} {pre mid : List Ev}

/-- Echoes, lines and prompts do not matter to the entry. -/
theorem Pending.silent (h : Pending s k len pre mid) {evs : List Ev} (he : ∀ e ∈ evs, e.silent)
    (hbuf : s'.binBuf = s.binBuf) (hneed : s'.binNeed = s.binNeed) (hhave : s'.binHave = s.binHave)
    (hdone : s'.binDone = s.binDone) (hlog : s'.log = s.log ++ evs) :
    Pending s' k len pre (mid ++ evs) where
  log := by rw [hlog, h.log, List.append_assoc, List.cons_append]
  buf := hbuf.trans h.buf
  before := h.before
  entry := by
    have hr : receivedIn (mid ++ evs) = receivedIn mid := by simp [receivedIn_silent he]
    have ht : takenBy k (mid ++ evs) = takenBy k mid := by simp [takenBy_silent he]
    rcases h.entry with ho | hd
    · left
      refine ⟨?_, ?_, ?_, hneed.trans ho.need, ?_, hdone.trans ho.waiting⟩
      · rw [hr]; exact ho.short
      · rw [hr, ht]; exact ho.taken
      · rw [hr, hhave]; exact ho.have_
      · rw [hlog, armedAfter_silent he]; exact ho.armed
    · right
      refine ⟨?_, ?_, ?_, ?_⟩
      · rw [hr]; exact hd.enough
      · rw [hr, ht]; exact hd.taken
      · rw [hneed, hhave]; exact hd.quiet
      · rw [hdone]
        exact fun h => List.mem_append_left _ (hd.completed h)

/-- A byte that no entry takes does not matter to it either. -/
theorem Pending.missed (h : Pending s k len pre mid) (hn : s.binNeed ≤ s.binHave) {b : Rx}
    (hbuf : s'.binBuf = s.binBuf) (hneed : s'.binNeed = s.binNeed) (hhave : s'.binHave = s.binHave)
    (hdone : s'.binDone = s.binDone) (hlog : s'.log = s.log ++ [.received b none]) :
    Pending s' k len pre (mid ++ [.received b none]) where
  log := by rw [hlog, h.log, List.append_assoc, List.cons_append]
  buf := hbuf.trans h.buf
  before := h.before
  entry := by
    rcases h.entry with ho | hd
    · have hshort := ho.short
      rw [ho.have_, ho.need] at hn
      omega
    · right
      have henough := hd.enough
      refine ⟨?_, ?_, ?_, ?_⟩
      · rw [receivedIn_append, List.length_append]; omega
      · rw [takenBy_append, receivedIn_append, List.take_append_of_le_length henough, hd.taken]
        exact List.append_nil _
      · rw [hneed, hhave]; exact hd.quiet
      · rw [hdone]
        exact fun h => List.mem_append_left _ (hd.completed h)

/-- An entry that takes bytes is open. -/
theorem Pending.isOpen (h : Pending s k len pre mid) (hn : s.binHave < s.binNeed) :
    Open s k len mid := by
  rcases h.entry with ho | hd
  · exact ho
  · have hq := hd.quiet
    omega

end

section

variable {s : State} {k len : ℕ} {pre mid : List Ev} {b : Rx}

/-- The entry takes a byte and still lacks some. -/
theorem Pending.taken (h : Pending s k len pre mid) (hn : s.binHave + 1 < s.binNeed) {s' : State}
    (hbuf : s'.binBuf = s.binBuf) (hneed : s'.binNeed = s.binNeed)
    (hhave : s'.binHave = s.binHave + 1) (hdone : s'.binDone = s.binDone)
    (hlog : s'.log = s.log ++ [.received b (some s.binBuf)]) :
    Pending s' k len pre (mid ++ [.received b (some k)]) where
  log := by rw [hlog, h.buf, h.log, List.append_assoc, List.cons_append]
  buf := hbuf.trans h.buf
  before := h.before
  entry := by
    have ho := h.isOpen (by omega)
    rw [ho.have_, ho.need] at hn
    have htake : takenBy k [.received b (some k)] = [b] := by simp [takenBy]
    left
    refine ⟨?_, ?_, ?_, hneed.trans ho.need, ?_, hdone.trans ho.waiting⟩
    · rw [receivedIn_append, List.length_append]
      exact hn
    · rw [takenBy_append, receivedIn_append, ho.taken, htake]
      rfl
    · rw [hhave, ho.have_, receivedIn_append, List.length_append]
      rfl
    · have ha := ho.armed
      rw [armedAfter] at ha
      rw [hlog, armedAfter, List.foldl_append, ha]
      rfl

/-- The entry takes its last byte. -/
theorem Pending.filled (h : Pending s k len pre mid) (hn : s.binHave + 1 = s.binNeed) {s' : State}
    (hbuf : s'.binBuf = s.binBuf) (hneed : s'.binNeed = 0)
    (hlog : s'.log = s.log ++ [.received b (some s.binBuf), .completed s.binBuf]) :
    Pending s' k len pre (mid ++ [.received b (some k), .completed k]) where
  log := by rw [hlog, h.buf, h.log, List.append_assoc, List.cons_append]
  buf := hbuf.trans h.buf
  before := h.before
  entry := by
    have ho := h.isOpen (by omega)
    rw [ho.have_, ho.need] at hn
    have htake : takenBy k [.received b (some k), .completed k] = [b] := by simp [takenBy]
    have hrec : receivedIn [.received b (some k), .completed k] = [b] := rfl
    have hlen : (receivedIn mid ++ [b]).length = len := by simpa using hn
    right
    refine ⟨?_, ?_, ?_, fun _ => by simp⟩
    · rw [receivedIn_append, hrec, hlen]
    · rw [takenBy_append, receivedIn_append, ho.taken, htake, hrec, ← hlen, List.take_length]
    · rw [hneed]
      exact Nat.zero_le _

end

/-- The call that the AT thread works on, and its length. -/
def AtPc.call : AtPc → Option (ℕ × ℕ)
  | .idle => none
  | .reset k len | .arm k len | .prompt k len | .take k len | .cancel k len => some (k, len)

/-- The calls so far: which of them have taken bytes, and which have returned. -/
structure Calls (s : State) : Prop where
  current : ∀ k len, s.at_.call = some (k, len) →
    s.calls[k]? = some len ∧ ∀ ok, .returned k ok ∉ s.log
  unarmed : ∀ k len, s.at_ = .reset k len ∨ s.at_ = .arm k len → takenBy k s.log = []
  fresh : ∀ k, s.calls.length ≤ k → takenBy k s.log = [] ∧ ∀ ok, .returned k ok ∉ s.log
  armed : ∀ k len, .armed k len ∈ s.log → s.calls[k]? = some len

structure Inv (s : State) : Prop where
  calls : Calls s
  entry : EntryOk s
  follows : Follows Rule s.log

theorem inv_init : Inv init where
  calls := by
    refine ⟨?_, ?_, ?_, ?_⟩ <;> simp [init, AtPc.call, takenBy]
  entry := Nat.le_refl 0
  follows := follows_nil

section

variable {s s' : State}

/-- Between two calls and until the entry is armed, no byte is taken. -/
theorem EntryOk.pending (h : EntryOk s) (hn : s.binHave < s.binNeed) :
    ∃ k len pre mid, s.at_.call = some (k, len) ∧
      (∀ len, s.at_ ≠ .reset k len ∧ s.at_ ≠ .arm k len) ∧
      Pending s k len pre mid := by
  rw [EntryOk] at h
  cases hat : s.at_ with
  | idle | reset => rw [hat] at h; exact absurd hn (Nat.not_lt.mpr h)
  | arm => rw [hat] at h; exact absurd hn (Nat.not_lt.mpr h.1)
  | prompt k len | take k len | cancel k len =>
    rw [hat] at h
    obtain ⟨pre, mid, hp⟩ := h
    refine ⟨k, len, pre, mid, rfl, ?_, hp⟩
    exact fun len' => ⟨fun h => (by cases h), fun h => (by cases h)⟩

/-- What the entries `evs` may say of the calls, in a step to `s'`. -/
structure CallStep (s s' : State) (evs : List Ev) : Prop where
  calls : s'.calls = s.calls
  log : s'.log = s.log ++ evs
  call : s'.at_.call = s.at_.call ∨ s'.at_.call = none
  unarmed : ∀ k len, s'.at_ = .reset k len ∨ s'.at_ = .arm k len →
    s.at_ = .reset k len ∨ s.at_ = .arm k len
  taken : ∀ k, takenBy k evs = [] ∨
    (∃ len, s.at_.call = some (k, len)) ∧ ∀ len, s.at_ ≠ .reset k len ∧ s.at_ ≠ .arm k len
  armed : ∀ k len, .armed k len ∈ evs → s.at_.call = some (k, len)
  returned : ∀ k ok, .returned k ok ∈ evs →
    s'.at_.call = none ∧ ∃ len, s.at_.call = some (k, len)

theorem Calls.step (h : Calls s) {evs : List Ev} (hs : CallStep s s' evs) : Calls s' where
  current k len hk := by
    have hk' : s.at_.call = some (k, len) := by
      rcases hs.call with hc | hc
      · exact hc ▸ hk
      · rw [hc] at hk; cases hk
    obtain ⟨hlen, hret⟩ := h.current k len hk'
    rw [hs.calls, hs.log]
    refine ⟨hlen, ?_⟩
    intro ok hm
    rcases List.mem_append.mp hm with hm | hm
    · exact hret ok hm
    · rw [(hs.returned k ok hm).1] at hk
      cases hk
  unarmed k len hk := by
    have hu := hs.unarmed k len hk
    rw [hs.log, takenBy_append, h.unarmed k len hu]
    rcases hs.taken k with ht | ⟨-, hne⟩
    · exact ht
    · rcases hu with hu | hu
      · exact absurd hu (hne len).1
      · exact absurd hu (hne len).2
  fresh k hk := by
    rw [hs.calls] at hk
    obtain ⟨ht, hret⟩ := h.fresh k hk
    have hno : ∀ len, s.at_.call ≠ some (k, len) := by
      intro len hc
      have hlen := (h.current k len hc).1
      rw [List.getElem?_eq_none hk] at hlen
      cases hlen
    rw [hs.log]
    constructor
    · rw [takenBy_append, ht]
      rcases hs.taken k with ht | ⟨⟨len, hc⟩, -⟩
      · exact ht
      · exact absurd hc (hno len)
    · intro ok hm
      rcases List.mem_append.mp hm with hm | hm
      · exact hret ok hm
      · obtain ⟨-, len, hc⟩ := hs.returned k ok hm
        exact hno len hc
  armed k len hk := by
    rw [hs.calls]
    rw [hs.log] at hk
    rcases List.mem_append.mp hk with hk | hk
    · exact h.armed k len hk
    · exact (h.current k len (hs.armed k len hk)).1

theorem CallStep.silent {evs : List Ev} (he : ∀ e ∈ evs, e.silent) (hcalls : s'.calls = s.calls)
    (hcall : s'.at_.call = s.at_.call) (hlog : s'.log = s.log ++ evs)
    (hun : ∀ k len, s'.at_ = .reset k len ∨ s'.at_ = .arm k len →
      s.at_ = .reset k len ∨ s.at_ = .arm k len) : CallStep s s' evs where
  calls := hcalls
  log := hlog
  call := .inl hcall
  unarmed := hun
  taken _ := .inl (takenBy_silent he)
  armed _ _ hm := (he _ hm).elim
  returned _ _ hm := (he _ hm).elim

/-- The call of the AT thread starts with a new number. -/
theorem Calls.call (h : Calls s) (len : ℕ) : Calls (readBinary len s) where
  current k l hk := by
    simp only [readBinary, AtPc.call, Option.some.injEq, Prod.mk.injEq] at hk
    obtain ⟨rfl, rfl⟩ := hk
    exact ⟨by simp [readBinary], (h.fresh _ (Nat.le_refl _)).2⟩
  unarmed k l hk := by
    have hk' : k = s.calls.length := by
      rcases hk with hk | hk
      · cases hk; rfl
      · cases hk
    exact hk' ▸ (h.fresh _ (Nat.le_refl _)).1
  fresh k hk := by
    apply h.fresh k
    simp only [readBinary, List.length_append] at hk
    omega
  armed k l hk := by
    have hlen := h.armed k l hk
    have hlt := (List.getElem?_eq_some_iff.mp hlen).1
    simp only [readBinary]
    rw [List.getElem?_append_left hlt, hlen]

theorem Inv.stepCalls (h : Inv s) (hs : StepTo s s') : Calls s' := by
  have hno : ∀ e ∈ ([] : List Ev), e.silent := fun e he => (by cases he)
  have hsame : ∀ k len, s.at_ = .reset k len ∨ s.at_ = .arm k len →
      s.at_ = .reset k len ∨ s.at_ = .arm k len := fun _ _ h => h
  -- A received byte belongs to the call that the AT thread works on, if an entry takes it.
  have htake : s.binHave < s.binNeed → ∀ b k, takenBy k [.received b (some s.binBuf)] = [] ∨
      (∃ len, s.at_.call = some (k, len)) ∧ ∀ len, s.at_ ≠ .reset k len ∧ s.at_ ≠ .arm k len := by
    intro hn b j
    obtain ⟨k, len, pre, mid, hc, hne, hp⟩ := h.entry.pending hn
    by_cases hj : s.binBuf = j
    · have hkj : k = j := hp.buf.symm.trans hj
      exact .inr ⟨⟨len, hkj ▸ hc⟩, fun len => hkj ▸ hne len⟩
    · exact .inl (by simp [takenBy, hj])
  cases hs with
  | call len hat => exact h.calls.call len
  | @reset k len hat =>
    refine h.calls.step (.silent hno rfl ?_ (List.append_nil _).symm ?_)
    · rw [hat]; rfl
    · simp [hat]
  | @arm k len hat =>
    refine h.calls.step ⟨rfl, rfl, ?_, ?_, fun _ => .inl rfl, ?_, ?_⟩
    · rw [hat]; exact .inl rfl
    · simp [State.add]
    · simp [hat, AtPc.call]
    · simp
  | @prompt k len hat =>
    refine h.calls.step (.silent ?_ rfl ?_ rfl ?_)
    · simp [Ev.silent]
    · rw [hat]; rfl
    · simp [State.add]
  | @take k len hat hd =>
    refine h.calls.step ⟨rfl, rfl, .inr rfl, ?_, fun _ => .inl rfl, ?_, ?_⟩
    · simp [State.add]
    · simp
    · simp [State.add, hat, AtPc.call]
  | @timeout k len hat =>
    refine h.calls.step (.silent hno rfl ?_ (List.append_nil _).symm ?_)
    · rw [hat]; rfl
    · simp
  | @cancel k len hat =>
    refine h.calls.step ⟨rfl, rfl, .inr rfl, ?_, fun _ => .inl rfl, ?_, ?_⟩
    · simp [State.add]
    · simp
    · simp [State.add, hat, AtPc.call]
  | @taken c todo echo hrx hn =>
    exact h.calls.step ⟨rfl, rfl, .inl rfl, hsame, htake (by omega) _, by simp, by simp⟩
  | @filled c todo echo hrx hn =>
    exact h.calls.step ⟨rfl, rfl, .inl rfl, hsame, htake (by omega) _, by simp, by simp⟩
  | @missed c todo echo hrx hn =>
    exact h.calls.step ⟨rfl, rfl, .inl rfl, hsame, fun _ => .inl rfl, by simp, by simp⟩
  | @rx rx evs hx l q on => exact h.calls.step (.silent hx.silent rfl rfl rfl hsame)

/-- What a step of the receive thread does to the entry in progress. -/
theorem EntryOk.rx (h : EntryOk s) (hat : s'.at_ = s.at_)
    (hquiet : s.binNeed ≤ s.binHave → s'.binNeed ≤ s'.binHave ∧ s'.binDone = s.binDone)
    (hpend : ∀ k len pre mid, Pending s k len pre mid → ∃ mid, Pending s' k len pre mid) :
    EntryOk s' := by
  rw [EntryOk] at h ⊢
  rw [hat]
  cases hpc : s.at_ with
  | idle | reset => rw [hpc] at h; exact (hquiet h).1
  | arm => rw [hpc] at h; exact ⟨(hquiet h.1).1, (hquiet h.1).2.trans h.2⟩
  | prompt | take | cancel =>
    rw [hpc] at h
    obtain ⟨pre, mid, hp⟩ := h
    exact ⟨pre, hpend _ _ _ _ hp⟩

theorem Inv.stepEntry (h : Inv s) (hs : StepTo s s') : EntryOk s' := by
  have hentry := h.entry
  unfold EntryOk at hentry
  cases hs with
  | call len hat =>
    rw [hat] at hentry
    exact hentry
  | @reset k len hat =>
    rw [hat] at hentry
    exact ⟨hentry, rfl⟩
  | @arm k len hat =>
    rw [hat] at hentry
    refine ⟨s.log, [], rfl, rfl, h.calls.unarmed k len (.inr hat), ?_⟩
    by_cases hlen : len = 0
    · subst hlen
      exact .inr ⟨Nat.le_refl 0, rfl, Nat.le_refl 0, fun hd => by cases hd.symm.trans hentry.2⟩
    · refine .inl ⟨Nat.pos_of_ne_zero hlen, rfl, rfl, rfl, ?_, hentry.2⟩
      show armedAfter (s.log ++ [.armed k len]) = some k
      rw [armedAfter, List.foldl_append]
      rfl
  | @prompt k len hat =>
    rw [hat] at hentry
    obtain ⟨pre, mid, hp⟩ := hentry
    exact ⟨pre, _, hp.silent (by simp [Ev.silent]) rfl rfl rfl rfl rfl⟩
  | @take k len hat hd =>
    rw [hat] at hentry
    obtain ⟨pre, mid, hp⟩ := hentry
    rcases hp.entry with ho | hdone
    · cases hd.symm.trans ho.waiting
    · exact hdone.quiet
  | @timeout k len hat =>
    rw [hat] at hentry
    obtain ⟨pre, mid, hp⟩ := hentry
    exact ⟨pre, mid, hp.log, hp.buf, hp.before, hp.entry.imp
      (fun ho => ⟨ho.short, ho.taken, ho.have_, ho.need, ho.armed, ho.waiting⟩)
      fun hd => ⟨hd.enough, hd.taken, hd.quiet, hd.completed⟩⟩
  | @cancel k len hat => exact Nat.le_refl 0
  | taken _ hn =>
    refine h.entry.rx rfl ?_ ?_
    · intro hle; omega
    · intro k len pre mid hp
      exact ⟨_, hp.taken hn rfl rfl rfl rfl rfl⟩
  | filled _ hn =>
    refine h.entry.rx rfl ?_ ?_
    · intro hle; omega
    · intro k len pre mid hp
      exact ⟨_, hp.filled hn rfl rfl rfl⟩
  | missed _ hn =>
    refine h.entry.rx rfl ?_ ?_
    · exact fun hle => ⟨hle, rfl⟩
    · intro k len pre mid hp
      exact ⟨_, hp.missed hn rfl rfl rfl rfl rfl⟩
  | rx hx =>
    refine h.entry.rx rfl ?_ ?_
    · exact fun hle => ⟨hle, rfl⟩
    · intro k len pre mid hp
      exact ⟨_, hp.silent hx.silent rfl rfl rfl rfl rfl⟩

theorem Inv.stepFollows (h : Inv s) (hs : StepTo s s') : Follows Rule s'.log := by
  have hf := h.follows
  -- A byte is taken by the entry that is armed.
  have htake : s.binHave < s.binNeed → ∀ b, Rule s.log (.received b (some s.binBuf)) := by
    intro hn b
    obtain ⟨k, len, pre, mid, hc, -, hp⟩ := h.entry.pending hn
    have ho := hp.isOpen hn
    show armedAfter s.log = some s.binBuf ∧ _
    rw [hp.buf]
    exact ⟨ho.armed, (h.calls.current k len hc).2⟩
  cases hs with
  | call len hat => exact hf
  | reset hat => exact hf
  | @arm k len hat => exact hf.concat (h.calls.unarmed k len (.inr hat))
  | @prompt k len hat =>
    have hrule : Rule s.log (.prompted k) := trivial
    exact hf.concat hrule
  | @take k len hat hd =>
    have hentry := h.entry
    unfold EntryOk at hentry
    rw [hat] at hentry
    obtain ⟨pre, mid, hp⟩ := hentry
    rcases hp.entry with ho | hdone
    · cases hd.symm.trans ho.waiting
    · exact hf.concat ⟨pre, mid, len, hp.log, hp.before, hdone.completed hd, hdone.enough,
        hdone.taken⟩
  | timeout hat => exact hf
  | @cancel k len hat =>
    have hrule : Rule s.log (.cancelled k) := trivial
    exact hf.pair hrule trivial
  | @taken c todo echo hrx hn => exact hf.concat (htake (by omega) _)
  | @filled c todo echo hrx hn =>
    exact hf.pair (htake (by omega) _) trivial
  | @missed c todo echo hrx hn => exact hf.concat trivial
  | @rx rx evs hx l q on => exact hf.append fun e he pre => rule_silent (hx.silent e he) pre

end

theorem inv {s : State} (h : machine.Reach s) : Inv s :=
  h.invariant Inv (fun _ h0 => by cases h0; exact inv_init) fun _ _ _ hi _ hs =>
    ⟨hi.stepCalls (stepTo hs), hi.stepEntry (stepTo hs), hi.stepFollows (stepTo hs)⟩

/-! ## Bytes -/

/-- The bytes received, each with the entry that took it. -/
def receptions (log : List Ev) : List (Rx × Option ℕ) :=
  log.filterMap fun
    | .received b entry => some (b, entry)
    | _ => none

/-- The numbers of the bytes received. -/
def numbers (log : List Ev) : List ℕ := (receptions log).map fun p => p.1.1

theorem mem_receptions {b : Rx} {entry : Option ℕ} {log : List Ev} :
    (b, entry) ∈ receptions log ↔ .received b entry ∈ log := by
  rw [receptions, List.mem_filterMap]
  constructor
  · rintro ⟨e, he, hb⟩
    cases e with
    | received b' entry' =>
      cases hb
      exact he
    | armed | completed | cancelled | line | echoed | prompted | returned => cases hb
  · intro he
    exact ⟨_, he, rfl⟩

@[simp] theorem numbers_append (a b : List Ev) : numbers (a ++ b) = numbers a ++ numbers b := by
  simp [numbers, receptions]

theorem numbers_silent {evs : List Ev} (h : ∀ e ∈ evs, e.silent) : numbers evs = [] := by
  rw [numbers, List.map_eq_nil_iff, receptions, List.filterMap_eq_nil_iff]
  intro e he
  have hs := h e he
  cases e <;> first | rfl | cases hs

/-- Where the bytes that no entry took have gone. -/
structure Bytes (s : State) : Prop where
  numbered : numbers s.log = List.range s.received
  lines : ∀ b, .received b none ∈ s.log ↔ .line b ∈ s.log ∨ b ∈ s.rx.held
  echoes : ∀ b, b ∈ s.rx.echoes ∨ (∃ bs, .echoed bs ∈ s.log ∧ b ∈ bs) → .received b none ∈ s.log

section

variable {s s' : State}

/-- A byte is either taken by one entry or not taken. -/
theorem Bytes.entry_unique (h : Bytes s) {b : Rx} {e e' : Option ℕ} (he : .received b e ∈ s.log)
    (he' : .received b e' ∈ s.log) : e = e' := by
  have hnodup : (numbers s.log).Nodup := h.numbered ▸ List.nodup_range
  have heq := List.inj_on_of_nodup_map hnodup (mem_receptions.mpr he) (mem_receptions.mpr he') rfl
  exact congrArg Prod.snd heq

/-- Steps of the AT thread leave the bytes alone. -/
theorem Bytes.other (h : Bytes s) {evs : List Ev} (hlog : s'.log = s.log ++ evs)
    (hrec : s'.received = s.received) (hrx : s'.rx = s.rx) (hn : numbers evs = [])
    (hr : ∀ b, .received b none ∉ evs) (hl : ∀ b, .line b ∉ evs) (he : ∀ bs, .echoed bs ∉ evs) :
    Bytes s' where
  numbered := by rw [hlog, numbers_append, hn, List.append_nil, hrec, h.numbered]
  lines b := by
    rw [hlog, hrx, List.mem_append, List.mem_append, or_iff_left (hr b), or_iff_left (hl b)]
    exact h.lines b
  echoes b hb := by
    rw [hlog]
    apply List.mem_append_left
    apply h.echoes b
    rw [hrx] at hb
    refine hb.imp_right ?_
    rintro ⟨bs, hbs, hmem⟩
    rw [hlog, List.mem_append, or_iff_left (he bs)] at hbs
    exact ⟨bs, hbs, hmem⟩

/-- A byte that an entry takes is not echoed and does not go into a line. -/
theorem Bytes.taken (h : Bytes s) {b : Rx} {k : ℕ} {todo : List UInt8} {echo : List Rx}
    {evs : List Ev} (hb : b.1 = s.received) (hrx : s.rx.held = [] ∧ s.rx.echoes = echo)
    (hlog : s'.log = s.log ++ .received b (some k) :: evs) (hevs : evs = [] ∨ evs = [.completed k])
    (hrec : s'.received = s.received + 1) (hrx' : s'.rx = .loop todo echo) : Bytes s' where
  numbered := by
    have hn : numbers (.received b (some k) :: evs) = [s.received] := by
      rcases hevs with rfl | rfl
      · exact congrArg (fun n => [n]) hb
      · exact congrArg (fun n => [n]) hb
    rw [hlog, numbers_append, hn, h.numbered, hrec, List.range_succ]
  lines b' := by
    have hl := h.lines b'
    rw [hrx.1, or_iff_left List.not_mem_nil] at hl
    rw [hlog, hrx', List.mem_append, List.mem_append, hl]
    rcases hevs with rfl | rfl <;> simp [RxPc.held]
  echoes b' hb' := by
    rw [hlog]
    apply List.mem_append_left
    apply h.echoes b'
    rw [hrx.2]
    rw [hrx'] at hb'
    refine hb'.imp_right ?_
    rintro ⟨bs, hbs, hmem⟩
    rw [hlog] at hbs
    rcases hevs with rfl | rfl <;> exact ⟨bs, by simpa using hbs, hmem⟩

theorem Bytes.stepTo (h : Bytes s) (hs : StepTo s s') : Bytes s' := by
  have hnil : s.log = s.log ++ [] := (List.append_nil _).symm
  cases hs with
  | call len hat => exact h.other hnil rfl rfl rfl (by simp) (by simp) (by simp)
  | reset hat => exact h.other hnil rfl rfl rfl (by simp) (by simp) (by simp)
  | arm hat => exact h.other rfl rfl rfl rfl (by simp) (by simp) (by simp)
  | prompt hat => exact h.other rfl rfl rfl rfl (by simp) (by simp) (by simp)
  | take hat hd => exact h.other rfl rfl rfl rfl (by simp) (by simp) (by simp)
  | timeout hat => exact h.other hnil rfl rfl rfl (by simp) (by simp) (by simp)
  | cancel hat => exact h.other rfl rfl rfl rfl (by simp) (by simp) (by simp)
  | taken hrx hn =>
    refine h.taken rfl ?_ rfl (.inl rfl) rfl rfl
    rw [hrx]
    exact ⟨rfl, rfl⟩
  | filled hrx hn =>
    refine h.taken rfl ?_ rfl (.inr rfl) rfl rfl
    rw [hrx]
    exact ⟨rfl, rfl⟩
  | @missed c todo echo hrx hn =>
    have hl := fun b => h.lines b
    have he := fun b => h.echoes b
    rw [hrx] at hl he
    refine ⟨?_, ?_, ?_⟩
    · show numbers (s.log ++ [.received (s.received, c) none]) = List.range (s.received + 1)
      rw [numbers_append, h.numbered, List.range_succ]
      rfl
    · intro b
      have hlb := hl b
      simp only [RxPc.held, List.not_mem_nil, or_false] at hlb
      simp [State.add, RxPc.held, hlb]
    · intro b hb
      apply List.mem_append_left
      apply he b
      simpa [State.add, RxPc.echoes] using hb
  | @rx rx evs hx l q on =>
    refine ⟨?_, ?_, ?_⟩
    · show numbers (s.log ++ evs) = List.range s.received
      rw [numbers_append, numbers_silent hx.silent, List.append_nil, h.numbered]
    · intro b
      show .received b none ∈ s.log ++ evs ↔ .line b ∈ s.log ++ evs ∨ b ∈ rx.held
      rw [mem_silent hx.silent (by simp [Ev.silent]), h.lines, hx.held, List.mem_append, or_assoc]
    · intro b hb
      show .received b none ∈ s.log ++ evs
      have hb' : b ∈ rx.echoes ∨ ∃ bs, .echoed bs ∈ s.log ++ evs ∧ b ∈ bs := hb
      apply List.mem_append_left
      have hold : b ∈ s.rx.held → .received b none ∈ s.log := fun hm => (h.lines b).mpr (.inr hm)
      rcases hb' with hb' | ⟨bs, hbs, hmem⟩
      · rcases hx.echoes b (.inl hb') with he | hh
        · exact h.echoes b (.inl he)
        · exact hold hh
      · rcases List.mem_append.mp hbs with hbs | hbs
        · exact h.echoes b (.inr ⟨bs, hbs, hmem⟩)
        · rcases hx.echoes b (.inr ⟨bs, hbs, hmem⟩) with he | hh
          · exact h.echoes b (.inl he)
          · exact hold hh

end

theorem inv_bytes {s : State} (h : machine.Reach s) : Bytes s := by
  refine h.invariant Bytes ?_ fun _ _ _ hb _ hs => hb.stepTo (stepTo hs)
  rintro s rfl
  exact ⟨rfl, by simp [init, RxPc.held], by simp [init, RxPc.echoes]⟩

/-! ## Buffers -/

/-- A buffer of `len` bytes of which the first are `bs`. -/
def bufWith (len : ℕ) (bs : List UInt8) : List UInt8 := bs ++ List.replicate (len - bs.length) 0

theorem bufWith_set {len : ℕ} {bs : List UInt8} (h : bs.length < len) (c : UInt8) :
    (bufWith len bs).set bs.length c = bufWith len (bs ++ [c]) := by
  obtain ⟨n, rfl⟩ : ∃ n, len = bs.length + (n + 1) := ⟨len - bs.length - 1, by omega⟩
  rw [bufWith, bufWith, Nat.add_sub_cancel_left, List.replicate_succ,
    List.set_append_right _ _ (Nat.le_refl _), Nat.sub_self, List.set_cons_zero,
    List.length_append, List.append_assoc]
  have hn : bs.length + (n + 1) - (bs.length + [c].length) = n := by
    rw [List.length_singleton]
    omega
  rw [hn]
  rfl

/-- Every buffer holds the bytes that its entry took. -/
def Bufs (s : State) : Prop :=
  ∀ k, s.bufs k = bufWith (s.calls.getD k 0) ((takenBy k s.log).map Prod.snd)

section

variable {s s' : State}

theorem Bufs.other (h : Bufs s) (hbufs : s'.bufs = s.bufs) (hcalls : s'.calls = s.calls)
    {evs : List Ev} (hlog : s'.log = s.log ++ evs) (ht : ∀ k, takenBy k evs = []) : Bufs s' := by
  intro k
  rw [hbufs, hcalls, hlog, takenBy_append, ht, List.append_nil]
  exact h k

/-- `bin_byte` puts a byte behind those that the entry took before. -/
theorem Bufs.taken (h : Bufs s) (hi : Inv s) (hn : s.binHave < s.binNeed) {b : Rx}
    (hbufs : s'.bufs = s.putByte b.2) (hcalls : s'.calls = s.calls) {evs : List Ev}
    (hlog : s'.log = s.log ++ .received b (some s.binBuf) :: evs)
    (ht : ∀ k, takenBy k evs = []) : Bufs s' := by
  obtain ⟨k, len, pre, mid, hc, -, hp⟩ := hi.entry.pending hn
  have ho := hp.isOpen hn
  have hlen := (hi.calls.current k len hc).1
  have hlog' : takenBy k s.log = receivedIn mid := by
    rw [hp.log, takenBy_append, hp.before, ← ho.taken]
    rfl
  intro j
  rw [hbufs, hcalls, hlog, List.append_cons, takenBy_append, ht, List.append_nil, takenBy_append,
    State.putByte, hp.buf]
  by_cases hj : j = k
  · subst hj
    have htake : takenBy j [.received b (some j)] = [b] := by simp [takenBy]
    have hhave : s.binHave = ((receivedIn mid).map Prod.snd).length := by
      rw [List.length_map, ho.have_]
    have hget : s.calls.getD j 0 = len := by rw [List.getD_eq_getElem?_getD, hlen]; rfl
    rw [Function.update_self, h j, hlog', htake, hget, hhave, bufWith_set, List.map_append]
    · rfl
    · rw [List.length_map]
      exact ho.short
  · have htake : takenBy j [.received b (some k)] = [] := by simp [takenBy, Ne.symm hj]
    rw [Function.update_of_ne hj, htake, List.append_nil]
    exact h j

theorem Bufs.stepTo (h : Bufs s) (hi : Inv s) (hs : StepTo s s') : Bufs s' := by
  have hnil : s.log = s.log ++ [] := (List.append_nil _).symm
  cases hs with
  | call len hat =>
    intro k
    show Function.update s.bufs s.calls.length (List.replicate len 0) k =
      bufWith ((s.calls ++ [len]).getD k 0) ((takenBy k s.log).map Prod.snd)
    by_cases hk : k = s.calls.length
    · subst hk
      rw [Function.update_self, (hi.calls.fresh _ (Nat.le_refl _)).1]
      simp [bufWith]
    · rw [Function.update_of_ne hk, h k]
      congr 1
      rcases Nat.lt_or_gt_of_ne hk with hlt | hgt
      · rw [List.getD_eq_getElem?_getD, List.getD_eq_getElem?_getD, List.getElem?_append_left hlt]
      · have hgt' : (s.calls ++ [len]).length ≤ k := by
          rw [List.length_append, List.length_singleton]
          omega
        rw [List.getD_eq_getElem?_getD, List.getD_eq_getElem?_getD,
          List.getElem?_eq_none (Nat.le_of_lt hgt), List.getElem?_eq_none hgt']
  | reset hat => exact h.other rfl rfl hnil fun _ => rfl
  | arm hat => exact h.other rfl rfl rfl fun _ => rfl
  | prompt hat => exact h.other rfl rfl rfl fun _ => rfl
  | take hat hd => exact h.other rfl rfl rfl fun _ => rfl
  | timeout hat => exact h.other rfl rfl hnil fun _ => rfl
  | cancel hat => exact h.other rfl rfl rfl fun _ => rfl
  | taken hrx hn => exact h.taken hi (by omega) rfl rfl rfl fun _ => rfl
  | filled hrx hn => exact h.taken hi (by omega) rfl rfl rfl fun _ => rfl
  | missed hrx hn => exact h.other rfl rfl rfl fun _ => rfl
  | rx hx => exact h.other rfl rfl rfl fun _ => takenBy_silent hx.silent

end

theorem inv_bufs {s : State} (h : machine.Reach s) : Bufs s := by
  refine h.invariant_of Inv Bufs (fun _ => inv) ?_
    fun _ _ _ hi _ hb _ hs => hb.stepTo hi (stepTo hs)
  rintro s rfl k
  rfl

/-! ## What a call gets -/

section

variable {s s' : State} {k : ℕ} {ok : Bool}

theorem mem_takenBy {b : Rx} {log : List Ev} : b ∈ takenBy k log ↔ .received b (some k) ∈ log := by
  rw [takenBy, List.mem_filterMap]
  constructor
  · rintro ⟨e, he, hb⟩
    cases e with
    | received b' entry =>
      cases entry with
      | none => cases hb
      | some j =>
        dsimp only at hb
        split_ifs at hb with hj
        cases hb
        exact hj ▸ he
    | armed | completed | cancelled | line | echoed | prompted | returned => cases hb
  · intro he
    exact ⟨_, he, by simp⟩

/-- After a call has returned, its entry takes nothing. -/
theorem takenBy_after (h : Inv s) {pre post : List Ev}
    (hlog : s.log = pre ++ .returned k ok :: post) : takenBy k post = [] := by
  by_contra hne
  obtain ⟨b, hb⟩ := List.exists_mem_of_ne_nil _ hne
  obtain ⟨post₁, post₂, rfl⟩ := List.append_of_mem (mem_takenBy.mp hb)
  have hrule := h.follows (pre ++ .returned k ok :: post₁) (.received b (some k)) post₂
    (by simp [hlog])
  exact hrule.2 ok (by simp)

/-- A step does not change the buffer of a call that has returned. -/
theorem bufs_stepTo (h : Inv s) (hk : .returned k ok ∈ s.log) (hs : StepTo s s') :
    s'.bufs k = s.bufs k ∧ .returned k ok ∈ s'.log := by
  have hput : s.binHave < s.binNeed → ∀ c, s.putByte c k = s.bufs k := by
    intro hn c
    obtain ⟨j, len, pre, mid, hc, -, hp⟩ := h.entry.pending hn
    apply Function.update_of_ne
    intro hj
    rw [hj, hp.buf] at hk
    exact (h.calls.current j len hc).2 ok hk
  cases hs with
  | call len hat =>
    refine ⟨Function.update_of_ne ?_ _ _, hk⟩
    intro hlen
    exact (h.calls.fresh k (Nat.le_of_eq hlen.symm)).2 ok hk
  | reset hat | timeout hat => exact ⟨rfl, hk⟩
  | arm hat | prompt hat | cancel hat => exact ⟨rfl, List.mem_append_left _ hk⟩
  | take hat hd => exact ⟨rfl, List.mem_append_left _ hk⟩
  | taken hrx hn => exact ⟨hput (by omega) _, List.mem_append_left _ hk⟩
  | filled hrx hn => exact ⟨hput (by omega) _, List.mem_append_left _ hk⟩
  | missed hrx hn => exact ⟨rfl, List.mem_append_left _ hk⟩
  | rx hx => exact ⟨rfl, List.mem_append_left _ hk⟩

/-- Nor does a run. -/
theorem bufs_exec (h : machine.Reach s) (hk : .returned k ok ∈ s.log) {as : List Action}
    (he : machine.exec s as = some s') : s'.bufs k = s.bufs k := by
  induction as generalizing s with
  | nil => cases he; rfl
  | cons a as ih =>
    obtain ⟨t, ht, he⟩ := Option.bind_eq_some_iff.mp he
    obtain ⟨hbuf, hmem⟩ := bufs_stepTo (inv h) hk (stepTo ht)
    rw [← hbuf]
    exact ih (.step h trivial ht) hmem he

end

/-- **Binary entries.** In every run, a call of `at_uart_read_binary` that returned 0 was completed
after it was armed; its buffer holds exactly the first `len` bytes received since then, and none of
these was echoed or given to the line assembler. A byte that is received while no entry is armed
goes to the line assembler. Once a call has returned, its buffer does not change any more. -/
theorem read_binary {s : State} (h : machine.Reach s) :
    (∀ k, .returned k true ∈ s.log → ∃ len pre mid post, s.calls[k]? = some len ∧
      s.log = pre ++ .armed k len :: (mid ++ .returned k true :: post) ∧ .completed k ∈ mid ∧
      len ≤ (receivedIn mid).length ∧ s.bufs k = ((receivedIn mid).take len).map Prod.snd ∧
      ∀ b ∈ (receivedIn mid).take len, .line b ∉ s.log ∧ ∀ bs, .echoed bs ∈ s.log → b ∉ bs) ∧
    (∀ pre b entry post, s.log = pre ++ .received b entry :: post → armedAfter pre = none →
      entry = none ∧ (.line b ∈ s.log ∨ b ∈ s.rx.held)) ∧
    (∀ k ok, .returned k ok ∈ s.log → ∀ as s', machine.exec s as = some s' →
      s'.bufs k = s.bufs k) := by
  have hi := inv h
  have hb := inv_bytes h
  refine ⟨?_, ?_, fun k ok hk as s' he => bufs_exec h hk he⟩
  · intro k hk
    obtain ⟨pre', post, hlog⟩ := List.append_of_mem hk
    obtain ⟨pre, mid, len, rfl, hbefore, hdone, henough, htaken⟩ := hi.follows _ _ _ hlog
    have hlog' : s.log = pre ++ .armed k len :: (mid ++ .returned k true :: post) := by
      rw [hlog, List.append_assoc, List.cons_append]
    have hlen : s.calls[k]? = some len := hi.calls.armed k len (by simp [hlog'])
    have htake : takenBy k s.log = (receivedIn mid).take len := by
      rw [hlog, takenBy_append, takenBy_append, hbefore, ← htaken]
      show takenBy k mid ++ takenBy k post = takenBy k mid
      rw [takenBy_after hi hlog, List.append_nil]
    refine ⟨len, pre, mid, post, hlen, hlog', hdone, henough, ?_, ?_⟩
    · have hfull : ((receivedIn mid).take len).length = len := List.length_take_of_le henough
      rw [inv_bufs h k, htake, List.getD_eq_getElem?_getD, hlen, bufWith, List.length_map, hfull]
      simp
    · intro b hbm
      rw [← htake, mem_takenBy] at hbm
      constructor
      · intro hline
        cases hb.entry_unique hbm ((hb.lines b).mpr (.inl hline))
      · intro bs hbs hmem
        cases hb.entry_unique hbm (hb.echoes b (.inr ⟨bs, hbs, hmem⟩))
  · intro pre b entry post hlog harmed
    have hrule := hi.follows pre _ post hlog
    cases entry with
    | some k => cases harmed.symm.trans hrule.1
    | none => exact ⟨rfl, (hb.lines b).mp (by simp [hlog])⟩

/-- An entry times out and is completed before it is cancelled; the next one gets its own bytes. -/
def staleRun : List Action :=
  [.readBinary 1, .at_, .at_, .at_, .timeout, .rxEvent [65], .rx, .at_, .rx, .readBinary 2, .at_,
    .at_, .at_, .rxEvent [66, 67, 13], .rx, .rx, .at_, .rx, .rx, .rx]

theorem staleRun_exec : (machine.exec init staleRun).map (fun s => (s.calls, s.log)) =
    some ([1, 2], [.armed 0 1, .prompted 0, .received (0, 65) (some 0), .completed 0, .cancelled 0,
      .returned 0 false, .armed 1 2, .prompted 1, .received (1, 66) (some 1),
      .received (2, 67) (some 1), .completed 1, .returned 1 true, .received (3, 13) none,
      .line (3, 13)]) := by
  decide

theorem read_binary_stale : ∃ s, machine.Reach s ∧
    (∃ len pre mid post, s.calls[1]? = some len ∧
      s.log = pre ++ .armed 1 len :: (mid ++ .returned 1 true :: post) ∧
      s.bufs 1 = ((receivedIn mid).take len).map Prod.snd) ∧
    (.line (3, 13) ∈ s.log ∨ (3, 13) ∈ s.rx.held) ∧
    ∀ as s', machine.exec s as = some s' → s'.bufs 0 = s.bufs 0 := by
  obtain ⟨s, he, hs⟩ := Option.map_eq_some_iff.mp staleRun_exec
  simp only [Prod.mk.injEq] at hs
  have hreach : machine.Reach s := Machine.Reach.exec (.init rfl) he
  obtain ⟨hok, hline, hkeep⟩ := read_binary hreach
  refine ⟨s, hreach, ?_, ?_, hkeep 0 false (by simp [hs.2])⟩
  · obtain ⟨len, pre, mid, post, hlen, hlog, -, -, hbuf, -⟩ := hok 1 (by simp [hs.2])
    exact ⟨len, pre, mid, post, hlen, hlog, hbuf⟩
  · exact (hline (s.log.take 12) (3, 13) none [.line (3, 13)] (by rw [hs.2]; rfl)
      (by rw [hs.2]; rfl)).2

end ZbAt.Uart.Bin
