import ZbAt.UartTx

/-!
# The AT output path: nothing lost, reordered or stalled

The right to start a transfer is a token with three places: the semaphore `tx_idle`, a thread
inside `tx_start`, or the driver running a transfer. `Inv` says that there is exactly one token,
that the open claim of the ring is what the driver (or the caller of `uart_tx`) has, and that
the bytes sent, the bytes in the ring and the bytes still to copy are the bytes written.

* `inv_step` — every step keeps `Inv`, also when `uart_tx` refuses.
* `settled_step` — while `uart_tx` accepts, the token rests in `tx_idle` only over an empty ring,
  as soon as the writer is past `tx_flush`.
* `output_refines` — the whole path is an output that takes writes and sends them in order.
-/

namespace ZbAt.Uart

/-! ## The invariant -/

/-- 1 while the holder of `tx_lock` is inside `tx_start`. -/
def lockToken : Option (ℕ × Pc) → ℕ
  | some (_, .start _ _) => 1
  | _ => 0

/-- What the holder of `tx_lock` claimed and has not passed to `uart_tx` yet. -/
def lockClaim : Option (ℕ × Pc) → List (List Byte)
  | some (_, .start (.uartTx p) _) => [p]
  | _ => []

/-- The holder of `tx_lock` still has to take a refused or empty claim back. -/
def lockFinishing : Option (ℕ × Pc) → Prop
  | some (_, .start .finish _) => True
  | _ => False

def lockPending : Option (ℕ × Pc) → List Byte
  | none => []
  | some (_, pc) => pc.pending

/-- The bytes claimed from the ring. -/
def State.claims (s : State) : List Byte := (s.transfers ++ lockClaim s.txLock).flatten

structure Inv (s : State) : Prop where
  token : s.txIdle.toNat + s.transfers.length + lockToken s.txLock = 1
  claimed : ¬ lockFinishing s.txLock →
    s.txRing.claimed = s.claims.length ∧ s.claims = s.txRing.items.take s.claims.length
  stream : s.sent ++ s.txRing.items ++ lockPending s.txLock = s.written

theorem inv_init : Inv init :=
  ⟨rfl, fun _ => ⟨rfl, rfl⟩, rfl⟩

theorem lockToken_of_claim {l : Option (ℕ × Pc)} (h : lockToken l = 0) :
    lockClaim l = [] ∧ ¬ lockFinishing l := by
  rcases l with _ | ⟨t, pc⟩
  · exact ⟨rfl, id⟩
  · cases pc with
    | start a k => cases h
    | _ => exact ⟨rfl, id⟩

/-- Nothing is claimed while the token is in `tx_idle`. -/
theorem Inv.idle {s : State} (h : Inv s) (hi : s.txIdle = true) :
    s.transfers = [] ∧ s.txRing.claimed = 0 := by
  have ht := h.token
  simp only [hi, Bool.toNat_true] at ht
  have htr : s.transfers = [] := List.eq_nil_of_length_eq_zero (by omega)
  obtain ⟨hc, hf⟩ := lockToken_of_claim (l := s.txLock) (by omega)
  refine ⟨htr, ?_⟩
  rw [(h.claimed hf).1, State.claims, htr, hc]
  rfl

/-- A running transfer is the only one, nobody else has the token, and it is the front of the
ring. -/
theorem Inv.running {s : State} (h : Inv s) {i : ℕ} {p : List Byte}
    (hp : s.transfers[i]? = some p) :
    s.transfers.eraseIdx i = [] ∧ s.txIdle = false ∧ lockToken s.txLock = 0 ∧
      s.txRing.claimed = p.length ∧ p = s.txRing.items.take p.length := by
  have ht := h.token
  have hlt : i < s.transfers.length := (List.getElem?_eq_some_iff.mp hp).1
  have hlen : s.transfers.length = 1 := by omega
  have hi : i = 0 := by omega
  subst hi
  obtain ⟨q, hq⟩ := List.length_eq_one_iff.mp hlen
  rw [hq] at hp
  cases hp
  have hl : lockToken s.txLock = 0 := by omega
  obtain ⟨hc, hf⟩ := lockToken_of_claim hl
  have hclaims : s.claims = p := by simp [State.claims, hq, hc]
  have hcl := h.claimed hf
  rw [hclaims] at hcl
  have hidle : s.txIdle.toNat = 0 := by omega
  exact ⟨by rw [hq]; rfl, Bool.toNat_eq_zero.mp hidle, hl, hcl.1, hcl.2⟩

/-! ## The callback -/

/-- `tx_start` with the token and no claim open: the token ends in `tx_idle` or in the driver, and
the queue is unchanged. -/
theorem txStart_spec {s : State} (contig : ℕ) (accept : Bool) (hcl : s.txRing.claimed = 0)
    (htr : s.transfers = []) :
    (txStart contig accept s).txRing.items = s.txRing.items ∧
      (((txStart contig accept s).txIdle = true ∧ (txStart contig accept s).transfers = [] ∧
          (txStart contig accept s).txRing.claimed = 0) ∨
        ∃ p, (txStart contig accept s).txIdle = s.txIdle ∧
          (txStart contig accept s).transfers = [p] ∧
          (txStart contig accept s).txRing.claimed = p.length ∧
          p = s.txRing.items.take p.length) := by
  unfold txStart
  simp only
  split_ifs with h
  · exact ⟨by simp, .inl ⟨rfl, htr, by simp⟩⟩
  · have hg := s.txRing.getClaim_take hcl txBufSize contig
    exact ⟨rfl, .inr ⟨_, rfl, by simp [htr], hg.1, hg.2⟩⟩

theorem txStart_frame (contig : ℕ) (accept : Bool) (s : State) :
    (txStart contig accept s).txLock = s.txLock ∧ (txStart contig accept s).sent = s.sent ∧
      (txStart contig accept s).writes = s.writes := by
  unfold txStart
  simp only
  split_ifs <;> exact ⟨rfl, rfl, rfl⟩

/-- What the callback does to a state with one transfer `p`: the bytes reported leave the ring, and
the token goes back to `tx_idle` or to a new transfer of the front of the ring. -/
theorem uartCbTx_spec {s : State} {len contig : ℕ} (accept : Bool)
    (hlen : len ≤ s.txRing.claimed) (htr : s.transfers = []) :
    s.txRing.items.take len ++ (uartCbTx len contig accept s).txRing.items = s.txRing.items ∧
      (((uartCbTx len contig accept s).txIdle = true ∧
          (uartCbTx len contig accept s).transfers = [] ∧
          (uartCbTx len contig accept s).txRing.claimed = 0) ∨
        ∃ p, (uartCbTx len contig accept s).txIdle = s.txIdle ∧
          (uartCbTx len contig accept s).transfers = [p] ∧
          (uartCbTx len contig accept s).txRing.claimed = p.length ∧
          p = (uartCbTx len contig accept s).txRing.items.take p.length) := by
  have hz := s.txRing.getFinish_claimed hlen
  have hit := s.txRing.take_getFinish hlen
  unfold uartCbTx
  simp only
  split_ifs with he
  · exact ⟨hit, .inl ⟨rfl, htr, hz⟩⟩
  · obtain ⟨hi, ho⟩ := txStart_spec (s := { s with txRing := s.txRing.getFinish len }) contig
      accept hz htr
    rw [hi]
    exact ⟨hit, ho⟩

theorem uartCbTx_frame (len contig : ℕ) (accept : Bool) (s : State) :
    (uartCbTx len contig accept s).txLock = s.txLock ∧
      (uartCbTx len contig accept s).sent = s.sent ∧
      (uartCbTx len contig accept s).writes = s.writes := by
  unfold uartCbTx
  simp only
  split_ifs
  · exact ⟨rfl, rfl, rfl⟩
  · exact txStart_frame contig accept _

theorem inv_txDone {s : State} (h : Inv s) {i len contig : ℕ} {accept : Bool} {p : List Byte}
    (hp : s.transfers[i]? = some p) (hlen : len ≤ p.length) :
    Inv (uartCbTx len contig accept
      { s with transfers := s.transfers.eraseIdx i, sent := s.sent ++ p.take len }) := by
  obtain ⟨her, hidle, hl, hcl, hpre⟩ := h.running hp
  set s₁ : State := { s with transfers := s.transfers.eraseIdx i, sent := s.sent ++ p.take len }
  have hle : len ≤ s₁.txRing.claimed := by rwa [show s₁.txRing.claimed = p.length from hcl]
  obtain ⟨hit, ho⟩ := uartCbTx_spec accept hle her
  obtain ⟨hlock, hsent, hwr⟩ := uartCbTx_frame len contig accept s₁
  obtain ⟨hc, hf⟩ := lockToken_of_claim hl
  set s₂ := uartCbTx len contig accept s₁
  have hlock : s₂.txLock = s.txLock := hlock
  have hclaims : s₂.claims = s₂.transfers.flatten := by
    rw [State.claims, hlock, hc, List.append_nil]
  refine ⟨?_, ?_, ?_⟩
  · rw [hlock, hl]
    rcases ho with ⟨h1, h2, -⟩ | ⟨q, h1, h2, -⟩
    · rw [h1, h2]; rfl
    · rw [h1, h2, show s₁.txIdle = s.txIdle from rfl, hidle]; rfl
  · intro _
    rw [hclaims]
    rcases ho with ⟨-, h2, h3⟩ | ⟨q, -, h2, h3, h4⟩
    · rw [h2]; exact ⟨h3, rfl⟩
    · rw [h2, List.flatten_singleton]; exact ⟨h3, h4⟩
  · have htake : p.take len = s.txRing.items.take len := by
      conv_lhs => rw [hpre, List.take_take, Nat.min_eq_left hlen]
    have hst := h.stream
    rw [hlock, hsent]
    show s.sent ++ p.take len ++ s₂.txRing.items ++ lockPending s.txLock = s₂.written
    rw [State.written, hwr, htake, List.append_assoc s.sent, hit]
    exact hst

/-! ## The writer -/

theorem After.pending_pc (k : After) : k.pc.pending = Pc.pending (.start .claim k) := by
  cases k <;> rfl

theorem After.pc_token (t : ℕ) (k : After) :
    lockToken (some (t, k.pc)) = 0 ∧ lockClaim (some (t, k.pc)) = [] := by
  cases k <;> exact ⟨rfl, rfl⟩

theorem pending_start (a b : StartPc) (k : After) :
    Pc.pending (.start a k) = Pc.pending (.start b k) := by
  cases k <;> rfl

/-- A step that only moves the holder, between two places without the token. -/
theorem inv_move {s : State} (h : Inv s) {l : Option (ℕ × Pc)} (h0 : lockToken s.txLock = 0)
    (h1 : lockToken l = 0) (hp : lockPending l = lockPending s.txLock) :
    Inv { s with txLock := l } := by
  obtain ⟨hc0, hf0⟩ := lockToken_of_claim h0
  obtain ⟨hc1, -⟩ := lockToken_of_claim h1
  have hcl : State.claims { s with txLock := l } = s.claims := by
    simp only [State.claims, hc0, hc1]
  have ht := h.token
  rw [h0] at ht
  refine ⟨by simp only [h1]; exact ht, ?_, ?_⟩
  · intro _
    rw [hcl]; exact h.claimed hf0
  · simp only [hp]; exact h.stream

/-- A successful `k_sem_take(&tx_idle)`: the token moves to the holder. -/
theorem inv_take {s : State} (h : Inv s) (hi : s.txIdle = true) {t : ℕ} {k : After}
    (hp : Pc.pending (.start .claim k) = lockPending s.txLock) :
    Inv { s with txIdle := false, txLock := some (t, .start .claim k) } := by
  obtain ⟨htr, hcl⟩ := h.idle hi
  refine ⟨by simp [htr, lockToken], ?_, ?_⟩
  · intro _
    simp [State.claims, htr, lockClaim, hcl]
  · show s.sent ++ s.txRing.items ++ Pc.pending (.start .claim k) = s.written
    rw [hp]; exact h.stream

theorem inv_put {s : State} (h : Inv s) {t : ℕ} {cur : List Byte} {rest : List (List Byte)}
    (hl : s.txLock = some (t, .write cur rest)) :
    Inv { s with
      txRing := s.txRing.put cur
      txLock := some (t, if cur.drop (s.txRing.fits cur) = [] then .write [] rest
        else .wait (cur.drop (s.txRing.fits cur)) rest) } := by
  set l := if cur.drop (s.txRing.fits cur) = [] then Pc.write [] rest
    else .wait (cur.drop (s.txRing.fits cur)) rest
  have hlt : lockToken (some (t, l)) = 0 ∧ lockClaim (some (t, l)) = [] := by
    simp only [l]; split_ifs <;> exact ⟨rfl, rfl⟩
  have hpend : l.pending = cur.drop (s.txRing.fits cur) ++ rest.flatten := by
    simp only [l]
    split_ifs with hd
    · rw [hd]; rfl
    · rfl
  have ht := h.token
  obtain ⟨hc, htake⟩ := h.claimed (by rw [hl]; exact id)
  have hcl : State.claims { s with txRing := s.txRing.put cur, txLock := some (t, l) } =
      s.claims := by
    show (s.transfers ++ lockClaim (some (t, l))).flatten = _
    rw [hlt.2, State.claims, hl]
    rfl
  rw [hl] at ht
  refine ⟨by simp only [hlt.1]; exact ht, ?_, ?_⟩
  · intro _
    rw [hcl]
    refine ⟨hc, ?_⟩
    rw [s.txRing.take_put (by rw [← hc]; exact s.txRing.claimed_le)]
    exact htake
  · have hst := h.stream
    rw [hl] at hst
    show s.sent ++ (s.txRing.put cur).items ++ l.pending = s.written
    rw [← hst, hpend, ← List.append_assoc, List.append_assoc s.sent, s.txRing.put_items]
    simp [lockPending, Pc.pending]

/-- A step of the holder inside `tx_start` leaves the queue alone; `hcl` is the state of the claim
after it. -/
theorem inv_start {s : State} (h : Inv s) {t : ℕ} {a : StartPc} {k : After}
    (hl : s.txLock = some (t, .start a k)) {ring : Ring Byte txBufSize} {idle : Bool}
    {transfers : List (List Byte)} {pc : Pc} (hitems : ring.items = s.txRing.items)
    (htok : idle.toNat + transfers.length + lockToken (some (t, pc)) = 1)
    (hcl : ¬ lockFinishing (some (t, pc)) →
      ring.claimed = (transfers ++ lockClaim (some (t, pc))).flatten.length ∧
        (transfers ++ lockClaim (some (t, pc))).flatten =
          ring.items.take (transfers ++ lockClaim (some (t, pc))).flatten.length)
    (hp : pc.pending = Pc.pending (.start a k)) :
    Inv { s with txRing := ring, txIdle := idle, transfers := transfers, txLock := some (t, pc) } :=
  ⟨htok, hcl, by
    have hst := h.stream
    rw [hl] at hst
    show s.sent ++ ring.items ++ pc.pending = s.written
    rw [hitems, hp]
    exact hst⟩

theorem inv_runHolder {s s' : State} (h : Inv s) {t contig : ℕ} {accept : Bool} {pc : Pc}
    (hl : s.txLock = some (t, pc)) (hs : runHolder t contig accept s pc = some s') : Inv s' := by
  have h0 : lockToken s.txLock = lockToken (some (t, pc)) := by rw [hl]
  have hp0 : lockPending s.txLock = pc.pending := by rw [hl]; rfl
  have ht := h.token
  cases pc with
  | write cur rest =>
    rcases cur with _ | ⟨b, cur⟩
    · rcases rest with _ | ⟨c, rest⟩
      · cases hs; exact inv_move h h0 rfl (by rw [hp0]; rfl)
      · cases hs; exact inv_move h h0 rfl (by rw [hp0]; rfl)
    · cases hs; exact inv_put h hl
  | wait cur rest =>
    simp only [runHolder] at hs
    split_ifs at hs with hi
    cases hs
    exact inv_take h hi (by rw [hp0]; rfl)
  | flush =>
    simp only [runHolder] at hs
    split_ifs at hs with hi
    · cases hs; exact inv_take h hi (by rw [hp0]; rfl)
    · cases hs; exact inv_move h h0 rfl (by rw [hp0]; rfl)
  | unlock => cases hs; exact inv_move h h0 rfl (by rw [hp0]; rfl)
  | start a k =>
    rw [hl, show lockToken (some (t, Pc.start a k)) = 1 from rfl] at ht
    have hi : s.txIdle = false := Bool.toNat_eq_zero.mp (by omega)
    have htr : s.transfers = [] := List.eq_nil_of_length_eq_zero (by omega)
    have hcl := h.claimed
    rw [State.claims, hl, htr] at hcl
    cases a with
    | claim =>
      obtain ⟨hc, -⟩ := hcl id
      have hg := s.txRing.getClaim_take (by simpa [lockClaim] using hc) txBufSize contig
      cases hs
      refine inv_start h hl rfl ?_ ?_ ?_
      · split_ifs <;> simp [hi, htr, lockToken]
      · intro hf
        split_ifs at hf ⊢ with hn
        · exact absurd trivial hf
        · simpa [htr, lockClaim] using hg
      · split_ifs <;> exact pending_start _ _ k
    | uartTx p =>
      obtain ⟨hc, htake⟩ := hcl id
      simp only [runHolder] at hs
      split_ifs at hs with hacc
      · cases hs
        refine inv_start h hl rfl ?_ ?_ ?_
        · simp [hi, htr, (k.pc_token t).1]
        · intro _
          rw [htr, (k.pc_token t).2]
          exact ⟨hc, htake⟩
        · rw [k.pending_pc]; exact pending_start _ _ k
      · cases hs
        exact inv_start h hl rfl (by simp [hi, htr, lockToken]) (fun hf => absurd trivial hf)
          (pending_start _ _ k)
    | finish =>
      cases hs
      exact inv_start h hl (by simp) (by simp [hi, htr, lockToken])
        (fun _ => by simp [htr, lockClaim]) (pending_start _ _ k)
    | give =>
      obtain ⟨hc, -⟩ := hcl id
      cases hs
      refine inv_start h hl rfl ?_ ?_ ?_
      · simp [htr, (k.pc_token t).1]
      · intro _
        rw [htr, (k.pc_token t).2]
        exact ⟨hc, rfl⟩
      · rw [k.pending_pc]; exact pending_start _ _ k

/-! ## Every step -/

theorem inv_lock {s : State} (h : Inv s) (hl : s.txLock = none) (t : ℕ) (w : Write) :
    Inv { s with txLock := some (t, .write [] w.calls), writes := s.writes ++ [w] } := by
  have ht := h.token
  have hcl := h.claimed
  have hst := h.stream
  simp only [hl, State.claims, State.written] at ht hcl hst
  refine ⟨ht, fun _ => hcl id, ?_⟩
  simp only [State.written, List.flatMap_append]
  rw [← hst]
  simp [lockPending, Pc.pending, Write.bytes]

theorem inv_step {s s' : State} {a : Action} (h : Inv s) (hs : step s a = some s') : Inv s' := by
  cases a with
  | lock t w =>
    simp only [step] at hs
    split at hs
    · cases hs; exact inv_lock h ‹_› t w
    · cases hs
  | run contig accept =>
    simp only [step] at hs
    split at hs
    · cases hs
    · split_ifs at hs
      exact inv_runHolder h ‹_› hs
  | txDone i len contig accept =>
    simp only [step] at hs
    split at hs
    · cases hs
    · split_ifs at hs with hg
      cases hs
      exact inv_txDone h ‹_› hg.1

theorem inv_reach {s : State} (h : machine.Reach s) : Inv s :=
  h.invariant Inv (by rintro s rfl; exact inv_init) fun _ _ _ hi _ hs => inv_step hi hs

/-! ## While `uart_tx` accepts -/

/-- Past `tx_flush`, the token rests in `tx_idle` only over an empty ring. -/
def Settled (s : State) : Prop :=
  match s.txLock with
  | none | some (_, .unlock) => s.txIdle = true → s.txRing.items = []
  | some (_, .start .finish _) | some (_, .start .give _) => s.txRing.items = []
  | _ => True

theorem settled_txStart {s : State} {contig : ℕ} (hc : 0 < contig) (hcl : s.txRing.claimed = 0)
    (hi : s.txIdle = false) (h : (txStart contig true s).txIdle = true) :
    (txStart contig true s).txRing.items = [] := by
  unfold txStart at h ⊢
  simp only [Bool.true_eq_false, or_false] at h ⊢
  split_ifs at h ⊢ with hp
  · simpa using s.txRing.claim_eq_nil hcl (Nat.le_refl _) hc (List.length_eq_zero_iff.mp hp)
  · simp [hi] at h

theorem settled_uartCbTx {s : State} {len contig : ℕ} (hc : 0 < contig)
    (hlen : len ≤ s.txRing.claimed) (hi : s.txIdle = false)
    (h : (uartCbTx len contig true s).txIdle = true) :
    (uartCbTx len contig true s).txRing.items = [] := by
  have hz := s.txRing.getFinish_claimed hlen
  unfold uartCbTx at h ⊢
  simp only at h ⊢
  split_ifs at h ⊢ with he
  · exact Ring.items_of_isEmpty _ hz he
  · exact settled_txStart hc hz hi h

theorem settled_runHolder {s s' : State} (hinv : Inv s) (h : Settled s) {t contig : ℕ} {pc : Pc}
    (hl : s.txLock = some (t, pc)) (hc : 0 < contig)
    (hs : runHolder t contig true s pc = some s') : Settled s' := by
  unfold Settled at h
  rw [hl] at h
  cases pc with
  | write cur rest =>
    rcases cur with _ | ⟨b, cur⟩
    · rcases rest with _ | ⟨c, rest⟩ <;> cases hs <;> trivial
    · cases hs
      simp only [Settled]
      split_ifs <;> trivial
  | wait cur rest =>
    simp only [runHolder] at hs
    split_ifs at hs
    cases hs; trivial
  | flush =>
    simp only [runHolder] at hs
    split_ifs at hs with hi
    · cases hs; trivial
    · cases hs; exact fun hi' => absurd hi' hi
  | unlock => cases hs; exact h
  | start a k =>
    have htok := hinv.token
    rw [hl, show lockToken (some (t, Pc.start a k)) = 1 from rfl] at htok
    cases a with
    | claim =>
      obtain ⟨hcl, -⟩ := hinv.claimed (by rw [hl]; exact id)
      have htr : s.transfers = [] := List.eq_nil_of_length_eq_zero (by omega)
      rw [State.claims, hl, htr] at hcl
      cases hs
      simp only [Settled]
      split_ifs with hp
      · exact s.txRing.claim_eq_nil hcl (Nat.le_refl _) hc (List.length_eq_zero_iff.mp hp)
      · trivial
    | uartTx p =>
      have hi : s.txIdle = false := Bool.toNat_eq_zero.mp (by omega)
      cases hs
      cases k with
      | write cur rest => trivial
      | unlock => exact fun hi' => by simp [hi] at hi'
    | finish => cases hs; simpa [Settled] using h
    | give =>
      cases hs
      cases k with
      | write cur rest => trivial
      | unlock => exact fun _ => h

theorem settled_txDone {s : State} (hinv : Inv s) {i len contig : ℕ} {p : List Byte}
    (hc : 0 < contig) (hp : s.transfers[i]? = some p) (hlen : len ≤ p.length) :
    Settled (uartCbTx len contig true
      { s with transfers := s.transfers.eraseIdx i, sent := s.sent ++ p.take len }) := by
  obtain ⟨-, hi, hl, hcl, -⟩ := hinv.running hp
  set s₁ : State := { s with transfers := s.transfers.eraseIdx i, sent := s.sent ++ p.take len }
  have hle : len ≤ s₁.txRing.claimed := by rwa [show s₁.txRing.claimed = p.length from hcl]
  have hempty := settled_uartCbTx hc hle hi
  have hlock : (uartCbTx len contig true s₁).txLock = s.txLock := (uartCbTx_frame _ _ _ s₁).1
  unfold Settled
  rw [hlock]
  rcases hlk : s.txLock with _ | ⟨t, pc⟩
  · exact hempty
  · rw [hlk] at hl
    cases pc with
    | unlock => exact hempty
    | start a k => cases hl
    | _ => trivial

theorem settled_step {s s' : State} {a : Action} (hinv : Inv s) (h : Settled s)
    (ha : Accepts s a) (hs : step s a = some s') : Settled s' := by
  cases a with
  | lock t w =>
    simp only [step] at hs
    split at hs
    · cases hs; trivial
    · cases hs
  | run contig accept =>
    cases ha
    simp only [step] at hs
    split at hs
    · cases hs
    · split_ifs at hs with hc
      exact settled_runHolder hinv h ‹_› hc hs
  | txDone i len contig accept =>
    cases ha
    simp only [step] at hs
    split at hs
    · cases hs
    · split_ifs at hs with hg
      cases hs
      exact settled_txDone hinv hg.2 ‹_› hg.1

theorem settled_reach {s : State} (h : machine.ReachIf Accepts s) : Settled s :=
  h.invariant_of Inv Settled (fun _ => inv_reach) (by rintro s rfl; exact fun _ => rfl)
    fun _ _ _ hinv _ hi ha hs => settled_step hinv hi ha hs

/-- A writer that waits for `tx_idle` waits for a running transfer: the callback will wake it. -/
theorem wait_transfer {s : State} (h : machine.Reach s) {t : ℕ} {cur : List Byte}
    {rest : List (List Byte)} (hl : s.txLock = some (t, .wait cur rest)) (hi : s.txIdle = false) :
    s.transfers.length = 1 := by
  have ht := (inv_reach h).token
  rw [hl, hi] at ht
  simpa [lockToken] using ht

/-! ## What the output path is for -/

/-- The output of a device: what was sent, and what is due. -/
structure Output where
  sent : List Byte
  due : List Byte

inductive OutputAction
  /-- A whole write is taken on. -/
  | write (bs : List Byte)
  /-- The next `n` bytes go out. -/
  | send (n : ℕ)

/-- Bytes go out in the order in which the writes came. -/
def output : Machine Output OutputAction where
  init := fun t => t = ⟨[], []⟩
  step := fun t a =>
    match a with
    | .write bs => some { t with due := t.due ++ bs }
    | .send n => if n ≤ t.due.length then some ⟨t.sent ++ t.due.take n, t.due.drop n⟩ else none

/-- The output that a state of the firmware shows. -/
structure Shows (s : State) (t : Output) : Prop where
  inv : Inv s
  sent : t.sent = s.sent
  written : t.sent ++ t.due = s.written

theorem Shows.due {s : State} {t : Output} (h : Shows s t) :
    t.due = s.txRing.items ++ s.pending := by
  have hst := h.inv.stream
  rw [← h.written, h.sent, List.append_assoc] at hst
  exact (List.append_cancel_left hst).symm

/-- The holder of `tx_lock` sends nothing itself. -/
theorem runHolder_frame {s s' : State} {t contig : ℕ} {accept : Bool} {pc : Pc}
    (hs : runHolder t contig accept s pc = some s') : s'.sent = s.sent ∧ s'.writes = s.writes := by
  cases pc with
  | write cur rest =>
    rcases cur with _ | ⟨b, cur⟩
    · rcases rest with _ | ⟨c, rest⟩
      · cases hs; exact ⟨rfl, rfl⟩
      · cases hs; exact ⟨rfl, rfl⟩
    · cases hs; exact ⟨rfl, rfl⟩
  | wait cur rest =>
    simp only [runHolder] at hs
    split_ifs at hs
    cases hs
    exact ⟨rfl, rfl⟩
  | flush =>
    simp only [runHolder] at hs
    split_ifs at hs <;> cases hs <;> exact ⟨rfl, rfl⟩
  | unlock => cases hs; exact ⟨rfl, rfl⟩
  | start a k =>
    cases a with
    | uartTx p =>
      simp only [runHolder] at hs
      split_ifs at hs <;> cases hs <;> exact ⟨rfl, rfl⟩
    | claim | finish | give => cases hs; exact ⟨rfl, rfl⟩

/-- What the driver reports as sent was due. -/
theorem Shows.send {s s' : State} {t : Output} {bs : List Byte} (h : Shows s t) (hinv : Inv s')
    (hsent : s'.sent = s.sent ++ bs) (hwr : s'.writes = s.writes) :
    ∃ as t', output.exec t as = some t' ∧ Shows s' t' := by
  have hst := hinv.stream
  have hwritten : s'.written = s.written := by rw [State.written, hwr]; rfl
  rw [hsent, hwritten, ← h.written, ← h.sent, List.append_assoc, List.append_assoc] at hst
  have hdue := List.append_cancel_left hst
  refine ⟨[.send bs.length], ⟨t.sent ++ bs, t.due.drop bs.length⟩, ?_, hinv, ?_, ?_⟩
  · simp [Machine.exec, output, ← hdue]
  · rw [hsent, h.sent]
  · rw [hwritten, ← h.written, ← hdue, List.drop_left]
    exact List.append_assoc _ _ _

/-- Taking `tx_lock` is the write, and the callback is what sends. -/
theorem shows_step {s s' : State} {a : Action} {t : Output} (h : Shows s t)
    (hs : step s a = some s') :
    ∃ bs t', output.exec t bs = some t' ∧ Shows s' t' := by
  have hinv := inv_step h.inv hs
  cases a with
  | lock i w =>
    simp only [step] at hs
    split at hs
    · cases hs
      refine ⟨[.write w.bytes], { t with due := t.due ++ w.bytes }, rfl, hinv, h.sent, ?_⟩
      dsimp only [State.written]
      rw [← List.append_assoc, h.written, List.flatMap_append, List.flatMap_singleton]
      rfl
    · cases hs
  | run contig accept =>
    simp only [step] at hs
    split at hs
    · cases hs
    · split_ifs at hs
      obtain ⟨hsent, hwr⟩ := runHolder_frame hs
      refine ⟨[], t, rfl, hinv, h.sent.trans hsent.symm, ?_⟩
      rw [State.written, hwr]
      exact h.written
  | txDone i len contig accept =>
    simp only [step] at hs
    split at hs
    · cases hs
    · rename_i p hp
      split_ifs at hs
      cases hs
      obtain ⟨-, hsent, hwr⟩ := uartCbTx_frame len contig accept
        { s with transfers := s.transfers.eraseIdx i, sent := s.sent ++ p.take len }
      exact h.send hinv hsent hwr

/-- **Refinement.** Whatever the writers, the callback and the driver do, the bytes sent and the
bytes in the ring and with the writer are those of an output that takes whole writes and sends them
in order. -/
theorem output_refines {s : State} (h : machine.Reach s) :
    output.Reach ⟨s.sent, s.txRing.items ++ s.pending⟩ := by
  have hsim : Machine.Simulation machine (fun _ _ => True) output Shows := by
    refine ⟨?_, fun s a s' t h _ hs => shows_step h hs⟩
    rintro s rfl
    exact ⟨⟨[], []⟩, rfl, inv_init, rfl, rfl⟩
  obtain ⟨t, ht, hst⟩ := hsim.reach h
  rwa [← hst.sent, ← hst.due]

/-! ## The output law -/

/-- **The AT output.** In every run, the bytes sent, the bytes in the ring and the bytes the
writer has still to copy are the locked writes in lock order, and at most one transfer runs. While
`uart_tx` accepts, a ring with bytes and no writer at it is being sent. -/
theorem tx_stream :
    (∀ s, machine.Reach s →
      s.sent ++ s.txRing.items ++ s.pending = s.written ∧ s.transfers.length ≤ 1) ∧
    ∀ s, machine.ReachIf Accepts s → s.txRing.items ≠ [] → s.txLock = none →
      s.transfers ≠ [] := by
  refine ⟨?_, ?_⟩
  · intro s h
    have hinv := inv_reach h
    have htok := hinv.token
    exact ⟨hinv.stream, by omega⟩
  · intro s h hne hl htr
    have htok := (inv_reach h.reach).token
    have hset := settled_reach h
    rw [hl, htr] at htok
    rw [Settled, hl] at hset
    refine hne (hset ?_)
    cases hi : s.txIdle with
    | true => rfl
    | false => rw [hi] at htok; cases htok

/-- One locked `OK`, its transfer started, and half of it reported. -/
def okRun : List Action :=
  [.lock 0 (.atPrint [0x4F, 0x4B])] ++ List.replicate 11 (.run 1024 true) ++
    [.txDone 0 3 1024 true]

theorem okRun_exec : (machine.execIf Accepts init okRun).map
    (fun s => (s.txLock, s.sent, s.txRing.items)) =
      some (none, [0x0D, 0x0A, 0x4F], [0x4B, 0x0D, 0x0A]) := by decide

theorem tx_stream_ok : ∃ s : State, s.sent = [0x0D, 0x0A, 0x4F] ∧
    (s.sent ++ s.txRing.items ++ s.pending = s.written ∧ s.transfers.length ≤ 1) ∧
    s.transfers ≠ [] := by
  obtain ⟨s, he, hs⟩ := Option.map_eq_some_iff.mp okRun_exec
  simp only [Prod.mk.injEq] at hs
  obtain ⟨hl, hsent, hitems⟩ := hs
  have hr : machine.ReachIf Accepts s := .execIf (.init rfl) he
  exact ⟨s, hsent, tx_stream.1 s hr.reach, tx_stream.2 s hr (by rw [hitems]; decide) hl⟩

end ZbAt.Uart
