import Mathlib.Data.List.Basic

/-!
# Backtracking patterns

Regular expressions the way backtracking engines run them: a pattern tried at the start of a text
has a list of matches, in the order in which the engine tries them, and the first one counts.

* `Pattern`, `Pattern.run` — patterns with groups, and their matches in order.
* `First` — the first match: what the groups captured, and the rest of the text. There is one
  lemma for each constructor; a sequence chains them.
* `Pattern.heads` — literals one of which every match starts with; `fails_of_heads` rules a
  pattern out by the start of the text.
* `Pattern.needs` — characters of every match; `fails_of_needs` rules a pattern out by a character
  that the text lacks.
-/

namespace ZbAt

/-- Patterns over characters `α`. -/
inductive Pattern (α : Type)
  /-- the text itself -/
  | lit (t : List α)
  /-- `[p]{n}` -/
  | rep (n : ℕ) (p : α → Bool)
  /-- `[p]*`, as many as possible first -/
  | many (p : α → Bool)
  /-- `ab` -/
  | seq (a b : Pattern α)
  /-- `a|b` -/
  | alt (a b : Pattern α)
  /-- `a?`, one if possible first -/
  | opt (a : Pattern α)
  /-- `a*`, as many as possible first; `a` has no groups -/
  | star (a : Pattern α)
  /-- `(a)` -/
  | group (a : Pattern α)
  /-- `$`: the end of the text, or a newline `nl` that ends it -/
  | eos (nl : α)

namespace Pattern

variable {α : Type}

/-- What the groups captured, in order; `none` for a group that took no part. -/
abbrev Caps (α : Type) := List (Option (List α))

/-- A match: the captures and the rest of the text. -/
abbrev Match (α : Type) := Caps α × List α

/-- The number of groups. -/
def groups : Pattern α → ℕ
  | seq a b | alt a b => a.groups + b.groups
  | opt a => a.groups
  | group a => a.groups + 1
  | lit _ | rep _ _ | many _ | star _ | eos _ => 0

/-- The rests of the text after as many characters of the class as possible, then one less, and
so on. -/
def manyRun (p : α → Bool) : List α → List (List α)
  | [] => [[]]
  | c :: s => if p c then manyRun p s ++ [c :: s] else [c :: s]

/-- The rests after repetitions of what `f` matches, at most `n` of them and none of them empty. -/
def starRun (f : List α → List (Match α)) : ℕ → List α → List (List α)
  | 0, s => [s]
  | n + 1, s =>
    ((f s).flatMap fun m => if m.2.length < s.length then starRun f n m.2 else []) ++ [s]

variable [DecidableEq α]

/-- The matches at the start of a text, in the order in which they are tried. -/
def run : Pattern α → List α → List (Match α)
  | lit t, s => if t.isPrefixOf s then [([], s.drop t.length)] else []
  | rep n p, s => if n ≤ s.length && (s.take n).all p then [([], s.drop n)] else []
  | many p, s => (manyRun p s).map fun rest => ([], rest)
  | seq a b, s => (run a s).flatMap fun m => (run b m.2).map fun m' => (m.1 ++ m'.1, m'.2)
  | alt a b, s =>
    (run a s).map (fun m => (m.1 ++ List.replicate b.groups none, m.2)) ++
      (run b s).map fun m => (List.replicate a.groups none ++ m.1, m.2)
  | opt a, s => run a s ++ [(List.replicate a.groups none, s)]
  | star a, s => (starRun (run a) s.length s).map fun rest => ([], rest)
  | group a, s => (run a s).map fun m => (some (s.take (s.length - m.2.length)) :: m.1, m.2)
  | eos nl, s => if s = [] ∨ s = [nl] then [([], s)] else []

/-- The first match. -/
def first (r : Pattern α) (s : List α) : Option (Match α) := (run r s).head?

end Pattern

open Pattern

attribute [local simp] run

variable {α : Type} [DecidableEq α] {r a b : Pattern α} {s rest t u : List α} {c c' : Caps α}

/-- The first match of `r` in `s` captures `c` and leaves `rest`. -/
def First (r : Pattern α) (s : List α) (c : Caps α) (rest : List α) : Prop :=
  r.first s = some (c, rest)

/-- `r` does not match at the start of `s`. -/
def Fails (r : Pattern α) (s : List α) : Prop := r.run s = []

theorem First.run_eq (h : First r s c rest) : ∃ ms, r.run s = (c, rest) :: ms :=
  List.head?_eq_some_iff.mp h

theorem First.of_cons {l : List (Match α)} (h : r.run s = (c, rest) :: l) : First r s c rest := by
  rw [First, first, h]
  rfl

theorem Fails.first (h : Fails r s) : r.first s = none := by
  rw [Pattern.first, h]
  rfl

/-! ## Texts and classes -/

theorem first_lit (t s : List α) : First (lit t) (t ++ s) [] s := by
  apply First.of_cons (l := [])
  simp

theorem fails_lit (h : ¬t <+: s) : Fails (lit t) s := by
  rw [Fails, run, if_neg (by simpa using h)]

/-- A literal fails on a text without its first character. -/
theorem fails_lit_cons {x : α} (ht : t ≠ []) (hx : x ∉ t) (l s : List α) :
    Fails (lit (x :: l)) (t ++ s) := by
  apply fails_lit
  intro hp
  obtain ⟨y, ys, rfl⟩ := List.exists_cons_of_ne_nil ht
  obtain ⟨tl, htl⟩ := hp
  have hxy : x = y := (List.cons.inj htl).1
  exact hx (hxy ▸ List.mem_cons_self)

theorem first_rep {n : ℕ} {p : α → Bool} (hn : t.length = n) (hp : ∀ x ∈ t, p x = true)
    (s : List α) : First (rep n p) (t ++ s) [] s := by
  subst hn
  have hall : t.all p = true := List.all_eq_true.mpr hp
  apply First.of_cons (l := [])
  simp [hall]

/-- A class fails on a text with another character before its end. -/
theorem fails_rep {n : ℕ} {p : α → Bool} (hn : t.length < n) {x : α} (hx : p x = false)
    (s : List α) : Fails (rep n p) (t ++ x :: s) := by
  rw [Fails, run, if_neg]
  intro h
  have hall := List.all_eq_true.mp (Bool.and_eq_true_iff.mp h).2 x
  have hmem : x ∈ (t ++ x :: s).take n := by
    obtain ⟨k, rfl⟩ : ∃ k, n = t.length + (k + 1) := ⟨n - t.length - 1, by omega⟩
    rw [List.take_length_add_append, List.take_succ_cons]
    simp
  rw [hall hmem] at hx
  cases hx

section

omit [DecidableEq α]

theorem manyRun_cons {p : α → Bool} (ht : ∀ x ∈ t, p x = true)
    (hs : ∀ x ∈ s.head?, p x = false) : ∃ ms, manyRun p (t ++ s) = s :: ms := by
  induction t with
  | nil =>
    cases s with
    | nil => exact ⟨[], rfl⟩
    | cons x s =>
      have hx : p x = false := hs x rfl
      exact ⟨[], by simp [manyRun, hx]⟩
  | cons x t ih =>
    obtain ⟨ms, hms⟩ := ih fun y hy => ht y (List.mem_cons_of_mem _ hy)
    have hx : p x = true := ht x List.mem_cons_self
    exact ⟨ms ++ [x :: (t ++ s)], by simp [manyRun, hx, hms]⟩

end

/-- `[p]*` takes all characters of the class first. -/
theorem first_many {p : α → Bool} (ht : ∀ x ∈ t, p x = true) (hs : ∀ x ∈ s.head?, p x = false) :
    First (many p) (t ++ s) [] s := by
  obtain ⟨ms, hms⟩ := manyRun_cons ht hs
  apply First.of_cons (l := ms.map fun rest => ([], rest))
  rw [run, hms, List.map_cons]

/-! ## Combinations -/

theorem First.seq (ha : First a s c t) (hb : First b t c' rest) :
    First (.seq a b) s (c ++ c') rest := by
  obtain ⟨ms, hms⟩ := ha.run_eq
  obtain ⟨ms', hms'⟩ := hb.run_eq
  have hrun : run (.seq a b) s = (c ++ c', rest) :: ((ms'.map fun m' => (c ++ m'.1, m'.2)) ++
      ms.flatMap fun m => (run b m.2).map fun m' => (m.1 ++ m'.1, m'.2)) := by
    simp [hms, hms']
  exact .of_cons hrun

/-- `[p]+` -/
def Pattern.many1 (p : α → Bool) : Pattern α := seq (rep 1 p) (many p)

theorem first_many1 {p : α → Bool} (hne : t ≠ []) (ht : ∀ x ∈ t, p x = true)
    (hs : ∀ x ∈ s.head?, p x = false) : First (many1 p) (t ++ s) [] s := by
  cases t with
  | nil => exact absurd rfl hne
  | cons x t =>
    have hx : First (rep 1 p) ([x] ++ (t ++ s)) [] (t ++ s) :=
      first_rep (t := [x]) rfl (by simpa using ht x List.mem_cons_self) _
    exact hx.seq (first_many (fun y hy => ht y (List.mem_cons_of_mem _ hy)) hs)

theorem Fails.seq (h : Fails a s) (b : Pattern α) : Fails (.seq a b) s := by
  rw [Fails, run, h]
  rfl

theorem First.opt (h : First a s c rest) : First (.opt a) s c rest := by
  obtain ⟨ms, hms⟩ := h.run_eq
  have hrun : run (.opt a) s = (c, rest) :: (ms ++ [(List.replicate a.groups none, s)]) := by
    rw [run, hms, List.cons_append]
  exact .of_cons hrun

theorem Fails.opt (h : Fails a s) : First (.opt a) s (List.replicate a.groups none) s := by
  have hrun : run (.opt a) s = [(List.replicate a.groups none, s)] := by
    rw [run, h, List.nil_append]
  exact .of_cons hrun

theorem First.alt_left (h : First a s c rest) (b : Pattern α) :
    First (.alt a b) s (c ++ List.replicate b.groups none) rest := by
  obtain ⟨ms, hms⟩ := h.run_eq
  rw [First, first, run, hms]
  rfl

theorem First.alt_right (ha : Fails a s) (h : First b s c rest) :
    First (.alt a b) s (List.replicate a.groups none ++ c) rest := by
  obtain ⟨ms, hms⟩ := h.run_eq
  rw [First, first, run, ha, hms]
  rfl

/-- A group captures what its pattern matched. -/
theorem First.group (h : First a (t ++ s) c s) : First (.group a) (t ++ s) (some t :: c) s := by
  obtain ⟨ms, hms⟩ := h.run_eq
  have hrun : run (.group a) (t ++ s) = (some t :: c, s) ::
      ms.map fun m => (some ((t ++ s).take ((t ++ s).length - m.2.length)) :: m.1, m.2) := by
    rw [run, hms, List.map_cons]
    simp
  exact .of_cons hrun

theorem first_eos (nl : α) : First (eos nl) [] [] [] := rfl

/-! ## Repetition -/

section

omit [DecidableEq α]

theorem starRun_nil (f : List α → List (Match α)) (n : ℕ) : starRun f n [] = [[]] := by
  cases n with
  | zero => rfl
  | succ n => simp [starRun]

/-- More repetitions than characters are never tried. -/
theorem starRun_bound {f : List α → List (Match α)} {n m : ℕ} (hn : s.length ≤ n)
    (hm : s.length ≤ m) : starRun f n s = starRun f m s := by
  induction n generalizing m s with
  | zero => rw [List.eq_nil_of_length_eq_zero (Nat.le_zero.mp hn), starRun_nil, starRun_nil]
  | succ n ih =>
    cases m with
    | zero => rw [List.eq_nil_of_length_eq_zero (Nat.le_zero.mp hm), starRun_nil, starRun_nil]
    | succ m =>
      have hstep : ∀ x : Match α, (if x.2.length < s.length then starRun f n x.2 else []) =
          if x.2.length < s.length then starRun f m x.2 else [] := by
        intro x
        by_cases hx : x.2.length < s.length
        · rw [if_pos hx, if_pos hx]
          exact ih (by omega) (by omega)
        · rw [if_neg hx, if_neg hx]
      rw [starRun, starRun, funext hstep]

end

/-- `a*` stops where `a` fails. -/
theorem Fails.star (h : Fails a s) : First (.star a) s [] s := by
  have hf : run a s = [] := h
  have hstar : starRun (run a) s.length s = [s] := by
    cases s with
    | nil => rfl
    | cons x s => simp [starRun, hf]
  rw [First, Pattern.first, run, hstar]
  rfl

/-- `a*` goes on where `a` matches. -/
theorem First.star (ha : First a (u ++ s) c s) (hu : u ≠ []) (h : First (.star a) s [] rest) :
    First (.star a) (u ++ s) [] rest := by
  obtain ⟨ms, hms⟩ := ha.run_eq
  obtain ⟨ms', hms'⟩ := h.run_eq
  have hlen := List.length_pos_iff.mpr hu
  obtain ⟨n, hn⟩ : ∃ n, (u ++ s).length = n + 1 :=
    ⟨u.length + s.length - 1, by rw [List.length_append]; omega⟩
  have hs : s.length < (u ++ s).length := by rw [List.length_append]; omega
  have hbound := starRun_bound (f := run a) (s := s) (n := s.length) (m := n) (Nat.le_refl _)
    (by omega)
  rw [run, hbound] at hms'
  rw [First, first, run, hn, starRun, hms, List.flatMap_cons, if_pos hs, List.map_append,
    List.map_append, hms']
  rfl

/-! ## The end of a match -/

section

omit [DecidableEq α]

theorem manyRun_suffix {p : α → Bool} (h : rest ∈ manyRun p s) : rest <:+ s := by
  induction s with
  | nil => exact List.mem_singleton.mp h ▸ List.suffix_rfl
  | cons x s ih =>
    unfold manyRun at h
    split_ifs at h
    · rcases List.mem_append.mp h with h | h
      · exact (ih h).trans (List.suffix_cons x s)
      · exact List.mem_singleton.mp h ▸ List.suffix_rfl
    · exact List.mem_singleton.mp h ▸ List.suffix_rfl

theorem starRun_suffix {f : List α → List (Match α)} (hf : ∀ s, ∀ m ∈ f s, m.2 <:+ s) {n : ℕ}
    (h : rest ∈ starRun f n s) : rest <:+ s := by
  induction n generalizing s with
  | zero => exact List.mem_singleton.mp h ▸ List.suffix_rfl
  | succ n ih =>
    rcases List.mem_append.mp h with h | h
    · obtain ⟨m, hm, hrest⟩ := List.mem_flatMap.mp h
      split_ifs at hrest
      · exact (ih hrest).trans (hf s m hm)
      · cases hrest
    · exact List.mem_singleton.mp h ▸ List.suffix_rfl

end

/-- What a match leaves is the end of the text. -/
theorem run_suffix {m : Match α} (h : m ∈ r.run s) : m.2 <:+ s := by
  induction r generalizing s m with
  | lit t =>
    simp only [run, List.mem_ite_nil_right, List.mem_singleton] at h
    exact h.2 ▸ List.drop_suffix _ s
  | rep n p =>
    simp only [run, List.mem_ite_nil_right, List.mem_singleton] at h
    exact h.2 ▸ List.drop_suffix _ s
  | many p =>
    obtain ⟨rest, hrest, rfl⟩ := List.mem_map.mp h
    exact manyRun_suffix hrest
  | seq a b iha ihb =>
    obtain ⟨m₁, h₁, h⟩ := List.mem_flatMap.mp h
    obtain ⟨m₂, h₂, rfl⟩ := List.mem_map.mp h
    exact (ihb h₂).trans (iha h₁)
  | alt a b iha ihb =>
    rcases List.mem_append.mp h with h | h
    · obtain ⟨m₁, h₁, rfl⟩ := List.mem_map.mp h
      exact iha (m := m₁) h₁
    · obtain ⟨m₂, h₂, rfl⟩ := List.mem_map.mp h
      exact ihb (m := m₂) h₂
  | opt a iha =>
    rcases List.mem_append.mp h with h | h
    · exact iha h
    · exact List.mem_singleton.mp h ▸ List.suffix_rfl
  | star a iha =>
    obtain ⟨rest, hrest, rfl⟩ := List.mem_map.mp h
    exact starRun_suffix (fun _ _ => iha) hrest
  | group a iha =>
    obtain ⟨m₁, h₁, rfl⟩ := List.mem_map.mp h
    exact iha (m := m₁) h₁
  | eos nl =>
    simp only [run, List.mem_ite_nil_right, List.mem_singleton] at h
    exact h.2 ▸ List.suffix_rfl

theorem first_suffix {m : Match α} (h : r.first s = some m) : m.2 <:+ s :=
  run_suffix (List.mem_of_mem_head? h)

/-! ## The start of a match -/

/-- Literals one of which every match starts with. -/
def Pattern.heads : Pattern α → List (List α)
  | lit t => [t]
  | seq a _ => a.heads
  | group a => a.heads
  | alt a b => a.heads ++ b.heads
  | rep _ _ | many _ | opt _ | star _ | eos _ => [[]]

theorem exists_head (h : ¬Fails r s) : ∃ t ∈ r.heads, t <+: s := by
  induction r with
  | lit t =>
    refine ⟨t, List.mem_singleton.mpr rfl, ?_⟩
    by_contra hno
    exact h (fails_lit hno)
  | seq a b iha _ => exact iha fun hf => h (hf.seq b)
  | group a iha =>
    apply iha
    intro hf
    exact h (by rw [Fails, run, hf]; rfl)
  | alt a b iha ihb =>
    by_cases ha : Fails a s
    · have hb : ¬Fails b s := fun hb => h (by rw [Fails, run, ha, hb]; rfl)
      obtain ⟨t, ht, hp⟩ := ihb hb
      exact ⟨t, List.mem_append_right _ ht, hp⟩
    · obtain ⟨t, ht, hp⟩ := iha ha
      exact ⟨t, List.mem_append_left _ ht, hp⟩
  | rep | many | opt | star | eos => exact ⟨[], List.mem_singleton.mpr rfl, List.nil_prefix⟩

theorem fails_of_no_head (h : ∀ t ∈ r.heads, ¬t <+: s) : Fails r s := by
  by_contra hno
  obtain ⟨t, ht, hp⟩ := exists_head hno
  exact h t ht hp

/-- Neither text is the start of the other. -/
def Apart (t u : List α) : Prop := ¬t <+: u ∧ ¬u <+: t

instance (t u : List α) : Decidable (Apart t u) := inferInstanceAs (Decidable (_ ∧ _))

/-- A pattern fails on a text that starts with something apart from all its heads. -/
theorem fails_of_heads (h : ∀ t ∈ r.heads, Apart t u) (s : List α) : Fails r (u ++ s) := by
  by_contra hno
  obtain ⟨t, ht, hp⟩ := exists_head hno
  rcases List.prefix_or_prefix_of_prefix hp (List.prefix_append u s) with hpre | hpre
  · exact (h t ht).1 hpre
  · exact (h t ht).2 hpre

/-! ## The characters of a match -/

/-- Characters that stand in every text that matches. -/
def Pattern.needs : Pattern α → List α
  | lit t => t
  | seq a b => a.needs ++ b.needs
  | group a => a.needs
  | alt a b => a.needs.filter (· ∈ b.needs)
  | rep _ _ | many _ | opt _ | star _ | eos _ => []

theorem needs_subset {m : Match α} (h : m ∈ r.run s) : r.needs ⊆ s := by
  induction r generalizing s m with
  | lit t =>
    simp only [run, List.mem_ite_nil_right, List.isPrefixOf_iff_prefix] at h
    exact h.1.subset
  | seq a b iha ihb =>
    obtain ⟨m₁, h₁, h⟩ := List.mem_flatMap.mp h
    obtain ⟨m₂, h₂, -⟩ := List.mem_map.mp h
    have htail : b.needs ⊆ s := List.Subset.trans (ihb h₂) (run_suffix h₁).subset
    exact List.append_subset.mpr ⟨iha h₁, htail⟩
  | group a iha =>
    obtain ⟨m₁, h₁, -⟩ := List.mem_map.mp h
    exact iha (m := m₁) h₁
  | alt a b iha ihb =>
    intro c hc
    obtain ⟨ha, hb⟩ := List.mem_filter.mp hc
    rcases List.mem_append.mp h with h | h
    · obtain ⟨m₁, h₁, -⟩ := List.mem_map.mp h
      exact iha h₁ ha
    · obtain ⟨m₁, h₁, -⟩ := List.mem_map.mp h
      exact ihb h₁ (of_decide_eq_true hb)
  | rep | many | opt | star | eos => exact List.nil_subset s

/-- A pattern fails on a text that lacks a character of every match. -/
theorem fails_of_needs {x : α} (hx : x ∈ r.needs) (hs : x ∉ s) : Fails r s := by
  apply List.eq_nil_iff_forall_not_mem.mpr
  intro m hm
  exact hs (needs_subset hm hx)

end ZbAt
