import Mathlib.Data.List.Basic
import Mathlib.Tactic.Common

/-!
# A bounded FIFO with claim and finish

A ring buffer as its users see it: at most `cap` elements, written with `put`, read in two steps.
`getClaim` hands out elements from the front, at most one contiguous piece of the memory at a
time; `getFinish n` removes the first `n` of them and takes the rest of the claim back. Claimed
elements keep their room until they are finished.

* `put_items` — what was stored, followed by what was not, is what was there followed by the input.
* `getClaim_take` — the claim is the front of the queue.
* `take_getFinish` — the finished elements, followed by the queue left, are the queue before.
-/

namespace ZbAt

/-- A queue of at most `cap` elements, the first `claimed` of which are handed out. -/
structure Ring (α : Type*) (cap : ℕ) where
  items : List α
  claimed : ℕ
  length_le : items.length ≤ cap
  claimed_le : claimed ≤ items.length
  deriving DecidableEq

namespace Ring

variable {α : Type*} {cap : ℕ} (r : Ring α cap)

def empty : Ring α cap := ⟨[], 0, Nat.zero_le _, Nat.le_refl _⟩

/-- How many elements are neither finished nor claimed. -/
def avail : ℕ := r.items.length - r.claimed

/-- Nothing is left to claim. -/
def isEmpty : Bool := r.avail == 0

/-- How many elements of `xs` fit. -/
def fits (xs : List α) : ℕ := min xs.length (cap - r.items.length)

/-- Store the elements of `xs` that fit. -/
def put (xs : List α) : Ring α cap where
  items := r.items ++ xs.take (r.fits xs)
  claimed := r.claimed
  length_le := by
    have := r.length_le
    simp only [List.length_append, List.length_take, fits]
    omega
  claimed_le := by
    have := r.claimed_le
    simp only [List.length_append]
    omega

/-- How many elements a claim of at most `size` gets when `contig` lie in one piece. -/
def claimLength (size contig : ℕ) : ℕ := min (min size r.avail) contig

/-- The elements a claim hands out. -/
def claim (size contig : ℕ) : List α :=
  (r.items.drop r.claimed).take (r.claimLength size contig)

/-- The queue after a claim. -/
def getClaim (size contig : ℕ) : Ring α cap where
  items := r.items
  claimed := r.claimed + r.claimLength size contig
  length_le := r.length_le
  claimed_le := by
    have := r.claimed_le
    simp only [claimLength, avail]
    omega

/-- Remove the first `n` of the claimed elements and end the claim; more than were claimed is an
error that changes nothing. -/
def getFinish (n : ℕ) : Ring α cap :=
  if h : n ≤ r.claimed then
    { items := r.items.drop n
      claimed := 0
      length_le := by
        have := r.length_le
        simp only [List.length_drop]
        omega
      claimed_le := Nat.zero_le _ }
  else r

/-! ## The queue law of each operation -/

@[simp] theorem empty_items : (empty : Ring α cap).items = [] := rfl
@[simp] theorem empty_claimed : (empty : Ring α cap).claimed = 0 := rfl
@[simp] theorem put_claimed (xs : List α) : (r.put xs).claimed = r.claimed := rfl
@[simp] theorem getClaim_items (size contig : ℕ) : (r.getClaim size contig).items = r.items := rfl

theorem put_items (xs : List α) :
    (r.put xs).items ++ xs.drop (r.fits xs) = r.items ++ xs := by
  simp only [put, List.append_assoc, List.take_append_drop]

/-- Storing never disturbs the front of the queue. -/
theorem take_put {n : ℕ} (hn : n ≤ r.items.length) (xs : List α) :
    (r.put xs).items.take n = r.items.take n := by
  simp only [put, List.take_append_of_le_length hn]

theorem claim_length (size contig : ℕ) :
    (r.claim size contig).length = r.claimLength size contig := by
  simp only [claim, List.length_take, List.length_drop, claimLength, avail]
  omega

/-- With no claim open, a claim is the front of the queue, and the queue remembers its length. -/
theorem getClaim_take (h : r.claimed = 0) (size contig : ℕ) :
    (r.getClaim size contig).claimed = (r.claim size contig).length ∧
      r.claim size contig = r.items.take (r.claim size contig).length := by
  rw [claim_length]
  constructor
  · simp [getClaim, h]
  · simp [claim, h]

/-- A claim for room that the queue has comes back empty only from an empty queue. -/
theorem claim_eq_nil (h : r.claimed = 0) {size contig : ℕ} (hs : cap ≤ size) (hc : 0 < contig)
    (hnil : r.claim size contig = []) : r.items = [] := by
  have hlen : r.claimLength size contig = 0 := by rw [← claim_length, hnil]; rfl
  have := r.length_le
  apply List.eq_nil_of_length_eq_zero
  simp only [claimLength, avail, h] at hlen
  omega

theorem take_getFinish {n : ℕ} (hn : n ≤ r.claimed) :
    r.items.take n ++ (r.getFinish n).items = r.items := by
  simp only [getFinish, dif_pos hn, List.take_append_drop]

theorem getFinish_claimed {n : ℕ} (hn : n ≤ r.claimed) : (r.getFinish n).claimed = 0 := by
  simp only [getFinish, dif_pos hn]

@[simp] theorem getFinish_zero_items : (r.getFinish 0).items = r.items := by
  simp [getFinish]

@[simp] theorem getFinish_zero_claimed : (r.getFinish 0).claimed = 0 :=
  r.getFinish_claimed (Nat.zero_le _)

theorem items_of_isEmpty (h : r.claimed = 0) (he : r.isEmpty = true) : r.items = [] := by
  simp only [isEmpty, avail, h, beq_iff_eq] at he
  exact List.eq_nil_of_length_eq_zero (by omega)

end Ring

end ZbAt
