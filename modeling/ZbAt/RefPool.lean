import Mathlib.Data.Int.Notation
import Mathlib.Data.List.Count
import Mathlib.Data.List.Nodup
import Mathlib.Data.List.Perm.Basic
import Mathlib.Logic.Function.Basic
import Mathlib.Tactic.Common

/-!
# Pools of reference-counted blocks

A pool hands out blocks from a free list and keeps a reference count for each. The counts are
right (`RefPool.Ok blocks busy refsTo`) when `refs b` is the number of times `b` occurs in the
list `refsTo` of the references that exist, and every block is in exactly one of three places:
free, `busy` (between its reference count and the free list), or referenced.

The rules say how the lists follow the four operations on a block. They are stated for the lists
as they stand; `Ok.perm` rearranges them.

* `Ok.pop`, `Ok.set` — a block leaves the free list, and gets its first reference.
* `Ok.ref` — one more reference to a referenced block.
* `Ok.unref` — a reference goes; the last one leaves the block `busy`.
* `Ok.push` — a busy block is free again.
-/

namespace ZbAt

structure RefPool (β : Type*) where
  free : List β
  refs : β → ℤ

namespace RefPool

variable {β : Type*} [DecidableEq β]

/-- Set the reference count of `b`. -/
def setRefs (P : RefPool β) (b : β) (n : ℤ) : RefPool β :=
  { P with refs := Function.update P.refs b n }

/-- The counts of the pool are those of the references `refsTo`, and each of `blocks` is free,
busy or referenced. -/
structure Ok (P : RefPool β) (blocks busy refsTo : List β) : Prop where
  refs_eq : ∀ b, P.refs b = refsTo.count b
  place : ∀ b, P.free.count b + busy.count b + min 1 (refsTo.count b) = blocks.count b

variable {P : RefPool β} {blocks busy refsTo : List β} {b : β}

theorem Ok.perm {busy' refsTo' : List β} (h : P.Ok blocks busy refsTo) (hb : busy.Perm busy')
    (hr : refsTo.Perm refsTo') : P.Ok blocks busy' refsTo' :=
  ⟨fun b => by rw [← hr.count_eq]; exact h.refs_eq b,
    fun b => by rw [← hr.count_eq, ← hb.count_eq]; exact h.place b⟩

theorem Ok.pop (h : P.Ok blocks busy refsTo) {rest : List β} (hf : P.free = b :: rest) :
    Ok { P with free := rest } blocks (b :: busy) refsTo :=
  ⟨h.refs_eq, fun c => by
    have hp := h.place c
    rw [hf, List.count_cons] at hp
    simp only [List.count_cons]
    omega⟩

theorem Ok.push (h : P.Ok blocks (b :: busy) refsTo) :
    Ok { P with free := b :: P.free } blocks busy refsTo :=
  ⟨h.refs_eq, fun c => by
    have hp := h.place c
    rw [List.count_cons] at hp
    simp only [List.count_cons]
    omega⟩

section

variable (hnd : blocks.Nodup)
include hnd

/-- A busy block has no references. -/
theorem Ok.busy_count (h : P.Ok blocks busy refsTo) (hb : b ∈ busy) : refsTo.count b = 0 := by
  have hp := h.place b
  have h1 := List.nodup_iff_count_le_one.mp hnd b
  have h2 := List.count_pos_iff.mpr hb
  omega

theorem Ok.set (h : P.Ok blocks (b :: busy) refsTo) :
    (P.setRefs b 1).Ok blocks busy (b :: refsTo) := by
  have h0 := h.busy_count hnd List.mem_cons_self
  refine ⟨?_, ?_⟩
  · intro c
    have hr := h.refs_eq c
    by_cases hc : c = b
    · subst hc; simp [setRefs, h0]
    · simpa [setRefs, hc, List.count_cons, Ne.symm hc] using hr
  · intro c
    have hp := h.place c
    by_cases hc : c = b
    · subst hc
      simp only [setRefs, List.count_cons_self] at hp ⊢
      omega
    · simpa [setRefs, List.count_cons, Ne.symm hc] using hp

theorem Ok.free_nodup (h : P.Ok blocks busy refsTo) : (P.free ++ busy).Nodup := by
  apply List.nodup_iff_count_le_one.mpr
  intro c
  have hp := h.place c
  have h1 := List.nodup_iff_count_le_one.mp hnd c
  rw [List.count_append]
  omega

/-- A block is free or busy exactly when nothing refers to it. -/
theorem Ok.mem_free_or_busy (h : P.Ok blocks busy refsTo) (hb : b ∈ blocks) :
    (b ∈ P.free ∨ b ∈ busy) ↔ refsTo.count b = 0 := by
  have hp := h.place b
  have h1 := List.nodup_iff_count_le_one.mp hnd b
  have h2 := List.count_pos_iff.mpr hb
  rw [← List.count_pos_iff, ← List.count_pos_iff]
  omega

end

theorem Ok.ref (h : P.Ok blocks busy refsTo) (hb : b ∈ refsTo) :
    (P.setRefs b (P.refs b + 1)).Ok blocks busy (b :: refsTo) := by
  have hpos := List.count_pos_iff.mpr hb
  refine ⟨?_, ?_⟩
  · intro c
    have hr := h.refs_eq c
    by_cases hc : c = b
    · subst hc; simp [setRefs, hr]
    · simpa [setRefs, hc, List.count_cons, Ne.symm hc] using hr
  · intro c
    have hp := h.place c
    by_cases hc : c = b
    · subst hc
      simp only [setRefs, List.count_cons_self] at hp ⊢
      omega
    · simpa [setRefs, List.count_cons, Ne.symm hc] using hp

/-- Dropping a reference: if it was the last, the block waits to be freed. -/
theorem Ok.unref (h : P.Ok blocks busy (b :: refsTo)) :
    (P.setRefs b (P.refs b - 1)).Ok blocks (if P.refs b = 1 then b :: busy else busy) refsTo := by
  have hrb := h.refs_eq b
  rw [List.count_cons_self] at hrb
  refine ⟨?_, ?_⟩
  · intro c
    have hr := h.refs_eq c
    by_cases hc : c = b
    · subst hc; simp [setRefs, hrb]
    · simpa [setRefs, hc, List.count_cons, Ne.symm hc] using hr
  · intro c
    have hp := h.place c
    by_cases hc : c = b
    · subst hc
      rw [List.count_cons_self] at hp
      split_ifs with h1
      · have h0 : refsTo.count c = 0 := by omega
        simp only [setRefs, List.count_cons_self]
        omega
      · have h0 : refsTo.count c ≠ 0 := by omega
        simp only [setRefs]
        omega
    · have hne : (b :: refsTo).count c = refsTo.count c := List.count_cons_of_ne (Ne.symm hc)
      have hb : (if P.refs b = 1 then b :: busy else busy).count c = busy.count c := by
        split_ifs
        · exact List.count_cons_of_ne (Ne.symm hc)
        · rfl
      rw [hb, ← hne]
      exact hp

end RefPool

end ZbAt
