import Mathlib.Data.List.Count
import Mathlib.Data.List.FinRange
import Mathlib.Data.List.Nodup
import Mathlib.Data.List.Perm.Basic
import Mathlib.Logic.Function.Basic
import Mathlib.Tactic.Common

/-!
# Tables of a fixed number of slots

A table is a function from `Fin n` to optional entries. `slotEntries` is what it holds, in the
order of the slots. Up to order, storing an entry in a free slot adds it, clearing a slot removes
its entry, and clearing all slots whose entry fails a test filters the entries.

* `slotEntries_set`, `slotEntries_clear`, `slotEntries_keep` — the three operations.
* `exists_free` — fewer entries than slots leave a free slot.
-/

namespace ZbAt

variable {n : ℕ} {α : Type*}

/-- The entries of the table, slot by slot. -/
def slotEntries (t : Fin n → Option α) : List α := (List.finRange n).filterMap t

/-- The entries of the other slots. -/
def slotEntriesBut (t : Fin n → Option α) (i : Fin n) : List α :=
  ((List.finRange n).erase i).filterMap t

theorem slotEntries_perm (t : Fin n → Option α) (i : Fin n) :
    (slotEntries t).Perm ((t i).toList ++ slotEntriesBut t i) := by
  have hp : (List.finRange n).Perm (i :: (List.finRange n).erase i) :=
    List.perm_cons_erase (List.mem_finRange i)
  apply (hp.filterMap t).trans
  cases hi : t i with
  | none => simp [slotEntriesBut, hi]
  | some a => simp [slotEntriesBut, hi]

theorem slotEntriesBut_update (t : Fin n → Option α) (i : Fin n) (o : Option α) :
    slotEntriesBut (Function.update t i o) i = slotEntriesBut t i := by
  apply List.filterMap_congr
  intro j hj
  have hne : j ≠ i := fun h => (List.nodup_finRange n).not_mem_erase (h ▸ hj)
  simp [hne]

/-- Storing an entry in a free slot adds it. -/
theorem slotEntries_set {t : Fin n → Option α} {i : Fin n} (h : t i = none) (a : α) :
    (slotEntries (Function.update t i (some a))).Perm (a :: slotEntries t) := by
  have h1 := slotEntries_perm (Function.update t i (some a)) i
  have h2 := slotEntries_perm t i
  rw [slotEntriesBut_update, Function.update_self] at h1
  rw [h] at h2
  exact h1.trans (h2.symm.cons a)

/-- Clearing a slot removes its entry. -/
theorem slotEntries_clear {t : Fin n → Option α} {i : Fin n} {a : α} (h : t i = some a) :
    (slotEntries t).Perm (a :: slotEntries (Function.update t i none)) := by
  have h1 := slotEntries_perm (Function.update t i none) i
  have h2 := slotEntries_perm t i
  rw [slotEntriesBut_update, Function.update_self] at h1
  rw [h] at h2
  exact h2.trans (h1.symm.cons a)

/-- Clearing all slots whose entry fails the test `p`. -/
theorem slotEntries_keep (t : Fin n → Option α) (p : α → Bool) :
    slotEntries (fun i => (t i).filter p) = (slotEntries t).filter p := by
  unfold slotEntries
  rw [List.filter_filterMap]

theorem mem_slotEntries {t : Fin n → Option α} {a : α} :
    a ∈ slotEntries t ↔ ∃ i, t i = some a := by
  simp [slotEntries]

/-- Fewer entries than slots leave a free slot. -/
theorem exists_free {t : Fin n → Option α} (h : (slotEntries t).length < n) :
    ∃ i, t i = none := by
  by_contra hno
  have hall : ∀ i, (t i).isSome := fun i => Option.ne_none_iff_isSome.mp fun hi => hno ⟨i, hi⟩
  have hlen : (slotEntries t).length = n := by
    rw [slotEntries, List.length_filterMap_eq_countP, List.countP_eq_length.mpr fun i _ => hall i,
      List.length_finRange]
  omega

end ZbAt
