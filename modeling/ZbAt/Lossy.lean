import Mathlib.Data.List.Forall2
import Mathlib.Logic.Relation

/-!
# Stages that lose

A message goes through one stage after the other, and each may lose it. What comes out of a stage
then comes of what went in, in the same order, and none of it twice: `List.SublistForall₂ R`, from
what came out to what went in, with `R` for what a stage makes of a message.

* `comp` — one stage behind the other.
* `of_each` — a stage that makes at most one message of each.
* `filterMap` — a stage that always passes on.
* `of_prefix`, `of_sublist` — a part of what came out, and of what went in.
* `filterMap_sublist` — a stage that loses more than another.
-/

namespace ZbAt.Lossy

open List

variable {α β γ : Type*} {R : α → β → Prop} {S : β → γ → Prop}

/-- One stage behind the other. -/
theorem comp {as : List α} {bs : List β} {cs : List γ} (h : SublistForall₂ R as bs)
    (h' : SublistForall₂ S bs cs) : SublistForall₂ (Relation.Comp R S) as cs := by
  induction h' generalizing as with
  | nil =>
    cases h
    exact .nil
  | cons hbc _ ih =>
    cases h with
    | nil => exact .nil
    | cons hab h => exact .cons ⟨_, hab, hbc⟩ (ih h)
    | cons_right h => exact .cons_right (ih h)
  | cons_right _ ih => exact .cons_right (ih h)

theorem imp {P : α → β → Prop} {as : List α} {bs : List β} (h : SublistForall₂ R as bs)
    (hp : ∀ a b, R a b → P a b) : SublistForall₂ P as bs := by
  induction h with
  | nil => exact .nil
  | cons hab _ ih => exact .cons (hp _ _ hab) ih
  | cons_right _ ih => exact .cons_right ih

theorem and_left {p : α → Prop} {as : List α} {bs : List β} (hp : ∀ a ∈ as, p a)
    (h : SublistForall₂ R as bs) : SublistForall₂ (fun a b => p a ∧ R a b) as bs := by
  obtain ⟨bs', hall, hsub⟩ := sublistForall₂_iff.mp h
  exact sublistForall₂_iff.mpr ⟨bs', (forall₂_and_left _ _).mpr ⟨hp, hall⟩, hsub⟩

/-- A stage that makes nothing or one message of each. -/
theorem of_each {Q : γ → β → Prop} {g : β → List α} {P : α → γ → Prop} {bs : List β} {cs : List γ}
    (h : Forall₂ Q cs bs) (hg : ∀ c b, Q c b → g b = [] ∨ ∃ a, g b = [a] ∧ P a c) :
    SublistForall₂ P (bs.flatMap g) cs := by
  induction h with
  | nil => exact .nil
  | cons hq _ ih =>
    rw [flatMap_cons]
    rcases hg _ _ hq with hnone | ⟨a, ha, hp⟩
    · rw [hnone]
      exact .cons_right ih
    · rw [ha]
      exact .cons hp ih

/-- A stage that makes a message of each that came in. -/
theorem filterMap {δ : Type*} {g : α → Option δ} {P : δ → β → Prop} {as : List α} {bs : List β}
    (h : SublistForall₂ R as bs) (hg : ∀ a b, R a b → ∃ d, g a = some d ∧ P d b) :
    SublistForall₂ P (as.filterMap g) bs ∧ (as.filterMap g).length = as.length := by
  induction h with
  | nil => exact ⟨.nil, rfl⟩
  | cons hab _ ih =>
    obtain ⟨d, hd, hp⟩ := hg _ _ hab
    rw [filterMap_cons_some hd]
    exact ⟨.cons hp ih.1, congrArg (· + 1) ih.2⟩
  | cons_right _ ih => exact ⟨.cons_right ih.1, ih.2⟩

/-- The first messages of a stage are messages of it. -/
theorem of_prefix {as as' : List α} {bs : List β} (h : SublistForall₂ R as bs) (hpre : as' <+: as) :
    SublistForall₂ R as' bs := by
  have hself : SublistForall₂ (· = ·) as' as := hpre.sublist.sublistForall₂
  rw [← @Relation.eq_comp _ _ R]
  exact comp hself h

/-- More may have gone in. -/
theorem of_sublist {as : List α} {bs bs' : List β} (h : SublistForall₂ R as bs) (hsub : bs <+ bs') :
    SublistForall₂ R as bs' := by
  have hself : SublistForall₂ (· = ·) bs bs' := hsub.sublistForall₂
  rw [← @Relation.comp_eq _ _ R]
  exact comp h hself

/-- What came out was made of something that went in. -/
theorem exists_of_mem {as : List α} {bs : List β} (h : SublistForall₂ R as bs) :
    ∀ a ∈ as, ∃ b ∈ bs, R a b := by
  induction h with
  | nil => exact nofun
  | cons hab _ ih =>
    intro a ha
    rcases mem_cons.mp ha with rfl | ha
    · exact ⟨_, mem_cons_self, hab⟩
    · obtain ⟨b, hb, hr⟩ := ih a ha
      exact ⟨b, mem_cons_of_mem _ hb, hr⟩
  | cons_right _ ih =>
    intro a ha
    obtain ⟨b, hb, hr⟩ := ih a ha
    exact ⟨b, mem_cons_of_mem _ hb, hr⟩

/-- A stage that makes less of some messages than another makes of them. -/
theorem filterMap_sublist {f g : α → Option β} {as : List α}
    (h : ∀ a ∈ as, f a = none ∨ f a = g a) : as.filterMap f <+ as.filterMap g := by
  induction as with
  | nil => exact .slnil
  | cons a as ih =>
    have hrest := ih fun b hb => h b (mem_cons_of_mem _ hb)
    rw [filterMap_cons, filterMap_cons]
    rcases h a mem_cons_self with hnone | hsame
    · rw [hnone]
      cases g a with
      | none => exact hrest
      | some b => exact hrest.cons b
    · rw [hsame]
      cases g a with
      | none => exact hrest
      | some b => exact hrest.cons_cons b

/-- A stage that only loses. -/
theorem eq_iff {as bs : List α} : SublistForall₂ (· = ·) as bs ↔ as <+ bs := by
  simp [sublistForall₂_iff]

end ZbAt.Lossy
