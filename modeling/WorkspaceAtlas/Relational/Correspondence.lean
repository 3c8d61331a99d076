/-
# One-to-one correspondences

A relation is a one-to-one correspondence between two sets when every member of either is
related to exactly one member of the other.  A log that grows together with what it records
stays in correspondence with it: the new entries correspond among themselves, and no entry is
related to something across the two generations.
-/
import Mathlib.Data.Set.Basic
import Mathlib.Tactic.Common

namespace Relational

variable {α β ι : Type*} {R : α → β → Prop} {A A' : Set α} {B B' : Set β}

/-- The relation is a one-to-one correspondence between the two sets. -/
structure OneToOne (R : α → β → Prop) (A : Set α) (B : Set β) : Prop where
  right : ∀ a ∈ A, ∃! b, b ∈ B ∧ R a b
  left : ∀ b ∈ B, ∃! a, a ∈ A ∧ R a b

lemma OneToOne.empty : OneToOne R ∅ ∅ :=
  ⟨fun _ ha => absurd ha (Set.notMem_empty _), fun _ hb => absurd hb (Set.notMem_empty _)⟩

/-- Two correspondences without relations across them. -/
lemma OneToOne.union (h : OneToOne R A B) (h' : OneToOne R A' B')
    (hcross : ∀ a ∈ A, ∀ b ∈ B', ¬ R a b) (hcross' : ∀ a ∈ A', ∀ b ∈ B, ¬ R a b) :
    OneToOne R (A ∪ A') (B ∪ B') := by
  constructor
  · rintro a (ha | ha)
    · obtain ⟨b, ⟨hb, hab⟩, huniq⟩ := h.right a ha
      refine ⟨b, ⟨Or.inl hb, hab⟩, ?_⟩
      rintro b' ⟨hb' | hb', hab'⟩
      · exact huniq b' ⟨hb', hab'⟩
      · exact absurd hab' (hcross a ha b' hb')
    · obtain ⟨b, ⟨hb, hab⟩, huniq⟩ := h'.right a ha
      refine ⟨b, ⟨Or.inr hb, hab⟩, ?_⟩
      rintro b' ⟨hb' | hb', hab'⟩
      · exact absurd hab' (hcross' a ha b' hb')
      · exact huniq b' ⟨hb', hab'⟩
  · rintro b (hb | hb)
    · obtain ⟨a, ⟨ha, hab⟩, huniq⟩ := h.left b hb
      refine ⟨a, ⟨Or.inl ha, hab⟩, ?_⟩
      rintro a' ⟨ha' | ha', hab'⟩
      · exact huniq a' ⟨ha', hab'⟩
      · exact absurd hab' (hcross' a' ha' b hb)
    · obtain ⟨a, ⟨ha, hab⟩, huniq⟩ := h'.left b hb
      refine ⟨a, ⟨Or.inr ha, hab⟩, ?_⟩
      rintro a' ⟨ha' | ha', hab'⟩
      · exact absurd hab' (hcross a' ha' b hb)
      · exact huniq a' ⟨ha', hab'⟩

/-- What two functions make of one list corresponds, if the relation tells its items apart. -/
lemma OneToOne.of_list {l : List ι} {f : ι → α} {g : ι → β}
    (hiff : ∀ x ∈ l, ∀ y ∈ l, R (f x) (g y) ↔ x = y) :
    OneToOne R {a | ∃ x ∈ l, f x = a} {b | ∃ x ∈ l, g x = b} := by
  constructor
  · rintro _ ⟨x, hx, rfl⟩
    refine ⟨g x, ⟨⟨x, hx, rfl⟩, (hiff x hx x hx).mpr rfl⟩, ?_⟩
    rintro _ ⟨⟨y, hy, rfl⟩, hxy⟩
    rw [(hiff x hx y hy).mp hxy]
  · rintro _ ⟨x, hx, rfl⟩
    refine ⟨f x, ⟨⟨x, hx, rfl⟩, (hiff x hx x hx).mpr rfl⟩, ?_⟩
    rintro _ ⟨⟨y, hy, rfl⟩, hyx⟩
    rw [(hiff y hy x hx).mp hyx]

lemma OneToOne.congr (h : OneToOne R A B) (hA : ∀ a, a ∈ A' ↔ a ∈ A) (hB : ∀ b, b ∈ B' ↔ b ∈ B) :
    OneToOne R A' B' := by
  obtain rfl : A' = A := Set.ext hA
  obtain rfl : B' = B := Set.ext hB
  exact h

/-- The relation only has to be known on the two sets. -/
lemma OneToOne.congr_rel {R' : α → β → Prop} (h : OneToOne R A B)
    (hR : ∀ a ∈ A, ∀ b ∈ B, R' a b ↔ R a b) : OneToOne R' A B := by
  constructor
  · intro a ha
    obtain ⟨b, ⟨hb, hab⟩, huniq⟩ := h.right a ha
    exact ⟨b, ⟨hb, (hR a ha b hb).mpr hab⟩,
      fun b' hb' => huniq b' ⟨hb'.1, (hR a ha b' hb'.1).mp hb'.2⟩⟩
  · intro b hb
    obtain ⟨a, ⟨ha, hab⟩, huniq⟩ := h.left b hb
    exact ⟨a, ⟨ha, (hR a ha b hb).mpr hab⟩,
      fun a' ha' => huniq a' ⟨ha'.1, (hR a' ha'.1 b hb).mp ha'.2⟩⟩

end Relational
