/-
# Prefix codes

An encoding by lists is a prefix code if the code of a value shows where it ends, whatever
stands behind it.  Codes written one behind the other can then be read back in order, so that a
text put together from prefix codes is one itself.
-/
import Mathlib.Data.List.Basic
import Mathlib.Data.Set.Function
import Mathlib.Data.Set.Prod
import Mathlib.Tactic.Common

namespace Text

variable {α α' β : Type*}

/-- On the values of `p`, what stands behind a code and the value can be told from the text. -/
def PrefixCodeOn (p : Set α) (encode : α → List β) : Prop :=
  ∀ a ∈ p, ∀ b ∈ p, ∀ s t, encode a ++ s = encode b ++ t → a = b ∧ s = t

namespace PrefixCodeOn

variable {p : Set α} {q : Set α'} {encode : α → List β} {encode' : α' → List β}

lemma injOn (h : PrefixCodeOn p encode) : Set.InjOn encode p := by
  intro a ha b hb heq
  exact (h a ha b hb [] [] (by rw [heq])).1

/-- A code of what a value is mapped to. -/
lemma comp (h : PrefixCodeOn p encode) {f : α' → α} (hmaps : Set.MapsTo f q p)
    (hinj : Set.InjOn f q) : PrefixCodeOn q fun a => encode (f a) := by
  intro a ha b hb s t heq
  obtain ⟨hf, hrest⟩ := h (f a) (hmaps ha) (f b) (hmaps hb) s t heq
  exact ⟨hinj ha hb hf, hrest⟩

/-- Codes of one length. -/
lemma of_length {n : ℕ} (hlength : ∀ a ∈ p, (encode a).length = n)
    (hinj : Set.InjOn encode p) : PrefixCodeOn p encode := by
  intro a ha b hb s t heq
  obtain ⟨hcode, hrest⟩ := List.append_inj heq ((hlength a ha).trans (hlength b hb).symm)
  exact ⟨hinj ha hb hcode, hrest⟩

/-- Two codes, one behind the other. -/
lemma pair (h : PrefixCodeOn p encode) (h' : PrefixCodeOn q encode') :
    PrefixCodeOn (p ×ˢ q) fun a => encode a.1 ++ encode' a.2 := by
  rintro ⟨a, a'⟩ ⟨ha, ha'⟩ ⟨b, b'⟩ ⟨hb, hb'⟩ s t heq
  rw [List.append_assoc, List.append_assoc] at heq
  obtain ⟨hfirst, hrest⟩ := h a ha b hb _ _ heq
  obtain ⟨hsecond, hst⟩ := h' a' ha' b' hb' _ _ hrest
  exact ⟨Prod.ext hfirst hsecond, hst⟩

/-- A list behind the code of its length. -/
lemma framed {sizes : Set ℕ} {size : ℕ → List β} (h : PrefixCodeOn sizes size) :
    PrefixCodeOn {v : List β | v.length ∈ sizes} fun v => size v.length ++ v := by
  intro v hv w hw s t heq
  rw [List.append_assoc, List.append_assoc] at heq
  obtain ⟨hlength, hrest⟩ := h v.length hv w.length hw _ _ heq
  exact List.append_inj hrest hlength

/-- As many codes on both sides, one behind the other. -/
lemma flatMap_inj (h : PrefixCodeOn p encode) {l m : List α} (hl : ∀ a ∈ l, a ∈ p)
    (hm : ∀ a ∈ m, a ∈ p) (hlength : l.length = m.length) {s t : List β}
    (heq : l.flatMap encode ++ s = m.flatMap encode ++ t) : l = m ∧ s = t := by
  induction l generalizing m with
  | nil =>
    obtain rfl := List.eq_nil_of_length_eq_zero hlength.symm
    exact ⟨rfl, heq⟩
  | cons a l ih =>
    cases m with
    | nil => exact absurd hlength (by simp)
    | cons b m =>
      rw [List.flatMap_cons, List.flatMap_cons, List.append_assoc, List.append_assoc] at heq
      rw [List.forall_mem_cons] at hl hm
      obtain ⟨rfl, hrest⟩ := h a hl.1 b hm.1 _ _ heq
      obtain ⟨rfl, hst⟩ := ih hl.2 hm.2 (Nat.succ.inj hlength) hrest
      exact ⟨rfl, hst⟩

/-- The codes of a list behind the code of their number. -/
lemma counted {sizes : Set ℕ} {count : ℕ → List β} (hcount : PrefixCodeOn sizes count)
    (h : PrefixCodeOn p encode) :
    PrefixCodeOn {l : List α | l.length ∈ sizes ∧ ∀ a ∈ l, a ∈ p}
      fun l => count l.length ++ l.flatMap encode := by
  rintro l ⟨hsize, hl⟩ m ⟨hsize', hm⟩ s t heq
  rw [List.append_assoc, List.append_assoc] at heq
  obtain ⟨hlength, hrest⟩ := hcount l.length hsize m.length hsize' _ _ heq
  exact h.flatMap_inj hl hm hlength hrest

/-- An optional value behind a mark that says whether there is one. -/
lemma marked {mark : Bool → List β} (hmark : PrefixCodeOn Set.univ mark)
    (h : PrefixCodeOn p encode) :
    PrefixCodeOn {o : Option α | ∀ a ∈ o, a ∈ p}
      fun o => mark o.isSome ++ o.elim [] encode := by
  intro o ho o' ho' s t heq
  rw [List.append_assoc, List.append_assoc] at heq
  obtain ⟨hsome, hrest⟩ := hmark _ trivial _ trivial _ _ heq
  cases o with
  | none =>
    cases o' with
    | none => exact ⟨rfl, hrest⟩
    | some b => exact absurd hsome (by simp)
  | some a =>
    cases o' with
    | none => exact absurd hsome (by simp)
    | some b =>
      obtain ⟨rfl, hst⟩ := h a (ho a rfl) b (ho' b rfl) s t hrest
      exact ⟨rfl, hst⟩

end PrefixCodeOn

end Text
