/-
# Following links

A record is looked up under an id, and it may name the id of the next record.  A loop that
follows such links until it meets a target keeps the ids it has passed, so that it ends also where
the links lead back: every id it passes is known, and it passes none twice.
-/
import Mathlib.Data.List.Basic
import Mathlib.Logic.Relation

namespace Transition

variable {α ρ ε : Type*}

/-- Records under ids, with the id that a record links to. -/
structure Links (α ρ ε : Type*) where
  lookup : α → Except ε ρ
  id : ρ → α
  link : ρ → Option α
  /-- The ids under which a record can be found. -/
  known : List α
  id_of_lookup : ∀ {a r}, lookup a = .ok r → id r = a
  mem_known : ∀ {a r}, lookup a = .ok r → a ∈ known

namespace Links

/-- The record under an id links to another id. -/
def Leads (L : Links α ρ ε) (a b : α) : Prop := ∃ r, L.lookup a = .ok r ∧ L.link r = some b

variable [DecidableEq α]

lemma length_unvisited_lt (L : Links α ρ ε) {visited : List α} {a : α} {r : ρ}
    (h : L.lookup a = .ok r) (ha : a ∉ visited) :
    (L.known.filter (· ∉ a :: visited)).length < (L.known.filter (· ∉ visited)).length := by
  have hsplit : L.known.filter (· ∉ a :: visited) =
      (L.known.filter (· ∉ visited)).filter (· ≠ a) := by
    rw [List.filter_filter]
    refine List.filter_congr fun x _ => ?_
    simp [not_or]
  rw [hsplit]
  refine List.length_filter_lt_length_iff_exists.mpr ⟨a, ?_, by simp⟩
  exact List.mem_filter.mpr ⟨L.mem_known h, by simpa using ha⟩

/-- The loop: from a cursor to the record of a target. -/
def chase (L : Links α ρ ε) (target : α) (cyclic missing : ε) (visited : List α) :
    Option α → Except ε ρ
  | none => .error missing
  | some a =>
    if _ha : a ∈ visited then .error cyclic
    else
      match _h : L.lookup a with
      | .error e => .error e
      | .ok r =>
        if L.id r = target then .ok r
        else L.chase target cyclic missing (a :: visited) (L.link r)
termination_by (L.known.filter (· ∉ visited)).length
decreasing_by exact L.length_unvisited_lt _h _ha

variable {L : Links α ρ ε} {target a b : α} {cyclic missing e : ε} {visited : List α} {r : ρ}

/-! ## One round -/

lemma chase_visited (ha : a ∈ visited) :
    L.chase target cyclic missing visited (some a) = .error cyclic := by
  rw [chase, dif_pos ha]

lemma chase_error (ha : a ∉ visited) (h : L.lookup a = .error e) :
    L.chase target cyclic missing visited (some a) = .error e := by
  rw [chase, dif_neg ha]
  split
  next e' h' => exact congrArg _ (Except.error.inj (h'.symm.trans h))
  next r h' => exact absurd (h'.symm.trans h) (by simp)

lemma chase_ok (ha : a ∉ visited) (h : L.lookup a = .ok r) :
    L.chase target cyclic missing visited (some a) =
      if a = target then .ok r else L.chase target cyclic missing (a :: visited) (L.link r) := by
  have hid : L.id r = a := L.id_of_lookup h
  rw [chase, dif_neg ha]
  split
  next e h' => exact absurd (h'.symm.trans h) (by simp)
  next r' h' =>
    obtain rfl := Except.ok.inj (h'.symm.trans h)
    rw [hid]

/-! ## Where the loop ends -/

omit [DecidableEq α]

/-- What the loop has passed links to what it has passed or to the cursor. -/
def Passed (L : Links α ρ ε) (target : α) (visited : List α) (cursor : Option α) : Prop :=
  target ∉ visited ∧ ∀ x ∈ visited, ∀ y, L.Leads x y → y ∈ visited ∨ cursor = some y

lemma Passed.next (hpassed : L.Passed target visited (some a)) (h : L.lookup a = .ok r)
    (ha : a ≠ target) : L.Passed target (a :: visited) (L.link r) := by
  refine ⟨List.not_mem_cons_of_ne_of_not_mem (Ne.symm ha) hpassed.1, fun x hx y hxy => ?_⟩
  rcases List.mem_cons.mp hx with rfl | hx
  · obtain ⟨r', hr', hlink⟩ := hxy
    obtain rfl := Except.ok.inj (h.symm.trans hr')
    exact Or.inr hlink
  · rcases hpassed.2 x hx y hxy with hy | hy
    · exact Or.inl (List.mem_cons_of_mem a hy)
    · obtain rfl := Option.some.inj hy
      exact Or.inl List.mem_cons_self

/-- Links that lead back never leave what was passed. -/
lemma Passed.not_reached (hpassed : L.Passed target visited (some a)) (ha : a ∈ visited) :
    ¬ Relation.ReflTransGen L.Leads a target := by
  suffices hin : ∀ b, Relation.ReflTransGen L.Leads a b → b ∈ visited from
    fun hreach => hpassed.1 (hin target hreach)
  intro b hb
  induction hb with
  | refl => exact ha
  | tail _ hstep ih =>
    rcases hpassed.2 _ ih _ hstep with hin | heq
    · exact hin
    · exact Option.some.inj heq ▸ ha

variable [DecidableEq α]

/-- **The loop finds its target** exactly if the links lead to it and it can be looked up. -/
theorem chase_eq_ok_iff (hpassed : L.Passed target visited (some a)) :
    L.chase target cyclic missing visited (some a) = .ok r ↔
      Relation.ReflTransGen L.Leads a target ∧ L.lookup target = .ok r := by
  -- the ids that are known and not passed become fewer
  induction hn : (L.known.filter (· ∉ visited)).length using Nat.strongRecOn
    generalizing a visited with | ind n ih =>
  by_cases ha : a ∈ visited
  · rw [chase_visited ha]
    exact iff_of_false (by simp) fun h => hpassed.not_reached ha h.1
  cases h : L.lookup a with
  | error e =>
    rw [chase_error ha h]
    refine iff_of_false (by simp) fun hok => ?_
    rcases hok.1.cases_head with rfl | ⟨b, ⟨r', hr', -⟩, -⟩
    · exact absurd (h.symm.trans hok.2) (by simp)
    · exact absurd (h.symm.trans hr') (by simp)
  | ok r' =>
    rw [chase_ok ha h]
    by_cases hfound : a = target
    · subst hfound
      rw [if_pos rfl, h]
      exact ⟨fun hr => ⟨.refl, hr⟩, fun hr => hr.2⟩
    rw [if_neg hfound]
    have hnext := hpassed.next h hfound
    have hfirst : ∀ {b}, L.Leads a b ↔ L.link r' = some b := fun {b} =>
      ⟨fun ⟨r'', hr'', hlink⟩ => Except.ok.inj (h.symm.trans hr'') ▸ hlink,
        fun hlink => ⟨r', h, hlink⟩⟩
    cases hlink : L.link r' with
    | none =>
      rw [chase]
      refine iff_of_false (by simp) fun h => ?_
      rcases h.1.cases_head with heq | ⟨b, hb, -⟩
      · exact hfound heq
      · exact absurd (hfirst.mp hb) (by simp [hlink])
    | some b =>
      rw [ih _ (hn ▸ L.length_unvisited_lt h ha) (by rwa [hlink] at hnext) rfl]
      refine and_congr_left fun _ => ⟨fun hreach => .head (hfirst.mpr hlink) hreach, fun hreach => ?_⟩
      rcases hreach.cases_head with heq | ⟨b', hb', hreach⟩
      · exact absurd heq hfound
      · obtain rfl := Option.some.inj (hlink.symm.trans (hfirst.mp hb'))
        exact hreach

/-- **Links that never end** lead back: the loop says so, if it does not meet its target. -/
theorem chase_eq_cyclic (hends : ∀ b, Relation.ReflTransGen L.Leads a b → ∃ c, L.Leads b c)
    (hreach : ¬ Relation.ReflTransGen L.Leads a target) :
    L.chase target cyclic missing visited (some a) = .error cyclic := by
  induction hn : (L.known.filter (· ∉ visited)).length using Nat.strongRecOn
    generalizing a visited with | ind n ih =>
  by_cases ha : a ∈ visited
  · exact chase_visited ha
  obtain ⟨b, r, h, hlink⟩ := hends a .refl
  have hfound : a ≠ target := by
    rintro rfl
    exact hreach .refl
  rw [chase_ok ha h, if_neg hfound, hlink]
  exact ih _ (hn ▸ L.length_unvisited_lt h ha) (fun c hc => hends c (.head ⟨r, h, hlink⟩ hc))
    (fun hb => hreach (.head ⟨r, h, hlink⟩ hb)) rfl

end Links

end Transition
