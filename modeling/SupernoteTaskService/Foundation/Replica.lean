import Mathlib

/-!
# Copies kept by a client

A client keeps items by their key: an item that arrives replaces the one of its key,
and an item that is marked as gone removes it.
-/

set_option autoImplicit false

namespace SupernoteTaskService.Foundation

section Replica
variable {α κ : Type} [DecidableEq κ] (key : α → κ) (gone : α → Bool)

def absorb (copy : List α) (item : α) : List α :=
  let others := copy.filter fun other => decide (key other ≠ key item)
  if gone item then others else item :: others

def absorbAll (copy items : List α) : List α := items.foldl (absorb key gone) copy

variable {key gone}

theorem mem_keys_absorb_iff {copy : List α} {item : α} {k : κ} :
    k ∈ (absorb key gone copy item).map key ↔
      (key item = k ∧ gone item = false) ∨ (k ∈ copy.map key ∧ key item ≠ k) := by
  have others : k ∈ (copy.filter fun other => decide (key other ≠ key item)).map key ↔
      k ∈ copy.map key ∧ key item ≠ k := by
    simp only [List.mem_map, List.mem_filter, decide_eq_true_eq]
    constructor
    · rintro ⟨other, ⟨member, different⟩, rfl⟩
      exact ⟨⟨other, member, rfl⟩, different.symm⟩
    · rintro ⟨⟨other, member, rfl⟩, different⟩
      exact ⟨other, ⟨member, different.symm⟩, rfl⟩
  unfold absorb
  cases marked : gone item with
  | true => simp only [if_true, others, Bool.true_eq_false, and_false, false_or]
  | false =>
      simp only [Bool.false_eq_true, if_false, List.map_cons, List.mem_cons, others, and_true]
      constructor
      · rintro (same | kept)
        · exact Or.inl same.symm
        · exact Or.inr kept
      · rintro (same | kept)
        · exact Or.inl same.symm
        · exact Or.inr kept

theorem mem_keys_absorbAll_iff {k : κ} (items : List α) (distinct : (items.map key).Nodup) :
    ∀ copy : List α, k ∈ (absorbAll key gone copy items).map key ↔
      (∃ item ∈ items, key item = k ∧ gone item = false) ∨
        (k ∈ copy.map key ∧ ∀ item ∈ items, key item ≠ k) := by
  induction items with
  | nil =>
      intro copy
      simp [absorbAll]
  | cons item items ih =>
      intro copy
      obtain ⟨fresh, restDistinct⟩ := List.nodup_cons.mp distinct
      have rest := ih restDistinct (absorb key gone copy item)
      rw [show absorbAll key gone copy (item :: items) =
        absorbAll key gone (absorb key gone copy item) items from rfl, rest, mem_keys_absorb_iff,
        List.exists_mem_cons_iff, List.forall_mem_cons]
      constructor
      · rintro (later | ⟨⟨same, kept⟩ | ⟨held, different⟩, unnamed⟩)
        · exact Or.inl (Or.inr later)
        · exact Or.inl (Or.inl ⟨same, kept⟩)
        · exact Or.inr ⟨held, different, unnamed⟩
      · rintro ((⟨same, kept⟩ | later) | ⟨held, different, unnamed⟩)
        · refine Or.inr ⟨Or.inl ⟨same, kept⟩, fun other member sameKey => fresh ?_⟩
          rw [same, ← sameKey]
          exact List.mem_map_of_mem member
        · exact Or.inl later
        · exact Or.inr ⟨Or.inr ⟨held, different⟩, unnamed⟩

end Replica

end SupernoteTaskService.Foundation
