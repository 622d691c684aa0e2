import Mathlib

/-!
# The longest front of a list within a budget

Items have weights.  `fitting` takes items from the front while the budget lasts and stops
at the first one that it does not cover.  No weight is negative, so what it takes is the
longest front that the budget covers, and a longer list never makes it take less.
-/

set_option autoImplicit false

namespace SupernoteTaskService.Foundation

section Fitting
variable {α : Type} (weight : α → ℕ)

def totalWeight (items : List α) : ℕ := (items.map weight).sum

def fitting : ℕ → List α → List α
  | _, [] => []
  | budget, item :: rest =>
      if weight item ≤ budget then item :: fitting (budget - weight item) rest else []

variable {weight} {front items longer : List α} {budget : ℕ}

theorem totalWeight_cons (item : α) (items : List α) :
    totalWeight weight (item :: items) = weight item + totalWeight weight items := by
  rw [totalWeight, List.map_cons, List.sum_cons, totalWeight]

variable (weight) in
theorem fitting_front (items : List α) : ∀ budget : ℕ, fitting weight budget items <+: items := by
  induction items with
  | nil => exact fun budget => List.prefix_refl []
  | cons item rest ih =>
      intro budget
      rw [fitting]
      split
      · exact List.cons_prefix_cons.mpr ⟨rfl, ih _⟩
      · exact List.nil_prefix

variable (weight) in
theorem totalWeight_fitting_le (items : List α) :
    ∀ budget : ℕ, totalWeight weight (fitting weight budget items) ≤ budget := by
  induction items with
  | nil => exact fun budget => Nat.zero_le budget
  | cons item rest ih =>
      intro budget
      rw [fitting]
      split
      · rename_i covered
        have later := ih (budget - weight item)
        rw [totalWeight_cons]
        omega
      · exact Nat.zero_le budget

/-- What is taken is the longest front that the budget covers. -/
theorem front_of_fitting_iff (isFront : front <+: items) :
    front <+: fitting weight budget items ↔ totalWeight weight front ≤ budget := by
  induction front generalizing items budget with
  | nil => exact iff_of_true List.nil_prefix (Nat.zero_le budget)
  | cons item front ih =>
      obtain ⟨back, rfl⟩ := isFront
      rw [List.cons_append, fitting, totalWeight_cons]
      by_cases covered : weight item ≤ budget
      · rw [if_pos covered, List.cons_prefix_cons, and_iff_right rfl,
          ih (List.prefix_append front back)]
        omega
      · rw [if_neg covered]
        refine iff_of_false (fun isFront => ?_) (by omega)
        exact absurd (List.prefix_nil.mp isFront) (List.cons_ne_nil item front)

theorem fitting_eq_self (covered : totalWeight weight items ≤ budget) :
    fitting weight budget items = items :=
  (fitting_front weight items budget).eq_of_length_le
    ((front_of_fitting_iff (List.prefix_refl items)).mpr covered).length_le

theorem fitting_mono (isFront : items <+: longer) :
    fitting weight budget items <+: fitting weight budget longer :=
  (front_of_fitting_iff ((fitting_front weight items budget).trans isFront)).mpr
    (totalWeight_fitting_le weight items budget)

end Fitting

end SupernoteTaskService.Foundation
