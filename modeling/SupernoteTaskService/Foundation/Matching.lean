import SupernoteTaskService.Foundation.Runs

/-!
# Events answered by later events

`ClosedLater` pairs each opening with a later closing of its own.  Where the closings are
never ahead of the openings, there are such pairs exactly when there are as many of both.
`CountedAt` gives the positions of the counted events of a run.
-/

set_option autoImplicit false

namespace SupernoteTaskService.Foundation

section Matching
variable {opens closes : ℕ → Prop}

/-- Every opening is followed by a closing of its own. -/
def ClosedLater (opens closes : ℕ → Prop) : Prop :=
  ∃ closing : ℕ → ℕ, Set.InjOn closing {i | opens i} ∧
    ∀ i, opens i → i < closing i ∧ closes (closing i)

/-- Where closings are never ahead of openings, each opening has its closing exactly when there
are as many of both: the closing of the same rank is one. -/
theorem closedLater_iff_count [DecidablePred opens] [DecidablePred closes] {n : ℕ}
    (apart : ∀ i, opens i → ¬ closes i) (opened : ∀ i, opens i → i < n)
    (closed : ∀ i, closes i → i < n)
    (behind : ∀ m ≤ n, Nat.count closes m ≤ Nat.count opens m) :
    ClosedLater opens closes ↔ Nat.count opens n = Nat.count closes n := by
  constructor
  · intro ⟨closing, own, later⟩
    refine le_antisymm ?_ (behind n le_rfl)
    rw [Nat.count_eq_card_filter_range, Nat.count_eq_card_filter_range]
    apply Finset.card_le_card_of_injOn closing
    · intro i member
      have isOpen := (Finset.mem_filter.mp (Finset.mem_coe.mp member)).2
      have closes_ := (later i isOpen).2
      exact Finset.mem_coe.mpr (Finset.mem_filter.mpr
        ⟨Finset.mem_range.mpr (closed _ closes_), closes_⟩)
    · intro i iMember j jMember same
      exact own (Finset.mem_filter.mp (Finset.mem_coe.mp iMember)).2
        (Finset.mem_filter.mp (Finset.mem_coe.mp jMember)).2 same
  · intro even
    have ranked : ∀ i, opens i → ∃ j, closes j ∧ Nat.count closes j = Nat.count opens i := by
      intro i isOpen
      have inTime : Nat.count opens i < Nat.count closes n := by
        rw [← even]
        exact Nat.count_strict_mono isOpen (opened i isOpen)
      have exists_ : ∀ finite : (Set.ofPred closes).Finite,
          Nat.count opens i < finite.toFinset.card := fun finite =>
        lt_of_lt_of_le inTime (Nat.count_le_card finite n)
      exact ⟨_, Nat.nth_mem _ exists_, Nat.count_nth exists_⟩
    choose! closing isClosing rank using ranked
    refine ⟨closing, fun i isOpen j jOpen same => ?_, fun i isOpen => ⟨?_, isClosing i isOpen⟩⟩
    · have ranks := rank i isOpen
      rw [same, rank j jOpen] at ranks
      exact (Nat.count_injective jOpen isOpen ranks).symm
    · by_contra notLater
      -- Up to and including the closing there are more closings than openings.
      have reached := behind (closing i + 1) (closed _ (isClosing i isOpen))
      rw [Nat.count_succ, if_pos (isClosing i isOpen), rank i isOpen] at reached
      have before : closing i ≠ i := by
        intro same
        have closes_ := isClosing i isOpen
        rw [same] at closes_
        exact apart i isOpen closes_
      have few := Nat.count_monotone opens (show closing i + 1 ≤ i by omega)
      omega

end Matching

section Positions
variable {σ ε : Type} {step : σ → ε → σ} {counted : σ → ε → Bool}

variable (step counted) in
def CountedAt (start : σ) (run : List ε) (i : ℕ) : Prop :=
  ∃ event, run[i]? = some event ∧ counted ((run.take i).foldl step start) event = true

instance (start : σ) (run : List ε) : DecidablePred (CountedAt step counted start run) := fun i =>
  decidable_of_iff (run[i]?.any (counted ((run.take i).foldl step start)) = true)
    (by rw [Option.any_eq_true]; rfl)

theorem CountedAt.lt_length {start : σ} {run : List ε} {i : ℕ}
    (counts : CountedAt step counted start run i) : i < run.length := by
  obtain ⟨event, found, -⟩ := counts
  exact (List.getElem?_eq_some_iff.mp found).1

theorem count_countedAt (run : List ε) : ∀ (start : σ) (m : ℕ),
    Nat.count (CountedAt step counted start run) m = eventCount step counted start (run.take m) := by
  induction run with
  | nil =>
      intro start m
      rw [List.take_nil, eventCount]
      exact Nat.count_iff_forall_not.mpr fun i _ counts => absurd counts.lt_length (Nat.not_lt_zero i)
  | cons event run ih =>
      intro start m
      cases m with
      | zero => rfl
      | succ m =>
          have first : CountedAt step counted start (event :: run) 0 ↔ counted start event = true := by
            simp [CountedAt]
          have later : Nat.count (fun i => CountedAt step counted start (event :: run) (i + 1)) m =
              Nat.count (CountedAt step counted (step start event) run) m := rfl
          rw [Nat.count_succ', later, List.take_succ_cons, eventCount, ← ih, add_comm]
          by_cases counts : counted start event = true
          · rw [if_pos (first.mpr counts), counts, Bool.toNat_true]
          · rw [if_neg (fun isFirst => counts (first.mp isFirst)), Bool.eq_false_of_not_eq_true counts,
              Bool.toNat_false]

end Positions

end SupernoteTaskService.Foundation
