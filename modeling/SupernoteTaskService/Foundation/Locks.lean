import SupernoteTaskService.Foundation.Runs
import SupernoteTaskService.Foundation.Threads

/-!
# Locks and turns

A lock is held exactly while one thread is inside.  What a thread does while the others
are not in its way is bounded by the turns that it gets: a rank that its own turns lower,
and that no other turn touches, runs out.
-/

set_option autoImplicit false

namespace SupernoteTaskService.Foundation

section Lock
variable {ι φ : Type} [Fintype ι] {inside : φ → Bool} {phase : ι → φ} {locked : Bool}

/-- The lock is taken by the one thread that is inside, or free. -/
def Excludes (inside : φ → Bool) (phase : ι → φ) (locked : Bool) : Prop :=
  ownerCount inside phase = locked.toNat

theorem excludes_free (outside : ∀ thread, inside (phase thread) = false) :
    Excludes inside phase false :=
  ownerCount_eq_zero outside

theorem Excludes.locked_of_inside (excludes : Excludes inside phase locked) {thread : ι}
    (isInside : inside (phase thread) = true) : locked = true := by
  have owners := ownerCount_pos isInside
  rw [excludes] at owners
  cases locked with
  | true => rfl
  | false => cases owners

theorem Excludes.exists_inside (excludes : Excludes inside phase true) :
    ∃ thread, inside (phase thread) = true := by
  by_contra nobody
  have outside : ∀ thread, inside (phase thread) = false := by
    intro thread
    rw [← Bool.not_eq_true]
    intro isInside
    exact nobody ⟨thread, isInside⟩
  have none := ownerCount_eq_zero outside
  rw [excludes] at none
  cases none

variable [DecidableEq ι]

theorem Excludes.unique (excludes : Excludes inside phase locked) {first second : ι}
    (firstInside : inside (phase first) = true) (secondInside : inside (phase second) = true) :
    first = second := by
  by_contra different
  have pair : ∑ thread ∈ {first, second}, (inside (phase thread)).toNat ≤
      ownerCount inside phase :=
    Finset.sum_le_sum_of_subset (Finset.subset_univ _)
  rw [Finset.sum_pair different, firstInside, secondInside, excludes] at pair
  cases locked with
  | true => simp at pair
  | false => simp at pair

theorem Excludes.move (excludes : Excludes inside phase locked) {thread : ι} {next : φ}
    {locked' : Bool}
    (balance : (inside next).toNat + locked.toNat = (inside (phase thread)).toNat + locked'.toNat) :
    Excludes inside (Function.update phase thread next) locked' := by
  have counted := ownerCount_update inside phase thread next
  unfold Excludes at excludes ⊢
  omega

end Lock

section Turns
variable {σ τ ι φ : Type} [DecidableEq ι] {step : σ → τ → σ} {thread : ι} (phaseOf : σ → ι → φ)
  (actor : τ → ι) (done : φ → Prop) (rank : φ → ℕ)

/-- A thread that gets more turns than its rank is done at some moment between them. -/
theorem done_within_turns
    (others : ∀ state turn, actor turn ≠ thread → phaseOf (step state turn) thread =
      phaseOf state thread)
    (own : ∀ state turn, actor turn = thread → ¬ done (phaseOf state thread) →
      done (phaseOf (step state turn) thread) ∨
        rank (phaseOf (step state turn) thread) < rank (phaseOf state thread))
    (run : List τ) : ∀ start : σ,
    rank (phaseOf start thread) < run.countP (fun turn => decide (actor turn = thread)) →
      ∃ reached ∈ run.scanl step start, done (phaseOf reached thread) := by
  induction run with
  | nil =>
      intro start many
      exact absurd many (Nat.not_lt_zero _)
  | cons turn run ih =>
      intro start many
      by_cases already : done (phaseOf start thread)
      · exact ⟨start, happens_head.state_mem_scanl, already⟩
      · have later : done (phaseOf (step start turn) thread) ∨
            rank (phaseOf (step start turn) thread) <
              run.countP (fun turn => decide (actor turn = thread)) := by
          rw [List.countP_cons] at many
          by_cases isOwn : actor turn = thread
          · rw [if_pos (decide_eq_true isOwn)] at many
            rcases own start turn isOwn already with finished | lower
            · exact Or.inl finished
            · exact Or.inr (by omega)
          · rw [if_neg (by simpa using isOwn), Nat.add_zero] at many
            rw [others start turn isOwn]
            exact Or.inr many
        rcases later with finished | enough
        · exact ⟨step start turn, happens_head.next_mem_scanl, finished⟩
        · obtain ⟨reached, member, finished⟩ := ih (step start turn) enough
          refine ⟨reached, ?_, finished⟩
          rw [List.scanl_cons]
          exact List.mem_cons_of_mem start member

theorem exists_last_turn {start : σ}
    (others : ∀ state turn, actor turn ≠ thread → phaseOf (step state turn) thread =
      phaseOf state thread)
    (run : List τ) (moved : phaseOf (run.foldl step start) thread ≠ phaseOf start thread) :
    ∃ front turn back, run = front ++ turn :: back ∧ actor turn = thread ∧
      (∀ other ∈ back, actor other ≠ thread) ∧
      phaseOf (step (front.foldl step start) turn) thread =
        phaseOf (run.foldl step start) thread := by
  induction run using List.reverseRecOn with
  | nil => exact absurd rfl moved
  | append_singleton run turn ih =>
      rw [List.foldl_concat] at moved ⊢
      by_cases own : actor turn = thread
      · exact ⟨run, turn, [], rfl, own, nofun, rfl⟩
      · rw [others _ turn own] at moved ⊢
        obtain ⟨front, last, back, rfl, isOwn, none, led⟩ := ih moved
        refine ⟨front, last, back ++ [turn], by simp, isOwn, fun other member => ?_, led⟩
        rcases List.mem_append.mp member with inBack | isTurn
        · exact none other inBack
        · rw [List.mem_singleton.mp isTurn]
          exact own

end Turns

end SupernoteTaskService.Foundation
