import Mathlib

/-!
# Threads, slots and shared resources

A thread is where its phase says, and a step moves one thread to another phase.
`ownerCount` counts the threads whose phase owns a slot.  `Apart` says that resources
lie idle or are held by one thread each, and never both; its rules are the moves of a
resource between the idle ones and a thread.
-/

set_option autoImplicit false

namespace SupernoteTaskService.Foundation

section Owners
variable {ι φ : Type} [Fintype ι]

def ownerCount (owns : φ → Bool) (phase : ι → φ) : ℕ := ∑ thread, (owns (phase thread)).toNat

theorem ownerCount_pos {owns : φ → Bool} {phase : ι → φ} {thread : ι}
    (owner : owns (phase thread) = true) : 0 < ownerCount owns phase := by
  have member := Finset.single_le_sum (f := fun i => (owns (phase i)).toNat)
    (fun i _ => Nat.zero_le _) (Finset.mem_univ thread)
  simp only [owner, Bool.toNat_true] at member
  exact member

theorem ownerCount_eq_zero {owns : φ → Bool} {phase : ι → φ}
    (none : ∀ thread, owns (phase thread) = false) : ownerCount owns phase = 0 := by
  simp [ownerCount, none]

variable [DecidableEq ι]

theorem ownerCount_update (owns : φ → Bool) (phase : ι → φ) (thread : ι) (next : φ) :
    ownerCount owns (Function.update phase thread next) + (owns (phase thread)).toNat =
      ownerCount owns phase + (owns next).toNat := by
  have pushed : (fun i => (owns (Function.update phase thread next i)).toNat) =
      Function.update (fun i => (owns (phase i)).toNat) thread (owns next).toNat := by
    funext i
    by_cases same : i = thread
    · subst same
      simp
    · simp [same]
  have rest := Finset.add_sum_erase Finset.univ (fun i => (owns (phase i)).toNat)
    (Finset.mem_univ thread)
  unfold ownerCount
  rw [pushed, Finset.sum_update_of_mem (Finset.mem_univ thread), Finset.sdiff_singleton_eq_erase]
  omega

end Owners

section Apart
variable {ι φ κ : Type} {holds : φ → Option κ} {phase : ι → φ} {idle : List κ}

/-- No resource is idle twice, held by two threads, or held and idle. -/
structure Apart (holds : φ → Option κ) (phase : ι → φ) (idle : List κ) : Prop where
  nodup : idle.Nodup
  single : ∀ first second held, holds (phase first) = some held →
    holds (phase second) = some held → first = second
  notIdle : ∀ thread held, holds (phase thread) = some held → held ∉ idle

theorem apart_nil (free : ∀ thread, holds (phase thread) = none) : Apart holds phase [] where
  nodup := List.nodup_nil
  single first _ held holding := by rw [free first] at holding; cases holding
  notIdle thread held holding := by rw [free thread] at holding; cases holding

variable [DecidableEq ι] {thread : ι} {next : φ}

theorem holds_update_iff {other : ι} {held : κ} :
    holds (Function.update phase thread next other) = some held ↔
      (other = thread ∧ holds next = some held) ∨
        (other ≠ thread ∧ holds (phase other) = some held) := by
  by_cases same : other = thread
  · subst same
    simp
  · simp [same]

/-- The one rule of a move: what the thread holds now it held before, or nobody did. -/
theorem Apart.move {idle' : List κ} (apart : Apart holds phase idle) (nodup : idle'.Nodup)
    (alone : ∀ held, holds next = some held →
      held ∉ idle' ∧ ∀ other, holds (phase other) = some held → other = thread)
    (others : ∀ other held, other ≠ thread → holds (phase other) = some held → held ∉ idle') :
    Apart holds (Function.update phase thread next) idle' := by
  refine ⟨nodup, fun first second held inFirst inSecond => ?_, fun other held holding => ?_⟩
  · rcases holds_update_iff.mp inFirst with ⟨rfl, nextHolds⟩ | ⟨notFirst, heldFirst⟩
    · rcases holds_update_iff.mp inSecond with ⟨rfl, -⟩ | ⟨notSecond, heldSecond⟩
      · rfl
      · exact absurd ((alone held nextHolds).2 second heldSecond) notSecond
    · rcases holds_update_iff.mp inSecond with ⟨rfl, nextHolds⟩ | ⟨notSecond, heldSecond⟩
      · exact absurd ((alone held nextHolds).2 first heldFirst) notFirst
      · exact apart.single first second held heldFirst heldSecond
  · rcases holds_update_iff.mp holding with ⟨rfl, nextHolds⟩ | ⟨isOther, heldOther⟩
    · exact (alone held nextHolds).1
    · exact others other held isOther heldOther

theorem Apart.keep (apart : Apart holds phase idle) (same : holds next = holds (phase thread)) :
    Apart holds (Function.update phase thread next) idle := by
  refine apart.move apart.nodup (fun held nextHolds => ?_) fun other held _ holding => ?_
  · rw [same] at nextHolds
    exact ⟨apart.notIdle thread held nextHolds, fun other holding =>
      apart.single other thread held holding nextHolds⟩
  · exact apart.notIdle other held holding

theorem Apart.drop (apart : Apart holds phase idle) (nothing : holds next = none) :
    Apart holds (Function.update phase thread next) idle := by
  refine apart.move apart.nodup (fun held nextHolds => ?_) fun other held _ holding => ?_
  · rw [nothing] at nextHolds
    cases nextHolds
  · exact apart.notIdle other held holding

theorem Apart.take {taken : κ} (apart : Apart holds phase (taken :: idle))
    (takes : holds next = some taken) :
    Apart holds (Function.update phase thread next) idle := by
  obtain ⟨notInRest, restNodup⟩ := List.nodup_cons.mp apart.nodup
  refine apart.move restNodup (fun held nextHolds => ?_) fun other held _ holding => ?_
  · rw [takes] at nextHolds
    cases nextHolds
    exact ⟨notInRest, fun other holding =>
      absurd List.mem_cons_self (apart.notIdle other taken holding)⟩
  · exact fun member => apart.notIdle other held holding (List.mem_cons_of_mem taken member)

theorem Apart.give {given : κ} (apart : Apart holds phase idle)
    (gives : holds (phase thread) = some given) (nothing : holds next = none) :
    Apart holds (Function.update phase thread next) (given :: idle) := by
  refine apart.move (List.nodup_cons.mpr ⟨apart.notIdle thread given gives, apart.nodup⟩)
    (fun held nextHolds => ?_) fun other held isOther holding => ?_
  · rw [nothing] at nextHolds
    cases nextHolds
  · intro member
    rcases List.mem_cons.mp member with rfl | inIdle
    · exact isOther (apart.single other thread held holding gives)
    · exact apart.notIdle other held holding inIdle

theorem Apart.fresh {new : κ} (apart : Apart holds phase idle) (takes : holds next = some new)
    (notIdle : new ∉ idle) (unheld : ∀ other, holds (phase other) ≠ some new) :
    Apart holds (Function.update phase thread next) idle := by
  refine apart.move apart.nodup (fun held nextHolds => ?_) fun other held _ holding => ?_
  · rw [takes] at nextHolds
    cases nextHolds
    exact ⟨notIdle, fun other holding => absurd holding (unheld other)⟩
  · exact apart.notIdle other held holding

end Apart

end SupernoteTaskService.Foundation
