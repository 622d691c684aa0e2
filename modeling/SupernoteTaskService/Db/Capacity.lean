import SupernoteTaskService.Db.Accounting

/-!
# Slots that nobody answers for

The counter should be the number of idle connections plus the slots that threads own.  A
step breaks this when a thread leaves with its slot and forgets it: when the ping of a
queued connection, or the close after it failed, raises what the code does not expect, and
when the close of a surplus connection raises.  Every such step loses one slot for good and
no other step loses or restores any, in every interleaving and from every state of the pool.
-/

set_option autoImplicit false

namespace SupernoteTaskService

open Foundation

/-- The step ends the call of a thread that does not give its slot back. -/
def Phase.leaks (outcome : Outcome) : Phase → Bool
  | .validating _ | .closing _ => decide (outcome = .raisesOther)
  | .overflowing _ => decide (outcome ≠ .returns)
  | _ => false

theorem advance_balance (phase : Phase) (outcome : Outcome) (pool : Pool) :
    (phase.advance outcome pool).2.created - (phase.advance outcome pool).2.idle.length -
        ((phase.advance outcome pool).1.ownsSlot.toNat : ℤ) =
      pool.created - pool.idle.length - (phase.ownsSlot.toNat : ℤ) +
        (phase.leaks outcome).toNat := by
  have moves : (phase.isValidating = true → outcome ≠ .raisesOther) →
      (∀ conn, phase ≠ .overflowing conn) → (phase.leaks outcome).toNat = 0 →
      (phase.advance outcome pool).2.created - (phase.advance outcome pool).2.idle.length -
          ((phase.advance outcome pool).1.ownsSlot.toNat : ℤ) =
        pool.created - pool.idle.length - (phase.ownsSlot.toNat : ℤ) +
          (phase.leaks outcome).toNat := by
    intro expected noOverflow keeps
    rw [keeps, Nat.cast_zero, add_zero]
    exact (advance_effect expected noOverflow).balance
  have unowned : ∀ conn, phase.advance outcome pool = (.outside, pool) →
      (phase = .validating conn ∨ phase = .closing conn ∨ phase = .overflowing conn) →
      phase.leaks outcome = true →
      (phase.advance outcome pool).2.created - (phase.advance outcome pool).2.idle.length -
          ((phase.advance outcome pool).1.ownsSlot.toNat : ℤ) =
        pool.created - pool.idle.length - (phase.ownsSlot.toNat : ℤ) +
          (phase.leaks outcome).toNat := by
    intro conn leaves owner lost
    have owned : phase.ownsSlot = true := by
      rcases owner with rfl | rfl | rfl <;> rfl
    rw [leaves, lost, owned]
    simp [Phase.ownsSlot]
  cases phase with
  | validating conn =>
      by_cases other : outcome = .raisesOther
      · subst other
        exact unowned conn rfl (Or.inl rfl) rfl
      · exact moves (fun _ => other) (fun _ => by simp) (by simp [Phase.leaks, other])
  | closing conn =>
      by_cases other : outcome = .raisesOther
      · subst other
        exact unowned conn rfl (Or.inr (Or.inl rfl)) rfl
      · exact moves (fun _ => other) (fun _ => by simp) (by simp [Phase.leaks, other])
  | overflowing conn =>
      cases outcome with
      | returns => simp [Phase.advance, Phase.ownsSlot, Phase.leaks]
      | raisesError => exact unowned conn rfl (Or.inr (Or.inr rfl)) rfl
      | raisesOther => exact unowned conn rfl (Or.inr (Or.inr rfl)) rfl
  | _ => exact moves (fun validating => by cases validating) (fun _ => by simp) rfl

/-! ## Whole runs -/

section Runs
variable {ι : Type} [Fintype ι] [DecidableEq ι]

def lostSlots (state : PoolState ι) : ℤ :=
  state.pool.created - state.pool.idle.length - ownerCount Phase.ownsSlot state.phase

def leaksAt (state : PoolState ι) (turn : Turn ι) : Bool :=
  (state.phase turn.thread).leaks turn.outcome

theorem lostSlots_step (state : PoolState ι) (turn : Turn ι) :
    lostSlots (poolStep state turn) = lostSlots state + (leaksAt state turn).toNat := by
  have moved := advance_balance (state.phase turn.thread) turn.outcome state.pool
  have counted := ownerCount_update Phase.ownsSlot state.phase turn.thread
    ((state.phase turn.thread).advance turn.outcome state.pool).1
  unfold lostSlots leaksAt poolStep
  dsimp only
  omega

theorem lostSlots_run (start : PoolState ι) (run : List (Turn ι)) :
    lostSlots (run.foldl poolStep start) =
      lostSlots start + eventCount poolStep leaksAt start run := by
  have changes : ∀ (state : PoolState ι) (turn : Turn ι), lostSlots (poolStep state turn) =
      lostSlots state + (leaksAt state turn).toNat - (false).toNat := by
    intro state turn
    rw [lostSlots_step, Bool.toNat_false, Nat.cast_zero, sub_zero]
  have none_ : eventCount poolStep (fun (_ : PoolState ι) (_ : Turn ι) => false) start run = 0 :=
    (eventCount_eq_zero_iff run start).mpr fun _ _ _ _ => rfl
  rw [value_foldl lostSlots changes run start, none_, Nat.cast_zero, sub_zero]

omit [DecidableEq ι] in
theorem lostSlots_init (size : ℤ) : lostSlots (.init size : PoolState ι) = 0 := by
  have nobody : ownerCount Phase.ownsSlot (PoolState.init size : PoolState ι).phase = 0 :=
    ownerCount_eq_zero fun _ => rfl
  rw [lostSlots, nobody]
  rfl

/-! ## One failed call -/

def Phase.acquires : Phase → Bool
  | .reserving | .connecting | .waiting | .validating _ | .closing _ | .reconnecting
  | .unreserving => true
  | _ => false

/-- One call of `_acquire` that raises, with what the other threads do meanwhile. -/
structure FailedAcquire (thread : ι) (start : PoolState ι) (first : Turn ι) (rest : List (Turn ι)) :
    Prop where
  begins : start.phase thread = .outside
  calls : first.thread = thread
  inside : ∀ state turn later, Happens poolStep (poolStep start first) rest state turn later →
    (state.phase thread).acquires = true
  raises : ((first :: rest).foldl poolStep start).phase thread = .outside

def unaccounted (thread : ι) (state : PoolState ι) : ℤ :=
  state.pool.created - state.pool.idle.length -
    ∑ other ∈ Finset.univ.erase thread, ((state.phase other).ownsSlot.toNat : ℤ)

theorem unaccounted_eq {thread : ι} {state : PoolState ι} (away : state.phase thread = .outside) :
    unaccounted thread state = lostSlots state := by
  have all := Finset.add_sum_erase Finset.univ
    (fun other => ((state.phase other).ownsSlot.toNat : ℤ)) (Finset.mem_univ thread)
  rw [away] at all
  rw [unaccounted, lostSlots, ownerCount, Nat.cast_sum, ← all]
  simp [Phase.ownsSlot]

/-- A call that raises leaves the pool its slots exactly when no step during it leaks. -/
theorem failed_acquire_keeps_slots_iff {thread : ι} {start : PoolState ι} {first : Turn ι}
    {rest : List (Turn ι)} (call : FailedAcquire thread start first rest) :
    unaccounted thread ((first :: rest).foldl poolStep start) = unaccounted thread start ↔
      ∀ state turn later, Happens poolStep start (first :: rest) state turn later →
        (state.phase turn.thread).leaks turn.outcome = false := by
  have lost := lostSlots_run start (first :: rest)
  have noLeak : eventCount poolStep leaksAt start (first :: rest) = 0 ↔
      ∀ state turn later, Happens poolStep start (first :: rest) state turn later →
        leaksAt state turn = false := eventCount_eq_zero_iff _ start
  rw [unaccounted_eq call.begins, unaccounted_eq call.raises, lost]
  refine Iff.trans ?_ noLeak
  omega

end Runs

def failedConnect : List (Turn (Fin 1)) :=
  [⟨0, .returns⟩, ⟨0, .raisesOther⟩, ⟨0, .returns⟩]

theorem failedConnect_keeps_slots :
    unaccounted 0 ((⟨0, .returns⟩ :: failedConnect).foldl poolStep (.init 1)) =
      unaccounted 0 (.init 1 : PoolState (Fin 1)) := by
  have inside : ∀ state turn later, Happens poolStep
      (poolStep (.init 1) (⟨0, .returns⟩ : Turn (Fin 1))) failedConnect state turn later →
      (state.phase 0).acquires = true := by
    unfold failedConnect
    refine forall_happens_cons_iff.mpr ⟨rfl, ?_⟩
    refine forall_happens_cons_iff.mpr ⟨rfl, ?_⟩
    exact forall_happens_cons_iff.mpr ⟨rfl, forall_happens_nil⟩
  refine (failed_acquire_keeps_slots_iff ⟨rfl, rfl, inside, rfl⟩).mpr ?_
  unfold failedConnect
  refine forall_happens_cons_iff.mpr ⟨rfl, ?_⟩
  refine forall_happens_cons_iff.mpr ⟨rfl, ?_⟩
  refine forall_happens_cons_iff.mpr ⟨rfl, ?_⟩
  exact forall_happens_cons_iff.mpr ⟨rfl, forall_happens_nil⟩

def onePooled : PoolState (Fin 1) := ⟨⟨1, 1, [0], 1⟩, fun _ => .outside⟩

/-- The ping raises something else than the driver's error: the slot is gone. -/
theorem unexpected_ping_loses_slot :
    ¬ ∀ (start : PoolState (Fin 1)) (first : Turn (Fin 1)) (rest : List (Turn (Fin 1))),
      FailedAcquire 0 start first rest →
        unaccounted 0 ((first :: rest).foldl poolStep start) = unaccounted 0 start := by
  intro always
  have inside : ∀ state turn later, Happens poolStep
      (poolStep onePooled (⟨0, .returns⟩ : Turn (Fin 1))) [⟨0, .raisesOther⟩] state turn later →
      (state.phase 0).acquires = true :=
    forall_happens_cons_iff.mpr ⟨rfl, forall_happens_nil⟩
  have same := always onePooled ⟨0, .returns⟩ [⟨0, .raisesOther⟩] ⟨rfl, rfl, inside, rfl⟩
  exact absurd same (by decide)

end SupernoteTaskService
