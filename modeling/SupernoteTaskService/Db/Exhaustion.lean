import SupernoteTaskService.Db.Capacity
import SupernoteTaskService.Foundation.Locks
import SupernoteTaskService.Foundation.Matching

/-!
# Turning a thread away

A thread that finds the queue empty and every slot reserved waits for a connection to come
back.  It looks into the queue only: a slot that another thread gives up in the meantime,
after a connect that failed, is free for the next caller and not for the one that waits.
When the wait ends without a connection the pool is exhausted exactly if each slot that was
given up during the wait was reserved again before its end.
-/

set_option autoImplicit false

namespace SupernoteTaskService

open Foundation

def Phase.reserves (pool : Pool) : Phase → Bool
  | .reserving => decide (pool.created < pool.size)
  | _ => false

def Phase.unreserves : Phase → Bool
  | .unreserving => true
  | _ => false

section Steps
variable (phase : Phase) (outcome : Outcome) (pool : Pool)

theorem counts_of_get (next : Phase) (moves : phase.advance outcome pool = match pool.getNowait with
      | some (conn, pool) => (.validating conn, pool)
      | none => (next, pool)) :
    (phase.advance outcome pool).2.size = pool.size ∧
      (phase.advance outcome pool).2.created = pool.created := by
  rcases getNowait_cases pool with ⟨conn, idle, -, gets⟩ | ⟨-, gets⟩
  · rw [moves, gets]
    exact ⟨rfl, rfl⟩
  · rw [moves, gets]
    exact ⟨rfl, rfl⟩

theorem advance_counts :
    (phase.advance outcome pool).2.size = pool.size ∧
      (phase.advance outcome pool).2.created =
        pool.created + (phase.reserves pool).toNat - (phase.unreserves).toNat := by
  have still : (phase.advance outcome pool).2.size = pool.size ∧
        (phase.advance outcome pool).2.created = pool.created →
      phase.reserves pool = false → phase.unreserves = false →
      (phase.advance outcome pool).2.size = pool.size ∧
        (phase.advance outcome pool).2.created =
          pool.created + (phase.reserves pool).toNat - (phase.unreserves).toNat := by
    rintro ⟨sameSize, sameCount⟩ noReserve noUnreserve
    rw [sameSize, sameCount, noReserve, noUnreserve]
    simp
  cases phase with
  | outside => exact still (counts_of_get _ outcome pool .reserving rfl) rfl rfl
  | waiting => exact still (counts_of_get _ outcome pool .outside rfl) rfl rfl
  | reserving =>
      by_cases spare : pool.created < pool.size
      · simp [Phase.advance, Pool.tryReserveSlot, Phase.reserves, Phase.unreserves, spare]
      · simp [Phase.advance, Pool.tryReserveSlot, Phase.reserves, Phase.unreserves, spare]
  | unreserving => simp [Phase.advance, Pool.unreserveSlot, Phase.reserves, Phase.unreserves]
  | connecting => cases outcome <;> exact still ⟨rfl, rfl⟩ rfl rfl
  | reconnecting => cases outcome <;> exact still ⟨rfl, rfl⟩ rfl rfl
  | validating conn => cases outcome <;> exact still ⟨rfl, rfl⟩ rfl rfl
  | closing conn => cases outcome <;> exact still ⟨rfl, rfl⟩ rfl rfl
  | inBlock conn => exact still ⟨rfl, rfl⟩ rfl rfl
  | overflowing conn => cases outcome <;> exact still ⟨rfl, rfl⟩ rfl rfl
  | releasing conn =>
      refine still ?_ rfl rfl
      rw [Phase.advance, Pool.putNowait]
      cases pool.full with
      | true => exact ⟨rfl, rfl⟩
      | false => exact ⟨rfl, rfl⟩

variable {phase outcome pool}

/-- What a step was that leads to one of the three rare phases. -/
def Phase.EnteredBy (outcome : Outcome) (pool : Pool) (phase : Phase) : Phase → Prop
  | .waiting => phase = .reserving ∧ ¬ pool.created < pool.size
  | .unreserving =>
      (phase = .connecting ∨ phase = .reconnecting) ∧ outcome ≠ .returns ∨
        ∃ conn, phase = .overflowing conn
  | .overflowing _ => phase.ownsSlot = true ∧ pool.full = true
  | _ => True

theorem advance_enteredBy :
    phase.EnteredBy outcome pool (phase.advance outcome pool).1 := by
  cases phase with
  | outside =>
      rcases getNowait_cases pool with ⟨conn, idle, -, gets⟩ | ⟨-, gets⟩
      · rw [Phase.advance, gets]
        trivial
      · rw [Phase.advance, gets]
        trivial
  | reserving =>
      by_cases spare : pool.created < pool.size
      · rw [Phase.advance, Pool.tryReserveSlot, if_pos spare]
        trivial
      · rw [Phase.advance, Pool.tryReserveSlot, if_neg spare]
        exact ⟨rfl, spare⟩
  | waiting =>
      rcases getNowait_cases pool with ⟨conn, idle, -, gets⟩ | ⟨-, gets⟩
      · rw [Phase.advance, gets]
        trivial
      · rw [Phase.advance, gets]
        trivial
  | connecting =>
      cases outcome with
      | returns => trivial
      | raisesError => exact Or.inl ⟨Or.inl rfl, by simp⟩
      | raisesOther => exact Or.inl ⟨Or.inl rfl, by simp⟩
  | reconnecting =>
      cases outcome with
      | returns => trivial
      | raisesError => exact Or.inl ⟨Or.inr rfl, by simp⟩
      | raisesOther => exact Or.inl ⟨Or.inr rfl, by simp⟩
  | releasing conn =>
      rw [Phase.advance, Pool.putNowait]
      cases full : pool.full with
      | true => exact ⟨rfl, full⟩
      | false => trivial
  | overflowing conn =>
      cases outcome with
      | returns => exact Or.inr ⟨conn, rfl⟩
      | raisesError => trivial
      | raisesOther => trivial
  | validating conn => cases outcome <;> trivial
  | closing conn => cases outcome <;> trivial
  | unreserving => trivial
  | inBlock conn => trivial

theorem empty_of_waiting_outside (away : (Phase.waiting.advance outcome pool).1 = .outside) :
    pool.idle = [] := by
  rcases getNowait_cases pool with ⟨conn, idle, -, gets⟩ | ⟨empty, -⟩
  · rw [Phase.advance, gets] at away
    cases away
  · exact empty

end Steps

/-! ## Whole runs -/

section Runs
variable {ι : Type} [DecidableEq ι] {size : ℤ}

def reservesAt (state : PoolState ι) (turn : Turn ι) : Bool :=
  (state.phase turn.thread).reserves state.pool

def unreservesAt (state : PoolState ι) (turn : Turn ι) : Bool :=
  (state.phase turn.thread).unreserves

omit [DecidableEq ι] in
theorem unreserving_of_unreservesAt {state : PoolState ι} {turn : Turn ι}
    (gives : unreservesAt state turn = true) : state.phase turn.thread = .unreserving := by
  unfold unreservesAt Phase.unreserves at gives
  split at gives
  · assumption
  · cases gives

theorem created_run (start : PoolState ι) (run : List (Turn ι)) :
    (run.foldl poolStep start).pool.created = start.pool.created +
      eventCount poolStep reservesAt start run - eventCount poolStep unreservesAt start run :=
  value_foldl (fun state : PoolState ι => state.pool.created)
    (fun state turn => (advance_counts (state.phase turn.thread) turn.outcome state.pool).2) run
    start

theorem created_le_size (positive : 1 ≤ size) (run : List (Turn ι)) :
    (run.foldl poolStep (.init size : PoolState ι)).pool.size = size ∧
      (run.foldl poolStep (.init size : PoolState ι)).pool.created ≤ size := by
  refine (invariant_of_steps (fun state : PoolState ι =>
    state.pool.size = size ∧ state.pool.created ≤ size) ⟨rfl, ?_⟩ ?_).2
  · exact le_trans zero_le_one positive
  · rintro state turn rest - ⟨sizeEq, bounded⟩
    obtain ⟨sameSize, counts⟩ :=
      advance_counts (state.phase turn.thread) turn.outcome state.pool
    refine ⟨sameSize.trans sizeEq, ?_⟩
    have moved : (poolStep state turn).pool.created = _ := counts
    rw [moved]
    cases reserves : (state.phase turn.thread).reserves state.pool with
    | false => simp only [Bool.toNat_false]; omega
    | true =>
        have spare : state.pool.created < state.pool.size := by
          unfold Phase.reserves at reserves
          split at reserves
          · exact of_decide_eq_true reserves
          · cases reserves
        simp only [Bool.toNat_true]
        omega

theorem poolStep_phase_self (state : PoolState ι) (turn : Turn ι) :
    (poolStep state turn).phase turn.thread =
      ((state.phase turn.thread).advance turn.outcome state.pool).1 :=
  Function.update_self ..

theorem poolStep_phase_other {state : PoolState ι} {turn : Turn ι} {thread : ι}
    (other : turn.thread ≠ thread) : (poolStep state turn).phase thread = state.phase thread :=
  Function.update_of_ne (Ne.symm other) ..

theorem enteredBy_step (state : PoolState ι) (turn : Turn ι) :
    (state.phase turn.thread).EnteredBy turn.outcome state.pool
      ((poolStep state turn).phase turn.thread) := by
  rw [poolStep_phase_self]
  exact advance_enteredBy

def beforeWait (thread : ι) (run : List (Turn ι)) : List (Turn ι) :=
  run.rdropWhile fun turn => turn.thread ≠ thread

def duringWait (thread : ι) (run : List (Turn ι)) : List (Turn ι) :=
  run.rtakeWhile fun turn => turn.thread ≠ thread

theorem full_before_wait (positive : 1 ≤ size) {thread : ι} (run : List (Turn ι))
    (waits : (run.foldl poolStep (.init size : PoolState ι)).phase thread = .waiting) :
    ((beforeWait thread run).foldl poolStep (.init size : PoolState ι)).pool.created = size := by
  induction run using List.reverseRecOn with
  | nil => cases waits
  | append_singleton run turn ih =>
      rw [List.foldl_concat] at waits
      by_cases own : turn.thread = thread
      · subst own
        have entered := enteredBy_step (run.foldl poolStep (.init size)) turn
        rw [waits] at entered
        obtain ⟨reserving, noSpare⟩ := entered
        obtain ⟨sizeEq, bounded⟩ := created_le_size positive run (ι := ι)
        have all : beforeWait turn.thread (run ++ [turn]) = run ++ [turn] :=
          List.rdropWhile_concat_neg _ _ _ (by simp)
        have stays : (poolStep (run.foldl poolStep (.init size)) turn).pool =
            (run.foldl poolStep (.init size)).pool := by
          rw [poolStep, reserving, Phase.advance, Pool.tryReserveSlot, if_neg noSpare]
        rw [all, List.foldl_concat, stays]
        omega
      · rw [poolStep_phase_other own] at waits
        have later : beforeWait thread (run ++ [turn]) = beforeWait thread run :=
          List.rdropWhile_concat_pos _ _ _ (by simp [own])
        rw [later]
        exact ih waits

theorem never_overflows [Fintype ι] (positive : 1 ≤ size) (run : List (Turn ι)) (thread : ι)
    (conn : ℕ) : (run.foldl poolStep (.init size : PoolState ι)).phase thread ≠ .overflowing conn := by
  induction run using List.reverseRecOn with
  | nil => nofun
  | append_singleton run turn ih =>
      rw [List.foldl_concat]
      by_cases own : turn.thread = thread
      · subst own
        intro overflows
        have entered := enteredBy_step (run.foldl poolStep (.init size)) turn
        rw [overflows] at entered
        obtain ⟨owner, full⟩ := entered
        -- The slot of the thread is counted too, so the queue holds fewer than `created`.
        have owners : 0 < ownerCount Phase.ownsSlot (run.foldl poolStep (.init size)).phase :=
          ownerCount_pos owner
        have counted := lostSlots_run (.init size) run
        rw [lostSlots_init, lostSlots] at counted
        obtain ⟨sizeEq, bounded⟩ := created_le_size positive run (ι := ι)
        have crowded : (run.foldl poolStep (.init size : PoolState ι)).pool.size ≤
            (run.foldl poolStep (.init size : PoolState ι)).pool.idle.length :=
          of_decide_eq_true (Bool.and_eq_true_iff.mp full).2
        omega
      · rw [poolStep_phase_other own]
        exact ih

/-- A thread that is about to give its slot up was last seen failing to connect. -/
theorem failed_before_giving_up [Fintype ι] (positive : 1 ≤ size) {thread : ι}
    (run : List (Turn ι))
    (gives : (run.foldl poolStep (.init size : PoolState ι)).phase thread = .unreserving) :
    ∃ front call between, run = front ++ call :: between ∧ call.thread = thread ∧
      ((front.foldl poolStep (.init size : PoolState ι)).phase thread = .connecting ∨
        (front.foldl poolStep (.init size : PoolState ι)).phase thread = .reconnecting) ∧
      call.outcome ≠ .returns ∧ ∀ other ∈ between, other.thread ≠ thread := by
  have moved : (run.foldl poolStep (.init size : PoolState ι)).phase thread ≠
      (PoolState.init size : PoolState ι).phase thread := by
    rw [gives]
    nofun
  obtain ⟨front, call, between, split, rfl, none, led⟩ := exists_last_turn PoolState.phase
    Turn.thread (fun state turn other => poolStep_phase_other other) run moved
  have entered := enteredBy_step (front.foldl poolStep (.init size)) call
  have leads : (poolStep (front.foldl poolStep (.init size)) call).phase call.thread =
      .unreserving := led.trans gives
  rw [leads] at entered
  rcases entered with ⟨connects, raised⟩ | ⟨conn, overflowing⟩
  · exact ⟨front, call, between, split, rfl, connects, raised, none⟩
  · exact absurd overflowing (never_overflows positive front call.thread conn)

/-- Each slot that is given up is reserved again later. -/
def SlotsReservedAgain (start : PoolState ι) (run : List (Turn ι)) : Prop :=
  ClosedLater (CountedAt poolStep unreservesAt start run) (CountedAt poolStep reservesAt start run)

/-- From a state with every slot reserved, every slot is reserved at the end exactly when those
given up on the way were reserved again. -/
theorem slotsReservedAgain_iff {start : PoolState ι} {run : List (Turn ι)}
    (full : start.pool.created = size)
    (bounded : ∀ m, ((run.take m).foldl poolStep start).pool.created ≤ size) :
    SlotsReservedAgain start run ↔ (run.foldl poolStep start).pool.created = size := by
  have counts : ∀ m, ((run.take m).foldl poolStep start).pool.created = size +
      Nat.count (CountedAt poolStep reservesAt start run) m -
        Nat.count (CountedAt poolStep unreservesAt start run) m := by
    intro m
    rw [created_run, full, count_countedAt, count_countedAt]
  have apart : ∀ i, CountedAt poolStep unreservesAt start run i →
      ¬ CountedAt poolStep reservesAt start run i := by
    intro i ⟨turn, found, gives⟩ ⟨other, found', reserves⟩
    have same : turn = other := Option.some.inj (found.symm.trans found')
    subst same
    rw [reservesAt, unreserving_of_unreservesAt gives] at reserves
    cases reserves
  have whole := counts run.length
  rw [List.take_length] at whole
  rw [SlotsReservedAgain, closedLater_iff_count apart (fun i => CountedAt.lt_length)
    (fun i => CountedAt.lt_length) fun m _ => ?_, whole]
  · omega
  · have atPrefix := bounded m
    rw [counts] at atPrefix
    omega

/-- A thread that waits and is turned away finds the queue empty, and every slot reserved
exactly when each slot that was given up during its wait was reserved again before the end of
the wait.  Who gives a slot up has failed to connect with it. -/
theorem turned_away_exhausted_iff [Fintype ι] (positive : 1 ≤ size) (run : List (Turn ι))
    (thread : ι) (outcome : Outcome)
    (waits : (run.foldl poolStep (.init size : PoolState ι)).phase thread = .waiting)
    (raises : (poolStep (run.foldl poolStep (.init size)) ⟨thread, outcome⟩).phase thread =
      .outside) :
    (((run.foldl poolStep (.init size : PoolState ι)).pool.idle = [] ∧
        (run.foldl poolStep (.init size : PoolState ι)).pool.created = size) ↔
      SlotsReservedAgain ((beforeWait thread run).foldl poolStep (.init size))
        (duringWait thread run)) ∧
    ∀ front turn rest, run = front ++ turn :: rest →
      unreservesAt (front.foldl poolStep (.init size)) turn = true →
      ∃ earlier call between, front = earlier ++ call :: between ∧ call.thread = turn.thread ∧
        ((earlier.foldl poolStep (.init size : PoolState ι)).phase turn.thread = .connecting ∨
          (earlier.foldl poolStep (.init size : PoolState ι)).phase turn.thread =
            .reconnecting) ∧
        call.outcome ≠ .returns ∧ ∀ other ∈ between, other.thread ≠ turn.thread := by
  have whole : beforeWait thread run ++ duringWait thread run = run :=
    List.rdropWhile_append_rtakeWhile
  have empty : (run.foldl poolStep (.init size : PoolState ι)).pool.idle = [] := by
    have moved := poolStep_phase_self (run.foldl poolStep (.init size)) ⟨thread, outcome⟩
    rw [raises, waits] at moved
    exact empty_of_waiting_outside moved.symm
  have bounded : ∀ m, (((duringWait thread run).take m).foldl poolStep
      ((beforeWait thread run).foldl poolStep (.init size))).pool.created ≤ size := by
    intro m
    rw [← List.foldl_append]
    exact (created_le_size positive _).2
  refine ⟨?_, fun front turn rest _ gives => ?_⟩
  · rw [and_iff_right empty, slotsReservedAgain_iff (full_before_wait positive run waits) bounded,
      ← List.foldl_append, whole]
  · exact failed_before_giving_up positive front (unreserving_of_unreservesAt gives)

end Runs

/-- A pool of one slot: thread 1 waits while thread 0 fails to connect and gives its slot up,
and thread 2 reserves it. -/
def slotPassedOn : List (Turn (Fin 3)) :=
  [⟨0, .returns⟩, ⟨0, .returns⟩, ⟨1, .returns⟩, ⟨2, .returns⟩, ⟨1, .returns⟩,
    ⟨0, .raisesError⟩, ⟨0, .returns⟩, ⟨2, .returns⟩]

theorem slotPassedOn_exhausted :
    (slotPassedOn.foldl poolStep (.init 1 : PoolState (Fin 3))).pool.idle = [] ∧
      (slotPassedOn.foldl poolStep (.init 1 : PoolState (Fin 3))).pool.created = 1 := by
  refine (turned_away_exhausted_iff le_rfl slotPassedOn 1 .returns (by decide) (by decide)).1.mpr ?_
  have onlyOnce : ∀ i < 3, CountedAt poolStep unreservesAt
      ((beforeWait 1 slotPassedOn).foldl poolStep (.init 1)) (duringWait 1 slotPassedOn) i →
      i = 1 := by
    decide
  refine ⟨fun _ => 2, fun i isOpen j jOpen _ => ?_, fun i isOpen => ?_⟩
  · rw [onlyOnce i isOpen.lt_length isOpen, onlyOnce j jOpen.lt_length jOpen]
  · rw [onlyOnce i isOpen.lt_length isOpen]
    decide

/-- The thread `false` cannot connect and gives its slot up while `true` waits. -/
def failedSlot : List (Turn Bool) :=
  [⟨false, .returns⟩, ⟨false, .returns⟩, ⟨true, .returns⟩, ⟨true, .returns⟩,
    ⟨false, .raisesError⟩, ⟨false, .returns⟩]

theorem turned_away_with_a_free_slot :
    ¬ ∀ (run : List (Turn Bool)) (thread : Bool) (outcome : Outcome),
      (run.foldl poolStep (.init 1 : PoolState Bool)).phase thread = .waiting →
      (poolStep (run.foldl poolStep (.init 1)) ⟨thread, outcome⟩).phase thread = .outside →
      (run.foldl poolStep (.init 1 : PoolState Bool)).pool.idle = [] ∧
        (run.foldl poolStep (.init 1 : PoolState Bool)).pool.created = 1 := by
  intro always
  have exhausted := always failedSlot true .returns (by decide) (by decide)
  exact absurd exhausted.2 (by decide)

end SupernoteTaskService
