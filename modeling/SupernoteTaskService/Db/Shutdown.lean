import SupernoteTaskService.Db.Capacity
import SupernoteTaskService.Db.Exhaustion

/-!
# Closing the pool

`Database.close` empties the queue while threads may still be in `Database.cursor`.  Every
connection that was ever opened is in one place at every moment: idle, with one thread, with the
closer, closed, or abandoned by a validation that raised what the code does not expect.
-/

set_option autoImplicit false

namespace SupernoteTaskService

open Foundation

/-! ## The loop of `close` -/

inductive Closer where
  | draining
  | closing (conn : ℕ)
  | returned
  | raised
  deriving DecidableEq

/-- The pool, with the connections on which `close` was called, and those that a thread dropped
without. -/
structure ClosingState (ι : Type) extends PoolState ι where
  closer : Closer
  closed : List ℕ
  abandoned : List ℕ

inductive ClosingTurn (ι : Type) where
  | thread (turn : Turn ι)
  | closer (outcome : Outcome)

namespace Phase

def closes : Phase → Option ℕ
  | .closing conn => some conn
  | .overflowing conn => some conn
  | _ => none

def abandons (outcome : Outcome) : Phase → Option ℕ
  | .validating conn => if outcome = .raisesOther then some conn else none
  | _ => none

def holds (conn : ℕ) (phase : Phase) : Bool := decide (phase.connection = some conn)

end Phase

def Pool.hasOpened (pool : Pool) (conn : ℕ) : Bool := decide (conn < pool.opened)

def Closer.holds (conn : ℕ) (closer : Closer) : Bool := decide (closer = .closing conn)

section Steps
variable {ι : Type}

def ClosingState.init (size : ℤ) : ClosingState ι := ⟨.init size, .draining, [], []⟩

/-- The next step of `close`; `suppress` lets every other exception through. -/
def closerStep (state : ClosingState ι) (outcome : Outcome) : ClosingState ι :=
  match state.closer with
  | .draining =>
      match state.pool.getNowait with
      | some (conn, pool) => { state with pool := pool, closer := .closing conn }
      | none => { state with closer := .returned }
  | .closing conn =>
      { state with
        closer := if outcome = .raisesOther then .raised else .draining
        closed := conn :: state.closed }
  | .returned | .raised => state

variable [DecidableEq ι]

def closingStep (state : ClosingState ι) : ClosingTurn ι → ClosingState ι
  | .thread turn =>
      { state with
        toPoolState := poolStep state.toPoolState turn
        closed := (state.phase turn.thread).closes.toList ++ state.closed
        abandoned := ((state.phase turn.thread).abandons turn.outcome).toList ++ state.abandoned }
  | .closer outcome => closerStep state outcome

def drainsAt (state : ClosingState ι) : ClosingTurn ι → Bool
  | .thread _ => false
  | .closer _ => decide (state.closer = .draining) && !state.pool.idle.isEmpty

end Steps

/-! ## One place for every connection -/

theorem count_toList (held : Option ℕ) (conn : ℕ) :
    held.toList.count conn = (decide (held = some conn)).toNat := by
  cases held with
  | none => rfl
  | some other =>
      by_cases same : other = conn
      · subst same
        simp
      · simp [same]

section Effects
variable {phase : Phase} {outcome : Outcome} {pool : Pool} (conn : ℕ)

def Conserved (phase : Phase) (outcome : Outcome) (pool : Pool) (next : Phase) (pool' : Pool)
    (conn : ℕ) : Prop :=
  pool'.idle.count conn + (next.holds conn).toNat + phase.closes.toList.count conn +
      (phase.abandons outcome).toList.count conn + (pool.hasOpened conn).toNat =
    pool.idle.count conn + (phase.holds conn).toNat + (pool'.hasOpened conn).toNat

theorem count_cons_toNat (other : ℕ) (idle : List ℕ) :
    (other :: idle).count conn = idle.count conn + (decide (some other = some conn)).toNat := by
  by_cases same : other = conn
  · subst same
    simp
  · simp [same]

theorem conserved_of_get (next : Phase) (nothing : phase.connection = none)
    (nextNothing : next.connection = none) (moves : phase.advance outcome pool =
      match pool.getNowait with
      | some (conn, pool) => (.validating conn, pool)
      | none => (next, pool))
    (closesNone : phase.closes = none) (abandonsNone : phase.abandons outcome = none) :
    Conserved phase outcome pool (phase.advance outcome pool).1
      (phase.advance outcome pool).2 conn := by
  unfold Conserved
  rcases getNowait_cases pool with ⟨taken, idle, head, gets⟩ | ⟨-, gets⟩
  · rw [moves, gets, head, count_cons_toNat, closesNone, abandonsNone, Phase.holds, Phase.holds,
      nothing, Pool.hasOpened, Pool.hasOpened]
    simp [Phase.connection]
  · rw [moves, gets, closesNone, abandonsNone, Phase.holds, Phase.holds, nothing, nextNothing]
    simp

theorem conserved_of_connect (nothing : phase.connection = none) (moves : phase.advance outcome pool =
      match pool.connect outcome with
      | some (conn, pool) => (.inBlock conn, pool)
      | none => (.unreserving, pool))
    (closesNone : phase.closes = none) (abandonsNone : phase.abandons outcome = none) :
    Conserved phase outcome pool (phase.advance outcome pool).1
      (phase.advance outcome pool).2 conn := by
  unfold Conserved
  rcases connect_cases pool outcome with ⟨-, connects⟩ | ⟨-, connects⟩
  · rw [moves, connects, closesNone, abandonsNone, Phase.holds, Phase.holds, nothing,
      Pool.hasOpened, Pool.hasOpened]
    rcases lt_trichotomy conn pool.opened with older | rfl | newer
    · simp [Phase.connection, older, Nat.lt_succ_of_lt older, older.ne']
    · simp [Phase.connection]
    · simp [Phase.connection, newer.not_gt, newer.ne, Nat.not_lt_of_ge (Nat.succ_le_of_lt newer)]
  · rw [moves, connects, closesNone, abandonsNone, Phase.holds, Phase.holds, nothing]
    simp [Phase.connection]

theorem advance_conserves : Conserved phase outcome pool (phase.advance outcome pool).1
    (phase.advance outcome pool).2 conn := by
  cases phase with
  | outside => exact conserved_of_get conn .reserving rfl rfl rfl rfl rfl
  | waiting => exact conserved_of_get conn .outside rfl rfl rfl rfl rfl
  | connecting => exact conserved_of_connect conn rfl rfl rfl rfl
  | reconnecting => exact conserved_of_connect conn rfl rfl rfl rfl
  | reserving =>
      unfold Conserved
      by_cases spare : pool.created < pool.size
      · rw [Phase.advance, Pool.tryReserveSlot, if_pos spare]
        rfl
      · rw [Phase.advance, Pool.tryReserveSlot, if_neg spare]
        rfl
  | validating held =>
      cases outcome with
      | returns => rfl
      | raisesError => rfl
      | raisesOther =>
          simp only [Conserved, Phase.advance, Phase.closes, Phase.abandons, if_true, count_toList,
            Phase.holds, Phase.connection]
          simp
  | closing held =>
      simp only [Conserved, Phase.closes, Phase.abandons, count_toList, Phase.holds,
        Phase.connection]
      cases outcome <;> simp [Phase.advance]
  | unreserving => rfl
  | inBlock held => rfl
  | releasing held =>
      unfold Conserved
      cases full : pool.full with
      | true =>
          rw [Phase.advance, Pool.putNowait, full]
          rfl
      | false =>
          have moved : (Phase.releasing held).advance outcome pool =
              (.outside, { pool with idle := held :: pool.idle }) := by
            rw [Phase.advance, Pool.putNowait, full]
            rfl
          rw [moved, count_cons_toNat]
          simp [Phase.holds, Phase.connection, Phase.closes, Phase.abandons, Pool.hasOpened]
  | overflowing held =>
      simp only [Conserved, Phase.closes, Phase.abandons, count_toList, Phase.holds,
        Phase.connection]
      cases outcome <;> simp [Phase.advance]

end Effects

/-! ## Whole runs -/

section Runs
variable {ι : Type} [Fintype ι] [DecidableEq ι]

/-- How often a connection is counted in all the places it can be. -/
def ClosingState.places (state : ClosingState ι) (conn : ℕ) : ℕ :=
  state.pool.idle.count conn + ownerCount (Phase.holds conn) state.phase +
    (state.closer.holds conn).toNat + state.closed.count conn + state.abandoned.count conn

omit [DecidableEq ι] in
theorem places_closerStep (state : ClosingState ι) (outcome : Outcome) (conn : ℕ) :
    (closerStep state outcome).places conn = state.places conn ∧
      (closerStep state outcome).pool.opened = state.pool.opened := by
  cases at_ : state.closer with
  | draining =>
      rcases getNowait_cases state.pool with ⟨taken, idle, head, gets⟩ | ⟨-, gets⟩
      · simp only [closerStep, at_, gets, ClosingState.places, head, count_cons_toNat,
          Closer.holds, and_true]
        simp
        omega
      · simp only [closerStep, at_, gets, ClosingState.places, Closer.holds, and_true]
        simp
  | closing held =>
      simp only [closerStep, at_, ClosingState.places, count_cons_toNat, Closer.holds, and_true]
      cases outcome <;> simp <;> omega
  | returned =>
      rw [closerStep, at_]
      exact ⟨rfl, rfl⟩
  | raised =>
      rw [closerStep, at_]
      exact ⟨rfl, rfl⟩

theorem places_closingStep (state : ClosingState ι) (step : ClosingTurn ι) (conn : ℕ) :
    (closingStep state step).places conn + (state.pool.hasOpened conn).toNat =
      state.places conn + ((closingStep state step).pool.hasOpened conn).toNat := by
  cases step with
  | closer outcome =>
      obtain ⟨same, opened⟩ := places_closerStep state outcome conn
      simp only [closingStep, same, Pool.hasOpened, opened]
  | thread turn =>
      have moved : Conserved (state.phase turn.thread) turn.outcome state.pool _ _ conn :=
        advance_conserves conn
      have counted := ownerCount_update (Phase.holds conn) state.phase turn.thread
        ((state.phase turn.thread).advance turn.outcome state.pool).1
      simp only [Conserved] at moved
      simp only [closingStep, poolStep, ClosingState.places, List.count_append]
      omega

theorem places_eq (size : ℤ) (run : List (ClosingTurn ι)) (conn : ℕ) :
    (run.foldl closingStep (.init size : ClosingState ι)).places conn =
      ((run.foldl closingStep (.init size : ClosingState ι)).pool.hasOpened conn).toNat := by
  refine (invariant_of_steps (fun state : ClosingState ι =>
    state.places conn = (state.pool.hasOpened conn).toNat) ?_ fun state step rest _ held => ?_).2
  · have nobody : ownerCount (Phase.holds conn) (ClosingState.init size : ClosingState ι).phase = 0 :=
      ownerCount_eq_zero fun _ => rfl
    rw [ClosingState.places, nobody]
    rfl
  · have moved := places_closingStep state step conn
    omega

/-! ## Slots -/

theorem lostSlots_closingStep (state : ClosingState ι) (step : ClosingTurn ι) :
    lostSlots state.toPoolState + (drainsAt state step).toNat ≤
      lostSlots (closingStep state step).toPoolState := by
  cases step with
  | thread turn =>
      have lost : lostSlots (closingStep state (.thread turn)).toPoolState = _ :=
        lostSlots_step state.toPoolState turn
      rw [lost]
      simp [drainsAt]
  | closer outcome =>
      cases at_ : state.closer with
      | draining =>
          rcases getNowait_cases state.pool with ⟨taken, idle, head, gets⟩ | ⟨empty, gets⟩
          · simp only [closingStep, closerStep, at_, gets, drainsAt, lostSlots, head]
            simp
          · simp [closingStep, closerStep, at_, gets, drainsAt, lostSlots, empty]
      | _ => simp [closingStep, closerStep, at_, drainsAt, lostSlots]

omit [Fintype ι] in
theorem slots_closingStep (size : ℤ) (state : ClosingState ι) (step : ClosingTurn ι)
    (sizeEq : state.pool.size = size) (bounded : state.pool.created ≤ max size 0) :
    (closingStep state step).pool.size = size ∧ (closingStep state step).pool.created ≤ max size 0 := by
  cases step with
  | thread turn =>
      obtain ⟨sameSize, counts⟩ := advance_counts (state.phase turn.thread) turn.outcome state.pool
      have moved : (closingStep state (.thread turn)).pool.created = _ := counts
      refine ⟨sameSize.trans sizeEq, ?_⟩
      rw [moved]
      cases reserves : (state.phase turn.thread).reserves state.pool with
      | false =>
          simp only [Bool.toNat_false]
          omega
      | true =>
          have spare : state.pool.created < state.pool.size := by
            cases at_ : state.phase turn.thread with
            | reserving =>
                rw [at_] at reserves
                exact of_decide_eq_true reserves
            | _ =>
                rw [at_] at reserves
                cases reserves
          simp only [Bool.toNat_true]
          omega
  | closer outcome =>
      cases at_ : state.closer with
      | draining =>
          rcases getNowait_cases state.pool with ⟨taken, idle, head, gets⟩ | ⟨empty, gets⟩
          · simp only [closingStep, closerStep, at_, gets]
            exact ⟨sizeEq, bounded⟩
          · simp only [closingStep, closerStep, at_, gets]
            exact ⟨sizeEq, bounded⟩
      | _ =>
          simp only [closingStep, closerStep, at_]
          exact ⟨sizeEq, bounded⟩

omit [DecidableEq ι] in
theorem not_closed_of_live {state : ClosingState ι} {conn : ℕ} {opened : Bool}
    (places : state.places conn = opened.toNat)
    (live : conn ∈ state.pool.idle ∨ ∃ thread, (state.phase thread).connection = some conn) :
    conn ∉ state.closed := by
  intro member
  have closed : 0 < state.closed.count conn := List.count_pos_iff.mpr member
  have atMostOne : opened.toNat ≤ 1 := Bool.toNat_le opened
  rw [ClosingState.places] at places
  rcases live with inIdle | ⟨thread, holding⟩
  · have idle : 0 < state.pool.idle.count conn := List.count_pos_iff.mpr inIdle
    omega
  · have holds : (state.phase thread).holds conn = true := decide_eq_true holding
    have holders : 0 < ownerCount (Phase.holds conn) state.phase := ownerCount_pos holds
    omega

omit [DecidableEq ι] in
theorem nodup_closed {state : ClosingState ι}
    (places : ∀ conn, state.places conn = (state.pool.hasOpened conn).toNat) :
    state.closed.Nodup := by
  refine List.nodup_iff_count_le_one.mpr fun conn => ?_
  have all := places conn
  have atMostOne : (state.pool.hasOpened conn).toNat ≤ 1 := Bool.toNat_le _
  rw [ClosingState.places] at all
  omega

omit [DecidableEq ι] in
theorem ended_of_empty {state : ClosingState ι} {conn : ℕ}
    (places : state.places conn = (state.pool.hasOpened conn).toNat) (empty : state.pool.idle = [])
    (between : state.closer.holds conn = false) (opened : conn < state.pool.opened) :
    conn ∈ state.closed ∨ conn ∈ state.abandoned ∨
      ∃ thread, (state.phase thread).connection = some conn := by
  by_cases held : ∃ thread, (state.phase thread).connection = some conn
  · exact Or.inr (Or.inr held)
  · have nobody : ownerCount (Phase.holds conn) state.phase = 0 :=
      ownerCount_eq_zero fun thread => decide_eq_false fun holding => held ⟨thread, holding⟩
    rw [ClosingState.places, empty, nobody, between, Pool.hasOpened, decide_eq_true opened,
      List.count_nil, Bool.toNat_false, Bool.toNat_true] at places
    by_cases closed : conn ∈ state.closed
    · exact Or.inl closed
    · rw [List.count_eq_zero.mpr closed] at places
      exact Or.inr (Or.inl (List.count_pos_iff.mp (by omega)))

omit [Fintype ι] [DecidableEq ι] in
theorem empty_of_returned {state : ClosingState ι} {outcome : Outcome}
    (draining : state.closer = .draining) (returned : (closerStep state outcome).closer = .returned) :
    state.pool.idle = [] := by
  rcases getNowait_cases state.pool with ⟨taken, idle, -, gets⟩ | ⟨empty, -⟩
  · rw [closerStep, draining] at returned
    simp only [gets] at returned
    cases returned
  · exact empty

/-- However the steps of `close` fall between those of the threads: no connection is closed twice,
none that a thread has in hand or finds in the queue is closed, and when `close` returns, every
connection is closed, or still with a thread, or was abandoned by a failed validation.  The slots
of the connections that `close` took are not given back. -/
theorem close_ends_pooled_connections (size : ℤ) (run : List (ClosingTurn ι)) :
    let state := run.foldl closingStep (.init size : ClosingState ι)
    (state.closed.Nodup ∧ ∀ conn,
        (conn ∈ state.pool.idle ∨ ∃ thread, (state.phase thread).connection = some conn) →
          conn ∉ state.closed) ∧
      (∀ outcome, state.closer = .draining → (closerStep state outcome).closer = .returned →
        ∀ conn < state.pool.opened, conn ∈ state.closed ∨ conn ∈ state.abandoned ∨
          ∃ thread, (state.phase thread).connection = some conn) ∧
      (state.pool.idle.length + ownerCount Phase.ownsSlot state.phase +
        eventCount closingStep drainsAt (.init size : ClosingState ι) run : ℤ) ≤ max size 0 := by
  intro state
  have places : ∀ conn, state.places conn = (state.pool.hasOpened conn).toNat :=
    places_eq size run
  refine ⟨⟨nodup_closed places, fun conn => not_closed_of_live (places conn)⟩, ?_, ?_⟩
  · intro outcome draining returned conn opened
    refine ended_of_empty (places conn) (empty_of_returned draining returned) ?_ opened
    rw [draining]
    rfl
  · have slots : state.pool.size = size ∧ state.pool.created ≤ max size 0 :=
      (invariant_of_steps
        (fun state : ClosingState ι => state.pool.size = size ∧ state.pool.created ≤ max size 0)
        ⟨rfl, le_max_right size 0⟩
        fun state step _ _ held => slots_closingStep size state step held.1 held.2).2
    have lost : lostSlots (ClosingState.init size : ClosingState ι).toPoolState +
        eventCount closingStep drainsAt (.init size) run ≤ lostSlots state.toPoolState :=
      eventCount_le_value (fun state : ClosingState ι => lostSlots state.toPoolState)
        lostSlots_closingStep run (.init size)
    have nobody : lostSlots (ClosingState.init size : ClosingState ι).toPoolState = 0 :=
      lostSlots_init size
    rw [nobody, lostSlots] at lost
    omega

/-! ## A quiet shutdown -/

omit [Fintype ι] in
theorem closer_stays_returned {state : ClosingState ι} (returned : state.closer = .returned)
    (outcomes : List Outcome) : (outcomes.map ClosingTurn.closer).foldl closingStep state = state := by
  induction outcomes with
  | nil => rfl
  | cons outcome outcomes ih =>
      have stays : closingStep state (.closer outcome) = state := by
        rw [closingStep, closerStep, returned]
      rw [List.map_cons, List.foldl_cons, stays, ih]

omit [Fintype ι] in
theorem closer_alone (idle : List ℕ) : ∀ (state : ClosingState ι) (outcomes : List Outcome),
    state.pool.idle = idle → state.closer = .draining →
    (∀ outcome ∈ outcomes, outcome ≠ .raisesOther) → 2 * idle.length < outcomes.length →
    let after := (outcomes.map ClosingTurn.closer).foldl closingStep state
    after.closer = .returned ∧ after.pool.idle = [] ∧ after.phase = state.phase := by
  induction idle with
  | nil =>
      intro state outcomes empty draining expected enough
      cases outcomes with
      | nil => exact absurd enough (by simp)
      | cons outcome outcomes =>
          have gets : state.pool.getNowait = none := by rw [Pool.getNowait, empty]
          have stepped : closingStep state (.closer outcome) = { state with closer := .returned } := by
            rw [closingStep, closerStep, draining]
            simp only [gets]
          rw [List.map_cons, List.foldl_cons, stepped, closer_stays_returned rfl]
          exact ⟨rfl, empty, rfl⟩
  | cons conn idle ih =>
      intro state outcomes head draining expected enough
      cases outcomes with
      | nil => exact absurd enough (by simp)
      | cons outcome outcomes =>
          cases outcomes with
          | nil => exact absurd enough (by simp)
          | cons closes outcomes =>
              have gets : state.pool.getNowait = some (conn, { state.pool with idle := idle }) := by
                rw [Pool.getNowait, head]
              have closed : closes ≠ .raisesOther :=
                expected closes (List.mem_cons_of_mem _ List.mem_cons_self)
              have stepped : closingStep (closingStep state (.closer outcome)) (.closer closes) =
                  { state with pool := { state.pool with idle := idle }
                               closed := conn :: state.closed } := by
                simp only [closingStep, closerStep, draining, gets, if_neg closed]
              rw [List.map_cons, List.map_cons, List.foldl_cons, List.foldl_cons, stepped]
              refine ih _ outcomes rfl draining (fun later member => ?_) ?_
              · exact expected later (List.mem_cons_of_mem _ (List.mem_cons_of_mem _ member))
              · simp only [List.length_cons] at enough
                omega

/-- Whatever happened before: when no thread is in `cursor` and `close` is at the head of its loop,
it comes to its end and closes every connection that was ever opened, but for those abandoned by
a failed validation. -/
theorem quiet_close_closes_all (size : ℤ) (run : List (ClosingTurn ι)) (outcomes : List Outcome)
    (draining : (run.foldl closingStep (.init size : ClosingState ι)).closer = .draining)
    (quiet : ∀ thread, (run.foldl closingStep (.init size : ClosingState ι)).phase thread = .outside)
    (expected : ∀ outcome ∈ outcomes, outcome ≠ .raisesOther)
    (enough : 2 * (run.foldl closingStep (.init size : ClosingState ι)).pool.idle.length <
      outcomes.length) :
    let after :=
      (run ++ outcomes.map ClosingTurn.closer).foldl closingStep (.init size : ClosingState ι)
    after.closer = .returned ∧ after.pool.idle = [] ∧
      ∀ conn < after.pool.opened, conn ∈ after.closed ∨ conn ∈ after.abandoned := by
  intro after
  have places := places_eq size (run ++ outcomes.map ClosingTurn.closer : List (ClosingTurn ι))
  have ends := closer_alone _ (run.foldl closingStep (.init size : ClosingState ι)) outcomes rfl
    draining expected enough
  have afterEq : after = (outcomes.map ClosingTurn.closer).foldl closingStep
      (run.foldl closingStep (.init size : ClosingState ι)) := List.foldl_append
  rw [← afterEq] at ends
  obtain ⟨returned, empty, samePhase⟩ := ends
  refine ⟨returned, empty, fun conn opened => ?_⟩
  have between : after.closer.holds conn = false := by
    rw [returned]
    rfl
  rcases ended_of_empty (places conn) empty between opened with closed | abandoned | ⟨thread, holding⟩
  · exact Or.inl closed
  · exact Or.inr abandoned
  · rw [samePhase, quiet thread] at holding
    cases holding

end Runs

def pooledOnce : List (ClosingTurn Unit) := List.replicate 5 (.thread ⟨(), .returns⟩)

theorem pooledOnce_closed :
    let outcomes := [Outcome.returns, .raisesError, .returns]
    let after := (pooledOnce ++ outcomes.map ClosingTurn.closer).foldl closingStep (.init 5)
    after.closer = .returned ∧ after.pool.idle = [] ∧
      ∀ conn < after.pool.opened, conn ∈ after.closed ∨ conn ∈ after.abandoned :=
  quiet_close_closes_all 5 pooledOnce [.returns, .raisesError, .returns] (by decide) (by decide)
    (by decide) (by decide)

end SupernoteTaskService
