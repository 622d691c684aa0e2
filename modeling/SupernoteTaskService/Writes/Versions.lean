import SupernoteTaskService.Repository.Writes

/-!
# Versions of a row

A conditional write carries the `last_modified` that its client has read.  The stamp
of a write is a millisecond and no counter, so two writes of one millisecond leave
the same version, and the second of them is not told from the first.
-/

set_option autoImplicit false

namespace SupernoteTaskService

open Foundation

/-! ## One write -/

section Step
variable (db : Database) (store : Store)

def Refused (step : Timed TaskWrite) : Prop :=
  step.event.run db store step.clock = (false, store)

/-- A conditional write of one statement. -/
structure CarriesVersion (step : Timed TaskWrite) (taskId : Text) (version : ℤ) : Prop where
  target : step.event.taskId = taskId
  expected : step.event.expected = some version
  effective : step.event.sets step.clock ≠ []

/-- The row is there, active, and not yet what the step would make of it. -/
def WouldChange (step : Timed TaskWrite) (taskId : Text) : Prop :=
  ∃ row, store.tasks.get taskId = some row ∧ row.isActive db.userId = true ∧
    row.assign (step.event.sets step.clock ++ [.lastModified step.clock]) ≠ row

def rowVersion (taskId : Text) : Option ℤ := (store.tasks.get taskId).bind TaskRow.lastModified

variable {db store} {step : Timed TaskWrite} {taskId : Text} {version : ℤ}

theorem rowVersion_writeStep :
    rowVersion (writeStep db store step) taskId =
      if TakesEffect db store step taskId then some step.clock else rowVersion store taskId := by
  by_cases effect : TakesEffect db store step taskId
  · rw [if_pos effect]
    unfold TakesEffect at effect
    unfold writeStep rowVersion at *
    rcases step.event.run_cases db store step.clock with same | ⟨row, after, ran, -, written⟩
    · rw [same] at effect
      exact absurd rfl effect
    · rw [ran] at effect ⊢
      dsimp only at effect ⊢
      rw [written.frame taskId] at effect ⊢
      by_cases target : taskId = row.taskId
      · rw [if_pos target, Option.bind_some, written.stamped]
      · rw [if_neg target] at effect
        exact absurd rfl effect
  · rw [if_neg effect, rowVersion, not_not.mp effect, rowVersion]

variable (db store) in
theorem CarriesVersion.run_cases (carries : CarriesVersion step taskId version) :
    Refused db store step ∧ ¬ TakesEffect db store step taskId ∨
      (step.event.run db store step.clock).1 = true ∧ TakesEffect db store step taskId := by
  unfold Refused TakesEffect writeStep
  rw [step.event.run_of_sets db store step.clock carries.effective, carries.target]
  rcases executeTaskUpdate_cases db store step.event.expected
      (step.event.sets step.clock ++ [.lastModified step.clock]) taskId with
    refused | ⟨row, after, found, -, -, changed, executed, -, frame⟩
  · rw [refused]
    exact Or.inl ⟨rfl, not_not.mpr rfl⟩
  · rw [executed]
    refine Or.inr ⟨rfl, ?_⟩
    rw [frame taskId, if_pos rfl, found]
    exact fun same => changed (Option.some.inj same)

theorem CarriesVersion.refused_iff (carries : CarriesVersion step taskId version) :
    Refused db store step ↔ ¬ TakesEffect db store step taskId := by
  rcases carries.run_cases db store with ⟨refused, none⟩ | ⟨accepted, effect⟩
  · exact iff_of_true refused none
  · refine iff_of_false (fun refused => ?_) (not_not.mpr effect)
    rw [Refused] at refused
    rw [refused] at accepted
    cases accepted

/-- A conditional write takes effect exactly on an active row of its version that it
would change. -/
theorem CarriesVersion.takesEffect_iff (carries : CarriesVersion step taskId version) :
    TakesEffect db store step taskId ↔
      rowVersion store taskId = some version ∧ WouldChange db store step taskId := by
  have affected : TakesEffect db store step taskId ↔
      (step.event.run db store step.clock).1 = true := by
    rcases carries.run_cases db store with ⟨refused, none⟩ | ⟨accepted, effect⟩
    · refine iff_of_false none ?_
      rw [refused]
      exact Bool.false_ne_true
    · exact iff_of_true effect accepted
  rw [affected, step.event.run_of_sets db store step.clock carries.effective, carries.expected,
    carries.target, executeTaskUpdate_affected_iff]
  simp only [versionMatches, decide_eq_true_eq, rowVersion, WouldChange]
  constructor
  · intro hit
    obtain ⟨row, found, active, matched, changed⟩ := hit
    rw [found]
    exact ⟨matched, row, rfl, active, changed⟩
  · intro both
    obtain ⟨matched, row, found, active, changed⟩ := both
    rw [found] at matched
    exact ⟨row, found, active, matched, changed⟩

end Step

/-! ## Runs of writes -/

section Run
variable (db : Database)

def Overwritten (store : Store) (run : List (Timed TaskWrite)) (taskId : Text) : Prop :=
  ∃ state step rest, Happens (writeStep db) store run state step rest ∧
    TakesEffect db state step taskId

/-- Some write of the run changes the row, and reads a clock other than `version`. -/
def MovesVersion (store : Store) (run : List (Timed TaskWrite)) (taskId : Text)
    (version : ℤ) : Prop :=
  ∃ state step rest, Happens (writeStep db) store run state step rest ∧
    TakesEffect db state step taskId ∧ step.clock ≠ version

variable {db} {store : Store} {run : List (Timed TaskWrite)} {taskId : Text} {version : ℤ}

theorem version_stays_above (above : ∃ m, rowVersion store taskId = some m ∧ version < m)
    (clocks : ∀ step ∈ run, version < step.clock) :
    ∃ m, rowVersion (run.foldl (writeStep db) store) taskId = some m ∧ version < m := by
  refine (invariant_of_steps
    (fun store => ∃ m, rowVersion store taskId = some m ∧ version < m) above ?_).2
  intro state step rest occurs above
  rw [rowVersion_writeStep]
  by_cases effect : TakesEffect db state step taskId
  · rw [if_pos effect]
    exact ⟨step.clock, rfl, clocks step occurs.mem⟩
  · rw [if_neg effect]
    exact above

theorem version_after_moves (monotone : ClockMonotone run)
    (clocks : ∀ step ∈ run, version ≤ step.clock) (moves : MovesVersion db store run taskId version) :
    ∃ m, rowVersion (run.foldl (writeStep db) store) taskId = some m ∧ version < m := by
  obtain ⟨state, step, rest, occurs, effect, moved⟩ := moves
  have above : version < step.clock := lt_of_le_of_ne (clocks step occurs.mem) moved.symm
  have later := occurs.clock_le monotone
  obtain ⟨before, rfl, rfl⟩ := occurs
  rw [List.foldl_append, List.foldl_cons]
  refine version_stays_above ⟨step.clock, ?_, above⟩ fun next member =>
    above.trans_le (later next member)
  rw [rowVersion_writeStep, if_pos effect]

theorem version_kept (read : rowVersion store taskId = some version)
    (keeps : ¬ MovesVersion db store run taskId version) :
    rowVersion (run.foldl (writeStep db) store) taskId = some version := by
  refine (invariant_of_steps
    (fun store => rowVersion store taskId = some version) read ?_).2
  intro state step rest occurs kept
  rw [rowVersion_writeStep]
  by_cases effect : TakesEffect db state step taskId
  · rw [if_pos effect]
    by_contra moved
    exact keeps ⟨state, step, rest, occurs, effect, fun same => moved (congrArg some same)⟩
  · rw [if_neg effect]
    exact kept

/-- A conditional write at the end of a run is refused exactly when the version has
moved, or the write has nothing to change. -/
theorem refused_after_iff (monotone : ClockMonotone run)
    (clocks : ∀ step ∈ run, version ≤ step.clock)
    (read : rowVersion store taskId = some version) {step : Timed TaskWrite}
    (carries : CarriesVersion step taskId version) :
    Refused db (run.foldl (writeStep db) store) step ↔
      MovesVersion db store run taskId version ∨
        ¬ WouldChange db (run.foldl (writeStep db) store) step taskId := by
  rw [carries.refused_iff, carries.takesEffect_iff]
  by_cases moves : MovesVersion db store run taskId version
  · obtain ⟨m, stamped, above⟩ := version_after_moves monotone clocks moves
    refine iff_of_true (fun both => ?_) (Or.inl moves)
    rw [stamped] at both
    exact above.ne' (Option.some.inj both.1)
  · rw [or_iff_right moves, version_kept read moves]
    simp only [true_and]

theorem version_le_clock {before after : List (Timed TaskWrite)}
    (monotone : ClockMonotone (before ++ after))
    (past : ∀ m, rowVersion store taskId = some m → ∀ step ∈ before ++ after, m ≤ step.clock)
    (read : rowVersion (before.foldl (writeStep db) store) taskId = some version) :
    ∀ step ∈ after, version ≤ step.clock := by
  have settled : ∀ m, rowVersion (before.foldl (writeStep db) store) taskId = some m →
      ∀ step ∈ after, m ≤ step.clock := by
    refine (invariant_of_steps (fun store : Store =>
      ∀ m, rowVersion store taskId = some m → ∀ step ∈ after, m ≤ step.clock) ?_ ?_).2
    · exact fun m stamped step member => past m stamped step (List.mem_append_right before member)
    · intro state step rest occurs settled m stamped next member
      rw [rowVersion_writeStep] at stamped
      by_cases effect : TakesEffect db state step taskId
      · rw [if_pos effect] at stamped
        cases stamped
        exact (occurs.append_right after).clock_le monotone next
          (List.mem_append_right rest member)
      · rw [if_neg effect] at stamped
        exact settled m stamped next member
  exact settled version read

variable (db) in
/-- No two conditional writes of the run that carry `version` change the row. -/
def AtMostOneTakesEffect (store : Store) (run : List (Timed TaskWrite)) (taskId : Text)
    (version : ℤ) : Prop :=
  ∀ first step rest second next remaining,
    Happens (writeStep db) store run first step rest → CarriesVersion step taskId version →
    TakesEffect db first step taskId →
    Happens (writeStep db) (writeStep db first step) rest second next remaining →
    CarriesVersion next taskId version → ¬ TakesEffect db second next taskId

theorem atMostOne_of_moved (monotone : ClockMonotone run)
    (past : ∀ m, rowVersion store taskId = some m → ∀ step ∈ run, m ≤ step.clock)
    (moved : ∀ state step rest, Happens (writeStep db) store run state step rest →
      CarriesVersion step taskId version → TakesEffect db state step taskId →
      step.clock ≠ version) : AtMostOneTakesEffect db store run taskId version := by
  intro first step rest second next remaining firstOccurs carries effect secondOccurs nextCarries
  have stepMoves := moved first step rest firstOccurs carries effect
  have read := (carries.takesEffect_iff.mp effect).1
  obtain ⟨before, rfl, rfl⟩ := firstOccurs
  obtain ⟨between, rfl, rfl⟩ := secondOccurs
  have clocks := version_le_clock monotone past read
  have fromStep := (List.pairwise_append.mp monotone).2.1
  have untilMonotone : ClockMonotone (step :: between) := by
    rw [← List.cons_append] at fromStep
    exact (List.pairwise_append.mp fromStep).1
  refine nextCarries.refused_iff.mp ?_
  refine (refused_after_iff untilMonotone ?_ read nextCarries).mpr (Or.inl ?_)
  · intro other member
    refine clocks other ?_
    rw [← List.cons_append]
    exact List.mem_append_left _ member
  · exact ⟨_, step, between, happens_head, effect, stepMoves⟩

end Run

/-! ## The law -/

/-- A write that carries an overwritten version is refused exactly when the version
has moved since, or the write has nothing to change.  Where every conditional write
that takes effect moves the version, at most one of them does. -/
theorem conditional_writes_law (db : Database) (start : Store) (run : List (Timed TaskWrite))
    (taskId : Text) (version : ℤ) (monotone : ClockMonotone run)
    (past : ∀ m, rowVersion start taskId = some m → ∀ step ∈ run, m ≤ step.clock) :
    (∀ before between step after, run = before ++ (between ++ step :: after) →
      rowVersion (before.foldl (writeStep db) start) taskId = some version →
      Overwritten db (before.foldl (writeStep db) start) between taskId →
      CarriesVersion step taskId version →
      (Refused db ((before ++ between).foldl (writeStep db) start) step ↔
        MovesVersion db (before.foldl (writeStep db) start) between taskId version ∨
          ¬ WouldChange db ((before ++ between).foldl (writeStep db) start) step taskId)) ∧
    ((∀ state step rest, Happens (writeStep db) start run state step rest →
        CarriesVersion step taskId version → TakesEffect db state step taskId →
        step.clock ≠ version) →
      AtMostOneTakesEffect db start run taskId version) := by
  refine ⟨?_, atMostOne_of_moved monotone past⟩
  intro before between step after split read _ carries
  subst split
  have clocks := version_le_clock monotone past read
  have betweenMonotone : ClockMonotone between :=
    (List.pairwise_append.mp (List.pairwise_append.mp monotone).2.1).1
  rw [List.foldl_append]
  exact refused_after_iff betweenMonotone
    (fun other member => clocks other (List.mem_append_left _ member)) read carries

def completeAt1000 : TaskWrite := .setStatus ['a'] .completed (some 1000)

def deleteAt1000 : TaskWrite := .delete ['a'] (some 1000)

theorem conditional_delete_refused_after_1001 :
    Refused singleUser ([⟨1001, completeAt1000⟩].foldl (writeStep singleUser) oneTask)
      ⟨1002, deleteAt1000⟩ := by
  have law := conditional_writes_law singleUser oneTask
    [⟨1001, completeAt1000⟩, ⟨1002, deleteAt1000⟩] ['a'] 1000 (by decide)
    (fun m stamped => by cases stamped; decide)
  have overwritten : TakesEffect singleUser oneTask ⟨1001, completeAt1000⟩ ['a'] := by decide
  refine (law.1 [] [⟨1001, completeAt1000⟩] ⟨1002, deleteAt1000⟩ [] rfl rfl
    ⟨_, _, _, happens_head, overwritten⟩ ⟨rfl, rfl, by decide⟩).mpr (Or.inl ?_)
  exact ⟨_, _, _, happens_head, overwritten, by decide⟩

/-- Two clients read version 1000 and write in that same millisecond: both conditional
writes take effect, and the second does not see the first. -/
theorem two_writes_of_one_version_take_effect :
    rowVersion oneTask ['a'] = some 1000 ∧
    Overwritten singleUser oneTask [⟨1000, completeAt1000⟩] ['a'] ∧
    CarriesVersion ⟨1000, deleteAt1000⟩ ['a'] 1000 ∧
    ¬ Refused singleUser (writeStep singleUser oneTask ⟨1000, completeAt1000⟩)
      ⟨1000, deleteAt1000⟩ ∧
    ¬ AtMostOneTakesEffect singleUser oneTask [⟨1000, completeAt1000⟩, ⟨1000, deleteAt1000⟩]
      ['a'] 1000 := by
  have carries : CarriesVersion ⟨1000, deleteAt1000⟩ ['a'] 1000 := ⟨rfl, rfl, by decide⟩
  have first : TakesEffect singleUser oneTask ⟨1000, completeAt1000⟩ ['a'] := by decide
  have second : TakesEffect singleUser (writeStep singleUser oneTask ⟨1000, completeAt1000⟩)
      ⟨1000, deleteAt1000⟩ ['a'] := by decide
  refine ⟨rfl, ⟨_, _, _, happens_head, first⟩, carries, ?_, ?_⟩
  · rw [carries.refused_iff, not_not]
    exact second
  · intro atMostOne
    exact atMostOne _ _ _ _ _ _ happens_head ⟨rfl, rfl, by decide⟩ first happens_head carries second

end SupernoteTaskService
