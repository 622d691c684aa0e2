import SupernoteTaskService.Repository.Writes

/-!
# Rows that can be read back

One row that does not map makes every page that holds it fail.  A write keeps its row
readable exactly when the instants that it stores lie before the year 10000 in UTC:
validation bounds the calendar date-time of `due` and not the instant.
-/

set_option autoImplicit false

namespace SupernoteTaskService

open Foundation

/-! ## One write -/

/-- Every instant that the write stores can be shown. -/
def TaskWrite.InstantsInRange (now : ℤ) : TaskWrite → Prop
  | .create _ data =>
      dtToMs data.due ≤ lastInstantMs ∧ (data.status = .completed → now ≤ lastInstantMs)
  | .update _ data _ =>
      (∀ due, data.due = .given due → datetimeToMs due ≤ lastInstantMs) ∧
        (data.status = .given .completed → now ≤ lastInstantMs)
  | .setStatus _ status _ => status = .completed → now ≤ lastInstantMs
  | .delete _ _ => True

theorem statusOf_value (status : TaskStatus) : statusOf (some status.value) = .ok status := by
  rw [statusOf, TaskStatus.ofValue_value]

theorem newTaskRow_readable_iff (db : Database) (store : Store) (taskId : Text) (ts : ℤ)
    (data : TaskCreate) :
    Readable db.linkModel (newTaskRow db store taskId ts data) ↔
      dtToMs data.due ≤ lastInstantMs ∧ (data.status = .completed → ts ≤ lastInstantMs) := by
  constructor
  · intro readable
    refine ⟨readable.due, fun completed => ?_⟩
    have shown := readable.completed
    rw [newTaskRow, completed] at shown
    exact shown
  · intro ⟨due, completed⟩
    refine ⟨⟨_, documentLinkOf_encode _ data.documentLink⟩, ⟨_, statusOf_value data.status⟩, due,
      ?_⟩
    rw [newTaskRow, Option.getD_some]
    by_cases isCompleted : data.status = .completed
    · rw [if_pos isCompleted]
      exact completed isCompleted
    · rw [if_neg isCompleted]
      decide

/-- A partial update of a readable row leaves it readable exactly when the instants
that it sets are in range. -/
theorem updatedRow_readable_iff {linkModel : LinkModel} {row : TaskRow}
    (readable : Readable linkModel row) (data : TaskUpdate) (now : ℤ) :
    Readable linkModel (updatedRow data now now row) ↔
      (∀ due, data.due = .given due → datetimeToMs due ≤ lastInstantMs) ∧
        (data.status = .given .completed → now ≤ lastInstantMs) := by
  constructor
  · intro after
    refine ⟨fun due given => ?_, fun given => ?_⟩
    · have shown := after.due
      simp only [updatedRow, given] at shown
      exact shown
    · have shown := after.completed
      simp only [updatedRow, given] at shown
      exact shown
  · intro ⟨due, completed⟩
    refine ⟨?_, ?_, ?_, ?_⟩
    · unfold updatedRow
      cases data.documentLink with
      | omitted => exact readable.link
      | null => exact ⟨none, rfl⟩
      | given link => exact ⟨some link, documentLinkOf_encode _ (some link)⟩
    · unfold updatedRow
      cases data.status with
      | omitted => exact readable.status
      | null => exact readable.status
      | given status => exact ⟨status, statusOf_value status⟩
    · unfold updatedRow
      cases given : data.due with
      | omitted => exact readable.due
      | null => exact (by decide : (0 : ℤ) ≤ lastInstantMs)
      | given value => exact due value given
    · unfold updatedRow
      cases given : data.status with
      | omitted => exact readable.completed
      | null => exact readable.completed
      | given status =>
          by_cases isCompleted : status = .completed
          · rw [isCompleted] at given
            simpa [isCompleted] using completed given
          · simp [isCompleted, lastInstantMs]

theorem TaskWrite.assigned_readable_iff {linkModel : LinkModel} {row : TaskRow}
    (readable : Readable linkModel row) (write : TaskWrite) (now : ℤ)
    (something : write.sets now ≠ []) :
    Readable linkModel (row.assign (write.sets now ++ [.lastModified now])) ↔
      write.InstantsInRange now := by
  cases write with
  | create taskId data => exact absurd rfl something
  | update taskId data expected =>
      rw [TaskWrite.sets, assign_updateSets]
      exact updatedRow_readable_iff readable data now
  | setStatus taskId status expected =>
      rw [TaskWrite.sets, assign_updateSets, updatedRow_readable_iff readable]
      constructor
      · intro ⟨_, completed⟩ isCompleted
        exact completed (congrArg Field.given isCompleted)
      · intro completed
        refine ⟨fun due given => ?_, fun given => completed (Field.given.inj given)⟩
        cases given
  | delete taskId expected =>
      refine iff_of_true ?_ trivial
      exact ⟨readable.link, readable.status, readable.due, readable.completed⟩

/-! ## Runs of writes -/

def Sound (db : Database) (store : Store) (taskId : Text) : Prop :=
  ∀ row, store.tasks.get taskId = some row → Readable db.linkModel row

theorem sound_empty (db : Database) (taskId : Text) : Sound db .empty taskId := by
  intro row found
  cases found

section Run
variable {db : Database} {store : Store} {step : Timed TaskWrite} {taskId : Text}

/-- A write that takes effect keeps the row sound exactly when its instants are in range. -/
theorem sound_writeStep_iff (sound : Sound db store taskId)
    (effect : TakesEffect db store step taskId) :
    Sound db (writeStep db store step) taskId ↔ step.event.InstantsInRange step.clock := by
  unfold TakesEffect writeStep at effect
  unfold Sound writeStep
  rcases step.event.written_cases db store step.clock with
    same | ⟨newId, data, after, isCreate, -, ran, written⟩ |
      ⟨old, after, something, found, -, ran, written⟩
  · rw [same] at effect
    exact absurd rfl effect
  · rw [ran] at effect ⊢
    dsimp only at effect ⊢
    rw [written.frame taskId] at effect ⊢
    by_cases target : taskId = (newTaskRow db store newId step.clock data).taskId
    · simp only [if_pos target, Option.some.injEq, forall_eq']
      rw [newTaskRow_readable_iff, isCreate]
      rfl
    · rw [if_neg target] at effect
      exact absurd rfl effect
  · rw [ran] at effect ⊢
    dsimp only at effect ⊢
    rw [written.frame taskId] at effect ⊢
    have oldKey := ((store.tasks.get_eq_some_iff step.event.taskId old).mp found).2
    rw [TaskRow.assign_taskId, oldKey] at effect ⊢
    by_cases target : taskId = step.event.taskId
    · simp only [if_pos target, Option.some.injEq, forall_eq']
      rw [← target] at found
      exact step.event.assigned_readable_iff (sound old found) step.clock something
    · rw [if_neg target] at effect
      exact absurd rfl effect

theorem sound_of_no_effect (sound : Sound db store taskId)
    (none : ¬ TakesEffect db store step taskId) : Sound db (writeStep db store step) taskId := by
  unfold TakesEffect at none
  rw [not_not] at none
  unfold Sound
  rw [none]
  exact sound

/-- Rows that can be read back make every read succeed. -/
structure ReadsSucceed (db : Database) (store : Store) : Prop where
  getTask : ∀ taskId, ∃ found, getTask db store taskId = .ok found
  listTasks : ∀ serverNow query, ∃ page, listTasks db store serverNow query = .ok page

theorem readsSucceed_of_sound (sound : ∀ taskId, Sound db store taskId) : ReadsSucceed db store := by
  have renders : ∀ row ∈ store.tasks.rows, ∃ task, store.task db row = .ok task := by
    intro row member
    have found := (store.tasks.get_eq_some_iff row.taskId row).mpr ⟨member, rfl⟩
    exact (rowToTask_ok_iff (store.join row)).mpr (sound row.taskId row found)
  constructor
  · intro taskId
    rw [getTask]
    cases active : activeTask db store taskId with
    | none => exact ⟨none, rfl⟩
    | some row =>
        have found := (Option.filter_eq_some_iff.mp active).1
        obtain ⟨task, mapped⟩ := renders row ((store.tasks.get_eq_some_iff taskId row).mp found).1
        refine ⟨some task, ?_⟩
        dsimp only
        rw [mapped]
        rfl
  · intro serverNow query
    exact assemblePage_answers _ _ _ _ (fun row onPage => renders row (mem_taskPageRows onPage))
      fun last row drained => renders row (mem_drainTasksAt drained)

end Run

/-! ## The law -/

def InstantsInRange (db : Database) (start : Store) (run : List (Timed TaskWrite))
    (taskId : Text) : Prop :=
  ∀ state step rest, Happens (writeStep db) start run state step rest →
    TakesEffect db state step taskId → step.event.InstantsInRange step.clock

/-- A row that no write found unreadable stays readable through a run of writes
exactly when their instants are in range; where that is so of all rows, no read of a
reached state fails. -/
theorem api_rows_readable_iff (db : Database) (start : Store) (run : List (Timed TaskWrite)) :
    (∀ taskId, Sound db start taskId →
      ((∀ reached ∈ run.scanl (writeStep db) start, Sound db reached taskId) ↔
        InstantsInRange db start run taskId)) ∧
    ((∀ taskId, Sound db start taskId) → (∀ taskId, InstantsInRange db start run taskId) →
      ∀ reached ∈ run.scanl (writeStep db) start, ReadsSucceed db reached) := by
  have law : ∀ taskId, Sound db start taskId →
      ((∀ reached ∈ run.scanl (writeStep db) start, Sound db reached taskId) ↔
        InstantsInRange db start run taskId) := by
    intro taskId sound
    refine scanl_invariant_iff (fun state => Sound db state taskId)
      (fun state step => TakesEffect db state step taskId →
        step.event.InstantsInRange step.clock) sound ?_
    intro state step rest occurs soundBefore
    by_cases effect : TakesEffect db state step taskId
    · rw [sound_writeStep_iff soundBefore effect]
      exact ⟨fun inRange _ => inRange, fun inRange => inRange effect⟩
    · exact iff_of_true (sound_of_no_effect soundBefore effect) fun impossible =>
        absurd impossible effect
  refine ⟨law, fun sound inRange reached member => readsSucceed_of_sound fun taskId => ?_⟩
  exact (law taskId (sound taskId)).mpr (inRange taskId) reached member

def createThenComplete : List (Timed TaskWrite) :=
  [⟨1000, .create ['a'] titleOnly⟩, ⟨2000, .setStatus ['a'] .completed none⟩]

theorem created_and_completed_is_readable :
    ReadsSucceed singleUser (createThenComplete.foldl (writeStep singleUser) .empty) := by
  refine (api_rows_readable_iff singleUser .empty createThenComplete).2 (sound_empty singleUser) ?_ _
    (by decide)
  intro taskId
  refine forall_happens_cons_iff.mpr ⟨?_, forall_happens_cons_iff.mpr ⟨?_, forall_happens_nil⟩⟩
  · exact fun _ => ⟨by decide, fun isCompleted => by cases isCompleted⟩
  · exact fun _ _ => by decide

/-- 9999-12-31T23:59:59-01:00, an instant of the year 10000 in UTC. -/
def lateDue : Datetime where
  wall := 253402300799000000
  utcoffset := some (-3600000000)
  wallRange := by decide
  offsetRange := by
    intro offset same
    cases same
    decide

def createLateTask : Timed TaskWrite :=
  ⟨1000, .create ['a'] { titleOnly with due := some lateDue }⟩

/-- The create succeeds, and every read that meets the row fails from then on. -/
theorem late_due_blocks_reads :
    (createLateTask.event.run singleUser .empty createLateTask.clock).1 = true ∧
    Sound singleUser .empty ['a'] ∧
    ¬ Sound singleUser (writeStep singleUser .empty createLateTask) ['a'] ∧
    getTask singleUser (writeStep singleUser .empty createLateTask) ['a'] = .error .valueError ∧
    listTasks singleUser (writeStep singleUser .empty createLateTask) 2000 {} =
      .error .valueError := by
  refine ⟨rfl, sound_empty _ ['a'], fun sound => ?_, rfl, rfl⟩
  have shown := (sound _ rfl).due
  exact absurd shown (by decide)

end SupernoteTaskService
