import SupernoteTaskService.Repository.Operations

/-!
# Well-formed rows

What the API promises of a task row, column by column.  The status and the completion
time are one clause, since an update writes both or neither.  A partial update keeps
every clause whatever subset of fields it names and whichever of them are null.
-/

set_option autoImplicit false

namespace SupernoteTaskService

open Foundation

/-- The columns that the API writes, in the form in which it writes them. -/
structure TaskRow.WellFormed (row : TaskRow) : Prop where
  status : ∃ status : TaskStatus, row.status = some status.value ∧
    ∃ completedTime, row.completedTime = some completedTime ∧
      (0 < completedTime ↔ status = .completed) ∧ (status ≠ .completed → completedTime = 0)
  importance : ∀ importance, row.importance = some importance →
    ∃ level : Importance, importance = pythonStr level.value
  sort : ∃ sort, row.sort = some sort ∧ 0 ≤ sort
  detail : ∃ detail, row.detail = some detail ∧ detail.length ≤ 255 ∧ BasicPlane detail
  title : ∃ title, row.title = some title ∧ title ≠ [] ∧ BasicPlane title
  taskListId : ∀ listId, row.taskListId = some listId → idPattern listId = true
  isDeleted : row.isDeleted = some YES ∨ row.isDeleted = some NO

def Store.TasksWellFormed (store : Store) : Prop := ∀ row ∈ store.tasks.rows, row.WellFormed

/-! ## One column at a time -/

theorem status_completedTime (status : TaskStatus) {now : ℤ} (positive : 0 < now) :
    (0 < (if status = .completed then now else 0) ↔ status = .completed) ∧
      (status ≠ .completed → (if status = .completed then now else 0) = 0) := by
  cases status with
  | needsAction => exact ⟨iff_of_false (lt_irrefl 0) (fun same => by cases same), fun _ => rfl⟩
  | completed => exact ⟨iff_of_true positive rfl, fun different => absurd rfl different⟩

theorem encodeDetail_stored (detail : Text) :
    (encodeDetail detail).length ≤ 255 ∧ BasicPlane (encodeDetail detail) := by
  have bound := encodeDetailFrom_length_le detail 0 (Nat.zero_le _)
  rw [Nat.zero_add] at bound
  exact ⟨bound, encodeDetailFrom_basicPlane detail 0⟩

theorem encodeEmoji_stored {maxLength : ℕ} (title : BoundedText 1 maxLength) :
    encodeEmoji title.text ≠ [] ∧ BasicPlane (encodeEmoji title.text) := by
  refine ⟨encodeEmoji_ne_nil fun empty => ?_, encodeEmoji_basicPlane title.text⟩
  have nonempty := title.bounds.1
  rw [empty, List.length_nil] at nonempty
  omega

/-! ## Rows that the API writes -/

section Rows
variable {now statusNow : ℤ} {row : TaskRow}

theorem newTaskRow_wellFormed (db : Database) {store : Store} (taskId : Text) (data : TaskCreate)
    (positive : 0 < now) (wellFormed : store.TasksWellFormed) :
    (newTaskRow db store taskId now data).WellFormed where
  status := ⟨data.status, rfl, _, rfl, status_completedTime data.status positive⟩
  importance := by
    intro importance stored
    obtain ⟨level, -, rfl⟩ := Option.map_eq_some_iff.mp stored
    exact ⟨level, rfl⟩
  sort := by
    refine ⟨_, rfl, ?_⟩
    cases data.sort with
    | some sort => exact Int.natCast_nonneg sort
    | none =>
        refine nextSort_nonneg fun sibling member _ _ sort placed => ?_
        obtain ⟨position, isPosition, nonneg⟩ := (wellFormed sibling member).sort
        rw [isPosition] at placed
        cases placed
        exact nonneg
  detail := ⟨_, rfl, encodeDetail_stored data.detail.text⟩
  title := ⟨_, rfl, encodeEmoji_stored data.title⟩
  taskListId := by
    intro listId stored
    obtain ⟨list, -, rfl⟩ := Option.map_eq_some_iff.mp stored
    exact list.pattern
  isDeleted := Or.inr rfl

theorem updatedRow_wellFormed (data : TaskUpdate) (now : ℤ) (positive : 0 < statusNow)
    (wellFormed : row.WellFormed) : (updatedRow data statusNow now row).WellFormed where
  status := by
    simp only [updatedRow]
    cases data.status with
    | omitted => exact wellFormed.status
    | null => exact wellFormed.status
    | given status => exact ⟨status, rfl, _, rfl, status_completedTime status positive⟩
  importance := by
    simp only [updatedRow]
    cases data.importance with
    | omitted => exact wellFormed.importance
    | null => exact fun importance stored => by cases stored
    | given level => exact fun importance stored => ⟨level, (Option.some.inj stored).symm⟩
  sort := by
    simp only [updatedRow]
    cases data.sort with
    | omitted => exact wellFormed.sort
    | null => exact wellFormed.sort
    | given sort => exact ⟨sort, rfl, Int.natCast_nonneg sort⟩
  detail := by
    simp only [updatedRow]
    cases data.detail with
    | omitted => exact wellFormed.detail
    | null => exact wellFormed.detail
    | given detail => exact ⟨_, rfl, encodeDetail_stored detail.text⟩
  title := by
    simp only [updatedRow]
    cases data.title with
    | omitted => exact wellFormed.title
    | null => exact wellFormed.title
    | given title => exact ⟨_, rfl, encodeEmoji_stored title⟩
  taskListId := by
    simp only [updatedRow]
    cases data.listId with
    | omitted => exact wellFormed.taskListId
    | null => exact fun listId stored => by cases stored
    | given list =>
        intro listId stored
        cases stored
        exact list.pattern
  isDeleted := wellFormed.isDeleted

theorem deletedRow_wellFormed (wellFormed : row.WellFormed) :
    { row with isDeleted := some YES, lastModified := some now : TaskRow }.WellFormed :=
  { wellFormed with isDeleted := Or.inl rfl }

end Rows

/-! ## Runs -/

def Operation.statusReading : Operation → Option ℤ
  | .updateTask statusNow _ _ _ => some statusNow
  | .setStatus statusNow _ _ _ => some statusNow
  | _ => none

/-- Every clock reading of the step is positive. -/
def PositiveReadings (step : Timed Operation) : Prop :=
  0 < step.clock ∧ ∀ reading ∈ step.event.statusReading, 0 < reading

instance (step : Timed Operation) : Decidable (PositiveReadings step) :=
  inferInstanceAs (Decidable (_ ∧ _))

theorem rewriteTask_wellFormed {step : Timed Operation} {rewrite : TaskRow → TaskRow}
    (positive : PositiveReadings step) (isRewrite : step.event.rewriteTask step.clock = some rewrite)
    {row : TaskRow} (wellFormed : row.WellFormed) : (rewrite row).WellFormed := by
  obtain ⟨clock, event⟩ := step
  cases event with
  | updateTask statusNow taskId data expected =>
      simp only [Operation.rewriteTask] at isRewrite
      split at isRewrite
      · cases isRewrite
      · cases isRewrite
        exact updatedRow_wellFormed data clock (positive.2 statusNow rfl) wellFormed
  | setStatus statusNow taskId status expected =>
      cases isRewrite
      exact updatedRow_wellFormed (.ofStatus status) clock (positive.2 statusNow rfl) wellFormed
  | deleteTask taskId expected =>
      cases isRewrite
      exact deletedRow_wellFormed wellFormed
  | _ => cases isRewrite

theorem tasksWellFormed_step (db : Database) {store : Store} {step : Timed Operation}
    (positive : PositiveReadings step) (wellFormed : store.TasksWellFormed) :
    (operationStep db store step).TasksWellFormed := by
  have shape := step.event.step_shape db store step.clock
  rw [← operationStep] at shape
  generalize operationStep db store step = after at shape ⊢
  cases shape with
  | unchanged => exact wellFormed
  | taskCreated taskId data after isCreate free effect =>
      intro row member
      rcases (effect.mem_iff row).mp member with rfl | ⟨stored, -⟩
      · exact newTaskRow_wellFormed db taskId data positive.1 wellFormed
      · exact wellFormed row stored
  | taskRewritten taskId rewrite old after isTarget isRewrite found active version effect =>
      intro row member
      rcases (effect.mem_iff row).mp member with rfl | ⟨stored, -⟩
      · have oldStored := ((store.tasks.get_eq_some_iff taskId old).mp found).1
        exact rewriteTask_wellFormed positive isRewrite (wellFormed old oldStored)
      · exact wellFormed row stored
  | listCreated listId title after isCreate free effect =>
      rw [Store.TasksWellFormed, effect.tasks]
      exact wellFormed
  | listRewritten listId rewrite old after isTarget isRewrite found active version effect =>
      rw [Store.TasksWellFormed, effect.tasks]
      exact wellFormed

/-- From a table of well-formed tasks, every run of operations at positive clock
readings reaches well-formed tasks only. -/
theorem tasks_stay_wellFormed (db : Database) {start : Store} {run : List (Timed Operation)}
    (initial : start.TasksWellFormed) (positive : ∀ step ∈ run, PositiveReadings step) :
    ∀ reached ∈ run.scanl (operationStep db) start, reached.TasksWellFormed :=
  invariant_of_scanl Store.TasksWellFormed initial fun _ step _ occurs wellFormed =>
    tasksWellFormed_step db (positive step occurs.mem) wellFormed

theorem empty_tasksWellFormed : Store.empty.TasksWellFormed :=
  fun _ member => absurd member List.not_mem_nil

/-- A task is created, completed and deleted. -/
theorem tasks_stay_wellFormed_lifecycle :
    Store.empty.TasksWellFormed ∧
    ∀ reached ∈ ([⟨1000, .createTask ['a'] titleOnly⟩, ⟨2000, .setStatus 1999 ['a'] .completed none⟩,
      ⟨3000, .deleteTask ['a'] (some 2000)⟩] : List (Timed Operation)).scanl
        (operationStep singleUser) .empty, reached.TasksWellFormed :=
  ⟨empty_tasksWellFormed, tasks_stay_wellFormed singleUser empty_tasksWellFormed (by decide)⟩

end SupernoteTaskService
