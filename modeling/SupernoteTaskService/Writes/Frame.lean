import SupernoteTaskService.Repository.Operations

/-!
# What operations leave alone

Over any run of repository operations no row of either table disappears, and a row
that is soft-deleted or not the exposed user's keeps every column.  Each operation
touches at most the one row that it is given.
-/

set_option autoImplicit false

namespace SupernoteTaskService

open Foundation

/-! ## One operation -/

def Gained {ρ : Type} (before after : List ρ) (row : ρ) : Prop :=
  row ∉ before ∧ ∀ other, other ∈ after ↔ other ∈ before ∨ other = row

section Step
variable (db : Database) (store after : Store)

/-- At most the task of the id changed, which was active and had the version. -/
def TouchesTask (taskId : Text) (expected : Option ℤ) : Prop :=
  after = store ∨ after.lists = store.lists ∧
    ∃ old new, store.tasks.get taskId = some old ∧ old.userId = some db.userId ∧
      old.isDeleted = some NO ∧
      (∀ version, expected = some version → old.lastModified = some version) ∧
      ∀ k, after.tasks.get k = if k = taskId then some new else store.tasks.get k

def TouchesList (listId : Text) (expected : Option ℤ) : Prop :=
  after = store ∨ after.tasks = store.tasks ∧
    ∃ old new, store.lists.get listId = some old ∧ old.userId = some db.userId ∧
      old.isDeleted = some NO ∧
      (∀ version, expected = some version → old.lastModified = some version) ∧
      ∀ k, after.lists.get k = if k = listId then some new else store.lists.get k

/-- What each operation may touch.  A create adds one row when its id is free, and
nothing otherwise. -/
def StepFrame : Operation → Prop
  | .createTask taskId _ =>
      (store.tasks.get taskId = none → after.lists = store.lists ∧
        ∃ row, row.taskId = taskId ∧ Gained store.tasks.rows after.tasks.rows row) ∧
      (store.tasks.get taskId ≠ none → after = store)
  | .createList listId _ =>
      (store.lists.get listId = none → after.tasks = store.tasks ∧
        ∃ row, row.taskListId = listId ∧ Gained store.lists.rows after.lists.rows row) ∧
      (store.lists.get listId ≠ none → after = store)
  | .updateTask _ taskId _ expected => TouchesTask db store after taskId expected
  | .setStatus _ taskId _ expected => TouchesTask db store after taskId expected
  | .deleteTask taskId expected => TouchesTask db store after taskId expected
  | .updateList listId _ expected => TouchesList db store after listId expected
  | .deleteList listId expected => TouchesList db store after listId expected
  | _ => after = store

end Step

section Statements
variable (db : Database) (store : Store) (now : ℤ)

theorem touchesTask_execute (expected : Option ℤ) (sets : List TaskSet) (taskId : Text) :
    TouchesTask db store (executeTaskUpdate db store expected sets taskId).2 taskId expected := by
  rcases executeTaskUpdate_cases db store expected sets taskId with
    refused | ⟨old, after, found, active, version, -, executed, lists, frame⟩
  · rw [refused]
    exact Or.inl rfl
  · rw [executed]
    obtain ⟨owned, notDeleted⟩ := TaskRow.isActive_iff.mp active
    exact Or.inr ⟨lists, old, _, found, owned, notDeleted, versionMatches_iff.mp version, frame⟩

theorem touchesList_execute (expected : Option ℤ) (sets : List ListSet) (listId : Text) :
    TouchesList db store (executeListUpdate db store expected sets listId).2 listId expected := by
  rcases executeListUpdate_cases db store expected sets listId with
    refused | ⟨old, after, found, active, version, -, executed, tasks, frame⟩
  · rw [refused]
    exact Or.inl rfl
  · rw [executed]
    obtain ⟨owned, notDeleted⟩ := ListRow.isActive_iff.mp active
    exact Or.inr ⟨tasks, old, _, found, owned, notDeleted, versionMatches_iff.mp version, frame⟩

theorem touchesTask_update (statusNow : ℤ) (taskId : Text) (data : TaskUpdate)
    (expected : Option ℤ) :
    TouchesTask db store (updateTask db store statusNow now taskId data expected).2 taskId
      expected := by
  by_cases nothing : updateSets data statusNow = []
  · exact Or.inl (updateTask_of_no_sets db store now statusNow nothing)
  · rw [updateTask_of_sets db store now statusNow nothing]
    exact touchesTask_execute db store expected _ taskId

theorem frame_createTask (taskId : Text) (data : TaskCreate) :
    StepFrame db store ((Operation.createTask taskId data).run db store now).2
      (.createTask taskId data) := by
  simp only [StepFrame, Operation.run]
  rcases createTask_cases db store now taskId data with
    ⟨refused, taken⟩ | ⟨after, created, free, effect⟩
  · rw [refused]
    exact ⟨fun free => absurd free taken, fun _ => rfl⟩
  · rw [created]
    refine ⟨fun _ => ⟨effect.lists, newTaskRow db store taskId now data, rfl, ?_⟩,
      fun taken => absurd free taken⟩
    exact KeyedTable.gained_of_frame effect.frame free

theorem frame_createList (listId title : Text) :
    StepFrame db store ((Operation.createList listId title).run db store now).2
      (.createList listId title) := by
  simp only [StepFrame, Operation.run]
  rcases createList_cases db store now listId title with
    ⟨refused, taken⟩ | ⟨after, created, free, effect⟩
  · rw [refused]
    exact ⟨fun free => absurd free taken, fun _ => rfl⟩
  · rw [created]
    refine ⟨fun _ => ⟨effect.tasks, newListRow db listId now title, rfl, ?_⟩,
      fun taken => absurd free taken⟩
    exact KeyedTable.gained_of_frame effect.frame free

theorem Operation.step_frame (operation : Operation) :
    StepFrame db store (operation.run db store now).2 operation := by
  cases operation with
  | listTasks query => rfl
  | getTask taskId => rfl
  | createTask taskId data => exact frame_createTask db store now taskId data
  | updateTask statusNow taskId data expected =>
      exact touchesTask_update db store now statusNow taskId data expected
  | setStatus statusNow taskId status expected =>
      exact touchesTask_update db store now statusNow taskId (.ofStatus status) expected
  | deleteTask taskId expected => exact touchesTask_execute db store expected _ taskId
  | taskExists taskId => rfl
  | listLists query => rfl
  | getList listId => rfl
  | listExists listId => rfl
  | getListByTitle title => rfl
  | createList listId title => exact frame_createList db store now listId title
  | updateList listId title expected => exact touchesList_execute db store expected _ listId
  | deleteList listId expected => exact touchesList_execute db store expected _ listId

end Statements

/-! ## Runs of operations -/

section Run
variable (db : Database)

/-- A soft-deleted row, or one that is not the exposed user's. -/
def TaskRow.Frozen (row : TaskRow) : Prop :=
  row.isDeleted = some YES ∨ row.userId ≠ some db.userId

def ListRow.Frozen (row : ListRow) : Prop :=
  row.isDeleted = some YES ∨ row.userId ≠ some db.userId

/-- No row of either table is gone, and the frozen ones are as they were. -/
structure RowsKept (before after : Store) : Prop where
  tasks : KeyedTable.Keeps (TaskRow.Frozen db) before.tasks after.tasks
  lists : KeyedTable.Keeps (ListRow.Frozen db) before.lists after.lists

variable {db}

theorem TaskRow.not_frozen_of_active {row : TaskRow} (active : row.isActive db.userId = true) :
    ¬ row.Frozen db := by
  obtain ⟨owned, notDeleted⟩ := TaskRow.isActive_iff.mp active
  rintro (deleted | foreign)
  · rw [notDeleted] at deleted
    cases deleted
  · exact foreign owned

theorem ListRow.not_frozen_of_active {row : ListRow} (active : row.isActive db.userId = true) :
    ¬ row.Frozen db := by
  obtain ⟨owned, notDeleted⟩ := ListRow.isActive_iff.mp active
  rintro (deleted | foreign)
  · rw [notDeleted] at deleted
    cases deleted
  · exact foreign owned

theorem RowsKept.refl (store : Store) : RowsKept db store store :=
  ⟨KeyedTable.Keeps.refl store.tasks, KeyedTable.Keeps.refl store.lists⟩

theorem RowsKept.trans {first second third : Store} (left : RowsKept db first second)
    (right : RowsKept db second third) : RowsKept db first third :=
  ⟨left.tasks.trans right.tasks, left.lists.trans right.lists⟩

variable (db) in
theorem rowsKept_step (store : Store) (now : ℤ) (operation : Operation) :
    RowsKept db store (operation.run db store now).2 := by
  have shape := operation.step_shape db store now
  generalize (operation.run db store now).2 = after at shape ⊢
  cases shape with
  | unchanged => exact .refl store
  | taskCreated taskId data after isCreate free effect =>
      refine ⟨KeyedTable.keeps_of_frame effect.frame fun old found => ?_, ?_⟩
      · rw [show store.tasks.get (newTaskRow db store taskId now data).taskId = none from free]
          at found
        cases found
      · rw [effect.lists]
        exact .refl store.lists
  | taskRewritten taskId rewrite old after isTarget isRewrite found active version effect =>
      have sameKey := (Operation.rewriteTask_keeps isRewrite old).1
      have oldKey := ((store.tasks.get_eq_some_iff taskId old).mp found).2
      refine ⟨KeyedTable.keeps_of_frame effect.frame fun other isOther => ?_, ?_⟩
      · rw [sameKey, oldKey, found] at isOther
        cases isOther
        exact TaskRow.not_frozen_of_active active
      · rw [effect.lists]
        exact .refl store.lists
  | listCreated listId title after isCreate free effect =>
      refine ⟨?_, KeyedTable.keeps_of_frame effect.frame fun old found => ?_⟩
      · rw [effect.tasks]
        exact .refl store.tasks
      · rw [show store.lists.get (newListRow db listId now title).taskListId = none from free]
          at found
        cases found
  | listRewritten listId rewrite old after isTarget isRewrite found active version effect =>
      have sameKey := (Operation.rewriteList_keeps isRewrite old).1
      have oldKey := ((store.lists.get_eq_some_iff listId old).mp found).2
      refine ⟨?_, KeyedTable.keeps_of_frame effect.frame fun other isOther => ?_⟩
      · rw [effect.tasks]
        exact .refl store.tasks
      · rw [sameKey, oldKey, found] at isOther
        cases isOther
        exact ListRow.not_frozen_of_active active

end Run

/-- In every run of operations, each step touches no more than its operation may, and
every reached store still has the rows it started with, the soft-deleted and the
foreign ones in every column. -/
theorem operations_frame (db : Database) (start : Store) (run : List (Timed Operation)) :
    (∀ state call rest, Happens (operationStep db) start run state call rest →
      StepFrame db state (operationStep db state call) call.event) ∧
    ∀ reached ∈ run.scanl (operationStep db) start, RowsKept db start reached := by
  constructor
  · intro state call rest _
    exact call.event.step_frame db state call.clock
  · refine invariant_of_scanl (RowsKept db start) (.refl start) ?_
    intro state call rest _ kept
    exact kept.trans (rowsKept_step db state call.clock call.event)

end SupernoteTaskService
