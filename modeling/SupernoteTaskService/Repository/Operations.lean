import SupernoteTaskService.Repository.Writes

/-!
# Operations as steps

The fourteen operations of the repository as data, with what they return and the
tables they leave.  `OperationShape` lists what an operation can do to the tables, its
guards included; a frame condition or an invariant of both tables is a case analysis
over it.

A partial update takes two readings of the clock, one for `completed_time` and one for
the stamp, and nothing below relates them.
-/

set_option autoImplicit false

namespace SupernoteTaskService

open Foundation

inductive Operation where
  | listTasks (query : TaskQuery)
  | getTask (taskId : Text)
  | createTask (taskId : Text) (data : TaskCreate)
  | updateTask (statusNow : ℤ) (taskId : Text) (data : TaskUpdate)
      (expectedLastModified : Option ℤ)
  | setStatus (statusNow : ℤ) (taskId : Text) (status : TaskStatus)
      (expectedLastModified : Option ℤ)
  | deleteTask (taskId : Text) (expectedLastModified : Option ℤ)
  | taskExists (taskId : Text)
  | listLists (query : ListQuery)
  | getList (listId : Text)
  | listExists (listId : Text)
  | getListByTitle (title : Text)
  | createList (listId title : Text)
  | updateList (listId title : Text) (expectedLastModified : Option ℤ)
  | deleteList (listId : Text) (expectedLastModified : Option ℤ)
  deriving DecidableEq

inductive Returned where
  | tasks (page : Page Task)
  | task (found : Option Task)
  | lists (page : Page TaskList)
  | list (found : Option TaskList)
  | flag (value : Bool)
  | id (created : Text)
  deriving DecidableEq

def Operation.rowId : Operation → Option Text
  | .listTasks _ => none
  | .getTask taskId => some taskId
  | .createTask taskId _ => some taskId
  | .updateTask _ taskId _ _ => some taskId
  | .setStatus _ taskId _ _ => some taskId
  | .deleteTask taskId _ => some taskId
  | .taskExists taskId => some taskId
  | .listLists _ => none
  | .getList listId => some listId
  | .listExists listId => some listId
  | .getListByTitle _ => none
  | .createList listId _ => some listId
  | .updateList listId _ _ => some listId
  | .deleteList listId _ => some listId

def Operation.expected : Operation → Option ℤ
  | .updateTask _ _ _ expected => expected
  | .setStatus _ _ _ expected => expected
  | .deleteTask _ expected => expected
  | .updateList _ _ expected => expected
  | .deleteList _ expected => expected
  | _ => none

/-- What the `UPDATE` of the operation makes of a task, where it has one. -/
def Operation.rewriteTask (now : ℤ) : Operation → Option (TaskRow → TaskRow)
  | .updateTask statusNow _ data _ =>
      if (updateSets data statusNow).isEmpty then none else some (updatedRow data statusNow now)
  | .setStatus statusNow _ status _ => some (updatedRow (.ofStatus status) statusNow now)
  | .deleteTask _ _ =>
      some fun row => { row with isDeleted := some YES, lastModified := some now }
  | _ => none

def Operation.rewriteList (now : ℤ) : Operation → Option (ListRow → ListRow)
  | .updateList _ title _ =>
      some fun row => { row with title := some (encodeEmoji title), lastModified := some now }
  | .deleteList _ _ =>
      some fun row => { row with isDeleted := some YES, lastModified := some now }
  | _ => none

section Step
variable (db : Database) (store : Store) (now : ℤ)

def Operation.run : Operation → Except Raised Returned × Store
  | .listTasks query => ((SupernoteTaskService.listTasks db store now query).map .tasks, store)
  | .getTask taskId => ((SupernoteTaskService.getTask db store taskId).map .task, store)
  | .createTask taskId data =>
      match SupernoteTaskService.createTask db store taskId now data with
      | .ok (taskId, after) => (.ok (.id taskId), after)
      | .error e => (.error e, store)
  | .updateTask statusNow taskId data expected =>
      let written := SupernoteTaskService.updateTask db store statusNow now taskId data expected
      (.ok (.flag written.1), written.2)
  | .setStatus statusNow taskId status expected =>
      let written := SupernoteTaskService.setStatus db store statusNow now taskId status expected
      (.ok (.flag written.1), written.2)
  | .deleteTask taskId expected =>
      let written := SupernoteTaskService.deleteTask db store now taskId expected
      (.ok (.flag written.1), written.2)
  | .taskExists taskId => (.ok (.flag (SupernoteTaskService.taskExists db store taskId)), store)
  | .listLists query => ((SupernoteTaskService.listLists db store now query).map .lists, store)
  | .getList listId => (.ok (.list (SupernoteTaskService.getList db store listId)), store)
  | .listExists listId => (.ok (.flag (SupernoteTaskService.listExists db store listId)), store)
  | .getListByTitle title =>
      (.ok (.list (SupernoteTaskService.getListByTitle db store title)), store)
  | .createList listId title =>
      match SupernoteTaskService.createList db store listId now title with
      | .ok (listId, after) => (.ok (.id listId), after)
      | .error e => (.error e, store)
  | .updateList listId title expected =>
      let written := SupernoteTaskService.updateList db store now listId title expected
      (.ok (.flag written.1), written.2)
  | .deleteList listId expected =>
      let written := SupernoteTaskService.deleteList db store now listId expected
      (.ok (.flag written.1), written.2)

def operationStep (store : Store) (step : Timed Operation) : Store :=
  (step.event.run db store step.clock).2

/-- The five things an operation can do to the tables. -/
inductive OperationShape (operation : Operation) : Store → Prop
  | unchanged : OperationShape operation store
  | taskCreated (taskId : Text) (data : TaskCreate) (after : Store)
      (isCreate : operation = .createTask taskId data) (free : store.tasks.get taskId = none)
      (effect : TaskEffect db store after now (newTaskRow db store taskId now data)) :
      OperationShape operation after
  | taskRewritten (taskId : Text) (rewrite : TaskRow → TaskRow) (old : TaskRow) (after : Store)
      (isTarget : operation.rowId = some taskId)
      (isRewrite : operation.rewriteTask now = some rewrite)
      (found : store.tasks.get taskId = some old) (active : old.isActive db.userId = true)
      (version : versionMatches operation.expected old.lastModified = true)
      (effect : TaskEffect db store after now (rewrite old)) :
      OperationShape operation after
  | listCreated (listId title : Text) (after : Store)
      (isCreate : operation = .createList listId title) (free : store.lists.get listId = none)
      (effect : ListEffect db store after now (newListRow db listId now title)) :
      OperationShape operation after
  | listRewritten (listId : Text) (rewrite : ListRow → ListRow) (old : ListRow) (after : Store)
      (isTarget : operation.rowId = some listId)
      (isRewrite : operation.rewriteList now = some rewrite)
      (found : store.lists.get listId = some old) (active : old.isActive db.userId = true)
      (version : versionMatches operation.expected old.lastModified = true)
      (effect : ListEffect db store after now (rewrite old)) :
      OperationShape operation after

end Step

/-! ## What an operation does -/

section Shape
variable (db : Database) (store : Store) (now : ℤ)

theorem taskUpdate_shape {operation : Operation} {taskId : Text} {rewrite : TaskRow → TaskRow}
    (sets : List TaskSet) (isTarget : operation.rowId = some taskId)
    (isRewrite : operation.rewriteTask now = some rewrite)
    (assigns : ∀ row : TaskRow, row.assign (sets ++ [.lastModified now]) = rewrite row) :
    OperationShape db store now operation
      (executeTaskUpdate db store operation.expected (sets ++ [.lastModified now]) taskId).2 := by
  rcases stampedUpdate_cases db store now operation.expected sets taskId with
    refused | ⟨old, after, found, active, version, executed, effect⟩
  · rw [refused]
    exact .unchanged
  · rw [executed]
    rw [assigns] at effect
    exact .taskRewritten taskId rewrite old after isTarget isRewrite found active version effect

theorem listUpdate_shape {operation : Operation} {listId : Text} {rewrite : ListRow → ListRow}
    (sets : List ListSet) (isTarget : operation.rowId = some listId)
    (isRewrite : operation.rewriteList now = some rewrite)
    (assigns : ∀ row : ListRow, row.assign (sets ++ [.lastModified now]) = rewrite row) :
    OperationShape db store now operation
      (executeListUpdate db store operation.expected (sets ++ [.lastModified now]) listId).2 := by
  rcases stampedListUpdate_cases db store now operation.expected sets listId with
    refused | ⟨old, after, found, active, version, executed, effect⟩
  · rw [refused]
    exact .unchanged
  · rw [executed]
    rw [assigns] at effect
    exact .listRewritten listId rewrite old after isTarget isRewrite found active version effect

theorem updateTask_shape (statusNow : ℤ) (taskId : Text) (data : TaskUpdate)
    (expected : Option ℤ) :
    OperationShape db store now (.updateTask statusNow taskId data expected)
      (updateTask db store statusNow now taskId data expected).2 := by
  by_cases nothing : updateSets data statusNow = []
  · rw [updateTask_of_no_sets db store now statusNow nothing]
    exact .unchanged
  · have isRewrite : Operation.rewriteTask now (.updateTask statusNow taskId data expected) =
        some (updatedRow data statusNow now) := by
      rw [Operation.rewriteTask, if_neg]
      rwa [List.isEmpty_iff]
    rw [updateTask_of_sets db store now statusNow nothing]
    exact taskUpdate_shape db store now _ rfl isRewrite (assign_updateSets data statusNow now)

/-- Every operation has one of the five shapes. -/
theorem Operation.step_shape (operation : Operation) :
    OperationShape db store now operation (operation.run db store now).2 := by
  cases operation with
  | listTasks query => exact .unchanged
  | getTask taskId => exact .unchanged
  | createTask taskId data =>
      simp only [Operation.run]
      rcases createTask_cases db store now taskId data with
        ⟨refused, -⟩ | ⟨after, created, free, effect⟩
      · rw [refused]
        exact .unchanged
      · rw [created]
        exact .taskCreated taskId data after rfl free effect
  | updateTask statusNow taskId data expected =>
      exact updateTask_shape db store now statusNow taskId data expected
  | setStatus statusNow taskId status expected =>
      have named : updateSets (.ofStatus status) statusNow ≠ [] := List.cons_ne_nil _ _
      have written : SupernoteTaskService.updateTask db store statusNow now taskId
          (.ofStatus status) expected = _ := updateTask_of_sets db store now statusNow named
      simp only [Operation.run, SupernoteTaskService.setStatus, written]
      exact taskUpdate_shape db store now _ rfl rfl
        (assign_updateSets (.ofStatus status) statusNow now)
  | deleteTask taskId expected =>
      exact taskUpdate_shape db store now [.isDeleted YES] rfl rfl fun row => rfl
  | taskExists taskId => exact .unchanged
  | listLists query => exact .unchanged
  | getList listId => exact .unchanged
  | listExists listId => exact .unchanged
  | getListByTitle title => exact .unchanged
  | createList listId title =>
      simp only [Operation.run]
      rcases createList_cases db store now listId title with
        ⟨refused, -⟩ | ⟨after, created, free, effect⟩
      · rw [refused]
        exact .unchanged
      · rw [created]
        exact .listCreated listId title after rfl free effect
  | updateList listId title expected =>
      exact listUpdate_shape db store now [.title (encodeEmoji title)] rfl rfl fun row => rfl
  | deleteList listId expected =>
      exact listUpdate_shape db store now [.isDeleted YES] rfl rfl fun row => rfl

variable {now} in
theorem Operation.rewriteTask_keeps {operation : Operation} {rewrite : TaskRow → TaskRow}
    (isRewrite : operation.rewriteTask now = some rewrite) (row : TaskRow) :
    (rewrite row).taskId = row.taskId ∧ (rewrite row).userId = row.userId ∧
      (rewrite row).lastModified = some now := by
  cases operation with
  | updateTask statusNow taskId data expected =>
      rw [Operation.rewriteTask] at isRewrite
      split at isRewrite
      · cases isRewrite
      · cases isRewrite
        exact ⟨rfl, rfl, rfl⟩
  | setStatus statusNow taskId status expected =>
      cases isRewrite
      exact ⟨rfl, rfl, rfl⟩
  | deleteTask taskId expected =>
      cases isRewrite
      exact ⟨rfl, rfl, rfl⟩
  | _ => cases isRewrite

variable {now} in
theorem Operation.rewriteList_keeps {operation : Operation} {rewrite : ListRow → ListRow}
    (isRewrite : operation.rewriteList now = some rewrite) (row : ListRow) :
    (rewrite row).taskListId = row.taskListId ∧ (rewrite row).userId = row.userId ∧
      (rewrite row).lastModified = some now := by
  cases operation with
  | updateList listId title expected =>
      cases isRewrite
      exact ⟨rfl, rfl, rfl⟩
  | deleteList listId expected =>
      cases isRewrite
      exact ⟨rfl, rfl, rfl⟩
  | _ => cases isRewrite

/-- An operation leaves a task as it is, or stamps it with its clock. -/
theorem Operation.get_task_cases (operation : Operation) (taskId : Text) :
    (operation.run db store now).2.tasks.get taskId = store.tasks.get taskId ∨
      ∃ row, (operation.run db store now).2.tasks.get taskId = some row ∧
        row.userId = some db.userId ∧ row.lastModified = some now := by
  have ofEffect : ∀ {after : Store} {row : TaskRow}, TaskEffect db store after now row →
      after.tasks.get taskId = store.tasks.get taskId ∨
        ∃ row, after.tasks.get taskId = some row ∧ row.userId = some db.userId ∧
          row.lastModified = some now := by
    intro after row effect
    rw [effect.frame]
    split
    · exact Or.inr ⟨row, rfl, effect.owned, effect.stamped⟩
    · exact Or.inl rfl
  have shape := operation.step_shape db store now
  generalize (operation.run db store now).2 = after at shape ⊢
  cases shape with
  | unchanged => exact Or.inl rfl
  | taskCreated id data after isCreate free effect => exact ofEffect effect
  | taskRewritten id rewrite old after isTarget isRewrite found active version effect =>
      exact ofEffect effect
  | listCreated listId title after isCreate free effect =>
      rw [effect.tasks]
      exact Or.inl rfl
  | listRewritten listId rewrite old after isTarget isRewrite found active version effect =>
      rw [effect.tasks]
      exact Or.inl rfl

theorem Operation.get_list_cases (operation : Operation) (listId : Text) :
    (operation.run db store now).2.lists.get listId = store.lists.get listId ∨
      ∃ row, (operation.run db store now).2.lists.get listId = some row ∧
        row.userId = some db.userId ∧ row.lastModified = some now := by
  have ofEffect : ∀ {after : Store} {row : ListRow}, ListEffect db store after now row →
      after.lists.get listId = store.lists.get listId ∨
        ∃ row, after.lists.get listId = some row ∧ row.userId = some db.userId ∧
          row.lastModified = some now := by
    intro after row effect
    rw [effect.frame]
    split
    · exact Or.inr ⟨row, rfl, effect.owned, effect.stamped⟩
    · exact Or.inl rfl
  have shape := operation.step_shape db store now
  generalize (operation.run db store now).2 = after at shape ⊢
  cases shape with
  | unchanged => exact Or.inl rfl
  | taskCreated taskId data after isCreate free effect =>
      rw [effect.lists]
      exact Or.inl rfl
  | taskRewritten taskId rewrite old after isTarget isRewrite found active version effect =>
      rw [effect.lists]
      exact Or.inl rfl
  | listCreated id title after isCreate free effect => exact ofEffect effect
  | listRewritten id rewrite old after isTarget isRewrite found active version effect =>
      exact ofEffect effect

end Shape

/-! ## Deletion flags -/

def FlagsSet (store : Store) : Prop :=
  ∀ row ∈ store.tasks.rows, row.isDeleted = some YES ∨ row.isDeleted = some NO

theorem Operation.rewriteTask_isDeleted {operation : Operation} {now : ℤ}
    {rewrite : TaskRow → TaskRow} (isRewrite : operation.rewriteTask now = some rewrite)
    (row : TaskRow) :
    (rewrite row).isDeleted = some YES ∨ (rewrite row).isDeleted = row.isDeleted := by
  cases operation with
  | updateTask statusNow taskId data expected =>
      rw [Operation.rewriteTask] at isRewrite
      split at isRewrite
      · cases isRewrite
      · cases isRewrite
        exact Or.inr rfl
  | setStatus statusNow taskId status expected =>
      cases isRewrite
      exact Or.inr rfl
  | deleteTask taskId expected =>
      cases isRewrite
      exact Or.inl rfl
  | _ => cases isRewrite

theorem FlagsSet.step {db : Database} {store : Store} (flags : FlagsSet store) (now : ℤ)
    (operation : Operation) : FlagsSet (operation.run db store now).2 := by
  have shape := operation.step_shape db store now
  generalize (operation.run db store now).2 = after at shape ⊢
  cases shape with
  | unchanged => exact flags
  | taskCreated taskId data after isCreate free effect =>
      intro row member
      rcases (effect.mem_iff row).mp member with rfl | ⟨stored, -⟩
      · exact Or.inr rfl
      · exact flags row stored
  | taskRewritten taskId rewrite old after isTarget isRewrite found active version effect =>
      intro row member
      rcases (effect.mem_iff row).mp member with rfl | ⟨stored, -⟩
      · rcases Operation.rewriteTask_isDeleted isRewrite old with deleted | kept
        · exact Or.inl deleted
        · rw [kept]
          exact flags old ((store.tasks.get_eq_some_iff taskId old).mp found).1
      · exact flags row stored
  | listCreated listId title after isCreate free effect =>
      rw [FlagsSet, effect.tasks]
      exact flags
  | listRewritten listId rewrite old after isTarget isRewrite found active version effect =>
      rw [FlagsSet, effect.tasks]
      exact flags

end SupernoteTaskService
