import SupernoteTaskService.Foundation.Runs
import SupernoteTaskService.Repository.Tasks
import SupernoteTaskService.Repository.Lists

/-!
# Writes as steps

The seven writes of the repository as data, each an atomic step at one clock
reading.  `TaskWrite.written_cases` and `ListWrite.written_cases` say what such a step
can do; results about runs of writes use them and never unfold a statement.
-/

set_option autoImplicit false

namespace SupernoteTaskService

open Foundation

inductive TaskWrite where
  | create (taskId : Text) (data : TaskCreate)
  | update (taskId : Text) (data : TaskUpdate) (expectedLastModified : Option ℤ)
  | setStatus (taskId : Text) (status : TaskStatus) (expectedLastModified : Option ℤ)
  | delete (taskId : Text) (expectedLastModified : Option ℤ)
  deriving DecidableEq

inductive ListWrite where
  | create (listId title : Text)
  | update (listId title : Text) (expectedLastModified : Option ℤ)
  | delete (listId : Text) (expectedLastModified : Option ℤ)
  deriving DecidableEq

def TaskWrite.taskId : TaskWrite → Text
  | .create taskId _ => taskId
  | .update taskId _ _ => taskId
  | .setStatus taskId _ _ => taskId
  | .delete taskId _ => taskId

def ListWrite.listId : ListWrite → Text
  | .create listId _ => listId
  | .update listId _ _ => listId
  | .delete listId _ => listId

def TaskWrite.expected : TaskWrite → Option ℤ
  | .create _ _ => none
  | .update _ _ expected => expected
  | .setStatus _ _ expected => expected
  | .delete _ expected => expected

def ListWrite.expected : ListWrite → Option ℤ
  | .create _ _ => none
  | .update _ _ expected => expected
  | .delete _ expected => expected

/-- The fragments of the `UPDATE` of the write, before the stamp. -/
def TaskWrite.sets (now : ℤ) : TaskWrite → List TaskSet
  | .create _ _ => []
  | .update _ data _ => updateSets data now
  | .setStatus _ status _ => updateSets (.ofStatus status) now
  | .delete _ _ => [.isDeleted YES]

def ListWrite.sets : ListWrite → List ListSet
  | .create _ _ => []
  | .update _ title _ => [.title (encodeEmoji title)]
  | .delete _ _ => [.isDeleted YES]

section Step
variable (db : Database) (store : Store) (now : ℤ)

def TaskWrite.run : TaskWrite → Bool × Store
  | .create taskId data =>
      match createTask db store taskId now data with
      | .ok (_, after) => (true, after)
      | .error _ => (false, store)
  | .update taskId data expected => updateTask db store now now taskId data expected
  | .setStatus taskId status expected => SupernoteTaskService.setStatus db store now now taskId
      status expected
  | .delete taskId expected => deleteTask db store now taskId expected

def ListWrite.run : ListWrite → Bool × Store
  | .create listId title =>
      match createList db store listId now title with
      | .ok (_, after) => (true, after)
      | .error _ => (false, store)
  | .update listId title expected => updateList db store now listId title expected
  | .delete listId expected => deleteList db store now listId expected

def writeStep (store : Store) (step : Timed TaskWrite) : Store :=
  (step.event.run db store step.clock).2

def TakesEffect (step : Timed TaskWrite) (taskId : Text) : Prop :=
  (writeStep db store step).tasks.get taskId ≠ store.tasks.get taskId

instance (step : Timed TaskWrite) (taskId : Text) : Decidable (TakesEffect db store step taskId) :=
  inferInstanceAs (Decidable (_ ≠ _))

end Step

/-! ## What a step can do -/

/-- The write put `row` under its id, stamped `now`, and touched nothing else. -/
structure TaskEffect (db : Database) (store after : Store) (now : ℤ) (row : TaskRow) : Prop where
  changed : store.tasks.get row.taskId ≠ some row
  stamped : row.lastModified = some now
  owned : row.userId = some db.userId
  frame : ∀ k, after.tasks.get k = if k = row.taskId then some row else store.tasks.get k
  lists : after.lists = store.lists

structure ListEffect (db : Database) (store after : Store) (now : ℤ) (row : ListRow) : Prop where
  changed : store.lists.get row.taskListId ≠ some row
  stamped : row.lastModified = some now
  owned : row.userId = some db.userId
  frame : ∀ k, after.lists.get k = if k = row.taskListId then some row else store.lists.get k
  tasks : after.tasks = store.tasks

theorem ListEffect.mem_iff {db : Database} {store after : Store} {now : ℤ} {row : ListRow}
    (effect : ListEffect db store after now row) (other : ListRow) :
    other ∈ after.lists.rows ↔
      other = row ∨ other ∈ store.lists.rows ∧ other.taskListId ≠ row.taskListId :=
  KeyedTable.mem_iff_of_frame effect.frame other

theorem TaskEffect.mem_iff {db : Database} {store after : Store} {now : ℤ} {row : TaskRow}
    (effect : TaskEffect db store after now row) (other : TaskRow) :
    other ∈ after.tasks.rows ↔
      other = row ∨ other ∈ store.tasks.rows ∧ other.taskId ≠ row.taskId :=
  KeyedTable.mem_iff_of_frame effect.frame other

section TaskCases
variable (db : Database) (store : Store) (now : ℤ)

theorem insertTask_cases (row : TaskRow) (owned : row.userId = some db.userId)
    (stamped : row.lastModified = some now) :
    insertTask store row = .error .databaseError ∧ store.tasks.get row.taskId ≠ none ∨
      ∃ after, insertTask store row = .ok (row.taskId, after) ∧
        store.tasks.get row.taskId = none ∧ TaskEffect db store after now row := by
  unfold insertTask
  rcases store.tasks.insert_cases row with ⟨refused, taken⟩ | ⟨tasks, inserted, free, frame⟩
  · rw [refused]
    exact Or.inl ⟨rfl, taken⟩
  · rw [inserted]
    refine Or.inr ⟨_, rfl, free, ?_, stamped, owned, frame, rfl⟩
    rw [free]
    exact (Option.some_ne_none row).symm

theorem createTask_cases (taskId : Text) (data : TaskCreate) :
    createTask db store taskId now data = .error .databaseError ∧ store.tasks.get taskId ≠ none ∨
      ∃ after, createTask db store taskId now data = .ok (taskId, after) ∧
        store.tasks.get taskId = none ∧
        TaskEffect db store after now (newTaskRow db store taskId now data) :=
  insertTask_cases db store now (newTaskRow db store taskId now data) rfl rfl

theorem stampedUpdate_cases (expected : Option ℤ) (sets : List TaskSet) (taskId : Text) :
    executeTaskUpdate db store expected (sets ++ [.lastModified now]) taskId = (false, store) ∨
      ∃ old after, store.tasks.get taskId = some old ∧ old.isActive db.userId = true ∧
        versionMatches expected old.lastModified = true ∧
        executeTaskUpdate db store expected (sets ++ [.lastModified now]) taskId = (true, after) ∧
        TaskEffect db store after now (old.assign (sets ++ [.lastModified now])) := by
  rcases executeTaskUpdate_cases db store expected (sets ++ [.lastModified now]) taskId with
    nothing | ⟨old, after, found, active, version, changed, executed, lists, frame⟩
  · exact Or.inl nothing
  · have oldKey := ((store.tasks.get_eq_some_iff taskId old).mp found).2
    have newKey := (TaskRow.assign_taskId (sets ++ [.lastModified now]) old).trans oldKey
    refine Or.inr ⟨old, after, found, active, version, executed, ?_, ?_, ?_, ?_, lists⟩
    · rw [newKey, found]
      exact fun same => changed (Option.some.inj same).symm
    · exact TaskRow.assign_lastModified sets now old
    · rw [TaskRow.assign_userId]
      exact (TaskRow.isActive_iff.mp active).1
    · rw [newKey]
      exact frame

/-- An update without fragments reports whether it could have applied, and does nothing. -/
theorem updateTask_of_no_sets {taskId : Text} {data : TaskUpdate} {expected : Option ℤ}
    (statusNow : ℤ) (nothing : updateSets data statusNow = []) :
    (updateTask db store statusNow now taskId data expected).2 = store := by
  unfold updateTask
  rw [nothing, List.isEmpty_nil, if_pos rfl]
  cases expected with
  | none => rfl
  | some expected => rfl

theorem updateTask_of_sets {taskId : Text} {data : TaskUpdate} {expected : Option ℤ}
    (statusNow : ℤ) (something : updateSets data statusNow ≠ []) :
    updateTask db store statusNow now taskId data expected =
      executeTaskUpdate db store expected (updateSets data statusNow ++ [.lastModified now])
        taskId := by
  unfold updateTask
  rw [if_neg]
  rwa [List.isEmpty_iff]

theorem TaskWrite.run_of_sets (write : TaskWrite) (something : write.sets now ≠ []) :
    write.run db store now =
      executeTaskUpdate db store write.expected (write.sets now ++ [.lastModified now])
        write.taskId := by
  cases write with
  | create taskId data => exact absurd rfl something
  | update taskId data expected => exact updateTask_of_sets db store now now something
  | setStatus taskId status expected =>
      have named : updateSets (.ofStatus status) now ≠ [] := something
      exact updateTask_of_sets db store now now named
  | delete taskId expected => rfl

theorem TaskWrite.written_cases (write : TaskWrite) :
    (write.run db store now).2 = store ∨
      (∃ taskId data after, write = .create taskId data ∧ store.tasks.get taskId = none ∧
        write.run db store now = (true, after) ∧
        TaskEffect db store after now (newTaskRow db store taskId now data)) ∨
      ∃ old after, write.sets now ≠ [] ∧ store.tasks.get write.taskId = some old ∧
        old.isActive db.userId = true ∧ write.run db store now = (true, after) ∧
        TaskEffect db store after now (old.assign (write.sets now ++ [.lastModified now])) := by
  by_cases something : write.sets now ≠ []
  · rw [write.run_of_sets db store now something]
    rcases stampedUpdate_cases db store now write.expected (write.sets now) write.taskId with
      refused | ⟨old, after, found, active, -, executed, effect⟩
    · rw [refused]
      exact Or.inl rfl
    · exact Or.inr (Or.inr ⟨old, after, something, found, active, executed, effect⟩)
  · rw [not_not] at something
    cases write with
    | create taskId data =>
        simp only [TaskWrite.run]
        rcases createTask_cases db store now taskId data with
          ⟨refused, -⟩ | ⟨after, created, free, effect⟩
        · rw [refused]
          exact Or.inl rfl
        · rw [created]
          exact Or.inr (Or.inl ⟨taskId, data, after, rfl, free, rfl, effect⟩)
    | update taskId data expected =>
        exact Or.inl (updateTask_of_no_sets db store now now something)
    | setStatus taskId status expected => cases something
    | delete taskId expected => cases something

/-- A write of a task changes nothing, or one row that it stamps. -/
theorem TaskWrite.run_cases (write : TaskWrite) :
    (write.run db store now).2 = store ∨
      ∃ row after, write.run db store now = (true, after) ∧ row.taskId = write.taskId ∧
        TaskEffect db store after now row := by
  rcases write.written_cases db store now with
    same | ⟨taskId, data, after, rfl, -, ran, effect⟩ | ⟨old, after, -, found, -, ran, effect⟩
  · exact Or.inl same
  · exact Or.inr ⟨_, after, ran, rfl, effect⟩
  · refine Or.inr ⟨_, after, ran, ?_, effect⟩
    rw [TaskRow.assign_taskId]
    exact ((store.tasks.get_eq_some_iff write.taskId old).mp found).2

theorem TaskWrite.row_of_create {taskId : Text} {data : TaskCreate} {after : Store}
    {row : TaskRow} (ran : (TaskWrite.create taskId data).run db store now = (true, after))
    (found : after.tasks.get taskId = some row) : row = newTaskRow db store taskId now data := by
  simp only [TaskWrite.run] at ran
  rcases createTask_cases db store now taskId data with
    ⟨refused, -⟩ | ⟨written, created, -, effect⟩
  · rw [refused] at ran
    cases ran
  · rw [created] at ran
    cases ran
    have isKey : taskId = (newTaskRow db store taskId now data).taskId := rfl
    have stored := effect.frame taskId
    rw [if_pos isKey, found] at stored
    exact Option.some.inj stored

theorem TaskWrite.row_of_update {taskId : Text} {data : TaskUpdate} {expected : Option ℤ}
    {after : Store} {row : TaskRow} (something : updateSets data now ≠ [])
    (ran : (TaskWrite.update taskId data expected).run db store now = (true, after))
    (found : after.tasks.get taskId = some row) :
    ∃ old, store.tasks.get taskId = some old ∧ row = updatedRow data now now old := by
  rw [TaskWrite.run, updateTask_of_sets db store now now something] at ran
  rcases stampedUpdate_cases db store now expected (updateSets data now) taskId with
    refused | ⟨old, written, isOld, -, -, executed, effect⟩
  · rw [refused] at ran
    cases ran
  · rw [executed] at ran
    cases ran
    have isKey := ((store.tasks.get_eq_some_iff taskId old).mp isOld).2
    have stored := effect.frame taskId
    rw [TaskRow.assign_taskId, isKey, if_pos rfl, found, assign_updateSets] at stored
    exact ⟨old, isOld, Option.some.inj stored⟩

theorem TaskWrite.effect_of_changed (write : TaskWrite) {row : TaskRow}
    (found : (write.run db store now).2.tasks.get write.taskId = some row)
    (changed : store.tasks.get write.taskId ≠ some row) :
    TaskEffect db store (write.run db store now).2 now row := by
  rcases write.run_cases db store now with same | ⟨written, after, ran, isKey, effect⟩
  · rw [same] at found
    exact absurd found changed
  · rw [ran] at found ⊢
    have isWritten := effect.frame write.taskId
    rw [if_pos isKey.symm, found] at isWritten
    cases isWritten
    exact effect

end TaskCases

section ListCases
variable (db : Database) (store : Store) (now : ℤ)

theorem createList_cases (listId title : Text) :
    createList db store listId now title = .error .databaseError ∧ store.lists.get listId ≠ none ∨
      ∃ after, createList db store listId now title = .ok (listId, after) ∧
        store.lists.get listId = none ∧
        ListEffect db store after now (newListRow db listId now title) := by
  unfold createList
  rcases store.lists.insert_cases (newListRow db listId now title) with
    ⟨refused, taken⟩ | ⟨lists, inserted, free, frame⟩
  · rw [refused]
    exact Or.inl ⟨rfl, taken⟩
  · rw [inserted]
    refine Or.inr ⟨_, rfl, free, ?_, rfl, rfl, frame, rfl⟩
    rw [free]
    exact (Option.some_ne_none _).symm

theorem stampedListUpdate_cases (expected : Option ℤ) (sets : List ListSet) (listId : Text) :
    executeListUpdate db store expected (sets ++ [.lastModified now]) listId = (false, store) ∨
      ∃ old after, store.lists.get listId = some old ∧ old.isActive db.userId = true ∧
        versionMatches expected old.lastModified = true ∧
        executeListUpdate db store expected (sets ++ [.lastModified now]) listId = (true, after) ∧
        ListEffect db store after now (old.assign (sets ++ [.lastModified now])) := by
  rcases executeListUpdate_cases db store expected (sets ++ [.lastModified now]) listId with
    nothing | ⟨old, after, found, active, version, changed, executed, tasks, frame⟩
  · exact Or.inl nothing
  · have oldKey := ((store.lists.get_eq_some_iff listId old).mp found).2
    have newKey := (ListRow.assign_taskListId (sets ++ [.lastModified now]) old).trans oldKey
    refine Or.inr ⟨old, after, found, active, version, executed, ?_, ?_, ?_, ?_, tasks⟩
    · rw [newKey, found]
      exact fun same => changed (Option.some.inj same).symm
    · exact ListRow.assign_lastModified sets now old
    · rw [ListRow.assign_userId]
      exact (ListRow.isActive_iff.mp active).1
    · rw [newKey]
      exact frame

theorem ListWrite.run_of_sets (write : ListWrite) (something : write.sets ≠ []) :
    write.run db store now =
      executeListUpdate db store write.expected (write.sets ++ [.lastModified now])
        write.listId := by
  cases write with
  | create listId title => exact absurd rfl something
  | update listId title expected => rfl
  | delete listId expected => rfl

theorem ListWrite.written_cases (write : ListWrite) :
    (write.run db store now).2 = store ∨
      (∃ listId title after, write = .create listId title ∧ store.lists.get listId = none ∧
        write.run db store now = (true, after) ∧
        ListEffect db store after now (newListRow db listId now title)) ∨
      ∃ old after, write.sets ≠ [] ∧ store.lists.get write.listId = some old ∧
        old.isActive db.userId = true ∧ write.run db store now = (true, after) ∧
        ListEffect db store after now (old.assign (write.sets ++ [.lastModified now])) := by
  by_cases something : write.sets ≠ []
  · rw [write.run_of_sets db store now something]
    rcases stampedListUpdate_cases db store now write.expected write.sets write.listId with
      refused | ⟨old, after, found, active, -, executed, effect⟩
    · rw [refused]
      exact Or.inl rfl
    · exact Or.inr (Or.inr ⟨old, after, something, found, active, executed, effect⟩)
  · rw [not_not] at something
    cases write with
    | create listId title =>
        simp only [ListWrite.run]
        rcases createList_cases db store now listId title with
          ⟨refused, -⟩ | ⟨after, created, free, effect⟩
        · rw [refused]
          exact Or.inl rfl
        · rw [created]
          exact Or.inr (Or.inl ⟨listId, title, after, rfl, free, rfl, effect⟩)
    | update listId title expected => cases something
    | delete listId expected => cases something

end ListCases

end SupernoteTaskService
