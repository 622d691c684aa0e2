import SupernoteTaskService.Repository.Operations
import SupernoteTaskService.Routers.Tasks
import SupernoteTaskService.Routers.Lists

/-!
# Requests as steps

The eight mutating endpoints as data, each handled before the next one starts.  A
request checks, writes with one operation of the repository, and answers;
`Request.handle_store` says that the tables only see the operation, and only when the
check lets the request through.
-/

set_option autoImplicit false

namespace SupernoteTaskService

open Foundation

inductive Request where
  | createTask (taskId : Text) (body : TaskCreate)
  | updateTask (statusNow : ℤ) (taskId : Text) (body : TaskUpdate) (ifUnmodifiedSince : Option ℤ)
  | completeTask (statusNow : ℤ) (taskId : Text) (ifUnmodifiedSince : Option ℤ)
  | uncompleteTask (statusNow : ℤ) (taskId : Text) (ifUnmodifiedSince : Option ℤ)
  | deleteTask (taskId : Text) (ifUnmodifiedSince : Option ℤ)
  | createList (listId : Text) (body : TaskListCreate)
  | updateList (listId : Text) (body : TaskListUpdate) (ifUnmodifiedSince : Option ℤ)
  | deleteList (listId : Text) (ifUnmodifiedSince : Option ℤ)
  deriving DecidableEq

inductive Response where
  | task (task : Task)
  | list (list : TaskList)
  | postedList (statusCode : ℕ) (list : TaskList)
  | noContent
  deriving DecidableEq

def Request.operation : Request → Operation
  | .createTask taskId body => .createTask taskId body
  | .updateTask statusNow taskId body ifUnmodifiedSince =>
      .updateTask statusNow taskId body ifUnmodifiedSince
  | .completeTask statusNow taskId ifUnmodifiedSince =>
      .setStatus statusNow taskId .completed ifUnmodifiedSince
  | .uncompleteTask statusNow taskId ifUnmodifiedSince =>
      .setStatus statusNow taskId .needsAction ifUnmodifiedSince
  | .deleteTask taskId ifUnmodifiedSince => .deleteTask taskId ifUnmodifiedSince
  | .createList listId body => .createList listId body.title.text
  | .updateList listId body ifUnmodifiedSince =>
      .updateList listId body.title.text ifUnmodifiedSince
  | .deleteList listId ifUnmodifiedSince => .deleteList listId ifUnmodifiedSince

def Reply.map {α β σ : Type} (f : α → β) (reply : Reply α σ) : Reply β σ :=
  (Except.map f reply.1, reply.2)

section Step
variable (db : Database) (store : Store) (now : ℤ)

def Request.handle : Request → Reply Response Store
  | .createTask taskId body =>
      (Routers.Tasks.createTask db store taskId now body).map .task
  | .updateTask statusNow taskId body ifUnmodifiedSince =>
      (Routers.Tasks.updateTask db store statusNow now taskId body ifUnmodifiedSince).map .task
  | .completeTask statusNow taskId ifUnmodifiedSince =>
      (Routers.Tasks.completeTask db store statusNow now taskId ifUnmodifiedSince).map .task
  | .uncompleteTask statusNow taskId ifUnmodifiedSince =>
      (Routers.Tasks.uncompleteTask db store statusNow now taskId ifUnmodifiedSince).map .task
  | .deleteTask taskId ifUnmodifiedSince =>
      (Routers.Tasks.deleteTask db store now taskId ifUnmodifiedSince).map fun _ => .noContent
  | .createList listId body =>
      (Routers.Lists.createList db store listId now body).map fun posted =>
        .postedList posted.1 posted.2
  | .updateList listId body ifUnmodifiedSince =>
      (Routers.Lists.updateList db store now listId body ifUnmodifiedSince).map .list
  | .deleteList listId ifUnmodifiedSince =>
      (Routers.Lists.deleteList db store now listId ifUnmodifiedSince).map fun _ => .noContent

def Request.admitted : Request → Bool
  | .createTask _ body =>
      (Routers.Tasks.ensureListExists db store (body.listId.map IdStr.value)).isOk
  | .updateTask _ _ body _ => (Routers.Tasks.ensureTargetList db store body).isOk
  | .createList _ body => (getListByTitle db store body.title.text).isNone
  | _ => true

def requestStep (store : Store) (step : Timed Request) : Store :=
  (step.event.handle db store step.clock).2

end Step

section Checks
variable {db : Database} {store : Store}

theorem ensureListExists_isOk_iff {listId : Option Text} :
    (Routers.Tasks.ensureListExists db store listId).isOk = true ↔
      ∀ id, listId = some id → listExists db store id = true := by
  cases listId with
  | none => exact iff_of_true rfl fun id impossible => by cases impossible
  | some id =>
      simp only [Routers.Tasks.ensureListExists, Option.some.injEq, forall_eq']
      cases listExists db store id with
      | false => exact iff_of_false Bool.false_ne_true Bool.false_ne_true
      | true => exact iff_of_true rfl rfl

/-- The list that a partial update moves its task to, when it names one. -/
def TaskUpdate.target (body : TaskUpdate) : Option (Option Text) :=
  match body.listId with
  | .omitted => none
  | .null => some none
  | .given listId => some (some listId.value)

theorem ensureTargetList_isOk_iff {body : TaskUpdate} :
    (Routers.Tasks.ensureTargetList db store body).isOk = true ↔
      ∀ id, body.target = some (some id) → listExists db store id = true := by
  simp only [Routers.Tasks.ensureTargetList, TaskUpdate.target]
  cases body.listId with
  | omitted => exact iff_of_true rfl fun id impossible => by cases impossible
  | null => exact iff_of_true rfl fun id impossible => by cases impossible
  | given listId =>
      simp only [Option.some.injEq]
      rw [ensureListExists_isOk_iff]
      simp only [Option.some.injEq]

theorem listExists_iff {listId : Text} :
    listExists db store listId = true ↔
      ∃ row ∈ store.lists.rows, row.taskListId = listId ∧ row.isActive db.userId = true := by
  rw [listExists, Option.isSome_iff_exists]
  simp only [activeList_eq_some_iff, KeyedTable.get_eq_some_iff, and_assoc]

theorem updatedRow_taskListId (body : TaskUpdate) (statusNow now : ℤ) (row : TaskRow) :
    (updatedRow body statusNow now row).taskListId = body.target.getD row.taskListId := by
  simp only [updatedRow, TaskUpdate.target]
  cases body.listId <;> rfl

end Checks

section Store
variable (db : Database) (store : Store) (now : ℤ)

theorem Request.handle_store (request : Request) :
    (request.handle db store now).2 =
      bif request.admitted db store then (request.operation.run db store now).2 else store := by
  cases request with
  | createTask taskId body =>
      simp only [Request.handle, Request.admitted, Request.operation, Operation.run, Reply.map,
        Routers.Tasks.createTask]
      cases Routers.Tasks.ensureListExists db store (body.listId.map IdStr.value) with
      | error raised => rfl
      | ok checked =>
          cases SupernoteTaskService.createTask db store taskId now body with
          | error raised => rfl
          | ok created => rfl
  | updateTask statusNow taskId body ifUnmodifiedSince =>
      simp only [Request.handle, Request.admitted, Reply.map, Routers.Tasks.updateTask]
      cases Routers.Tasks.ensureTargetList db store body with
      | error raised => rfl
      | ok checked => rfl
  | completeTask statusNow taskId ifUnmodifiedSince => rfl
  | uncompleteTask statusNow taskId ifUnmodifiedSince => rfl
  | deleteTask taskId ifUnmodifiedSince => rfl
  | createList listId body =>
      simp only [Request.handle, Request.admitted, Request.operation, Operation.run, Reply.map,
        Routers.Lists.createList]
      cases getListByTitle db store body.title.text with
      | some existing => rfl
      | none =>
          cases SupernoteTaskService.createList db store listId now body.title.text with
          | error raised => rfl
          | ok created => rfl
  | updateList listId body ifUnmodifiedSince => rfl
  | deleteList listId ifUnmodifiedSince => rfl

theorem requestStep_of_admitted {step : Timed Request}
    (admitted : step.event.admitted db store = true) :
    requestStep db store step = (step.event.operation.run db store step.clock).2 := by
  rw [requestStep, Request.handle_store, admitted, cond_true]

theorem requestStep_cases (step : Timed Request) :
    requestStep db store step = store ∨
      step.event.admitted db store = true ∧
        requestStep db store step = (step.event.operation.run db store step.clock).2 := by
  cases admitted : step.event.admitted db store with
  | false =>
      rw [requestStep, Request.handle_store, admitted]
      exact Or.inl rfl
  | true => exact Or.inr ⟨rfl, requestStep_of_admitted db store admitted⟩

theorem requestStep_get_task_cases (step : Timed Request) (taskId : Text) :
    (requestStep db store step).tasks.get taskId = store.tasks.get taskId ∨
      ∃ row, (requestStep db store step).tasks.get taskId = some row ∧
        row.userId = some db.userId ∧ row.lastModified = some step.clock := by
  rcases requestStep_cases db store step with same | ⟨-, ran⟩
  · rw [same]
    exact Or.inl rfl
  · rw [ran]
    exact step.event.operation.get_task_cases db store step.clock taskId

end Store

theorem FlagsSet.request {store : Store} (flags : FlagsSet store) (db : Database)
    (step : Timed Request) : FlagsSet (requestStep db store step) := by
  rcases requestStep_cases db store step with same | ⟨-, ran⟩
  · rw [same]
    exact flags
  · rw [ran]
    exact flags.step step.clock step.event.operation

def shoppingId : IdStr := ⟨List.replicate 32 '0', by decide⟩

def createShopping : Timed Request := ⟨1000, .createList shoppingId.value ⟨⟨['s'], by decide⟩⟩⟩

def createInShopping : Timed Request :=
  ⟨2000, .createTask ['a'] { titleOnly with listId := some shoppingId }⟩

def toInbox : TaskUpdate where
  listId := .null
  requireAtLeastOneField := by
    intro same
    cases same

def toShopping : TaskUpdate where
  listId := .given shoppingId
  requireAtLeastOneField := by
    intro same
    cases same

end SupernoteTaskService
