import SupernoteTaskService.Db.Cursor
import SupernoteTaskService.Repository.Operations

/-!
# The repository as programs

The fourteen operations with their cursor blocks, in the order in which the source asks
for the user id, enters a block and executes statements.  Where a statement's text is
the same as that of a pure operation, it is taken from there.
-/

set_option autoImplicit false

namespace SupernoteTaskService

open Foundation

/-- An `UPDATE`, with what it reports. -/
def Statement.write {α : Type} (effect : Store → α × Store) : Statement α := fun server =>
  let (result, store) := effect server.store
  (.ok result, { server with store := store })

def Statement.insert {α : Type} (effect : Store → Except Raised (α × Store)) : Statement α :=
  fun server =>
    match effect server.store with
    | .ok (result, store) => (.ok result, { server with store := store })
    | .error e => (.error e, server)

namespace Repository

variable (env : Environment)

def database (userId : ℤ) : Database := ⟨userId, env.collation, env.linkModel⟩

def pageProgram {ρ α : Type} (render : ρ → Except Raised α) (stamp : α → ℤ) (effectiveLimit : ℕ)
    (serverNow : ℤ) (delta : Bool) (rows : List ρ) (drain : α → DbProgram (List α)) :
    DbProgram (Page α) := do
  let items ← fromExcept (rows.mapM render)
  let stamps := items.map stamp
  match if delta && isSingleMsFullPage stamps effectiveLimit then items.getLast? else none with
  | some last =>
      let drained ← drain last
      return ⟨items ++ drained, stamp last + 1, false⟩
  | none =>
      return ⟨items, pageCursor stamps effectiveLimit serverNow,
        isFullPage stamps effectiveLimit⟩

/-! ## Tasks -/

def drainTasksAt (query : TaskQuery) (boundary : ℤ) (afterId : Text) :
    DbProgram (List Task) := do
  let userId ← getUserId env
  let rows ← cursor (execute env (.read fun server =>
    (SupernoteTaskService.drainTasksAt (database env userId) server.store query boundary
      afterId).map server.store.join))
  fromExcept (rows.mapM (rowToTask env.linkModel))

def listTasks (serverNow : ℤ) (query : TaskQuery) : DbProgram (Page Task) := do
  let userId ← getUserId env
  let rows ← cursor (execute env (.read fun server =>
    (taskPageRows (database env userId) server.store serverNow query).map server.store.join))
  pageProgram (rowToTask env.linkModel) Task.lastModified (clampLimit query.limit) serverNow
    query.since.isSome rows fun last => drainTasksAt env query last.lastModified last.id

def getTask (taskId : Text) : DbProgram (Option Task) := do
  let row ← cursor do
    let userId ← getUserId env
    execute env (.read fun server =>
      (activeTask (database env userId) server.store taskId).map server.store.join)
  fromExcept (match row with
    | some row => (rowToTask env.linkModel row).map some
    | none => .ok none)

def createTask (taskId : Text) (ts : ℤ) (data : TaskCreate) : DbProgram Text := do
  let userId ← getUserId env
  cursor do
    let sort ← match data.sort with
      | some sort => pure (sort : ℤ)
      | none => execute env (.read fun server =>
          nextSort server.store (data.listId.map IdStr.value) userId)
    execute env (.insert fun store => insertTask store
      { newTaskRow (database env userId) store taskId ts data with sort := some sort })

def rowMatchesVersion (taskId : Text) (expectedLastModified : ℤ) : DbProgram Bool := cursor do
  let userId ← getUserId env
  execute env (.read fun server => SupernoteTaskService.rowMatchesVersion (database env userId)
    server.store taskId expectedLastModified)

def taskExists (taskId : Text) : DbProgram Bool := cursor do
  let userId ← getUserId env
  execute env (.read fun server =>
    SupernoteTaskService.taskExists (database env userId) server.store taskId)

def updateTask (statusNow now : ℤ) (taskId : Text) (data : TaskUpdate)
    (expectedLastModified : Option ℤ) : DbProgram Bool :=
  if (updateSets data statusNow).isEmpty then
    match expectedLastModified with
    | some expected => rowMatchesVersion env taskId expected
    | none => taskExists env taskId
  else do
    let userId ← getUserId env
    cursor (execute env (.write fun store => executeTaskUpdate (database env userId) store
      expectedLastModified (updateSets data statusNow ++ [.lastModified now]) taskId))

def setStatus (statusNow now : ℤ) (taskId : Text) (status : TaskStatus)
    (expectedLastModified : Option ℤ) : DbProgram Bool :=
  updateTask env statusNow now taskId (.ofStatus status) expectedLastModified

def deleteTask (now : ℤ) (taskId : Text) (expectedLastModified : Option ℤ) : DbProgram Bool := do
  let userId ← getUserId env
  cursor (execute env (.write fun store => SupernoteTaskService.deleteTask (database env userId)
    store now taskId expectedLastModified))

/-! ## Lists -/

def drainListsAt (boundary : ℤ) (afterId : Option Text) : DbProgram (List TaskList) := do
  let rows ← cursor do
    let userId ← getUserId env
    execute env (.read fun server => SupernoteTaskService.drainListsAt (database env userId)
      server.store boundary afterId)
  fromExcept (rows.mapM listOfRow)

def listLists (serverNow : ℤ) (query : ListQuery) : DbProgram (Page TaskList) := do
  let userId ← getUserId env
  let rows ← cursor (execute env (.read fun server =>
    listPageRows (database env userId) server.store serverNow query))
  let page ← pageProgram listOfRow TaskList.lastModified (clampLimit query.limit) serverNow
    query.since.isSome rows fun last => drainListsAt env last.lastModified last.id
  let includeInbox := query.since.isNone
  return { page with items := if includeInbox then inbox :: page.items else page.items }

def getList (listId : Text) : DbProgram (Option TaskList) := do
  let row ← cursor do
    let userId ← getUserId env
    execute env (.read fun server => activeList (database env userId) server.store listId)
  return row.map rowToList

def listExists (listId : Text) : DbProgram Bool := cursor do
  let userId ← getUserId env
  execute env (.read fun server =>
    SupernoteTaskService.listExists (database env userId) server.store listId)

def getListByTitle (title : Text) : DbProgram (Option TaskList) := cursor do
  let userId ← getUserId env
  execute env (.read fun server =>
    SupernoteTaskService.getListByTitle (database env userId) server.store title)

def createList (listId : Text) (ts : ℤ) (title : Text) : DbProgram Text := do
  let userId ← getUserId env
  cursor (execute env (.insert fun store => SupernoteTaskService.createList (database env userId)
    store listId ts title))

def updateList (now : ℤ) (listId title : Text) (expectedLastModified : Option ℤ) :
    DbProgram Bool := do
  let userId ← getUserId env
  cursor (execute env (.write fun store => SupernoteTaskService.updateList (database env userId)
    store now listId title expectedLastModified))

def deleteList (now : ℤ) (listId : Text) (expectedLastModified : Option ℤ) : DbProgram Bool := do
  let userId ← getUserId env
  cursor (execute env (.write fun store => SupernoteTaskService.deleteList (database env userId)
    store now listId expectedLastModified))

end Repository

/-- The program of an operation. -/
def Operation.program (env : Environment) (now : ℤ) : Operation → DbProgram Returned
  | .listTasks query => do return .tasks (← Repository.listTasks env now query)
  | .getTask taskId => do return .task (← Repository.getTask env taskId)
  | .createTask taskId data => do return .id (← Repository.createTask env taskId now data)
  | .updateTask statusNow taskId data expected => do
      return .flag (← Repository.updateTask env statusNow now taskId data expected)
  | .setStatus statusNow taskId status expected => do
      return .flag (← Repository.setStatus env statusNow now taskId status expected)
  | .deleteTask taskId expected => do
      return .flag (← Repository.deleteTask env now taskId expected)
  | .taskExists taskId => do return .flag (← Repository.taskExists env taskId)
  | .listLists query => do return .lists (← Repository.listLists env now query)
  | .getList listId => do return .list (← Repository.getList env listId)
  | .listExists listId => do return .flag (← Repository.listExists env listId)
  | .getListByTitle title => do return .list (← Repository.getListByTitle env title)
  | .createList listId title => do return .id (← Repository.createList env listId now title)
  | .updateList listId title expected => do
      return .flag (← Repository.updateList env now listId title expected)
  | .deleteList listId expected => do
      return .flag (← Repository.deleteList env now listId expected)

end SupernoteTaskService
