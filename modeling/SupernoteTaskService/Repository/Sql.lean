import SupernoteTaskService.Foundation.Sql
import SupernoteTaskService.Repository.Operations
import SupernoteTaskService.Repository.Statements

/-!
# The statements of the repository

Each operation as the statements that it sends: their conditions, their order and limit, and
the list of values that it puts together beside them.  A result comes back as rows of columns.
`none` is a statement that the driver cannot bind or run.  Texts are equal in a condition when
they are the same text; the collation of a column decides about their order only.
-/

set_option autoImplicit false

namespace SupernoteTaskService

open Foundation

/-! ## Columns -/

/-- `t_schedule_task` -/
inductive TaskColumn where
  | taskId | taskListId | userId | title | detail | lastModified | isReminderOn | status | importance
  | dueTime | completedTime | links | isDeleted | sort | sortCompleted | planerSort | allSort
  | allSortCompleted | sortTime | planerSortTime | allSortTime
  deriving DecidableEq

/-- `t_schedule_task_group` -/
inductive ListColumn where
  | taskListId | userId | title | lastModified | isDeleted | createTime
  deriving DecidableEq

inductive ColumnType where
  | text
  | int
  deriving DecidableEq

def TaskColumn.type : TaskColumn → ColumnType
  | .taskId | .taskListId | .title | .detail | .isReminderOn | .status | .importance | .links
  | .isDeleted => .text
  | _ => .int

def ListColumn.type : ListColumn → ColumnType
  | .taskListId | .title | .isDeleted => .text
  | _ => .int

namespace SqlValue

def ofText : Option Text → SqlValue
  | some value => .text value
  | none => .null

def ofInt : Option ℤ → SqlValue
  | some value => .int value
  | none => .null

def asText : SqlValue → Option Text
  | .text value => some value
  | _ => none

def asInt : SqlValue → Option ℤ
  | .int value => some value
  | _ => none

/-- NULL first. -/
def le (textLe : Text → Text → Bool) : SqlValue → SqlValue → Bool
  | .null, _ => true
  | _, .null => false
  | .text left, .text right => textLe left right
  | .int left, .int right => decide (left ≤ right)
  | .int _, .text _ => true
  | .text _, .int _ => false

end SqlValue

def ColumnType.admits : ColumnType → SqlValue → Bool
  | _, .null => true
  | .text, .text _ => true
  | .int, .int _ => true
  | _, _ => false

def schemaOf {κ : Type} (type : κ → ColumnType) (textLe : κ → Text → Text → Bool) :
    Schema κ SqlValue where
  null := .null
  admits column value := (type column).admits value
  le column := SqlValue.le (textLe column)
  count
    | .int value => if 0 ≤ value then some value.toNat else none
    | _ => none

def byCodePoints (left right : Text) : Bool := decide (left ≤ right)

/-- Titles are compared by the collation of their column. -/
def ListColumn.textLe (db : Database) : ListColumn → Text → Text → Bool
  | .title => db.collation.le
  | _ => byCodePoints

abbrev taskSchema : Schema TaskColumn SqlValue := schemaOf TaskColumn.type fun _ => byCodePoints

abbrev listSchema (db : Database) : Schema ListColumn SqlValue :=
  schemaOf ListColumn.type (ListColumn.textLe db)

abbrev JoinedColumn := TaskColumn ⊕ ListColumn

abbrev joinedSchema (db : Database) : Schema JoinedColumn SqlValue :=
  schemaOf (Sum.elim TaskColumn.type ListColumn.type)
    (Sum.elim (fun _ => byCodePoints) (ListColumn.textLe db))

/-- The two tables, column by column. -/
structure Tables where
  tasks : List (TaskColumn → SqlValue)
  lists : List (ListColumn → SqlValue)

/-! ## Conditions and their values -/

section Clauses
variable {κ : Type}

def equals (column : κ) : Condition κ (Operand SqlValue) := .compare column .eq .placeholder

def notDeleted (isDeleted : κ) : Condition κ (Operand SqlValue) :=
  .compare isDeleted .eq (.literal (.text NO))

def versionClauses (lastModified : κ) : Option ℤ → List (Condition κ (Operand SqlValue))
  | some _ => [equals lastModified]
  | none => []

/-- `id = %s AND user_id = %s AND is_deleted = 'N' [AND last_modified = %s]` -/
def targetClauses (id userId isDeleted lastModified : κ) (expectedLastModified : Option ℤ) :
    List (Condition κ (Operand SqlValue)) :=
  [equals id, equals userId, notDeleted isDeleted] ++
    versionClauses lastModified expectedLastModified

def targetParams (db : Database) (id : Text) (expectedLastModified : Option ℤ) : List SqlValue :=
  [.text id, .int db.userId] ++ expectedLastModified.toList.map SqlValue.int

end Clauses

def taskClauses (expectedLastModified : Option ℤ) : List (Condition TaskColumn (Operand SqlValue)) :=
  targetClauses .taskId .userId .isDeleted .lastModified expectedLastModified

def listClauses (expectedLastModified : Option ℤ) : List (Condition ListColumn (Operand SqlValue)) :=
  targetClauses .taskListId .userId .isDeleted .lastModified expectedLastModified

section TaskQueries
variable (query : TaskQuery)

/-- The clauses that `since` and `include_completed` append. -/
def TaskQuery.windowClauses : List (Condition JoinedColumn (Operand SqlValue)) :=
  match query.since with
  | some _ =>
      [.compare (.inl .lastModified) .ge .placeholder, .compare (.inl .lastModified) .le .placeholder]
  | none =>
      [notDeleted (.inl .isDeleted)] ++
        if query.includeCompleted then []
        else [.compare (.inl .status) .eq (.literal (.text (TaskStatus.value .needsAction)))]

def TaskQuery.windowParams (serverNow : ℤ) : List SqlValue :=
  match query.since with
  | some since => [.int since, .int serverNow]
  | none => []

/-- The clauses that `inbox_only` and `list_id` append. -/
def TaskQuery.filterClauses : List (Condition JoinedColumn (Operand SqlValue)) :=
  if query.inboxOnly then [.isNull (.inl .taskListId)]
  else
    match query.listId with
    | some _ => [equals (.inl .taskListId)]
    | none => []

def TaskQuery.filterParams : List SqlValue :=
  if query.inboxOnly then []
  else
    match query.listId with
    | some listId => [.text listId]
    | none => []

/-- `ORDER BY t.last_modified ASC, t.task_id ASC LIMIT %s` -/
def listTasksSelect : Select JoinedColumn SqlValue where
  conditions := [equals (.inl .userId)] ++ query.windowClauses ++ query.filterClauses
  order := [.inl .lastModified, .inl .taskId]
  limit := .placeholder

def listTasksParams (db : Database) (serverNow : ℤ) : List SqlValue :=
  [.int db.userId] ++ query.windowParams serverNow ++ query.filterParams ++
    [.int (clampLimit query.limit)]

/-- `ORDER BY t.task_id ASC` -/
def drainTasksSelect : Select JoinedColumn SqlValue where
  conditions := [equals (.inl .userId), equals (.inl .lastModified),
    .compare (.inl .taskId) .gt .placeholder] ++ query.filterClauses
  order := [.inl .taskId]
  limit := .all

def drainTasksParams (db : Database) (boundary : ℤ) (afterId : Text) : List SqlValue :=
  [.int db.userId, .int boundary, .text afterId] ++ query.filterParams

end TaskQueries

def getTaskSelect : Select JoinedColumn SqlValue where
  conditions := targetClauses (.inl .taskId) (.inl .userId) (.inl .isDeleted) (.inl .lastModified) none
  order := []
  limit := .all

/-- `SELECT 1 FROM t_schedule_task`, of `task_exists` and `_row_matches_version` -/
def taskTargetSelect (expectedLastModified : Option ℤ) : Select TaskColumn SqlValue where
  conditions := taskClauses expectedLastModified
  order := []
  limit := .all

def nextSortSelect : Select TaskColumn SqlValue where
  conditions := [.compare .taskListId .nullSafeEq .placeholder, equals .userId, notDeleted .isDeleted]
  order := []
  limit := .all

section ListQueries
variable (query : ListQuery)

def listDeltaSelect : Select ListColumn SqlValue where
  conditions := [equals .userId, .compare .lastModified .ge .placeholder,
    .compare .lastModified .le .placeholder]
  order := [.lastModified, .taskListId]
  limit := .placeholder

def listSnapshotSelect : Select ListColumn SqlValue where
  conditions := [equals .userId, notDeleted .isDeleted]
  order := [.title]
  limit := .placeholder

def listListsSelect : Select ListColumn SqlValue :=
  match query.since with
  | some _ => listDeltaSelect
  | none => listSnapshotSelect

def listListsParams (db : Database) (serverNow : ℤ) : List SqlValue :=
  match query.since with
  | some since => [.int db.userId, .int since, .int serverNow, .int (clampLimit query.limit)]
  | none => [.int db.userId, .int (clampLimit query.limit)]

end ListQueries

def drainListsSelect : Select ListColumn SqlValue where
  conditions := [equals .userId, equals .lastModified, .compare .taskListId .gt .placeholder]
  order := [.taskListId]
  limit := .all

def listTargetSelect : Select ListColumn SqlValue where
  conditions := listClauses none
  order := []
  limit := .all

def listByTitleSelect : Select ListColumn SqlValue where
  conditions := [equals .title, equals .userId, notDeleted .isDeleted]
  order := [.lastModified, .taskListId]
  limit := .rows 1

/-! ## Writes -/

def createTaskInsert : InsertInto TaskColumn SqlValue where
  columns := [.taskId, .taskListId, .userId, .title, .detail,
    .lastModified, .isReminderOn, .status, .importance,
    .dueTime, .completedTime, .links, .isDeleted,
    .sort, .sortCompleted, .planerSort, .allSort,
    .allSortCompleted, .sortTime, .planerSortTime, .allSortTime]
  values := [.placeholder, .placeholder, .placeholder, .placeholder, .placeholder,
    .placeholder, .literal (.text NO), .placeholder, .placeholder,
    .placeholder, .placeholder, .placeholder, .literal (.text NO),
    .placeholder, .literal (.int 0), .literal (.int 0), .literal .null, .literal .null,
    .placeholder, .literal (.int 0), .literal .null]

def createTaskParams (db : Database) (taskId : Text) (ts sort : ℤ) (data : TaskCreate) :
    List SqlValue :=
  [.text taskId,
    .ofText (data.listId.map IdStr.value),
    .int db.userId,
    .text (encodeEmoji data.title.text),
    .text (encodeDetail data.detail.text),
    .int ts,
    .text data.status.value,
    .ofText (data.importance.map fun importance => pythonStr importance.value),
    .int (dtToMs data.due),
    .int (if data.status = .completed then ts else 0),
    .ofText (data.documentLink.map fun link => encodeDocumentLink (linkPayload link)),
    .int sort,
    .int ts]

def createListInsert : InsertInto ListColumn SqlValue where
  columns := [.taskListId, .userId, .title, .lastModified, .isDeleted, .createTime]
  values := [.placeholder, .placeholder, .placeholder, .placeholder, .literal (.text NO), .placeholder]

def createListParams (db : Database) (listId : Text) (ts : ℤ) (title : Text) : List SqlValue :=
  [.text listId, .int db.userId, .text (encodeEmoji title), .int ts, .int ts]

def Column.taskColumn : Column → TaskColumn
  | .title => .title
  | .detail => .detail
  | .status => .status
  | .completedTime => .completedTime
  | .importance => .importance
  | .dueTime => .dueTime
  | .sort => .sort
  | .taskListId => .taskListId
  | .links => .links
  | .lastModified => .lastModified

def updateTaskUpdate (data : TaskUpdate) (expectedLastModified : Option ℤ) :
    Update TaskColumn SqlValue where
  sets := (updateColumns data ++ [Column.lastModified]).map fun column =>
    (column.taskColumn, .placeholder)
  conditions := taskClauses expectedLastModified

def deleteTaskUpdate (expectedLastModified : Option ℤ) : Update TaskColumn SqlValue where
  sets := [(.isDeleted, .literal (.text YES)), (.lastModified, .placeholder)]
  conditions := taskClauses expectedLastModified

def updateListUpdate (expectedLastModified : Option ℤ) : Update ListColumn SqlValue where
  sets := [(.title, .placeholder), (.lastModified, .placeholder)]
  conditions := listClauses expectedLastModified

def deleteListUpdate (expectedLastModified : Option ℤ) : Update ListColumn SqlValue where
  sets := [(.isDeleted, .literal (.text YES)), (.lastModified, .placeholder)]
  conditions := listClauses expectedLastModified

/-! ## Rows that come back -/

/-- The selected columns of a task, and `COALESCE(g.title, 'Inbox') AS category`. -/
def JoinedRow.ofColumns (row : JoinedColumn → SqlValue) : JoinedRow where
  task :=
    { taskId := (row (.inl .taskId)).asText.getD []
      taskListId := (row (.inl .taskListId)).asText
      userId := none
      title := (row (.inl .title)).asText
      detail := (row (.inl .detail)).asText
      lastModified := (row (.inl .lastModified)).asInt
      isReminderOn := none
      status := (row (.inl .status)).asText
      importance := (row (.inl .importance)).asText
      dueTime := (row (.inl .dueTime)).asInt
      completedTime := (row (.inl .completedTime)).asInt
      links := (row (.inl .links)).asText
      isDeleted := (row (.inl .isDeleted)).asText
      sort := (row (.inl .sort)).asInt
      sortCompleted := none
      planerSort := none
      allSort := none
      allSortCompleted := none
      sortTime := none
      planerSortTime := none
      allSortTime := none }
  category := (row (.inr .title)).asText.getD "Inbox".toList

def ListRow.ofColumns (row : ListColumn → SqlValue) : ListRow where
  taskListId := (row .taskListId).asText.getD []
  userId := none
  title := (row .title).asText
  lastModified := (row .lastModified).asInt
  isDeleted := (row .isDeleted).asText
  createTime := none

def fetchTask (linkModel : LinkModel) (row : JoinedColumn → SqlValue) : Except Raised Task :=
  rowToTask linkModel (.ofColumns row)

def fetchList (row : ListColumn → SqlValue) : TaskList := rowToList (.ofColumns row)

/-! ## Operations -/

namespace Sql

section Reads
variable (db : Database) (tables : Tables)

/-- `t_schedule_task t LEFT JOIN t_schedule_task_group g ON t.task_list_id = g.task_list_id` -/
def joined : List (JoinedColumn → SqlValue) :=
  leftJoin .null
    (fun task list => decide ((listSchema db).compare .taskListId .eq (task .taskListId)
      (list .taskListId) = some true)) tables.tasks tables.lists

def readPage {ρ α : Type} (render : ρ → Except Raised α) (stamp : α → ℤ) (effectiveLimit : ℕ)
    (serverNow : ℤ) (delta : Bool) (drain : α → Option (List ρ)) (rows : List ρ) :
    Option (Except Raised (Page α)) :=
  match rows.mapM render with
  | .error e => some (.error e)
  | .ok items =>
      let stamps := items.map stamp
      match if delta && isSingleMsFullPage stamps effectiveLimit then items.getLast? else none with
      | some last =>
          (drain last).map fun rest =>
            (rest.mapM render).map fun drained => ⟨items ++ drained, stamp last + 1, false⟩
      | none =>
          some (.ok ⟨items, pageCursor stamps effectiveLimit serverNow,
            isFullPage stamps effectiveLimit⟩)

def listTasks (serverNow : ℤ) (query : TaskQuery) : Option (Except Raised (Page Task)) :=
  ((joinedSchema db).select (listTasksSelect query) (joined db tables)
      (listTasksParams query db serverNow)).bind
    (readPage (fetchTask db.linkModel) Task.lastModified (clampLimit query.limit) serverNow
      query.since.isSome fun last => (joinedSchema db).select (drainTasksSelect query) (joined db tables)
        (drainTasksParams query db last.lastModified last.id))

def getTask (taskId : Text) : Option (Except Raised (Option Task)) :=
  ((joinedSchema db).select getTaskSelect (joined db tables) (targetParams db taskId none)).map
    fun rows =>
      match rows.head? with
      | some row => (fetchTask db.linkModel row).map some
      | none => .ok none

/-- `cur.fetchone() is not None` -/
def taskFound (taskId : Text) (expectedLastModified : Option ℤ) : Option Bool :=
  (taskSchema.select (taskTargetSelect expectedLastModified) tables.tasks
    (targetParams db taskId expectedLastModified)).map fun rows => rows.head?.isSome

/-- `COALESCE(MAX(sort), -1) + 1` -/
def nextSort (listId : Option Text) : Option ℤ :=
  (taskSchema.select nextSortSelect tables.tasks [.ofText listId, .int db.userId]).map fun rows =>
    (rows.filterMap fun row => (row .sort).asInt).max?.getD (-1) + 1

def listLists (serverNow : ℤ) (query : ListQuery) : Option (Except Raised (Page TaskList)) :=
  ((listSchema db).select (listListsSelect query) tables.lists
      (listListsParams query db serverNow)).bind fun rows =>
    (readPage (fun row => .ok (fetchList row)) TaskList.lastModified (clampLimit query.limit)
        serverNow query.since.isSome
        (fun last => (listSchema db).select drainListsSelect tables.lists
          [.int db.userId, .int last.lastModified, .ofText last.id]) rows).map fun read =>
      read.map fun page =>
        { page with items := if query.since.isNone then inbox :: page.items else page.items }

def getList (listId : Text) : Option (Option TaskList) :=
  ((listSchema db).select listTargetSelect tables.lists (targetParams db listId none)).map
    fun rows => rows.head?.map fetchList

def listExists (listId : Text) : Option Bool :=
  ((listSchema db).select listTargetSelect tables.lists (targetParams db listId none)).map
    fun rows => rows.head?.isSome

def getListByTitle (title : Text) : Option (Option TaskList) :=
  ((listSchema db).select listByTitleSelect tables.lists
    [.text (encodeEmoji title), .int db.userId]).map fun rows => rows.head?.map fetchList

end Reads

section Writes
variable (db : Database) (tables : Tables)

def sortOf (data : TaskCreate) : Option ℤ :=
  match data.sort with
  | some sort => some sort
  | none => nextSort db tables (data.listId.map IdStr.value)

def createTask (taskId : Text) (ts : ℤ) (data : TaskCreate) : Option (Except Raised Text × Tables) :=
  (sortOf db tables data).bind fun sort =>
    (taskSchema.insert .taskId createTaskInsert tables.tasks
        (createTaskParams db taskId ts sort data)).map fun inserted =>
      match inserted with
      | some tasks => (.ok taskId, { tables with tasks := tasks })
      | none => (.error .databaseError, tables)

def executeTasks (statement : Update TaskColumn SqlValue) (params : List SqlValue) :
    Option (Bool × Tables) :=
  (taskSchema.update statement tables.tasks params).map fun (affected, tasks) =>
    (decide (0 < affected), { tables with tasks := tasks })

def executeLists (statement : Update ListColumn SqlValue) (params : List SqlValue) :
    Option (Bool × Tables) :=
  ((listSchema db).update statement tables.lists params).map fun (affected, lists) =>
    (decide (0 < affected), { tables with lists := lists })

def updateTask (statusNow now : ℤ) (taskId : Text) (data : TaskUpdate)
    (expectedLastModified : Option ℤ) : Option (Bool × Tables) :=
  if (updateColumns data).isEmpty then
    (taskFound db tables taskId expectedLastModified).map fun found => (found, tables)
  else
    executeTasks tables (updateTaskUpdate data expectedLastModified)
      (updateParams data statusNow ++ [.int now] ++ targetParams db taskId expectedLastModified)

def deleteTask (now : ℤ) (taskId : Text) (expectedLastModified : Option ℤ) :
    Option (Bool × Tables) :=
  executeTasks tables (deleteTaskUpdate expectedLastModified)
    ([.int now] ++ targetParams db taskId expectedLastModified)

def createList (listId : Text) (ts : ℤ) (title : Text) : Option (Except Raised Text × Tables) :=
  ((listSchema db).insert .taskListId createListInsert tables.lists
      (createListParams db listId ts title)).map fun inserted =>
    match inserted with
    | some lists => (.ok listId, { tables with lists := lists })
    | none => (.error .databaseError, tables)

def updateList (now : ℤ) (listId title : Text) (expectedLastModified : Option ℤ) :
    Option (Bool × Tables) :=
  executeLists db tables (updateListUpdate expectedLastModified)
    ([.text (encodeEmoji title), .int now] ++ targetParams db listId expectedLastModified)

def deleteList (now : ℤ) (listId : Text) (expectedLastModified : Option ℤ) :
    Option (Bool × Tables) :=
  executeLists db tables (deleteListUpdate expectedLastModified)
    ([.int now] ++ targetParams db listId expectedLastModified)

end Writes

end Sql

section Execution
variable (db : Database) (tables : Tables) (now : ℤ)

def wroteFlag (written : Bool × Tables) : Except Raised Returned × Tables :=
  (.ok (.flag written.1), written.2)

def wroteId (written : Except Raised Text × Tables) : Except Raised Returned × Tables :=
  (written.1.map .id, written.2)

def Operation.execute : Operation → Option (Except Raised Returned × Tables)
  | .listTasks query => (Sql.listTasks db tables now query).map fun read => (read.map .tasks, tables)
  | .getTask taskId => (Sql.getTask db tables taskId).map fun read => (read.map .task, tables)
  | .createTask taskId data => (Sql.createTask db tables taskId now data).map wroteId
  | .updateTask statusNow taskId data expected =>
      (Sql.updateTask db tables statusNow now taskId data expected).map wroteFlag
  | .setStatus statusNow taskId status expected =>
      (Sql.updateTask db tables statusNow now taskId (.ofStatus status) expected).map wroteFlag
  | .deleteTask taskId expected => (Sql.deleteTask db tables now taskId expected).map wroteFlag
  | .taskExists taskId =>
      (Sql.taskFound db tables taskId none).map fun found => (.ok (.flag found), tables)
  | .listLists query => (Sql.listLists db tables now query).map fun read => (read.map .lists, tables)
  | .getList listId => (Sql.getList db tables listId).map fun found => (.ok (.list found), tables)
  | .listExists listId =>
      (Sql.listExists db tables listId).map fun found => (.ok (.flag found), tables)
  | .getListByTitle title =>
      (Sql.getListByTitle db tables title).map fun found => (.ok (.list found), tables)
  | .createList listId title => (Sql.createList db tables listId now title).map wroteId
  | .updateList listId title expected =>
      (Sql.updateList db tables now listId title expected).map wroteFlag
  | .deleteList listId expected => (Sql.deleteList db tables now listId expected).map wroteFlag

end Execution

end SupernoteTaskService
