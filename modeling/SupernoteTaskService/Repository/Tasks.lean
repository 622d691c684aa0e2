import SupernoteTaskService.Foundation.Appends
import SupernoteTaskService.Repository.Paging
import SupernoteTaskService.Repository.Rows

/-!
# Task statements

Each operation of the repository on tasks, on the tables it sees and at the clock
readings it takes.  `updateTask` reads the clock once for `completed_time` and once
for the stamp.  Every `UPDATE` goes through `executeTaskUpdate`, so its outcomes are
those of `executeTaskUpdate_cases`.
-/

set_option autoImplicit false

namespace SupernoteTaskService

open Foundation

/-! ## Reads -/

structure TaskQuery where
  since : Option ℤ := none
  listId : Option Text := none
  includeCompleted : Bool := true
  inboxOnly : Bool := false
  limit : Option ℤ := none
  deriving DecidableEq

def TaskQuery.inFilter (query : TaskQuery) (row : TaskRow) : Bool :=
  if query.inboxOnly then decide (row.taskListId = none)
  else
    match query.listId with
    | some listId => decide (row.taskListId = some listId)
    | none => true

def TaskQuery.whereClause (db : Database) (serverNow : ℤ) (query : TaskQuery)
    (row : TaskRow) : Bool :=
  decide (row.userId = some db.userId) &&
    (match query.since with
      | some since => stampedWithin since serverNow row.lastModified
      | none =>
          decide (row.isDeleted = some NO) &&
            (query.includeCompleted ||
              decide (row.status = some (TaskStatus.value .needsAction)))) &&
    query.inFilter row

theorem TaskQuery.whereClause_owned {db : Database} {serverNow : ℤ} {query : TaskQuery}
    {row : TaskRow} (selected : query.whereClause db serverNow row = true) :
    row.userId = some db.userId := by
  simp only [TaskQuery.whereClause, Bool.and_eq_true, decide_eq_true_eq] at selected
  exact selected.1.1

section Reads
variable (db : Database) (store : Store)

/-- The rows that a drain reads after the row `afterId` of the boundary. -/
def drainTasksAt (query : TaskQuery) (boundary : ℤ) (afterId : Text) : List TaskRow :=
  orderById TaskRow.taskId (store.tasks.select fun row =>
    decide (row.userId = some db.userId) && decide (row.lastModified = some boundary) &&
      decide (afterId < row.taskId) && query.inFilter row)

/-- The rows of the first query of `list_tasks`. -/
def taskPageRows (serverNow : ℤ) (query : TaskQuery) : List TaskRow :=
  (orderByStamp TaskRow.lastModified TaskRow.taskId
    (store.tasks.select (query.whereClause db serverNow))).take (clampLimit query.limit)

def Store.task (row : TaskRow) : Except Raised Task := rowToTask db.linkModel (store.join row)

def listTasks (serverNow : ℤ) (query : TaskQuery) : Except Raised (Page Task) :=
  assemblePage (store.task db) Task.lastModified (clampLimit query.limit) serverNow
    query.since.isSome (taskPageRows db store serverNow query)
    fun last => drainTasksAt db store query last.lastModified last.id

def activeTask (taskId : Text) : Option TaskRow :=
  (store.tasks.get taskId).filter (TaskRow.isActive db.userId)

def getTask (taskId : Text) : Except Raised (Option Task) :=
  match activeTask db store taskId with
  | some row => do
      let task ← store.task db row
      return some task
  | none => .ok none

def taskExists (taskId : Text) : Bool := (activeTask db store taskId).isSome

def rowMatchesVersion (taskId : Text) (expectedLastModified : ℤ) : Bool :=
  match activeTask db store taskId with
  | some row => decide (row.lastModified = some expectedLastModified)
  | none => false

variable {db store}

theorem mem_taskPageRows {serverNow : ℤ} {query : TaskQuery} {row : TaskRow}
    (onPage : row ∈ taskPageRows db store serverNow query) : row ∈ store.tasks.rows := by
  have selected := mem_orderByStamp.mp (List.mem_of_mem_take onPage)
  exact ((store.tasks.mem_select _ row).mp selected).1

theorem mem_drainTasksAt {query : TaskQuery} {boundary : ℤ} {afterId : Text} {row : TaskRow}
    (drained : row ∈ drainTasksAt db store query boundary afterId) : row ∈ store.tasks.rows := by
  have selected := (List.mem_insertionSort _).mp drained
  exact ((store.tasks.mem_select _ row).mp selected).1

theorem activeTask_eq_some_iff {taskId : Text} {row : TaskRow} :
    activeTask db store taskId = some row ↔
      store.tasks.get taskId = some row ∧ row.isActive db.userId = true := by
  rw [activeTask, Option.filter_eq_some_iff]

theorem getTask_eq_some_iff {taskId : Text} :
    (∃ task, getTask db store taskId = .ok (some task)) ↔
      ∃ row, activeTask db store taskId = some row ∧ Readable db.linkModel row := by
  rw [getTask]
  cases activeTask db store taskId with
  | none => simp
  | some row =>
      simp only [bind_eq_ok_iff, pure_eq_ok_iff, Option.some.injEq, exists_eq_left']
      rw [exists_comm]
      simp only [exists_and_left, exists_eq', and_true]
      exact rowToTask_ok_iff (store.join row)

end Reads

/-! ## Writes -/

/-- `COALESCE(MAX(sort), -1) + 1` over the active siblings. -/
def nextSort (store : Store) (listId : Option Text) (userId : ℤ) : ℤ :=
  ((store.tasks.select fun row => decide (row.taskListId = listId) && row.isActive userId).filterMap
    TaskRow.sort).max?.getD (-1) + 1

/-- The next position lies behind every active sibling. -/
theorem lt_nextSort {store : Store} {listId : Option Text} {userId sort : ℤ} {row : TaskRow}
    (member : row ∈ store.tasks.rows) (sibling : row.taskListId = listId)
    (active : row.isActive userId = true) (placed : row.sort = some sort) :
    sort < nextSort store listId userId := by
  have selected : sort ∈ (store.tasks.select fun row =>
      decide (row.taskListId = listId) && row.isActive userId).filterMap TaskRow.sort := by
    refine List.mem_filterMap.mpr ⟨row, ?_, placed⟩
    simp only [KeyedTable.mem_select, Bool.and_eq_true, decide_eq_true_eq]
    exact ⟨member, sibling, active⟩
  exact lt_nextNumber selected

theorem nextSort_nonneg {store : Store} {listId : Option Text} {userId : ℤ}
    (placed : ∀ row ∈ store.tasks.rows, row.taskListId = listId → row.isActive userId = true →
      ∀ sort, row.sort = some sort → 0 ≤ sort) : 0 ≤ nextSort store listId userId := by
  apply nextNumber_nonneg
  intro sort position
  obtain ⟨row, selected, isSort⟩ := List.mem_filterMap.mp position
  simp only [KeyedTable.mem_select, Bool.and_eq_true, decide_eq_true_eq] at selected
  exact placed row selected.1 selected.2.1 selected.2.2 sort isSort

def newTaskRow (db : Database) (store : Store) (taskId : Text) (ts : ℤ)
    (data : TaskCreate) : TaskRow where
  taskId := taskId
  taskListId := data.listId.map IdStr.value
  userId := some db.userId
  title := some (encodeEmoji data.title.text)
  detail := some (encodeDetail data.detail.text)
  lastModified := some ts
  isReminderOn := some NO
  status := some data.status.value
  importance := data.importance.map fun importance => pythonStr importance.value
  dueTime := some (dtToMs data.due)
  completedTime := some (if data.status = .completed then ts else 0)
  links := data.documentLink.map fun link => encodeDocumentLink (linkPayload link)
  isDeleted := some NO
  sort := some (match data.sort with
    | some sort => sort
    | none => nextSort store (data.listId.map IdStr.value) db.userId)
  sortCompleted := some 0
  planerSort := some 0
  allSort := none
  allSortCompleted := none
  sortTime := some ts
  planerSortTime := some 0
  allSortTime := none

def titleT : BoundedText 1 TITLE_MAX := ⟨['t'], by decide⟩

def titleOnly : TaskCreate := { title := titleT }

/-- The row of a task created in the Inbox with nothing but a title. -/
def plainTask (taskId : Text) (ts : ℤ) : TaskRow :=
  newTaskRow singleUser .empty taskId ts titleOnly

theorem plainTask_readable (linkModel : LinkModel) (id : Text) (ts : ℤ) :
    Readable linkModel (plainTask id ts) := by
  have epoch : (0 : ℤ) ≤ lastInstantMs := by decide
  exact ⟨⟨none, rfl⟩, ⟨.needsAction, rfl⟩, epoch, epoch⟩

def oneTask : Store := ⟨⟨[plainTask ['a'] 1000], by decide⟩, .empty⟩

def twoTasks : Store := ⟨⟨[plainTask ['a'] 1000, plainTask ['b'] 2000], by decide⟩, .empty⟩

def sameMillisecond : Store :=
  ⟨⟨[plainTask ['a'] 1000, plainTask ['b'] 1000], by decide⟩, .empty⟩

def tiedTasks : Store :=
  ⟨⟨[plainTask ['a'] 1000, plainTask ['b'] 2000, plainTask ['c'] 2000], by decide⟩, .empty⟩

/-- The new id and the tables afterwards; a taken id violates the primary key. -/
def createTask (db : Database) (store : Store) (taskId : Text) (ts : ℤ) (data : TaskCreate) :
    Except Raised (Text × Store) :=
  match store.tasks.insert (newTaskRow db store taskId ts data) with
  | some tasks => .ok (taskId, { store with tasks := tasks })
  | none => .error .databaseError

/-- The `INSERT` of a row whose position was read in a statement of its own. -/
def insertTask (store : Store) (row : TaskRow) : Except Raised (Text × Store) :=
  match store.tasks.insert row with
  | some tasks => .ok (row.taskId, { store with tasks := tasks })
  | none => .error .databaseError

/-- With the position that it was given, the row is the one of the whole create. -/
theorem insertTask_placed {db : Database} {store : Store} {taskId : Text} {ts sort : ℤ}
    {data : TaskCreate} (placed : (newTaskRow db store taskId ts data).sort = some sort) :
    insertTask store { newTaskRow db store taskId ts data with sort := some sort } =
      createTask db store taskId ts data := by
  rw [← placed]
  rfl

/-- The fragments of a partial update, before the stamp. -/
def updateSets (data : TaskUpdate) (statusNow : ℤ) : List TaskSet :=
  (match data.title with
    | .given title => [.title (encodeEmoji title.text)]
    | _ => []) ++
  (match data.detail with
    | .given detail => [.detail (encodeDetail detail.text)]
    | _ => []) ++
  (match data.status with
    | .given status =>
        [.status status.value, .completedTime (if status = .completed then statusNow else 0)]
    | _ => []) ++
  (match data.importance with
    | .given importance => [.importance (some (pythonStr importance.value))]
    | .null => [.importance none]
    | .omitted => []) ++
  (match data.due with
    | .given due => [.dueTime (dtToMs (some due))]
    | .null => [.dueTime (dtToMs none)]
    | .omitted => []) ++
  (match data.sort with
    | .given sort => [.sort sort]
    | _ => []) ++
  (match data.listId with
    | .given listId => [.taskListId (some listId.value)]
    | .null => [.taskListId none]
    | .omitted => []) ++
  (match data.documentLink with
    | .given link => [.links (some (encodeDocumentLink (linkPayload link)))]
    | .null => [.links none]
    | .omitted => [])

def updatedRow (data : TaskUpdate) (statusNow now : ℤ) (row : TaskRow) : TaskRow :=
  { row with
    title := match data.title with
      | .given title => some (encodeEmoji title.text)
      | _ => row.title
    detail := match data.detail with
      | .given detail => some (encodeDetail detail.text)
      | _ => row.detail
    status := match data.status with
      | .given status => some status.value
      | _ => row.status
    completedTime := match data.status with
      | .given status => some (if status = .completed then statusNow else 0)
      | _ => row.completedTime
    importance := match data.importance with
      | .given importance => some (pythonStr importance.value)
      | .null => none
      | .omitted => row.importance
    dueTime := match data.due with
      | .given due => some (dtToMs (some due))
      | .null => some (dtToMs none)
      | .omitted => row.dueTime
    sort := match data.sort with
      | .given sort => some (sort : ℤ)
      | _ => row.sort
    taskListId := match data.listId with
      | .given listId => some listId.value
      | .null => none
      | .omitted => row.taskListId
    links := match data.documentLink with
      | .given link => some (encodeDocumentLink (linkPayload link))
      | .null => none
      | .omitted => row.links
    lastModified := some now }

theorem assign_updateSets (data : TaskUpdate) (statusNow now : ℤ) (row : TaskRow) :
    row.assign (updateSets data statusNow ++ [.lastModified now]) =
      updatedRow data statusNow now row := by
  have title : ∀ row : TaskRow, row.assign (match data.title with
        | .given title => [.title (encodeEmoji title.text)]
        | _ => []) =
      { row with title := match data.title with
        | .given title => some (encodeEmoji title.text)
        | _ => row.title } := by
    intro row
    cases data.title <;> rfl
  have detail : ∀ row : TaskRow, row.assign (match data.detail with
        | .given detail => [.detail (encodeDetail detail.text)]
        | _ => []) =
      { row with detail := match data.detail with
        | .given detail => some (encodeDetail detail.text)
        | _ => row.detail } := by
    intro row
    cases data.detail <;> rfl
  have status : ∀ row : TaskRow, row.assign (match data.status with
        | .given status =>
            [.status status.value, .completedTime (if status = .completed then statusNow else 0)]
        | _ => []) =
      { row with
        status := match data.status with
          | .given status => some status.value
          | _ => row.status
        completedTime := match data.status with
          | .given status => some (if status = .completed then statusNow else 0)
          | _ => row.completedTime } := by
    intro row
    cases data.status <;> rfl
  have importance : ∀ row : TaskRow, row.assign (match data.importance with
        | .given importance => [.importance (some (pythonStr importance.value))]
        | .null => [.importance none]
        | .omitted => []) =
      { row with importance := match data.importance with
        | .given importance => some (pythonStr importance.value)
        | .null => none
        | .omitted => row.importance } := by
    intro row
    cases data.importance <;> rfl
  have due : ∀ row : TaskRow, row.assign (match data.due with
        | .given due => [.dueTime (dtToMs (some due))]
        | .null => [.dueTime (dtToMs none)]
        | .omitted => []) =
      { row with dueTime := match data.due with
        | .given due => some (dtToMs (some due))
        | .null => some (dtToMs none)
        | .omitted => row.dueTime } := by
    intro row
    cases data.due <;> rfl
  have sort : ∀ row : TaskRow, row.assign (match data.sort with
        | .given sort => [.sort sort]
        | _ => []) =
      { row with sort := match data.sort with
        | .given sort => some (sort : ℤ)
        | _ => row.sort } := by
    intro row
    cases data.sort <;> rfl
  have listId : ∀ row : TaskRow, row.assign (match data.listId with
        | .given listId => [.taskListId (some listId.value)]
        | .null => [.taskListId none]
        | .omitted => []) =
      { row with taskListId := match data.listId with
        | .given listId => some listId.value
        | .null => none
        | .omitted => row.taskListId } := by
    intro row
    cases data.listId <;> rfl
  have link : ∀ row : TaskRow, row.assign (match data.documentLink with
        | .given link => [.links (some (encodeDocumentLink (linkPayload link)))]
        | .null => [.links none]
        | .omitted => []) =
      { row with links := match data.documentLink with
        | .given link => some (encodeDocumentLink (linkPayload link))
        | .null => none
        | .omitted => row.links } := by
    intro row
    cases data.documentLink <;> rfl
  simp only [updateSets, TaskRow.assign_append]
  rw [title, detail, status, importance, due, sort, listId, link]
  rfl

section Writes
variable (db : Database) (store : Store)

def updateTask (statusNow now : ℤ) (taskId : Text) (data : TaskUpdate)
    (expectedLastModified : Option ℤ) : Bool × Store :=
  if (updateSets data statusNow).isEmpty then
    match expectedLastModified with
    | some expected => (rowMatchesVersion db store taskId expected, store)
    | none => (taskExists db store taskId, store)
  else
    executeTaskUpdate db store expectedLastModified
      (updateSets data statusNow ++ [.lastModified now]) taskId

def setStatus (statusNow now : ℤ) (taskId : Text) (status : TaskStatus)
    (expectedLastModified : Option ℤ) : Bool × Store :=
  updateTask db store statusNow now taskId (.ofStatus status) expectedLastModified

def deleteTask (now : ℤ) (taskId : Text) (expectedLastModified : Option ℤ) : Bool × Store :=
  executeTaskUpdate db store expectedLastModified [.isDeleted YES, .lastModified now] taskId

end Writes

/-! ## A delta read is a keyset page -/

section Delta
variable {db : Database} {store : Store} {serverNow since : ℤ} {query : TaskQuery}

abbrev taskKeys : Keyset TaskRow Text := stampKeys TaskRow.lastModified TaskRow.taskId

variable (db query) in
def deltaBase (row : TaskRow) : Bool := decide (row.userId = some db.userId) && query.inFilter row

variable (db store query) in
/-- The rows that a delta read ranges over, whatever its window. -/
def matchingTasks : List TaskRow :=
  store.tasks.select fun row => deltaBase db query row && row.lastModified.isSome

theorem mem_matchingTasks {row : TaskRow} :
    row ∈ matchingTasks db store query ↔
      row ∈ store.tasks.rows ∧ row.userId = some db.userId ∧ query.inFilter row = true ∧
        ∃ m, row.lastModified = some m := by
  simp only [matchingTasks, deltaBase, KeyedTable.mem_select, Bool.and_eq_true,
    decide_eq_true_eq, Option.isSome_iff_exists, and_assoc]

variable (db store query) in
theorem matchingTasks_ties_nodup : ((matchingTasks db store query).map taskKeys.tie).Nodup :=
  store.tasks.select_keys_nodup _

theorem select_where_delta (delta : query.since = some since) :
    store.tasks.select (query.whereClause db serverNow) =
      windowOf taskKeys (matchingTasks db store query) since serverNow := by
  unfold matchingTasks KeyedTable.select
  rw [← filter_stampedWithin]
  congr 1
  funext row
  simp only [TaskQuery.whereClause, deltaBase, delta, Bool.and_right_comm]

theorem drainTasksAt_row {last : TaskRow}
    (member : last ∈ windowOf taskKeys (matchingTasks db store query) since serverNow) :
    drainTasksAt db store query (taskKeys.stamp last) last.taskId =
      remainder taskKeys (windowOf taskKeys (matchingTasks db store query) since serverNow)
        last := by
  obtain ⟨lastMatching, lower, upper⟩ := mem_windowOf.mp member
  obtain ⟨-, -, -, m, stamped⟩ := mem_matchingTasks.mp lastMatching
  rw [stampKeys_stamp stamped] at lower upper ⊢
  unfold matchingTasks KeyedTable.select
  rw [← drain_eq_remainder store.tasks.rows (deltaBase db query) stamped lower upper, drainTasksAt]
  congr 2
  funext row
  simp only [deltaBase, Bool.and_assoc, Bool.and_comm]

theorem drainTasksAt_eq_remainder {last : TaskRow} {task : Task}
    (member : last ∈ windowOf taskKeys (matchingTasks db store query) since serverNow)
    (mapped : store.task db last = .ok task) :
    drainTasksAt db store query task.lastModified task.id =
      remainder taskKeys (windowOf taskKeys (matchingTasks db store query) since serverNow)
        last := by
  have boundary : task.lastModified = taskKeys.stamp last := rowToTask_lastModified mapped
  have boundaryId : task.id = last.taskId := rowToTask_id mapped
  rw [boundary, boundaryId]
  exact drainTasksAt_row member

theorem listTasks_delta (delta : query.since = some since) :
    listTasks db store serverNow query =
      renderPage (store.task db) (deltaPage taskKeys (clampLimit query.limit) serverNow
        (windowOf taskKeys (matchingTasks db store query) since serverNow)) := by
  have stamped : ∀ row ∈ windowOf taskKeys (matchingTasks db store query) since serverNow,
      ∃ m, row.lastModified = some m := by
    intro row member
    obtain ⟨-, -, -, rowStamped⟩ := mem_matchingTasks.mp (mem_windowOf.mp member).1
    exact rowStamped
  unfold listTasks taskPageRows
  rw [select_where_delta delta, orderByStamp_eq_sort stamped, delta, Option.isSome_some]
  exact assemblePage_delta (fun row task mapped => rowToTask_lastModified mapped) _ _ _
    fun last task member mapped => drainTasksAt_eq_remainder member mapped

end Delta

end SupernoteTaskService
