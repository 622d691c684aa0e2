import SupernoteTaskService.Foundation.Agreement
import SupernoteTaskService.Repository.Operations

/-!
# Isolation of the exposed user

Two databases with the same rows of the exposed user, whatever other users have.  Every
statement carries the user's id except two: the join that finds the category of a task,
and the primary key that an `INSERT` may violate.  `operation_isolated_iff` says for
each operation exactly when these two let another user's rows show.
-/

set_option autoImplicit false

namespace SupernoteTaskService

open Foundation

/-! ## Agreement -/

section Agreement
variable (db : Database)

def ListRow.owned (row : ListRow) : Bool := decide (row.userId = some db.userId)

/-- The exposed user has the same rows in both.  The lists are in the same
physical order, which is the order of equal titles. -/
structure Agree (left right : Store) : Prop where
  tasks : KeyedTable.AgreeOn (fun row : TaskRow => row.userId = some db.userId) left.tasks
    right.tasks
  lists : KeyedTable.SameOn (ListRow.owned db) left.lists right.lists

/-- No row of another user has changed, appeared or gone. -/
structure ForeignKept (before after : Store) : Prop where
  tasks : KeyedTable.AgreeOn (fun row : TaskRow => row.userId ≠ some db.userId) before.tasks
    after.tasks
  lists : KeyedTable.AgreeOn (fun row : ListRow => row.userId ≠ some db.userId) before.lists
    after.lists

theorem ForeignKept.refl (store : Store) : ForeignKept db store store :=
  ⟨KeyedTable.AgreeOn.refl store.tasks, KeyedTable.AgreeOn.refl store.lists⟩

end Agreement

/-! ## The rows that a read finds -/

section Reads
variable {db : Database} {left right : Store}

theorem TaskRow.isActive_owned (row : TaskRow) (active : row.isActive db.userId = true) :
    row.userId = some db.userId :=
  (TaskRow.isActive_iff.mp active).1

theorem ListRow.isActive_owned (row : ListRow) (active : row.isActive db.userId = true) :
    row.owned db = true :=
  decide_eq_true (ListRow.isActive_iff.mp active).1

theorem Agree.activeTask_eq (agree : Agree db left right) (taskId : Text) :
    activeTask db left taskId = activeTask db right taskId :=
  agree.tasks.filter_get TaskRow.isActive_owned taskId

theorem Agree.activeList_eq (agree : Agree db left right) (listId : Text) :
    activeList db left listId = activeList db right listId :=
  agree.lists.agreeOn.filter_get ListRow.isActive_owned listId

theorem Agree.taskExists_eq (agree : Agree db left right) (taskId : Text) :
    taskExists db left taskId = taskExists db right taskId := by
  rw [taskExists, taskExists, agree.activeTask_eq]

theorem Agree.rowMatchesVersion_eq (agree : Agree db left right) (taskId : Text) (expected : ℤ) :
    rowMatchesVersion db left taskId expected = rowMatchesVersion db right taskId expected := by
  rw [rowMatchesVersion, rowMatchesVersion, agree.activeTask_eq]

/-- A query on the user's tasks that ends in a sort cannot tell the databases apart. -/
theorem Agree.taskPageRows_eq (agree : Agree db left right) (serverNow : ℤ) (query : TaskQuery) :
    taskPageRows db left serverNow query = taskPageRows db right serverNow query := by
  have covers : ∀ row, query.whereClause db serverNow row = true →
      row.userId = some db.userId := by
    intro row hit
    exact query.whereClause_owned hit
  rw [taskPageRows, taskPageRows,
    orderByStamp_perm (agree.tasks.select_perm covers) (left.tasks.select_keys_nodup _)]

theorem Agree.drainTasksAt_eq (agree : Agree db left right) (query : TaskQuery) (boundary : ℤ)
    (afterId : Text) :
    drainTasksAt db left query boundary afterId = drainTasksAt db right query boundary afterId := by
  refine orderById_perm (agree.tasks.select_perm fun row hit => ?_) (left.tasks.select_keys_nodup _)
  simp only [Bool.and_eq_true, decide_eq_true_eq] at hit
  exact hit.1.1.1

theorem Agree.nextSort_eq (agree : Agree db left right) (listId : Option Text) :
    nextSort left listId db.userId = nextSort right listId db.userId := by
  have covers : ∀ row : TaskRow,
      (decide (row.taskListId = listId) && row.isActive db.userId) = true →
        row.userId = some db.userId :=
    fun row hit => row.isActive_owned (Bool.and_eq_true_iff.mp hit).2
  exact nextNumber_perm ((agree.tasks.select_perm covers).filterMap TaskRow.sort)

theorem Agree.select_lists_eq (agree : Agree db left right) {condition : ListRow → Bool}
    (covers : ∀ row, condition row = true → row.owned db = true) :
    left.lists.select condition = right.lists.select condition :=
  agree.lists.select_eq covers

theorem Agree.listLists_eq (agree : Agree db left right) (serverNow : ℤ) (query : ListQuery) :
    listLists db left serverNow query = listLists db right serverNow query := by
  have delta : ∀ since, (left.lists.select fun row => decide (row.userId = some db.userId) &&
        stampedWithin since serverNow row.lastModified) =
      right.lists.select fun row => decide (row.userId = some db.userId) &&
        stampedWithin since serverNow row.lastModified := fun since =>
    agree.select_lists_eq fun row hit => (Bool.and_eq_true_iff.mp hit).1
  have rows : listPageRows db left serverNow query = listPageRows db right serverNow query := by
    simp only [listPageRows, delta, agree.select_lists_eq ListRow.isActive_owned]
  have drains : ∀ boundary afterId,
      drainListsAt db left boundary afterId = drainListsAt db right boundary afterId := by
    intro boundary afterId
    refine congrArg (orderById ListRow.taskListId) (agree.select_lists_eq fun row hit => ?_)
    exact (Bool.and_eq_true_iff.mp (Bool.and_eq_true_iff.mp hit).1).1
  simp only [listLists, rows, drains]

theorem Agree.getListByTitle_eq (agree : Agree db left right) (title : Text) :
    getListByTitle db left title = getListByTitle db right title := by
  rw [getListByTitle, getListByTitle, agree.select_lists_eq fun row hit =>
    row.isActive_owned (Bool.and_eq_true_iff.mp hit).2]

end Reads

/-! ## The categories that a read shows -/

section Categories
variable {db : Database} {left right : Store}

def taskRowPage (db : Database) (store : Store) (serverNow : ℤ) (query : TaskQuery) :
    Page TaskRow :=
  rowPage taskKeys.stamp (clampLimit query.limit) serverNow query.since.isSome
    (taskPageRows db store serverNow query)
    fun last => drainTasksAt db store query (taskKeys.stamp last) last.taskId

theorem listTasks_eq_renderPage (store : Store) (serverNow : ℤ) (query : TaskQuery) :
    listTasks db store serverNow query =
      renderPage (store.task db) (taskRowPage db store serverNow query) := by
  have keepsStamp : ∀ row task, store.task db row = .ok task →
      task.lastModified = taskKeys.stamp row := fun row task mapped =>
    rowToTask_lastModified mapped
  refine assemblePage_eq_renderPage keepsStamp _ _ _ fun row task _ mapped => ?_
  have isId : task.id = row.taskId := rowToTask_id mapped
  rw [keepsStamp row task mapped, isId]

theorem Agree.taskRowPage_eq (agree : Agree db left right) (serverNow : ℤ) (query : TaskQuery) :
    taskRowPage db left serverNow query = taskRowPage db right serverNow query := by
  simp only [taskRowPage, agree.taskPageRows_eq, agree.drainTasksAt_eq]

/-- The rows show the same category from both databases, or one of them cannot be shown
from either. -/
def RendersAlike (db : Database) (left right : Store) (rows : List TaskRow) : Prop :=
  (∃ row ∈ rows, ¬ Readable db.linkModel row) ∨
    ∀ row ∈ rows, decodeEmoji (some (left.category row.taskListId)) =
      decodeEmoji (some (right.category row.taskListId))

theorem task_alike (left right : Store) (row : TaskRow) :
    (∃ e, left.task db row = .error e ∧ right.task db row = .error e) ∨
      ∃ documentLink status due completed,
        left.task db row = .ok (taskOf (left.join row) documentLink status due completed) ∧
        right.task db row = .ok (taskOf (right.join row) documentLink status due completed) := by
  simp only [Store.task, rowToTask, Store.join]
  cases documentLinkOf db.linkModel row.links with
  | error e => exact Or.inl ⟨e, rfl, rfl⟩
  | ok documentLink =>
      cases statusOf row.status with
      | error e => exact Or.inl ⟨e, rfl, rfl⟩
      | ok status =>
          cases msToDatetime (some (row.dueTime.getD 0)) with
          | error e => exact Or.inl ⟨e, rfl, rfl⟩
          | ok due =>
              cases msToDatetime (some (row.completedTime.getD 0)) with
              | error e => exact Or.inl ⟨e, rfl, rfl⟩
              | ok completed => exact Or.inr ⟨documentLink, status, due, completed, rfl, rfl⟩

/-- A readable row renders alike exactly when it shows the same category. -/
theorem task_eq_iff {row : TaskRow} (readable : Readable db.linkModel row) :
    left.task db row = right.task db row ↔
      decodeEmoji (some (left.category row.taskListId)) =
        decodeEmoji (some (right.category row.taskListId)) := by
  obtain ⟨task, mapped⟩ := (rowToTask_ok_iff (left.join row)).mpr readable
  rcases task_alike left right row with
    ⟨e, failed, -⟩ | ⟨documentLink, status, due, completed, inLeft, inRight⟩
  · rw [Store.task, mapped] at failed
    cases failed
  · rw [inLeft, inRight, Except.ok.injEq]
    constructor
    · exact congrArg Task.category
    · intro sameCategory
      simp only [taskOf, Store.join, sameCategory]
      rfl

theorem not_readable_iff {row : TaskRow} :
    (∃ e, left.task db row = .error e) ↔ ¬ Readable db.linkModel row := by
  have shown : (∃ task, left.task db row = .ok task) ↔ Readable db.linkModel row :=
    rowToTask_ok_iff (left.join row)
  rw [← shown]
  cases left.task db row with
  | error e => simp
  | ok task => simp

theorem mapM_task_eq_iff (rows : List TaskRow) :
    rows.mapM (left.task db) = rows.mapM (right.task db) ↔ RendersAlike db left right rows := by
  have alike : ∀ row, (∃ e, left.task db row = .error e ∧ right.task db row = .error e) ∨
      ∃ task other, left.task db row = .ok task ∧ right.task db row = .ok other := by
    intro row
    rcases task_alike left right row with
      ⟨e, failed⟩ | ⟨documentLink, status, due, completed, inLeft, inRight⟩
    · exact Or.inl ⟨e, failed⟩
    · exact Or.inr ⟨_, _, inLeft, inRight⟩
  rw [mapM_eq_iff alike, RendersAlike]
  simp only [not_readable_iff]
  by_cases unreadable : ∃ row ∈ rows, ¬ Readable db.linkModel row
  · exact iff_of_true (Or.inl unreadable) (Or.inl unreadable)
  · simp only [unreadable, false_or]
    push Not at unreadable
    exact forall₂_congr fun row member => task_eq_iff (unreadable row member)

/-- The lists that tasks of the exposed user name are none of another user. -/
def NamesOwnLists (db : Database) (store : Store) : Prop :=
  ∀ row ∈ store.tasks.rows, row.userId = some db.userId →
    ∀ listId, row.taskListId = some listId →
      ∀ list, store.lists.get listId = some list → list.userId = some db.userId

/-- Where tasks name no list of another user, their categories are the user's own. -/
theorem Agree.rendersAlike_of_own (agree : Agree db left right) (ownLeft : NamesOwnLists db left)
    (ownRight : NamesOwnLists db right) {rows : List TaskRow}
    (mine : ∀ row ∈ rows, row ∈ left.tasks.rows ∧ row.userId = some db.userId) :
    RendersAlike db left right rows := by
  refine Or.inr fun row member => ?_
  obtain ⟨stored, owned⟩ := mine row member
  have sameList : row.taskListId.bind left.lists.get = row.taskListId.bind right.lists.get := by
    cases named : row.taskListId with
    | none => rfl
    | some listId =>
        have through : ∀ list : ListRow, list.userId = some db.userId →
            (left.lists.get listId = some list ↔ right.lists.get listId = some list) := by
          intro list isMine
          rw [KeyedTable.get_eq_some_iff, KeyedTable.get_eq_some_iff]
          exact and_congr_left fun _ => agree.lists.agreeOn list (decide_eq_true isMine)
        ext list
        rw [Option.bind_some, Option.bind_some]
        constructor
        · intro found
          exact (through list (ownLeft row stored owned listId named list found)).mp found
        · intro found
          have inRight := (agree.tasks row owned).mp stored
          exact (through list (ownRight row inRight owned listId named list found)).mpr found
  rw [Store.category, Store.category, sameList]

theorem listTasks_eq_iff (agree : Agree db left right) (serverNow : ℤ) (query : TaskQuery) :
    listTasks db left serverNow query = listTasks db right serverNow query ↔
      RendersAlike db left right (taskRowPage db left serverNow query).items := by
  rw [← mapM_task_eq_iff, listTasks_eq_renderPage, listTasks_eq_renderPage,
    ← agree.taskRowPage_eq, renderPage, renderPage]
  cases (taskRowPage db left serverNow query).items.mapM (left.task db) with
  | error e =>
      cases (taskRowPage db left serverNow query).items.mapM (right.task db) with
      | error e' => simp [bind, Except.bind]
      | ok tasks => simp [bind, Except.bind, pure, Except.pure]
  | ok tasks =>
      cases (taskRowPage db left serverNow query).items.mapM (right.task db) with
      | error e' => simp [bind, Except.bind, pure, Except.pure]
      | ok tasks => simp [bind, Except.bind, pure, Except.pure]

theorem getTask_eq_iff (agree : Agree db left right) (taskId : Text) :
    getTask db left taskId = getTask db right taskId ↔
      RendersAlike db left right (activeTask db left taskId).toList := by
  rw [← mapM_task_eq_iff, getTask, getTask, ← agree.activeTask_eq]
  cases activeTask db left taskId with
  | none => exact iff_of_true rfl rfl
  | some row =>
      simp only [Option.toList_some, List.mapM_cons, List.mapM_nil]
      cases left.task db row with
      | error e =>
          cases right.task db row with
          | error e' => simp [bind, Except.bind]
          | ok task => simp [bind, Except.bind, pure, Except.pure]
      | ok task =>
          cases right.task db row with
          | error e' => simp [bind, Except.bind, pure, Except.pure]
          | ok task' => simp [bind, Except.bind, pure, Except.pure]

end Categories

/-! ## Writes -/

section Writes
variable {db : Database} {left right : Store}

theorem Agree.executeTaskUpdate_eq (agree : Agree db left right) (expected : Option ℤ)
    (sets : List TaskSet) (taskId : Text) :
    (executeTaskUpdate db left expected sets taskId).1 =
        (executeTaskUpdate db right expected sets taskId).1 ∧
      Agree db (executeTaskUpdate db left expected sets taskId).2
        (executeTaskUpdate db right expected sets taskId).2 := by
  constructor
  · rw [Bool.eq_iff_iff, executeTaskUpdate_affected_iff, executeTaskUpdate_affected_iff]
    simp only [← and_assoc, ← activeTask_eq_some_iff, agree.activeTask_eq]
  · refine ⟨agree.tasks.update (TaskRow.assign_taskId sets) fun row => ?_, agree.lists⟩
    rw [TaskRow.assign_userId]

theorem Agree.executeListUpdate_eq (agree : Agree db left right) (expected : Option ℤ)
    (sets : List ListSet) (listId : Text) :
    (executeListUpdate db left expected sets listId).1 =
        (executeListUpdate db right expected sets listId).1 ∧
      Agree db (executeListUpdate db left expected sets listId).2
        (executeListUpdate db right expected sets listId).2 := by
  constructor
  · rw [Bool.eq_iff_iff, executeListUpdate_affected_iff, executeListUpdate_affected_iff]
    simp only [← and_assoc, ← activeList_eq_some_iff, agree.activeList_eq]
  · refine ⟨agree.tasks, agree.lists.update (ListRow.assign_taskListId sets) fun row => ?_⟩
    rw [ListRow.owned, ListRow.owned, ListRow.assign_userId]

variable (db) in
theorem foreignKept_executeTaskUpdate (store : Store) (expected : Option ℤ) (sets : List TaskSet)
    (taskId : Text) : ForeignKept db store (executeTaskUpdate db store expected sets taskId).2 := by
  refine ⟨KeyedTable.agreeOn_update store.tasks (TaskRow.assign_taskId sets) (fun row => ?_)
    fun row hit => ?_, KeyedTable.AgreeOn.refl store.lists⟩
  · rw [TaskRow.assign_userId]
  · exact not_not.mpr (row.isActive_owned (taskTarget_iff.mp hit).2.1)

variable (db) in
theorem foreignKept_executeListUpdate (store : Store) (expected : Option ℤ) (sets : List ListSet)
    (listId : Text) : ForeignKept db store (executeListUpdate db store expected sets listId).2 := by
  refine ⟨KeyedTable.AgreeOn.refl store.tasks, KeyedTable.agreeOn_update store.lists
    (ListRow.assign_taskListId sets) (fun row => ?_) fun row hit => ?_⟩
  · rw [ListRow.assign_userId]
  · exact not_not.mpr (ListRow.isActive_iff.mp (listTarget_iff.mp hit).2.1).1

theorem Agree.newTaskRow_eq (agree : Agree db left right) (taskId : Text) (now : ℤ)
    (data : TaskCreate) : newTaskRow db left taskId now data = newTaskRow db right taskId now data := by
  simp only [newTaskRow, agree.nextSort_eq]

end Writes

/-! ## Isolation -/

section Isolation
variable (db : Database) (left right : Store) (now : ℤ)

/-- The operation answers alike, and leaves the databases in agreement on the user's rows
and the rows of others alone. -/
structure Isolated (operation : Operation) : Prop where
  result : (operation.run db left now).1 = (operation.run db right now).1
  agree : Agree db (operation.run db left now).2 (operation.run db right now).2
  leftKept : ForeignKept db left (operation.run db left now).2
  rightKept : ForeignKept db right (operation.run db right now).2

/-- A read of tasks shows the same categories; a new id is taken in both or in neither. -/
def IsolatedWhen : Operation → Prop
  | .listTasks query => RendersAlike db left right (taskRowPage db left now query).items
  | .getTask taskId => RendersAlike db left right (activeTask db left taskId).toList
  | .createTask taskId _ => left.tasks.get taskId = none ↔ right.tasks.get taskId = none
  | .createList listId _ => left.lists.get listId = none ↔ right.lists.get listId = none
  | _ => True

variable {db left right}

theorem isolated_read_iff (agree : Agree db left right) {operation : Operation}
    (readsLeft : (operation.run db left now).2 = left)
    (readsRight : (operation.run db right now).2 = right) :
    Isolated db left right now operation ↔
      (operation.run db left now).1 = (operation.run db right now).1 := by
  refine ⟨Isolated.result, fun same => ⟨same, ?_, ?_, ?_⟩⟩
  · rw [readsLeft, readsRight]
    exact agree
  · rw [readsLeft]
    exact ForeignKept.refl db left
  · rw [readsRight]
    exact ForeignKept.refl db right

theorem except_map_inj {ε α β : Type} {f : α → β} (injective : ∀ a b, f a = f b → a = b)
    {first second : Except ε α} : first.map f = second.map f ↔ first = second := by
  refine ⟨fun same => ?_, congrArg _⟩
  cases first with
  | error e =>
      cases second with
      | error e' =>
          cases same
          rfl
      | ok b => cases same
  | ok a =>
      cases second with
      | error e' => cases same
      | ok b => rw [injective a b (Except.ok.inj same)]

theorem Agree.isolated_taskUpdate (agree : Agree db left right) {operation : Operation}
    (expected : Option ℤ) (sets : List TaskSet) (taskId : Text)
    (isUpdate : ∀ store, operation.run db store now =
      (.ok (.flag (executeTaskUpdate db store expected sets taskId).1),
        (executeTaskUpdate db store expected sets taskId).2)) :
    Isolated db left right now operation := by
  obtain ⟨sameFlag, agreeAfter⟩ := agree.executeTaskUpdate_eq expected sets taskId
  refine ⟨?_, ?_, ?_, ?_⟩
  · rw [isUpdate, isUpdate, sameFlag]
  · rw [isUpdate, isUpdate]
    exact agreeAfter
  · rw [isUpdate]
    exact foreignKept_executeTaskUpdate db left expected sets taskId
  · rw [isUpdate]
    exact foreignKept_executeTaskUpdate db right expected sets taskId

theorem Agree.isolated_listUpdate (agree : Agree db left right) {operation : Operation}
    (expected : Option ℤ) (sets : List ListSet) (listId : Text)
    (isUpdate : ∀ store, operation.run db store now =
      (.ok (.flag (executeListUpdate db store expected sets listId).1),
        (executeListUpdate db store expected sets listId).2)) :
    Isolated db left right now operation := by
  obtain ⟨sameFlag, agreeAfter⟩ := agree.executeListUpdate_eq expected sets listId
  refine ⟨?_, ?_, ?_, ?_⟩
  · rw [isUpdate, isUpdate, sameFlag]
  · rw [isUpdate, isUpdate]
    exact agreeAfter
  · rw [isUpdate]
    exact foreignKept_executeListUpdate db left expected sets listId
  · rw [isUpdate]
    exact foreignKept_executeListUpdate db right expected sets listId

theorem Agree.isolated_updateTask (agree : Agree db left right) (statusNow : ℤ) (taskId : Text)
    (data : TaskUpdate) (expected : Option ℤ) :
    Isolated db left right now (.updateTask statusNow taskId data expected) := by
  by_cases nothing : updateSets data statusNow = []
  · have reads : ∀ store, ((Operation.updateTask statusNow taskId data expected).run db store
        now).2 = store := fun store => updateTask_of_no_sets db store now statusNow nothing
    refine (isolated_read_iff now agree (reads left) (reads right)).mpr ?_
    simp only [Operation.run, updateTask, nothing, List.isEmpty_nil, if_true]
    cases expected with
    | none => simp only [agree.taskExists_eq]
    | some expected => simp only [agree.rowMatchesVersion_eq]
  · refine agree.isolated_taskUpdate now expected (updateSets data statusNow ++
      [.lastModified now]) taskId fun store => ?_
    simp only [Operation.run, updateTask_of_sets db store now statusNow nothing]

theorem Agree.isolated_insert_iff (agree : Agree db left right) {operation : Operation} (id : Text)
    (free : Store → Prop) (after : Store → Store)
    (inserted : ∀ store, free store → operation.run db store now = (.ok (.id id), after store))
    (refused : ∀ store, ¬ free store →
      operation.run db store now = (.error .databaseError, store))
    (agreeAfter : free left → free right → Agree db (after left) (after right))
    (kept : ∀ store, free store → ForeignKept db store (after store)) :
    Isolated db left right now operation ↔ (free left ↔ free right) := by
  by_cases freeLeft : free left
  · by_cases freeRight : free right
    · refine iff_of_true ⟨?_, ?_, ?_, ?_⟩ (iff_of_true freeLeft freeRight)
      · rw [inserted left freeLeft, inserted right freeRight]
      · rw [inserted left freeLeft, inserted right freeRight]
        exact agreeAfter freeLeft freeRight
      · rw [inserted left freeLeft]
        exact kept left freeLeft
      · rw [inserted right freeRight]
        exact kept right freeRight
    · refine iff_of_false (fun isolated => ?_) fun same => freeRight (same.mp freeLeft)
      have same := isolated.result
      rw [inserted left freeLeft, refused right freeRight] at same
      cases same
  · by_cases freeRight : free right
    · refine iff_of_false (fun isolated => ?_) fun same => freeLeft (same.mpr freeRight)
      have same := isolated.result
      rw [refused left freeLeft, inserted right freeRight] at same
      cases same
    · refine iff_of_true ?_ (iff_of_false freeLeft freeRight)
      refine (isolated_read_iff now agree ?_ ?_).mpr ?_
      · rw [refused left freeLeft]
      · rw [refused right freeRight]
      · rw [refused left freeLeft, refused right freeRight]

theorem Agree.isolated_createTask_iff (agree : Agree db left right) (taskId : Text)
    (data : TaskCreate) :
    Isolated db left right now (.createTask taskId data) ↔
      (left.tasks.get taskId = none ↔ right.tasks.get taskId = none) := by
  have isInsert : ∀ store : Store, store.tasks.get taskId = none →
      ∃ tasks, store.tasks.insert (newTaskRow db store taskId now data) = some tasks := by
    intro store free
    obtain ⟨tasks, inserted, -⟩ :=
      store.tasks.exists_insert (newTaskRow db store taskId now data) free
    exact ⟨tasks, inserted⟩
  refine agree.isolated_insert_iff now taskId (fun store => store.tasks.get taskId = none)
    (fun store => { store with
      tasks := (store.tasks.insert (newTaskRow db store taskId now data)).getD store.tasks })
    (fun store free => ?_) (fun store taken => ?_) (fun freeLeft freeRight => ?_)
    fun store free => ?_
  · obtain ⟨tasks, outcome⟩ := isInsert store free
    simp only [Operation.run, createTask, outcome, Option.getD_some]
  · have outcome : store.tasks.insert (newTaskRow db store taskId now data) = none :=
      (store.tasks.insert_eq_none_iff _).mpr taken
    simp only [Operation.run, createTask, outcome]
  · obtain ⟨leftTasks, inLeft⟩ := isInsert left freeLeft
    obtain ⟨rightTasks, inRight⟩ := isInsert right freeRight
    rw [inLeft, inRight]
    rw [← agree.newTaskRow_eq] at inRight
    exact ⟨agree.tasks.insert inLeft inRight, agree.lists⟩
  · obtain ⟨tasks, outcome⟩ := isInsert store free
    rw [outcome]
    exact ⟨KeyedTable.agreeOn_insert outcome (not_not.mpr rfl), .refl store.lists⟩

theorem Agree.isolated_createList_iff (agree : Agree db left right) (listId title : Text) :
    Isolated db left right now (.createList listId title) ↔
      (left.lists.get listId = none ↔ right.lists.get listId = none) := by
  have isInsert : ∀ store : Store, store.lists.get listId = none →
      ∃ lists, store.lists.insert (newListRow db listId now title) = some lists := by
    intro store free
    obtain ⟨lists, inserted, -⟩ := store.lists.exists_insert (newListRow db listId now title) free
    exact ⟨lists, inserted⟩
  refine agree.isolated_insert_iff now listId (fun store => store.lists.get listId = none)
    (fun store => { store with
      lists := (store.lists.insert (newListRow db listId now title)).getD store.lists })
    (fun store free => ?_) (fun store taken => ?_) (fun freeLeft freeRight => ?_)
    fun store free => ?_
  · obtain ⟨lists, outcome⟩ := isInsert store free
    simp only [Operation.run, createList, outcome, Option.getD_some]
  · have outcome : store.lists.insert (newListRow db listId now title) = none :=
      (store.lists.insert_eq_none_iff _).mpr taken
    simp only [Operation.run, createList, outcome]
  · obtain ⟨leftLists, inLeft⟩ := isInsert left freeLeft
    obtain ⟨rightLists, inRight⟩ := isInsert right freeRight
    rw [inLeft, inRight]
    exact ⟨agree.tasks, agree.lists.insert inLeft inRight⟩
  · obtain ⟨lists, outcome⟩ := isInsert store free
    rw [outcome]
    exact ⟨.refl store.tasks, KeyedTable.agreeOn_insert outcome (not_not.mpr rfl)⟩

end Isolation

/-- Between two databases in agreement on the user's rows, an operation answers alike,
keeps the agreement and leaves the rows of others alone exactly when its read of tasks
meets no category that differs, and its new id is taken in both or in neither. -/
theorem operation_isolated_iff (db : Database) {left right : Store} (now : ℤ)
    (operation : Operation) (agree : Agree db left right) :
    Isolated db left right now operation ↔ IsolatedWhen db left right now operation := by
  cases operation with
  | listTasks query =>
      rw [isolated_read_iff now agree rfl rfl, IsolatedWhen, ← listTasks_eq_iff agree]
      exact except_map_inj fun _ _ same => Returned.tasks.inj same
  | getTask taskId =>
      rw [isolated_read_iff now agree rfl rfl, IsolatedWhen, ← getTask_eq_iff agree]
      exact except_map_inj fun _ _ same => Returned.task.inj same
  | createTask taskId data => exact agree.isolated_createTask_iff now taskId data
  | updateTask statusNow taskId data expected =>
      exact iff_of_true (agree.isolated_updateTask now statusNow taskId data expected) trivial
  | setStatus statusNow taskId status expected =>
      have isUpdate := agree.isolated_updateTask now statusNow taskId (.ofStatus status) expected
      exact iff_of_true ⟨isUpdate.result, isUpdate.agree, isUpdate.leftKept, isUpdate.rightKept⟩
        trivial
  | deleteTask taskId expected =>
      exact iff_of_true (agree.isolated_taskUpdate now expected _ taskId fun store => rfl) trivial
  | taskExists taskId =>
      refine iff_of_true ((isolated_read_iff now agree rfl rfl).mpr ?_) trivial
      simp only [Operation.run, agree.taskExists_eq]
  | listLists query =>
      refine iff_of_true ((isolated_read_iff now agree rfl rfl).mpr ?_) trivial
      simp only [Operation.run, agree.listLists_eq]
  | getList listId =>
      refine iff_of_true ((isolated_read_iff now agree rfl rfl).mpr ?_) trivial
      simp only [Operation.run, getList, agree.activeList_eq]
  | listExists listId =>
      refine iff_of_true ((isolated_read_iff now agree rfl rfl).mpr ?_) trivial
      simp only [Operation.run, listExists, agree.activeList_eq]
  | getListByTitle title =>
      refine iff_of_true ((isolated_read_iff now agree rfl rfl).mpr ?_) trivial
      simp only [Operation.run, agree.getListByTitle_eq]
  | createList listId title => exact agree.isolated_createList_iff now listId title
  | updateList listId title expected =>
      exact iff_of_true (agree.isolated_listUpdate now expected _ listId fun store => rfl) trivial
  | deleteList listId expected =>
      exact iff_of_true (agree.isolated_listUpdate now expected _ listId fun store => rfl) trivial

def otherUsersList (title : Text) : ListRow :=
  { newListRow singleUser ['x'] 500 title with userId := some 2 }

def besideList (title : Text) : Store :=
  ⟨.single (plainTask ['a'] 1000), .single (otherUsersList title)⟩

def inOthersList (title : Text) : Store :=
  ⟨.single { plainTask ['a'] 1000 with taskListId := some ['x'] },
    .single (otherUsersList title)⟩

theorem others_list_is_not_seen :
    Isolated singleUser (besideList ['A']) (besideList ['B']) 2000 (.getTask ['a']) := by
  have agree : Agree singleUser (besideList ['A']) (besideList ['B']) := ⟨fun _ _ => Iff.rfl, rfl⟩
  refine (operation_isolated_iff singleUser 2000 (.getTask ['a']) agree).mpr ?_
  have inInbox : ∀ title, NamesOwnLists singleUser (besideList title) := by
    intro title row member _ listId named
    rw [List.mem_singleton.mp member] at named
    cases named
  refine agree.rendersAlike_of_own (inInbox ['A']) (inInbox ['B']) fun row member => ?_
  have found := activeTask_eq_some_iff.mp (Option.mem_toList.mp member)
  exact ⟨((KeyedTable.get_eq_some_iff _ ['a'] row).mp found.1).1,
    row.isActive_owned found.2⟩

/-- Two databases with the same rows of the exposed user, whose task shows the titles
of another user's lists. -/
theorem others_title_is_seen :
    Agree singleUser (inOthersList ['A']) (inOthersList ['B']) ∧
    getTask singleUser (inOthersList ['A']) ['a'] ≠
      getTask singleUser (inOthersList ['B']) ['a'] ∧
    listTasks singleUser (inOthersList ['A']) 2000 {} ≠
      listTasks singleUser (inOthersList ['B']) 2000 {} :=
  ⟨⟨fun _ _ => Iff.rfl, rfl⟩, by decide, by decide⟩

end SupernoteTaskService
