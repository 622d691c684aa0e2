import SupernoteTaskService.Foundation.Simulation
import SupernoteTaskService.Repository.Sql

/-!
# The operations carry out their statements

On the tables shown column by column, every statement of the repository can be bound and run,
and it reads and writes what the operation does on rows: what a placeholder gets is a value of
its column, a NULL is kept out by the conditions that the operation tests for it, and the join
neither loses nor repeats a task.
-/

set_option autoImplicit false

namespace SupernoteTaskService

open Foundation

/-! ## Rows in columns -/

namespace SqlValue

@[simp] theorem ofText_eq_text {value : Option Text} {text : Text} :
    ofText value = .text text ↔ value = some text := by
  cases value <;> simp [ofText]

@[simp] theorem ofInt_eq_int {value : Option ℤ} {int : ℤ} :
    ofInt value = .int int ↔ value = some int := by
  cases value <;> simp [ofInt]

@[simp] theorem ofText_eq_null {value : Option Text} : ofText value = .null ↔ value = none := by
  cases value <;> simp [ofText]

@[simp] theorem asText_ofText (value : Option Text) : (ofText value).asText = value := by
  cases value <;> rfl

@[simp] theorem asInt_ofInt (value : Option ℤ) : (ofInt value).asInt = value := by
  cases value <;> rfl

theorem ofText_injective : Function.Injective ofText := by
  intro left right same
  rw [← asText_ofText left, same, asText_ofText]

theorem ofInt_injective : Function.Injective ofInt := by
  intro left right same
  rw [← asInt_ofInt left, same, asInt_ofInt]

end SqlValue

def TaskRow.columns (row : TaskRow) : TaskColumn → SqlValue
  | .taskId => .text row.taskId
  | .taskListId => .ofText row.taskListId
  | .userId => .ofInt row.userId
  | .title => .ofText row.title
  | .detail => .ofText row.detail
  | .lastModified => .ofInt row.lastModified
  | .isReminderOn => .ofText row.isReminderOn
  | .status => .ofText row.status
  | .importance => .ofText row.importance
  | .dueTime => .ofInt row.dueTime
  | .completedTime => .ofInt row.completedTime
  | .links => .ofText row.links
  | .isDeleted => .ofText row.isDeleted
  | .sort => .ofInt row.sort
  | .sortCompleted => .ofInt row.sortCompleted
  | .planerSort => .ofInt row.planerSort
  | .allSort => .ofInt row.allSort
  | .allSortCompleted => .ofInt row.allSortCompleted
  | .sortTime => .ofInt row.sortTime
  | .planerSortTime => .ofInt row.planerSortTime
  | .allSortTime => .ofInt row.allSortTime

def ListRow.columns (row : ListRow) : ListColumn → SqlValue
  | .taskListId => .text row.taskListId
  | .userId => .ofInt row.userId
  | .title => .ofText row.title
  | .lastModified => .ofInt row.lastModified
  | .isDeleted => .ofText row.isDeleted
  | .createTime => .ofInt row.createTime

def Store.columns (store : Store) : Tables :=
  ⟨store.tasks.rows.map TaskRow.columns, store.lists.rows.map ListRow.columns⟩

def Store.joinedColumns (store : Store) (row : TaskRow) : JoinedColumn → SqlValue :=
  Sum.elim row.columns
    (((row.taskListId.bind store.lists.get).map ListRow.columns).getD fun _ => .null)

theorem TaskRow.columns_injective : Function.Injective TaskRow.columns := by
  intro left right same
  have on := congrFun same
  cases left
  cases right
  simp only [TaskRow.mk.injEq]
  exact ⟨SqlValue.text.inj (on .taskId), SqlValue.ofText_injective (on .taskListId),
    SqlValue.ofInt_injective (on .userId), SqlValue.ofText_injective (on .title),
    SqlValue.ofText_injective (on .detail), SqlValue.ofInt_injective (on .lastModified),
    SqlValue.ofText_injective (on .isReminderOn), SqlValue.ofText_injective (on .status),
    SqlValue.ofText_injective (on .importance), SqlValue.ofInt_injective (on .dueTime),
    SqlValue.ofInt_injective (on .completedTime), SqlValue.ofText_injective (on .links),
    SqlValue.ofText_injective (on .isDeleted), SqlValue.ofInt_injective (on .sort),
    SqlValue.ofInt_injective (on .sortCompleted), SqlValue.ofInt_injective (on .planerSort),
    SqlValue.ofInt_injective (on .allSort), SqlValue.ofInt_injective (on .allSortCompleted),
    SqlValue.ofInt_injective (on .sortTime), SqlValue.ofInt_injective (on .planerSortTime),
    SqlValue.ofInt_injective (on .allSortTime)⟩

theorem ListRow.columns_injective : Function.Injective ListRow.columns := by
  intro left right same
  have on := congrFun same
  cases left
  cases right
  simp only [ListRow.mk.injEq]
  exact ⟨SqlValue.text.inj (on .taskListId), SqlValue.ofInt_injective (on .userId),
    SqlValue.ofText_injective (on .title), SqlValue.ofInt_injective (on .lastModified),
    SqlValue.ofText_injective (on .isDeleted), SqlValue.ofInt_injective (on .createTime)⟩

theorem fetchTask_joinedColumns (db : Database) (store : Store) (row : TaskRow) :
    fetchTask db.linkModel (store.joinedColumns row) = store.task db row := by
  have category : ((store.joinedColumns row (.inr .title)).asText.getD "Inbox".toList) =
      store.category row.taskListId := by
    rw [Store.category, Store.joinedColumns, Sum.elim_inr]
    cases row.taskListId.bind store.lists.get with
    | none => rfl
    | some list =>
        rw [Option.map_some, Option.getD_some, Option.bind_some, ListRow.columns,
          SqlValue.asText_ofText]
  rw [fetchTask, JoinedRow.ofColumns, category]
  simp only [Store.joinedColumns, Sum.elim_inl, TaskRow.columns, SqlValue.asText_ofText,
    SqlValue.asInt_ofInt]
  rfl

theorem fetchList_columns (row : ListRow) : fetchList row.columns = rowToList row := by
  rw [fetchList, ListRow.ofColumns]
  simp only [ListRow.columns, SqlValue.asText_ofText, SqlValue.asInt_ofInt]
  rfl

/-- A list id matches at most one list, so the join is one of rows. -/
theorem joined_columns (db : Database) (store : Store) :
    Sql.joined db store.columns = store.tasks.rows.map store.joinedColumns := by
  have onList : ∀ (task : TaskRow) (list : ListRow),
      decide ((listSchema db).compare .taskListId .eq (task.columns .taskListId)
        (list.columns .taskListId) = some true) = decide (task.taskListId = some list.taskListId) := by
    intro task list
    have holds : (listSchema db).holds (fun _ => task.columns .taskListId)
        (.compare .taskListId .eq (.text list.taskListId)) =
          decide (task.columns .taskListId = .text list.taskListId) :=
      Schema.holds_eq SqlValue.noConfusion
    exact holds.trans (decide_eq_decide.mpr SqlValue.ofText_eq_text)
  have found : ∀ task : TaskRow, (store.lists.rows.filter fun list =>
      decide (task.taskListId = some list.taskListId)) =
        (task.taskListId.bind store.lists.get).toList := by
    intro task
    cases task.taskListId with
    | none =>
        refine List.filter_eq_nil_iff.mpr fun list _ hit => ?_
        cases of_decide_eq_true hit
    | some listId =>
        rw [Option.bind_some, ← store.lists.select_key listId, KeyedTable.select]
        refine List.filter_congr fun list _ => decide_eq_decide.mpr ?_
        rw [Option.some.injEq, eq_comm]
  rw [Sql.joined, Store.columns, leftJoin_eq_map, List.map_map]
  · refine List.map_congr_left fun task _ => ?_
    have first := congrArg List.head? (found task)
    rw [List.head?_filter, Option.head?_toList] at first
    rw [Function.comp_apply, List.find?_map, Store.joinedColumns, ← first]
    simp only [Function.comp_def, onList]
  · intro row member
    obtain ⟨task, -, rfl⟩ := List.mem_map.mp member
    rw [List.filter_map, List.length_map]
    simp only [Function.comp_def, onList, found]
    exact Option.length_toList_le

/-! ## Conditions on shown columns -/

section Conditions
variable {κ : Type} {type : κ → ColumnType} {textLe : κ → Text → Text → Bool}
  {columns : κ → SqlValue} {column : κ} {storedText : Option Text} {storedInt : Option ℤ}

theorem holds_text (shown : columns column = .ofText storedText) (value : Text) :
    (schemaOf type textLe).holds columns (.compare column .eq (.text value)) =
      decide (storedText = some value) := by
  rw [Schema.holds_eq SqlValue.noConfusion, shown]
  exact decide_eq_decide.mpr SqlValue.ofText_eq_text

theorem holds_int (shown : columns column = .ofInt storedInt) (value : ℤ) :
    (schemaOf type textLe).holds columns (.compare column .eq (.int value)) =
      decide (storedInt = some value) := by
  rw [Schema.holds_eq SqlValue.noConfusion, shown]
  exact decide_eq_decide.mpr SqlValue.ofInt_eq_int

theorem holds_nullSafeText (shown : columns column = .ofText storedText) (value : Option Text) :
    (schemaOf type textLe).holds columns (.compare column .nullSafeEq (.ofText value)) =
      decide (storedText = value) := by
  rw [Schema.holds_nullSafeEq, shown]
  exact decide_eq_decide.mpr SqlValue.ofText_injective.eq_iff

theorem holds_isNull (shown : columns column = .ofText storedText) :
    (schemaOf type textLe).holds columns (.isNull column) = decide (storedText = none) := by
  rw [Schema.holds_isNull, shown]
  exact decide_eq_decide.mpr SqlValue.ofText_eq_null

/-- The two bounds of a window keep a NULL out. -/
theorem holds_window (shown : columns column = .ofInt storedInt) (since serverNow : ℤ) :
    ((schemaOf type textLe).holds columns (.compare column .ge (.int since)) &&
      (schemaOf type textLe).holds columns (.compare column .le (.int serverNow))) =
        stampedWithin since serverNow storedInt := by
  cases storedInt with
  | none => rw [Schema.holds_null Comparison.noConfusion (Or.inl shown)]; rfl
  | some stamp =>
      have stored : columns column ≠ .null := shown ▸ SqlValue.noConfusion
      rw [Schema.holds_ge stored SqlValue.noConfusion, Schema.holds_le stored SqlValue.noConfusion,
        shown]
      rfl

theorem holds_after {id : Text} (shown : columns column = .text id)
    (codePoints : textLe column = byCodePoints) (value : Text) :
    (schemaOf type textLe).holds columns (.compare column .gt (.text value)) = decide (value < id) := by
  have stored : columns column ≠ .null := shown ▸ SqlValue.noConfusion
  rw [Schema.holds_gt stored SqlValue.noConfusion, shown]
  change (!textLe column id value) = _
  rw [codePoints, byCodePoints, ← decide_not]
  exact decide_eq_decide.mpr not_le

end Conditions

section Selections
variable {κ ρ : Type} {type : κ → ColumnType} {textLe : κ → Text → Text → Bool}
  {columns : ρ → κ → SqlValue} {column : κ} {storedText : ρ → Option Text} {storedInt : ρ → Option ℤ}

theorem selects_text (isText : type column = .text)
    (shown : ∀ row, columns row column = .ofText (storedText row)) (value : Text) :
    Selects (schemaOf type textLe) columns [equals column] [.text value]
      fun row => decide (storedText row = some value) :=
  selects_compare (by simp only [schemaOf, isText, ColumnType.admits])
    fun row => holds_text (shown row) value

theorem selects_int (isInt : type column = .int)
    (shown : ∀ row, columns row column = .ofInt (storedInt row)) (value : ℤ) :
    Selects (schemaOf type textLe) columns [equals column] [.int value]
      fun row => decide (storedInt row = some value) :=
  selects_compare (by simp only [schemaOf, isInt, ColumnType.admits])
    fun row => holds_int (shown row) value

theorem selects_notDeleted (shown : ∀ row, columns row column = .ofText (storedText row)) :
    Selects (schemaOf type textLe) columns [notDeleted column] []
      fun row => decide (storedText row = some NO) :=
  selects_literal fun row => holds_text (shown row) NO

theorem selects_window (isInt : type column = .int)
    (shown : ∀ row, columns row column = .ofInt (storedInt row)) (since serverNow : ℤ) :
    Selects (schemaOf type textLe) columns
      [.compare column .ge .placeholder, .compare column .le .placeholder] [.int since, .int serverNow]
      fun row => stampedWithin since serverNow (storedInt row) := by
  have admitted : ∀ value, (schemaOf type textLe).admits column (.int value) = true := by
    intro value
    simp only [schemaOf, isInt, ColumnType.admits]
  refine Selects.congr ((selects_compare (admitted since) fun row => rfl).append
    (selects_compare (admitted serverNow) fun row => rfl)) fun row => ?_
  exact holds_window (shown row) since serverNow

theorem selects_target {id userId isDeleted lastModified : κ} (idText : type id = .text)
    (userInt : type userId = .int) (stampInt : type lastModified = .int) {rowKey : ρ → Text}
    {user stamp : ρ → Option ℤ} {deleted : ρ → Option Text}
    (idShown : ∀ row, columns row id = .text (rowKey row))
    (userShown : ∀ row, columns row userId = .ofInt (user row))
    (deletedShown : ∀ row, columns row isDeleted = .ofText (deleted row))
    (stampShown : ∀ row, columns row lastModified = .ofInt (stamp row)) (db : Database) (key : Text)
    (expectedLastModified : Option ℤ) :
    Selects (schemaOf type textLe) columns
      (targetClauses id userId isDeleted lastModified expectedLastModified)
      (targetParams db key expectedLastModified) fun row =>
        decide (rowKey row = key) &&
          (decide (user row = some db.userId) && decide (deleted row = some NO)) &&
            versionMatches expectedLastModified (stamp row) := by
  have byId : Selects (schemaOf type textLe) columns [equals id] [.text key]
      fun row => decide (some (rowKey row) = some key) := selects_text idText idShown key
  have active := (byId.append (selects_int userInt userShown db.userId)).append
    (selects_notDeleted deletedShown)
  have versioned : Selects (schemaOf type textLe) columns
      (versionClauses lastModified expectedLastModified) (expectedLastModified.toList.map SqlValue.int)
      fun row => versionMatches expectedLastModified (stamp row) := by
    cases expectedLastModified with
    | none => exact selects_nil
    | some expected => exact selects_int stampInt stampShown expected
  refine (active.append versioned).congr fun row => ?_
  simp only [Option.some.injEq, Bool.and_assoc]

end Selections

/-! ## Orders -/

section Orders
variable {κ ρ : Type} {type : κ → ColumnType} {textLe : κ → Text → Text → Bool}
  {columns : ρ → κ → SqlValue} {lastModified : ρ → Option ℤ} {rowId : ρ → Text} {stamp id : κ}

theorem before_id (idShown : ∀ row, columns row id = .text (rowId row))
    (codePoints : textLe id = byCodePoints) (left right : ρ) :
    (schemaOf type textLe).before [id] (columns left) (columns right) =
      decide (rowId left ≤ rowId right) := by
  simp only [Schema.before, idShown, schemaOf, codePoints, SqlValue.le, byCodePoints, Bool.or_true,
    Bool.and_true]

theorem before_stamp (stampShown : ∀ row, columns row stamp = .ofInt (lastModified row))
    (idShown : ∀ row, columns row id = .text (rowId row)) (codePoints : textLe id = byCodePoints)
    (left right : ρ) :
    (schemaOf type textLe).before [stamp, id] (columns left) (columns right) =
      stampOrder lastModified rowId left right := by
  rw [Schema.before, before_id idShown codePoints, stampShown, stampShown, stampOrder]
  generalize decide (rowId left ≤ rowId right) = byId
  cases lastModified left with
  | none =>
      cases lastModified right with
      | none => rfl
      | some later => rfl
  | some earlier =>
      cases lastModified right with
      | none => rfl
      | some later =>
          simp only [schemaOf, SqlValue.ofInt, SqlValue.le, columnBefore, Option.some.injEq]
          rcases lt_trichotomy earlier later with less | same | greater
          · simp [less, less.le, not_le.mpr less]
          · simp [same]
          · simp [greater.le, not_le.mpr greater, greater.ne']

end Orders

theorem before_title (db : Database) (left right : ListRow) :
    (listSchema db).before [.title] left.columns right.columns = titleOrder db left right := by
  simp only [Schema.before, listSchema, schemaOf, ListRow.columns, Bool.or_true, Bool.and_true,
    titleOrder]
  cases left.title with
  | none => cases right.title <;> rfl
  | some leftTitle => cases right.title <;> rfl

/-! ## Reads -/

section TaskReads
variable (db : Database) (store : Store)

theorem selects_filter (query : TaskQuery) :
    Selects (joinedSchema db) store.joinedColumns query.filterClauses query.filterParams
      query.inFilter := by
  have shown : ∀ row, store.joinedColumns row (.inl .taskListId) = .ofText row.taskListId :=
    fun _ => rfl
  rw [TaskQuery.filterClauses, TaskQuery.filterParams]
  by_cases inbox : query.inboxOnly = true
  · rw [if_pos inbox, if_pos inbox]
    refine (selects_isNull fun row => holds_isNull (shown row)).congr fun row => ?_
    rw [TaskQuery.inFilter, if_pos inbox]
  · rw [if_neg inbox, if_neg inbox]
    cases given : query.listId with
    | none =>
        refine selects_nil.congr fun row => ?_
        rw [TaskQuery.inFilter, if_neg inbox, given]
    | some listId =>
        refine Selects.congr (selects_text (by rfl) shown listId) fun row => ?_
        rw [TaskQuery.inFilter, if_neg inbox, given]

theorem selects_owned : Selects (joinedSchema db) store.joinedColumns [equals (.inl .userId)]
    [.int db.userId] fun row => decide (row.userId = some db.userId) :=
  selects_int (by rfl) (by intro row; rfl) db.userId

def TaskQuery.inWindow (serverNow : ℤ) (query : TaskQuery) (row : TaskRow) : Bool :=
  match query.since with
  | some since => stampedWithin since serverNow row.lastModified
  | none =>
      decide (row.isDeleted = some NO) &&
        (query.includeCompleted || decide (row.status = some (TaskStatus.value .needsAction)))

theorem selects_taskWindow (serverNow : ℤ) (query : TaskQuery) :
    Selects (joinedSchema db) store.joinedColumns query.windowClauses (query.windowParams serverNow)
      (query.inWindow serverNow) := by
  have deletedShown : ∀ row, store.joinedColumns row (.inl .isDeleted) = .ofText row.isDeleted :=
    fun _ => rfl
  have statusShown : ∀ row, store.joinedColumns row (.inl .status) = .ofText row.status :=
    fun _ => rfl
  have stampShown : ∀ row, store.joinedColumns row (.inl .lastModified) = .ofInt row.lastModified :=
    fun _ => rfl
  rw [TaskQuery.windowClauses, TaskQuery.windowParams]
  cases given : query.since with
  | some since =>
      refine Selects.congr (selects_window (by rfl) stampShown since serverNow) fun row => ?_
      rw [TaskQuery.inWindow, given]
  | none =>
      have active : Selects (joinedSchema db) store.joinedColumns [notDeleted (.inl .isDeleted)] []
          fun row => decide (row.isDeleted = some NO) := selects_notDeleted deletedShown
      by_cases all : query.includeCompleted = true
      · simp only [if_pos all]
        refine Selects.congr (active.append selects_nil) fun row => ?_
        simp only [TaskQuery.inWindow, given, all, Bool.true_or]
      · simp only [if_neg all]
        have open_ : Selects (joinedSchema db) store.joinedColumns
            [.compare (.inl .status) .eq (.literal (.text (TaskStatus.value .needsAction)))] []
            fun row => decide (row.status = some (TaskStatus.value .needsAction)) :=
          selects_literal fun row => holds_text (statusShown row) _
        refine Selects.congr (active.append open_) fun row => ?_
        simp only [TaskQuery.inWindow, given, Bool.eq_false_iff.mpr all, Bool.false_or]

theorem selects_listTasks (serverNow : ℤ) (query : TaskQuery) :
    Selects (joinedSchema db) store.joinedColumns (listTasksSelect query).conditions
      ([.int db.userId] ++ query.windowParams serverNow ++ query.filterParams)
      (query.whereClause db serverNow) :=
  ((selects_owned db store).append (selects_taskWindow db store serverNow query)).append
    (selects_filter db store query)

theorem before_taskStamp (left right : TaskRow) :
    (joinedSchema db).before [.inl .lastModified, .inl .taskId] (store.joinedColumns left)
        (store.joinedColumns right) = stampOrder TaskRow.lastModified TaskRow.taskId left right :=
  before_stamp (by intro row; rfl) (by intro row; rfl) rfl left right

theorem takeLimit_clamped (limit : Option ℤ) :
    (joinedSchema db).takeLimit .placeholder [.int (clampLimit limit)] =
      some (some (clampLimit limit)) := by
  simp [Schema.takeLimit, schemaOf]

theorem select_listTasks (serverNow : ℤ) (query : TaskQuery) :
    (joinedSchema db).select (listTasksSelect query) (Sql.joined db store.columns)
        (listTasksParams query db serverNow) =
      some ((taskPageRows db store serverNow query).map store.joinedColumns) := by
  rw [joined_columns]
  exact Schema.select_map (listTasksSelect query) (selects_listTasks db store serverNow query)
    (takeLimit_clamped db query.limit)
    (fun left right => by rw [listTasksSelect, before_taskStamp]) _

theorem select_drainTasks (query : TaskQuery) (boundary : ℤ) (afterId : Text) :
    (joinedSchema db).select (drainTasksSelect query) (Sql.joined db store.columns)
        (drainTasksParams query db boundary afterId) =
      some ((drainTasksAt db store query boundary afterId).map store.joinedColumns) := by
  have idShown : ∀ row, store.joinedColumns row (.inl .taskId) = .text row.taskId := fun _ => rfl
  have onBoundary : Selects (joinedSchema db) store.joinedColumns [equals (.inl .lastModified)]
      [.int boundary] fun row => decide (row.lastModified = some boundary) :=
    selects_int (by rfl) (by intro row; rfl) boundary
  have after : Selects (joinedSchema db) store.joinedColumns [.compare (.inl .taskId) .gt .placeholder]
      [.text afterId] fun row => decide (afterId < row.taskId) :=
    selects_compare rfl fun row => holds_after (idShown row) rfl afterId
  have selects := (((selects_owned db store).append onBoundary).append after).append
    (selects_filter db store query)
  rw [joined_columns]
  refine Schema.select_all (drainTasksSelect query) selects rfl (fun left right => ?_) _
  rw [drainTasksSelect, before_id idShown rfl, decide_eq_true_eq]

/-- A target with an id is the active row of the id, if it has the version. -/
theorem filter_taskTarget (taskId : Text) (expectedLastModified : Option ℤ) :
    store.tasks.rows.filter (taskTarget db expectedLastModified taskId) =
      ((activeTask db store taskId).filter fun row =>
        versionMatches expectedLastModified row.lastModified).toList := by
  have byKey := store.tasks.select_key_and taskId fun row =>
    row.isActive db.userId && versionMatches expectedLastModified row.lastModified
  rw [activeTask, Option.filter_filter, ← byKey, KeyedTable.select]
  refine List.filter_congr fun row _ => ?_
  rw [taskTarget, Bool.and_assoc]

theorem select_getTask (taskId : Text) :
    (joinedSchema db).select getTaskSelect (Sql.joined db store.columns)
        (targetParams db taskId none) =
      some ((activeTask db store taskId).toList.map store.joinedColumns) := by
  have selects : Selects (joinedSchema db) store.joinedColumns getTaskSelect.conditions
      (targetParams db taskId none) (taskTarget db none taskId) :=
    selects_target (by rfl) (by rfl) (by rfl) (by intro row; rfl) (by intro row; rfl)
      (by intro row; rfl) (by intro row; rfl) db taskId none
  have all : (activeTask db store taskId).filter (fun row => versionMatches none row.lastModified) =
      activeTask db store taskId := by
    cases activeTask db store taskId <;> rfl
  rw [joined_columns, Schema.select_unordered getTaskSelect selects rfl rfl, filter_taskTarget, all]

theorem selects_taskTarget (taskId : Text) (expectedLastModified : Option ℤ) :
    Selects taskSchema TaskRow.columns (taskClauses expectedLastModified)
      (targetParams db taskId expectedLastModified) (taskTarget db expectedLastModified taskId) :=
  selects_target (by rfl) (by rfl) (by rfl) (by intro row; rfl) (by intro row; rfl)
    (by intro row; rfl) (by intro row; rfl) db taskId expectedLastModified

theorem taskFound_columns (taskId : Text) (expectedLastModified : Option ℤ) :
    Sql.taskFound db store.columns taskId expectedLastModified =
      some ((activeTask db store taskId).any fun row =>
        versionMatches expectedLastModified row.lastModified) := by
  have selects := selects_taskTarget db taskId expectedLastModified
  rw [Sql.taskFound, Store.columns, Schema.select_unordered _ selects rfl rfl, filter_taskTarget,
    Option.map_some, List.head?_map, Option.head?_toList, Option.isSome_map, Option.isSome_filter]

theorem any_unversioned (taskId : Text) : ((activeTask db store taskId).any fun row =>
    versionMatches none row.lastModified) = taskExists db store taskId := by
  rw [taskExists]
  cases activeTask db store taskId <;> rfl

theorem nextSort_columns (listId : Option Text) :
    Sql.nextSort db store.columns listId = some (nextSort store listId db.userId) := by
  have siblings : Selects taskSchema TaskRow.columns [.compare .taskListId .nullSafeEq .placeholder]
      [.ofText listId] fun row => decide (row.taskListId = listId) := by
    refine selects_compare ?_ fun row => holds_nullSafeText (by rfl) listId
    cases listId <;> rfl
  have owned : Selects taskSchema TaskRow.columns [equals .userId] [.int db.userId]
      fun row => decide (row.userId = some db.userId) :=
    selects_int (by rfl) (by intro row; rfl) db.userId
  have active : Selects taskSchema TaskRow.columns [notDeleted .isDeleted] []
      fun row => decide (row.isDeleted = some NO) := selects_notDeleted (by intro row; rfl)
  have selects : Selects taskSchema TaskRow.columns nextSortSelect.conditions
      [.ofText listId, .int db.userId] fun row =>
        decide (row.taskListId = listId) && decide (row.userId = some db.userId) &&
          decide (row.isDeleted = some NO) := (siblings.append owned).append active
  have sorts : (fun row : TaskColumn → SqlValue => (row .sort).asInt) ∘ TaskRow.columns =
      TaskRow.sort :=
    funext fun row => SqlValue.asInt_ofInt row.sort
  rw [Sql.nextSort, Store.columns, Schema.select_unordered nextSortSelect selects rfl rfl,
    Option.map_some,
    List.filterMap_map, sorts, SupernoteTaskService.nextSort, KeyedTable.select]
  simp only [TaskRow.isActive, Bool.and_assoc]

end TaskReads

section ListReads
variable (db : Database) (store : Store)

theorem selects_listOwned : Selects (listSchema db) ListRow.columns [equals .userId] [.int db.userId]
    fun row => decide (row.userId = some db.userId) :=
  selects_int (by rfl) (by intro row; rfl) db.userId

theorem selects_listTarget (listId : Text) (expectedLastModified : Option ℤ) :
    Selects (listSchema db) ListRow.columns (listClauses expectedLastModified)
      (targetParams db listId expectedLastModified) (listTarget db expectedLastModified listId) :=
  selects_target (by rfl) (by rfl) (by rfl) (by intro row; rfl) (by intro row; rfl)
    (by intro row; rfl) (by intro row; rfl) db listId expectedLastModified

theorem before_listStamp (left right : ListRow) :
    (listSchema db).before [.lastModified, .taskListId] left.columns right.columns =
      stampOrder ListRow.lastModified ListRow.taskListId left right :=
  before_stamp (by intro row; rfl) (by intro row; rfl) rfl left right

theorem select_listLists (serverNow : ℤ) (query : ListQuery) :
    (listSchema db).select (listListsSelect query) store.columns.lists
        (listListsParams query db serverNow) =
      some ((listPageRows db store serverNow query).map ListRow.columns) := by
  have stampShown : ∀ row : ListRow, row.columns .lastModified = .ofInt row.lastModified :=
    fun _ => rfl
  have limited : (listSchema db).takeLimit .placeholder [.int (clampLimit query.limit)] =
      some (some (clampLimit query.limit)) := by
    simp [Schema.takeLimit, schemaOf]
  rw [listListsSelect, listListsParams, listPageRows]
  cases query.since with
  | some since =>
      have selects := (selects_listOwned db).append
        (selects_window (by rfl) stampShown since serverNow)
      exact Schema.select_map listDeltaSelect selects limited
        (fun left right => by rw [listDeltaSelect, before_listStamp]) store.lists.rows
  | none =>
      have active : Selects (listSchema db) ListRow.columns [notDeleted .isDeleted] []
          fun row => decide (row.isDeleted = some NO) := selects_notDeleted (by intro row; rfl)
      exact Schema.select_map listSnapshotSelect ((selects_listOwned db).append active) limited
        (fun left right => by rw [listSnapshotSelect, before_title]) store.lists.rows

theorem select_drainLists (boundary : ℤ) (afterId : Option Text) :
    (listSchema db).select drainListsSelect store.columns.lists
        [.int db.userId, .int boundary, .ofText afterId] =
      some ((drainListsAt db store boundary afterId).map ListRow.columns) := by
  have idShown : ∀ row : ListRow, row.columns .taskListId = .text row.taskListId := fun _ => rfl
  have onBoundary : Selects (listSchema db) ListRow.columns [equals .lastModified] [.int boundary]
      fun row => decide (row.lastModified = some boundary) :=
    selects_int (by rfl) (by intro row; rfl) boundary
  have after : Selects (listSchema db) ListRow.columns [.compare .taskListId .gt .placeholder]
      [.ofText afterId] fun row => afterId.any fun afterId => decide (afterId < row.taskListId) := by
    cases afterId with
    | none => exact selects_compare rfl fun row => Schema.holds_null Comparison.noConfusion (Or.inr rfl)
    | some afterId => exact selects_compare rfl fun row => holds_after (idShown row) rfl afterId
  have selects := ((selects_listOwned db).append onBoundary).append after
  have ran := Schema.select_all drainListsSelect selects rfl
    (fun left right : ListRow => by rw [drainListsSelect, before_id idShown rfl, decide_eq_true_eq])
    store.lists.rows
  refine ran.trans ?_
  rw [drainListsAt]
  cases afterId <;> rfl

theorem filter_listTarget (listId : Text) :
    store.lists.rows.filter (listTarget db none listId) = (activeList db store listId).toList := by
  have byKey := store.lists.select_key_and listId (ListRow.isActive db.userId)
  rw [activeList, ← byKey, KeyedTable.select]
  exact List.filter_congr fun row _ => Bool.and_true _

theorem select_listTarget (listId : Text) :
    (listSchema db).select listTargetSelect store.columns.lists (targetParams db listId none) =
      some ((activeList db store listId).toList.map ListRow.columns) := by
  have selects := selects_listTarget db listId none
  rw [Store.columns, Schema.select_unordered listTargetSelect selects rfl rfl, filter_listTarget]

theorem select_listByTitle (title : Text) :
    (listSchema db).select listByTitleSelect store.columns.lists
        [.text (encodeEmoji title), .int db.userId] =
      some (((orderByStamp ListRow.lastModified ListRow.taskListId (store.lists.select fun row =>
        decide (row.title = some (encodeEmoji title)) && row.isActive db.userId)).take 1).map
          ListRow.columns) := by
  have titled : Selects (listSchema db) ListRow.columns [equals .title] [.text (encodeEmoji title)]
      fun row => decide (row.title = some (encodeEmoji title)) :=
    selects_text (by rfl) (by intro row; rfl) (encodeEmoji title)
  have active : Selects (listSchema db) ListRow.columns [notDeleted .isDeleted] []
      fun row => decide (row.isDeleted = some NO) := selects_notDeleted (by intro row; rfl)
  have selects := titled.append ((selects_listOwned db).append active)
  have limited : (listSchema db).takeLimit listByTitleSelect.limit [] = some (some 1) := rfl
  exact Schema.select_map listByTitleSelect selects limited
    (fun left right => by rw [listByTitleSelect, before_listStamp]) store.lists.rows

end ListReads

/-! ## Operations -/

theorem readPage_map {ρ σ α : Type} {render : ρ → Except Raised α} (fetch : σ → Except Raised α)
    (shown : ρ → σ) (fetches : ∀ row, fetch (shown row) = render row) (stamp : α → ℤ)
    (effectiveLimit : ℕ) (serverNow : ℤ) (delta : Bool) {drain : α → Option (List σ)}
    {rowDrain : α → List ρ} (drains : ∀ last, drain last = some ((rowDrain last).map shown))
    (rows : List ρ) :
    Sql.readPage fetch stamp effectiveLimit serverNow delta drain (rows.map shown) =
      some (assemblePage render stamp effectiveLimit serverNow delta rows rowDrain) := by
  have fetched : ∀ rows : List ρ, (rows.map shown).mapM fetch = rows.mapM render := by
    intro rows
    rw [List.mapM_map]
    congr 1
    funext row
    exact fetches row
  simp only [Sql.readPage, assemblePage, fetched]
  cases rows.mapM render with
  | error e => rfl
  | ok items =>
      simp only [bind, Except.bind]
      cases ends : (if delta && isSingleMsFullPage (items.map stamp) effectiveLimit then
        items.getLast? else none) with
      | none => rfl
      | some last =>
          simp only [drains, Option.map_some, fetched]
          cases (rowDrain last).mapM render with
          | error e => rfl
          | ok drained => rfl

section Reads
variable (db : Database) (store : Store)

theorem listTasks_columns (serverNow : ℤ) (query : TaskQuery) :
    Sql.listTasks db store.columns serverNow query = some (listTasks db store serverNow query) := by
  rw [Sql.listTasks, select_listTasks, Option.bind_some, listTasks]
  exact readPage_map (fetchTask db.linkModel) store.joinedColumns (fetchTask_joinedColumns db store)
    _ _ _ _ (fun last => select_drainTasks db store query last.lastModified last.id) _

theorem getTask_columns (taskId : Text) :
    Sql.getTask db store.columns taskId = some (getTask db store taskId) := by
  rw [Sql.getTask, select_getTask, Option.map_some, getTask]
  cases activeTask db store taskId with
  | none => rfl
  | some row =>
      simp only [Option.toList_some, List.map_cons, List.map_nil, List.head?_cons,
        fetchTask_joinedColumns]
      rfl

theorem listLists_columns (serverNow : ℤ) (query : ListQuery) :
    Sql.listLists db store.columns serverNow query = some (listLists db store serverNow query) := by
  have page : Sql.readPage (fun row => .ok (fetchList row)) TaskList.lastModified
      (clampLimit query.limit) serverNow query.since.isSome
      (fun last => (listSchema db).select drainListsSelect store.columns.lists
        [.int db.userId, .int last.lastModified, .ofText last.id])
      ((listPageRows db store serverNow query).map ListRow.columns) =
        some (assemblePage listOfRow TaskList.lastModified (clampLimit query.limit) serverNow
          query.since.isSome (listPageRows db store serverNow query)
          fun last => drainListsAt db store last.lastModified last.id) :=
    readPage_map (fun row => .ok (fetchList row)) ListRow.columns
      (fun row => congrArg Except.ok (fetchList_columns row)) _ _ _ _
      (fun last => select_drainLists db store last.lastModified last.id) _
  rw [Sql.listLists, select_listLists, Option.bind_some, page, Option.map_some, listLists]
  rfl

theorem getList_columns (listId : Text) :
    Sql.getList db store.columns listId = some (getList db store listId) := by
  rw [Sql.getList, select_listTarget, Option.map_some, getList]
  cases activeList db store listId with
  | none => rfl
  | some row => exact congrArg (some ∘ some) (fetchList_columns row)

theorem listExists_columns (listId : Text) :
    Sql.listExists db store.columns listId = some (listExists db store listId) := by
  rw [Sql.listExists, select_listTarget, Option.map_some, List.head?_map, Option.head?_toList,
    Option.isSome_map, listExists]

theorem getListByTitle_columns (title : Text) :
    Sql.getListByTitle db store.columns title = some (getListByTitle db store title) := by
  rw [Sql.getListByTitle, select_listByTitle, Option.map_some, List.head?_map, List.head?_take,
    Option.map_map, getListByTitle]
  simp only [one_ne_zero, if_false]
  congr 2
  funext row
  exact fetchList_columns row

end Reads

/-! ## Writes -/

def TaskSet.assignment : TaskSet → TaskColumn × SqlValue
  | .title value => (.title, .text value)
  | .detail value => (.detail, .text value)
  | .status value => (.status, .text value)
  | .completedTime value => (.completedTime, .int value)
  | .importance value => (.importance, .ofText value)
  | .dueTime value => (.dueTime, .int value)
  | .sort value => (.sort, .int value)
  | .taskListId value => (.taskListId, .ofText value)
  | .links value => (.links, .ofText value)
  | .isDeleted value => (.isDeleted, .text value)
  | .lastModified value => (.lastModified, .int value)

def ListSet.assignment : ListSet → ListColumn × SqlValue
  | .title value => (.title, .text value)
  | .isDeleted value => (.isDeleted, .text value)
  | .lastModified value => (.lastModified, .int value)

theorem assignAll_taskSets (sets : List TaskSet) : ∀ row : TaskRow,
    assignAll (sets.map TaskSet.assignment) row.columns = (row.assign sets).columns := by
  induction sets with
  | nil => exact fun _ => rfl
  | cons set sets ih =>
      intro row
      have one : Function.update row.columns set.assignment.1 set.assignment.2 =
          (set.apply row).columns := by
        funext column
        cases set <;> cases column <;> rfl
      rw [List.map_cons, assignAll, List.foldl_cons, one]
      exact ih (set.apply row)

theorem assignAll_listSets (sets : List ListSet) : ∀ row : ListRow,
    assignAll (sets.map ListSet.assignment) row.columns = (row.assign sets).columns := by
  induction sets with
  | nil => exact fun _ => rfl
  | cons set sets ih =>
      intro row
      have one : Function.update row.columns set.assignment.1 set.assignment.2 =
          (set.apply row).columns := by
        funext column
        cases set <;> cases column <;> rfl
      rw [List.map_cons, assignAll, List.foldl_cons, one]
      exact ih (set.apply row)

theorem takeSet_of_bind {column : Column} {value : SqlValue} {set : TaskSet}
    (bound : column.bind value = some set) (params : List SqlValue) :
    taskSchema.takeSet (column.taskColumn, .placeholder) (value :: params) =
      some (set.assignment, params) := by
  cases column <;> cases value <;> cases bound <;> rfl

theorem takeEach_of_bindSets (columns : List Column) : ∀ (params rest : List SqlValue)
    (sets : List TaskSet), bindSets columns params = some (sets, rest) →
      takeEach taskSchema.takeSet
        (columns.map fun column => (column.taskColumn, .placeholder)) params =
          some (sets.map TaskSet.assignment, rest) := by
  induction columns with
  | nil =>
      intro params rest sets bound
      cases bound
      rfl
  | cons column columns ih =>
      intro params rest sets bound
      cases params with
      | nil => cases bound
      | cons value params =>
          simp only [bindSets, Option.bind_eq_bind, Option.bind_eq_some_iff, pure,
            Option.some.injEq, Prod.exists, Prod.mk.injEq] at bound
          obtain ⟨set, isSet, more, after, isMore, rfl, rfl⟩ := bound
          simp only [List.map_cons, takeEach, takeSet_of_bind isSet, Option.bind_eq_bind,
            Option.bind_some, ih params after more isMore]
          rfl

theorem Aligned.takes {columns : List Column} {params : List SqlValue} {sets : List TaskSet}
    (aligned : Aligned columns params sets) :
    Takes taskSchema.takeSet (columns.map fun column => (column.taskColumn, .placeholder)) params
      (sets.map TaskSet.assignment) :=
  fun rest => takeEach_of_bindSets columns _ _ _ (aligned rest)

section Writes
variable (db : Database) (store : Store)

theorem executeTasks_columns {sets : List TaskSet} (statement : Update TaskColumn SqlValue)
    {params : List SqlValue} (expectedLastModified : Option ℤ) (taskId : Text)
    (taken : Takes taskSchema.takeSet statement.sets params (sets.map TaskSet.assignment))
    (targets : statement.conditions = taskClauses expectedLastModified) :
    Sql.executeTasks store.columns statement
        (params ++ targetParams db taskId expectedLastModified) =
      some ((executeTaskUpdate db store expectedLastModified sets taskId).1,
        (executeTaskUpdate db store expectedLastModified sets taskId).2.columns) := by
  have selects := selects_taskTarget db taskId expectedLastModified
  rw [← targets] at selects
  rw [Sql.executeTasks, Store.columns, Schema.update_map TaskRow.columns_injective taken selects
    (assignAll_taskSets sets)]
  rfl

theorem executeLists_columns {sets : List ListSet} (statement : Update ListColumn SqlValue)
    {params : List SqlValue} (expectedLastModified : Option ℤ) (listId : Text)
    (taken : Takes (listSchema db).takeSet statement.sets params (sets.map ListSet.assignment))
    (targets : statement.conditions = listClauses expectedLastModified) :
    Sql.executeLists db store.columns statement
        (params ++ targetParams db listId expectedLastModified) =
      some ((executeListUpdate db store expectedLastModified sets listId).1,
        (executeListUpdate db store expectedLastModified sets listId).2.columns) := by
  have selects := selects_listTarget db listId expectedLastModified
  rw [← targets] at selects
  rw [Sql.executeLists, Store.columns, Schema.update_map ListRow.columns_injective taken selects
    (assignAll_listSets sets)]
  rfl

theorem isEmpty_updateColumns (data : TaskUpdate) (statusNow : ℤ) :
    (updateColumns data).isEmpty = (updateSets data statusNow).isEmpty := by
  have bound := aligned_update data statusNow []
  cases isColumns : updateColumns data with
  | nil =>
      rw [isColumns] at bound
      cases isSets : updateSets data statusNow with
      | nil => rfl
      | cons set sets =>
          rw [isSets, bindSets] at bound
          cases bound
  | cons column columns =>
      cases isSets : updateSets data statusNow with
      | cons set sets => rfl
      | nil =>
          rw [isColumns, isSets] at bound
          cases given : updateParams data statusNow with
          | nil => rw [given] at bound; cases bound
          | cons value params =>
              simp only [given, List.cons_append, bindSets, Option.bind_eq_bind,
                Option.bind_eq_some_iff, pure, Option.some.injEq, Prod.mk.injEq, List.cons_ne_nil,
                false_and, and_false, exists_false] at bound

theorem updateTask_columns (statusNow now : ℤ) (taskId : Text) (data : TaskUpdate)
    (expectedLastModified : Option ℤ) :
    Sql.updateTask db store.columns statusNow now taskId data expectedLastModified =
      some ((updateTask db store statusNow now taskId data expectedLastModified).1,
        (updateTask db store statusNow now taskId data expectedLastModified).2.columns) := by
  rw [Sql.updateTask, isEmpty_updateColumns data statusNow]
  by_cases nothing : (updateSets data statusNow).isEmpty = true
  · simp only [updateTask, if_pos nothing, taskFound_columns, Option.map_some]
    cases expectedLastModified with
    | none => rw [any_unversioned]
    | some expected =>
        simp only [rowMatchesVersion]
        cases activeTask db store taskId <;> rfl
  · simp only [updateTask, if_neg nothing]
    have stamped : Aligned (updateColumns data ++ [.lastModified])
        (updateParams data statusNow ++ [.int now])
        (updateSets data statusNow ++ [.lastModified now]) :=
      (aligned_update data statusNow).append (aligned_single rfl)
    exact executeTasks_columns db store (updateTaskUpdate data expectedLastModified)
      expectedLastModified taskId stamped.takes rfl

theorem deleteTask_columns (now : ℤ) (taskId : Text) (expectedLastModified : Option ℤ) :
    Sql.deleteTask db store.columns now taskId expectedLastModified =
      some ((deleteTask db store now taskId expectedLastModified).1,
        (deleteTask db store now taskId expectedLastModified).2.columns) := by
  have taken : Takes taskSchema.takeSet (deleteTaskUpdate expectedLastModified).sets [.int now]
      ([TaskSet.isDeleted YES, .lastModified now].map TaskSet.assignment) :=
    (Schema.takes_setLiteral TaskColumn.isDeleted (SqlValue.text YES)).append (Schema.takes_set rfl)
  exact executeTasks_columns db store (deleteTaskUpdate expectedLastModified) expectedLastModified
    taskId taken rfl

theorem updateList_columns (now : ℤ) (listId title : Text) (expectedLastModified : Option ℤ) :
    Sql.updateList db store.columns now listId title expectedLastModified =
      some ((updateList db store now listId title expectedLastModified).1,
        (updateList db store now listId title expectedLastModified).2.columns) := by
  have taken : Takes (listSchema db).takeSet (updateListUpdate expectedLastModified).sets
      [.text (encodeEmoji title), .int now]
      ([ListSet.title (encodeEmoji title), .lastModified now].map ListSet.assignment) :=
    (Schema.takes_set (by rfl)).append (Schema.takes_set (by rfl))
  exact executeLists_columns db store (updateListUpdate expectedLastModified) expectedLastModified
    listId taken rfl

theorem deleteList_columns (now : ℤ) (listId : Text) (expectedLastModified : Option ℤ) :
    Sql.deleteList db store.columns now listId expectedLastModified =
      some ((deleteList db store now listId expectedLastModified).1,
        (deleteList db store now listId expectedLastModified).2.columns) := by
  have taken : Takes (listSchema db).takeSet (deleteListUpdate expectedLastModified).sets [.int now]
      ([ListSet.isDeleted YES, .lastModified now].map ListSet.assignment) :=
    (Schema.takes_setLiteral ListColumn.isDeleted (SqlValue.text YES)).append (Schema.takes_set rfl)
  exact executeLists_columns db store (deleteListUpdate expectedLastModified) expectedLastModified
    listId taken rfl

theorem takes_createTask (taskId : Text) (ts sort : ℤ) (data : TaskCreate) :
    Takes taskSchema.takeSet (createTaskInsert.columns.zip createTaskInsert.values)
      (createTaskParams db taskId ts sort data)
      [(.taskId, .text taskId), (.taskListId, .ofText (data.listId.map IdStr.value)),
        (.userId, .int db.userId), (.title, .text (encodeEmoji data.title.text)),
        (.detail, .text (encodeDetail data.detail.text)), (.lastModified, .int ts),
        (.isReminderOn, .text NO), (.status, .text data.status.value),
        (.importance, .ofText (data.importance.map fun importance => pythonStr importance.value)),
        (.dueTime, .int (dtToMs data.due)),
        (.completedTime, .int (if data.status = .completed then ts else 0)),
        (.links, .ofText (data.documentLink.map fun link => encodeDocumentLink (linkPayload link))),
        (.isDeleted, .text NO), (.sort, .int sort), (.sortCompleted, .int 0), (.planerSort, .int 0),
        (.allSort, .null), (.allSortCompleted, .null), (.sortTime, .int ts),
        (.planerSortTime, .int 0), (.allSortTime, .null)] := by
  intro rest
  rw [createTaskParams]
  cases data.listId <;> cases data.importance <;> cases data.documentLink <;> rfl

theorem insertRow_createTask {taskId : Text} {ts sort : ℤ} {data : TaskCreate}
    (placed : (newTaskRow db store taskId ts data).sort = some sort) :
    taskSchema.insertRow createTaskInsert (createTaskParams db taskId ts sort data) =
      some (newTaskRow db store taskId ts data).columns := by
  rw [Schema.insertRow_of_takes (takes_createTask db taskId ts sort data) rfl]
  refine congrArg some (funext fun column => ?_)
  cases column with
  | sort =>
      rw [TaskRow.columns, placed]
      rfl
  | _ => rfl

theorem createTask_columns (taskId : Text) (ts : ℤ) (data : TaskCreate) :
    (Sql.createTask db store.columns taskId ts data).map wroteId =
      some (((Operation.createTask taskId data).run db store ts).1,
        ((Operation.createTask taskId data).run db store ts).2.columns) := by
  have inserts : ∀ sort, (newTaskRow db store taskId ts data).sort = some sort →
      taskSchema.insert .taskId createTaskInsert store.columns.tasks
          (createTaskParams db taskId ts sort data) =
        some ((store.tasks.insert (newTaskRow db store taskId ts data)).map fun after =>
          after.rows.map TaskRow.columns) := by
    intro sort placed
    refine Schema.insert_map (fun left right => ?_) (insertRow_createTask db store placed) store.tasks
    exact ⟨SqlValue.text.inj, congrArg SqlValue.text⟩
  obtain ⟨sort, placed⟩ : ∃ sort, (newTaskRow db store taskId ts data).sort = some sort := ⟨_, rfl⟩
  have isSort : Sql.sortOf db store.columns data = some sort := by
    rw [← placed, Sql.sortOf]
    cases given : data.sort with
    | some sent => simp only [newTaskRow, given]
    | none => simp only [newTaskRow, given, nextSort_columns]
  rw [Sql.createTask, isSort, Option.bind_some, inserts sort placed, Operation.run, createTask]
  cases store.tasks.insert (newTaskRow db store taskId ts data) with
  | none => rfl
  | some tasks => rfl

theorem createList_columns (listId : Text) (ts : ℤ) (title : Text) :
    (Sql.createList db store.columns listId ts title).map wroteId =
      some (((Operation.createList listId title).run db store ts).1,
        ((Operation.createList listId title).run db store ts).2.columns) := by
  have taken : Takes (listSchema db).takeSet (createListInsert.columns.zip createListInsert.values)
      (createListParams db listId ts title)
      [(.taskListId, .text listId), (.userId, .int db.userId), (.title, .text (encodeEmoji title)),
        (.lastModified, .int ts), (.isDeleted, .text NO), (.createTime, .int ts)] :=
    fun rest => rfl
  have row : (listSchema db).insertRow createListInsert (createListParams db listId ts title) =
      some (newListRow db listId ts title).columns := by
    rw [Schema.insertRow_of_takes taken rfl]
    refine congrArg some (funext fun column => ?_)
    cases column <;> rfl
  have inserted : (listSchema db).insert .taskListId createListInsert store.columns.lists
      (createListParams db listId ts title) =
        some ((store.lists.insert (newListRow db listId ts title)).map fun after =>
          after.rows.map ListRow.columns) := by
    refine Schema.insert_map (fun left right => ?_) row store.lists
    exact ⟨SqlValue.text.inj, congrArg SqlValue.text⟩
  rw [Sql.createList, inserted, Operation.run, createList]
  cases store.lists.insert (newListRow db listId ts title) with
  | none => rfl
  | some lists => rfl

end Writes

/-! ## Runs -/

theorem Operation.execute_columns (db : Database) (store : Store) (now : ℤ) (operation : Operation) :
    operation.execute db store.columns now =
      some ((operation.run db store now).1, (operation.run db store now).2.columns) := by
  cases operation with
  | listTasks query => rw [Operation.execute, listTasks_columns]; rfl
  | getTask taskId => rw [Operation.execute, getTask_columns]; rfl
  | createTask taskId data => exact createTask_columns db store taskId now data
  | updateTask statusNow taskId data expected => rw [Operation.execute, updateTask_columns]; rfl
  | setStatus statusNow taskId status expected => rw [Operation.execute, updateTask_columns]; rfl
  | deleteTask taskId expected => rw [Operation.execute, deleteTask_columns]; rfl
  | taskExists taskId =>
      rw [Operation.execute, taskFound_columns, any_unversioned]
      rfl
  | listLists query => rw [Operation.execute, listLists_columns]; rfl
  | getList listId => rw [Operation.execute, getList_columns]; rfl
  | listExists listId => rw [Operation.execute, listExists_columns]; rfl
  | getListByTitle title => rw [Operation.execute, getListByTitle_columns]; rfl
  | createList listId title => exact createList_columns db store listId now title
  | updateList listId title expected => rw [Operation.execute, updateList_columns]; rfl
  | deleteList listId expected => rw [Operation.execute, deleteList_columns]; rfl

section Runs
variable (db : Database)

def sqlStep (tables : Tables) (step : Timed Operation) : Tables :=
  (step.event.execute db tables step.clock).elim tables Prod.snd

def sqlAnswer (tables : Tables) (step : Timed Operation) : Option (Except Raised Returned) :=
  (step.event.execute db tables step.clock).map Prod.fst

def operationAnswer (store : Store) (step : Timed Operation) : Option (Except Raised Returned) :=
  some (step.event.run db store step.clock).1

/-- Over a whole run of operations, every statement of the repository binds and runs, answers what
the operations answer, and leaves the columns of the tables that they leave. -/
theorem statements_refine_operations (start : Store) (run : List (Timed Operation)) :
    run.foldl (sqlStep db) start.columns = (run.foldl (operationStep db) start).columns ∧
      outputs (sqlStep db) (sqlAnswer db) start.columns run =
        outputs (operationStep db) (operationAnswer db) start run ∧
      ∀ tables step rest, Happens (sqlStep db) start.columns run tables step rest →
        ∃ answer after, step.event.execute db tables step.clock = some (answer, after) := by
  have steps : ∀ (store : Store) (step : Timed Operation),
      sqlStep db store.columns step = (operationStep db store step).columns ∧
        sqlAnswer db store.columns step = operationAnswer db store step := by
    intro store step
    rw [sqlStep, sqlAnswer, Operation.execute_columns]
    exact ⟨rfl, rfl⟩
  have stepwise : run.foldl (sqlStep db) start.columns = (run.foldl (operationStep db) start).columns ∧
      outputs (sqlStep db) (sqlAnswer db) start.columns run =
        outputs (operationStep db) (operationAnswer db) start run := by
    refine simulation_of_steps (start.columns, start) (fun tables store => tables = store.columns) rfl
      fun pair step rest _ shown => ?_
    rw [shown]
    exact steps pair.2 step
  refine ⟨stepwise.1, stepwise.2, fun tables step rest occurs => ?_⟩
  obtain ⟨store, rfl⟩ : ∃ store : Store, tables = store.columns := by
    refine (invariant_of_steps (fun tables => ∃ store : Store, tables = store.columns)
      ⟨start, rfl⟩ ?_).1 tables step rest occurs
    rintro tables step rest - ⟨store, rfl⟩
    exact ⟨_, (steps store step).1⟩
  exact ⟨_, _, Operation.execute_columns db store step.clock step.event⟩

end Runs

end SupernoteTaskService
