import SupernoteTaskService.Repository.InMemory

/-!
# Rows and the entries that stand for them

`entryOf` reads a row as the dict entry that stands for it, and `StandsFor` holds of tables
and dicts where every row of the user has its entry and every entry its row.  Whatever one
repository reads then, the other reads too, up to the `category` of a task, which the dict
does not know.
-/

set_option autoImplicit false

namespace SupernoteTaskService

open Foundation

/-! ## What stands for a row -/

def instantOf (ms : ℤ) : Option Datetime := (msToDatetime (some ms)).toOption.join

theorem zero_le_lastInstantMs : 0 ≤ lastInstantMs := by decide

theorem msToDatetime_instantOf {ms : ℤ} (inRange : ms ≤ lastInstantMs) :
    msToDatetime (some ms) = .ok (instantOf ms) := by
  obtain ⟨dt, mapped⟩ := (msToDatetime_ok_iff ms).mpr inRange
  rw [instantOf, mapped]
  rfl

/-- The dict entry that reads as the row does. -/
def entryOf (db : Database) (row : TaskRow) : FakeTask where
  id := row.taskId
  listId := row.taskListId
  title := row.title.getD []
  detail := decodeEmoji (some (row.detail.getD []))
  status := (TaskStatus.ofValue row.status).getD .needsAction
  importance := parseImportance row.importance
  due := row.dueTime.getD 0
  completed := row.completedTime.getD 0
  sort := row.sort
  lastModified := row.lastModified.getD 0
  documentLink := (documentLinkOf db.linkModel row.links).toOption.join
  isDeleted := decide (row.isDeleted = some YES)

/-- The columns of a row as the API leaves them. -/
structure RegularRow (db : Database) (row : TaskRow) : Prop where
  user : row.userId = some db.userId
  title : ∃ title, row.title = some title
  stamped : ∃ m, row.lastModified = some m
  flagged : row.isDeleted = some YES ∨ row.isDeleted = some NO
  status : ∃ status : TaskStatus, row.status = some status.value
  link : ∃ link, documentLinkOf db.linkModel row.links = .ok link
  due : row.dueTime.getD 0 ≤ lastInstantMs
  completed : row.completedTime.getD 0 ≤ lastInstantMs

def RowOf (db : Database) (row : TaskRow) (t : FakeTask) : Prop :=
  RegularRow db row ∧ entryOf db row = t

def listEntryOf (row : ListRow) : FakeList where
  id := row.taskListId
  title := row.title.getD []
  lastModified := row.lastModified.getD 0
  isDeleted := decide (row.isDeleted = some YES)

structure RegularList (db : Database) (row : ListRow) : Prop where
  user : row.userId = some db.userId
  title : ∃ title, row.title = some title
  stamped : ∃ m, row.lastModified = some m
  flagged : row.isDeleted = some YES ∨ row.isDeleted = some NO

def ListRowOf (db : Database) (row : ListRow) (ls : FakeList) : Prop :=
  RegularList db row ∧ listEntryOf row = ls

/-- The dicts hold the rows of the user, and no others. -/
structure StandsFor (db : Database) (store : Store) (fake : FakeState) : Prop where
  tasks : Tracks (fun row => row.userId = some db.userId) (RowOf db) store.tasks fake.tasks
  lists : Tracks (fun row => row.userId = some db.userId) (ListRowOf db) store.lists fake.lists

theorem standsFor_empty (db : Database) : StandsFor db .empty .empty := ⟨tracks_empty, tracks_empty⟩

section Rows
variable {db : Database} {row : TaskRow}

theorem RegularRow.isDeleted (regular : RegularRow db row) :
    row.isDeleted = some (if (entryOf db row).isDeleted then YES else NO) := by
  unfold entryOf
  rcases regular.flagged with deleted | kept
  · rw [deleted]
    rfl
  · rw [kept]
    rfl

theorem RegularRow.link_eq (regular : RegularRow db row) :
    documentLinkOf db.linkModel row.links = .ok (entryOf db row).documentLink := by
  obtain ⟨link, mapped⟩ := regular.link
  unfold entryOf
  rw [mapped]
  rfl

theorem RegularRow.status_eq (regular : RegularRow db row) :
    row.status = some (entryOf db row).status.value := by
  obtain ⟨status, stored⟩ := regular.status
  unfold entryOf
  rw [stored, TaskStatus.ofValue_value]
  rfl

theorem RegularRow.lastModified_eq (regular : RegularRow db row) :
    row.lastModified = some (entryOf db row).lastModified := by
  obtain ⟨m, stamped⟩ := regular.stamped
  unfold entryOf
  rw [stamped]
  rfl

theorem RegularRow.mirrors (regular : RegularRow db row) : (entryOf db row).Mirrors db row where
  id := rfl
  user := regular.user
  listId := rfl
  lastModified := regular.lastModified_eq
  status := regular.status_eq
  isDeleted := regular.isDeleted
  documentLink := regular.link_eq
  due := rfl
  completed := rfl

theorem RegularRow.isActive_iff (regular : RegularRow db row) :
    row.isActive db.userId = true ↔ (entryOf db row).isDeleted = false := by
  rw [TaskRow.isActive_iff, and_iff_right regular.user, regular.isDeleted]
  cases (entryOf db row).isDeleted with
  | true => decide
  | false => decide

end Rows

section Lists
variable {db : Database} {row : ListRow}

theorem RegularList.isDeleted (regular : RegularList db row) :
    row.isDeleted = some (if (listEntryOf row).isDeleted then YES else NO) := by
  unfold listEntryOf
  rcases regular.flagged with deleted | kept
  · rw [deleted]
    rfl
  · rw [kept]
    rfl

theorem RegularList.title_eq (regular : RegularList db row) :
    row.title = some (listEntryOf row).title := by
  obtain ⟨title, stored⟩ := regular.title
  unfold listEntryOf
  rw [stored]
  rfl

theorem RegularList.lastModified_eq (regular : RegularList db row) :
    row.lastModified = some (listEntryOf row).lastModified := by
  obtain ⟨m, stamped⟩ := regular.stamped
  unfold listEntryOf
  rw [stamped]
  rfl

theorem RegularList.isActive_iff (regular : RegularList db row) :
    row.isActive db.userId = true ↔ (listEntryOf row).isDeleted = false := by
  rw [ListRow.isActive_iff, and_iff_right regular.user, regular.isDeleted]
  cases (listEntryOf row).isDeleted with
  | true => decide
  | false => decide

theorem RegularList.rowToList (regular : RegularList db row) :
    rowToList row = (listEntryOf row).toList := by
  unfold SupernoteTaskService.rowToList FakeList.toList
  rw [regular.title_eq]
  rfl

end Lists

/-! ## What a task reads as -/

/-- A task without the title of its list. -/
def Task.uncategorized (task : Task) : Task := { task with category := [] }

def FakeTask.read (t : FakeTask) (category : Text) : Task where
  id := t.id
  listId := t.listId
  category := category
  title := decodeEmoji (some t.title)
  detail := t.detail
  status := t.status
  importance := t.importance
  due := instantOf t.due
  completed := instantOf t.completed
  sort := t.sort
  lastModified := t.lastModified
  documentLink := t.documentLink
  isDeleted := t.isDeleted

section Reading
variable {db : Database} {row : TaskRow}

theorem RegularRow.toTask (regular : RegularRow db row) :
    (entryOf db row).toTask =
      .ok ((entryOf db row).read
        (if row.taskListId = none then "Inbox".toList else "List".toList)) := by
  have due := msToDatetime_instantOf regular.due
  have completed := msToDatetime_instantOf regular.completed
  unfold FakeTask.toTask
  rw [show (entryOf db row).due = row.dueTime.getD 0 from rfl, due,
    show (entryOf db row).completed = row.completedTime.getD 0 from rfl, completed]
  rfl

theorem RegularRow.task (regular : RegularRow db row) (store : Store) :
    store.task db row =
      .ok ((entryOf db row).read (decodeEmoji (some (store.category row.taskListId)))) := by
  obtain ⟨title, titled⟩ := regular.title
  have status : statusOf row.status = .ok (entryOf db row).status := by
    rw [regular.status_eq, statusOf, TaskStatus.ofValue_value]
  refine rowToTask_eq_ok_iff.mpr ⟨_, regular.link_eq, _, status, _,
    msToDatetime_instantOf regular.due, _, msToDatetime_instantOf regular.completed, ?_⟩
  unfold taskOf FakeTask.read entryOf Store.join
  rw [titled]
  rfl

end Reading

/-! ## Reads -/

section Reads
variable {db : Database} {store : Store} {fake : FakeState} {now : ℤ}

theorem StandsFor.getTask_cases (stands : StandsFor db store fake) (taskId : Text) :
    (fake.tasks.get taskId = none ∧ activeTask db store taskId = none) ∨
      ∃ row, RegularRow db row ∧ store.tasks.get taskId = some row ∧
        fake.tasks.get taskId = some (entryOf db row) ∧
        activeTask db store taskId = if (entryOf db row).isDeleted then none else some row := by
  unfold activeTask
  rcases stands.tasks.get_cases taskId with ⟨absent, unowned⟩ | ⟨row, t, stored, held, regular, rfl⟩
  · refine Or.inl ⟨absent, ?_⟩
    rw [Option.filter_eq_none_iff]
    intro row stored active
    exact unowned row stored (TaskRow.isActive_iff.mp active).1
  · refine Or.inr ⟨row, regular, stored, held, ?_⟩
    rw [stored, Option.filter_some]
    have active := regular.isActive_iff
    cases deleted : (entryOf db row).isDeleted with
    | true =>
        rw [deleted] at active
        rw [if_neg (fun isActive => Bool.noConfusion (active.mp isActive)), if_pos rfl]
    | false =>
        rw [if_pos (active.mpr deleted)]
        rfl

theorem StandsFor.taskExists (stands : StandsFor db store fake) (taskId : Text) :
    taskExists db store taskId = fake.taskExists taskId := by
  unfold SupernoteTaskService.taskExists FakeState.taskExists
  rcases stands.getTask_cases taskId with ⟨held, active⟩ | ⟨row, regular, stored, held, active⟩
  · rw [held, active]
    rfl
  · rw [held, active]
    dsimp only
    cases (entryOf db row).isDeleted with
    | true => rfl
    | false => rfl

theorem StandsFor.getTask (stands : StandsFor db store fake) (taskId : Text) :
    ((getTask db store taskId).map fun found => found.map Task.uncategorized) =
      (fake.getTask taskId).map fun found => found.map Task.uncategorized := by
  unfold SupernoteTaskService.getTask FakeState.getTask
  rcases stands.getTask_cases taskId with ⟨held, active⟩ | ⟨row, regular, stored, held, active⟩
  · rw [held, active]
  · rw [held, active]
    dsimp only
    cases (entryOf db row).isDeleted with
    | true => rfl
    | false =>
        simp only [Bool.false_eq_true, if_false]
        rw [regular.task store, regular.toTask]
        rfl

theorem StandsFor.selected_perm (stands : StandsFor db store fake) (condition : TaskRow → Bool)
    (condition' : FakeTask → Bool)
    (agree : ∀ row, RegularRow db row → condition' (entryOf db row) = condition row)
    (ownedOnly : ∀ row, condition row = true → row.userId = some db.userId) :
    ((store.tasks.select condition).map (entryOf db)).Perm (fake.tasks.select condition') := by
  have perm := stands.tasks.select_perm
    (fun row t related => related.2 ▸ agree row related.1) ownedOnly
    (fun row t related => related.2.symm) (fun row => rfl) (fun t => rfl)
  rwa [List.map_id'] at perm

theorem StandsFor.regular (stands : StandsFor db store fake) {row : TaskRow}
    (stored : row ∈ store.tasks.rows) (ofUser : row.userId = some db.userId) :
    RegularRow db row := by
  obtain ⟨t, regular, -⟩ := stands.tasks.related_of_owned stored ofUser
  exact regular

theorem renderPage_regular {raw : Page TaskRow}
    (regular : ∀ row ∈ raw.items, RegularRow db row) :
    (renderPage (store.task db) raw).map (fun page => page.map Task.uncategorized) =
      .ok (raw.map fun row => (entryOf db row).read []) := by
  have rendered : renderPage (store.task db) raw = .ok (raw.map fun row =>
      (entryOf db row).read (decodeEmoji (some (store.category row.taskListId)))) := by
    rw [renderPage_eq_ok_iff]
    exact ⟨mapM_ok_of_forall fun row member => (regular row member).task store, rfl, rfl⟩
  rw [rendered]
  exact congrArg Except.ok (Page.map_map _ _ _)

theorem mapM_toTask_regular {entries : List FakeTask}
    (regular : ∀ t ∈ entries, ∃ row, RegularRow db row ∧ entryOf db row = t) :
    entries.mapM FakeTask.toTask = .ok (entries.map fun t =>
      t.read (if t.listId = none then "Inbox".toList else "List".toList)) := by
  apply mapM_ok_of_forall
  intro t member
  obtain ⟨row, isRegular, rfl⟩ := regular t member
  exact isRegular.toTask

/-- Both pages are one pass over the same entries. -/
theorem StandsFor.listTasks (stands : StandsFor db store fake) (now : ℤ) {query : TaskQuery}
    (bounded : ∀ limit, query.limit = some limit → 1 ≤ limit ∧ limit ≤ 1000) :
    ((listTasks db store now query).map fun page => page.map Task.uncategorized) =
      (fake.toFakeRepository.listTasks now query).map fun page => page.map Task.uncategorized := by
  have regular : ∀ row ∈ store.tasks.select (query.whereClause db now), RegularRow db row := by
    intro row member
    obtain ⟨stored, selected⟩ := (store.tasks.mem_select _ row).mp member
    exact stands.regular stored (query.whereClause_owned selected)
  have perm := stands.selected_perm (query.whereClause db now) (FakeTask.selected now query)
    (fun row regular => regular.mirrors.selected_eq) fun row => query.whereClause_owned
  have ids := store.tasks.select_keys_nodup (query.whereClause db now)
  rw [listTasks_onePass fun row stored ofUser => (stands.regular stored ofUser).stamped,
    FakeRepository.listTasks_onePass bounded]
  generalize store.tasks.select (query.whereClause db now) = rows at *
  generalize fake.tasks.select (FakeTask.selected now query) = entries at *
  have mapped := mapM_toTask_regular fun t member => by
    obtain ⟨row, isRow, isEntry⟩ := List.mem_map.mp (perm.mem_iff.mpr member)
    exact ⟨row, regular row isRow, isEntry⟩
  have sublist := onePass_sublist taskKeys.stamp (clampLimit query.limit) now query.since.isSome
    (taskKeys.sort rows)
  rw [mapped, renderPage_regular fun row member =>
    regular row (taskKeys.mem_sort.mp (sublist.subset member))]
  have shown : (taskKeys.sort rows).map (fun row => (entryOf db row).read []) =
      resultKeys.sort (entries.map fun t => t.read []) := by
    have readPerm := perm.map fun t => t.read []
    rw [List.map_map] at readPerm
    rw [taskKeys.sort_map resultKeys (fun row => (entryOf db row).read []) (fun _ => rfl)
      (fun _ => rfl)]
    apply resultKeys.sort_eq_of_perm readPerm
    rw [List.map_map]
    exact ids
  have shown' : (resultKeys.sort (entries.map fun t =>
      t.read (if t.listId = none then "Inbox".toList else "List".toList))).map Task.uncategorized =
      resultKeys.sort (entries.map fun t => t.read []) := by
    rw [resultKeys.sort_map resultKeys Task.uncategorized (fun _ => rfl) (fun _ => rfl),
      List.map_map]
    rfl
  have keptStamp : ∀ task : Task, task.uncategorized.lastModified = task.lastModified :=
    fun _ => rfl
  refine congrArg Except.ok ?_
  dsimp only
  rw [onePass_map Task.lastModified Task.uncategorized keptStamp, shown', ← shown]
  exact onePass_map Task.lastModified _ (fun _ => rfl) _

end Reads

/-! ## Reads of lists -/

section ListReads
variable {db : Database} {store : Store} {fake : FakeState} {now : ℤ}

theorem StandsFor.getList_cases (stands : StandsFor db store fake) (listId : Text) :
    (fake.lists.get listId = none ∧ activeList db store listId = none) ∨
      ∃ row, RegularList db row ∧ store.lists.get listId = some row ∧
        fake.lists.get listId = some (listEntryOf row) ∧
        activeList db store listId = if (listEntryOf row).isDeleted then none else some row := by
  unfold activeList
  rcases stands.lists.get_cases listId with ⟨absent, unowned⟩ | ⟨row, ls, stored, held, regular, rfl⟩
  · refine Or.inl ⟨absent, ?_⟩
    rw [Option.filter_eq_none_iff]
    intro row stored active
    exact unowned row stored (ListRow.isActive_iff.mp active).1
  · refine Or.inr ⟨row, regular, stored, held, ?_⟩
    rw [stored, Option.filter_some]
    have active := regular.isActive_iff
    cases deleted : (listEntryOf row).isDeleted with
    | true =>
        rw [deleted] at active
        rw [if_neg (fun isActive => Bool.noConfusion (active.mp isActive)), if_pos rfl]
    | false =>
        rw [if_pos (active.mpr deleted)]
        rfl

theorem StandsFor.listExists (stands : StandsFor db store fake) (listId : Text) :
    listExists db store listId = fake.listExists listId := by
  unfold SupernoteTaskService.listExists FakeState.listExists
  rcases stands.getList_cases listId with ⟨held, active⟩ | ⟨row, regular, stored, held, active⟩
  · rw [held, active]
    rfl
  · rw [held, active]
    dsimp only
    cases (listEntryOf row).isDeleted with
    | true => rfl
    | false => rfl

theorem StandsFor.getList (stands : StandsFor db store fake) (listId : Text) :
    getList db store listId = fake.getList listId := by
  unfold SupernoteTaskService.getList FakeState.getList
  rcases stands.getList_cases listId with ⟨held, active⟩ | ⟨row, regular, stored, held, active⟩
  · rw [held, active]
    rfl
  · rw [held, active]
    dsimp only
    cases (listEntryOf row).isDeleted with
    | true => rfl
    | false => exact congrArg some regular.rowToList

theorem StandsFor.regularList (stands : StandsFor db store fake) {row : ListRow}
    (stored : row ∈ store.lists.rows) (ofUser : row.userId = some db.userId) :
    RegularList db row := by
  obtain ⟨ls, regular, -⟩ := stands.lists.related_of_owned stored ofUser
  exact regular

theorem StandsFor.lists_perm (stands : StandsFor db store fake) (condition : ListRow → Bool)
    (condition' : FakeList → Bool)
    (agree : ∀ row, RegularList db row → condition' (listEntryOf row) = condition row)
    (ownedOnly : ∀ row, condition row = true → row.userId = some db.userId) :
    ((store.lists.select condition).map rowToList).Perm
      ((fake.lists.select condition').map FakeList.toList) := by
  have perm := stands.lists.select_perm
    (fun row ls related => related.2 ▸ agree row related.1) ownedOnly
    (fun row ls related => related.2.symm) (fun row => rfl) (fun ls => rfl)
  rw [List.map_id'] at perm
  have read := perm.map FakeList.toList
  rw [List.map_map] at read
  have same : (store.lists.select condition).map rowToList =
      (store.lists.select condition).map (FakeList.toList ∘ listEntryOf) := by
    apply List.map_congr_left
    intro row member
    obtain ⟨stored, selected⟩ := (store.lists.mem_select _ row).mp member
    exact (stands.regularList stored (ownedOnly row selected)).rowToList
  rw [same]
  exact read

theorem StandsFor.lists_sorted (stands : StandsFor db store fake) (condition : ListRow → Bool)
    (condition' : FakeList → Bool)
    (agree : ∀ row, RegularList db row → condition' (listEntryOf row) = condition row)
    (ownedOnly : ∀ row, condition row = true → row.userId = some db.userId) :
    (listKeys.sort (store.lists.select condition)).map rowToList =
      listResultKeys.sort ((fake.lists.select condition').map FakeList.toList) := by
  rw [listKeys.sort_map listResultKeys rowToList (fun _ => rfl) (fun _ => rfl)]
  apply listResultKeys.sort_eq_of_perm (stands.lists_perm condition condition' agree ownedOnly)
  rw [List.map_map]
  exact store.lists.select_keys_nodup _

theorem StandsFor.getListByTitle (stands : StandsFor db store fake) (title : Text) :
    getListByTitle db store title = fake.getListByTitle title := by
  have stamped : ∀ row ∈ store.lists.select (fun row =>
      decide (row.title = some (encodeEmoji title)) && row.isActive db.userId),
      ∃ m, row.lastModified = some m := by
    intro row member
    obtain ⟨stored, selected⟩ := (store.lists.mem_select _ row).mp member
    rw [Bool.and_eq_true] at selected
    exact (stands.regularList stored (ListRow.isActive_iff.mp selected.2).1).stamped
  unfold SupernoteTaskService.getListByTitle FakeState.getListByTitle
  rw [orderByStamp_eq_sort stamped, ← List.head?_map]
  refine congrArg List.head? (stands.lists_sorted _ _ ?_ ?_)
  · intro row regular
    have active := regular.isActive_iff
    rw [regular.title_eq]
    cases deleted : (listEntryOf row).isDeleted with
    | true =>
        have inactive : row.isActive db.userId = false := by
          rw [← Bool.not_eq_true, active, deleted]
          exact Bool.noConfusion
        rw [inactive, Bool.and_false]
        rfl
    | false =>
        rw [active.mpr deleted, Bool.and_true]
        simp
  · intro row selected
    rw [Bool.and_eq_true] at selected
    exact (ListRow.isActive_iff.mp selected.2).1

theorem FakeState.listLists_onePass {query : ListQuery} {since : ℤ} (delta : query.since = some since)
    (bounded : ∀ limit, query.limit = some limit → 1 ≤ limit ∧ limit ≤ 1000) :
    fake.listLists now query =
      onePass TaskList.lastModified (clampLimit query.limit) now true
        (listResultKeys.sort
          ((fake.lists.select (FakeList.selected now query.since)).map FakeList.toList)) := by
  have limit : fakeLimit ({ limit := query.limit } : TaskQuery).limit = clampLimit query.limit :=
    fakeLimit_eq bounded
  unfold FakeState.listLists
  generalize (fake.lists.select (FakeList.selected now query.since)).map FakeList.toList = out
  simp only [limit, delta, sliceTo_eq_take, Int.toNat_natCast, Nat.cast_inj, Option.isNone_some,
    Option.isSome_some, Bool.true_and, Bool.false_eq_true, if_false]
  unfold onePass rowPage
  dsimp only
  generalize (listResultKeys.sort out).take (clampLimit query.limit) = page
  unfold isSingleMsFullPage isFullPage pageCursor
  rw [List.head?_map, List.getLast?_map, List.length_map, List.isEmpty_map]
  cases ends : page.getLast? with
  | none =>
      rw [List.getLast?_eq_none_iff] at ends
      simp [ends]
  | some last =>
      have nonempty : page.isEmpty = false := by
        cases page with
        | nil => cases ends
        | cons first rest => rfl
      rw [nonempty]
      by_cases full : page.length = clampLimit query.limit
      · simp only [full, decide_true, beq_self_eq_true, Bool.not_false, Bool.and_true,
          Bool.true_and, if_true]
        split
        · rfl
        · rfl
      · have notFull : (page.length == clampLimit query.limit) = false :=
          beq_eq_false_iff_ne.mpr full
        simp [full, notFull]

/-- A delta page is one pass over the sorted window. -/
theorem deltaPage_eq_onePass {ρ : Type} (keys : Keyset ρ Text) (effectiveLimit : ℕ) {window : List ρ}
    (distinct : (window.map keys.tie).Nodup) :
    deltaPage keys effectiveLimit now window =
      onePass keys.stamp effectiveLimit now true (keys.sort window) := by
  rw [deltaPage_eq_rowPage]
  apply rowPage_congr
  intro last _ ends
  exact remainder_eq_rest effectiveLimit distinct ends

theorem StandsFor.listLists (stands : StandsFor db store fake) (now : ℤ) {query : ListQuery}
    (delta : query.since.isSome = true)
    (bounded : ∀ limit, query.limit = some limit → 1 ≤ limit ∧ limit ≤ 1000) :
    listLists db store now query = .ok (fake.listLists now query) := by
  obtain ⟨since, isSince⟩ := Option.isSome_iff_exists.mp delta
  have window : windowOf listKeys (matchingLists db store) since now =
      store.lists.select fun row =>
        decide (row.userId = some db.userId) && stampedWithin since now row.lastModified := by
    unfold matchingLists KeyedTable.select
    exact (filter_stampedWithin _ _).symm
  have sorted := stands.lists_sorted
    (fun row => decide (row.userId = some db.userId) && stampedWithin since now row.lastModified)
    (FakeList.selected now query.since)
    (fun row regular => by
      rw [isSince, regular.user, decide_eq_true rfl, Bool.true_and, regular.lastModified_eq]
      rfl)
    (fun row selected => by
      rw [Bool.and_eq_true, decide_eq_true_eq] at selected
      exact selected.1)
  have ties := store.lists.select_keys_nodup fun row =>
    decide (row.userId = some db.userId) && stampedWithin since now row.lastModified
  rw [listLists_delta isSince, fake.listLists_onePass isSince bounded, window,
    deltaPage_eq_onePass listKeys (clampLimit query.limit) ties, ← sorted,
    ← onePass_map TaskList.lastModified rowToList (fun _ => rfl), renderPage_eq_ok_iff]
  exact ⟨mapM_ok_of_total _, rfl, rfl⟩

end ListReads

end SupernoteTaskService
