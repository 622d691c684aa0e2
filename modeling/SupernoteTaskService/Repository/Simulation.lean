import SupernoteTaskService.Repository.Entries

/-!
# The in-memory repository stands for the other

Every write keeps rows and entries in step, unless it is one of those that the two
repositories take differently; `Comparable` leaves these out.  So a run of operations is
answered alike on both sides, and what the API tests see is what the tables would show.
-/

set_option autoImplicit false

namespace SupernoteTaskService

open Foundation

/-! ## Writes of tasks -/

theorem parseImportance_pythonStr (importance : Importance) :
    parseImportance (some (pythonStr importance.value)) = some (importance.value : ℤ) := by
  have noSpace := pythonStr_no_space importance.value
  have nonempty := pythonStr_ne_nil importance.value
  rw [parseImportance, strip_of_no_space noSpace, if_neg, pythonInt_pythonStr]
  rwa [List.isEmpty_iff]

/-- A detail that the column gives back as it was. -/
def KeptDetail (detail : Text) : Prop := decodeEmoji (some (encodeDetail detail)) = detail

/-- A body that both repositories store alike. -/
structure PlainCreate (data : TaskCreate) (now : ℤ) : Prop where
  detail : KeptDetail data.detail.text
  due : dtToMs data.due ≤ lastInstantMs
  completed : data.status = .completed → now ≤ lastInstantMs

structure PlainUpdate (data : TaskUpdate) (statusNow : ℤ) : Prop where
  detail : ∀ detail, data.detail = .given detail → KeptDetail detail.text
  due : ∀ due, data.due = .given due → datetimeToMs due ≤ lastInstantMs
  completed : data.status = .given .completed → statusNow ≤ lastInstantMs

theorem plainUpdate_ofStatus {status : TaskStatus} {statusNow : ℤ}
    (completed : status = .completed → statusNow ≤ lastInstantMs) :
    PlainUpdate (.ofStatus status) statusNow where
  detail _ impossible := by cases impossible
  due _ impossible := by cases impossible
  completed given := completed (Field.given.inj given)

section Patched
variable {db : Database} {row : TaskRow} {data : TaskUpdate} {statusNow now : ℤ}

theorem RegularRow.updatedRow (regular : RegularRow db row) (plain : PlainUpdate data statusNow) :
    RegularRow db (updatedRow data statusNow now row) where
  user := regular.user
  title := by
    unfold SupernoteTaskService.updatedRow
    cases data.title with
    | given title => exact ⟨_, rfl⟩
    | _ => exact regular.title
  stamped := ⟨now, rfl⟩
  flagged := regular.flagged
  status := by
    unfold SupernoteTaskService.updatedRow
    cases data.status with
    | given status => exact ⟨status, rfl⟩
    | _ => exact regular.status
  link := by
    unfold SupernoteTaskService.updatedRow
    cases data.documentLink with
    | given link => exact ⟨_, documentLinkOf_encode _ (some link)⟩
    | null => exact ⟨_, documentLinkOf_encode _ none⟩
    | omitted => exact regular.link
  due := by
    have chosen := plain.due
    unfold SupernoteTaskService.updatedRow
    cases given : data.due with
    | given due => exact chosen due given
    | null => exact zero_le_lastInstantMs
    | omitted => exact regular.due
  completed := by
    have chosen := plain.completed
    unfold SupernoteTaskService.updatedRow
    cases given : data.status with
    | given status =>
        cases status with
        | needsAction => exact zero_le_lastInstantMs
        | completed => exact chosen given
    | _ => exact regular.completed

/-- The entry of an updated row is the patched entry. -/
theorem entryOf_updatedRow (plain : PlainUpdate data statusNow) :
    entryOf db (updatedRow data statusNow now row) = (entryOf db row).patch data statusNow now := by
  have kept := plain.detail
  unfold updatedRow FakeTask.patch entryOf
  congr 1
  · cases data.title <;> rfl
  · cases given : data.detail with
    | given detail => exact kept detail given
    | _ => rfl
  · cases data.status with
    | given status => exact congrArg (Option.getD · .needsAction) (TaskStatus.ofValue_value status)
    | _ => rfl
  · cases data.importance with
    | given importance => exact parseImportance_pythonStr importance
    | _ => rfl
  · cases data.due <;> rfl
  · cases data.status <;> rfl
  · cases data.documentLink with
    | given link =>
        exact congrArg (fun found => found.toOption.join) (documentLinkOf_encode _ (some link))
    | _ => rfl

theorem RegularRow.deleted (regular : RegularRow db row) :
    RegularRow db { row with isDeleted := some YES, lastModified := some now } where
  user := regular.user
  title := regular.title
  stamped := ⟨now, rfl⟩
  flagged := Or.inl rfl
  status := regular.status
  link := regular.link
  due := regular.due
  completed := regular.completed

end Patched

/-! ## Writes on both sides -/

theorem max?_eq_of_perm {left right : List ℤ} (perm : left.Perm right) : left.max? = right.max? := by
  cases greatest : left.max? with
  | none =>
      rw [List.max?_eq_none_iff] at greatest
      rw [greatest] at perm
      rw [← perm.nil_eq, List.max?_nil]
  | some number =>
      obtain ⟨member, above⟩ := List.max?_eq_some_iff.mp greatest
      exact (List.max?_eq_some_iff.mpr ⟨perm.mem_iff.mp member, fun other isOther =>
        above other (perm.mem_iff.mpr isOther)⟩).symm

section Writes
variable {db : Database} {store : Store} {fake : FakeState} {now : ℤ}

theorem StandsFor.nextSort (stands : StandsFor db store fake) (listId : Option Text) :
    nextSort store listId db.userId = fake.nextSort listId := by
  have perm := stands.selected_perm
    (fun row => decide (row.taskListId = listId) && row.isActive db.userId)
    (fun t => !t.isDeleted && decide (t.listId = listId))
    (fun row regular => by
      have active := regular.isActive_iff
      rw [Bool.and_comm, Bool.eq_iff_iff, Bool.and_eq_true, Bool.and_eq_true, active,
        Bool.not_eq_true']
      rfl)
    (fun row selected => by
      rw [Bool.and_eq_true] at selected
      exact (TaskRow.isActive_iff.mp selected.2).1)
  have sorts := perm.filterMap FakeTask.sort
  rw [List.filterMap_map] at sorts
  have placed : (fake.tasks.rows.filter fun t =>
      !t.isDeleted && decide (t.listId = listId) && t.sort.isSome).filterMap FakeTask.sort =
      (fake.tasks.select fun t => !t.isDeleted && decide (t.listId = listId)).filterMap
        FakeTask.sort := by
    unfold KeyedTable.select
    rw [List.filterMap_filter, List.filterMap_filter]
    apply List.filterMap_congr
    intro t _
    cases t.sort with
    | none => simp
    | some sort => simp
  unfold SupernoteTaskService.nextSort FakeState.nextSort
  rw [placed]
  dsimp only
  have same := max?_eq_of_perm sorts
  cases greatest : ((fake.tasks.select fun t =>
      !t.isDeleted && decide (t.listId = listId)).filterMap FakeTask.sort).max? with
  | none =>
      rw [greatest] at same
      exact congrArg (fun number : Option ℤ => number.getD (-1) + 1) same
  | some number =>
      rw [greatest] at same
      exact congrArg (fun number : Option ℤ => number.getD (-1) + 1) same

theorem regular_newTaskRow {taskId : Text} {data : TaskCreate} (plain : PlainCreate data now) :
    RegularRow db (newTaskRow db store taskId now data) where
  user := rfl
  title := ⟨_, rfl⟩
  stamped := ⟨now, rfl⟩
  flagged := Or.inr rfl
  status := ⟨data.status, rfl⟩
  link := ⟨_, documentLinkOf_encode _ data.documentLink⟩
  due := plain.due
  completed := by
    have chosen := plain.completed
    unfold newTaskRow
    cases given : data.status with
    | needsAction => exact zero_le_lastInstantMs
    | completed => exact chosen given

theorem StandsFor.newTask (stands : StandsFor db store fake) {taskId : Text} {data : TaskCreate}
    (plain : PlainCreate data now) :
    entryOf db (newTaskRow db store taskId now data) = fake.newTask taskId now data := by
  have importance : parseImportance (data.importance.map fun importance =>
      pythonStr importance.value) = data.importance.map fun importance => (importance.value : ℤ) := by
    cases data.importance with
    | none => rfl
    | some importance => exact parseImportance_pythonStr importance
  have status : (TaskStatus.ofValue (some data.status.value)).getD .needsAction = data.status := by
    rw [TaskStatus.ofValue_value]
    rfl
  have link : (documentLinkOf db.linkModel (data.documentLink.map fun link =>
      encodeDocumentLink (linkPayload link))).toOption.join = data.documentLink := by
    rw [documentLinkOf_encode]
    rfl
  have detail : decodeEmoji (some (encodeDetail data.detail.text)) = data.detail.text := plain.detail
  unfold entryOf newTaskRow FakeState.newTask
  simp only [Option.getD_some, importance, status, link, detail, stands.nextSort]
  congr 1

theorem executeTaskUpdate_guarded {expected : Option ℤ} {sets : List TaskSet} {taskId : Text}
    (changes : ∀ row, activeTask db store taskId = some row →
      versionMatches expected row.lastModified = true → row.assign sets ≠ row) :
    Guarded (fun row => row.isActive db.userId = true ∧
        versionMatches expected row.lastModified = true) (TaskRow.assign sets) taskId store.tasks
      (executeTaskUpdate db store expected sets taskId).1
      (executeTaskUpdate db store expected sets taskId).2.tasks := by
  rcases executeTaskUpdate_cases db store expected sets taskId with
    refused | ⟨row, after, found, active, version, changed, executed, lists, frame⟩
  · rw [refused]
    apply Guarded.refused
    intro row found ⟨active, version⟩
    have changed := changes row (activeTask_eq_some_iff.mpr ⟨found, active⟩) version
    have affected := (executeTaskUpdate_affected_iff sets taskId).mpr ⟨row, found, active, version, changed⟩
    rw [refused] at affected
    cases affected
  · rw [executed]
    exact Guarded.taken row after.tasks found ⟨active, version⟩ frame

theorem executeListUpdate_guarded {expected : Option ℤ} {sets : List ListSet} {listId : Text}
    (changes : ∀ row, activeList db store listId = some row →
      versionMatches expected row.lastModified = true → row.assign sets ≠ row) :
    Guarded (fun row => row.isActive db.userId = true ∧
        versionMatches expected row.lastModified = true) (ListRow.assign sets) listId store.lists
      (executeListUpdate db store expected sets listId).1
      (executeListUpdate db store expected sets listId).2.lists := by
  rcases executeListUpdate_cases db store expected sets listId with
    refused | ⟨row, after, found, active, version, changed, executed, tasks, frame⟩
  · rw [refused]
    apply Guarded.refused
    intro row found ⟨active, version⟩
    have changed := changes row (activeList_eq_some_iff.mpr ⟨found, active⟩) version
    have affected := (executeListUpdate_affected_iff sets listId).mpr ⟨row, found, active, version, changed⟩
    rw [refused] at affected
    cases affected
  · rw [executed]
    exact Guarded.taken row after.lists found ⟨active, version⟩ frame

theorem StandsFor.taskUpdate (stands : StandsFor db store fake) (taskId : Text)
    (expected : Option ℤ) (sets : List TaskSet) {assign : FakeTask → FakeTask}
    (keeps : ∀ t, (assign t).id = t.id)
    (alike : ∀ row, RegularRow db row →
      RegularRow db (row.assign sets) ∧ entryOf db (row.assign sets) = assign (entryOf db row))
    (changes : ∀ row, activeTask db store taskId = some row →
      versionMatches expected row.lastModified = true → row.assign sets ≠ row) :
    (executeTaskUpdate db store expected sets taskId).1 =
        (fake.mutateTask taskId expected assign keeps).1 ∧
      StandsFor db (executeTaskUpdate db store expected sets taskId).2
        (fake.mutateTask taskId expected assign keeps).2 := by
  obtain ⟨same, tracks⟩ := stands.tasks.guarded
    (fun row t related => by
      obtain ⟨regular, rfl⟩ := related
      rw [regular.isActive_iff, regular.lastModified_eq])
    (fun row passes => (TaskRow.isActive_iff.mp passes.1).1)
    (fun row t related passes => by
      obtain ⟨regular, rfl⟩ := related
      exact alike row regular)
    (executeTaskUpdate_guarded changes)
    (mutateEntry_guarded taskId expected keeps)
  exact ⟨same, tracks, stands.lists⟩

theorem StandsFor.listUpdate (stands : StandsFor db store fake) (listId : Text)
    (expected : Option ℤ) (sets : List ListSet) {assign : FakeList → FakeList}
    (keeps : ∀ ls, (assign ls).id = ls.id)
    (alike : ∀ row, RegularList db row →
      RegularList db (row.assign sets) ∧ listEntryOf (row.assign sets) = assign (listEntryOf row))
    (changes : ∀ row, activeList db store listId = some row →
      versionMatches expected row.lastModified = true → row.assign sets ≠ row) :
    (executeListUpdate db store expected sets listId).1 =
        (fake.mutateList listId expected assign keeps).1 ∧
      StandsFor db (executeListUpdate db store expected sets listId).2
        (fake.mutateList listId expected assign keeps).2 := by
  obtain ⟨same, tracks⟩ := stands.lists.guarded
    (fun row ls related => by
      obtain ⟨regular, rfl⟩ := related
      rw [regular.isActive_iff, regular.lastModified_eq])
    (fun row passes => (ListRow.isActive_iff.mp passes.1).1)
    (fun row ls related passes => by
      obtain ⟨regular, rfl⟩ := related
      exact alike row regular)
    (executeListUpdate_guarded changes)
    (mutateEntry_guarded listId expected keeps)
  exact ⟨same, stands.tasks, tracks⟩

/-- A patch without fragments refuses what no active row would let pass. -/
theorem updateTask_of_no_target {statusNow : ℤ} {taskId : Text} {data : TaskUpdate}
    {expected : Option ℤ} (nothing : updateSets data statusNow = [])
    (noTarget : ∀ row, activeTask db store taskId = some row →
      versionMatches expected row.lastModified ≠ true) :
    updateTask db store statusNow now taskId data expected = (false, store) := by
  unfold updateTask
  rw [nothing, List.isEmpty_nil, if_pos rfl]
  cases expected with
  | none =>
      have absent : activeTask db store taskId = none := by
        rw [Option.eq_none_iff_forall_ne_some]
        intro row active
        exact noTarget row active rfl
      dsimp only
      rw [SupernoteTaskService.taskExists, absent]
      rfl
  | some expected =>
      dsimp only
      unfold rowMatchesVersion
      cases active : activeTask db store taskId with
      | none => rfl
      | some row =>
          have other : ¬ row.lastModified = some expected := fun same =>
            noTarget row active (decide_eq_true same)
          dsimp only
          rw [decide_eq_false other]

theorem StandsFor.updateTask (stands : StandsFor db store fake) {statusNow : ℤ} {taskId : Text}
    {data : TaskUpdate} {expected : Option ℤ} (plain : PlainUpdate data statusNow)
    (changes : ∀ row, activeTask db store taskId = some row →
      versionMatches expected row.lastModified = true →
        updateSets data statusNow ≠ [] ∧ updatedRow data statusNow now row ≠ row) :
    (updateTask db store statusNow now taskId data expected).1 =
        (fake.updateTask statusNow now taskId data expected).1 ∧
      StandsFor db (updateTask db store statusNow now taskId data expected).2
        (fake.updateTask statusNow now taskId data expected).2 := by
  have written := stands.taskUpdate taskId expected
    (updateSets data statusNow ++ [.lastModified now]) (FakeTask.patch_id data statusNow now)
    (fun row regular => by
      rw [assign_updateSets]
      exact ⟨regular.updatedRow plain, entryOf_updatedRow plain⟩)
    (fun row active version => by
      rw [assign_updateSets]
      exact (changes row active version).2)
  by_cases nothing : updateSets data statusNow = []
  · have noTarget : ∀ row, activeTask db store taskId = some row →
        versionMatches expected row.lastModified ≠ true :=
      fun row active version => (changes row active version).1 nothing
    have refused : executeTaskUpdate db store expected
        (updateSets data statusNow ++ [.lastModified now]) taskId = (false, store) := by
      rcases executeTaskUpdate_cases db store expected
          (updateSets data statusNow ++ [.lastModified now]) taskId with
        refused | ⟨row, after, found, active, version, -⟩
      · exact refused
      · exact absurd version (noTarget row (activeTask_eq_some_iff.mpr ⟨found, active⟩))
    rw [refused] at written
    rw [updateTask_of_no_target nothing noTarget]
    exact written
  · rw [updateTask_of_sets db store now statusNow nothing]
    exact written

theorem StandsFor.createTask (stands : StandsFor db store fake) {taskId : Text} {data : TaskCreate}
    (free : store.tasks.get taskId = none) (plain : PlainCreate data now) :
    ∃ after, createTask db store taskId now data = .ok (taskId, after) ∧
      StandsFor db after (fake.createTask taskId now data).2 := by
  rcases createTask_cases db store now taskId data with ⟨-, taken⟩ | ⟨after, created, -, effect⟩
  · exact absurd free taken
  · refine ⟨after, created, ?_, ?_⟩
    · exact stands.tasks.put ⟨regular_newTaskRow plain, stands.newTask plain⟩ effect.frame
        (get_putEntry _)
    · rw [effect.lists]
      exact stands.lists

theorem StandsFor.createList (stands : StandsFor db store fake) (now : ℤ) (title : Text)
    {listId : Text} (free : store.lists.get listId = none) :
    ∃ after, createList db store listId now title = .ok (listId, after) ∧
      StandsFor db after (fake.createList listId now title).2 := by
  have regular : RegularList db (newListRow db listId now title) :=
    ⟨rfl, ⟨_, rfl⟩, ⟨now, rfl⟩, Or.inr rfl⟩
  rcases createList_cases db store now listId title with ⟨-, taken⟩ | ⟨after, created, -, effect⟩
  · exact absurd free taken
  · refine ⟨after, created, ?_, ?_⟩
    · rw [effect.tasks]
      exact stands.tasks
    · exact stands.lists.put ⟨regular, rfl⟩ effect.frame (get_putEntry _)

end Writes

/-! ## Whole runs -/

/-- The operations that the two repositories answer alike.  They differ on limits out of
range, in the order of a snapshot of lists, on an id that is in use, on a detail that the
column does not give back, on instants that are no dates, and on an update that leaves its
row as it was: the table reports no affected row, and the dict is written all the same. -/
def Operation.Comparable (db : Database) (store : Store) (now : ℤ) : Operation → Prop
  | .listTasks query => ∀ limit, query.limit = some limit → 1 ≤ limit ∧ limit ≤ 1000
  | .createTask taskId data => store.tasks.get taskId = none ∧ PlainCreate data now
  | .updateTask statusNow taskId data expected =>
      PlainUpdate data statusNow ∧ ∀ row, activeTask db store taskId = some row →
        versionMatches expected row.lastModified = true →
          updateSets data statusNow ≠ [] ∧ updatedRow data statusNow now row ≠ row
  | .setStatus statusNow taskId status expected =>
      PlainUpdate (.ofStatus status) statusNow ∧ ∀ row, activeTask db store taskId = some row →
        versionMatches expected row.lastModified = true →
          updatedRow (.ofStatus status) statusNow now row ≠ row
  | .listLists query =>
      query.since.isSome = true ∧ ∀ limit, query.limit = some limit → 1 ≤ limit ∧ limit ≤ 1000
  | .createList listId _ => store.lists.get listId = none
  | .updateList listId title expected => ∀ row, activeList db store listId = some row →
      versionMatches expected row.lastModified = true →
        { row with title := some (encodeEmoji title), lastModified := some now } ≠ row
  | _ => True

def Returned.uncategorized : Returned → Returned
  | .tasks page => .tasks (page.map Task.uncategorized)
  | .task found => .task (found.map Task.uncategorized)
  | .lists page => .lists page
  | .list found => .list found
  | .flag value => .flag value
  | .id created => .id created

def repositoryAnswer (db : Database) (store : Store) (step : Timed Operation) :
    Option (Except Raised Returned) :=
  some ((step.event.run db store step.clock).1.map Returned.uncategorized)

def fakeAnswer (fake : FakeState) (step : Timed Operation) : Option (Except Raised Returned) :=
  some ((step.event.runFake fake step.clock).1.map Returned.uncategorized)

section Runs
variable {db : Database} {store : Store} {fake : FakeState} {now : ℤ}

theorem deletedTask_ne {row : TaskRow} (active : row.isActive db.userId = true) :
    row.assign [.isDeleted YES, .lastModified now] ≠ row := by
  intro same
  have flag : some YES = row.isDeleted := congrArg TaskRow.isDeleted same
  rw [(TaskRow.isActive_iff.mp active).2] at flag
  cases flag

theorem deletedList_ne {row : ListRow} (active : row.isActive db.userId = true) :
    row.assign [.isDeleted YES, .lastModified now] ≠ row := by
  intro same
  have flag : some YES = row.isDeleted := congrArg ListRow.isDeleted same
  rw [(ListRow.isActive_iff.mp active).2] at flag
  cases flag

/-- One operation keeps the relation and answers the same on both sides. -/
theorem StandsFor.step (stands : StandsFor db store fake) {operation : Operation}
    (comparable : operation.Comparable db store now) :
    StandsFor db (operation.run db store now).2 (operation.runFake fake now).2 ∧
      (operation.run db store now).1.map Returned.uncategorized =
        (operation.runFake fake now).1.map Returned.uncategorized := by
  cases operation with
  | listTasks query =>
      refine ⟨stands, ?_⟩
      have pages := congrArg (Except.map Returned.tasks) (stands.listTasks now comparable)
      rw [map_map_eq, map_map_eq] at pages
      rw [Operation.run, Operation.runFake, map_map_eq, map_map_eq]
      exact pages
  | getTask taskId =>
      refine ⟨stands, ?_⟩
      have found := congrArg (Except.map Returned.task) (stands.getTask taskId)
      rw [map_map_eq, map_map_eq] at found
      rw [Operation.run, Operation.runFake, map_map_eq, map_map_eq]
      exact found
  | createTask taskId data =>
      obtain ⟨after, created, later⟩ := stands.createTask comparable.1 comparable.2
      simp only [Operation.run, created]
      exact ⟨later, rfl⟩
  | updateTask statusNow taskId data expected =>
      obtain ⟨same, later⟩ := stands.updateTask comparable.1 comparable.2
      refine ⟨later, ?_⟩
      exact congrArg (fun flag => Except.ok (Returned.flag flag)) same
  | setStatus statusNow taskId status expected =>
      have named : updateSets (.ofStatus status) statusNow ≠ [] := List.cons_ne_nil _ _
      obtain ⟨same, later⟩ := stands.updateTask comparable.1 fun row active version =>
        ⟨named, comparable.2 row active version⟩
      refine ⟨later, ?_⟩
      exact congrArg (fun flag => Except.ok (Returned.flag flag)) same
  | deleteTask taskId expected =>
      obtain ⟨same, later⟩ := stands.taskUpdate taskId expected [.isDeleted YES, .lastModified now]
        (FakeTask.delete_id now) (fun row regular => ⟨regular.deleted, rfl⟩) fun row active _ =>
          deletedTask_ne (activeTask_eq_some_iff.mp active).2
      exact ⟨later, congrArg (fun flag => Except.ok (Returned.flag flag)) same⟩
  | taskExists taskId => exact ⟨stands, by rw [Operation.run, Operation.runFake, stands.taskExists]⟩
  | listLists query =>
      refine ⟨stands, ?_⟩
      rw [Operation.run, Operation.runFake, stands.listLists now comparable.1 comparable.2]
      rfl
  | getList listId => exact ⟨stands, by rw [Operation.run, Operation.runFake, stands.getList]⟩
  | listExists listId => exact ⟨stands, by rw [Operation.run, Operation.runFake, stands.listExists]⟩
  | getListByTitle title =>
      exact ⟨stands, by rw [Operation.run, Operation.runFake, stands.getListByTitle]⟩
  | createList listId title =>
      obtain ⟨after, created, later⟩ := stands.createList now title comparable
      simp only [Operation.run, created]
      exact ⟨later, rfl⟩
  | updateList listId title expected =>
      obtain ⟨same, later⟩ := stands.listUpdate listId expected
        [.title (encodeEmoji title), .lastModified now] (FakeList.rename_id now title)
        (fun row regular => ⟨⟨regular.user, ⟨_, rfl⟩, ⟨now, rfl⟩, regular.flagged⟩, rfl⟩) comparable
      exact ⟨later, congrArg (fun flag => Except.ok (Returned.flag flag)) same⟩
  | deleteList listId expected =>
      obtain ⟨same, later⟩ := stands.listUpdate listId expected [.isDeleted YES, .lastModified now]
        (FakeList.delete_id now)
        (fun row regular => ⟨⟨regular.user, regular.title, ⟨now, rfl⟩, Or.inl rfl⟩, rfl⟩)
        fun row active _ => deletedList_ne (activeList_eq_some_iff.mp active).2
      exact ⟨later, congrArg (fun flag => Except.ok (Returned.flag flag)) same⟩

end Runs

/-- From dicts that hold the rows of the user, a run of operations that the two repositories
answer alike ends in dicts that hold the rows of the user, and every answer on the way is the
same, up to the category of a task. -/
theorem fake_simulates_repository (db : Database) (store : Store) (fake : FakeState)
    (run : List (Timed Operation)) (stands : StandsFor db store fake)
    (comparable : ∀ current step rest, Happens (operationStep db) store run current step rest →
      step.event.Comparable db current step.clock) :
    StandsFor db (run.foldl (operationStep db) store) (run.foldl fakeStep fake) ∧
      outputs (operationStep db) (repositoryAnswer db) store run =
        outputs fakeStep fakeAnswer fake run := by
  apply simulation_of_steps (store, fake) (StandsFor db) stands
  intro pair step rest occurs related
  obtain ⟨later, same⟩ := related.step (comparable pair.1 step rest occurs.left)
  exact ⟨later, congrArg some same⟩

def comparableRun : List (Timed Operation) :=
  [⟨1000, .createTask ['a'] titleOnly⟩, ⟨2000, .setStatus 2000 ['a'] .completed (some 1000)⟩,
    ⟨3000, .listTasks { since := some 0 }⟩, ⟨4000, .deleteTask ['a'] none⟩]

theorem comparableRun_answered_alike :
    outputs (operationStep singleUser) (repositoryAnswer singleUser) .empty comparableRun =
      outputs fakeStep fakeAnswer .empty comparableRun := by
  apply (fake_simulates_repository singleUser .empty .empty comparableRun
    (standsFor_empty singleUser) ?_).2
  have plain : PlainCreate titleOnly 1000 := by
    refine ⟨rfl, by decide, ?_⟩
    intro impossible
    cases impossible
  simp only [comparableRun, forall_happens_cons_iff]
  refine ⟨⟨rfl, plain⟩, ⟨plainUpdate_ofStatus fun _ => by decide, ?_⟩, ?_, trivial,
    forall_happens_nil⟩
  · intro row active _
    cases active
    decide
  · intro limit impossible
    cases impossible

end SupernoteTaskService
