import SupernoteTaskService.Sync.PageSizes
import SupernoteTaskService.Writes.ErrorReplies
import SupernoteTaskService.Writes.Outcomes

/-!
# Version tokens

A client is shown the `last_modified` of a row and sends it back with its next write of
that row.  The mappers show `NULL` as 0, and the comparison of the write compares with
the stored column, so a row that the device left without a stamp refuses the version
that it was shown with, and every other row accepts it.
-/

set_option autoImplicit false

namespace SupernoteTaskService

open Foundation

/-! ## Rows of either table -/

inductive StoredRow where
  | task (row : TaskRow)
  | list (row : ListRow)
  deriving DecidableEq

def StoredRow.lastModified : StoredRow → Option ℤ
  | .task row => row.lastModified
  | .list row => row.lastModified

def StoredRow.isActive (userId : ℤ) : StoredRow → Bool
  | .task row => row.isActive userId
  | .list row => row.isActive userId

def RowKey.stored (store : Store) : RowKey → Option StoredRow
  | .task taskId => (store.tasks.get taskId).map .task
  | .list listId => (store.lists.get listId).map .list

/-- What a write leaves of the row: an update that sets nothing leaves it alone. -/
def Operation.rewriteRow (now : ℤ) (operation : Operation) : StoredRow → StoredRow
  | .task row => .task (((operation.rewriteTask now).getD id) row)
  | .list row => .list (((operation.rewriteList now).getD id) row)

theorem RowKey.stored_task {store : Store} {taskId : Text} {row : StoredRow}
    (stored : (RowKey.task taskId).stored store = some row) :
    ∃ task, row = .task task ∧ store.tasks.get taskId = some task := by
  obtain ⟨task, found, same⟩ := Option.map_eq_some_iff.mp stored
  exact ⟨task, same.symm, found⟩

theorem RowKey.stored_list {store : Store} {listId : Text} {row : StoredRow}
    (stored : (RowKey.list listId).stored store = some row) :
    ∃ list, row = .list list ∧ store.lists.get listId = some list := by
  obtain ⟨list, found, same⟩ := Option.map_eq_some_iff.mp stored
  exact ⟨list, same.symm, found⟩

theorem RowKey.isActive_of_stored {db : Database} {store : Store} {key : RowKey} {row : StoredRow}
    (stored : key.stored store = some row) (active : row.isActive db.userId = true) :
    key.isActive db store = true := by
  cases key with
  | task taskId =>
      obtain ⟨task, rfl, found⟩ := RowKey.stored_task stored
      rw [RowKey.isActive, taskExists, activeTask_eq_some_iff.mpr ⟨found, active⟩]
      rfl
  | list listId =>
      obtain ⟨list, rfl, found⟩ := RowKey.stored_list stored
      rw [RowKey.isActive, listExists, activeList_eq_some_iff.mpr ⟨found, active⟩]
      rfl

/-! ## What a read shows -/

def Returned.shownTasks : Returned → List Task
  | .tasks page => page.items
  | .task found => found.toList
  | _ => []

def Returned.shownLists : Returned → List TaskList
  | .lists page => page.items
  | .list found => found.toList
  | _ => []

/-- The answer shows the row of the key with this version. -/
def Returned.Shows (answer : Returned) (version : ℤ) : RowKey → Prop
  | .task taskId => ∃ task ∈ answer.shownTasks, task.id = taskId ∧ task.lastModified = version
  | .list listId =>
      ∃ list ∈ answer.shownLists, list.id = some listId ∧ list.lastModified = version

section Pages
variable {ρ α : Type} {render : ρ → Except Raised α} {stamp : α → ℤ} {effectiveLimit : ℕ}
  {rows : List ρ} {drain : α → List ρ}

theorem mem_loadedRows {delta : Bool} {row : ρ}
    (fetched : row ∈ loadedRows render stamp effectiveLimit delta rows drain) :
    row ∈ rows ∨ ∃ last, row ∈ drain last := by
  unfold loadedRows at fetched
  split at fetched
  · exact Or.inl fetched
  · split at fetched
    · rename_i last _
      rcases List.mem_append.mp fetched with onPage | drained
      · exact Or.inl onPage
      · exact Or.inr ⟨last, drained⟩
    · exact Or.inl fetched

theorem mem_assemblePage {serverNow : ℤ} {delta : Bool} {page : Page α}
    (answered : assemblePage render stamp effectiveLimit serverNow delta rows drain = .ok page)
    {item : α} (member : item ∈ page.items) :
    ∃ row, (row ∈ rows ∨ ∃ last, row ∈ drain last) ∧ render row = .ok item := by
  obtain ⟨row, fetched, mapped⟩ := (mem_of_mapM_ok (assemblePage_mapped answered) item).mp member
  exact ⟨row, mem_loadedRows fetched, mapped⟩

end Pages

section Reads
variable {db : Database} {store : Store} {serverNow : ℤ}

theorem mem_listTasks {query : TaskQuery} {page : Page Task}
    (answered : listTasks db store serverNow query = .ok page) {task : Task}
    (member : task ∈ page.items) : ∃ row ∈ store.tasks.rows, store.task db row = .ok task := by
  obtain ⟨row, source, mapped⟩ := mem_assemblePage answered member
  refine ⟨row, ?_, mapped⟩
  rcases source with onPage | ⟨last, drained⟩
  · exact mem_taskPageRows onPage
  · exact mem_drainTasksAt drained

theorem mem_listLists {query : ListQuery} {page : Page TaskList}
    (answered : listLists db store serverNow query = .ok page) {list : TaskList}
    (member : list ∈ page.items) :
    list.id = none ∨ ∃ row ∈ store.lists.rows, list = rowToList row := by
  rw [listLists, bind_eq_ok_iff] at answered
  obtain ⟨rowsPage, assembled, same⟩ := answered
  rw [pure_eq_ok_iff] at same
  have ofRow : list ∈ rowsPage.items → ∃ row ∈ store.lists.rows, list = rowToList row := by
    intro onPage
    obtain ⟨row, source, mapped⟩ := mem_assemblePage assembled onPage
    refine ⟨row, ?_, (Except.ok.inj mapped).symm⟩
    rcases source with onPage | ⟨last, drained⟩
    · exact mem_listPageRows onPage
    · exact mem_drainListsAt drained
  subst same
  dsimp only at member
  split at member
  · rcases List.mem_cons.mp member with rfl | onPage
    · exact Or.inl rfl
    · exact Or.inr (ofRow onPage)
  · exact Or.inr (ofRow member)

theorem Operation.shown_task {operation : Operation} {answer : Returned}
    (answered : (operation.run db store serverNow).1 = .ok answer) {task : Task}
    (member : task ∈ answer.shownTasks) : ∃ row ∈ store.tasks.rows, store.task db row = .ok task := by
  cases operation with
  | listTasks query =>
      obtain ⟨page, isPage, rfl⟩ := map_eq_ok_iff.mp answered
      exact mem_listTasks isPage member
  | getTask taskId =>
      obtain ⟨found, isFound, rfl⟩ := map_eq_ok_iff.mp answered
      have isTask : found = some task := Option.mem_toList.mp member
      subst isTask
      rw [SupernoteTaskService.getTask] at isFound
      cases active : activeTask db store taskId with
      | none =>
          rw [active] at isFound
          cases isFound
      | some row =>
          rw [active] at isFound
          obtain ⟨mappedTask, mapped, same⟩ := bind_eq_ok_iff.mp isFound
          cases pure_eq_ok_iff.mp same
          have stored := (activeTask_eq_some_iff.mp active).1
          exact ⟨row, ((store.tasks.get_eq_some_iff taskId row).mp stored).1, mapped⟩
  | listLists query =>
      obtain ⟨page, -, rfl⟩ := map_eq_ok_iff.mp answered
      cases member
  | createTask _ _ | createList _ _ =>
      simp only [Operation.run] at answered
      split at answered
      · cases answered
        cases member
      · cases answered
  | _ =>
      cases answered
      cases member

theorem Operation.shown_list {operation : Operation} {answer : Returned}
    (answered : (operation.run db store serverNow).1 = .ok answer) {list : TaskList}
    (member : list ∈ answer.shownLists) :
    list.id = none ∨ ∃ row ∈ store.lists.rows, list = rowToList row := by
  cases operation with
  | listLists query =>
      obtain ⟨page, isPage, rfl⟩ := map_eq_ok_iff.mp answered
      exact mem_listLists isPage member
  | getList listId =>
      cases answered
      have isList : SupernoteTaskService.getList db store listId = some list :=
        Option.mem_toList.mp member
      obtain ⟨row, active, rfl⟩ := Option.map_eq_some_iff.mp isList
      have stored := (activeList_eq_some_iff.mp active).1
      exact Or.inr ⟨row, ((store.lists.get_eq_some_iff listId row).mp stored).1, rfl⟩
  | getListByTitle title =>
      cases answered
      obtain ⟨row, stored, -, -, same⟩ := getListByTitle_eq_some (Option.mem_toList.mp member)
      exact Or.inr ⟨row, stored, same⟩
  | listTasks query =>
      obtain ⟨page, -, rfl⟩ := map_eq_ok_iff.mp answered
      cases member
  | getTask taskId =>
      obtain ⟨found, -, rfl⟩ := map_eq_ok_iff.mp answered
      cases member
  | createTask _ _ | createList _ _ =>
      simp only [Operation.run] at answered
      split at answered
      · cases answered
        cases member
      · cases answered
  | _ =>
      cases answered
      cases member

theorem Operation.shown_version {operation : Operation} {answer : Returned} {key : RowKey}
    {row : StoredRow} {version : ℤ}
    (answered : (operation.run db store serverNow).1 = .ok answer)
    (shown : answer.Shows version key) (stored : key.stored store = some row) :
    version = row.lastModified.getD 0 := by
  cases key with
  | task taskId =>
      obtain ⟨task, member, isKey, rfl⟩ := shown
      obtain ⟨row', stored', mapped⟩ := Operation.shown_task answered member
      obtain ⟨old, rfl, found⟩ := RowKey.stored_task stored
      have sameKey : row'.taskId = taskId := (rowToTask_id mapped).symm.trans isKey
      cases found.symm.trans ((store.tasks.get_eq_some_iff taskId row').mpr ⟨stored', sameKey⟩)
      exact rowToTask_lastModified mapped
  | list listId =>
      obtain ⟨list, member, isKey, rfl⟩ := shown
      obtain ⟨old, rfl, found⟩ := RowKey.stored_list stored
      rcases Operation.shown_list answered member with isInbox | ⟨row', stored', rfl⟩
      · rw [isInbox] at isKey
        cases isKey
      · have sameKey : row'.taskListId = listId := Option.some.inj isKey
        cases found.symm.trans ((store.lists.get_eq_some_iff listId row').mpr ⟨stored', sameKey⟩)
        rfl

end Reads

/-! ## What a conditional write makes of the row -/

section Conditional
variable {db : Database} {store : Store} {now version : ℤ}

theorem executeTaskUpdate_conditional (sets : List TaskSet) {taskId : Text} {row : TaskRow}
    (found : store.tasks.get taskId = some row) (active : row.isActive db.userId = true)
    (clock : ∀ stamp, row.lastModified = some stamp → stamp < now) :
    (row.lastModified = some version ∧ ∃ after,
      executeTaskUpdate db store (some version) (sets ++ [.lastModified now]) taskId =
        (true, after) ∧
      after.tasks.get taskId = some (row.assign (sets ++ [.lastModified now]))) ∨
    row.lastModified ≠ some version ∧
      executeTaskUpdate db store (some version) (sets ++ [.lastModified now]) taskId =
        (false, store) := by
  rcases executeTaskUpdate_cases db store (some version) (sets ++ [.lastModified now]) taskId with
    refused | ⟨old, after, isOld, -, matched, -, executed, -, frame⟩
  · refine Or.inr ⟨fun isVersion => ?_, refused⟩
    have matched : versionMatches (some version) row.lastModified = true :=
      decide_eq_true isVersion
    have same := executeTaskUpdate_refused (congrArg Prod.fst refused) found active matched
    -- A statement that stamps the row and leaves it as it is has met its own clock.
    have stamped := TaskRow.assign_lastModified sets now row
    rw [same] at stamped
    exact lt_irrefl now (clock now stamped)
  · cases found.symm.trans isOld
    refine Or.inl ⟨of_decide_eq_true matched, after, executed, ?_⟩
    rw [frame, if_pos rfl]

theorem executeListUpdate_conditional (sets : List ListSet) {listId : Text} {row : ListRow}
    (found : store.lists.get listId = some row) (active : row.isActive db.userId = true)
    (clock : ∀ stamp, row.lastModified = some stamp → stamp < now) :
    (row.lastModified = some version ∧ ∃ after,
      executeListUpdate db store (some version) (sets ++ [.lastModified now]) listId =
        (true, after) ∧
      after.lists.get listId = some (row.assign (sets ++ [.lastModified now]))) ∨
    row.lastModified ≠ some version ∧
      executeListUpdate db store (some version) (sets ++ [.lastModified now]) listId =
        (false, store) := by
  rcases executeListUpdate_cases db store (some version) (sets ++ [.lastModified now]) listId with
    refused | ⟨old, after, isOld, -, matched, -, executed, -, frame⟩
  · refine Or.inr ⟨fun isVersion => ?_, refused⟩
    have matched : versionMatches (some version) row.lastModified = true :=
      decide_eq_true isVersion
    have same := executeListUpdate_refused (congrArg Prod.fst refused) found active matched
    have stamped := ListRow.assign_lastModified sets now row
    rw [same] at stamped
    exact lt_irrefl now (clock now stamped)
  · cases found.symm.trans isOld
    refine Or.inl ⟨of_decide_eq_true matched, after, executed, ?_⟩
    rw [frame, if_pos rfl]

variable (db store now version) in
/-- The write of the request accepts the version of the row and leaves what it makes of
it, or it refuses the version and does nothing. -/
def Request.Decides (request : Request) (row : StoredRow) : Prop :=
  (row.lastModified = some version ∧ ∃ after,
    request.operation.run db store now = (.ok (.flag true), after) ∧
    request.row.stored after = some (request.operation.rewriteRow now row)) ∨
  row.lastModified ≠ some version ∧
    request.operation.run db store now = (.ok (.flag false), store)

theorem Request.decides_of_taskUpdate {request : Request} {taskId : Text} {row : TaskRow}
    (sets : List TaskSet) (isRow : request.row = .task taskId)
    (runs : ∀ written, executeTaskUpdate db store (some version) (sets ++ [.lastModified now])
      taskId = written → request.operation.run db store now = (.ok (.flag written.1), written.2))
    (rewrites : request.operation.rewriteTask now =
      some fun row => row.assign (sets ++ [.lastModified now]))
    (found : store.tasks.get taskId = some row) (active : row.isActive db.userId = true)
    (clock : ∀ stamp, row.lastModified = some stamp → stamp < now) :
    request.Decides db store now version (.task row) := by
  rcases executeTaskUpdate_conditional sets found active clock with
    ⟨isVersion, after, executed, written⟩ | ⟨differs, refused⟩
  · refine Or.inl ⟨isVersion, after, runs _ executed, ?_⟩
    rw [isRow, RowKey.stored, written, Operation.rewriteRow, rewrites]
    rfl
  · exact Or.inr ⟨differs, runs _ refused⟩

theorem Request.decides_of_listUpdate {request : Request} {listId : Text} {row : ListRow}
    (sets : List ListSet) (isRow : request.row = .list listId)
    (runs : ∀ written, executeListUpdate db store (some version) (sets ++ [.lastModified now])
      listId = written → request.operation.run db store now = (.ok (.flag written.1), written.2))
    (rewrites : request.operation.rewriteList now =
      some fun row => row.assign (sets ++ [.lastModified now]))
    (found : store.lists.get listId = some row) (active : row.isActive db.userId = true)
    (clock : ∀ stamp, row.lastModified = some stamp → stamp < now) :
    request.Decides db store now version (.list row) := by
  rcases executeListUpdate_conditional sets found active clock with
    ⟨isVersion, after, executed, written⟩ | ⟨differs, refused⟩
  · refine Or.inl ⟨isVersion, after, runs _ executed, ?_⟩
    rw [isRow, RowKey.stored, written, Operation.rewriteRow, rewrites]
    rfl
  · exact Or.inr ⟨differs, runs _ refused⟩

theorem Request.decides_of_no_sets {statusNow : ℤ} {taskId : Text} {body : TaskUpdate}
    {row : TaskRow} (nothing : updateSets body statusNow = [])
    (found : store.tasks.get taskId = some row) (active : row.isActive db.userId = true) :
    (Request.updateTask statusNow taskId body (some version)).Decides db store now version
      (.task row) := by
  have written : SupernoteTaskService.updateTask db store statusNow now taskId body
      (some version) = (decide (row.lastModified = some version), store) := by
    rw [SupernoteTaskService.updateTask, nothing, List.isEmpty_nil, if_pos rfl]
    simp only [rowMatchesVersion, activeTask_eq_some_iff.mpr ⟨found, active⟩]
  have runs : (Request.updateTask statusNow taskId body (some version)).operation.run db store now =
      (.ok (.flag (decide (row.lastModified = some version))), store) := by
    simp only [Request.operation, Operation.run, written]
  have rewrites : (Operation.updateTask statusNow taskId body (some version)).rewriteTask now =
      none := by
    rw [Operation.rewriteTask, nothing]
    rfl
  by_cases isVersion : row.lastModified = some version
  · refine Or.inl ⟨isVersion, store, ?_, ?_⟩
    · rw [runs, decide_eq_true isVersion]
    · rw [Request.row, RowKey.stored, found, Request.operation, Operation.rewriteRow, rewrites]
      rfl
  · refine Or.inr ⟨isVersion, ?_⟩
    rw [runs, decide_eq_false isVersion]

theorem Request.decides_of_status {request : Request} {statusNow : ℤ} {taskId : Text}
    {status : TaskStatus} {row : TaskRow} (isRow : request.row = .task taskId)
    (sets : request.operation = .setStatus statusNow taskId status (some version))
    (found : store.tasks.get taskId = some row) (active : row.isActive db.userId = true)
    (clock : ∀ stamp, row.lastModified = some stamp → stamp < now) :
    request.Decides db store now version (.task row) := by
  have named : updateSets (.ofStatus status) statusNow ≠ [] := List.cons_ne_nil _ _
  refine Request.decides_of_taskUpdate (updateSets (.ofStatus status) statusNow) isRow ?_ ?_ found
    active clock
  · rintro written rfl
    rw [sets, Operation.run, setStatus, updateTask_of_sets db store now statusNow named]
  · rw [sets, Operation.rewriteTask]
    simp only [assign_updateSets]

/-- Every request that carries a version decides by the stored stamp. -/
theorem Request.decides {request : Request} {row : StoredRow}
    (stored : request.row.stored store = some row) (active : row.isActive db.userId = true)
    (sent : request.operation.expected = some version)
    (clock : ∀ stamp, row.lastModified = some stamp → stamp < now) :
    request.Decides db store now version row := by
  cases request with
  | createTask taskId body => cases sent
  | createList listId body => cases sent
  | updateTask statusNow taskId body ifUnmodifiedSince =>
      cases sent
      obtain ⟨task, rfl, found⟩ := RowKey.stored_task stored
      by_cases nothing : updateSets body statusNow = []
      · exact Request.decides_of_no_sets nothing found active
      · refine Request.decides_of_taskUpdate (updateSets body statusNow) rfl ?_ ?_ found active clock
        · rintro written rfl
          simp only [Request.operation, Operation.run,
            updateTask_of_sets db store now statusNow nothing]
        · simp only [Request.operation, Operation.rewriteTask, assign_updateSets]
          rw [if_neg]
          rwa [List.isEmpty_iff]
  | completeTask statusNow taskId ifUnmodifiedSince =>
      cases sent
      obtain ⟨task, rfl, found⟩ := RowKey.stored_task stored
      exact Request.decides_of_status rfl rfl found active clock
  | uncompleteTask statusNow taskId ifUnmodifiedSince =>
      cases sent
      obtain ⟨task, rfl, found⟩ := RowKey.stored_task stored
      exact Request.decides_of_status rfl rfl found active clock
  | deleteTask taskId ifUnmodifiedSince =>
      cases sent
      obtain ⟨task, rfl, found⟩ := RowKey.stored_task stored
      refine Request.decides_of_taskUpdate [.isDeleted YES] rfl ?_ rfl found active clock
      rintro written rfl
      rfl
  | updateList listId body ifUnmodifiedSince =>
      cases sent
      obtain ⟨list, rfl, found⟩ := RowKey.stored_list stored
      refine Request.decides_of_listUpdate [.title (encodeEmoji body.title.text)] rfl ?_ rfl found
        active clock
      rintro written rfl
      rfl
  | deleteList listId ifUnmodifiedSince =>
      cases sent
      obtain ⟨list, rfl, found⟩ := RowKey.stored_list stored
      refine Request.decides_of_listUpdate [.isDeleted YES] rfl ?_ rfl found active clock
      rintro written rfl
      rfl

end Conditional

/-! ## The law -/

/-- `Header(alias="If-Unmodified-Since", ge=0)`: no endpoint is reached with less. -/
def Request.headerInRange (request : Request) : Bool :=
  request.operation.expected.all fun version => decide (0 ≤ version)

section Law
variable (db : Database) (store : Store) (now : ℤ)

def Request.TakesEffect (request : Request) (row : StoredRow) : Prop :=
  request.headerInRange = true ∧ ∃ after,
    request.operation.run db store now = (.ok (.flag true), after) ∧
    request.row.stored after = some (request.operation.rewriteRow now row)

def Request.ReportsConflict (request : Request) : Prop :=
  request.headerInRange = true ∧ RefusedWith (request.handle db store now) 409

variable {db store now} {request : Request} {row : StoredRow} {version : ℤ}

theorem Request.headerInRange_iff (sent : request.operation.expected = some version) :
    request.headerInRange = true ↔ 0 ≤ version := by
  rw [Request.headerInRange, sent, Option.all_some, decide_eq_true_eq]

theorem Request.takesEffect_iff (decides : request.Decides db store now version row)
    (sent : request.operation.expected = some version) :
    request.TakesEffect db store now row ↔ 0 ≤ version ∧ row.lastModified = some version := by
  rw [Request.TakesEffect, Request.headerInRange_iff sent]
  apply and_congr_right
  intro _
  rcases decides with ⟨isVersion, after, ran, written⟩ | ⟨differs, ran⟩
  · exact iff_of_true ⟨after, ran, written⟩ isVersion
  · refine iff_of_false ?_ differs
    intro ⟨after, impossible, _⟩
    rw [ran] at impossible
    cases impossible

theorem Request.resolve_active (request : Request) (active : request.row.isActive db store = true)
    (sent : request.operation.expected = some version) :
    ∃ raised, request.resolve db store true = .error raised ∧ raised.status = 409 := by
  have conflicts : ∀ conflict missing,
      ∃ raised, resolveWriteWith conflict missing true false true = .error raised ∧
        raised.status = 409 := fun _ _ => ⟨_, rfl, rfl⟩
  cases request with
  | createTask taskId body => cases sent
  | createList listId body => cases sent
  | updateTask _ taskId _ _ | completeTask _ taskId _ | uncompleteTask _ taskId _
  | deleteTask taskId _ =>
      have isThere : taskExists db store taskId = true := active
      rw [Request.resolve, Routers.Tasks.resolveWrite, isThere]
      exact conflicts _ _
  | updateList listId _ _ | deleteList listId _ =>
      have isThere : listExists db store listId = true := active
      rw [Request.resolve, Routers.Lists.resolveWrite, isThere]
      exact conflicts _ _

theorem Request.conflict_iff (decides : request.Decides db store now version row)
    (stored : request.row.stored store = some row) (active : row.isActive db.userId = true)
    (sent : request.operation.expected = some version) (passes : request.check db store = none) :
    RefusedWith (request.handle db store now) 409 ↔ row.lastModified ≠ some version := by
  rw [Request.handle_of_passes passes]
  rcases decides with ⟨isVersion, after, ran, -⟩ | ⟨differs, ran⟩
  · rw [ran]
    refine iff_of_false ?_ (not_not_intro isVersion)
    rintro ⟨raised, failed, isConflict⟩
    have client : raised.status < 500 := by omega
    obtain ⟨-, missing, -⟩ := Request.reread_client_error failed client
    omega
  · rw [ran]
    refine iff_of_true ?_ differs
    obtain ⟨raised, resolved, isConflict⟩ :=
      request.resolve_active (RowKey.isActive_of_stored stored active) sent
    refine ⟨raised, ?_, isConflict⟩
    have conditional : request.conditional = true := by rw [Request.conditional, sent]; rfl
    rw [Request.replyTo, conditional, resolved]
    rfl

end Law

/-- What a stored stamp is shown as is the stored stamp again exactly when there is one. -/
theorem shown_eq_stored_iff {lastModified : Option ℤ} :
    lastModified = some (lastModified.getD 0) ↔ lastModified ≠ none := by
  cases lastModified with
  | none => simp
  | some version => simp

/-- The version that a read shows of a row is accepted back, by every request that
carries it while the row is as it was read, exactly when the row has a stamp that the
header can carry; the endpoints answer a conflict exactly when it has none. -/
theorem shown_version_accepted_iff {db : Database} {seen later : Store} {readAt now version : ℤ}
    {read : Operation} {answer : Returned} {request : Request} {row : StoredRow}
    (stored : request.row.stored seen = some row) (active : row.isActive db.userId = true)
    (answered : (read.run db seen readAt).1 = .ok answer)
    (shown : answer.Shows version request.row)
    (sent : request.operation.expected = some version)
    (untouched : request.row.stored later = some row)
    (clock : ∀ stamp, row.lastModified = some stamp → stamp < now) :
    (request.TakesEffect db later now row ↔
      ∃ stamp, row.lastModified = some stamp ∧ 0 ≤ stamp) ∧
    (request.check db later = none →
      (request.ReportsConflict db later now ↔ row.lastModified = none)) := by
  have isShown : version = row.lastModified.getD 0 := Operation.shown_version answered shown stored
  have decides : request.Decides db later now version row :=
    Request.decides untouched active sent clock
  constructor
  · rw [Request.takesEffect_iff decides sent, isShown, shown_eq_stored_iff]
    cases row.lastModified with
    | none => simp
    | some stamp => simp
  · intro passes
    rw [Request.ReportsConflict, Request.headerInRange_iff sent,
      Request.conflict_iff decides untouched active sent passes, isShown, ne_eq,
      shown_eq_stored_iff]
    cases row.lastModified with
    | none => simp
    | some stamp => simp

/-- A task is read, and completed with the version that was read. -/
theorem oneTask_completed_with_its_version :
    (Request.completeTask 2000 ['a'] (some 1000)).TakesEffect singleUser oneTask 2000
      (.task (plainTask ['a'] 1000)) := by
  have shown : ∃ answer, ((Operation.getTask ['a']).run singleUser oneTask 1500).1 = .ok answer ∧
      answer.Shows 1000 (.task ['a']) := ⟨_, rfl, _, List.mem_singleton_self _, rfl, rfl⟩
  obtain ⟨answer, answered, shows⟩ := shown
  have stored : (RowKey.task ['a']).stored oneTask = some (.task (plainTask ['a'] 1000)) := rfl
  refine (shown_version_accepted_iff stored rfl answered shows rfl stored ?_).1.mpr
    ⟨1000, rfl, by decide⟩
  intro stamp isStamp
  cases isStamp
  decide

def unstampedTask : TaskRow := { plainTask ['a'] 1000 with lastModified := none }

def unstampedStore : Store := ⟨⟨[unstampedTask], by decide⟩, .empty⟩

/-- The task is shown with version 0, and its completion with version 0 is a conflict. -/
theorem unstamped_task_refuses_its_version :
    unstampedTask.isActive singleUser.userId = true ∧
    (∃ answer, ((Operation.getTask ['a']).run singleUser unstampedStore 1500).1 = .ok answer ∧
      answer.Shows 0 (.task ['a'])) ∧
    (Request.completeTask 2000 ['a'] (some 0)).ReportsConflict singleUser unstampedStore 2000 ∧
    ((Request.completeTask 2000 ['a'] (some 0)).handle singleUser unstampedStore 2000).2 =
      unstampedStore ∧
    ¬ (Request.completeTask 2000 ['a'] (some 0)).TakesEffect singleUser unstampedStore 2000
      (.task unstampedTask) := by
  refine ⟨rfl, ⟨_, rfl, _, List.mem_singleton_self _, rfl, rfl⟩, ⟨rfl, _, rfl, rfl⟩, rfl, ?_⟩
  intro ⟨_, after, impossible, _⟩
  cases impossible

end SupernoteTaskService
