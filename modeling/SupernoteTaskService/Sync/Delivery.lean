import SupernoteTaskService.Repository.Tasks
import SupernoteTaskService.Repository.Lists

/-!
# What a read delivers

A response names its row by the id, so the rows behind a page can be told from the
responses.  Here the pages, cursors and loops over responses become those over rows,
which the keyset library describes.
-/

set_option autoImplicit false

namespace SupernoteTaskService

open Foundation

/-- The row came out as one of the tasks. -/
def DeliversTask (db : Database) (store : Store) (tasks : List Task) (row : TaskRow) : Prop :=
  ∃ task ∈ tasks, store.task db row = .ok task

def DeliversList (lists : List TaskList) (row : ListRow) : Prop :=
  ∃ list ∈ lists, listOfRow row = .ok list

instance (db : Database) (store : Store) (tasks : List Task) (row : TaskRow) :
    Decidable (DeliversTask db store tasks row) :=
  inferInstanceAs (Decidable (∃ task ∈ tasks, _))

instance (lists : List TaskList) (row : ListRow) : Decidable (DeliversList lists row) :=
  inferInstanceAs (Decidable (∃ list ∈ lists, _))

theorem deliversTask_iff {db : Database} {store : Store} {rows : List TaskRow} {tasks : List Task}
    (stored : ∀ row ∈ rows, row ∈ store.tasks.rows) (mapped : rows.mapM (store.task db) = .ok tasks)
    {row : TaskRow} (member : row ∈ store.tasks.rows) :
    DeliversTask db store tasks row ↔ row ∈ rows := by
  refine (mem_iff_image_mem mapped ?_).symm
  intro other otherMem task otherMapped rowMapped
  exact store.tasks.eq_of_key_eq member (stored other otherMem)
    ((rowToTask_id rowMapped).symm.trans (rowToTask_id otherMapped))

theorem deliversList_iff {store : Store} {rows : List ListRow} {lists : List TaskList}
    (stored : ∀ row ∈ rows, row ∈ store.lists.rows) (mapped : rows.mapM listOfRow = .ok lists)
    {row : ListRow} (member : row ∈ store.lists.rows) :
    DeliversList lists row ↔ row ∈ rows := by
  refine (mem_iff_image_mem mapped ?_).symm
  intro other otherMem list otherMapped rowMapped
  have same := Except.ok.inj (rowMapped.trans otherMapped.symm)
  exact store.lists.eq_of_key_eq member (stored other otherMem)
    (Option.some.inj (congrArg TaskList.id same))

/-! ## One call -/

section Call
variable {db : Database} {store : Store} {since serverNow : ℤ}

/-- A page of tasks is a keyset page of the window, and delivers exactly its rows. -/
theorem listTasks_page {query : TaskQuery} {page : Page Task} (delta : query.since = some since)
    (answered : listTasks db store serverNow query = .ok page) :
    ∃ raw : Page TaskRow,
      DeltaShape taskKeys (clampLimit query.limit) serverNow
        (windowOf taskKeys (matchingTasks db store query) since serverNow) raw ∧
      (∀ row ∈ store.tasks.rows, DeliversTask db store page.items row ↔ row ∈ raw.items) ∧
      page.cursor = raw.cursor ∧ page.hasMore = raw.hasMore := by
  rw [listTasks_delta delta, renderPage_eq_ok_iff] at answered
  obtain ⟨mapped, cursorEq, moreEq⟩ := answered
  have shape := deltaPage_shape (clampLimit query.limit) (clampLimit_pos _) serverNow _
    (windowOf_ties_nodup (matchingTasks_ties_nodup db store query)
      since serverNow)
  refine ⟨_, shape, fun row member => deliversTask_iff ?_ mapped member, cursorEq, moreEq⟩
  intro other otherMem
  exact (mem_matchingTasks.mp (mem_windowOf.mp (shape.items_subset other otherMem)).1).1

theorem listLists_page {query : ListQuery} {page : Page TaskList}
    (delta : query.since = some since)
    (answered : listLists db store serverNow query = .ok page) :
    ∃ raw : Page ListRow,
      DeltaShape listKeys (clampLimit query.limit) serverNow
        (windowOf listKeys (matchingLists db store) since serverNow) raw ∧
      (∀ row ∈ store.lists.rows, DeliversList page.items row ↔ row ∈ raw.items) ∧
      page.cursor = raw.cursor ∧ page.hasMore = raw.hasMore := by
  rw [listLists_delta delta, renderPage_eq_ok_iff] at answered
  obtain ⟨mapped, cursorEq, moreEq⟩ := answered
  have shape := deltaPage_shape (clampLimit query.limit) (clampLimit_pos _) serverNow _
    (windowOf_ties_nodup (matchingLists_ties_nodup db store) since serverNow)
  refine ⟨_, shape, fun row member => deliversList_iff ?_ mapped member, cursorEq, moreEq⟩
  intro other otherMem
  exact (mem_matchingLists.mp (mem_windowOf.mp (shape.items_subset other otherMem)).1).1

end Call

/-! ## Snapshots -/

section Snapshot
variable (db : Database) (store : Store)

/-- The rows of a task snapshot before the limit cuts them. -/
def snapshotTasks (serverNow : ℤ) (query : TaskQuery) : List TaskRow :=
  orderByStamp TaskRow.lastModified TaskRow.taskId
    (store.tasks.select (query.whereClause db serverNow))

def snapshotLists : List ListRow :=
  orderByTitle db (store.lists.select (ListRow.isActive db.userId))

variable {db store}

theorem listTasks_snapshot {query : TaskQuery} {serverNow : ℤ} {page : Page Task}
    (snapshot : query.since = none) (answered : listTasks db store serverNow query = .ok page) :
    page.hasMore = false ∧
        (snapshotTasks db store serverNow query)[clampLimit query.limit - 1]? = none ∨
      ∃ row, (snapshotTasks db store serverNow query)[clampLimit query.limit - 1]? = some row ∧
        page.hasMore = true ∧ page.cursor = row.lastModified.getD 0 := by
  rw [listTasks, snapshot, Option.isSome_none] at answered
  obtain ⟨-, cursorEq, moreEq⟩ := assemblePage_snapshot
    (fun row task mapped => rowToTask_lastModified mapped) answered
  rw [cursorEq, moreEq]
  exact page_at_limit (fun row => row.lastModified.getD 0) (snapshotTasks db store serverNow query)
    serverNow (clampLimit_pos query.limit)

theorem listLists_snapshot {query : ListQuery} {serverNow : ℤ} {page : Page TaskList}
    (snapshot : query.since = none) (answered : listLists db store serverNow query = .ok page) :
    page.items = inbox ::
        ((snapshotLists db store).take (clampLimit query.limit)).map rowToList ∧
      (page.hasMore = false ∧ (snapshotLists db store)[clampLimit query.limit - 1]? = none ∨
        ∃ row, (snapshotLists db store)[clampLimit query.limit - 1]? = some row ∧
          page.hasMore = true ∧ page.cursor = row.lastModified.getD 0) := by
  rw [listLists, bind_eq_ok_iff] at answered
  obtain ⟨raw, assembled, same⟩ := answered
  have keepsStamp : ∀ row list, listOfRow row = .ok list →
      list.lastModified = row.lastModified.getD 0 := by
    intro row list mapped
    cases mapped
    rfl
  rw [snapshot, Option.isSome_none] at assembled
  obtain ⟨mapped, cursorEq, moreEq⟩ := assemblePage_snapshot keepsStamp assembled
  have rows : listPageRows db store serverNow query =
      (snapshotLists db store).take (clampLimit query.limit) := by
    simp only [listPageRows, snapshot, snapshotLists]
  rw [rows] at mapped cursorEq moreEq
  have items := Except.ok.inj (mapped.symm.trans (mapM_ok_of_total _))
  simp only [snapshot, Option.isNone_none, if_true, pure_eq_ok_iff] at same
  subst same
  refine ⟨by rw [items], ?_⟩
  dsimp only
  rw [cursorEq, moreEq]
  exact page_at_limit (fun row => row.lastModified.getD 0) (snapshotLists db store)
    serverNow (clampLimit_pos query.limit)

end Snapshot

/-! ## The documented loop -/

section Loop
variable (db : Database) (store : Store)

/-- Call again with `since = cursor` while `has_more` is true, at the given clock
readings, on tables that do not change. -/
def followTasks (query : TaskQuery) : ℤ → List ℤ → Except Raised (Option (Followed Task)) :=
  followCursor fun since now => listTasks db store now { query with since := some since }

def followLists (limit : Option ℤ) : ℤ → List ℤ → Except Raised (Option (Followed TaskList)) :=
  followCursor fun since now => listLists db store now ⟨some since, limit⟩

variable {db store}

theorem followTasks_delivers_iff {query : TaskQuery} {since : ℤ} {nows : List ℤ}
    {received : Followed Task} (monotone : nows.Pairwise (· ≤ ·))
    (stopped : followTasks db store query since nows = .ok (some received)) :
    received.stoppedAt ∈ nows ∧ ∀ row ∈ store.tasks.rows, DeliversTask db store received.items row ↔
      row ∈ matchingTasks db store query ∧ since ≤ taskKeys.stamp row ∧
        taskKeys.stamp row ≤ received.stoppedAt ∧
        ∀ m, since ≤ m → m < taskKeys.stamp row →
          ¬ Crowded taskKeys (clampLimit query.limit) (matchingTasks db store query) m := by
  have renders : ∀ since now page, listTasks db store now { query with since := some since } =
      .ok page → Renders (store.task db) (deltaPage taskKeys (clampLimit query.limit) now
        (windowOf taskKeys (matchingTasks db store query) since now)) page := by
    intro since now page called
    have delta : ({ query with since := some since } : TaskQuery).since = some since := rfl
    exact renderPage_eq_ok_iff.mp ((listTasks_delta delta).symm.trans called)
  obtain ⟨rows, mapped, followed⟩ := followCursor_render renders nows since received stopped
  obtain ⟨stoppedMem, account⟩ := followCursor_mem_iff (matchingTasks_ties_nodup db store query)
    (clampLimit_pos query.limit) nows since ⟨rows, received.stoppedAt⟩ monotone followed
  refine ⟨stoppedMem, fun row member => ?_⟩
  rw [deliversTask_iff (fun other otherMem =>
    (mem_matchingTasks.mp ((account other).mp otherMem).1).1) mapped member, account row]

theorem followLists_delivers_iff {limit : Option ℤ} {since : ℤ} {nows : List ℤ}
    {received : Followed TaskList} (monotone : nows.Pairwise (· ≤ ·))
    (stopped : followLists db store limit since nows = .ok (some received)) :
    received.stoppedAt ∈ nows ∧ ∀ row ∈ store.lists.rows, DeliversList received.items row ↔
      row ∈ matchingLists db store ∧ since ≤ listKeys.stamp row ∧
        listKeys.stamp row ≤ received.stoppedAt ∧
        ∀ m, since ≤ m → m < listKeys.stamp row →
          ¬ Crowded listKeys (clampLimit limit) (matchingLists db store) m := by
  have renders : ∀ since now page, listLists db store now ⟨some since, limit⟩ = .ok page →
      Renders listOfRow (deltaPage listKeys (clampLimit limit) now
        (windowOf listKeys (matchingLists db store) since now)) page := by
    intro since now page called
    have delta : (⟨some since, limit⟩ : ListQuery).since = some since := rfl
    exact renderPage_eq_ok_iff.mp ((listLists_delta delta).symm.trans called)
  obtain ⟨rows, mapped, followed⟩ := followCursor_render renders nows since received stopped
  obtain ⟨stoppedMem, account⟩ := followCursor_mem_iff (matchingLists_ties_nodup db store)
    (clampLimit_pos limit) nows since ⟨rows, received.stoppedAt⟩ monotone followed
  refine ⟨stoppedMem, fun row member => ?_⟩
  rw [deliversList_iff (fun other otherMem =>
    (mem_matchingLists.mp ((account other).mp otherMem).1).1) mapped member, account row]

end Loop

end SupernoteTaskService
