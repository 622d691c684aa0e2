import SupernoteTaskService.Foundation.FullPages
import SupernoteTaskService.Foundation.Replica
import SupernoteTaskService.Routers.Requests
import SupernoteTaskService.Sync.Delivery

/-!
# Copies of a filtered list

A client takes a snapshot of one list, or of the Inbox, and keeps it up with a delta
call through the same filter.  The filter looks at the list a task is in now, so a task
that was moved away is not announced, and the copy keeps it.
-/

set_option autoImplicit false

namespace SupernoteTaskService

open Foundation

section Definitions
variable (db : Database) (query : TaskQuery)

/-- The task is active and passes the filter. -/
def Selected (store : Store) (taskId : Text) : Prop :=
  ∃ row, store.tasks.get taskId = some row ∧ row.isActive db.userId = true ∧
    query.inFilter row = true

/-- What the client holds after a snapshot and a delta call. -/
def clientCopy (first second : Page Task) : List Task :=
  absorbAll Task.id Task.isDeleted (absorbAll Task.id Task.isDeleted [] first.items) second.items

def HoldsSelected (store : Store) (copy : List Task) : Prop :=
  ∀ taskId, taskId ∈ copy.map Task.id ↔ Selected db query store taskId

def StaysInFilter (before after : Store) : Prop :=
  ∀ taskId, Selected db query before taskId →
    ∀ row, after.tasks.get taskId = some row → query.inFilter row = true

/-- A snapshot and a later delta call through one filter, both below the limit. -/
structure FilteredSync (fetchedFrom syncedFrom : Store) (fetchedAt syncedAt : ℤ)
    (first second : Page Task) : Prop where
  snapshot : query.since = none
  completedToo : query.includeCompleted = true
  fetched : listTasks db fetchedFrom fetchedAt query = .ok first
  firstShort : first.items.length < clampLimit query.limit
  synced : listTasks db syncedFrom syncedAt { query with since := some first.cursor } = .ok second
  secondShort : second.items.length < clampLimit query.limit

end Definitions

/-! ## Pages below the limit -/

section Pages
variable {db : Database} {store : Store} {query : TaskQuery} {serverNow since : ℤ}
  {page : Page Task}

theorem listTasks_short_snapshot (snapshot : query.since = none)
    (completedToo : query.includeCompleted = true)
    (answered : listTasks db store serverNow query = .ok page)
    (short : page.items.length < clampLimit query.limit) :
    page.cursor = serverNow ∧ (page.items.map Task.id).Nodup ∧
      ∀ taskId, (∃ task ∈ page.items, task.id = taskId ∧ task.isDeleted = false) ↔
        Selected db query store taskId := by
  rw [listTasks, snapshot, Option.isSome_none] at answered
  obtain ⟨mapped, cursorEq, -⟩ := assemblePage_snapshot
    (fun row task mapped => rowToTask_lastModified mapped) answered
  have sameIds : page.items.map Task.id = (taskPageRows db store serverNow query).map
      TaskRow.taskId := map_eq_of_mapM_ok (fun row task mapped => rowToTask_id mapped) mapped
  have sameLength := congrArg List.length sameIds
  rw [List.length_map, List.length_map] at sameLength
  have whole : taskPageRows db store serverNow query = orderByStamp TaskRow.lastModified
      TaskRow.taskId (store.tasks.select (query.whereClause db serverNow)) := by
    rw [sameLength, taskPageRows, List.length_take] at short
    exact List.take_of_length_le (by omega)
  have isRow : ∀ row, row ∈ taskPageRows db store serverNow query ↔
      row ∈ store.tasks.rows ∧ row.isActive db.userId = true ∧ query.inFilter row = true := by
    intro row
    rw [whole, mem_orderByStamp, KeyedTable.mem_select]
    simp only [TaskQuery.whereClause, snapshot, completedToo, Bool.true_or, Bool.and_true,
      TaskRow.isActive, Bool.and_eq_true]
  refine ⟨?_, ?_, fun taskId => ?_⟩
  · rw [cursorEq]
    apply pageCursor_of_not_full
    rw [List.length_map, ← sameLength]
    exact short.ne
  · rw [sameIds, whole]
    exact ((List.perm_insertionSort _ _).map _).nodup_iff.mpr (store.tasks.select_keys_nodup _)
  · constructor
    · rintro ⟨task, member, rfl, -⟩
      obtain ⟨row, rowMem, rowMapped⟩ := (mem_of_mapM_ok mapped task).mp member
      obtain ⟨stored, active, inFilter⟩ := (isRow row).mp rowMem
      exact ⟨row, (store.tasks.get_eq_some_iff _ row).mpr ⟨stored, (rowToTask_id rowMapped).symm⟩,
        active, inFilter⟩
    · rintro ⟨row, found, active, inFilter⟩
      obtain ⟨stored, isKey⟩ := (store.tasks.get_eq_some_iff taskId row).mp found
      have rowMem := (isRow row).mpr ⟨stored, active, inFilter⟩
      obtain ⟨task, rowMapped⟩ := mapM_ok_iff_forall.mp ⟨_, mapped⟩ row rowMem
      refine ⟨task, (mem_of_mapM_ok mapped task).mpr ⟨row, rowMem, rowMapped⟩,
        (rowToTask_id rowMapped).trans isKey, ?_⟩
      rw [rowToTask_isDeleted rowMapped]
      exact decide_eq_false (by rw [Store.join, (TaskRow.isActive_iff.mp active).2]; decide)

def InWindow (db : Database) (query : TaskQuery) (since serverNow : ℤ) (row : TaskRow) : Prop :=
  row.userId = some db.userId ∧ query.inFilter row = true ∧
    ∃ m, row.lastModified = some m ∧ since ≤ m ∧ m ≤ serverNow

theorem mem_windowOf_matchingTasks {row : TaskRow} :
    row ∈ windowOf taskKeys (matchingTasks db store query) since serverNow ↔
      row ∈ store.tasks.rows ∧ InWindow db query since serverNow row := by
  rw [mem_windowOf, mem_matchingTasks]
  constructor
  · rintro ⟨⟨stored, owned, inFilter, m, stamped⟩, lower, upper⟩
    rw [stampKeys_stamp stamped] at lower upper
    exact ⟨stored, owned, inFilter, m, stamped, lower, upper⟩
  · rintro ⟨stored, owned, inFilter, m, stamped, lower, upper⟩
    rw [stampKeys_stamp stamped]
    exact ⟨⟨stored, owned, inFilter, m, stamped⟩, lower, upper⟩

theorem listTasks_short_delta (delta : query.since = some since)
    (answered : listTasks db store serverNow query = .ok page)
    (short : page.items.length < clampLimit query.limit) :
    (page.items.map Task.id).Nodup ∧
      ∀ taskId marked, (∃ task ∈ page.items, task.id = taskId ∧ task.isDeleted = marked) ↔
        ∃ row, store.tasks.get taskId = some row ∧ InWindow db query since serverNow row ∧
          decide (row.isDeleted = some YES) = marked := by
  rw [listTasks_delta delta, renderPage_eq_ok_iff] at answered
  have distinct := windowOf_ties_nodup (matchingTasks_ties_nodup db store query) since serverNow
  have shape := deltaPage_shape (clampLimit query.limit) (clampLimit_pos _) serverNow _ distinct
  rw [answered.length_eq, ← not_le, deltaPage_full_iff, not_le] at short
  have whole := (shape.of_short short).1
  have mapped := answered.1
  have keepsId : ∀ row task, store.task db row = .ok task → task.id = row.taskId :=
    fun row task mapped => rowToTask_id mapped
  have sameIds := map_eq_of_mapM_ok keepsId mapped
  refine ⟨?_, fun taskId marked => ?_⟩
  · rw [sameIds]
    exact (whole.map TaskRow.taskId).nodup_iff.mpr distinct
  · constructor
    · rintro ⟨task, member, rfl, rfl⟩
      obtain ⟨row, rowMem, rowMapped⟩ := (mem_of_mapM_ok mapped task).mp member
      obtain ⟨stored, inWindow⟩ := mem_windowOf_matchingTasks.mp (whole.mem_iff.mp rowMem)
      exact ⟨row, (store.tasks.get_eq_some_iff _ row).mpr ⟨stored, (rowToTask_id rowMapped).symm⟩,
        inWindow, (rowToTask_isDeleted rowMapped).symm⟩
    · rintro ⟨row, found, inWindow, rfl⟩
      obtain ⟨stored, isKey⟩ := (store.tasks.get_eq_some_iff taskId row).mp found
      have rowMem := whole.mem_iff.mpr (mem_windowOf_matchingTasks.mpr ⟨stored, inWindow⟩)
      obtain ⟨task, rowMapped⟩ := mapM_ok_iff_forall.mp ⟨_, mapped⟩ row rowMem
      exact ⟨task, (mem_of_mapM_ok mapped task).mpr ⟨row, rowMem, rowMapped⟩,
        (rowToTask_id rowMapped).trans isKey, rowToTask_isDeleted rowMapped⟩

end Pages

/-! ## The copy after the delta call -/

section Copy
variable {db : Database} {query : TaskQuery} {before after : Store} {fetchedAt syncedAt : ℤ}
  {first second : Page Task}

def KeptOrStamped (db : Database) (before after : Store) (fetchedAt syncedAt : ℤ) : Prop :=
  ∀ taskId, after.tasks.get taskId = before.tasks.get taskId ∨
    ∃ row, after.tasks.get taskId = some row ∧ row.userId = some db.userId ∧
      ∃ m, row.lastModified = some m ∧ fetchedAt ≤ m ∧ m ≤ syncedAt

theorem KeptOrStamped.run {between : List (Timed Request)}
    (clocks : ∀ step ∈ between, fetchedAt ≤ step.clock ∧ step.clock ≤ syncedAt) :
    KeptOrStamped db before (between.foldl (requestStep db) before) fetchedAt syncedAt := by
  refine (invariant_of_steps (KeptOrStamped db before · fetchedAt syncedAt) (fun _ => Or.inl rfl)
    ?_).2
  intro state step rest occurs held taskId
  obtain ⟨lower, upper⟩ := clocks step occurs.mem
  rcases requestStep_get_task_cases db state step taskId with same | ⟨row, found, owned, stamped⟩
  · rw [same]
    exact held taskId
  · exact Or.inr ⟨row, found, owned, step.clock, stamped, lower, upper⟩

/-- What the client holds: the tasks that came with the delta unmarked, and those of the
snapshot that the delta did not name. -/
theorem FilteredSync.mem_copy_iff
    (sync : FilteredSync db query before after fetchedAt syncedAt first second) (taskId : Text) :
    taskId ∈ (clientCopy first second).map Task.id ↔
      (∃ row, after.tasks.get taskId = some row ∧ InWindow db query fetchedAt syncedAt row ∧
        row.isDeleted ≠ some YES) ∨
      (Selected db query before taskId ∧
        ∀ row, after.tasks.get taskId = some row → ¬ InWindow db query fetchedAt syncedAt row) := by
  obtain ⟨cursorEq, firstDistinct, firstShows⟩ := listTasks_short_snapshot sync.snapshot
    sync.completedToo sync.fetched sync.firstShort
  have synced := sync.synced
  rw [cursorEq] at synced
  have delta : ({ query with since := some fetchedAt } : TaskQuery).since = some fetchedAt := rfl
  obtain ⟨secondDistinct, secondShows⟩ := listTasks_short_delta delta synced sync.secondShort
  rw [clientCopy, mem_keys_absorbAll_iff second.items secondDistinct,
    mem_keys_absorbAll_iff first.items firstDistinct, firstShows]
  have noneBefore : taskId ∉ ([] : List Task).map Task.id := List.not_mem_nil
  have unnamed : (∀ task ∈ second.items, task.id ≠ taskId) ↔
      ∀ row, after.tasks.get taskId = some row → ¬ InWindow db query fetchedAt syncedAt row := by
    constructor
    · intro absent row found inWindow
      obtain ⟨task, member, isKey, -⟩ := (secondShows taskId _).mpr ⟨row, found, inWindow, rfl⟩
      exact absent task member isKey
    · intro outside task member isKey
      obtain ⟨row, found, inWindow, -⟩ := (secondShows taskId _).mp ⟨task, member, isKey, rfl⟩
      exact outside row found inWindow
  rw [unnamed, secondShows]
  simp only [noneBefore, false_and, or_false, decide_eq_false_iff_not]
  rfl

theorem selected_of_found {store : Store} {taskId : Text} {row : TaskRow}
    (found : store.tasks.get taskId = some row) :
    Selected db query store taskId ↔ row.isActive db.userId = true ∧ query.inFilter row = true := by
  simp only [Selected, found, Option.some.injEq, exists_eq_left']

theorem not_selected_of_absent {store : Store} {taskId : Text}
    (absent : store.tasks.get taskId = none) : ¬ Selected db query store taskId := by
  rintro ⟨row, found, -⟩
  rw [absent] at found
  cases found

/-- For one task the copy is right unless the task was selected and has left the filter. -/
theorem FilteredSync.mem_copy_iff_selected
    (sync : FilteredSync db query before after fetchedAt syncedAt first second)
    (flags : FlagsSet after) (kept : KeptOrStamped db before after fetchedAt syncedAt)
    (taskId : Text) :
    (taskId ∈ (clientCopy first second).map Task.id ↔ Selected db query after taskId) ↔
      (Selected db query before taskId →
        ∀ row, after.tasks.get taskId = some row → query.inFilter row = true) := by
  rw [sync.mem_copy_iff taskId]
  cases found : after.tasks.get taskId with
  | none =>
      have absentBefore : before.tasks.get taskId = none := by
        rcases kept taskId with same | ⟨row, isRow, -⟩
        · rw [← same, found]
        · rw [found] at isRow
          cases isRow
      have notBefore : ¬ Selected db query before taskId := not_selected_of_absent absentBefore
      have notAfter : ¬ Selected db query after taskId := not_selected_of_absent found
      simp [notBefore, notAfter]
  | some row =>
      rw [selected_of_found found]
      simp only [Option.some.injEq, exists_eq_left', forall_eq']
      by_cases inFilter : query.inFilter row = true
      · refine iff_of_true ?_ fun _ => inFilter
        by_cases inWindow : InWindow db query fetchedAt syncedAt row
        · -- The delta names the task, and its mark decides.
          have flag := flags row ((after.tasks.get_eq_some_iff taskId row).mp found).1
          simp only [inWindow, not_true, and_false, or_false, true_and, inFilter, and_true,
            TaskRow.isActive_iff, inWindow.1]
          rcases flag with deleted | notDeleted
          · simp [deleted, YES, NO]
          · simp [notDeleted, YES, NO]
        · -- The delta does not name the task, so nothing has written it.
          have same : before.tasks.get taskId = some row := by
            rcases kept taskId with same | ⟨other, isOther, owned, stamped⟩
            · rw [← same, found]
            · rw [found] at isOther
              cases isOther
              exact absurd ⟨owned, inFilter, stamped⟩ inWindow
          simp only [inWindow, not_false_eq_true, and_true, false_and, false_or,
            selected_of_found same]
      · have outside : ¬ InWindow db query fetchedAt syncedAt row := fun inWindow =>
          inFilter inWindow.2.1
        simp only [outside, inFilter, not_false_eq_true, and_true, false_and, false_or, and_false,
          iff_false, imp_false, Bool.false_eq_true]

end Copy

/-! ## Convergence -/

theorem FlagsSet.run {store : Store} (flags : FlagsSet store) (db : Database)
    (run : List (Timed Request)) : FlagsSet (run.foldl (requestStep db) store) :=
  (invariant_of_steps FlagsSet flags fun _ step _ _ held => held.request db step).2

/-- A client takes a snapshot after some requests and makes a delta call after some more,
at a clock between theirs, with no page at its limit.  It then holds exactly the selected
tasks if and only if no task that was selected at the snapshot has left the filter. -/
theorem filtered_replica_converges_iff (db : Database) {query : TaskQuery} {initial : Store}
    {earlier between : List (Timed Request)} {fetchedAt syncedAt : ℤ} {first second : Page Task}
    (flags : FlagsSet initial)
    (clocks : ∀ step ∈ between, fetchedAt ≤ step.clock ∧ step.clock ≤ syncedAt)
    (sync : FilteredSync db query (earlier.foldl (requestStep db) initial)
      ((earlier ++ between).foldl (requestStep db) initial) fetchedAt syncedAt first second) :
    HoldsSelected db query ((earlier ++ between).foldl (requestStep db) initial)
        (clientCopy first second) ↔
      StaysInFilter db query (earlier.foldl (requestStep db) initial)
        ((earlier ++ between).foldl (requestStep db) initial) := by
  rw [List.foldl_append] at sync ⊢
  have flagsAfter := (flags.run db earlier).run db between
  exact forall_congr' (sync.mem_copy_iff_selected flagsAfter (KeptOrStamped.run clocks))

theorem flagsSet_empty : FlagsSet .empty := fun _ member => absurd member List.not_mem_nil

def inboxQuery : TaskQuery := { inboxOnly := true }

def createFirst : List (Timed Request) := [⟨1000, .createTask ['a'] titleOnly⟩]

def createAndDelete : List (Timed Request) :=
  [⟨3000, .createTask ['b'] titleOnly⟩, ⟨4000, .deleteTask ['a'] none⟩]

def createBoth : List (Timed Request) := [createShopping, ⟨2000, .createTask ['a'] titleOnly⟩]

def moveAway : List (Timed Request) := [⟨4000, .updateTask 4000 ['a'] toShopping none⟩]

theorem deleted_task_leaves_copy :
    ∃ first second,
      FilteredSync singleUser inboxQuery (createFirst.foldl (requestStep singleUser) .empty)
        ((createFirst ++ createAndDelete).foldl (requestStep singleUser) .empty) 2000 5000
        first second ∧
      HoldsSelected singleUser inboxQuery
        ((createFirst ++ createAndDelete).foldl (requestStep singleUser) .empty)
        (clientCopy first second) := by
  have allInbox : ∀ row ∈ ((createFirst ++ createAndDelete).foldl (requestStep singleUser)
      .empty).tasks.rows, inboxQuery.inFilter row = true := by decide
  have sync : FilteredSync singleUser inboxQuery
      (createFirst.foldl (requestStep singleUser) .empty)
      ((createFirst ++ createAndDelete).foldl (requestStep singleUser) .empty) 2000 5000 _ _ :=
    ⟨rfl, rfl, rfl, by decide, rfl, by decide⟩
  refine ⟨_, _, sync, (filtered_replica_converges_iff singleUser flagsSet_empty (by decide)
    sync).mpr ?_⟩
  intro taskId _ row found
  exact allInbox row ((KeyedTable.get_eq_some_iff _ taskId row).mp found).1

/-- The delta call through the Inbox does not name the task, and the copy keeps it. -/
theorem moved_task_stays_in_copy :
    FlagsSet .empty ∧ (∀ step ∈ moveAway, 3000 ≤ step.clock ∧ step.clock ≤ 5000) ∧
    ∃ first second,
      FilteredSync singleUser inboxQuery (createBoth.foldl (requestStep singleUser) .empty)
        ((createBoth ++ moveAway).foldl (requestStep singleUser) .empty) 3000 5000 first second ∧
      ¬ HoldsSelected singleUser inboxQuery
        ((createBoth ++ moveAway).foldl (requestStep singleUser) .empty)
        (clientCopy first second) := by
  refine ⟨flagsSet_empty, by decide, _, _, ⟨rfl, rfl, rfl, by decide, rfl, by decide⟩, ?_⟩
  intro holds
  obtain ⟨row, found, -, inFilter⟩ := (holds ['a']).mp (by decide)
  cases found
  exact absurd inFilter (by decide)

end SupernoteTaskService
