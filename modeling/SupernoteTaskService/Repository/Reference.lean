import SupernoteTaskService.Foundation.OnePass
import SupernoteTaskService.Repository.Tasks

/-!
# The reference repository

The API tests run against `FakeRepository`, which keeps its tasks in a dict and reads them
in one pass: filter everything, sort, cut, and append what the cut left over of a
millisecond that fills the page.  Over the same tasks the two queries of `list_tasks`
answer the same page.
-/

set_option autoImplicit false

namespace SupernoteTaskService

open Foundation

/-! ## The in-memory repository -/

structure FakeTask where
  id : Text
  listId : Option Text
  title : Text
  detail : Text
  status : TaskStatus
  importance : Option ℤ
  due : ℤ
  completed : ℤ
  sort : Option ℤ
  lastModified : ℤ
  documentLink : Option DocumentLink
  isDeleted : Bool
  deriving DecidableEq

structure FakeRepository where
  tasks : KeyedTable FakeTask.id

/-- `_to_task` -/
def FakeTask.toTask (t : FakeTask) : Except Raised Task := do
  let due ← msToDatetime (some t.due)
  let completed ← msToDatetime (some t.completed)
  return {
    id := t.id
    listId := t.listId
    category := if t.listId = none then "Inbox".toList else "List".toList
    title := decodeEmoji (some t.title)
    detail := t.detail
    status := t.status
    importance := t.importance
    due := due
    completed := completed
    sort := t.sort
    lastModified := t.lastModified
    documentLink := t.documentLink
    isDeleted := t.isDeleted }

/-- The conditions under which the loop does not `continue`. -/
def FakeTask.selected (serverNow : ℤ) (query : TaskQuery) (t : FakeTask) : Bool :=
  (match query.since with
    | some since => decide (since ≤ t.lastModified) && decide (t.lastModified ≤ serverNow)
    | none => !t.isDeleted && (query.includeCompleted || !decide (t.status = .completed))) &&
  !(query.inboxOnly && t.listId.isSome) &&
  (query.inboxOnly ||
    match query.listId with
    | some listId => decide (t.listId = some listId)
    | none => true)

/-- `min(limit or 500, 1000)` -/
def fakeLimit (limit : Option ℤ) : ℤ :=
  min (match limit with
    | some limit => if limit = 0 then 500 else limit
    | none => 500) 1000

/-- `xs[:bound]`; a negative bound counts from the end. -/
def sliceTo {α : Type} (bound : ℤ) (xs : List α) : List α :=
  if 0 ≤ bound then xs.take bound.toNat else xs.take (xs.length - bound.natAbs)

/-- `key=lambda x: (x.last_modified, x.id)` -/
abbrev resultKeys : Keyset Task Text := ⟨Task.lastModified, Task.id⟩

def FakeRepository.listTasks (fake : FakeRepository) (serverNow : ℤ) (query : TaskQuery) :
    Except Raised (Page Task) := do
  let effectiveLimit := fakeLimit query.limit
  let result ← (fake.tasks.select (FakeTask.selected serverNow query)).mapM FakeTask.toTask
  let result := resultKeys.sort result
  let page := sliceTo effectiveLimit result
  let full := decide ((page.length : ℤ) = effectiveLimit) && !page.isEmpty
  let singleMs := page.head?.map Task.lastModified == page.getLast?.map Task.lastModified
  match page.getLast? with
  | none => return ⟨page, serverNow, full⟩
  | some last =>
      if query.since.isSome && full && singleMs then
        let boundary := last.lastModified
        let rest := (result.drop effectiveLimit.toNat).filter fun t =>
          decide (t.lastModified = boundary)
        return ⟨page ++ rest, boundary + 1, false⟩
      else return ⟨page, if full then last.lastModified else serverNow, full⟩

/-- The row and the dict entry of one task. -/
structure FakeTask.Mirrors (db : Database) (t : FakeTask) (row : TaskRow) : Prop where
  id : row.taskId = t.id
  user : row.userId = some db.userId
  listId : row.taskListId = t.listId
  lastModified : row.lastModified = some t.lastModified
  status : row.status = some t.status.value
  isDeleted : row.isDeleted = some (if t.isDeleted then YES else NO)
  documentLink : documentLinkOf db.linkModel row.links = .ok t.documentLink
  due : row.dueTime.getD 0 = t.due
  completed : row.completedTime.getD 0 = t.completed

/-- The dict holds the tasks of the user, and no others. -/
def FakeRepository.Mirrors (db : Database) (store : Store) (fake : FakeRepository) : Prop :=
  (∀ t ∈ fake.tasks.rows, ∃ row ∈ store.tasks.rows, t.Mirrors db row) ∧
    ∀ row ∈ store.tasks.rows, row.userId = some db.userId →
      ∃ t ∈ fake.tasks.rows, t.Mirrors db row

/-! ## One pass -/

section OnePass
variable {ρ σ : Type} (stamp : ρ → ℤ) (effectiveLimit : ℕ) (serverNow : ℤ) (delta : Bool)

/-- The page of sorted rows, completed from the rows behind it. -/
def onePass (sorted : List ρ) : Page ρ :=
  rowPage stamp effectiveLimit serverNow delta (sorted.take effectiveLimit) fun last =>
    (sorted.drop effectiveLimit).filter fun row => decide (stamp row = stamp last)

variable {stamp effectiveLimit serverNow delta}

theorem rowPage_congr {rows : List ρ} {drain other : ρ → List ρ}
    (agree : ∀ last, delta = true → rows.getLast? = some last → drain last = other last) :
    rowPage stamp effectiveLimit serverNow delta rows drain =
      rowPage stamp effectiveLimit serverNow delta rows other := by
  unfold rowPage
  dsimp only
  cases delta with
  | false => rfl
  | true =>
      rw [Bool.true_and]
      cases isSingleMsFullPage (rows.map stamp) effectiveLimit with
      | false => rfl
      | true =>
          simp only [if_true]
          cases ends : rows.getLast? with
          | none => rfl
          | some last =>
              dsimp only
              rw [agree last rfl ends]

variable (stamp effectiveLimit serverNow delta) in
theorem onePass_sublist (sorted : List ρ) :
    (onePass stamp effectiveLimit serverNow delta sorted).items.Sublist sorted := by
  unfold onePass rowPage
  dsimp only
  split
  · apply List.Sublist.trans (List.Sublist.append (List.Sublist.refl _) List.filter_sublist)
    rw [List.take_append_drop]
  · exact List.take_sublist _ _

theorem onePass_map (stamp' : σ → ℤ) (f : ρ → σ) (keeps : ∀ row, stamp' (f row) = stamp row)
    (sorted : List ρ) :
    (onePass stamp effectiveLimit serverNow delta sorted).map f =
      onePass stamp' effectiveLimit serverNow delta (sorted.map f) := by
  have sameStamps : ∀ rows : List ρ, (rows.map f).map stamp' = rows.map stamp := by
    intro rows
    rw [List.map_map]
    apply List.map_congr_left
    intro row _
    exact keeps row
  have sameRest : ∀ last, ((sorted.drop effectiveLimit).map f).filter
      (fun row => decide (stamp' row = stamp' (f last))) =
        ((sorted.drop effectiveLimit).filter fun row => decide (stamp row = stamp last)).map f := by
    intro last
    rw [List.filter_map]
    simp only [Function.comp_def, keeps]
  unfold onePass rowPage
  dsimp only
  rw [← List.map_take, ← List.map_drop, sameStamps, List.getLast?_map]
  cases (sorted.take effectiveLimit).getLast? with
  | none =>
      simp only [Option.map_none, ite_self]
      rfl
  | some last =>
      cases delta && isSingleMsFullPage ((sorted.take effectiveLimit).map stamp) effectiveLimit with
      | false => rfl
      | true =>
          simp only [if_true, Option.map_some, sameRest, Page.map, List.map_append]
          rw [keeps]

end OnePass

/-! ## Both repositories read in one pass -/

section Sides
variable {db : Database} {store : Store} {fake : FakeRepository} {serverNow : ℤ}
  {query : TaskQuery}

/-- The two queries answer what one pass over the selected rows answers. -/
theorem listTasks_onePass
    (stamped : ∀ row ∈ store.tasks.rows, row.userId = some db.userId →
      ∃ m, row.lastModified = some m) :
    listTasks db store serverNow query =
      renderPage (store.task db) (onePass taskKeys.stamp (clampLimit query.limit) serverNow
        query.since.isSome (taskKeys.sort (store.tasks.select (query.whereClause db serverNow)))) := by
  have selectedStamped : ∀ row ∈ store.tasks.select (query.whereClause db serverNow),
      ∃ m, row.lastModified = some m := by
    intro row member
    obtain ⟨stored, selected⟩ := (store.tasks.mem_select _ row).mp member
    exact stamped row stored (query.whereClause_owned selected)
  have keepsStamp : ∀ row task, store.task db row = .ok task →
      task.lastModified = taskKeys.stamp row := by
    intro row task mapped
    exact rowToTask_lastModified mapped
  have sameDrain : ∀ row task, store.task db row = .ok task →
      drainTasksAt db store query task.lastModified task.id =
        drainTasksAt db store query (taskKeys.stamp row) row.taskId := by
    intro row task mapped
    have sameId : task.id = row.taskId := rowToTask_id mapped
    rw [keepsStamp row task mapped, sameId]
  unfold listTasks taskPageRows
  rw [orderByStamp_eq_sort selectedStamped]
  refine (assemblePage_eq_renderPage keepsStamp _ _ _
    fun row task _ mapped => sameDrain row task mapped).trans ?_
  apply congrArg (renderPage (store.task db))
  apply rowPage_congr
  intro last delta ends
  obtain ⟨since, isSince⟩ := Option.isSome_iff_exists.mp delta
  have member := List.mem_of_mem_take (List.mem_of_getLast? ends)
  rw [Keyset.mem_sort, select_where_delta isSince] at member
  rw [select_where_delta isSince] at ends ⊢
  rw [drainTasksAt_row member]
  exact remainder_eq_rest _
    (windowOf_ties_nodup (matchingTasks_ties_nodup db store query) since serverNow) ends

theorem fakeLimit_eq (bounded : ∀ limit, query.limit = some limit → 1 ≤ limit ∧ limit ≤ 1000) :
    fakeLimit query.limit = clampLimit query.limit := by
  cases chosen : query.limit with
  | none => rfl
  | some limit =>
      obtain ⟨positive, small⟩ := bounded limit chosen
      unfold fakeLimit clampLimit MAX_PAGE_LIMIT
      dsimp only
      rw [if_neg (by omega)]
      omega

theorem sliceTo_eq_take {α : Type} (limit : ℕ) (xs : List α) :
    sliceTo limit xs = xs.take limit := by
  simp [sliceTo]

theorem FakeRepository.listTasks_onePass
    (bounded : ∀ limit, query.limit = some limit → 1 ≤ limit ∧ limit ≤ 1000) :
    fake.listTasks serverNow query =
      ((fake.tasks.select (FakeTask.selected serverNow query)).mapM FakeTask.toTask).map fun result =>
        onePass Task.lastModified (clampLimit query.limit) serverNow query.since.isSome
          (resultKeys.sort result) := by
  unfold FakeRepository.listTasks
  rw [fakeLimit_eq bounded]
  cases (fake.tasks.select (FakeTask.selected serverNow query)).mapM FakeTask.toTask with
  | error e => rfl
  | ok result =>
      simp only [bind, Except.bind, Except.map, sliceTo_eq_take, Int.toNat_natCast, Nat.cast_inj]
      unfold onePass rowPage
      dsimp only
      generalize (resultKeys.sort result).take (clampLimit query.limit) = page
      unfold isSingleMsFullPage isFullPage pageCursor
      rw [List.head?_map, List.getLast?_map, List.length_map, List.isEmpty_map]
      cases ends : page.getLast? with
      | none =>
          rw [List.getLast?_eq_none_iff] at ends
          simp [ends]
          rfl
      | some last =>
          have nonempty : page.isEmpty = false := by
            cases page with
            | nil => cases ends
            | cons first rest => rfl
          rw [nonempty]
          by_cases full : page.length = clampLimit query.limit
          · simp only [full, decide_true, beq_self_eq_true, Bool.not_false, Bool.and_true,
              Bool.true_and, if_true]
            split
            · rfl
            · rfl
          · have notFull : (page.length == clampLimit query.limit) = false :=
              beq_eq_false_iff_ne.mpr full
            simp [full, notFull]
            rfl

/-! ## The same tasks on both sides -/

theorem FakeTask.Mirrors.selected_eq {t : FakeTask} {row : TaskRow} (mirrors : t.Mirrors db row) :
    t.selected serverNow query = query.whereClause db serverNow row := by
  have active : decide (row.isDeleted = some NO) = !t.isDeleted := by
    rw [mirrors.isDeleted]
    cases t.isDeleted <;> decide
  have open_ : decide (row.status = some (TaskStatus.value .needsAction)) =
      !decide (t.status = .completed) := by
    rw [mirrors.status]
    cases t.status <;> decide
  unfold FakeTask.selected TaskQuery.whereClause TaskQuery.inFilter stampedWithin
  rw [mirrors.user, mirrors.lastModified, mirrors.listId, active, open_]
  cases query.since <;> cases query.inboxOnly <;> cases query.listId <;> cases t.listId <;>
    simp [Bool.and_assoc]

theorem FakeTask.Mirrors.place_eq {t : FakeTask} {row : TaskRow} (mirrors : t.Mirrors db row) :
    taskKeys.place row = (t.lastModified, t.id) := by
  rw [Keyset.place, stampKeys_stamp mirrors.lastModified]
  exact congrArg (Prod.mk t.lastModified) mirrors.id

theorem toTask_ok_iff (t : FakeTask) :
    (∃ task, t.toTask = .ok task) ↔ t.due ≤ lastInstantMs ∧ t.completed ≤ lastInstantMs := by
  have dueIff := msToDatetime_ok_iff t.due
  have completedIff := msToDatetime_ok_iff t.completed
  simp only [FakeTask.toTask, bind_eq_ok_iff, pure_eq_ok_iff, ← dueIff, ← completedIff]
  constructor
  · intro ⟨_, due, dueMapped, completed, completedMapped, _⟩
    exact ⟨⟨due, dueMapped⟩, ⟨completed, completedMapped⟩⟩
  · intro ⟨⟨due, dueMapped⟩, ⟨completed, completedMapped⟩⟩
    exact ⟨_, due, dueMapped, completed, completedMapped, rfl⟩

theorem toTask_place {t : FakeTask} {task : Task} (mapped : t.toTask = .ok task) :
    resultKeys.place task = (t.lastModified, t.id) := by
  simp only [FakeTask.toTask, bind_eq_ok_iff, pure_eq_ok_iff] at mapped
  obtain ⟨due, -, completed, -, rfl⟩ := mapped
  rfl

theorem FakeTask.Mirrors.readable_iff {t : FakeTask} {row : TaskRow} (mirrors : t.Mirrors db row) :
    Readable db.linkModel row ↔ ∃ task, t.toTask = .ok task := by
  rw [toTask_ok_iff, ← mirrors.due, ← mirrors.completed]
  constructor
  · intro readable
    exact ⟨readable.due, readable.completed⟩
  · intro ⟨due, completed⟩
    have status : statusOf row.status = .ok t.status := by
      rw [mirrors.status, statusOf, TaskStatus.ofValue_value]
    exact ⟨⟨_, mirrors.documentLink⟩, ⟨_, status⟩, due, completed⟩

theorem FakeRepository.Mirrors.places_perm (mirrors : fake.Mirrors db store) :
    ((store.tasks.select (query.whereClause db serverNow)).map taskKeys.place).Perm
      ((fake.tasks.select (FakeTask.selected serverNow query)).map fun t =>
        (t.lastModified, t.id)) := by
  have rowsNodup : ((store.tasks.select (query.whereClause db serverNow)).map
      taskKeys.place).Nodup := by
    apply List.Nodup.of_map Prod.snd
    rw [List.map_map]
    exact store.tasks.select_keys_nodup _
  have fakesNodup : ((fake.tasks.select (FakeTask.selected serverNow query)).map fun t =>
      (t.lastModified, t.id)).Nodup := by
    apply List.Nodup.of_map Prod.snd
    rw [List.map_map]
    exact fake.tasks.select_keys_nodup _
  rw [List.perm_ext_iff_of_nodup rowsNodup fakesNodup]
  intro place
  simp only [List.mem_map, KeyedTable.mem_select]
  constructor
  · rintro ⟨row, ⟨stored, selected⟩, isPlace⟩
    have ofUser : row.userId = some db.userId := query.whereClause_owned selected
    obtain ⟨t, held, same⟩ := mirrors.2 row stored ofUser
    exact ⟨t, ⟨held, same.selected_eq.trans selected⟩, same.place_eq.symm.trans isPlace⟩
  · rintro ⟨t, ⟨held, selected⟩, isPlace⟩
    obtain ⟨row, stored, same⟩ := mirrors.1 t held
    exact ⟨row, ⟨stored, same.selected_eq.symm.trans selected⟩, same.place_eq.trans isPlace⟩

theorem FakeRepository.Mirrors.stamped (mirrors : fake.Mirrors db store) :
    ∀ row ∈ store.tasks.rows, row.userId = some db.userId → ∃ m, row.lastModified = some m := by
  intro row stored ofUser
  obtain ⟨t, _, same⟩ := mirrors.2 row stored ofUser
  exact ⟨_, same.lastModified⟩

theorem FakeRepository.Mirrors.rows_readable (mirrors : fake.Mirrors db store) {result : List Task}
    (mapped : (fake.tasks.select (FakeTask.selected serverNow query)).mapM FakeTask.toTask =
      .ok result) :
    ∀ row ∈ store.tasks.select (query.whereClause db serverNow),
      ∃ task, store.task db row = .ok task := by
  intro row member
  obtain ⟨stored, selected⟩ := (store.tasks.mem_select _ row).mp member
  have ofUser : row.userId = some db.userId := query.whereClause_owned selected
  obtain ⟨t, held, same⟩ := mirrors.2 row stored ofUser
  have fakeSelected := (fake.tasks.mem_select _ t).mpr ⟨held, same.selected_eq.trans selected⟩
  exact (rowToTask_ok_iff (store.join row)).mpr
    (same.readable_iff.mpr (mapM_ok_iff_forall.mp ⟨result, mapped⟩ t fakeSelected))

theorem FakeRepository.Mirrors.passes_agree (mirrors : fake.Mirrors db store) {result : List Task}
    (mapped : (fake.tasks.select (FakeTask.selected serverNow query)).mapM FakeTask.toTask =
      .ok result) (effectiveLimit : ℕ) (delta : Bool) :
    (onePass taskKeys.stamp effectiveLimit serverNow delta
        (taskKeys.sort (store.tasks.select (query.whereClause db serverNow)))).map taskKeys.place =
      (onePass Task.lastModified effectiveLimit serverNow delta
        (resultKeys.sort result)).map resultKeys.place := by
  have resultPlaces := map_eq_of_mapM_ok
    (fun t task (isTask : t.toTask = .ok task) => toTask_place isTask) mapped
  have ties : (((store.tasks.select (query.whereClause db serverNow)).map taskKeys.place).map
      (placeKeys Text).tie).Nodup := by
    rw [List.map_map]
    exact store.tasks.select_keys_nodup _
  have left : (onePass taskKeys.stamp effectiveLimit serverNow delta
      (taskKeys.sort (store.tasks.select (query.whereClause db serverNow)))).map taskKeys.place =
      onePass Prod.fst effectiveLimit serverNow delta
        ((taskKeys.sort (store.tasks.select (query.whereClause db serverNow))).map taskKeys.place) :=
    onePass_map Prod.fst taskKeys.place (fun _ => rfl) _
  have right : (onePass Task.lastModified effectiveLimit serverNow delta
      (resultKeys.sort result)).map resultKeys.place =
      onePass Prod.fst effectiveLimit serverNow delta
        ((resultKeys.sort result).map resultKeys.place) :=
    onePass_map Prod.fst resultKeys.place (fun _ => rfl) _
  rw [left, right, Keyset.map_sort, Keyset.map_sort, resultPlaces,
    Keyset.sort_eq_of_perm mirrors.places_perm ties]

theorem renders_places {raw : Page TaskRow} {page : Page Task}
    (renders : Renders (store.task db) raw page) :
    page.map resultKeys.place = raw.map taskKeys.place := by
  obtain ⟨mapped, cursorEq, moreEq⟩ := renders
  have places : page.items.map resultKeys.place = raw.items.map taskKeys.place := by
    refine map_eq_of_mapM_ok (fun row task rendered => ?_) mapped
    exact Prod.ext (rowToTask_lastModified rendered) (rowToTask_id rendered)
  unfold Page.map
  rw [places, cursorEq, moreEq]

/-- Where the reference answers, `list_tasks` answers a page in the same places. -/
theorem listTasks_of_reference (mirrors : fake.Mirrors db store)
    (bounded : ∀ limit, query.limit = some limit → 1 ≤ limit ∧ limit ≤ 1000)
    {reference : Page Task} (answered : fake.listTasks serverNow query = .ok reference) :
    ∃ page, listTasks db store serverNow query = .ok page ∧
      page.map resultKeys.place = reference.map resultKeys.place := by
  rw [FakeRepository.listTasks_onePass bounded] at answered
  cases mapped : (fake.tasks.select (FakeTask.selected serverNow query)).mapM FakeTask.toTask with
  | error e =>
      rw [mapped] at answered
      cases answered
  | ok result =>
      rw [mapped] at answered
      cases answered
      have agree := mirrors.passes_agree mapped (clampLimit query.limit) query.since.isSome
      have sublist := onePass_sublist taskKeys.stamp (clampLimit query.limit) serverNow
        query.since.isSome (taskKeys.sort (store.tasks.select (query.whereClause db serverNow)))
      rw [listTasks_onePass mirrors.stamped]
      generalize onePass taskKeys.stamp (clampLimit query.limit) serverNow query.since.isSome
        (taskKeys.sort (store.tasks.select (query.whereClause db serverNow))) = raw at *
      have readable : ∀ row ∈ raw.items, ∃ task, store.task db row = .ok task := by
        intro row member
        exact mirrors.rows_readable mapped row (taskKeys.mem_sort.mp (sublist.subset member))
      obtain ⟨items, rendered⟩ := mapM_ok_iff_forall.mpr readable
      have renders : Renders (store.task db) raw ⟨items, raw.cursor, raw.hasMore⟩ :=
        ⟨rendered, rfl, rfl⟩
      exact ⟨_, renderPage_eq_ok_iff.mpr renders, (renders_places renders).trans agree⟩

theorem listTasks_strict
    (stamped : ∀ row ∈ store.tasks.rows, row.userId = some db.userId →
      ∃ m, row.lastModified = some m) {page : Page Task}
    (answered : listTasks db store serverNow query = .ok page) :
    page.items.Pairwise fun left right => left.lastModified < right.lastModified ∨
      left.lastModified = right.lastModified ∧ left.id < right.id := by
  rw [listTasks_onePass stamped, renderPage_eq_ok_iff] at answered
  have places := congrArg Page.items (renders_places answered)
  have ties := store.tasks.select_keys_nodup (query.whereClause db serverNow)
  have strict := (taskKeys.sort_strict ties).sublist
    (onePass_sublist taskKeys.stamp (clampLimit query.limit) serverNow query.since.isSome _)
  have ofPlaces : (page.items.map resultKeys.place).Pairwise fun left right =>
      (placeKeys Text).before left right = true := by
    rw [show page.items.map resultKeys.place = _ from places]
    exact List.pairwise_map.mpr strict
  apply (List.pairwise_map.mp ofPlaces).imp
  intro left right before
  simp only [Keyset.before, Bool.or_eq_true, Bool.and_eq_true, decide_eq_true_eq] at before
  exact before

theorem listTasks_ids_nodup
    (stamped : ∀ row ∈ store.tasks.rows, row.userId = some db.userId →
      ∃ m, row.lastModified = some m) {page : Page Task}
    (answered : listTasks db store serverNow query = .ok page) :
    (page.items.map Task.id).Nodup := by
  rw [listTasks_onePass stamped, renderPage_eq_ok_iff] at answered
  have ids := map_eq_of_mapM_ok (fun row task rendered => rowToTask_id rendered) answered.1
  have ties := ((taskKeys.sort_perm _).map taskKeys.tie).nodup_iff.mpr
    (store.tasks.select_keys_nodup (query.whereClause db serverNow))
  have sublist := onePass_sublist taskKeys.stamp (clampLimit query.limit) serverNow
    query.since.isSome (taskKeys.sort (store.tasks.select (query.whereClause db serverNow)))
  rw [ids]
  exact ties.sublist (sublist.map taskKeys.tie)

/-- The reference fails only where an instant of what it selects is no date. -/
theorem FakeRepository.listTasks_ok_iff
    (bounded : ∀ limit, query.limit = some limit → 1 ≤ limit ∧ limit ≤ 1000) :
    (∃ reference, fake.listTasks serverNow query = .ok reference) ↔
      ∀ t ∈ fake.tasks.rows, t.selected serverNow query = true →
        t.due ≤ lastInstantMs ∧ t.completed ≤ lastInstantMs := by
  have allMap : (∃ result, (fake.tasks.select (FakeTask.selected serverNow query)).mapM
      FakeTask.toTask = .ok result) ↔ ∀ t ∈ fake.tasks.rows, t.selected serverNow query = true →
        t.due ≤ lastInstantMs ∧ t.completed ≤ lastInstantMs := by
    simp only [mapM_ok_iff_forall, KeyedTable.mem_select, and_imp, toTask_ok_iff]
  rw [FakeRepository.listTasks_onePass bounded, ← allMap]
  exact exists_map_ok_iff

end Sides

/-- Over the same tasks and at the same clock, whatever page the reference answers
`list_tasks` answers too: the same ids in the same order, the same cursor and the same flag,
strictly ordered by stamp and id.  The reference answers exactly when the instants of all
that it selects are dates. -/
theorem list_tasks_agrees_with_reference (db : Database) (store : Store) (fake : FakeRepository)
    (serverNow : ℤ) (query : TaskQuery) (mirrors : fake.Mirrors db store)
    (bounded : ∀ limit, query.limit = some limit → 1 ≤ limit ∧ limit ≤ 1000) :
    (∀ reference, fake.listTasks serverNow query = .ok reference →
      ∃ page, listTasks db store serverNow query = .ok page ∧
        page.items.map Task.id = reference.items.map Task.id ∧
        page.cursor = reference.cursor ∧ page.hasMore = reference.hasMore ∧
        (page.items.Pairwise fun left right => left.lastModified < right.lastModified ∨
          left.lastModified = right.lastModified ∧ left.id < right.id) ∧
        (page.items.map Task.id).Nodup) ∧
    ((∃ reference, fake.listTasks serverNow query = .ok reference) ↔
      ∀ t ∈ fake.tasks.rows, t.selected serverNow query = true →
        t.due ≤ lastInstantMs ∧ t.completed ≤ lastInstantMs) := by
  constructor
  · intro reference answered
    obtain ⟨page, pageAnswered, places⟩ := listTasks_of_reference mirrors bounded answered
    have sameIds := congrArg (fun page => page.items.map Prod.snd) places
    simp only [Page.map, List.map_map] at sameIds
    obtain ⟨sameCursor, sameMore⟩ := (Page.mk.inj places).2
    exact ⟨page, pageAnswered, sameIds, sameCursor, sameMore,
      listTasks_strict mirrors.stamped pageAnswered,
      listTasks_ids_nodup mirrors.stamped pageAnswered⟩
  · exact FakeRepository.listTasks_ok_iff bounded

def plainFake (id : Text) (ts : ℤ) : FakeTask where
  id := id
  listId := none
  title := ['t']
  detail := []
  status := .needsAction
  importance := none
  due := 0
  completed := 0
  sort := some 0
  lastModified := ts
  documentLink := none
  isDeleted := false

theorem plainFake_mirrors (id : Text) (ts : ℤ) :
    (plainFake id ts).Mirrors singleUser (plainTask id ts) :=
  ⟨rfl, rfl, rfl, rfl, rfl, rfl, rfl, rfl, rfl⟩

def sameMillisecondFake : FakeRepository :=
  ⟨⟨[plainFake ['b'] 1000, plainFake ['a'] 1000], by decide⟩⟩

theorem sameMillisecondFake_mirrors : sameMillisecondFake.Mirrors singleUser sameMillisecond := by
  have first := plainFake_mirrors ['a'] 1000
  have second := plainFake_mirrors ['b'] 1000
  constructor
  · intro t held
    simp only [sameMillisecondFake, List.mem_cons, List.not_mem_nil, or_false] at held
    rcases held with rfl | rfl
    · exact ⟨_, by simp [sameMillisecond], second⟩
    · exact ⟨_, by simp [sameMillisecond], first⟩
  · intro row stored _
    simp only [sameMillisecond, List.mem_cons, List.not_mem_nil, or_false] at stored
    rcases stored with rfl | rfl
    · exact ⟨_, by simp [sameMillisecondFake], first⟩
    · exact ⟨_, by simp [sameMillisecondFake], second⟩

/-- The drain query and the rest of the sorted list are the same task. -/
theorem sameMillisecond_agrees_with_reference :
    ∃ page, listTasks singleUser sameMillisecond 3000 { since := some 0, limit := some 1 } =
        .ok page ∧
      page.items.map Task.id = [['a'], ['b']] ∧ page.cursor = 1001 ∧ page.hasMore = false := by
  have agrees := (list_tasks_agrees_with_reference singleUser sameMillisecond sameMillisecondFake
    3000 { since := some 0, limit := some 1 } sameMillisecondFake_mirrors
    (by intro limit chosen; cases chosen; decide)).1 _ rfl
  obtain ⟨page, answered, ids, cursor, more, -⟩ := agrees
  exact ⟨page, answered, ids, cursor, more⟩

def lateDueMs : ℤ := 253402304399000

def lateTask : TaskRow := { plainTask ['b'] 2000 with dueTime := some lateDueMs }

def lateFake : FakeTask := { plainFake ['b'] 2000 with due := lateDueMs }

def lateBehindPlain : Store := ⟨⟨[plainTask ['a'] 1000, lateTask], by decide⟩, .empty⟩

def lateBehindPlainFake : FakeRepository := ⟨⟨[plainFake ['a'] 1000, lateFake], by decide⟩⟩

theorem lateBehindPlainFake_mirrors : lateBehindPlainFake.Mirrors singleUser lateBehindPlain := by
  have first := plainFake_mirrors ['a'] 1000
  have second : lateFake.Mirrors singleUser lateTask := ⟨rfl, rfl, rfl, rfl, rfl, rfl, rfl, rfl, rfl⟩
  constructor
  · intro t held
    simp only [lateBehindPlainFake, List.mem_cons, List.not_mem_nil, or_false] at held
    rcases held with rfl | rfl
    · exact ⟨_, by simp [lateBehindPlain], first⟩
    · exact ⟨_, by simp [lateBehindPlain], second⟩
  · intro row stored _
    simp only [lateBehindPlain, List.mem_cons, List.not_mem_nil, or_false] at stored
    rcases stored with rfl | rfl
    · exact ⟨_, by simp [lateBehindPlainFake], first⟩
    · exact ⟨_, by simp [lateBehindPlainFake], second⟩

/-- The late task lies behind the cut: `list_tasks` does not fetch it, and the reference maps
it all the same. -/
theorem reference_fails_behind_cut :
    lateBehindPlainFake.Mirrors singleUser lateBehindPlain ∧
    (∃ page, listTasks singleUser lateBehindPlain 3000 { limit := some 1 } = .ok page ∧
      page.items.map Task.id = [['a']]) ∧
    lateBehindPlainFake.listTasks 3000 { limit := some 1 } = .error .valueError :=
  ⟨lateBehindPlainFake_mirrors, ⟨_, rfl, rfl⟩, rfl⟩

end SupernoteTaskService
