import SupernoteTaskService.Repository.Writes

/-!
# Announced changes

A task shows the title of its list, which lives in the other table.  Every write but
the rename of a list stamps the tasks whose representation it changes; a rename stamps
the list, and its tasks show the new title under their old stamps.
-/

set_option autoImplicit false

namespace SupernoteTaskService

open Foundation

/-! ## Writes of both tables -/

inductive ApiWrite where
  | task (write : TaskWrite)
  | list (write : ListWrite)
  deriving DecidableEq

def ApiWrite.run (db : Database) (store : Store) (now : ℤ) : ApiWrite → Bool × Store
  | .task write => write.run db store now
  | .list write => write.run db store now

def ApiWrite.renames : ApiWrite → Option Text
  | .list (.update listId _ _) => some listId
  | _ => none

def ApiWrite.FreshId (store : Store) : ApiWrite → Prop
  | .list (.create listId _) => ∀ row ∈ store.tasks.rows, row.taskListId ≠ some listId
  | _ => True

def shownTask (db : Database) (store : Store) (taskId : Text) : Option (Except Raised Task) :=
  (store.tasks.get taskId).map (store.task db)

/-! ## The join -/

section Join
variable {db : Database} {store after : Store} {now : ℤ}

theorem category_congr {taskListId : Option Text}
    (titles : (taskListId.bind after.lists.get).bind ListRow.title =
      (taskListId.bind store.lists.get).bind ListRow.title) :
    after.category taskListId = store.category taskListId := by
  rw [Store.category, Store.category, titles]

theorem task_congr {row : TaskRow}
    (same : after.category row.taskListId = store.category row.taskListId) :
    after.task db row = store.task db row := by
  rw [Store.task, Store.task, Store.join, Store.join, same]

theorem ListEffect.category_other {listRow : ListRow} (effect : ListEffect db store after now listRow)
    {taskListId : Option Text} (other : taskListId ≠ some listRow.taskListId) :
    after.category taskListId = store.category taskListId := by
  apply category_congr
  cases taskListId with
  | none => rfl
  | some listId =>
      have different : listId ≠ listRow.taskListId := fun same => other (congrArg some same)
      rw [Option.bind_some, Option.bind_some, effect.frame, if_neg different]

theorem ListEffect.category_same_title {old listRow : ListRow}
    (effect : ListEffect db store after now listRow)
    (found : store.lists.get listRow.taskListId = some old) (title : listRow.title = old.title)
    (taskListId : Option Text) : after.category taskListId = store.category taskListId := by
  by_cases same : taskListId = some listRow.taskListId
  · subst same
    apply category_congr
    rw [Option.bind_some, Option.bind_some, effect.frame, if_pos rfl, found, Option.bind_some,
      Option.bind_some, title]
  · exact effect.category_other same

theorem task_of_category {row : TaskRow} {task : Task} (mapped : store.task db row = .ok task) :
    after.task db row =
      .ok { task with category := decodeEmoji (some (after.category row.taskListId)) } := by
  obtain ⟨documentLink, link, status, statusMapped, due, dueMapped, completed, completedMapped,
    rfl⟩ := rowToTask_eq_ok_iff.mp mapped
  exact rowToTask_eq_ok_iff.mpr ⟨documentLink, link, status, statusMapped, due, dueMapped,
    completed, completedMapped, rfl⟩

end Join

/-! ## The law -/

/-- The row of the task carries the stamp, and every unfiltered delta read over the
stamp ranges over the row. -/
def TaskAnnounced (db : Database) (after : Store) (now : ℤ) (taskId : Text) : Prop :=
  ∃ row, after.tasks.get taskId = some row ∧ row.lastModified = some now ∧
    ∀ since serverNow, since ≤ now → now ≤ serverNow →
      row ∈ windowOf taskKeys (matchingTasks db after {}) since serverNow

def ListAnnounced (db : Database) (after : Store) (now : ℤ) (listId : Text) : Prop :=
  ∃ row, after.lists.get listId = some row ∧ row.lastModified = some now ∧
    ∀ since serverNow, since ≤ now → now ≤ serverNow →
      row ∈ windowOf listKeys (matchingLists db after) since serverNow

section Law
variable {db : Database} {store after : Store} {now : ℤ} {taskId : Text}

theorem taskAnnounced_of_stamped {row : TaskRow} (found : after.tasks.get taskId = some row)
    (owned : row.userId = some db.userId) (stamped : row.lastModified = some now) :
    TaskAnnounced db after now taskId := by
  refine ⟨row, found, stamped, fun since serverNow sinceLe nowLe => ?_⟩
  rw [mem_windowOf, mem_matchingTasks, stampKeys_stamp stamped]
  have stored := ((after.tasks.get_eq_some_iff taskId row).mp found).1
  exact ⟨⟨stored, owned, rfl, now, stamped⟩, sinceLe, nowLe⟩

theorem listAnnounced_of_stamped {row : ListRow} {listId : Text}
    (found : after.lists.get listId = some row) (owned : row.userId = some db.userId)
    (stamped : row.lastModified = some now) : ListAnnounced db after now listId := by
  refine ⟨row, found, stamped, fun since serverNow sinceLe nowLe => ?_⟩
  rw [mem_windowOf, mem_matchingLists, stampKeys_stamp stamped]
  have stored := ((after.lists.get_eq_some_iff listId row).mp found).1
  exact ⟨⟨stored, owned, now, stamped⟩, sinceLe, nowLe⟩

/-- A write of a task changes what is shown of that task only, and stamps it. -/
theorem TaskEffect.announced {row : TaskRow} (effect : TaskEffect db store after now row)
    (changed : shownTask db after taskId ≠ shownTask db store taskId) :
    TaskAnnounced db after now taskId := by
  have sameTask : (after.task db) = (store.task db) := by
    funext other
    apply task_congr
    rw [Store.category, Store.category, effect.lists]
  by_cases target : taskId = row.taskId
  · exact taskAnnounced_of_stamped (by rw [effect.frame, if_pos target]) effect.owned
      effect.stamped
  · refine absurd ?_ changed
    rw [shownTask, shownTask, effect.frame, if_neg target, sameTask]

theorem ListEffect.shown_same {listRow : ListRow} (effect : ListEffect db store after now listRow)
    (keeps : ∀ row, store.tasks.get taskId = some row →
      after.category row.taskListId = store.category row.taskListId) :
    shownTask db after taskId = shownTask db store taskId := by
  rw [shownTask, shownTask, effect.tasks]
  cases found : store.tasks.get taskId with
  | none => rfl
  | some row => rw [Option.map_some, Option.map_some, task_congr (keeps row found)]

variable (db store now) in
theorem ListWrite.shown_same (write : ListWrite) (fresh : (ApiWrite.list write).FreshId store)
    (notRename : (ApiWrite.list write).renames = none) (taskId : Text) :
    shownTask db (write.run db store now).2 taskId = shownTask db store taskId := by
  rcases write.written_cases db store now with
    same | ⟨listId, title, after, rfl, -, ran, effect⟩ |
      ⟨old, after, something, found, -, ran, effect⟩
  · rw [same]
  · rw [ran]
    refine effect.shown_same fun row isRow => effect.category_other ?_
    exact fresh row ((store.tasks.get_eq_some_iff taskId row).mp isRow).1
  · rw [ran]
    cases write with
    | create listId title => exact absurd rfl something
    | update listId title expected => cases notRename
    | delete listId expected =>
        have isKey : (old.assign ((ListWrite.delete listId expected).sets ++
            [.lastModified now])).taskListId = listId :=
          (ListRow.assign_taskListId _ old).trans
            ((store.lists.get_eq_some_iff listId old).mp found).2
        rw [← isKey] at found
        exact effect.shown_same fun row _ => effect.category_same_title found rfl row.taskListId

theorem ListEffect.in_list_of_changed {listRow : ListRow}
    (effect : ListEffect db store after now listRow)
    (changed : shownTask db after taskId ≠ shownTask db store taskId) :
    ∃ row, store.tasks.get taskId = some row ∧ row.taskListId = some listRow.taskListId := by
  by_contra outside
  refine changed (effect.shown_same fun row isRow => effect.category_other fun inList => ?_)
  exact outside ⟨row, isRow, inList⟩

end Law

/-- Every write but a rename stamps each task that it shows differently.  A rename
leaves the tasks as they are but for the category of those in the list, and stamps the
list. -/
theorem visible_changes_announced (db : Database) (store : Store) (now : ℤ) (write : ApiWrite)
    (fresh : write.FreshId store) :
    (write.renames = none → ∀ taskId,
      shownTask db (write.run db store now).2 taskId ≠ shownTask db store taskId →
      TaskAnnounced db (write.run db store now).2 now taskId) ∧
    (∀ listId, write.renames = some listId →
      (write.run db store now).2.tasks = store.tasks ∧
      (∀ row task, store.task db row = .ok task →
        (write.run db store now).2.task db row = .ok { task with
          category := decodeEmoji (some ((write.run db store now).2.category row.taskListId)) }) ∧
      ∀ taskId, shownTask db (write.run db store now).2 taskId ≠ shownTask db store taskId →
        (∃ row, store.tasks.get taskId = some row ∧ row.taskListId = some listId) ∧
        ListAnnounced db (write.run db store now).2 now listId) := by
  cases write with
  | task write =>
      refine ⟨fun _ taskId changed => ?_, fun listId impossible => by cases impossible⟩
      simp only [ApiWrite.run] at changed ⊢
      rcases write.run_cases db store now with same | ⟨row, after, ran, -, effect⟩
      · rw [same] at changed
        exact absurd rfl changed
      · rw [ran] at changed ⊢
        exact effect.announced changed
  | list write =>
      refine ⟨fun notRename taskId changed => ?_, fun listId renames => ?_⟩
      · exact absurd (write.shown_same db store now fresh notRename taskId) changed
      · simp only [ApiWrite.run]
        cases write with
        | create listId title => cases renames
        | delete listId expected => cases renames
        | update renamed title expected =>
            cases renames
            rcases (ListWrite.update listId title expected).written_cases db store now with
              same | ⟨_, _, _, impossible, -⟩ | ⟨old, after, -, found, -, ran, effect⟩
            · rw [same]
              refine ⟨rfl, fun row task mapped => task_of_category mapped, fun taskId changed => ?_⟩
              exact absurd rfl changed
            · cases impossible
            · rw [ran]
              have isKey : (old.assign ((ListWrite.update listId title expected).sets ++
                  [.lastModified now])).taskListId = listId :=
                (ListRow.assign_taskListId _ old).trans
                  ((store.lists.get_eq_some_iff listId old).mp found).2
              refine ⟨effect.tasks, fun row task mapped => task_of_category mapped,
                fun taskId changed => ⟨?_, ?_⟩⟩
              · have inList := effect.in_list_of_changed changed
                rwa [isKey] at inList
              · refine listAnnounced_of_stamped ?_ effect.owned effect.stamped
                rw [effect.frame, if_pos isKey.symm]

def taskInList : Store :=
  ⟨⟨[{ plainTask ['a'] 1000 with taskListId := some ['x'] }], by decide⟩,
    ⟨[newListRow singleUser ['x'] 500 ['A']], by decide⟩⟩

def renameList : ApiWrite := .list (.update ['x'] ['B'] none)

theorem completion_and_rename_announced :
    TaskAnnounced singleUser
      ((ApiWrite.task (.setStatus ['a'] .completed none)).run singleUser taskInList 2000).2
      2000 ['a'] ∧
    ListAnnounced singleUser (renameList.run singleUser taskInList 2000).2 2000 ['x'] :=
  ⟨(visible_changes_announced singleUser taskInList 2000 (.task (.setStatus ['a'] .completed none))
      trivial).1 rfl ['a'] (by decide),
    (((visible_changes_announced singleUser taskInList 2000 renameList trivial).2 ['x'] rfl).2.2
      ['a'] (by decide)).2⟩

/-- The rename shows the task under a new category, and the task keeps its old stamp. -/
theorem rename_does_not_stamp_tasks :
    shownTask singleUser (renameList.run singleUser taskInList 2000).2 ['a'] ≠
      shownTask singleUser taskInList ['a'] ∧
    ∀ row, (renameList.run singleUser taskInList 2000).2.tasks.get ['a'] = some row →
      row.userId = some singleUser.userId ∧ row.lastModified = some 1000 := by
  refine ⟨by decide, fun row found => ?_⟩
  cases found
  exact ⟨rfl, rfl⟩

end SupernoteTaskService
