import SupernoteTaskService.Foundation.KeyedTable
import SupernoteTaskService.Foundation.KeysetPaging
import SupernoteTaskService.Models

/-!
# The two tables

`t_schedule_task` and `t_schedule_task_group`, with every column that a statement
of the repository reads or writes.  The device writes both tables too, so a column
other than the primary key may be NULL.

An `UPDATE` is its list of `column = value` fragments.  The tables report how many
rows a statement changed, not how many it matched.
-/

set_option autoImplicit false

namespace SupernoteTaskService

open Foundation

structure TaskRow where
  taskId : Text
  taskListId : Option Text
  userId : Option ℤ
  title : Option Text
  detail : Option Text
  lastModified : Option ℤ
  isReminderOn : Option Text
  status : Option Text
  importance : Option Text
  dueTime : Option ℤ
  completedTime : Option ℤ
  links : Option Text
  isDeleted : Option Text
  sort : Option ℤ
  sortCompleted : Option ℤ
  planerSort : Option ℤ
  allSort : Option ℤ
  allSortCompleted : Option ℤ
  sortTime : Option ℤ
  planerSortTime : Option ℤ
  allSortTime : Option ℤ
  deriving DecidableEq

structure ListRow where
  taskListId : Text
  userId : Option ℤ
  title : Option Text
  lastModified : Option ℤ
  isDeleted : Option Text
  createTime : Option ℤ
  deriving DecidableEq

abbrev TaskTable := KeyedTable TaskRow.taskId

abbrev ListTable := KeyedTable ListRow.taskListId

structure Store where
  tasks : TaskTable
  lists : ListTable
  deriving DecidableEq

/-- The order a column collation puts on titles. -/
structure Collation where
  le : Text → Text → Bool
  total : ∀ left right, le left right = true ∨ le right left = true
  trans : ∀ first second third, le first second = true → le second third = true →
    le first third = true

def binaryCollation : Collation where
  le left right := decide (left ≤ right)
  total left right := by simpa using le_total left right
  trans first second third := by simpa using le_trans (a := first) (b := second) (c := third)

/-- What every statement of a request shares: the exposed user, and what lies outside the
repository, the order of titles in the database and the validation of document links. -/
structure Database where
  userId : ℤ
  collation : Collation
  linkModel : LinkModel

def singleUser : Database := ⟨1, binaryCollation, strictLinks⟩

def Store.empty : Store := ⟨.empty, .empty⟩

/-! ## Statements -/

def YES : Text := ['Y']

def NO : Text := ['N']

/-- `user_id = %s AND is_deleted = 'N'` -/
def TaskRow.isActive (userId : ℤ) (row : TaskRow) : Bool :=
  decide (row.userId = some userId) && decide (row.isDeleted = some NO)

def ListRow.isActive (userId : ℤ) (row : ListRow) : Bool :=
  decide (row.userId = some userId) && decide (row.isDeleted = some NO)

theorem TaskRow.isActive_iff {row : TaskRow} {userId : ℤ} :
    row.isActive userId = true ↔ row.userId = some userId ∧ row.isDeleted = some NO := by
  simp only [TaskRow.isActive, Bool.and_eq_true, decide_eq_true_eq]

theorem ListRow.isActive_iff {row : ListRow} {userId : ℤ} :
    row.isActive userId = true ↔ row.userId = some userId ∧ row.isDeleted = some NO := by
  simp only [ListRow.isActive, Bool.and_eq_true, decide_eq_true_eq]

/-- The optional `AND last_modified = %s`. -/
def versionMatches (expectedLastModified lastModified : Option ℤ) : Bool :=
  match expectedLastModified with
  | none => true
  | some expected => decide (lastModified = some expected)

theorem versionMatches_iff {expectedLastModified lastModified : Option ℤ} :
    versionMatches expectedLastModified lastModified = true ↔
      ∀ version, expectedLastModified = some version → lastModified = some version := by
  cases expectedLastModified with
  | none => simp [versionMatches]
  | some expected => simp [versionMatches]

/-- One fragment of an `UPDATE t_schedule_task SET`. -/
inductive TaskSet where
  | title (value : Text)
  | detail (value : Text)
  | status (value : Text)
  | completedTime (value : ℤ)
  | importance (value : Option Text)
  | dueTime (value : ℤ)
  | sort (value : ℤ)
  | taskListId (value : Option Text)
  | links (value : Option Text)
  | isDeleted (value : Text)
  | lastModified (value : ℤ)
  deriving DecidableEq

def TaskSet.apply (row : TaskRow) : TaskSet → TaskRow
  | .title value => { row with title := some value }
  | .detail value => { row with detail := some value }
  | .status value => { row with status := some value }
  | .completedTime value => { row with completedTime := some value }
  | .importance value => { row with importance := value }
  | .dueTime value => { row with dueTime := some value }
  | .sort value => { row with sort := some value }
  | .taskListId value => { row with taskListId := value }
  | .links value => { row with links := value }
  | .isDeleted value => { row with isDeleted := some value }
  | .lastModified value => { row with lastModified := some value }

def TaskRow.assign (sets : List TaskSet) (row : TaskRow) : TaskRow := sets.foldl TaskSet.apply row

@[simp] theorem TaskSet.apply_taskId (row : TaskRow) (set : TaskSet) :
    (set.apply row).taskId = row.taskId := by
  cases set <;> rfl

@[simp] theorem TaskSet.apply_userId (row : TaskRow) (set : TaskSet) :
    (set.apply row).userId = row.userId := by
  cases set <;> rfl

theorem TaskRow.assign_taskId (sets : List TaskSet) (row : TaskRow) :
    (row.assign sets).taskId = row.taskId := by
  induction sets generalizing row with
  | nil => rfl
  | cons set sets ih => exact (ih (set.apply row)).trans (set.apply_taskId row)

theorem TaskRow.assign_userId (sets : List TaskSet) (row : TaskRow) :
    (row.assign sets).userId = row.userId := by
  induction sets generalizing row with
  | nil => rfl
  | cons set sets ih => exact (ih (set.apply row)).trans (set.apply_userId row)

theorem TaskRow.assign_append (front back : List TaskSet) (row : TaskRow) :
    row.assign (front ++ back) = (row.assign front).assign back :=
  List.foldl_append

theorem TaskRow.assign_lastModified (sets : List TaskSet) (now : ℤ) (row : TaskRow) :
    (row.assign (sets ++ [.lastModified now])).lastModified = some now := by
  rw [TaskRow.assign_append]
  rfl

inductive ListSet where
  | title (value : Text)
  | isDeleted (value : Text)
  | lastModified (value : ℤ)
  deriving DecidableEq

def ListSet.apply (row : ListRow) : ListSet → ListRow
  | .title value => { row with title := some value }
  | .isDeleted value => { row with isDeleted := some value }
  | .lastModified value => { row with lastModified := some value }

def ListRow.assign (sets : List ListSet) (row : ListRow) : ListRow := sets.foldl ListSet.apply row

theorem ListRow.assign_taskListId (sets : List ListSet) (row : ListRow) :
    (row.assign sets).taskListId = row.taskListId := by
  induction sets generalizing row with
  | nil => rfl
  | cons set sets ih =>
      refine (ih (set.apply row)).trans ?_
      cases set <;> rfl

theorem ListRow.assign_userId (sets : List ListSet) (row : ListRow) :
    (row.assign sets).userId = row.userId := by
  induction sets generalizing row with
  | nil => rfl
  | cons set sets ih =>
      refine (ih (set.apply row)).trans ?_
      cases set <;> rfl

theorem ListRow.assign_append (front back : List ListSet) (row : ListRow) :
    row.assign (front ++ back) = (row.assign front).assign back :=
  List.foldl_append

theorem ListRow.assign_lastModified (sets : List ListSet) (now : ℤ) (row : ListRow) :
    (row.assign (sets ++ [.lastModified now])).lastModified = some now := by
  rw [ListRow.assign_append]
  rfl

/-! ## Targeted updates -/

section Updates
variable (db : Database) (store : Store) (expectedLastModified : Option ℤ)

/-- `task_id = %s AND user_id = %s AND is_deleted = 'N' [AND last_modified = %s]` -/
def taskTarget (taskId : Text) (row : TaskRow) : Bool :=
  decide (row.taskId = taskId) && row.isActive db.userId &&
    versionMatches expectedLastModified row.lastModified

def listTarget (listId : Text) (row : ListRow) : Bool :=
  decide (row.taskListId = listId) && row.isActive db.userId &&
    versionMatches expectedLastModified row.lastModified

/-- Whether rows were affected, and the tables afterwards. -/
def executeTaskUpdate (sets : List TaskSet) (taskId : Text) : Bool × Store :=
  let target := taskTarget db expectedLastModified taskId
  (decide (0 < store.tasks.changedCount target (TaskRow.assign sets)),
    { store with
      tasks := store.tasks.update target (TaskRow.assign sets) (TaskRow.assign_taskId sets) })

def executeListUpdate (sets : List ListSet) (listId : Text) : Bool × Store :=
  let target := listTarget db expectedLastModified listId
  (decide (0 < store.lists.changedCount target (ListRow.assign sets)),
    { store with
      lists := store.lists.update target (ListRow.assign sets) (ListRow.assign_taskListId sets) })

variable {db store expectedLastModified}

theorem taskTarget_iff {taskId : Text} {row : TaskRow} :
    taskTarget db expectedLastModified taskId row = true ↔
      row.taskId = taskId ∧ row.isActive db.userId = true ∧
        versionMatches expectedLastModified row.lastModified = true := by
  simp only [taskTarget, Bool.and_eq_true, decide_eq_true_eq, and_assoc]

theorem listTarget_iff {listId : Text} {row : ListRow} :
    listTarget db expectedLastModified listId row = true ↔
      row.taskListId = listId ∧ row.isActive db.userId = true ∧
        versionMatches expectedLastModified row.lastModified = true := by
  simp only [listTarget, Bool.and_eq_true, decide_eq_true_eq, and_assoc]

variable (db store expectedLastModified) in
theorem executeTaskUpdate_cases (sets : List TaskSet) (taskId : Text) :
    executeTaskUpdate db store expectedLastModified sets taskId = (false, store) ∨
      ∃ row after, store.tasks.get taskId = some row ∧ row.isActive db.userId = true ∧
        versionMatches expectedLastModified row.lastModified = true ∧ row.assign sets ≠ row ∧
        executeTaskUpdate db store expectedLastModified sets taskId = (true, after) ∧
        after.lists = store.lists ∧
        ∀ k, after.tasks.get k =
          if k = taskId then some (row.assign sets) else store.tasks.get k := by
  have outcome := store.tasks.update_cases (TaskRow.assign_taskId sets) taskId
    fun row (hit : taskTarget db expectedLastModified taskId row = true) => (taskTarget_iff.mp hit).1
  rcases outcome with ⟨nothing, same⟩ | ⟨row, found, hit, changed, affected, frame⟩
  · left
    simp only [executeTaskUpdate, nothing, same, lt_irrefl, decide_false]
  · right
    obtain ⟨-, active, version⟩ := taskTarget_iff.mp hit
    refine ⟨row, (executeTaskUpdate db store expectedLastModified sets taskId).2, found, active,
      version, changed, Prod.ext ?_ rfl, rfl, frame⟩
    simp only [executeTaskUpdate, affected, decide_true]

variable (db store expectedLastModified) in
theorem executeListUpdate_cases (sets : List ListSet) (listId : Text) :
    executeListUpdate db store expectedLastModified sets listId = (false, store) ∨
      ∃ row after, store.lists.get listId = some row ∧ row.isActive db.userId = true ∧
        versionMatches expectedLastModified row.lastModified = true ∧ row.assign sets ≠ row ∧
        executeListUpdate db store expectedLastModified sets listId = (true, after) ∧
        after.tasks = store.tasks ∧
        ∀ k, after.lists.get k =
          if k = listId then some (row.assign sets) else store.lists.get k := by
  have outcome := store.lists.update_cases (ListRow.assign_taskListId sets) listId
    fun row (hit : listTarget db expectedLastModified listId row = true) => (listTarget_iff.mp hit).1
  rcases outcome with ⟨nothing, same⟩ | ⟨row, found, hit, changed, affected, frame⟩
  · left
    simp only [executeListUpdate, nothing, same, lt_irrefl, decide_false]
  · right
    obtain ⟨-, active, version⟩ := listTarget_iff.mp hit
    refine ⟨row, (executeListUpdate db store expectedLastModified sets listId).2, found, active,
      version, changed, Prod.ext ?_ rfl, rfl, frame⟩
    simp only [executeListUpdate, affected, decide_true]

theorem executeTaskUpdate_affected_iff (sets : List TaskSet) (taskId : Text) :
    (executeTaskUpdate db store expectedLastModified sets taskId).1 = true ↔
      ∃ row, store.tasks.get taskId = some row ∧ row.isActive db.userId = true ∧
        versionMatches expectedLastModified row.lastModified = true ∧ row.assign sets ≠ row := by
  rw [executeTaskUpdate, decide_eq_true_eq, store.tasks.changedCount_pos_iff _ _ taskId
    fun row hit => (taskTarget_iff.mp hit).1]
  apply exists_congr
  intro row
  apply and_congr_right
  intro found
  have rowKey := ((store.tasks.get_eq_some_iff taskId row).mp found).2
  rw [taskTarget_iff, and_assoc, and_assoc, and_iff_right rowKey]

theorem executeListUpdate_affected_iff (sets : List ListSet) (listId : Text) :
    (executeListUpdate db store expectedLastModified sets listId).1 = true ↔
      ∃ row, store.lists.get listId = some row ∧ row.isActive db.userId = true ∧
        versionMatches expectedLastModified row.lastModified = true ∧ row.assign sets ≠ row := by
  rw [executeListUpdate, decide_eq_true_eq, store.lists.changedCount_pos_iff _ _ listId
    fun row hit => (listTarget_iff.mp hit).1]
  apply exists_congr
  intro row
  apply and_congr_right
  intro found
  have rowKey := ((store.lists.get_eq_some_iff listId row).mp found).2
  rw [listTarget_iff, and_assoc, and_assoc, and_iff_right rowKey]

/-- A statement that affects nothing would change no row that it matches. -/
theorem executeTaskUpdate_refused {sets : List TaskSet} {taskId : Text} {row : TaskRow}
    (refused : (executeTaskUpdate db store expectedLastModified sets taskId).1 = false)
    (found : store.tasks.get taskId = some row) (active : row.isActive db.userId = true)
    (matched : versionMatches expectedLastModified row.lastModified = true) :
    row.assign sets = row := by
  by_contra changed
  have affected := (executeTaskUpdate_affected_iff sets taskId).mpr
    ⟨row, found, active, matched, changed⟩
  rw [refused] at affected
  cases affected

theorem executeListUpdate_refused {sets : List ListSet} {listId : Text} {row : ListRow}
    (refused : (executeListUpdate db store expectedLastModified sets listId).1 = false)
    (found : store.lists.get listId = some row) (active : row.isActive db.userId = true)
    (matched : versionMatches expectedLastModified row.lastModified = true) :
    row.assign sets = row := by
  by_contra changed
  have affected := (executeListUpdate_affected_iff sets listId).mpr
    ⟨row, found, active, matched, changed⟩
  rw [refused] at affected
  cases affected

theorem executeTaskUpdate_matched (sets : List TaskSet) {taskId : Text} {row : TaskRow}
    (found : store.tasks.get taskId = some row) (active : row.isActive db.userId = true)
    (matched : versionMatches expectedLastModified row.lastModified = true) (k : Text) :
    (executeTaskUpdate db store expectedLastModified sets taskId).2.tasks.get k =
      if k = taskId then some (row.assign sets) else store.tasks.get k := by
  rcases executeTaskUpdate_cases db store expectedLastModified sets taskId with
    refused | ⟨other, after, isOther, -, -, -, executed, -, frame⟩
  · have same := executeTaskUpdate_refused (congrArg Prod.fst refused) found active matched
    rw [refused, same]
    split
    · rename_i isTarget
      rw [isTarget, found]
    · rfl
  · rw [found] at isOther
    cases isOther
    rw [executed]
    exact frame k

end Updates

end SupernoteTaskService
