import SupernoteTaskService.Repository.SqlRefinement
import SupernoteTaskService.Routers.WriteLog

/-!
# The last write of a column

Requests edit a task column by column.  Whatever the interleaving, a column of a task holds the
value that the last accepted write of the column gave it: an edit is undone by a later edit of
the same column, and by nothing else.
-/

set_option autoImplicit false

namespace SupernoteTaskService

open Foundation

/-- A statement without fragments of its own is not sent. -/
def stampedSets (sets : List TaskSet) (now : ℤ) : List TaskSet :=
  if sets.isEmpty then [] else sets ++ [.lastModified now]

def Operation.taskSets (taskId : Text) (now : ℤ) : Operation → List TaskSet
  | .updateTask statusNow target data _ =>
      if target = taskId then stampedSets (updateSets data statusNow) now else []
  | .setStatus statusNow target status _ =>
      if target = taskId then stampedSets (updateSets (.ofStatus status) statusNow) now else []
  | .deleteTask target _ => if target = taskId then [.isDeleted YES, .lastModified now] else []
  | _ => []

/-- What an `UPDATE` assigned, if it was accepted. -/
def acceptedAssignments (sets : List TaskSet) : Except Raised Returned → List (TaskColumn × SqlValue)
  | .ok (.flag true) => sets.map TaskSet.assignment
  | _ => []

section Statements
variable {db : Database} {store : Store} {now : ℤ} {taskId : Text} {row : TaskRow}

theorem acceptedAssignments_nil (outcome : Except Raised Returned) :
    acceptedAssignments [] outcome = [] := by
  unfold acceptedAssignments
  split <;> rfl

def Assigned (taskId : Text) (row : TaskRow) (assignments : List (TaskColumn × SqlValue))
    (after : Store) : Prop :=
  ∃ final, after.tasks.get taskId = some final ∧ final.columns = assignAll assignments row.columns

theorem assigned_nothing {after : Store} (found : store.tasks.get taskId = some row)
    (same : after.tasks.get taskId = store.tasks.get taskId) (outcome : Except Raised Returned) :
    Assigned taskId row (acceptedAssignments [] outcome) after := by
  rw [acceptedAssignments_nil]
  exact ⟨row, same.trans found, rfl⟩

theorem assigned_execute (found : store.tasks.get taskId = some row) (expected : Option ℤ)
    (sets : List TaskSet) (target : Text) :
    Assigned taskId row
      (acceptedAssignments (if target = taskId then sets else [])
        (.ok (.flag (executeTaskUpdate db store expected sets target).1)))
      (executeTaskUpdate db store expected sets target).2 := by
  rcases executeTaskUpdate_cases db store expected sets target with
    refused | ⟨old, after, present, -, -, -, executed, -, frame⟩
  · rw [refused]
    exact ⟨row, found, rfl⟩
  · rw [executed]
    by_cases onTask : target = taskId
    · subst onTask
      rw [found, Option.some.injEq] at present
      subst present
      refine ⟨row.assign sets, (frame target).trans (if_pos rfl), ?_⟩
      rw [if_pos rfl]
      exact (assignAll_taskSets sets row).symm
    · rw [if_neg onTask]
      exact assigned_nothing found ((frame taskId).trans (if_neg (Ne.symm onTask))) _

theorem assigned_update (found : store.tasks.get taskId = some row) (statusNow : ℤ) (target : Text)
    (data : TaskUpdate) (expected : Option ℤ) :
    Assigned taskId row
      (acceptedAssignments (if target = taskId then stampedSets (updateSets data statusNow) now else [])
        (.ok (.flag (updateTask db store statusNow now target data expected).1)))
      (updateTask db store statusNow now target data expected).2 := by
  by_cases nothing : updateSets data statusNow = []
  · have noSets :
        (if target = taskId then stampedSets (updateSets data statusNow) now else []) = [] := by
      rw [stampedSets, nothing, List.isEmpty_nil, if_pos rfl, ite_self]
    rw [noSets, updateTask_of_no_sets db store now statusNow nothing]
    exact assigned_nothing found rfl _
  · have sets : stampedSets (updateSets data statusNow) now =
        updateSets data statusNow ++ [.lastModified now] := by
      rw [stampedSets, if_neg (by rwa [List.isEmpty_iff])]
    rw [sets, updateTask_of_sets db store now statusNow nothing]
    exact assigned_execute found expected _ target

theorem assigned_run (found : store.tasks.get taskId = some row) (operation : Operation) :
    Assigned taskId row
      (acceptedAssignments (operation.taskSets taskId now) (operation.run db store now).1)
      (operation.run db store now).2 := by
  cases operation with
  | updateTask statusNow target data expected =>
      exact assigned_update found statusNow target data expected
  | setStatus statusNow target status expected =>
      exact assigned_update found statusNow target (.ofStatus status) expected
  | deleteTask target expected => exact assigned_execute found expected _ target
  | createTask target data =>
      refine assigned_nothing found ?_ _
      simp only [Operation.run]
      rcases createTask_cases db store now target data with
        ⟨refused, -⟩ | ⟨after, created, free, effect⟩
      · rw [refused]
      · rw [created]
        have other : taskId ≠ target := by
          rintro rfl
          rw [found] at free
          cases free
        exact (effect.frame taskId).trans (if_neg other)
  | createList listId title =>
      refine assigned_nothing found ?_ _
      simp only [Operation.run]
      rcases createList_cases db store now listId title with
        ⟨refused, -⟩ | ⟨after, created, -, effect⟩
      · rw [refused]
      · rw [created, effect.tasks]
  | _ => exact assigned_nothing found rfl _

end Statements

/-! ## Schedules of requests -/

section Schedules
variable {ι : Type} (db : Database) (requests : ι → Request) (taskId : Text)

def commitAssignments (store : Store) (commit : LoggedWrite ι) : List (TaskColumn × SqlValue) :=
  acceptedAssignments ((requests commit.request).operation.taskSets taskId commit.clock)
    ((requests commit.request).commit db store commit.clock commit.position).1

variable {db requests taskId}

theorem assigned_commit {store : Store} {row : TaskRow} (found : store.tasks.get taskId = some row)
    (commit : LoggedWrite ι) :
    Assigned taskId row (commitAssignments db requests taskId store commit)
      (commitStep db requests store commit) := by
  obtain ⟨id, clock, position⟩ := commit
  unfold commitAssignments commitStep
  cases position with
  | none => exact assigned_run found (requests id).operation
  | some sort =>
      cases isCreate : requests id with
      | createTask target body =>
          refine assigned_nothing found ?_ _
          simp only [Request.commit]
          rcases insertTask_cases db store clock
              { newTaskRow db store target clock body with sort := some sort } rfl rfl with
            ⟨refused, -⟩ | ⟨after, created, free, effect⟩
          · rw [refused]
          · rw [created]
            have other : taskId ≠ target := by
              rintro rfl
              rw [newTaskRow] at free
              rw [found] at free
              cases free
            exact (effect.frame taskId).trans (if_neg other)
      | _ => exact ⟨row, found, rfl⟩

theorem assigned_log (log : List (LoggedWrite ι)) : ∀ {store : Store} {row : TaskRow},
    store.tasks.get taskId = some row →
    Assigned taskId row
      (outputs (commitStep db requests) (fun store commit =>
        some (commitAssignments db requests taskId store commit)) store log).flatten
      (log.foldl (commitStep db requests) store) := by
  induction log with
  | nil => exact fun found => ⟨_, found, rfl⟩
  | cons commit log ih =>
      intro store row found
      obtain ⟨next, present, assigned⟩ := assigned_commit found commit
      obtain ⟨final, last, later⟩ := ih present
      refine ⟨final, last, ?_⟩
      rw [later, assigned, outputs, Option.toList_some, List.singleton_append, List.flatten_cons,
        assignAll, assignAll, assignAll, List.foldl_append]

variable [DecidableEq ι]

/-- However the statements of requests interleave, from the moment that a task is there: each of
its columns ends with the value of the last accepted write that assigns it, and with what it held
at that moment where there is none. -/
theorem columns_hold_last_write (start : Store) (schedule : List (Timed ι))
    (before after : List (LoggedWrite ι)) {row : TaskRow}
    (splits : commitLog db requests start schedule = before ++ after)
    (found : (before.foldl (commitStep db requests) start).tasks.get taskId = some row) :
    ∃ final, (schedule.foldl (statementStep db requests) (.init start)).store.tasks.get taskId =
        some final ∧
      ∀ column, final.columns column =
        ((outputs (commitStep db requests) (fun store commit =>
            some (commitAssignments db requests taskId store commit))
          (before.foldl (commitStep db requests) start) after).flatten.reverse.lookup column).getD
          (row.columns column) := by
  obtain ⟨final, last, assigned⟩ := assigned_log after found
  have tables := (writesLogged schedule : WritesLogged db requests start schedule _ _).store
  rw [splits, List.foldl_append] at tables
  refine ⟨final, (congrArg (fun store => store.tasks.get taskId) tables).trans last, fun column => ?_⟩
  rw [assigned, assignAll_eq_last]

end Schedules

def completeAndMove : Bool → Request
  | true => .completeTask 2000 ['a'] none
  | false => .updateTask 2001 ['a'] ⟨{ sort := .given 3 }, by decide⟩ none

def editsInterleaved : List (Timed Bool) :=
  [⟨2000, true⟩, ⟨2001, false⟩, ⟨2002, true⟩, ⟨2003, false⟩]

theorem completeAndMove_hold_last_write :
    ∃ final, (editsInterleaved.foldl (statementStep singleUser completeAndMove)
        (.init oneTask)).store.tasks.get ['a'] = some final ∧
      ∀ column, final.columns column =
        ((outputs (commitStep singleUser completeAndMove) (fun store commit =>
            some (commitAssignments singleUser completeAndMove ['a'] store commit)) oneTask
          (commitLog singleUser completeAndMove oneTask editsInterleaved)).flatten.reverse.lookup
            column).getD ((plainTask ['a'] 1000).columns column) :=
  columns_hold_last_write oneTask editsInterleaved [] _ rfl rfl

end SupernoteTaskService
