import SupernoteTaskService.Repository.Tasks

/-!
# The statement of a partial update

`update_task` collects its columns in one list and the values of their placeholders in
another, and appends the values of the `WHERE` clause to the second.  The driver binds the
values to the placeholders by position.  The two lists stay aligned, so the statement is
the one that `updateTask` executes.
-/

set_option autoImplicit false

namespace SupernoteTaskService

open Foundation

inductive SqlValue where
  | null
  | text (value : Text)
  | int (value : ℤ)
  deriving DecidableEq

/-- A `column = %s` of the `SET` list. -/
inductive Column where
  | title
  | detail
  | status
  | completedTime
  | importance
  | dueTime
  | sort
  | taskListId
  | links
  | lastModified
  deriving DecidableEq

def Column.bind : Column → SqlValue → Option TaskSet
  | .title, .text value => some (.title value)
  | .detail, .text value => some (.detail value)
  | .status, .text value => some (.status value)
  | .completedTime, .int value => some (.completedTime value)
  | .importance, .text value => some (.importance (some value))
  | .importance, .null => some (.importance none)
  | .dueTime, .int value => some (.dueTime value)
  | .sort, .int value => some (.sort value)
  | .taskListId, .text value => some (.taskListId (some value))
  | .taskListId, .null => some (.taskListId none)
  | .links, .text value => some (.links (some value))
  | .links, .null => some (.links none)
  | .lastModified, .int value => some (.lastModified value)
  | _, _ => none

/-- `UPDATE t_schedule_task SET ... WHERE task_id = %s AND user_id = %s AND is_deleted = 'N'`,
with `AND last_modified = %s` where it is versioned. -/
structure UpdateStatement where
  sets : List Column
  versioned : Bool
  params : List SqlValue
  deriving DecidableEq

def bindSets : List Column → List SqlValue → Option (List TaskSet × List SqlValue)
  | [], params => some ([], params)
  | _ :: _, [] => none
  | column :: columns, value :: params => do
      let set ← column.bind value
      let (sets, rest) ← bindSets columns params
      return (set :: sets, rest)

def UpdateStatement.execute (statement : UpdateStatement) (db : Database) (store : Store) :
    Option (Bool × Store) := do
  let (sets, rest) ← bindSets statement.sets statement.params
  match statement.versioned, rest with
  | false, [.text taskId, .int userId] =>
      some (executeTaskUpdate { db with userId := userId } store none sets taskId)
  | true, [.text taskId, .int userId, .int expected] =>
      some (executeTaskUpdate { db with userId := userId } store (some expected) sets taskId)
  | _, _ => none

/-! ## The two lists -/

section Lists
variable (data : TaskUpdate) (statusNow : ℤ)

/-- `sets`, before the stamp. -/
def updateColumns : List Column :=
  (match data.title with
    | .given _ => [.title]
    | _ => []) ++
  (match data.detail with
    | .given _ => [.detail]
    | _ => []) ++
  (match data.status with
    | .given _ => [.status, .completedTime]
    | _ => []) ++
  (match data.importance with
    | .omitted => []
    | _ => [.importance]) ++
  (match data.due with
    | .omitted => []
    | _ => [.dueTime]) ++
  (match data.sort with
    | .given _ => [.sort]
    | _ => []) ++
  (match data.listId with
    | .omitted => []
    | _ => [.taskListId]) ++
  (match data.documentLink with
    | .omitted => []
    | _ => [.links])

/-- `params`, before the stamp and the `WHERE` clause. -/
def updateParams : List SqlValue :=
  (match data.title with
    | .given title => [.text (encodeEmoji title.text)]
    | _ => []) ++
  (match data.detail with
    | .given detail => [.text (encodeDetail detail.text)]
    | _ => []) ++
  (match data.status with
    | .given status =>
        [.text status.value, .int (if status = .completed then statusNow else 0)]
    | _ => []) ++
  (match data.importance with
    | .given importance => [.text (pythonStr importance.value)]
    | .null => [.null]
    | .omitted => []) ++
  (match data.due with
    | .given due => [.int (dtToMs (some due))]
    | .null => [.int (dtToMs none)]
    | .omitted => []) ++
  (match data.sort with
    | .given sort => [.int sort]
    | _ => []) ++
  (match data.listId with
    | .given listId => [.text listId.value]
    | .null => [.null]
    | .omitted => []) ++
  (match data.documentLink with
    | .given link => [.text (encodeDocumentLink (linkPayload link))]
    | .null => [.null]
    | .omitted => [])

def updateStatement (db : Database) (now : ℤ) (taskId : Text)
    (expectedLastModified : Option ℤ) : UpdateStatement where
  sets := updateColumns data ++ [.lastModified]
  versioned := expectedLastModified.isSome
  params := updateParams data statusNow ++ [.int now] ++ [.text taskId] ++ [.int db.userId] ++
    expectedLastModified.toList.map SqlValue.int

end Lists

/-! ## Alignment -/

theorem bindSets_append (columns columns' : List Column) (params : List SqlValue) :
    bindSets (columns ++ columns') params = (bindSets columns params).bind fun bound =>
      (bindSets columns' bound.2).map fun more => (bound.1 ++ more.1, more.2) := by
  induction columns generalizing params with
  | nil => simp [bindSets]
  | cons column columns ih =>
      cases params with
      | nil => rfl
      | cons value params =>
          simp only [List.cons_append, bindSets, ih, Option.bind_eq_bind]
          cases column.bind value with
          | none => rfl
          | some set =>
              cases bindSets columns params with
              | none => rfl
              | some bound =>
                  simp only [Option.bind_some, pure]
                  cases bindSets columns' bound.2 with
                  | none => rfl
                  | some more => rfl

def Aligned (columns : List Column) (params : List SqlValue) (sets : List TaskSet) : Prop :=
  ∀ rest, bindSets columns (params ++ rest) = some (sets, rest)

theorem aligned_nil : Aligned [] [] [] := by
  intro rest
  rfl

theorem aligned_single {column : Column} {value : SqlValue} {set : TaskSet}
    (bound : column.bind value = some set) : Aligned [column] [value] [set] := by
  intro rest
  simp [bindSets, bound]

theorem Aligned.append {columns columns' : List Column} {params params' : List SqlValue}
    {sets sets' : List TaskSet} (first : Aligned columns params sets)
    (second : Aligned columns' params' sets') :
    Aligned (columns ++ columns') (params ++ params') (sets ++ sets') := by
  intro rest
  rw [bindSets_append, List.append_assoc, first, Option.bind_some, second, Option.map_some]

/-- Field by field, each column gets the value that belongs to it. -/
theorem aligned_update (data : TaskUpdate) (statusNow : ℤ) :
    Aligned (updateColumns data) (updateParams data statusNow) (updateSets data statusNow) := by
  unfold updateColumns updateParams updateSets
  apply Aligned.append
  · apply Aligned.append
    · apply Aligned.append
      · apply Aligned.append
        · apply Aligned.append
          · apply Aligned.append
            · apply Aligned.append
              · cases data.title with
                | omitted => exact aligned_nil
                | null => exact aligned_nil
                | given title => exact aligned_single rfl
              · cases data.detail with
                | omitted => exact aligned_nil
                | null => exact aligned_nil
                | given detail => exact aligned_single rfl
            · cases data.status with
              | omitted => exact aligned_nil
              | null => exact aligned_nil
              | given status => exact (aligned_single rfl).append (aligned_single rfl)
          · cases data.importance with
            | omitted => exact aligned_nil
            | null => exact aligned_single rfl
            | given importance => exact aligned_single rfl
        · cases data.due with
          | omitted => exact aligned_nil
          | null => exact aligned_single rfl
          | given due => exact aligned_single rfl
      · cases data.sort with
        | omitted => exact aligned_nil
        | null => exact aligned_nil
        | given sort => exact aligned_single rfl
    · cases data.listId with
      | omitted => exact aligned_nil
      | null => exact aligned_single rfl
      | given listId => exact aligned_single rfl
  · cases data.documentLink with
    | omitted => exact aligned_nil
    | null => exact aligned_single rfl
    | given link => exact aligned_single rfl

/-- The driver executes the update that the model does, on the row of the id. -/
theorem updateStatement_execute (db : Database) (store : Store) (data : TaskUpdate)
    (statusNow now : ℤ) (taskId : Text) (expectedLastModified : Option ℤ) :
    (updateStatement data statusNow db now taskId expectedLastModified).execute db store =
      some (executeTaskUpdate db store expectedLastModified
        (updateSets data statusNow ++ [.lastModified now]) taskId) := by
  have stamped : Aligned (updateColumns data ++ [.lastModified])
      (updateParams data statusNow ++ [.int now]) (updateSets data statusNow ++ [.lastModified now]) :=
    (aligned_update data statusNow).append (aligned_single rfl)
  have bound := stamped
    ([.text taskId, .int db.userId] ++ expectedLastModified.toList.map SqlValue.int)
  unfold UpdateStatement.execute updateStatement
  simp only [List.append_assoc, List.cons_append, List.nil_append] at bound ⊢
  rw [bound]
  cases expectedLastModified with
  | none => rfl
  | some expected => rfl

end SupernoteTaskService
