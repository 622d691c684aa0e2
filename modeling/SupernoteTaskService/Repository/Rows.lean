import SupernoteTaskService.Foundation.Fallible
import SupernoteTaskService.Models
import SupernoteTaskService.Store

/-!
# From rows to responses

The mapping helpers of the repository.  A list row always maps.  A task row maps
when its document link, its status and its two instants do, and `rowToTask_ok_iff`
says that nothing else can go wrong.
-/

set_option autoImplicit false

namespace SupernoteTaskService

open Foundation

/-- A task with the `category` column of the joined list. -/
structure JoinedRow where
  task : TaskRow
  category : Text
  deriving DecidableEq

/-- `COALESCE(g.title, 'Inbox')`; the join does not look at the user. -/
def Store.category (store : Store) (taskListId : Option Text) : Text :=
  ((taskListId.bind store.lists.get).bind ListRow.title).getD "Inbox".toList

/-- `LEFT JOIN t_schedule_task_group g ON t.task_list_id = g.task_list_id` -/
def Store.join (store : Store) (row : TaskRow) : JoinedRow :=
  ⟨row, store.category row.taskListId⟩

/-- The importance column is text; what is no number is no importance. -/
def parseImportance (value : Option Text) : Option ℤ :=
  match value with
  | none => none
  | some value => if (strip value).isEmpty then none else pythonInt (strip value)

def documentLinkOf (linkModel : LinkModel) (links : Option Text) :
    Except Raised (Option DocumentLink) :=
  match decodeDocumentLink links with
  | none => .ok none
  | some [] => .ok none
  | some linkData =>
      match linkModel.modelValidate linkData with
      | some documentLink => .ok (some documentLink)
      | none => .error .validationError

def statusOf (value : Option Text) : Except Raised TaskStatus :=
  match TaskStatus.ofValue value with
  | some status => .ok status
  | none => .error .valueError

def taskOf (row : JoinedRow) (documentLink : Option DocumentLink) (status : TaskStatus)
    (due completed : Option Datetime) : Task where
  id := row.task.taskId
  listId := row.task.taskListId
  category := decodeEmoji (some row.category)
  title := decodeEmoji row.task.title
  detail := decodeEmoji (some (row.task.detail.getD []))
  status := status
  importance := parseImportance row.task.importance
  due := due
  completed := completed
  sort := row.task.sort
  lastModified := row.task.lastModified.getD 0
  documentLink := documentLink
  isDeleted := decide (row.task.isDeleted = some YES)

def rowToTask (linkModel : LinkModel) (row : JoinedRow) : Except Raised Task := do
  let documentLink ← documentLinkOf linkModel row.task.links
  let status ← statusOf row.task.status
  let due ← msToDatetime (some (row.task.dueTime.getD 0))
  let completed ← msToDatetime (some (row.task.completedTime.getD 0))
  return taskOf row documentLink status due completed

def rowToList (row : ListRow) : TaskList where
  id := some row.taskListId
  title := decodeEmoji row.title
  lastModified := row.lastModified.getD 0
  isDeleted := decide (row.isDeleted = some YES)

theorem documentLinkOf_encode (linkModel : LinkModel) (link : Option DocumentLink) :
    documentLinkOf linkModel (link.map fun link => encodeDocumentLink (linkPayload link)) =
      .ok link := by
  cases link with
  | none => rfl
  | some link =>
      have decoded : decodeDocumentLink (some (encodeDocumentLink (linkPayload link))) =
          some (linkMembers link) := decodeDocumentLink_encodeDocumentLink (linkPayload link)
      rw [Option.map_some, documentLinkOf, decoded]
      change (match linkModel.modelValidate (linkMembers link) with
        | some link => Except.ok (some link)
        | none => .error Raised.validationError) = _
      rw [linkModel.reads_dump]

def dtToMs (dt : Option Datetime) : ℤ :=
  match dt with
  | some dt => datetimeToMs dt
  | none => 0

/-! ## What a mapped row shows -/

section Mapped
variable {linkModel : LinkModel}

theorem rowToTask_eq_ok_iff {row : JoinedRow} {task : Task} :
    rowToTask linkModel row = .ok task ↔
      ∃ documentLink, documentLinkOf linkModel row.task.links = .ok documentLink ∧
      ∃ status, statusOf row.task.status = .ok status ∧
      ∃ due, msToDatetime (some (row.task.dueTime.getD 0)) = .ok due ∧
      ∃ completed, msToDatetime (some (row.task.completedTime.getD 0)) = .ok completed ∧
        taskOf row documentLink status due completed = task := by
  simp only [rowToTask, bind_eq_ok_iff, pure_eq_ok_iff]

/-- A row that cannot be mapped is no fault of the client. -/
theorem rowToTask_raises (row : JoinedRow) :
    RaisesOnly (fun raised => raised.status = 500) (rowToTask linkModel row) := by
  have ofInstant : ∀ ms, RaisesOnly (fun raised => raised.status = 500) (msToDatetime ms) := by
    intro ms
    unfold msToDatetime
    dsimp only
    split
    · exact raisesOnly_ok _
    · split
      · exact raisesOnly_ok _
      · exact raisesOnly_error rfl
  have ofLink : RaisesOnly (fun raised => raised.status = 500)
      (documentLinkOf linkModel row.task.links) := by
    unfold documentLinkOf
    split
    · exact raisesOnly_ok _
    · exact raisesOnly_ok _
    · split
      · exact raisesOnly_ok _
      · exact raisesOnly_error rfl
  have ofStatus : RaisesOnly (fun raised => raised.status = 500) (statusOf row.task.status) := by
    unfold statusOf
    split
    · exact raisesOnly_ok _
    · exact raisesOnly_error rfl
  unfold rowToTask
  refine ofLink.bind fun documentLink => ofStatus.bind fun status => ?_
  exact (ofInstant _).bind fun due => (ofInstant _).bind fun completed => raisesOnly_ok _

theorem rowToTask_id {row : JoinedRow} {task : Task}
    (mapped : rowToTask linkModel row = .ok task) :
    task.id = row.task.taskId := by
  obtain ⟨documentLink, -, status, -, due, -, completed, -, rfl⟩ := rowToTask_eq_ok_iff.mp mapped
  rfl

theorem rowToTask_lastModified {row : JoinedRow} {task : Task}
    (mapped : rowToTask linkModel row = .ok task) :
    task.lastModified = row.task.lastModified.getD 0 := by
  obtain ⟨documentLink, -, status, -, due, -, completed, -, rfl⟩ := rowToTask_eq_ok_iff.mp mapped
  rfl

theorem rowToTask_isDeleted {row : JoinedRow} {task : Task}
    (mapped : rowToTask linkModel row = .ok task) :
    task.isDeleted = decide (row.task.isDeleted = some YES) := by
  obtain ⟨documentLink, -, status, -, due, -, completed, -, rfl⟩ := rowToTask_eq_ok_iff.mp mapped
  rfl

/-- The four columns that can stop a row from mapping. -/
structure Readable (linkModel : LinkModel) (row : TaskRow) : Prop where
  link : ∃ documentLink, documentLinkOf linkModel row.links = .ok documentLink
  status : ∃ status, statusOf row.status = .ok status
  due : row.dueTime.getD 0 ≤ lastInstantMs
  completed : row.completedTime.getD 0 ≤ lastInstantMs

theorem rowToTask_ok_iff (row : JoinedRow) :
    (∃ task, rowToTask linkModel row = .ok task) ↔ Readable linkModel row.task := by
  constructor
  · intro ⟨task, mapped⟩
    obtain ⟨documentLink, linkMapped, status, statusMapped, due, dueMapped, completed,
      completedMapped, -⟩ := rowToTask_eq_ok_iff.mp mapped
    exact ⟨⟨documentLink, linkMapped⟩, ⟨status, statusMapped⟩,
      (msToDatetime_ok_iff _).mp ⟨due, dueMapped⟩,
      (msToDatetime_ok_iff _).mp ⟨completed, completedMapped⟩⟩
  · intro readable
    obtain ⟨documentLink, linkMapped⟩ := readable.link
    obtain ⟨status, statusMapped⟩ := readable.status
    obtain ⟨due, dueMapped⟩ := (msToDatetime_ok_iff _).mpr readable.due
    obtain ⟨completed, completedMapped⟩ := (msToDatetime_ok_iff _).mpr readable.completed
    exact ⟨_, rowToTask_eq_ok_iff.mpr ⟨documentLink, linkMapped, status, statusMapped, due,
      dueMapped, completed, completedMapped, rfl⟩⟩

end Mapped

end SupernoteTaskService
