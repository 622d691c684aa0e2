import SupernoteTaskService.Repository.Statements
import SupernoteTaskService.Writes.Outcomes

/-!
# What a partial update changes

A field that is sent counts, unless it is a null that its column does not take: a null
title, detail, status or position is dropped.  An update changes the columns of the fields
that count and the stamp, so updates of different fields do not see each other.
-/

set_option autoImplicit false

namespace SupernoteTaskService

open Foundation

/-! ## The fields that count -/

inductive TaskField where
  | title
  | detail
  | listId
  | status
  | importance
  | due
  | sort
  | documentLink
  deriving DecidableEq

def Field.isGiven {α : Type} : Field α → Bool
  | .given _ => true
  | _ => false

def Field.isPresent {α : Type} : Field α → Bool
  | .omitted => false
  | _ => true

/-- The present fields, except title, detail, status and sort when they are null. -/
def TaskUpdate.effective (data : TaskUpdate) : TaskField → Bool
  | .title => data.title.isGiven
  | .detail => data.detail.isGiven
  | .listId => data.listId.isPresent
  | .status => data.status.isGiven
  | .importance => data.importance.isPresent
  | .due => data.due.isPresent
  | .sort => data.sort.isGiven
  | .documentLink => data.documentLink.isPresent

/-- The columns of a field hold what the update sends for it, at the time `now`. -/
def TaskUpdate.Holds (data : TaskUpdate) (now : ℤ) (row : TaskRow) : TaskField → Prop
  | .title => ∃ title, data.title = .given title ∧ row.title = some (encodeEmoji title.text)
  | .detail => ∃ detail, data.detail = .given detail ∧ row.detail = some (encodeDetail detail.text)
  | .listId => (∃ listId, data.listId = .given listId ∧ row.taskListId = some listId.value) ∨
      data.listId = .null ∧ row.taskListId = none
  | .status => ∃ status, data.status = .given status ∧ row.status = some status.value ∧
      row.completedTime = some (if status = .completed then now else 0)
  | .importance => (∃ importance, data.importance = .given importance ∧
        row.importance = some (pythonStr importance.value)) ∨
      data.importance = .null ∧ row.importance = none
  | .due => (∃ due, data.due = .given due ∧ row.dueTime = some (datetimeToMs due)) ∨
      data.due = .null ∧ row.dueTime = some 0
  | .sort => ∃ sort, data.sort = .given sort ∧ row.sort = some (sort : ℤ)
  | .documentLink => (∃ link, data.documentLink = .given link ∧
        row.links = some (encodeDocumentLink (linkPayload link))) ∨
      data.documentLink = .null ∧ row.links = none

def TaskField.Same (before after : TaskRow) : TaskField → Prop
  | .title => after.title = before.title
  | .detail => after.detail = before.detail
  | .listId => after.taskListId = before.taskListId
  | .status => after.status = before.status ∧ after.completedTime = before.completedTime
  | .importance => after.importance = before.importance
  | .due => after.dueTime = before.dueTime
  | .sort => after.sort = before.sort
  | .documentLink => after.links = before.links

def TaskRow.elsewhere (row : TaskRow) : TaskRow :=
  { row with
    title := none
    detail := none
    taskListId := none
    status := none
    completedTime := none
    importance := none
    dueTime := none
    sort := none
    links := none
    lastModified := none }

/-- The row after an update at the time `now`. -/
structure Patched (data : TaskUpdate) (now : ℤ) (before after : TaskRow) : Prop where
  stamped : after.lastModified = some now
  holds : ∀ field, data.effective field = true → data.Holds now after field
  keeps : ∀ field, data.effective field = false → field.Same before after
  elsewhere : after.elsewhere = before.elsewhere

/-! ## One row -/

section Fields
variable {α : Type} {field : Field α}

theorem Field.isGiven_iff : field.isGiven = true ↔ ∃ value, field = .given value := by
  cases field <;> simp [Field.isGiven]

theorem Field.isGiven_eq_false_iff : field.isGiven = false ↔ field = .omitted ∨ field = .null := by
  cases field <;> simp [Field.isGiven]

theorem Field.isPresent_iff :
    field.isPresent = true ↔ (∃ value, field = .given value) ∨ field = .null := by
  cases field <;> simp [Field.isPresent]

theorem Field.isPresent_eq_false_iff : field.isPresent = false ↔ field = .omitted := by
  cases field <;> simp [Field.isPresent]

end Fields

theorem updatedRow_holds (data : TaskUpdate) (now : ℤ) (row : TaskRow) (field : TaskField)
    (counts : data.effective field = true) :
    data.Holds now (updatedRow data now now row) field := by
  cases field with
  | title =>
      obtain ⟨title, sent⟩ := Field.isGiven_iff.mp counts
      exact ⟨title, sent, by simp only [updatedRow, sent]⟩
  | detail =>
      obtain ⟨detail, sent⟩ := Field.isGiven_iff.mp counts
      exact ⟨detail, sent, by simp only [updatedRow, sent]⟩
  | listId =>
      apply (Field.isPresent_iff.mp counts).imp
      · intro ⟨listId, sent⟩
        exact ⟨listId, sent, by simp only [updatedRow, sent]⟩
      · intro sent
        exact ⟨sent, by simp only [updatedRow, sent]⟩
  | status =>
      obtain ⟨status, sent⟩ := Field.isGiven_iff.mp counts
      exact ⟨status, sent, by simp only [updatedRow, sent], by simp only [updatedRow, sent]⟩
  | importance =>
      apply (Field.isPresent_iff.mp counts).imp
      · intro ⟨importance, sent⟩
        exact ⟨importance, sent, by simp only [updatedRow, sent]⟩
      · intro sent
        exact ⟨sent, by simp only [updatedRow, sent]⟩
  | due =>
      apply (Field.isPresent_iff.mp counts).imp
      · intro ⟨due, sent⟩
        exact ⟨due, sent, by simp only [updatedRow, sent, dtToMs]⟩
      · intro sent
        exact ⟨sent, by simp only [updatedRow, sent, dtToMs]⟩
  | sort =>
      obtain ⟨sort, sent⟩ := Field.isGiven_iff.mp counts
      exact ⟨sort, sent, by simp only [updatedRow, sent]⟩
  | documentLink =>
      apply (Field.isPresent_iff.mp counts).imp
      · intro ⟨link, sent⟩
        exact ⟨link, sent, by simp only [updatedRow, sent]⟩
      · intro sent
        exact ⟨sent, by simp only [updatedRow, sent]⟩

theorem updatedRow_same (data : TaskUpdate) (now : ℤ) (row : TaskRow) (field : TaskField)
    (dropped : data.effective field = false) : field.Same row (updatedRow data now now row) := by
  cases field with
  | title =>
      cases Field.isGiven_eq_false_iff.mp dropped with
      | inl sent => simp only [TaskField.Same, updatedRow, sent]
      | inr sent => simp only [TaskField.Same, updatedRow, sent]
  | detail =>
      cases Field.isGiven_eq_false_iff.mp dropped with
      | inl sent => simp only [TaskField.Same, updatedRow, sent]
      | inr sent => simp only [TaskField.Same, updatedRow, sent]
  | listId =>
      have sent := Field.isPresent_eq_false_iff.mp dropped
      simp only [TaskField.Same, updatedRow, sent]
  | status =>
      cases Field.isGiven_eq_false_iff.mp dropped with
      | inl sent => simp only [TaskField.Same, updatedRow, sent, and_self]
      | inr sent => simp only [TaskField.Same, updatedRow, sent, and_self]
  | importance =>
      have sent := Field.isPresent_eq_false_iff.mp dropped
      simp only [TaskField.Same, updatedRow, sent]
  | due =>
      have sent := Field.isPresent_eq_false_iff.mp dropped
      simp only [TaskField.Same, updatedRow, sent]
  | sort =>
      cases Field.isGiven_eq_false_iff.mp dropped with
      | inl sent => simp only [TaskField.Same, updatedRow, sent]
      | inr sent => simp only [TaskField.Same, updatedRow, sent]
  | documentLink =>
      have sent := Field.isPresent_eq_false_iff.mp dropped
      simp only [TaskField.Same, updatedRow, sent]

theorem patched_updatedRow (data : TaskUpdate) (now : ℤ) (row : TaskRow) :
    Patched data now row (updatedRow data now now row) where
  stamped := rfl
  holds := updatedRow_holds data now row
  keeps := updatedRow_same data now row
  elsewhere := rfl

/-! ## Two rows -/

section Rows
variable {data other : TaskUpdate} {now : ℤ} {first second third : TaskRow} {field : TaskField}

theorem TaskField.Same.symm (same : field.Same first second) : field.Same second first := by
  cases field with
  | status => exact ⟨same.1.symm, same.2.symm⟩
  | _ => exact Eq.symm same

theorem TaskField.Same.trans (same : field.Same first second) (next : field.Same second third) :
    field.Same first third := by
  cases field with
  | status => exact ⟨next.1.trans same.1, next.2.trans same.2⟩
  | _ => exact Eq.trans next same

theorem TaskUpdate.Holds.same (inFirst : data.Holds now first field)
    (inSecond : data.Holds now second field) : field.Same first second := by
  cases field with
  | title =>
      obtain ⟨title, sent, held⟩ := inFirst
      obtain ⟨title', sent', held'⟩ := inSecond
      cases sent.symm.trans sent'
      exact held'.trans held.symm
  | detail =>
      obtain ⟨detail, sent, held⟩ := inFirst
      obtain ⟨detail', sent', held'⟩ := inSecond
      cases sent.symm.trans sent'
      exact held'.trans held.symm
  | status =>
      obtain ⟨status, sent, held, completed⟩ := inFirst
      obtain ⟨status', sent', held', completed'⟩ := inSecond
      cases sent.symm.trans sent'
      exact ⟨held'.trans held.symm, completed'.trans completed.symm⟩
  | sort =>
      obtain ⟨sort, sent, held⟩ := inFirst
      obtain ⟨sort', sent', held'⟩ := inSecond
      cases sent.symm.trans sent'
      exact held'.trans held.symm
  | listId | importance | due | documentLink =>
      rcases inFirst with ⟨value, sent, held⟩ | ⟨sent, held⟩ <;>
        rcases inSecond with ⟨value', sent', held'⟩ | ⟨sent', held'⟩ <;>
        cases sent.symm.trans sent' <;>
        exact held'.trans held.symm

theorem Patched.same {first' second' : TaskRow} (left : Patched data now first first')
    (right : Patched data now second second') (same : field.Same first second) :
    field.Same first' second' := by
  cases counts : data.effective field with
  | true => exact (left.holds field counts).same (right.holds field counts)
  | false => exact ((left.keeps field counts).symm.trans same).trans (right.keeps field counts)

theorem row_eq_of_same (fields : ∀ field : TaskField, field.Same first second)
    (stamp : second.lastModified = first.lastModified)
    (rest : second.elsewhere = first.elsewhere) : second = first := by
  have title : second.title = first.title := fields .title
  have detail : second.detail = first.detail := fields .detail
  have listId : second.taskListId = first.taskListId := fields .listId
  obtain ⟨status, completed⟩ := fields .status
  have importance : second.importance = first.importance := fields .importance
  have due : second.dueTime = first.dueTime := fields .due
  have sort : second.sort = first.sort := fields .sort
  have links : second.links = first.links := fields .documentLink
  cases first
  cases second
  simp only [TaskRow.elsewhere, TaskRow.mk.injEq] at *
  tauto

/-- The description of a patched row leaves nothing open. -/
theorem Patched.unique {row : TaskRow} (left : Patched data now row first)
    (right : Patched data now row second) : second = first := by
  apply row_eq_of_same
  · intro field
    apply left.same right
    cases field with
    | status => exact ⟨rfl, rfl⟩
    | _ => exact Eq.refl _
  · rw [left.stamped, right.stamped]
  · rw [left.elsewhere, right.elsewhere]

/-- Updates that count different fields lead to the same row in either order. -/
theorem Patched.comm {row first' second' : TaskRow}
    (apart : ∀ field, data.effective field = false ∨ other.effective field = false)
    (step : Patched data now row first) (then_ : Patched other now first first')
    (otherStep : Patched other now row second) (otherThen : Patched data now second second') :
    first' = second' := by
  apply row_eq_of_same
  · intro field
    cases apart field with
    | inl dropped =>
        have kept := otherThen.keeps field dropped
        exact kept.symm.trans (otherStep.same then_ (step.keeps field dropped))
    | inr dropped =>
        have kept := then_.keeps field dropped
        exact (step.same otherThen (otherStep.keeps field dropped)).symm.trans kept
  · rw [then_.stamped, otherThen.stamped]
  · rw [then_.elsewhere, step.elsewhere, otherThen.elsewhere, otherStep.elsewhere]

end Rows

/-! ## The statement -/

theorem TaskField.forall_iff {P : TaskField → Prop} :
    (∀ field, P field) ↔ P .title ∧ P .detail ∧ P .status ∧ P .importance ∧ P .due ∧ P .sort ∧
      P .listId ∧ P .documentLink := by
  constructor
  · intro all
    exact ⟨all _, all _, all _, all _, all _, all _, all _, all _⟩
  · intro ⟨ofTitle, ofDetail, ofStatus, ofImportance, ofDue, ofSort, ofList, ofLink⟩ field
    cases field <;> assumption

theorem updateSets_eq_nil_iff (data : TaskUpdate) (statusNow : ℤ) :
    updateSets data statusNow = [] ↔ ∀ field, data.effective field = false := by
  rw [TaskField.forall_iff]
  simp only [updateSets, List.append_eq_nil_iff, and_assoc, TaskUpdate.effective]
  apply and_congr
  · cases data.title <;> simp [Field.isGiven]
  apply and_congr
  · cases data.detail <;> simp [Field.isGiven]
  apply and_congr
  · cases data.status <;> simp [Field.isGiven]
  apply and_congr
  · cases data.importance <;> simp [Field.isPresent]
  apply and_congr
  · cases data.due <;> simp [Field.isPresent]
  apply and_congr
  · cases data.sort <;> simp [Field.isGiven]
  apply and_congr
  · cases data.listId <;> simp [Field.isPresent]
  · cases data.documentLink <;> simp [Field.isPresent]

theorem patchedRow_cases (data : TaskUpdate) (now : ℤ) :
    ((∀ field, data.effective field = false) ∧ ∀ row, patchedRow data now now row = row) ∨
      ∀ row, Patched data now row (patchedRow data now now row) := by
  unfold patchedRow
  rw [← updateSets_eq_nil_iff data now]
  by_cases nothing : updateSets data now = []
  · left
    exact ⟨nothing, fun row => if_pos nothing⟩
  · right
    intro row
    rw [if_neg nothing]
    exact patched_updatedRow data now row

theorem patchedRow_comm {data other : TaskUpdate} (now : ℤ)
    (apart : ∀ field, data.effective field = false ∨ other.effective field = false)
    (row : TaskRow) :
    patchedRow other now now (patchedRow data now now row) =
      patchedRow data now now (patchedRow other now now row) := by
  cases patchedRow_cases data now with
  | inl nothing => rw [nothing.2, nothing.2]
  | inr patched =>
      cases patchedRow_cases other now with
      | inl nothing => rw [nothing.2, nothing.2]
      | inr otherPatched =>
          exact Patched.comm apart (patched row) (otherPatched _) (otherPatched row) (patched _)

theorem taskTarget_patchedRow (db : Database) (taskId : Text) (data : TaskUpdate) (now : ℤ)
    (row : TaskRow) :
    taskTarget db none taskId (patchedRow data now now row) = taskTarget db none taskId row := by
  unfold patchedRow
  split
  · rfl
  · rfl

section Tables
variable {db : Database} {store : Store} {now : ℤ} {taskId : Text} {data : TaskUpdate}

theorem updateTask_rows (expected : Option ℤ) :
    (updateTask db store now now taskId data expected).2.tasks.rows =
      store.tasks.rows.map fun row =>
        if taskTarget db expected taskId row then patchedRow data now now row else row := by
  unfold patchedRow
  by_cases nothing : updateSets data now = []
  · rw [updateTask_of_no_sets db store now now nothing]
    simp [nothing]
  · rw [updateTask_of_sets db store now now nothing]
    simp only [nothing, if_false, ← assign_updateSets]
    rfl

theorem updateTask_lists (expected : Option ℤ) :
    (updateTask db store now now taskId data expected).2.lists = store.lists := by
  by_cases nothing : updateSets data now = []
  · rw [updateTask_of_no_sets db store now now nothing]
  · rw [updateTask_of_sets db store now now nothing]
    rfl

theorem Store.ext_rows {left right : Store} (tasks : left.tasks.rows = right.tasks.rows)
    (lists : left.lists = right.lists) : left = right := by
  obtain ⟨⟨leftRows, _⟩, _⟩ := left
  obtain ⟨⟨rightRows, _⟩, _⟩ := right
  cases tasks
  cases lists
  rfl

/-- Updates that count different fields lead to the same tables in either order. -/
theorem updateTask_comm {other : TaskUpdate}
    (apart : ∀ field, data.effective field = false ∨ other.effective field = false) :
    (updateTask db (updateTask db store now now taskId data none).2 now now taskId other none).2 =
      (updateTask db (updateTask db store now now taskId other none).2 now now taskId data
        none).2 := by
  apply Store.ext_rows
  · simp only [updateTask_rows, List.map_map]
    apply List.map_congr_left
    intro row _
    simp only [Function.comp_apply]
    by_cases isTarget : taskTarget db none taskId row = true
    · simp only [isTarget, if_true, taskTarget_patchedRow, patchedRow_comm now apart row]
    · simp only [isTarget, if_false, Bool.false_eq_true]
  · simp only [updateTask_lists]

variable (now) in
theorem updateTask_patches {row : TaskRow} {expected : Option ℤ}
    (found : activeTask db store taskId = some row)
    (matched : versionMatches expected row.lastModified = true)
    (counts : ∃ field, data.effective field = true) :
    (updateStatement data now db now taskId expected).execute db store =
        some (updateTask db store now now taskId data expected) ∧
      ∀ k, (updateTask db store now now taskId data expected).2.tasks.get k =
        if k = taskId then some (updatedRow data now now row) else store.tasks.get k := by
  have something : updateSets data now ≠ [] := by
    rw [Ne, updateSets_eq_nil_iff]
    intro dropped
    obtain ⟨field, isEffective⟩ := counts
    rw [dropped field] at isEffective
    cases isEffective
  obtain ⟨stored, active⟩ := activeTask_eq_some_iff.mp found
  rw [updateTask_of_sets db store now now something]
  constructor
  · exact updateStatement_execute db store data now now taskId expected
  · intro k
    rw [executeTaskUpdate_matched _ stored active matched, assign_updateSets]

end Tables

/-- An update changes exactly what it names: without a field that counts nothing, otherwise
the stamp and the columns of the fields that count, in the one row of the id; and updates
that count different fields commute. -/
theorem patch_changes_what_it_names (db : Database) (store : Store) (now : ℤ) (taskId : Text)
    (data : TaskUpdate) (expected : Option ℤ) (row : TaskRow)
    (found : activeTask db store taskId = some row)
    (matched : versionMatches expected row.lastModified = true) :
    ((∀ field, data.effective field = false) →
      (updateTask db store now now taskId data expected).2 = store) ∧
    ((∃ field, data.effective field = true) →
      (updateStatement data now db now taskId expected).execute db store =
          some (updateTask db store now now taskId data expected) ∧
        ∃ after, Patched data now row after ∧
          (∀ other, Patched data now row other → other = after) ∧
          ∀ k, (updateTask db store now now taskId data expected).2.tasks.get k =
            if k = taskId then some after else store.tasks.get k) ∧
    (updateTask db store now now taskId data expected).2.lists = store.lists ∧
    ∀ other : TaskUpdate,
      (∀ field, data.effective field = false ∨ other.effective field = false) →
      (updateTask db (updateTask db store now now taskId data none).2 now now taskId other none).2 =
        (updateTask db (updateTask db store now now taskId other none).2 now now taskId data
          none).2 := by
  refine ⟨?_, ?_, updateTask_lists expected, fun other apart => updateTask_comm apart⟩
  · intro dropped
    exact updateTask_of_no_sets db store now now ((updateSets_eq_nil_iff data now).mpr dropped)
  · intro counts
    obtain ⟨executed, frame⟩ := updateTask_patches now found matched counts
    have patched := patched_updatedRow data now row
    exact ⟨executed, _, patched, fun other otherPatched => patched.unique otherPatched, frame⟩

/-- Completing a task. -/
theorem oneTask_completed_patched :
    ∃ after, Patched (.ofStatus .completed) 5000 (plainTask ['a'] 1000) after ∧
      (updateTask singleUser oneTask 5000 5000 ['a'] (.ofStatus .completed) none).2.tasks.get ['a'] =
        some after := by
  obtain ⟨-, patches, -⟩ := patch_changes_what_it_names singleUser oneTask 5000 ['a']
    (.ofStatus .completed) none (plainTask ['a'] 1000) rfl rfl
  obtain ⟨-, after, patched, -, frame⟩ := patches ⟨.status, rfl⟩
  exact ⟨after, patched, frame ['a']⟩

end SupernoteTaskService
