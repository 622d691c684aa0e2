import SupernoteTaskService.Repository.Writes

/-!
# Due dates that come back as they were sent

A due is stored in milliseconds of UTC and read back as an instant.  Whole seconds lose
nothing on the way.  The column has zero for no due date, and the reader takes every value
up to zero for that, so a due comes back as the same instant when it lies after the epoch,
and as no due date at all otherwise.
-/

set_option autoImplicit false

namespace SupernoteTaskService

open Foundation

def TaskWrite.due : TaskWrite → Option Datetime
  | .create _ data => data.due
  | .update _ data _ =>
      match data.due with
      | .given due => some due
      | _ => none
  | .setStatus _ _ _ => none
  | .delete _ _ => none

theorem given_of_due {taskId : Text} {data : TaskUpdate} {expected : Option ℤ} {due : Datetime}
    (sent : (TaskWrite.update taskId data expected).due = some due) : data.due = .given due := by
  unfold TaskWrite.due at sent
  dsimp only at sent
  split at sent
  · rename_i value given
    rw [given, Option.some.inj sent]
  · cases sent

theorem TaskWrite.stores_due {db : Database} {store after : Store} {now : ℤ} {write : TaskWrite}
    {due : Datetime} (sent : write.due = some due) (ran : write.run db store now = (true, after))
    {row : TaskRow} (found : after.tasks.get write.taskId = some row) :
    row.dueTime = some (datetimeToMs due) := by
  cases write with
  | create taskId data =>
      have given : data.due = some due := sent
      rw [TaskWrite.row_of_create db store now ran found]
      simp only [newTaskRow, given, dtToMs]
  | update taskId data expected =>
      have given := given_of_due sent
      have something : updateSets data now ≠ [] := by simp [updateSets, given]
      obtain ⟨old, -, rfl⟩ := TaskWrite.row_of_update db store now something ran found
      simp only [updatedRow, given, dtToMs]
  | setStatus taskId status expected => cases sent
  | delete taskId expected => cases sent

/-! ## There and back -/

def Datetime.WholeSeconds (dt : Datetime) : Prop := 1000000 ∣ dt.timestampMicros

/-- The instant lies in the years 1 to 9999 of UTC. -/
def Datetime.InYears (dt : Datetime) : Prop :=
  minWall ≤ dt.timestampMicros ∧ dt.timestampMicros ≤ maxWall

section Conversion
variable {due : Datetime}

theorem datetimeToMs_exact (whole : due.WholeSeconds) :
    datetimeToMs due * 1000 = due.timestampMicros := by
  obtain ⟨seconds, isWhole⟩ := whole
  have thousands : due.timestampMicros = 1000 * (1000 * seconds) := by omega
  rw [datetimeToMs, thousands, Int.mul_tdiv_cancel_left _ (by decide), mul_comm]

theorem msToDatetime_of_not_pos {ms : ℤ} (notAfter : ms ≤ 0) :
    msToDatetime (some ms) = .ok none := by
  rw [msToDatetime, Option.getD_some, if_pos notAfter]

/-- After the epoch the column reads as its instant, within the years 1 to 9999. -/
theorem msToDatetime_of_pos {ms : ℤ} (after : 0 < ms) (inYears : ms * 1000 ≤ maxWall) :
    ∃ shown, msToDatetime (some ms) = .ok (some shown) ∧ shown.timestampMicros = ms * 1000 := by
  have range : minWall ≤ ms * 1000 ∧ ms * 1000 ≤ maxWall := by
    refine ⟨?_, inYears⟩
    unfold minWall
    omega
  rw [msToDatetime, Option.getD_some, if_neg (not_le.mpr after), fromTimestampMs, dif_pos range]
  exact ⟨_, rfl, sub_zero _⟩

theorem due_read_back (whole : due.WholeSeconds) (inYears : due.InYears) :
    ∃ shown, msToDatetime (some (datetimeToMs due)) = .ok shown ∧
      ((∃ instant, shown = some instant ∧ instant.timestampMicros = due.timestampMicros) ↔
        0 < due.timestampMicros) := by
  have exact_ := datetimeToMs_exact whole
  by_cases after : 0 < due.timestampMicros
  · have positive : 0 < datetimeToMs due := by omega
    obtain ⟨shown, read, same⟩ := msToDatetime_of_pos positive (exact_.trans_le inYears.2)
    exact ⟨some shown, read, iff_of_true ⟨shown, rfl, same.trans exact_⟩ after⟩
  · refine ⟨none, msToDatetime_of_not_pos (by omega), iff_of_false ?_ after⟩
    rintro ⟨instant, isNone, -⟩
    cases isNone

end Conversion

/-- After a write that sends a due of whole seconds, the due column can be read, and every
task that the row is mapped to has the same instant as its due exactly when that instant
lies after the epoch. -/
theorem due_round_trips_iff (db : Database) (store : Store) (now : ℤ) (write : TaskWrite)
    {due : Datetime} {after : Store} {row : TaskRow} (sent : write.due = some due)
    (whole : due.WholeSeconds) (inYears : due.InYears)
    (ran : write.run db store now = (true, after))
    (found : after.tasks.get write.taskId = some row) :
    ∃ shown, msToDatetime (some (row.dueTime.getD 0)) = .ok shown ∧
      (∀ task, after.task db row = .ok task → task.due = shown) ∧
      ((∃ instant, shown = some instant ∧ instant.timestampMicros = due.timestampMicros) ↔
        0 < due.timestampMicros) := by
  obtain ⟨shown, read, iff_⟩ := due_read_back whole inYears
  have stored : some (row.dueTime.getD 0) = some (datetimeToMs due) := by
    rw [write.stores_due sent ran found, Option.getD_some]
  refine ⟨shown, by rw [stored]; exact read, fun task mapped => ?_, iff_⟩
  obtain ⟨documentLink, -, status, -, due', dueMapped, completed, -, rfl⟩ :=
    rowToTask_eq_ok_iff.mp mapped
  have sameColumn : msToDatetime (some (row.dueTime.getD 0)) = .ok due' := dueMapped
  rw [stored, read] at sameColumn
  exact (Except.ok.inj sameColumn).symm

def midnight (day : ℤ) (inYears : minWall ≤ day * microsPerDay ∧ day * microsPerDay ≤ maxWall) :
    Datetime where
  wall := day * microsPerDay
  utcoffset := none
  wallRange := inYears
  offsetRange := fun _ isOffset => by cases isOffset

theorem summer_inYears :
    minWall ≤ 20629 * microsPerDay ∧ 20629 * microsPerDay ≤ maxWall := by
  decide

def dueInSummer : TaskCreate := { titleOnly with due := some (midnight 20629 summer_inYears) }

theorem dueInSummer_comes_back :
    ∃ shown, msToDatetime (some ((newTaskRow singleUser .empty ['a'] 1000 dueInSummer).dueTime.getD
        0)) = .ok shown ∧
      (∀ task, Store.task singleUser
        ⟨⟨[newTaskRow singleUser .empty ['a'] 1000 dueInSummer], by decide⟩, .empty⟩
        (newTaskRow singleUser .empty ['a'] 1000 dueInSummer) = .ok task →
          task.due = shown) ∧
      ((∃ instant, shown = some instant ∧
          instant.timestampMicros = (midnight 20629 summer_inYears).timestampMicros) ↔
        0 < (midnight 20629 summer_inYears).timestampMicros) :=
  due_round_trips_iff singleUser .empty 1000 (.create ['a'] dueInSummer) rfl
    (by decide : (1000000 : ℤ) ∣ 20629 * microsPerDay - 0) ⟨by decide, by decide⟩ rfl rfl

/-- The last day before the epoch is stored, and read back as no due date. -/
theorem due_before_epoch_lost :
    ¬ ∀ (write : TaskWrite) (due : Datetime) (after : Store) (row : TaskRow) (task : Task),
      write.due = some due → due.WholeSeconds → due.InYears →
      write.run singleUser .empty 1000 = (true, after) →
      after.tasks.get write.taskId = some row → after.task singleUser row = .ok task →
      ∃ instant, task.due = some instant ∧ instant.timestampMicros = due.timestampMicros := by
  intro always
  have survives := always
    (.create ['a'] { title := titleT, due := some (midnight (-1) (by decide)) }) _ _ _ _ rfl
    (by decide : (1000000 : ℤ) ∣ -1 * microsPerDay - 0) ⟨by decide, by decide⟩ rfl rfl rfl
  obtain ⟨instant, isDue, -⟩ := survives
  cases isDue

end SupernoteTaskService
