import SupernoteTaskService.EmojiTokens
import SupernoteTaskService.Repository.Writes

/-!
# Titles that come back as they were sent

A title is stored encoded and shown decoded, whoever reads the row and by whichever
endpoint: every response maps the row by `Store.task` or `rowToList`.  It comes back
exactly when no decodable token is spelled out in it.
-/

set_option autoImplicit false

namespace SupernoteTaskService

open Foundation

def TaskWrite.title : TaskWrite → Option Text
  | .create _ data => some data.title.text
  | .update _ data _ =>
      match data.title with
      | .given title => some title.text
      | _ => none
  | .setStatus _ _ _ => none
  | .delete _ _ => none

def ListWrite.title : ListWrite → Option Text
  | .create _ title => some title
  | .update _ title _ => some title
  | .delete _ _ => none

theorem given_of_title {taskId title : Text} {data : TaskUpdate} {expected : Option ℤ}
    (sent : (TaskWrite.update taskId data expected).title = some title) :
    ∃ value, data.title = .given value ∧ value.text = title := by
  unfold TaskWrite.title at sent
  dsimp only at sent
  split at sent
  · rename_i value given
    exact ⟨value, given, Option.some.inj sent⟩
  · cases sent

section Stored
variable {db : Database} {store after : Store} {now : ℤ}

theorem TaskWrite.stores_title {write : TaskWrite} {title : Text}
    (sent : write.title = some title) (ran : write.run db store now = (true, after))
    {row : TaskRow} (found : after.tasks.get write.taskId = some row) :
    row.title = some (encodeEmoji title) := by
  cases write with
  | create taskId data =>
      cases sent
      rw [TaskWrite.row_of_create db store now ran found]
      rfl
  | update taskId data expected =>
      obtain ⟨value, given, rfl⟩ := given_of_title sent
      have something : updateSets data now ≠ [] := by simp [updateSets, given]
      obtain ⟨old, -, rfl⟩ := TaskWrite.row_of_update db store now something ran found
      simp only [updatedRow, given]
  | setStatus taskId status expected => cases sent
  | delete taskId expected => cases sent

theorem ListWrite.stores_title {write : ListWrite} {title : Text}
    (sent : write.title = some title) (ran : write.run db store now = (true, after))
    {row : ListRow} (found : after.lists.get write.listId = some row) :
    row.title = some (encodeEmoji title) := by
  have placed : ∀ written, ListEffect db store after now written →
      written.taskListId = write.listId → row = written := by
    intro written effect isKey
    have stored := effect.frame write.listId
    rw [if_pos isKey.symm, found] at stored
    exact Option.some.inj stored
  cases write with
  | create listId title =>
      cases sent
      simp only [ListWrite.run] at ran
      rcases createList_cases db store now listId title with
        ⟨refused, -⟩ | ⟨written, created, -, effect⟩
      · rw [refused] at ran
        cases ran
      · rw [created] at ran
        cases ran
        rw [placed _ effect rfl]
        rfl
  | update listId title expected =>
      cases sent
      rcases stampedListUpdate_cases db store now expected [.title (encodeEmoji title)] listId with
        refused | ⟨old, written, isOld, -, -, executed, effect⟩
      · rw [ListWrite.run, updateList] at ran
        rw [List.singleton_append] at refused
        rw [refused] at ran
        cases ran
      · rw [ListWrite.run, updateList] at ran
        rw [List.singleton_append] at executed
        rw [executed] at ran
        cases ran
        have isKey := ((store.lists.get_eq_some_iff listId old).mp isOld).2
        rw [placed _ effect ((ListRow.assign_taskListId _ old).trans isKey)]
        rfl
  | delete listId expected => cases sent

end Stored

/-- A text comes back as it was sent exactly when no decodable token is spelled out in it:
through the encoder and the decoder, and as the title of a task or of a list in every
later reading.  On such texts the encoder is injective. -/
theorem titles_survive_iff (db : Database) (store : Store) (now : ℤ) (title : Text) :
    (decodeEmoji (some (encodeEmoji title)) = title ↔ ¬ SpellsToken title) ∧
    (∀ title', ¬ SpellsToken title → ¬ SpellsToken title' →
      encodeEmoji title = encodeEmoji title' → title = title') ∧
    (∀ (write : TaskWrite) after row task, write.title = some title →
      write.run db store now = (true, after) → after.tasks.get write.taskId = some row →
      after.task db row = .ok task → (task.title = title ↔ ¬ SpellsToken title)) ∧
    (∀ (write : ListWrite) after row, write.title = some title →
      write.run db store now = (true, after) → after.lists.get write.listId = some row →
      ((rowToList row).title = title ↔ ¬ SpellsToken title)) := by
  refine ⟨round_trip_iff title, ?_, ?_, ?_⟩
  · intro title' plain plain' same
    have back := (round_trip_iff title).mpr plain
    rw [same, (round_trip_iff title').mpr plain'] at back
    exact back.symm
  · intro write after row task sent ran found mapped
    have stored := write.stores_title sent ran found
    obtain ⟨documentLink, -, status, -, due, -, completed, -, rfl⟩ :=
      rowToTask_eq_ok_iff.mp mapped
    rw [← round_trip_iff, ← stored]
    rfl
  · intro write after row sent ran found
    have stored := write.stores_title sent ran found
    rw [← round_trip_iff, ← stored]
    rfl

/-- A literal token comes back as the character. -/
theorem literal_token_decoded :
    decodeEmoji (some (encodeEmoji "Use [U+1F600] here".toList)) ≠ "Use [U+1F600] here".toList := by
  decide

end SupernoteTaskService
