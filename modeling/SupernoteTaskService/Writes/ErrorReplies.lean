import SupernoteTaskService.Routers.Interleaving

/-!
# Error replies and what was written

A request commits its write before it reads the row that it answers with.  A delete of
that row in between takes the answer away and leaves the write in place; nothing else
turns a write that took effect into a client error.
-/

set_option autoImplicit false

namespace SupernoteTaskService

open Foundation

/-! ## The row of a request -/

inductive RowKey where
  | task (taskId : Text)
  | list (listId : Text)
  deriving DecidableEq

def RowKey.isActive (db : Database) (store : Store) : RowKey → Bool
  | .task taskId => taskExists db store taskId
  | .list listId => listExists db store listId

def Request.row : Request → RowKey
  | .createTask taskId _ => .task taskId
  | .updateTask _ taskId _ _ => .task taskId
  | .completeTask _ taskId _ => .task taskId
  | .uncompleteTask _ taskId _ => .task taskId
  | .deleteTask taskId _ => .task taskId
  | .createList listId _ => .list listId
  | .updateList listId _ _ => .list listId
  | .deleteList listId _ => .list listId

def Request.isDelete : Request → Bool
  | .deleteTask _ _ => true
  | .deleteList _ _ => true
  | _ => false

/-- The write left every other row as active as it was, and its own row active unless
it was a delete. -/
structure RowWritten (db : Database) (store after : Store) (request : Request) : Prop where
  others : ∀ key, key ≠ request.row → key.isActive db after = key.isActive db store
  alive : request.isDelete = false → request.row.isActive db after = true

section Effects
variable {db : Database} {store after : Store} {now : ℤ} {request : Request}

theorem TaskEffect.row_isActive {row : TaskRow} (effect : TaskEffect db store after now row)
    (key : RowKey) :
    key.isActive db after =
      if key = .task row.taskId then row.isActive db.userId else key.isActive db store := by
  cases key with
  | list listId =>
      rw [if_neg (fun impossible => by cases impossible)]
      simp only [RowKey.isActive, listExists, activeList, effect.lists]
  | task taskId =>
      simp only [RowKey.isActive, taskExists, activeTask, effect.frame, RowKey.task.injEq]
      by_cases isRow : taskId = row.taskId
      · rw [if_pos isRow, if_pos isRow, Option.isSome_filter, Option.any_some]
      · rw [if_neg isRow, if_neg isRow]

theorem ListEffect.row_isActive {row : ListRow} (effect : ListEffect db store after now row)
    (key : RowKey) :
    key.isActive db after =
      if key = .list row.taskListId then row.isActive db.userId else key.isActive db store := by
  cases key with
  | task taskId =>
      rw [if_neg (fun impossible => by cases impossible)]
      simp only [RowKey.isActive, taskExists, activeTask, effect.tasks]
  | list listId =>
      simp only [RowKey.isActive, listExists, activeList, effect.frame, RowKey.list.injEq]
      by_cases isRow : listId = row.taskListId
      · rw [if_pos isRow, if_pos isRow, Option.isSome_filter, Option.any_some]
      · rw [if_neg isRow, if_neg isRow]

theorem TaskEffect.rowWritten {row : TaskRow} (effect : TaskEffect db store after now row)
    (isRow : request.row = .task row.taskId)
    (stays : request.isDelete = false → row.isDeleted = some NO) :
    RowWritten db store after request where
  others := by
    intro key other
    rw [effect.row_isActive, if_neg (isRow ▸ other)]
  alive := by
    intro kept
    rw [effect.row_isActive, if_pos isRow]
    exact TaskRow.isActive_iff.mpr ⟨effect.owned, stays kept⟩

theorem ListEffect.rowWritten {row : ListRow} (effect : ListEffect db store after now row)
    (isRow : request.row = .list row.taskListId)
    (stays : request.isDelete = false → row.isDeleted = some NO) :
    RowWritten db store after request where
  others := by
    intro key other
    rw [effect.row_isActive, if_neg (isRow ▸ other)]
  alive := by
    intro kept
    rw [effect.row_isActive, if_pos isRow]
    exact ListRow.isActive_iff.mpr ⟨effect.owned, stays kept⟩

theorem Request.rewriteTask_row {taskId : Text} {rewrite : TaskRow → TaskRow}
    (isTarget : request.operation.rowId = some taskId)
    (isRewrite : request.operation.rewriteTask now = some rewrite) :
    request.row = .task taskId ∧
      ∀ row, request.isDelete = false → (rewrite row).isDeleted = row.isDeleted := by
  cases request with
  | updateTask statusNow id body ifUnmodifiedSince =>
      cases isTarget
      simp only [Request.operation, Operation.rewriteTask] at isRewrite
      split at isRewrite
      · cases isRewrite
      · cases isRewrite
        exact ⟨rfl, fun _ _ => rfl⟩
  | completeTask statusNow id ifUnmodifiedSince =>
      cases isTarget
      cases isRewrite
      exact ⟨rfl, fun _ _ => rfl⟩
  | uncompleteTask statusNow id ifUnmodifiedSince =>
      cases isTarget
      cases isRewrite
      exact ⟨rfl, fun _ _ => rfl⟩
  | deleteTask id ifUnmodifiedSince =>
      cases isTarget
      exact ⟨rfl, fun _ impossible => by cases impossible⟩
  | _ => cases isRewrite

theorem Request.rewriteList_row {listId : Text} {rewrite : ListRow → ListRow}
    (isTarget : request.operation.rowId = some listId)
    (isRewrite : request.operation.rewriteList now = some rewrite) :
    request.row = .list listId ∧
      ∀ row, request.isDelete = false → (rewrite row).isDeleted = row.isDeleted := by
  cases request with
  | updateList id body ifUnmodifiedSince =>
      cases isTarget
      cases isRewrite
      exact ⟨rfl, fun _ _ => rfl⟩
  | deleteList id ifUnmodifiedSince =>
      cases isTarget
      exact ⟨rfl, fun _ impossible => by cases impossible⟩
  | _ => cases isRewrite

variable (db store now) in
theorem Request.operation_written (request : Request) :
    (request.operation.run db store now).2 = store ∨
      RowWritten db store (request.operation.run db store now).2 request := by
  have shape := request.operation.step_shape db store now
  generalize (request.operation.run db store now).2 = after at shape ⊢
  cases shape with
  | unchanged => exact Or.inl rfl
  | taskCreated taskId data after isCreate free effect =>
      cases request with
      | createTask id body =>
          cases isCreate
          exact Or.inr (effect.rowWritten rfl fun _ => rfl)
      | _ => cases isCreate
  | taskRewritten taskId rewrite old after isTarget isRewrite found active version effect =>
      obtain ⟨isRow, keepsFlag⟩ := Request.rewriteTask_row isTarget isRewrite
      have isKey := ((store.tasks.get_eq_some_iff taskId old).mp found).2
      have keepsKey := (Operation.rewriteTask_keeps isRewrite old).1
      refine Or.inr (effect.rowWritten ?_ fun kept => ?_)
      · rw [isRow, keepsKey, isKey]
      · rw [keepsFlag old kept]
        exact (TaskRow.isActive_iff.mp active).2
  | listCreated listId title after isCreate free effect =>
      cases request with
      | createList id body =>
          cases isCreate
          exact Or.inr (effect.rowWritten rfl fun _ => rfl)
      | _ => cases isCreate
  | listRewritten listId rewrite old after isTarget isRewrite found active version effect =>
      obtain ⟨isRow, keepsFlag⟩ := Request.rewriteList_row isTarget isRewrite
      have isKey := ((store.lists.get_eq_some_iff listId old).mp found).2
      have keepsKey := (Operation.rewriteList_keeps isRewrite old).1
      refine Or.inr (effect.rowWritten ?_ fun kept => ?_)
      · rw [isRow, keepsKey, isKey]
      · rw [keepsFlag old kept]
        exact (ListRow.isActive_iff.mp active).2

end Effects

/-! ## One statement -/

section Statement
variable {db : Database} {store : Store} {now : ℤ}

theorem executeTaskUpdate_reports {expected : Option ℤ} {sets : List TaskSet} {taskId : Text}
    (changed : (executeTaskUpdate db store expected sets taskId).2 ≠ store) :
    (executeTaskUpdate db store expected sets taskId).1 = true := by
  rcases executeTaskUpdate_cases db store expected sets taskId with
    nothing | ⟨row, after, -, -, -, -, executed, -⟩
  · rw [nothing] at changed
    exact absurd rfl changed
  · rw [executed]

theorem executeListUpdate_reports {expected : Option ℤ} {sets : List ListSet} {listId : Text}
    (changed : (executeListUpdate db store expected sets listId).2 ≠ store) :
    (executeListUpdate db store expected sets listId).1 = true := by
  rcases executeListUpdate_cases db store expected sets listId with
    nothing | ⟨row, after, -, -, -, -, executed, -⟩
  · rw [nothing] at changed
    exact absurd rfl changed
  · rw [executed]

theorem updateTask_reports {statusNow : ℤ} {taskId : Text} {data : TaskUpdate}
    {expected : Option ℤ}
    (changed : (updateTask db store statusNow now taskId data expected).2 ≠ store) :
    (updateTask db store statusNow now taskId data expected).1 = true := by
  by_cases nothing : updateSets data statusNow = []
  · exact absurd (updateTask_of_no_sets db store now statusNow nothing) changed
  · rw [updateTask_of_sets db store now statusNow nothing] at changed ⊢
    exact executeTaskUpdate_reports changed

theorem Request.afterWrite_of_changed {request : Request}
    (changed : (request.operation.run db store now).2 ≠ store) :
    request.afterWrite db (request.operation.run db store now).2
      (request.operation.run db store now).1 = .written := by
  have ofFlag : ∀ written : Bool × Store, (written.2 ≠ store → written.1 = true) →
      written.2 ≠ store →
        request.afterWrite db written.2 (.ok (.flag written.1)) = .written := by
    intro written reports moved
    rw [reports moved]
    rfl
  cases request with
  | createTask taskId body =>
      simp only [Request.operation, Operation.run] at changed ⊢
      rcases createTask_cases db store now taskId body with ⟨refused, -⟩ | ⟨after, created, -, -⟩
      · rw [refused] at changed
        exact absurd rfl changed
      · rw [created]
        rfl
  | createList listId body =>
      simp only [Request.operation, Operation.run] at changed ⊢
      rcases createList_cases db store now listId body.title.text with
        ⟨refused, -⟩ | ⟨after, created, -, -⟩
      · rw [refused] at changed
        exact absurd rfl changed
      · rw [created]
        rfl
  | updateTask statusNow taskId body ifUnmodifiedSince =>
      exact ofFlag _ updateTask_reports changed
  | completeTask statusNow taskId ifUnmodifiedSince =>
      exact ofFlag _ updateTask_reports changed
  | uncompleteTask statusNow taskId ifUnmodifiedSince =>
      exact ofFlag _ updateTask_reports changed
  | deleteTask taskId ifUnmodifiedSince => exact ofFlag _ executeTaskUpdate_reports changed
  | updateList listId body ifUnmodifiedSince => exact ofFlag _ executeListUpdate_reports changed
  | deleteList listId ifUnmodifiedSince => exact ofFlag _ executeListUpdate_reports changed

theorem Request.insertPlaced_cases (request : Request) (ts sort : ℤ) :
    (request.insertPlaced db store ts sort).2 = store ∨
      (request.insertPlaced db store ts sort).1 = .written ∧
        RowWritten db store (request.insertPlaced db store ts sort).2 request := by
  cases request with
  | createTask taskId body =>
      simp only [Request.insertPlaced]
      rcases insertTask_cases db store ts
          { newTaskRow db store taskId ts body with sort := some sort } rfl rfl with
        ⟨refused, -⟩ | ⟨after, inserted, -, effect⟩
      · rw [refused]
        exact Or.inl rfl
      · rw [inserted]
        exact Or.inr ⟨rfl, effect.rowWritten rfl fun _ => rfl⟩
  | _ => exact Or.inl rfl

theorem Request.advance_cases (request : Request) (stage : Stage) :
    (request.advance db store now stage).2 = store ∨
      (request.advance db store now stage).1 = .written ∧
        RowWritten db store (request.advance db store now stage).2 request := by
  cases stage with
  | received =>
      rw [Request.advance]
      cases request.check db store with
      | none => exact Or.inl rfl
      | some reply => exact Or.inl rfl
  | ready =>
      rw [Request.advance]
      cases request.position db store with
      | some sort => exact Or.inl rfl
      | none =>
          by_cases same : (request.operation.run db store now).2 = store
          · exact Or.inl same
          · have written := (request.operation_written db store now).resolve_left same
            exact Or.inr ⟨Request.afterWrite_of_changed same, written⟩
  | placed ts sort => exact request.insertPlaced_cases ts sort
  | refused => exact Or.inl rfl
  | written => exact Or.inl rfl
  | answered reply => exact Or.inl rfl

theorem Request.advance_deletes {request : Request} {stage : Stage} {key : RowKey}
    (active : key.isActive db store = true)
    (gone : key.isActive db (request.advance db store now stage).2 = false) :
    request.isDelete = true ∧ request.row = key ∧
      (request.advance db store now stage).2 ≠ store := by
  rcases request.advance_cases stage with same | ⟨-, written⟩
  · rw [same, active] at gone
    cases gone
  · refine ⟨?_, ?_, ?_⟩
    · by_contra kept
      rw [Bool.not_eq_true] at kept
      by_cases isRow : key = request.row
      · rw [isRow, written.alive kept] at gone
        cases gone
      · rw [written.others key isRow, active] at gone
        cases gone
    · by_contra other
      rw [written.others key (Ne.symm other), active] at gone
      cases gone
    · intro same
      rw [same, active] at gone
      cases gone

theorem requireTask_error {taskId : Text} {raised : Raised}
    (failed : Routers.Tasks.requireTask db store taskId = .error raised) :
    raised.status = 500 ∨ raised.status = 404 ∧ taskExists db store taskId = false := by
  unfold Routers.Tasks.requireTask SupernoteTaskService.getTask at failed
  rw [taskExists]
  cases found : activeTask db store taskId with
  | none =>
      rw [found] at failed
      cases failed
      exact Or.inr ⟨rfl, rfl⟩
  | some row =>
      rw [found] at failed
      dsimp only at failed
      cases mapped : store.task db row with
      | error unmapped =>
          rw [mapped] at failed
          cases failed
          exact Or.inl (rowToTask_raises _ raised mapped)
      | ok task =>
          rw [mapped] at failed
          cases failed

theorem requireList_error {listId : Text} {raised : Raised}
    (failed : Routers.Lists.requireList db store listId = .error raised) :
    raised.status = 404 ∧ listExists db store listId = false := by
  unfold Routers.Lists.requireList getList at failed
  rw [listExists]
  cases found : activeList db store listId with
  | none =>
      rw [found] at failed
      cases failed
      exact ⟨rfl, rfl⟩
  | some row =>
      rw [found] at failed
      cases failed

/-- A request that has written and is answered with a client error has lost its row. -/
theorem Request.reread_client_error {request : Request} {raised : Raised}
    (failed : request.reread db store = .error raised) (client : raised.status < 500) :
    request.isDelete = false ∧ raised.status = 404 ∧ request.row.isActive db store = false := by
  have ofTask : ∀ {taskId : Text} {respond : Task → Response},
      (Routers.Tasks.requireTask db store taskId).map respond = .error raised →
        raised.status = 404 ∧ taskExists db store taskId = false := by
    intro taskId respond failed
    cases read : Routers.Tasks.requireTask db store taskId with
    | ok task =>
        rw [read] at failed
        cases failed
    | error unread =>
        rw [read] at failed
        cases failed
        rcases requireTask_error read with server | missing
        · omega
        · exact missing
  have ofList : ∀ {listId : Text} {respond : TaskList → Response},
      (Routers.Lists.requireList db store listId).map respond = .error raised →
        raised.status = 404 ∧ listExists db store listId = false := by
    intro listId respond failed
    cases read : Routers.Lists.requireList db store listId with
    | ok list =>
        rw [read] at failed
        cases failed
    | error unread =>
        rw [read] at failed
        cases failed
        exact requireList_error read
  cases request with
  | createTask taskId body => exact ⟨rfl, ofTask failed⟩
  | updateTask statusNow taskId body ifUnmodifiedSince => exact ⟨rfl, ofTask failed⟩
  | completeTask statusNow taskId ifUnmodifiedSince => exact ⟨rfl, ofTask failed⟩
  | uncompleteTask statusNow taskId ifUnmodifiedSince => exact ⟨rfl, ofTask failed⟩
  | createList listId body => exact ⟨rfl, ofList failed⟩
  | updateList listId body ifUnmodifiedSince => exact ⟨rfl, ofList failed⟩
  | deleteTask taskId ifUnmodifiedSince => cases failed
  | deleteList listId ifUnmodifiedSince => cases failed

end Statement

/-! ## Every interleaving -/

section Runs
variable {ι : Type} [DecidableEq ι] (db : Database) (requests : ι → Request)

def Changes (state : InFlight ι) (step : Timed ι) : Prop :=
  (statementStep db requests state step).store ≠ state.store

def UnchangedBy (start : InFlight ι) (run : List (Timed ι)) (i : ι) : Prop :=
  ∀ state step rest, Happens (statementStep db requests) start run state step rest →
    step.event = i → ¬ Changes db requests state step

/-- The write of the request took effect, then a delete of the same row did, and then
the request read the row for its answer. -/
def DeletedMeanwhile (start : InFlight ι) (run : List (Timed ι)) (i : ι) : Prop :=
  ∃ writing write afterWrite deleting delete afterDelete reading reread rest,
    (Happens (statementStep db requests) start run writing write afterWrite ∧
      write.event = i ∧ Changes db requests writing write) ∧
    (Happens (statementStep db requests) (statementStep db requests writing write) afterWrite
        deleting delete afterDelete ∧
      (requests delete.event).isDelete = true ∧
      (requests delete.event).row = (requests i).row ∧ Changes db requests deleting delete) ∧
    Happens (statementStep db requests) (statementStep db requests deleting delete) afterDelete
        reading reread rest ∧
      reread.event = i ∧ reading.stage i = .written

/-- A client error says that the request changed nothing. -/
def ClientErrorMeansUnchanged (start : InFlight ι) (run : List (Timed ι)) (i : ι) : Prop :=
  ∀ raised, (run.foldl (statementStep db requests) start).stage i = .answered (.error raised) →
    400 ≤ raised.status → raised.status < 500 → UnchangedBy db requests start run i

variable {db requests} {state start : InFlight ι} {step : Timed ι} {i : ι}

theorem statementStep_stage_own (isOwn : step.event = i) :
    (statementStep db requests state step).stage i =
      ((requests i).advance db state.store step.clock (state.stage i)).1 := by
  subst isOwn
  exact Function.update_self _ _ _

theorem statementStep_stage_other (isOther : step.event ≠ i) :
    (statementStep db requests state step).stage i = state.stage i :=
  Function.update_of_ne isOther.symm _ _

theorem stays_answered {reply : Except Raised Response} (run : List (Timed ι)) :
    ∀ state : InFlight ι, state.stage i = .answered reply →
      (run.foldl (statementStep db requests) state).stage i = .answered reply := by
  induction run with
  | nil => exact fun state answered => answered
  | cons step run ih =>
      intro state answered
      refine ih _ ?_
      by_cases isOwn : step.event = i
      · rw [statementStep_stage_own isOwn, answered]
        rfl
      · rw [statementStep_stage_other isOwn, answered]

theorem reply_after_write {run : List (Timed ι)} {reply : Except Raised Response}
    (written : start.stage i = .written)
    (ends : (run.foldl (statementStep db requests) start).stage i = .answered reply) :
    ∃ reading reread rest, Happens (statementStep db requests) start run reading reread rest ∧
      reread.event = i ∧ reading.stage i = .written ∧
      (requests i).reread db reading.store = reply := by
  obtain ⟨reading, reread, rest, occurs, still, left⟩ :=
    exists_turning (P := fun state : InFlight ι => state.stage i ≠ .written)
      (not_not.mpr written) (by rw [ends]; exact fun impossible => by cases impossible)
  rw [not_not] at still
  by_cases isOwn : reread.event = i
  · refine ⟨reading, reread, rest, occurs, isOwn, still, ?_⟩
    have answers : (statementStep db requests reading reread).stage i =
        .answered ((requests i).reread db reading.store) := by
      rw [statementStep_stage_own isOwn, still]
      rfl
    rw [occurs.foldl_eq, stays_answered rest _ answers] at ends
    cases ends
    rfl
  · rw [statementStep_stage_other isOwn] at left
    exact absurd still left

/-- A row that is gone at the end of a run was deleted by a request. -/
theorem deleted_within {run : List (Timed ι)} {key : RowKey}
    (active : key.isActive db start.store = true)
    (gone : key.isActive db (run.foldl (statementStep db requests) start).store = false) :
    ∃ deleting delete rest,
      Happens (statementStep db requests) start run deleting delete rest ∧
      (requests delete.event).isDelete = true ∧ (requests delete.event).row = key ∧
      Changes db requests deleting delete := by
  obtain ⟨deleting, delete, rest, occurs, before, after⟩ :=
    exists_turning (P := fun state : InFlight ι => key.isActive db state.store = false)
      (by rw [active]; exact Bool.noConfusion) gone
  rw [Bool.not_eq_false] at before
  obtain ⟨isDelete, isRow, changed⟩ := Request.advance_deletes before after
  exact ⟨deleting, delete, rest, occurs, isDelete, isRow, changed⟩

/-- A client error means that the request changed nothing, or that its row was deleted
between its write and its answer, which is then a 404. -/
theorem client_error_unchanged_or_deleted (db : Database) (requests : ι → Request)
    (store : Store) (run : List (Timed ι)) (i : ι) (raised : Raised)
    (ends : (run.foldl (statementStep db requests) (.init store)).stage i =
      .answered (.error raised))
    (client : 400 ≤ raised.status ∧ raised.status < 500) :
    UnchangedBy db requests (.init store) run i ∨
      raised.status = 404 ∧ DeletedMeanwhile db requests (.init store) run i := by
  by_cases unchanged : UnchangedBy db requests (.init store) run i
  · exact Or.inl unchanged
  · right
    obtain ⟨writing, write, afterWrite, wrote, isOwn, changed⟩ :
        ∃ writing write afterWrite,
          Happens (statementStep db requests) (.init store) run writing write afterWrite ∧
          write.event = i ∧ Changes db requests writing write := by
      simp only [UnchangedBy, not_forall, not_not] at unchanged
      obtain ⟨writing, write, afterWrite, wrote, isOwn, changed⟩ := unchanged
      exact ⟨writing, write, afterWrite, wrote, isOwn, changed⟩
    obtain ⟨isWritten, written⟩ : (statementStep db requests writing write).stage i = .written ∧
        RowWritten db writing.store (statementStep db requests writing write).store
          (requests i) := by
      rw [statementStep_stage_own isOwn]
      subst isOwn
      exact ((requests write.event).advance_cases (writing.stage write.event)).resolve_left changed
    rw [wrote.foldl_eq] at ends
    obtain ⟨reading, reread, rest, rereads, rereadOwn, atWritten, reply⟩ :=
      reply_after_write isWritten ends
    obtain ⟨kept, isMissing, gone⟩ := Request.reread_client_error reply client.2
    -- The row was there after the write and is gone at the read.
    obtain ⟨between, rfl, rfl⟩ := rereads
    obtain ⟨deleting, delete, afterDelete, deletes, isDelete, sameRow, deleted⟩ :=
      deleted_within (written.alive kept) gone
    refine ⟨isMissing, writing, write, _, deleting, delete, afterDelete ++ reread :: rest, _,
      reread, rest, ⟨wrote, isOwn, changed⟩, ⟨deletes.append_right _, isDelete, sameRow, deleted⟩,
      ?_, rereadOwn, atWritten⟩
    rw [deletes.foldl_eq]
    exact happens_after afterDelete

end Runs

/-! ## A task deleted before its own answer -/

def createAndDeleteRaced : Bool → Request
  | false => .createTask ['a'] titleOnly
  | true => .deleteTask ['a'] none

def deletedBeforeReply : List (Timed Bool) :=
  [⟨1000, false⟩, ⟨1000, false⟩, ⟨1000, false⟩, ⟨1500, true⟩, ⟨1500, true⟩, ⟨2000, false⟩]

def taskNotFound : Raised := .http (httpException 404 "Task not found.")

theorem createAndDeleteRaced_inserts :
    ¬ UnchangedBy singleUser createAndDeleteRaced (.init .empty) deletedBeforeReply false := by
  intro unchanged
  have inserts : Happens (statementStep singleUser createAndDeleteRaced) (.init .empty)
      deletedBeforeReply _ (⟨1000, false⟩ : Timed Bool) _ :=
    happens_after [(⟨1000, false⟩ : Timed Bool), ⟨1000, false⟩]
  refine unchanged _ _ _ inserts rfl ?_
  rw [Changes]
  decide

/-- The task is stored, and its create answers that there is none. -/
theorem created_task_answered_404 :
    ¬ ClientErrorMeansUnchanged singleUser createAndDeleteRaced (.init .empty)
      deletedBeforeReply false := by
  intro unchanged
  exact createAndDeleteRaced_inserts (unchanged taskNotFound rfl (by decide) (by decide))

theorem created_task_was_deleted_meanwhile :
    taskNotFound.status = 404 ∧
      DeletedMeanwhile singleUser createAndDeleteRaced (.init .empty) deletedBeforeReply false :=
  (client_error_unchanged_or_deleted singleUser createAndDeleteRaced .empty deletedBeforeReply
    false taskNotFound rfl (by decide)).resolve_left createAndDeleteRaced_inserts

end SupernoteTaskService
