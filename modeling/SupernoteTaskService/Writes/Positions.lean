import SupernoteTaskService.Routers.Requests

/-!
# Positions in a list

A task that is created without a position goes behind its siblings.  A task that is
moved to another list keeps the position it had, and nothing asks whether the place
is taken.  Without explicit positions that is the only way for two tasks of a list to
share one.
-/

set_option autoImplicit false

namespace SupernoteTaskService

open Foundation

section Positions
variable (db : Database)

/-- The active tasks of each list have distinct positions, counted from zero. -/
structure PositionsDistinct (store : Store) : Prop where
  placed : ∀ row ∈ store.tasks.rows, row.isActive db.userId = true →
    ∃ sort, row.sort = some sort ∧ 0 ≤ sort
  distinct : ∀ row ∈ store.tasks.rows, ∀ other ∈ store.tasks.rows,
    row.isActive db.userId = true → other.isActive db.userId = true →
    row.taskListId = other.taskListId → row.sort = other.sort → row.taskId = other.taskId

def Request.NoExplicitSort : Request → Prop
  | .createTask _ body => body.sort = none
  | .updateTask _ _ body _ => ∀ sort, body.sort ≠ .given sort
  | _ => True

/-- A `PATCH` that moves a task finds no other task on its position in the target list. -/
def MovesToFreePosition (store : Store) (step : Timed Request) : Prop :=
  match step.event with
  | .updateTask _ taskId body ifUnmodifiedSince =>
      ∀ target, body.target = some target → step.event.admitted db store = true →
        ∀ row, store.tasks.get taskId = some row → row.isActive db.userId = true →
          versionMatches ifUnmodifiedSince row.lastModified = true →
          ∀ other ∈ store.tasks.rows, other.isActive db.userId = true →
            other.taskListId = target → other.sort = row.sort → other.taskId = taskId
  | _ => True

variable {db} {store after : Store} {now : ℤ}

/-! ## What a write does to the positions -/

theorem TaskEffect.positionsDistinct {row : TaskRow} (effect : TaskEffect db store after now row)
    (hold : PositionsDistinct db store)
    (placed : row.isActive db.userId = true → ∃ sort, row.sort = some sort ∧ 0 ≤ sort)
    (apart : row.isActive db.userId = true → ∀ other ∈ store.tasks.rows,
      other.isActive db.userId = true → other.taskListId = row.taskListId →
      other.sort = row.sort → other.taskId = row.taskId) : PositionsDistinct db after where
  placed := by
    intro other member active
    rcases (effect.mem_iff other).mp member with rfl | ⟨stored, -⟩
    · exact placed active
    · exact hold.placed other stored active
  distinct := by
    intro left leftMem right rightMem leftActive rightActive sameList sameSort
    rcases (effect.mem_iff left).mp leftMem with rfl | ⟨leftStored, -⟩
    · rcases (effect.mem_iff right).mp rightMem with rfl | ⟨rightStored, -⟩
      · rfl
      · exact (apart leftActive right rightStored rightActive sameList.symm sameSort.symm).symm
    · rcases (effect.mem_iff right).mp rightMem with rfl | ⟨rightStored, -⟩
      · exact apart rightActive left leftStored leftActive sameList sameSort
      · exact hold.distinct left leftStored right rightStored leftActive rightActive sameList
          sameSort

theorem PositionsDistinct.of_tasks (hold : PositionsDistinct db store)
    (same : after.tasks = store.tasks) : PositionsDistinct db after := by
  refine ⟨?_, ?_⟩
  · rw [same]
    exact hold.placed
  · rw [same]
    exact hold.distinct

theorem newTaskRow_positions (hold : PositionsDistinct db store) (taskId : Text) (now : ℤ)
    {body : TaskCreate} (appended : body.sort = none) :
    (∃ sort, (newTaskRow db store taskId now body).sort = some sort ∧ 0 ≤ sort) ∧
      ∀ other ∈ store.tasks.rows, other.isActive db.userId = true →
        other.taskListId = (newTaskRow db store taskId now body).taskListId →
        other.sort ≠ (newTaskRow db store taskId now body).sort := by
  have position : (newTaskRow db store taskId now body).sort =
      some (nextSort store (body.listId.map IdStr.value) db.userId) := by
    simp only [newTaskRow, appended]
  rw [position]
  refine ⟨⟨_, rfl, nextSort_nonneg fun row member _ active sort isSort => ?_⟩, ?_⟩
  · obtain ⟨placed, isPlaced, nonneg⟩ := hold.placed row member active
    rw [isPlaced] at isSort
    cases isSort
    exact nonneg
  · intro other member active sibling same
    exact lt_irrefl _ (lt_nextSort member sibling active same)

theorem updatedRow_sort {body : TaskUpdate} (implicit : ∀ sort, body.sort ≠ .given sort)
    (statusNow now : ℤ) (row : TaskRow) : (updatedRow body statusNow now row).sort = row.sort := by
  cases named : body.sort with
  | given sort => exact absurd named (implicit sort)
  | omitted => simp only [updatedRow, named]
  | null => simp only [updatedRow, named]

theorem updateSets_of_target {body : TaskUpdate} {target : Option Text}
    (named : body.target = some target) (statusNow : ℤ) : updateSets body statusNow ≠ [] := by
  have written : TaskSet.taskListId target ∈ updateSets body statusNow := by
    simp only [updateSets, List.mem_append]
    refine Or.inl (Or.inr ?_)
    simp only [TaskUpdate.target] at named
    cases isListId : body.listId with
    | omitted =>
        rw [isListId] at named
        cases named
    | null =>
        rw [isListId] at named
        cases named
        exact List.mem_singleton.mpr rfl
    | given listId =>
        rw [isListId] at named
        cases named
        exact List.mem_singleton.mpr rfl
  exact List.ne_nil_of_mem written

/-! ## One request -/

/-- A rewritten task keeps its position; where its request moves it, the place is free. -/
theorem rewrite_positions {step : Timed Request} {taskId : Text} {rewrite : TaskRow → TaskRow}
    {old : TaskRow} (hold : PositionsDistinct db store) (implicit : step.event.NoExplicitSort)
    (admitted : step.event.admitted db store = true) (free : MovesToFreePosition db store step)
    (isTarget : step.event.operation.rowId = some taskId)
    (isRewrite : step.event.operation.rewriteTask step.clock = some rewrite)
    (found : store.tasks.get taskId = some old) (active : old.isActive db.userId = true)
    (version : versionMatches step.event.operation.expected old.lastModified = true) :
    (rewrite old).sort = old.sort ∧
      ((rewrite old).isActive db.userId = true → ∀ other ∈ store.tasks.rows,
        other.isActive db.userId = true → other.taskListId = (rewrite old).taskListId →
        other.sort = old.sort → other.taskId = taskId) := by
  obtain ⟨clock, event⟩ := step
  obtain ⟨stored, isKey⟩ := (store.tasks.get_eq_some_iff taskId old).mp found
  have staying : ∀ other ∈ store.tasks.rows, other.isActive db.userId = true →
      other.taskListId = old.taskListId → other.sort = old.sort → other.taskId = taskId := by
    intro other member otherActive sameList sameSort
    rw [← isKey]
    exact hold.distinct other member old stored otherActive active sameList sameSort
  cases event with
  | updateTask statusNow id body ifUnmodifiedSince =>
      cases isTarget
      simp only [Request.operation, Operation.rewriteTask] at isRewrite
      split at isRewrite
      · cases isRewrite
      · cases isRewrite
        refine ⟨updatedRow_sort implicit statusNow clock old, fun _ => ?_⟩
        rw [updatedRow_taskListId]
        cases named : body.target with
        | none => exact staying
        | some target =>
            intro other member otherActive inTarget sameSort
            exact free target named admitted old found active version other member otherActive
              inTarget sameSort
  | completeTask statusNow id ifUnmodifiedSince =>
      cases isRewrite
      exact ⟨rfl, fun _ => staying⟩
  | uncompleteTask statusNow id ifUnmodifiedSince =>
      cases isRewrite
      exact ⟨rfl, fun _ => staying⟩
  | deleteTask id ifUnmodifiedSince =>
      cases isRewrite
      exact ⟨rfl, fun _ => staying⟩
  | _ => cases isRewrite

theorem positionsDistinct_step {step : Timed Request} (hold : PositionsDistinct db store)
    (implicit : step.event.NoExplicitSort) (free : MovesToFreePosition db store step) :
    PositionsDistinct db (requestStep db store step) := by
  rcases requestStep_cases db store step with same | ⟨admitted, ran⟩
  · rw [same]
    exact hold
  · rw [ran]
    have shape := step.event.operation.step_shape db store step.clock
    generalize (step.event.operation.run db store step.clock).2 = after at shape ⊢
    cases shape with
    | unchanged => exact hold
    | taskCreated taskId data after isCreate absent effect =>
        obtain ⟨clock, event⟩ := step
        cases event with
        | createTask id body =>
            cases isCreate
            obtain ⟨placed, apart⟩ := newTaskRow_positions hold taskId clock implicit
            exact effect.positionsDistinct hold (fun _ => placed)
              fun _ other member active sibling same => absurd same (apart other member active sibling)
        | _ => cases isCreate
    | taskRewritten taskId rewrite old after isTarget isRewrite found active version effect =>
        obtain ⟨stored, isKey⟩ := (store.tasks.get_eq_some_iff taskId old).mp found
        obtain ⟨sameSort, apart⟩ := rewrite_positions hold implicit admitted free isTarget isRewrite
          found active version
        have sameKey := (Operation.rewriteTask_keeps isRewrite old).1
        refine effect.positionsDistinct hold (fun _ => ?_) ?_
        · rw [sameSort]
          exact hold.placed old stored active
        · rw [sameSort, sameKey, isKey]
          exact apart
    | listCreated listId title after isCreate absent effect => exact hold.of_tasks effect.tasks
    | listRewritten listId rewrite old after isTarget isRewrite found active version effect =>
        exact hold.of_tasks effect.tasks

theorem movesToFreePosition_of_step {step : Timed Request} (implicit : step.event.NoExplicitSort)
    (holdAfter : PositionsDistinct db (requestStep db store step)) :
    MovesToFreePosition db store step := by
  obtain ⟨clock, event⟩ := step
  cases event with
  | updateTask statusNow taskId body ifUnmodifiedSince =>
      intro target named admitted row found active matched other member otherActive inTarget sameSort
      by_contra different
      have ran := requestStep_of_admitted db store admitted
      have written : updateTask db store statusNow clock taskId body ifUnmodifiedSince = _ :=
        updateTask_of_sets db store clock statusNow (updateSets_of_target named statusNow)
      have frame := executeTaskUpdate_matched (updateSets body statusNow ++ [.lastModified clock])
        found active matched
      simp only [Request.operation, Operation.run, written] at ran
      rw [← ran] at frame
      have moved := frame taskId
      have stayed := frame other.taskId
      rw [if_pos rfl, assign_updateSets] at moved
      rw [if_neg different, (store.tasks.get_eq_some_iff _ other).mpr ⟨member, rfl⟩] at stayed
      obtain ⟨movedMem, movedKey⟩ := (KeyedTable.get_eq_some_iff _ _ _).mp moved
      have stayedMem := ((KeyedTable.get_eq_some_iff _ _ _).mp stayed).1
      refine different (Eq.trans ?_ movedKey)
      refine holdAfter.distinct other stayedMem _ movedMem otherActive active ?_ ?_
      · rw [updatedRow_taskListId, named, inTarget, Option.getD_some]
      · rw [updatedRow_sort implicit, sameSort]
  | _ => trivial

theorem positionsDistinct_step_iff {step : Timed Request} (hold : PositionsDistinct db store)
    (implicit : step.event.NoExplicitSort) :
    PositionsDistinct db (requestStep db store step) ↔ MovesToFreePosition db store step :=
  ⟨movesToFreePosition_of_step implicit, positionsDistinct_step hold implicit⟩

end Positions

/-! ## Runs of requests -/

theorem positionsDistinct_of_no_tasks (db : Database) {store : Store}
    (noTasks : store.tasks.rows = []) : PositionsDistinct db store := by
  refine ⟨fun row member => ?_, fun row member => ?_⟩
  · rw [noTasks] at member
    exact absurd member List.not_mem_nil
  · rw [noTasks] at member
    exact absurd member List.not_mem_nil

/-- In a run without explicit positions that starts without tasks, the positions stay
distinct exactly when every task that is moved comes to a free one. -/
theorem positions_distinct_iff (db : Database) {start : Store} (run : List (Timed Request))
    (noTasks : start.tasks.rows = []) (implicit : ∀ step ∈ run, step.event.NoExplicitSort) :
    (∀ reached ∈ run.scanl (requestStep db) start, PositionsDistinct db reached) ↔
      ∀ state step rest, Happens (requestStep db) start run state step rest →
        MovesToFreePosition db state step :=
  scanl_invariant_iff (PositionsDistinct db) (MovesToFreePosition db)
    (positionsDistinct_of_no_tasks db noTasks)
    fun _ step _ occurs hold => positionsDistinct_step_iff hold (implicit step occurs.mem)

def moveAlone : List (Timed Request) :=
  [createShopping, createInShopping, ⟨3000, .updateTask 3000 ['a'] toInbox none⟩]

def moveTogether : List (Timed Request) :=
  [createShopping, createInShopping, ⟨3000, .createTask ['b'] titleOnly⟩,
    ⟨4000, .updateTask 4000 ['b'] toShopping none⟩]

theorem moveAlone_implicit : ∀ step ∈ moveAlone, step.event.NoExplicitSort := by
  simp only [moveAlone, List.forall_mem_cons]
  exact ⟨trivial, rfl, fun _ => by nofun, fun _ => by nofun⟩

theorem moveTogether_implicit : ∀ step ∈ moveTogether, step.event.NoExplicitSort := by
  simp only [moveTogether, List.forall_mem_cons]
  exact ⟨trivial, rfl, rfl, fun _ => by nofun, fun _ => by nofun⟩

theorem moved_alone_keeps_positions :
    Store.empty.tasks.rows = [] ∧ (∀ step ∈ moveAlone, step.event.NoExplicitSort) ∧
    ∀ reached ∈ moveAlone.scanl (requestStep singleUser) .empty,
      PositionsDistinct singleUser reached := by
  refine ⟨rfl, moveAlone_implicit,
    (positions_distinct_iff singleUser moveAlone rfl moveAlone_implicit).mpr ?_⟩
  refine forall_happens_cons_iff.mpr ⟨trivial, forall_happens_cons_iff.mpr ⟨trivial, ?_⟩⟩
  refine forall_happens_cons_iff.mpr ⟨?_, forall_happens_nil⟩
  intro _ _ _ _ _ _ _ other member _ _ _
  rw [List.mem_singleton.mp member]
  rfl

theorem moved_task_shares_position :
    Store.empty.tasks.rows = [] ∧ (∀ step ∈ moveTogether, step.event.NoExplicitSort) ∧
    ¬ ∀ reached ∈ moveTogether.scanl (requestStep singleUser) .empty,
      PositionsDistinct singleUser reached := by
  refine ⟨rfl, moveTogether_implicit, fun throughout => ?_⟩
  have final := throughout (moveTogether.foldl (requestStep singleUser) .empty) (by decide)
  have same := final.distinct _ List.mem_cons_self _ (List.mem_cons_of_mem _ List.mem_cons_self)
    rfl rfl rfl rfl
  exact absurd same (by decide)

end SupernoteTaskService
