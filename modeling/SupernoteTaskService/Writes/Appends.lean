import SupernoteTaskService.Foundation.Appends
import SupernoteTaskService.Routers.Interleaving

/-!
# Tasks appended at the same time

A create without a position is two statements, each committed by itself: the `SELECT` of
the next position and the `INSERT` with it.  Creates of one list interleave freely.  Each
puts its task behind all siblings exactly when no other one inserts between its two
statements.
-/

set_option autoImplicit false

namespace SupernoteTaskService

open Foundation

def activePositions (db : Database) (store : Store) (listId : Option Text) : List ℤ :=
  (store.tasks.select fun row =>
    decide (row.taskListId = listId) && row.isActive db.userId).filterMap TaskRow.sort

theorem mem_activePositions {db : Database} {store : Store} {listId : Option Text} {sort : ℤ} :
    sort ∈ activePositions db store listId ↔
      ∃ row ∈ store.tasks.rows, row.taskListId = listId ∧ row.isActive db.userId = true ∧
        row.sort = some sort := by
  simp only [activePositions, List.mem_filterMap, KeyedTable.mem_select, Bool.and_eq_true,
    decide_eq_true_eq]
  constructor
  · intro ⟨row, ⟨stored, sibling, active⟩, isSort⟩
    exact ⟨row, stored, sibling, active, isSort⟩
  · intro ⟨row, stored, sibling, active, isSort⟩
    exact ⟨row, ⟨stored, sibling, active⟩, isSort⟩

variable {ι : Type} [DecidableEq ι]

/-- Creates of one list without a position, each under an id of its own. -/
structure AppendRequests (ι : Type) where
  listId : Option IdStr
  taskId : ι → Text
  ts : ι → ℤ
  data : ι → TaskCreate
  sameList : ∀ who, (data who).listId = listId
  sortOmitted : ∀ who, (data who).sort = none
  ownIds : Function.Injective taskId

def AppendRequests.list (requests : AppendRequests ι) : Option Text :=
  requests.listId.map IdStr.value

structure AppendState (ι : Type) where
  store : Store
  position : ι → Option ℤ

def AppendRequests.row (requests : AppendRequests ι) (db : Database) (store : Store) (who : ι)
    (sort : ℤ) : TaskRow :=
  { newTaskRow db store (requests.taskId who) (requests.ts who) (requests.data who) with
    sort := some sort }

def AppendRequests.step (requests : AppendRequests ι) (db : Database) (state : AppendState ι) :
    Move ι → AppendState ι
  | .select who =>
      { state with
        position := Function.update state.position who
          (some (nextSort state.store requests.list db.userId)) }
  | .insert who =>
      match state.position who with
      | none => state
      | some sort =>
          match insertTask state.store (requests.row db state.store who sort) with
          | .ok (_, store) => { state with store := store }
          | .error _ => state

section Requests
variable {requests : AppendRequests ι} {db : Database} {state : AppendState ι} {store : Store}
  {moves : List (Move ι)} {who : ι}

theorem AppendRequests.step_select_position :
    (requests.step db state (.select who)).position who =
      (Request.createTask (requests.taskId who) (requests.data who)).position db state.store := by
  simp only [AppendRequests.step, Function.update_self, Request.position,
    requests.sortOmitted who, requests.sameList who, AppendRequests.list]

theorem AppendRequests.step_insert_store {sort : ℤ} (isPosition : state.position who = some sort) :
    (requests.step db state (.insert who)).store =
      ((Request.createTask (requests.taskId who) (requests.data who)).insertPlaced db state.store
        (requests.ts who) sort).2 := by
  have sameRow : insertTask state.store { newTaskRow db state.store (requests.taskId who)
        (requests.ts who) (requests.data who) with sort := some sort } =
      insertTask state.store (requests.row db state.store who sort) := rfl
  simp only [AppendRequests.step, isPosition, Request.insertPlaced]
  rw [sameRow]
  cases insertTask state.store (requests.row db state.store who sort) <;> rfl

/-- In a row, the two statements are `create_task`. -/
theorem AppendRequests.alone_eq_createTask :
    ([.select who, .insert who].foldl (requests.step db) state).store =
      ((createTask db state.store (requests.taskId who) (requests.ts who)
        (requests.data who)).toOption.map Prod.snd).getD state.store := by
  have placed : (newTaskRow db state.store (requests.taskId who) (requests.ts who)
      (requests.data who)).sort = some (nextSort state.store requests.list db.userId) := by
    simp only [newTaskRow, requests.sortOmitted who, requests.sameList who, AppendRequests.list]
  have sameRow : insertTask state.store (requests.row db state.store who
        (nextSort state.store requests.list db.userId)) =
      createTask db state.store (requests.taskId who) (requests.ts who) (requests.data who) :=
    insertTask_placed placed
  simp only [List.foldl_cons, List.foldl_nil, AppendRequests.step, Function.update_self]
  rw [sameRow]
  cases createTask db state.store (requests.taskId who) (requests.ts who) (requests.data who) <;> rfl

variable (requests db) in
/-- What the two statements read and write of the tables. -/
def AppendState.board (state : AppendState ι) : Board ι :=
  ⟨activePositions db state.store requests.list, state.position⟩

theorem insertTask_free (row : TaskRow) (free : store.tasks.get row.taskId = none) :
    ∃ tasks, insertTask store row = .ok (row.taskId, { store with tasks := tasks }) ∧
      tasks.rows = store.tasks.rows ++ [row] ∧ store.tasks.insert row = some tasks := by
  obtain ⟨tasks, inserted, rows⟩ := store.tasks.exists_insert row free
  refine ⟨tasks, ?_, rows, inserted⟩
  rw [insertTask, inserted]

variable (db) in
theorem step_insert {sort : ℤ} (isPosition : state.position who = some sort)
    (free : state.store.tasks.get (requests.taskId who) = none) :
    ∃ tasks, requests.step db state (.insert who) =
        { state with store := { state.store with tasks := tasks } } ∧
      tasks.rows = state.store.tasks.rows ++ [requests.row db state.store who sort] ∧
      state.store.tasks.insert (requests.row db state.store who sort) = some tasks := by
  obtain ⟨tasks, inserted, rows, accepted⟩ :=
    insertTask_free (requests.row db state.store who sort) free
  refine ⟨tasks, ?_, rows, accepted⟩
  simp only [AppendRequests.step, isPosition, inserted]

theorem free_step {move : Move ι} (other : move ≠ .insert who)
    (free : state.store.tasks.get (requests.taskId who) = none) :
    (requests.step db state move).store.tasks.get (requests.taskId who) = none := by
  cases move with
  | select reader => exact free
  | insert writer =>
      have different : requests.taskId writer ≠ requests.taskId who := by
        intro same
        exact other (congrArg Move.insert (requests.ownIds same))
      cases isPosition : state.position writer with
      | none =>
          have stays : requests.step db state (.insert writer) = state := by
            simp only [AppendRequests.step, isPosition]
          rw [stays]
          exact free
      | some sort =>
          cases inserted : state.store.tasks.insert (requests.row db state.store writer sort) with
          | none =>
              have stays : requests.step db state (.insert writer) = state := by
                simp only [AppendRequests.step, isPosition, insertTask, inserted]
              rw [stays]
              exact free
          | some tasks =>
              have grown : (requests.step db state (.insert writer)).store.tasks = tasks := by
                simp only [AppendRequests.step, isPosition, insertTask, inserted]
              rw [grown, KeyedTable.get_insert inserted]
              exact (if_neg different).trans free

theorem free_of_not_inserted (absent : Move.insert who ∉ moves)
    (free : state.store.tasks.get (requests.taskId who) = none) :
    (moves.foldl (requests.step db) state).store.tasks.get (requests.taskId who) = none := by
  induction moves generalizing state with
  | nil => exact free
  | cons move moves ih =>
      rw [List.mem_cons, not_or] at absent
      exact ih absent.2 (free_step (Ne.symm absent.1) free)

/-- The tables follow the board. -/
theorem board_step (move : Move ι)
    (free : ∀ who, move = .insert who → state.store.tasks.get (requests.taskId who) = none) :
    (requests.step db state move).board requests db = (state.board requests db).step move := by
  cases move with
  | select who => rfl
  | insert who =>
      cases isPosition : state.position who with
      | none =>
          have nothing : (state.board requests db).chosen who = none := isPosition
          rw [Board.step_insert_none nothing]
          simp only [AppendRequests.step, isPosition]
      | some sort =>
          have isChosen : (state.board requests db).chosen who = some sort := isPosition
          obtain ⟨tasks, stepped, rows, -⟩ := step_insert db isPosition (free who rfl)
          rw [Board.step_insert isChosen, stepped]
          unfold AppendState.board activePositions KeyedTable.select
          simp only [rows, List.filter_append, List.filterMap_append]
          congr 2
          have sibling : decide ((requests.row db state.store who sort).taskListId = requests.list) =
              true := by
            apply decide_eq_true
            exact congrArg (Option.map IdStr.value) (requests.sameList who)
          have active : (requests.row db state.store who sort).isActive db.userId = true :=
            TaskRow.isActive_iff.mpr ⟨rfl, rfl⟩
          rw [List.filter_cons_of_pos (by rw [sibling, active]; rfl)]
          rfl

variable (db) in
theorem board_foldl (moves : List (Move ι)) (orderly : Orderly moves)
    (free : ∀ who, state.store.tasks.get (requests.taskId who) = none) :
    (moves.foldl (requests.step db) state).board requests db =
      moves.foldl Board.step (state.board requests db) := by
  induction moves using List.reverseRecOn with
  | nil => rfl
  | append_singleton moves move ih =>
      rw [List.foldl_append, List.foldl_append, List.foldl_cons, List.foldl_cons, List.foldl_nil,
        List.foldl_nil, ← ih orderly.of_append]
      apply board_step
      intro who isInsert
      subst isInsert
      exact free_of_not_inserted orderly.not_inserted (free who)

variable (requests db) in
/-- Every task is inserted behind all active siblings. -/
def InsertsBehind (state : AppendState ι) (moves : List (Move ι)) : Prop :=
  ∀ reached who rest, Happens (requests.step db) state moves reached (.insert who) rest →
    ∃ sort, reached.position who = some sort ∧
      ∀ row ∈ reached.store.tasks.rows, row.taskListId = requests.list →
        row.isActive db.userId = true → ∀ other, row.sort = some other → other < sort

/-- On the board these are the greatest appends. -/
theorem insertsBehind_iff (orderly : Orderly moves)
    (free : ∀ who, state.store.tasks.get (requests.taskId who) = none) :
    InsertsBehind requests db state moves ↔
      AppendsGreatest (state.board requests db) moves := by
  constructor
  · intro behind board who rest occurs
    obtain ⟨before, rfl, rfl⟩ := occurs
    obtain ⟨sort, isPosition, above⟩ := behind _ who rest (happens_after before)
    rw [← board_foldl db before orderly.of_append free]
    refine ⟨sort, isPosition, ?_⟩
    intro other placed
    obtain ⟨row, stored, sibling, active, isSort⟩ := mem_activePositions.mp placed
    exact above row stored sibling active other isSort
  · intro greatest reached who rest occurs
    obtain ⟨before, rfl, rfl⟩ := occurs
    obtain ⟨sort, isPosition, above⟩ := greatest _ who rest (happens_after before)
    rw [← board_foldl db before orderly.of_append free] at isPosition above
    refine ⟨sort, isPosition, ?_⟩
    intro row stored sibling active other isSort
    exact above other (mem_activePositions.mpr ⟨row, stored, sibling, active, isSort⟩)

theorem positions_nodup (orderly : Orderly moves)
    (free : ∀ who, state.store.tasks.get (requests.taskId who) = none)
    (distinct : (activePositions db state.store requests.list).Nodup)
    (behind : InsertsBehind requests db state moves) :
    ∀ reached ∈ moves.scanl (requests.step db) state,
      (activePositions db reached.store requests.list).Nodup := by
  have greatest := (insertsBehind_iff orderly free).mp behind
  have onBoard := placed_nodup_of_greatest greatest distinct
  intro reached member
  rcases mem_scanl_cases moves state member with rfl | ⟨move, rest, before, rfl, rfl⟩
  · have follows := board_foldl db moves orderly free
    have nodup := onBoard _ foldl_mem_scanl
    rw [← follows] at nodup
    exact nodup
  · have follows := board_foldl db before orderly.of_append free
    have nodup := onBoard _ (happens_after before).state_mem_scanl
    rw [← follows] at nodup
    exact nodup

end Requests

/-- Creates of one list, in any interleaving of their statements, put every task behind all
active siblings and keep the positions of the list distinct exactly when no create inserts
between the two statements of another one. -/
theorem appends_distinct_iff (db : Database) (store : Store) (requests : AppendRequests ι)
    (moves : List (Move ι)) (orderly : Orderly moves)
    (free : ∀ who, store.tasks.get (requests.taskId who) = none)
    (distinct : (activePositions db store requests.list).Nodup) :
    (InsertsBehind requests db ⟨store, fun _ => none⟩ moves ∧
        ∀ reached ∈ moves.scanl (requests.step db) ⟨store, fun _ => none⟩,
          (activePositions db reached.store requests.list).Nodup) ↔
      Undisturbed moves := by
  have onBoard : InsertsBehind requests db ⟨store, fun _ => none⟩ moves ↔
      AppendsGreatest ⟨activePositions db store requests.list, fun _ => none⟩ moves :=
    insertsBehind_iff orderly free
  constructor
  · intro ⟨behind, _⟩
    exact undisturbed_of_greatest (fun _ => rfl) orderly (onBoard.mp behind)
  · intro undisturbed
    have behind := onBoard.mpr (greatest_of_undisturbed orderly undisturbed)
    exact ⟨behind, positions_nodup orderly free distinct behind⟩

def twoAppends : AppendRequests Bool where
  listId := none
  taskId who := if who then ['b'] else ['a']
  ts _ := 1000
  data _ := titleOnly
  sameList _ := rfl
  sortOmitted _ := rfl
  ownIds := by decide

/-- One after the other they get positions of their own. -/
theorem twoAppends_in_turn :
    InsertsBehind twoAppends singleUser ⟨.empty, fun _ => none⟩
      [.select false, .insert false, .select true, .insert true] :=
  ((appends_distinct_iff singleUser .empty twoAppends
    [.select false, .insert false, .select true, .insert true]
    (by intro who; cases who <;> decide) (fun _ => rfl) (by decide)).mpr
    (undisturbed_in_turn [false, true] (by decide))).1

/-- Both read the position before either inserts: they share it. -/
theorem twoAppends_share_position :
    activePositions singleUser
      ([Move.select false, .select true, .insert false, .insert true].foldl
        (twoAppends.step singleUser) ⟨.empty, fun _ => none⟩).store none = [0, 0] := by
  decide

end SupernoteTaskService
