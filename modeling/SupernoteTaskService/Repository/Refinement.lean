import SupernoteTaskService.Db.Alone
import SupernoteTaskService.Repository.Programs

/-!
# The programs refine the operations

A thread on its own that knows the exposed user and finds a connection free: its program
returns or raises what the operation does, and leaves the tables as the operation does.
-/

set_option autoImplicit false

namespace SupernoteTaskService

open Foundation Program

section Computes
variable (env : Environment) (size : ℤ) (held : ℕ) (userId : ℤ)

def Computes {α : Type} (program : DbProgram α) (server : Server) (result : Except Raised α)
    (after : Server) : Prop :=
  Ensures (cursorScope env) (At size held (some userId) server) program
    (fun value world => result = .ok value ∧ At size held (some userId) after world)
    fun error world => ∃ raised, result = .error raised ∧ error = .raised raised ∧
      At size held (some userId) after world

variable {env size held userId} {α β : Type} {server between after : Server}

theorem computes_done (value : α) : Computes env size held userId (.done value) server (.ok value)
    server :=
  ensures_done fun _ state => ⟨rfl, state⟩

theorem computes_fromExcept (result : Except Raised α) :
    Computes env size held userId (fromExcept result) server result server := by
  refine ensures_step fun world state => ?_
  cases result with
  | ok value => exact ⟨rfl, state⟩
  | error raised => exact ⟨raised, rfl, rfl, state⟩

theorem computes_execute (alone : env.Alone) (statement : Statement α) :
    Computes env size held userId (execute env statement) server (statement server).1
      (statement server).2 :=
  ensures_execute alone statement

theorem Computes.bind_ok {program : DbProgram α} {rest : α → DbProgram β} {value : α}
    {result : Except Raised β}
    (first : Computes env size held userId program server (.ok value) between)
    (second : Computes env size held userId (rest value) between result after) :
    Computes env size held userId (program >>= rest) server result after := by
  refine Ensures.bind (first.mono (fun _ pre => pre) (fun _ _ returns => returns) ?_) fun other => ?_
  · rintro error world ⟨raised, impossible, -⟩
    cases impossible
  · rintro world ⟨same, state⟩
    cases same
    exact second world state

theorem Computes.bind {program : DbProgram α} {rest : α → DbProgram β} {result : Except Raised α}
    {next : α → Except Raised β}
    (first : Computes env size held userId program server result after)
    (second : ∀ value, Computes env size held userId (rest value) after (next value) after) :
    Computes env size held userId (program >>= rest) server (result >>= next) after := by
  cases result with
  | ok value => exact first.bind_ok (second value)
  | error raised =>
      have raises : Ensures (cursorScope env) (At size held (some userId) server) program
          (fun _ _ => False) fun error world => ∃ other,
            (Except.error raised : Except Raised β) = .error other ∧ error = .raised other ∧
              At size held (some userId) after world := by
        refine first.mono (fun _ pre => pre) ?_ ?_
        · rintro value world ⟨impossible, -⟩
          cases impossible
        · rintro error world ⟨other, same, isRaised, state⟩
          cases same
          exact ⟨raised, rfl, isRaised, state⟩
      exact raises.bind fun _ _ never => never.elim

theorem Computes.map {program : DbProgram α} {result : Except Raised α}
    (computes : Computes env size held userId program server result after) (f : α → β) :
    Computes env size held userId (program >>= fun value => pure (f value)) server
      (result.map f) after := by
  have mapped := computes.bind fun value => computes_done (f value)
  cases result with
  | ok value => exact mapped
  | error raised => exact mapped

theorem computes_getUserId : Computes env size held userId (getUserId env) server (.ok userId)
    server := by
  refine ensures_getUserId.mono (fun _ pre => pre) ?_ fun _ _ impossible => impossible
  rintro value world ⟨rfl, state⟩
  exact ⟨rfl, state⟩

theorem Computes.cursor (alone : env.Alone) {body : DbProgram α} {result : Except Raised α}
    (room : held < size) (computes : Computes env size (held + 1) userId body server result after) :
    Computes env size held userId (SupernoteTaskService.cursor body) server result after := by
  have inside : Ensures (cursorScope env) (At size (held + 1) (some userId) server) body
      (fun value world => ∃ u s, (result = .ok value ∧ u = some userId ∧ s = after) ∧
        At size (held + 1) u s world)
      fun error world => ∃ u s, ((∃ raised, result = .error raised ∧ error = .raised raised) ∧
        u = some userId ∧ s = after) ∧ At size (held + 1) u s world := by
    refine computes.mono (fun _ pre => pre) ?_ ?_
    · rintro value world ⟨returns, state⟩
      exact ⟨_, _, ⟨returns, rfl, rfl⟩, state⟩
    · rintro error world ⟨raised, raises, isRaised, state⟩
      exact ⟨_, _, ⟨⟨raised, raises, isRaised⟩, rfl, rfl⟩, state⟩
  refine (ensures_cursor alone room inside).mono (fun _ pre => pre) ?_ ?_
  · rintro value world ⟨u, s, ⟨returns, rfl, rfl⟩, state⟩
    exact ⟨returns, state⟩
  · rintro error world ⟨u, s, ⟨⟨raised, raises, isRaised⟩, rfl, rfl⟩, state⟩
    exact ⟨raised, raises, isRaised, state⟩

end Computes

/-! ## The shared body of the two reads -/

section Pages
variable {env : Environment} {size : ℤ} {held : ℕ} {userId : ℤ} {ρ α : Type}
  {server : Server}

theorem computes_pageProgram {render : ρ → Except Raised α} (stamp : α → ℤ) (effectiveLimit : ℕ)
    (serverNow : ℤ) (delta : Bool) (rows : List ρ) {drain : α → DbProgram (List α)}
    {drained : α → List ρ} (drains : ∀ last,
      Computes env size held userId (drain last) server ((drained last).mapM render) server) :
    Computes env size held userId
      (Repository.pageProgram render stamp effectiveLimit serverNow delta rows drain) server
      (assemblePage render stamp effectiveLimit serverNow delta rows drained) server := by
  refine (computes_fromExcept (rows.mapM render)).bind fun items => ?_
  dsimp only
  generalize (if (delta && isSingleMsFullPage (items.map stamp) effectiveLimit) = true
    then items.getLast? else none) = boundary
  cases boundary with
  | none => exact computes_done _
  | some last => exact (drains last).bind fun more => computes_done _

theorem assemblePage_map {κ : Type} (join : κ → ρ) (render : ρ → Except Raised α) (stamp : α → ℤ)
    (effectiveLimit : ℕ) (serverNow : ℤ) (delta : Bool) (rows : List κ) (drained : α → List κ) :
    assemblePage render stamp effectiveLimit serverNow delta (rows.map join)
      (fun last => (drained last).map join) =
    assemblePage (fun row => render (join row)) stamp effectiveLimit serverNow delta rows
      drained := by
  simp only [assemblePage, List.mapM_map]
  rfl

end Pages

/-! ## The fourteen operations -/

section Operations
variable {env : Environment} {size : ℤ} {userId : ℤ} {server : Server} {α : Type}

theorem computes_read (alone : env.Alone) (room : 1 ≤ size) (query : Server → α) :
    Computes env size 0 userId (cursor (execute env (.read query))) server (.ok (query server))
      server :=
  (computes_execute alone _).cursor alone (by omega)

theorem computes_write (alone : env.Alone) (room : 1 ≤ size) (effect : Store → α × Store) :
    Computes env size 0 userId (cursor (execute env (.write effect))) server
      (.ok (effect server.store).1) { server with store := (effect server.store).2 } :=
  (computes_execute alone _).cursor alone (by omega)

/-- Asking for the user id inside the block changes nothing once it is known. -/
theorem computes_read_inside (alone : env.Alone) (room : 1 ≤ size) (query : ℤ → Server → α) :
    Computes env size 0 userId
      (cursor (getUserId env >>= fun userId => execute env (.read (query userId)))) server
      (.ok (query userId server)) server :=
  (computes_getUserId.bind_ok (computes_execute alone _)).cursor alone (by omega)

theorem computes_insert (alone : env.Alone) (room : 1 ≤ size)
    (effect : Store → Except Raised (α × Store)) :
    Computes env size 0 userId (cursor (execute env (.insert effect))) server
      (Statement.insert effect server).1 (Statement.insert effect server).2 :=
  (computes_execute alone _).cursor alone (by omega)

theorem computes_drainTasksAt (alone : env.Alone) (room : 1 ≤ size) (query : TaskQuery)
    (boundary : ℤ) (afterId : Text) :
    Computes env size 0 userId (Repository.drainTasksAt env query boundary afterId) server
      (((drainTasksAt (Repository.database env userId) server.store query boundary afterId).map
        server.store.join).mapM (rowToTask env.linkModel)) server := by
  refine computes_getUserId.bind_ok ((computes_read alone room _).bind_ok ?_)
  exact computes_fromExcept _

theorem computes_listTasks (alone : env.Alone) (room : 1 ≤ size) (now : ℤ) (query : TaskQuery) :
    Computes env size 0 userId (Repository.listTasks env now query) server
      (listTasks (Repository.database env userId) server.store now query) server := by
  refine computes_getUserId.bind_ok ((computes_read alone room _).bind_ok ?_)
  have joined : listTasks (Repository.database env userId) server.store now query = _ :=
    (assemblePage_map server.store.join (rowToTask env.linkModel) Task.lastModified
      (clampLimit query.limit) now query.since.isSome
      (taskPageRows (Repository.database env userId) server.store now query) fun last => drainTasksAt (Repository.database env userId) server.store query
        last.lastModified last.id).symm
  rw [joined]
  exact computes_pageProgram _ _ _ _ _ fun last => computes_drainTasksAt alone room query _ _

theorem computes_getTask (alone : env.Alone) (room : 1 ≤ size) (taskId : Text) :
    Computes env size 0 userId (Repository.getTask env taskId) server
      (getTask (Repository.database env userId) server.store taskId) server := by
  refine (computes_read_inside alone room _).bind_ok ?_
  have mapped : ∀ row, (server.store.task (Repository.database env userId) row >>= fun task =>
      pure (some task)) = (rowToTask env.linkModel (server.store.join row)).map some := by
    intro row
    rw [Store.task, Repository.database]
    cases rowToTask env.linkModel (server.store.join row) with
    | error raised => rfl
    | ok task => rfl
  unfold getTask
  cases activeTask (Repository.database env userId) server.store taskId with
  | none => exact computes_fromExcept _
  | some row =>
      dsimp only
      rw [mapped row]
      exact computes_fromExcept _

theorem computes_createTask (alone : env.Alone) (room : 1 ≤ size) (taskId : Text) (ts : ℤ)
    (data : TaskCreate) :
    Computes env size 0 userId (Repository.createTask env taskId ts data) server
      (Statement.insert (fun store => createTask (Repository.database env userId) store taskId ts
        data) server).1
      (Statement.insert (fun store => createTask (Repository.database env userId) store taskId ts
        data) server).2 := by
  have placed : ∀ sort : ℤ, (newTaskRow (Repository.database env userId) server.store taskId ts
      data).sort = some sort →
      Computes env size 1 userId (execute env (.insert fun store => insertTask store
        { newTaskRow (Repository.database env userId) store taskId ts data with
          sort := some sort })) server
        (Statement.insert (fun store => createTask (Repository.database env userId) store taskId ts
          data) server).1
        (Statement.insert (fun store => createTask (Repository.database env userId) store taskId ts
          data) server).2 := by
    intro sort isSort
    have sameInsert : Statement.insert (fun store => insertTask store
        { newTaskRow (Repository.database env userId) store taskId ts data with
          sort := some sort }) server =
        Statement.insert (fun store => createTask (Repository.database env userId) store taskId ts
          data) server := by
      simp only [Statement.insert, insertTask_placed isSort]
    have inserted : Computes env size 1 userId (execute env (.insert fun store =>
        insertTask store { newTaskRow (Repository.database env userId) store taskId ts
          data with sort := some sort })) server _ _ := computes_execute alone _
    rw [sameInsert] at inserted
    exact inserted
  refine computes_getUserId.bind_ok (Computes.cursor alone (by omega) ?_)
  cases given : data.sort with
  | some sort =>
      refine (computes_done (sort : ℤ)).bind_ok (placed sort ?_)
      rw [newTaskRow, given]
  | none =>
      refine (computes_execute alone _).bind_ok (placed _ ?_)
      rw [newTaskRow, given]
      rfl

theorem computes_updateTask (alone : env.Alone) (room : 1 ≤ size) (statusNow now : ℤ)
    (taskId : Text) (data : TaskUpdate) (expected : Option ℤ) :
    Computes env size 0 userId (Repository.updateTask env statusNow now taskId data expected)
      server
      (.ok (updateTask (Repository.database env userId) server.store statusNow now taskId data
        expected).1)
      { server with store := (updateTask (Repository.database env userId) server.store statusNow
        now taskId data expected).2 } := by
  unfold Repository.updateTask updateTask
  cases (updateSets data statusNow).isEmpty with
  | true =>
      cases expected with
      | some version => exact computes_read_inside alone room _
      | none => exact computes_read_inside alone room _
  | false => exact computes_getUserId.bind_ok (computes_write alone room _)

theorem computes_deleteTask (alone : env.Alone) (room : 1 ≤ size) (now : ℤ) (taskId : Text)
    (expected : Option ℤ) :
    Computes env size 0 userId (Repository.deleteTask env now taskId expected) server
      (.ok (deleteTask (Repository.database env userId) server.store now taskId expected).1)
      { server with store := (deleteTask (Repository.database env userId) server.store now taskId
        expected).2 } := by
  refine computes_getUserId.bind_ok ?_
  exact computes_write alone room fun store =>
    deleteTask (Repository.database env userId) store now taskId expected

theorem computes_listLists (alone : env.Alone) (room : 1 ≤ size) (now : ℤ) (query : ListQuery) :
    Computes env size 0 userId (Repository.listLists env now query) server
      (listLists (Repository.database env userId) server.store now query) server := by
  refine computes_getUserId.bind_ok ((computes_read alone room _).bind_ok ?_)
  refine Computes.bind (computes_pageProgram _ _ _ _ _ fun last => ?_) fun page => computes_done _
  refine (computes_read_inside alone room _).bind_ok ?_
  exact computes_fromExcept _

theorem computes_getList (alone : env.Alone) (room : 1 ≤ size) (listId : Text) :
    Computes env size 0 userId (Repository.getList env listId) server
      (.ok (getList (Repository.database env userId) server.store listId)) server :=
  (computes_read_inside alone room _).bind_ok (computes_done _)

theorem computes_createList (alone : env.Alone) (room : 1 ≤ size) (listId : Text) (ts : ℤ)
    (title : Text) :
    Computes env size 0 userId (Repository.createList env listId ts title) server
      (Statement.insert (fun store => createList (Repository.database env userId) store listId ts
        title) server).1
      (Statement.insert (fun store => createList (Repository.database env userId) store listId ts
        title) server).2 := by
  refine computes_getUserId.bind_ok ?_
  exact computes_insert alone room _

theorem computes_updateList (alone : env.Alone) (room : 1 ≤ size) (now : ℤ) (listId title : Text)
    (expected : Option ℤ) :
    Computes env size 0 userId (Repository.updateList env now listId title expected) server
      (.ok (updateList (Repository.database env userId) server.store now listId title expected).1)
      { server with store := (updateList (Repository.database env userId) server.store now listId
        title expected).2 } := by
  refine computes_getUserId.bind_ok ?_
  exact computes_write alone room fun store =>
    updateList (Repository.database env userId) store now listId title expected

theorem computes_deleteList (alone : env.Alone) (room : 1 ≤ size) (now : ℤ) (listId : Text)
    (expected : Option ℤ) :
    Computes env size 0 userId (Repository.deleteList env now listId expected) server
      (.ok (deleteList (Repository.database env userId) server.store now listId expected).1)
      { server with store := (deleteList (Repository.database env userId) server.store now listId
        expected).2 } := by
  refine computes_getUserId.bind_ok ?_
  exact computes_write alone room fun store =>
    deleteList (Repository.database env userId) store now listId expected

theorem insert_created (effect : Store → Except Raised (Text × Store)) (server : Server) :
    (Statement.insert effect server).1.map Returned.id = (match effect server.store with
        | .ok (id, after) => (.ok (.id id), after)
        | .error e => (.error e, server.store) : Except Raised Returned × Store).1 ∧
      (Statement.insert effect server).2 = { server with store := (match effect server.store with
        | .ok (id, after) => (.ok (.id id), after)
        | .error e => (.error e, server.store) : Except Raised Returned × Store).2 } := by
  unfold Statement.insert
  cases effect server.store with
  | ok created => exact ⟨rfl, rfl⟩
  | error raised => exact ⟨rfl, rfl⟩

/-- Alone, with the user known and a connection free, the program of an operation has the
operation's result and effect. -/
theorem Operation.program_computes (alone : env.Alone) (room : 1 ≤ size) (now : ℤ)
    (operation : Operation) :
    Computes env size 0 userId (operation.program env now) server
      (operation.run (Repository.database env userId) server.store now).1
      { server with store :=
          (operation.run (Repository.database env userId) server.store now).2 } := by
  cases operation with
  | listTasks query => exact (computes_listTasks alone room now query).map Returned.tasks
  | getTask taskId => exact (computes_getTask alone room taskId).map Returned.task
  | createTask taskId data =>
      obtain ⟨result, after⟩ := insert_created (fun store => SupernoteTaskService.createTask
        (Repository.database env userId) store taskId now data) server
      have created : Computes env size 0 userId (Repository.createTask env taskId now data >>=
          fun id => pure (Returned.id id)) server _ _ :=
        (computes_createTask alone room taskId now data).map Returned.id
      rw [result, after] at created
      exact created
  | updateTask statusNow taskId data expected =>
      exact (computes_updateTask alone room statusNow now taskId data expected).map Returned.flag
  | setStatus statusNow taskId status expected =>
      exact (computes_updateTask alone room statusNow now taskId (.ofStatus status) expected).map
        Returned.flag
  | deleteTask taskId expected =>
      exact (computes_deleteTask alone room now taskId expected).map Returned.flag
  | taskExists taskId => exact (computes_read_inside alone room _).map Returned.flag
  | listLists query => exact (computes_listLists alone room now query).map Returned.lists
  | getList listId => exact (computes_getList alone room listId).map Returned.list
  | listExists listId => exact (computes_read_inside alone room _).map Returned.flag
  | getListByTitle title => exact (computes_read_inside alone room _).map Returned.list
  | createList listId title =>
      obtain ⟨result, after⟩ := insert_created (fun store => SupernoteTaskService.createList
        (Repository.database env userId) store listId now title) server
      have created : Computes env size 0 userId (Repository.createList env listId now title >>=
          fun id => pure (Returned.id id)) server _ _ :=
        (computes_createList alone room listId now title).map Returned.id
      rw [result, after] at created
      exact created
  | updateList listId title expected =>
      exact (computes_updateList alone room now listId title expected).map Returned.flag
  | deleteList listId expected =>
      exact (computes_deleteList alone room now listId expected).map Returned.flag

end Operations

end SupernoteTaskService
