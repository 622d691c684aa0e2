import SupernoteTaskService.Db.Cursor

/-!
# A thread on its own

The database answers every call and no other thread is about.  `At` says how many
connections the thread holds of a pool whose accounts balance; the rules below follow a
program through its blocks, and say when a block finds the pool exhausted.
-/

set_option autoImplicit false

namespace SupernoteTaskService

open Foundation Program

/-- The database is reachable, and nobody else uses it or the pool. -/
structure Environment.Alone (env : Environment) : Prop where
  reachable : ∀ n, env.outcome n = .returns
  undisturbed : env.Undisturbed

/-- The thread holds so many of the created connections, and the others lie idle. -/
structure At (size : ℤ) (held : ℕ) (userId : Option ℤ) (server : Server) (world : World) :
    Prop where
  size_eq : world.pool.size = size
  balance : world.pool.created = world.pool.idle.length + held
  bounded : world.pool.created ≤ size
  userId_eq : world.userId = userId
  server_eq : world.server = server

def IdlePool (size : ℤ) (world : World) : Prop := At size 0 world.userId world.server world

section Rules
variable {env : Environment} {size : ℤ} {held : ℕ} {userId : Option ℤ} {server : Server}
  {world : World}

theorem Environment.Alone.call_eq (alone : env.Alone) (world : World) :
    world.call env = (.returns, { world with steps := world.steps + 1 }) := by
  rw [World.call, alone.reachable, alone.undisturbed.yield_eq]

theorem createReserved_alone (alone : env.Alone) (world : World) :
    world.createReserved env = (.ok world.pool.opened, { world with
      pool := { world.pool with opened := world.pool.opened + 1 }, steps := world.steps + 1 }) := by
  rw [World.createReserved, alone.call_eq]
  rfl

theorem validate_alone (alone : env.Alone) (conn : ℕ) (world : World) :
    world.validate env conn = (.ok conn, { world with steps := world.steps + 1 }) := by
  rw [World.validate, alone.call_eq]

theorem At.acquire (alone : env.Alone) (state : At size held userId server world)
    (room : held < size) : Ends (fun _ => At size (held + 1) userId server) (fun _ _ => False)
      (world.acquire env) := by
  obtain ⟨size_eq, balance, bounded, userId_eq, server_eq⟩ := state
  rw [World.acquire, alone.undisturbed.yield_eq]
  cases lies : world.pool.idle with
  | cons conn idle =>
      rw [lies, List.length_cons] at balance
      dsimp only [Pool.getNowait]
      rw [lies]
      dsimp only
      rw [validate_alone alone]
      exact ⟨size_eq, by push_cast; omega, bounded, userId_eq, server_eq⟩
  | nil =>
      rw [lies, List.length_nil] at balance
      have spare : world.pool.created < world.pool.size := by omega
      dsimp only [Pool.getNowait]
      rw [lies]
      dsimp only
      rw [alone.undisturbed.yield_eq, Pool.tryReserveSlot, if_pos spare]
      dsimp only
      rw [createReserved_alone alone]
      refine ⟨size_eq, ?_, ?_, userId_eq, server_eq⟩
      · dsimp only
        rw [lies, balance]
        push_cast
        simp
      · dsimp only
        omega

theorem At.exhausted (alone : env.Alone) (state : At size held userId server world)
    (full : held = size) : Ends (fun _ _ => False)
      (fun error after => error = .poolExhausted ∧ At size held userId server after)
      (world.acquire env) := by
  obtain ⟨size_eq, balance, bounded, userId_eq, server_eq⟩ := state
  have nothing : world.pool.idle = [] := List.eq_nil_of_length_eq_zero (by omega)
  have noSpare : ¬ world.pool.created < world.pool.size := by omega
  rw [World.acquire, alone.undisturbed.yield_eq]
  dsimp only [Pool.getNowait]
  rw [nothing]
  dsimp only
  rw [alone.undisturbed.yield_eq, Pool.tryReserveSlot, if_neg noSpare]
  dsimp only
  rw [alone.undisturbed.yield_eq]
  dsimp only
  rw [nothing]
  exact ⟨rfl, size_eq, balance, bounded, userId_eq, server_eq⟩

theorem At.release (alone : env.Alone) (state : At size (held + 1) userId server world)
    (conn : ℕ) : Ends (fun _ => At size held userId server) (fun _ _ => False)
      (world.release env conn) := by
  obtain ⟨size_eq, balance, bounded, userId_eq, server_eq⟩ := state
  have room : world.pool.full = false := by
    have notFull : ¬ world.pool.size ≤ world.pool.idle.length := by omega
    simp [Pool.full, notFull]
  rw [World.release, alone.undisturbed.yield_eq]
  dsimp only [Pool.putNowait]
  rw [room]
  refine ⟨size_eq, ?_, bounded, userId_eq, server_eq⟩
  dsimp only
  rw [List.length_cons, balance]
  push_cast
  omega

theorem ensures_cursor (alone : env.Alone) {α : Type} {body : DbProgram α} (room : held < size)
    {Returns : α → Option ℤ → Server → Prop} {Raises : Failure → Option ℤ → Server → Prop}
    (runs : Ensures (cursorScope env) (At size (held + 1) userId server) body
      (fun value after => ∃ u s, Returns value u s ∧ At size (held + 1) u s after)
      fun error after => ∃ u s, Raises error u s ∧ At size (held + 1) u s after) :
    Ensures (cursorScope env) (At size held userId server) (cursor body)
      (fun value after => ∃ u s, Returns value u s ∧ At size held u s after)
      fun error after => ∃ u s, Raises error u s ∧ At size held u s after := by
  refine Ensures.block (fun world state => (state.acquire alone room).mono (fun _ _ inside => inside)
    fun _ _ never => never.elim) (fun _ => runs) ?_ ?_
  · rintro conn value after ⟨u, s, returns, inside⟩
    exact (inside.release alone conn).mono (fun _ _ outside => ⟨u, s, returns, outside⟩)
      fun _ _ never => never.elim
  · rintro conn error after ⟨u, s, raises, inside⟩
    exact (inside.release alone conn).mono (fun _ _ outside => ⟨u, s, raises, outside⟩)
      fun _ _ never => never.elim

theorem ensures_execute (alone : env.Alone) {α : Type} (statement : Statement α) :
    Ensures (cursorScope env) (At size held userId server) (execute env statement)
      (fun value after => (statement server).1 = .ok value ∧
        At size held userId (statement server).2 after)
      fun error after => ∃ raised, (statement server).1 = .error raised ∧
        error = .raised raised ∧ At size held userId (statement server).2 after := by
  refine ensures_step fun world state => ?_
  obtain ⟨size_eq, balance, bounded, userId_eq, rfl⟩ := state
  dsimp only
  rw [alone.call_eq]
  rcases statement world.server with ⟨raised | value, after⟩
  · exact ⟨raised, rfl, rfl, size_eq, balance, bounded, userId_eq, rfl⟩
  · exact ⟨rfl, size_eq, balance, bounded, userId_eq, rfl⟩

theorem ensures_getUserId {userId : ℤ} {Raises : Failure → World → Prop} :
    Ensures (cursorScope env) (At size held (some userId) server) (getUserId env)
      (fun value after => value = userId ∧ At size held (some userId) server after) Raises := by
  intro world state
  rw [run_getUserId state.userId_eq]
  exact ⟨rfl, state⟩

end Rules

/-! ## The pool at its limit -/

section Limit
variable {env : Environment} {size : ℤ} {held : ℕ} {userId : Option ℤ} {server : Server}

/-- The program only reads, and does not fail for want of a connection. -/
def OnlyReads (env : Environment) (size : ℤ) (held : ℕ) (server : Server) {α : Type}
    (program : DbProgram α) : Prop :=
  Ensures (cursorScope env) (At size held none server) program
    (fun _ => At size held none server)
    fun error after => error ≠ .poolExhausted ∧ At size held none server after

theorem onlyReads_execute (alone : env.Alone) {α : Type} (query : Server → α) :
    OnlyReads env size held server (execute env (.read query)) := by
  refine (ensures_execute alone _).mono (fun _ pre => pre) (fun _ _ returns => returns.2) ?_
  rintro error after ⟨raised, -, rfl, state⟩
  exact ⟨by simp, state⟩

theorem onlyReads_raise {α : Type} {error : Failure} (other : error ≠ .poolExhausted) :
    OnlyReads env size held server (Program.raise error : DbProgram α) :=
  ensures_step fun _ state => ⟨other, state⟩

theorem OnlyReads.bind {α β : Type} {program : DbProgram α} {rest : α → DbProgram β}
    (first : OnlyReads env size held server program)
    (second : ∀ value, OnlyReads env size held server (rest value)) :
    OnlyReads env size held server (program >>= rest) := Ensures.bind first second

theorem onlyReads_soleUser {ids : List ℤ} {several : ℕ → UserResolutionError}
    {none : DbProgram ℤ} (otherwise : OnlyReads env size held server none) :
    OnlyReads env size held server (soleUser ids several none) := by
  unfold soleUser
  split
  · exact ensures_done fun _ state => state
  · exact onlyReads_raise (by simp)
  · exact otherwise

theorem OnlyReads.cursor (alone : env.Alone) (room : held < size) {α : Type} {body : DbProgram α}
    (inside : OnlyReads env size (held + 1) server body) :
    OnlyReads env size held server (cursor body) := by
  have placed := inside.mono (fun _ pre => pre)
    (fun _ after state => (⟨none, server, ⟨rfl, rfl⟩, state⟩ : ∃ u s, (u = none ∧ s = server) ∧
      At size (held + 1) u s after))
    fun error after raises => (⟨none, server, ⟨raises.1, rfl, rfl⟩, raises.2⟩ : ∃ u s,
      (error ≠ .poolExhausted ∧ u = none ∧ s = server) ∧ At size (held + 1) u s after)
  refine (ensures_cursor alone room placed).mono (fun _ pre => pre) ?_ ?_
  · rintro value after ⟨u, s, ⟨rfl, rfl⟩, state⟩
    exact state
  · rintro error after ⟨u, s, ⟨other, rfl, rfl⟩, state⟩
    exact ⟨other, state⟩

theorem onlyReads_resolveUserId (alone : env.Alone) (room : held < size) :
    OnlyReads env size held server (resolveUserId env) := by
  rw [resolveUserId]
  refine OnlyReads.cursor alone room ?_
  split
  · refine (onlyReads_execute alone _).bind fun rows => onlyReads_soleUser ?_
    refine (onlyReads_execute alone _).bind fun taskIds => ?_
    refine (onlyReads_execute alone _).bind fun listIds => onlyReads_soleUser ?_
    exact onlyReads_raise (by simp)
  · refine (onlyReads_execute alone _).bind fun row => ?_
    cases row.bind UserRow.userId with
    | some userId => exact ensures_done fun _ state => state
    | none => exact onlyReads_raise (by simp)

theorem getUserId_alone (alone : env.Alone) (room : held < size) :
    Ensures (cursorScope env) (At size held none server) (getUserId env)
      (fun userId => At size held (some userId) server)
      fun error after => error ≠ .poolExhausted ∧ At size held none server after := by
  have remembers : Ensures (cursorScope env) (At size held none server)
      (resolveUserId env >>= fun userId => rememberUserId userId >>= fun _ => pure userId)
      (fun userId => At size held (some userId) server)
      fun error after => error ≠ .poolExhausted ∧ At size held none server after := by
    refine Ensures.bind (onlyReads_resolveUserId alone room) fun userId => ?_
    have remembered : Ensures (cursorScope env) (At size held none server)
        (rememberUserId userId) (fun _ => At size held (some userId) server)
        fun error after => error ≠ .poolExhausted ∧ At size held none server after :=
      ensures_step fun world state =>
        ⟨state.size_eq, state.balance, state.bounded, rfl, state.server_eq⟩
    exact remembered.bind fun _ => ensures_done fun _ state => state
  intro world state
  rw [run_getUserId_unresolved state.userId_eq]
  exact remembers world state

theorem getUserId_exhausted (alone : env.Alone) (full : held = size) :
    Ensures (cursorScope env) (At size held none server) (getUserId env) (fun _ _ => False)
      fun error after => error = .poolExhausted ∧ At size held none server after := by
  intro world state
  have blocked : Ends (fun _ _ => False)
      (fun error after => error = .poolExhausted ∧ At size held none server after)
      ((resolveUserId env).run (cursorScope env) world) := by
    rw [resolveUserId, cursor, run_block, around]
    exact (state.exhausted alone full).proceed fun _ _ never => never.elim
  rw [run_getUserId_unresolved state.userId_eq, run_bind]
  exact blocked.proceed fun _ _ never => never.elim

end Limit

end SupernoteTaskService
