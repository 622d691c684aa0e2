import SupernoteTaskService.Db.Pool
import SupernoteTaskService.Foundation.Scoped
import SupernoteTaskService.Store
import SupernoteTaskService.Repository.Paging

/-!
# Cursor blocks and the exposed user

One thread's view of `Database`: it acquires connections for its `cursor()` blocks,
executes statements, and resolves the exposed user on the first use.  The calls into the
driver may fail at any time, and other threads may change the pool and the tables
between any two steps; only the resolved user id stays what it is.
-/

set_option autoImplicit false

namespace SupernoteTaskService

open Foundation

structure UserRow where
  userId : Option ℤ
  email : Option Text
  deriving DecidableEq

structure Server where
  users : List UserRow
  store : Store
  deriving DecidableEq

/-- `UserResolutionError`, with what its text names. -/
inductive UserResolutionError where
  | noSuchEmail (email : Text)
  | severalUsers (count : ℕ)
  | severalTaskUsers (count : ℕ)
  | unresolvable
  deriving DecidableEq

inductive Failure where
  | raised (error : Raised)
  | poolExhausted
  | userUnresolved (error : UserResolutionError)
  | otherException
  deriving DecidableEq

/-- The server, the pool, `_user_id`, and the steps of the thread so far. -/
structure World where
  server : Server
  pool : Pool
  userId : Option ℤ
  steps : ℕ := 0
  deriving DecidableEq

/-- The settings that the thread reads, what lies outside the repository, and what happens
around its steps. -/
structure Environment where
  email : Text
  collation : Collation
  linkModel : LinkModel
  outcome : ℕ → Outcome
  others : ℕ → Server × Pool → Server × Pool

def Outcome.failure : Outcome → Failure
  | .raisesError => .raised .databaseError
  | .returns | .raisesOther => .otherException

section Connections
variable (env : Environment)

def World.yield (world : World) : World :=
  let (server, pool) := env.others world.steps (world.server, world.pool)
  { world with server := server, pool := pool, steps := world.steps + 1 }

def World.call (world : World) : Outcome × World :=
  (env.outcome world.steps, world.yield env)

/-- `_create_reserved`, and the reconnect of a slot whose connection was dead. -/
def World.createReserved (world : World) : Except Failure ℕ × World :=
  let (outcome, world) := world.call env
  match world.pool.connect outcome with
  | some (conn, pool) => (.ok conn, { world with pool := pool })
  | none => (.error outcome.failure, { world with pool := world.pool.unreserveSlot })

def World.validate (conn : ℕ) (world : World) : Except Failure ℕ × World :=
  let (pinged, world) := world.call env
  match pinged with
  | .returns => (.ok conn, world)
  | .raisesOther => (.error .otherException, world)
  | .raisesError =>
      let (closed, world) := world.call env
      match closed with
      | .returns | .raisesError => world.createReserved env
      | .raisesOther => (.error .otherException, world)

def World.acquire (world : World) : Except Failure ℕ × World :=
  let world := world.yield env
  match world.pool.getNowait with
  | some (conn, pool) => { world with pool := pool }.validate env conn
  | none =>
      let world := world.yield env
      match world.pool.tryReserveSlot with
      | (true, pool) => { world with pool := pool }.createReserved env
      | (false, _) =>
          -- The timed `get`: what the other threads have put back until it looks again.
          let world := world.yield env
          match world.pool.getNowait with
          | some (conn, pool) => { world with pool := pool }.validate env conn
          | none => (.error .poolExhausted, world)

def World.release (conn : ℕ) (world : World) : Except Failure Unit × World :=
  let world := world.yield env
  match world.pool.putNowait conn with
  | some pool => (.ok (), { world with pool := pool })
  | none =>
      let (closed, world) := world.call env
      match closed with
      | .returns => (.ok (), { world with pool := world.pool.unreserveSlot })
      | .raisesError | .raisesOther => (.error closed.failure, world)

def cursorScope : Scope World Failure ℕ := ⟨World.acquire env, World.release env⟩

abbrev DbProgram := Program World Failure

/-- `with self.cursor() as cur`. -/
def cursor {α : Type} (body : DbProgram α) : DbProgram α := .block body

abbrev Statement (α : Type) := Server → Except Raised α × Server

def Statement.read {α : Type} (query : Server → α) : Statement α :=
  fun server => (.ok (query server), server)

/-- `cur.execute`; a statement that raises in the driver is taken not to have run. -/
def execute {α : Type} (statement : Statement α) : DbProgram α :=
  .step fun world =>
    let (outcome, world) := world.call env
    match outcome with
    | .returns =>
        let (result, server) := statement world.server
        (result.mapError .raised, { world with server := server })
    | .raisesError | .raisesOther => (.error outcome.failure, world)

def fromExcept {α : Type} (result : Except Raised α) : DbProgram α :=
  .step fun world => (result.mapError .raised, world)

end Connections

/-! ## The exposed user -/

section Users

def cachedUserId : DbProgram (Option ℤ) := .step fun world => (.ok world.userId, world)

def rememberUserId (userId : ℤ) : DbProgram Unit :=
  .step fun world => (.ok (), { world with userId := some userId })

/-- The first row of `SELECT user_id FROM u_user WHERE email = ..`. -/
def userOfEmail (email : Text) (server : Server) : Option UserRow :=
  server.users.find? fun row => decide (row.email = some email)

/-- `SELECT user_id FROM u_user ORDER BY user_id`. -/
def userIds (server : Server) : List (Option ℤ) :=
  (server.users.map UserRow.userId).insertionSort fun left right => columnBefore left right = true

/-- `SELECT DISTINCT user_id .. WHERE user_id IS NOT NULL`, of the tasks and of the lists. -/
def taskUserIds (server : Server) : List ℤ := (server.store.tasks.rows.filterMap TaskRow.userId).dedup

def listUserIds (server : Server) : List ℤ := (server.store.lists.rows.filterMap ListRow.userId).dedup

variable (env : Environment)

/-- One id is the user; several are an error; what none means is for the caller to say. -/
def soleUser (ids : List ℤ) (several : ℕ → UserResolutionError) (none : DbProgram ℤ) :
    DbProgram ℤ :=
  match ids with
  | [userId] => return userId
  | _ :: _ :: _ => .raise (.userUnresolved (several ids.length))
  | [] => none

def detectUserIdFromTasks : DbProgram ℤ := do
  let taskIds ← execute env (.read taskUserIds)
  let listIds ← execute env (.read listUserIds)
  soleUser (taskIds ++ listIds).dedup .severalTaskUsers (.raise (.userUnresolved .unresolvable))

def resolveUserId : DbProgram ℤ := cursor do
  if env.email.isEmpty then
    let rows ← execute env (.read userIds)
    soleUser rows.reduceOption .severalUsers (detectUserIdFromTasks env)
  else
    let row ← execute env (.read (userOfEmail env.email))
    match row.bind UserRow.userId with
    | some userId => return userId
    | none => .raise (.userUnresolved (.noSuchEmail env.email))

def getUserId : DbProgram ℤ := do
  match ← cachedUserId with
  | some userId => return userId
  | none =>
      -- Once more under `_user_lock`.
      match ← cachedUserId with
      | some userId => return userId
      | none =>
          let userId ← resolveUserId env
          rememberUserId userId
          return userId

end Users

/-! ## Acquiring is taking the steps of the pool -/

section Steps
variable {env : Environment}

def phaseAfter : Except Failure ℕ → Phase
  | .ok conn => .inBlock conn
  | .error _ => .outside

def Advance : Phase × Pool → Phase × Pool → Prop :=
  Relation.ReflTransGen fun before after => ∃ outcome, after = before.1.advance outcome before.2

theorem Advance.next {phase : Phase} {pool : Pool} {reached : Phase × Pool} (outcome : Outcome)
    (later : Advance (phase.advance outcome pool) reached) : Advance (phase, pool) reached :=
  .head ⟨outcome, rfl⟩ later

def Environment.Undisturbed (env : Environment) : Prop := ∀ n shared, env.others n shared = shared

theorem Environment.Undisturbed.yield_eq (undisturbed : env.Undisturbed) (world : World) :
    world.yield env = { world with steps := world.steps + 1 } := by
  rw [World.yield, undisturbed]

theorem createReserved_advances (undisturbed : env.Undisturbed) {phase : Phase} (world : World)
    (connects : phase = .connecting ∨ phase = .reconnecting) :
    Advance (phase, world.pool) (phaseAfter (world.createReserved env).1,
      (world.createReserved env).2.pool) := by
  refine .next (env.outcome world.steps) ?_
  have moved : phase.advance (env.outcome world.steps) world.pool =
      match world.pool.connect (env.outcome world.steps) with
      | some (conn, pool) => (.inBlock conn, pool)
      | none => (.unreserving, world.pool) := by
    rcases connects with rfl | rfl <;> rfl
  rw [moved, World.createReserved, World.call, undisturbed.yield_eq]
  dsimp only
  cases world.pool.connect (env.outcome world.steps) with
  | some opened => exact .refl
  | none => exact .next .returns .refl

theorem validate_advances (undisturbed : env.Undisturbed) (conn : ℕ) (world : World) :
    Advance (.validating conn, world.pool) (phaseAfter (world.validate env conn).1,
      (world.validate env conn).2.pool) := by
  let reconnecting := { world with steps := world.steps + 1 + 1 }
  refine .next (env.outcome world.steps) ?_
  rw [World.validate, World.call, undisturbed.yield_eq]
  dsimp only
  cases pinged : env.outcome world.steps with
  | returns => exact .refl
  | raisesOther => exact .refl
  | raisesError =>
      dsimp only [Phase.advance]
      refine .next (env.outcome (world.steps + 1)) ?_
      rw [World.call, undisturbed.yield_eq]
      dsimp only
      cases closed : env.outcome (world.steps + 1) with
      | returns => exact createReserved_advances undisturbed reconnecting (Or.inr rfl)
      | raisesError => exact createReserved_advances undisturbed reconnecting (Or.inr rfl)
      | raisesOther => exact .refl

/-- `_acquire` by a thread on its own takes the steps of the pool, until the thread is in
its block or has been turned away. -/
theorem acquire_advances (undisturbed : env.Undisturbed) (world : World) :
    Advance (.outside, world.pool) (phaseAfter (world.acquire env).1,
      (world.acquire env).2.pool) := by
  refine .next .returns ?_
  rw [World.acquire, undisturbed.yield_eq]
  dsimp only [Phase.advance]
  cases gets : world.pool.getNowait with
  | some taken =>
      exact validate_advances undisturbed taken.1
        { world with pool := taken.2, steps := world.steps + 1 }
  | none =>
      dsimp only
      refine .next .returns ?_
      rw [undisturbed.yield_eq]
      dsimp only [Phase.advance]
      by_cases spare : world.pool.created < world.pool.size
      · rw [Pool.tryReserveSlot, if_pos spare]
        exact createReserved_advances undisturbed { world with
          pool := { world.pool with created := world.pool.created + 1 }
          steps := world.steps + 1 + 1 } (Or.inl rfl)
      · rw [Pool.tryReserveSlot, if_neg spare]
        dsimp only
        rw [undisturbed.yield_eq]
        refine .next .returns ?_
        dsimp only [Phase.advance]
        rw [gets]
        exact .refl

theorem release_advances (undisturbed : env.Undisturbed) (conn : ℕ) (world : World) :
    Advance (.releasing conn, world.pool) (.outside, (world.release env conn).2.pool) := by
  refine .next .returns ?_
  rw [World.release, undisturbed.yield_eq]
  dsimp only [Phase.advance]
  cases puts : world.pool.putNowait conn with
  | some pool => exact .refl
  | none =>
      dsimp only
      refine .next (env.outcome (world.steps + 1)) ?_
      rw [World.call, undisturbed.yield_eq]
      dsimp only
      cases env.outcome (world.steps + 1) with
      | returns => exact .next .returns .refl
      | raisesError => exact .refl
      | raisesOther => exact .refl

end Steps

/-! ## Resolving the user -/

section Resolution
variable {env : Environment} {world : World}

theorem World.createReserved_userId (env : Environment) (world : World) :
    (world.createReserved env).2.userId = world.userId := by
  unfold World.createReserved World.call
  dsimp only
  cases (world.yield env).pool.connect (env.outcome world.steps) with
  | none => rfl
  | some opened => rfl

theorem World.validate_userId (env : Environment) (conn : ℕ) (world : World) :
    (world.validate env conn).2.userId = world.userId := by
  unfold World.validate World.call
  dsimp only
  cases env.outcome world.steps with
  | returns => rfl
  | raisesOther => rfl
  | raisesError =>
      dsimp only
      cases env.outcome (world.yield env).steps with
      | returns => exact World.createReserved_userId env _
      | raisesError => exact World.createReserved_userId env _
      | raisesOther => rfl

theorem World.acquire_userId (env : Environment) (world : World) :
    (world.acquire env).2.userId = world.userId := by
  unfold World.acquire
  dsimp only
  cases (world.yield env).pool.getNowait with
  | some taken => exact World.validate_userId env _ _
  | none =>
      dsimp only
      rcases ((world.yield env).yield env).pool.tryReserveSlot with ⟨_ | _, pool⟩
      · dsimp only
        cases (((world.yield env).yield env).yield env).pool.getNowait with
        | some taken => exact World.validate_userId env _ _
        | none => rfl
      · exact World.createReserved_userId env _

theorem World.release_userId (env : Environment) (conn : ℕ) (world : World) :
    (world.release env conn).2.userId = world.userId := by
  unfold World.release World.call
  dsimp only
  cases (world.yield env).pool.putNowait conn with
  | some pool => rfl
  | none =>
      dsimp only
      cases env.outcome (world.yield env).steps with
      | returns => rfl
      | raisesError => rfl
      | raisesOther => rfl

theorem entersNone_cachedUserId_bind {α : Type} (rest : Option ℤ → DbProgram α) :
    (cachedUserId >>= rest).EntersNone (cursorScope env) world ↔
      (rest world.userId).EntersNone (cursorScope env) world := Iff.rfl

theorem neverNests_cachedUserId_bind {α : Type} (rest : Option ℤ → DbProgram α) :
    (cachedUserId >>= rest).NeverNests (cursorScope env) world ↔
      (rest world.userId).NeverNests (cursorScope env) world := Iff.rfl

theorem run_getUserId {userId : ℤ} (known : world.userId = some userId) :
    (getUserId env).run (cursorScope env) world = (.ok userId, world) := by
  rw [getUserId, Program.run_bind, cachedUserId, Program.run_step, Program.proceed_ok, known]
  rfl

theorem run_getUserId_unresolved (unresolved : world.userId = none) :
    (getUserId env).run (cursorScope env) world = (resolveUserId env >>= fun userId =>
      rememberUserId userId >>= fun _ => pure userId).run (cursorScope env) world := by
  rw [getUserId, Program.run_bind, cachedUserId, Program.run_step, Program.proceed_ok, unresolved]
  dsimp only
  rw [Program.run_bind, Program.run_step, Program.proceed_ok, unresolved]

theorem getUserId_ensures : Program.Ensures (cursorScope env) (fun _ => True) (getUserId env)
    (fun userId after => after.userId = some userId) fun _ _ => True := by
  have reads : ∀ Pre : World → Prop, Program.Ensures (cursorScope env) Pre cachedUserId
      (fun cached world => world.userId = cached) fun _ _ => True :=
    fun _ => Program.ensures_step fun world _ => rfl
  refine (reads _).bind fun cached => ?_
  cases cached with
  | some userId => exact Program.ensures_done fun world known => known
  | none =>
      refine (reads _).bind fun cached => ?_
      cases cached with
      | some userId => exact Program.ensures_done fun world known => known
      | none =>
          refine (Program.ensures_true (resolveUserId env)).bind fun userId => ?_
          have remembers : Program.Ensures (cursorScope env) (fun _ => True)
              (rememberUserId userId) (fun _ after => after.userId = some userId)
              fun _ _ => True := Program.ensures_step fun world _ => rfl
          exact remembers.bind fun _ => Program.ensures_done fun world known => known

theorem entersNone_getUserId_iff :
    (getUserId env).EntersNone (cursorScope env) world ↔ world.userId ≠ none := by
  rw [getUserId, entersNone_cachedUserId_bind]
  cases resolved : world.userId with
  | some userId => exact iff_of_true rfl (by simp)
  | none =>
      dsimp only
      rw [entersNone_cachedUserId_bind, resolved]
      refine iff_of_false ?_ (by simp)
      exact Program.not_entersNone_block_bind _ _ _

theorem entersNone_execute {α : Type} (statement : Statement α) :
    (execute env statement).EntersNone (cursorScope env) world := Program.entersNone_step _ _

theorem entersNone_soleUser {ids : List ℤ} {several : ℕ → UserResolutionError}
    {none : DbProgram ℤ} (otherwise : none.EntersNone (cursorScope env) world) :
    (soleUser ids several none).EntersNone (cursorScope env) world := by
  unfold soleUser
  split
  · rfl
  · rfl
  · exact otherwise

theorem neverNests_resolveUserId : (resolveUserId env).NeverNests (cursorScope env) world := by
  refine (Program.neverNests_block_iff _ _).mpr fun conn inside _ => ?_
  split
  · refine (Program.entersNone_bind_iff _ _ _).mpr ⟨entersNone_execute _, fun rows after _ => ?_⟩
    refine entersNone_soleUser ?_
    refine (Program.entersNone_bind_iff _ _ _).mpr ⟨entersNone_execute _, fun tasks after _ => ?_⟩
    refine (Program.entersNone_bind_iff _ _ _).mpr ⟨entersNone_execute _, fun lists after _ => ?_⟩
    exact entersNone_soleUser rfl
  · refine (Program.entersNone_bind_iff _ _ _).mpr ⟨entersNone_execute _, fun row after _ => ?_⟩
    cases row.bind UserRow.userId with
    | some userId => rfl
    | none => rfl

theorem neverNests_getUserId : (getUserId env).NeverNests (cursorScope env) world := by
  by_cases resolved : world.userId = none
  · rw [getUserId, neverNests_cachedUserId_bind, resolved]
    dsimp only
    rw [neverNests_cachedUserId_bind, resolved]
    refine (Program.neverNests_bind_iff _ _ _).mpr ⟨neverNests_resolveUserId, fun _ _ _ => ?_⟩
    exact Program.EntersNone.neverNests rfl
  · exact (entersNone_getUserId_iff.mpr resolved).neverNests

end Resolution

end SupernoteTaskService
