import SupernoteTaskService.Repository.Refinement

/-!
# Holding a connection while waiting for another

Resolving the exposed user takes a block of its own.  Most operations ask for the user
before they enter a block; the others ask inside it, and until the user is resolved they
need two connections at once.
-/

set_option autoImplicit false

namespace SupernoteTaskService

open Foundation Program

/-! ## Once the user is resolved -/

section Settled
variable (env : Environment) {α β : Type}

def Resolved (world : World) : Prop := world.userId ≠ none

def KeepsUser (program : DbProgram α) : Prop :=
  Ensures (cursorScope env) Resolved program (fun _ => Resolved) fun _ => Resolved

/-- With the user resolved, the program enters its blocks one at a time. -/
structure Settled (program : DbProgram α) : Prop where
  flat : ∀ world, Resolved world → program.NeverNests (cursorScope env) world
  keeps : KeepsUser env program

structure Still (program : DbProgram α) : Prop where
  none : ∀ world, Resolved world → program.EntersNone (cursorScope env) world
  keeps : KeepsUser env program

variable {env}

theorem still_done (value : α) : Still env (.done value) :=
  ⟨fun _ _ => rfl, ensures_done fun _ resolved => resolved⟩

theorem still_fromExcept (result : Except Raised α) : Still env (fromExcept result) := by
  refine ⟨fun world _ => entersNone_step _ _, ensures_step fun world resolved => ?_⟩
  cases result with
  | ok value => exact resolved
  | error raised => exact resolved

theorem still_execute (statement : Statement α) : Still env (execute env statement) := by
  refine ⟨fun world _ => entersNone_step _ _, ensures_step fun world resolved => ?_⟩
  dsimp only [World.call]
  cases env.outcome world.steps with
  | raisesError => exact resolved
  | raisesOther => exact resolved
  | returns =>
      dsimp only
      rcases statement (world.yield env).server with ⟨raised | value, after⟩
      · exact resolved
      · exact resolved

theorem still_getUserId : Still env (getUserId env) := by
  refine ⟨fun world resolved => entersNone_getUserId_iff.mpr resolved, fun world resolved => ?_⟩
  obtain ⟨userId, known⟩ := Option.ne_none_iff_exists'.mp resolved
  rw [run_getUserId known]
  exact resolved

theorem Still.settled {program : DbProgram α} (still : Still env program) : Settled env program :=
  ⟨fun world resolved => (still.none world resolved).neverNests, still.keeps⟩

theorem KeepsUser.bind {program : DbProgram α} {rest : α → DbProgram β}
    (first : KeepsUser env program) (second : ∀ value, KeepsUser env (rest value)) :
    KeepsUser env (program >>= rest) :=
  Ensures.bind first second

theorem Still.bind {program : DbProgram α} {rest : α → DbProgram β} (first : Still env program)
    (second : ∀ value, Still env (rest value)) : Still env (program >>= rest) := by
  refine ⟨fun world resolved => ?_, first.keeps.bind fun value => (second value).keeps⟩
  refine (entersNone_bind_iff _ _ _).mpr ⟨first.none world resolved, fun value after returned => ?_⟩
  exact (second value).none after (first.keeps.of_run resolved returned)

theorem Settled.bind {program : DbProgram α} {rest : α → DbProgram β}
    (first : Settled env program) (second : ∀ value, Settled env (rest value)) :
    Settled env (program >>= rest) := by
  refine ⟨fun world resolved => ?_, first.keeps.bind fun value => (second value).keeps⟩
  refine (neverNests_bind_iff _ _ _).mpr ⟨first.flat world resolved, fun value after returned => ?_⟩
  exact (second value).flat after (first.keeps.of_run resolved returned)

theorem resolved_acquire {world : World} (resolved : Resolved world) :
    Ends (fun _ : ℕ => Resolved) (fun _ => Resolved) (world.acquire env) := by
  refine ends_of_final ?_
  rw [Resolved, World.acquire_userId]
  exact resolved

theorem resolved_release (conn : ℕ) {world : World} (resolved : Resolved world) :
    Ends (fun _ => Resolved) (fun _ => Resolved) (world.release env conn) := by
  refine ends_of_final ?_
  rw [Resolved, World.release_userId]
  exact resolved

theorem Still.cursor {body : DbProgram α} (still : Still env body) :
    Settled env (SupernoteTaskService.cursor body) := by
  refine ⟨fun world resolved => ?_, ?_⟩
  · refine (neverNests_block_iff _ _).mpr fun conn inside entered => still.none inside ?_
    have stays : Ends (fun _ : ℕ => Resolved) (fun _ => Resolved) (world.acquire env) :=
      resolved_acquire resolved
    change world.acquire env = _ at entered
    rw [entered] at stays
    exact stays
  · exact Ensures.block (fun world resolved => resolved_acquire resolved) (fun _ => still.keeps)
      (fun conn value world resolved => resolved_release conn resolved)
      fun conn error world resolved => resolved_release conn resolved

theorem settled_pageProgram {ρ : Type} (render : ρ → Except Raised α) (stamp : α → ℤ)
    (effectiveLimit : ℕ) (serverNow : ℤ) (delta : Bool) (rows : List ρ)
    {drain : α → DbProgram (List α)} (drains : ∀ last, Settled env (drain last)) :
    Settled env (Repository.pageProgram render stamp effectiveLimit serverNow delta rows
      drain) := by
  refine (still_fromExcept _).settled.bind fun items => ?_
  dsimp only
  generalize (if (delta && isSingleMsFullPage (items.map stamp) effectiveLimit) = true
    then items.getLast? else none) = boundary
  cases boundary with
  | none => exact (still_done _).settled
  | some last => exact (drains last).bind fun more => (still_done _).settled

theorem settled_statement (statement : Statement α) :
    Settled env (cursor (execute env statement)) := (still_execute statement).cursor

theorem settled_inside (statement : ℤ → Statement α) :
    Settled env (cursor (getUserId env >>= fun userId => execute env (statement userId))) :=
  (still_getUserId.bind fun _ => still_execute _).cursor

theorem settled_resolved {rest : ℤ → DbProgram α} (later : ∀ userId, Settled env (rest userId)) :
    Settled env (getUserId env >>= rest) := still_getUserId.settled.bind later

variable (env) in
/-- With the user resolved, every operation takes one connection at a time. -/
theorem Operation.program_settled (now : ℤ) (operation : Operation) :
    Settled env (operation.program env now) := by
  have updates : ∀ statusNow taskId data expected,
      Settled env (Repository.updateTask env statusNow now taskId data expected) := by
    intro statusNow taskId data expected
    unfold Repository.updateTask
    cases (updateSets data statusNow).isEmpty with
    | false => exact settled_resolved fun userId => settled_statement _
    | true =>
        cases expected with
        | none => exact settled_inside _
        | some version => exact settled_inside _
  cases operation with
  | listTasks query =>
      refine Settled.bind (settled_resolved fun userId => ?_) fun page => (still_done _).settled
      refine (settled_statement _).bind fun rows => settled_pageProgram _ _ _ _ _ _ fun last => ?_
      refine settled_resolved fun userId => (settled_statement _).bind fun rows => ?_
      exact (still_fromExcept _).settled
  | getTask taskId =>
      refine Settled.bind ((settled_inside _).bind fun row => ?_) fun task =>
        (still_done _).settled
      exact (still_fromExcept _).settled
  | createTask taskId data =>
      refine Settled.bind (settled_resolved fun userId => ?_) fun id => (still_done _).settled
      refine Still.cursor ?_
      cases data.sort with
      | some sort => exact Still.bind (still_done _) fun sort => still_execute _
      | none => exact Still.bind (still_execute _) fun sort => still_execute _
  | updateTask statusNow taskId data expected =>
      exact (updates statusNow taskId data expected).bind fun ok => (still_done _).settled
  | setStatus statusNow taskId status expected =>
      exact (updates statusNow taskId (.ofStatus status) expected).bind fun ok =>
        (still_done _).settled
  | deleteTask taskId expected =>
      refine Settled.bind (settled_resolved fun userId => settled_statement _) fun ok => ?_
      exact (still_done _).settled
  | taskExists taskId => exact (settled_inside _).bind fun found => (still_done _).settled
  | listLists query =>
      refine Settled.bind (settled_resolved fun userId => ?_) fun page => (still_done _).settled
      refine (settled_statement _).bind fun rows => ?_
      refine Settled.bind (settled_pageProgram _ _ _ _ _ _ fun last => ?_) fun page =>
        (still_done _).settled
      exact (settled_inside _).bind fun rows => (still_fromExcept _).settled
  | getList listId =>
      refine Settled.bind ((settled_inside _).bind fun row => ?_) fun list =>
        (still_done _).settled
      exact (still_done _).settled
  | listExists listId => exact (settled_inside _).bind fun found => (still_done _).settled
  | getListByTitle title => exact (settled_inside _).bind fun list => (still_done _).settled
  | createList listId title =>
      refine Settled.bind (settled_resolved fun userId => settled_statement _) fun id => ?_
      exact (still_done _).settled
  | updateList listId title expected =>
      refine Settled.bind (settled_resolved fun userId => settled_statement _) fun ok => ?_
      exact (still_done _).settled
  | deleteList listId expected =>
      refine Settled.bind (settled_resolved fun userId => settled_statement _) fun ok => ?_
      exact (still_done _).settled

end Settled

/-! ## Where the user is asked for -/

/-- The operation asks for the user before it enters its block. -/
def Operation.resolvesFirst : Operation → Bool
  | .updateTask statusNow _ data _ => !(updateSets data statusNow).isEmpty
  | .getTask _ | .taskExists _ | .getList _ | .listExists _ | .getListByTitle _ => false
  | _ => true

def Maps {α : Type} (program : DbProgram α) : Prop :=
  ∃ result : Except Raised α, ∀ (env : Environment) (world : World),
    program.run (cursorScope env) world = (result.mapError .raised, world) ∧
      program.EntersNone (cursorScope env) world

section Shapes
variable (env : Environment) (now : ℤ) {operation : Operation} {α β : Type}

theorem maps_done (value : α) : Maps (.done value) := ⟨.ok value, fun _ _ => ⟨rfl, rfl⟩⟩

theorem maps_fromExcept_bind (result : Except Raised α) (f : α → β) :
    Maps (fromExcept result >>= fun value => pure (f value)) := by
  refine ⟨result.map f, fun env world => ?_⟩
  cases result with
  | ok value => exact ⟨rfl, rfl⟩
  | error raised => exact ⟨rfl, rfl⟩

theorem Operation.program_of_resolvesFirst (first : operation.resolvesFirst = true) :
    ∃ rest : ℤ → DbProgram Returned, operation.program env now = getUserId env >>= rest := by
  have updates : ∀ statusNow taskId data expected, (updateSets data statusNow).isEmpty = false →
      ∃ rest : ℤ → DbProgram Returned,
        (Repository.updateTask env statusNow now taskId data expected >>=
          fun ok => pure (Returned.flag ok)) = getUserId env >>= rest := by
    intro statusNow taskId data expected someSet
    unfold Repository.updateTask
    rw [if_neg (by rw [someSet]; simp)]
    exact ⟨_, bind_assoc _ _ _⟩
  cases operation with
  | listTasks query => exact ⟨_, bind_assoc _ _ _⟩
  | createTask taskId data => exact ⟨_, bind_assoc _ _ _⟩
  | updateTask statusNow taskId data expected =>
      exact updates statusNow taskId data expected (by simpa [resolvesFirst] using first)
  | setStatus statusNow taskId status expected =>
      exact updates statusNow taskId (.ofStatus status) expected rfl
  | deleteTask taskId expected => exact ⟨_, bind_assoc _ _ _⟩
  | listLists query => exact ⟨_, bind_assoc _ _ _⟩
  | createList listId title => exact ⟨_, bind_assoc _ _ _⟩
  | updateList listId title expected => exact ⟨_, bind_assoc _ _ _⟩
  | deleteList listId expected => exact ⟨_, bind_assoc _ _ _⟩
  | getTask taskId => cases first
  | taskExists taskId => cases first
  | getList listId => cases first
  | listExists listId => cases first
  | getListByTitle title => cases first

/-- The other operations ask inside their one block, execute one statement there, and
map what it answers. -/
theorem Operation.program_of_resolvesInside (inside : operation.resolvesFirst = false) :
    ∃ (γ : Type) (statement : ℤ → Statement γ) (finish : γ → DbProgram Returned),
      operation.program env now =
        cursor (getUserId env >>= fun userId => execute env (statement userId)) >>= finish ∧
      ∀ answer, Maps (finish answer) := by
  cases operation with
  | getTask taskId =>
      exact ⟨_, _, _, bind_assoc _ _ _, fun row => maps_fromExcept_bind _ Returned.task⟩
  | taskExists taskId => exact ⟨_, _, _, rfl, fun found => maps_done _⟩
  | getList listId => exact ⟨_, _, _, bind_assoc _ _ _, fun row => maps_done _⟩
  | listExists listId => exact ⟨_, _, _, rfl, fun found => maps_done _⟩
  | getListByTitle title => exact ⟨_, _, _, rfl, fun list => maps_done _⟩
  | updateTask statusNow taskId data expected =>
      have noSet : (updateSets data statusNow).isEmpty = true := by
        simpa [resolvesFirst] using inside
      clear inside
      cases expected with
      | none =>
          have unchanged : Repository.updateTask env statusNow now taskId data none =
              Repository.taskExists env taskId := if_pos noSet
          rw [Operation.program, unchanged]
          exact ⟨_, _, _, rfl, fun found => maps_done _⟩
      | some version =>
          have unchanged : Repository.updateTask env statusNow now taskId data (some version) =
              Repository.rowMatchesVersion env taskId version := if_pos noSet
          rw [Operation.program, unchanged]
          exact ⟨_, _, _, rfl, fun found => maps_done _⟩
  | listTasks query => cases inside
  | createTask taskId data => cases inside
  | setStatus statusNow taskId status expected => cases inside
  | deleteTask taskId expected => cases inside
  | listLists query => cases inside
  | createList listId title => cases inside
  | updateList listId title expected => cases inside
  | deleteList listId expected => cases inside

end Shapes

/-! ## Nested blocks -/

section Nesting
variable {env : Environment} {now : ℤ} {operation : Operation} {world : World}

theorem run_of_resolved {rest : ℤ → DbProgram Returned} {userId : ℤ} {after : World}
    (returned : (getUserId env).run (cursorScope env) world = (.ok userId, after)) :
    after.userId = some userId ∧ (getUserId env >>= rest).run (cursorScope env) world =
      (getUserId env >>= rest).run (cursorScope env) after := by
  have known := getUserId_ensures.of_run trivial returned
  exact ⟨known, by rw [run_bind, run_bind, returned, run_getUserId known]⟩

theorem neverNests_inside_iff {γ : Type} (statement : ℤ → Statement γ) :
    (cursor (getUserId env >>= fun userId => execute env (statement userId))).NeverNests
        (cursorScope env) world ↔
      world.userId ≠ none ∨ ∀ conn after, world.acquire env ≠ (.ok conn, after) := by
  rw [cursor, neverNests_block_iff]
  constructor
  · intro flat
    by_cases acquires : ∃ conn after, world.acquire env = (.ok conn, after)
    · obtain ⟨conn, after, acquired⟩ := acquires
      have none := ((entersNone_bind_iff _ _ _).mp (flat conn after acquired)).1
      have sameUser := World.acquire_userId env world
      rw [acquired] at sameUser
      rw [← sameUser]
      exact Or.inl (entersNone_getUserId_iff.mp none)
    · push Not at acquires
      exact Or.inr acquires
  · rintro (resolved | refused) conn inside acquired
    · have sameUser := World.acquire_userId env world
      change world.acquire env = _ at acquired
      rw [acquired] at sameUser
      rw [← sameUser] at resolved
      exact (still_getUserId.bind fun _ => still_execute _).none inside resolved
    · exact absurd acquired (refused conn inside)

/-- An operation nests blocks exactly when it asks for an unresolved user inside a block
that it gets a connection for. -/
theorem Operation.neverNests_iff :
    (operation.program env now).NeverNests (cursorScope env) world ↔
      world.userId ≠ none ∨ operation.resolvesFirst = true ∨
        ∀ conn after, world.acquire env ≠ (.ok conn, after) := by
  cases first : operation.resolvesFirst with
  | true =>
      refine iff_of_true ?_ (Or.inr (Or.inl rfl))
      obtain ⟨rest, shape⟩ := operation.program_of_resolvesFirst env now first
      have settled := (operation.program_settled env now).flat
      rw [shape] at settled ⊢
      refine (neverNests_bind_iff _ _ _).mpr ⟨neverNests_getUserId, fun userId after returned => ?_⟩
      have known := getUserId_ensures.of_run trivial returned
      have resolved : Resolved after := by
        rw [Resolved, known]
        exact Option.some_ne_none userId
      have flat := settled after resolved
      exact ((neverNests_bind_iff _ _ _).mp flat).2 userId after (run_getUserId known)
  | false =>
      obtain ⟨γ, statement, finish, shape, maps⟩ :=
        operation.program_of_resolvesInside env now first
      rw [shape, neverNests_bind_iff, neverNests_inside_iff]
      have finishes : ∀ answer after, (finish answer).NeverNests (cursorScope env) after := by
        intro answer after
        obtain ⟨result, only⟩ := maps answer
        exact (only env after).2.neverNests
      simp [finishes]

end Nesting

/-! ## Exhaustion -/

section Exhaustion
variable {env : Environment} {now : ℤ} {operation : Operation} {world : World} {size : ℤ}

theorem Computes.not_exhausted {held : ℕ} {userId : ℤ} {α : Type} {program : DbProgram α}
    {server after : Server} {result : Except Raised α}
    (computes : Computes env size held userId program server result after)
    (state : At size held (some userId) server world) :
    (program.run (cursorScope env) world).1 ≠ .error .poolExhausted := by
  have ended := computes world state
  generalize program.run (cursorScope env) world = run at ended ⊢
  rcases run with ⟨error | value, final⟩
  · obtain ⟨raised, -, rfl, -⟩ := ended
    simp
  · simp

theorem Operation.not_exhausted_resolved (alone : env.Alone) (positive : 1 ≤ size) {userId : ℤ}
    {server : Server} (state : At size 0 (some userId) server world) :
    ((operation.program env now).run (cursorScope env) world).1 ≠ .error .poolExhausted :=
  Computes.not_exhausted (operation.program_computes alone positive now) state

theorem inside_exhausted (alone : env.Alone) {server : Server} {γ : Type}
    (statement : ℤ → Statement γ) :
    Ensures (cursorScope env) (At 1 0 none server)
      (cursor (getUserId env >>= fun userId => execute env (statement userId)))
      (fun _ _ => False) fun error _ => error = .poolExhausted := by
  have body : Ensures (cursorScope env) (At 1 (0 + 1) none server)
      (getUserId env >>= fun userId => execute env (statement userId))
      (fun _ after => ∃ u s, False ∧ At 1 (0 + 1) u s after)
      fun error after => ∃ u s, error = .poolExhausted ∧ At 1 (0 + 1) u s after := by
    have asks : Ensures (cursorScope env) (At 1 (0 + 1) none server) (getUserId env)
        (fun _ _ => False)
        fun error after => error = .poolExhausted ∧ At 1 (0 + 1) none server after :=
      getUserId_exhausted alone rfl
    refine Ensures.bind (asks.mono (fun _ pre => pre) (fun _ _ never => never) ?_)
      fun _ _ never => never.elim
    rintro error after ⟨isExhausted, state⟩
    exact ⟨none, server, isExhausted, state⟩
  refine (ensures_cursor alone (by decide) body).mono (fun _ pre => pre) ?_ ?_
  · rintro value after ⟨u, s, never, -⟩
    exact never
  · rintro error after ⟨u, s, isExhausted, -⟩
    exact isExhausted

theorem inside_not_exhausted (alone : env.Alone) (two : 2 ≤ size) {server : Server} {γ : Type}
    (statement : ℤ → Statement γ) :
    Ensures (cursorScope env) (At size 0 none server)
      (cursor (getUserId env >>= fun userId => execute env (statement userId)))
      (fun _ _ => True) fun error _ => error ≠ .poolExhausted := by
  have body : Ensures (cursorScope env) (At size (0 + 1) none server)
      (getUserId env >>= fun userId => execute env (statement userId))
      (fun _ after => ∃ u s, True ∧ At size (0 + 1) u s after)
      fun error after => ∃ u s, error ≠ .poolExhausted ∧ At size (0 + 1) u s after := by
    refine Ensures.bind ((getUserId_alone alone (by omega)).mono (fun _ pre => pre)
      (fun _ _ state => state) fun error after raises => ⟨none, server, raises⟩) fun userId => ?_
    refine (ensures_execute alone _).mono (fun _ pre => pre) ?_ ?_
    · rintro value after ⟨-, state⟩
      exact ⟨_, _, trivial, state⟩
    · rintro error after ⟨raised, -, rfl, state⟩
      exact ⟨_, _, by simp, state⟩
  refine (ensures_cursor alone (by omega) body).mono (fun _ pre => pre) (fun _ _ _ => trivial) ?_
  rintro error after ⟨u, s, other, -⟩
  exact other

theorem Operation.not_exhausted_of_first (alone : env.Alone) (positive : 1 ≤ size)
    {server : Server} (idle : At size 0 none server world)
    (first : operation.resolvesFirst = true) :
    ((operation.program env now).run (cursorScope env) world).1 ≠ .error .poolExhausted := by
  obtain ⟨rest, shape⟩ := operation.program_of_resolvesFirst env now first
  have asks := getUserId_alone alone (by omega) world idle
  cases returned : (getUserId env).run (cursorScope env) world with
  | mk result after =>
      rw [returned] at asks
      cases result with
      | error error =>
          rw [shape, run_bind, returned]
          intro isExhausted
          cases isExhausted
          exact asks.1 rfl
      | ok userId =>
          have later : ((operation.program env now).run (cursorScope env) after).1 ≠ _ :=
            operation.not_exhausted_resolved alone positive asks
          rw [shape] at later ⊢
          rw [(run_of_resolved returned).2]
          exact later

theorem Operation.exhausted_inside_iff (alone : env.Alone) (positive : 1 ≤ size)
    {server : Server} (idle : At size 0 none server world)
    (inside : operation.resolvesFirst = false) :
    ((operation.program env now).run (cursorScope env) world).1 = .error .poolExhausted ↔
      size < 2 := by
  obtain ⟨γ, statement, finish, shape, maps⟩ := operation.program_of_resolvesInside env now inside
  rw [shape, run_bind]
  by_cases two : size < 2
  · refine iff_of_true ?_ two
    obtain rfl : size = 1 := by omega
    have raises := inside_exhausted alone statement world idle
    generalize (cursor (getUserId env >>= fun userId =>
      execute env (statement userId))).run (cursorScope env) world = ended at raises ⊢
    rcases ended with ⟨error | answer, after⟩
    · rw [proceed_error, raises]
    · exact raises.elim
  · refine iff_of_false ?_ two
    have raises := inside_not_exhausted alone (by omega) statement world idle
    generalize (cursor (getUserId env >>= fun userId =>
      execute env (statement userId))).run (cursorScope env) world = ended at raises ⊢
    rcases ended with ⟨error | answer, after⟩
    · intro isExhausted
      cases isExhausted
      exact raises rfl
    · obtain ⟨result, only⟩ := maps answer
      rw [proceed_ok, (only env after).1]
      cases result with
      | ok value => simp [Except.mapError]
      | error raised => simp [Except.mapError]

/-- Alone on an idle pool, an operation is turned away exactly when it needs two
connections and there is one. -/
theorem Operation.exhausted_iff (alone : env.Alone) (positive : 1 ≤ size)
    (idle : IdlePool size world) :
    ((operation.program env now).run (cursorScope env) world).1 = .error .poolExhausted ↔
      world.userId = none ∧ operation.resolvesFirst = false ∧ size < 2 := by
  unfold IdlePool at idle
  cases resolved : world.userId with
  | some userId =>
      rw [resolved] at idle
      exact iff_of_false (operation.not_exhausted_resolved alone positive idle) (by simp)
  | none =>
      rw [resolved] at idle
      cases first : operation.resolvesFirst with
      | true =>
          exact iff_of_false (operation.not_exhausted_of_first alone positive idle first) (by simp)
      | false =>
          rw [operation.exhausted_inside_iff alone positive idle first]
          simp

end Exhaustion

/-- An operation takes one connection at a time exactly when the user is resolved, or asked
for before the block, or the block gets no connection.  Alone on an idle pool it is never
turned away exactly when the user is resolved, or asked for first, or the pool has two
connections. -/
theorem one_connection_iff (env : Environment) (now : ℤ) (operation : Operation) (world : World) :
    ((operation.program env now).NeverNests (cursorScope env) world ↔
      world.userId ≠ none ∨ operation.resolvesFirst = true ∨
        ∀ conn after, world.acquire env ≠ (.ok conn, after)) ∧
    ∀ size, env.Alone → 1 ≤ size → IdlePool size world →
      (((operation.program env now).run (cursorScope env) world).1 ≠ .error .poolExhausted ↔
        world.userId ≠ none ∨ operation.resolvesFirst = true ∨ 2 ≤ size) := by
  refine ⟨operation.neverNests_iff, fun size alone positive idle => ?_⟩
  rw [Ne, operation.exhausted_iff alone positive idle]
  simp only [not_and, not_lt]
  constructor
  · intro conditions
    by_cases resolved : world.userId = none
    · cases first : operation.resolvesFirst with
      | true => exact Or.inr (Or.inl rfl)
      | false => exact Or.inr (Or.inr (conditions resolved first))
    · exact Or.inl resolved
  · rintro (resolved | first | two) unresolved inside
    · exact absurd unresolved resolved
    · rw [first] at inside
      cases inside
    · exact two

def quiet : Environment where
  email := []
  collation := binaryCollation
  linkModel := strictLinks
  outcome := fun _ => .returns
  others := fun _ shared => shared

def afterOutage : World where
  server := ⟨[⟨some 1, none⟩], oneTask⟩
  pool := { size := 1 }
  userId := none

/-- A read of the task holds the only connection while it waits for another one. -/
theorem unresolved_read_is_turned_away :
    quiet.Alone ∧ IdlePool 1 afterOutage ∧
      ¬ ((Operation.getTask ['a']).program quiet 2000).NeverNests (cursorScope quiet)
        afterOutage ∧
      (((Operation.getTask ['a']).program quiet 2000).run (cursorScope quiet) afterOutage).1 =
        .error .poolExhausted := by
  have depths : ((Operation.getTask ['a']).program quiet 2000).entryDepths (cursorScope quiet) 0
      afterOutage = [0, 1] := rfl
  refine ⟨⟨fun _ => rfl, fun _ _ => rfl⟩, ⟨rfl, rfl, by decide, rfl, rfl⟩, fun flat => ?_, rfl⟩
  rw [NeverNests, depths] at flat
  exact absurd (flat 1 (by decide)) one_ne_zero

end SupernoteTaskService
