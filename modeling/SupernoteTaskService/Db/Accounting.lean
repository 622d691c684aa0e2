import SupernoteTaskService.Db.Pool

/-!
# Accounting of the pool

In every interleaving the counter is the number of idle connections plus the number of
slots that threads own, and no connection is in two places.  `PoolEffect` lists what one
step of a thread does to the pool; the invariant is a case analysis over it.
-/

set_option autoImplicit false

namespace SupernoteTaskService

open Foundation

/-- What a step does to the pool, by what the thread owns before and after it. -/
inductive PoolEffect (phase : Phase) (pool : Pool) : Phase → Pool → Prop
  | kept (next : Phase) (slot : next.ownsSlot = phase.ownsSlot)
      (connection : next.connection = phase.connection ∨ next.connection = none)
      (noOverflow : ∀ conn, next ≠ .overflowing conn) : PoolEffect phase pool next pool
  | taken (conn : ℕ) (idle : List ℕ) (slot : phase.ownsSlot = false)
      (head : pool.idle = conn :: idle) :
      PoolEffect phase pool (.validating conn) { pool with idle := idle }
  | reserved (slot : phase.ownsSlot = false) (spare : pool.created < pool.size) :
      PoolEffect phase pool .connecting { pool with created := pool.created + 1 }
  | opened (slot : phase.ownsSlot = true) :
      PoolEffect phase pool (.inBlock pool.opened) { pool with opened := pool.opened + 1 }
  | unreserved (slot : phase.ownsSlot = true) : PoolEffect phase pool .outside pool.unreserveSlot
  | released (conn : ℕ) (slot : phase.ownsSlot = true) (connection : phase.connection = some conn)
      (fits : pool.full = false) :
      PoolEffect phase pool .outside { pool with idle := conn :: pool.idle }
  | overflowed (conn : ℕ) (slot : phase.ownsSlot = true) (connection : phase.connection = some conn)
      (full : pool.full = true) :
      PoolEffect phase pool (.overflowing conn) pool

section Effects
variable {phase : Phase} {pool : Pool} {outcome : Outcome}

theorem getNowait_cases (pool : Pool) :
    (∃ conn idle, pool.idle = conn :: idle ∧
      pool.getNowait = some (conn, { pool with idle := idle })) ∨
    (pool.idle = [] ∧ pool.getNowait = none) := by
  cases lies : pool.idle with
  | nil => exact Or.inr ⟨rfl, by rw [Pool.getNowait, lies]⟩
  | cons conn idle => exact Or.inl ⟨conn, idle, rfl, by rw [Pool.getNowait, lies]⟩

theorem connect_cases (pool : Pool) (outcome : Outcome) :
    (outcome = .returns ∧ pool.connect outcome =
      some (pool.opened, { pool with opened := pool.opened + 1 })) ∨
    (outcome ≠ .returns ∧ pool.connect outcome = none) := by
  cases outcome with
  | returns => exact Or.inl ⟨rfl, rfl⟩
  | raisesError => exact Or.inr ⟨by decide, rfl⟩
  | raisesOther => exact Or.inr ⟨by decide, rfl⟩

theorem effect_of_get (next : Phase) (slot : phase.ownsSlot = false)
    (nextSlot : next.ownsSlot = false) (nothing : next.connection = none)
    (moves : phase.advance outcome pool = match pool.getNowait with
      | some (conn, pool) => (.validating conn, pool)
      | none => (next, pool)) :
    PoolEffect phase pool (phase.advance outcome pool).1 (phase.advance outcome pool).2 := by
  rcases getNowait_cases pool with ⟨conn, idle, head, gets⟩ | ⟨-, gets⟩
  · rw [moves, gets]
    exact .taken conn idle slot head
  · rw [moves, gets]
    refine .kept next (by rw [slot, nextSlot]) (Or.inr nothing) fun conn isOverflow => ?_
    rw [isOverflow] at nextSlot
    cases nextSlot

theorem effect_of_connect (slot : phase.ownsSlot = true)
    (moves : phase.advance outcome pool = match pool.connect outcome with
      | some (conn, pool) => (.inBlock conn, pool)
      | none => (.unreserving, pool)) :
    PoolEffect phase pool (phase.advance outcome pool).1 (phase.advance outcome pool).2 := by
  rcases connect_cases pool outcome with ⟨-, connects⟩ | ⟨-, connects⟩
  · rw [moves, connects]
    exact .opened slot
  · rw [moves, connects]
    exact .kept _ slot.symm (Or.inr rfl) fun conn => by simp

theorem advance_effect (expected : phase.isValidating = true → outcome ≠ .raisesOther)
    (noOverflow : ∀ conn, phase ≠ .overflowing conn) :
    PoolEffect phase pool (phase.advance outcome pool).1 (phase.advance outcome pool).2 := by
  cases phase with
  | outside => exact effect_of_get .reserving rfl rfl rfl rfl
  | waiting => exact effect_of_get .outside rfl rfl rfl rfl
  | connecting => exact effect_of_connect rfl rfl
  | reconnecting => exact effect_of_connect rfl rfl
  | reserving =>
      by_cases spare : pool.created < pool.size
      · rw [Phase.advance, Pool.tryReserveSlot, if_pos spare]
        exact .reserved rfl spare
      · rw [Phase.advance, Pool.tryReserveSlot, if_neg spare]
        exact .kept .waiting rfl (Or.inr rfl) fun conn => by simp
  | validating conn =>
      cases outcome with
      | returns => exact .kept (.inBlock conn) rfl (Or.inl rfl) fun _ => by simp
      | raisesError => exact .kept (.closing conn) rfl (Or.inl rfl) fun _ => by simp
      | raisesOther => exact absurd rfl (expected rfl)
  | closing conn =>
      cases outcome with
      | returns => exact .kept .reconnecting rfl (Or.inr rfl) fun _ => by simp
      | raisesError => exact .kept .reconnecting rfl (Or.inr rfl) fun _ => by simp
      | raisesOther => exact absurd rfl (expected rfl)
  | unreserving => exact .unreserved rfl
  | inBlock conn => exact .kept (.releasing conn) rfl (Or.inl rfl) fun _ => by simp
  | releasing conn =>
      cases full : pool.full with
      | true =>
          rw [Phase.advance, Pool.putNowait, full]
          exact .overflowed conn rfl rfl full
      | false =>
          rw [Phase.advance, Pool.putNowait, full]
          exact .released conn rfl rfl full
  | overflowing conn => exact absurd rfl (noOverflow conn)

variable {next : Phase} {pool' : Pool}

/-- A step moves a slot between the counter, the queue and the thread; none is lost. -/
theorem PoolEffect.balance (effect : PoolEffect phase pool next pool') :
    pool'.created - pool'.idle.length - (next.ownsSlot.toNat : ℤ) =
      pool.created - pool.idle.length - (phase.ownsSlot.toNat : ℤ) := by
  cases effect with
  | kept next slot connection noOverflow => rw [slot]
  | taken conn idle slot head =>
      rw [slot, head]
      simp [Phase.ownsSlot]
      omega
  | reserved slot spare =>
      rw [slot]
      simp [Phase.ownsSlot]
      omega
  | opened slot => rw [slot]; rfl
  | unreserved slot =>
      rw [slot]
      simp [Phase.ownsSlot, Pool.unreserveSlot]
      omega
  | released conn slot connection fits =>
      rw [slot]
      simp [Phase.ownsSlot]
      omega
  | overflowed conn slot connection full => rw [slot]; rfl

theorem PoolEffect.size_eq (effect : PoolEffect phase pool next pool') :
    pool'.size = pool.size := by
  cases effect <;> rfl

theorem PoolEffect.bounded (effect : PoolEffect phase pool next pool')
    (bounded : pool.created ≤ pool.size) : pool'.created ≤ pool.size := by
  cases effect with
  | reserved slot spare => exact Int.add_one_le_of_lt spare
  | unreserved slot => exact le_trans (Int.sub_le_self _ zero_le_one) bounded
  | _ => exact bounded

theorem PoolEffect.opened_le (effect : PoolEffect phase pool next pool') :
    pool.opened ≤ pool'.opened := by
  cases effect with
  | opened slot => exact Nat.le_succ pool.opened
  | _ => exact le_refl pool.opened

theorem PoolEffect.known (effect : PoolEffect phase pool next pool') {conn : ℕ}
    (there : conn ∈ pool'.idle ∨ next.connection = some conn) :
    (conn ∈ pool.idle ∨ phase.connection = some conn) ∨ conn < pool'.opened := by
  cases effect with
  | kept next slot connection noOverflow =>
      rcases there with inIdle | holding
      · exact Or.inl (Or.inl inIdle)
      · rcases connection with same | nothing
        · exact Or.inl (Or.inr (same ▸ holding))
        · rw [nothing] at holding
          cases holding
  | taken taken idle slot head =>
      rw [head]
      rcases there with inIdle | holding
      · exact Or.inl (Or.inl (List.mem_cons_of_mem taken inIdle))
      · cases holding
        exact Or.inl (Or.inl List.mem_cons_self)
  | reserved slot spare =>
      rcases there with inIdle | holding
      · exact Or.inl (Or.inl inIdle)
      · cases holding
  | opened slot =>
      rcases there with inIdle | holding
      · exact Or.inl (Or.inl inIdle)
      · cases holding
        exact Or.inr (Nat.lt_succ_self pool.opened)
  | unreserved slot =>
      rcases there with inIdle | holding
      · exact Or.inl (Or.inl inIdle)
      · cases holding
  | released given slot connection fits =>
      rcases there with inIdle | holding
      · rcases List.mem_cons.mp inIdle with rfl | inIdle
        · exact Or.inl (Or.inr connection)
        · exact Or.inl (Or.inl inIdle)
      · cases holding
  | overflowed given slot connection full =>
      rcases there with inIdle | holding
      · exact Or.inl (Or.inl inIdle)
      · cases holding
        exact Or.inl (Or.inr connection)

theorem PoolEffect.no_overflow (effect : PoolEffect phase pool next pool')
    (room : phase.ownsSlot = true → pool.full = false) : ∀ conn, next ≠ .overflowing conn := by
  cases effect with
  | kept next slot connection noOverflow => exact noOverflow
  | overflowed conn slot connection full =>
      rw [room slot] at full
      cases full
  | _ => simp

end Effects

theorem PoolEffect.apart {ι : Type} [DecidableEq ι] {pool pool' : Pool} {phase : ι → Phase}
    {thread : ι} {next : Phase}
    (effect : PoolEffect (phase thread) pool next pool')
    (apart : Apart Phase.connection phase pool.idle)
    (older : ∀ conn, (conn ∈ pool.idle ∨ ∃ thread, (phase thread).connection = some conn) →
      conn < pool.opened) :
    Apart Phase.connection (Function.update phase thread next) pool'.idle := by
  cases effect with
  | kept next slot connection noOverflow =>
      rcases connection with same | nothing
      · exact apart.keep same
      · exact apart.drop nothing
  | taken conn idle slot head =>
      rw [head] at apart
      exact apart.take rfl
  | reserved slot spare => exact apart.drop rfl
  | opened slot =>
      refine apart.fresh rfl (fun member => ?_) fun other holding => ?_
      · exact lt_irrefl _ (older pool.opened (Or.inl member))
      · exact lt_irrefl _ (older pool.opened (Or.inr ⟨other, holding⟩))
  | unreserved slot => exact apart.drop rfl
  | released conn slot connection fits => exact apart.give connection rfl
  | overflowed conn slot connection full => exact apart.keep connection.symm

section Accounting
variable {ι : Type} [Fintype ι] {size : ℤ} {state : PoolState ι}

structure Accounted (size : ℤ) (state : PoolState ι) : Prop where
  size_eq : state.pool.size = size
  balance : state.pool.created =
    state.pool.idle.length + ownerCount Phase.ownsSlot state.phase
  bounded : state.pool.created ≤ size
  apart : Apart Phase.connection state.phase state.pool.idle
  older : ∀ conn, (conn ∈ state.pool.idle ∨ ∃ thread, (state.phase thread).connection = some conn) →
    conn < state.pool.opened
  noOverflow : ∀ thread conn, state.phase thread ≠ .overflowing conn

theorem accounted_init (positive : 1 ≤ size) : Accounted size (.init size : PoolState ι) where
  size_eq := rfl
  balance := by
    have nobody : ownerCount Phase.ownsSlot (PoolState.init size : PoolState ι).phase = 0 :=
      ownerCount_eq_zero fun _ => rfl
    rw [nobody]
    rfl
  bounded := le_trans zero_le_one positive
  apart := apart_nil fun _ => rfl
  older conn there := by
    rcases there with inIdle | ⟨thread, holding⟩
    · cases inIdle
    · cases holding
  noOverflow thread conn := by simp [PoolState.init]

theorem Accounted.not_full (accounted : Accounted size state) {thread : ι}
    (owner : (state.phase thread).ownsSlot = true) : state.pool.full = false := by
  have owners : 0 < ownerCount Phase.ownsSlot state.phase := ownerCount_pos owner
  have balance := accounted.balance
  have bounded := accounted.bounded
  have room : ¬ state.pool.size ≤ state.pool.idle.length := by
    rw [accounted.size_eq]
    omega
  simp [Pool.full, room]

variable [DecidableEq ι]

theorem Accounted.step (accounted : Accounted size state) {turn : Turn ι}
    (expected : (state.phase turn.thread).isValidating = true → turn.outcome ≠ .raisesOther) :
    Accounted size (poolStep state turn) := by
  have effect : PoolEffect (state.phase turn.thread) state.pool _ _ :=
    advance_effect expected (accounted.noOverflow turn.thread)
  have counted := ownerCount_update Phase.ownsSlot state.phase turn.thread
    ((state.phase turn.thread).advance turn.outcome state.pool).1
  have room : (state.phase turn.thread).ownsSlot = true → state.pool.full = false :=
    accounted.not_full
  obtain ⟨size_eq, balance, bounded, apart, older, noOverflow⟩ := accounted
  unfold poolStep
  generalize (state.phase turn.thread).advance turn.outcome state.pool = moved at effect counted ⊢
  obtain ⟨next, pool⟩ := moved
  refine ⟨?_, ?_, ?_, effect.apart apart older, fun conn there => ?_, fun thread conn => ?_⟩
  · rw [← size_eq]
    exact effect.size_eq
  · have moved := effect.balance
    dsimp only at moved counted ⊢
    omega
  · rw [← size_eq] at bounded ⊢
    exact effect.bounded bounded
  · have before : conn ∈ state.pool.idle ∨ (∃ thread, (state.phase thread).connection = some conn) ∨
        conn < pool.opened := by
      rcases there with inIdle | ⟨thread, holding⟩
      · rcases effect.known (Or.inl inIdle) with (lay | held) | opened
        · exact Or.inl lay
        · exact Or.inr (Or.inl ⟨turn.thread, held⟩)
        · exact Or.inr (Or.inr opened)
      · rcases holds_update_iff.mp holding with ⟨-, nextHolds⟩ | ⟨-, held⟩
        · rcases effect.known (Or.inr nextHolds) with (lay | held) | opened
          · exact Or.inl lay
          · exact Or.inr (Or.inl ⟨turn.thread, held⟩)
          · exact Or.inr (Or.inr opened)
        · exact Or.inr (Or.inl ⟨thread, held⟩)
    rcases before with lay | held | opened
    · exact lt_of_lt_of_le (older conn (Or.inl lay)) effect.opened_le
    · exact lt_of_lt_of_le (older conn (Or.inr held)) effect.opened_le
    · exact opened
  · by_cases same : thread = turn.thread
    · subst same
      dsimp only
      rw [Function.update_self]
      exact effect.no_overflow room conn
    · dsimp only
      rw [Function.update_of_ne same]
      exact noOverflow thread conn

/-- At every moment of every interleaving the accounts balance, and a thread that puts
its connection back finds room in the queue. -/
theorem pool_accounting (positive : 1 ≤ size) (run : List (Turn ι))
    (expected : ValidationRaisesErrors (.init size) run) :
    ∀ state ∈ run.scanl poolStep (.init size), Accounted size state ∧ 0 ≤ state.pool.created ∧
      ∀ thread conn, state.phase thread = .releasing conn → state.pool.putNowait conn ≠ none := by
  have throughout := invariant_of_scanl (Accounted size) (accounted_init positive)
    fun state turn rest occurs accounted => accounted.step (expected state turn rest occurs)
  intro state reached
  have accounted := throughout state reached
  refine ⟨accounted, ?_, fun thread conn isReleasing => ?_⟩
  · rw [accounted.balance]
    omega
  · have owner : (state.phase thread).ownsSlot = true := by rw [isReleasing]; rfl
    rw [Pool.putNowait, accounted.not_full owner]
    simp

end Accounting

/-- Two threads share one slot: the first opens a connection and puts it back, the other
waited for it, finds it dead and opens another one in its place. -/
def sharedSlot : List (Turn (Fin 2)) :=
  [⟨0, .returns⟩, ⟨0, .returns⟩, ⟨1, .returns⟩, ⟨1, .returns⟩, ⟨0, .returns⟩, ⟨0, .returns⟩,
    ⟨0, .returns⟩, ⟨1, .returns⟩, ⟨1, .raisesError⟩, ⟨1, .raisesError⟩, ⟨1, .returns⟩]

theorem sharedSlot_accounted :
    ValidationRaisesErrors (.init 1) sharedSlot ∧
      Accounted 1 (sharedSlot.foldl poolStep (.init 1)) := by
  have expected : ValidationRaisesErrors (.init 1) sharedSlot := by
    intro state turn rest occurs _
    have all : ∀ turn ∈ sharedSlot, turn.outcome ≠ .raisesOther := by decide
    exact all turn occurs.mem
  exact ⟨expected, (pool_accounting le_rfl sharedSlot expected _ foldl_mem_scanl).1⟩

end SupernoteTaskService
