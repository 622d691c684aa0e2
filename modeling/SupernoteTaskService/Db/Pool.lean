import SupernoteTaskService.Foundation.Runs
import SupernoteTaskService.Foundation.Threads

/-!
# The connection pool

`Database.cursor` as the steps that a thread takes between entering the block and
having left it.  Each step is one access to the queue, one locked access to the
counter, or one call into the driver, so that the steps of threads interleave freely.
A connection is known by the order in which it was opened.
-/

set_option autoImplicit false

namespace SupernoteTaskService

open Foundation

inductive Outcome where
  | returns
  | raisesError
  | raisesOther
  deriving DecidableEq

structure Pool where
  size : ℤ
  created : ℤ := 0
  idle : List ℕ := []
  opened : ℕ := 0
  deriving DecidableEq

namespace Pool

def getNowait (pool : Pool) : Option (ℕ × Pool) :=
  match pool.idle with
  | [] => none
  | conn :: idle => some (conn, { pool with idle := idle })

def tryReserveSlot (pool : Pool) : Bool × Pool :=
  if pool.created < pool.size then (true, { pool with created := pool.created + 1 })
  else (false, pool)

def unreserveSlot (pool : Pool) : Pool := { pool with created := pool.created - 1 }

/-- A queue with `maxsize` at most zero is never full. -/
def full (pool : Pool) : Bool := decide (0 < pool.size) && decide (pool.size ≤ pool.idle.length)

def putNowait (pool : Pool) (conn : ℕ) : Option Pool :=
  if pool.full then none else some { pool with idle := conn :: pool.idle }

def connect (pool : Pool) (outcome : Outcome) : Option (ℕ × Pool) :=
  match outcome with
  | .returns => some (pool.opened, { pool with opened := pool.opened + 1 })
  | .raisesError | .raisesOther => none

end Pool

/-- Where a thread is in `Database.cursor`. -/
inductive Phase where
  | outside
  | reserving
  | connecting
  | waiting
  | validating (conn : ℕ)
  | closing (conn : ℕ)
  | reconnecting
  | unreserving
  | inBlock (conn : ℕ)
  | releasing (conn : ℕ)
  | overflowing (conn : ℕ)
  deriving DecidableEq

namespace Phase

def ownsSlot : Phase → Bool
  | .outside | .reserving | .waiting => false
  | _ => true

def connection : Phase → Option ℕ
  | .validating conn => some conn
  | .closing conn => some conn
  | .inBlock conn => some conn
  | .releasing conn => some conn
  | .overflowing conn => some conn
  | _ => none

/-- `conn.ping(reconnect=True)`, or the `conn.close()` after it failed. -/
def isValidating : Phase → Bool
  | .validating _ => true
  | .closing _ => true
  | _ => false

def advance (outcome : Outcome) (pool : Pool) : Phase → Phase × Pool
  | .outside =>
      match pool.getNowait with
      | some (conn, pool) => (.validating conn, pool)
      | none => (.reserving, pool)
  | .reserving =>
      match pool.tryReserveSlot with
      | (true, pool) => (.connecting, pool)
      | (false, pool) => (.waiting, pool)
  | .connecting | .reconnecting =>
      match pool.connect outcome with
      | some (conn, pool) => (.inBlock conn, pool)
      | none => (.unreserving, pool)
  -- The timed `get` takes what is there when the thread looks, and gives up otherwise;
  -- a thread that goes on waiting takes no step.
  | .waiting =>
      match pool.getNowait with
      | some (conn, pool) => (.validating conn, pool)
      | none => (.outside, pool)
  -- Only a `pymysql.Error` leads to the reconnect.
  | .validating conn =>
      match outcome with
      | .returns => (.inBlock conn, pool)
      | .raisesError => (.closing conn, pool)
      | .raisesOther => (.outside, pool)
  | .closing _ =>
      match outcome with
      | .returns | .raisesError => (.reconnecting, pool)
      | .raisesOther => (.outside, pool)
  | .unreserving => (.outside, pool.unreserveSlot)
  -- The block ends, or raises anything; either way the connection is released.
  | .inBlock conn => (.releasing conn, pool)
  | .releasing conn =>
      match pool.putNowait conn with
      | some pool => (.outside, pool)
      | none => (.overflowing conn, pool)
  | .overflowing _ =>
      match outcome with
      | .returns => (.unreserving, pool)
      | .raisesError | .raisesOther => (.outside, pool)

end Phase

/-- The pool and where each thread is.  A block inside another block of the same thread
counts as a thread of its own. -/
structure PoolState (ι : Type) where
  pool : Pool
  phase : ι → Phase

structure Turn (ι : Type) where
  thread : ι
  outcome : Outcome
  deriving DecidableEq

section Threads
variable {ι : Type}

def PoolState.init (size : ℤ) : PoolState ι := ⟨{ size := size }, fun _ => .outside⟩

variable [DecidableEq ι]

def poolStep (state : PoolState ι) (turn : Turn ι) : PoolState ι :=
  let (next, pool) := (state.phase turn.thread).advance turn.outcome state.pool
  ⟨pool, Function.update state.phase turn.thread next⟩

def ValidationRaisesErrors (start : PoolState ι) (run : List (Turn ι)) : Prop :=
  ∀ state turn rest, Happens poolStep start run state turn rest →
    (state.phase turn.thread).isValidating = true → turn.outcome ≠ .raisesOther

end Threads

end SupernoteTaskService
