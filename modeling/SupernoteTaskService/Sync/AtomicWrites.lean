import SupernoteTaskService.Repository.Writes
import SupernoteTaskService.Sync.Delivery

/-!
# Syncing against atomic writes

One client and any number of writers share the tables.  A write and an unfiltered
delta call are one step each and read the same clock, which may show one millisecond
to several steps.  The client calls with the cursor of its last answered call.

A write is lost to the client only when a cursor has passed its stamp.  That takes a
call whose whole window is one crowded stamp, the clock's own: the drain steps past
the millisecond while it can still be written.
-/

set_option autoImplicit false

namespace SupernoteTaskService

open Foundation

structure SyncState where
  store : Store
  since : ℤ
  deriving DecidableEq

inductive SyncEvent where
  | write (write : TaskWrite)
  | sync (limit : Option ℤ)
  deriving DecidableEq

/-- An answered call: its clock, the tables it saw and the tasks it returned. -/
structure Answer where
  clock : ℤ
  store : Store
  tasks : List Task

section Model
variable (db : Database)

def SyncState.call (state : SyncState) (limit : Option ℤ) (now : ℤ) : Except Raised (Page Task) :=
  listTasks db state.store now { since := some state.since, limit := limit }

def SyncState.window (state : SyncState) (now : ℤ) : List TaskRow :=
  windowOf taskKeys (matchingTasks db state.store {}) state.since now

/-- A call that raises leaves the client with the cursor it had. -/
def syncStep (state : SyncState) (step : Timed SyncEvent) : SyncState :=
  match step.event with
  | .write write => { state with store := (write.run db state.store step.clock).2 }
  | .sync limit =>
      match state.call db limit step.clock with
      | .ok page => { state with since := page.cursor }
      | .error _ => state

def answerOf (state : SyncState) (step : Timed SyncEvent) : Option Answer :=
  match step.event with
  | .write _ => none
  | .sync limit =>
      match state.call db limit step.clock with
      | .ok page => some ⟨step.clock, state.store, page.items⟩
      | .error _ => none

def answers : SyncState → List (Timed SyncEvent) → List Answer :=
  outputs (syncStep db) (answerOf db)

/-- In the run, a call answered with `page` at `called`, and later a write that leaves
`row` stamped `stamp`, with `rest` still to come. -/
structure CallThenWrite (start : SyncState) (run : List (Timed SyncEvent)) (state : SyncState)
    (limit : Option ℤ) (called : ℤ) (page : Page Task) (later : SyncState) (stamp : ℤ)
    (write : TaskWrite) (row : TaskRow) (rest : List (Timed SyncEvent)) : Prop where
  answered : state.call db limit called = .ok page
  order : ∃ between, Happens (syncStep db) start run state ⟨called, .sync limit⟩ between ∧
    Happens (syncStep db) (syncStep db state ⟨called, .sync limit⟩) between later
      ⟨stamp, .write write⟩ rest
  effect : TaskEffect db later.store (write.run db later.store stamp).2 stamp row

/-- No cursor is handed out that is greater than the stamp of a later write. -/
def CursorsSafe (start : SyncState) (run : List (Timed SyncEvent)) : Prop :=
  ∀ state limit called page later stamp write row rest,
    CallThenWrite db start run state limit called page later stamp write row rest →
      page.cursor ≤ stamp

/-- After a call whose window was one crowded stamp, the clock's own, every write
reads a later clock. -/
def ClockMovesAfterDrain (start : SyncState) (run : List (Timed SyncEvent)) : Prop :=
  ∀ state limit called page later stamp write row rest,
    CallThenWrite db start run state limit called page later stamp write row rest →
      FillsClock taskKeys (clampLimit limit) (state.window db called) called → called < stamp

end Model

/-! ## One call -/

section Call
variable {db : Database} {state : SyncState} {limit : Option ℤ} {now : ℤ} {page : Page Task}

theorem SyncState.call_page (answered : state.call db limit now = .ok page) :
    ∃ raw : Page TaskRow,
      DeltaShape taskKeys (clampLimit limit) now (state.window db now) raw ∧
      (∀ row ∈ state.store.tasks.rows, DeliversTask db state.store page.items row ↔
        row ∈ raw.items) ∧ page.cursor = raw.cursor ∧ page.hasMore = raw.hasMore :=
  listTasks_page rfl answered

theorem SyncState.window_le : ∀ row ∈ state.window db now, taskKeys.stamp row ≤ now :=
  fun _ member => (mem_windowOf.mp member).2.2

theorem SyncState.since_le_window : ∀ row ∈ state.window db now, state.since ≤ taskKeys.stamp row :=
  fun _ member => (mem_windowOf.mp member).2.1

theorem SyncState.mem_window {row : TaskRow} {m : ℤ} (stored : row ∈ state.store.tasks.rows)
    (owned : row.userId = some db.userId) (stamped : row.lastModified = some m)
    (lower : state.since ≤ m) (upper : m ≤ now) : row ∈ state.window db now := by
  refine mem_windowOf.mpr ⟨mem_matchingTasks.mpr ⟨stored, owned, rfl, m, stamped⟩, ?_⟩
  rw [stampKeys_stamp stamped]
  exact ⟨lower, upper⟩

/-- A row of the window comes out, or the cursor moves up without passing it. -/
theorem SyncState.call_delivers_or_advances {row : TaskRow} {m : ℤ}
    (answered : state.call db limit now = .ok page) (stored : row ∈ state.store.tasks.rows)
    (owned : row.userId = some db.userId) (stamped : row.lastModified = some m)
    (lower : state.since ≤ m) (upper : m ≤ now) :
    DeliversTask db state.store page.items row ∨ state.since < page.cursor ∧ page.cursor ≤ m := by
  obtain ⟨raw, shape, delivers, cursorEq, -⟩ := SyncState.call_page answered
  have member := SyncState.mem_window stored owned stamped lower upper
  rw [delivers row stored, cursorEq, ← stampKeys_stamp stamped]
  exact shape.delivers_or_advances (clampLimit_pos _) SyncState.since_le_window member

theorem SyncState.call_cursor_le_iff {m : ℤ} (answered : state.call db limit now = .ok page)
    (nowLe : now ≤ m) :
    page.cursor ≤ m ↔
      (FillsClock taskKeys (clampLimit limit) (state.window db now) now → now < m) := by
  obtain ⟨raw, shape, -, cursorEq, -⟩ := SyncState.call_page answered
  rw [cursorEq]
  exact shape.cursor_le_iff (clampLimit_pos _) SyncState.window_le nowLe

end Call

/-! ## Runs -/

section Run
variable {db : Database}

theorem syncStep_answered {state : SyncState} {limit : Option ℤ} {now : ℤ} {page : Page Task}
    (answered : state.call db limit now = .ok page) :
    syncStep db state ⟨now, .sync limit⟩ = { state with since := page.cursor } := by
  simp only [syncStep, answered]

theorem answers_cons_silent {state : SyncState} {step : Timed SyncEvent}
    {run : List (Timed SyncEvent)} (silent : answerOf db state step = none) :
    answers db state (step :: run) = answers db (syncStep db state step) run :=
  outputs_cons_none silent

theorem answers_cons_answer {state : SyncState} {step : Timed SyncEvent}
    {run : List (Timed SyncEvent)} {answer : Answer}
    (emitted : answerOf db state step = some answer) :
    answers db state (step :: run) = answer :: answers db (syncStep db state step) run :=
  outputs_cons_some emitted

/-- Cursors stay safe exactly when no write shares the millisecond of such a drain. -/
theorem cursorsSafe_iff (start : SyncState) (run : List (Timed SyncEvent))
    (monotone : ClockMonotone run) :
    CursorsSafe db start run ↔ ClockMovesAfterDrain db start run := by
  unfold CursorsSafe ClockMovesAfterDrain
  refine forall_congr' fun state => forall_congr' fun limit => forall_congr' fun called =>
    forall_congr' fun page => forall_congr' fun later => forall_congr' fun stamp =>
    forall_congr' fun write => forall_congr' fun row => forall_congr' fun rest =>
    forall_congr' fun pair => ?_
  obtain ⟨between, call, written⟩ := pair.order
  have nowLe : called ≤ stamp := call.clock_le monotone _ written.mem
  exact SyncState.call_cursor_le_iff pair.answered nowLe

theorem clockMovesAfterDrain_of_strict {start : SyncState} {run : List (Timed SyncEvent)}
    (strict : run.Pairwise fun earlier later => earlier.clock < later.clock) :
    ClockMovesAfterDrain db start run := by
  intro state limit called page later stamp write row rest pair _
  obtain ⟨between, ⟨before, split, -⟩, written⟩ := pair.order
  rw [split] at strict
  have fromCall := (List.pairwise_append.mp strict).2.1
  exact (List.pairwise_cons.mp fromCall).1 _ written.mem

theorem since_le_of_cursorsSafe (run : List (Timed SyncEvent)) : ∀ (start : SyncState),
    (∀ later stamp write row rest,
      Happens (syncStep db) start run later ⟨stamp, .write write⟩ rest →
      TaskEffect db later.store (write.run db later.store stamp).2 stamp row →
      start.since ≤ stamp) →
    CursorsSafe db start run →
    ∀ later stamp write row rest,
      Happens (syncStep db) start run later ⟨stamp, .write write⟩ rest →
      TaskEffect db later.store (write.run db later.store stamp).2 stamp row →
      later.since ≤ stamp := by
  induction run with
  | nil => exact fun _ _ _ _ _ _ _ _ occurs => absurd occurs happens_nil
  | cons first run ih =>
      intro start initial safe later stamp write row rest occurs effect
      rcases happens_cons_iff.mp occurs with ⟨rfl, -, -⟩ | inTail
      · exact initial later stamp write row rest occurs effect
      · refine ih (syncStep db start first) ?_ ?_ later stamp write row rest inTail effect
        · -- After the first event the cursor is the old one or the one of that call.
          intro later stamp write row rest occurs effect
          have old := initial later stamp write row rest occurs.cons effect
          obtain ⟨clock, event⟩ := first
          cases event with
          | write other => exact old
          | sync limit =>
              cases answered : start.call db limit clock with
              | error e =>
                  simp only [syncStep, answered]
                  exact old
              | ok page =>
                  have cursorLe := safe start limit clock page later stamp write row rest
                    ⟨answered, ⟨run, happens_head, occurs⟩, effect⟩
                  rw [syncStep_answered answered]
                  exact cursorLe
        · intro state limit called page later stamp write row rest pair
          obtain ⟨between, call, written⟩ := pair.order
          exact safe state limit called page later stamp write row rest
            ⟨pair.answered, ⟨between, call.cons, written⟩, pair.effect⟩

/-- A row within reach of the cursor comes out before the cursor could pass it. -/
theorem delivered_within (run : List (Timed SyncEvent)) : ∀ (start : SyncState) (row : TaskRow)
    (m : ℤ), row.userId = some db.userId → row.lastModified = some m → start.since ≤ m →
    ClockMonotone run → (∀ step ∈ run, m ≤ step.clock) →
    (∀ state ∈ run.scanl (syncStep db) start,
      state.store.tasks.get row.taskId = some row) →
    m - start.since < (answers db start run).length →
    ∃ answer ∈ answers db start run, DeliversTask db answer.store answer.tasks row := by
  induction run with
  | nil =>
      intro start row m _ _ sinceLe _ _ _ enough
      rw [answers, outputs, List.length_nil, Nat.cast_zero] at enough
      omega
  | cons first run ih =>
      intro start row m owned stamped sinceLe monotone fromM unwritten enough
      rw [List.scanl_cons, List.forall_mem_cons] at unwritten
      obtain ⟨stored, unwrittenLater⟩ := unwritten
      have inTable := ((start.store.tasks.get_eq_some_iff _ row).mp stored).1
      obtain ⟨clock, event⟩ := first
      have clockLe : m ≤ clock := fromM _ List.mem_cons_self
      have fromMLater : ∀ step ∈ run, m ≤ step.clock := fun step member =>
        fromM step (List.mem_cons_of_mem _ member)
      have unanswered : answerOf db start ⟨clock, event⟩ = none →
          (syncStep db start ⟨clock, event⟩).since = start.since →
          ∃ answer ∈ answers db start (⟨clock, event⟩ :: run),
            DeliversTask db answer.store answer.tasks row := by
        intro silent sameSince
        rw [answers_cons_silent silent] at enough ⊢
        exact ih _ row m owned stamped (sameSince ▸ sinceLe) monotone.tail fromMLater
          unwrittenLater (by rw [sameSince]; exact enough)
      cases event with
      | write other => exact unanswered rfl rfl
      | sync limit =>
          cases answered : start.call db limit clock with
          | error e =>
              exact unanswered (by simp only [answerOf, answered])
                (by simp only [syncStep, answered])
          | ok page =>
              have answer : answerOf db start ⟨clock, .sync limit⟩ =
                  some ⟨clock, start.store, page.items⟩ := by
                simp only [answerOf, answered]
              rw [answers_cons_answer answer] at enough ⊢
              rcases SyncState.call_delivers_or_advances answered inTable owned stamped sinceLe
                clockLe with delivered | ⟨advanced, cursorLe⟩
              · exact ⟨_, List.mem_cons_self, delivered⟩
              · have next := syncStep_answered answered
                rw [List.length_cons, Nat.cast_add, Nat.cast_one] at enough
                obtain ⟨found, member, delivered⟩ := ih (syncStep db start ⟨clock, .sync limit⟩)
                  row m owned stamped (by rw [next]; exact cursorLe) monotone.tail fromMLater
                  unwrittenLater (by rw [next] at enough ⊢; dsimp only; omega)
                exact ⟨found, List.mem_cons_of_mem _ member, delivered⟩

/-- Once the cursor has passed a stamp, calls at later clocks never return to it. -/
theorem never_delivered {start : SyncState} {run : List (Timed SyncEvent)} {row : TaskRow}
    {m bound : ℤ} (stamped : row.lastModified = some m) (passed : m < bound)
    (sinceGe : bound ≤ start.since) (clocksGe : ∀ step ∈ run, bound ≤ step.clock)
    (unwritten : ∀ state ∈ run.scanl (syncStep db) start,
      state.store.tasks.get row.taskId = some row) :
    ∀ answer ∈ answers db start run, ¬ DeliversTask db answer.store answer.tasks row := by
  have stays : ∀ state step rest, Happens (syncStep db) start run state step rest →
      bound ≤ state.since := by
    refine (invariant_of_steps (fun state : SyncState => bound ≤ state.since) sinceGe ?_).1
    intro state step rest occurs since
    have clockGe := clocksGe step occurs.mem
    obtain ⟨clock, event⟩ := step
    cases event with
    | write other => exact since
    | sync limit =>
        cases answered : state.call db limit clock with
        | error e =>
            simp only [syncStep, answered]
            exact since
        | ok page =>
            obtain ⟨raw, shape, -, cursorEq, -⟩ := SyncState.call_page answered
            rw [syncStep_answered answered, cursorEq]
            exact shape.since_le_cursor (clampLimit_pos _)
              (fun other member => since.trans (SyncState.since_le_window other member)) clockGe
  intro answer member delivered
  obtain ⟨state, step, rest, occurs, emitted⟩ := happens_of_mem_outputs run start member
  have since := stays state step rest occurs
  have inTable := ((state.store.tasks.get_eq_some_iff _ row).mp
    (unwritten state occurs.state_mem_scanl)).1
  obtain ⟨clock, event⟩ := step
  cases event with
  | write other => cases emitted
  | sync limit =>
      cases answered : state.call db limit clock with
      | error e =>
          simp only [answerOf, answered] at emitted
          cases emitted
      | ok page =>
          simp only [answerOf, answered, Option.some.injEq] at emitted
          subst emitted
          obtain ⟨raw, shape, delivers, -⟩ := SyncState.call_page answered
          have below := SyncState.since_le_window row
            (shape.items_subset row ((delivers row inTable).mp delivered))
          rw [stampKeys_stamp stamped] at below
          omega

end Run

/-- No write is lost when the clock moves between such a drain and every later write:
the row of a write comes out within as many answered calls as there are milliseconds
from the cursor to its stamp. -/
theorem atomic_writes_reach_client (db : Database) (start : SyncState)
    (run : List (Timed SyncEvent)) (monotone : ClockMonotone run) :
    (CursorsSafe db start run ↔ ClockMovesAfterDrain db start run) ∧
    (ClockMovesAfterDrain db start run →
      ∀ state limit called page later stamp write row rest,
        CallThenWrite db start run state limit called page later stamp write row rest →
        (∀ reached ∈ rest.scanl (syncStep db) (syncStep db later ⟨stamp, .write write⟩),
          reached.store.tasks.get row.taskId = some row) →
        stamp - later.since <
          (answers db (syncStep db later ⟨stamp, .write write⟩) rest).length →
        ∃ answer ∈ answers db (syncStep db later ⟨stamp, .write write⟩) rest,
          DeliversTask db answer.store answer.tasks row) := by
  refine ⟨cursorsSafe_iff start run monotone, ?_⟩
  intro moves state limit called page later stamp write row rest pair unwritten enough
  have safe := (cursorsSafe_iff start run monotone).mpr moves
  obtain ⟨between, call, written⟩ := pair.order
  have sinceLe : later.since ≤ stamp := by
    refine since_le_of_cursorsSafe between _ ?_ ?_ later stamp write row rest written pair.effect
    · intro later' stamp' write' row' rest' occurs effect
      rw [syncStep_answered pair.answered]
      exact safe state limit called page later' stamp' write' row' rest'
        ⟨pair.answered, ⟨between, call, occurs⟩, effect⟩
    · intro state' limit' called' page' later' stamp' write' row' rest' pair'
      obtain ⟨between', call', written'⟩ := pair'.order
      exact safe state' limit' called' page' later' stamp' write' row' rest'
        ⟨pair'.answered, ⟨between', call.trans call', written'⟩, pair'.effect⟩
  have restMonotone := written.rest_monotone (call.rest_monotone monotone)
  have fromStamp := written.clock_le (call.rest_monotone monotone)
  exact delivered_within rest (syncStep db later ⟨stamp, .write write⟩) row stamp
    pair.effect.owned pair.effect.stamped sinceLe restMonotone fromStamp unwritten enough

/-! ## A write before and a write inside a drained millisecond -/

def completeTaskA : TaskWrite := .setStatus ['a'] .completed none

/-- The row of `oneTask` after its completion. -/
def completedTaskA (ts : ℤ) : TaskRow :=
  (plainTask ['a'] 1000).assign
    [.status (TaskStatus.value .completed), .completedTime ts, .lastModified ts]

def writeBetweenCalls : List (Timed SyncEvent) :=
  [⟨1500, .sync none⟩, ⟨1501, .write completeTaskA⟩, ⟨1502, .sync none⟩, ⟨1503, .sync none⟩]

theorem atomic_writes_reach_client_at_strict_clock :
    ∃ answer ∈ answers singleUser
        (syncStep singleUser ⟨oneTask, 1500⟩ ⟨1501, .write completeTaskA⟩)
        [⟨1502, .sync none⟩, ⟨1503, .sync none⟩],
      DeliversTask singleUser answer.store answer.tasks (completedTaskA 1501) := by
  have reach := (atomic_writes_reach_client singleUser ⟨oneTask, 0⟩ writeBetweenCalls
    (by decide)).2 (clockMovesAfterDrain_of_strict (by decide))
  exact reach ⟨oneTask, 0⟩ none 1500 _ ⟨oneTask, 1500⟩ 1501 completeTaskA _ _
    ⟨rfl, ⟨_, happens_head, happens_head⟩,
      completeTaskA.effect_of_changed _ _ _ rfl (by decide)⟩ (by decide) (by decide)

def writeInDrainedMs : List (Timed SyncEvent) :=
  [⟨1000, .sync (some 1)⟩, ⟨1000, .write completeTaskA⟩]

/-- The task is completed in the millisecond that the client has just drained.  The
cursor is past its stamp, and no later call brings the completion. -/
theorem write_in_drained_ms_is_lost :
    ¬ CursorsSafe singleUser ⟨oneTask, 0⟩ writeInDrainedMs ∧
    (writeInDrainedMs.foldl (syncStep singleUser) ⟨oneTask, 0⟩).store.tasks.get ['a'] =
      some (completedTaskA 1000) ∧
    ∀ later : List (Timed SyncEvent), (∀ step ∈ later, 1001 ≤ step.clock) →
      (∀ state ∈ later.scanl (syncStep singleUser)
          (writeInDrainedMs.foldl (syncStep singleUser) ⟨oneTask, 0⟩),
        state.store.tasks.get ['a'] = some (completedTaskA 1000)) →
      ∀ answer ∈ answers singleUser
          (writeInDrainedMs.foldl (syncStep singleUser) ⟨oneTask, 0⟩) later,
        ¬ DeliversTask singleUser answer.store answer.tasks (completedTaskA 1000) := by
  refine ⟨?_, rfl, ?_⟩
  · intro safe
    have bound := safe ⟨oneTask, 0⟩ (some 1) 1000 _ ⟨oneTask, 1001⟩ 1000 completeTaskA _ []
      ⟨rfl, ⟨_, happens_head, happens_head⟩,
        completeTaskA.effect_of_changed _ _ _ rfl (by decide)⟩
    exact absurd bound (by decide)
  · intro later clocks unwritten
    have passed : (1000 : ℤ) < 1001 := by decide
    exact never_delivered rfl passed (by decide) clocks unwritten

end SupernoteTaskService
