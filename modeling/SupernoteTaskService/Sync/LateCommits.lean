import SupernoteTaskService.Sync.AtomicWrites

/-!
# Syncing against writes that take time

A writer reads the clock and executes its statement in two steps, and other requests
run in between.  The statement stamps the reading, so it can become visible with a
stamp that a cursor has already passed: with pages below the limit, that happens
exactly when a call in between was answered at a later clock.
-/

set_option autoImplicit false

namespace SupernoteTaskService

open Foundation

/-- The client's view and what each writer has read but not yet executed. -/
structure LateState extends SyncState where
  pending : ℕ → Option (ℤ × TaskWrite)

inductive LateEvent where
  | begin (writer : ℕ) (write : TaskWrite)
  | execute (writer : ℕ)
  | sync (limit : Option ℤ)
  deriving DecidableEq

section Model
variable (db : Database)

/-- `begin` reads the stamp, `execute` runs the statement with it. -/
def lateStep (state : LateState) (step : Timed LateEvent) : LateState :=
  match step.event with
  | .begin writer write =>
      { state with pending := Function.update state.pending writer (some (step.clock, write)) }
  | .execute writer =>
      match state.pending writer with
      | some (ts, write) =>
          { state with
            store := (write.run db state.store ts).2
            pending := Function.update state.pending writer none }
      | none => state
  | .sync limit => { state with toSyncState := syncStep db state.toSyncState ⟨step.clock, .sync limit⟩ }

def lateAnswerOf (state : LateState) (step : Timed LateEvent) : Option Answer :=
  match step.event with
  | .sync limit => answerOf db state.toSyncState ⟨step.clock, .sync limit⟩
  | _ => none

def lateAnswers : LateState → List (Timed LateEvent) → List Answer :=
  outputs (lateStep db) (lateAnswerOf db)

/-- At every call of the run the table has fewer rows than the page may have. -/
def ShortPages (start : LateState) (run : List (Timed LateEvent)) : Prop :=
  ∀ state clock limit rest, Happens (lateStep db) start run state ⟨clock, .sync limit⟩ rest →
    state.store.tasks.rows.length < clampLimit limit

/-- After `before`, a writer executes its write with the stamp `ts` it has read and
leaves `row`; `rest` is still to come. -/
structure Commit (start : LateState) (run before : List (Timed LateEvent))
    (step : Timed LateEvent) (ts : ℤ) (write : TaskWrite) (row : TaskRow)
    (rest : List (Timed LateEvent)) : Prop where
  order : run = before ++ step :: rest
  executes : ∃ writer, step.event = .execute writer ∧
    (before.foldl (lateStep db) start).pending writer = some (ts, write)
  effect : TaskEffect db (before.foldl (lateStep db) start).store
    (write.run db (before.foldl (lateStep db) start).store ts).2 ts row

/-- A call before the commit was answered at a clock later than its stamp. -/
def Overtaken (start : LateState) (before : List (Timed LateEvent)) (ts : ℤ) : Prop :=
  ∃ answer ∈ lateAnswers db start before, ts < answer.clock

end Model

/-! ## Steps -/

section Steps
variable {db : Database} {state : LateState} {clock : ℤ} {limit : Option ℤ}

theorem window_length_le (view : SyncState) (now : ℤ) :
    (view.window db now).length ≤ view.store.tasks.rows.length :=
  (List.length_filter_le _ _).trans (List.length_filter_le _ _)

theorem short_call {view : SyncState} {now : ℤ} {page : Page Task}
    (short : view.store.tasks.rows.length < clampLimit limit)
    (answered : view.call db limit now = .ok page) :
    page.cursor = now ∧ ∀ row ∈ view.store.tasks.rows,
      DeliversTask db view.store page.items row ↔ row ∈ view.window db now := by
  obtain ⟨raw, shape, delivers, cursorEq, -⟩ := SyncState.call_page answered
  obtain ⟨all, atClock⟩ := shape.of_short ((window_length_le view now).trans_lt short)
  refine ⟨cursorEq.trans atClock, fun row stored => ?_⟩
  rw [delivers row stored, all.mem_iff]

variable (db) in
theorem lateStep_answer_cases (state : LateState) (step : Timed LateEvent) :
    (lateAnswerOf db state step = none ∧ (lateStep db state step).since = state.since) ∨
      ∃ limit page, step.event = .sync limit ∧
        state.toSyncState.call db limit step.clock = .ok page ∧
        lateAnswerOf db state step = some ⟨step.clock, state.store, page.items⟩ ∧
        lateStep db state step = { state with since := page.cursor } := by
  obtain ⟨clock, event⟩ := step
  cases event with
  | begin writer write => exact Or.inl ⟨rfl, rfl⟩
  | execute writer =>
      left
      refine ⟨rfl, ?_⟩
      cases held : state.pending writer with
      | none => simp only [lateStep, held]
      | some read => simp only [lateStep, held]
  | sync limit =>
      cases answered : state.toSyncState.call db limit clock with
      | error e =>
          left
          exact ⟨by simp only [lateAnswerOf, answerOf, answered],
            by simp only [lateStep, syncStep, answered]⟩
      | ok page =>
          right
          refine ⟨limit, page, rfl, answered, ?_, ?_⟩
          · simp only [lateAnswerOf, answerOf, answered]
          · simp only [lateStep, syncStep, answered]

variable (db) in
theorem lateStep_row_cases (state : LateState) (step : Timed LateEvent) (k : Text) :
    (lateStep db state step).store.tasks.get k = state.store.tasks.get k ∨
      ∃ writer ts write row, step.event = .execute writer ∧
        state.pending writer = some (ts, write) ∧
        TaskEffect db state.store (write.run db state.store ts).2 ts row ∧
        (lateStep db state step).since = state.since ∧
        (lateStep db state step).store.tasks.get k = some row := by
  obtain ⟨clock, event⟩ := step
  cases event with
  | begin writer write => exact Or.inl rfl
  | execute writer =>
      cases held : state.pending writer with
      | none =>
          left
          simp only [lateStep, held]
      | some read =>
          obtain ⟨ts, write⟩ := read
          have after : (lateStep db state ⟨clock, .execute writer⟩).store =
              (write.run db state.store ts).2 := by
            simp only [lateStep, held]
          rcases write.run_cases db state.store ts with same | ⟨row, written, ran, -, effect⟩
          · left
            rw [after, same]
          · have frame := effect.frame k
            rw [after, ran]
            by_cases isKey : k = row.taskId
            · right
              rw [if_pos isKey] at frame
              refine ⟨writer, ts, write, row, rfl, held, by rw [ran]; exact effect, ?_, frame⟩
              simp only [lateStep, held]
            · left
              rw [if_neg isKey] at frame
              exact frame
  | sync limit =>
      left
      rcases lateStep_answer_cases db state ⟨clock, .sync limit⟩ with
        ⟨-, -⟩ | ⟨limit', page, -, answered, -, stepped⟩
      · simp only [lateStep, syncStep]
        split <;> rfl
      · rw [stepped]

end Steps

/-! ## Runs -/

section Runs
variable {db : Database} {start : LateState}

theorem happens_of_mem_lateAnswers {run : List (Timed LateEvent)} {answer : Answer}
    (member : answer ∈ lateAnswers db start run) :
    ∃ state limit page rest,
      Happens (lateStep db) start run state ⟨answer.clock, .sync limit⟩ rest ∧
        state.toSyncState.call db limit answer.clock = .ok page ∧
        answer.store = state.store ∧ answer.tasks = page.items := by
  obtain ⟨state, ⟨clock, event⟩, rest, occurs, emitted⟩ :=
    happens_of_mem_outputs run start member
  rcases lateStep_answer_cases db state ⟨clock, event⟩ with
    ⟨silent, -⟩ | ⟨limit, page, isSync, answered, emits, -⟩
  · rw [silent] at emitted
    cases emitted
  · rw [emits] at emitted
    cases isSync
    cases emitted
    exact ⟨state, limit, page, rest, occurs, answered, rfl, rfl⟩

/-- The cursor is past a stamp exactly when a call was answered at a later clock. -/
theorem since_le_iff_not_overtaken {ts : ℤ} (sinceLe : start.since ≤ ts)
    (before : List (Timed LateEvent)) (monotone : ClockMonotone before)
    (short : ShortPages db start before) :
    (before.foldl (lateStep db) start).since ≤ ts ↔ ¬ Overtaken db start before ts := by
  induction before using List.reverseRecOn with
  | nil =>
      refine iff_of_true sinceLe fun overtaken => ?_
      obtain ⟨answer, member, -⟩ := overtaken
      exact absurd member List.not_mem_nil
  | append_singleton before step ih =>
      have earlier := ih (List.pairwise_append.mp monotone).1
        fun state clock limit rest occurs => short _ _ _ _ (occurs.append_right [step])
      have lastAnswers : lateAnswers db start (before ++ [step]) = lateAnswers db start before ++
          (lateAnswerOf db (before.foldl (lateStep db) start) step).toList := by
        rw [lateAnswers, outputs_append, outputs, outputs, List.append_nil]
      rw [List.foldl_append, List.foldl_cons, List.foldl_nil]
      unfold Overtaken at earlier ⊢
      rw [lastAnswers]
      rcases lateStep_answer_cases db (before.foldl (lateStep db) start) step with
        ⟨silent, sameSince⟩ | ⟨limit, page, isSync, answered, emitted, stepped⟩
      · rw [silent, sameSince, Option.toList_none, List.append_nil]
        exact earlier
      · obtain ⟨clock, event⟩ := step
        cases isSync
        have atClock := (short_call (short _ _ _ _ (happens_after before)) answered).1
        rw [emitted, stepped, atClock, Option.toList_some]
        constructor
        · intro clockLe overtaken
          obtain ⟨answer, member, later⟩ := overtaken
          rcases List.mem_append.mp member with inBefore | isLast
          · obtain ⟨_, _, _, _, occurs, -⟩ := happens_of_mem_lateAnswers inBefore
            have ordered := (List.pairwise_append.mp monotone).2.2 _ occurs.mem _
              List.mem_cons_self
            dsimp only at ordered clockLe
            omega
          · rw [List.mem_singleton.mp isLast] at later
            dsimp only at later clockLe
            omega
        · intro inTime
          by_contra late
          exact inTime ⟨_, List.mem_append_right _ List.mem_cons_self, not_le.mp late⟩

theorem pending_stamp_mem (idle : ∀ writer, start.pending writer = none)
    (before : List (Timed LateEvent)) : ∀ {writer : ℕ} {ts : ℤ} {write : TaskWrite},
      (before.foldl (lateStep db) start).pending writer = some (ts, write) →
      ∃ step ∈ before, step.clock = ts := by
  induction before using List.reverseRecOn with
  | nil =>
      intro writer ts write held
      rw [List.foldl_nil, idle writer] at held
      cases held
  | append_singleton before step ih =>
      intro writer ts write held
      rw [List.foldl_append, List.foldl_cons, List.foldl_nil] at held
      have fromBefore : (before.foldl (lateStep db) start).pending writer = some (ts, write) →
          ∃ other ∈ before ++ [step], other.clock = ts := by
        intro earlier
        obtain ⟨other, member, same⟩ := ih earlier
        exact ⟨other, List.mem_append_left _ member, same⟩
      obtain ⟨clock, event⟩ := step
      cases event with
      | begin other write' =>
          by_cases isWriter : writer = other
          · subst isWriter
            simp only [lateStep, Function.update_self, Option.some.injEq, Prod.mk.injEq] at held
            exact ⟨_, List.mem_append_right _ List.mem_cons_self, held.1⟩
          · simp only [lateStep, Function.update_of_ne isWriter] at held
            exact fromBefore held
      | execute other =>
          cases read : (before.foldl (lateStep db) start).pending other with
          | none =>
              simp only [lateStep, read] at held
              exact fromBefore held
          | some pair =>
              simp only [lateStep, read] at held
              by_cases isWriter : writer = other
              · subst isWriter
                rw [Function.update_self] at held
                cases held
              · rw [Function.update_of_ne isWriter] at held
                exact fromBefore held
      | sync limit => exact fromBefore held

/-- A row whose stamp the cursor has not passed comes with the next answer, in the
form it has by then, if every write that replaces it is in time as well. -/
theorem next_answer_delivers (k : Text) (run : List (Timed LateEvent)) : ∀ start : LateState,
    (∃ row m, start.store.tasks.get k = some row ∧ row.userId = some db.userId ∧
      row.lastModified = some m ∧ start.since ≤ m ∧ ∀ step ∈ run, m ≤ step.clock) →
    ShortPages db start run →
    (∀ state step rest writer ts write row,
      Happens (lateStep db) start run state step rest → step.event = .execute writer →
      state.pending writer = some (ts, write) →
      TaskEffect db state.store (write.run db state.store ts).2 ts row →
      (lateStep db state step).store.tasks.get k ≠ state.store.tasks.get k →
      state.since ≤ ts ∧ ∀ later ∈ rest, ts ≤ later.clock) →
    lateAnswers db start run ≠ [] →
    ∃ answer ∈ lateAnswers db start run, ∃ current,
      answer.store.tasks.get k = some current ∧
        DeliversTask db answer.store answer.tasks current := by
  induction run with
  | nil => exact fun _ _ _ _ someAnswer => absurd rfl someAnswer
  | cons step run ih =>
      intro start ⟨row, m, stored, owned, stamped, sinceLe, clocks⟩ short inTime someAnswer
      have shortLater : ShortPages db (lateStep db start step) run :=
        fun state clock limit rest occurs => short _ _ _ _ occurs.cons
      rcases lateStep_answer_cases db start step with
        ⟨silent, sameSince⟩ | ⟨limit, page, isSync, answered, emitted, -⟩
      · have sameAnswers : lateAnswers db start (step :: run) =
            lateAnswers db (lateStep db start step) run := outputs_cons_none silent
        rw [sameAnswers] at someAnswer ⊢
        refine ih _ ?_ shortLater
          (fun state step rest writer ts write row occurs => inTime _ _ _ _ _ _ _ occurs.cons)
          someAnswer
        -- The row is the old one, or one that a write in time has just stamped.
        rcases lateStep_row_cases db start step k with
          same | ⟨writer, ts, write, row', isExecute, held, effect, -, stored'⟩
        · exact ⟨row, m, same.trans stored, owned, stamped, sameSince ▸ sinceLe,
            fun later member => clocks later (List.mem_cons_of_mem _ member)⟩
        · by_cases replaced : (lateStep db start step).store.tasks.get k = start.store.tasks.get k
          · exact ⟨row, m, replaced.trans stored, owned, stamped, sameSince ▸ sinceLe,
              fun later member => clocks later (List.mem_cons_of_mem _ member)⟩
          · obtain ⟨sinceLe', clocks'⟩ :=
              inTime _ _ _ _ _ _ _ happens_head isExecute held effect replaced
            exact ⟨row', ts, stored', effect.owned, effect.stamped, sameSince ▸ sinceLe', clocks'⟩
      · obtain ⟨clock, event⟩ := step
        cases isSync
        have answers : lateAnswers db start (⟨clock, .sync limit⟩ :: run) =
            _ :: lateAnswers db _ run := outputs_cons_some emitted
        have inTable := (start.store.tasks.get_eq_some_iff k row).mp stored
        have delivers := (short_call (short _ _ _ _ happens_head) answered).2 row inTable.1
        have member : row ∈ start.toSyncState.window db clock :=
          SyncState.mem_window inTable.1 owned stamped sinceLe (clocks _ List.mem_cons_self)
        rw [answers]
        exact ⟨_, List.mem_cons_self, row, stored, delivers.mpr member⟩

theorem late_never_delivered {run : List (Timed LateEvent)} {row : TaskRow} {m bound : ℤ}
    (stamped : row.lastModified = some m) (passed : m < bound) (sinceGe : bound ≤ start.since)
    (clocksGe : ∀ step ∈ run, bound ≤ step.clock) (short : ShortPages db start run)
    (unwritten : ∀ state ∈ run.scanl (lateStep db) start,
      state.store.tasks.get row.taskId = some row) :
    ∀ answer ∈ lateAnswers db start run, ¬ DeliversTask db answer.store answer.tasks row := by
  have stays : ∀ state step rest, Happens (lateStep db) start run state step rest →
      bound ≤ state.since := by
    refine (invariant_of_steps (fun state : LateState => bound ≤ state.since) sinceGe ?_).1
    intro state step rest occurs since
    rcases lateStep_answer_cases db state step with
      ⟨-, sameSince⟩ | ⟨limit, page, isSync, answered, -, stepped⟩
    · rw [sameSince]
      exact since
    · obtain ⟨clock, event⟩ := step
      cases isSync
      rw [stepped, (short_call (short _ _ _ _ occurs) answered).1]
      exact clocksGe _ occurs.mem
  intro answer member delivered
  obtain ⟨state, limit, page, rest, occurs, answered, sameStore, sameTasks⟩ :=
    happens_of_mem_lateAnswers member
  have since := stays _ _ _ occurs
  have inTable := ((state.store.tasks.get_eq_some_iff _ row).mp
    (unwritten state occurs.state_mem_scanl)).1
  rw [sameStore, sameTasks, (short_call (short _ _ _ _ occurs) answered).2 row inTable] at delivered
  have below := SyncState.since_le_window row delivered
  rw [stampKeys_stamp stamped] at below
  omega

end Runs

/-! ## The law -/

section Law
variable {db : Database} {start : LateState} {run before rest : List (Timed LateEvent)}
  {step : Timed LateEvent} {ts : ℤ} {write : TaskWrite} {row : TaskRow}

theorem Commit.state_after (commit : Commit db start run before step ts write row rest) :
    (lateStep db (before.foldl (lateStep db) start) step).store.tasks.get row.taskId = some row ∧
      (lateStep db (before.foldl (lateStep db) start) step).since =
        (before.foldl (lateStep db) start).since := by
  obtain ⟨writer, isExecute, held⟩ := commit.executes
  obtain ⟨clock, event⟩ := step
  cases isExecute
  have frame := commit.effect.frame row.taskId
  rw [if_pos rfl] at frame
  simp only [lateStep, held, and_true]
  exact frame

theorem Commit.stamp_bounds (commit : Commit db start run before step ts write row rest)
    (monotone : ClockMonotone run) (idle : ∀ writer, start.pending writer = none)
    (handedOut : ∀ step ∈ run, start.since ≤ step.clock) :
    start.since ≤ ts ∧ ∀ later ∈ rest, ts ≤ later.clock := by
  obtain ⟨writer, -, held⟩ := commit.executes
  obtain ⟨reading, readingMem, isTs⟩ := pending_stamp_mem idle before held
  have split := commit.order
  rw [split] at monotone handedOut
  constructor
  · rw [← isTs]
    exact handedOut reading (List.mem_append_left _ readingMem)
  · intro later member
    rw [← isTs]
    exact (List.pairwise_append.mp monotone).2.2 reading readingMem later
      (List.mem_cons_of_mem _ member)

theorem Commit.since_le_iff (commit : Commit db start run before step ts write row rest)
    (monotone : ClockMonotone run) (idle : ∀ writer, start.pending writer = none)
    (handedOut : ∀ step ∈ run, start.since ≤ step.clock) (short : ShortPages db start run) :
    (before.foldl (lateStep db) start).since ≤ ts ↔ ¬ Overtaken db start before ts := by
  have sinceLe := (commit.stamp_bounds monotone idle handedOut).1
  have split := commit.order
  subst split
  exact since_le_iff_not_overtaken sinceLe before (List.pairwise_append.mp monotone).1
    fun state clock limit rest occurs => short _ _ _ _ (occurs.append_right _)

theorem Commit.short_after (commit : Commit db start run before step ts write row rest)
    (short : ShortPages db start run) :
    ShortPages db (lateStep db (before.foldl (lateStep db) start) step) rest := by
  intro state clock limit remaining occurs
  have split := commit.order
  subst split
  exact short _ _ _ _ ((happens_after before).trans occurs)

theorem Commit.later_commit (commit : Commit db start run before step ts write row rest)
    {state : LateState} {other : Timed LateEvent} {remaining : List (Timed LateEvent)}
    {writer : ℕ} {ts' : ℤ} {write' : TaskWrite} {row' : TaskRow}
    (occurs : Happens (lateStep db) (lateStep db (before.foldl (lateStep db) start) step) rest
      state other remaining)
    (isExecute : other.event = .execute writer) (held : state.pending writer = some (ts', write'))
    (effect : TaskEffect db state.store (write'.run db state.store ts').2 ts' row') :
    ∃ before', before'.foldl (lateStep db) start = state ∧
      Commit db start run before' other ts' write' row' remaining := by
  obtain ⟨between, split, reached⟩ := occurs
  have reachedFromStart : (before ++ step :: between).foldl (lateStep db) start = state := by
    rw [List.foldl_append, List.foldl_cons]
    exact reached
  refine ⟨before ++ step :: between, reachedFromStart, ?_, ⟨writer, isExecute, ?_⟩, ?_⟩
  · rw [commit.order, split, List.append_assoc, List.cons_append]
  · rw [reachedFromStart]
    exact held
  · rw [reachedFromStart]
    exact effect

theorem Commit.reachable_after (commit : Commit db start run before step ts write row rest)
    (monotone : ClockMonotone run) (idle : ∀ writer, start.pending writer = none)
    (handedOut : ∀ step ∈ run, start.since ≤ step.clock) (short : ShortPages db start run)
    (inTime : ¬ Overtaken db start before ts) :
    ∃ row' m, (lateStep db (before.foldl (lateStep db) start) step).store.tasks.get row.taskId =
        some row' ∧ row'.userId = some db.userId ∧ row'.lastModified = some m ∧
      (lateStep db (before.foldl (lateStep db) start) step).since ≤ m ∧
      ∀ later ∈ rest, m ≤ later.clock := by
  have sinceLe := (commit.since_le_iff monotone idle handedOut short).mpr inTime
  refine ⟨row, ts, commit.state_after.1, commit.effect.owned, commit.effect.stamped, ?_,
    (commit.stamp_bounds monotone idle handedOut).2⟩
  rw [commit.state_after.2]
  exact sinceLe

theorem Commit.reaches_client (commit : Commit db start run before step ts write row rest)
    (monotone : ClockMonotone run) (idle : ∀ writer, start.pending writer = none)
    (handedOut : ∀ step ∈ run, start.since ≤ step.clock) (short : ShortPages db start run)
    (inTime : ∀ before step ts write row rest,
      Commit db start run before step ts write row rest → ¬ Overtaken db start before ts)
    (someAnswer : lateAnswers db (lateStep db (before.foldl (lateStep db) start) step) rest ≠ []) :
    ∃ answer ∈ lateAnswers db (lateStep db (before.foldl (lateStep db) start) step) rest,
      ∃ current, answer.store.tasks.get row.taskId = some current ∧
        DeliversTask db answer.store answer.tasks current := by
  refine next_answer_delivers row.taskId rest _
    (commit.reachable_after monotone idle handedOut short (inTime _ _ _ _ _ _ commit))
    (commit.short_after short) ?_ someAnswer
  intro state other remaining writer ts' write' row' occurs isExecute held effect _
  obtain ⟨before', reached, later⟩ := commit.later_commit occurs isExecute held effect
  have sinceLe := (later.since_le_iff monotone idle handedOut short).mpr (inTime _ _ _ _ _ _ later)
  rw [reached] at sinceLe
  exact ⟨sinceLe, (later.stamp_bounds monotone idle handedOut).2⟩

theorem Commit.lost_of_overtaken (commit : Commit db start run before step ts write row rest)
    (monotone : ClockMonotone run) (idle : ∀ writer, start.pending writer = none)
    (handedOut : ∀ step ∈ run, start.since ≤ step.clock) (short : ShortPages db start run)
    (unwritten : ∀ state ∈
      rest.scanl (lateStep db) (lateStep db (before.foldl (lateStep db) start) step),
      state.store.tasks.get row.taskId = some row)
    (overtaken : Overtaken db start before ts) :
    ∀ answer ∈ lateAnswers db (lateStep db (before.foldl (lateStep db) start) step) rest,
      ¬ DeliversTask db answer.store answer.tasks row := by
  have passed := mt (commit.since_le_iff monotone idle handedOut short).mp
    (not_not.mpr overtaken)
  obtain ⟨earlier, earlierMem, late⟩ := overtaken
  obtain ⟨_, _, _, _, call, -⟩ := happens_of_mem_lateAnswers earlierMem
  have clocksGe : ∀ other ∈ rest, ts + 1 ≤ other.clock := by
    intro other otherMem
    have split := commit.order
    rw [split] at monotone
    have ordered := (List.pairwise_append.mp monotone).2.2 _ call.mem other
      (List.mem_cons_of_mem _ otherMem)
    dsimp only at ordered
    omega
  refine late_never_delivered commit.effect.stamped (Int.lt_succ ts) ?_ clocksGe
    (commit.short_after short) unwritten
  rw [commit.state_after.2]
  omega

/-- Nothing replaces the row of an unwritten commit, so no other write has to be in
time for it. -/
theorem Commit.delivered_of_in_time (commit : Commit db start run before step ts write row rest)
    (monotone : ClockMonotone run) (idle : ∀ writer, start.pending writer = none)
    (handedOut : ∀ step ∈ run, start.since ≤ step.clock) (short : ShortPages db start run)
    (unwritten : ∀ state ∈
      rest.scanl (lateStep db) (lateStep db (before.foldl (lateStep db) start) step),
      state.store.tasks.get row.taskId = some row)
    (someAnswer : lateAnswers db (lateStep db (before.foldl (lateStep db) start) step) rest ≠ [])
    (inTime : ¬ Overtaken db start before ts) :
    ∃ answer ∈ lateAnswers db (lateStep db (before.foldl (lateStep db) start) step) rest,
      DeliversTask db answer.store answer.tasks row := by
  obtain ⟨answer, member, current, stored, delivered⟩ :=
    next_answer_delivers row.taskId rest _
      (commit.reachable_after monotone idle handedOut short inTime) (commit.short_after short)
      (fun state other remaining _ _ _ _ occurs _ _ _ replaced =>
        absurd ((unwritten _ occurs.next_mem_scanl).trans
          (unwritten _ occurs.state_mem_scanl).symm) replaced) someAnswer
  obtain ⟨state, _, _, _, occurs, -, sameStore, -⟩ := happens_of_mem_lateAnswers member
  have isRow := unwritten state occurs.state_mem_scanl
  rw [← sameStore, stored] at isRow
  cases isRow
  exact ⟨answer, member, delivered⟩

end Law

/-- A committed write reaches the client, in its committed or a later form, with the
next answer, when no commit is overtaken; a commit that is not written again reaches
the client exactly when it is not overtaken. -/
theorem late_commits_reach_client (db : Database) (start : LateState)
    (run : List (Timed LateEvent)) (monotone : ClockMonotone run)
    (idle : ∀ writer, start.pending writer = none)
    (handedOut : ∀ step ∈ run, start.since ≤ step.clock) (short : ShortPages db start run) :
    ((∀ before step ts write row rest, Commit db start run before step ts write row rest →
        ¬ Overtaken db start before ts) →
      ∀ before step ts write row rest, Commit db start run before step ts write row rest →
        lateAnswers db (lateStep db (before.foldl (lateStep db) start) step) rest ≠ [] →
        ∃ answer ∈ lateAnswers db (lateStep db (before.foldl (lateStep db) start) step) rest,
          ∃ current, answer.store.tasks.get row.taskId = some current ∧
            DeliversTask db answer.store answer.tasks current) ∧
    (∀ before step ts write row rest, Commit db start run before step ts write row rest →
      lateAnswers db (lateStep db (before.foldl (lateStep db) start) step) rest ≠ [] →
      (∀ state ∈ rest.scanl (lateStep db) (lateStep db (before.foldl (lateStep db) start) step),
        state.store.tasks.get row.taskId = some row) →
      ((∃ answer ∈ lateAnswers db (lateStep db (before.foldl (lateStep db) start) step) rest,
          DeliversTask db answer.store answer.tasks row) ↔ ¬ Overtaken db start before ts)) := by
  constructor
  · intro inTime before step ts write row rest commit someAnswer
    exact commit.reaches_client monotone idle handedOut short inTime someAnswer
  · intro before step ts write row rest commit someAnswer unwritten
    constructor
    · intro ⟨answer, member, delivered⟩ overtaken
      exact commit.lost_of_overtaken monotone idle handedOut short unwritten overtaken
        answer member delivered
    · exact commit.delivered_of_in_time monotone idle handedOut short unwritten someAnswer

/-! ## A commit in time and a commit that is overtaken -/

def idleOneTask : LateState := ⟨⟨oneTask, 1500⟩, fun _ => none⟩

def commitInTime : List (Timed LateEvent) :=
  [⟨2000, .begin 0 completeTaskA⟩, ⟨2001, .execute 0⟩, ⟨2002, .sync none⟩]

theorem late_commits_reach_client_in_time :
    ∃ answer ∈ lateAnswers singleUser
        ((commitInTime.take 2).foldl (lateStep singleUser) idleOneTask) [⟨2002, .sync none⟩],
      DeliversTask singleUser answer.store answer.tasks (completedTaskA 2000) := by
  have short : ShortPages singleUser idleOneTask commitInTime := by
    intro state clock limit rest occurs
    rcases happens_cons_iff.mp occurs with ⟨-, impossible, -⟩ | occurs
    · cases impossible
    rcases happens_cons_iff.mp occurs with ⟨-, impossible, -⟩ | occurs
    · cases impossible
    rcases happens_cons_iff.mp occurs with ⟨rfl, isCall, -⟩ | occurs
    · cases isCall
      decide
    · exact absurd occurs happens_nil
  have law := (late_commits_reach_client singleUser idleOneTask commitInTime (by decide)
    (fun _ => rfl) (by decide) short).2
  have commit : Commit singleUser idleOneTask commitInTime [⟨2000, .begin 0 completeTaskA⟩]
      ⟨2001, .execute 0⟩ 2000 completeTaskA (completedTaskA 2000) [⟨2002, .sync none⟩] :=
    ⟨rfl, ⟨0, rfl, rfl⟩, completeTaskA.effect_of_changed _ _ _ rfl (by decide)⟩
  refine (law _ _ _ _ _ _ commit (List.cons_ne_nil _ _) (by decide)).mpr ?_
  intro ⟨answer, member, _⟩
  exact absurd member List.not_mem_nil

def commitOvertaken : List (Timed LateEvent) :=
  [⟨2000, .begin 0 completeTaskA⟩, ⟨2001, .sync none⟩, ⟨2002, .execute 0⟩]

/-- The client calls between the reading of the stamp and the commit.  The completion
is in the table, and no later call brings it. -/
theorem overtaken_commit_is_lost :
    (commitOvertaken.foldl (lateStep singleUser) idleOneTask).store.tasks.get ['a'] =
      some (completedTaskA 2000) ∧
    ∀ later : List (Timed LateEvent), (∀ step ∈ later, 2001 ≤ step.clock) →
      ShortPages singleUser (commitOvertaken.foldl (lateStep singleUser) idleOneTask) later →
      (∀ state ∈ later.scanl (lateStep singleUser)
          (commitOvertaken.foldl (lateStep singleUser) idleOneTask),
        state.store.tasks.get ['a'] = some (completedTaskA 2000)) →
      ∀ answer ∈ lateAnswers singleUser
          (commitOvertaken.foldl (lateStep singleUser) idleOneTask) later,
        ¬ DeliversTask singleUser answer.store answer.tasks (completedTaskA 2000) := by
  refine ⟨rfl, ?_⟩
  intro later clocks short unwritten
  have passed : (2000 : ℤ) < 2001 := by decide
  exact late_never_delivered rfl passed (by decide) clocks short unwritten

end SupernoteTaskService
