import SupernoteTaskService.Foundation.Simulation
import SupernoteTaskService.Routers.Interleaving

/-!
# The writes of requests in flight

However the statements of requests interleave, the tables are those of their writes one after
another: each request has at most one, it lies between the request's first statement and its
answer, and a request that is answered with success has had it succeed.  A write carries the
position that its request read before, and what the requests look up is no part of the log.
-/

set_option autoImplicit false

namespace SupernoteTaskService

open Foundation

/-- The write of a request: the clock reading that it stamps with, and the position that it
read before, where it read one. -/
structure LoggedWrite (ι : Type) where
  request : ι
  clock : ℤ
  position : Option ℤ
  deriving DecidableEq

section Commits
variable (db : Database)

def Request.commit (store : Store) (clock : ℤ) (request : Request) :
    Option ℤ → Except Raised Returned × Store
  | none => request.operation.run db store clock
  | some sort =>
      match request with
      | .createTask taskId body =>
          match insertTask store { newTaskRow db store taskId clock body with sort := some sort } with
          | .ok (created, after) => (.ok (.id created), after)
          | .error e => (.error e, store)
      | _ => (.error .databaseError, store)

variable {ι : Type} (requests : ι → Request)

def commitStep (store : Store) (commit : LoggedWrite ι) : Store :=
  ((requests commit.request).commit db store commit.clock commit.position).2

def Request.commits (store : Store) (now : ℤ) (request : Request) : Stage → Option (ℤ × Option ℤ)
  | .ready => if (request.position db store).isNone then some (now, none) else none
  | .placed ts sort => some (ts, some sort)
  | _ => none

def commitOf (state : InFlight ι) (step : Timed ι) : Option (LoggedWrite ι) :=
  ((requests step.event).commits db state.store step.clock (state.stage step.event)).map fun commit =>
    ⟨step.event, commit.1, commit.2⟩

variable [DecidableEq ι]

/-- The writes of a schedule, in the order of their statements. -/
def commitLog (start : Store) (schedule : List (Timed ι)) : List (LoggedWrite ι) :=
  outputs (statementStep db requests) (commitOf db requests) (.init start) schedule

def WriteSucceeds (start : Store) (log : List (LoggedWrite ι)) (id : ι) : Prop :=
  ∃ store commit rest, Happens (commitStep db requests) start log store commit rest ∧
    commit.request = id ∧ ∃ returned, ((requests id).commit db store commit.clock commit.position).1 =
      .ok returned ∧ returned ≠ .flag false

end Commits

/-! ## One statement -/

section Statement
variable {db : Database} {store : Store} {now : ℤ} {request : Request}

theorem Request.resolve_error {found conditional : Bool} {after : Store}
    (outcome : (request.operation.run db store now).1 = .ok (.flag found)) :
    ∃ e, request.resolve db after conditional = .error e := by
  have refuses : ∀ (conflict missing : String) (stillThere : Bool),
      ∃ e, resolveWriteWith conflict missing stillThere false conditional = .error e := by
    intro conflict missing stillThere
    rw [resolveWriteWith, if_neg Bool.false_ne_true]
    by_cases stale : (conditional && stillThere) = true
    · rw [if_pos stale]
      exact ⟨_, rfl⟩
    · rw [if_neg stale]
      exact ⟨_, rfl⟩
  cases request with
  | createTask taskId body =>
      simp only [Request.operation, Operation.run] at outcome
      rcases createTask_cases db store now taskId body with ⟨refused, -⟩ | ⟨after, created, -, -⟩
      · rw [refused] at outcome
        cases outcome
      · rw [created] at outcome
        cases outcome
  | createList listId body =>
      simp only [Request.operation, Operation.run] at outcome
      rcases createList_cases db store now listId body.title.text with
        ⟨refused, -⟩ | ⟨after, created, -, -⟩
      · rw [refused] at outcome
        cases outcome
      · rw [created] at outcome
        cases outcome
  | _ => exact refuses _ _ _

theorem Request.afterWrite_cases (request : Request) {after : Store} :
    (request.afterWrite db after (request.operation.run db store now).1 = .written ∧
      ∃ returned, (request.operation.run db store now).1 = .ok returned ∧ returned ≠ .flag false) ∨
    (request.afterWrite db after (request.operation.run db store now).1 = .refused ∧
      ∃ found, (request.operation.run db store now).1 = .ok (.flag found)) ∨
    ∃ e, request.afterWrite db after (request.operation.run db store now).1 =
      .answered (.error e) := by
  cases outcome : (request.operation.run db store now).1 with
  | error e => exact Or.inr (Or.inr ⟨e, rfl⟩)
  | ok returned =>
      by_cases failed : returned = .flag false
      · subst failed
        rw [Request.afterWrite]
        cases request.conditional with
        | true => exact Or.inr (Or.inl ⟨rfl, false, rfl⟩)
        | false =>
            obtain ⟨e, resolved⟩ : ∃ e, request.resolve db after false = .error e :=
              request.resolve_error outcome
            rw [resolved]
            exact Or.inr (Or.inr ⟨e, rfl⟩)
      · refine Or.inl ⟨?_, returned, rfl, failed⟩
        cases returned with
        | flag found =>
            cases found with
            | true => rfl
            | false => exact absurd rfl failed
        | _ => rfl

/-- What one statement of a request does, and which of them is its write. -/
inductive StatementMove (db : Database) (store : Store) (now : ℤ) (request : Request) :
    Stage → Option (ℤ × Option ℤ) → Stage → Store → Prop
  | passed : StatementMove db store now request .received none .ready store
  | checked (reply : Except Raised Response) (answers : request.check db store = some reply) :
      StatementMove db store now request .received none (.answered reply) store
  | placed (sort : ℤ) (position : request.position db store = some sort) :
      StatementMove db store now request .ready none (.placed now sort) store
  | wrote : StatementMove db store now request .ready (some (now, none))
      (request.afterWrite db (request.commit db store now none).2 (request.commit db store now none).1)
      (request.commit db store now none).2
  | inserted (ts sort : ℤ) (returned : Returned) (ok : (request.commit db store ts (some sort)).1 =
      .ok returned) (success : returned ≠ .flag false) :
      StatementMove db store now request (.placed ts sort) (some (ts, some sort)) .written
        (request.commit db store ts (some sort)).2
  | refused (ts sort : ℤ) (e : Raised) :
      StatementMove db store now request (.placed ts sort) (some (ts, some sort)) (.answered (.error e))
        (request.commit db store ts (some sort)).2
  | resolved : StatementMove db store now request .refused none
      (.answered ((request.resolve db store true).map fun _ => .noContent)) store
  | reread : StatementMove db store now request .written none
      (.answered (request.reread db store)) store
  | rests (reply : Except Raised Response) :
      StatementMove db store now request (.answered reply) none (.answered reply) store

theorem Request.position_isCreate {sort : ℤ} (position : request.position db store = some sort) :
    ∃ taskId body, request = .createTask taskId body := by
  cases request with
  | createTask taskId body => exact ⟨taskId, body, rfl⟩
  | _ => cases position

theorem Request.advance_move {stage : Stage}
    (creates : ∀ ts sort, stage = .placed ts sort → ∃ taskId body, request = .createTask taskId body) :
    StatementMove db store now request stage (request.commits db store now stage)
      (request.advance db store now stage).1 (request.advance db store now stage).2 := by
  cases stage with
  | received =>
      rw [Request.advance]
      cases check : request.check db store with
      | none => exact .passed
      | some reply => exact .checked reply check
  | ready =>
      rw [Request.advance, Request.commits]
      cases position : request.position db store with
      | none => exact .wrote
      | some sort => exact .placed sort position
  | placed ts sort =>
      obtain ⟨taskId, body, rfl⟩ := creates ts sort rfl
      rw [Request.advance, Request.commits, Request.insertPlaced]
      cases inserted : insertTask store
          { newTaskRow db store taskId ts body with sort := some sort } with
      | ok created =>
          have committed : Request.commit db store ts (.createTask taskId body) (some sort) =
              (.ok (.id created.1), created.2) := by
            rw [Request.commit, inserted]
          have move : StatementMove db store now (.createTask taskId body) _ _ _ _ :=
            .inserted ts sort _ (congrArg Prod.fst committed) Returned.noConfusion
          rw [committed] at move
          exact move
      | error e =>
          have committed : Request.commit db store ts (.createTask taskId body) (some sort) =
              (.error e, store) := by
            rw [Request.commit, inserted]
          have move : StatementMove db store now (.createTask taskId body) _ _ _ _ :=
            .refused ts sort e
          rw [committed] at move
          exact move
  | refused => exact .resolved
  | written => exact .reread
  | answered reply => exact .rests reply

end Statement

/-! ## Whole schedules -/

section Schedules
variable {ι : Type} {db : Database} {requests : ι → Request} {start : Store}
  {schedule : List (Timed ι)}

def Stage.Logged (db : Database) (requests : ι → Request) (start : Store)
    (schedule : List (Timed ι)) (log : List (LoggedWrite ι)) (id : ι) : Stage → Prop
  | .received | .ready => id ∉ log.map LoggedWrite.request
  | .placed ts _ => id ∉ log.map LoggedWrite.request ∧ ⟨ts, id⟩ ∈ schedule ∧
      ∃ taskId body, requests id = .createTask taskId body
  | .written => WriteSucceeds db requests start log id
  | .refused => ∃ store now found, ((requests id).operation.run db store now).1 = .ok (.flag found)
  | .answered (.ok reply) => (∃ existing, reply = .postedList 200 existing ∧
      id ∉ log.map LoggedWrite.request) ∨ WriteSucceeds db requests start log id
  | .answered (.error _) => True

/-- The invariant of a schedule. -/
structure WritesLogged (db : Database) (requests : ι → Request) (start : Store)
    (schedule : List (Timed ι)) (log : List (LoggedWrite ι)) (state : InFlight ι) : Prop where
  store : state.store = log.foldl (commitStep db requests) start
  once : (log.map LoggedWrite.request).Nodup
  clocks : ∀ commit ∈ log, ⟨commit.clock, commit.request⟩ ∈ schedule
  logged : ∀ id, (state.stage id).Logged db requests start schedule log id

theorem Request.check_ok {request : Request} {store : Store} {reply : Response}
    (answers : request.check db store = some (.ok reply)) :
    ∃ existing, reply = .postedList 200 existing := by
  cases request with
  | createTask taskId body =>
      rw [Request.check] at answers
      cases checked : Routers.Tasks.ensureListExists db store (body.listId.map IdStr.value) with
      | ok passed => rw [checked] at answers; cases answers
      | error e => rw [checked] at answers; cases answers
  | updateTask statusNow taskId body ifUnmodifiedSince =>
      rw [Request.check] at answers
      cases checked : Routers.Tasks.ensureTargetList db store body with
      | ok passed => rw [checked] at answers; cases answers
      | error e => rw [checked] at answers; cases answers
  | createList listId body =>
      obtain ⟨existing, -, found⟩ := Option.map_eq_some_iff.mp answers
      exact ⟨existing, (Except.ok.inj found).symm⟩
  | _ => cases answers

theorem WriteSucceeds.append {log : List (LoggedWrite ι)} {id : ι}
    (succeeds : WriteSucceeds db requests start log id)
    (later : List (LoggedWrite ι)) : WriteSucceeds db requests start (log ++ later) id := by
  obtain ⟨store, commit, rest, occurs, isRequest, returned, ok, success⟩ := succeeds
  exact ⟨store, commit, rest ++ later, occurs.append_right later, isRequest, returned, ok, success⟩

theorem succeeds_last {log : List (LoggedWrite ι)} {id : ι} {clock : ℤ} {position : Option ℤ}
    {returned : Returned} (ok : ((requests id).commit db (log.foldl (commitStep db requests) start)
      clock position).1 = .ok returned) (success : returned ≠ .flag false) :
    WriteSucceeds db requests start (log ++ [⟨id, clock, position⟩]) id :=
  ⟨_, _, _, happens_after log, rfl, returned, ok, success⟩

/-- What the log says about a request stands while other requests write. -/
theorem Stage.Logged.append {log : List (LoggedWrite ι)} {id : ι} {stage : Stage}
    (logged : stage.Logged db requests start schedule log id) (step : Timed ι)
    {later : List (LoggedWrite ι)} (others : id ∉ later.map LoggedWrite.request) :
    stage.Logged db requests start (schedule ++ [step]) (log ++ later) id := by
  have stillAbsent : id ∉ log.map LoggedWrite.request →
      id ∉ (log ++ later).map LoggedWrite.request := by
    intro absent present
    rw [List.map_append, List.mem_append] at present
    exact present.elim absent others
  cases stage with
  | received => exact stillAbsent logged
  | ready => exact stillAbsent logged
  | placed ts sort =>
      obtain ⟨absent, stamped, creates⟩ := logged
      exact ⟨stillAbsent absent, List.mem_append_left _ stamped, creates⟩
  | written => exact WriteSucceeds.append logged later
  | refused => exact logged
  | answered reply =>
      cases reply with
      | error e => trivial
      | ok reply =>
          rcases logged with ⟨existing, found, absent⟩ | succeeds
          · exact Or.inl ⟨existing, found, stillAbsent absent⟩
          · exact Or.inr (succeeds.append later)

theorem writesLogged_init : WritesLogged db requests start [] [] (.init start) where
  store := rfl
  once := List.nodup_nil
  clocks _ impossible := absurd impossible List.not_mem_nil
  logged _ := List.not_mem_nil

variable [DecidableEq ι] {log : List (LoggedWrite ι)} {store : Store} {stage : ι → Stage}
  {now : ℤ} {id : ι}

theorem logged_update (later : List (LoggedWrite ι)) {next : Stage}
    (inv : WritesLogged db requests start schedule log ⟨store, stage⟩)
    (others : ∀ other ≠ id, other ∉ later.map LoggedWrite.request)
    (own : next.Logged db requests start (schedule ++ [⟨now, id⟩]) (log ++ later) id) (other : ι) :
    (Function.update stage id next other).Logged db requests start (schedule ++ [⟨now, id⟩])
      (log ++ later) other := by
  by_cases isOwn : other = id
  · subst isOwn
    rw [Function.update_self]
    exact own
  · rw [Function.update_of_ne isOwn]
    exact (inv.logged other).append ⟨now, id⟩ (others other isOwn)

theorem WritesLogged.silent {next : Stage}
    (inv : WritesLogged db requests start schedule log ⟨store, stage⟩)
    (own : next.Logged db requests start (schedule ++ [⟨now, id⟩]) log id) :
    WritesLogged db requests start (schedule ++ [⟨now, id⟩]) log
      ⟨store, Function.update stage id next⟩ where
  store := inv.store
  once := inv.once
  clocks commit logged := List.mem_append_left _ (inv.clocks commit logged)
  logged := by
    intro other
    have updated := logged_update [] inv (fun _ _ => List.not_mem_nil)
      ((List.append_nil log).symm ▸ own) other
    rw [List.append_nil] at updated
    exact updated

theorem WritesLogged.writes {next : Stage} {commit : LoggedWrite ι}
    (inv : WritesLogged db requests start schedule log ⟨store, stage⟩) (isRequest : commit.request = id)
    (absent : id ∉ log.map LoggedWrite.request)
    (stamped : ⟨commit.clock, id⟩ ∈ schedule ++ [⟨now, id⟩])
    (own : next.Logged db requests start (schedule ++ [⟨now, id⟩]) (log ++ [commit]) id) :
    WritesLogged db requests start (schedule ++ [⟨now, id⟩]) (log ++ [commit])
      ⟨commitStep db requests store commit, Function.update stage id next⟩ where
  store := by rw [List.foldl_append, ← inv.store, List.foldl_cons, List.foldl_nil]
  once := by
    subst isRequest
    rw [List.map_append, List.map_singleton]
    exact inv.once.append (List.nodup_singleton _)
      (List.disjoint_singleton.mpr absent)
  clocks written logged := by
    rcases List.mem_append.mp logged with earlier | last
    · exact List.mem_append_left _ (inv.clocks written earlier)
    · rw [List.mem_singleton] at last
      rw [last, isRequest]
      exact stamped
  logged := by
    refine logged_update [commit] inv (fun other isOther present => isOther ?_) own
    rw [List.map_singleton, List.mem_singleton, isRequest] at present
    exact present

theorem writesLogged_move {current next : Stage} {commit : Option (ℤ × Option ℤ)} {after : Store}
    (inv : WritesLogged db requests start schedule log ⟨store, stage⟩)
    (own : current.Logged db requests start schedule log id)
    (move : StatementMove db store now (requests id) current commit next after) :
    WritesLogged db requests start (schedule ++ [⟨now, id⟩])
      (log ++ (commit.map fun c => (⟨id, c.1, c.2⟩ : LoggedWrite ι)).toList)
      ⟨after, Function.update stage id next⟩ := by
  have stores : store = log.foldl (commitStep db requests) start := inv.store
  have here : (⟨now, id⟩ : Timed ι) ∈ schedule ++ [⟨now, id⟩] :=
    List.mem_append_right schedule List.mem_cons_self
  -- a statement that does not write leaves the log
  have silent : ∀ next : Stage, next.Logged db requests start (schedule ++ [⟨now, id⟩]) log id →
      WritesLogged db requests start (schedule ++ [⟨now, id⟩])
        (log ++ (none : Option (LoggedWrite ι)).toList) ⟨store, Function.update stage id next⟩ := by
    intro next logged
    rw [Option.toList_none, List.append_nil]
    exact inv.silent logged
  cases move with
  | passed => exact silent _ own
  | checked reply answers =>
      refine silent _ ?_
      cases reply with
      | error e => trivial
      | ok reply =>
          obtain ⟨existing, found⟩ := Request.check_ok answers
          exact Or.inl ⟨existing, found, own⟩
  | placed sort position => exact silent _ ⟨own, here, Request.position_isCreate position⟩
  | wrote =>
      refine inv.writes rfl own here ?_
      change Stage.Logged db requests start _ _ id (Request.afterWrite db
        ((requests id).operation.run db store now).2 (requests id)
        ((requests id).operation.run db store now).1)
      rcases (requests id).afterWrite_cases with
        ⟨written, returned, ok, success⟩ | ⟨refused, found, missing⟩ | ⟨e, answered⟩
      · rw [written]
        rw [stores] at ok
        exact succeeds_last ok success
      · rw [refused]
        exact ⟨store, now, found, missing⟩
      · rw [answered]
        trivial
  | inserted ts sort returned ok success =>
      obtain ⟨absent, stamped, -⟩ := own
      refine inv.writes rfl absent (List.mem_append_left _ stamped) ?_
      rw [stores] at ok
      exact succeeds_last ok success
  | refused ts sort e =>
      obtain ⟨absent, stamped, -⟩ := own
      exact inv.writes rfl absent (List.mem_append_left _ stamped) trivial
  | resolved =>
      obtain ⟨before, clock, found, missing⟩ := own
      obtain ⟨e, resolved⟩ : ∃ e, (requests id).resolve db store true = .error e :=
        Request.resolve_error missing
      rw [resolved]
      exact silent _ trivial
  | reread =>
      refine silent _ ?_
      cases (requests id).reread db store with
      | error e => trivial
      | ok reply => exact Or.inr own
  | rests reply =>
      refine silent _ ?_
      cases reply with
      | error e => trivial
      | ok reply => exact own

theorem writesLogged_step {state : InFlight ι}
    (inv : WritesLogged db requests start schedule log state) (step : Timed ι) :
    WritesLogged db requests start (schedule ++ [step])
      (log ++ (commitOf db requests state step).toList) (statementStep db requests state step) := by
  have own := inv.logged step.event
  refine writesLogged_move inv own (Request.advance_move fun ts sort atPlaced => ?_)
  rw [atPlaced] at own
  exact own.2.2

theorem writesLogged (schedule : List (Timed ι)) :
    WritesLogged db requests start schedule (commitLog db requests start schedule)
      (schedule.foldl (statementStep db requests) (.init start)) := by
  induction schedule using List.reverseRecOn with
  | nil => exact writesLogged_init
  | append_singleton earlier step ih =>
      have oneMore := writesLogged_step ih step
      rw [commitLog, outputs_append, List.foldl_append, List.foldl_cons, List.foldl_nil, outputs,
        outputs, List.append_nil]
      exact oneMore

/-- The writes that a schedule adds are those of the requests that take a step in it. -/
theorem commitLog_append (front back : List (Timed ι)) :
    ∃ later, commitLog db requests start (front ++ back) = commitLog db requests start front ++ later ∧
      ∀ commit ∈ later, commit.request ∈ back.map Timed.event := by
  refine ⟨_, outputs_append front back _, fun commit logged => ?_⟩
  obtain ⟨state, step, rest, occurs, emitted⟩ := happens_of_mem_outputs back _ logged
  obtain ⟨written, -, rfl⟩ := Option.map_eq_some_iff.mp emitted
  exact List.mem_map_of_mem occurs.mem

end Schedules

/-- However the statements of requests interleave, the tables are those of a sequence of writes,
at most one for each request, with the clock reading of one of its own statements and the position
that it read before.  The sequence keeps the order of the schedule, and a request that is answered
with success wrote successfully, unless it asked for a list that was there. -/
theorem interleaved_writes_logged {ι : Type} [DecidableEq ι] (db : Database) (requests : ι → Request)
    (start : Store) (schedule : List (Timed ι)) :
    let log := commitLog db requests start schedule
    let final := schedule.foldl (statementStep db requests) (.init start)
    final.store = log.foldl (commitStep db requests) start ∧
      (log.map LoggedWrite.request).Nodup ∧
      (∀ commit ∈ log, ⟨commit.clock, commit.request⟩ ∈ schedule) ∧
      (∀ front back, schedule = front ++ back → ∃ later,
        log = commitLog db requests start front ++ later ∧
          ∀ commit ∈ later, commit.request ∈ back.map Timed.event) ∧
      ∀ id reply, final.stage id = .answered (.ok reply) →
        (∃ existing, reply = .postedList 200 existing ∧ id ∉ log.map LoggedWrite.request) ∨
          WriteSucceeds db requests start log id := by
  intro log final
  have inv : WritesLogged db requests start schedule log final := writesLogged schedule
  refine ⟨inv.store, inv.once, inv.clocks, ?_, fun id reply answered => ?_⟩
  · intro front back split
    subst split
    exact commitLog_append front back
  · have logged := inv.logged id
    rw [answered] at logged
    exact logged

end SupernoteTaskService
