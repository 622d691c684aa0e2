import SupernoteTaskService.Routers.WriteLog

/-!
# Requests in flight that do not disturb each other

A request is undisturbed when what it looked up would be answered the same at its write, and
what it reads after its write is what it would have read right after it.  The statements of
undisturbed requests interleave to the tables and the replies of their endpoints, handled one
after another.
-/

set_option autoImplicit false

namespace SupernoteTaskService

open Foundation

section Points
variable (db : Database)

def Request.settle (store : Store) (request : Request) : Stage → Option (Except Raised Response)
  | .written => some (request.reread db store)
  | .refused => some ((request.resolve db store true).map fun _ => .noContent)
  | .answered reply => some reply
  | _ => none

/-- A request takes effect with its check where that answers it, and with its write otherwise. -/
def Request.serialPoint (store : Store) (now : ℤ) (request : Request) : Stage → Option ℤ
  | .received => (request.check db store).map fun _ => now
  | stage => (request.commits db store now stage).map Prod.fst

variable {ι : Type} (requests : ι → Request)

def serialOf (state : InFlight ι) (step : Timed ι) : Option (Timed ι) :=
  ((requests step.event).serialPoint db state.store step.clock (state.stage step.event)).map
    fun clock => ⟨clock, step.event⟩

def handledStep (store : Store) (step : Timed ι) : Store :=
  ((requests step.event).handle db store step.clock).2

def handledReply (store : Store) (step : Timed ι) : Option (ι × Except Raised Response) :=
  some (step.event, ((requests step.event).handle db store step.clock).1)

variable [DecidableEq ι]

/-- The requests of a schedule in the order in which they take effect. -/
def serialOrder (start : Store) (schedule : List (Timed ι)) : List (Timed ι) :=
  outputs (statementStep db requests) (serialOf db requests) (.init start) schedule

/-- Where a request writes, its look-ups would be answered as they were; and what it reads after
that is what it would have read at once. -/
structure UndisturbedRequests (start : Store) (schedule : List (Timed ι)) : Prop where
  before : ∀ state step rest,
    Happens (statementStep db requests) (.init start) schedule state step rest →
    (commitOf db requests state step).isSome = true →
    (requests step.event).check db state.store = none ∧
      ∀ ts sort, state.stage step.event = .placed ts sort →
        (requests step.event).position db state.store = some sort
  after : ∀ state step rest,
    Happens (statementStep db requests) (.init start) schedule state step rest →
    (commitOf db requests state step).isSome = true →
    ∀ later next remaining, Happens (statementStep db requests)
        (statementStep db requests state step) rest later next remaining →
      next.event = step.event →
      (requests step.event).settle db later.store (later.stage step.event) =
        (requests step.event).settle db (statementStep db requests state step).store
          (later.stage step.event)

end Points

/-! ## One statement -/

section Statement
variable {db : Database} {store : Store} {now clock : ℤ} {request : Request} {stage : Stage}

theorem Request.settle_afterWrite (request : Request) (outcome : Except Raised Returned) :
    request.settle db store (request.afterWrite db store outcome) =
      some (request.replyTo db store outcome) := by
  cases outcome with
  | error raised => rfl
  | ok returned =>
      cases returned with
      | flag found =>
          cases found with
          | true => rfl
          | false =>
              simp only [Request.afterWrite, Request.replyTo]
              cases request.conditional with
              | true => rfl
              | false => rfl
      | _ => rfl

theorem Request.serialPoint_cases (point : request.serialPoint db store now stage = some clock) :
    (stage = .received ∧ clock = now) ∨ (stage = .ready ∧ clock = now) ∨
      ∃ sort, stage = .placed clock sort := by
  cases stage with
  | received =>
      obtain ⟨reply, -, isClock⟩ := Option.map_eq_some_iff.mp point
      exact Or.inl ⟨rfl, isClock.symm⟩
  | ready =>
      obtain ⟨commit, commits, isClock⟩ := Option.map_eq_some_iff.mp point
      rw [Request.commits] at commits
      split at commits
      · cases commits
        exact Or.inr (Or.inl ⟨rfl, isClock.symm⟩)
      · cases commits
  | placed ts sort =>
      have isClock : ts = clock := Option.some.inj point
      rw [isClock]
      exact Or.inr (Or.inr ⟨sort, rfl⟩)
  | refused => cases point
  | written => cases point
  | answered reply => cases point

theorem Request.advance_at_point (point : request.serialPoint db store now stage = some clock)
    (creates : ∀ ts sort, stage = .placed ts sort →
      ∃ taskId body, request = .createTask taskId body)
    (undisturbed : (request.commits db store now stage).isSome = true →
      request.check db store = none ∧
        ∀ ts sort, stage = .placed ts sort → request.position db store = some sort) :
    (request.advance db store now stage).2 = (request.handle db store clock).2 ∧
      request.settle db (request.advance db store now stage).2
        (request.advance db store now stage).1 = some (request.handle db store clock).1 ∧
      ((request.commits db store now stage).isSome = true ∨
        ∃ reply, (request.advance db store now stage).1 = .answered reply) := by
  cases stage with
  | received =>
      obtain ⟨reply, answers, rfl⟩ := Option.map_eq_some_iff.mp point
      rw [Request.advance, answers, Request.handle_of_check answers]
      exact ⟨rfl, rfl, Or.inr ⟨reply, rfl⟩⟩
  | ready =>
      obtain ⟨commit, commits, isClock⟩ := Option.map_eq_some_iff.mp point
      have writes : (request.commits db store now .ready).isSome = true := by
        rw [commits]
        rfl
      obtain ⟨passes, -⟩ := undisturbed writes
      rw [Request.commits] at commits
      split at commits
      · rename_i noPosition
        cases commits
        cases isClock
        rw [Request.advance, Option.isNone_iff_eq_none.mp noPosition,
          Request.handle_of_passes passes]
        exact ⟨rfl, request.settle_afterWrite _, Or.inl writes⟩
      · cases commits
  | placed ts sort =>
      have isClock : ts = clock := Option.some.inj point
      subst isClock
      obtain ⟨passes, position⟩ := undisturbed rfl
      obtain ⟨taskId, body, rfl⟩ := creates ts sort rfl
      have placed := position ts sort rfl
      have isSort : (newTaskRow db store taskId ts body).sort = some sort := by
        rw [Request.position] at placed
        cases given : body.sort with
        | some sort => rw [given] at placed; cases placed
        | none =>
            rw [given] at placed
            simp only [newTaskRow, given]
            exact placed
      rw [Request.handle_of_passes passes]
      simp only [Request.advance, Request.insertPlaced, insertTask_placed isSort,
        Request.operation, Operation.run]
      cases SupernoteTaskService.createTask db store taskId ts body with
      | error raised => exact ⟨rfl, rfl, Or.inl rfl⟩
      | ok created => exact ⟨rfl, rfl, Or.inl rfl⟩
  | refused => cases point
  | written => cases point
  | answered reply => cases point

/-- Before and after that, a request changes nothing; it goes on to its write, or gives the reply
of what it reads. -/
theorem Request.advance_off_point (noPoint : request.serialPoint db store now stage = none) :
    (request.advance db store now stage).2 = store ∧
      ((stage = .received ∧ (request.advance db store now stage).1 = .ready) ∨
      (∃ sort, stage = .ready ∧ request.position db store = some sort ∧
        (request.advance db store now stage).1 = .placed now sort) ∨
      ∃ reply, request.settle db store stage = some reply ∧
        (request.advance db store now stage).1 = .answered reply) := by
  cases stage with
  | received =>
      have passes : request.check db store = none := Option.map_eq_none_iff.mp noPoint
      rw [Request.advance, passes]
      exact ⟨rfl, Or.inl ⟨rfl, rfl⟩⟩
  | ready =>
      cases position : request.position db store with
      | none =>
          have decided : (request.commits db store now .ready).map Prod.fst = none := noPoint
          rw [Request.commits, position] at decided
          cases decided
      | some sort =>
          rw [Request.advance, position]
          exact ⟨rfl, Or.inr (Or.inl ⟨sort, rfl, rfl, rfl⟩)⟩
  | placed ts sort => cases noPoint
  | refused => exact ⟨rfl, Or.inr (Or.inr ⟨_, rfl, rfl⟩)⟩
  | written => exact ⟨rfl, Or.inr (Or.inr ⟨_, rfl, rfl⟩)⟩
  | answered reply => exact ⟨rfl, Or.inr (Or.inr ⟨reply, rfl, rfl⟩)⟩

end Statement

/-! ## Whole schedules -/

section Schedules
variable {ι : Type} [DecidableEq ι] {db : Database} {requests : ι → Request} {start : Store}
  {schedule : List (Timed ι)} {order : List (Timed ι)} {state : InFlight ι}

def SettlesTo (db : Database) (requests : ι → Request) (start : Store)
    (schedule order : List (Timed ι)) (id : ι) (stage : Stage) : Prop :=
  ∃ state step rest,
    Happens (statementStep db requests) (.init start) schedule state step rest ∧
    (commitOf db requests state step).isSome = true ∧ step.event = id ∧
    ∃ reply, (requests id).settle db (statementStep db requests state step).store stage =
        some reply ∧
      (id, reply) ∈ outputs (handledStep db requests) (handledReply db requests) start order

/-- What the stage of a request says about its place in the order. -/
def Stage.Serialized (db : Database) (requests : ι → Request) (start : Store)
    (schedule order : List (Timed ι)) (id : ι) : Stage → Prop
  | .received | .ready => id ∉ order.map Timed.event
  | .placed ts _ => id ∉ order.map Timed.event ∧ ⟨ts, id⟩ ∈ schedule ∧
      ∃ taskId body, requests id = .createTask taskId body
  | .answered reply =>
      (id, reply) ∈ outputs (handledStep db requests) (handledReply db requests) start order
  | stage => SettlesTo db requests start schedule order id stage

structure Serialized (db : Database) (requests : ι → Request) (start : Store)
    (schedule order : List (Timed ι)) (state : InFlight ι) : Prop where
  store : state.store = order.foldl (handledStep db requests) start
  once : (order.map Timed.event).Nodup
  clocks : ∀ handled ∈ order, handled ∈ schedule
  stages : ∀ id, (state.stage id).Serialized db requests start schedule order id

theorem serialized_init : Serialized db requests start [] [] (.init start) where
  store := rfl
  once := List.nodup_nil
  clocks _ impossible := absurd impossible List.not_mem_nil
  stages _ := List.not_mem_nil

theorem UndisturbedRequests.earlier {step : Timed ι}
    (undisturbed : UndisturbedRequests db requests start (schedule ++ [step])) :
    UndisturbedRequests db requests start schedule where
  before state step _ occurs := undisturbed.before state step _ (occurs.append_right _)
  after state step _ occurs writes later next _ occurs' :=
    undisturbed.after state step _ (occurs.append_right _) writes later next _
      (occurs'.append_right _)

omit [DecidableEq ι] in
theorem replied_append {id : ι} {reply : Except Raised Response} (later : List (Timed ι))
    (replied : (id, reply) ∈
      outputs (handledStep db requests) (handledReply db requests) start order) :
    (id, reply) ∈
      outputs (handledStep db requests) (handledReply db requests) start (order ++ later) := by
  rw [outputs_append]
  exact List.mem_append_left _ replied

theorem SettlesTo.append {id : ι} {stage : Stage}
    (settles : SettlesTo db requests start schedule order id stage) (step : Timed ι)
    (later : List (Timed ι)) :
    SettlesTo db requests start (schedule ++ [step]) (order ++ later) id stage := by
  obtain ⟨state, before, rest, occurs, writes, isOwn, reply, settled, replied⟩ := settles
  exact ⟨state, before, _, occurs.append_right _, writes, isOwn, reply, settled,
    replied_append later replied⟩

theorem Stage.Serialized.append {id : ι} {stage : Stage}
    (serialized : stage.Serialized db requests start schedule order id) (step : Timed ι)
    {later : List (Timed ι)} (others : id ∉ later.map Timed.event) :
    stage.Serialized db requests start (schedule ++ [step]) (order ++ later) id := by
  have stillAbsent : id ∉ order.map Timed.event → id ∉ (order ++ later).map Timed.event := by
    intro absent present
    rw [List.map_append, List.mem_append] at present
    exact present.elim absent others
  cases stage with
  | received => exact stillAbsent serialized
  | ready => exact stillAbsent serialized
  | placed ts sort =>
      obtain ⟨absent, stamped, creates⟩ := serialized
      exact ⟨stillAbsent absent, List.mem_append_left _ stamped, creates⟩
  | written => exact SettlesTo.append serialized step later
  | refused => exact SettlesTo.append serialized step later
  | answered reply => exact replied_append later serialized

theorem Stage.Serialized.replies {step : Timed ι} {reply : Except Raised Response}
    (serialized : (((schedule.foldl (statementStep db requests) (.init start)).stage
      step.event)).Serialized db requests start schedule order step.event)
    (undisturbed : UndisturbedRequests db requests start (schedule ++ [step]))
    (settles : (requests step.event).settle db
      (schedule.foldl (statementStep db requests) (.init start)).store
      ((schedule.foldl (statementStep db requests) (.init start)).stage step.event) = some reply) :
    (step.event, reply) ∈
      outputs (handledStep db requests) (handledReply db requests) start order := by
  have written : SettlesTo db requests start schedule order step.event
        ((schedule.foldl (statementStep db requests) (.init start)).stage step.event) →
      (step.event, reply) ∈
        outputs (handledStep db requests) (handledReply db requests) start order := by
    intro ⟨state, wrote, rest, occurs, writes, isOwn, reply', settled, replied⟩
    have reads := undisturbed.after state wrote _ (occurs.append_right [step]) writes _ step []
      (happens_after rest) isOwn.symm
    rw [← occurs.foldl_eq, isOwn, settles, settled, Option.some.injEq] at reads
    rw [reads]
    exact replied
  generalize atStage : (schedule.foldl (statementStep db requests) (.init start)).stage
    step.event = stage at serialized settles written
  cases stage with
  | received => cases settles
  | ready => cases settles
  | placed ts sort => cases settles
  | written => exact written serialized
  | refused => exact written serialized
  | answered given =>
      cases settles
      exact serialized

theorem serialized_update {step : Timed ι} {later : List (Timed ι)} {next : Stage}
    (inv : Serialized db requests start schedule order state)
    (onlyOwn : ∀ handled ∈ later, handled.event = step.event)
    (own : next.Serialized db requests start (schedule ++ [step]) (order ++ later) step.event)
    (id : ι) :
    (Function.update state.stage step.event next id).Serialized db requests start
      (schedule ++ [step]) (order ++ later) id := by
  by_cases isOwn : id = step.event
  · subst isOwn
    rw [Function.update_self]
    exact own
  · rw [Function.update_of_ne isOwn]
    refine (inv.stages id).append step fun present => isOwn ?_
    obtain ⟨handled, member, rfl⟩ := List.mem_map.mp present
    exact onlyOwn handled member

theorem Serialized.silent {step : Timed ι}
    (inv : Serialized db requests start schedule order state)
    (noPoint : (requests step.event).serialPoint db state.store step.clock
      (state.stage step.event) = none)
    (replies : ∀ reply, (requests step.event).settle db state.store (state.stage step.event) =
        some reply →
      (step.event, reply) ∈
        outputs (handledStep db requests) (handledReply db requests) start order) :
    Serialized db requests start (schedule ++ [step]) order (statementStep db requests state step) := by
  obtain ⟨sameStore, goesOn⟩ := Request.advance_off_point noPoint
  have own := inv.stages step.event
  have here : step ∈ schedule ++ [step] := List.mem_append_right schedule List.mem_cons_self
  have next : ((requests step.event).advance db state.store step.clock
      (state.stage step.event)).1.Serialized db requests start (schedule ++ [step]) order
        step.event := by
    rcases goesOn with ⟨atStage, next⟩ | ⟨sort, atStage, position, next⟩ | ⟨reply, settles, next⟩
    · rw [next]
      rw [atStage] at own
      exact own
    · rw [next]
      rw [atStage] at own
      exact ⟨own, here, Request.position_isCreate position⟩
    · rw [next]
      exact replies reply settles
  refine ⟨sameStore.trans inv.store, inv.once, fun handled member =>
    List.mem_append_left _ (inv.clocks handled member), fun id => ?_⟩
  rw [← List.append_nil order] at next ⊢
  exact serialized_update inv (fun _ impossible => absurd impossible List.not_mem_nil) next id

theorem Serialized.takesEffect {step : Timed ι} {clock : ℤ}
    (inv : Serialized db requests start schedule order state)
    (atEnd : Happens (statementStep db requests) (.init start) (schedule ++ [step]) state step [])
    (undisturbed : UndisturbedRequests db requests start (schedule ++ [step]))
    (point : (requests step.event).serialPoint db state.store step.clock
      (state.stage step.event) = some clock) :
    Serialized db requests start (schedule ++ [step]) (order ++ [⟨clock, step.event⟩])
      (statementStep db requests state step) := by
  have own := inv.stages step.event
  have here : step ∈ schedule ++ [step] := List.mem_append_right schedule List.mem_cons_self
  have notYet : step.event ∉ order.map Timed.event ∧
      (⟨clock, step.event⟩ : Timed ι) ∈ schedule ++ [step] ∧
      ∀ ts sort, state.stage step.event = .placed ts sort →
        ∃ taskId body, requests step.event = .createTask taskId body := by
    rcases Request.serialPoint_cases point with ⟨atStage, rfl⟩ | ⟨atStage, rfl⟩ | ⟨sort, atStage⟩
    · rw [atStage] at own ⊢
      exact ⟨own, here, nofun⟩
    · rw [atStage] at own ⊢
      exact ⟨own, here, nofun⟩
    · rw [atStage] at own ⊢
      exact ⟨own.1, List.mem_append_left _ own.2.1, fun _ _ _ => own.2.2⟩
  obtain ⟨absent, stamped, creates⟩ := notYet
  have commits : (commitOf db requests state step).isSome = ((requests step.event).commits db
      state.store step.clock (state.stage step.event)).isSome := Option.isSome_map
  obtain ⟨stores, settles, wroteOrAnswered⟩ := Request.advance_at_point point creates
    fun writes => undisturbed.before state step [] atEnd (commits.trans writes)
  have replied : (step.event, ((requests step.event).handle db state.store clock).1) ∈
      outputs (handledStep db requests) (handledReply db requests) start
        (order ++ [⟨clock, step.event⟩]) := by
    rw [outputs_append, ← inv.store]
    exact List.mem_append_right _ List.mem_cons_self
  have next : ((requests step.event).advance db state.store step.clock
      (state.stage step.event)).1.Serialized db requests start (schedule ++ [step])
        (order ++ [⟨clock, step.event⟩]) step.event := by
    have wrote : (∀ reply, ((requests step.event).advance db state.store step.clock
        (state.stage step.event)).1 ≠ .answered reply) →
        SettlesTo db requests start (schedule ++ [step]) (order ++ [⟨clock, step.event⟩])
          step.event ((requests step.event).advance db state.store step.clock
            (state.stage step.event)).1 := by
      intro notAnswered
      have writes := wroteOrAnswered.resolve_right fun ⟨reply, answered⟩ =>
        notAnswered reply answered
      exact ⟨state, step, [], atEnd, commits.trans writes, rfl, _, settles, replied⟩
    generalize (requests step.event).advance db state.store step.clock
      (state.stage step.event) = moved at settles wrote
    obtain ⟨stage, store⟩ := moved
    cases stage with
    | received => cases settles
    | ready => cases settles
    | placed ts sort => cases settles
    | written => exact wrote fun reply same => Stage.noConfusion same
    | refused => exact wrote fun reply same => Stage.noConfusion same
    | answered reply =>
        have same : reply = _ := Option.some.inj settles
        rw [same]
        exact replied
  refine ⟨?_, ?_, fun handled member => ?_, serialized_update inv (fun handled member => ?_) next⟩
  · rw [List.foldl_append, ← inv.store]
    exact stores
  · rw [List.map_append, List.map_singleton]
    exact inv.once.append (List.nodup_singleton _) (List.disjoint_singleton.mpr absent)
  · rcases List.mem_append.mp member with earlier | last
    · exact List.mem_append_left _ (inv.clocks handled earlier)
    · rw [List.mem_singleton.mp last]
      exact stamped
  · rw [List.mem_singleton.mp member]

theorem serialized (schedule : List (Timed ι))
    (undisturbed : UndisturbedRequests db requests start schedule) :
    Serialized db requests start schedule (serialOrder db requests start schedule)
      (schedule.foldl (statementStep db requests) (.init start)) := by
  induction schedule using List.reverseRecOn with
  | nil => exact serialized_init
  | append_singleton earlier step ih =>
      have inv := ih undisturbed.earlier
      rw [serialOrder, outputs_append, List.foldl_concat, outputs, outputs, List.append_nil]
      cases point : (requests step.event).serialPoint db
          (earlier.foldl (statementStep db requests) (.init start)).store step.clock
          ((earlier.foldl (statementStep db requests) (.init start)).stage step.event) with
      | none =>
          rw [serialOf, point, Option.map_none, Option.toList_none, List.append_nil]
          exact inv.silent point fun reply settles => (inv.stages step.event).replies undisturbed
            settles
      | some clock =>
          rw [serialOf, point, Option.map_some, Option.toList_some]
          exact inv.takesEffect (happens_after earlier) undisturbed point

theorem serialOrder_append (front back : List (Timed ι)) :
    ∃ later, serialOrder db requests start (front ++ back) =
        serialOrder db requests start front ++ later ∧
      ∀ handled ∈ later, handled.event ∈ back.map Timed.event := by
  refine ⟨_, outputs_append front back _, fun handled member => ?_⟩
  obtain ⟨state, step, rest, occurs, emitted⟩ := happens_of_mem_outputs back _ member
  obtain ⟨clock, -, rfl⟩ := Option.map_eq_some_iff.mp emitted
  exact List.mem_map.mpr ⟨step, occurs.mem, rfl⟩

end Schedules

/-- The statements of requests that do not disturb each other interleave to the tables of their
endpoints handled one after another, each at most once and at a clock reading of its own, in an
order that keeps a request that is answered before another begins before it; and every reply is
the one that the endpoint gives there. -/
theorem undisturbed_requests_serialized {ι : Type} [DecidableEq ι] (db : Database)
    (requests : ι → Request) (start : Store) (schedule : List (Timed ι))
    (undisturbed : UndisturbedRequests db requests start schedule) :
    let order := serialOrder db requests start schedule
    let final := schedule.foldl (statementStep db requests) (.init start)
    final.store = order.foldl (handledStep db requests) start ∧
      (order.map Timed.event).Nodup ∧ (∀ handled ∈ order, handled ∈ schedule) ∧
      (∀ front back, schedule = front ++ back → ∃ later,
        order = serialOrder db requests start front ++ later ∧
          ∀ handled ∈ later, handled.event ∈ back.map Timed.event) ∧
      ∀ id reply, final.stage id = .answered reply →
        (id, reply) ∈ outputs (handledStep db requests) (handledReply db requests) start order := by
  intro order final
  have inv : Serialized db requests start schedule order final := serialized schedule undisturbed
  refine ⟨inv.store, inv.once, inv.clocks, ?_, fun id reply answered => ?_⟩
  · intro front back split
    subst split
    exact serialOrder_append front back
  · have atEnd := inv.stages id
    rw [answered] at atEnd
    exact atEnd

def completeAndDelete : Bool → Request
  | false => .completeTask 2000 ['a'] none
  | true => .deleteTask ['b'] none

def taskByTask : List (Timed Bool) :=
  [⟨2000, false⟩, ⟨2001, true⟩, ⟨2002, false⟩, ⟨2003, true⟩, ⟨2004, false⟩, ⟨2005, true⟩]

theorem taskByTask_undisturbed :
    UndisturbedRequests singleUser completeAndDelete twoTasks taskByTask where
  before := by
    have never : ∀ (who : Bool) (store : Store),
        (completeAndDelete who).check singleUser store = none := by
      intro who store
      cases who with
      | false => rfl
      | true => rfl
    refine forall_happens_cons_iff.mpr ⟨fun _ => ⟨never _ _, nofun⟩, ?_⟩
    refine forall_happens_cons_iff.mpr ⟨fun _ => ⟨never _ _, nofun⟩, ?_⟩
    refine forall_happens_cons_iff.mpr ⟨fun _ => ⟨never _ _, nofun⟩, ?_⟩
    refine forall_happens_cons_iff.mpr ⟨fun _ => ⟨never _ _, nofun⟩, ?_⟩
    refine forall_happens_cons_iff.mpr ⟨fun _ => ⟨never _ _, nofun⟩, ?_⟩
    exact forall_happens_cons_iff.mpr ⟨fun _ => ⟨never _ _, nofun⟩, forall_happens_nil⟩
  after := by
    refine forall_happens_cons_iff.mpr ⟨nofun, forall_happens_cons_iff.mpr ⟨nofun, ?_⟩⟩
    refine forall_happens_cons_iff.mpr ⟨fun _ => ?_, forall_happens_cons_iff.mpr ⟨fun _ => ?_, ?_⟩⟩
    · refine forall_happens_cons_iff.mpr ⟨nofun, forall_happens_cons_iff.mpr ⟨fun _ => rfl, ?_⟩⟩
      exact forall_happens_cons_iff.mpr ⟨nofun, forall_happens_nil⟩
    · refine forall_happens_cons_iff.mpr ⟨nofun, forall_happens_cons_iff.mpr ⟨fun _ => rfl, ?_⟩⟩
      exact forall_happens_nil
    · refine forall_happens_cons_iff.mpr ⟨nofun, ?_⟩
      exact forall_happens_cons_iff.mpr ⟨nofun, forall_happens_nil⟩

/-- The completion and the deletion of another task take effect in the order of their writes. -/
theorem taskByTask_serialized :
    (taskByTask.foldl (statementStep singleUser completeAndDelete) (.init twoTasks)).store =
      ((completeAndDelete true).handle singleUser
        ((completeAndDelete false).handle singleUser twoTasks 2002).2 2003).2 :=
  (undisturbed_requests_serialized singleUser completeAndDelete twoTasks taskByTask
    taskByTask_undisturbed).1

end SupernoteTaskService
