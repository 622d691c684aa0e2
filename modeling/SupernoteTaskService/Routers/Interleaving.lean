import SupernoteTaskService.Routers.Requests

/-!
# Requests, statement by statement

Any number of mutating requests in flight.  A request takes one statement at a time:
its check, the position of a new task, its write, the query after a write that found no
row, and the read of the row it answers with; between any two of these the statements of
other requests run.  A request without interference does what its endpoint does.
-/

set_option autoImplicit false

namespace SupernoteTaskService

open Foundation

/-- How far a request has come. -/
inductive Stage where
  | received
  | ready
  | placed (ts sort : ℤ)
  | refused
  | written
  | answered (reply : Except Raised Response)
  deriving DecidableEq

section Statements
variable (db : Database) (store : Store)

/-- The check before the write: `none` lets the request through. -/
def Request.check : Request → Option (Except Raised Response)
  | .createTask _ body =>
      match Routers.Tasks.ensureListExists db store (body.listId.map IdStr.value) with
      | .ok () => none
      | .error e => some (.error e)
  | .updateTask _ _ body _ =>
      match Routers.Tasks.ensureTargetList db store body with
      | .ok () => none
      | .error e => some (.error e)
  | .createList _ body =>
      (getListByTitle db store body.title.text).map fun existing => .ok (.postedList 200 existing)
  | _ => none

/-- The position that is read before the row of a new task is inserted. -/
def Request.position : Request → Option ℤ
  | .createTask _ body =>
      match body.sort with
      | some _ => none
      | none => some (nextSort store (body.listId.map IdStr.value) db.userId)
  | _ => none

def Request.resolve (conditional : Bool) : Request → Except Raised Unit
  | .updateTask _ taskId _ _ => Routers.Tasks.resolveWrite db store taskId false conditional
  | .completeTask _ taskId _ => Routers.Tasks.resolveWrite db store taskId false conditional
  | .uncompleteTask _ taskId _ => Routers.Tasks.resolveWrite db store taskId false conditional
  | .deleteTask taskId _ => Routers.Tasks.resolveWrite db store taskId false conditional
  | .updateList listId _ _ => Routers.Lists.resolveWrite db store listId false conditional
  | .deleteList listId _ => Routers.Lists.resolveWrite db store listId false conditional
  | .createTask _ _ | .createList _ _ => .ok ()

/-- The answer of a request that has written; a delete reads nothing for it. -/
def Request.reread : Request → Except Raised Response
  | .createTask taskId _ => (Routers.Tasks.requireTask db store taskId).map .task
  | .updateTask _ taskId _ _ => (Routers.Tasks.requireTask db store taskId).map .task
  | .completeTask _ taskId _ => (Routers.Tasks.requireTask db store taskId).map .task
  | .uncompleteTask _ taskId _ => (Routers.Tasks.requireTask db store taskId).map .task
  | .createList listId _ => (Routers.Lists.requireList db store listId).map (.postedList 201)
  | .updateList listId _ _ => (Routers.Lists.requireList db store listId).map .list
  | .deleteTask _ _ | .deleteList _ _ => .ok .noContent

def Request.conditional (request : Request) : Bool := request.operation.expected.isSome

def Request.afterWrite (request : Request) : Except Raised Returned → Stage
  | .ok (.flag false) =>
      if request.conditional then .refused
      else .answered ((request.resolve db store false).map fun _ => .noContent)
  | .ok _ => .written
  | .error e => .answered (.error e)

def Request.insertPlaced (ts sort : ℤ) : Request → Stage × Store
  | .createTask taskId body =>
      match insertTask store { newTaskRow db store taskId ts body with sort := some sort } with
      | .ok (_, after) => (.written, after)
      | .error e => (.answered (.error e), store)
  | _ => (.placed ts sort, store)

/-- The next statement of a request, with the clock reading that it takes. -/
def Request.advance (now : ℤ) (request : Request) : Stage → Stage × Store
  | .received =>
      match request.check db store with
      | none => (.ready, store)
      | some reply => (.answered reply, store)
  | .ready =>
      match request.position db store with
      | some sort => (.placed now sort, store)
      | none =>
          let (outcome, after) := request.operation.run db store now
          (request.afterWrite db after outcome, after)
  | .placed ts sort => request.insertPlaced db store ts sort
  | .refused => (.answered ((request.resolve db store true).map fun _ => .noContent), store)
  | .written => (.answered (request.reread db store), store)
  | .answered reply => (.answered reply, store)

end Statements

/-- The tables, and how far each request has come. -/
structure InFlight (ι : Type) where
  store : Store
  stage : ι → Stage

section Step
variable {ι : Type} [DecidableEq ι] (db : Database) (requests : ι → Request)

def InFlight.init (store : Store) : InFlight ι := ⟨store, fun _ => .received⟩

def statementStep (state : InFlight ι) (step : Timed ι) : InFlight ι :=
  let (stage, store) :=
    (requests step.event).advance db state.store step.clock (state.stage step.event)
  ⟨store, Function.update state.stage step.event stage⟩

end Step

/-! ## A request on its own -/

section Alone
variable (db : Database) (store : Store) (now : ℤ)

def Request.alone (request : Request) : Stage × Store :=
  (List.replicate 4 now).foldl (fun at_ now => request.advance db at_.2 now at_.1)
    (.received, store)

/-- What a request answers to the outcome of its write, on the tables it left. -/
def Request.replyTo (request : Request) : Except Raised Returned → Except Raised Response
  | .ok (.flag false) => (request.resolve db store request.conditional).map fun _ => .noContent
  | .ok _ => request.reread db store
  | .error e => .error e

variable {db store now}

theorem Request.answers_after_write (request : Request) (outcome : Except Raised Returned) :
    [now, now].foldl (fun at_ now => request.advance db at_.2 now at_.1)
      (request.afterWrite db store outcome, store) =
        (.answered (request.replyTo db store outcome), store) := by
  cases outcome with
  | error raised => rfl
  | ok returned =>
      cases returned with
      | flag found =>
          cases found with
          | true => rfl
          | false =>
              simp only [Request.afterWrite, Request.replyTo]
              cases request.conditional with
              | true => rfl
              | false => rfl
      | _ => rfl

theorem Request.alone_of_write {request : Request} (passes : request.check db store = none)
    (direct : request.position db store = none) :
    request.alone db store now =
      (.answered (request.replyTo db (request.operation.run db store now).2
        (request.operation.run db store now).1), (request.operation.run db store now).2) := by
  have checked : request.advance db store now .received = (.ready, store) := by
    rw [Request.advance, passes]
  have wrote : request.advance db store now .ready =
      (request.afterWrite db (request.operation.run db store now).2
        (request.operation.run db store now).1, (request.operation.run db store now).2) := by
    rw [Request.advance, direct]
  rw [Request.alone, List.replicate, List.replicate, List.foldl_cons, List.foldl_cons, checked,
    wrote]
  exact request.answers_after_write _

theorem bind_resolve_map {α : Type} (conflict missing : String) (stillThere conditional : Bool)
    (ok : Bool) (reread : Except Raised α) (respond : α → Response) :
    (resolveWriteWith conflict missing stillThere ok conditional >>= fun _ => reread).map respond =
      bif ok then reread.map respond
      else (resolveWriteWith conflict missing stillThere false conditional).map
        fun _ => .noContent := by
  cases ok with
  | true => rfl
  | false =>
      cases conditional with
      | false => rfl
      | true =>
          cases stillThere with
          | false => rfl
          | true => rfl

theorem Request.replyTo_flag (request : Request) (ok : Bool) :
    request.replyTo db store (.ok (.flag ok)) =
      bif ok then request.reread db store
      else (request.resolve db store request.conditional).map fun _ => .noContent := by
  cases ok with
  | true => rfl
  | false => rfl

theorem Request.alone_of_check {request : Request} {reply : Except Raised Response}
    (answers : request.check db store = some reply) :
    request.alone db store now = (.answered reply, store) := by
  have answered : request.advance db store now .received = (.answered reply, store) := by
    rw [Request.advance, answers]
  rw [Request.alone, List.replicate, List.foldl_cons, answered]
  rfl

theorem Request.alone_of_placed {taskId : Text} {body : TaskCreate} {sort : ℤ}
    (passes : Request.check db store (.createTask taskId body) = none)
    (position : Request.position db store (.createTask taskId body) = some sort) :
    Request.alone db store now (.createTask taskId body) =
      (.answered (Request.replyTo db ((Operation.createTask taskId body).run db store now).2
        (.createTask taskId body) ((Operation.createTask taskId body).run db store now).1),
        ((Operation.createTask taskId body).run db store now).2) := by
  have checked : Request.advance db store now (.createTask taskId body) .received =
      (.ready, store) := by
    rw [Request.advance, passes]
  have read : Request.advance db store now (.createTask taskId body) .ready =
      (.placed now sort, store) := by
    rw [Request.advance, position]
  have isSort : (newTaskRow db store taskId now body).sort = some sort := by
    rw [Request.position] at position
    cases given : body.sort with
    | some sort => rw [given] at position; cases position
    | none =>
        rw [given] at position
        simp only [newTaskRow, given]
        exact position
  rw [Request.alone, List.replicate, List.replicate, List.foldl_cons, List.foldl_cons, checked,
    read]
  simp only [List.replicate, List.foldl_cons, List.foldl_nil, Request.advance,
    Request.insertPlaced, insertTask_placed isSort, Operation.run]
  cases SupernoteTaskService.createTask db store taskId now body with
  | error raised => rfl
  | ok created => rfl

theorem resolve_map (conflict missing : String) (stillThere conditional ok : Bool)
    (respond : Response) :
    (resolveWriteWith conflict missing stillThere ok conditional).map (fun _ => respond) =
      bif ok then .ok respond
      else (resolveWriteWith conflict missing stillThere false conditional).map
        fun _ => respond := by
  cases ok with
  | true => rfl
  | false => rfl

theorem Request.handle_of_check {request : Request} {reply : Except Raised Response}
    (answers : request.check db store = some reply) :
    request.handle db store now = (reply, store) := by
  cases request with
  | createTask taskId body =>
      rw [Request.check] at answers
      simp only [Request.handle, Routers.Tasks.createTask]
      cases checked : Routers.Tasks.ensureListExists db store (body.listId.map IdStr.value) with
      | ok passed =>
          rw [checked] at answers
          cases answers
      | error raised =>
          rw [checked] at answers
          cases answers
          rfl
  | updateTask statusNow taskId body ifUnmodifiedSince =>
      rw [Request.check] at answers
      simp only [Request.handle, Routers.Tasks.updateTask]
      cases checked : Routers.Tasks.ensureTargetList db store body with
      | ok passed =>
          rw [checked] at answers
          cases answers
      | error raised =>
          rw [checked] at answers
          cases answers
          rfl
  | createList listId body =>
      rw [Request.check] at answers
      simp only [Request.handle, Routers.Lists.createList]
      cases existing : getListByTitle db store body.title.text with
      | none =>
          rw [existing] at answers
          cases answers
      | some list =>
          rw [existing] at answers
          cases answers
          rfl
  | _ => cases answers

theorem Request.handle_of_passes {request : Request} (passes : request.check db store = none) :
    request.handle db store now =
      (request.replyTo db (request.operation.run db store now).2
        (request.operation.run db store now).1, (request.operation.run db store now).2) := by
  cases request with
  | createTask taskId body =>
      rw [Request.check] at passes
      simp only [Request.handle, Request.operation, Operation.run, Routers.Tasks.createTask]
      cases checked : Routers.Tasks.ensureListExists db store (body.listId.map IdStr.value) with
      | error raised =>
          rw [checked] at passes
          cases passes
      | ok passed =>
          rcases createTask_cases db store now taskId body with
            ⟨refused, -⟩ | ⟨after, created, -, -⟩
          · rw [refused]
            rfl
          · rw [created]
            rfl
  | updateTask statusNow taskId body ifUnmodifiedSince =>
      rw [Request.check] at passes
      simp only [Request.handle, Routers.Tasks.updateTask]
      cases checked : Routers.Tasks.ensureTargetList db store body with
      | error raised =>
          rw [checked] at passes
          cases passes
      | ok passed =>
          exact Prod.ext ((Request.replyTo_flag _ _).trans
            (bind_resolve_map _ _ _ _ _ _ Response.task).symm).symm rfl
  | completeTask statusNow taskId ifUnmodifiedSince =>
      exact Prod.ext ((Request.replyTo_flag _ _).trans
        (bind_resolve_map _ _ _ _ _ _ Response.task).symm).symm rfl
  | uncompleteTask statusNow taskId ifUnmodifiedSince =>
      exact Prod.ext ((Request.replyTo_flag _ _).trans
        (bind_resolve_map _ _ _ _ _ _ Response.task).symm).symm rfl
  | deleteTask taskId ifUnmodifiedSince =>
      exact Prod.ext ((Request.replyTo_flag _ _).trans (resolve_map _ _ _ _ _ _).symm).symm rfl
  | createList listId body =>
      rw [Request.check] at passes
      simp only [Request.handle, Request.operation, Operation.run, Routers.Lists.createList]
      cases existing : getListByTitle db store body.title.text with
      | some list =>
          rw [existing] at passes
          cases passes
      | none =>
          rcases createList_cases db store now listId body.title.text with
            ⟨refused, -⟩ | ⟨after, created, -, -⟩
          · rw [refused]
            rfl
          · rw [created]
            simp only [Request.replyTo, Request.reread, Reply.map]
            cases Routers.Lists.requireList db after listId with
            | error raised => rfl
            | ok created => rfl
  | updateList listId body ifUnmodifiedSince =>
      exact Prod.ext ((Request.replyTo_flag _ _).trans
        (bind_resolve_map _ _ _ _ _ _ Response.list).symm).symm rfl
  | deleteList listId ifUnmodifiedSince =>
      exact Prod.ext ((Request.replyTo_flag _ _).trans (resolve_map _ _ _ _ _ _).symm).symm rfl

/-- Without interference a request answers and writes as its endpoint does. -/
theorem Request.alone_eq_handle (request : Request) :
    request.alone db store now = (.answered (request.handle db store now).1,
      (request.handle db store now).2) := by
  cases check : request.check db store with
  | some reply => rw [Request.alone_of_check check, Request.handle_of_check check]
  | none =>
      rw [Request.handle_of_passes check]
      cases position : request.position db store with
      | none => exact Request.alone_of_write check position
      | some sort =>
          cases request with
          | createTask taskId body => exact Request.alone_of_placed check position
          | _ => cases position

end Alone

end SupernoteTaskService
