import SupernoteTaskService.Deps
import SupernoteTaskService.Repository.Tasks
import SupernoteTaskService.Repository.Lists

/-!
# Task endpoints

The statements of one request run one after another on the same tables.
-/

set_option autoImplicit false

namespace SupernoteTaskService.Routers.Tasks

open Foundation

section Endpoints
variable (db : Database) (store : Store)

def ensureListExists (listId : Option Text) : Except Raised Unit :=
  match listId with
  | none => .ok ()
  | some listId =>
      if listExists db store listId then .ok ()
      else .error (.http (httpException 404 "List not found."))

def resolveWrite (taskId : Text) (ok conditional : Bool) : Except Raised Unit :=
  resolveWriteWith "Task was modified since the supplied version." "Task not found."
    (taskExists db store taskId) ok conditional

def requireTask (taskId : Text) : Except Raised Task := do
  match ← SupernoteTaskService.getTask db store taskId with
  | some task => return task
  | none => .error (.http (httpException 404 "Task not found."))

/-- The freshness check and the read take a clock reading each. -/
def listTasks (settings : Settings) (checkedAt serverNow : ℤ) (query : TaskQuery) :
    Except Raised (Page Task) := do
  ensureCursorFresh query.since settings checkedAt
  SupernoteTaskService.listTasks db store serverNow query

def createTask (taskId : Text) (now : ℤ) (body : TaskCreate) : Reply Task Store :=
  match ensureListExists db store (body.listId.map IdStr.value) with
  | .error e => (.error e, store)
  | .ok () =>
      match SupernoteTaskService.createTask db store taskId now body with
      | .error e => (.error e, store)
      | .ok (taskId, after) => (requireTask db after taskId, after)

def getTask (taskId : Text) : Except Raised Task := requireTask db store taskId

/-- The check of `list_id`, which an omitted or null field passes. -/
def ensureTargetList (body : TaskUpdate) : Except Raised Unit :=
  match body.listId with
  | .given listId => ensureListExists db store (some listId.value)
  | .null => ensureListExists db store none
  | .omitted => .ok ()

/-- What every endpoint that returns the written task does after its write. -/
def replyWithTask (taskId : Text) (ifUnmodifiedSince : Option ℤ) (written : Bool × Store) :
    Reply Task Store :=
  (do
    resolveWrite db written.2 taskId written.1 ifUnmodifiedSince.isSome
    requireTask db written.2 taskId, written.2)

def updateTask (statusNow now : ℤ) (taskId : Text) (body : TaskUpdate)
    (ifUnmodifiedSince : Option ℤ) : Reply Task Store :=
  match ensureTargetList db store body with
  | .error e => (.error e, store)
  | .ok () =>
      replyWithTask db taskId ifUnmodifiedSince
        (SupernoteTaskService.updateTask db store statusNow now taskId body ifUnmodifiedSince)

def deleteTask (now : ℤ) (taskId : Text) (ifUnmodifiedSince : Option ℤ) : Reply Unit Store :=
  let written := SupernoteTaskService.deleteTask db store now taskId ifUnmodifiedSince
  (resolveWrite db written.2 taskId written.1 ifUnmodifiedSince.isSome, written.2)

def completeTask (statusNow now : ℤ) (taskId : Text) (ifUnmodifiedSince : Option ℤ) :
    Reply Task Store :=
  replyWithTask db taskId ifUnmodifiedSince
    (setStatus db store statusNow now taskId .completed ifUnmodifiedSince)

def uncompleteTask (statusNow now : ℤ) (taskId : Text) (ifUnmodifiedSince : Option ℤ) :
    Reply Task Store :=
  replyWithTask db taskId ifUnmodifiedSince
    (setStatus db store statusNow now taskId .needsAction ifUnmodifiedSince)

end Endpoints

end SupernoteTaskService.Routers.Tasks
