import SupernoteTaskService.Deps
import SupernoteTaskService.Repository.Lists

/-!
# List endpoints
-/

set_option autoImplicit false

namespace SupernoteTaskService.Routers.Lists

open Foundation

def listNotFound : Raised := .http (httpException 404 "List not found.")

section Endpoints
variable (db : Database) (store : Store)

def resolveWrite (listId : Text) (ok conditional : Bool) : Except Raised Unit :=
  resolveWriteWith "List was modified since the supplied version." "List not found."
    (listExists db store listId) ok conditional

def requireList (listId : Text) : Except Raised TaskList :=
  match getList db store listId with
  | some list => .ok list
  | none => .error listNotFound

/-- A title asks for one list and passes the freshness check by. -/
def listLists (settings : Settings) (checkedAt serverNow : ℤ) (query : ListQuery)
    (title : Option Text) : Except Raised (Page TaskList) :=
  match title with
  | some title =>
      match getListByTitle db store title with
      | some list => .ok ⟨[list], list.lastModified, false⟩
      | none => .error listNotFound
  | none => do
      ensureCursorFresh query.since settings checkedAt
      SupernoteTaskService.listLists db store serverNow query

/-- The answer with its status, 200 for a list that was there already. -/
def createList (listId : Text) (now : ℤ) (body : TaskListCreate) : Reply (ℕ × TaskList) Store :=
  match getListByTitle db store body.title.text with
  | some existing => (.ok (200, existing), store)
  | none =>
      match SupernoteTaskService.createList db store listId now body.title.text with
      | .error e => (.error e, store)
      | .ok (listId, after) =>
          (do
            let created ← requireList db after listId
            return (201, created), after)

def updateList (now : ℤ) (listId : Text) (body : TaskListUpdate) (ifUnmodifiedSince : Option ℤ) :
    Reply TaskList Store :=
  let written :=
    SupernoteTaskService.updateList db store now listId body.title.text ifUnmodifiedSince
  (do
    resolveWrite db written.2 listId written.1 ifUnmodifiedSince.isSome
    requireList db written.2 listId, written.2)

def deleteList (now : ℤ) (listId : Text) (ifUnmodifiedSince : Option ℤ) : Reply Unit Store :=
  let written := SupernoteTaskService.deleteList db store now listId ifUnmodifiedSince
  (resolveWrite db written.2 listId written.1 ifUnmodifiedSince.isSome, written.2)

end Endpoints

end SupernoteTaskService.Routers.Lists
