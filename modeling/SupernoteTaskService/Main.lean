import SupernoteTaskService.Routers.Requests
import SupernoteTaskService.Security

/-!
# The application

A request from its headers to its reply: the middleware that limits bodies and sets headers,
the routes, the gate before the endpoints of the API, and the handlers of what they raise.
An unexpected exception is answered outside the middleware.  What the router finds for a
request, and whether its parameters and its body are valid, is part of the request here.
-/

set_option autoImplicit false

namespace SupernoteTaskService

open Foundation

structure AppSettings extends AccessSettings where
  maxRequestBodyBytes : ℤ := 65536
  deriving DecidableEq

/-! ## Endpoints -/

/-- An endpoint with its parameters; a read with a freshness check has its clock reading too. -/
inductive Call where
  | listTasks (checkedAt : ℤ) (query : TaskQuery)
  | getTask (taskId : Text)
  | listLists (checkedAt : ℤ) (query : ListQuery) (title : Option Text)
  | mutate (request : Request)
  deriving DecidableEq

inductive Content where
  | error (detail code : String)
  | validationErrors (errors : List Text)
  | status (value : String)
  | version
  | tasks (page : Page Task)
  | lists (page : Page TaskList)
  | task (task : Task)
  | list (list : TaskList)
  | empty
  deriving DecidableEq

structure HttpReply where
  statusCode : ℕ
  content : Content
  headers : List (String × Text) := []
  deriving DecidableEq

def Request.reply (request : Request) : Response → HttpReply
  | .task task =>
      match request with
      | .createTask _ _ => ⟨201, .task task, []⟩
      | _ => ⟨200, .task task, []⟩
  | .list list => ⟨200, .list list, []⟩
  | .postedList statusCode list => ⟨statusCode, .list list, []⟩
  | .noContent => ⟨204, .empty, []⟩

section Calls
variable (settings : Settings) (db : Database) (store : Store) (now : ℤ)

def Call.run : Call → Except Raised HttpReply × Store
  | .listTasks checkedAt query =>
      ((Routers.Tasks.listTasks db store settings checkedAt now query).map fun page =>
        ⟨200, .tasks page, []⟩, store)
  | .getTask taskId =>
      ((Routers.Tasks.getTask db store taskId).map fun task => ⟨200, .task task, []⟩, store)
  | .listLists checkedAt query title =>
      ((Routers.Lists.listLists db store settings checkedAt now query title).map fun page =>
        ⟨200, .lists page, []⟩, store)
  | .mutate request =>
      let (answer, after) := request.handle db store now
      (answer.map request.reply, after)

end Calls

/-! ## Errors -/

def errorReply (error : ApiError) (headers : List (String × Text)) : HttpReply :=
  ⟨error.statusCode, .error error.detail error.code, headers⟩

/-- No handler of its own: the exception leaves the application and its middleware. -/
def Raised.unexpected : Raised → Bool
  | .valueError => true
  | .validationError => true
  | .databaseError => false
  | .http _ => false

/-- What the handlers inside the middleware make of an exception. -/
def handleRaised (raised : Raised) : Except Raised HttpReply :=
  if raised.unexpected then .error raised else .ok (errorReply (errorResponse raised) [])

/-- The errors repeat the input, and JSON cannot say every input: not a NaN, nor a lone surrogate. -/
structure ValidationErrors where
  errors : List Text
  encodable : Bool
  deriving DecidableEq

def validationReply (invalid : ValidationErrors) : Except Raised HttpReply :=
  if invalid.encodable then .ok ⟨422, .validationErrors invalid.errors, []⟩ else .error .valueError

/-! ## Requests -/

/-- What the router and the validation make of a request. -/
inductive Target where
  | unrouted (error : ApiError)
  | undecodable (invalid : ValidationErrors)
  | healthz
  | version
  | readyz (reachable : Bool)
  | endpoint (call : Except ValidationErrors Call)

def Target.isEndpoint : Target → Bool
  | .endpoint _ => true
  | _ => false

structure HttpRequest (K : Type) where
  method : Text
  contentLength : Option Text
  transferEncoding : Option Text
  authorization : Option Text
  xApiKey : Option Text
  client : ClientRequest
  monotonic : K
  target : Target

/-- `app.state` -/
structure Service (K : Type) where
  store : Store
  unauthRateLimiter : RateLimiter Text K

section App
variable {K : Type} [CommRing K] [LinearOrder K] [FloorRing K] (sha256 : List ℕ → Text)
  (settings : AppSettings) (db : Database)

def answerCall (store : Store) (now : ℤ) (call : Except ValidationErrors Call) :
    Except Raised HttpReply × Store :=
  match call with
  | .error invalid => (validationReply invalid, store)
  | .ok call =>
      match call.run settings.toSettings db store now with
      | (.ok reply, after) => (.ok reply, after)
      | (.error raised, after) => (handleRaised raised, after)

def callEndpoint (service : Service K) (now : ℤ) (request : HttpRequest K)
    (call : Except ValidationErrors Call) : Except Raised HttpReply × Service K :=
  match enforceRateLimit sha256 settings.toAccessSettings request.client request.authorization
      request.xApiKey request.monotonic service.unauthRateLimiter with
  | (.error refusal, limiter) =>
      (.ok (errorReply refusal.error [refusal.header]),
        { service with unauthRateLimiter := limiter })
  | (.ok _, limiter) =>
      let (answer, store) := answerCall settings db service.store now call
      (answer, ⟨store, limiter⟩)

def callNext (service : Service K) (now : ℤ) (request : HttpRequest K) :
    Except Raised HttpReply × Service K :=
  match request.target with
  | .unrouted error => (.ok (errorReply error []), service)
  | .undecodable invalid => (validationReply invalid, service)
  | .healthz => (.ok ⟨200, .status "ok", []⟩, service)
  | .version => (.ok ⟨200, .version, []⟩, service)
  | .readyz true => (.ok ⟨200, .status "ready", []⟩, service)
  | .readyz false => (.ok ⟨503, .status "unavailable", []⟩, service)
  | .endpoint call => callEndpoint sha256 settings db service now request call

/-! ## The middleware -/

def securityHeaders : List (String × Text) :=
  [("X-Content-Type-Options", "nosniff".toList), ("X-Frame-Options", "DENY".toList),
    ("Referrer-Policy", "no-referrer".toList), ("Cache-Control", "no-store".toList)]

/-- Header names are compared in lower case. -/
def sameName (left right : String) : Bool := decide (lower left.toList = lower right.toList)

/-- `headers.setdefault(key, value)` -/
def setDefault (headers : List (String × Text)) (header : String × Text) : List (String × Text) :=
  if headers.any fun other => sameName other.1 header.1 then headers else headers ++ [header]

def hasBodyMethod (method : Text) : Bool :=
  ["POST".toList, "PUT".toList, "PATCH".toList].any fun withBody => decide (method = withBody)

def badContentLength : ApiError := ⟨400, "Invalid Content-Length header.", "bad_request"⟩

def payloadTooLarge : ApiError := ⟨413, "Request body too large.", "payload_too_large"⟩

def lengthRequired : ApiError := ⟨411, "Content-Length is required.", "length_required"⟩

/-- The reply of a request that does not reach the application. -/
def limitBody (request : HttpRequest K) : Option ApiError :=
  match request.contentLength with
  | some contentLength =>
      match pythonInt contentLength with
      | some length => if length > settings.maxRequestBodyBytes then some payloadTooLarge else none
      | none => some badContentLength
  | none =>
      if hasBodyMethod request.method && (request.transferEncoding.getD []).isEmpty.not then
        some lengthRequired
      else none

/-- The headers of a reply that comes back to the middleware; what is raised past it is answered
outside. -/
def finish : Except Raised HttpReply → HttpReply
  | .ok reply => { reply with headers := securityHeaders.foldl setDefault reply.headers }
  | .error raised => errorReply (errorResponse raised) []

/-- `_limit_body_and_set_headers`, inside the handler of unexpected exceptions. -/
def serve (service : Service K) (now : ℤ) (request : HttpRequest K) : HttpReply × Service K :=
  match limitBody settings request with
  | some error => (errorReply error [], service)
  | none =>
      let (answer, after) := callNext sha256 settings db service now request
      (finish answer, after)

def serviceStep (service : Service K) (step : Timed (HttpRequest K)) : Service K :=
  (serve sha256 settings db service step.clock step.event).2

def serviceReply (service : Service K) (step : Timed (HttpRequest K)) : Option HttpReply :=
  some (serve sha256 settings db service step.clock step.event).1

end App

end SupernoteTaskService
