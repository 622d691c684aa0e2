import Mathlib

/-!
# Errors and their responses

A handler either returns or raises.  What it raises decides the response: an
`ApiError` carries its own status and code, a database error is a 503, and
anything else is a 500 that says nothing about its cause.
-/

set_option autoImplicit false

namespace SupernoteTaskService

structure ApiError where
  statusCode : ℕ
  detail : String
  code : String
  deriving DecidableEq

def statusCodes : List (ℕ × String) :=
  [(400, "bad_request"), (401, "unauthorized"), (403, "forbidden"), (404, "not_found"),
    (409, "conflict"), (410, "gone"), (411, "length_required"), (413, "payload_too_large"),
    (422, "validation_error"), (429, "rate_limited"), (503, "db_unavailable")]

def codeForStatus (statusCode : ℕ) : String := (statusCodes.lookup statusCode).getD "error"

/-- `HTTPException(status_code, detail)`, whose code follows from the status. -/
def httpException (statusCode : ℕ) (detail : String) : ApiError :=
  ⟨statusCode, detail, codeForStatus statusCode⟩

inductive Raised where
  | valueError
  | validationError
  | databaseError
  | http (error : ApiError)
  deriving DecidableEq

def errorResponse : Raised → ApiError
  | .http error => error
  | .databaseError => ⟨503, "The task database is currently unavailable.", "db_unavailable"⟩
  | .valueError => ⟨500, "Internal server error.", "internal_error"⟩
  | .validationError => ⟨500, "Internal server error.", "internal_error"⟩

def Raised.status (raised : Raised) : ℕ := (errorResponse raised).statusCode

end SupernoteTaskService
