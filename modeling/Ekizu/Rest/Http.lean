import Mathlib.Tactic.Common

/-!
# Requests and responses

`http.hpp` and `error.hpp`, as far as the rate limiter, the client and the
connection look into a message.
-/

namespace Ekizu.Rest

abbrev Text := List UInt8

/-- The verbs that the client uses; the others by number. -/
inductive HttpMethod where
  | delete
  | get
  | patch
  | post
  | put
  | other (verb : Nat)
  deriving DecidableEq

/-- The error codes that a request completes with. -/
inductive Error where
  | rateLimiterStopped
  | rateLimiterSendDisabled
  | httpRateLimited
  | httpRedirection
  | httpClientError
  | httpServerError
  | httpError
  | httpNotAuthenticated
  | operationCanceled
  | other (code : Nat)
  deriving DecidableEq

/-- Header fields; names are compared without case, and stand here in the case
that the code asks for. -/
abbrev Fields := List (String × Text)

namespace Fields

/-- `find`: the first field of a name. -/
def find (fields : Fields) (name : String) : Option Text := fields.lookup name

/-- `set`: all fields of that name are replaced by one. -/
def set (fields : Fields) (name : String) (value : Text) : Fields :=
  fields.filter (fun field => field.1 != name) ++ [(name, value)]

end Fields

/-- `HttpRequest`. -/
structure HttpRequest where
  method : HttpMethod
  target : Text
  fields : Fields := []
  body : Text := []
  deriving DecidableEq

/-- `GET /a`. -/
def referenceRequest : HttpRequest := { method := .get, target := [47, 97] }

/-- `HttpResponse`; `status` is its `result()`, 0 for a code without a name. -/
structure HttpResponse where
  status : Nat
  fields : Fields := []
  body : Text := []
  deriving DecidableEq

/-- `Result<HttpResponse>`. -/
inductive HttpResult where
  | response (res : HttpResponse)
  | error (e : Error)
  deriving DecidableEq

/-- A request with its completion handler, by the number it was submitted under. -/
structure Pending where
  id : Nat
  req : HttpRequest
  deriving DecidableEq

end Ekizu.Rest
