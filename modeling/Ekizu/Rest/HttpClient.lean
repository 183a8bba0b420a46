import Ekizu.Lib.Runs
import Ekizu.Rest.Http

/-!
# The client

`HttpClient::send_http` of `http_client.cpp`: a request goes to the one connection
of the client, which is made where there is none, and a second time where it fails.
Every handler runs on the strand of the client, one event for each; a connect and a
request complete at any later time.  `shutdown` also stops the rate limiter, on a
strand of its own.
-/

namespace Ekizu.Rest

open Lib.Runs

/-- The token of the constructor. -/
structure ClientSetting where
  token : Text

/-- `/`. -/
def slash : UInt8 := 47

/-- `/api/`. -/
def apiText : Text := [47, 97, 112, 105, 47]

/-- `/api/v10`. -/
def apiVersionText : Text := [47, 97, 112, 105, 47, 118, 49, 48]

/-- `discord.com`. -/
def hostText : Text := [100, 105, 115, 99, 111, 114, 100, 46, 99, 111, 109]

/-- `Bot ` before a token. -/
def authorizationText (token : Text) : Text := [66, 111, 116, 32] ++ token

/-- A leading slash and the version of the interface are put before a target that lacks
them. -/
def normalizeTarget (target : Text) : Text :=
  let rooted := if target.head? = some slash then target else slash :: target
  if apiText.isPrefixOf rooted then rooted else apiVersionText ++ rooted

/-- What `send_http_attempt` sends. -/
def normalizeRequest (token : Text) (req : HttpRequest) : HttpRequest :=
  { req with
    fields := (req.fields.set "authorization" (authorizationText token)).set "host" hostText
    target := normalizeTarget req.target }

/-- A request of `send_http_attempt` with the number of the attempt. -/
structure Attempt where
  pending : Pending
  attempt : Nat

/-- The fields of `HttpClient` and what is in flight: the calls of `send_http` that the
strand has not taken (`calls`), the attempts that wait for a connection
(`connecting`), and those that a connection has (`requesting`).  Connections are
numbered as they are stored.  `handed` records the requests given to a connection,
`results` the completions of the handlers, the last first. -/
structure HttpClient (W : ClientSetting) where
  token : Option Text := some W.token
  http : Option Nat := none
  submitted : Nat := 0
  calls : List Pending := []
  connecting : List Attempt := []
  requesting : List Attempt := []
  stored : Nat := 0
  handed : List (Nat × Pending) := []
  results : List (Nat × HttpResult) := []

namespace HttpClient

variable {W : ClientSetting}

def complete (s : HttpClient W) (id : Nat) (result : HttpResult) : HttpClient W :=
  { s with results := (id, result) :: s.results }

/-- `m_http->request`. -/
def request (s : HttpClient W) (connection : Nat) (a : Attempt) : HttpClient W :=
  { s with
    requesting := s.requesting ++ [a]
    handed := (connection, a.pending) :: s.handed }

def sendHttpAttempt (s : HttpClient W) (p : Pending) (attempt : Nat) : HttpClient W :=
  match s.token with
  | none => s.complete p.id (.error .httpNotAuthenticated)
  | some token =>
      let a : Attempt := ⟨⟨p.id, normalizeRequest token p.req⟩, attempt⟩
      match s.http with
      | none => { s with connecting := s.connecting ++ [a] }
      | some connection => s.request connection a

/-- `retry_or_finish`. -/
def retryOrFinish (s : HttpClient W) (a : Attempt) (res : HttpResult) : HttpClient W :=
  match res with
  | .response res => s.complete a.pending.id (.response res)
  | .error e =>
      if 1 ≤ a.attempt then s.complete a.pending.id (.error e)
      else { s with http := none }.sendHttpAttempt a.pending (a.attempt + 1)

/-- The handler of a connect; `none` is a connection. -/
def connected (s : HttpClient W) (a : Attempt) (error : Option Error) : HttpClient W :=
  match error with
  | some e => s.complete a.pending.id (.error e)
  | none => { s with http := some s.stored, stored := s.stored + 1 }.request s.stored a

/-- The handler of `shutdown`. -/
def shutdown (s : HttpClient W) : HttpClient W := { s with token := none, http := none }

/-- What runs: a call of `send_http`, its handler, that of a connect, of a request, and
of `shutdown`. -/
inductive Event where
  | sendHttp (req : HttpRequest)
  | sendHttpAttempt
  | connected (i : Nat) (error : Option Error)
  | requestCompleted (i : Nat) (res : HttpResult)
  | shutdown

/-- One handler; `none` where it is not due. -/
def step (s : HttpClient W) : Event → Option (HttpClient W)
  | .sendHttp req =>
      some { s with submitted := s.submitted + 1, calls := s.calls ++ [⟨s.submitted, req⟩] }
  | .sendHttpAttempt =>
      match s.calls with
      | [] => none
      | p :: calls => some ({ s with calls := calls }.sendHttpAttempt p 0)
  | .connected i error =>
      match s.connecting[i]? with
      | none => none
      | some a => some ({ s with connecting := s.connecting.eraseIdx i }.connected a error)
  | .requestCompleted i res =>
      match s.requesting[i]? with
      | none => none
      | some a => some ({ s with requesting := s.requesting.eraseIdx i }.retryOrFinish a res)
  | .shutdown => some s.shutdown

/-- A client from its construction on. -/
def machine (W : ClientSetting) : Machine (HttpClient W) Event where
  start := {}
  step := step

end HttpClient

end Ekizu.Rest
