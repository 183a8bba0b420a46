import Ekizu.Lib.Decimal
import Ekizu.Lib.Runs
import Ekizu.Rest.Http

/-!
# The rate limiter

`rate_limiter.cpp`: the fields of a `RateLimiter` and the handlers that run on
its strand, one event for each.  The send function completes what it was handed
at any later time; the clock is read where an event says so, and a wait that ends
without an error has reached its time.

`finish_one` dispatches to the strand what lets the next request go.  That may
run at once or after other handlers, so it is an event of its own.  The handlers of
requests are posted to their own executor, so a submission comes from off the
strand and waits for its turn.
-/

namespace Ekizu.Rest

open Lib.Decimal Lib.Runs

/-- `map_http_status_to_errc`. -/
def mapHttpStatusToErrc (status : Nat) : Error :=
  if status = 429 then .httpRateLimited
  else if 300 ≤ status ∧ status < 400 then .httpRedirection
  else if 400 ≤ status ∧ status < 500 then .httpClientError
  else if 500 ≤ status ∧ status < 600 then .httpServerError
  else .httpError

structure RateLimit where
  limit : UInt16
  remaining : UInt16
  resetTime : Int
  deriving DecidableEq

/-- Whether the limiter was given a send function, and the instant that a number
of seconds becomes where it does not fit the clock. -/
structure LimiterSetting where
  sendFn : Bool
  undefined : Int → Int

/-- `system_clock::from_time_t`, in nanoseconds of 64 bits. -/
def fromTimeT (undefined : Int → Int) (seconds : Int) : Int :=
  if -9223372036 ≤ seconds ∧ seconds ≤ 9223372036 then seconds * 10 ^ 9 else undefined seconds

/-- The three headers of a response. -/
def limitHeaders (res : HttpResponse) : Option (Text × Text × Text) :=
  match res.fields.find "X-RateLimit-Limit", res.fields.find "X-RateLimit-Remaining",
    res.fields.find "X-RateLimit-Reset" with
  | some limit, some remaining, some reset => some (limit, remaining, reset)
  | _, _, _ => none

/-- What a response says about its route where it has the three headers; `none` is
an exception of a conversion. -/
def rateLimitOf (undefined : Int → Int) (headers : Text × Text × Text) : Option RateLimit :=
  match stoull headers.1, stoull headers.2.1, stol headers.2.2 with
  | some limit, some remaining, some reset =>
      some ⟨limit.toUInt16, remaining.toUInt16, fromTimeT undefined reset⟩
  | _, _, _ => none

/-- What the handler of a request is completed with. -/
def resultOf : HttpResult → HttpResult
  | .response res =>
      if 200 ≤ res.status ∧ res.status < 300 then .response res
      else .error (mapHttpStatusToErrc res.status)
  | .error e => .error e

/-- The fields of `RateLimiter`, and what is in flight: the submissions that the
strand has not taken (`calls`), the requests that the send function has
(`sending`), the waits whose handlers have not run, each with its time (`waits`),
and the ends of `finish_one` (`releases`).  `handed`, `results` and `lost` record
the requests given to the send function with the time, the last first, the
completions of the handlers, and the requests whose handler went with an
exception. -/
structure RateLimiter (W : LimiterSetting) where
  sendFn : Bool := W.sendFn
  stopping : Bool := false
  rateLimits : HttpMethod → Text → Option RateLimit := fun _ _ => none
  busy : Bool := false
  queue : List Pending := []
  waiting : Option Pending := none
  submitted : Nat := 0
  calls : List Pending := []
  sending : List Pending := []
  waits : List Int := []
  releases : Nat := 0
  handed : List (Int × Pending) := []
  results : List (Nat × HttpResult) := []
  lost : List Nat := []

namespace RateLimiter

variable {W : LimiterSetting}

/-- `finish_one`. -/
def finishOne (s : RateLimiter W) (p : Pending) (result : HttpResult) : RateLimiter W :=
  { s with results := (p.id, result) :: s.results, releases := s.releases + 1 }

def doSend (s : RateLimiter W) (now : Int) (p : Pending) : RateLimiter W :=
  if s.stopping then s.finishOne p (.error .rateLimiterStopped)
  else if s.sendFn = false then s.finishOne p (.error .rateLimiterSendDisabled)
  else { s with sending := p :: s.sending, handed := (now, p) :: s.handed }

def maybeWaitThenSend (s : RateLimiter W) (now : Int) (p : Pending) : RateLimiter W :=
  if s.stopping then s.finishOne p (.error .rateLimiterStopped)
  else
    match s.rateLimits p.req.method p.req.target with
    | some rl =>
        if rl.remaining = 0 ∧ now < rl.resetTime then
          { s with waiting := some p, waits := s.waits ++ [rl.resetTime] }
        else s.doSend now p
    | none => s.doSend now p

def startNext (s : RateLimiter W) (now : Int) : RateLimiter W :=
  if s.stopping then { s with busy := false }
  else if s.busy then s
  else
    match s.queue with
    | [] => s
    | p :: queue => { s with busy := true, queue := queue }.maybeWaitThenSend now p

/-- The end of `finish_one`. -/
def release (s : RateLimiter W) (now : Int) : RateLimiter W :=
  { s with releases := s.releases - 1, busy := false }.startNext now

/-- `send`: the submission is dispatched to the strand. -/
def send (s : RateLimiter W) (req : HttpRequest) : RateLimiter W :=
  { s with submitted := s.submitted + 1, calls := s.calls ++ [⟨s.submitted, req⟩] }

/-- The handler of `async_send_impl`. -/
def asyncSendImpl (s : RateLimiter W) (now : Int) (p : Pending) : RateLimiter W :=
  if s.stopping then
    { s with results := (p.id, .error .rateLimiterStopped) :: s.results }
  else { s with queue := s.queue ++ [p] }.startNext now

/-- The handler of the send function. -/
def sendCompleted (s : RateLimiter W) (p : Pending) (result : HttpResult) : RateLimiter W :=
  match result with
  | .error e => s.finishOne p (.error e)
  | .response res =>
      match limitHeaders res with
      | none => s.finishOne p (resultOf (.response res))
      | some headers =>
          match rateLimitOf W.undefined headers with
          | none => { s with lost := p.id :: s.lost }
          | some rl =>
              { s with
                rateLimits := fun method target =>
                  if method = p.req.method ∧ target = p.req.target then some rl
                  else s.rateLimits method target }.finishOne p (resultOf (.response res))

/-- The handler of the wait. -/
def waitCompleted (s : RateLimiter W) (now : Int) (ec : Option Error) : RateLimiter W :=
  match s.waiting with
  | none => { s with busy := false }.startNext now
  | some p =>
      let s := { s with waiting := none }
      if s.stopping then s.finishOne p (.error .rateLimiterStopped)
      else
        match ec with
        | some e => s.finishOne p (.error e)
        | none => s.doSend now p

/-- Requests are failed one after the other. -/
def failAll (s : RateLimiter W) : List Pending → RateLimiter W
  | [] => s
  | p :: queue => (s.finishOne p (.error .rateLimiterStopped)).failAll queue

/-- The handler of `shutdown`: the request that waits fails, and then the queue. -/
def shutdown (s : RateLimiter W) : RateLimiter W :=
  if s.stopping then s
  else
    { s with
      stopping := true
      sendFn := false
      waiting := none
      queue := []
      busy := false }.failAll (s.waiting.toList ++ s.queue)

/-- What runs: a submission, its handler on the strand, the completion of a
request by the send function, the end of a wait, of `finish_one`, and `shutdown`. -/
inductive Event where
  | send (req : HttpRequest)
  | asyncSendImpl (now : Int)
  | sendCompleted (i : Nat) (result : HttpResult)
  | waitCompleted (now : Int) (ec : Option Error)
  | release (now : Int)
  | shutdown

/-- One handler; `none` where it is not due. -/
def step (s : RateLimiter W) : Event → Option (RateLimiter W)
  | .send req => some (s.send req)
  | .asyncSendImpl now =>
      match s.calls with
      | [] => none
      | p :: calls => some ({ s with calls := calls }.asyncSendImpl now p)
  | .sendCompleted i result =>
      match s.sending[i]? with
      | none => none
      | some p => some ({ s with sending := s.sending.eraseIdx i }.sendCompleted p result)
  | .waitCompleted now ec =>
      match s.waits with
      | [] => none
      | time :: waits =>
          if ec = none ∧ now < time then none
          else some ({ s with waits := waits }.waitCompleted now ec)
  | .release now => if s.releases = 0 then none else some (s.release now)
  | .shutdown => some s.shutdown

/-- A limiter from its construction on. -/
def machine (W : LimiterSetting) : Machine (RateLimiter W) Event where
  start := {}
  step := step

end RateLimiter

end Ekizu.Rest
