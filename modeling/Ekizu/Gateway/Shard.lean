import Ekizu.Gateway.Decoders
import Ekizu.Gateway.Inflater
import Ekizu.Lib.Runs

/-!
# The shard

`shard.cpp`: the fields of a `Shard`, the requests for events that are in
progress, and the handlers that run on its strand, one event for each.  The
JSON parser and zlib are parameters; whether a websocket is open when it is
looked at comes with the event.

`sent` and `closed` record what is handed to the websockets, the last first.
-/

namespace Ekizu.Gateway

open Lib Lib.Runs

/-- The error codes of the library and of the streams under it. -/
inductive Error where
  | invalidArgument
  | notConnected
  | operationCanceled
  | operationNotPermitted
  | notSupported
  | operationAborted
  | eof
  | connectionReset
  | closed
  | streamTruncated
  | other (code : Nat)
  deriving DecidableEq

/-- `is_transient_read_error`. -/
def Error.isTransientReadError : Error → Bool
  | operationAborted | eof | connectionReset | closed | streamTruncated => true
  | _ => false

/-- A `Result<Event>`: an event of some type, the empty error code, or an error. -/
inductive EventResult where
  | event (type : String)
  | empty
  | error (e : Error)
  deriving DecidableEq

structure CloseFrame where
  code : UInt16
  reason : String
  deriving DecidableEq

namespace CloseFrame

def normal : CloseFrame := ⟨1000, "closing connection"⟩
def resume : CloseFrame := ⟨4000, "resuming connection"⟩
def sessionExpired : CloseFrame := ⟨4009, "session expired"⟩

/-- `close_code::normal` and `close_code::going_away`. -/
def isIntentional (frame : CloseFrame) : Bool := frame.code = 1000 || frame.code = 1001

end CloseFrame

/-- The opcodes of `GatewayOpcode` that a gateway sends. -/
inductive GatewayOpcode where
  | dispatch
  | heartbeat
  | reconnect
  | invalidSession
  | hello
  | heartbeatAck
  | other
  deriving DecidableEq

/-- The opcode of a number. -/
def GatewayOpcode.fromNumber : Nat → GatewayOpcode
  | 0 => dispatch
  | 1 => heartbeat
  | 7 => reconnect
  | 9 => invalidSession
  | 10 => hello
  | 11 => heartbeatAck
  | _ => other

/-- The configuration of a shard, the JSON parser (`none` where it discards the
text), zlib, and what a conversion gives that the language leaves undefined. -/
structure Setting where
  id : UInt64
  shardCount : UInt64
  token : String
  intents : UInt32
  compression : Bool
  isBot : Bool
  parse : List UInt8 → Option Json
  zlib : Streaming.Decoder
  undefined : Rat → UInt64

structure Session where
  id : String
  sequence : UInt64
  deriving DecidableEq

/-- The payloads that a shard sends of itself. -/
inductive Command where
  | heartbeat (d : Option UInt64)
  | identify (token : String) (id shardCount : UInt64) (intents : Option UInt32)
  | resume (token sessionId : String) (seq : UInt64)
  deriving DecidableEq

/-- Where a request for an event stands: waiting for the back-off, connecting,
reading, waiting for a send or a close, or over.  `none` is a delay whose
computation is undefined. -/
inductive Phase where
  | started
  | backingOff (delay : Option Nat)
  | connecting (url : String)
  | reading
  | sending
  | closing
  | over
  deriving DecidableEq

/-- A request for an event, with what its handler was completed with. -/
structure Op where
  phase : Phase
  results : List EventResult := []
  deriving DecidableEq

/-- The fields of `Shard`, and what is in flight.  `ws` is the number of the
websocket in `m_ws`, `timer` whether `m_timer` holds a timer, `waiting` whether a
wait is pending on it, `expired` the waits that have expired and whose handlers
have not run, `escaped` the exceptions that left a handler. -/
structure Shard (W : Setting) where
  lastHeartbeatAcked : Bool := true
  heartbeatInterval : UInt32 := 0
  inflater : Option (Inflater W.zlib) := none
  session : Option Session := none
  resumeGatewayUrl : Option String := none
  ws : Option Nat := none
  reconnectAttempts : UInt64 := 0
  heartbeatRunning : Bool := false
  intentionalClose : Bool := false
  missedHeartbeats : Nat := 0
  timer : Bool := false
  waiting : Bool := false
  expired : Nat := 0
  heartbeatSends : Nat := 0
  ops : List Op := []
  sent : List (Nat × Command) := []
  closed : List (Nat × CloseFrame) := []
  escaped : Nat := 0

/-- `kMaxMissedHeartbeats`. -/
def maxMissedHeartbeats : Nat := 3

/-- `GATEWAY_URL`. -/
def gatewayUrl : String := "wss://gateway.discord.gg/?v=10&encoding=json&compress=zlib-stream"

/-- `GATEWAY_JSON_ZLIB_QUERY`. -/
def gatewayJsonZlibQuery : String := "?v=10&encoding=json&compress=zlib-stream"

/-- `event_from_str`; `none` is an exception. -/
def eventFromStr (undefined : Rat → UInt64) (eventType : String) (data : Json) :
    Option EventResult :=
  match Decoder.events.lookup eventType with
  | some shape => if reads undefined data shape then some (.event eventType) else none
  | none => some (if eventType = "RESUMED" then .event eventType else .empty)

/-- The back-off of `reconnect_async`, in seconds: a power that is cast to 64 bits
before the minimum is taken. -/
def backoff (attempts : UInt64) : Option Nat :=
  if attempts.toNat < 64 then some (min (2 ^ attempts.toNat) 128) else none

namespace Shard

variable {W : Setting}

/-! ## Requests -/

/-- `complete`. -/
def complete (s : Shard W) (i : Nat) (r : EventResult) : Shard W :=
  { s with ops := s.ops.modify i fun op => ⟨.over, op.results ++ [r]⟩ }

/-- Request `i` waits for something else. -/
def advance (s : Shard W) (i : Nat) (phase : Phase) : Shard W :=
  { s with ops := s.ops.modify i fun op => { op with phase } }

/-- An exception leaves the handler of request `i`, which is gone with it. -/
def escape (s : Shard W) (i : Nat) : Shard W :=
  { s.advance i .over with escaped := s.escaped + 1 }

/-! ## Sending -/

/-- `m_ws->send`. -/
def send (s : Shard W) (command : Command) : Except Error (Shard W) :=
  match s.ws with
  | none => .error .notConnected
  | some socket => .ok { s with sent := (socket, command) :: s.sent }

def sendHeartbeatAsync (s : Shard W) : Except Error (Shard W) :=
  s.send (.heartbeat (s.session.map (·.sequence)))

def sendIdentifyAsync (s : Shard W) : Except Error (Shard W) :=
  s.send (.identify W.token W.id W.shardCount (if W.isBot then some W.intents else none))

def sendResumeAsync (s : Shard W) : Except Error (Shard W) :=
  match s.ws, s.session with
  | none, _ => .error .notConnected
  | some _, none => .error .operationNotPermitted
  | some _, some session => s.send (.resume W.token session.id session.sequence)

/-- Request `i` waits for what was sent. -/
def answer (s : Shard W) (i : Nat) : Except Error (Shard W) → Shard W
  | .ok s' => s'.advance i .sending
  | .error e => s.complete i (.error e)

/-! ## Closing -/

/-- `close_impl`, with the error it completes with where there is no websocket. -/
def closeImpl (s : Shard W) (reason : CloseFrame) : Shard W × Option Error :=
  let s :=
    if reason.isIntentional then
      { s with intentionalClose := true, resumeGatewayUrl := none, session := none }
    else s
  let s :=
    if s.timer then { s with heartbeatRunning := false, timer := false, waiting := false } else s
  match s.ws with
  | none => (s, some .notConnected)
  | some socket => ({ s with closed := (socket, reason) :: s.closed }, none)

/-- Request `i` waits for the close. -/
def closeFor (s : Shard W) (i : Nat) (reason : CloseFrame) : Shard W :=
  match s.closeImpl reason with
  | (s', none) => s'.advance i .closing
  | (s', some e) => s'.complete i (.error e)

/-! ## The heartbeat -/

/-- `heartbeat_tick`; a new expiry time cancels the wait before it. -/
def heartbeatTick (s : Shard W) : Shard W :=
  if s.timer = false ∨ s.heartbeatRunning = false then s else { s with waiting := true }

def startHeartbeat (s : Shard W) (interval : UInt32) : Shard W :=
  if s.ws.isNone then s
  else
    { s with
      heartbeatInterval := interval
      timer := true
      heartbeatRunning := true }.heartbeatTick

/-- The end of the handler of `heartbeat_tick`. -/
def beat (s : Shard W) : Shard W :=
  let s := { s with lastHeartbeatAcked := false }
  match s.sendHeartbeatAsync with
  | .ok s' => { s' with heartbeatSends := s'.heartbeatSends + 1 }
  | .error _ => s.heartbeatTick

/-- The handler of `heartbeat_tick` after a wait that expired. -/
def heartbeatExpired (s : Shard W) : Shard W :=
  if s.heartbeatRunning = false then s
  else if s.ws.isNone then s
  else if s.lastHeartbeatAcked = false then
    let s := { s with missedHeartbeats := s.missedHeartbeats + 1 }
    if maxMissedHeartbeats ≤ s.missedHeartbeats then
      ({ s with heartbeatRunning := false }.closeImpl .sessionExpired).1
    else s.beat
  else { s with missedHeartbeats := 0 }.beat

/-! ## Connecting -/

def reconnectAsync (s : Shard W) (i : Nat) : Shard W :=
  if s.intentionalClose then s.complete i (.error .operationCanceled)
  else s.advance i (.backingOff (backoff s.reconnectAttempts))

/-- `read_one`. -/
def readOne (s : Shard W) (i : Nat) : Shard W :=
  if s.ws.isNone then s.complete i (.error .notConnected) else s.advance i .reading

def ensureConnectedThenRead (s : Shard W) (i : Nat) (isOpen : Bool) : Shard W :=
  if s.ws.isNone ∨ isOpen = false then
    if s.intentionalClose then s.complete i (.error .notConnected) else s.reconnectAsync i
  else s.readOne i

/-- The handler of the back-off timer. -/
def backoffExpired (s : Shard W) (i : Nat) : Option Error → Shard W
  | some e => s.complete i (.error e)
  | none =>
      if s.intentionalClose then s.complete i (.error .operationCanceled)
      else
        s.advance i (.connecting
          (match s.resumeGatewayUrl with
          | some url => url ++ "/" ++ gatewayJsonZlibQuery
          | none => gatewayUrl))

/-- `connect` fails. -/
def connectFailed (s : Shard W) (i : Nat) (e : Error) : Shard W :=
  { s with reconnectAttempts := s.reconnectAttempts + 1, resumeGatewayUrl := none }.complete i
    (.error e)

/-- `connect` succeeds; `Inflater::create` may fail. -/
def connected (s : Shard W) (i : Nat) (created : Bool) : Shard W :=
  let s := { s with ws := some (match s.ws with | none => 0 | some socket => socket + 1) }
  if W.compression then
    if created then { s with inflater := some (.create W.zlib) }.readOne i
    else s.complete i (.error .notSupported)
  else s.readOne i

def onReadError (s : Shard W) (i : Nat) (e : Error) (isOpen : Bool) : Shard W :=
  if s.intentionalClose then s.complete i (.error e)
  else if e.isTransientReadError = false then s.complete i (.error e)
  else s.ensureConnectedThenRead i isOpen

/-! ## Payloads -/

/-- The end of a Dispatch: the sequence, and the event. -/
def finishDispatch (s : Shard W) (i : Nat) (sequence : Option UInt64) (eventType : String)
    (event : Json) : Shard W :=
  let s :=
    match s.session, sequence with
    | some session, some sequence => { s with session := some { session with sequence } }
    | _, _ => s
  match eventFromStr W.undefined eventType event with
  | some r => s.complete i r
  | none => s.escape i

/-- A payload whose `t` is a string and whose `d` is an object. -/
def isDispatch (json : Json) : Bool :=
  json.contains "t" && (json.get "t").isString && json.contains "d" && (json.get "d").isObject

/-- The checks that `READY` has to pass. -/
def isReady (event : Json) : Bool :=
  event.contains "resume_gateway_url" && (event.get "resume_gateway_url").isString &&
    event.contains "session_id" && (event.get "session_id").isString

/-- The `s` of a Dispatch, where it is a number. -/
def sequenceOf (undefined : Rat → UInt64) (json : Json) : Option UInt64 :=
  if json.contains "s" && (json.get "s").isNumber then
    some ((json.get "s").toUnsigned undefined 64)
  else none

def handleDispatch (s : Shard W) (i : Nat) (json : Json) : Shard W :=
  if isDispatch json then
    let sequence := sequenceOf W.undefined json
    let eventType := (json.get "t").text
    let event := json.get "d"
    if eventType = "READY" then
      if isReady event then
        { s with
          session := some ⟨(event.get "session_id").text, sequence.getD 0⟩
          resumeGatewayUrl := some (event.get "resume_gateway_url").text }.finishDispatch i
            sequence eventType event
      else s.complete i (.error .invalidArgument)
    else s.finishDispatch i sequence eventType event
  else s.complete i (.error .invalidArgument)

/-- The interval of a Hello, as 32 bits. -/
def intervalOf (undefined : Rat → UInt64) (json : Json) : Option UInt32 :=
  if json.contains "d" && (json.get "d").contains "heartbeat_interval" &&
      ((json.get "d").get "heartbeat_interval").isNumberUnsigned then
    some (((json.get "d").get "heartbeat_interval").toUnsigned undefined 32).toUInt32
  else none

def handleHello (s : Shard W) (i : Nat) (json : Json) : Shard W :=
  let s := { s with lastHeartbeatAcked := true }
  match intervalOf W.undefined json with
  | none => s.complete i (.error .invalidArgument)
  | some interval =>
      let s := s.startHeartbeat interval
      if s.session.isSome then s.answer i s.sendResumeAsync else s.answer i s.sendIdentifyAsync

/-- The opcode of a payload, where it has one. -/
def opcodeOf (undefined : Rat → UInt64) (json : Json) : Option GatewayOpcode :=
  if json.contains "op" && (json.get "op").isNumber then
    some (.fromNumber ((json.get "op").toUnsigned undefined 8).toUInt8.toNat)
  else none

def handleJson (s : Shard W) (i : Nat) (json : Json) : Shard W :=
  match opcodeOf W.undefined json with
  | none => s.complete i (.error .invalidArgument)
  | some .dispatch => s.handleDispatch i json
  | some .heartbeat => s.answer i s.sendHeartbeatAsync
  | some .reconnect => s.closeFor i .resume
  | some .invalidSession =>
      match json.get "d" with
      | .boolean resumable => s.closeFor i (if resumable then .resume else .normal)
      | _ => s.complete i (.error .invalidArgument)
  | some .hello => s.handleHello i json
  | some .heartbeatAck => { s with lastHeartbeatAcked := true }.complete i .empty
  | some .other => s.complete i .empty

def handleGatewayPayload (s : Shard W) (i : Nat) (data : List UInt8) : Shard W :=
  match W.parse data with
  | none => s.complete i (.error .invalidArgument)
  | some json => s.handleJson i json

def onMessage (s : Shard W) (i : Nat) (payload : List UInt8) (isBinary : Bool) : Shard W :=
  match s.inflater, isBinary with
  | some inflater, true =>
      match inflater.inflate payload with
      | (inflater', none) => { s with inflater := some inflater' }.complete i (.error .notSupported)
      | (inflater', some data) => { s with inflater := some inflater' }.handleGatewayPayload i data
  | _, _ => s.handleGatewayPayload i payload

/-! ## Runs -/

/-- What runs on the strand: a `next_event`, the completions of a request, the
heartbeat timer with its handler and the completion of its send, and `close`. -/
inductive Event where
  | nextEvent (isOpen : Bool)
  | backoffExpired (i : Nat) (e : Option Error)
  | connectFailed (i : Nat) (e : Error)
  | connected (i : Nat) (created : Bool)
  | message (i : Nat) (payload : List UInt8) (isBinary : Bool)
  | readFailed (i : Nat) (e : Error) (isOpen : Bool)
  | sendCompleted (i : Nat) (e : Option Error)
  | closeCompleted (i : Nat) (e : Option Error)
  | timerExpired
  | heartbeatExpired
  | heartbeatSent
  | close (reason : CloseFrame)

/-- The phase of request `i`. -/
def phase (s : Shard W) (i : Nat) : Phase := ((s.ops[i]?).map (·.phase)).getD .over

/-- What a send or a close that completed means for the request. -/
def completion : Option Error → EventResult
  | some e => .error e
  | none => .empty

/-- The heartbeat timer expires. -/
def timerExpired (s : Shard W) : Shard W := { s with waiting := false, expired := s.expired + 1 }

/-- One handler; `none` where it is not due. -/
def step (s : Shard W) : Event → Option (Shard W)
  | .nextEvent isOpen =>
      let started := { s with ops := s.ops ++ [Op.mk .started []] }
      some (started.ensureConnectedThenRead s.ops.length isOpen)
  | .backoffExpired i e =>
      match s.phase i with
      | .backingOff _ => some (s.backoffExpired i e)
      | _ => none
  | .connectFailed i e =>
      match s.phase i with
      | .connecting _ => some (s.connectFailed i e)
      | _ => none
  | .connected i created =>
      match s.phase i with
      | .connecting _ => some (s.connected i created)
      | _ => none
  | .message i payload isBinary =>
      if s.phase i = .reading then some (s.onMessage i payload isBinary) else none
  | .readFailed i e isOpen =>
      if s.phase i = .reading then some (s.onReadError i e isOpen) else none
  | .sendCompleted i e =>
      if s.phase i = .sending then some (s.complete i (completion e)) else none
  | .closeCompleted i e =>
      if s.phase i = .closing then some (s.complete i (completion e)) else none
  | .timerExpired => if s.waiting then some s.timerExpired else none
  | .heartbeatExpired =>
      if s.expired = 0 then none else some { s with expired := s.expired - 1 }.heartbeatExpired
  | .heartbeatSent =>
      if s.heartbeatSends = 0 then none
      else some { s with heartbeatSends := s.heartbeatSends - 1 }.heartbeatTick
  | .close reason => some (s.closeImpl reason).1

/-- A shard from its construction on. -/
def machine (W : Setting) : Machine (Shard W) Event where
  start := {}
  step := step

end Shard

/-! ## A shard to run -/

/-- A Hello: `{"op":10,"d":{"heartbeat_interval":41250}}`. -/
def helloText : List UInt8 :=
  [123, 34, 111, 112, 34, 58, 49, 48, 44, 34, 100, 34, 58, 123, 34, 104, 101, 97, 114, 116, 98,
    101, 97, 116, 95, 105, 110, 116, 101, 114, 118, 97, 108, 34, 58, 52, 49, 50, 53, 48, 125, 125]

/-- A READY with sequence 1:
`{"op":0,"t":"READY","s":1,"d":{"session_id":"a1","resume_gateway_url":"wss://b2"}}`. -/
def readyText : List UInt8 :=
  [123, 34, 111, 112, 34, 58, 48, 44, 34, 116, 34, 58, 34, 82, 69, 65, 68, 89, 34, 44, 34, 115,
    34, 58, 49, 44, 34, 100, 34, 58, 123, 34, 115, 101, 115, 115, 105, 111, 110, 95, 105, 100, 34,
    58, 34, 97, 49, 34, 44, 34, 114, 101, 115, 117, 109, 101, 95, 103, 97, 116, 101, 119, 97, 121,
    95, 117, 114, 108, 34, 58, 34, 119, 115, 115, 58, 47, 47, 98, 50, 34, 125, 125]

/-- A Dispatch with sequence 5: `{"op":0,"t":"TYPING_START","s":5,"d":{"timestamp":7}}`. -/
def typingText : List UInt8 :=
  [123, 34, 111, 112, 34, 58, 48, 44, 34, 116, 34, 58, 34, 84, 89, 80, 73, 78, 71, 95, 83, 84, 65,
    82, 84, 34, 44, 34, 115, 34, 58, 53, 44, 34, 100, 34, 58, 123, 34, 116, 105, 109, 101, 115,
    116, 97, 109, 112, 34, 58, 55, 125, 125]

/-- A bot on one shard, whose parser knows these payloads and some more. -/
def referenceSetting (payloads : List (List UInt8 × Json)) : Setting where
  id := 0
  shardCount := 1
  token := "token"
  intents := 513
  compression := true
  isBot := true
  parse text := List.lookup text <|
    [(helloText, .object
        [("d", .object [("heartbeat_interval", .unsigned 41250)]), ("op", .unsigned 10)]),
      (readyText, .object
        [("d", .object [("resume_gateway_url", .string "wss://b2"), ("session_id", .string "a1")]),
          ("op", .unsigned 0), ("s", .unsigned 1), ("t", .string "READY")]),
      (typingText, .object
        [("d", .object [("timestamp", .unsigned 7)]), ("op", .unsigned 0), ("s", .unsigned 5),
          ("t", .string "TYPING_START")])] ++ payloads
  zlib := storedZlib.decoder
  undefined _ := 0

/-- Its machine. -/
abbrev referenceMachine (payloads : List (List UInt8 × Json)) :
    Machine (Shard (referenceSetting payloads)) Shard.Event :=
  Shard.machine (referenceSetting payloads)

namespace Shard

/-- Request `i` connects and reads: the websocket was not there or not open. -/
def connects (i : Nat) : List Event :=
  [.nextEvent false, .backoffExpired i none, .connected i true]

/-- Request `i` reads a payload. -/
def receives (i : Nat) (text : List UInt8) : List Event :=
  [.nextEvent true, .message i text false]

end Shard

end Ekizu.Gateway
