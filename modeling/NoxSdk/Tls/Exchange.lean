import NoxSdk.Lib.Runs
import NoxSdk.Tls.Tunnel
import NoxSdk.Topology.SelectRoute

/-!
# Tunnel exchanges

`Tunnel.exchange` writes one `seq` upstream: it hands copies of it to `tunnelSend` until the job is
done, the stream ends, the exit rejects it, time is up or the caller aborts. Reply parts, failed
copies, the timers and the abort come in any order, as events of one state.

The clock, the delay of the copy policy and what `tunnelSend` answers are read anew at each event
and come along with it. A timer is the delay it was armed with. `copies` and `outcomes` record what
was handed to `tunnelSend` and how the promise was settled. The stream that a throwing `deliver`
leaves is not followed: the exchange fails and so does the session that was fed.
-/

namespace NoxSdk.Tls

open NoxSdk.Bincode NoxSdk.Topology

/-- `MAX_HOLD_MS`. -/
def maxHoldMs : ℕ := 30000

/-- `MIN_HOLD_MS`. -/
def minHoldMs : ℕ := 1000

/-- `REPLY_GRACE_MS`. -/
def replyGraceMs : ℕ := 5000

/-- The errors of an exchange. -/
inductive TunnelError
  | rejected (code : TunnelRejectCodeV1) (retryable : Bool) (seq : ℕ) (soleCopy : Bool)
    (detail : String)
  | openTimeout (afterMs : ℕ)
  | timeout (seq : ℕ) (confirmed : Bool)
  | protocol (cause : Thrown)
  | other (error : Thrown)
  deriving DecidableEq, Repr

/-- The message of an error. -/
def TunnelError.message : TunnelError → String
  | rejected code _ seq _ detail =>
    let detail := if detail = "" then "" else s!" ({detail})"
    s!"The tunnel exit refused seq {seq}: {code.value}{detail}"
  | openTimeout afterMs => s!"The tunnel exit did not answer the open within {afterMs} ms"
  | timeout seq confirmed =>
    let reply := if confirmed then "" else " (no reply at all)"
    s!"Tunnel exchange seq {seq} did not finish before the call deadline{reply}"
  | protocol _ => "A tunnel reply part does not decode"
  | other error => error.message

/-- `ExchangeOutcome`. -/
inductive ExchangeOutcome
  | satisfied
  | eof
  deriving DecidableEq, Repr

/-- What `tunnelSend` tells of a copy. -/
structure TunnelRoute where
  entryId : String
  mixId : String
  deriving DecidableEq, Repr

/-- The constant fields of a `Tunnel`. -/
structure Tunnel where
  id : Bytes
  exit : TopologyNode
  host : String
  tcpPort : ℕ
  gapMs : ℕ
  maxCopies : ℕ
  deliver : Deliver

/-- The signal of a call at the start of an exchange. -/
inductive AbortSignal
  | none
  | live
  | aborted (reason : Option Thrown)
  deriving DecidableEq, Repr

/-- `ExchangeSpec`. -/
structure ExchangeSpec where
  data : Bytes
  surbs : ℕ
  close : Bool
  deadlineAt : ℕ
  background : Bool
  signal : AbortSignal
  openTimeoutMs : Option ℕ

/-- A call of `tunnelSend`, and the route of the copy unless it threw. -/
structure TunnelCopy where
  exit : TopologyNode
  request : TunnelRequestV1
  surbs : ℕ
  timeoutMs : ℕ
  avoid : List String
  background : Bool
  route : Option TunnelRoute
  deriving DecidableEq

/-- What an event reads: the clock, `copyAfterMs()` and what `tunnelSend` answers if asked. -/
structure ExchangeEnv where
  now : ℕ
  copyAfterMs : ℕ
  sent : Except Thrown TunnelRoute

/-- The state of an exchange. -/
structure Exchange where
  stream : Downstream
  settled : Bool
  confirmed : Bool
  copiesSent : ℕ
  timedCopies : ℕ
  lastRoute : Option TunnelRoute
  silenceTimer : Option ℕ
  gapTimer : Option ℕ
  openTimer : Option ℕ
  deadlineTimer : Option ℕ
  abortListener : Bool
  copies : List TunnelCopy
  outcomes : List (Except TunnelError ExchangeOutcome)

/-- What `onPart` answers: whether the copy goes on listening. -/
inductive PartAnswer
  | more
  | done
  deriving DecidableEq, Repr

namespace Exchange

variable (tunnel : Tunnel) (spec : ExchangeSpec) (seq : ℕ) (env : ExchangeEnv)

/-- `finish`. -/
def finish (outcome : Except TunnelError ExchangeOutcome) (exchange : Exchange) : Exchange :=
  if exchange.settled then exchange
  else { exchange with
    settled := true
    silenceTimer := none
    gapTimer := none
    openTimer := none
    deadlineTimer := none
    abortListener := false
    outcomes := exchange.outcomes ++ [outcome] }

/-- `armSilence`. -/
def armSilence (exchange : Exchange) : Exchange :=
  { exchange with silenceTimer := some env.copyAfterMs }

/-- The request of a copy. -/
def requestAt (exchange : Exchange) : TunnelRequestV1 where
  tunnelId := tunnel.id
  seq
  open_ := if seq = 0 then some { host := tunnel.host, port := tunnel.tcpPort } else none
  ackOffset := exchange.stream.contiguous
  data := spec.data
  close := spec.close
  holdMs := max minHoldMs (min maxHoldMs (spec.deadlineAt - env.now))

/-- What is handed to `tunnelSend`. A copy steers clear of the entry and mix of the copy before. -/
def copyAt (exchange : Exchange) : TunnelCopy where
  exit := tunnel.exit
  request := exchange.requestAt tunnel spec seq env
  surbs := spec.surbs
  timeoutMs := (exchange.requestAt tunnel spec seq env).holdMs + replyGraceMs
  avoid := match exchange.lastRoute with
    | none => []
    | some route => [route.entryId, route.mixId]
  background := spec.background
  route := env.sent.toOption

/-- `send`. -/
def send (exchange : Exchange) : Exchange :=
  if exchange.settled then exchange
  else if spec.deadlineAt ≤ env.now then
    exchange.finish (.error (.timeout seq exchange.confirmed))
  else
    let handed :=
      { exchange with copies := exchange.copies ++ [exchange.copyAt tunnel spec seq env] }
    match env.sent with
    | .error error => handed.finish (.error (.other error))
    | .ok route => armSilence env
        { handed with copiesSent := handed.copiesSent + 1, lastRoute := some route }

/-- `timedCopy`. -/
def timedCopy (exchange : Exchange) : Exchange :=
  if exchange.settled then exchange
  else if tunnel.maxCopies ≤ exchange.timedCopies then exchange
  else send tunnel spec seq env { exchange with timedCopies := exchange.timedCopies + 1 }

/-- The gap timer runs while a part is held. -/
def watchGap (exchange : Exchange) : Exchange :=
  if exchange.stream.held.size = 0 then { exchange with gapTimer := none }
  else if exchange.gapTimer = none then { exchange with gapTimer := some tunnel.gapMs }
  else exchange

/-- The end of `onPart`, for a part that leaves the exchange open. -/
def afterPart (fin : Option TunnelFinV1) (exchange : Exchange) : Exchange :=
  let exchange := exchange.watchGap tunnel
  if fin = some .needSurbs ∨ fin = some .expired then send tunnel spec seq env exchange
  else exchange.armSilence env

/-- A part of the stream that `onPart` has decoded. -/
def onData (part : TunnelPartV1) (satisfied : Bool) (exchange : Exchange) :
    Exchange × PartAnswer :=
  match exchange.stream.receive tunnel.deliver part with
  | .error error => (exchange.finish (.error (.other error)), .done)
  | .ok stream =>
    let exchange := { exchange with stream }
    if satisfied then (exchange.finish (.ok .satisfied), .done)
    else if stream.ended then (exchange.finish (.ok .eof), .done)
    else (exchange.afterPart tunnel spec seq env part.fin, .more)

/-- `onPart`; `satisfied` is what `spec.satisfied()` says after the delivery. -/
def onPart (body : Bytes) (satisfied : Bool) (exchange : Exchange) : Exchange × PartAnswer :=
  if exchange.settled then (exchange, .done)
  else match decodeTunnelReplyV1 body with
  | .error error => (exchange.finish (.error (.protocol error)), .done)
  | .ok reply =>
    if reply.seq ≠ seq then (exchange, .more)
    else
      let exchange := { exchange with confirmed := true, openTimer := none }
      match reply with
      | .rejected _ code retryable detail =>
        (exchange.finish (.error (.rejected code retryable seq
          (decide (exchange.copiesSent = 1)) detail)), .done)
      | .data _ part => exchange.onData tunnel spec seq env part satisfied

/-- The `catch` on the promise of a copy. -/
def onCopyFailed (exchange : Exchange) : Exchange :=
  if exchange.settled = false ∧ exchange.confirmed = false then
    exchange.timedCopy tunnel spec seq env
  else exchange

/-- `onAbort`. -/
def onAbort (reason : Option Thrown) (exchange : Exchange) : Exchange :=
  exchange.finish (.error (.other (reason.getD (.error "Tunnel exchange aborted"))))

/-- The start of an exchange, on the stream that the exchanges before it left. -/
def start (stream : Downstream) : Exchange :=
  let exchange : Exchange :=
    { stream, settled := false, confirmed := false, copiesSent := 0, timedCopies := 0,
      lastRoute := none, silenceTimer := none, gapTimer := none, openTimer := none,
      deadlineTimer := some (spec.deadlineAt - env.now), abortListener := false, copies := [],
      outcomes := [] }
  match spec.signal with
  | .aborted reason => exchange.onAbort reason
  | .live => send tunnel spec seq env
      { exchange with abortListener := true, openTimer := spec.openTimeoutMs }
  | .none => send tunnel spec seq env { exchange with openTimer := spec.openTimeoutMs }

end Exchange

/-- What happens to an exchange. -/
inductive ExchangeEvent
  | part (body : Bytes) (satisfied : Bool) (env : ExchangeEnv)
  | copyFailed (env : ExchangeEnv)
  | silence (env : ExchangeEnv)
  | gap (env : ExchangeEnv)
  | openTimeout
  | deadline
  | abort (reason : Option Thrown)

/-- One event; a timer fires only while it is armed, an abort is heard only by its listener. -/
def exchangeStep (tunnel : Tunnel) (spec : ExchangeSpec) (seq : ℕ) (exchange : Exchange) :
    ExchangeEvent → Option Exchange
  | .part body satisfied env => some (exchange.onPart tunnel spec seq env body satisfied).1
  | .copyFailed env => some (exchange.onCopyFailed tunnel spec seq env)
  | .silence env => exchange.silenceTimer.map fun _ =>
    { exchange with silenceTimer := none }.timedCopy tunnel spec seq env
  | .gap env => exchange.gapTimer.map fun _ =>
    let exchange := { exchange with gapTimer := none }
    if exchange.stream.held.size > 0 then exchange.timedCopy tunnel spec seq env else exchange
  | .openTimeout => exchange.openTimer.map fun afterMs =>
    let exchange := { exchange with openTimer := none }
    if exchange.confirmed then exchange else exchange.finish (.error (.openTimeout afterMs))
  | .deadline => exchange.deadlineTimer.map fun _ =>
    { exchange with deadlineTimer := none }.finish (.error (.timeout seq exchange.confirmed))
  | .abort reason =>
    if exchange.abortListener then
      some ({ exchange with abortListener := false }.onAbort reason)
    else none

end NoxSdk.Tls
