import NoxSdk.Client.Planners

/-!
# Sending with retries

`_sendWithRetry`: a call launches copies of one request and settles with the first answer, or
with an error. The events of a call are the end of a copy (a reply or a failure), a report that a
reply is lost, the hedge timer and the abort by the caller; they come in any order. The calls of a
client share the number of hedges in flight.

What the planners read of the client may change between two events, so each event brings it
along. An error is the chain of its causes, as far as the client looks at it. `Attempt.reason`,
`Attempt.plannedIn` and `Settlement.copyLive` record what happened and decide nothing.
-/

namespace NoxSdk.Client

open NoxSdk.Topology

/-! ### Errors -/

/-- `KpsFailurePhase`. -/
inductive KpsFailurePhase
  | dial
  | open_
  | write
  | read
  | parse
  deriving DecidableEq

/-- A link of a chain of causes: the code of a `NoxClientError` and the field `phase`. -/
structure ErrorLink where
  code : Option NoxClientErrorCode
  phase : Option KpsFailurePhase
  deriving DecidableEq

/-- A thrown value, its cause, the cause of its cause and so on. -/
abbrev ErrorChain := List ErrorLink

/-- An error with a code. -/
def errorOf (code : NoxClientErrorCode) : ErrorChain := [⟨some code, none⟩]

/-- The code of a `NoxClientError`. -/
def errorCode (error : ErrorChain) : Option NoxClientErrorCode := error.head?.bind ErrorLink.code

/-- `isResponseTimeout`. -/
def isResponseTimeout (error : ErrorChain) : Bool := errorCode error == some .responseTimeout

/-- `isTransportFailure`. -/
def isTransportFailure (error : ErrorChain) : Bool := errorCode error == some .transportFailed

/-- `kpsFailurePhase`. -/
def kpsFailurePhase (error : ErrorChain) : Option KpsFailurePhase :=
  (error.take 4).findSome? ErrorLink.phase

/-- The request was not written: the failure came before. -/
def notSent (error : ErrorChain) : Bool :=
  kpsFailurePhase error == some .dial || kpsFailurePhase error == some .open_

/-! ### Calls -/

/-- Why a copy was launched, with the index of the copy that it replaces. -/
inductive CopyReason
  | first
  | transport (failed : ℕ)
  | timeout (failed : ℕ)
  | lostReply (failed : ℕ)
  | hedge (failed : ℕ)
  deriving DecidableEq

/-- A copy launched for a hedge. -/
def CopyReason.isHedge : CopyReason → Bool
  | hedge _ => true
  | _ => false

/-- The copy that a timeout, a lost reply or a hedge replaces. -/
def CopyReason.routeResend : CopyReason → Option ℕ
  | timeout failed => some failed
  | lostReply failed => some failed
  | hedge failed => some failed
  | _ => none

/-- `Attempt`. -/
structure Attempt where
  planned : PlannedRoute
  hedge : Bool
  live : Bool
  aborted : Bool
  reason : CopyReason
  plannedIn : PlanState

/-- How a call ends. -/
inductive Outcome
  | resolved (copy : ℕ)
  | rejected (error : ErrorChain)
  deriving DecidableEq

/-- A call of `settle`, and whether a copy was live then. -/
structure Settlement where
  outcome : Outcome
  copyLive : Bool
  deriving DecidableEq

/-- The variables of one `_sendWithRetry`. -/
structure Call where
  selectedExit : Option TopologyNode
  retry : RetryMode
  policy : ResendPolicy
  attempts : List Attempt
  settled : Bool
  settlements : List Settlement
  routeResendUsed : Bool
  transportLeft : ℕ
  hedgeTimer : Bool
  callerAborted : Bool

/-- What does not change while a client is connected. -/
structure Settings where
  surbFormat : SurbFormat
  retryOnTimeout : Bool
  kpsMode : Bool

/-- What an event reads of the client besides the call. -/
structure Moment where
  state : PlanState
  draws : PlanDraws

/-- A call and the hedges in flight of its client. -/
structure Local where
  call : Call
  hedgesInFlight : ℕ

namespace Call

/-- `anyLive`. -/
def anyLive (call : Call) : Bool := call.attempts.any Attempt.live

/-- The index of the first live copy. -/
def firstLive (call : Call) : ℕ := call.attempts.findIdx Attempt.live

/-- `finish`. -/
def finish (call : Call) (outcome : Outcome) : Call :=
  if call.settled then call
  else
    { call with
      settled := true
      hedgeTimer := false
      attempts := call.attempts.map fun attempt =>
        if attempt.live then { attempt with aborted := true } else attempt
      settlements := call.settlements ++ [⟨outcome, call.anyLive⟩] }

/-- `failIfIdle`. -/
def failIfIdle (call : Call) (error : ErrorChain) : Call :=
  if call.anyLive then call else call.finish (.rejected error)

/-- `takeTransportResend`. -/
def takeTransportResend (call : Call) : Option Call :=
  if call.transportLeft > 0 then some { call with transportLeft := call.transportLeft - 1 }
  else if !call.routeResendUsed then some { call with routeResendUsed := true }
  else none

end Call

namespace Local

/-- The call replaced. -/
def withCall (s : Local) (call : Call) : Local := { s with call := call }

/-- `end`. -/
def endCopy (s : Local) (copy : ℕ) : Local :=
  match s.call.attempts[copy]? with
  | none => s
  | some attempt =>
    if !attempt.live then s
    else
      { call := { s.call with
          attempts := s.call.attempts.set copy { attempt with live := false } }
        hedgesInFlight := if attempt.hedge then s.hedgesInFlight - 1 else s.hedgesInFlight }

/-- `launch`. -/
def launch (s : Local) (state : PlanState) (planned : PlannedRoute) (reason : CopyReason) :
    Local where
  call := { s.call with
    attempts := s.call.attempts ++ [⟨planned, reason.isHedge, true, false, reason, state⟩] }
  hedgesInFlight := if reason.isHedge then s.hedgesInFlight + 1 else s.hedgesInFlight

/-- `routeResendUsed = true`, then `launch`. -/
def launchRouteResend (s : Local) (state : PlanState) (planned : PlannedRoute)
    (reason : CopyReason) : Local :=
  (s.withCall { s.call with routeResendUsed := true }).launch state planned reason

/-- `onSuccess`. -/
def onSuccess (s : Local) (copy : ℕ) : Local :=
  let s := s.endCopy copy
  if s.call.settled then s else s.withCall (s.call.finish (.resolved copy))

/-- `onFailure` for a transport failure in KPS mode. -/
def onTransportFailure (settings : Settings) (moment : Moment) (s : Local) (copy : ℕ)
    (attempt : Attempt) (error : ErrorChain) : Local :=
  if s.call.callerAborted then s.withCall (s.call.failIfIdle error)
  else if notSent error || s.call.retry != .none then
    match planTransportResend moment.state settings.surbFormat attempt.planned
        s.call.selectedExit s.call.policy moment.draws, s.call.takeTransportResend with
    | some next, some call => (s.withCall call).launch moment.state next (.transport copy)
    | _, _ => s.withCall (s.call.failIfIdle error)
  else s.withCall (s.call.failIfIdle error)

/-- `onFailure` for a timeout. -/
def onTimeout (settings : Settings) (moment : Moment) (s : Local) (copy : ℕ) (attempt : Attempt)
    (error : ErrorChain) : Local :=
  if !settings.retryOnTimeout then s.withCall (s.call.failIfIdle error)
  else if s.call.retry != .none && !s.call.routeResendUsed then
    match planResend moment.state settings.surbFormat attempt.planned s.call.selectedExit
        s.call.retry s.call.policy moment.draws with
    | some next => s.launchRouteResend moment.state next (.timeout copy)
    | none => s.withCall (s.call.failIfIdle error)
  else s.withCall (s.call.failIfIdle error)

/-- `onFailure` from the first check of the error on. -/
def onError (settings : Settings) (moment : Moment) (s : Local) (copy : ℕ) (attempt : Attempt)
    (error : ErrorChain) : Local :=
  if settings.kpsMode && isTransportFailure error then
    onTransportFailure settings moment s copy attempt error
  else if isResponseTimeout error then onTimeout settings moment s copy attempt error
  else s.withCall (s.call.finish (.rejected error))

/-- `onFailure`. -/
def onFailure (settings : Settings) (moment : Moment) (s : Local) (copy : ℕ)
    (error : ErrorChain) : Local :=
  let s := s.endCopy copy
  match s.call.attempts[copy]? with
  | none => s
  | some attempt => if s.call.settled then s else onError settings moment s copy attempt error

/-- `onLost`. -/
def onLost (settings : Settings) (moment : Moment) (s : Local) (copy : ℕ) : Local :=
  match s.call.attempts[copy]? with
  | none => s
  | some attempt =>
    if s.call.settled || !attempt.live || !s.call.policy.resendOnLostReply then s
    else if s.call.retry == .none || s.call.routeResendUsed || !settings.retryOnTimeout then s
    else
      match planResend moment.state settings.surbFormat attempt.planned s.call.selectedExit
          s.call.retry s.call.policy moment.draws with
      | none => s
      | some next => s.launchRouteResend moment.state next (.lostReply copy)

/-- The timer is no longer running. -/
def clearHedgeTimer (s : Local) : Local := s.withCall { s.call with hedgeTimer := false }

/-- The caller's signal is aborted. -/
def noteAbort (s : Local) : Local := s.withCall { s.call with callerAborted := true }

/-- The callback of the hedge timer, after `hedgeTimer = undefined`. -/
def fireHedge (settings : Settings) (moment : Moment) (s : Local) : Local :=
  if s.call.settled || s.call.routeResendUsed || !s.call.anyLive then s
  else if s.hedgesInFlight ≥ s.call.policy.maxHedgesInFlight then s
  else
    match s.call.attempts[s.call.firstLive]? with
    | none => s
    | some live =>
      match planResend moment.state settings.surbFormat live.planned s.call.selectedExit
          s.call.retry s.call.policy moment.draws with
      | none => s
      | some next => s.launchRouteResend moment.state next (.hedge s.call.firstLive)

end Local

/-! ### The client -/

/-- An event of a call. -/
inductive CallEvent
  | success (copy : ℕ)
  | failure (copy : ℕ) (error : ErrorChain)
  | lost (copy : ℕ)
  | hedgeTimer
  | abort

/-- An event can happen: a copy ends once, and only a running timer fires. -/
def CallEvent.enabled (call : Call) : CallEvent → Bool
  | success copy => call.attempts[copy]?.any Attempt.live
  | failure copy _ => call.attempts[copy]?.any Attempt.live
  | hedgeTimer => call.hedgeTimer
  | _ => true

/-- What a call does at an event. -/
def Local.handle (settings : Settings) (moment : Moment) (s : Local) : CallEvent → Local
  | .success copy => s.onSuccess copy
  | .failure copy error => s.onFailure settings moment copy error
  | .lost copy => s.onLost settings moment copy
  | .hedgeTimer => s.clearHedgeTimer.fireHedge settings moment
  | .abort => s.noteAbort

/-- The parameters of `_sendWithRetry`. -/
structure CallParams where
  selectedExit : Option TopologyNode
  retry : RetryMode
  policy : ResendPolicy
  /-- `extras?.entry`. -/
  entry : Option TopologyNode

/-- The start of `_sendWithRetry`, up to the hedge timer; the first plan may throw. -/
def startCall (settings : Settings) (moment : Moment) (params : CallParams)
    (hedgesInFlight : ℕ) : Except Thrown Local := do
  let first ← planRoute moment.state settings.surbFormat params.selectedExit
    moment.state.avoidedNodeIds params.entry moment.draws.route
  let call : Call :=
    { selectedExit := params.selectedExit
      retry := params.retry
      policy := params.policy
      attempts := []
      settled := false
      settlements := []
      routeResendUsed := false
      transportLeft := params.policy.transportResends
      hedgeTimer := decide (params.policy.hedgeAfterMs > 0) && params.retry == .route &&
        settings.retryOnTimeout
      callerAborted := false }
  return (Local.mk call hedgesInFlight).launch moment.state first .first

/-- The calls of a client and its hedges in flight. -/
structure ClientState where
  calls : List Call
  hedgesInFlight : ℕ

/-- An event of a client. -/
inductive Event
  | start (moment : Moment) (params : CallParams)
  | call (index : ℕ) (moment : Moment) (event : CallEvent)

/-- A connected client without calls. -/
def ClientState.init : ClientState := ⟨[], 0⟩

/-- One event; `none` when it cannot happen. -/
def ClientState.step (settings : Settings) (client : ClientState) : Event → Option ClientState
  | .start moment params =>
    match startCall settings moment params client.hedgesInFlight with
    | .error _ => some client
    | .ok s => some ⟨client.calls ++ [s.call], s.hedgesInFlight⟩
  | .call index moment event =>
    match client.calls[index]? with
    | none => none
    | some call =>
      if !event.enabled call then none
      else
        let s := (Local.mk call client.hedgesInFlight).handle settings moment event
        some ⟨client.calls.set index s.call, s.hedgesInFlight⟩

end NoxSdk.Client
