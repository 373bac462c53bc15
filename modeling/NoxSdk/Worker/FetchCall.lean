import NoxSdk.Lib.Runs
import NoxSdk.Tls.Exchange
import NoxSdk.Worker.JsonRpc

/-!
# Fetch calls

`sendPrepared` (`fetch-map.ts`) sends a prepared request and follows redirects: each hop goes
through the exit or through a TLS tunnel (`TlsTransport.exchange`), where one retry is allowed. A
call is a state whose events are the routing of a hop, the answer of the exit, a session acquired,
and the answer of a tunnel; every await of the code is the wait for one of them.

The URL parser of the runtime and `JSON.parse` are parameters. An event brings what the code reads
at it: the time left of the call, and the error that the call is rejected with where it fails.
A reply is as the `exchange` of the hop returns it. `handed` and `replies` record what was handed to
the client or to a session, and what came back for which request.
-/

namespace NoxSdk.Worker

open Tls

/-! ### Requests and replies -/

/-- `CALL_CODES`. -/
inductive CallCode
  | cancelled
  | timeout
  | networkError
  | tooLarge
  | unsupported
  | protocolError
  | permissionDenied
  | internalError
  deriving DecidableEq, Repr

/-- `callError`. -/
structure CallError where
  code : CallCode
  message : String
  deriving DecidableEq, Repr

/-- What the code reads of a parsed URL; `href` is without the fragment. -/
structure Url where
  protocol : String
  origin : String
  href : String
  deriving DecidableEq, Repr

/-- `new URL(text)` and `new URL(location, base)`, none where they throw. -/
structure Urls where
  parse : String → Option Url
  resolve : String → String → Option Url

/-- The redirect mode of a request. -/
inductive RedirectMode
  | follow
  | manual
  | error
  deriving DecidableEq, Repr

/-- `PreparedRequest`. -/
structure PreparedRequest where
  method : String
  url : String
  headers : List (String × String)
  body : Bytes
  redirect : RedirectMode
  profile : RequestProfile
  deriving DecidableEq

/-- `DecodedHttpResponse`. -/
structure DecodedHttpResponse where
  status : ℕ
  headers : List (String × String)
  body : Bytes
  truncated : Bool
  deriving DecidableEq

/-- The limits of `FetchSettings`. -/
structure FetchSettings where
  attemptTimeoutMs : ℕ
  maxResponseBytes : ℕ

/-- The `retry` of a request to the exit. -/
inductive Retry
  | none
  | route
  deriving DecidableEq, Repr

/-- `HttpRequestOptions`, less the signal. -/
structure HttpRequestOptions where
  timeoutMs : ℕ
  opKey : String
  minSurbs : ℕ
  retry : Retry
  maxResponseBytes : ℕ
  expectedResponseBytes : Option ℕ
  deriving DecidableEq, Repr

/-- `MIN_SURBS`. -/
def minSurbs : ℕ := 2

/-- `RESPONSE_ENVELOPE_ALLOWANCE`. -/
def responseEnvelopeAllowance : ℕ := 65536

/-- `MAX_URL_LENGTH`. -/
def maxUrlLength : ℕ := 8192

/-- `MAX_REDIRECT_HOPS`. -/
def maxRedirectHops : ℕ := 5

/-- `SAFE_METHODS`. -/
def safeMethods : List String := ["GET", "HEAD", "OPTIONS"]

/-- `REDIRECT_STATUSES`. -/
def redirectStatuses : List ℕ := [301, 302, 303, 307, 308]

/-- `REQUEST_BODY_HEADERS`. -/
def requestBodyHeaders : List String :=
  ["content-encoding", "content-language", "content-location", "content-type"]

/-- `CROSS_ORIGIN_DROPPED_HEADERS`. -/
def crossOriginDroppedHeaders : List String := ["authorization", "cookie"]

/-- The first field of a name. -/
def headerOf (name : String) (headers : List (String × String)) : Option String :=
  (headers.find? fun header => Js.toLowerCase header.1 == name).map Prod.snd

/-- The fields but those of some names. -/
def dropHeaders (names : List String) (headers : List (String × String)) :
    List (String × String) :=
  headers.filter fun header => decide (Js.toLowerCase header.1 ∉ names)

section Redirects

variable (parseJson : Bytes → Option Js.Json) (urls : Urls)

/-- The profile of a request. -/
def profileOf (method : String) (headers : List (String × String)) (body : Bytes) :
    RequestProfile :=
  profileRequest parseJson method (headerOf "content-type" headers) body

/-- The request that `prepareRequest` returns. -/
def prepared (method url : String) (headers : List (String × String)) (body : Bytes)
    (redirect : RedirectMode) : PreparedRequest where
  method
  url
  headers
  body
  redirect
  profile := profileOf parseJson method headers body

/-- `redirectTarget`. -/
def redirectTarget (location base : String) : Except CallError String :=
  match urls.resolve location base with
  | none => .error ⟨.networkError, "Redirect refused: the Location header is not a valid URL"⟩
  | some url =>
    if url.protocol ≠ "http:" ∧ url.protocol ≠ "https:" then .error ⟨.networkError,
      s!"Redirect refused: the target scheme {url.protocol} is not http(s)"⟩
    else if Js.length url.href.toList > maxUrlLength then .error ⟨.networkError,
      s!"Redirect refused: the target URL is longer than {maxUrlLength} characters"⟩
    else .ok url.href

/-- The redirect turns the request into a GET without a body. -/
def turnsToGet (method : String) (status : ℕ) : Bool :=
  if status = 303 then decide (method ≠ "GET" ∧ method ≠ "HEAD")
  else decide ((status = 301 ∨ status = 302) ∧ method = "POST")

/-- The fields that a redirect to another origin leaves. -/
def keepHeaders (request : PreparedRequest) (url : String) (headers : List (String × String)) :
    List (String × String) :=
  if (urls.parse url).map Url.origin ≠ (urls.parse request.url).map Url.origin then
    dropHeaders crossOriginDroppedHeaders headers
  else headers

/-- `redirectedRequest`. -/
def redirectedRequest (request : PreparedRequest) (status : ℕ) (location : String) :
    Except CallError (Option PreparedRequest) :=
  match redirectTarget urls location request.url with
  | .error error => .error error
  | .ok url =>
    if turnsToGet request.method status then
      if request.profile.rpcClass = .write then .ok none
      else
        let headers := keepHeaders urls request url (dropHeaders requestBodyHeaders request.headers)
        .ok (some {
          method := "GET"
          url
          headers
          body := []
          redirect := request.redirect
          profile := profileOf parseJson "GET" headers [] })
    else .ok (some { request with url, headers := keepHeaders urls request url request.headers })

end Redirects

/-- `checkStatus`. -/
def checkStatus (reply : DecodedHttpResponse) : Except CallError Unit :=
  if reply.status < 200 ∨ reply.status > 599 then
    .error ⟨.protocolError, s!"The exit returned status {reply.status}, outside 200-599"⟩
  else .ok ()

/-- The request may be sent again by the client. -/
def resendable (request : PreparedRequest) : Bool :=
  request.profile.retryable ||
    (request.profile.rpcClass == .other && decide (request.method ∈ safeMethods))

/-- The options of `exchange`. -/
def exchangeOptions (settings : FetchSettings) (request : PreparedRequest) (remaining : ℕ) :
    HttpRequestOptions where
  timeoutMs := if resendable request then min settings.attemptTimeoutMs remaining else remaining
  opKey := request.profile.opKey
  minSurbs := minSurbs
  retry := if resendable request then .route else .none
  maxResponseBytes := settings.maxResponseBytes + responseEnvelopeAllowance
  expectedResponseBytes := request.profile.expectedResponseBytes

/-! ### Tunnel attempts -/

/-- What `channel.request` throws, as far as `retriable` looks at it. -/
inductive AttemptError
  | tunnel (error : TunnelError)
  | tls (code : String)
  | other
  deriving DecidableEq, Repr

/-- A failed attempt: the error, the exchanges of the request that were over when it came, whether
the call is aborted, and the error that the call is rejected with. -/
structure TunnelFailure where
  error : AttemptError
  earlier : ℕ
  aborted : Bool
  thrown : CallError
  deriving DecidableEq, Repr

/-- The exit refused the only copy of a `seq` and says that it did not write it. -/
def AttemptError.refusedUnwritten : AttemptError → Bool
  | .tunnel (.rejected code _ _ soleCopy _) =>
    decide (code ∈ [.unknownSession, .expired, .upstreamClosed]) && soleCopy
  | _ => false

/-- `retriable`. -/
def retriable (error : AttemptError) (resendable : Bool) : Bool :=
  match error with
  | .tunnel (.rejected code _ _ soleCopy _) =>
    let unwritten := decide (code ∈ [.unknownSession, .expired, .upstreamClosed])
    if unwritten && soleCopy then true else resendable && unwritten
  | .tunnel (.timeout _ _) => resendable
  | .tunnel (.openTimeout _) => resendable
  | .tunnel _ => false
  | .tls code => resendable && code == "HTTP_RESPONSE_TRUNCATED"
  | .other => false

/-! ### Calls -/

/-- The transport of a hop. -/
inductive Via
  | tunnel
  | http
  deriving DecidableEq, Repr

/-- A request handed to the client for the exit, or to a session of a tunnel: there after a failed
attempt when it is a retry. -/
inductive Handed
  | exit (request : PreparedRequest) (options : HttpRequestOptions)
  | tunnel (request : PreparedRequest) (after : Option TunnelFailure)
  deriving DecidableEq

/-- How a call ended; a response is what `finishResponse` was given. -/
inductive CallOutcome
  | response (reply : DecodedHttpResponse) (request : PreparedRequest)
  | failed (error : CallError)
  deriving DecidableEq

/-- The request that was handed over. -/
def Handed.request : Handed → PreparedRequest
  | exit request _ => request
  | tunnel request _ => request

/-- What a call waits for. -/
inductive Phase
  | routing
  | onExit
  | acquiring (after : Option TunnelFailure)
  | onSession (after : Option TunnelFailure)
  | ended (outcome : CallOutcome)
  deriving DecidableEq

/-- The state of a call. -/
structure FetchCall where
  current : PreparedRequest
  hop : ℕ
  onTunnel : Bool
  phase : Phase
  handed : List Handed
  replies : List (PreparedRequest × DecodedHttpResponse)
  deriving DecidableEq

/-- The events of a call. -/
inductive FetchEvent
  | routed (choice : Except CallError Via) (remaining : ℕ)
  | exitAnswered (answer : Except CallError DecodedHttpResponse) (remaining : ℕ)
  | acquired (result : Except CallError Unit)
  | sessionAnswered (answer : Except TunnelFailure DecodedHttpResponse) (remaining : ℕ)

namespace FetchCall

variable (parseJson : Bytes → Option Js.Json) (urls : Urls) (settings : FetchSettings)

/-- The start of `sendPrepared`. -/
def start (request : PreparedRequest) (remaining : ℕ) : FetchCall where
  current := request
  hop := 0
  onTunnel := false
  phase := if remaining = 0 then
    .ended (.failed ⟨.timeout, "The call deadline passed before sending"⟩) else .routing
  handed := []
  replies := []

/-- The call ends. -/
def finish (outcome : CallOutcome) (call : FetchCall) : FetchCall :=
  { call with phase := .ended outcome }

/-- The next hop of a redirect. -/
def follow (next : PreparedRequest) (remaining : ℕ) (call : FetchCall) : FetchCall :=
  if call.hop + 1 > maxRedirectHops then call.finish (.failed ⟨.networkError,
    s!"Too many redirects: more than {maxRedirectHops} hops"⟩)
  else if remaining = 0 then call.finish (.failed ⟨.networkError,
    s!"The call deadline passed after {call.hop + 1} redirect(s)"⟩)
  else { call with current := next, hop := call.hop + 1, phase := .routing }

/-- What `sendPrepared` does with the reply of a hop. -/
def afterReply (reply : DecodedHttpResponse) (remaining : ℕ) (call : FetchCall) : FetchCall :=
  let call := { call with replies := call.replies ++ [(call.current, reply)] }
  match checkStatus reply with
  | .error error => call.finish (.failed error)
  | .ok () =>
    if reply.status ∉ redirectStatuses ∨ call.current.redirect = .manual then
      call.finish (.response reply call.current)
    else if call.current.redirect = .error then
      let answered := s!"the upstream answered {reply.status} and the call set redirect: "
      call.finish (.failed ⟨.networkError, "Redirect refused: " ++ answered ++ "\"error\""⟩)
    else match headerOf "location" reply.headers with
      | none => call.finish (.response reply call.current)
      | some location =>
        match redirectedRequest parseJson urls call.current reply.status location with
        | .error error => call.finish (.failed error)
        | .ok none => call.finish (.response reply call.current)
        | .ok (some next) => call.follow next remaining

/-- The `catch` of an attempt on a tunnel. -/
def afterFailure (failure : TunnelFailure) (before : Option TunnelFailure) (remaining : ℕ)
    (call : FetchCall) : FetchCall :=
  if failure.aborted ∨ before ≠ none ∨ remaining = 0 ∨
      retriable failure.error call.current.profile.retryable = false then
    call.finish (.failed failure.thrown)
  else { call with phase := .acquiring (some failure) }

end FetchCall

/-- One event of a call, where the call waits for it. -/
def fetchStep (parseJson : Bytes → Option Js.Json) (urls : Urls) (settings : FetchSettings)
    (call : FetchCall) (event : FetchEvent) : Option FetchCall :=
  match call.phase, event with
  | .routing, .routed (.error error) _ => some (call.finish (.failed error))
  | .routing, .routed (.ok .http) remaining => some { call with
      phase := .onExit
      handed := call.handed ++
        [.exit call.current (exchangeOptions settings call.current remaining)] }
  | .routing, .routed (.ok .tunnel) _ => some { call with phase := .acquiring none }
  | .onExit, .exitAnswered (.error error) _ => some (call.finish (.failed error))
  | .onExit, .exitAnswered (.ok reply) remaining =>
    some (call.afterReply parseJson urls reply remaining)
  | .acquiring _, .acquired (.error error) => some (call.finish (.failed error))
  | .acquiring before, .acquired (.ok ()) => some { call with
      phase := .onSession before
      handed := call.handed ++ [.tunnel call.current before] }
  | .onSession before, .sessionAnswered (.error failure) remaining =>
    some (call.afterFailure failure before remaining)
  | .onSession _, .sessionAnswered (.ok reply) remaining =>
    some ({ call with onTunnel := true }.afterReply parseJson urls reply remaining)
  | _, _ => none

end NoxSdk.Worker
