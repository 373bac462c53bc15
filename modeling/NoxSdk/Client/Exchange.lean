import NoxSdk.Client.Resend

/-!
# One packet to an entry

A copy of a request is one or several packets, each posted in a KPS-HTTP/1 exchange of its own
(`postPacket` over `KpsHttpTransport.request`). `Exchange` is an exchange with its phase and the
bytes of its request that were written, `Exchange.step` what can happen to it. The error of a
failed exchange carries the phase it failed in, and the client reads it through the causes that
`postPacket` and the upload put in front.

`Exchange.Consistent` is the invariant: in the phases `dial` and `open` nothing is written.
-/

namespace NoxSdk.Client

/-! ### The request -/

/-- The characters of `TOKEN_RE`. -/
def isTokenChar (c : Char) : Bool :=
  c.isAlphanum || "!#$%&'*+-.^_`|~".toList.contains c

/-- `TOKEN_RE.test`. -/
def isToken (text : String) : Bool := text.length > 0 && text.toList.all isTokenChar

/-- `REQUEST_VALUE_RE.test`. -/
def isRequestValue (text : String) : Bool :=
  text.toList.all fun c => c == '\t' || decide (0x20 ≤ c.toNat ∧ c.toNat ≤ 0x7e)

/-- `MANAGED_REQUEST_FIELDS`. -/
def managedRequestFields : List String :=
  ["host", "content-length", "transfer-encoding", "te", "trailer", "connection", "keep-alive",
    "proxy-connection", "upgrade", "expect"]

/-- `BODY_METHODS`. -/
def bodyMethods : List String := ["POST", "PUT", "PATCH"]

/-- `KpsHttpRequest`. -/
structure KpsHttpRequest where
  method : String
  path : String
  certhash : String
  headers : List (String × String)
  body : Option Bytes

/-- A violation of KPS-HTTP/1. -/
def protocolError (message : String) : Thrown := .noxKpsError message .protocolError

/-- `value.trim()` of a value that passes `REQUEST_VALUE_RE`: its blanks are spaces and tabs. -/
def trimValue (value : String) : String :=
  let isBlank := fun c : Char => c == ' ' || c == '\t'
  String.ofList ((value.toList.dropWhile isBlank).reverse.dropWhile isBlank).reverse

/-- The line of a header. -/
def headerLine (header : String × String) : Except Thrown String :=
  if !isToken header.1 then
    .error (protocolError "KPS-HTTP/1 request header name is not an HTTP token")
  else if managedRequestFields.contains (Js.toLowerCase header.1) then
    .error (protocolError
      ("KPS-HTTP/1 request header \"" ++ header.1 ++ "\" is managed by the transport"))
  else if !isRequestValue header.2 then
    .error (protocolError ("KPS-HTTP/1 request header \"" ++ header.1 ++
      "\" has a value with control or non-ASCII characters"))
  else .ok (header.1 ++ ": " ++ trimValue header.2)

/-- The low bytes of the UTF-16 units of a text: `out[i] = head.charCodeAt(i)`. -/
def charCodes (text : String) : Bytes :=
  text.toList.flatMap fun c =>
    if c.toNat < 0x10000 then [UInt8.ofNat c.toNat]
    else
      [UInt8.ofNat (0xd800 + (c.toNat - 0x10000) / 0x400),
        UInt8.ofNat (0xdc00 + (c.toNat - 0x10000) % 0x400)]

/-- `head`: the request line and the headers. -/
def requestHead (request : KpsHttpRequest) (headers : List String) : String :=
  let bodyLength := (request.body.getD []).length
  let length := if bodyLength > 0 || bodyMethods.contains request.method then
    ["Content-Length: " ++ toString bodyLength] else []
  let lines := [request.method ++ " " ++ request.path ++ " HTTP/1.1",
    "Host: " ++ request.certhash] ++ headers ++ length
  "\r\n".intercalate lines ++ "\r\n\r\n"

/-- `encodeKpsHttpRequest`. -/
def encodeKpsHttpRequest (request : KpsHttpRequest) : Except Thrown Bytes :=
  let body := request.body.getD []
  if !isToken request.method then
    .error (protocolError "KPS-HTTP/1 request method is not an HTTP token")
  else if !isToken request.certhash then
    .error (protocolError "KPS-HTTP/1 Host value (certhash) is not a valid token")
  else if (request.method == "GET" || request.method == "HEAD") && body.length > 0 then
    .error (protocolError
      ("KPS-HTTP/1 " ++ request.method ++ " requests must not carry a body"))
  else do
    let headers ← request.headers.mapM headerLine
    return charCodes (requestHead request headers) ++ body

/-- `SPHINX_PACKET_SIZE`. -/
def sphinxPacketSize : ℕ := 32768

/-- The request of `postPacket`. -/
def packetRequest (certhash : String) (packet : Bytes) : KpsHttpRequest where
  method := "POST"
  path := "/api/v1/packets"
  certhash := certhash
  headers := [("Content-Type", "application/octet-stream")]
  body := some packet

theorem encodeKpsHttpRequest_ne_nil {request : KpsHttpRequest} {bytes : Bytes}
    (hbody : ∃ b ∈ request.body, b ≠ []) (h : encodeKpsHttpRequest request = .ok bytes) :
    bytes ≠ [] := by
  obtain ⟨body, hbody, hne⟩ := hbody
  rw [encodeKpsHttpRequest] at h
  split_ifs at h
  obtain ⟨headers, -, h⟩ := bind_eq_ok_iff.mp h
  obtain rfl := Except.ok.inj h
  intro hnil
  have htail := (List.append_eq_nil_iff.mp hnil).2
  rw [hbody] at htail
  exact hne htail

theorem headerLine_contentType : headerLine ("Content-Type", "application/octet-stream")
    = .ok "Content-Type: application/octet-stream" := by
  decide +kernel

/-- The request of a packet to an entry whose certificate hash is a token. -/
theorem exists_packetRequest {certhash : String} (packet : Bytes) (h : isToken certhash = true) :
    ∃ request, encodeKpsHttpRequest (packetRequest certhash packet) = .ok request := by
  have hmethod : isToken "POST" = true := by decide +kernel
  have hget : ("POST" == "GET" || "POST" == "HEAD") = false := by decide
  refine ⟨charCodes (requestHead (packetRequest certhash packet)
    ["Content-Type: application/octet-stream"]) ++ packet, ?_⟩
  rw [encodeKpsHttpRequest]
  simp only [packetRequest, hmethod, h, hget, Bool.not_true, Bool.false_and, Bool.false_eq_true,
    if_false, List.mapM_cons, List.mapM_nil, headerLine_contentType, ok_bind, pure_eq_ok,
    Option.getD_some]

/-! ### The exchange -/

/-- How an exchange ends: with a response, and whether its status is a success, or with an error. -/
inductive ExchangeOutcome
  | responded (ok : Bool)
  | failed (error : ErrorChain)
  deriving DecidableEq

/-- An exchange of one packet; `request` is missing when it was refused before the dial. -/
structure Exchange where
  request : Option Bytes
  phase : KpsFailurePhase
  written : ℕ
  outcome : Option ExchangeOutcome
  deriving DecidableEq

/-- `failure`: the error of an exchange that failed in a phase. -/
def phaseError (phase : KpsFailurePhase) (kpsCode : KpsErrorCode) : ErrorChain :=
  let finalPhase :=
    if phase = .read ∧ (kpsCode = .protocolError ∨ kpsCode = .tooLarge) then .parse else phase
  [⟨some .transportFailed, none⟩, ⟨none, some finalPhase⟩]

/-- The start of `postPacket`: a packet of the wrong size, or a request that cannot be encoded, is
refused. -/
def startExchange (certhash : String) (packet : Bytes) : Exchange :=
  if packet.length ≠ sphinxPacketSize then
    ⟨none, .dial, 0, some (.failed (errorOf .packetBuildFailed))⟩
  else
    match encodeKpsHttpRequest (packetRequest certhash packet) with
    | .error _ => ⟨none, .dial, 0, some (.failed [⟨some .transportFailed, none⟩, ⟨none, none⟩])⟩
    | .ok request => ⟨some request, .dial, 0, none⟩

/-- What happens to an exchange. -/
inductive ExchangeEvent
  /-- The connection is there. -/
  | connected
  /-- A slot is acquired and the stream is open. -/
  | opened
  /-- The stream took bytes of the request. -/
  | wrote (count : ℕ)
  /-- All writes are done and the writable is closed. -/
  | closedWrite
  /-- The response is read. -/
  | responded (ok : Bool)
  /-- The transport throws or ends the exchange. -/
  | fails (kpsCode : KpsErrorCode)
  /-- The signal of `postPacket` is aborted. -/
  | aborts

namespace Exchange

/-- The request is written. -/
def sent (exchange : Exchange) : Bool := exchange.request.any fun request =>
  exchange.written == request.length

/-- `request` from the dial on. Writes that were queued may end after the exchange has failed. -/
def step (exchange : Exchange) : ExchangeEvent → Option Exchange
  | .connected =>
    if exchange.outcome = none ∧ exchange.phase = .dial then
      some { exchange with phase := .open_ } else none
  | .opened =>
    if exchange.outcome = none ∧ exchange.phase = .open_ then
      some { exchange with phase := .write } else none
  | .wrote count =>
    if exchange.phase = .write ∧ exchange.request.any fun request =>
        exchange.written + count ≤ request.length then
      some { exchange with written := exchange.written + count } else none
  | .closedWrite =>
    if exchange.outcome = none ∧ exchange.phase = .write ∧ exchange.sent then
      some { exchange with phase := .read } else none
  | .responded ok =>
    if exchange.outcome = none ∧ exchange.phase = .read then
      some { exchange with outcome := some (.responded ok) } else none
  | .fails kpsCode =>
    if exchange.outcome = none then
      some { exchange with outcome := some (.failed (phaseError exchange.phase kpsCode)) } else none
  | .aborts =>
    if exchange.outcome = none then
      some { exchange with outcome := some (.failed [⟨none, none⟩]) } else none

/-- The error of `postPacket`: it wraps what the exchange throws. -/
def postError (exchange : Exchange) : Option ErrorChain :=
  match exchange.outcome with
  | some (.responded false) => some (errorOf .transportFailed)
  | some (.failed error) =>
    if exchange.request = none then some error else some (⟨some .transportFailed, none⟩ :: error)
  | _ => none

/-- The exchange failed before its stream was open. -/
def FailedUnsent (exchange : Exchange) : Prop :=
  (∃ error, exchange.outcome = some (.failed error)) ∧
    (exchange.phase = .dial ∨ exchange.phase = .open_)

/-! ### What holds of an exchange -/

/-- In the phases `dial` and `open` nothing is written, and a failure that names one of them
happened in it. -/
structure Consistent (exchange : Exchange) : Prop where
  request : ∀ request ∈ exchange.request, request ≠ []
  unwritten : exchange.phase = .dial ∨ exchange.phase = .open_ → exchange.written = 0
  failed : ∀ error, exchange.outcome = some (.failed error) → notSent error = true →
    exchange.phase = .dial ∨ exchange.phase = .open_

theorem consistent_startExchange (certhash : String) (packet : Bytes) :
    (startExchange certhash packet).Consistent := by
  rw [startExchange]
  split_ifs with hsize
  · exact ⟨nofun, fun _ => rfl, fun _ _ _ => .inl rfl⟩
  · split
    · exact ⟨nofun, fun _ => rfl, fun _ _ _ => .inl rfl⟩
    next request hrequest =>
      refine ⟨?_, fun _ => rfl, nofun⟩
      intro bytes hbytes
      obtain rfl : request = bytes := Option.some.inj hbytes
      refine encodeKpsHttpRequest_ne_nil ⟨packet, rfl, ?_⟩ hrequest
      rintro rfl
      exact hsize (by decide)

/-- The phase in the error of `failure` is the phase of the exchange, if it is an early one. -/
theorem notSent_phaseError {phase : KpsFailurePhase} {kpsCode : KpsErrorCode}
    (h : notSent (phaseError phase kpsCode) = true) : phase = .dial ∨ phase = .open_ := by
  cases phase with
  | dial => exact .inl rfl
  | open_ => exact .inr rfl
  | write => revert h; cases kpsCode <;> decide
  | read => revert h; cases kpsCode <;> decide
  | parse => revert h; cases kpsCode <;> decide

/-- A phase seen through a wrapper is the phase of the error wrapped. -/
theorem notSent_of_wrapped {code : Option NoxClientErrorCode} {error : ErrorChain}
    (h : notSent (⟨code, none⟩ :: error) = true) : notSent error = true := by
  have hphase : ∀ phase, kpsFailurePhase (⟨code, none⟩ :: error) = some phase →
      kpsFailurePhase error = some phase := by
    intro phase hphase
    have hthree : (error.take 3).findSome? ErrorLink.phase = some phase := hphase
    rw [kpsFailurePhase, List.take_add_one, List.findSome?_append, hthree]
    rfl
  rw [notSent, Bool.or_eq_true, beq_iff_eq, beq_iff_eq] at h ⊢
  exact h.imp (hphase _) (hphase _)

variable {exchange next : Exchange} {event : ExchangeEvent}

theorem Consistent.step (h : exchange.Consistent) (hstep : exchange.step event = some next) :
    next.Consistent := by
  cases event with
  | connected =>
    rw [Exchange.step] at hstep
    split_ifs at hstep with hguard
    obtain rfl := Option.some.inj hstep
    refine ⟨h.request, fun _ => h.unwritten (.inl hguard.2), fun error herror _ => ?_⟩
    rw [hguard.1] at herror
    cases herror
  | opened =>
    rw [Exchange.step] at hstep
    split_ifs at hstep with hguard
    obtain rfl := Option.some.inj hstep
    refine ⟨h.request, nofun, fun error herror _ => ?_⟩
    rw [hguard.1] at herror
    cases herror
  | wrote count =>
    rw [Exchange.step] at hstep
    split_ifs at hstep with hguard
    obtain rfl := Option.some.inj hstep
    -- bytes are written in the phase after the stream was opened only
    refine ⟨h.request, fun hearly => ?_, h.failed⟩
    rw [hguard.1] at hearly
    rcases hearly with hdial | hopen
    · cases hdial
    · cases hopen
  | closedWrite =>
    rw [Exchange.step] at hstep
    split_ifs at hstep with hguard
    obtain rfl := Option.some.inj hstep
    refine ⟨h.request, nofun, fun error herror _ => ?_⟩
    rw [hguard.1] at herror
    cases herror
  | responded ok =>
    rw [Exchange.step] at hstep
    split_ifs at hstep with hguard
    obtain rfl := Option.some.inj hstep
    exact ⟨h.request, h.unwritten, nofun⟩
  | fails kpsCode =>
    rw [Exchange.step] at hstep
    split_ifs at hstep with hguard
    obtain rfl := Option.some.inj hstep
    refine ⟨h.request, h.unwritten, fun error herror hunsent => ?_⟩
    obtain rfl := ExchangeOutcome.failed.inj (Option.some.inj herror)
    exact notSent_phaseError hunsent
  | aborts =>
    rw [Exchange.step] at hstep
    split_ifs at hstep with hguard
    obtain rfl := Option.some.inj hstep
    refine ⟨h.request, h.unwritten, fun error herror hunsent => ?_⟩
    obtain rfl := ExchangeOutcome.failed.inj (Option.some.inj herror)
    exact absurd hunsent (by decide)

/-- A failure is final, and so is the phase `dial` or `open` it happened in. -/
theorem FailedUnsent.step (h : exchange.FailedUnsent) (hstep : exchange.step event = some next) :
    next.FailedUnsent := by
  obtain ⟨⟨error, herror⟩, hphase⟩ := h
  have hended : exchange.outcome ≠ none := by simp [herror]
  have hnot_write : exchange.phase ≠ .write := by
    rintro hwrite
    rw [hwrite] at hphase
    rcases hphase with hdial | hopen
    · cases hdial
    · cases hopen
  cases event <;> rw [Exchange.step] at hstep <;> split_ifs at hstep with hguard
  · exact absurd hguard.1 hended
  · exact absurd hguard.1 hended
  · exact absurd hguard.1 hnot_write
  · exact absurd hguard.1 hended
  · exact absurd hguard.1 hended
  · exact absurd hguard hended
  · exact absurd hguard hended

/-- An exchange that failed unsent has written nothing of its request. -/
theorem FailedUnsent.not_sent (h : exchange.FailedUnsent) (hconsistent : exchange.Consistent) :
    exchange.written = 0 ∧ exchange.sent = false := by
  have hwritten := hconsistent.unwritten h.2
  refine ⟨hwritten, ?_⟩
  rw [sent, hwritten]
  cases hrequest : exchange.request with
  | none => rfl
  | some request =>
    have hpos := List.length_pos_iff.mpr (hconsistent.request request hrequest)
    simp only [Option.any_some, beq_eq_false_iff_ne]
    omega

/-- The error of a failed upload names the phase `dial` or `open` only when the exchange failed in
it. -/
theorem failedUnsent_of_notSent (h : exchange.Consistent) {error : ErrorChain}
    (herror : exchange.postError = some error)
    (hunsent : notSent (⟨some .transportFailed, none⟩ :: error) = true) :
    exchange.FailedUnsent := by
  have hunsent := notSent_of_wrapped hunsent
  rw [postError] at herror
  split at herror
  · obtain rfl := Option.some.inj herror
    exact absurd hunsent (by decide)
  next failure houtcome =>
    have hfailure : notSent failure = true := by
      split_ifs at herror <;> obtain rfl := Option.some.inj herror
      · exact hunsent
      · exact notSent_of_wrapped hunsent
    exact ⟨⟨failure, houtcome⟩, h.failed failure houtcome hfailure⟩
  · cases herror

end Exchange

end NoxSdk.Client
