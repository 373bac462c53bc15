import NoxSdk.Tls.Deliveries
import NoxSdk.Tls.ExchangeRuns
import NoxSdk.Tls.Messages

/-!
# A request over a TLS session

`TlsChannel.request` writes an HTTP request into the session and runs exchanges of the tunnel until
the parser has a response. What the tunnel delivers goes through `onBytes` into the session, and
what comes out of it into the parser. The exit decides which parts come, in which order, and when
the stream ends. Whatever it does, a request resolves only with a complete message of the server
(`request_complete`).

The session is a parameter. `Authentic` says what is relied on: what comes out of it is the
plaintext of the server from its start, and `close_notify` is reported only behind all of it.
-/

namespace NoxSdk.Tls

open NoxSdk.Lib NoxSdk.Bincode

/-- `TlsSessionLike`, as far as a request uses it. -/
structure TlsSession (S : Type) where
  pushIncoming : S → Bytes → Except Thrown S
  takePlaintext : S → Bytes × S
  closeNotifyReceived : S → Bool
  pushTransportEof : S → Except Thrown S
  wantsWrite : S → Bool
  takeOutgoing : S → Except Thrown (Bytes × S)
  writePlaintext : S → Bytes → Except Thrown S

/-- The session gives out what is left of the server's plaintext, in order and nothing else, and
reports `close_notify` only when all that is left can be taken. -/
structure TlsSession.Authentic {S : Type} (tls : TlsSession S) (left : S → Bytes → Prop) :
    Prop where
  pushIncoming : ∀ {s s' bytes rest}, tls.pushIncoming s bytes = .ok s' → left s rest → left s' rest
  pushTransportEof : ∀ {s s' rest}, tls.pushTransportEof s = .ok s' → left s rest → left s' rest
  takeOutgoing : ∀ {s s' data rest}, tls.takeOutgoing s = .ok (data, s') → left s rest →
    left s' rest
  writePlaintext : ∀ {s s' data rest}, tls.writePlaintext s data = .ok s' → left s rest →
    left s' rest
  takePlaintext : ∀ {s rest}, left s rest → ∃ more, rest = (tls.takePlaintext s).1 ++ more ∧
    left (tls.takePlaintext s).2 more
  takePlaintext_again : ∀ s, (tls.takePlaintext (tls.takePlaintext s).2).1 = []
  closeNotify : ∀ {s rest}, tls.closeNotifyReceived s = true → left s rest →
    rest = (tls.takePlaintext s).1
  closeNotify_pushIncoming : ∀ {s s' bytes}, tls.pushIncoming s bytes = .ok s' →
    tls.closeNotifyReceived s = true → tls.closeNotifyReceived s' = true
  closeNotify_pushTransportEof : ∀ {s s'}, tls.pushTransportEof s = .ok s' →
    tls.closeNotifyReceived s = true → tls.closeNotifyReceived s' = true
  closeNotify_takePlaintext : ∀ s, tls.closeNotifyReceived s = true →
    tls.closeNotifyReceived (tls.takePlaintext s).2 = true

/-- The message of an error. -/
def TlsError.message : TlsError → String
  | httpRequest reason => s!"HTTP request rejected before sending: {reason}"
  | httpResponse reason => s!"HTTP response malformed: {reason}"
  | httpTooLarge part limit => s!"HTTP response {part} exceeds the {limit}-byte limit"
  | httpTruncated reason => s!"HTTP response truncated: the connection ended {reason}"

/-- What a request rejects with. -/
inductive ChannelError
  | session (error : Thrown)
  | parser (error : TlsError)
  | protocol (message : String)
  | tunnel (error : TunnelError)
  deriving DecidableEq

/-- `RequestSpec`. -/
structure RequestSpec (usizeMax : ℕ) where
  http : Bytes
  headRequest : Bool
  limits : HttpLimits usizeMax
  surbs : ℕ
  deadlineAt : ℕ
  background : Bool

/-- The spec of an exchange of the request, on a signal that may have been aborted by then. -/
def RequestSpec.exchange {usizeMax : ℕ} (spec : RequestSpec usizeMax) (data : Bytes)
    (signal : AbortSignal) : ExchangeSpec where
  data
  surbs := spec.surbs
  close := false
  deadlineAt := spec.deadlineAt
  background := spec.background
  signal
  openTimeoutMs := none

/-- The fields of a `TlsChannel` that a request changes; `parser` is that of the request. -/
structure TlsChannel (S : Type) where
  session : S
  parser : ResponseParser
  parserDone : Bool
  keepAlive : Bool
  calls : ℕ

/-- An exchange of a request: the channel and what the tunnel had delivered when it started, and
how it stands. -/
structure ChannelTurn (S : Type) where
  channel : TlsChannel S
  before : List Bytes
  seq : ℕ
  spec : ExchangeSpec
  exchange : Exchange

/-- A request: between the start of an exchange and what `request` does once it is settled, or
after its end. -/
inductive RequestRun (S : Type)
  | exchanging (turn : ChannelTurn S)
  | resolved (channel : TlsChannel S) (response : HttpResponse)
  | rejected (error : ChannelError)

/-- What happens to a request. -/
inductive TurnEvent
  | exchange (event : ExchangeEvent)
  | settled (signal : AbortSignal) (env : ExchangeEnv)

namespace TlsChannel

variable {S : Type} {usizeMax : ℕ} (tls : TlsSession S) (httparse : HeadParser)
  (spec : RequestSpec usizeMax) (tunnel : Tunnel)

/-- `feedParser`. -/
def feedParser (channel : TlsChannel S) (plaintext : Bytes) :
    Except ChannelError (TlsChannel S) :=
  if plaintext.length = 0 then .ok channel
  else if channel.parserDone then
    .error (.protocol
      s!"The upstream sent {plaintext.length} bytes with no request outstanding")
  else do
    let parser ← (channel.parser.push httparse spec.limits spec.headRequest plaintext).mapError
      .parser
    return { channel with parser := parser, parserDone := decide (parser.state = .done) }

/-- `finishOnClose` of the parser. -/
def finishParser (closeNotify : Bool) (channel : TlsChannel S) :
    Except ChannelError (TlsChannel S) := do
  let parser ← (channel.parser.finishOnClose spec.limits closeNotify).mapError .parser
  return { channel with parser := parser, parserDone := true }

/-- The plaintext that can be taken is fed to the parser. -/
def feedPlaintext (channel : TlsChannel S) (session : S) : Except ChannelError (TlsChannel S) :=
  feedParser httparse spec { channel with session := (tls.takePlaintext session).2 }
    (tls.takePlaintext session).1

/-- `onBytes`. -/
def onBytes (channel : TlsChannel S) (bytes : Bytes) : Except ChannelError (TlsChannel S) := do
  let session ← (tls.pushIncoming channel.session bytes).mapError .session
  let channel ← channel.feedPlaintext tls httparse spec session
  if tls.closeNotifyReceived channel.session && !channel.parserDone then
    channel.finishParser spec true
  else return channel

/-- `deliver` of the tunnel, for a channel as it was when so much had been delivered. -/
def deliver (channel : TlsChannel S) (before : List Bytes) : Deliver := fun delivered bytes =>
  match (delivered.drop before.length ++ [bytes]).foldlM (onBytes tls httparse spec) channel with
  | .ok _ => .ok ()
  | .error (.session error) => .error error
  | .error (.parser error) => .error (.error error.message)
  | .error (.protocol message) => .error (.error message)
  | .error (.tunnel error) => .error (.error error.message)

/-- `satisfied`. -/
def satisfied (channel : TlsChannel S) : Bool :=
  channel.parserDone || tls.wantsWrite channel.session

/-- What `request` does when the stream has ended. -/
def onEof (channel : TlsChannel S) : Except ChannelError (TlsChannel S) := do
  let session ← (tls.pushTransportEof channel.session).mapError .session
  let channel := { channel with keepAlive := false }
  let channel ← channel.feedPlaintext tls httparse spec session
  if channel.parserDone then return channel
  else channel.finishParser spec (tls.closeNotifyReceived channel.session)

/-- The end of `request`. -/
def finish (channel : TlsChannel S) : RequestRun S :=
  match channel.parser.takeResponse with
  | some response =>
    .resolved { channel with keepAlive := channel.keepAlive && response.keepAlive } response
  | none => .rejected (.protocol "The HTTP parser finished without a response")

/-- The tunnel as the exchange has it. -/
def tunnelOf (channel : TlsChannel S) (before : List Bytes) : Tunnel :=
  { tunnel with deliver := channel.deliver tls httparse spec before }

/-- The next exchange, on the stream that the one before left. -/
def startTurn (channel : TlsChannel S) (seq : ℕ) (stream : Downstream) (signal : AbortSignal)
    (env : ExchangeEnv) : RequestRun S :=
  match tls.takeOutgoing channel.session with
  | .ok (data, session) =>
    let channel := { channel with session := session }
    let exchange := Exchange.start (channel.tunnelOf tls httparse spec tunnel stream.delivered)
      (spec.exchange data signal) seq env stream
    .exchanging ⟨channel, stream.delivered, seq, spec.exchange data signal, exchange⟩
  | .error error => .rejected (.session error)

/-- `request`, up to its first exchange. -/
def request (channel : TlsChannel S) (seq : ℕ) (stream : Downstream) (signal : AbortSignal)
    (env : ExchangeEnv) : RequestRun S :=
  match tls.writePlaintext channel.session spec.http with
  | .ok session =>
    let channel := { channel with
      session := session
      parser := .new
      parserDone := false
      calls := channel.calls + 1 }
    channel.startTurn tls httparse spec tunnel seq stream signal env
  | .error error => .rejected (.session error)

/-- The channel once the exchange has delivered this stream. -/
def channelAt (turn : ChannelTurn S) (stream : Downstream) : TlsChannel S :=
  match (stream.delivered.drop turn.before.length).foldlM (onBytes tls httparse spec)
    turn.channel with
  | .ok channel => channel
  | .error _ => turn.channel

/-- A part with what `satisfied` says of the channel behind its delivery; what is delivered does
not depend on it (`Exchange.onPart_stream`). -/
def answered (turn : ChannelTurn S) : ExchangeEvent → ExchangeEvent
  | .part body _ env =>
    let stream := (turn.exchange.onPart (turn.channel.tunnelOf tls httparse spec tunnel turn.before)
      turn.spec turn.seq env body false).1.stream
    .part body ((channelAt tls httparse spec turn stream).satisfied tls) env
  | event => event

/-- One event of an exchange. -/
def turnStep (turn : ChannelTurn S) (event : ExchangeEvent) : Option (ChannelTurn S) :=
  (exchangeStep (turn.channel.tunnelOf tls httparse spec tunnel turn.before) turn.spec turn.seq
    turn.exchange (answered tls httparse spec tunnel turn event)).map fun exchange =>
      { turn with exchange }

/-- What `request` does with an exchange that is settled. -/
def afterTurn (turn : ChannelTurn S) (outcome : Except TunnelError ExchangeOutcome)
    (signal : AbortSignal) (env : ExchangeEnv) : RequestRun S :=
  let channel := channelAt tls httparse spec turn turn.exchange.stream
  match outcome with
  | .error error => .rejected (.tunnel error)
  | .ok .satisfied =>
    if channel.parserDone then channel.finish
    else channel.startTurn tls httparse spec tunnel (turn.seq + 1) turn.exchange.stream signal env
  | .ok .eof =>
    match channel.onEof tls httparse spec with
    | .ok channel => channel.finish
    | .error error => .rejected error

/-- One event of a request; a settled exchange is heard of once. -/
def requestStep (run : RequestRun S) (event : TurnEvent) : Option (RequestRun S) :=
  match run, event with
  | .exchanging turn, .exchange event =>
    (turnStep tls httparse spec tunnel turn event).map .exchanging
  | .exchanging turn, .settled signal env => turn.exchange.outcomes.head?.map fun outcome =>
    afterTurn tls httparse spec tunnel turn outcome signal env
  | _, _ => none

/-! ### What the parser has read -/

section Parser

open ResponseParser

variable {httparse : HeadParser} {limits : HttpLimits usizeMax} {headRequest : Bool}
  {taken data : Bytes} {p q : ResponseParser}

/-- The parser has been pushed these bytes, in some pieces. -/
def HasRead (httparse : HeadParser) (limits : HttpLimits usizeMax) (headRequest : Bool)
    (p : ResponseParser) (taken : Bytes) : Prop :=
  (taken = [] ∧ p = .new) ∨ (ResponseParser.new.feed taken).run httparse limits headRequest = .ok p

/-- A push goes on with the run over the bytes that were taken before. -/
theorem HasRead.push (h : HasRead httparse limits headRequest p taken)
    (hpush : p.push httparse limits headRequest data = .ok q) :
    (ResponseParser.new.feed (taken ++ data)).run httparse limits headRequest = .ok q := by
  rcases h with ⟨rfl, rfl⟩ | h
  · exact (push_ok_iff clean_new).mp hpush
  · have hrun := (push_ok_iff (clean_of_run (run_run h))).mp hpush
    rw [← feed_feed, ((run_feed _ data).1 p h).1, hrun]

/-- What has been read is within the limits. -/
theorem HasRead.fits (h : HasRead httparse limits headRequest p taken) : Fits limits p := by
  rcases h with ⟨-, rfl⟩ | h
  · exact fits_new
  · have hstart : Fits limits (ResponseParser.new.feed taken) := fits_new
    exact hstart.run h

/-- A parser that is done has read a message that ends by itself. -/
theorem HasRead.message (h : HasRead httparse limits headRequest p taken)
    (hdone : p.state = .done) : ∃ framing, framing ≠ some .untilClose ∧
      Message httparse limits headRequest framing taken p.response := by
  rcases h with ⟨-, rfl⟩ | h
  · cases hdone
  · obtain ⟨framing, hframed, hmessage⟩ := run_message h (.inl hdone)
    rcases hframed with ⟨-, hne⟩ | ⟨⟨_, hbody⟩, -⟩
    · exact ⟨framing, hne, hmessage⟩
    · cases hdone.symm.trans hbody

/-- The end of the connection makes a response of a close-delimited body alone, and only behind
`close_notify`. -/
theorem HasRead.finishOnClose {closeNotify : Bool}
    (h : HasRead httparse limits headRequest p taken) (hopen : p.state ≠ .done)
    (hfinish : p.finishOnClose limits closeNotify = .ok q) :
    closeNotify = true ∧ q.state = .done ∧ Fits limits q ∧
      Message httparse limits headRequest (some .untilClose) taken q.response := by
  rw [ResponseParser.finishOnClose] at hfinish
  split at hfinish
  · rename_i hdone
    exact absurd hdone hopen
  · rename_i chunk hbody
    split_ifs at hfinish with hnotify
    rcases h with ⟨-, rfl⟩ | h
    · cases hbody
    have hfits : Fits limits p := HasRead.fits (.inr h)
    obtain ⟨framing, hframed, hmessage⟩ := run_message h (.inr ⟨chunk, hbody⟩)
    rcases hframed with ⟨hdone, -⟩ | ⟨-, hnil, rfl⟩
    · exact absurd hdone hopen
    obtain ⟨p', happend, hret⟩ := bind_eq_ok_iff.mp hfinish
    obtain rfl := Except.ok.inj hret
    -- the run has taken all there was, so nothing is left to append
    have hsame : ({ p with buf := [] } : ResponseParser).appendBody limits p.buf = .ok p := by
      rw [hnil, appendBody, List.append_nil]
      exact (if_neg (Bool.eq_false_iff.mp hfits)).trans (by rw [← hnil])
    obtain rfl := Except.ok.inj (happend.symm.trans hsame)
    have hresponse : ({ p'.response with keepAlive := false } : HttpResponse) = p'.response := by
      rw [← hmessage.keepAlive_untilClose rfl]
    refine ⟨hnotify, rfl, hfits, ?_⟩
    exact hresponse ▸ hmessage
  · cases hfinish
  · cases hfinish

end Parser

/-! ### What a request keeps -/

section Requests

open ResponseParser

variable {tls : TlsSession S} {left : S → Bytes → Prop} {httparse : HeadParser}
  {spec : RequestSpec usizeMax} {server : Bytes} {channel channel' : TlsChannel S}

/-- The response is a message at the front of what the server sends, or all of it when only the
end of the connection ends it, and `close_notify` was received. -/
def Complete (tls : TlsSession S) (httparse : HeadParser) (spec : RequestSpec usizeMax)
    (server : Bytes) (session : S) (r : HttpResponse) : Prop :=
  (∃ message rest framing, server = message ++ rest ∧ framing ≠ some .untilClose ∧
      Message httparse spec.limits spec.headRequest framing message r) ∨
    (Message httparse spec.limits spec.headRequest (some .untilClose) server r ∧
      tls.closeNotifyReceived session = true)

/-- The session holds what is left, and the parser has read the rest of what the server sends. -/
structure Reading (left : S → Bytes → Prop) (httparse : HeadParser) (spec : RequestSpec usizeMax)
    (server : Bytes) (channel : TlsChannel S) : Prop where
  taken : ∃ taken rest, server = taken ++ rest ∧ left channel.session rest ∧
    HasRead httparse spec.limits spec.headRequest channel.parser taken
  opened : channel.parser.state ≠ .done

/-- The parser has a response. -/
structure Done (tls : TlsSession S) (httparse : HeadParser) (spec : RequestSpec usizeMax)
    (server : Bytes) (channel : TlsChannel S) : Prop where
  complete : Complete tls httparse spec server channel.session channel.parser.response
  done : channel.parser.state = .done
  fits : Fits spec.limits channel.parser

/-- What holds while the request is under way. -/
def Kept (tls : TlsSession S) (left : S → Bytes → Prop) (httparse : HeadParser)
    (spec : RequestSpec usizeMax) (server : Bytes) (channel : TlsChannel S) : Prop :=
  if channel.parserDone then Done tls httparse spec server channel
  else Reading left httparse spec server channel

/-- A response stays complete when the session learns of its end. -/
theorem Complete.mono {s s' : S} {r : HttpResponse} (h : Complete tls httparse spec server s r)
    (hnotify : tls.closeNotifyReceived s = true → tls.closeNotifyReceived s' = true) :
    Complete tls httparse spec server s' r :=
  h.imp_right fun ⟨hmessage, hreceived⟩ => ⟨hmessage, hnotify hreceived⟩

/-- Renaming the error leaves a value as it is. -/
theorem mapError_eq_ok {ε ε' α : Type} {f : ε → ε'} {x : Except ε α} {a : α}
    (h : x.mapError f = .ok a) : x = .ok a := by
  cases x with
  | error e => cases h
  | ok b => exact congrArg Except.ok (Except.ok.inj h)

/-- Plaintext that is taken goes to the parser, and nothing else does. -/
theorem Reading.feedPlaintext (htls : tls.Authentic left) {session : S}
    (h : Reading left httparse spec server { channel with session := session })
    (hopen : channel.parserDone = false)
    (hfeed : channel.feedPlaintext tls httparse spec session = .ok channel') :
    channel'.session = (tls.takePlaintext session).2 ∧
      Kept tls left httparse spec server channel' := by
  obtain ⟨⟨taken, rest, hserver, hleft, hread⟩, hstate⟩ := h
  obtain ⟨more, hrest, hmore⟩ := htls.takePlaintext hleft
  rw [TlsChannel.feedPlaintext, feedParser] at hfeed
  split_ifs at hfeed with hnil hdone
  · obtain rfl := Except.ok.inj hfeed
    refine ⟨rfl, ?_⟩
    rw [List.length_eq_zero_iff.mp hnil, List.nil_append] at hrest
    rw [Kept, if_neg (by simpa using hopen)]
    exact ⟨⟨taken, more, hrest ▸ hserver, hmore, hread⟩, hstate⟩
  · obtain ⟨parser, hpush, hret⟩ := bind_eq_ok_iff.mp hfeed
    obtain rfl := Except.ok.inj hret
    refine ⟨rfl, ?_⟩
    have hread' := HasRead.push hread (mapError_eq_ok hpush)
    have hserver' : server = (taken ++ (tls.takePlaintext session).1) ++ more := by
      rw [hserver, hrest, List.append_assoc]
    rw [Kept]
    by_cases hend : parser.state = .done
    · rw [if_pos (decide_eq_true hend)]
      obtain ⟨framing, hne, hmessage⟩ := HasRead.message (.inr hread') hend
      exact ⟨.inl ⟨_, more, framing, hserver', hne, hmessage⟩, hend, HasRead.fits (.inr hread')⟩
    · rw [if_neg (by simpa using hend)]
      exact ⟨⟨_, more, hserver', hmore, .inr hread'⟩, hend⟩

/-- With a response, any more plaintext is an error. -/
theorem Done.feedPlaintext {session : S}
    (h : Done tls httparse spec server { channel with session := session })
    (htls : tls.Authentic left) (hdone : channel.parserDone = true)
    (hfeed : channel.feedPlaintext tls httparse spec session = .ok channel') :
    channel'.session = (tls.takePlaintext session).2 ∧
      Kept tls left httparse spec server channel' := by
  rw [TlsChannel.feedPlaintext, feedParser] at hfeed
  split_ifs at hfeed
  obtain rfl := Except.ok.inj hfeed
  refine ⟨rfl, ?_⟩
  rw [Kept, if_pos (by simpa using hdone)]
  exact ⟨h.complete.mono (htls.closeNotify_takePlaintext session), h.done, h.fits⟩

/-- The end of the connection completes a close-delimited body that was all taken. -/
theorem Reading.finishParser (htls : tls.Authentic left) {session : S}
    (h : Reading left httparse spec server channel)
    (hsession : channel.session = (tls.takePlaintext session).2) {closeNotify : Bool}
    (hnotify : closeNotify = true → tls.closeNotifyReceived channel.session = true)
    (hfinish : channel.finishParser spec closeNotify = .ok channel') :
    channel'.parserDone = true ∧ Done tls httparse spec server channel' := by
  obtain ⟨⟨taken, rest, hserver, hleft, hread⟩, hstate⟩ := h
  obtain ⟨parser, hparser, hret⟩ := bind_eq_ok_iff.mp hfinish
  obtain rfl := Except.ok.inj hret
  obtain ⟨hclose, hdone, hfits, hmessage⟩ :=
    HasRead.finishOnClose hread hstate (mapError_eq_ok hparser)
  have hreceived := hnotify hclose
  -- behind `close_notify` nothing is left but what can be taken, and that was taken
  have hnothing : rest = [] := by
    rw [htls.closeNotify hreceived hleft, hsession, htls.takePlaintext_again]
  rw [hnothing, List.append_nil] at hserver
  exact ⟨rfl, .inr ⟨hserver ▸ hmessage, hreceived⟩, hdone, hfits⟩

/-- The plaintext that a session gives is the next of what the server sends, so the parser stays at
a front of it. -/
theorem Kept.feedPlaintext (htls : tls.Authentic left) {session : S}
    (h : Kept tls left httparse spec server { channel with session := session })
    (hfeed : channel.feedPlaintext tls httparse spec session = .ok channel') :
    channel'.session = (tls.takePlaintext session).2 ∧
      Kept tls left httparse spec server channel' := by
  cases hdone : channel.parserDone with
  | true =>
    rw [Kept, if_pos hdone] at h
    exact h.feedPlaintext htls hdone hfeed
  | false =>
    rw [Kept, if_neg (by simpa using hdone)] at h
    exact h.feedPlaintext htls hdone hfeed

/-- A piece of the tunnel keeps the invariant, whatever of the plaintext it completes. -/
theorem Kept.onBytes (htls : tls.Authentic left) (h : Kept tls left httparse spec server channel)
    {bytes : Bytes} (hbytes : channel.onBytes tls httparse spec bytes = .ok channel') :
    Kept tls left httparse spec server channel' := by
  obtain ⟨session, hpush, hbytes⟩ := bind_eq_ok_iff.mp hbytes
  have hpushed := mapError_eq_ok hpush
  have hstart : Kept tls left httparse spec server { channel with session := session } := by
    rw [Kept] at h ⊢
    split_ifs at h ⊢
    · exact ⟨h.complete.mono (htls.closeNotify_pushIncoming hpushed), h.done, h.fits⟩
    · obtain ⟨⟨taken, rest, hserver, hleft, hread⟩, hstate⟩ := h
      exact ⟨⟨taken, rest, hserver, htls.pushIncoming hpushed hleft, hread⟩, hstate⟩
  obtain ⟨next, hfeed, hbytes⟩ := bind_eq_ok_iff.mp hbytes
  obtain ⟨hsession, hkept⟩ := hstart.feedPlaintext htls hfeed
  split_ifs at hbytes with hclose
  · rw [Bool.and_eq_true, Bool.not_eq_true'] at hclose
    rw [Kept, if_neg (by simpa using hclose.2)] at hkept
    obtain ⟨hdone, hcomplete⟩ :=
      hkept.finishParser htls hsession (fun _ => hclose.1) hbytes
    rw [Kept, if_pos hdone]
    exact hcomplete
  · exact Except.ok.inj hbytes ▸ hkept

/-- Pieces in turn keep it. -/
theorem Kept.pieces (htls : tls.Authentic left) {pieces : List Bytes}
    (h : Kept tls left httparse spec server channel)
    (hpieces : pieces.foldlM (TlsChannel.onBytes tls httparse spec) channel = .ok channel') :
    Kept tls left httparse spec server channel' := by
  induction pieces generalizing channel with
  | nil => exact Except.ok.inj hpieces ▸ h
  | cons piece pieces ih =>
    rw [List.foldlM_cons] at hpieces
    obtain ⟨next, hpiece, hrest⟩ := bind_eq_ok_iff.mp hpieces
    exact ih (h.onBytes htls hpiece) hrest

/-- At the end of the connection the parser has a response, and the session knows whether the end
was announced. -/
theorem Kept.onEof (htls : tls.Authentic left) (h : Kept tls left httparse spec server channel)
    (heof : channel.onEof tls httparse spec = .ok channel') :
    Done tls httparse spec server channel' := by
  obtain ⟨session, hpush, heof⟩ := bind_eq_ok_iff.mp heof
  have hpushed := mapError_eq_ok hpush
  obtain ⟨next, hfeed, heof⟩ := bind_eq_ok_iff.mp heof
  have hstart : Kept tls left httparse spec server
      { channel with keepAlive := false, session := session } := by
    rw [Kept] at h ⊢
    split_ifs at h ⊢
    · exact ⟨h.complete.mono (htls.closeNotify_pushTransportEof hpushed), h.done, h.fits⟩
    · obtain ⟨⟨taken, rest, hserver, hleft, hread⟩, hstate⟩ := h
      exact ⟨⟨taken, rest, hserver, htls.pushTransportEof hpushed hleft, hread⟩, hstate⟩
  obtain ⟨hsession, hkept⟩ := Kept.feedPlaintext htls hstart hfeed
  rw [Kept] at hkept
  split_ifs at heof hkept
  · exact Except.ok.inj heof ▸ hkept
  · exact (hkept.finishParser htls hsession id heof).2

/-! ### Runs of a request -/

/-- A delivery succeeds exactly when the pieces so far are taken one after the other. -/
theorem deliver_eq_ok_iff {before pieces : List Bytes} {bytes : Bytes} :
    channel.deliver tls httparse spec before (before ++ pieces) bytes = .ok () ↔ ∃ channel',
      (pieces ++ [bytes]).foldlM (TlsChannel.onBytes tls httparse spec) channel = .ok channel' := by
  rw [TlsChannel.deliver, List.drop_left]
  cases (pieces ++ [bytes]).foldlM (TlsChannel.onBytes tls httparse spec) channel with
  | ok channel' => exact iff_of_true rfl ⟨channel', rfl⟩
  | error error =>
    refine iff_of_false (fun hok => ?_) ?_
    · cases error <;> cases hok
    · rintro ⟨channel', hok⟩
      cases hok

/-- The channel of a turn is the one that its pieces led to. -/
theorem channelAt_eq {turn : ChannelTurn S} {stream : Downstream}
    (h : (stream.delivered.drop turn.before.length).foldlM (TlsChannel.onBytes tls httparse spec)
      turn.channel = .ok channel') : channelAt tls httparse spec turn stream = channel' := by
  rw [channelAt, h]

/-- What the tunnel delivered went through `onBytes` without an error. -/
theorem exists_channel_of_fed {before delivered : List Bytes}
    (h : Fed (channel.deliver tls httparse spec before) before delivered) :
    ∃ channel', (delivered.drop before.length).foldlM (TlsChannel.onBytes tls httparse spec)
      channel = .ok channel' := by
  suffices hsuffix : ∃ pieces, delivered = before ++ pieces ∧ ∃ channel',
      pieces.foldlM (TlsChannel.onBytes tls httparse spec) channel = .ok channel' by
    obtain ⟨pieces, rfl, hpieces⟩ := hsuffix
    rwa [List.drop_left]
  induction h with
  | refl => exact ⟨[], (List.append_nil _).symm, channel, rfl⟩
  | tail _ hnext ih =>
    obtain ⟨pieces, rfl, -⟩ := ih
    obtain ⟨bytes, htaken, rfl⟩ := hnext
    exact ⟨pieces ++ [bytes], List.append_assoc _ _ _, deliver_eq_ok_iff.mp htaken⟩

/-- An exchange of a request: the parser waits when it starts, and what is delivered goes to the
channel. -/
structure Running (tls : TlsSession S) (left : S → Bytes → Prop) (httparse : HeadParser)
    (spec : RequestSpec usizeMax) (tunnel : Tunnel) (server : Bytes) (turn : ChannelTurn S) :
    Prop where
  parserDone : turn.channel.parserDone = false
  reading : Reading left httparse spec server turn.channel
  fed : Fed (turn.channel.deliver tls httparse spec turn.before) turn.before
    turn.exchange.stream.delivered
  exchange : ∃ deadline budget, Exchange.Sound
    (turn.channel.tunnelOf tls httparse spec tunnel turn.before) turn.spec turn.seq deadline budget
    turn.exchange

/-- What is known of a request at any time. -/
def Sound (tls : TlsSession S) (left : S → Bytes → Prop) (httparse : HeadParser)
    (spec : RequestSpec usizeMax) (tunnel : Tunnel) (server : Bytes) : RequestRun S → Prop
  | .exchanging turn => Running tls left httparse spec tunnel server turn
  | .resolved channel r => r = channel.parser.response ∧ Done tls httparse spec server channel
  | .rejected _ => True

variable {tunnel : Tunnel} {turn turn' : ChannelTurn S} {run run' : RequestRun S}

/-- The channel of a turn in flight keeps the invariant, with what was delivered so far. -/
theorem Running.kept (htls : tls.Authentic left)
    (h : Running tls left httparse spec tunnel server turn) :
    Kept tls left httparse spec server
      (channelAt tls httparse spec turn turn.exchange.stream) := by
  obtain ⟨channel', hpieces⟩ := exists_channel_of_fed h.fed
  have hkept : Kept tls left httparse spec server turn.channel := by
    rw [Kept, if_neg (by simpa using h.parserDone)]
    exact h.reading
  rw [channelAt_eq hpieces]
  exact hkept.pieces htls hpieces

/-- An event of the exchange keeps the turn. -/
theorem Running.step (h : Running tls left httparse spec tunnel server turn)
    {event : ExchangeEvent} (hstep : turnStep tls httparse spec tunnel turn event = some turn') :
    Running tls left httparse spec tunnel server turn' := by
  obtain ⟨exchange, hexchange, rfl⟩ := Option.map_eq_some_iff.mp hstep
  obtain ⟨deadline, budget, hsound⟩ := h.exchange
  exact ⟨h.parserDone, h.reading, h.fed.trans (Exchange.fed_step hexchange), deadline, _,
    hsound.step hexchange⟩

/-- A channel whose parser is done resolves with its response. -/
theorem Done.finish (h : Done tls httparse spec server channel) :
    Sound tls left httparse spec tunnel server channel.finish := by
  have hresponse : channel.parser.takeResponse = some channel.parser.response := if_pos h.done
  rw [TlsChannel.finish, hresponse]
  exact ⟨rfl, h.complete, h.done, h.fits⟩

/-- The next exchange starts from the channel as the last one left it. -/
theorem Reading.startTurn (htls : tls.Authentic left)
    (h : Reading left httparse spec server channel) (hopen : channel.parserDone = false)
    {seq : ℕ} {stream : Downstream} {signal : AbortSignal} {env : ExchangeEnv} :
    Sound tls left httparse spec tunnel server
      (channel.startTurn tls httparse spec tunnel seq stream signal env) := by
  rw [TlsChannel.startTurn]
  split
  · rename_i data session houtgoing
    obtain ⟨⟨taken, rest, hserver, hleft, hread⟩, hstate⟩ := h
    refine ⟨hopen, ⟨⟨taken, rest, hserver, htls.takeOutgoing houtgoing hleft, hread⟩, hstate⟩, ?_,
      _, 0, Exchange.sound_start⟩
    dsimp only
    rw [Exchange.start_stream]
    exact .refl
  · trivial

/-- A request starts with an empty parser, at the front of what the server sends. -/
theorem Sound.request (htls : tls.Authentic left) (h : left channel.session server) {seq : ℕ}
    {stream : Downstream} {signal : AbortSignal} {env : ExchangeEnv} :
    Sound tls left httparse spec tunnel server
      (channel.request tls httparse spec tunnel seq stream signal env) := by
  rw [TlsChannel.request]
  split
  · rename_i session hwritten
    have hnew : ResponseParser.new.state ≠ .done := by decide
    refine Reading.startTurn htls ⟨⟨[], server, rfl, ?_, .inl ⟨rfl, rfl⟩⟩, hnew⟩ rfl
    exact htls.writePlaintext hwritten h
  · trivial

/-- A settled exchange ends the request, or goes on with the next one. -/
theorem Running.afterTurn (htls : tls.Authentic left)
    (h : Running tls left httparse spec tunnel server turn)
    (outcome : Except TunnelError ExchangeOutcome) (signal : AbortSignal) (env : ExchangeEnv) :
    Sound tls left httparse spec tunnel server
      (afterTurn tls httparse spec tunnel turn outcome signal env) := by
  have hkept := h.kept htls
  rcases outcome with error | (_ | _)
  · trivial
  · rw [TlsChannel.afterTurn]
    rw [Kept] at hkept
    split_ifs at hkept ⊢ with hdone
    · exact hkept.finish
    · exact hkept.startTurn htls (Bool.eq_false_iff.mpr hdone)
  · rw [TlsChannel.afterTurn]
    split
    · rename_i channel' heof
      exact (hkept.onEof htls heof).finish
    · trivial

/-- Each event of a request keeps the invariant. -/
theorem Sound.step (htls : tls.Authentic left) (h : Sound tls left httparse spec tunnel server run)
    {event : TurnEvent} (hstep : requestStep tls httparse spec tunnel run event = some run') :
    Sound tls left httparse spec tunnel server run' := by
  rcases run with turn | ⟨channel, response⟩ | error
  · rcases event with event | ⟨signal, env⟩
    · obtain ⟨turn', hturn, rfl⟩ := Option.map_eq_some_iff.mp hstep
      exact Running.step h hturn
    · obtain ⟨outcome, -, rfl⟩ := Option.map_eq_some_iff.mp hstep
      exact Running.afterTurn htls h outcome signal env
  · cases hstep
  · cases hstep

/-- The deadline makes an open exchange fail, and the request with it. -/
theorem Running.deadline (h : Running tls left httparse spec tunnel server turn)
    (hopen : turn.exchange.outcomes = []) (signal : AbortSignal) (env : ExchangeEnv) :
    runEvents (requestStep tls httparse spec tunnel) (.exchanging turn)
        [.exchange .deadline, .settled signal env] =
      some (.rejected (.tunnel (.timeout turn.seq turn.exchange.confirmed))) := by
  let timeout : TunnelError := .timeout turn.seq turn.exchange.confirmed
  obtain ⟨deadline, budget, hpending | hclosed⟩ := h.exchange
  · have hfinish : ({ turn.exchange with deadlineTimer := none } : Exchange).finish
        (.error timeout) =
      { turn.exchange with
        settled := true, silenceTimer := none, gapTimer := none, openTimer := none,
        deadlineTimer := none, abortListener := false,
        outcomes := turn.exchange.outcomes ++ [.error timeout] } :=
      if_neg hpending.not_settled
    have hdeadline : turnStep tls httparse spec tunnel turn .deadline =
        some { turn with
          exchange := ({ turn.exchange with deadlineTimer := none } : Exchange).finish
            (.error timeout) } := by
      rw [turnStep, answered, exchangeStep, hpending.deadlineTimer]
      · rfl
      · rintro body satisfied env ⟨⟩
    rw [hfinish, hopen] at hdeadline
    refine runEvents_cons.mpr ⟨_, congrArg (Option.map RequestRun.exchanging) hdeadline, ?_⟩
    exact runEvents_cons.mpr ⟨_, rfl, rfl⟩
  · cases hopen ▸ hclosed.outcomes

/-- **An exit cannot shorten a response.** Over a session that gives out the plaintext of the
server from its start and reports `close_notify` only behind all of it, and over every run of the
tunnel: a request that resolves has a complete message at the front of what the server sends, or a
close-delimited one that is all of it and that `close_notify` ended, with a body within the limit.
Otherwise it rejects: with the error of an exchange that fails, and by the deadline at the latest.
And bytes on which the parser has a response without `close_notify` are not the front of others.

The invariant follows the plaintext: what the session still holds is the rest of what the server
sends behind what the parser took (`Sound`). So a response of the parser is one at the front of it,
and the deadline is armed as long as the request is open (`Running.deadline`). -/
theorem request_complete (httparse : HeadParser) (spec : RequestSpec usizeMax) (tunnel : Tunnel)
    (htls : tls.Authentic left) (channel : TlsChannel S) (server : Bytes)
    (h : left channel.session server) (seq : ℕ) (stream : Downstream) (signal : AbortSignal)
    (env : ExchangeEnv) (run : RequestRun S)
    (hrun : Run (requestStep tls httparse spec tunnel)
      (channel.request tls httparse spec tunnel seq stream signal env) run) :
    (∀ channel' r, run = .resolved channel' r →
      Complete tls httparse spec server channel'.session r ∧
        min r.body.length usizeMax ≤ spec.limits.maxBodyBytes) ∧
    (∀ turn signal env, run = .exchanging turn →
      (∀ error, turn.exchange.outcomes.head? = some (.error error) →
        requestStep tls httparse spec tunnel run (.settled signal env) =
          some (.rejected (.tunnel error))) ∧
      (turn.exchange.outcomes = [] → runEvents (requestStep tls httparse spec tunnel) run
          [.exchange .deadline, .settled signal env] =
        some (.rejected (.tunnel (.timeout turn.seq turn.exchange.confirmed))))) ∧
    ∀ pieces pieces' more closeNotify, more ≠ [] → pieces'.flatten = pieces.flatten ++ more →
      (outcome httparse spec.limits spec.headRequest false pieces).isSome = true →
        outcome httparse spec.limits spec.headRequest closeNotify pieces' = none := by
  have hsound : Sound tls left httparse spec tunnel server run :=
    hrun.invariant (.request htls h) fun _ _ _ hbefore hstep => hbefore.step htls hstep
  refine ⟨?_, ?_, fun pieces pieces' more closeNotify hne hpieces hsome =>
    outcome_append_eq_none hsome hne hpieces⟩
  · rintro channel' r rfl
    obtain ⟨rfl, hdone⟩ := hsound
    exact ⟨hdone.complete, hdone.fits.min_le⟩
  · rintro turn signal env rfl
    refine ⟨fun error herror => ?_, fun hopen => Running.deadline hsound hopen signal env⟩
    rw [requestStep, herror]
    rfl

end Requests

/-! ### A request that resolves -/

/-- A session whose records are the plaintext itself: what is left to come, and what can be
taken. -/
private def plainTls : TlsSession (Bytes × Bytes) where
  pushIncoming session bytes :=
    .ok (session.1.drop bytes.length, session.2 ++ session.1.take bytes.length)
  takePlaintext session := (session.2, (session.1, []))
  closeNotifyReceived session := session.1.isEmpty
  pushTransportEof session := .ok session
  wantsWrite _ := false
  takeOutgoing session := .ok ([], session)
  writePlaintext session _ := .ok session

/-- The session of the sample hands on what it was fed, so it is authentic. -/
private theorem plainTls_authentic :
    plainTls.Authentic fun session rest => rest = session.2 ++ session.1 where
  pushIncoming h hleft := by
    obtain rfl := Except.ok.inj h
    rw [hleft, List.append_assoc, List.take_append_drop]
  pushTransportEof h hleft := by
    obtain rfl := Except.ok.inj h
    exact hleft
  takeOutgoing h hleft := by
    obtain ⟨-, rfl⟩ := Prod.mk.inj (Except.ok.inj h)
    exact hleft
  writePlaintext h hleft := by
    obtain rfl := Except.ok.inj h
    exact hleft
  takePlaintext hleft := ⟨_, hleft, rfl⟩
  takePlaintext_again _ := rfl
  closeNotify h hleft := by
    rw [hleft, List.isEmpty_iff.mp h, List.append_nil]
    rfl
  closeNotify_pushIncoming h hclosed := by
    obtain rfl := Except.ok.inj h
    have hnil := List.isEmpty_iff.mp hclosed
    simp [plainTls, hnil]
  closeNotify_pushTransportEof h hclosed := by
    obtain rfl := Except.ok.inj h
    exact hclosed
  closeNotify_takePlaintext _ h := h

/-- The head of a response whose body has two bytes. -/
private def plainHeadText : Bytes := Js.textEncode "HTTP/1.1 200 OK\r\nContent-Length: 2\r\n\r\n"

private def plainHead : HeadParser :=
  ResponseParser.knownHead plainHeadText
    ⟨some 200, some 1, [("Content-Length", [50])]⟩ (by decide +kernel)

private def plainSpec : RequestSpec (2 ^ 32 - 1) := ⟨[], false, sampleLimits, 2, 9000, false⟩

private def plainTunnel : Tunnel where
  id := List.replicate 16 7
  exit := ⟨"exit", "", "", [], 2, 2, none, none⟩
  host := "example.org"
  tcpPort := 443
  gapMs := 400
  maxCopies := 1
  deliver _ _ := .ok ()

private def plainEnv : ExchangeEnv := ⟨1000, 1500, .ok ⟨"e1", "m1"⟩⟩

/-- The channel before the request: the server sends the response and one byte more. -/
private def plainChannel : TlsChannel (Bytes × Bytes) :=
  ⟨(plainHeadText ++ [111, 107] ++ [0], []), .new, true, true, 0⟩

/-- A part with the piece of the stream at an offset. -/
private def plainPart (offset : UInt8) (data : Bytes) : Bytes :=
  [1] ++ List.replicate 8 0 ++ [offset] ++ List.replicate 7 0 ++
    [data.length.toUInt8] ++ List.replicate 7 0 ++ data ++ [0]

/-- The body comes before the head; the request resolves once it has both. -/
private def plainEvents : List TurnEvent :=
  [.exchange (.part (plainPart 38 [111, 107]) false plainEnv),
    .exchange (.part (plainPart 0 plainHeadText) false plainEnv), .settled .none plainEnv]

/-- The request of the sample is resolved. -/
private theorem resolved_plain : ∃ channel,
    runEvents (requestStep plainTls plainHead plainSpec plainTunnel)
        (plainChannel.request plainTls plainHead plainSpec plainTunnel 0 .start .none plainEnv)
        plainEvents =
      some (.resolved channel ⟨200, [("Content-Length", "2")], [111, 107], true⟩) := by
  have hview : (runEvents (requestStep plainTls plainHead plainSpec plainTunnel)
      (plainChannel.request plainTls plainHead plainSpec plainTunnel 0 .start .none plainEnv)
      plainEvents).map (fun
        | .resolved _ r => some r
        | _ => none) = some (some ⟨200, [("Content-Length", "2")], [111, 107], true⟩) := by
    decide +kernel
  obtain ⟨run, hrun, hresponse⟩ := Option.map_eq_some_iff.mp hview
  cases run with
  | resolved channel r =>
    obtain rfl := Option.some.inj hresponse
    exact ⟨channel, hrun⟩
  | _ => cases hresponse

/-- A response whose body comes in two parts. -/
theorem request_complete_sample : ∃ channel r,
    runEvents (requestStep plainTls plainHead plainSpec plainTunnel)
        (plainChannel.request plainTls plainHead plainSpec plainTunnel 0 .start .none plainEnv)
        plainEvents = some (.resolved channel r) ∧
      r.body = [111, 107] ∧
      Complete plainTls plainHead plainSpec (plainHeadText ++ [111, 107] ++ [0]) channel.session
        r := by
  obtain ⟨channel, hrun⟩ := resolved_plain
  exact ⟨channel, _, hrun, rfl, ((request_complete plainHead plainSpec plainTunnel
    plainTls_authentic plainChannel (plainHeadText ++ [111, 107] ++ [0]) rfl 0 .start .none plainEnv
    _ (run_of_runEvents hrun)).1 _ _ rfl).1⟩

end TlsChannel

end NoxSdk.Tls
