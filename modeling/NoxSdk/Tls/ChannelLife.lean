import NoxSdk.Tls.Channel

/-!
# The life of a TLS session

A `TlsChannel` opens its tunnel with the handshake and then carries requests, one after another,
while it is `reusable`; the pool drops a channel whose request rejected. The responses of a channel
are the messages of the server's plaintext in their order, with nothing skipped between two of them
and nothing used twice (`responses_in_order`): a response is never taken for that of another
request, whatever the exit does with the parts.

* `lifeStep`: the events of a channel, with the answers it has given as a ghost field.
* `InOrder`: answers that are the messages at the front of a text.
* `Tracked`: where a request stands in the server's plaintext.
-/

namespace NoxSdk.Tls

open NoxSdk.Lib NoxSdk.Bincode ResponseParser

/-- The exchange of a handshake, and the session when it started. -/
structure HandshakeTurn (S : Type) where
  session : S
  spec : ExchangeSpec
  exchange : Exchange

/-- A response and the request that resolved with it. -/
structure Answer (usizeMax : ℕ) where
  spec : RequestSpec usizeMax
  response : HttpResponse

/-- What a channel is doing. -/
inductive LifePhase (S : Type) (usizeMax : ℕ)
  | handshaking (turn : HandshakeTurn S)
  | idle (channel : TlsChannel S) (seq : ℕ) (stream : Downstream)
  | requesting (spec : RequestSpec usizeMax) (turn : ChannelTurn S)
  | over

/-- A channel and the answers it has given. -/
structure ChannelLife (S : Type) (usizeMax : ℕ) where
  phase : LifePhase S usizeMax
  answers : List (Answer usizeMax)

/-- What happens to a channel. -/
inductive LifeEvent (usizeMax : ℕ)
  | exchange (event : ExchangeEvent)
  | settled (signal : AbortSignal) (env : ExchangeEnv)
  | request (spec : RequestSpec usizeMax) (signal : AbortSignal) (env : ExchangeEnv)
  | teardown

/-- `HANDSHAKE_SURBS`. -/
def handshakeSurbs : ℕ := 2

namespace ChannelLife

open TlsChannel

variable {S : Type} {usizeMax : ℕ} (tls : TlsSession S) (isHandshaking isClosed : S → Bool)
  (httparse : HeadParser) (tunnel : Tunnel)

/-- `onBytes` with no request outstanding. -/
def onBytes (session : S) (bytes : Bytes) : Except ChannelError S := do
  let session ← (tls.pushIncoming session bytes).mapError .session
  if (tls.takePlaintext session).1.length = 0 then return (tls.takePlaintext session).2
  else .error (.protocol
    s!"The upstream sent {(tls.takePlaintext session).1.length} bytes with no request outstanding")

/-- `deliver` of the tunnel during the handshake. -/
def deliver (session : S) : Deliver := fun delivered bytes =>
  match (delivered ++ [bytes]).foldlM (onBytes tls) session with
  | .ok _ => .ok ()
  | .error (.session error) => .error error
  | .error (.parser error) => .error (.error error.message)
  | .error (.protocol message) => .error (.error message)
  | .error (.tunnel error) => .error (.error error.message)

/-- The session once the handshake has delivered this stream. -/
def sessionAt (turn : HandshakeTurn S) (stream : Downstream) : S :=
  match stream.delivered.foldlM (onBytes tls) turn.session with
  | .ok session => session
  | .error _ => turn.session

/-- `handshake`, up to its exchange. -/
def start (session : S) (deadlineAt openTimeoutMs : ℕ) (background : Bool) (signal : AbortSignal)
    (env : ExchangeEnv) : ChannelLife S usizeMax :=
  match tls.takeOutgoing session with
  | .ok (hello, session) =>
    let spec : ExchangeSpec :=
      ⟨hello, handshakeSurbs, false, deadlineAt, background, signal, some openTimeoutMs⟩
    let exchange :=
      Exchange.start { tunnel with deliver := deliver tls session } spec 0 env .start
    ⟨.handshaking ⟨session, spec, exchange⟩, []⟩
  | .error _ => ⟨.over, []⟩

/-- A part with what `satisfied` says of the session behind its delivery. -/
def answered (turn : HandshakeTurn S) : ExchangeEvent → ExchangeEvent
  | .part body _ env =>
    let stream := (turn.exchange.onPart { tunnel with deliver := deliver tls turn.session }
      turn.spec 0 env body false).1.stream
    let session := sessionAt tls turn stream
    .part body (tls.wantsWrite session || !isHandshaking session) env
  | event => event

/-- One event of the handshake's exchange. -/
def handshakeStep (turn : HandshakeTurn S) (event : ExchangeEvent) : Option (HandshakeTurn S) :=
  (exchangeStep { tunnel with deliver := deliver tls turn.session } turn.spec 0 turn.exchange
    (answered tls isHandshaking tunnel turn event)).map fun exchange => { turn with exchange }

/-- What `handshake` does with its exchange settled; the stream must not have ended. -/
def afterHandshake (turn : HandshakeTurn S) :
    Except TunnelError ExchangeOutcome → LifePhase S usizeMax
  | .ok .satisfied =>
    .idle ⟨sessionAt tls turn turn.exchange.stream, .new, false, true, 0⟩ 1 turn.exchange.stream
  | .ok .eof => .over
  | .error _ => .over

/-- `reusable`, of a channel that was not freed. -/
def reusable (channel : TlsChannel S) (stream : Downstream) : Bool :=
  channel.keepAlive && !stream.ended && !isClosed channel.session

/-- The channel after a step of its request; the pool drops it when the request rejected. -/
def afterRequest (answers : List (Answer usizeMax)) (spec : RequestSpec usizeMax) (seq : ℕ)
    (stream : Downstream) : RequestRun S → ChannelLife S usizeMax
  | .exchanging turn => ⟨.requesting spec turn, answers⟩
  | .resolved channel response => ⟨.idle channel seq stream, answers ++ [⟨spec, response⟩]⟩
  | .rejected _ => ⟨.over, answers⟩

/-- One event of a channel. The first request takes the channel as the handshake left it, a later
one only a reusable one. -/
def lifeStep (life : ChannelLife S usizeMax) :
    LifeEvent usizeMax → Option (ChannelLife S usizeMax)
  | .exchange event => match life.phase with
    | .handshaking turn => (handshakeStep tls isHandshaking tunnel turn event).map fun turn =>
      { life with phase := .handshaking turn }
    | .requesting spec turn => (turnStep tls httparse spec tunnel turn event).map fun turn =>
      { life with phase := .requesting spec turn }
    | _ => none
  | .settled signal env => match life.phase with
    | .handshaking turn => turn.exchange.outcomes.head?.map fun outcome =>
      { life with phase := afterHandshake tls turn outcome }
    | .requesting spec turn => turn.exchange.outcomes.head?.map fun outcome =>
      afterRequest life.answers spec (turn.seq + 1) turn.exchange.stream
        (afterTurn tls httparse spec tunnel turn outcome signal env)
    | _ => none
  | .request spec signal env => match life.phase with
    | .idle channel seq stream =>
      if life.answers.isEmpty || reusable isClosed channel stream then
        some (afterRequest life.answers spec seq stream
          (channel.request tls httparse spec tunnel seq stream signal env))
      else none
    | _ => none
  | .teardown => some { life with phase := .over }

/-! ### Messages one after another -/

/-- The response is this message; one that only the end of the connection ends has nothing
behind. -/
def Answers (httparse : HeadParser) (answer : Answer usizeMax) (message more : Bytes) : Prop :=
  ∃ framing, Message httparse answer.spec.limits answer.spec.headRequest framing message
    answer.response ∧ (framing = some .untilClose → more = [])

/-- The answers are the messages at the front of the text, one after another, up to its rest. -/
def InOrder (httparse : HeadParser) : List (Answer usizeMax) → Bytes → Bytes → Prop
  | [], text, rest => text = rest
  | answer :: answers, text, rest => ∃ message more, text = message ++ more ∧
      Answers httparse answer message more ∧ InOrder httparse answers more rest

section Runs

variable {tls isHandshaking isClosed httparse tunnel} {left : S → Bytes → Prop}
  {server text rest : Bytes} {spec : RequestSpec usizeMax} {channel channel' : TlsChannel S}
  {answers : List (Answer usizeMax)} {answer : Answer usizeMax}

theorem InOrder.snoc {message more : Bytes} (h : InOrder httparse answers text (message ++ more))
    (hanswer : Answers httparse answer message more) :
    InOrder httparse (answers ++ [answer]) text more := by
  induction answers generalizing text with
  | nil => exact ⟨message, more, h, hanswer, rfl⟩
  | cons first answers ih =>
    obtain ⟨message', more', htext, hfirst, hrest⟩ := h
    exact ⟨message', more', htext, hfirst, ih hrest⟩

/-! ### Where a request stands -/

/-- The parser has the response, and the session holds what is behind its message. -/
structure Finished (left : S → Bytes → Prop) (httparse : HeadParser) (spec : RequestSpec usizeMax)
    (server : Bytes) (channel : TlsChannel S) : Prop where
  answered : ∃ message more, server = message ++ more ∧ left channel.session more ∧
    Answers httparse ⟨spec, channel.parser.response⟩ message more
  done : channel.parser.state = .done

/-- The parser has the response, or it has read what was taken from the session. -/
def Tracked (left : S → Bytes → Prop) (httparse : HeadParser) (spec : RequestSpec usizeMax)
    (server : Bytes) (channel : TlsChannel S) : Prop :=
  if channel.parserDone then Finished left httparse spec server channel
  else Reading left httparse spec server channel

/-- Plaintext that is taken goes to the parser; with the end of a message it ends as well. -/
theorem tracked_feedPlaintext (htls : tls.Authentic left) {session : S}
    (h : Tracked left httparse spec server { channel with session := session })
    (hfeed : channel.feedPlaintext tls httparse spec session = .ok channel') :
    channel'.session = (tls.takePlaintext session).2 ∧
      Tracked left httparse spec server channel' := by
  rw [TlsChannel.feedPlaintext, feedParser] at hfeed
  rw [Tracked] at h
  split_ifs at hfeed with hnil hdone
  · -- nothing was taken, so the session holds what it held
    obtain rfl := Except.ok.inj hfeed
    refine ⟨rfl, ?_⟩
    rw [Tracked]
    split_ifs at h ⊢
    · obtain ⟨⟨message, more, hserver, hleft, hanswer⟩, hstate⟩ := h
      obtain ⟨behind, hmore, hleft⟩ := htls.takePlaintext hleft
      rw [List.length_eq_zero_iff.mp hnil, List.nil_append] at hmore
      exact ⟨⟨message, more, hserver, hmore ▸ hleft, hanswer⟩, hstate⟩
    · obtain ⟨⟨taken, rest, hserver, hleft, hread⟩, hstate⟩ := h
      obtain ⟨behind, hrest, hleft⟩ := htls.takePlaintext hleft
      rw [List.length_eq_zero_iff.mp hnil, List.nil_append] at hrest
      exact ⟨⟨taken, rest, hserver, hrest ▸ hleft, hread⟩, hstate⟩
  · rw [if_neg hdone] at h
    obtain ⟨⟨taken, rest, hserver, hleft, hread⟩, -⟩ := h
    obtain ⟨more, hrest, hmore⟩ := htls.takePlaintext hleft
    obtain ⟨parser, hpush, hret⟩ := bind_eq_ok_iff.mp hfeed
    obtain rfl := Except.ok.inj hret
    refine ⟨rfl, ?_⟩
    have hread' := HasRead.push hread (mapError_eq_ok hpush)
    have hserver' : server = (taken ++ (tls.takePlaintext session).1) ++ more := by
      rw [hserver, hrest, List.append_assoc]
    rw [Tracked]
    by_cases hend : parser.state = .done
    · rw [if_pos (decide_eq_true hend)]
      obtain ⟨framing, hne, hmessage⟩ := HasRead.message (.inr hread') hend
      exact ⟨⟨_, more, hserver', hmore, framing, hmessage, fun hclose => absurd hclose hne⟩, hend⟩
    · rw [if_neg (by simpa using hend)]
      exact ⟨⟨_, more, hserver', hmore, .inr hread'⟩, hend⟩

/-- The end of the connection completes a message behind which nothing is left. -/
theorem finished_finishParser (htls : tls.Authentic left) {session : S}
    (h : Reading left httparse spec server channel)
    (hsession : channel.session = (tls.takePlaintext session).2) {closeNotify : Bool}
    (hnotify : closeNotify = true → tls.closeNotifyReceived channel.session = true)
    (hfinish : channel.finishParser spec closeNotify = .ok channel') :
    channel'.parserDone = true ∧ Finished left httparse spec server channel' := by
  obtain ⟨⟨taken, rest, hserver, hleft, hread⟩, hstate⟩ := h
  obtain ⟨parser, hparser, hret⟩ := bind_eq_ok_iff.mp hfinish
  obtain rfl := Except.ok.inj hret
  obtain ⟨hclose, hdone, -, hmessage⟩ :=
    HasRead.finishOnClose hread hstate (mapError_eq_ok hparser)
  have hnothing : rest = [] := by
    rw [htls.closeNotify (hnotify hclose) hleft, hsession, htls.takePlaintext_again]
  exact ⟨rfl, ⟨taken, rest, hserver, hleft, _, hmessage, fun _ => hnothing⟩, hdone⟩

/-- Steps of the session alone keep what is left. -/
theorem Tracked.session {session : S} {keepAlive : Bool}
    (h : Tracked left httparse spec server channel)
    (hleft : ∀ {rest}, left channel.session rest → left session rest) :
    Tracked left httparse spec server
      { channel with session := session, keepAlive := keepAlive } := by
  rw [Tracked] at h ⊢
  split_ifs at h ⊢
  · obtain ⟨⟨message, more, hserver, hmore, hanswer⟩, hstate⟩ := h
    exact ⟨⟨message, more, hserver, hleft hmore, hanswer⟩, hstate⟩
  · obtain ⟨⟨taken, rest, hserver, hrest, hread⟩, hstate⟩ := h
    exact ⟨⟨taken, rest, hserver, hleft hrest, hread⟩, hstate⟩

theorem Tracked.onBytes (htls : tls.Authentic left)
    (h : Tracked left httparse spec server channel) {bytes : Bytes}
    (hbytes : channel.onBytes tls httparse spec bytes = .ok channel') :
    Tracked left httparse spec server channel' := by
  obtain ⟨session, hpush, hbytes⟩ := bind_eq_ok_iff.mp hbytes
  obtain ⟨next, hfeed, hbytes⟩ := bind_eq_ok_iff.mp hbytes
  obtain ⟨hsession, htracked⟩ :=
    tracked_feedPlaintext htls (h.session (htls.pushIncoming (mapError_eq_ok hpush))) hfeed
  split_ifs at hbytes with hclose
  · rw [Bool.and_eq_true, Bool.not_eq_true'] at hclose
    rw [Tracked, if_neg (by simpa using hclose.2)] at htracked
    obtain ⟨hdone, hfinished⟩ :=
      finished_finishParser htls htracked hsession (fun _ => hclose.1) hbytes
    rw [Tracked, if_pos hdone]
    exact hfinished
  · exact Except.ok.inj hbytes ▸ htracked

theorem Tracked.pieces (htls : tls.Authentic left) {pieces : List Bytes}
    (h : Tracked left httparse spec server channel)
    (hpieces : pieces.foldlM (TlsChannel.onBytes tls httparse spec) channel = .ok channel') :
    Tracked left httparse spec server channel' := by
  induction pieces generalizing channel with
  | nil => exact Except.ok.inj hpieces ▸ h
  | cons piece pieces ih =>
    rw [List.foldlM_cons] at hpieces
    obtain ⟨next, hpiece, hrest⟩ := bind_eq_ok_iff.mp hpieces
    exact ih (h.onBytes htls hpiece) hrest

theorem Tracked.onEof (htls : tls.Authentic left) (h : Tracked left httparse spec server channel)
    (heof : channel.onEof tls httparse spec = .ok channel') :
    Finished left httparse spec server channel' := by
  obtain ⟨session, hpush, heof⟩ := bind_eq_ok_iff.mp heof
  obtain ⟨next, hfeed, heof⟩ := bind_eq_ok_iff.mp heof
  have hstart : Tracked left httparse spec server
      { channel with keepAlive := false, session := session } :=
    h.session (htls.pushTransportEof (mapError_eq_ok hpush))
  obtain ⟨hsession, htracked⟩ := tracked_feedPlaintext htls hstart hfeed
  rw [Tracked] at htracked
  by_cases hdone : next.parserDone = true
  · rw [if_pos hdone] at heof htracked
    exact Except.ok.inj heof ▸ htracked
  · rw [if_neg hdone] at heof htracked
    exact (finished_finishParser htls htracked hsession id heof).2

/-- What an exchange delivered keeps a request on its track. -/
theorem tracked_channelAt (htls : tls.Authentic left) {turn : ChannelTurn S}
    (h : Running tls left httparse spec tunnel server turn) :
    Tracked left httparse spec server
      (channelAt tls httparse spec turn turn.exchange.stream) := by
  obtain ⟨channel', hpieces⟩ := exists_channel_of_fed h.fed
  have htracked : Tracked left httparse spec server turn.channel := by
    rw [Tracked, if_neg (by simpa using h.parserDone)]
    exact h.reading
  rw [channelAt_eq hpieces]
  exact htracked.pieces htls hpieces

/-- A channel that may be reused had its response say so. -/
theorem Finished.finish (h : Finished left httparse spec server channel) :
    ∃ keepAlive, channel.finish = .resolved { channel with keepAlive } channel.parser.response ∧
      (keepAlive = true → channel.parser.response.keepAlive = true) := by
  have hresponse : channel.parser.takeResponse = some channel.parser.response := if_pos h.done
  refine ⟨channel.keepAlive && channel.parser.response.keepAlive, ?_, fun hkeep => ?_⟩
  · rw [TlsChannel.finish, hresponse]
  · exact (Bool.and_eq_true_iff.mp hkeep).2

/-- What an exchange that is settled makes of a request: it goes on, it rejects, or it resolves
with the next message. -/
theorem afterTurn_cases (htls : tls.Authentic left) {turn : ChannelTurn S}
    (h : Running tls left httparse spec tunnel server turn)
    (outcome : Except TunnelError ExchangeOutcome) (signal : AbortSignal) (env : ExchangeEnv) :
    (∃ turn', afterTurn tls httparse spec tunnel turn outcome signal env = .exchanging turn' ∧
        Running tls left httparse spec tunnel server turn') ∨
      (∃ error, afterTurn tls httparse spec tunnel turn outcome signal env = .rejected error) ∨
      ∃ channel response message more,
        afterTurn tls httparse spec tunnel turn outcome signal env = .resolved channel response ∧
          server = message ++ more ∧ left channel.session more ∧
          Answers httparse ⟨spec, response⟩ message more ∧
          (channel.keepAlive = true → response.keepAlive = true) := by
  have hsound := h.afterTurn htls outcome signal env
  -- where `finish` resolves, the answer is the next message of the server
  have hresolved : ∀ {channel : TlsChannel S},
      afterTurn tls httparse spec tunnel turn outcome signal env = channel.finish →
      Finished left httparse spec server channel → ∃ channel response message more,
        afterTurn tls httparse spec tunnel turn outcome signal env = .resolved channel response ∧
          server = message ++ more ∧ left channel.session more ∧
          Answers httparse ⟨spec, response⟩ message more ∧
          (channel.keepAlive = true → response.keepAlive = true) := by
    intro channel hafter hfinished
    obtain ⟨keepAlive, hfinish, hkeep⟩ := hfinished.finish
    obtain ⟨message, more, hserver, hleft, hanswer⟩ := hfinished.answered
    exact ⟨_, _, message, more, hafter.trans hfinish, hserver, hleft, hanswer, hkeep⟩
  cases hafter : afterTurn tls httparse spec tunnel turn outcome signal env with
  | exchanging turn' =>
    rw [hafter] at hsound
    exact .inl ⟨turn', rfl, hsound⟩
  | rejected error => exact .inr (.inl ⟨error, rfl⟩)
  | resolved channel response =>
    refine .inr (.inr ?_)
    rw [← hafter]
    have htracked := tracked_channelAt htls h
    rcases outcome with error | (_ | _)
    · cases hafter
    · rw [TlsChannel.afterTurn] at hafter
      rw [Tracked] at htracked
      -- a complete response ends the request, anything less goes on with another exchange
      split_ifs at hafter htracked with hdone
      · refine hresolved ?_ htracked
        rw [TlsChannel.afterTurn]
        exact if_pos hdone
      · rw [startTurn] at hafter
        split at hafter <;> cases hafter
    · cases heof : (channelAt tls httparse spec turn turn.exchange.stream).onEof tls httparse
        spec with
      | ok channel' =>
        refine hresolved ?_ (htracked.onEof htls heof)
        rw [TlsChannel.afterTurn, heof]
      | error error =>
        rw [TlsChannel.afterTurn, heof] at hafter
        cases hafter

/-! ### The handshake -/

/-- Without a request, no plaintext is taken. -/
theorem left_onBytes (htls : tls.Authentic left) {session session' : S} {bytes : Bytes}
    (h : left session rest) (hbytes : onBytes tls session bytes = .ok session') :
    left session' rest := by
  obtain ⟨pushed, hpush, hbytes⟩ := bind_eq_ok_iff.mp hbytes
  split_ifs at hbytes with hnil
  obtain rfl := Except.ok.inj hbytes
  obtain ⟨more, hrest, hleft⟩ :=
    htls.takePlaintext (htls.pushIncoming (mapError_eq_ok hpush) h)
  rw [List.length_eq_zero_iff.mp hnil, List.nil_append] at hrest
  exact hrest ▸ hleft

theorem left_pieces (htls : tls.Authentic left) {pieces : List Bytes} {session session' : S}
    (h : left session rest) (hpieces : pieces.foldlM (onBytes tls) session = .ok session') :
    left session' rest := by
  induction pieces generalizing session with
  | nil => exact Except.ok.inj hpieces ▸ h
  | cons piece pieces ih =>
    rw [List.foldlM_cons] at hpieces
    obtain ⟨next, hpiece, hrest⟩ := bind_eq_ok_iff.mp hpieces
    exact ih (left_onBytes htls h hpiece) hrest

/-- Wherever the handshake stands, all of the server's plaintext is to come. -/
theorem left_sessionAt (htls : tls.Authentic left) {turn : HandshakeTurn S}
    (h : left turn.session rest) (stream : Downstream) : left (sessionAt tls turn stream) rest := by
  rw [sessionAt]
  split
  · rename_i session hpieces
    exact left_pieces htls h hpieces
  · exact h

/-! ### Runs of a channel -/

/-- What is known of a channel at any time. -/
structure InSync (tls : TlsSession S) (left : S → Bytes → Prop) (httparse : HeadParser)
    (tunnel : Tunnel) (server : Bytes) (life : ChannelLife S usizeMax) : Prop where
  kept : ∀ answer ∈ life.answers.dropLast, answer.response.keepAlive = true
  inOrder : ∃ rest, InOrder httparse life.answers server rest ∧ match life.phase with
    | .handshaking turn => left turn.session rest ∧ life.answers = []
    | .idle channel _ _ => left channel.session rest ∧
      ∀ answer ∈ life.answers.getLast?, channel.keepAlive = true → answer.response.keepAlive = true
    | .requesting spec turn => Running tls left httparse spec tunnel rest turn ∧
      ∀ answer ∈ life.answers, answer.response.keepAlive = true
    | .over => True

theorem inSync_start (htls : tls.Authentic left) {session : S} (h : left session server)
    {deadlineAt openTimeoutMs : ℕ} {background : Bool} {signal : AbortSignal} {env : ExchangeEnv} :
    InSync tls left httparse tunnel server
      (start tls tunnel session deadlineAt openTimeoutMs background signal env :
        ChannelLife S usizeMax) := by
  rw [start]
  split
  · rename_i hello session' houtgoing
    exact ⟨by simp, server, rfl, htls.takeOutgoing houtgoing h, rfl⟩
  · exact ⟨by simp, server, rfl, trivial⟩

/-- A request that starts has its first exchange before it, or it rejected. -/
theorem request_cases (htls : tls.Authentic left) (hleft : left channel.session rest) (seq : ℕ)
    (stream : Downstream) (signal : AbortSignal) (env : ExchangeEnv) :
    (∃ turn, channel.request tls httparse spec tunnel seq stream signal env = .exchanging turn ∧
        Running tls left httparse spec tunnel rest turn) ∨
      ∃ error,
        channel.request tls httparse spec tunnel seq stream signal env = .rejected error := by
  have hsound : Sound tls left httparse spec tunnel rest
      (channel.request tls httparse spec tunnel seq stream signal env) := .request htls hleft
  cases hrequest : channel.request tls httparse spec tunnel seq stream signal env with
  | exchanging turn =>
    rw [hrequest] at hsound
    exact .inl ⟨turn, rfl, hsound⟩
  | rejected error => exact .inr ⟨error, rfl⟩
  | resolved channel' response =>
    rw [TlsChannel.request] at hrequest
    split at hrequest
    · rw [startTurn] at hrequest
      split at hrequest <;> cases hrequest
    · cases hrequest

/-- The first request follows the handshake, a later one a response that keeps the connection. -/
theorem keepAlive_of_request {channel : TlsChannel S} {stream : Downstream}
    (hkept : ∀ answer ∈ answers.dropLast, answer.response.keepAlive = true)
    (hlast : ∀ answer ∈ answers.getLast?, channel.keepAlive = true →
      answer.response.keepAlive = true)
    (h : (answers.isEmpty || reusable isClosed channel stream) = true) :
    ∀ answer ∈ answers, answer.response.keepAlive = true := by
  intro answer hanswer
  rcases answers.eq_nil_or_concat with rfl | ⟨before, last, rfl⟩
  · cases hanswer
  rw [List.concat_eq_append] at *
  have hkeep : channel.keepAlive = true := by
    have hsome : (before ++ [last]).isEmpty = false := by simp
    rw [hsome, Bool.false_or, reusable, Bool.and_eq_true, Bool.and_eq_true] at h
    exact h.1.1
  rw [List.dropLast_concat] at hkept
  rcases List.mem_append.mp hanswer with hbefore | hanswer
  · exact hkept answer hbefore
  · obtain rfl := List.mem_singleton.mp hanswer
    exact hlast answer (by simp) hkeep

/-- One event keeps the answers in order, and the rest of the plaintext where it belongs. -/
theorem InSync.step (htls : tls.Authentic left) {life life' : ChannelLife S usizeMax}
    {event : LifeEvent usizeMax} (h : InSync tls left httparse tunnel server life)
    (hstep : lifeStep tls isHandshaking isClosed httparse tunnel life event = some life') :
    InSync tls left httparse tunnel server life' := by
  obtain ⟨phase, answers⟩ := life
  obtain ⟨hkept, rest, hinOrder, hphase⟩ := h
  -- an event of the turn, its end, a new request, or the close
  rcases event with event | ⟨signal, env⟩ | ⟨spec, signal, env⟩ | _
  · rcases phase with turn | _ | ⟨spec, turn⟩ | _
    · obtain ⟨turn', hturn, rfl⟩ := Option.map_eq_some_iff.mp hstep
      obtain ⟨exchange, -, rfl⟩ := Option.map_eq_some_iff.mp hturn
      exact ⟨hkept, rest, hinOrder, hphase⟩
    · cases hstep
    · obtain ⟨turn', hturn, rfl⟩ := Option.map_eq_some_iff.mp hstep
      exact ⟨hkept, rest, hinOrder, hphase.1.step hturn, hphase.2⟩
    · cases hstep
  · rcases phase with turn | _ | ⟨spec, turn⟩ | _
    · obtain ⟨outcome, -, rfl⟩ := Option.map_eq_some_iff.mp hstep
      -- the handshake ends: nothing was asked, and the server has sent nothing yet
      obtain ⟨hleft, rfl⟩ := hphase
      rcases outcome with error | (_ | _)
      · exact ⟨hkept, rest, hinOrder, trivial⟩
      · exact ⟨hkept, rest, hinOrder, left_sessionAt htls hleft _, by simp⟩
      · exact ⟨hkept, rest, hinOrder, trivial⟩
    · cases hstep
    · obtain ⟨outcome, -, rfl⟩ := Option.map_eq_some_iff.mp hstep
      obtain ⟨hrunning, hall⟩ := hphase
      obtain ⟨turn', hafter, hnext⟩ | ⟨error, hafter⟩ |
        ⟨channel, response, message, more, hafter, hrest, hleft, hanswer, hkeep⟩ :=
          afterTurn_cases htls hrunning outcome signal env
      · rw [hafter]
        exact ⟨hkept, rest, hinOrder, hnext, hall⟩
      · rw [hafter]
        exact ⟨hkept, rest, hinOrder, trivial⟩
      · rw [hafter]
        refine ⟨?_, more, InOrder.snoc (hrest ▸ hinOrder) hanswer, hleft, ?_⟩
        · rw [afterRequest, List.dropLast_concat]
          exact hall
        · simpa [afterRequest] using hkeep
    · cases hstep
  · rcases phase with _ | ⟨channel, seq, stream⟩ | _ | _
    · cases hstep
    · rw [lifeStep] at hstep
      dsimp only at hstep
      split_ifs at hstep with hmay
      obtain rfl := Option.some.inj hstep
      obtain ⟨hleft, hlast⟩ := hphase
      have hall := keepAlive_of_request hkept hlast hmay
      obtain ⟨turn, hrequest, hrunning⟩ | ⟨error, hrequest⟩ :=
        request_cases htls hleft seq stream signal env
      · rw [hrequest]
        exact ⟨hkept, rest, hinOrder, hrunning, hall⟩
      · rw [hrequest]
        exact ⟨hkept, rest, hinOrder, trivial⟩
    · cases hstep
    · cases hstep
  · obtain rfl := Option.some.inj hstep
    exact ⟨hkept, rest, hinOrder, trivial⟩

/-- **Responses are never mixed up.** Over a session that gives out the plaintext of the server
from its start and reports `close_notify` only behind all of it, and over every run of a channel
from its handshake: the responses that its requests resolved with are the messages at the front of
what the server sends, one after another. Only the last of them may be one that asks to close or
that the end of the connection ended, and while the channel waits for a request it still has all
that is behind them to give.

The invariant (`InSync`) says what the session has still to give: all of it during the handshake,
and then the rest behind the messages that were answered. The parser of a request starts with
nothing held back, so no byte of one response gets into the next. -/
theorem responses_in_order (isHandshaking isClosed : S → Bool) (httparse : HeadParser)
    (tunnel : Tunnel) (htls : tls.Authentic left) (session : S) (server : Bytes)
    (h : left session server) (deadlineAt openTimeoutMs : ℕ) (background : Bool)
    (signal : AbortSignal) (env : ExchangeEnv) (life : ChannelLife S usizeMax)
    (hrun : Run (lifeStep tls isHandshaking isClosed httparse tunnel)
      (start tls tunnel session deadlineAt openTimeoutMs background signal env) life) :
    ∃ rest, InOrder httparse life.answers server rest ∧
      (∀ answer ∈ life.answers.dropLast, answer.response.keepAlive = true) ∧
      ∀ channel seq stream, life.phase = .idle channel seq stream → left channel.session rest := by
  have hsync : InSync tls left httparse tunnel server life :=
    hrun.invariant (inSync_start htls h) fun _ _ _ hbefore hstep => hbefore.step htls hstep
  obtain ⟨hkept, rest, hinOrder, hphase⟩ := hsync
  refine ⟨rest, hinOrder, hkept, fun channel seq stream hidle => ?_⟩
  rw [hidle] at hphase
  exact hphase.1

end Runs

/-! ### A handshake -/

/-- A session whose first record is the flight of the server; the ones behind it are plaintext: what
is left to come, what can be taken, and whether the flight came. -/
private def flightTls : TlsSession (Bytes × Bytes × Bool) where
  pushIncoming session bytes := .ok (if session.2.2 then
    (session.1.drop bytes.length, session.2.1 ++ session.1.take bytes.length, true)
    else (session.1, session.2.1, true))
  takePlaintext session := (session.2.1, session.1, [], session.2.2)
  closeNotifyReceived session := session.1.isEmpty
  pushTransportEof session := .ok session
  wantsWrite session := session.2.2
  takeOutgoing session := .ok ([22, 3, 1], session)
  writePlaintext session _ := .ok session

private theorem flightTls_authentic :
    flightTls.Authentic fun session rest => rest = session.2.1 ++ session.1 where
  pushIncoming h hleft := by
    obtain rfl := Except.ok.inj h
    rw [hleft]
    split_ifs
    · rw [List.append_assoc, List.take_append_drop]
    · rfl
  pushTransportEof h hleft := by
    obtain rfl := Except.ok.inj h
    exact hleft
  takeOutgoing h hleft := by
    obtain ⟨-, rfl⟩ := Prod.mk.inj (Except.ok.inj h)
    exact hleft
  writePlaintext h hleft := by
    obtain rfl := Except.ok.inj h
    exact hleft
  takePlaintext hleft := ⟨_, hleft, rfl⟩
  takePlaintext_again _ := rfl
  closeNotify h hleft := by
    rw [hleft, List.isEmpty_iff.mp h, List.append_nil]
    rfl
  closeNotify_pushIncoming h hclosed := by
    obtain rfl := Except.ok.inj h
    have hnil := List.isEmpty_iff.mp hclosed
    split_ifs <;> simp [flightTls, hnil]
  closeNotify_pushTransportEof h hclosed := by
    obtain rfl := Except.ok.inj h
    exact hclosed
  closeNotify_takePlaintext _ h := h

private def flightHandshaking (session : Bytes × Bytes × Bool) : Bool := !session.2.2

private def flightTunnel : Tunnel where
  id := List.replicate 16 7
  exit := ⟨"exit", "", "", [], 2, 2, none, none⟩
  host := "example.org"
  tcpPort := 443
  gapMs := 400
  maxCopies := 1
  deliver _ _ := .ok ()

private def flightEnv : ExchangeEnv := ⟨1000, 1500, .ok ⟨"e1", "m1"⟩⟩

/-- A part: its number, the offset of its piece of the stream, and the piece. -/
private def flightPart (seq offset : UInt8) (data : Bytes) : Bytes :=
  [1, 0, 0, 0, 0, seq, 0, 0, 0] ++ [offset] ++ List.replicate 7 0 ++
    [data.length.toUInt8] ++ List.replicate 7 0 ++ data ++ [0]

/-- The head of a response with a body of one byte. -/
private def flightHeadText : Bytes := Js.textEncode "HTTP/1.1 200 OK\r\nContent-Length: 1\r\n\r\n"

private def flightHead : HeadParser :=
  ResponseParser.knownHead flightHeadText
    ⟨some 200, some 1, [("Content-Length", [49])]⟩ (by decide +kernel)

private def flightSpec : RequestSpec (2 ^ 32 - 1) := ⟨[], false, sampleLimits, 2, 9000, false⟩

/-- What the server sends: two responses, and one byte more. -/
private def flightServer : Bytes := flightHeadText ++ [97] ++ (flightHeadText ++ [98]) ++ [0]

private def flightStart : ChannelLife (Bytes × Bytes × Bool) (2 ^ 32 - 1) :=
  start flightTls flightTunnel (flightServer, [], false) 9000 3000 false .none flightEnv

/-- The handshake, and then two requests, each answered in a part of its own. -/
private def flightEvents : List (LifeEvent (2 ^ 32 - 1)) :=
  [.exchange (.part (flightPart 0 0 [22]) false flightEnv), .settled .none flightEnv,
    .request flightSpec .none flightEnv,
    .exchange (.part (flightPart 1 1 (flightHeadText ++ [97])) false flightEnv),
    .settled .none flightEnv, .request flightSpec .none flightEnv,
    .exchange (.part (flightPart 2 40 (flightHeadText ++ [98])) false flightEnv),
    .settled .none flightEnv]

/-- The two responses. -/
private def flightResponses : List HttpResponse :=
  [⟨200, [("Content-Length", "1")], [97], true⟩, ⟨200, [("Content-Length", "1")], [98], true⟩]

private theorem flight_answers : ∃ life,
    runEvents (lifeStep flightTls flightHandshaking (fun _ => false) flightHead flightTunnel)
      flightStart flightEvents = some life ∧
      life.answers.map Answer.response = flightResponses := by
  have hsome : (runEvents (lifeStep flightTls flightHandshaking (fun _ => false) flightHead
      flightTunnel) flightStart flightEvents).map
        (fun life => life.answers.map Answer.response) = some flightResponses := by
    decide +kernel
  exact Option.map_eq_some_iff.mp hsome

theorem responses_in_order_sample : ∃ life rest,
    runEvents (lifeStep flightTls flightHandshaking (fun _ => false) flightHead flightTunnel)
      flightStart flightEvents = some life ∧
      life.answers.map Answer.response = flightResponses ∧
      InOrder flightHead life.answers flightServer rest := by
  obtain ⟨life, hrun, hanswers⟩ := flight_answers
  have hleft : flightServer = [] ++ flightServer := (List.nil_append _).symm
  have hrun' := run_of_runEvents hrun
  rw [flightStart] at hrun'
  obtain ⟨rest, hinOrder, -⟩ := responses_in_order flightHandshaking (fun _ => false) flightHead
    flightTunnel flightTls_authentic (flightServer, [], false) flightServer hleft 9000 3000 false
    .none flightEnv life hrun'
  exact ⟨life, rest, hrun, hanswers, hinOrder⟩

end ChannelLife

end NoxSdk.Tls
