import NoxSdk.Kps.Requests
import NoxSdk.Worker.LifeCycleRuns

/-!
# The transports of a worker's calls

Each fetch hop of a call goes through the exit's `httpRequest` or through a TLS tunnel.
`chooseTransport` (`transport.ts`) decides it by the URL and the exits of the topology; without a
`TlsTransport` every hop takes `httpRequest`. A call takes the transport of its worker when it goes
on with the client that it waited for, and so does the background request that checks a memo
answer; the worker drops the transport when it shuts down.

`Fetches` is a worker with its calls. `handed` records the calls of `client.httpRequest`, each with
its hop: the URL, whether an exit of the topology advertised tunnels when the hop was routed, and
whether an earlier hop of the call went through a tunnel. `sent` records the hops a packet of which
was written: `httpRequest` builds the packets of its hop and posts each with the `request` of the
transport, any number of times and at any later time, and that throws once `disconnect` has closed
the transport (`requestBytes`).

A background check of an answer may find its worker shut down. It has no transport then, so that its
hop is handed to `httpRequest` whatever `tls` says; only the closed transport keeps it from the
wire. So the proof follows the clients: one that is in use goes with the transport of its worker,
and one that was disconnected stays so.
-/

namespace NoxSdk.Worker

open NoxSdk.Lib
open Kps (RequestInit requestBytes)

/-! ### The choice of a hop -/

/-- `TlsSetting`. -/
inductive TlsSetting
  | off
  | preferred
  | required
  deriving DecidableEq, Repr

/-- `FallbackReason`. -/
inductive FallbackReason
  | httpUrl
  | port
  | ipLiteral
  | hostName
  | noTunnelExit
  deriving DecidableEq, Repr

/-- The text of a reason. -/
def FallbackReason.value : FallbackReason → String
  | httpUrl => "http-url"
  | port => "port"
  | ipLiteral => "ip-literal"
  | hostName => "host-name"
  | noTunnelExit => "no-tunnel-exit"

/-- What `tunnelTarget` reads of a parsed URL. `authorization` is what its credentials give, or the
error of their decoding. -/
structure HopUrl where
  protocol : String
  port : Option ℕ
  hostname : String
  target : String
  authorization : Except CallError (Option String)

/-- `TunnelTarget`. -/
structure TunnelTarget where
  host : String
  target : String
  authorization : Option String
  deriving DecidableEq, Repr

/-- `TLS_PORT`. -/
def tlsPort : ℕ := 443

/-- `MAX_HOST_BYTES`. -/
def maxHostBytes : ℕ := 253

/-- `DNS_NAME_RE`. -/
def isDnsName (host : String) : Bool :=
  (host.toList.splitOn '.').all fun label =>
    !label.isEmpty && label.all fun c => c.isLower || c.isDigit || c == '-'

/-- `IPV4_RE`. -/
def isIpv4 (host : String) : Bool :=
  let parts := host.toList.splitOn '.'
  parts.length == 4 && parts.all fun part =>
    1 ≤ part.length && part.length ≤ 3 && part.all Char.isDigit

/-- `tunnelTarget`. -/
def tunnelTarget (url : HopUrl) : Except CallError (TunnelTarget ⊕ FallbackReason) :=
  if url.protocol ≠ "https:" then .ok (.inr .httpUrl)
  else if url.port.any (· ≠ tlsPort) then .ok (.inr .port)
  else if url.hostname.startsWith "[" ∨ isIpv4 url.hostname then .ok (.inr .ipLiteral)
  else if maxHostBytes < url.hostname.length ∨ isDnsName url.hostname = false then
    .ok (.inr .hostName)
  else url.authorization.map fun authorization =>
    .inl ⟨url.hostname, url.target, authorization⟩

/-- The URL has no tunnel target. -/
def NoTarget (url : HopUrl) : Prop := ∃ reason, tunnelTarget url = .ok (.inr reason)

/-- Why a hop cannot go through a tunnel. -/
def fallbackReason (tunnelExitKnown : Bool) :
    TunnelTarget ⊕ FallbackReason → Option FallbackReason
  | .inr reason => some reason
  | .inl _ => if tunnelExitKnown then none else some .noTunnelExit

/-- `chooseTransport`. -/
def chooseTransport (setting : TlsSetting) (url : HopUrl) (tunnelExitKnown : Bool) (hop : ℕ)
    (startedOnTunnel : Bool) : Except CallError (Via × Option FallbackReason) :=
  if setting = .off ∧ startedOnTunnel = false then .ok (.http, none)
  else do
    let target ← tunnelTarget url
    match fallbackReason tunnelExitKnown target with
    | none => .ok (.tunnel, none)
    | some reason =>
      if startedOnTunnel then
        .error ⟨.networkError, "Redirect refused: this call started on a TLS tunnel and the " ++
          s!"target cannot use one ({reason.value})"⟩
      else if setting = .preferred then .ok (.http, some reason)
      else if reason = .noTunnelExit then .error ⟨.networkError, "No exit offers TLS tunnels"⟩
      else
        let message := "TLS tunnels reach https hosts by name on port 443"
        if hop = 0 then .error ⟨.unsupported, message ++ " (tls is \"required\")"⟩
        else .error ⟨.networkError, s!"Redirect refused: {message} " ++ "(tls is \"required\")"⟩

/-- A hop takes `httpRequest` by choice only under `"preferred"`, where no tunnel can be used, and
not after a tunnel. -/
theorem chooseTransport_http {setting : TlsSetting} {url : HopUrl} {tunnelExitKnown : Bool}
    {hop : ℕ} {startedOnTunnel : Bool} {reason : Option FallbackReason}
    (hsetting : setting ≠ .off)
    (h : chooseTransport setting url tunnelExitKnown hop startedOnTunnel = .ok (.http, reason)) :
    setting = .preferred ∧ startedOnTunnel = false ∧
      (NoTarget url ∨ tunnelExitKnown = false) := by
  rw [chooseTransport, if_neg fun hoff => hsetting hoff.1] at h
  obtain ⟨target, htarget, h⟩ := bind_eq_ok_iff.mp h
  cases hreason : fallbackReason tunnelExitKnown target with
  | none =>
    rw [hreason] at h
    cases h
  | some reason' =>
    rw [hreason] at h
    dsimp only at h
    split_ifs at h with hstarted hpreferred
    refine ⟨hpreferred, by simpa using hstarted, ?_⟩
    cases target with
    | inr reason => exact .inl ⟨reason, htarget⟩
    | inl target =>
      refine .inr ?_
      rw [fallbackReason] at hreason
      split_ifs at hreason with hknown
      simpa using hknown

/-! ### A worker with its calls -/

/-- A request that `sendPrepared` runs for: a call, or the check of its answer. -/
inductive SendId
  | call (call : ℕ)
  | verify (call : ℕ)
  deriving DecidableEq, Repr

/-- A run of `sendPrepared`: its client, and whether it was given a transport. -/
structure Sending where
  call : FetchCall
  client : ℕ
  tunnels : Bool

/-- A hop that was handed to `client.httpRequest`. -/
structure HttpHop where
  id : SendId
  client : ℕ
  url : HopUrl
  tunnelExitKnown : Bool
  afterTunnel : Bool

/-- A worker with its calls. -/
structure Fetches where
  worker : NoxWorker
  sendings : SendId → Option Sending
  handed : List HttpHop
  sent : List HttpHop

/-- What the worker and its calls are configured with, and the parsers of the runtime. -/
structure FetchConfig where
  tls : TlsSetting
  warmup : Bool
  storage : Bool
  settings : FetchSettings
  parseJson : Bytes → Option Js.Json
  urls : Urls
  hopUrl : String → HopUrl

/-- What the boot reads of it. -/
def FetchConfig.boot (config : FetchConfig) : BootConfig :=
  ⟨config.tls ≠ .off, config.warmup, config.storage⟩

/-- What happens to a worker with its calls. -/
inductive FetchesEvent
  | worker (event : WorkerEvent)
  /-- `handleFetch` goes on after `waitReady`. -/
  | starts (call client : ℕ) (request : PreparedRequest) (remaining : ℕ)
  /-- `verifyAnswer`. -/
  | verifies (call : ℕ) (request : PreparedRequest) (remaining : ℕ)
  /-- A hop is routed. -/
  | routes (id : SendId) (tunnelExitKnown : Bool) (remaining : ℕ)
  /-- A hop that was handed over posts a packet. -/
  | posts (hop : ℕ) (input : String) (init : RequestInit)
  | proceeds (id : SendId) (event : FetchEvent)

/-- The hop went to a session of a tunnel. -/
def Handed.isTunnel : Handed → Bool
  | .tunnel _ _ => true
  | .exit _ _ => false

/-- The call has a response. -/
def FetchCall.answered (call : FetchCall) : Bool :=
  match call.phase with
  | .ended (.response _ _) => true
  | _ => false

namespace Fetches

variable (config : FetchConfig) (fetches : Fetches)

/-- A worker that boots. -/
def boot (check : BootCheck) : Fetches := ⟨.boot check, fun _ => none, [], []⟩

/-- `sendPrepared(prepared, client, cfg, budget, this.tunnels)`. -/
def send (id : SendId) (client : ℕ) (request : PreparedRequest) (remaining : ℕ) : Fetches :=
  { fetches with
    sendings := Function.update fetches.sendings id
      (some ⟨.start request remaining, client, fetches.worker.tunnels⟩) }

/-- `tunnels?.route(current, hop, onTunnel) ?? "http"`. -/
def route (sending : Sending) (tunnelExitKnown : Bool) : Except CallError Via :=
  if sending.tunnels then
    (chooseTransport config.tls (config.hopUrl sending.call.current.url) tunnelExitKnown
      sending.call.hop sending.call.onTunnel).map Prod.fst
  else .ok .http

/-- A call goes on. -/
def proceed (id : SendId) (sending : Sending) (event : FetchEvent) : Option Fetches :=
  (fetchStep config.parseJson config.urls config.settings sending.call event).map fun call =>
    { fetches with
      sendings := Function.update fetches.sendings id (some { sending with call }) }

/-- The record of a hop that takes `httpRequest`. -/
def httpHop (id : SendId) (sending : Sending) (tunnelExitKnown : Bool) : HttpHop where
  id := id
  client := sending.client
  url := config.hopUrl sending.call.current.url
  tunnelExitKnown := tunnelExitKnown
  afterTunnel := sending.call.handed.any Handed.isTunnel

/-- `request` of the transport of the hop's client: its bytes are written, unless it throws. The
transport is closed once the client is disconnected. -/
def post (hop : HttpHop) (input : String) (init : RequestInit) : Fetches :=
  match requestBytes (decide (hop.client ∈ fetches.worker.disconnected)) input init with
  | .ok _ => { fetches with sent := fetches.sent ++ [hop] }
  | .error _ => fetches

/-- One event of a worker with its calls. -/
def step : FetchesEvent → Option Fetches
  | .worker event =>
    (workerStep config.boot fetches.worker event).map fun worker => { fetches with worker }
  | .starts call client request remaining =>
    if (call, .ok client) ∈ fetches.worker.outcomes ∧ fetches.sendings (.call call) = none then
      some (fetches.send (.call call) client request remaining)
    else none
  | .verifies call request remaining =>
    match fetches.sendings (.call call), fetches.sendings (.verify call) with
    | some sending, none =>
      if sending.call.answered then
        some (fetches.send (.verify call) sending.client request remaining)
      else none
    | _, _ => none
  | .routes id tunnelExitKnown remaining =>
    (fetches.sendings id).bind fun sending =>
      let choice := route config sending tunnelExitKnown
      (fetches.proceed config id sending (.routed choice remaining)).map fun fetches' =>
        if choice = .ok .http then
          { fetches' with handed := fetches.handed ++ [httpHop config id sending tunnelExitKnown] }
        else fetches'
  | .posts hop input init =>
    fetches.handed[hop]?.map fun hop => fetches.post hop input init
  | .proceeds id event =>
    match event with
    | .routed _ _ => none
    | event => (fetches.sendings id).bind fun sending => fetches.proceed config id sending event

end Fetches

/-! ### The client and the transport of a worker -/

namespace NoxWorker

variable {config : BootConfig} {worker worker' : NoxWorker}

/-- What a step does to the client: a client that is in use stays so, with its transport, or is
disconnected, and a call only gets the client in use. -/
structure Hands (config : BootConfig) (worker worker' : NoxWorker) : Prop where
  disconnected : worker.disconnected ⊆ worker'.disconnected
  kept : ∀ client, worker.client = some client → client ∈ worker'.disconnected ∨
    worker'.client = some client ∧ worker'.tunnels = worker.tunnels
  fresh : ∀ client, worker'.client = some client → worker'.tunnels = config.tls ∨
    worker.client = some client ∧ worker'.tunnels = worker.tunnels
  outcomes : ∀ call client, (call, .ok client) ∈ worker'.outcomes →
    (call, .ok client) ∈ worker.outcomes ∨ worker'.client = some client

/-- The client and what goes with it are as they were. -/
def SameClient (worker worker' : NoxWorker) : Prop :=
  worker'.client = worker.client ∧ worker'.tunnels = worker.tunnels ∧
    worker'.disconnected = worker.disconnected ∧ worker'.outcomes = worker.outcomes

/-- A step that leaves the client alone hands none out. -/
theorem SameClient.hands (h : SameClient worker worker') : Hands config worker worker' := by
  obtain ⟨hclient, htunnels, hdisconnected, houtcomes⟩ := h
  refine ⟨hdisconnected ▸ List.Subset.refl _, fun client hc => .inr ⟨hclient.trans hc, htunnels⟩,
    fun client hc => .inr ⟨hclient.symm.trans hc, htunnels⟩, fun call client hmem => .inl ?_⟩
  exact houtcomes ▸ hmem

/-- A failure disconnects the client. -/
theorem hands_fail {code : FailedCode} {message : String} (h : SameClient worker worker') :
    Hands config worker (worker'.fail code message) := by
  obtain ⟨hclient, htunnels, hdisconnected, houtcomes⟩ := id h
  rw [NoxWorker.fail]
  split_ifs
  · exact h.hands
  -- `shutdown` disconnects the client in the same step as it drops the transport
  · refine ⟨fun client hmem => ?_, fun client hc => .inl ?_, fun client hc => ?_,
      fun call client hmem => .inl ?_⟩
    · exact List.mem_append_left _ (hdisconnected ▸ hmem)
    · exact List.mem_append_right _ (Option.mem_toList.mpr (hclient.trans hc))
    · cases hc
    · rcases List.mem_append.mp hmem with hold | hnew
      · exact houtcomes ▸ hold
      · obtain ⟨_, -, heq⟩ := List.mem_map.mp hnew
        cases heq

theorem hands_finish : Hands config worker worker.finish :=
  SameClient.hands ⟨rfl, rfl, rfl, rfl⟩

theorem hands_connect : Hands config worker worker.connect := by
  rw [NoxWorker.connect]
  split_ifs
  · exact hands_finish
  · exact SameClient.hands ⟨rfl, rfl, rfl, rfl⟩

theorem hands_connectFailed {code : Option NoxClientErrorCode} {detail : String} :
    Hands config worker (worker.connectFailed code detail) := by
  have hfinish : SameClient worker worker.finish := ⟨rfl, rfl, rfl, rfl⟩
  rw [NoxWorker.connectFailed]
  split_ifs
  · exact hands_finish
  · exact hands_fail hfinish
  · exact hands_fail hfinish
  · exact hands_fail hfinish
  · exact hands_fail hfinish
  · exact SameClient.hands ⟨rfl, rfl, rfl, rfl⟩

theorem hands_dismiss {client : ℕ} (connected : List ℕ) :
    Hands config worker ({ worker with connected }.dismiss client) :=
  ⟨List.subset_append_left _ _, fun _ hc => .inr ⟨hc, rfl⟩, fun _ hc => .inr ⟨hc, rfl⟩,
    fun _ _ hmem => .inl hmem⟩

/-- A worker that becomes ready hands its client to those that wait. -/
theorem hands_becomeReady {client : ℕ} (hnone : worker.client = none) :
    Hands config worker (worker.becomeReady config client) := by
  rw [NoxWorker.becomeReady]
  split_ifs
  · exact hands_dismiss worker.connected
  -- the waiters get the client that is now in use, and no client was in use before
  · refine ⟨List.Subset.refl _, fun other hc => ?_, fun _ _ => .inl rfl,
      fun call other hmem => ?_⟩
    · cases hnone.symm.trans hc
    · rcases List.mem_append.mp hmem with hold | hnew
      · exact .inl hold
      · obtain ⟨_, -, heq⟩ := List.mem_map.mp hnew
        obtain rfl := Except.ok.inj (Prod.mk.inj heq).2
        exact .inr rfl

/-- A call that asks for the client gets it, waits, or is rejected. -/
theorem hands_waitReady {call : ℕ} {aborted : Option CallError} :
    Hands config worker (worker.waitReady call aborted) := by
  unfold NoxWorker.waitReady
  split
  next client hclient =>
    refine ⟨List.Subset.refl _, fun _ hc => .inr ⟨hc, rfl⟩, fun _ hc => .inr ⟨hc, rfl⟩,
      fun call' other hmem => ?_⟩
    rcases List.mem_append.mp hmem with hold | hnew
    · exact .inl hold
    · cases List.mem_singleton.mp hnew
      exact .inr hclient
  next =>
    have hrejected : ∀ reason : CallError, Hands config worker
        { worker with
          asked := worker.asked ++ [call]
          outcomes := worker.outcomes ++ [(call, .error reason)] } := by
      refine fun reason => ⟨List.Subset.refl _, fun _ hc => .inr ⟨hc, rfl⟩,
        fun _ hc => .inr ⟨hc, rfl⟩, fun call' other hmem => ?_⟩
      rcases List.mem_append.mp hmem with hold | hnew
      · exact .inl hold
      · cases List.mem_singleton.mp hnew
    split_ifs
    · exact hrejected _
    · cases aborted with
      | some reason => exact hrejected reason
      | none => exact SameClient.hands ⟨rfl, rfl, rfl, rfl⟩

/-- Each step of the boot hands out the client in use only. -/
theorem hands_bootStep (h : Sound worker) {event : WorkerEvent}
    (hstep : bootStep config worker event = some worker') : Hands config worker worker' := by
  have hsame : SameClient worker worker.finish := ⟨rfl, rfl, rfl, rfl⟩
  have hbooting : ∀ {phase}, worker.phase = phase → phase ≠ .over → worker.client = none :=
    fun hphase hover => (h.booting (hphase ▸ hover)).1
  unfold NoxSdk.Worker.bootStep at hstep
  split at hstep <;> rename_i hphase
  · exact Option.some.inj hstep ▸ hands_fail hsame
  · obtain rfl := Option.some.inj hstep
    split_ifs
    · exact SameClient.hands ⟨rfl, rfl, rfl, rfl⟩
    · exact SameClient.hands ⟨rfl, rfl, rfl, rfl⟩
  · exact Option.some.inj hstep ▸ hands_fail hsame
  · exact Option.some.inj hstep ▸ SameClient.hands ⟨rfl, rfl, rfl, rfl⟩
  · exact Option.some.inj hstep ▸ SameClient.hands ⟨rfl, rfl, rfl, rfl⟩
  · exact Option.some.inj hstep ▸ hands_connect
  · exact Option.some.inj hstep ▸ hands_connectFailed
  · obtain rfl := Option.some.inj hstep
    split_ifs
    · exact hands_dismiss _
    · exact SameClient.hands ⟨rfl, rfl, rfl, rfl⟩
  · exact Option.some.inj hstep ▸ hands_connect
  · obtain rfl := Option.some.inj hstep
    split_ifs
    · exact SameClient.hands ⟨rfl, rfl, rfl, rfl⟩
    · exact hands_becomeReady (hbooting hphase nofun)
  · exact Option.some.inj hstep ▸ hands_becomeReady (hbooting hphase nofun)
  · exact Option.some.inj hstep ▸ hands_fail hsame
  · exact absurd hstep nofun

/-- Every step of a worker hands its client on so. -/
theorem hands_step (h : Sound worker) {event : WorkerEvent}
    (hstep : workerStep config worker event = some worker') : Hands config worker worker' := by
  unfold workerStep at hstep
  split at hstep
  · split_ifs at hstep
    exact Option.some.inj hstep ▸ hands_waitReady
  · split_ifs at hstep
    obtain rfl := Option.some.inj hstep
    refine ⟨List.Subset.refl _, fun _ hc => .inr ⟨hc, rfl⟩, fun _ hc => .inr ⟨hc, rfl⟩,
      fun call other hmem => ?_⟩
    rcases List.mem_append.mp hmem with hold | hnew
    · exact .inl hold
    · cases List.mem_singleton.mp hnew
  · exact Option.some.inj hstep ▸ SameClient.hands ⟨rfl, rfl, rfl, rfl⟩
  · obtain rfl := Option.some.inj hstep
    split_ifs
    · exact SameClient.hands ⟨rfl, rfl, rfl, rfl⟩
    · exact hands_fail ⟨rfl, rfl, rfl, rfl⟩
  · obtain rfl := Option.some.inj hstep
    rw [NoxWorker.noteTrap]
    split_ifs
    · exact hands_fail ⟨rfl, rfl, rfl, rfl⟩
    · exact SameClient.hands ⟨rfl, rfl, rfl, rfl⟩
  · split_ifs at hstep
    obtain rfl := Option.some.inj hstep
    rw [NoxWorker.acceptFailed]
    split_ifs
    · exact SameClient.hands ⟨rfl, rfl, rfl, rfl⟩
    · exact hands_fail ⟨rfl, rfl, rfl, rfl⟩
  · exact hands_bootStep h hstep

/-- The client is in use or was disconnected. -/
def Gave (worker : NoxWorker) (client : ℕ) : Prop :=
  client ∈ worker.disconnected ∨ worker.client = some client

/-- A client that a call got is still in use, or was disconnected. -/
theorem Hands.gave (h : Hands config worker worker') {client : ℕ} (hgave : worker.Gave client) :
    worker'.Gave client := by
  rcases hgave with hgone | hused
  · exact .inl (h.disconnected hgone)
  · exact (h.kept client hused).imp_right And.left

end NoxWorker

/-! ### The calls -/

/-- A call that was handed to a tunnel stays on tunnels. -/
def FetchCall.Tunnelled (call : FetchCall) : Prop :=
  call.handed.any Handed.isTunnel = true →
    call.onTunnel = true ∨ (call.phase ≠ .routing ∧ call.phase ≠ .onExit)

section Calls

variable {parseJson : Bytes → Option Js.Json} {urls : Urls} {settings : FetchSettings}
  {call call' : FetchCall} {remaining : ℕ}

theorem FetchCall.tunnelled_finish {outcome : CallOutcome} : (call.finish outcome).Tunnelled :=
  fun _ => .inr ⟨nofun, nofun⟩

theorem FetchCall.tunnelled_start {request : PreparedRequest} :
    (FetchCall.start request remaining).Tunnelled :=
  fun hany => absurd hany nofun

theorem FetchCall.tunnelled_follow {next : PreparedRequest}
    (h : call.handed.any Handed.isTunnel = true → call.onTunnel = true) :
    (call.follow next remaining).Tunnelled := by
  rw [FetchCall.follow]
  split_ifs
  · exact tunnelled_finish
  · exact tunnelled_finish
  · exact fun hany => .inl (h hany)

/-- A call that was on a tunnel stays on tunnels behind a redirect. -/
theorem FetchCall.tunnelled_afterReply {reply : DecodedHttpResponse}
    (h : call.handed.any Handed.isTunnel = true → call.onTunnel = true) :
    (call.afterReply parseJson urls reply remaining).Tunnelled := by
  rw [FetchCall.afterReply]
  split
  · exact tunnelled_finish
  · split_ifs
    · exact tunnelled_finish
    · exact tunnelled_finish
    · split
      · exact tunnelled_finish
      · split
        · exact tunnelled_finish
        · exact tunnelled_finish
        · exact tunnelled_follow h

/-- A retry of a failed tunnel goes to the tunnel again. -/
theorem FetchCall.tunnelled_afterFailure {failure : TunnelFailure}
    {before : Option TunnelFailure} : (call.afterFailure failure before remaining).Tunnelled := by
  rw [FetchCall.afterFailure]
  split_ifs
  · exact tunnelled_finish
  · exact fun _ => .inr ⟨nofun, nofun⟩

/-- A call that waits to be routed, or for the exit, is on tunnels once it was handed to one. -/
theorem FetchCall.Tunnelled.onTunnel (h : call.Tunnelled)
    (hphase : call.phase = .routing ∨ call.phase = .onExit)
    (hany : call.handed.any Handed.isTunnel = true) : call.onTunnel = true := by
  rcases h hany with hon | ⟨hrouting, hexit⟩
  · exact hon
  · exact absurd hphase (not_or.mpr ⟨hrouting, hexit⟩)

/-- A call that handed a hop to a tunnel stays on tunnels. -/
theorem FetchCall.Tunnelled.step (h : call.Tunnelled) {event : FetchEvent}
    (hstep : fetchStep parseJson urls settings call event = some call') : call'.Tunnelled := by
  unfold fetchStep at hstep
  split at hstep <;> rename_i hphase
  · exact Option.some.inj hstep ▸ tunnelled_finish
  · obtain rfl := Option.some.inj hstep
    refine fun hany => .inl (h.onTunnel (.inl hphase) ?_)
    simpa [Handed.isTunnel] using hany
  · exact Option.some.inj hstep ▸ fun _ => .inr ⟨nofun, nofun⟩
  · exact Option.some.inj hstep ▸ tunnelled_finish
  · exact Option.some.inj hstep ▸ tunnelled_afterReply (h.onTunnel (.inr hphase))
  · exact Option.some.inj hstep ▸ tunnelled_finish
  · exact Option.some.inj hstep ▸ fun _ => .inr ⟨nofun, nofun⟩
  · exact Option.some.inj hstep ▸ tunnelled_afterFailure
  -- the reply of a session sets `onTunnel` before a redirect can be routed
  · exact Option.some.inj hstep ▸ tunnelled_afterReply fun _ => rfl
  · exact absurd hstep nofun

/-- Only a call that waits for it is routed. -/
theorem fetchStep_routed {choice : Except CallError Via}
    (hstep : fetchStep parseJson urls settings call (.routed choice remaining) = some call') :
    call.phase = .routing := by
  unfold fetchStep at hstep
  split at hstep
  all_goals first | assumption | contradiction

end Calls

/-! ### Runs -/

/-- The hop may take `httpRequest`. -/
def HttpHop.Allowed (config : FetchConfig) (hop : HttpHop) : Prop :=
  config.tls = .preferred ∧ hop.afterTunnel = false ∧
    (NoTarget hop.url ∨ hop.tunnelExitKnown = false)

/-- The client of a run of `sendPrepared` is disconnected, or in use and the run has a transport. -/
structure Sending.Sound (worker : NoxWorker) (sending : Sending) : Prop where
  gave : worker.Gave sending.client
  transport : sending.client ∈ worker.disconnected ∨ sending.tunnels = true
  tunnelled : sending.call.Tunnelled

namespace Fetches

variable {config : FetchConfig} {fetches fetches' : Fetches}

/-- What every event of a worker with its calls keeps. A hop that must not take `httpRequest` was
handed to a client that is disconnected. -/
structure Sound (config : FetchConfig) (fetches : Fetches) : Prop where
  worker : fetches.worker.Sound
  transport : ∀ client, fetches.worker.client = some client → fetches.worker.tunnels = true
  gave : ∀ call client, (call, .ok client) ∈ fetches.worker.outcomes → fetches.worker.Gave client
  sendings : ∀ id sending, fetches.sendings id = some sending → sending.Sound fetches.worker
  handed : ∀ hop ∈ fetches.handed,
    hop.client ∈ fetches.worker.disconnected ∨ hop.Allowed config
  sent : ∀ hop ∈ fetches.sent, hop.Allowed config

theorem sound_boot {check : BootCheck} : Sound config (boot check) where
  worker := NoxWorker.sound_boot
  transport client hclient := by
    cases check <;> exact absurd hclient nofun
  gave call client hmem := by
    cases check <;> exact absurd hmem List.not_mem_nil
  sendings _ _ hsome := absurd hsome nofun
  handed _ hmem := absurd hmem List.not_mem_nil
  sent _ hmem := absurd hmem List.not_mem_nil

/-- A step of the worker keeps the clients of the calls in use, or disconnects them. -/
theorem Sound.worker_step (h : Sound config fetches) (htls : config.tls ≠ .off)
    {event : WorkerEvent} {worker : NoxWorker}
    (hstep : workerStep config.boot fetches.worker event = some worker) :
    Sound config { fetches with worker } := by
  have hhands := NoxWorker.hands_step h.worker hstep
  refine ⟨h.worker.step hstep, fun client hclient => ?_, fun call client hmem => ?_,
    fun id sending hsome => ?_, fun hop hmem => ?_, h.sent⟩
  · rcases hhands.fresh client hclient with hfresh | ⟨hbefore, hsame⟩
    · exact hfresh.trans (decide_eq_true htls)
    · exact hsame.trans (h.transport client hbefore)
  · rcases hhands.outcomes call client hmem with hbefore | hnow
    · exact hhands.gave (h.gave call client hbefore)
    · exact .inr hnow
  · have hsending := h.sendings id sending hsome
    exact ⟨hhands.gave hsending.gave, hsending.transport.imp_left fun hgone =>
      hhands.disconnected hgone, hsending.tunnelled⟩
  · exact (h.handed hop hmem).imp_left fun hgone => hhands.disconnected hgone

/-- A run of `sendPrepared` starts with the transport of the worker. -/
theorem Sound.send (h : Sound config fetches) {id : SendId} {client : ℕ}
    {request : PreparedRequest} {remaining : ℕ} (hgave : fetches.worker.Gave client) :
    Sound config (fetches.send id client request remaining) := by
  refine { h with sendings := fun other sending hsome => ?_ }
  dsimp only [Fetches.send] at hsome
  rcases eq_or_ne other id with rfl | hne
  · rw [Function.update_self] at hsome
    obtain rfl := Option.some.inj hsome
    exact ⟨hgave, hgave.imp_right (h.transport client), FetchCall.tunnelled_start⟩
  · rw [Function.update_of_ne hne] at hsome
    exact h.sendings other sending hsome

/-- A call that goes on hands a hop to what `chooseTransport` allows. -/
theorem Sound.proceed (h : Sound config fetches) {id : SendId} {sending : Sending}
    {event : FetchEvent} (hsending : fetches.sendings id = some sending)
    (hstep : fetches.proceed config id sending event = some fetches') : Sound config fetches' := by
  obtain ⟨call, hcall, rfl⟩ := Option.map_eq_some_iff.mp hstep
  have hsound := h.sendings id sending hsending
  refine { h with sendings := fun other sending' hsome => ?_ }
  dsimp only at hsome
  rcases eq_or_ne other id with rfl | hne
  · rw [Function.update_self] at hsome
    obtain rfl := Option.some.inj hsome
    exact ⟨hsound.gave, hsound.transport, hsound.tunnelled.step hcall⟩
  · rw [Function.update_of_ne hne] at hsome
    exact h.sendings other sending' hsome

/-- A hop that takes `httpRequest` while its client is connected may. -/
theorem Sound.allowed (h : Sound config fetches) (htls : config.tls ≠ .off) {id : SendId}
    {sending : Sending} {tunnelExitKnown : Bool} (hsending : fetches.sendings id = some sending)
    (hphase : sending.call.phase = .routing)
    (hroute : route config sending tunnelExitKnown = .ok .http) :
    sending.client ∈ fetches.worker.disconnected ∨
      (httpHop config id sending tunnelExitKnown).Allowed config := by
  have hsound := h.sendings id sending hsending
  -- only a client that was disconnected goes without the transport
  refine hsound.transport.imp_right fun htunnels => ?_
  rw [route, if_pos htunnels] at hroute
  rcases hchoice : chooseTransport config.tls (config.hopUrl sending.call.current.url)
    tunnelExitKnown sending.call.hop sending.call.onTunnel with error | ⟨via, reason⟩
  · rw [hchoice] at hroute
    exact absurd hroute nofun
  rw [hchoice] at hroute
  obtain rfl := Except.ok.inj hroute
  obtain ⟨hpreferred, hstarted, htarget⟩ := chooseTransport_http htls hchoice
  refine ⟨hpreferred, Bool.eq_false_iff.mpr fun hany => ?_, htarget⟩
  exact absurd ((hsound.tunnelled.onTunnel (.inl hphase) hany).symm.trans hstarted) nofun

/-- A closed transport throws. -/
theorem requestBytes_closed {input : String} {init : RequestInit} {bytes : Bytes} {closed : Bool}
    (h : requestBytes closed input init = .ok bytes) : closed = false := by
  unfold requestBytes at h
  split at h
  · exact absurd h nofun
  · split_ifs at h with hclosed
    exact Bool.eq_false_iff.mpr hclosed

/-- What is written is of a client that is connected, and so was handed over with its transport. -/
theorem Sound.post (h : Sound config fetches) {hop : HttpHop} (hhop : hop ∈ fetches.handed)
    (input : String) (init : RequestInit) : Sound config (fetches.post hop input init) := by
  rw [Fetches.post]
  split
  next bytes hbytes =>
    have hconnected := of_decide_eq_false (requestBytes_closed hbytes)
    refine { h with sent := List.forall_mem_append.mpr ⟨h.sent,
      List.forall_mem_singleton.mpr ?_⟩ }
    exact (h.handed hop hhop).resolve_left hconnected
  next => exact h

/-- Each event keeps the hops within what `tls` allows. -/
theorem Sound.step (h : Sound config fetches) (htls : config.tls ≠ .off) {event : FetchesEvent}
    (hstep : fetches.step config event = some fetches') : Sound config fetches' := by
  cases event with
  | worker event =>
    obtain ⟨worker, hworker, rfl⟩ := Option.map_eq_some_iff.mp hstep
    exact h.worker_step htls hworker
  | starts call client request remaining =>
    rw [Fetches.step] at hstep
    split_ifs at hstep with hgiven
    obtain rfl := Option.some.inj hstep
    exact h.send (h.gave call client hgiven.1)
  | verifies call request remaining =>
    rw [Fetches.step] at hstep
    split at hstep
    next sending hsending _ =>
      split_ifs at hstep
      obtain rfl := Option.some.inj hstep
      exact h.send (h.sendings _ sending hsending).gave
    next => exact absurd hstep nofun
  | routes id tunnelExitKnown remaining =>
    obtain ⟨sending, hsending, hstep⟩ := Option.bind_eq_some_iff.mp hstep
    obtain ⟨fetches'', hproceed, rfl⟩ := Option.map_eq_some_iff.mp hstep
    have hkept := h.proceed hsending hproceed
    split_ifs with hroute
    -- the hop is handed over, and the route was allowed for it
    · obtain ⟨call, hcall, rfl⟩ := Option.map_eq_some_iff.mp hproceed
      exact { hkept with handed := List.forall_mem_append.mpr ⟨h.handed,
        List.forall_mem_singleton.mpr (h.allowed htls hsending (fetchStep_routed hcall) hroute)⟩ }
    · exact hkept
  | posts index input init =>
    obtain ⟨hop, hhop, rfl⟩ := Option.map_eq_some_iff.mp hstep
    exact h.post (List.mem_of_getElem? hhop) input init
  | proceeds id event =>
    cases event with
    | routed choice remaining => exact absurd hstep nofun
    | _ =>
      obtain ⟨sending, hsending, hproceed⟩ := Option.bind_eq_some_iff.mp hstep
      exact h.proceed hsending hproceed

end Fetches

/-- **No downgrade to plaintext.** In every run of a worker with its calls: with `tls` `"required"`
no hop is sent with `httpRequest`; with `"preferred"` one is only when, as it was routed, its URL
had no tunnel target or no exit of the topology advertised tunnels; with either, none is once an
earlier hop or attempt of its call went to a tunnel.

`chooseTransport` keeps this for a call that has a transport (`chooseTransport_http`). A call gets
it with a client in use (`Sound.send`), and loses neither but when the client is disconnected
(`NoxWorker.hands_step`); from then on nothing of its hops is written (`Sound.post`). -/
theorem no_plaintext_downgrade {config : FetchConfig} {check : BootCheck} {fetches : Fetches}
    (hrun : Run (Fetches.step config) (.boot check) fetches) :
    (config.tls = .required → fetches.sent = []) ∧
    (config.tls = .preferred →
      ∀ hop ∈ fetches.sent, NoTarget hop.url ∨ hop.tunnelExitKnown = false) ∧
    (config.tls ≠ .off → ∀ hop ∈ fetches.sent, hop.afterTunnel = false) := by
  -- the invariant is one of workers that use tunnels
  have hallowed : config.tls ≠ .off → ∀ hop ∈ fetches.sent, hop.Allowed config := fun htls =>
    have hsound : fetches.Sound config := hrun.invariant Fetches.sound_boot
      fun _ _ _ hbefore hstep => hbefore.step htls hstep
    hsound.sent
  refine ⟨fun hrequired => List.eq_nil_iff_forall_not_mem.mpr fun hop hhop => ?_,
    fun hpreferred hop hhop => ?_, fun htls hop hhop => (hallowed htls hop hhop).2.1⟩
  · have hoff : config.tls ≠ .off := by
      rw [hrequired]
      exact nofun
    exact absurd (hrequired.symm.trans (hallowed hoff hop hhop).1) nofun
  · have hoff : config.tls ≠ .off := by
      rw [hpreferred]
      exact nofun
    exact (hallowed hoff hop hhop).2.2

/-! ### Two runs -/

private def nodeUrl (protocol : String) : HopUrl := ⟨protocol, none, "node.example", "/", .ok none⟩

private def nodeConfig (tls : TlsSetting) (protocol : String) : FetchConfig where
  tls := tls
  warmup := false
  storage := false
  settings := ⟨30000, 1048576⟩
  parseJson _ := none
  urls := ⟨fun _ => none, fun _ _ => none⟩
  hopUrl _ := nodeUrl protocol

private def nodeRequest : PreparedRequest :=
  prepared (fun _ => none) "POST" "http://node.example/" [] [] .follow

private def packetUrl : String :=
  "kps:192.0.2.1:443:uEiAAAAAAAAAAAAAAAAAAAAAAAAAAAAAAAAAAAAAAAAAAAA/api/v1/packets"

private def packetInit : RequestInit := ⟨some "POST", [], .bytes [7]⟩

/-- A worker is ready and hands its client to a call. -/
private def bootEvents : List FetchesEvent :=
  [.worker (.wasmLoaded (.ok ())), .worker (.tlsLoaded (.ok ())), .worker (.cachesRead (.ok ())),
    .worker (.asksReady 1 none), .worker (.connected (.ok 7)), .worker .resumed,
    .starts 1 7 nodeRequest 9000, .routes (.call 1) true 9000]

/-- A stale verdict fails the worker before its answer is checked, so that the check has neither a
transport nor a connected client; its hop, handed over all the same, posts a packet. -/
private def lateEvents (hop : ℕ) : List FetchesEvent :=
  [.worker .staleVerdict, .verifies 1 nodeRequest 9000, .routes (.verify 1) true 9000,
    .posts hop packetUrl packetInit]

/-- A required worker: the call goes through a tunnel, and nothing is written for the check. -/
private def requiredEvents : List FetchesEvent :=
  bootEvents ++ [.proceeds (.call 1) (.acquired (.ok ())),
    .proceeds (.call 1) (.sessionAnswered (.ok ⟨200, [], [], false⟩) 8000)] ++ lateEvents 0

/-- A worker that prefers tunnels: only the call itself, to an http URL, is written. -/
private def preferredEvents : List FetchesEvent :=
  bootEvents ++ [.posts 0 packetUrl packetInit,
    .proceeds (.call 1) (.exitAnswered (.ok ⟨200, [], [], false⟩) 8000)] ++ lateEvents 1

theorem no_plaintext_downgrade_sample :
    (∃ fetches, runEvents (Fetches.step (nodeConfig .required "https:")) (.boot .passed)
        requiredEvents = some fetches ∧
      fetches.handed.map HttpHop.id = [.verify 1] ∧ fetches.sent = []) ∧
    ∃ fetches, runEvents (Fetches.step (nodeConfig .preferred "http:")) (.boot .passed)
        preferredEvents = some fetches ∧
      fetches.handed.map HttpHop.id = [.call 1, .verify 1] ∧
      fetches.sent.map HttpHop.id = [.call 1] ∧
      ∀ hop ∈ fetches.sent, (NoTarget hop.url ∨ hop.tunnelExitKnown = false) ∧
        hop.afterTunnel = false := by
  have hrequired : (runEvents (Fetches.step (nodeConfig .required "https:")) (.boot .passed)
      requiredEvents).map (fun fetches => fetches.handed.map HttpHop.id) =
        some [.verify 1] := by decide +kernel
  have hpreferred : (runEvents (Fetches.step (nodeConfig .preferred "http:")) (.boot .passed)
      preferredEvents).map (fun fetches =>
        (fetches.handed.map HttpHop.id, fetches.sent.map HttpHop.id)) =
          some ([.call 1, .verify 1], [.call 1]) := by decide +kernel
  constructor
  · obtain ⟨fetches, hrun, hhanded⟩ := Option.map_eq_some_iff.mp hrequired
    exact ⟨fetches, hrun, hhanded, (no_plaintext_downgrade (run_of_runEvents hrun)).1 rfl⟩
  · obtain ⟨fetches, hrun, hhops⟩ := Option.map_eq_some_iff.mp hpreferred
    obtain ⟨hhanded, hsent⟩ := Prod.mk.inj hhops
    obtain ⟨-, htarget, htunnel⟩ := no_plaintext_downgrade (run_of_runEvents hrun)
    exact ⟨fetches, hrun, hhanded, hsent, fun hop hhop => ⟨htarget rfl hop hhop,
      htunnel nofun hop hhop⟩⟩

end NoxSdk.Worker
