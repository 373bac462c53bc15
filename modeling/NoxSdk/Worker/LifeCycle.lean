import NoxSdk.Worker.FetchCall

/-!
# The life of a worker

`boot` (`core.ts`) is a chain of awaits: the WebAssembly modules, the caches, `connect` with its
retries, the warm-up. Calls are accepted in the meantime and wait for the client; a stale verdict,
WebAssembly traps and a rejected `acceptCall` may fail the worker at any time. A worker is a state;
its events are the ends of the awaits, the calls that ask for the client, their aborts and
deadlines, and what may fail it.

An event brings the description of an error where one is reported. `signals`, `asked`, `outcomes`,
`connected` and `disconnected` record what was signalled, which calls asked for the client and what
they got, the clients that `connect` returned and those that were disconnected. Logging and the
caches themselves are left out.
-/

namespace NoxSdk.Worker

/-- `FAILED_CODES`. -/
inductive FailedCode
  | badConfig
  | unsupportedPlatform
  | wasmBlocked
  | snapshotInvalid
  | snapshotStale
  | internalError
  deriving DecidableEq, Repr

/-- The text of a code. -/
def FailedCode.value : FailedCode → String
  | badConfig => "bad-config"
  | unsupportedPlatform => "unsupported-platform"
  | wasmBlocked => "wasm-blocked"
  | snapshotInvalid => "snapshot-invalid"
  | snapshotStale => "snapshot-stale"
  | internalError => "internal-error"

/-- A call of `signalReady` or `signalFailed`. -/
inductive Signal
  | ready
  | failed (code : FailedCode) (message : String)
  deriving DecidableEq, Repr

/-- What the boot reads of the config and the harness: `tls` is not off, `warmup`, there is
storage. -/
structure BootConfig where
  tls : Bool
  warmup : Bool
  storage : Bool

/-- What the checks before the first await find. -/
inductive BootCheck
  | passed
  | snapshotInvalid (detail : String)
  | bootstrapInvalid (detail : String)
  | badConfig (message : String)
  | missingPlatform (missing : String)

/-- What `boot` waits for; a client that `connectWithRetries` returned is on its way to `boot`. -/
inductive BootPhase
  | loadingWasm
  | loadingTls
  | readingCaches
  | connecting
  | sleeping
  | returned (client : ℕ)
  | warming (client : ℕ)
  | rejected (detail : String)
  | over
  deriving DecidableEq, Repr

/-- What a call that asked for the client got. -/
abbrev WaitOutcome := Except CallError ℕ

/-- `NoxWorker`. -/
structure NoxWorker where
  phase : BootPhase
  client : Option ℕ
  failed : Bool
  stopped : Bool
  kpsUnsupported : Bool
  accepting : Bool
  tunnels : Bool
  cacheTimer : Bool
  readyWaiters : List ℕ
  trapTimes : List ℕ
  signals : List Signal
  asked : List ℕ
  outcomes : List (ℕ × WaitOutcome)
  connected : List ℕ
  disconnected : List ℕ

/-- `WASM_TRAP_LIMIT`. -/
def wasmTrapLimit : ℕ := 3

/-- `WASM_TRAP_WINDOW_MS`. -/
def wasmTrapWindowMs : ℕ := 60000

namespace NoxWorker

variable (config : BootConfig) (worker : NoxWorker)

/-- `shutdown`. -/
def shutdown (reason : CallError) : NoxWorker :=
  { worker with
    cacheTimer := false
    tunnels := false
    disconnected := worker.disconnected ++ worker.client.toList
    client := none
    outcomes := worker.outcomes ++ worker.readyWaiters.map fun call => (call, .error reason)
    readyWaiters := [] }

/-- `fail`. -/
def fail (code : FailedCode) (message : String) : NoxWorker :=
  if worker.failed then worker
  else { worker with
    failed := true
    signals := worker.signals ++ [Signal.failed code message] }.shutdown
      ⟨.networkError, s!"The worker failed ({code.value})"⟩

/-- The end of `boot`, for a worker that failed or stopped. -/
def finish : NoxWorker := { worker with phase := .over }

/-- A client that came too late. -/
def dismiss (client : ℕ) : NoxWorker :=
  { worker with phase := .over, disconnected := worker.disconnected ++ [client] }

/-- The advice in the messages about a blocked module. -/
def cspAdvice : String :=
  "the embedder's Content-Security-Policy must allow 'wasm-unsafe-eval'"

/-- The top of the loop of `connectWithRetries`. -/
def connect : NoxWorker :=
  if worker.failed ∨ worker.stopped then worker.finish else { worker with phase := .connecting }

/-- The accept loop starts, and the caches are read. -/
def accept : NoxWorker := { worker with accepting := true, phase := .readingCaches }

/-- The `catch` of `connectWithRetries`. -/
def connectFailed (code : Option NoxClientErrorCode) (detail : String) : NoxWorker :=
  if worker.failed ∨ worker.stopped then worker.finish
  else if code = some .topologyStale then worker.finish.fail .snapshotStale
    s!"This bundle's pinned node set is superseded: {detail}"
  else if worker.kpsUnsupported then worker.finish.fail .unsupportedPlatform
    "This harness does not support KPS dialing (anonRpcWorker.kps)"
  else if code = some .wasmNotInitialized then worker.finish.fail .wasmBlocked
    s!"WebAssembly bindings are unusable: {detail}"
  else if code = some .invalidConfig ∨ code = some .modeViolation then
    worker.finish.fail .internalError s!"The worker built an invalid client config: {detail}"
  else { worker with phase := .sleeping }

/-- The end of `boot`, with the client that is connected and warm. -/
def becomeReady (client : ℕ) : NoxWorker :=
  if worker.failed ∨ worker.stopped then worker.dismiss client
  else { worker with
    phase := .over
    client := some client
    tunnels := config.tls
    cacheTimer := config.storage
    signals := worker.signals ++ [.ready]
    outcomes := worker.outcomes ++ worker.readyWaiters.map fun call => (call, .ok client)
    readyWaiters := [] }

/-- `waitReady`: the call gets the client, is rejected or waits. -/
def waitReady (call : ℕ) (aborted : Option CallError) : NoxWorker :=
  let asking := { worker with asked := worker.asked ++ [call] }
  match worker.client with
  | some client => { asking with outcomes := worker.outcomes ++ [(call, .ok client)] }
  | none =>
    if worker.failed ∨ worker.stopped then
      let reason : CallError := ⟨.networkError, "The worker is not running"⟩
      { asking with outcomes := worker.outcomes ++ [(call, .error reason)] }
    else match aborted with
      | some reason => { asking with outcomes := worker.outcomes ++ [(call, .error reason)] }
      | none => { asking with readyWaiters := worker.readyWaiters ++ [call] }

/-- `onAbort` of a waiting call. -/
def abortWait (call : ℕ) (reason : CallError) : NoxWorker :=
  { worker with
    readyWaiters := worker.readyWaiters.erase call
    outcomes := worker.outcomes ++ [(call, .error reason)] }

/-- `noteTrap`. -/
def noteTrap (now : ℕ) : NoxWorker :=
  let trapTimes := (worker.trapTimes ++ [now]).dropWhile fun time =>
    decide (now - time > wasmTrapWindowMs)
  let worker := { worker with trapTimes }
  if wasmTrapLimit ≤ trapTimes.length then worker.fail .internalError
    s!"WebAssembly trapped {trapTimes.length} times within {wasmTrapWindowMs} ms"
  else worker

/-- The `catch` of the accept loop around `acceptCall`. -/
def acceptFailed (detail : String) : NoxWorker :=
  let worker := { worker with accepting := false }
  if worker.failed then worker
  else { worker with stopped := true }.fail .internalError s!"acceptCall rejected: {detail}"

/-- `boot` up to its first await. -/
def boot (check : BootCheck) : NoxWorker :=
  let worker : NoxWorker :=
    { phase := .loadingWasm, client := none, failed := false, stopped := false,
      kpsUnsupported := false, accepting := false, tunnels := false, cacheTimer := false,
      readyWaiters := [], trapTimes := [], signals := [], asked := [], outcomes := [],
      connected := [], disconnected := [] }
  match check with
  | .passed => worker
  | .snapshotInvalid detail => worker.finish.fail .snapshotInvalid
    s!"The pinned snapshot in this bundle is invalid: {detail}"
  | .bootstrapInvalid detail => worker.finish.fail .snapshotInvalid
    s!"The discovery bootstrap in this bundle is invalid: {detail}"
  | .badConfig message => worker.finish.fail .badConfig message
  | .missingPlatform missing => worker.finish.fail .unsupportedPlatform
    s!"This harness lacks {missing}, which the Nox worker needs"

end NoxWorker

/-- What happens to a worker. -/
inductive WorkerEvent
  | wasmLoaded (result : Except String Unit)
  | tlsLoaded (result : Except String Unit)
  | cachesRead (result : Except String Unit)
  | dialUnsupported
  | connected (result : Except (Option NoxClientErrorCode × String) ℕ)
  | slept
  | resumed
  | warmed
  | caught
  | asksReady (call : ℕ) (aborted : Option CallError)
  | aborted (call : ℕ) (reason : CallError)
  | staleVerdict
  | trapped (now : ℕ)
  | acceptFailed (detail : String)

/-- The ends of the awaits of `boot`, each while `boot` waits for it. -/
def bootStep (config : BootConfig) (worker : NoxWorker) (event : WorkerEvent) :
    Option NoxWorker :=
  match worker.phase, event with
  | .loadingWasm, .wasmLoaded (.error detail) => some (worker.finish.fail .wasmBlocked
    (s!"WebAssembly could not be compiled or instantiated ({detail}); " ++ NoxWorker.cspAdvice))
  | .loadingWasm, .wasmLoaded (.ok ()) =>
    some (if config.tls then { worker with phase := .loadingTls } else worker.accept)
  | .loadingTls, .tlsLoaded (.error detail) => some (worker.finish.fail .wasmBlocked
    (s!"The TLS module could not be compiled or instantiated ({detail}); " ++
      NoxWorker.cspAdvice))
  | .loadingTls, .tlsLoaded (.ok ()) => some worker.accept
  | .readingCaches, .cachesRead (.error detail) => some { worker with phase := .rejected detail }
  | .readingCaches, .cachesRead (.ok ()) => some worker.connect
  | .connecting, .connected (.error (code, detail)) => some (worker.connectFailed code detail)
  | .connecting, .connected (.ok client) =>
    let worker := { worker with connected := worker.connected ++ [client] }
    some (if worker.failed ∨ worker.stopped then worker.dismiss client
      else { worker with phase := .returned client })
  | .sleeping, .slept => some worker.connect
  | .returned client, .resumed =>
    some (if config.warmup then { worker with phase := .warming client }
      else worker.becomeReady config client)
  | .warming client, .warmed => some (worker.becomeReady config client)
  | .rejected detail, .caught =>
    some (worker.finish.fail .internalError s!"Unexpected boot failure: {detail}")
  | _, _ => none

/-- One event of a worker. A call asks for the client once, and is aborted while it waits. -/
def workerStep (config : BootConfig) (worker : NoxWorker) (event : WorkerEvent) :
    Option NoxWorker :=
  match event with
  | .asksReady call aborted =>
    if call ∈ worker.asked then none else some (worker.waitReady call aborted)
  | .aborted call reason =>
    if call ∈ worker.readyWaiters then some (worker.abortWait call reason) else none
  | .dialUnsupported => some { worker with kpsUnsupported := true }
  | .staleVerdict => some (if worker.client = none then worker else worker.fail .snapshotStale
    "Served topologies agree the registry no longer lists every pinned member of a route layer")
  | .trapped now => some (worker.noteTrap now)
  | .acceptFailed detail =>
    if worker.accepting then some (worker.acceptFailed detail) else none
  | event => bootStep config worker event

end NoxSdk.Worker
