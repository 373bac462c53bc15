import NoxSdk.Js
import NoxSdk.Lib.Chunks
import NoxSdk.Lib.Runs
import NoxSdk.Lib.WorkerPool

/-!
# Batches of JSON-RPC calls

`jsonRpcCalls` sends its calls in batches, at most four at a time, and the calls of a batch that the
endpoint does not take one by one, again at most four at a time. The run is a pool of chunks whose
tasks are a request or a pool of single calls. The endpoint answers the requests in any order, and
what it answers is part of the event.

Workers go on when another one has failed, on both levels, so requests are in flight also after the
whole has rejected.
-/

namespace NoxSdk.Client.Rpc

open Js (Json JsonNumber)
open NoxSdk.Lib

/-- `MAX_RPC_BATCH_SIZE`. -/
def maxRpcBatchSize : ℕ := 50

/-- `RPC_CONCURRENCY`. -/
def rpcConcurrency : ℕ := 4

/-- `JsonRpcCall`. -/
structure JsonRpcCall where
  method : String
  params : List Json

/-- What `postJson` ends with: it throws, or there is a status, and the value of the body if it is
JSON. -/
inductive RpcReply
  | threw (text : String)
  | replied (status : ℕ) (body : Option Json)

/-- `response.ok`. -/
def okStatus (status : ℕ) : Bool := 200 ≤ status && status ≤ 299

/-- `batchRejectedByStatus`. -/
def batchRejectedByStatus (status : ℕ) : Bool :=
  400 ≤ status && status < 500 && status != 408 && status != 429

/-- `isRecord`: arrays are records as well. -/
def isRecord : Json → Bool
  | .object _ | .array _ => true
  | _ => false

/-- `hexResult`. -/
def hexResult (entry : Option Json) : Except String String :=
  match entry with
  | none => .error "RPC response is not an object"
  | some entry =>
    if !isRecord entry then .error "RPC response is not an object"
    else match (entry.field "error").bind (·.field "message") with
    | some (.string message) => .error message
    | _ =>
      match entry.field "result" with
      | some (.string result) => .ok result
      | _ => .error "RPC response has no hex result"

/-- `jsonRpcCall`, when its request has been answered. -/
def readSingle : RpcReply → Except String String
  | .threw text => .error text
  | .replied status body => if okStatus status then hexResult body else .error s!"HTTP {status}"

/-- The entry is one for this id. -/
def hasId (id : ℕ) (entry : Json) : Bool :=
  isRecord entry && match entry.field "id" with
  | some (.number n) => n == .integer id
  | _ => false

/-- `byId.get(id)`: a later entry takes the place of an earlier one. -/
def entryOf (entries : List Json) (id : ℕ) : Option Json := (entries.filter (hasId id)).getLast?

/-- The result of one call of a batch. -/
def entryResult (entries : List Json) (id : ℕ) : Except String String :=
  match entryOf entries id with
  | none => .error s!"RPC batch response is missing call {id}"
  | some entry => hexResult (some entry)

/-- What a batch ends with. -/
inductive BatchEnd
  | unsupported
  | failed (text : String)
  | results (results : List String)

/-- `jsonRpcBatch`, when the request of its batch has been answered. -/
def readBatch (count : ℕ) : RpcReply → BatchEnd
  | .threw text => .failed text
  | .replied status body =>
    if !okStatus status && !batchRejectedByStatus status then .failed s!"HTTP {status}"
    else match okStatus status, body with
    | true, some (.array entries) =>
      match (List.range count).mapM (entryResult entries) with
      | .ok results => .results results
      | .error text => .failed text
    | _, _ => .unsupported

/-! ### The run -/

/-- A request: in flight, or ended. -/
inductive Flight
  | flying
  | ended

/-- The requests in flight of one request. -/
def Flight.load : Flight → ℕ
  | .flying => 1
  | .ended => 0

/-- The calls of a refused batch, one by one. -/
abbrev SingleCalls := Pool Flight String

/-- The task of a chunk: its request, a batch or the call of a chunk with one call, or its calls
one by one. -/
inductive ChunkTask
  | request (flight : Flight)
  | oneByOne (pool : SingleCalls)

/-- The requests in flight of a chunk. -/
def ChunkTask.load : ChunkTask → ℕ
  | .request flight => flight.load
  | .oneByOne pool => pool.load Flight.load

/-- A run of `jsonRpcCalls`. A single call goes the same way as a chunk with one call. -/
abbrev RpcRun := Pool ChunkTask (List String)

/-- The task of a chunk that a worker takes. -/
def startChunk (_ : ℕ) : ChunkTask := .request .flying

/-- A single call that a worker takes. -/
def startCall (_ : ℕ) : Flight := .flying

/-- The chunks of the calls. -/
def rpcChunks (calls : List JsonRpcCall) : List (List JsonRpcCall) := chunks maxRpcBatchSize calls

/-- The run when its workers have sent their first requests. -/
def startCalls (calls : List JsonRpcCall) : RpcRun :=
  .begin startChunk (rpcChunks calls).length rpcConcurrency

/-- An answer of the endpoint: to the request of a chunk, or to one of its single calls. -/
inductive RpcEvent
  | chunk (index : ℕ) (reply : RpcReply)
  | call (index id : ℕ) (reply : RpcReply)

/-- The request of a chunk is answered. -/
def chunkAnswered (run : RpcRun) (index : ℕ) (calls : List JsonRpcCall) (reply : RpcReply) :
    RpcRun :=
  if calls.length = 1 then
    match readSingle reply with
    | .ok result => run.finish startChunk index [result]
    | .error _ => run.fail index (.request .ended)
  else
    match readBatch calls.length reply with
    | .results results => run.finish startChunk index results
    | .failed _ => run.fail index (.request .ended)
    | .unsupported =>
      run.put index (.running (.oneByOne (.begin startCall calls.length rpcConcurrency)))

/-- A single call of a batch that is still waited for is answered. -/
def callAnswered (run : RpcRun) (index : ℕ) (pool : SingleCalls) (id : ℕ) (reply : RpcReply) :
    RpcRun :=
  match readSingle reply with
  | .ok result =>
    let pool := pool.finish startCall id result
    match pool.results with
    | some results => run.finish startChunk index results
    | none => run.put index (.running (.oneByOne pool))
  | .error _ => run.fail index (.oneByOne (pool.fail id .ended))

/-- A single call of a batch that has failed is answered. -/
def leftAnswered (run : RpcRun) (index : ℕ) (pool : SingleCalls) (id : ℕ) (reply : RpcReply) :
    RpcRun :=
  match readSingle reply with
  | .ok result => run.put index (.failed (.oneByOne (pool.finish startCall id result)))
  | .error _ => run.put index (.failed (.oneByOne (pool.fail id .ended)))

/-- One answer; only what is in flight is answered. -/
def rpcStep (calls : List JsonRpcCall) (run : RpcRun) : RpcEvent → Option RpcRun
  | .chunk index reply =>
    match run.items[index]?, (rpcChunks calls)[index]? with
    | some (.running (.request .flying)), some chunk => some (chunkAnswered run index chunk reply)
    | _, _ => none
  | .call index id reply =>
    match run.items[index]? with
    | some (.running (.oneByOne pool)) =>
      match pool.items[id]? with
      | some (.running .flying) => some (callAnswered run index pool id reply)
      | _ => none
    | some (.failed (.oneByOne pool)) =>
      match pool.items[id]? with
      | some (.running .flying) => some (leftAnswered run index pool id reply)
      | _ => none
    | _ => none

/-- What `jsonRpcCalls` resolves with, once it does. -/
def resolved (run : RpcRun) : Option (List String) := run.results.map List.flatten

/-- The requests in flight. -/
def inFlight (run : RpcRun) : ℕ := run.load ChunkTask.load

/-- What an answer does: the three places in which it finds its request. -/
theorem rpcStep_eq_some {calls : List JsonRpcCall} {run run' : RpcRun} {event : RpcEvent}
    (h : rpcStep calls run event = some run') :
    (∃ index reply chunk, event = .chunk index reply ∧ (rpcChunks calls)[index]? = some chunk ∧
      run.items[index]? = some (.running (.request .flying)) ∧
      run' = chunkAnswered run index chunk reply) ∨
    (∃ index id reply pool, event = .call index id reply ∧
      run.items[index]? = some (.running (.oneByOne pool)) ∧
      pool.items[id]? = some (.running .flying) ∧ run' = callAnswered run index pool id reply) ∨
    ∃ index id reply pool, event = .call index id reply ∧
      run.items[index]? = some (.failed (.oneByOne pool)) ∧
      pool.items[id]? = some (.running .flying) ∧ run' = leftAnswered run index pool id reply := by
  cases event with
  | chunk index reply =>
    left
    rw [rpcStep] at h
    split at h
    · next hitem hchunk => exact ⟨index, reply, _, rfl, hchunk, hitem, (Option.some.inj h).symm⟩
    · cases h
  | call index id reply =>
    right
    rw [rpcStep] at h
    split at h
    · next pool hitem =>
      split at h
      · next hcall =>
        exact .inl ⟨index, id, reply, pool, rfl, hitem, hcall, (Option.some.inj h).symm⟩
      · cases h
    · next pool hitem =>
      split at h
      · next hcall =>
        exact .inr ⟨index, id, reply, pool, rfl, hitem, hcall, (Option.some.inj h).symm⟩
      · cases h
    · cases h

end NoxSdk.Client.Rpc
