import NoxSdk.Client.RpcBatches

/-!
# The requests in flight of a list of calls

Each worker has one request in flight, so four workers have four. The calls of a refused batch get
workers of their own, while the other batches are still in flight: a refusal adds the single calls
to what is in flight beside it (`inFlight_refused`), and nothing else adds anything
(`inFlight_le_of_answer`).
-/

namespace NoxSdk.Client.Rpc

open NoxSdk.Lib

variable {calls chunk : List JsonRpcCall} {run run' : RpcRun} {event : RpcEvent}
  {index id : ℕ} {pool : SingleCalls} {reply : RpcReply}

theorem load_startChunk (index : ℕ) : (startChunk index).load = 1 := rfl

theorem load_startCall (id : ℕ) : (startCall id).load = 1 := rfl

/-- The workers of a list of calls have one request each. -/
theorem inFlight_startCalls (calls : List JsonRpcCall) :
    inFlight (startCalls calls) = min rpcConcurrency (rpcChunks calls).length :=
  Pool.load_begin load_startChunk

/-- The reply is that the endpoint does not take the batch. -/
def Refuses (chunk : List JsonRpcCall) (reply : RpcReply) : Prop :=
  chunk.length ≠ 1 ∧ readBatch chunk.length reply = .unsupported

/-- The single calls of a refused batch come beside what else is in flight. -/
theorem inFlight_refused (hitem : run.items[index]? = some (.running (.request .flying)))
    (hrefuses : Refuses chunk reply) :
    inFlight (chunkAnswered run index chunk reply) + 1 =
      inFlight run + min rpcConcurrency chunk.length := by
  rw [chunkAnswered, if_neg hrefuses.1, hrefuses.2]
  have hcalls : ChunkTask.load (.oneByOne (.begin startCall chunk.length rpcConcurrency)) =
      min rpcConcurrency chunk.length := Pool.load_begin load_startCall
  rw [← hcalls]
  exact Pool.load_put hitem

theorem inFlight_fail {task left : ChunkTask} (hitem : run.items[index]? = some (.running task))
    (hle : left.load ≤ task.load) : inFlight (run.fail index left) ≤ inFlight run := by
  have hload : (run.put index (.failed left)).load ChunkTask.load + task.load =
      run.load ChunkTask.load + left.load := Pool.load_put hitem
  change (run.put index (.failed left)).load ChunkTask.load ≤ run.load ChunkTask.load
  omega

theorem inFlight_finish {task : ChunkTask} {results : List String}
    (hitem : run.items[index]? = some (.running task)) (hload : 1 ≤ task.load) :
    inFlight (run.finish startChunk index results) ≤ inFlight run :=
  Pool.load_finish_le load_startChunk hitem hload

/-- An answer to a request that is no refused batch adds nothing. -/
theorem inFlight_chunkAnswered (hitem : run.items[index]? = some (.running (.request .flying)))
    (hrefuses : ¬ Refuses chunk reply) :
    inFlight (chunkAnswered run index chunk reply) ≤ inFlight run := by
  rw [chunkAnswered]
  split_ifs with hsingle
  · cases readSingle reply with
    | ok result => exact inFlight_finish hitem le_rfl
    | error _ => exact inFlight_fail hitem (Nat.zero_le 1)
  · cases hbatch : readBatch chunk.length reply with
    | results results => exact inFlight_finish hitem le_rfl
    | failed _ => exact inFlight_fail hitem (Nat.zero_le 1)
    | unsupported => exact absurd ⟨hsingle, hbatch⟩ hrefuses

/-- A worker of the single calls goes on, or ends. -/
theorem load_finish_call {result : String} (hcall : pool.items[id]? = some (.running .flying)) :
    (pool.finish startCall id result).load Flight.load ≤ pool.load Flight.load :=
  Pool.load_finish_le load_startCall hcall le_rfl

theorem load_fail_call (hcall : pool.items[id]? = some (.running .flying)) :
    (pool.fail id .ended).load Flight.load ≤ pool.load Flight.load := by
  have hload : (pool.put id (.failed .ended)).load Flight.load + 1 =
      pool.load Flight.load + 0 := Pool.load_put hcall
  change (pool.put id (.failed .ended)).load Flight.load ≤ _
  omega

theorem inFlight_callAnswered (hitem : run.items[index]? = some (.running (.oneByOne pool)))
    (hcall : pool.items[id]? = some (.running .flying)) :
    inFlight (callAnswered run index pool id reply) ≤ inFlight run := by
  rw [callAnswered]
  cases readSingle reply with
  | ok result =>
    dsimp only
    cases (pool.finish startCall id result).results with
    | some results =>
      have hpool := Pool.load_le_of_getElem? Flight.load hcall
      exact inFlight_finish hitem hpool
    | none =>
      have hload : (run.put index (.running (.oneByOne (pool.finish startCall id result)))).load
          ChunkTask.load + pool.load Flight.load = run.load ChunkTask.load +
            (pool.finish startCall id result).load Flight.load := Pool.load_put hitem
      have hle : (pool.finish startCall id result).load Flight.load ≤ pool.load Flight.load :=
        load_finish_call hcall
      change (run.put _ _).load ChunkTask.load ≤ run.load ChunkTask.load
      omega
  | error _ => exact inFlight_fail hitem (load_fail_call hcall)

theorem inFlight_leftAnswered (hitem : run.items[index]? = some (.failed (.oneByOne pool)))
    (hcall : pool.items[id]? = some (.running .flying)) :
    inFlight (leftAnswered run index pool id reply) ≤ inFlight run := by
  have leaves : ∀ left : SingleCalls, left.load Flight.load ≤ pool.load Flight.load →
      inFlight (run.put index (.failed (.oneByOne left))) ≤ inFlight run := fun left hle => by
    have hload : (run.put index (.failed (.oneByOne left))).load ChunkTask.load +
        pool.load Flight.load = run.load ChunkTask.load + left.load Flight.load :=
      Pool.load_put hitem
    change (run.put _ _).load ChunkTask.load ≤ run.load ChunkTask.load
    omega
  rw [leftAnswered]
  cases readSingle reply with
  | ok result => exact leaves _ (load_finish_call hcall)
  | error _ => exact leaves _ (load_fail_call hcall)

/-- A refused batch finds room for its single calls beside the other requests in flight. -/
def RefusalsFit (calls : List JsonRpcCall) (run : RpcRun) : RpcEvent → Prop
  | .chunk index reply =>
    ∀ chunk, (rpcChunks calls)[index]? = some chunk → Refuses chunk reply →
      inFlight run - 1 + min rpcConcurrency chunk.length ≤ rpcConcurrency
  | .call .. => True

/-- An answer keeps the bound exactly when it is no refusal or the single calls fit. -/
theorem inFlight_step (hle : inFlight run ≤ rpcConcurrency)
    (hstep : rpcStep calls run event = some run') :
    RefusalsFit calls run event ↔ inFlight run' ≤ rpcConcurrency := by
  rcases rpcStep_eq_some hstep with ⟨index, reply, chunk, rfl, hchunk, hitem, rfl⟩ |
    ⟨index, id, reply, pool, rfl, hitem, hcall, rfl⟩ |
    ⟨index, id, reply, pool, rfl, hitem, hcall, rfl⟩
  · have hpos := Pool.load_le_of_getElem? ChunkTask.load hitem
    change 1 ≤ inFlight run at hpos
    rw [RefusalsFit]
    by_cases hrefuses : Refuses chunk reply
    · have hcount := inFlight_refused hitem hrefuses
      constructor
      · intro hfits
        have hroom := hfits chunk hchunk hrefuses
        omega
      · rintro hnext chunk' hchunk' -
        obtain rfl : chunk = chunk' := Option.some.inj (hchunk.symm.trans hchunk')
        omega
    · refine iff_of_true (fun chunk' hchunk' hrefuses' => ?_)
        ((inFlight_chunkAnswered hitem hrefuses).trans hle)
      obtain rfl : chunk = chunk' := Option.some.inj (hchunk.symm.trans hchunk')
      exact absurd hrefuses' hrefuses
  · exact iff_of_true trivial ((inFlight_callAnswered hitem hcall).trans hle)
  · exact iff_of_true trivial ((inFlight_leftAnswered hitem hcall).trans hle)

/-- No more than four requests are in flight in a run whose refusals all find room, and the first
refusal that does not find room exceeds the bound.

Every worker has one request in flight, so an answer adds nothing. A refusal adds the workers for
the calls of its batch; how many are in flight after it is computed from the state before, and the
condition says that this is within the bound (`inFlight_step`). -/
theorem inFlight_le_of_runWhen
    (h : RunWhen (rpcStep calls) (RefusalsFit calls) (startCalls calls) run) :
    inFlight run ≤ rpcConcurrency ∧
      ∀ event run', rpcStep calls run event = some run' →
        (RefusalsFit calls run event ↔ inFlight run' ≤ rpcConcurrency) := by
  have hle : inFlight run ≤ rpcConcurrency :=
    h.invariant ((inFlight_startCalls calls).trans_le (Nat.min_le_left _ _))
      fun _ _ _ hbefore hfits hstep => (inFlight_step hbefore hstep).mp hfits
  exact ⟨hle, fun event run' hstep => inFlight_step hle hstep⟩

/-! ### Two batches, one refused -/

/-- A batch and a call. -/
def sampleCalls : List JsonRpcCall := List.replicate 51 ⟨"eth_call", []⟩

/-- A refusal of a batch. -/
def refusal : RpcReply := .replied 400 none

/-- Five requests are in flight when the batch of two requests is refused. -/
theorem not_inFlight_le :
    ¬ ∀ run, Run (rpcStep sampleCalls) (startCalls sampleCalls) run →
      inFlight run ≤ rpcConcurrency := by
  intro h
  have hrun : ∃ run, runEvents (rpcStep sampleCalls) (startCalls sampleCalls)
      [.chunk 0 refusal] = some run ∧ inFlight run = 5 := ⟨_, rfl, by decide⟩
  obtain ⟨run, hevents, hfive⟩ := hrun
  have hle := h run (run_of_runEvents hevents)
  rw [hfive] at hle
  exact absurd hle (by decide)

/-- A refusal with nothing beside it finds room. -/
theorem inFlight_le_of_runWhen_sample :
    ∃ run, inFlight run = 2 ∧
      RunWhen (rpcStep [⟨"eth_call", []⟩, ⟨"eth_call", []⟩])
        (RefusalsFit [⟨"eth_call", []⟩, ⟨"eth_call", []⟩])
        (startCalls [⟨"eth_call", []⟩, ⟨"eth_call", []⟩]) run ∧
      inFlight run ≤ rpcConcurrency := by
  have hrun : RunWhen (rpcStep [⟨"eth_call", []⟩, ⟨"eth_call", []⟩])
      (RefusalsFit [⟨"eth_call", []⟩, ⟨"eth_call", []⟩])
      (startCalls [⟨"eth_call", []⟩, ⟨"eth_call", []⟩])
      (chunkAnswered (startCalls [⟨"eth_call", []⟩, ⟨"eth_call", []⟩]) 0
        [⟨"eth_call", []⟩, ⟨"eth_call", []⟩] refusal) := by
    refine .head ⟨.chunk 0 refusal, fun chunk hchunk _ => ?_, rfl⟩ .refl
    obtain rfl := Option.some.inj hchunk
    decide
  exact ⟨_, by decide, hrun, (inFlight_le_of_runWhen hrun).1⟩

end NoxSdk.Client.Rpc
