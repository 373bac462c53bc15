import NoxSdk.Client.RpcBatches

/-!
# Every result belongs to its call

The results of a run stand at the places of their chunks, and those of a chunk at the places of its
calls. `Given` says which reply a string was read from: an entry of the batch with the id of the
call, or the reply to the single request of the call. It holds of every result of the two levels of
pools at any time (`Traced`), and so of what the run resolves with.
-/

namespace NoxSdk.Client.Rpc

open Js (Json)
open NoxSdk.Lib

/-- The entry has the string as its result, and no error message. -/
def Carries (entry : Json) (result : String) : Prop :=
  entry.field "result" = some (.string result) ∧
    ∀ message, (entry.field "error").bind (·.field "message") ≠ some (.string message)

/-- The reply to a single request has the string as its result. -/
def SingleResult (reply : RpcReply) (result : String) : Prop :=
  ∃ status entry, reply = .replied status (some entry) ∧ okStatus status ∧ Carries entry result

/-- The string was read from a reply to the call at this place of this chunk: from the last
entry with its id in the batch of the chunk, or from the reply to its own request. -/
def Given (calls : List JsonRpcCall) (past : List RpcEvent) (index id : ℕ) (result : String) :
    Prop :=
  (∃ status entries entry, .chunk index (.replied status (some (.array entries))) ∈ past ∧
    okStatus status ∧ entryOf entries id = some entry ∧ Carries entry result) ∨
  (∃ reply, .call index id reply ∈ past ∧ SingleResult reply result) ∨
  ∃ reply chunk, .chunk index reply ∈ past ∧ (rpcChunks calls)[index]? = some chunk ∧
    chunk.length = 1 ∧ id = 0 ∧ SingleResult reply result

/-- Every call of the chunk has a string that was read for it. -/
def Answered (calls : List JsonRpcCall) (past : List RpcEvent) (index : ℕ)
    (results : List String) : Prop :=
  (∃ chunk, (rpcChunks calls)[index]? = some chunk ∧ results.length = chunk.length) ∧
    ∀ id result, results[id]? = some result → Given calls past index id result

/-- The single calls of a chunk that are done have strings that were read for them, and one of
them is in flight. -/
structure TracedCalls (calls : List JsonRpcCall) (past : List RpcEvent) (index : ℕ)
    (pool : SingleCalls) : Prop where
  sound : pool.Sound
  accepted : pool.rejected = false
  length : ∃ chunk, (rpcChunks calls)[index]? = some chunk ∧ pool.items.length = chunk.length
  given : pool.Each fun id item => ∀ result, item = .done result → Given calls past index id result
  flights : pool.Each fun _ item => item ≠ .running .ended
  open_ : pool.results = none

/-- What is known of a chunk. -/
def TracedChunk (calls : List JsonRpcCall) (past : List RpcEvent) (index : ℕ) :
    PoolItem ChunkTask (List String) → Prop
  | .waiting => True
  | .running (.request flight) => flight = .flying
  | .running (.oneByOne pool) => TracedCalls calls past index pool
  | .done results => Answered calls past index results
  | .failed _ => True

/-- What is known of a run after the events of the past. -/
structure Traced (calls : List JsonRpcCall) (past : List RpcEvent) (run : RpcRun) : Prop where
  sound : run.Sound
  length : run.items.length = (rpcChunks calls).length
  chunk : run.Each (TracedChunk calls past)

variable {calls chunk : List JsonRpcCall} {past : List RpcEvent} {run run' : RpcRun}
  {event : RpcEvent} {index id : ℕ} {pool : SingleCalls} {reply : RpcReply} {result : String}
  {results : List String}

/-! ### What stays true -/

/-- An answer that came stays one. -/
theorem Given.snoc (h : Given calls past index id result) (event : RpcEvent) :
    Given calls (past ++ [event]) index id result := by
  rcases h with ⟨status, entries, entry, hmem, hentry⟩ | ⟨reply, hmem, hread⟩ |
    ⟨reply, chunk, hmem, hchunk⟩
  · exact .inl ⟨status, entries, entry, List.mem_append_left _ hmem, hentry⟩
  · exact .inr (.inl ⟨reply, List.mem_append_left _ hmem, hread⟩)
  · exact .inr (.inr ⟨reply, chunk, List.mem_append_left _ hmem, hchunk⟩)

/-- What is known of a pool of calls stays known. -/
theorem TracedCalls.snoc (h : TracedCalls calls past index pool) (event : RpcEvent) :
    TracedCalls calls (past ++ [event]) index pool :=
  { h with
    given := h.given.imp fun _ _ hgiven result hresult => (hgiven result hresult).snoc event }

/-- What is known of a chunk stays known. -/
theorem TracedChunk.snoc {item : PoolItem ChunkTask (List String)}
    (h : TracedChunk calls past index item) (event : RpcEvent) :
    TracedChunk calls (past ++ [event]) index item := by
  match item, h with
  | .waiting, _ => exact trivial
  | .running (.request _), h => exact h
  | .running (.oneByOne _), h => exact TracedCalls.snoc h event
  | .done _, h => exact ⟨h.1, fun id result hresult => (h.2 id result hresult).snoc event⟩
  | .failed _, _ => exact trivial

/-- What is known of the run stays known. -/
theorem Traced.snoc (h : Traced calls past run) (event : RpcEvent) :
    Traced calls (past ++ [event]) run :=
  ⟨h.sound, h.length, h.chunk.imp fun _ _ hitem => hitem.snoc event⟩

/-! ### Reading a reply -/

/-- A result is that of an entry. -/
theorem carries_of_hexResult {body : Option Json} (h : hexResult body = .ok result) :
    ∃ entry, body = some entry ∧ Carries entry result := by
  unfold hexResult at h
  split at h
  · cases h
  · next entry =>
    split_ifs at h
    split at h
    · cases h
    · next hmessage =>
      split at h
      · next read hread =>
        obtain rfl := Except.ok.inj h
        exact ⟨entry, rfl, hread, hmessage⟩
      · cases h

/-- The result of a single call is that of its answer. -/
theorem singleResult_of_readSingle (h : readSingle reply = .ok result) :
    SingleResult reply result := by
  cases reply with
  | threw text => cases h
  | replied status body =>
    rw [readSingle] at h
    split_ifs at h with hok
    obtain ⟨entry, rfl, hcarries⟩ := carries_of_hexResult h
    exact ⟨status, entry, rfl, hok, hcarries⟩

/-! ### The steps of a run -/

/-- At the start no result is known. -/
theorem traced_startCalls : Traced calls [] (startCalls calls) :=
  ⟨Pool.sound_begin, Pool.length_begin,
    Pool.each_begin (fun _ => trivial) fun _ => rfl⟩

/-- A chunk ends with the results that its answers gave. -/
theorem Traced.finish (h : Traced calls past run) (hresults : Answered calls past index results) :
    Traced calls past (run.finish startChunk index results) :=
  ⟨h.sound.toShape.finish, Pool.length_finish.trans h.length,
    h.chunk.finish (fun _ => rfl) hresults⟩

/-- A chunk that fails brings no result. -/
theorem Traced.fail (h : Traced calls past run) (left : ChunkTask) :
    Traced calls past (run.fail index left) :=
  ⟨h.sound.toShape.fail, Pool.length_put.trans h.length, h.chunk.put trivial⟩

/-- A chunk that goes on keeps what is known of it. -/
theorem Traced.update {task : ChunkTask} (h : Traced calls past run)
    (hitem : run.items[index]? = some (.running task))
    (hpool : TracedCalls calls past index pool) :
    Traced calls past (run.put index (.running (.oneByOne pool))) :=
  ⟨h.sound.update hitem, Pool.length_put.trans h.length, h.chunk.put hpool⟩

/-- The results of a batch are those of its entries by their ids. -/
theorem entries_of_readBatch {count : ℕ} (h : readBatch count reply = .results results) :
    ∃ status entries, reply = .replied status (some (.array entries)) ∧ okStatus status ∧
      List.Forall₂ (fun id result => entryResult entries id = .ok result) (List.range count)
        results := by
  unfold readBatch at h
  split at h
  · cases h
  · next status body =>
    split_ifs at h
    split at h
    · next entries hok =>
      split at h
      · next read hread =>
        obtain rfl := BatchEnd.results.inj h
        exact ⟨status, entries, rfl, hok, mapM_eq_ok_iff.mp hread⟩
      · cases h
    · cases h

/-- The result of an id is that of its entry. -/
theorem entryOf_of_entryResult {entries : List Json}
    (h : entryResult entries id = .ok result) :
    ∃ entry, entryOf entries id = some entry ∧ Carries entry result := by
  rw [entryResult] at h
  cases hentry : entryOf entries id with
  | none =>
    rw [hentry] at h
    cases h
  | some entry =>
    rw [hentry] at h
    obtain ⟨_, hsome, hcarries⟩ := carries_of_hexResult h
    obtain rfl := Option.some.inj hsome
    exact ⟨entry, rfl, hcarries⟩

/-- The results of a batch answer the calls of its chunk in order. -/
theorem answered_of_readBatch (hchunk : (rpcChunks calls)[index]? = some chunk)
    (hmem : .chunk index reply ∈ past) (h : readBatch chunk.length reply = .results results) :
    Answered calls past index results := by
  obtain ⟨status, entries, rfl, hok, hall⟩ := entries_of_readBatch h
  have hlength : results.length = chunk.length := by
    rw [← hall.length_eq, List.length_range]
  refine ⟨⟨chunk, hchunk, hlength⟩, fun id result hresult => ?_⟩
  obtain ⟨hlt, rfl⟩ := List.getElem?_eq_some_iff.mp hresult
  have hentry := hall.get (i := id) (by rw [List.length_range]; omega) hlt
  rw [List.get_eq_getElem, List.getElem_range] at hentry
  obtain ⟨entry, hof, hhex⟩ := entryOf_of_entryResult hentry
  exact .inl ⟨status, entries, entry, hmem, hok, hof, hhex⟩

/-- The single calls of a batch that was refused, when they begin. -/
theorem tracedCalls_begin (hchunk : (rpcChunks calls)[index]? = some chunk)
    (hnonempty : chunk ≠ []) :
    TracedCalls calls past index (.begin startCall chunk.length rpcConcurrency) where
  sound := Pool.sound_begin
  accepted := Pool.rejected_begin
  length := ⟨chunk, hchunk, Pool.length_begin⟩
  given := Pool.each_begin (fun _ _ heq => by cases heq) fun _ _ heq => by cases heq
  flights := Pool.each_begin (fun _ heq => by cases heq) fun _ heq => by cases heq
  open_ := by
    -- the first call is in flight
    by_contra hsome
    obtain ⟨results, hresults⟩ := Option.ne_none_iff_exists'.mp hsome
    obtain ⟨-, hdone⟩ := Pool.results_eq_some_iff.mp hresults
    have hload : (.begin startCall chunk.length rpcConcurrency : SingleCalls).load Flight.load =
        min rpcConcurrency chunk.length := Pool.load_begin fun _ => rfl
    rw [Pool.load, hdone, List.map_map] at hload
    have hzero : (PoolItem.load Flight.load ∘ PoolItem.done : String → ℕ) = fun _ => 0 := rfl
    have hpos := List.length_pos_iff.mpr hnonempty
    rw [hzero, List.sum_eq_zero fun n hn => by obtain ⟨_, _, rfl⟩ := List.mem_map.mp hn; rfl,
      rpcConcurrency] at hload
    omega

/-- The answer to the request of a chunk. -/
theorem Traced.chunkAnswered (h : Traced calls past run)
    (hchunk : (rpcChunks calls)[index]? = some chunk) (hnonempty : chunk ≠ [])
    (hitem : run.items[index]? = some (.running (.request .flying)))
    (hmem : .chunk index reply ∈ past) :
    Traced calls past (chunkAnswered run index chunk reply) := by
  rw [NoxSdk.Client.Rpc.chunkAnswered]
  split_ifs with hsingle
  · cases hread : readSingle reply with
    | error _ => exact h.fail _
    | ok result =>
      refine h.finish ⟨⟨chunk, hchunk, hsingle.symm⟩, fun id result' hresult => ?_⟩
      obtain ⟨rfl, rfl⟩ : id = 0 ∧ result' = result := by
        cases id with
        | zero => exact ⟨rfl, (Option.some.inj hresult).symm⟩
        | succ id => cases hresult
      exact .inr (.inr ⟨reply, chunk, hmem, hchunk, hsingle, rfl, singleResult_of_readSingle hread⟩)
  · cases hbatch : readBatch chunk.length reply with
    | results results => exact h.finish (answered_of_readBatch hchunk hmem hbatch)
    | failed _ => exact h.fail _
    | unsupported => exact h.update hitem (tracedCalls_begin hchunk hnonempty)

/-- The answer to a single call that is waited for. -/
theorem Traced.callAnswered (h : Traced calls past run)
    (hitem : run.items[index]? = some (.running (.oneByOne pool)))
    (hmem : .call index id reply ∈ past) :
    Traced calls past (callAnswered run index pool id reply) := by
  have hpool : TracedCalls calls past index pool := h.chunk index _ hitem
  rw [NoxSdk.Client.Rpc.callAnswered]
  cases hread : readSingle reply with
  | error _ => exact h.fail _
  | ok result =>
    have hgiven : (pool.finish startCall id result).Each fun id item =>
        ∀ result, item = .done result → Given calls past index id result :=
      hpool.given.finish (fun _ _ heq => by cases heq) fun result' heq => by
        obtain rfl := PoolItem.done.inj heq
        exact .inr (.inl ⟨reply, hmem, singleResult_of_readSingle hread⟩)
    have hlength : ∃ chunk, (rpcChunks calls)[index]? = some chunk ∧
        (pool.finish startCall id result).items.length = chunk.length := by
      obtain ⟨chunk, hchunk, hlength⟩ := hpool.length
      exact ⟨chunk, hchunk, Pool.length_finish.trans hlength⟩
    dsimp only
    cases hresults : (pool.finish startCall id result).results with
    | some results =>
      obtain ⟨-, hdone⟩ := Pool.results_eq_some_iff.mp hresults
      obtain ⟨chunk, hchunk, hcount⟩ := hlength
      refine h.finish ⟨⟨chunk, hchunk, ?_⟩, fun id' result' hresult => ?_⟩
      · rw [← hcount, hdone, List.length_map]
      · refine hgiven id' (.done result') ?_ result' rfl
        rw [hdone, List.getElem?_map, hresult]
        rfl
    | none =>
      exact h.update hitem
        { sound := hpool.sound.toShape.finish
          accepted := Pool.rejected_finish.trans hpool.accepted
          length := hlength
          given := hgiven
          flights := hpool.flights.finish (fun _ heq => by cases heq) fun heq => by cases heq
          open_ := hresults }

/-- The answer to a single call of a batch that has failed. -/
theorem Traced.leftAnswered (h : Traced calls past run)
    (hitem : run.items[index]? = some (.failed (.oneByOne pool))) :
    Traced calls past (leftAnswered run index pool id reply) := by
  have leaves : ∀ left : ChunkTask, Traced calls past (run.put index (.failed left)) :=
    fun left => ⟨h.sound.leave hitem, Pool.length_put.trans h.length, h.chunk.put trivial⟩
  rw [NoxSdk.Client.Rpc.leftAnswered]
  cases readSingle reply with
  | ok result => exact leaves _
  | error _ => exact leaves _

/-- No chunk is empty. -/
theorem ne_nil_of_mem_rpcChunks (h : (rpcChunks calls)[index]? = some chunk) : chunk ≠ [] := by
  obtain ⟨hindex, rfl⟩ := getElem?_chunks_eq_some_iff.mp h
  rw [chunkCount, maxRpcBatchSize] at hindex
  rw [← List.length_pos_iff, chunkAt, List.length_take, List.length_drop, maxRpcBatchSize]
  omega

/-- What is known of a run is kept by its steps. -/
theorem Traced.step (h : Traced calls past run) (hstep : rpcStep calls run event = some run') :
    Traced calls (past ++ [event]) run' := by
  have hpast := h.snoc event
  have hmem : event ∈ past ++ [event] := List.mem_append_right _ (List.mem_singleton_self event)
  rcases rpcStep_eq_some hstep with ⟨index, reply, chunk, rfl, hchunk, hitem, rfl⟩ |
    ⟨index, id, reply, pool, rfl, hitem, -, rfl⟩ |
    ⟨index, id, reply, pool, rfl, hitem, -, rfl⟩
  · exact hpast.chunkAnswered hchunk (ne_nil_of_mem_rpcChunks hchunk) hitem hmem
  · exact hpast.callAnswered hitem hmem
  · exact hpast.leftAnswered hitem

/-- In every state of a run each result is traced to an answer. -/
theorem traced_of_runEvents {events : List RpcEvent}
    (h : runEvents (rpcStep calls) (startCalls calls) events = some run) :
    Traced calls events run := by
  have htraced : Traced calls ([] ++ events) run :=
    runEvents_invariant h traced_startCalls fun _ _ _ _ hbefore hstep => hbefore.step hstep
  exact htraced

/-- A run with nothing in flight has resolved or is rejected. -/
theorem Traced.settled (h : Traced calls past run) (hidle : inFlight run = 0) :
    run.rejected = true ∨ ∃ results, run.results = some results := by
  refine h.sound.results fun index task hitem => ?_
  have hload : task.load ≤ 0 := hidle ▸ Pool.load_le_of_getElem? ChunkTask.load hitem
  have htask := h.chunk index _ hitem
  cases task with
  | request flight =>
    obtain rfl : flight = .flying := htask
    exact absurd hload (by decide)
  | oneByOne pool =>
    have hpool : TracedCalls calls past index pool := htask
    have hended : ∀ (id : ℕ) (flight : Flight), pool.items[id]? ≠ some (.running flight) := by
      intro id flight hcall
      have hflight := Pool.load_le_of_getElem? Flight.load hcall
      cases flight with
      | flying => exact absurd (hflight.trans hload) (by decide)
      | ended => exact hpool.flights id _ hcall rfl
    rcases hpool.sound.results hended with hrejected | ⟨results, hresults⟩
    · exact absurd (hpool.accepted.symm.trans hrejected) (by decide)
    · exact absurd (hpool.open_.symm.trans hresults) (by simp)

/-- What a run resolves with, chunk by chunk. -/
theorem Traced.parts {parts : List (List String)} (h : Traced calls past run)
    (hparts : run.results = some parts) :
    parts.length = (rpcChunks calls).length ∧
      ∀ index part, parts[index]? = some part → Answered calls past index part := by
  obtain ⟨-, hdone⟩ := Pool.results_eq_some_iff.mp hparts
  refine ⟨by rw [← h.length, hdone, List.length_map], fun index part hpart => ?_⟩
  refine h.chunk index (.done part) ?_
  rw [hdone, List.getElem?_map, hpart]
  rfl

/-- The string at a place is the one at its place in its chunk. -/
theorem Traced.getElem?_flatten {parts : List (List String)} (h : Traced calls past run)
    (hparts : run.results = some parts) (i : ℕ) :
    parts.flatten[i]? =
      (parts[i / maxRpcBatchSize]?).bind fun part => part[i % maxRpcBatchSize]? := by
  obtain ⟨hlength, hanswered⟩ := h.parts hparts
  refine getElem?_flatten_of_full (by decide) (fun index part hindex hpart => ?_)
    (fun part hpart => ?_) i
  · obtain ⟨⟨chunk, hchunk, hcount⟩, -⟩ := hanswered index part hpart
    obtain ⟨-, rfl⟩ := getElem?_chunks_eq_some_iff.mp hchunk
    rw [hlength, rpcChunks, chunks, List.length_map, List.length_range] at hindex
    exact hcount.trans (length_chunkAt_of_lt hindex)
  · obtain ⟨index, hindex⟩ := List.getElem?_of_mem hpart
    obtain ⟨⟨chunk, hchunk, hcount⟩, -⟩ := hanswered index part hindex
    obtain ⟨-, rfl⟩ := getElem?_chunks_eq_some_iff.mp hchunk
    exact hcount.trans_le (length_chunkAt_le _ _ _)

/-- A call is at its place in its chunk. -/
theorem chunk_of_call {i : ℕ} {call : JsonRpcCall} (h : calls[i]? = some call) :
    ∃ chunk, (rpcChunks calls)[i / maxRpcBatchSize]? = some chunk ∧
      chunk[i % maxRpcBatchSize]? = some call := by
  have hsize : 0 < maxRpcBatchSize := by decide
  rw [← getElem?_chunks_bind hsize] at h
  exact Option.bind_eq_some_iff.mp h

/-- There is a string at a place exactly when there is a call. -/
theorem Traced.string_of_call {parts : List (List String)} (h : Traced calls past run)
    (hparts : run.results = some parts) {i : ℕ} {call : JsonRpcCall}
    (hcall : calls[i]? = some call) :
    ∃ result chunk, parts.flatten[i]? = some result ∧
      (rpcChunks calls)[i / maxRpcBatchSize]? = some chunk ∧
      chunk[i % maxRpcBatchSize]? = some call ∧
      Given calls past (i / maxRpcBatchSize) (i % maxRpcBatchSize) result := by
  obtain ⟨hlength, hanswered⟩ := h.parts hparts
  obtain ⟨chunk, hchunk, hplace⟩ := chunk_of_call hcall
  have hindex : i / maxRpcBatchSize < parts.length :=
    hlength ▸ (List.getElem?_eq_some_iff.mp hchunk).1
  obtain ⟨⟨chunk', hchunk', hcount⟩, hgiven⟩ :=
    hanswered _ _ (List.getElem?_eq_getElem hindex)
  obtain rfl : chunk = chunk' := Option.some.inj (hchunk.symm.trans hchunk')
  have hid : i % maxRpcBatchSize < (parts[i / maxRpcBatchSize]).length :=
    hcount ▸ (List.getElem?_eq_some_iff.mp hplace).1
  refine ⟨parts[i / maxRpcBatchSize][i % maxRpcBatchSize], chunk, ?_, hchunk, hplace,
    hgiven _ _ (List.getElem?_eq_getElem hid)⟩
  rw [h.getElem?_flatten hparts, List.getElem?_eq_getElem hindex]
  exact List.getElem?_eq_getElem hid

/-- There are as many results as calls. -/
theorem Traced.length_flatten {parts : List (List String)} (h : Traced calls past run)
    (hparts : run.results = some parts) : parts.flatten.length = calls.length := by
  obtain ⟨hlength, hanswered⟩ := h.parts hparts
  have hcalls : (rpcChunks calls).flatten.length = calls.length := by
    rw [rpcChunks, NoxSdk.flatten_chunks (by decide)]
  rw [← hcalls, List.length_flatten, List.length_flatten]
  refine congrArg _ (List.ext_getElem? fun index => ?_)
  rw [List.getElem?_map, List.getElem?_map]
  cases hpart : parts[index]? with
  | none =>
    rw [List.getElem?_eq_none (hlength ▸ List.getElem?_eq_none_iff.mp hpart)]
    rfl
  | some part =>
    obtain ⟨⟨chunk, hchunk, hcount⟩, -⟩ := hanswered index part hpart
    rw [hchunk]
    exact congrArg some hcount

/-- When a run resolves, it has one string for each call, at the place of the call, and each was
read for its call: from the last entry with the id of the call in the batch of the call, or from
the reply to its own request, which has no error message. A run with nothing in flight has resolved
or rejected, and not both.

The invariant (`Traced`) says of each place that is filled which reply of the events so far filled
it, and for which call. The run resolves when its last worker ends with no error noted. -/
theorem results_belong {events : List RpcEvent}
    (h : runEvents (rpcStep calls) (startCalls calls) events = some run) :
    (∀ strings, resolved run = some strings →
      strings.length = calls.length ∧
        ∀ i call, calls[i]? = some call → ∃ result chunk, strings[i]? = some result ∧
          (rpcChunks calls)[i / maxRpcBatchSize]? = some chunk ∧
          chunk[i % maxRpcBatchSize]? = some call ∧
          Given calls events (i / maxRpcBatchSize) (i % maxRpcBatchSize) result) ∧
    (inFlight run = 0 → run.rejected = true ∨ (resolved run).isSome) ∧
    (run.rejected = true → resolved run = none) := by
  have htraced := traced_of_runEvents h
  refine ⟨fun strings hstrings => ?_, fun hidle => ?_, fun hrejected => ?_⟩
  · obtain ⟨parts, hparts, rfl⟩ := Option.map_eq_some_iff.mp hstrings
    exact ⟨htraced.length_flatten hparts, fun i call => htraced.string_of_call hparts⟩
  · refine (htraced.settled hidle).imp_right fun ⟨parts, hparts⟩ => ?_
    rw [resolved, hparts]
    rfl
  · rw [resolved, Pool.results, if_pos hrejected]
    rfl

/-! ### A repeated id -/

/-- Two calls. -/
def twoCalls : List JsonRpcCall := [⟨"eth_call", []⟩, ⟨"eth_getCode", []⟩]

/-- An entry with an error message for the first call. -/
def errorEntry : Json :=
  .object [("id", .number (.integer 0)), ("error", .object [("message", .string "reverted")])]

/-- The first call has two entries, and the last one has a result. -/
def repeatedReply : RpcReply :=
  .replied 200 (some (.array [errorEntry,
    .object [("id", .number (.integer 1)), ("result", .string "0x2")],
    .object [("id", .number (.integer 0)), ("result", .string "0x1")]]))

/-- A batch in which one id is answered twice. -/
theorem results_belong_sample :
    ∃ run, runEvents (rpcStep twoCalls) (startCalls twoCalls) [.chunk 0 repeatedReply] = some run ∧
      resolved run = some ["0x1", "0x2"] ∧ ["0x1", "0x2"].length = twoCalls.length := by
  have hrun : ∃ run, runEvents (rpcStep twoCalls) (startCalls twoCalls)
      [.chunk 0 repeatedReply] = some run ∧ resolved run = some ["0x1", "0x2"] :=
    ⟨_, rfl, by decide⟩
  obtain ⟨run, hrun, hresolved⟩ := hrun
  exact ⟨run, hrun, hresolved, ((results_belong hrun).1 _ hresolved).1⟩

/-- A run may resolve although there is an entry with an error message for a call. -/
theorem not_rejects_of_message :
    ¬ ∀ calls events run, runEvents (rpcStep calls) (startCalls calls) events = some run →
      ∀ index status entries chunk id entry message,
        .chunk index (.replied status (some (.array entries))) ∈ events →
        (rpcChunks calls)[index]? = some chunk → id < chunk.length →
        entry ∈ entries → hasId id entry →
        (entry.field "error").bind (·.field "message") = some (.string message) →
        resolved run = none := by
  intro h
  have hrun : ∃ run, runEvents (rpcStep twoCalls) (startCalls twoCalls)
      [.chunk 0 repeatedReply] = some run ∧ (resolved run).isSome := ⟨_, rfl, by decide⟩
  obtain ⟨run, hrun, hsome⟩ := hrun
  have hnone := h twoCalls _ run hrun 0 200 _ twoCalls 0 errorEntry "reverted"
    List.mem_cons_self rfl (by decide) List.mem_cons_self (by decide) rfl
  rw [hnone] at hsome
  exact absurd hsome (by decide)

end NoxSdk.Client.Rpc
