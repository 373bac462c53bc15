import NoxSdk.Kps.Discovery
import NoxSdk.Lib.Spans

/-!
# The chunks of the registration log scan

`registrationLogsBody` is a loop that goes up from the first block in steps of a chunk. Its chunks
tile the range, and the body asks for them in order.
-/

namespace NoxSdk.Kps

open Js (Json)
open NoxSdk.Lib

theorem logScanChunkBlocks_pos : 0 < logScanChunkBlocks := by decide

/-- The chunks of the loop of `registrationLogsBody`, from `start` on. -/
def logChunksFrom (toBlock start : ℕ) : List (Span ℕ) :=
  if start ≤ toBlock then
    ⟨start, min toBlock (start + logScanChunkBlocks - 1)⟩ ::
      logChunksFrom toBlock (start + logScanChunkBlocks)
  else []
termination_by toBlock + 1 - start
decreasing_by
  have := logScanChunkBlocks_pos
  omega

/-- The request for one chunk. -/
def chunkRequest (abi : RegistryInterface) (registry : String) (id : ℕ) (chunk : Span ℕ) : Json :=
  rpcRequest id "eth_getLogs" [.object [("address", .string registry),
    ("fromBlock", .string (quantityText chunk.first)),
    ("toBlock", .string (quantityText chunk.last)),
    ("topics", .array [.array (abi.registrationTopics.map .string)])]]

/-- The loop takes the chunks that `registrationLogsBody` counts. -/
theorem logChunksFrom_eq (toBlock start : ℕ) :
    logChunksFrom toBlock start =
      (List.range ((toBlock + 1 - start + logScanChunkBlocks - 1) / logScanChunkBlocks)).map
        fun index => ⟨start + index * logScanChunkBlocks,
          min toBlock (start + index * logScanChunkBlocks + logScanChunkBlocks - 1)⟩ := by
  induction start using logChunksFrom.induct toBlock with
  | case1 start h ih =>
    have hcount : (toBlock + 1 - start + logScanChunkBlocks - 1) / logScanChunkBlocks =
        (toBlock + 1 - (start + logScanChunkBlocks) + logScanChunkBlocks - 1) /
          logScanChunkBlocks + 1 := by
      rw [logScanChunkBlocks]
      omega
    rw [logChunksFrom, if_pos h, ih, hcount, List.range_succ_eq_map, List.map_cons, List.map_map]
    refine congrArg₂ _ (by rw [zero_mul, add_zero]) (List.map_congr_left fun index _ => ?_)
    have hindex : start + logScanChunkBlocks + index * logScanChunkBlocks =
        start + (index + 1) * logScanChunkBlocks := by ring
    rw [hindex]
    rfl
  | case2 start h =>
    have hcount : (toBlock + 1 - start + logScanChunkBlocks - 1) / logScanChunkBlocks = 0 := by
      rw [logScanChunkBlocks]
      omega
    rw [logChunksFrom, if_neg h, hcount]
    rfl

/-- The body is the requests for the chunks of the loop, or an error when they are too many. -/
theorem registrationLogsBody_eq (abi : RegistryInterface) (registry : String)
    (fromBlock toBlock : ℕ) :
    registrationLogsBody abi registry fromBlock toBlock =
      if (logChunksFrom toBlock fromBlock).length > logScanMaxChunks then
        .error (.discovery .incomplete
          (s!"the registration log scan spans {(logChunksFrom toBlock fromBlock).length} " ++
            s!"chunks of {logScanChunkBlocks} blocks, more than {logScanMaxChunks}"))
      else .ok
        (.array ((logChunksFrom toBlock fromBlock).mapIdx fun index chunk =>
          chunkRequest abi registry (index + 1) chunk),
          (logChunksFrom toBlock fromBlock).length) := by
  have hlength : (logChunksFrom toBlock fromBlock).length =
      (toBlock + 1 - fromBlock + logScanChunkBlocks - 1) / logScanChunkBlocks := by
    rw [logChunksFrom_eq, List.length_map, List.length_range]
  rw [hlength, registrationLogsBody]
  split_ifs
  · rfl
  · congr 3
    refine List.ext_getElem (by rw [List.length_map, List.length_range, List.length_mapIdx,
      hlength]) fun index hindex _ => ?_
    rw [List.getElem_map, List.getElem_range, List.getElem_mapIdx]
    simp only [logChunksFrom_eq, List.getElem_map, List.getElem_range]
    rfl

/-- The chunks tile the range. -/
theorem tiles_logChunksFrom (toBlock start : ℕ) (h : start ≤ toBlock + 1) :
    Tiles start toBlock (logChunksFrom toBlock start) := by
  induction start using logChunksFrom.induct toBlock with
  | case1 start hstart ih =>
    rw [logChunksFrom, if_pos hstart]
    have hpos := logScanChunkBlocks_pos
    have hle : start ≤ min toBlock (start + logScanChunkBlocks - 1) := by omega
    refine .cons hle ?_
    rcases le_or_gt (start + logScanChunkBlocks) (toBlock + 1) with hnext | hnext
    · have hend : min toBlock (start + logScanChunkBlocks - 1) + 1 =
          start + logScanChunkBlocks := by omega
      rw [hend]
      exact ih hnext
    · -- the last chunk
      have hend : min toBlock (start + logScanChunkBlocks - 1) = toBlock := by omega
      have hover : ¬ start + logScanChunkBlocks ≤ toBlock := by omega
      rw [hend, logChunksFrom, if_neg hover]
      rfl
  | case2 start hstart =>
    rw [logChunksFrom, if_neg hstart]
    exact le_antisymm h (not_le.mp hstart)

/-- No chunk has more blocks than the endpoints serve. -/
theorem size_of_mem_logChunksFrom {toBlock start : ℕ} {chunk : Span ℕ}
    (h : chunk ∈ logChunksFrom toBlock start) :
    chunk.last + 1 - chunk.first ≤ logScanChunkBlocks := by
  induction start using logChunksFrom.induct toBlock with
  | case1 start hstart ih =>
    rw [logChunksFrom, if_pos hstart] at h
    rcases List.mem_cons.mp h with rfl | h
    · have hpos := logScanChunkBlocks_pos
      change min toBlock (start + logScanChunkBlocks - 1) + 1 - start ≤ _
      omega
    · exact ih h
  | case2 start hstart =>
    rw [logChunksFrom, if_neg hstart] at h
    cases h

end NoxSdk.Kps
