import Mathlib.Algebra.BigOperators.Group.List.Basic
import Mathlib.Data.List.Infix
import NoxSdk.Js

/-!
# JSON-RPC profiles

`profileRequest` (`jsonrpc.ts`) reads a body just far enough to size the reply and to decide
whether the request may be resent. The class of a batch is folded from the classes of its calls:
an unlisted method makes the batch `other`, whatever else is in it, a write then makes it `write`.

`JSON.parse` after the decoding of the bytes is a parameter.
-/

namespace NoxSdk.Worker

open Js

/-- `RpcClass`. -/
inductive RpcClass
  | small
  | medium
  | large
  | write
  | other
  deriving DecidableEq, Repr

/-- `CLASS_REPLY_BYTES`; `other` has none. -/
def classReplyBytes : RpcClass → Option ℕ
  | .small => some 30000
  | .medium => some 120000
  | .large => some 300000
  | .write => some 30000
  | .other => none

/-- `SMALL_READS`. -/
def smallReads : List String :=
  ["eth_chainId", "net_version", "web3_clientVersion", "eth_blockNumber", "eth_gasPrice",
    "eth_maxPriorityFeePerGas", "eth_blobBaseFee", "eth_getBalance", "eth_getTransactionCount",
    "eth_getStorageAt", "eth_call", "eth_estimateGas", "eth_syncing"]

/-- `MEDIUM_READS`. -/
def mediumReads : List String :=
  ["eth_getCode", "eth_getTransactionByHash", "eth_getTransactionReceipt", "eth_feeHistory",
    "eth_getProof", "eth_createAccessList", "eth_getBlockByNumber", "eth_getBlockByHash"]

/-- `LARGE_READS`. -/
def largeReads : List String := ["eth_getLogs", "eth_getBlockReceipts"]

/-- `WRITES`. -/
def writes : List String := ["eth_sendRawTransaction"]

/-- `BLOCK_METHODS`. -/
def blockMethods : List String := ["eth_getBlockByNumber", "eth_getBlockByHash"]

/-- `RequestProfile`. -/
structure RequestProfile where
  rpcClass : RpcClass
  expectedResponseBytes : Option ℕ
  retryable : Bool
  opKey : String
  method : Option String
  deriving DecidableEq, Repr

/-- `OTHER_OP_KEY`. -/
def otherOpKey : String := "http:other"

/-- `OTHER`. -/
def otherProfile : RequestProfile := ⟨.other, none, false, otherOpKey, none⟩

/-- The fields of a call that the profile reads. -/
structure RpcCall where
  method : String
  params : Option Json

/-- `Array.isArray(params) && params[1] === true`. -/
def secondIsTrue : Option Json → Bool
  | some (.array (_ :: .bool true :: _)) => true
  | _ => false

/-- `classifyCall`. -/
def classifyCall (call : RpcCall) : RpcClass :=
  if call.method ∈ blockMethods ∧ secondIsTrue call.params = true then .large
  else if call.method ∈ smallReads then .small
  else if call.method ∈ mediumReads then .medium
  else if call.method ∈ largeReads then .large
  else if call.method ∈ writes then .write
  else .other

/-- `firstNonSpace`. -/
def firstNonSpace (body : Bytes) : Option UInt8 :=
  body.find? fun byte => !(byte == 0x20 || byte == 0x09 || byte == 0x0a || byte == 0x0d)

/-- A content type with `json` in it, or a body that starts with a brace or a bracket. -/
def looksJson (contentType : Option String) (body : Bytes) : Bool :=
  (contentType.any fun value => decide ("json".toList <:+: (Js.toLowerCase value).toList)) ||
    firstNonSpace body == some 0x7b || firstNonSpace body == some 0x5b

/-- A call of a body: an object with a method. -/
def readCall (value : Json) : Option RpcCall :=
  match value.field "method" with
  | some (.string method) =>
    if method = "" then none else some { method, params := value.field "params" }
  | _ => none

/-- The calls of a parsed body, and whether it is a batch. -/
def callsOf : Json → Option (Bool × List RpcCall)
  | .array [] => none
  | .array items => (items.mapM readCall).map (true, ·)
  | value => (readCall value).map fun call => (false, [call])

/-- The calls that `profileRequest` reads in a request, none where it does not read JSON-RPC. -/
def rpcCalls (parseJson : Bytes → Option Json) (method : String) (contentType : Option String)
    (body : Bytes) : Option (Bool × List RpcCall) :=
  if method ≠ "POST" ∨ body.length = 0 then none
  else if looksJson contentType body then (parseJson body).bind callsOf
  else none

/-- A character of the names that `safeMethodName` lets through. -/
def isNameChar (c : Char) : Bool :=
  ('A' ≤ c ∧ c ≤ 'Z') || ('a' ≤ c ∧ c ≤ 'z') || c.isDigit || c == '_'

/-- `safeMethodName`. -/
def safeMethodName (method : String) : String :=
  if 1 ≤ method.toList.length ∧ method.toList.length ≤ 64 ∧ method.toList.all isNameChar then method
  else "nonstandard"

/-- The profile of a single call. -/
def profileCall (call : RpcCall) : RequestProfile :=
  let rpcClass := classifyCall call
  { rpcClass
    expectedResponseBytes := classReplyBytes rpcClass
    retryable := rpcClass == .small || rpcClass == .medium
    opKey := if rpcClass = .other then otherOpKey else s!"http:jsonrpc:{safeMethodName call.method}"
    method := some (safeMethodName call.method) }

/-- The class of a batch. -/
def batchClass (classes : List RpcClass) : RpcClass :=
  if ¬classes.all (· ≠ .other) then .other
  else if .write ∈ classes then .write
  else if classes.all fun rpcClass => rpcClass == .small || rpcClass == .medium then
    if .medium ∈ classes then .medium else .small
  else .large

/-- The profile of a batch. -/
def profileBatch (calls : List RpcCall) : RequestProfile :=
  let classes := calls.map classifyCall
  let total := (classes.map fun rpcClass => (classReplyBytes rpcClass).getD 0).sum
  { rpcClass := batchClass classes
    expectedResponseBytes := if classes.all (· ≠ .other) then some (min total 300000) else none
    retryable := classes.all fun rpcClass => rpcClass == .small || rpcClass == .medium
    opKey := "http:jsonrpc:batch"
    method := some "batch" }

/-- `profileRequest`. -/
def profileRequest (parseJson : Bytes → Option Json) (method : String)
    (contentType : Option String) (body : Bytes) : RequestProfile :=
  match rpcCalls parseJson method contentType body with
  | some (true, calls) => profileBatch calls
  | some (false, [call]) => profileCall call
  | _ => otherProfile

/-! ### Reads and writes -/

/-- A listed small or medium read; a block read with full transactions is none. -/
def RpcCall.IsRead (call : RpcCall) : Prop :=
  (call.method ∈ smallReads ∨ call.method ∈ mediumReads) ∧
    ¬(call.method ∈ blockMethods ∧ secondIsTrue call.params = true)

/-- `eth_sendRawTransaction`. -/
def RpcCall.IsWrite (call : RpcCall) : Prop := call.method ∈ writes

/-- A method that no list names. -/
def RpcCall.IsUnlisted (call : RpcCall) : Prop :=
  call.method ∉ smallReads ∧ call.method ∉ mediumReads ∧ call.method ∉ largeReads ∧
    call.method ∉ writes

/-- The class is one of those that may be resent. -/
def RpcClass.resendable (rpcClass : RpcClass) : Bool := rpcClass == .small || rpcClass == .medium

theorem resendable_iff {call : RpcCall} :
    (classifyCall call).resendable = true ↔ call.IsRead := by
  rw [classifyCall, RpcCall.IsRead]
  split_ifs with hblock hsmall hmedium hlarge hwrite
  · exact iff_of_false (by decide) fun hread => hread.2 hblock
  · exact iff_of_true (by decide) ⟨.inl hsmall, hblock⟩
  · exact iff_of_true (by decide) ⟨.inr hmedium, hblock⟩
  all_goals exact iff_of_false (by decide) fun hread => hread.1.elim hsmall hmedium

/-- The block reads are listed. -/
theorem blockMethods_subset : blockMethods ⊆ mediumReads := by decide

theorem classifyCall_of_isWrite {call : RpcCall} (h : call.IsWrite) :
    classifyCall call = .write := by
  have hname : call.method = "eth_sendRawTransaction" := List.mem_singleton.mp h
  rw [classifyCall, hname]
  rfl

theorem classifyCall_eq_other_iff {call : RpcCall} :
    classifyCall call = .other ↔ call.IsUnlisted := by
  rw [classifyCall, RpcCall.IsUnlisted]
  split_ifs with hblock hsmall hmedium hlarge hwrite
  · exact iff_of_false (by decide) fun h => h.2.1 (blockMethods_subset hblock.1)
  · exact iff_of_false (by decide) fun h => h.1 hsmall
  · exact iff_of_false (by decide) fun h => h.2.1 hmedium
  · exact iff_of_false (by decide) fun h => h.2.2.1 hlarge
  · exact iff_of_false (by decide) fun h => h.2.2.2 hwrite
  · exact iff_of_true rfl ⟨hsmall, hmedium, hlarge, hwrite⟩

variable {parseJson : Bytes → Option Json} {method : String} {contentType : Option String}
  {body : Bytes} {batch : Bool} {calls : List RpcCall}

/-- A single call stands alone. -/
theorem rpcCalls_single (h : rpcCalls parseJson method contentType body = some (false, calls)) :
    ∃ call, calls = [call] := by
  rw [rpcCalls] at h
  split_ifs at h
  obtain ⟨value, -, h⟩ := Option.bind_eq_some_iff.mp h
  unfold callsOf at h
  split at h
  · exact absurd h nofun
  · obtain ⟨_, -, h⟩ := Option.map_eq_some_iff.mp h
    exact absurd (Prod.mk.inj h).1 nofun
  · obtain ⟨call, -, h⟩ := Option.map_eq_some_iff.mp h
    exact ⟨call, (Prod.mk.inj h).2.symm⟩

theorem rpcCalls_method (h : rpcCalls parseJson method contentType body = some (batch, calls)) :
    method = "POST" := by
  rw [rpcCalls] at h
  split_ifs at h with hpost
  exact not_not.mp fun hne => hpost (.inl hne)

/-- A request may be resent when all its calls are reads. -/
theorem profileRequest_retryable_iff
    (h : rpcCalls parseJson method contentType body = some (batch, calls)) :
    (profileRequest parseJson method contentType body).retryable = true ↔
      ∀ call ∈ calls, call.IsRead := by
  rcases batch with _ | _
  · obtain ⟨call, rfl⟩ := rpcCalls_single h
    rw [profileRequest, h, List.forall_mem_singleton]
    exact resendable_iff
  · rw [profileRequest, h]
    refine List.all_eq_true.trans ?_
    rw [List.forall_mem_map]
    exact forall₂_congr fun call _ => resendable_iff

/-- A request with a write is profiled as one unless it has an unlisted call besides. -/
theorem profileRequest_write_iff
    (h : rpcCalls parseJson method contentType body = some (batch, calls))
    (hwrite : ∃ call ∈ calls, call.IsWrite) :
    (profileRequest parseJson method contentType body).rpcClass = .write ↔
      ∀ call ∈ calls, ¬call.IsUnlisted := by
  obtain ⟨written, hmem, hwritten⟩ := hwrite
  rcases batch with _ | _
  · obtain ⟨call, rfl⟩ := rpcCalls_single h
    obtain rfl := List.mem_singleton.mp hmem
    rw [profileRequest, h, List.forall_mem_singleton]
    refine iff_of_true (classifyCall_of_isWrite hwritten) ?_
    exact fun hunlisted => hunlisted.2.2.2 hwritten
  · rw [profileRequest, h]
    have hin : RpcClass.write ∈ calls.map classifyCall :=
      List.mem_map.mpr ⟨written, hmem, classifyCall_of_isWrite hwritten⟩
    have hsized : (calls.map classifyCall).all (· ≠ .other) = true ↔
        ∀ call ∈ calls, ¬call.IsUnlisted := by
      rw [List.all_eq_true, List.forall_mem_map]
      refine forall₂_congr fun call _ => ?_
      rw [decide_eq_true_iff, Ne, classifyCall_eq_other_iff]
    change batchClass (calls.map classifyCall) = .write ↔ _
    rw [← hsized, batchClass]
    split_ifs with hother
    · exact iff_of_true rfl hother
    · exact iff_of_false id hother

/-- A request with a write is never resent. -/
theorem profileRequest_of_isWrite
    (h : rpcCalls parseJson method contentType body = some (batch, calls))
    (hwrite : ∃ call ∈ calls, call.IsWrite) :
    (profileRequest parseJson method contentType body).retryable = false := by
  refine Bool.eq_false_iff.mpr fun hretryable => ?_
  obtain ⟨call, hcall, hwritten⟩ := hwrite
  have hread := resendable_iff.mpr ((profileRequest_retryable_iff h).mp hretryable call hcall)
  rw [classifyCall_of_isWrite hwritten] at hread
  exact absurd hread (by decide)

end NoxSdk.Worker
