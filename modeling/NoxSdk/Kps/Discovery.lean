import NoxSdk.Kps.Pinned
import NoxSdk.Lib.Chunks
import Mathlib.Data.List.Sort

/-!
# The chain check

`runChainCheck` reads the registry at one finalized block through several pairs of an exit
and an RPC provider, and accepts an answer only when every pair returns the same canonical text
and the set of registered members closes.

`send` and `randomIndex` are arbitrary functions of the place of their call in the run
(`SendSite`, `DrawSite`), so every behaviour over time is one of them. The text of a reply is what
`JSON.parse` makes of it. The registry's `Interface` is a parameter.
-/

namespace NoxSdk.Kps

open Js (Json JsonNumber toLowerCase splitAtFirst)
open NoxSdk.Topology

/-! ### Failures -/

/-- `DiscoveryFailureKind`. -/
inductive DiscoveryFailureKind
  | partialAnswer
  | staleBlock
  | chainId
  | implementation
  | fingerprint
  | incomplete
  deriving DecidableEq

/-- What a step of a chain check throws: a `DiscoveryError` or another value. -/
inductive CheckError
  | discovery (kind : DiscoveryFailureKind) (message : String)
  | other (error : Thrown)
  deriving DecidableEq

/-- `describe`. -/
def CheckError.describe : CheckError → String
  | discovery _ message => message
  | other error => error.message

/-- A step that may throw. -/
abbrev Check (α : Type) := Except CheckError α

/-- `partial`. -/
def partialError (message : String) : CheckError := .discovery .partialAnswer message

/-- A step of another module. -/
def liftThrown {α : Type} : Except Thrown α → Check α
  | .ok a => .ok a
  | .error e => .error (.other e)

/-! ### The registry's interface -/

/-- A decoded `relayers(address)`. -/
structure RelayersResult where
  sphinxKey : Bytes
  url : String
  ingressUrl : String
  metadataUrl : String
  stakedAmount : ℕ
  unlockTime : ℕ
  isRegistered : Bool
  status : ℕ
  frozen : Bool
  deriving DecidableEq

/-- `REGISTRY_INTERFACE`: the calldata of the reads, the decoders of their results and the topics
of the registration events. -/
structure RegistryInterface where
  encodeFunctionData : String → List String → String
  relayerCount : String → Except Thrown ℕ
  topologyFingerprint : String → Except Thrown Bytes
  relayers : String → Except Thrown RelayersResult
  getNodeRole : String → Except Thrown ℕ
  registrationTopics : List String

/-- `FinalizedBlock`. -/
structure FinalizedBlock where
  hash : String
  number : ℕ
  timestamp : ℕ
  deriving DecidableEq

/-- `ChainProfile`. -/
structure ChainProfile where
  address : String
  sphinxKey : String
  url : String
  ingressUrl : String
  metadataUrl : String
  stake : String
  status : ℕ
  frozen : Bool
  role : ℕ
  deriving DecidableEq

/-- `RegistryAnswer`. -/
structure RegistryAnswer where
  chainId : ℕ
  block : FinalizedBlock
  implementation : String
  relayerCount : ℕ
  fingerprint : String
  members : OrderedMap String ChainProfile
  canonical : String

/-- `ChainMembership`. -/
structure ChainMembership where
  block : FinalizedBlock
  fingerprint : String
  relayerCount : ℕ
  registered : List ChainProfile
  deriving DecidableEq

/-- `KpsBootstrap`, the fields a chain check reads. -/
structure KpsBootstrap where
  chainId : ℕ
  registry : String
  registryImpl : String
  maxStateAgeSeconds : ℤ

/-! ### Request bodies -/

/-- What one call of a plan reads. -/
inductive RegistryQuery
  | blockByHash
  | chainId
  | implementationSlot
  | relayerCount
  | topologyFingerprint
  | relayers (address : String)
  | getNodeRole (address : String)
  deriving DecidableEq

/-- `PlannedCall`; the query stands for the method and the parameters. -/
structure PlannedCall where
  id : ℕ
  query : RegistryQuery
  deriving DecidableEq

/-- `RegistryReadPlan`. -/
structure RegistryReadPlan where
  registry : String
  block : FinalizedBlock
  candidates : List String
  calls : List PlannedCall

/-- `EIP1967_IMPLEMENTATION_SLOT`. -/
def eip1967ImplementationSlot : String :=
  "0x360894a13ba1a3210667c828492db98dca3e2076cc3735a920a3ca505d382bbc"

/-- A JSON-RPC request. -/
def rpcRequest (id : ℕ) (method : String) (params : List Json) : Json :=
  .object [("jsonrpc", .string "2.0"), ("id", .number (.integer id)), ("method", .string method),
    ("params", .array params)]

/-- The request of a planned call. -/
def PlannedCall.request (abi : RegistryInterface) (plan : RegistryReadPlan) (call : PlannedCall) :
    Json :=
  let at_ : Json :=
    .object [("blockHash", .string plan.block.hash), ("requireCanonical", .bool true)]
  let ethCall (data : String) : Json := rpcRequest call.id "eth_call"
    [.object [("to", .string plan.registry), ("data", .string data)], at_]
  match call.query with
  | .blockByHash =>
    rpcRequest call.id "eth_getBlockByHash" [.string plan.block.hash, .bool false]
  | .chainId => rpcRequest call.id "eth_chainId" []
  | .implementationSlot => rpcRequest call.id "eth_getStorageAt"
      [.string plan.registry, .string eip1967ImplementationSlot, at_]
  | .relayerCount => ethCall (abi.encodeFunctionData "relayerCount" [])
  | .topologyFingerprint => ethCall (abi.encodeFunctionData "topologyFingerprint" [])
  | .relayers address => ethCall (abi.encodeFunctionData "relayers" [address])
  | .getNodeRole address => ethCall (abi.encodeFunctionData "getNodeRole" [address])

/-- `finalizedBlockBody`. -/
def finalizedBlockBody : Json :=
  rpcRequest 1 "eth_getBlockByNumber" [.string "finalized", .bool false]

/-- The regular expression `^0x[0-9a-f]{40}$`. -/
def isLowerAddress (s : String) : Bool :=
  match s.toList with
  | '0' :: 'x' :: digits => digits.length == 40 && digits.all Js.isLowerHexDigit
  | _ => false

/-- The two calls of a candidate. -/
def candidateCalls (address : String) (index : ℕ) : List PlannedCall :=
  [⟨6 + index * 2, .relayers address⟩, ⟨7 + index * 2, .getNodeRole address⟩]

/-- `registryReadPlan`. -/
def registryReadPlan (registry : String) (block : FinalizedBlock) (candidates : List String) :
    Check RegistryReadPlan :=
  let sorted := (Js.unique (candidates.map toLowerCase)).mergeSort fun a b => decide (a ≤ b)
  if sorted.length > maxCandidates then
    .error (.discovery .incomplete
      (s!"{sorted.length} candidate members exceed the bound of {maxCandidates} one registry " ++
        "read covers"))
  else
    match sorted.find? fun address => !isLowerAddress address with
    | some address => .error (partialError
        s!"candidate {String.ofList (Js.takeUnits 48 address.toList)} is not an address")
    | none => .ok
        { registry := registry
          block := block
          candidates := sorted
          calls := [⟨1, .blockByHash⟩, ⟨2, .chainId⟩, ⟨3, .implementationSlot⟩, ⟨4, .relayerCount⟩,
            ⟨5, .topologyFingerprint⟩] ++ (sorted.zipIdx.flatMap fun entry =>
              candidateCalls entry.1 entry.2) }

/-- `DISCOVERY_MAX_BATCH_CALLS`. -/
def discoveryMaxBatchCalls : ℕ := 20

/-- The calls of each body of `planBodies`. -/
def planBatches (plan : RegistryReadPlan) : List (List PlannedCall) :=
  chunks discoveryMaxBatchCalls plan.calls

/-- The batch body of some calls of a plan. -/
def batchBody (abi : RegistryInterface) (plan : RegistryReadPlan) (calls : List PlannedCall) :
    Json :=
  .array (calls.map (PlannedCall.request abi plan))

/-- `planBodies`. -/
def planBodies (abi : RegistryInterface) (plan : RegistryReadPlan) : List Json :=
  (planBatches plan).map (batchBody abi plan)

/-- `expectedReplyBytes`. -/
def expectedReplyBytes (candidates : ℕ) : ℕ := 8192 + 2048 * candidates

/-! ### Parsing replies -/

/-- `isRecord`. -/
def isRecord : Json → Bool
  | .object _ => true
  | _ => false

/-- A string in lower case; other values count as empty. -/
def lowerText : Option Json → List Char
  | some (.string s) => (toLowerCase s).toList
  | _ => []

/-- `HASH_RE`. -/
def isHash : List Char → Bool
  | '0' :: 'x' :: digits => digits.length == 64 && digits.all Js.isLowerHexDigit
  | _ => false

/-- The digits of `QUANTITY_RE`. -/
def quantityDigits : List Char → Option (List Char)
  | ['0', 'x', '0'] => some ['0']
  | '0' :: 'x' :: c :: cs =>
    if c ≠ '0' ∧ (c :: cs).all Js.isLowerHexDigit then some (c :: cs) else none
  | _ => none

/-- `DATA_RE`. -/
def isData : List Char → Bool
  | '0' :: 'x' :: digits => digits.length % 2 == 0 && digits.all Js.isLowerHexDigit
  | _ => false

/-- `parseQuantity`. -/
def parseQuantity (value : Option Json) (what : String) : Check ℕ :=
  match quantityDigits (lowerText value) with
  | none => .error (partialError s!"{what} is not a hex quantity")
  | some digits =>
    let number := Js.number (Js.parseDigits 16 digits)
    if number < Js.safeBound then .ok number else .error (partialError s!"{what} is out of range")

/-- `parseData`. -/
def parseData (value : Option Json) (what : String) : Check (List Char) :=
  let text := lowerText value
  if isData text then .ok text else .error (partialError s!"{what} is not hex data")

/-- `parseBlock`. -/
def parseBlock (value : Option Json) (what : String) : Check FinalizedBlock :=
  match value with
  | some (.object fields) =>
    let hash := lowerText (fields.lookup "hash")
    if !isHash hash then .error (partialError s!"{what} has no block hash")
    else do
      let number ← parseQuantity (fields.lookup "number") s!"{what}.number"
      let timestamp ← parseQuantity (fields.lookup "timestamp") s!"{what}.timestamp"
      return ⟨String.ofList hash, number, timestamp⟩
  | _ => .error (partialError s!"{what} is not a block object")

/-- A response text, by what `JSON.parse` makes of it; `none` when that throws. -/
abbrev Reply := Option Json

/-- `parseFinalizedBlock`. -/
def parseFinalizedBlock (text : Reply) : Check FinalizedBlock :=
  match text with
  | none => .error (partialError "the reply is not JSON")
  | some reply =>
    match reply.field "id" with
    | some (.number (.integer 1)) => parseBlock (reply.field "result") "finalized block"
    | _ => .error (partialError "the finalized block reply is not a JSON-RPC reply with id 1")

/-- `mergeBatchReplies`. -/
def mergeBatchReplies : List Reply → Reply
  | [] => some (.array [])
  | text :: texts =>
    match text with
    | some (.array items) =>
      match mergeBatchReplies texts with
      | some (.array rest) => some (.array (items ++ rest))
      | other => other
    | _ => text

/-- The message of a JSON-RPC error. -/
def rpcErrorMessage (error : Json) : String :=
  if isRecord error then
    String.ofList
      (Js.takeUnits 160 (((error.field "message").map Json.text).getD "undefined").toList)
  else "error"

/-- One item of a batch reply. -/
def addBatchItem (results : OrderedMap JsonNumber Json) (item : Json) :
    Check (OrderedMap JsonNumber Json) :=
  match item.field "id" with
  | some (.number id) =>
    match item.field "error" with
    | some error => .error (partialError
        s!"call {Json.numberText id} failed: {rpcErrorMessage error}")
    | none =>
      match item.field "result" with
      | none => .error (partialError s!"call {Json.numberText id} has no result")
      | some result =>
        if results.has id then
          .error (partialError s!"call {Json.numberText id} answered twice")
        else .ok (results.set id result)
  | _ => .error (partialError "a batch item has no numeric id")

/-- The results answer the calls 1 to `expected` and no other. -/
def checkComplete (results : OrderedMap JsonNumber Json) (expected : ℕ) : Check Unit :=
  match (List.range' 1 expected).find? fun id : ℕ => !results.has (.integer id) with
  | some id => .error (partialError s!"call {id} is missing from the batch reply")
  | none =>
    if results.size ≠ expected then
      .error (partialError s!"the batch reply has {results.size} items, expected {expected}")
    else .ok ()

/-- `batchResults`. -/
def batchResults (text : Reply) (expected : ℕ) : Check (OrderedMap JsonNumber Json) :=
  match text with
  | none => .error (partialError "the reply is not JSON")
  | some (.array reply) => do
    let results ← reply.foldlM addBatchItem .empty
    checkComplete results expected
    return results
  | some _ => .error (partialError "the batch reply is not a JSON array")

/-- The result of a call. -/
def resultOf (results : OrderedMap JsonNumber Json) (id : ℕ) : Option Json :=
  results.get? (.integer id)

/-- `decodeOne`, on the data of a result. -/
def decodeOne {α : Type} (decode : String → Except Thrown α) (value : Option Json)
    (method : String) : Check α :=
  match value with
  | some (.string data) =>
    match decode data with
    | .ok a => .ok a
    | .error error => .error (partialError
        (s!"{method} returned undecodable data: " ++
          s!"{String.ofList (Js.takeUnits 120 error.message.toList)}"))
  | _ => .error (partialError s!"{method} is not hex data")

/-- What an answer says about one candidate. -/
structure CandidateAnswer where
  address : String
  profileHex : List Char
  roleHex : List Char
  profile : Option ChainProfile

/-- The profile of a registered member. -/
def chainProfile (address : String) (profile : RelayersResult) (role : ℕ) : ChainProfile where
  address := address
  sphinxKey := bytesToHex profile.sphinxKey
  url := profile.url
  ingressUrl := profile.ingressUrl
  metadataUrl := profile.metadataUrl
  stake := toString profile.stakedAmount
  status := profile.status
  frozen := profile.frozen
  role := role

/-- One candidate of `parseRegistryAnswer`. -/
def parseCandidate (abi : RegistryInterface) (results : OrderedMap JsonNumber Json)
    (entry : String × ℕ) : Check CandidateAnswer := do
  let (address, index) := entry
  let profileHex ← parseData (resultOf results (6 + index * 2)) s!"relayers({address})"
  let roleHex ← parseData (resultOf results (7 + index * 2)) s!"getNodeRole({address})"
  let profile ← decodeOne abi.relayers (some (.string (String.ofList profileHex))) "relayers"
  let role ← decodeOne abi.getNodeRole (some (.string (String.ofList roleHex))) "getNodeRole"
  return ⟨address, profileHex, roleHex,
    if profile.isRegistered then some (chainProfile address profile role) else none⟩

/-- The line of a candidate in the canonical text. -/
def CandidateAnswer.line (answer : CandidateAnswer) : List String :=
  [answer.address, String.ofList answer.profileHex, String.ofList answer.roleHex]

/-- A text of lines, each the fields between its colons. -/
def canonicalText (lines : List (List String)) : String :=
  Js.join '\n' (lines.map (Js.join ':'))

/-- `members.set(address, …)` for a registered candidate. -/
def addMember (members : OrderedMap String ChainProfile) (answer : CandidateAnswer) :
    OrderedMap String ChainProfile :=
  match answer.profile with
  | none => members
  | some profile => members.set answer.address profile

/-- The answer made of the parsed results. -/
def registryAnswer (block : FinalizedBlock) (chainId : ℕ) (slot : List Char) (relayerCount : ℕ)
    (fingerprint : Bytes) (answers : List CandidateAnswer) : RegistryAnswer where
  chainId := chainId
  block := block
  implementation := String.ofList ('0' :: 'x' :: slot.drop 26)
  relayerCount := relayerCount
  fingerprint := bytesToHex fingerprint
  members := answers.foldl addMember .empty
  canonical := canonicalText
    ([["block", block.hash, toString block.number, toString block.timestamp],
      ["chain", toString chainId], ["impl", String.ofList slot],
      ["count", toString relayerCount], ["fingerprint", bytesToHex fingerprint]] ++
      answers.map CandidateAnswer.line)

/-- `parseRegistryAnswer`. -/
def parseRegistryAnswer (abi : RegistryInterface) (plan : RegistryReadPlan) (text : Reply) :
    Check RegistryAnswer := do
  let results ← batchResults text plan.calls.length
  let block ← parseBlock (resultOf results 1) "eth_getBlockByHash"
  if block ≠ plan.block then
    .error (partialError "eth_getBlockByHash describes another block than the finalized block")
  else do
    let chainId ← parseQuantity (resultOf results 2) "eth_chainId"
    let slot ← parseData (resultOf results 3) "eth_getStorageAt"
    if slot.length ≠ 66 then .error (partialError "the implementation slot is not 32 bytes")
    else do
      let count ← decodeOne abi.relayerCount (resultOf results 4) "relayerCount"
      let fingerprint ←
        decodeOne abi.topologyFingerprint (resultOf results 5) "topologyFingerprint"
      let relayerCount := Js.number count
      if ¬ relayerCount < Js.safeBound then .error (partialError "relayerCount is out of range")
      else do
        let answers ← plan.candidates.zipIdx.mapM (parseCandidate abi results)
        return registryAnswer block chainId slot relayerCount fingerprint answers

/-- `answersAgree`, on the canonical texts. -/
def answersAgree (canonicals : List String) : Bool :=
  match canonicals with
  | [] => false
  | first :: rest => rest.all (· == first)

/-- The registered members as nodes of a fingerprint. -/
def fingerprintNode (member : ChainProfile) : RelayerNode where
  address := member.address
  sphinxKey := member.sphinxKey
  url := member.url
  stake := member.stake
  lastSeen := 0
  isPrivileged := false
  layer := 0
  role := member.role
  ingressUrl := none
  metadataUrl := none

/-- `closeMembership`. -/
def closeMembership (hashes : Hashes) (answer : RegistryAnswer) (bootstrap : KpsBootstrap) :
    Check ChainMembership :=
  if answer.chainId ≠ bootstrap.chainId then
    .error (.discovery .chainId
      s!"the providers serve chain {answer.chainId}, the bundle expects {bootstrap.chainId}")
  else if answer.implementation ≠ bootstrap.registryImpl then
    .error (.discovery .implementation
      (s!"the registry proxy points at implementation {answer.implementation}, " ++
        s!"this bundle knows {bootstrap.registryImpl}"))
  else
    let registered := answer.members.values.mergeSort fun a b => decide (a.address ≤ b.address)
    if registered.length < answer.relayerCount then
      .error (.discovery .incomplete
        (s!"{registered.length} of {answer.relayerCount} registered members are known; " ++
          s!"{answer.relayerCount - registered.length} hidden"))
    else do
      let computed ←
        liftThrown (computeTopologyFingerprint hashes (registered.map fingerprintNode))
      if registered.length ≠ answer.relayerCount ∨ computed ≠ answer.fingerprint then
        .error (.discovery .fingerprint
          (s!"registered members ({registered.length}) hash to {computed}, " ++
            s!"the registry's fingerprint is {answer.fingerprint} over {answer.relayerCount}"))
      else .ok ⟨answer.block, answer.fingerprint, answer.relayerCount, registered⟩

/-! ### The registration logs -/

/-- `DISCOVERY_LOG_SCAN`. -/
def logScanChunkBlocks : ℕ := 2000000

/-- `DISCOVERY_LOG_SCAN.maxChunks`. -/
def logScanMaxChunks : ℕ := 8

/-- `n.toString(16)`, as a JSON-RPC quantity. -/
def quantityText (n : ℕ) : String := String.ofList ('0' :: 'x' :: Nat.toDigits 16 n)

/-- One `eth_getLogs` request. -/
def logsRequest (abi : RegistryInterface) (registry : String) (fromBlock toBlock index : ℕ) :
    Json :=
  let start := fromBlock + index * logScanChunkBlocks
  let last := min toBlock (start + logScanChunkBlocks - 1)
  rpcRequest (index + 1) "eth_getLogs" [.object [("address", .string registry),
    ("fromBlock", .string (quantityText start)), ("toBlock", .string (quantityText last)),
    ("topics", .array [.array (abi.registrationTopics.map .string)])]]

/-- `registrationLogsBody`: the body and the number of its chunks. -/
def registrationLogsBody (abi : RegistryInterface) (registry : String) (fromBlock toBlock : ℕ) :
    Check (Json × ℕ) :=
  let chunks := (toBlock + 1 - fromBlock + logScanChunkBlocks - 1) / logScanChunkBlocks
  if chunks > logScanMaxChunks then
    .error (.discovery .incomplete
      (s!"the registration log scan spans {chunks} " ++
        s!"chunks of {logScanChunkBlocks} blocks, more than {logScanMaxChunks}"))
  else .ok (.array ((List.range chunks).map (logsRequest abi registry fromBlock toBlock)), chunks)

/-- The addresses a log reply names, and its canonical text. -/
structure RegistrationLogs where
  addresses : List String
  canonical : String

/-- `String(value)` of a field that may be missing. -/
def fieldText (value : Option Json) : String := (value.map Json.text).getD "undefined"

/-- One log: the address it names and its canonical line. -/
def parseLog (id : ℕ) (log : Json) : Check (String × List String) :=
  match log.field "topics" with
  | some (.array topics) =>
    let topic := lowerText topics[1]?
    if !isHash topic then .error (partialError "a registration log has no relayer topic")
    else
      let address := String.ofList ('0' :: 'x' :: topic.drop 26)
      .ok (address, [toString id, toLowerCase (fieldText (log.field "blockNumber")),
        toLowerCase (fieldText (log.field "logIndex")), address])
  | _ => .error (partialError "a registration log has no topics")

/-- The logs of one chunk. -/
def parseLogChunk (results : OrderedMap JsonNumber Json) (id : ℕ) :
    Check (List (String × List String)) :=
  match resultOf results id with
  | some (.array logs) => logs.mapM (parseLog id)
  | _ => .error (partialError s!"eth_getLogs chunk {id} is not a list")

/-- `parseRegistrationLogs`. -/
def parseRegistrationLogs (text : Reply) (chunks : ℕ) : Check RegistrationLogs := do
  let results ← batchResults text chunks
  let logs ← (List.range' 1 chunks).mapM (parseLogChunk results)
  return {
    addresses := (Js.unique (logs.flatten.map Prod.fst)).mergeSort fun a b => decide (a ≤ b)
    canonical := canonicalText (logs.flatten.map Prod.snd) }

/-! ### The context of a run -/

/-- Where in a run `send` is called. -/
inductive SendSite
  | finalizedBlock (attempt : ℕ)
  | registry (attempt : ℕ) (logScan : Bool) (pair body : ℕ)
  | logs (attempt pair : ℕ)
  deriving DecidableEq

/-- Which draw of `choosePairs` is made. -/
inductive DrawUse
  | exits (avoided : Bool)
  | providers (avoided : Bool)
  | url
  deriving DecidableEq

/-- Where in a run `randomIndex` is called. -/
structure DrawSite where
  attempt : ℕ
  use : DrawUse
  index : ℕ
  deriving DecidableEq

/-- The exits and provider keys that misbehaved. -/
structure Avoid where
  exits : Finset String
  providers : Finset String
  deriving DecidableEq

/-- `ChainCheckContext`. -/
structure ChainCheckContext where
  bootstrap : KpsBootstrap
  providers : List String
  quorum : ℕ
  exits : List String
  candidates : List String
  core : List String
  minBlock : ℕ
  logsFromBlock : ℕ
  nowUnix : ℤ
  send : SendSite → String → String → Json → ℕ → Except Thrown Reply
  randomIndex : DrawSite → ℕ

/-- `ReadPair`. -/
structure ReadPair where
  exit : String
  provider : String
  deriving DecidableEq

/-- `ChainCheckOutcome`. -/
inductive ChainCheckOutcome
  | verified (membership : ChainMembership) (pairs : List ReadPair) (attempts : ℕ) (logScan : Bool)
  | insufficient (detail : String)
  | disagreement (attempts : ℕ) (detail : String)
  | incomplete (detail : String)
  | rejected (reason : DiscoveryFailureKind) (detail : String)
  | failed (attempts : ℕ) (detail : String)
  deriving DecidableEq

/-! ### Providers -/

/-- The scheme and the rest of an RPC URL. -/
def rpcScheme : List Char → Option (String × List Char)
  | 'h' :: 't' :: 't' :: 'p' :: 's' :: ':' :: '/' :: '/' :: rest => some ("https", rest)
  | 'h' :: 't' :: 't' :: 'p' :: ':' :: '/' :: '/' :: rest => some ("http", rest)
  | _ => none

/-- A character of `[a-z0-9]`. -/
def isHostEnd (c : Char) : Bool := c.isDigit || decide ('a' ≤ c ∧ c ≤ 'z')

/-- The host part of `RPC_URL_RE`. -/
def isRpcHost (host : List Char) : Bool :=
  host == "[::1]".toList ||
    (decide (1 ≤ host.length ∧ host.length ≤ 253) && host.head?.any isHostEnd &&
      host.getLast?.any isHostEnd && host.all fun c => isHostEnd c || c == '.' || c == '-')

/-- The path part of `RPC_URL_RE`. -/
def isRpcPath : List Char → Bool
  | [] => true
  | c :: cs => c == '/' &&
      cs.all fun d => decide ('\x21' ≤ d ∧ d ≤ '\x7e') && d != '#'

/-- The labels of a host name are well formed. -/
def hasLabels (host : List Char) : Bool :=
  (host.splitOn '.').all fun label =>
    decide (1 ≤ label.length ∧ label.length ≤ 63) && label.head? != some '-' &&
      label.getLast? != some '-'

/-- A parsed RPC URL: its scheme, its host and the digits of its port. -/
structure RpcUrl where
  scheme : String
  host : List Char
  port : Option (List Char)

/-- `parseRpcUrl`. -/
def parseRpcUrl (value : String) : Option RpcUrl := do
  let (scheme, rest) ← rpcScheme value.toList
  let authority := rest.takeWhile (· != '/')
  let path := rest.dropWhile (· != '/')
  -- the last colon separates the port, unless it is one of the brackets
  let (host, port) ←
    match authority with
    | '[' :: ':' :: ':' :: '1' :: ']' :: [] => some (authority, none)
    | '[' :: ':' :: ':' :: '1' :: ']' :: ':' :: port => some ("[::1]".toList, some port)
    | _ =>
      match splitAtFirst ':' authority with
      | none => some (authority, none)
      | some (host, port) => some (host, some port)
  if isRpcHost host && port.all isPortText && isRpcPath path &&
      port.all (fun digits => decide (Js.parseDigits 10 digits ≤ 65535)) &&
      (host == "[::1]".toList || hasLabels host) then
    some ⟨scheme, host, port⟩
  else none

/-- The regular expression `^\d{1,3}(?:\.\d{1,3}){3}$`. -/
def isDottedQuad (host : List Char) : Bool :=
  let parts := host.splitOn '.'
  parts.length == 4 &&
    parts.all fun part => decide (1 ≤ part.length ∧ part.length ≤ 3) && part.all Char.isDigit

/-- `rpcProviderKey`. -/
def rpcProviderKey (url : String) : String :=
  match parseRpcUrl url with
  | none => url
  | some parsed =>
    if isDottedQuad parsed.host || parsed.host.head? == some '[' ||
        parsed.host == "localhost".toList then
      match parsed.port with
      | none => String.ofList parsed.host
      | some port => String.ofList (parsed.host ++ ':' :: port)
    else
      let labels := parsed.host.splitOn '.'
      Js.join '.' ((labels.drop (labels.length - 2)).map String.ofList)

/-! ### Pairs -/

/-- Exchange two elements. -/
def swapAt {α : Type} (list : List α) (i j : ℕ) : List α :=
  (list.toArray.swapIfInBounds i j).toList

/-- The exchanges of `shuffle` from an index down to 1; `draw` answers `randomIndex`. -/
def shuffleFrom {α : Type} (draw : ℕ → ℕ) : ℕ → List α → List α
  | 0, list => list
  | index + 1, list =>
    shuffleFrom draw index (swapAt list (index + 1) (draw (index + 1) % (index + 2)))

/-- `shuffle`. -/
def shuffle {α : Type} (draw : ℕ → ℕ) (list : List α) : List α :=
  shuffleFrom draw (list.length - 1) list

/-- `orderPreferred`; a set of avoided items is a predicate, and `draw` tells the two shuffles
apart. -/
def orderPreferred (items : List String) (avoided : String → Bool) (draw : Bool → ℕ → ℕ) :
    List String :=
  shuffle (draw false) (items.filter fun item => !avoided item) ++
    shuffle (draw true) (items.filter avoided)

/-- One URL joins those of its provider key. -/
def addProvider (byKey : OrderedMap String (List String)) (url : String) :
    OrderedMap String (List String) :=
  byKey.set (rpcProviderKey url) ((byKey.get? (rpcProviderKey url)).getD [] ++ [url])

/-- The URLs of each provider key, in the order of first use. -/
def providersByKey (providers : List String) : OrderedMap String (List String) :=
  providers.foldl addProvider .empty

/-- One URL of a provider key. -/
def chooseProvider (context : ChainCheckContext) (attempt : ℕ)
    (byKey : OrderedMap String (List String)) (key : String) (index : ℕ) : String :=
  let urls := (byKey.get? key).getD []
  (urls[context.randomIndex ⟨attempt, .url, index⟩ % urls.length]?).getD ""

/-- `choosePairs`. -/
def choosePairs (context : ChainCheckContext) (avoid : Avoid) (attempt : ℕ) :
    Option (List ReadPair) :=
  let exits := orderPreferred (Js.unique context.exits) (fun exit => decide (exit ∈ avoid.exits))
    fun avoided index => context.randomIndex ⟨attempt, .exits avoided, index⟩
  let byKey := providersByKey context.providers
  let keys := orderPreferred byKey.keys (fun key => decide (key ∈ avoid.providers))
    fun avoided index => context.randomIndex ⟨attempt, .providers avoided, index⟩
  if exits.length < context.quorum ∨ keys.length < context.quorum then none
  else some (((exits.zip keys).take context.quorum).zipIdx.map fun entry =>
    ⟨entry.1.1, chooseProvider context attempt byKey entry.1.2 entry.2⟩)

/-- `blame`. -/
def blame (avoid : Avoid) (pair : ReadPair) : Avoid :=
  ⟨insert pair.exit avoid.exits, insert (rpcProviderKey pair.provider) avoid.providers⟩

/-! ### Reading through every pair -/

/-- What `readAll` returns. -/
inductive ReadAll (α : Type)
  | ok (values : List α)
  | failed (pairs : List ReadPair) (detail : String)

/-- The replies to the bodies of one read, as one text. -/
def joinReplies : List Reply → Reply
  | [reply] => reply
  | replies => mergeBatchReplies replies

/-- What one pair sent back for one body after another, parsed. -/
def readPair {α : Type} (context : ChainCheckContext) (site : ℕ → SendSite) (bodies : List Json)
    (expectedBytes : ℕ) (parse : Reply → Check α) (pair : ReadPair) : Check α := do
  let replies ← bodies.zipIdx.mapM fun entry =>
    liftThrown (context.send (site entry.2) pair.exit pair.provider entry.1 expectedBytes)
  parse (joinReplies replies)

/-- The values of the pairs that answered. -/
def fulfilled {α : Type} : List (ReadPair × Check α) → List α
  | [] => []
  | (_, .ok value) :: rest => value :: fulfilled rest
  | (_, .error _) :: rest => fulfilled rest

/-- The pairs that failed, with the error of each. -/
def rejections {α : Type} : List (ReadPair × Check α) → List (ReadPair × CheckError)
  | [] => []
  | (_, .ok _) :: rest => rejections rest
  | (pair, .error error) :: rest => (pair, error) :: rejections rest

/-- `readAll`; `site` gives the place of the call for a pair and a body. -/
def readAll {α : Type} (context : ChainCheckContext) (site : ℕ → ℕ → SendSite)
    (pairs : List ReadPair) (bodies : List Json) (expectedBytes : ℕ) (parse : Reply → Check α) :
    ReadAll α :=
  let settled := pairs.zipIdx.map fun entry =>
    (entry.1, readPair context (site entry.2) bodies expectedBytes parse entry.1)
  let failed := rejections settled
  if failed.length > 0 then
    .failed (failed.map Prod.fst) ("; ".intercalate (failed.map fun entry => entry.2.describe))
  else .ok (fulfilled settled)

/-! ### The run -/

/-- `DISCOVERY_CLOCK_SKEW_SECONDS`. -/
def discoveryClockSkewSeconds : ℤ := 600

/-- `DISCOVERY_PAIRING_BUDGET`. -/
def discoveryPairingBudget : ℕ := 3

/-- `checkBlockWindow`. -/
def checkBlockWindow (block : FinalizedBlock) (context : ChainCheckContext) : Check Unit :=
  if block.number < context.minBlock then
    .error (.discovery .staleBlock
      s!"finalized block {block.number} is before block {context.minBlock}")
  else
    let age := context.nowUnix - block.timestamp
    if age > context.bootstrap.maxStateAgeSeconds then
      .error (.discovery .staleBlock
        (s!"finalized block {block.number} is {age}s old " ++
          s!"(limit {context.bootstrap.maxStateAgeSeconds}s)"))
    else if -age > discoveryClockSkewSeconds then
      .error (.discovery .staleBlock s!"finalized block {block.number} is {-age}s in the future")
    else .ok ()

/-- How a pairing ends: with an outcome, or with a failure that calls for the next pairing. -/
inductive Settled
  | done (outcome : ChainCheckOutcome)
  | next (disagreed : Bool) (blamed : List ReadPair) (failure : String)

/-- How a registry read ends; a set that does not close may still be completed. -/
inductive ReadResult
  | settled (settled : Settled)
  | incomplete (detail : String)

/-- How a scan of the registration logs ends. -/
inductive ScanResult
  | settled (settled : Settled)
  | completed (candidates : List String)

section Run

variable (hashes : Hashes) (abi : RegistryInterface) (context : ChainCheckContext)

/-- The registry read of one round. -/
def readRegistry (attempt : ℕ) (pairs : List ReadPair) (block : FinalizedBlock)
    (candidates : List String) (logScan : Bool) : Check ReadResult := do
  let plan ← registryReadPlan context.bootstrap.registry block candidates
  let bodies := planBodies abi plan
  let expectedBytes :=
    expectedReplyBytes ((plan.candidates.length + bodies.length - 1) / bodies.length)
  match readAll context (.registry attempt logScan) pairs bodies expectedBytes
      (parseRegistryAnswer abi plan) with
  | .failed failed detail => return .settled (.next false failed detail)
  | .ok answers =>
    match answers with
    | [] => return .settled (.next true pairs
        s!"the {pairs.length} pairs answered differently at block {block.number}")
    | answer :: _ =>
      if !answersAgree (answers.map (·.canonical)) then
        .ok <| .settled (.next true pairs
          s!"the {pairs.length} pairs answered differently at block {block.number}")
      else
        match closeMembership hashes answer context.bootstrap with
        | .ok membership =>
          return .settled (.done (.verified membership pairs attempt logScan))
        | .error (.other error) => throw (.other error)
        | .error (.discovery .incomplete detail) => return .incomplete detail
        | .error (.discovery kind detail) => return .settled (.done (.rejected kind detail))

/-- The candidates completed from what the pairs read of the registration logs. -/
def completeCandidates (pairs : List ReadPair) : ReadAll RegistrationLogs → ScanResult
  | .failed _ detail => .settled (.done (.incomplete s!"registration log scan: {detail}"))
  | .ok logs =>
    if !answersAgree (logs.map (·.canonical)) then
      .settled (.next true pairs "the pairs disagree on the registration logs")
    else
      let addresses := (logs.head?.map (·.addresses)).getD []
      let completed := Js.unique ((context.core ++ addresses).map toLowerCase)
      if completed.length > maxCandidates then
        .settled (.done (.incomplete
          (s!"the registration logs name {completed.length} members, " ++
            s!"more than the bound of {maxCandidates}")))
      else .completed completed

/-- The scan of the registration logs, with the body of its request and the number of chunks. -/
def scanWith (attempt : ℕ) (pairs : List ReadPair) : Check (Json × ℕ) → ScanResult
  | .error error => .settled (.done (.incomplete error.describe))
  | .ok (body, chunks) => completeCandidates context pairs
      (readAll context (fun pair _ => .logs attempt pair) pairs [body] 65536
        (fun text => parseRegistrationLogs text chunks))

/-- The scan of the registration logs from `logsFromBlock` to the block of the pairing. -/
def scanLogs (attempt : ℕ) (pairs : List ReadPair) (block : FinalizedBlock) : ScanResult :=
  scanWith context attempt pairs
    (registrationLogsBody abi context.bootstrap.registry context.logsFromBlock block.number)

/-- The reads of one pairing at its block: once over the given candidates and, when the set does
not close, once over those the logs complete. -/
def readMembership (attempt : ℕ) (pairs : List ReadPair) (block : FinalizedBlock) :
    Check Settled := do
  match ← readRegistry hashes abi context attempt pairs block
      (context.candidates.take maxCandidates) false with
  | .settled settled => return settled
  | .incomplete _ =>
    match scanLogs abi context attempt pairs block with
    | .settled settled => return settled
    | .completed candidates =>
      match ← readRegistry hashes abi context attempt pairs block candidates true with
      | .settled settled => return settled
      | .incomplete detail => return .done (.incomplete detail)

/-- The finalized block, through the first pair. -/
def finalizedBlock (attempt : ℕ) (first : ReadPair) : Check FinalizedBlock := do
  let reply ← liftThrown (context.send (.finalizedBlock attempt) first.exit first.provider
    finalizedBlockBody 4096)
  let block ← parseFinalizedBlock reply
  checkBlockWindow block context
  return block

/-- One pairing. -/
def pairing (attempt : ℕ) (pairs : List ReadPair) : Check Settled :=
  match pairs with
  | [] => .error (.other (.error "Cannot read properties of undefined (reading 'exit')"))
  | first :: _ =>
    match finalizedBlock context attempt first with
    | .error error => .ok (.next false [first] s!"finalized block: {error.describe}")
    | .ok block => readMembership hashes abi context attempt pairs block

/-- The number of pairings still allowed, the disagreements and the last failure so far. -/
def runAttempts (avoid : Avoid) (disagreements : ℕ) (lastFailure : String) :
    ℕ → Check (ChainCheckOutcome × Avoid)
  | 0 => .ok (if disagreements > 0 then .disagreement discoveryPairingBudget lastFailure
      else .failed discoveryPairingBudget lastFailure, avoid)
  | left + 1 =>
    let attempt := discoveryPairingBudget - left
    match choosePairs context avoid attempt with
    | none => .ok (.insufficient
        (s!"need {context.quorum} distinct exits and providers, " ++
          s!"have {(Js.unique context.exits).length} exits and " ++
          s!"{(Js.unique (context.providers.map rpcProviderKey)).length} providers"),
        avoid)
    | some pairs => do
      match ← pairing hashes abi context attempt pairs with
      | .done outcome => return (outcome, avoid)
      | .next disagreed blamed failure =>
        runAttempts (blamed.foldl blame avoid)
          (if disagreed then disagreements + 1 else disagreements) failure left

/-- `runChainCheck`. -/
def runChainCheck (avoid : Avoid) : Check (ChainCheckOutcome × Avoid) :=
  runAttempts hashes abi context avoid 0 "no pairing was tried" discoveryPairingBudget

end Run

end NoxSdk.Kps
