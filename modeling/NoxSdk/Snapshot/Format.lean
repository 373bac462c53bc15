import NoxSdk.Kps.PinnedCheck
import NoxSdk.Snapshot.LogScan
import NoxSdk.Worker.LifeCycle

/-!
# The snapshot document at build time

The build validates the snapshot before it goes into a bundle: its shape against the schema, with
every problem listed, and then its meaning, for which it asks the client library. The primary layer
of a member is the one layer that the validator of served topologies accepts when it is offered in
a document with this member alone.

A set of capabilities is sorted by the code units of its texts.
-/

namespace NoxSdk.Snapshot

open Js (Json)
open NoxSdk.Kps NoxSdk.Topology

/-- What the validation throws: a `SnapshotError`, or an error of the client library that nothing
catches. -/
inductive BuildError
  | snapshotError (error : SnapshotError)
  | thrown (error : Thrown)
  deriving DecidableEq

/-- `errorText`. -/
def BuildError.message : BuildError → String
  | snapshotError error => error.message
  | thrown error => error.message

/-! ### The shape -/

/-- `SNAPSHOT_FORMAT`. -/
def snapshotFormat : String := "nox-anon-rpc-snapshot/1"

/-- `SNAPSHOT_LIMITS`. -/
structure SnapshotLimits where
  maxMembers : ℕ
  maxPowDifficulty : ℕ
  maxUrlLength : ℕ
  maxCapabilities : ℕ
  maxCapabilityLength : ℕ

/-- `SNAPSHOT_LIMITS`. -/
def snapshotLimits : SnapshotLimits where
  maxMembers := 256
  maxPowDifficulty := 16
  maxUrlLength := 256
  maxCapabilities := 32
  maxCapabilityLength := 64

/-- `SNAPSHOT_KEYS`. -/
def documentKeys : List String :=
  ["format", "chainId", "registry", "blockNumber", "blockHash", "fingerprint", "relayerCount",
    "powDifficulty", "members"]

/-- `MEMBER_KEYS`. -/
def documentMemberKeys : List String :=
  ["address", "sphinxKey", "url", "ingressUrl", "metadataUrl", "stake", "role", "layer", "status",
    "frozen", "capabilities"]

/-- `isRecord`. -/
def isRecord : Json → Bool
  | .object _ => true
  | _ => false

/-- One test of the shape, with the problem otherwise. -/
def problem (passed : Bool) (text : String) : List String := if passed then [] else [text]

/-- `checkExactKeys`. -/
def checkExactKeys (value : Json) (keys : List String) (place : String) : List String :=
  ((keys.filter fun key => !(keysOf value).contains key).map
      fun key => s!"{place} is missing \"{key}\"") ++
    ((keysOf value).filter fun key => !keys.contains key).map
      fun key => s!"{place} has unknown field \"{key}\""

/-- `memberLabel`. -/
def memberLabel (member : Json) (index : ℕ) : String :=
  let address := textAt member "address"
  if isLowerHex0x 40 address then s!"members[{index}] ({address})" else s!"members[{index}]"

/-- An integer of at least `min`. -/
def isIntegerFrom (min : ℤ) (value : Option Json) : Bool :=
  (safeInteger? value).any fun n => decide (min ≤ n)

/-- An integer of a range. -/
def isIntegerIn (min max : ℤ) (value : Option Json) : Bool :=
  (safeInteger? value).any fun n => decide (min ≤ n) && decide (n ≤ max)

/-- The test of `capabilities`. -/
def areCapabilities (items : List Json) : Bool :=
  decide (items.length ≤ snapshotLimits.maxCapabilities) && setSize items == items.length &&
    items.all fun entry =>
      isTextWith (hasLength 1 snapshotLimits.maxCapabilityLength) (some entry)

/-- The problems of one member. -/
def memberProblems (member : Json) (index : ℕ) : List String :=
  let place := memberLabel member index
  let maxUrlLength := snapshotLimits.maxUrlLength
  let maxCapabilities := snapshotLimits.maxCapabilities
  let maxCapabilityLength := snapshotLimits.maxCapabilityLength
  if isRecord member then
    checkExactKeys member documentMemberKeys place ++
    problem (isTextWith (isLowerHex0x 40) (member.field "address"))
      s!"{place}.address must be a lowercase 0x address" ++
    problem (isTextWith (isLowerHex 64) (member.field "sphinxKey"))
      s!"{place}.sphinxKey must be 64 lowercase hex characters without 0x" ++
    problem (isTextWith (hasLength 1 maxUrlLength) (member.field "url"))
      s!"{place}.url must be a string of 1..{maxUrlLength} characters" ++
    (["ingressUrl", "metadataUrl"].flatMap fun field =>
      problem (isTextWith (hasLength 0 maxUrlLength) (member.field field))
        s!"{place}.{field} must be a string of at most {maxUrlLength} characters") ++
    problem (isTextWith Js.isDecimal (member.field "stake"))
      s!"{place}.stake must be a decimal string without leading zeros" ++
    problem (isOneOf [1, 2, 3] (member.field "role")) s!"{place}.role must be 1, 2 or 3" ++
    problem (isOneOf [0, 1, 2] (member.field "layer")) s!"{place}.layer must be 0, 1 or 2" ++
    problem (isOneOf [1, 2] (member.field "status"))
      s!"{place}.status must be 1 (Registered) or 2 (Unstaking)" ++
    problem (isBoolean (member.field "frozen")) s!"{place}.frozen must be a boolean" ++
    problem (isArrayWith areCapabilities (member.field "capabilities"))
      (s!"{place}.capabilities must be at most {maxCapabilities} unique strings of " ++
        s!"1..{maxCapabilityLength} characters")
  else [s!"{place} must be an object"]

/-- The problems of the fields of the document. -/
def headProblems (doc : Json) : List String :=
  let maxMembers := snapshotLimits.maxMembers
  let maxPowDifficulty := snapshotLimits.maxPowDifficulty
  checkExactKeys doc documentKeys "snapshot" ++
    problem (isTextWith (· == snapshotFormat) (doc.field "format"))
      s!"format must be \"{snapshotFormat}\"" ++
    problem (isIntegerFrom 1 (doc.field "chainId")) "chainId must be an integer >= 1" ++
    problem (isTextWith (isLowerHex0x 40) (doc.field "registry"))
      "registry must be a lowercase 0x address" ++
    problem (isIntegerFrom 1 (doc.field "blockNumber")) "blockNumber must be an integer >= 1" ++
    problem (isTextWith (isLowerHex0x 64) (doc.field "blockHash"))
      "blockHash must be 0x followed by 64 lowercase hex characters" ++
    problem (isTextWith (isLowerHex 64) (doc.field "fingerprint"))
      "fingerprint must be 64 lowercase hex characters without 0x" ++
    problem (isIntegerIn 1 maxMembers (doc.field "relayerCount"))
      s!"relayerCount must be an integer in 1..{maxMembers}" ++
    problem (isIntegerIn 0 maxPowDifficulty (doc.field "powDifficulty"))
      s!"powDifficulty must be an integer in 0..{maxPowDifficulty}"

/-- The list of members has a length that the schema allows. -/
def hasMembers (doc : Json) : Bool :=
  isArrayWith
    (fun items => decide (1 ≤ items.length ∧ items.length ≤ snapshotLimits.maxMembers))
    (doc.field "members")

/-- `snapshotShapeProblems`. -/
def snapshotShapeProblems (doc : Json) : List String :=
  let maxMembers := snapshotLimits.maxMembers
  if isRecord doc then
    headProblems doc ++
      if hasMembers doc then
        (itemsAt doc "members").zipIdx.flatMap fun (member, index) => memberProblems member index
      else [s!"members must be an array of 1..{maxMembers} members"]
  else ["the snapshot is not a JSON object"]

/-! ### The meaning -/

/-- `invalid`. -/
def invalidDocument (problems : List String) : BuildError :=
  .snapshotError ⟨"invalid snapshot document:\n  - " ++ "\n  - ".intercalate problems,
    .invalidDocument⟩

/-- The UTF-16 code units of a text. -/
def codeUnits (s : String) : List ℕ :=
  s.toList.flatMap fun c =>
    if c.toNat < 0x10000 then [c.toNat]
    else [0xD800 + (c.toNat - 0x10000) / 0x400, 0xDC00 + (c.toNat - 0x10000) % 0x400]

/-- The order of `Array.prototype.sort` on texts. -/
def textOrder (a b : String) : Prop := codeUnits a ≤ codeUnits b

instance : DecidableRel textOrder := fun a b =>
  inferInstanceAs (Decidable (codeUnits a ≤ codeUnits b))

/-- `[...texts].sort()`. -/
def sortTexts (texts : List String) : List String := texts.insertionSort textOrder

/-- The order of the addresses at one member. -/
def orderProblem (previous : Option PinnedMember) (member : PinnedMember) (label : String) :
    List String :=
  problem (previous.all fun previous => decide (previous.address < member.address))
    s!"members are not in strictly ascending address order at {label}"

/-- The order of the capabilities of one member. -/
def capabilityProblem (member : PinnedMember) (label : String) : List String :=
  problem (sortTexts member.capabilities == member.capabilities)
    s!"{label}.capabilities must be sorted"

/-- The loop over the members before the client library is asked. -/
def orderProblems (previous : Option PinnedMember) : List (Json × ℕ) → List String
  | [] => []
  | (value, index) :: rest =>
    let member := pinnedMember value
    orderProblem previous member (memberLabel value index) ++
      capabilityProblem member (memberLabel value index) ++ orderProblems (some member) rest

/-- The one observation that the validator wants for each member. -/
def observe (node : RelayerNode) : TopologyLiveness := ⟨node.address, .online, 1⟩

/-- The document of schema version 2 over nodes, with liveness that exists for this call only. -/
def fullTopology (nodes : List RelayerNode) (fingerprint : String) (blockNumber : ℕ) :
    TopologySnapshot where
  nodes := nodes
  fingerprint := fingerprint
  schemaVersion := some 2
  liveness := some (nodes.map observe)
  timestamp := some 1
  blockNumber := some blockNumber

/-- The first probe of `primaryLayer`: a document of schema version 1 with the first layer. -/
def checkProfile (hashes : Hashes) (node : RelayerNode) (layer : ℕ) : Except Thrown Unit := do
  let fingerprint ← computeTopologyFingerprint hashes [node]
  verifySelfConsistency hashes
    { nodes := [{ node with layer := layer }], fingerprint := fingerprint,
      schemaVersion := some 1, liveness := none, timestamp := none, blockNumber := none } false

/-- A probe of `primaryLayer` for one layer. -/
def probeLayer (hashes : Hashes) (node : RelayerNode) (layer : ℕ) : Except Thrown Unit := do
  let probe := { node with layer := layer }
  let fingerprint ← computeTopologyFingerprint hashes [probe]
  verifySelfConsistency hashes (fullTopology [probe] fingerprint 1) false

/-- An error of the client library that is caught, after the text of what it was asked for. -/
def sdkRejected (asked : String) (error : Thrown) : BuildError :=
  .snapshotError ⟨asked ++ ": " ++ error.message, .sdkRejected⟩

/-- The end of `primaryLayer`: one layer was accepted, and it is the one that the library names. -/
def onlyLayer (node : RelayerNode) (exported : ℕ) : List ℕ → Except BuildError ℕ
  | [layer] =>
    if exported = layer then .ok layer
    else .error (.snapshotError
      ⟨s!"the SDK's validator accepts layer {layer} for {node.address} " ++
        s!"but primaryLayerForRole gives {exported}", .sdkRejected⟩)
  | accepted =>
    .error (.snapshotError
      ⟨s!"the SDK accepts {accepted.length} primary layers for {node.address} " ++
        s!"(role {node.role}); expected exactly one", .sdkRejected⟩)

/-- `primaryLayer`. -/
def primaryLayer (hashes : Hashes) (node : RelayerNode) : Except BuildError ℕ := do
  let candidates := layersForRole node.role
  (checkProfile hashes node (candidates.headD 0)).mapError
    (sdkRejected s!"the SDK rejects member {node.address}")
  onlyLayer node (primaryLayerForRole hashes node.address node.role)
    (candidates.filter fun layer => (probeLayer hashes node layer).toBool)

/-- What the layer that the build found says about the one of a member. -/
def layerLines (label : String) (claimed : ℕ) : Except BuildError ℕ → List String
  | .ok layer => problem (layer == claimed)
    s!"{label}.layer is {claimed}, the SDK assigns layer {layer}"
  | .error error => [label ++ ": " ++ error.message]

/-- The layer of one member. -/
def layerProblem (hashes : Hashes) (value : Json) (index : ℕ) : List String :=
  layerLines (memberLabel value index) (pinnedMember value).layer
    (primaryLayer hashes (toRelayerNode (pinnedMember value)))

/-- `checkWithSdkValidator`. -/
def checkWithSdkValidator (hashes : Hashes) (nodes : List RelayerNode) (fingerprint : String)
    (blockNumber : ℕ) : Except BuildError Unit :=
  (verifySelfConsistency hashes (fullTopology nodes fingerprint (max blockNumber 1))
    false).mapError (sdkRejected "the SDK's topology validator rejects the member set")

/-- A list of problems ends the validation. -/
def requireNone (problems : List String) : Except BuildError Unit :=
  if problems = [] then .ok () else .error (invalidDocument problems)

/-- `validateSnapshotDocument`. -/
def validateSnapshotDocument (hashes : Hashes) (doc : Json) : Except BuildError Unit := do
  requireNone (snapshotShapeProblems doc)
  let members := itemsAt doc "members"
  let relayerCount := integerAt doc "relayerCount"
  let count := members.length
  requireNone (problem (relayerCount == (count : ℤ))
      s!"relayerCount {relayerCount} differs from the {count} members" ++
    orderProblems none members.zipIdx)
  let nodes := (pinnedMembers doc).map toRelayerNode
  let fingerprint ← (computeTopologyFingerprint hashes nodes).mapError .thrown
  let claimed := textAt doc "fingerprint"
  requireNone (problem (fingerprint == claimed)
      (s!"fingerprint {claimed} differs from the SDK fingerprint {fingerprint} " ++
        "of the members") ++
    members.zipIdx.flatMap fun (member, index) => layerProblem hashes member index)
  checkWithSdkValidator hashes nodes fingerprint (integerAt doc "blockNumber").toNat

/-! ### At boot -/

/-- The first check of `boot`, before those of the bootstrap and the configuration. -/
def bootCheck (hashes : Hashes) (describe : Thrown → String) (snapshot : Json)
    (others : Worker.BootCheck) : Worker.BootCheck :=
  match verifyPinnedSnapshot hashes snapshot with
  | .error error => .snapshotInvalid (describe error)
  | .ok () => others

end NoxSdk.Snapshot
