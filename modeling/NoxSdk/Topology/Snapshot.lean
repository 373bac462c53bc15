import NoxSdk.Js
import NoxSdk.Topology.SelectRoute
import Mathlib.Data.List.Dedup

/-!
# Topology snapshots

A topology document lists the registered nodes, a fingerprint over their addresses, and the
liveness a seed observed. `verifySelfConsistency` is every check that needs no chain: the fields
of each node, the liveness set of schema version 2, and the fingerprint.

The two hash functions are parameters. The numbers of a document are natural, as
`isTopologySnapshot` makes them before any of these checks runs.
-/

namespace NoxSdk.Topology

open Js (toLowerCase isHexDigit)

/-- The hash functions the client imports: the bytes of a digest. -/
structure Hashes where
  keccak256 : Bytes → Bytes
  sha256 : Bytes → Bytes

/-- `RelayerNode`. -/
structure RelayerNode where
  address : String
  sphinxKey : String
  url : String
  stake : String
  lastSeen : ℕ
  isPrivileged : Bool
  layer : ℕ
  role : ℕ
  ingressUrl : Option String
  metadataUrl : Option String
  deriving DecidableEq

/-- `TopologyLivenessStatus`. -/
inductive TopologyLivenessStatus
  | online
  | offline
  deriving DecidableEq

/-- `TopologyLiveness`. -/
structure TopologyLiveness where
  address : String
  status : TopologyLivenessStatus
  observedAtUnix : ℕ
  deriving DecidableEq

/-- `TopologySnapshot`. -/
structure TopologySnapshot where
  nodes : List RelayerNode
  fingerprint : String
  schemaVersion : Option ℕ
  liveness : Option (List TopologyLiveness)
  timestamp : Option ℕ
  blockNumber : Option ℕ
  deriving DecidableEq

/-- An error of the topology checks. -/
def verificationFailed (message : String) : Thrown :=
  .noxClientError message .topologyVerificationFailed

/-! ### Hexadecimal text -/

/-- The bytes of pairs of digits. -/
def bytesOfDigits : List Char → Bytes
  | a :: b :: rest => UInt8.ofNat (Js.parseDigits 16 [a, b]) :: bytesOfDigits rest
  | _ => []

/-- `s.replace(/^0x/u, "")`. -/
def strip0x : List Char → List Char
  | '0' :: 'x' :: rest => rest
  | cs => cs

/-- `hexToBytes`. -/
def hexToBytes (hex : List Char) : Except Thrown Bytes :=
  let clean := strip0x hex
  if clean.length % 2 = 0 ∧ clean.all isHexDigit then .ok (bytesOfDigits clean)
  else .error (.noxClientError
    ("Hex input must contain an even number of hexadecimal digits with an optional lowercase 0x " ++
      "prefix")
    .invalidConfig)

/-- `bytesToHex`. -/
def bytesToHex (bytes : Bytes) : String :=
  String.ofList
    (bytes.flatMap fun b => [Nat.digitChar (b.toNat / 16), Nat.digitChar (b.toNat % 16)])

/-- The regular expression `^0x[0-9a-fA-F]{40}$`. -/
def isAddress (s : String) : Bool :=
  match s.toList with
  | '0' :: 'x' :: digits => digits.length == 40 && digits.all isHexDigit
  | _ => false

/-- `s.replace(/^0x/i, "")`. -/
def stripPrefix (s : String) : List Char :=
  match s.toList with
  | '0' :: 'x' :: rest => rest
  | '0' :: 'X' :: rest => rest
  | cs => cs

/-- `normalizeAddress`. -/
def normalizeAddress (addr : String) : String :=
  String.ofList ('0' :: 'x' :: (stripPrefix addr).map Char.toLower)

/-! ### The checks -/

/-- One node of `computeTopologyFingerprint`. -/
def xorAddress (hashes : Hashes) (xor : Bytes) (node : RelayerNode) : Except Thrown Bytes := do
  let addrBytes ← hexToBytes ((stripPrefix node.address).map Char.toLower)
  let hash := hashes.keccak256 addrBytes
  return (List.range 32).map fun i => xor.getD i 0 ^^^ hash.getD i 0

/-- `computeTopologyFingerprint`. -/
def computeTopologyFingerprint (hashes : Hashes) (nodes : List RelayerNode) :
    Except Thrown String := do
  let xor ← nodes.foldlM (xorAddress hashes) (List.replicate 32 0)
  return bytesToHex xor

/-- `primaryLayerForRole`. -/
def primaryLayerForRole (hashes : Hashes) (address : String) (role : ℕ) : ℕ :=
  let firstHashByte := ((hashes.sha256 (Js.textEncode (normalizeAddress address))).headD 0).toNat
  match role with
  | 1 => firstHashByte % 2
  | 2 => 2
  | _ => firstHashByte % 3

/-- One node of `validateSnapshotNodes`, after nodes with the given addresses. -/
def validateSnapshotNode (addresses : List String) (node : RelayerNode) : Except Thrown Unit :=
  if !isAddress node.address then
    .error (verificationFailed s!"Topology node has invalid Ethereum address: {node.address}")
  else if addresses.contains (toLowerCase node.address) then
    .error (verificationFailed s!"Topology contains duplicate node address: {node.address}")
  else if !(node.sphinxKey.toList.length == 64 && node.sphinxKey.toList.all isHexDigit) then
    .error (verificationFailed s!"Topology node {node.address} has invalid Sphinx key")
  else if !Js.isDecimal node.stake then
    .error (verificationFailed s!"Topology node {node.address} has invalid stake")
  else if node.role < 1 ∨ node.role > 3 then
    .error (verificationFailed s!"Topology node {node.address} has unsupported role {node.role}")
  else if !(layersForRole node.role).contains node.layer then
    .error (verificationFailed
      s!"Topology node {node.address} has layer {node.layer} outside role {node.role}")
  else .ok ()

/-- `validateSnapshotNodes`, after nodes with the given addresses. -/
def validateSnapshotNodes (addresses : List String) : List RelayerNode → Except Thrown Unit
  | [] => .ok ()
  | node :: nodes => do
    validateSnapshotNode addresses node
    validateSnapshotNodes (addresses ++ [toLowerCase node.address]) nodes

/-- `isCanonicalAddressOrder`. -/
def isCanonicalAddressOrder : List String → Bool
  | a :: b :: rest => decide (a < b) && isCanonicalAddressOrder (b :: rest)
  | _ => true

/-- The layer of a node is the primary one of its role. -/
def checkPrimaryLayer (hashes : Hashes) (node : RelayerNode) : Except Thrown Unit :=
  let expectedLayer := primaryLayerForRole hashes node.address node.role
  if node.layer ≠ expectedLayer then
    .error (verificationFailed
      s!"Topology node {node.address} primary layer expected={expectedLayer} actual={node.layer}")
  else .ok ()

/-- The observations are of members, once each; the result is the set of their addresses. -/
def checkObservations (members : List String) (observations : List String) :
    List TopologyLiveness → Except Thrown (List String)
  | [] => .ok observations
  | observation :: rest =>
    let address := normalizeAddress observation.address
    if !members.contains address then
      .error (verificationFailed s!"Topology liveness contains non-member {observation.address}")
    else if observations.contains address then
      .error (verificationFailed
        s!"Topology liveness contains duplicate member {observation.address}")
    else checkObservations members (observations ++ [address]) rest

/-- The part of `validateLiveness` for schema version 2. -/
def validateCompleteLiveness (hashes : Hashes) (nodes : List RelayerNode)
    (liveness : List TopologyLiveness) : Except Thrown Unit := do
  let memberAddresses := nodes.map fun node => normalizeAddress node.address
  let livenessAddresses := liveness.map fun observation => normalizeAddress observation.address
  if !isCanonicalAddressOrder memberAddresses || !isCanonicalAddressOrder livenessAddresses then
    throw (verificationFailed
      "Topology schema_version 2 members and liveness must use canonical address ordering")
  nodes.forM (checkPrimaryLayer hashes)
  let observations ← checkObservations memberAddresses [] liveness
  if observations.length ≠ memberAddresses.dedup.length then
    throw (verificationFailed "Topology liveness does not cover every registered member")

/-- `validateLiveness`. -/
def validateLiveness (hashes : Hashes) (snapshot : TopologySnapshot)
    (requireCompleteLiveness : Bool) : Except Thrown Unit :=
  match snapshot.schemaVersion.getD 1 with
  | 1 =>
    if requireCompleteLiveness then
      .error (verificationFailed "Topology schema_version 2 with complete liveness is required")
    else .ok ()
  | 2 =>
    match snapshot.liveness with
    | some liveness =>
      if snapshot.blockNumber.getD 0 = 0 ∨ snapshot.timestamp.getD 0 = 0 then
        .error (verificationFailed
          "Topology schema_version 2 requires a pinned block, timestamp, and liveness set")
      else validateCompleteLiveness hashes snapshot.nodes liveness
    | none => .error (verificationFailed
        "Topology schema_version 2 requires a pinned block, timestamp, and liveness set")
  | version => .error (verificationFailed s!"Unsupported topology schema_version {version}")

/-- `verifySelfConsistency`. -/
def verifySelfConsistency (hashes : Hashes) (snapshot : TopologySnapshot)
    (requireCompleteLiveness : Bool) : Except Thrown Unit := do
  validateSnapshotNodes [] snapshot.nodes
  validateLiveness hashes snapshot requireCompleteLiveness
  let computed ← computeTopologyFingerprint hashes snapshot.nodes
  let claimed := String.ofList (strip0x (toLowerCase snapshot.fingerprint).toList)
  if computed ≠ claimed then
    throw (verificationFailed
      s!"Topology fingerprint mismatch: computed {computed}, got {claimed}")

/-- `parseNode`. -/
def parseNode (raw : RelayerNode) : Except Thrown TopologyNode := do
  let keyHex := stripPrefix raw.sphinxKey
  if Js.length keyHex ≠ 64 then
    throw (verificationFailed
      s!"Node {raw.address}: sphinx_key must be 64 hex chars, got {Js.length keyHex}")
  let publicKey ← hexToBytes keyHex
  return {
    id := normalizeAddress raw.address
    address := raw.ingressUrl.getD ""
    routingAddress := raw.url
    publicKey := publicKey
    layer := raw.layer
    role := raw.role
    capabilities := none
    probation := none }

/-- Hexadecimal digits carry no prefix. -/
private theorem ne_x_of_isHexDigit {c : Char} (h : isHexDigit c = true) : c ≠ 'x' ∧ c ≠ 'X' := by
  constructor <;> rintro rfl <;> simp [isHexDigit, Js.isLowerHexDigit, Char.isDigit] at h

theorem stripPrefix_of_isHexDigit {s : String} (h : ∀ c ∈ s.toList, isHexDigit c = true) :
    stripPrefix s = s.toList := by
  rw [stripPrefix]
  split
  · rename_i rest heq
    exact absurd rfl (ne_x_of_isHexDigit (h 'x' (by simp [heq]))).1
  · rename_i rest heq
    exact absurd rfl (ne_x_of_isHexDigit (h 'X' (by simp [heq]))).2
  · rfl

theorem strip0x_of_isHexDigit {cs : List Char} (h : ∀ c ∈ cs, isHexDigit c = true) :
    strip0x cs = cs := by
  unfold strip0x
  split
  · exact absurd rfl (ne_x_of_isHexDigit (h 'x' (by simp))).1
  · rfl

/-- A key of 64 hexadecimal digits is a public key. -/
theorem exists_parseNode {raw : RelayerNode} (hlength : raw.sphinxKey.toList.length = 64)
    (hhex : ∀ c ∈ raw.sphinxKey.toList, isHexDigit c = true) :
    ∃ node, parseNode raw = .ok node := by
  have hunits : Js.length raw.sphinxKey.toList = 64 := by
    rw [Js.length_eq fun c hc => (Js.toNat_lt_of_isHexDigit (hhex c hc)).trans (by decide), hlength]
  have hbytes : hexToBytes raw.sphinxKey.toList = .ok (bytesOfDigits raw.sphinxKey.toList) := by
    rw [hexToBytes]
    simp only [strip0x_of_isHexDigit hhex]
    exact if_pos ⟨by rw [hlength], List.all_eq_true.mpr hhex⟩
  rw [parseNode]
  simp only [stripPrefix_of_isHexDigit hhex, hunits, hbytes]
  exact ⟨_, rfl⟩

end NoxSdk.Topology
