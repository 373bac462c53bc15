import NoxSdk.Kps.Address
import NoxSdk.Topology.Snapshot
import NoxSdk.Lib.OrderedMap
import Mathlib.Algebra.Order.Group.Int

/-!
# Served topologies over a pinned membership

The registry snapshot in the bundle is the floor of who a member is. `applyServedTopologies`
judges topology documents that nodes served against the base membership: documents that pass
every check may remove a member or move it to another `url`, and each route layer keeps a
floor of members.

A set of strings is a `Finset`, a `Map` an `OrderedMap`. The thresholds of the options are
integers.
-/

namespace NoxSdk.Kps

open Js (toLowerCase)
open NoxSdk.Topology

/-- `PinnedMember`. -/
structure PinnedMember where
  address : String
  sphinxKey : String
  url : String
  ingressUrl : String
  metadataUrl : String
  stake : String
  role : ℕ
  layer : ℕ
  status : ℕ
  frozen : Bool
  capabilities : List String
  deriving DecidableEq

/-- `MemberRecord`. -/
structure MemberRecord extends PinnedMember where
  floor : Bool
  probation : Bool
  deriving DecidableEq

/-- `PinnedSnapshot`, the fields that the rules for served documents read. -/
structure PinnedSnapshot where
  blockNumber : ℕ
  members : List PinnedMember
  deriving DecidableEq

/-- `ServedTopology`. -/
structure ServedTopology where
  anchor : String
  snapshot : TopologySnapshot
  deriving DecidableEq

/-- `RouteLayer`. -/
inductive RouteLayer
  | entry
  | mix
  | exit
  deriving DecidableEq

/-- The name of a layer in a message. -/
def RouteLayer.name : RouteLayer → String
  | entry => "entry"
  | mix => "mix"
  | exit => "exit"

/-- `ROUTE_LAYERS`. -/
def routeLayers : List RouteLayer := [.entry, .mix, .exit]

/-- A rejected document: its anchor and why. -/
structure Rejected where
  anchor : String
  reason : String
  deriving DecidableEq

/-- `WorkingSet`. -/
structure WorkingSet where
  members : List RelayerNode
  removed : List String
  ignoredAdditions : ℕ
  relocated : List String
  sourcesAccepted : ℕ
  removalQuorum : Bool
  floorApplied : Bool
  floorLayers : List RouteLayer
  offlineLayers : List RouteLayer
  rejected : List Rejected

/-- `ApplyServedOptions`. -/
structure ApplyServedOptions where
  clockSkewToleranceSeconds : ℤ
  livenessMaxAgeSeconds : ℤ
  entryAddresses : Option (Finset String) := none
  previous : Option (List RelayerNode) := none
  membership : Option (List MemberRecord) := none
  anchorMembers : Option (OrderedMap String String) := none
  endpoints : Option (OrderedMap String String) := none
  membershipBlock : Option ℤ := none
  minRemovalSources : Option ℤ := none
  minMembersPerLayer : Option ℤ := none

/-- `RoutingContext`. -/
structure RoutingContext where
  endpoints : OrderedMap String String
  entryAddresses : Option (Finset String)
  capabilities : OrderedMap String (List String)
  probation : Finset String

/-! ### The pinned membership -/

/-- `toRelayerNode`. -/
def toRelayerNode (member : PinnedMember) : RelayerNode where
  address := member.address
  sphinxKey := member.sphinxKey
  url := member.url
  stake := member.stake
  lastSeen := 0
  isPrivileged := member.stake == "0"
  layer := member.layer
  role := member.role
  ingressUrl := some member.ingressUrl
  metadataUrl := some member.metadataUrl

/-- `eligiblePinnedMembers`. -/
def eligiblePinnedMembers (pinned : PinnedSnapshot) : List PinnedMember :=
  pinned.members.filter fun member => (member.status == 1 || member.status == 2) && !member.frozen

/-- `floorRecords`. -/
def floorRecords (pinned : PinnedSnapshot) : List MemberRecord :=
  (eligiblePinnedMembers pinned).map fun member => { member with floor := true, probation := false }

/-- `pinnedKpsAddresses`. -/
def pinnedKpsAddresses (pinned : PinnedSnapshot) : OrderedMap String String :=
  pinned.members.foldl (fun out member =>
    match kpsAddrFromMetadataUrl member.metadataUrl with
    | some address => out.set member.address address
    | none => out) .empty

/-- `invertMap`. -/
def invertMap (map : OrderedMap String String) : OrderedMap String String :=
  map.entries.foldl (fun out entry => out.set entry.2 entry.1) .empty

/-- The KPS address over which a member may be the entry. -/
def RoutingContext.entryAddress (context : RoutingContext) (id : String) : Option String :=
  (context.endpoints.get? id).filter fun address =>
    match context.entryAddresses with
    | none => true
    | some entries => decide (address ∈ entries)

/-- The entry endpoint of a member, empty when it cannot be the entry. -/
def RoutingContext.entryEndpoint (context : RoutingContext) (id : String) :
    Except Thrown String :=
  match context.entryAddress id with
  | none => .ok ""
  | some address => kpsEntryEndpoint address

/-- One node of `routingNodes`. -/
def routingNode (context : RoutingContext) (raw : RelayerNode) : Except Thrown TopologyNode := do
  let node ← parseNode raw
  let endpoint ← context.entryEndpoint node.id
  return { node with
    address := endpoint
    capabilities := some ((context.capabilities.get? node.id).getD [])
    probation := if node.id ∈ context.probation then some true else none }

/-- `routingNodes`. -/
def routingNodes (members : List RelayerNode) (context : RoutingContext) :
    Except Thrown (List TopologyNode) := members.mapM (routingNode context)

/-! ### Judging a document -/

/-- `findWithIdentity`. -/
def findWithIdentity (snapshot : TopologySnapshot) (member : PinnedMember) : Option RelayerNode :=
  (snapshot.nodes.find? fun candidate => toLowerCase candidate.address == member.address).filter
    fun node =>
      String.ofList (strip0x (toLowerCase node.sphinxKey).toList) == member.sphinxKey &&
        node.role == member.role && node.layer == member.layer

/-- `listsAddress`. -/
def listsAddress (snapshot : TopologySnapshot) (address : String) : Bool :=
  snapshot.nodes.any fun node => toLowerCase node.address == address

/-- `isOnline`. -/
def isOnline (snapshot : TopologySnapshot) (address : String) (maxAgeSeconds : ℤ) : Bool :=
  let timestamp := snapshot.timestamp.getD 0
  ((snapshot.liveness.getD []).find? fun entry => toLowerCase entry.address == address).any
    fun observation =>
      observation.status == .online &&
        decide (observation.observedAtUnix ≤ timestamp ∧
          (timestamp : ℤ) - observation.observedAtUnix ≤ maxAgeSeconds)

/-- `DISCOVERY_LIMITS.maxCandidates`. -/
def maxCandidates : ℕ := 256

/-- `rejectionReason`. -/
def rejectionReason (hashes : Hashes) (pinned : PinnedSnapshot) (source : ServedTopology)
    (anchorMembers : OrderedMap String String) (base : OrderedMap String MemberRecord)
    (nowUnix : ℤ) (options : ApplyServedOptions) : Option String :=
  let snapshot := source.snapshot
  if snapshot.nodes.length > maxCandidates then
    some (s!"lists {snapshot.nodes.length} nodes, " ++
      s!"more than the {maxCandidates} a registry holds for this client")
  else
    match verifySelfConsistency hashes snapshot true with
    | .error error => some s!"not self-consistent: {error.message}"
    | .ok () =>
      let block := snapshot.blockNumber.getD 0
      if block < pinned.blockNumber then
        some s!"pinned at block {block}, before the snapshot block {pinned.blockNumber}"
      else
        let timestamp := snapshot.timestamp.getD 0
        let oldest := nowUnix - (options.livenessMaxAgeSeconds + options.clockSkewToleranceSeconds)
        let newest := nowUnix + options.clockSkewToleranceSeconds
        if (timestamp : ℤ) < oldest ∨ (timestamp : ℤ) > newest then
          some s!"timestamp {timestamp} is outside [{oldest}, {newest}] (local clock {nowUnix})"
        else
          match anchorMembers.get? source.anchor with
          | none =>
            if options.anchorMembers.isNone then
              some "the anchor is not a pinned member's KPS address"
            else some "the anchor maps to no known member"
          | some anchorMember =>
            match base.get? anchorMember with
            | none => some "the anchor's member is not an eligible known member"
            | some member =>
              match findWithIdentity snapshot member.toPinnedMember with
              | none => some "the anchor's own member is missing from the document it served"
              | some _ => none

/-- One document of `agreedNewUrl`: its anchor joins those of the `url` it lists. -/
def addAnchor (member : PinnedMember) (anchorsByUrl : OrderedMap String (Finset String))
    (source : ServedTopology) : OrderedMap String (Finset String) :=
  match findWithIdentity source.snapshot member with
  | none => anchorsByUrl
  | some node =>
    if node.url = member.url then anchorsByUrl
    else anchorsByUrl.set node.url (insert source.anchor ((anchorsByUrl.get? node.url).getD ∅))

/-- `agreedNewUrl`. -/
def agreedNewUrl (present : List ServedTopology) (member : PinnedMember) (minSources : ℤ) :
    Option String :=
  let anchorsByUrl := present.foldl (addAnchor member) .empty
  match anchorsByUrl.entries.filter fun entry => decide ((entry.2.card : ℤ) ≥ minSources) with
  | [agreed] => some agreed.1
  -- two different newer values with quorum each: no agreement, keep the base
  | _ => none

/-! ### Applying the accepted documents -/

/-- What the accepted documents say about the base members. -/
structure Evidence where
  listed : Finset String
  kept : Finset String
  relocatedUrls : OrderedMap String String

/-- The thresholds the documents are judged by. -/
structure Thresholds where
  membershipBlock : ℤ
  livenessMaxAgeSeconds : ℤ
  minSources : ℤ
  minPerLayer : ℤ

/-- The block of a document. -/
def ServedTopology.block (source : ServedTopology) : ℕ := source.snapshot.blockNumber.getD 0

/-- Every document predates the member list the client knows and none lists the address. -/
def unknownToAll (accepted : List ServedTopology) (membershipBlock : ℤ) (address : String) :
    Bool :=
  (accepted.all fun source => decide ((source.block : ℤ) < membershipBlock)) &&
    !accepted.any fun source => listsAddress source.snapshot address

/-- The accepted documents that list a member with its identity. -/
def listing (accepted : List ServedTopology) (member : PinnedMember) : List ServedTopology :=
  accepted.filter fun source => (findWithIdentity source.snapshot member).isSome

/-- The listing documents that are newer than the base membership. -/
def newerListing (accepted : List ServedTopology) (membershipBlock : ℤ) (member : PinnedMember) :
    List ServedTopology :=
  (listing accepted member).filter fun source => decide ((source.block : ℤ) > membershipBlock)

/-- The `url` a member is moved to, if there is one. -/
def relocate (relocatedUrls : OrderedMap String String) (address : String) :
    Option String → OrderedMap String String
  | none => relocatedUrls
  | some url => relocatedUrls.set address url

/-- One base member. -/
def Evidence.judge (accepted : List ServedTopology) (limits : Thresholds) (evidence : Evidence)
    (member : PinnedMember) : Evidence :=
  let present := listing accepted member
  if present.length = 0 then
    if unknownToAll accepted limits.membershipBlock member.address then
      { evidence with
        listed := insert member.address evidence.listed
        kept := insert member.address evidence.kept }
    else evidence
  else
    { listed := insert member.address evidence.listed
      kept :=
        if present.any fun source =>
            isOnline source.snapshot member.address limits.livenessMaxAgeSeconds then
          insert member.address evidence.kept
        else evidence.kept
      relocatedUrls := relocate evidence.relocatedUrls member.address
        (agreedNewUrl (newerListing accepted limits.membershipBlock member) member
          limits.minSources) }

/-- `isInLayer`. -/
def isInLayer (node : TopologyNode) : RouteLayer → Bool
  | .entry => (layersForRole node.role).contains 0 && decide (0 < node.address.length)
  | .mix => (layersForRole node.role).contains 1
  | .exit => (layersForRole node.role).contains 2 && (node.role == 2 || node.role == 3)

/-- The nodes of a layer. -/
def layerNodes (baseNodes : List TopologyNode) (layer : RouteLayer) : List TopologyNode :=
  baseNodes.filter fun node => isInLayer node layer

/-- The state of the floor loop: `kept` grows by the members a layer gets back. -/
structure Floors where
  kept : Finset String
  floorLayers : List RouteLayer
  offlineLayers : List RouteLayer
  gone : List RouteLayer

/-- One layer of the floor loop; `agreed` is the set the documents keep. -/
def Floors.restore (baseNodes : List TopologyNode) (listed agreed previous : Finset String)
    (minPerLayer : ℤ) (floors : Floors) (layer : RouteLayer) : Floors :=
  let inLayer := layerNodes baseNodes layer
  if inLayer.length = 0 then floors
  else if !inLayer.any fun node => decide (node.id ∈ listed) then
    { floors with gone := floors.gone ++ [layer] }
  else
    let floor := min minPerLayer inLayer.length
    let remaining := (inLayer.filter fun node => decide (node.id ∈ agreed)).length
    if (remaining : ℤ) ≥ floor then floors
    else
      let restored := inLayer.filter fun node => decide (node.id ∈ previous)
      if remaining = 0 then
        -- a previous set without this layer falls back to the members still listed
        let back :=
          if restored.length > 0 then restored
          else inLayer.filter fun node => decide (node.id ∈ listed)
        { floors with
          kept := floors.kept ∪ (back.map (·.id)).toFinset
          floorLayers := floors.floorLayers ++ [layer]
          offlineLayers := floors.offlineLayers ++ [layer] }
      else
        { floors with
          kept := floors.kept ∪ (restored.map (·.id)).toFinset
          floorLayers := floors.floorLayers ++ [layer] }

/-! ### `applyServedTopologies` -/

/-- `MIN_REMOVAL_SOURCES`. -/
def minRemovalSourcesDefault : ℤ := 2

/-- `MIN_MEMBERS_PER_LAYER`. -/
def minMembersPerLayerDefault : ℤ := 2

section Apply

variable (hashes : Hashes) (pinned : PinnedSnapshot) (served : List ServedTopology) (nowUnix : ℤ)
  (options : ApplyServedOptions)

/-- The base membership the documents are judged against. -/
def baseMembers : List MemberRecord := options.membership.getD (floorRecords pinned)

/-- The base members by address. -/
def baseByAddress : OrderedMap String MemberRecord :=
  (baseMembers pinned options).foldl (fun map member => map.set member.address member) .empty

/-- The member behind each anchor. -/
def anchorMembersOf : OrderedMap String String :=
  options.anchorMembers.getD (invertMap (pinnedKpsAddresses pinned))

/-- `rejectionReason` under the base membership and the anchors of the options. -/
def reasonAgainst (source : ServedTopology) : Option String :=
  rejectionReason hashes pinned source (anchorMembersOf pinned options)
    (baseByAddress pinned options) nowUnix options

/-- The documents that pass every check. -/
def acceptedTopologies : List ServedTopology :=
  served.filter fun source => (reasonAgainst hashes pinned nowUnix options source).isNone

/-- The anchors of the accepted documents. -/
def acceptedAnchors : Finset String :=
  ((acceptedTopologies hashes pinned served nowUnix options).map (·.anchor)).toFinset

/-- The rejected documents. -/
def rejectedTopologies : List Rejected :=
  served.filterMap fun source =>
    (reasonAgainst hashes pinned nowUnix options source).map fun reason => ⟨source.anchor, reason⟩

/-- The addresses the accepted documents list outside the base membership. -/
def additions : Finset String :=
  ((acceptedTopologies hashes pinned served nowUnix options).flatMap fun source =>
    (source.snapshot.nodes.map fun node => toLowerCase node.address).filter fun address =>
      !(baseByAddress pinned options).has address).toFinset

/-- The thresholds, with their defaults. -/
def thresholds : Thresholds where
  membershipBlock := options.membershipBlock.getD pinned.blockNumber
  livenessMaxAgeSeconds := options.livenessMaxAgeSeconds
  minSources := options.minRemovalSources.getD minRemovalSourcesDefault
  minPerLayer := options.minMembersPerLayer.getD minMembersPerLayerDefault

/-- What the accepted documents say about the base members. -/
def evidenceOf : Evidence :=
  (baseMembers pinned options).foldl (fun evidence member =>
    evidence.judge (acceptedTopologies hashes pinned served nowUnix options)
      (thresholds pinned options) member.toPinnedMember) ⟨∅, ∅, .empty⟩

/-- The nodes of the base members, with the entry locations of the options. -/
def baseNodesOf : Except Thrown (List TopologyNode) :=
  routingNodes ((baseMembers pinned options).map fun member => toRelayerNode member.toPinnedMember)
    { endpoints := options.endpoints.getD (pinnedKpsAddresses pinned)
      entryAddresses := options.entryAddresses
      capabilities := .empty
      probation := ∅ }

/-- The addresses of the previous working set. -/
def previousOf : Finset String :=
  ((options.previous.getD ((baseMembers pinned options).map fun member =>
    toRelayerNode member.toPinnedMember)).map fun node => toLowerCase node.address).toFinset

/-- The floor loop. -/
def floorsOf (baseNodes : List TopologyNode) : Floors :=
  let evidence := evidenceOf hashes pinned served nowUnix options
  routeLayers.foldl
    (Floors.restore baseNodes evidence.listed evidence.kept (previousOf pinned options)
      (thresholds pinned options).minPerLayer)
    ⟨evidence.kept, [], [], []⟩

/-- Every base member, with its own `url`. -/
def unchanged (removalQuorum : Bool) : WorkingSet where
  members := (baseMembers pinned options).map fun member => toRelayerNode member.toPinnedMember
  removed := []
  ignoredAdditions := (additions hashes pinned served nowUnix options).card
  relocated := []
  sourcesAccepted := (acceptedTopologies hashes pinned served nowUnix options).length
  removalQuorum := removalQuorum
  floorApplied := false
  floorLayers := []
  offlineLayers := []
  rejected := rejectedTopologies hashes pinned served nowUnix options

/-- The `url` a base member is routed over. -/
def routedMember (relocatedUrls : OrderedMap String String) (member : MemberRecord) :
    RelayerNode :=
  match relocatedUrls.get? member.address with
  | none => toRelayerNode member.toPinnedMember
  | some url => toRelayerNode { member.toPinnedMember with url := url }

/-- The error for layers none of whose members is registered any more. -/
def staleError (gone : List RouteLayer) : Thrown :=
  let names := ", ".intercalate (gone.map RouteLayer.name)
  .noxClientError
    (s!"{(acceptedAnchors hashes pinned served nowUnix options).card} served topologies from " ++
      s!"different anchors agree that the registry no longer lists the {names} members with " ++
      s!"their known identities ({(baseMembers pinned options).length} eligible members known); " ++
      "this bundle's snapshot is stale")
    .topologyStale

/-- The working set after the floor loop. -/
def assembled (floors : Floors) : WorkingSet :=
  let base := baseMembers pinned options
  let relocatedUrls := (evidenceOf hashes pinned served nowUnix options).relocatedUrls
  let isKept (member : MemberRecord) : Bool := decide (member.address ∈ floors.kept)
  { members := (base.filter isKept).map (routedMember relocatedUrls)
    removed := (base.filter fun member => !isKept member).map (·.address)
    ignoredAdditions := (additions hashes pinned served nowUnix options).card
    relocated := (base.filter fun member =>
      isKept member && relocatedUrls.has member.address).map (·.address)
    sourcesAccepted := (acceptedTopologies hashes pinned served nowUnix options).length
    removalQuorum := true
    floorApplied := decide (floors.floorLayers.length > 0)
    floorLayers := floors.floorLayers
    offlineLayers := floors.offlineLayers
    rejected := rejectedTopologies hashes pinned served nowUnix options }

/-- `applyServedTopologies`. -/
def applyServedTopologies : Except Thrown WorkingSet :=
  if ((acceptedAnchors hashes pinned served nowUnix options).card : ℤ)
      < (thresholds pinned options).minSources then
    .ok (unchanged hashes pinned served nowUnix options false)
  else do
    let baseNodes ← baseNodesOf pinned options
    let floors := floorsOf hashes pinned served nowUnix options baseNodes
    if floors.gone.length > 0 then
      .error (staleError hashes pinned served nowUnix options floors.gone)
    else .ok (assembled hashes pinned served nowUnix options floors)

end Apply

end NoxSdk.Kps
