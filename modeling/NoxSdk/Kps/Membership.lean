import Mathlib.Data.List.Sort
import NoxSdk.Kps.Discovery
import NoxSdk.Kps.Pinned

/-!
# The membership of a registry read

`membershipFromChain`: the eligible members of a verified registry read, with the location the
chain gives them. A member of the snapshot with the same identity is a floor member, any other one
is on probation until the client has known it for long enough. When a read leaves a route layer
with too few floor members, snapshot members that are absent from it come back.
-/

namespace NoxSdk.Kps

open NoxSdk.Topology

/-- `DiscoveryPolicy`, the fields that a membership depends on. -/
structure DiscoveryPolicy where
  probationSeconds : ℤ
  minMembersPerLayer : ℤ
  deriving DecidableEq

/-- `MemberFirstSeen`. -/
structure MemberFirstSeen where
  address : String
  block : ℕ
  time : ℕ
  deriving DecidableEq

/-- What `membershipFromChain` returns. -/
structure ChainResult where
  members : List MemberRecord
  firstSeen : OrderedMap String MemberFirstSeen
  keptByFloor : List String
  probation : List String

/-! ### The members of a read -/

/-- `isEligible`. -/
def isEligible (profile : ChainProfile) : Bool :=
  (profile.status == 1 || profile.status == 2) && !profile.frozen &&
    (profile.role == 1 || profile.role == 2 || profile.role == 3) &&
    (profile.sphinxKey.toList.length == 64 && profile.sphinxKey.toList.all Js.isLowerHexDigit) &&
    decide (0 < profile.url.length)

/-- The eligible profiles of a read, in its order. -/
def eligibleProfiles (chain : ChainMembership) : List ChainProfile :=
  chain.registered.filter isEligible

variable (hashes : Hashes) (pinned : PinnedSnapshot)

/-- `floorByAddress`. -/
def floorByAddress : OrderedMap String PinnedMember :=
  (eligiblePinnedMembers pinned).foldl (fun map member => map.set member.address member) .empty

/-- The snapshot member with the identity of a profile. -/
def floorMember (profile : ChainProfile) : Option PinnedMember :=
  ((floorByAddress pinned).get? profile.address).filter fun member =>
    member.sphinxKey == profile.sphinxKey && member.role == profile.role

/-- `first`: when a member was seen first, at the latest in this read. -/
def firstSeenIn (chain : ChainMembership) (firstSeen : OrderedMap String MemberFirstSeen)
    (profile : ChainProfile) : MemberFirstSeen :=
  (firstSeen.get? profile.address).getD
    ⟨profile.address, chain.block.number, chain.block.timestamp⟩

/-- The record of a profile. -/
def chainRecord (chain : ChainMembership) (firstSeen : OrderedMap String MemberFirstSeen)
    (policy : DiscoveryPolicy) (nowUnix : ℤ) (profile : ChainProfile) : MemberRecord where
  address := profile.address
  sphinxKey := profile.sphinxKey
  url := profile.url
  ingressUrl := profile.ingressUrl
  metadataUrl := profile.metadataUrl
  stake := profile.stake
  role := profile.role
  layer := primaryLayerForRole hashes profile.address profile.role
  status := profile.status
  frozen := false
  capabilities := ((floorMember pinned profile).map (·.capabilities)).getD []
  floor := (floorMember pinned profile).isSome
  probation :=
    if (floorMember pinned profile).isSome then false
    else decide (nowUnix - (firstSeenIn chain firstSeen profile).time < policy.probationSeconds)

/-- `seen`: the records of the members that are not floor members. -/
def seenIn (chain : ChainMembership) (firstSeen : OrderedMap String MemberFirstSeen) :
    OrderedMap String MemberFirstSeen :=
  (eligibleProfiles chain).foldl (fun seen profile =>
    if (floorMember pinned profile).isSome then seen
    else seen.set profile.address (firstSeenIn chain firstSeen profile)) .empty

/-! ### The removal floor -/

/-- `layer.has` of `FLOOR_LAYERS`. -/
def RouteLayer.has : RouteLayer → ℕ → Bool → Bool
  | .entry, role, kps => (layersForRole role).contains 0 && kps
  | .mix, role, _ => (layersForRole role).contains 1
  | .exit, role, _ => role == 2 || role == 3

/-- The member counts for the floor of a layer. -/
def inFloorLayer (layer : RouteLayer) (member : PinnedMember) : Bool :=
  layer.has member.role (kpsAddrFromMetadataUrl member.metadataUrl).isSome

/-- The variables of the floor loop. -/
structure Restoring where
  members : List MemberRecord
  present : List String
  keptByFloor : List String

/-- `keptCount()`. -/
def keptCount (layer : RouteLayer) (members : List MemberRecord) : ℕ :=
  (members.filter fun member => member.floor && inFloorLayer layer member.toPinnedMember).length

/-- One snapshot member of a layer. -/
def Restoring.restore (layer : RouteLayer) (target : ℤ) (loop : Restoring) (member : PinnedMember) :
    Restoring :=
  -- at the target the loop of the source breaks, and the rest of the layer changes nothing either
  if target ≤ keptCount layer loop.members then loop
  else if member.address ∈ loop.present then loop
  else
    { members := loop.members ++ [{ member with floor := true, probation := false }]
      present := loop.present ++ [member.address]
      keptByFloor := loop.keptByFloor ++ [member.address] }

/-- `floorInLayer`. -/
def floorInLayer (layer : RouteLayer) : List PinnedMember :=
  (floorByAddress pinned).values.filter (inFloorLayer layer)

/-- `target`. -/
def floorTarget (policy : DiscoveryPolicy) (layer : RouteLayer) : ℤ :=
  min policy.minMembersPerLayer (floorInLayer pinned layer).length

/-- One layer. -/
def Restoring.layer (policy : DiscoveryPolicy) (loop : Restoring) (layer : RouteLayer) :
    Restoring :=
  (floorInLayer pinned layer).foldl (Restoring.restore layer (floorTarget pinned policy layer)) loop

/-- The floor loop. -/
def restoreFloor (policy : DiscoveryPolicy) (members : List MemberRecord) : Restoring :=
  routeLayers.foldl (Restoring.layer pinned policy) ⟨members, members.map (·.address), []⟩

/-- `membershipFromChain`. -/
def membershipFromChain (chain : ChainMembership) (firstSeen : OrderedMap String MemberFirstSeen)
    (policy : DiscoveryPolicy) (nowUnix : ℤ) : ChainResult :=
  let loop := restoreFloor pinned policy
    ((eligibleProfiles chain).map (chainRecord hashes pinned chain firstSeen policy nowUnix))
  let members := loop.members.insertionSort fun left right => left.address ≤ right.address
  { members
    firstSeen := seenIn pinned chain firstSeen
    keptByFloor := loop.keptByFloor
    probation := (members.filter (·.probation)).map (·.address) }

end NoxSdk.Kps
