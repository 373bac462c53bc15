import NoxSdk.Topology.SelectRoute
import NoxSdk.Kps.Address
import NoxSdk.Js
import Mathlib.Data.List.Sort

/-!
# Planning a copy of a request

The planners of `client.ts`: `_planRoute` for the first copy, `_planResend` for the copy after
a timeout, a lost reply or for a hedge, `_planTransportResend` for the copy after a transport
failure. `PlanState` is what they read of the client at one moment; it changes between two of
their calls in any way.

Draws and the samples of `selectRoute` are arguments. A measured time is only compared, so it is
a natural number here.
-/

namespace NoxSdk.Client

open NoxSdk.Topology
open NoxSdk.Kps (parseKpsAddress)

/-! ### What the planners read -/

/-- `SurbVersion`. -/
inductive SurbVersion
  | v1
  | v2
  deriving DecidableEq

/-- `NoxClientConfig.surbFormat`. -/
inductive SurbFormat
  | v1
  | auto
  | v2
  deriving DecidableEq

/-- `RetryMode`. -/
inductive RetryMode
  | none
  | route
  | exit
  deriving DecidableEq

/-- `PlannedRoute`. -/
structure PlannedRoute where
  route : Route
  version : SurbVersion
  deriving DecidableEq

/-- `ResendPolicy`, without what only the hedge delay reads. -/
structure ResendPolicy where
  hedgeAfterMs : ℕ
  maxHedgesInFlight : ℕ
  transportResends : ℕ
  resendOnLostReply : Bool
  sameEntryFallback : Bool

/-- What the planners read of the KPS mode: its options and its transport. -/
structure KpsView where
  standby : Bool
  spreadCalls : Bool
  standbyEntry : Option String
  isConnected : String → Bool
  isCoolingDown : String → Bool
  rttMs : String → Option ℕ
  dialMs : String → Option ℕ
  uploadsInFlight : String → ℕ

/-- What the planners read of the client. -/
structure PlanState where
  nodes : List TopologyNode
  entryUrl : String
  wasmSupportsSurbV2 : Bool
  /-- `_avoidedNodeIds()`. -/
  avoidedNodeIds : List String
  /-- `_entryRule()`. -/
  entryRule : TopologyNode → Bool
  /-- `_maxProbation()`. -/
  maxProbation : Budget
  kps : Option KpsView

/-- The draws of one planner call: the samples of each `selectRoute` and the indices drawn. -/
structure PlanDraws where
  route : Samples
  fallback : Samples
  entry : ℕ
  retryExit : ℕ
  paidExit : ℕ → ℕ
  paidRoute : ℕ → Samples

/-- An error of the planners about version 2 reply blocks. -/
def surbV2Unavailable (message : String) : Thrown := .noxClientError message .surbV2Unavailable

/-! ### Nodes -/

/-- `supportsSurbV2`. -/
def supportsSurbV2 (node : TopologyNode) : Bool :=
  node.capabilities.any fun capabilities => capabilities.contains "surb_v2"

/-- `MAX_SURB_V2_ADDRESS_BYTES`. -/
def maxSurbV2AddressBytes : ℕ := 93

/-- The routing address of a node fits in a version 2 reply block. -/
def fitsSurbV2 (node : TopologyNode) : Bool :=
  decide ((Js.textEncode node.routingAddress).length ≤ maxSurbV2AddressBytes)

/-- `routeSupportsSurbV2`. -/
def routeSupportsSurbV2 (route : Route) : Bool :=
  supportsSurbV2 route.entry && supportsSurbV2 route.mix && supportsSurbV2 route.exit &&
    fitsSurbV2 route.entry

/-- `preferSettled`. -/
def preferSettled (candidates : List TopologyNode) : List TopologyNode :=
  let settled := candidates.filter fun node => !node.onProbation
  if settled.length > 0 then settled else candidates

/-- `isEntryCapable`. -/
def isEntryCapable (node : TopologyNode) (isEntry : TopologyNode → Bool) : Bool :=
  (layersForRole node.role).contains 0 && isEntry node

/-- `kpsAddressOfEntry`. -/
def kpsAddressOfEntry (endpoint : String) : Option String :=
  match endpoint.toList with
  | 'k' :: 'p' :: 's' :: ':' :: rest =>
    match parseKpsAddress (String.ofList rest) with
    | .ok parts => some parts.address
    | .error _ => none
  | _ => none

/-- `kpsAddressOfEntry(node.address) ?? ""`. -/
def entryAddress (node : TopologyNode) : String := (kpsAddressOfEntry node.address).getD ""

section Planners

variable (state : PlanState)

/-- `_pinnedEntry`. -/
def pinnedEntry : Option TopologyNode :=
  state.nodes.find? fun node => node.address == state.entryUrl

/-- `_paidCapableExits`. -/
def paidCapableExits : List TopologyNode :=
  let exits := state.nodes.filter fun node => node.role == 2 || node.role == 3
  if !state.nodes.any fun node => node.capabilities.isSome then exits
  else exits.filter fun node =>
    node.capabilities.any fun capabilities => capabilities.contains "paid_v2"

/-- The loop of `_pickPaidExit` over what is left of its pool, for at most `fuel` rounds. -/
def pickFromPool (draws : PlanDraws) (lastError : Option Thrown) :
    ℕ → List TopologyNode → Except Thrown TopologyNode
  | 0, _ => .error (lastError.getD (noNodes "No distinct exit node is available"))
  | fuel + 1, pool =>
    let settledFirst := (pinnedEntry state).any TopologyNode.onProbation
    let tier := if settledFirst then preferSettled pool else pool
    match pickRandom tier (draws.paidExit fuel) with
    | none => .error (lastError.getD (noNodes "No distinct exit node is available"))
    | some candidate =>
      match selectRoute state.nodes (pinnedEntry state) (some candidate)
          (some state.avoidedNodeIds) state.entryRule state.maxProbation
          (draws.paidRoute fuel) with
      | .ok route => .ok route.exit
      | .error error => pickFromPool draws (some error) fuel (pool.erase candidate)

/-- `_pickPaidExit`. -/
def pickPaidExit (draws : PlanDraws) (exclude : List String) : Except Thrown TopologyNode :=
  let capable := (paidCapableExits state).filter fun node => !exclude.contains node.id
  if capable.length = 0 then
    if state.nodes.any fun node => node.role == 2 || node.role == 3 then
      .error (.noxClientError "No exit in the verified topology advertises paid execution support"
        .paidExitUnavailable)
    else .error (noNodes "No exit nodes available")
  else
    let preferred := capable.filter fun node => !state.avoidedNodeIds.contains node.id
    let pool := if preferred.length > 0 then preferred else capable
    pickFromPool state draws none pool.length pool

/-- The key of the order of `_rankedOtherEntries`. -/
def entryScore (kps : KpsView) (node : TopologyNode) : ℕ × ℕ × ℕ :=
  let address := entryAddress node
  (if kps.isConnected address then 0 else if kps.isCoolingDown address then 2 else 1,
    if node.onProbation then 1 else 0,
    (kps.rttMs address <|> kps.dialMs address).getD (Js.safeBound - 1))

/-- The order of two keys. -/
def scoreLe (left right : ℕ × ℕ × ℕ) : Bool :=
  decide (left.1 < right.1 ∨ left.1 = right.1 ∧
    (left.2.1 < right.2.1 ∨ left.2.1 = right.2.1 ∧ left.2.2 ≤ right.2.2))

/-- `_rankedOtherEntries`. -/
def rankedOtherEntries : List TopologyNode :=
  let pinnedAddress := kpsAddressOfEntry state.entryUrl
  let candidates := state.nodes.filter fun node =>
    isEntryCapable node state.entryRule && node.address != state.entryUrl
  match state.kps with
  | none => candidates
  | some kps =>
    (candidates.filter fun node => kpsAddressOfEntry node.address != pinnedAddress).mergeSort
      fun left right => scoreLe (entryScore kps left) (entryScore kps right)

/-- `_pickOtherEntry`. -/
def pickOtherEntry (draws : PlanDraws) (exclude : List String) : Except Thrown TopologyNode :=
  let candidates := state.nodes.filter fun node =>
    !exclude.contains node.id && isEntryCapable node state.entryRule
  let tiers := match state.kps with
    | none => [candidates]
    | some kps =>
      [candidates.filter fun node => kps.isConnected (entryAddress node),
        candidates.filter fun node => !kps.isCoolingDown (entryAddress node), candidates]
  let fastest := (rankedOtherEntries state).find? fun node =>
    !exclude.contains node.id && candidates.contains node
  match state.kps.any KpsView.standby, fastest with
  | true, some node => .ok node
  | _, _ =>
    match tiers.find? fun tier => (preferSettled tier).length > 0 with
    | none => .error (noNodes "No other entry is available")
    | some tier =>
      match pickRandom (preferSettled tier) draws.entry with
      | none => .error (noNodes "No other entry is available")
      | some node => .ok node

/-- `_leastBusyWarmEntry`. -/
def leastBusyWarmEntry (avoid : List String) : Option TopologyNode :=
  match state.kps, pinnedEntry state with
  | some kps, some pinned =>
    match kps.standby && kps.spreadCalls, kps.standbyEntry with
    | true, some standbyUrl =>
      if standbyUrl == pinned.address then some pinned
      else
        match state.nodes.find? fun node => node.address == standbyUrl,
            kpsAddressOfEntry standbyUrl with
        | some standby, some standbyAddress =>
          if avoid.contains standby.id || !kps.isConnected standbyAddress then some pinned
          else if kps.uploadsInFlight standbyUrl < kps.uploadsInFlight pinned.address then
            some standby
          else some pinned
        | _, _ => some pinned
    | _, _ => some pinned
  | _, pinned => pinned

/-! ### Planners -/

/-- The nodes that version 2 reply blocks can use, optionally without one entry. -/
def surbV2Capable (excludeEntryId : Option String) : List TopologyNode :=
  state.nodes.filter fun node =>
    supportsSurbV2 node && some node.id != excludeEntryId && fitsSurbV2 node

/-- `_planStrictV2`. -/
def planStrictV2 (selectedExit : Option TopologyNode) (avoid : List String)
    (excludeEntryId : Option String) (samples : Samples) : Except Thrown PlannedRoute :=
  if !state.wasmSupportsSurbV2 then
    .error (surbV2Unavailable "The loaded WASM module cannot build format v2 reply blocks")
  else
    let capable := surbV2Capable state excludeEntryId
    if selectedExit.any fun exit => !capable.any fun node => node.id == exit.id then
      .error (surbV2Unavailable "The selected exit does not advertise format v2 reply support")
    else
      let entry := (pinnedEntry state).filter fun pinned =>
        capable.any fun node => node.id == pinned.id
      match selectRoute capable entry selectedExit (some avoid) state.entryRule
          state.maxProbation samples with
      | .error _ => .error (surbV2Unavailable
          "No route on which every hop advertises format v2 reply support")
      | .ok route => .ok ⟨route, .v2⟩

/-- `_planRoute`. -/
def planRoute (surbFormat : SurbFormat) (selectedExit : Option TopologyNode) (avoid : List String)
    (entryOverride : Option TopologyNode) (samples : Samples) : Except Thrown PlannedRoute :=
  if surbFormat = .v2 then planStrictV2 state selectedExit avoid none samples
  else
    match selectRoute state.nodes (entryOverride <|> leastBusyWarmEntry state avoid) selectedExit
        (some avoid) state.entryRule state.maxProbation samples with
    | .error error => .error error
    | .ok route =>
      .ok ⟨route, if surbFormat = .auto && state.wasmSupportsSurbV2 && routeSupportsSurbV2 route
        then .v2 else .v1⟩

/-- The exit of a version 2 retry. -/
def retryExitOf (failed : Route) (selectedExit : Option TopologyNode) (retry : RetryMode)
    (draw : ℕ) : Except Thrown (Option TopologyNode) :=
  if retry = .exit then
    let candidates := (paidCapableExits state).filter fun node =>
      node.id != failed.exit.id && node.id != failed.entry.id && supportsSurbV2 node
    let pool := if failed.entry.onProbation then preferSettled candidates else candidates
    match pickRandom pool draw with
    | none => .error (surbV2Unavailable
        "No other paid-capable exit advertises format v2 reply support")
    | some exit => .ok (some exit)
  else .ok selectedExit

/-- `_planV2Retry`. -/
def planV2Retry (failed : Route) (selectedExit : Option TopologyNode) (retry : RetryMode)
    (avoid : List String) (draws : PlanDraws) : Except Thrown PlannedRoute := do
  let retryExit ← retryExitOf state failed selectedExit retry draws.retryExit
  planStrictV2 state retryExit avoid (some failed.entry.id) draws.route

/-- The same hops. -/
def sameRoute (a b : Route) : Bool :=
  a.entry.id == b.entry.id && a.mix.id == b.mix.id && a.exit.id == b.exit.id

/-- The route of a resend in `_planResend`, before the comparison with the failed one. -/
def resendRoute (surbFormat : SurbFormat) (failed : PlannedRoute)
    (selectedExit : Option TopologyNode) (retry : RetryMode) (policy : ResendPolicy)
    (draws : PlanDraws) : Option PlannedRoute :=
  let avoid := [failed.route.mix.id, failed.route.exit.id]
  let first := if failed.version = .v2 then
      planV2Retry state failed.route selectedExit retry avoid draws
    else if retry = .exit then do
      let exit ← pickPaidExit state draws [failed.route.exit.id]
      planRoute state surbFormat (some exit) avoid none draws.route
    else planRoute state surbFormat selectedExit avoid none draws.route
  match first with
  | .ok next => some next
  | .error _ =>
    if !policy.sameEntryFallback || failed.version != .v2 then none
    else (planStrictV2 state selectedExit avoid none draws.fallback).toOption

/-- `_planResend`. -/
def planResend (surbFormat : SurbFormat) (failed : PlannedRoute)
    (selectedExit : Option TopologyNode) (retry : RetryMode) (policy : ResendPolicy)
    (draws : PlanDraws) : Option PlannedRoute :=
  (resendRoute state surbFormat failed selectedExit retry policy draws).filter fun next =>
    !sameRoute next.route failed.route

/-- `_planRouteThroughOtherEntry`. -/
def planRouteThroughOtherEntry (surbFormat : SurbFormat) (failed : PlannedRoute)
    (selectedExit : Option TopologyNode) (draws : PlanDraws) : Except Thrown PlannedRoute :=
  let avoid := state.avoidedNodeIds
  if failed.version = .v2 then
    planStrictV2 state selectedExit avoid (some failed.route.entry.id) draws.route
  else do
    let entry ← pickOtherEntry state draws
      (failed.route.entry.id :: (selectedExit.map TopologyNode.id).toList)
    planRoute state surbFormat selectedExit avoid (some entry) draws.route

/-- `_planTransportResend`. -/
def planTransportResend (surbFormat : SurbFormat) (failed : PlannedRoute)
    (selectedExit : Option TopologyNode) (policy : ResendPolicy) (draws : PlanDraws) :
    Option PlannedRoute :=
  match planRouteThroughOtherEntry state surbFormat failed selectedExit draws with
  | .ok next => some next
  | .error _ =>
    if !policy.sameEntryFallback then none
    else if failed.version = .v2 then
      (planStrictV2 state selectedExit state.avoidedNodeIds none draws.fallback).toOption
    else
      (planRoute state surbFormat selectedExit state.avoidedNodeIds none draws.fallback).toOption

end Planners

end NoxSdk.Client
