import Mathlib.Data.Finset.Card
import NoxSdk.Kps.ServedTopologies

/-!
# The floor of a layer

Each route layer is to keep `min(minMembersPerLayer, base members in that layer)` members. The loop
gives a layer below its floor the members of the previous working set back, and a previous set of
another base may hold too few of them: `keepsFloor_iff` says exactly when the floor holds. No
layer loses all its members (`exists_mem_kept_floorsOf`).
-/

namespace NoxSdk.Kps

open NoxSdk.Topology

/-! ### The nodes of the returned members -/

section Nodes

/-- What decides whether a node is in a layer, with its id. -/
def nodePlace (node : TopologyNode) : String × ℕ × String := (node.id, node.role, node.address)

theorem isInLayer_eq {node other : TopologyNode} (h : nodePlace node = nodePlace other)
    (layer : RouteLayer) : isInLayer node layer = isInLayer other layer := by
  simp only [nodePlace, Prod.mk.injEq] at h
  cases layer <;> simp only [isInLayer, h.2.1, h.2.2]

/-- Lists with nodes at the same places have layers with nodes at the same places. -/
theorem map_nodePlace_layerNodes {nodes others : List TopologyNode}
    (h : nodes.map nodePlace = others.map nodePlace) (layer : RouteLayer) :
    (layerNodes nodes layer).map nodePlace = (layerNodes others layer).map nodePlace := by
  rw [← List.forall₂_eq_eq_eq, List.forall₂_map_left_iff, List.forall₂_map_right_iff] at h ⊢
  refine List.rel_filter (fun node other hplace => ?_) h
  exact iff_of_eq (congrArg (· = true) (isInLayer_eq hplace layer))

theorem parseNode_url (raw : RelayerNode) (url : String) :
    parseNode { raw with url := url } =
      (parseNode raw).map fun node => { node with routingAddress := url } := by
  rw [parseNode, parseNode]
  dsimp only
  split_ifs
  · rfl
  · cases hexToBytes (stripPrefix raw.sphinxKey) with
    | error error => rfl
    | ok publicKey => rfl

/-- Another `url` leaves the rest of a node as it is. -/
theorem routingNode_url (context : RoutingContext) (raw : RelayerNode) (url : String) :
    routingNode context { raw with url := url } =
      (routingNode context raw).map fun node => { node with routingAddress := url } := by
  rw [routingNode, routingNode, parseNode_url]
  cases parseNode raw with
  | error error => rfl
  | ok node =>
    cases hendpoint : context.entryEndpoint node.id with
    | error error => simp [Except.map, hendpoint]
    | ok endpoint => simp [Except.map, hendpoint]

theorem routingNode_routedMember {context : RoutingContext} {member : MemberRecord}
    {node : TopologyNode} (relocatedUrls : OrderedMap String String)
    (h : routingNode context (toRelayerNode member.toPinnedMember) = .ok node) :
    ∃ moved, routingNode context (routedMember relocatedUrls member) = .ok moved ∧
      nodePlace moved = nodePlace node := by
  rw [routedMember]
  cases relocatedUrls.get? member.address with
  | none => exact ⟨node, h, rfl⟩
  | some url =>
    refine ⟨{ node with routingAddress := url }, ?_, rfl⟩
    exact (routingNode_url context (toRelayerNode member.toPinnedMember) url).trans (by rw [h]; rfl)

theorem id_of_routingNode {context : RoutingContext} {raw : RelayerNode} {node : TopologyNode}
    (h : routingNode context raw = .ok node) : node.id = normalizeAddress raw.address := by
  obtain ⟨parsed, hparsed, h⟩ := bind_eq_ok_iff.mp h
  obtain ⟨endpoint, -, h⟩ := bind_eq_ok_iff.mp h
  rw [parseNode] at hparsed
  split_ifs at hparsed
  · cases hparsed
  · obtain ⟨publicKey, -, hparsed⟩ := bind_eq_ok_iff.mp hparsed
    rw [← Except.ok.inj h, ← Except.ok.inj hparsed]

/-- The nodes of the members that are kept are at the places of the nodes that are kept. -/
theorem exists_keptNodes {context : RoutingContext} {base : List MemberRecord}
    {baseNodes : List TopologyNode} (relocatedUrls : OrderedMap String String)
    (kept : Finset String)
    (hlower : ∀ member ∈ base, normalizeAddress member.address = member.address)
    (h : routingNodes (base.map fun member => toRelayerNode member.toPinnedMember) context
      = .ok baseNodes) :
    ∃ nodes, routingNodes ((base.filter fun member => decide (member.address ∈ kept)).map
        (routedMember relocatedUrls)) context = .ok nodes ∧
      nodes.map nodePlace =
        (baseNodes.filter fun node => decide (node.id ∈ kept)).map nodePlace := by
  rw [routingNodes, mapM_eq_ok_iff, List.forall₂_map_left_iff] at h
  simp only [routingNodes, mapM_eq_ok_iff, List.forall₂_map_left_iff]
  induction h with
  | nil => exact ⟨[], .nil, rfl⟩
  | @cons member node base baseNodes hnode _ ih =>
    obtain ⟨nodes, hnodes, hplaces⟩ :=
      ih fun other hother => hlower other (List.mem_cons_of_mem _ hother)
    have hid : node.id = member.address :=
      (id_of_routingNode hnode).trans (hlower member List.mem_cons_self)
    by_cases hkept : member.address ∈ kept
    · obtain ⟨moved, hmoved, hplace⟩ := routingNode_routedMember relocatedUrls hnode
      refine ⟨moved :: nodes, ?_, ?_⟩
      · rw [List.filter_cons_of_pos (by simpa using hkept)]
        exact .cons hmoved hnodes
      · rw [List.filter_cons_of_pos (by simpa [hid] using hkept), List.map_cons, List.map_cons,
          hplace, hplaces]
    · refine ⟨nodes, ?_, ?_⟩
      · rwa [List.filter_cons_of_neg (by simpa using hkept)]
      · rwa [List.filter_cons_of_neg (by simpa [hid] using hkept)]

end Nodes

section Apply

variable {hashes : Hashes} {pinned : PinnedSnapshot} {served : List ServedTopology} {nowUnix : ℤ}
  {options : ApplyServedOptions} {working : WorkingSet} {baseNodes : List TopologyNode}

/-- The entry locations of the options. -/
def servedContext (pinned : PinnedSnapshot) (options : ApplyServedOptions) : RoutingContext where
  endpoints := options.endpoints.getD (pinnedKpsAddresses pinned)
  entryAddresses := options.entryAddresses
  capabilities := .empty
  probation := ∅

/-- A working set with removals: its members and their nodes. -/
theorem exists_nodes_of_apply
    (hlower : ∀ member ∈ baseMembers pinned options,
      normalizeAddress member.address = member.address)
    (h : applyServedTopologies hashes pinned served nowUnix options = .ok working) :
    (working = unchanged hashes pinned served nowUnix options false) ∨
    ∃ baseNodes nodes, baseNodesOf pinned options = .ok baseNodes ∧
      routingNodes working.members (servedContext pinned options) = .ok nodes ∧
      nodes.map nodePlace = (baseNodes.filter fun node => decide
        (node.id ∈ (floorsOf hashes pinned served nowUnix options baseNodes).kept)).map nodePlace ∧
      ∀ layer,
        ¬ Gone baseNodes (evidenceOf hashes pinned served nowUnix options).listed layer := by
  rw [applyServedTopologies] at h
  split at h
  · exact .inl (Except.ok.inj h).symm
  · obtain ⟨baseNodes, hbaseNodes, h⟩ := bind_eq_ok_iff.mp h
    simp only at h
    split_ifs at h with hgone
    obtain rfl := Except.ok.inj h
    obtain ⟨nodes, hnodes, hplaces⟩ := exists_keptNodes
      (evidenceOf hashes pinned served nowUnix options).relocatedUrls
      (floorsOf hashes pinned served nowUnix options baseNodes).kept hlower hbaseNodes
    refine .inr ⟨baseNodes, nodes, hbaseNodes, hnodes, hplaces, fun layer hlayer => hgone ?_⟩
    exact List.length_pos_of_mem ((mem_gone_floorsOf baseNodes layer).mpr hlayer)

/-! ### The floor -/

/-- The member stays: the documents confirm it, or a layer below its floor gives it back. -/
def Stays (hashes : Hashes) (pinned : PinnedSnapshot) (served : List ServedTopology) (nowUnix : ℤ)
    (options : ApplyServedOptions) (baseNodes : List TopologyNode) (address : String) : Prop :=
  address ∈ confirmedAddresses (acceptedTopologies hashes pinned served nowUnix options)
      (thresholds pinned options) (baseMembers pinned options) ∨
    ∃ layer, GivenBack baseNodes
      (listedAddresses (acceptedTopologies hashes pinned served nowUnix options)
        (thresholds pinned options) (baseMembers pinned options))
      (confirmedAddresses (acceptedTopologies hashes pinned served nowUnix options)
        (thresholds pinned options) (baseMembers pinned options))
      (previousOf pinned options) (thresholds pinned options).minPerLayer address layer

theorem mem_kept_floorsOf_iff_stays {address : String}
    (hgone : ∀ layer,
      ¬ Gone baseNodes (evidenceOf hashes pinned served nowUnix options).listed layer) :
    address ∈ (floorsOf hashes pinned served nowUnix options baseNodes).kept ↔
      Stays hashes pinned served nowUnix options baseNodes address := by
  rw [mem_kept_floorsOf address hgone, listed_evidenceOf, kept_evidenceOf, Stays]

/-- The documents or the previous set keep enough members of each layer that they would leave below
its floor. -/
def EnoughStay (hashes : Hashes) (pinned : PinnedSnapshot) (served : List ServedTopology)
    (nowUnix : ℤ) (options : ApplyServedOptions) (baseNodes : List TopologyNode) : Prop :=
  ∀ layer, BelowFloor baseNodes
      (confirmedAddresses (acceptedTopologies hashes pinned served nowUnix options)
        (thresholds pinned options) (baseMembers pinned options))
      (thresholds pinned options).minPerLayer layer →
    ∃ enough : List TopologyNode, enough.Sublist (layerNodes baseNodes layer) ∧
      min (thresholds pinned options).minPerLayer (layerNodes baseNodes layer).length
        ≤ enough.length ∧
      ∀ node ∈ enough, Stays hashes pinned served nowUnix options baseNodes node.id

/-- Every layer of the returned members holds `min(minMembersPerLayer, base members in it)`. -/
def KeepsFloor (pinned : PinnedSnapshot) (options : ApplyServedOptions)
    (baseNodes : List TopologyNode) (working : WorkingSet) : Prop :=
  ∃ nodes, routingNodes working.members (servedContext pinned options) = .ok nodes ∧
    ∀ layer, min (thresholds pinned options).minPerLayer (layerNodes baseNodes layer).length
      ≤ ((layerNodes nodes layer).length : ℤ)

theorem layerNodes_filter (baseNodes : List TopologyNode) (kept : Finset String)
    (layer : RouteLayer) :
    layerNodes (baseNodes.filter fun node => decide (node.id ∈ kept)) layer =
      (layerNodes baseNodes layer).filter fun node => decide (node.id ∈ kept) := by
  rw [layerNodes, layerNodes, List.filter_filter, List.filter_filter]
  exact List.filter_congr fun node _ => Bool.and_comm _ _

/-- The number of members of a layer after the loop. -/
theorem length_layerNodes_kept {nodes : List TopologyNode} {kept : Finset String}
    (hplaces : nodes.map nodePlace =
      (baseNodes.filter fun node => decide (node.id ∈ kept)).map nodePlace) (layer : RouteLayer) :
    (layerNodes nodes layer).length =
      ((layerNodes baseNodes layer).filter fun node => decide (node.id ∈ kept)).length := by
  have hlength := congrArg List.length (map_nodePlace_layerNodes hplaces layer)
  rwa [List.length_map, List.length_map, layerNodes_filter] at hlength

/-- The floor of the layers holds after removals exactly when enough members stay.

The returned nodes of a layer are the base nodes with a kept address (`length_layerNodes_kept`), and
such an address stays as evidence says or was given back from the previous set
(`mem_kept_floorsOf_iff_stays`). A layer that is not below its floor has enough confirmed members
anyway. -/
theorem keepsFloor_iff (hashes : Hashes) (pinned : PinnedSnapshot) (served : List ServedTopology)
    (nowUnix : ℤ) (options : ApplyServedOptions) (working : WorkingSet)
    (hlower : ∀ member ∈ baseMembers pinned options,
      normalizeAddress member.address = member.address)
    (h : applyServedTopologies hashes pinned served nowUnix options = .ok working)
    (hquorum : working.removalQuorum = true) :
    ∃ baseNodes, baseNodesOf pinned options = .ok baseNodes ∧
      (KeepsFloor pinned options baseNodes working ↔
        EnoughStay hashes pinned served nowUnix options baseNodes) := by
  rcases exists_nodes_of_apply hlower h with rfl | ⟨baseNodes, nodes, hbaseNodes, hnodes, hplaces,
    hgone⟩
  · cases hquorum
  refine ⟨baseNodes, hbaseNodes, ?_⟩
  have hcount := length_layerNodes_kept hplaces
  constructor
  · rintro ⟨nodes', hnodes', hfloor⟩ layer -
    obtain rfl := Except.ok.inj (hnodes.symm.trans hnodes')
    refine ⟨_, List.filter_sublist, (hcount layer) ▸ hfloor layer, fun node hnode => ?_⟩
    exact (mem_kept_floorsOf_iff_stays hgone).mp (of_decide_eq_true (List.mem_filter.mp hnode).2)
  · intro henough
    refine ⟨nodes, hnodes, fun layer => ?_⟩
    rw [hcount layer]
    by_cases hbelow : BelowFloor baseNodes
      (confirmedAddresses (acceptedTopologies hashes pinned served nowUnix options)
        (thresholds pinned options) (baseMembers pinned options))
      (thresholds pinned options).minPerLayer layer
    · obtain ⟨enough, hsublist, hlength, hstays⟩ := henough layer hbelow
      refine hlength.trans (Nat.cast_le.mpr ?_)
      have hall : (enough.filter fun node => decide (node.id ∈
          (floorsOf hashes pinned served nowUnix options baseNodes).kept)) = enough :=
        List.filter_eq_self.mpr fun node hnode =>
          decide_eq_true ((mem_kept_floorsOf_iff_stays hgone).mpr (hstays node hnode))
      exact hall ▸ (hsublist.filter _).length_le
    · refine (not_lt.mp hbelow).trans (Nat.cast_le.mpr ?_)
      refine (List.monotone_filter_right _ fun node hnode => ?_).length_le
      exact decide_eq_true
        ((mem_kept_floorsOf_iff_stays hgone).mpr (.inl (of_decide_eq_true hnode)))

/-- With a positive floor, the loop keeps a member of every layer that has one. -/
theorem exists_mem_kept_floorsOf (hfloor : 1 ≤ (thresholds pinned options).minPerLayer)
    (hgone : ∀ layer,
      ¬ Gone baseNodes (evidenceOf hashes pinned served nowUnix options).listed layer)
    {layer : RouteLayer} (hne : layerNodes baseNodes layer ≠ []) :
    ∃ node ∈ layerNodes baseNodes layer,
      node.id ∈ (floorsOf hashes pinned served nowUnix options baseNodes).kept := by
  set evidence := evidenceOf hashes pinned served nowUnix options with hevidence
  by_cases hconfirmed : ∃ node ∈ layerNodes baseNodes layer, node.id ∈ evidence.kept
  · obtain ⟨node, hnode, hkept⟩ := hconfirmed
    exact ⟨node, hnode, (mem_kept_floorsOf node.id hgone).mpr (.inl hkept)⟩
  -- nothing is confirmed, so the layer is below its floor
  have hnone : (layerNodes baseNodes layer).filter (fun node => decide (node.id ∈ evidence.kept))
      = [] := List.filter_eq_nil_iff.mpr fun node hnode hkept =>
    hconfirmed ⟨node, hnode, of_decide_eq_true hkept⟩
  have hbelow :
      BelowFloor baseNodes evidence.kept (thresholds pinned options).minPerLayer layer := by
    rw [BelowFloor, hnone, List.length_nil]
    have hpos := List.length_pos_iff.mpr hne
    omega
  have hback : ∃ node ∈ layerNodes baseNodes layer, GivenBack baseNodes evidence.listed
      evidence.kept (previousOf pinned options) (thresholds pinned options).minPerLayer node.id
      layer := by
    by_cases hprevious : ∃ node ∈ layerNodes baseNodes layer, node.id ∈ previousOf pinned options
    · obtain ⟨node, hnode, hin⟩ := hprevious
      exact ⟨node, hnode, hbelow, node, hnode, rfl, .inl hin⟩
    · obtain ⟨node, hnode, hlisted⟩ : ∃ node ∈ layerNodes baseNodes layer,
          node.id ∈ evidence.listed := by
        by_contra hno
        push Not at hno
        exact hgone layer ⟨hne, hno⟩
      refine ⟨node, hnode, hbelow, node, hnode, rfl, .inr ⟨hlisted, fun other hother => ?_⟩⟩
      exact ⟨fun hkept => hconfirmed ⟨other, hother, hkept⟩,
        fun hin => hprevious ⟨other, hother, hin⟩⟩
  obtain ⟨node, hnode, hgiven⟩ := hback
  exact ⟨node, hnode, (mem_kept_floorsOf node.id hgone).mpr (.inr ⟨layer, hgiven⟩)⟩

/-! ### One exit that is also a mix -/

/-- The second document of the sample: the exit is online, the relay it lists is not. -/
def offlineServed : List ServedTopology :=
  sampleAnchors.map fun anchor =>
    ⟨anchor, { sampleSnapshot with
      liveness := some [⟨(sampleMember '1' 1 0).address, .offline, 1000⟩,
        ⟨(sampleMember '3' 2 2).address, .online, 1000⟩] }⟩

/-- A previous working set of an older base: of the members of the sample it has the exit. -/
def olderOptions : ApplyServedOptions :=
  { sampleOptions with
    previous := some [toRelayerNode (sampleMember '3' 2 2), toRelayerNode (sampleMember '4' 1 0),
      toRelayerNode (sampleMember '5' 1 0)] }

private theorem offline_run :
    (applyServedTopologies sampleHashes samplePinned offlineServed 1000 olderOptions).toOption.map
        (fun working => (working.members, working.removalQuorum)) =
      some ([toRelayerNode (sampleMember '3' 2 2)], true) := by
  have hserved : acceptedTopologies sampleHashes samplePinned offlineServed 1000 olderOptions
      = servedWith .offline .online := accepted_sample _ _
  have hevidence : evidenceOf sampleHashes samplePinned offlineServed 1000 olderOptions = _ :=
    evidence_sample .offline .online
  simp only [applyServedTopologies, acceptedAnchors, floorsOf, assembled, hserved, hevidence]
  decide +kernel

private theorem older_baseNodes :
    ∃ baseNodes, baseNodesOf samplePinned olderOptions = .ok baseNodes ∧
      (layerNodes baseNodes .mix).length = 3 := by
  have hlength : (baseNodesOf samplePinned olderOptions).toOption.map
      (fun baseNodes => (layerNodes baseNodes .mix).length) = some 3 := by
    decide +kernel
  obtain ⟨baseNodes, hbaseNodes, hlength⟩ := Option.map_eq_some_iff.mp hlength
  exact ⟨baseNodes, toOption_eq_some_iff.mp hbaseNodes, hlength⟩

/-- Two anchors confirm the exit alone, and the previous set gives no relay back: one of three
mixes is left, below the floor of two. -/
theorem not_keepsFloor :
    ∃ working baseNodes, applyServedTopologies sampleHashes samplePinned offlineServed 1000
        olderOptions = .ok working ∧ working.removalQuorum = true ∧
      baseNodesOf samplePinned olderOptions = .ok baseNodes ∧
      (layerNodes baseNodes .mix).length = 3 ∧
      (thresholds samplePinned olderOptions).minPerLayer = 2 ∧
      working.members = [toRelayerNode (sampleMember '3' 2 2)] ∧
      ¬ KeepsFloor samplePinned olderOptions baseNodes working := by
  obtain ⟨working, hworking, hview⟩ := Option.map_eq_some_iff.mp offline_run
  obtain ⟨hmembers, hquorum⟩ := Prod.mk.inj hview
  obtain ⟨baseNodes, hbaseNodes, hmixes⟩ := older_baseNodes
  refine ⟨working, baseNodes, toOption_eq_some_iff.mp hworking, hquorum, hbaseNodes, hmixes, rfl,
    hmembers, ?_⟩
  rintro ⟨nodes, hnodes, hfloor⟩
  have hone : nodes.length = 1 := by
    rw [routingNodes, hmembers, mapM_eq_ok_iff] at hnodes
    exact hnodes.length_eq.symm
  have hmix := hfloor .mix
  rw [hmixes] at hmix
  have hle : (layerNodes nodes .mix).length ≤ nodes.length := List.length_filter_le _ _
  have htwo : (2 : ℤ) ≤ (layerNodes nodes .mix).length := hmix
  omega

/-- The run that breaks the floor: too few members stay there. -/
theorem keepsFloor_iff_sample :
    ∃ working baseNodes, applyServedTopologies sampleHashes samplePinned offlineServed 1000
        olderOptions = .ok working ∧ baseNodesOf samplePinned olderOptions = .ok baseNodes ∧
      (KeepsFloor samplePinned olderOptions baseNodes working ↔
        EnoughStay sampleHashes samplePinned offlineServed 1000 olderOptions baseNodes) := by
  obtain ⟨working, hworking, hview⟩ := Option.map_eq_some_iff.mp offline_run
  rw [toOption_eq_some_iff] at hworking
  obtain ⟨baseNodes, hbaseNodes, hiff⟩ := keepsFloor_iff sampleHashes samplePinned offlineServed
    1000 olderOptions working lower_sample hworking (Prod.mk.inj hview).2
  exact ⟨working, baseNodes, hworking, hbaseNodes, hiff⟩

end Apply

end NoxSdk.Kps
