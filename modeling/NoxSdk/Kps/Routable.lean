import NoxSdk.Kps.Floor
import NoxSdk.Topology.RouteSelection

/-!
# Routes after served documents

A route goes over three different members, and the floor counts each layer alone: a node in two
layers counts twice. `applied_carries_route_iff` says what is left: whatever the served documents
say, an entry and an exit stay, and the returned members carry a route exactly when they are three
and no single one of them is the only entry and the only exit.
-/

namespace NoxSdk.Kps

open NoxSdk.Topology

/-! ### Members that carry a route -/

/-- `node.address.length > 0`. -/
def hasEntryAddress (node : TopologyNode) : Bool := decide (0 < node.address.length)

/-- `formsRouteWith`, with the samples of the picks. -/
def formsRouteWith (members : List RelayerNode) (context : RoutingContext) (samples : Samples) :
    Bool :=
  if members.length = 0 then false
  else
    let route := do
      let nodes ← routingNodes members context
      selectRoute nodes none none none hasEntryAddress none samples
    match route with
    | .ok _ => true
    | .error _ => false

section Nodes

variable {nodes : List TopologyNode} {members : List RelayerNode} {context : RoutingContext}
  {samples : Samples}

theorem mem_entry_iff {node : TopologyNode} :
    node ∈ layerNodes nodes .entry ↔ node ∈ nodes ∧ hasEntryAddress node = true :=
  mem_entriesOf

theorem mem_exit_iff {node : TopologyNode} :
    node ∈ layerNodes nodes .exit ↔ node ∈ nodes ∧ (node.role = 2 ∨ node.role = 3) :=
  mem_exitsOf

/-- Three different nodes, two of which are an entry and an exit. -/
def CarriesRoute (nodes : List TopologyNode) : Prop :=
  3 ≤ (nodes.map (·.id)).toFinset.card ∧
    ∃ entry ∈ layerNodes nodes .entry, ∃ exit ∈ layerNodes nodes .exit, entry.id ≠ exit.id

/-- A route is three nodes of which the first is an entry and the last an exit. -/
theorem exists_isRoute_iff :
    (∃ route, IsRoute nodes none none hasEntryAddress route) ↔ CarriesRoute nodes := by
  constructor
  · rintro ⟨route, hroute⟩
    refine ⟨?_, route.entry, mem_entry_iff.mpr ⟨hroute.entry_mem, hroute.isEntry⟩, route.exit,
      mem_exit_iff.mpr ⟨hroute.exit_mem, hroute.exit_role⟩, hroute.entry_ne_exit⟩
    -- the three hops have three addresses
    have hthree : ({route.entry.id, route.mix.id, route.exit.id} : Finset String).card = 3 :=
      Finset.card_eq_three.mpr ⟨_, _, _, hroute.entry_ne_mix, hroute.entry_ne_exit,
        hroute.mix_ne_exit, rfl⟩
    rw [← hthree]
    refine Finset.card_le_card fun id hid => List.mem_toFinset.mpr ?_
    simp only [Finset.mem_insert, Finset.mem_singleton] at hid
    rcases hid with rfl | rfl | rfl
    · exact List.mem_map_of_mem hroute.entry_mem
    · exact List.mem_map_of_mem hroute.mix_mem
    · exact List.mem_map_of_mem hroute.exit_mem
  · rintro ⟨hthree, entry, hentry, exit, hexit, hne⟩
    -- a third address beside those of the entry and the exit belongs to the mix
    obtain ⟨id, hid, hother⟩ : ∃ id ∈ (nodes.map (·.id)).toFinset,
        id ∉ ({entry.id, exit.id} : Finset String) :=
      Finset.exists_mem_notMem_of_card_lt_card (Finset.card_le_two.trans_lt hthree)
    obtain ⟨mix, hmix, rfl⟩ := List.mem_map.mp (List.mem_toFinset.mp hid)
    simp only [Finset.mem_insert, Finset.mem_singleton, not_or] at hother
    obtain ⟨hentry_mem, hisEntry⟩ := mem_entry_iff.mp hentry
    obtain ⟨hexit_mem, hrole⟩ := mem_exit_iff.mp hexit
    exact ⟨⟨entry, mix, exit⟩,
      { entry_mem := hentry_mem
        mix_mem := hmix
        exit_mem := hexit_mem
        entry_ne_mix := Ne.symm hother.1
        entry_ne_exit := hne
        mix_ne_exit := hother.2
        isEntry := hisEntry
        pinnedEntry := fun _ h => by cases h
        exit_role := hrole
        selectedExit := fun _ h => by cases h }⟩

theorem formsRouteWith_iff (hnodes : routingNodes members context = .ok nodes) :
    formsRouteWith members context samples = true ↔ CarriesRoute nodes := by
  rw [← exists_isRoute_iff, formsRouteWith]
  split_ifs with hempty
  · obtain rfl := List.eq_nil_of_length_eq_zero hempty
    obtain rfl := Except.ok.inj hnodes
    refine iff_of_false id ?_
    rintro ⟨route, hroute⟩
    exact absurd hroute.entry_mem List.not_mem_nil
  · rw [hnodes, ok_bind]
    dsimp only
    cases hselect : selectRoute nodes none none none hasEntryAddress none samples with
    | ok route => exact iff_of_true rfl ⟨route, isRoute_of_selectRoute hselect⟩
    | error error =>
      refine iff_of_false Bool.false_ne_true ?_
      rintro ⟨route, hroute⟩
      have hbudget : ¬ OverBudget nodes none none hasEntryAddress none := by
        rintro ⟨cap, fixed, hcap, -⟩
        cases hcap
      obtain ⟨chosen, hchosen⟩ := @exists_selectRoute _ _ _ _ none _ samples _ hroute hbudget
      rw [hchosen] at hselect
      cases hselect

/-- Members that form a route have nodes that carry one. -/
theorem exists_nodes_of_formsRouteWith (h : formsRouteWith members context samples = true) :
    ∃ nodes, routingNodes members context = .ok nodes ∧ CarriesRoute nodes := by
  cases hnodes : routingNodes members context with
  | ok nodes => exact ⟨nodes, rfl, (formsRouteWith_iff hnodes).mp h⟩
  | error error =>
    rw [formsRouteWith, hnodes] at h
    split_ifs at h
    cases h

end Nodes

/-! ### After served documents -/

section Apply

variable {hashes : Hashes} {pinned : PinnedSnapshot} {served : List ServedTopology} {nowUnix : ℤ}
  {options : ApplyServedOptions} {working : WorkingSet}

/-- The layers with a member in the base keep one. -/
theorem exists_nodes_of_carriesRoute {baseNodes : List TopologyNode}
    (hlower : ∀ member ∈ baseMembers pinned options,
      normalizeAddress member.address = member.address)
    (hfloor : 1 ≤ (thresholds pinned options).minPerLayer)
    (hbaseNodes : baseNodesOf pinned options = .ok baseNodes)
    (hroute : ∀ layer, layerNodes baseNodes layer ≠ [])
    (h : applyServedTopologies hashes pinned served nowUnix options = .ok working) :
    ∃ nodes, routingNodes working.members (servedContext pinned options) = .ok nodes ∧
      ∀ layer, layerNodes nodes layer ≠ [] := by
  rcases exists_nodes_of_apply hlower h with rfl | ⟨baseNodes', nodes, hbaseNodes', hnodes, hplaces,
    hgone⟩
  · exact ⟨baseNodes, hbaseNodes, hroute⟩
  · obtain rfl := Except.ok.inj (hbaseNodes.symm.trans hbaseNodes')
    refine ⟨nodes, hnodes, fun layer => ?_⟩
    obtain ⟨node, hnode, hkept⟩ := exists_mem_kept_floorsOf hfloor hgone (hroute layer)
    rw [← List.length_pos_iff, length_layerNodes_kept hplaces]
    exact List.length_pos_of_mem (List.mem_filter.mpr ⟨hnode, decide_eq_true hkept⟩)

/-- Over a base that carries a route, the returned members keep an entry and an exit, and carry a
route exactly when they are three and no single one is the only entry and the only exit.

A base that carries a route has members in every layer, and a floor of at least one leaves one in
each (`exists_nodes_of_carriesRoute`). What is left to ask of the returned nodes is what
`formsRoute` asks (`formsRouteWith_iff`), in which entry and exit have to differ. -/
theorem applied_carries_route_iff (hashes : Hashes) (pinned : PinnedSnapshot)
    (served : List ServedTopology) (nowUnix : ℤ) (options : ApplyServedOptions)
    (working : WorkingSet) (samples : Samples)
    (hlower : ∀ member ∈ baseMembers pinned options,
      normalizeAddress member.address = member.address)
    (hfloor : 1 ≤ (thresholds pinned options).minPerLayer)
    (hbase : formsRouteWith ((baseMembers pinned options).map fun member =>
      toRelayerNode member.toPinnedMember) (servedContext pinned options) samples = true)
    (h : applyServedTopologies hashes pinned served nowUnix options = .ok working) :
    ∃ nodes, routingNodes working.members (servedContext pinned options) = .ok nodes ∧
      layerNodes nodes .entry ≠ [] ∧ layerNodes nodes .exit ≠ [] ∧
      ∀ samples', formsRouteWith working.members (servedContext pinned options) samples' = true ↔
        3 ≤ (nodes.map (·.id)).toFinset.card ∧
          ¬ ∃ id, (∀ entry ∈ layerNodes nodes .entry, entry.id = id) ∧
            ∀ exit ∈ layerNodes nodes .exit, exit.id = id := by
  obtain ⟨baseNodes, hbaseNodes, -, entry, hentry, exit, hexit, -⟩ :=
    exists_nodes_of_formsRouteWith hbase
  have hlayers : ∀ layer, layerNodes baseNodes layer ≠ [] := by
    intro layer
    cases layer with
    | entry => exact List.ne_nil_of_mem hentry
    | mix => exact List.ne_nil_of_mem (mem_mixesOf.mpr (mem_entry_iff.mp hentry).1)
    | exit => exact List.ne_nil_of_mem hexit
  obtain ⟨nodes, hnodes, hkept⟩ := exists_nodes_of_carriesRoute hlower hfloor hbaseNodes hlayers h
  refine ⟨nodes, hnodes, hkept .entry, hkept .exit, fun samples' => ?_⟩
  rw [formsRouteWith_iff hnodes, CarriesRoute]
  refine and_congr_right fun _ => ?_
  constructor
  · rintro ⟨entry, hentry, exit, hexit, hne⟩ ⟨id, hentries, hexits⟩
    exact hne ((hentries entry hentry).trans (hexits exit hexit).symm)
  · intro hno
    by_contra hsame
    push Not at hsame
    obtain ⟨first, hfirst⟩ := List.exists_mem_of_ne_nil _ (hkept .exit)
    obtain ⟨head, hhead⟩ := List.exists_mem_of_ne_nil _ (hkept .entry)
    refine hno ⟨first.id, fun entry hentry => hsame entry hentry first hfirst, ?_⟩
    exact fun exit hexit => (hsame head hhead exit hexit).symm.trans (hsame head hhead first hfirst)

/-! ### Three members, of which two are left -/

/-- The first member of the sample can be the entry. -/
def routableOptions : ApplyServedOptions :=
  { sampleOptions with
    endpoints := some (OrderedMap.empty.set (sampleMember '1' 1 0).address
      "192.0.2.1:443:uEiAAAAAAAAAAAAAAAAAAAAAAAAAAAAAAAAAAAAAAAAAAAA") }

/-- The entry locations do not bear on which documents are accepted, and on what they say. -/
private theorem routable_run :
    (applyServedTopologies sampleHashes samplePinned sampleServed 1000 routableOptions).toOption.map
        (·.members) =
      some [toRelayerNode movedMember, toRelayerNode (sampleMember '3' 2 2)] := by
  have hserved : acceptedTopologies sampleHashes samplePinned sampleServed 1000 routableOptions
      = servedWith .online .online := accepted_sample _ _
  have hevidence : evidenceOf sampleHashes samplePinned sampleServed 1000 routableOptions = _ :=
    evidence_sample .online .online
  simp only [applyServedTopologies, acceptedAnchors, floorsOf, assembled, hserved, hevidence]
  decide +kernel

private theorem routable_base :
    formsRouteWith ((baseMembers samplePinned routableOptions).map fun member =>
      toRelayerNode member.toPinnedMember) (servedContext samplePinned routableOptions) ⟨0, 0, 0⟩
        = true := by
  decide +kernel

/-- The base, which is also the previous working set, carries a route, every layer keeps its floor,
and the two members that the documents leave carry none. -/
theorem not_carries_route :
    ∃ working, applyServedTopologies sampleHashes samplePinned sampleServed 1000 routableOptions
        = .ok working ∧ (thresholds samplePinned routableOptions).minPerLayer = 2 ∧
      routableOptions.previous = none ∧
      formsRouteWith ((baseMembers samplePinned routableOptions).map fun member =>
        toRelayerNode member.toPinnedMember) (servedContext samplePinned routableOptions) ⟨0, 0, 0⟩
          = true ∧
      formsRouteWith working.members (servedContext samplePinned routableOptions) ⟨0, 0, 0⟩
        = false := by
  obtain ⟨working, hworking, hmembers⟩ := Option.map_eq_some_iff.mp routable_run
  refine ⟨working, toOption_eq_some_iff.mp hworking, rfl, rfl, routable_base, ?_⟩
  rw [hmembers]
  decide +kernel

/-- The base of the sample carries a route. -/
theorem applied_carries_route_iff_sample :
    ∃ working nodes,
      applyServedTopologies sampleHashes samplePinned sampleServed 1000 routableOptions
        = .ok working ∧
      layerNodes nodes .entry ≠ [] ∧ layerNodes nodes .exit ≠ [] ∧
      (formsRouteWith working.members (servedContext samplePinned routableOptions)
          ⟨0, 0, 0⟩ = true ↔
        3 ≤ (nodes.map (·.id)).toFinset.card ∧
          ¬ ∃ id, (∀ entry ∈ layerNodes nodes .entry, entry.id = id) ∧
            ∀ exit ∈ layerNodes nodes .exit, exit.id = id) := by
  obtain ⟨working, hworking, -⟩ := Option.map_eq_some_iff.mp routable_run
  rw [toOption_eq_some_iff] at hworking
  obtain ⟨nodes, -, hentry, hexit, hiff⟩ := applied_carries_route_iff sampleHashes samplePinned
    sampleServed 1000 routableOptions working ⟨0, 0, 0⟩ lower_sample (by decide)
    routable_base hworking
  exact ⟨working, nodes, hworking, hentry, hexit, hiff ⟨0, 0, 0⟩⟩

end Apply

end NoxSdk.Kps
