import NoxSdk.Topology.RouteSelection

/-!
# The probation cap of a route

`selectRoute` draws the entry and the mix from the nodes that are no possible exits as long as
there are such nodes, and `withinProbation` looks for a settled node in that narrower list only.
So the cap is honoured whenever it can be exactly if, where it is used up, the narrower list is
empty or holds a settled node, or no settled node can serve the layer at all
(`probation_cap_honoured_iff`).
-/

namespace NoxSdk.Topology

/-! ### The cap -/

/-- How many of the hops are on probation. -/
def probationHops (hops : List TopologyNode) : ℤ := hops.countP TopologyNode.onProbation

/-- Once the hops before it use up the cap, a hop is settled if a settled candidate different from
them is left. -/
def SettledIfPossible (before candidates : List TopologyNode) (cap : ℤ) (hop : TopologyNode) :
    Prop :=
  cap ≤ probationHops before → hop.onProbation = false ∨
    ∀ node ∈ candidates, (∀ h ∈ before, node.id ≠ h.id) → node.onProbation = true

/-- The route honours the cap, in the order pinned entry and selected exit, entry, mix, exit. -/
structure HonoursCap (nodes : List TopologyNode) (pinnedEntry selectedExit : Option TopologyNode)
    (isEntry : TopologyNode → Bool) (cap : ℤ) (route : Route) : Prop where
  selected : selectedExit.isSome → SettledIfPossible
    (pinnedEntry.map fun _ => route.entry).toList (exitsOf nodes) cap route.exit
  entry : pinnedEntry = none → SettledIfPossible (selectedExit.map fun _ => route.exit).toList
    (entriesOf nodes isEntry) cap route.entry
  mix : SettledIfPossible (route.entry :: (selectedExit.map fun _ => route.exit).toList)
    (mixesOf nodes) cap route.mix
  exit : selectedExit = none → SettledIfPossible [route.entry, route.mix] (exitsOf nodes) cap
    route.exit

/-! ### When it can be honoured -/

/-- The nodes that are no exits do not hide a settled candidate: the budget is not used up, there
are none of them, one of them is settled, or no candidate is. -/
def PoolShowsSettled (candidates exits : List TopologyNode) (budget : ℤ) : Prop :=
  0 < budget ∨ withoutExits candidates exits = [] ∨
    (∃ node ∈ withoutExits candidates exits, node.onProbation = false) ∨
    ∀ node ∈ candidates, node.onProbation = true

/-- The candidates of the entry, where it is not pinned. -/
def selectableEntries (nodes : List TopologyNode) (isEntry : TopologyNode → Bool)
    (fixed : FixedHops) : List TopologyNode :=
  (entriesOf nodes isEntry).filter (isNot fixed.pinnedExit)

/-- The candidates of the mix next to an entry. -/
def eligibleMixes (nodes : List TopologyNode) (fixed : FixedHops) (entry : TopologyNode) :
    List TopologyNode :=
  (mixesOf nodes).filter fun n => n.id != entry.id && isNot fixed.pinnedExit n

/-- The nodes one of which becomes the entry. -/
def entryPool (nodes : List TopologyNode) (isEntry : TopologyNode → Bool) (fixed : FixedHops)
    (cap : ℤ) : List TopologyNode :=
  let budget := Budget.minus (some cap) (probationOf fixed.pinnedExit)
  match fixed.canonicalPinnedEntry with
  | some entry => [entry]
  | none =>
    let entryOnly := withoutExits (selectableEntries nodes isEntry fixed) (exitsOf nodes)
    if entryOnly = [] then withinProbation (selectableEntries nodes isEntry fixed) budget
    else withinProbation entryOnly budget

/-- Neither the candidates of the entry nor, next to any entry that can be drawn, those of the mix
hide a settled one. -/
structure ShowsSettled (nodes : List TopologyNode) (isEntry : TopologyNode → Bool)
    (fixed : FixedHops) (cap : ℤ) : Prop where
  entry : fixed.canonicalPinnedEntry = none → PoolShowsSettled
    (selectableEntries nodes isEntry fixed) (exitsOf nodes) (cap - probationOf fixed.pinnedExit)
  mix : ∀ entry ∈ entryPool nodes isEntry fixed cap, PoolShowsSettled
    (eligibleMixes nodes fixed entry) (exitsOf nodes)
    (cap - (probationOf (some entry) + probationOf fixed.pinnedExit))

/-! ### Picks -/

section Picks

variable {candidates exits : List TopologyNode} {node : TopologyNode} {budget : ℤ}
  {avoid : Option (List String)} {sample : ℕ}

/-- Once the budget is used up, a pick is settled if a candidate is. -/
theorem settled_of_pick (hbudget : budget ≤ 0)
    (h : pickRandom (preferNotAvoided (withinProbation candidates (some budget)) avoid) sample =
      some node) :
    node.onProbation = false ∨ ∀ n ∈ candidates, n.onProbation = true := by
  have hmem := (preferNotAvoided_spec _ avoid).1 (mem_of_pickRandom h)
  rw [withinProbation, if_neg (by simpa using hbudget)] at hmem
  simp only at hmem
  split_ifs at hmem with hsettled
  · exact .inl (by simpa using (List.mem_filter.mp hmem).2)
  · refine .inr fun n hn => ?_
    by_contra hn'
    have hin : n ∈ candidates.filter fun node => !node.onProbation :=
      List.mem_filter.mpr ⟨hn, by simpa using hn'⟩
    exact hsettled (List.length_pos_of_mem hin)

/-- The two picks of a hop. -/
def pickTwice (candidates exits : List TopologyNode) (budget : Budget)
    (avoid : Option (List String)) (sample : ℕ) : Option TopologyNode :=
  pickRandom (preferNotAvoided (withinProbation (withoutExits candidates exits) budget) avoid)
      sample <|>
    pickRandom (preferNotAvoided (withinProbation candidates budget) avoid) sample

/-- The first of the two picks decides unless every candidate is an exit. -/
theorem pickTwice_eq (candidates exits : List TopologyNode) (budget : Budget)
    (avoid : Option (List String)) (sample : ℕ) :
    pickTwice candidates exits budget avoid sample =
      pickRandom (preferNotAvoided (withinProbation
        (if withoutExits candidates exits = [] then candidates
          else withoutExits candidates exits) budget) avoid) sample := by
  rw [pickTwice]
  cases hfirst : pickRandom (preferNotAvoided (withinProbation (withoutExits candidates exits)
      budget) avoid) sample with
  | some first =>
    have hne : withoutExits candidates exits ≠ [] := by
      intro hempty
      have hmem := (narrow_spec budget avoid _).1 (mem_of_pickRandom hfirst)
      rw [hempty] at hmem
      cases hmem
    rw [if_neg hne, hfirst]
    rfl
  | none =>
    rw [if_pos ((narrow_spec budget avoid _).2.mp (pickRandom_eq_none_iff.mp hfirst))]
    rfl

theorem pickTwice_cases (h : pickTwice candidates exits (some budget) avoid sample = some node) :
    (withoutExits candidates exits ≠ [] ∧
      pickRandom (preferNotAvoided (withinProbation (withoutExits candidates exits)
        (some budget)) avoid) sample = some node) ∨
    (withoutExits candidates exits = [] ∧
      pickRandom (preferNotAvoided (withinProbation candidates (some budget)) avoid) sample =
        some node) := by
  rw [pickTwice_eq] at h
  split_ifs at h with hempty
  · exact .inr ⟨hempty, h⟩
  · exact .inl ⟨hempty, h⟩

/-- Where no settled candidate is hidden, a pick is settled if a candidate is. -/
theorem PoolShowsSettled.settled (hpool : PoolShowsSettled candidates exits budget)
    (hbudget : budget ≤ 0)
    (h : pickTwice candidates exits (some budget) avoid sample = some node) :
    node.onProbation = false ∨ ∀ n ∈ candidates, n.onProbation = true := by
  rcases pickTwice_cases h with ⟨hne, hpick⟩ | ⟨-, hpick⟩
  · rcases settled_of_pick hbudget hpick with hsettled | hall
    · exact .inl hsettled
    · rcases hpool with hpos | hempty | ⟨n, hn, hsettled⟩ | hprobation
      · omega
      · exact absurd hempty hne
      · rw [hall n hn] at hsettled
        cases hsettled
      · exact .inr hprobation
  · exact settled_of_pick hbudget hpick

/-- Where one is hidden, the pick is on probation all the same. -/
theorem not_settled_of_hidden (hhidden : ¬ PoolShowsSettled candidates exits budget)
    (h : pickTwice candidates exits (some budget) avoid sample = some node) :
    budget ≤ 0 ∧ node.onProbation = true ∧ ∃ n ∈ candidates, n.onProbation = false := by
  simp only [PoolShowsSettled, not_or, not_lt, not_exists, not_and, not_forall,
    Bool.not_eq_true, Bool.not_eq_false] at hhidden
  obtain ⟨hbudget, hne, hall, n, hn, hsettled⟩ := hhidden
  refine ⟨hbudget, ?_, n, hn, hsettled⟩
  rcases pickTwice_cases h with ⟨-, hpick⟩ | ⟨hempty, -⟩
  · exact hall node ((narrow_spec _ avoid _).1 (mem_of_pickRandom hpick))
  · exact absurd hempty hne

end Picks

/-! ### The hops of a route -/

section Main

variable {nodes : List TopologyNode} {pinnedEntry selectedExit : Option TopologyNode}
  {avoid : Option (List String)} {isEntry : TopologyNode → Bool} {cap : ℤ} {fixed : FixedHops}
  {samples : Samples} {route : Route}

theorem probationHops_toList (hop : Option TopologyNode) :
    probationHops hop.toList = probationOf hop := by
  cases hop with
  | none => rfl
  | some node =>
    rw [probationHops, probationOf, Option.toList_some, List.countP_singleton, Option.any_some]
    split_ifs <;> rfl

theorem probationHops_cons (hop : TopologyNode) (hops : List TopologyNode) :
    probationHops (hop :: hops) = probationOf (some hop) + probationHops hops := by
  rw [probationHops, List.countP_cons, probationOf, Option.any_some, probationHops]
  split_ifs <;> simp [Int.add_comm]

/-- The picks of a route. -/
theorem chooseRoute_ok (h : chooseRoute (entriesOf nodes isEntry) (mixesOf nodes) (exitsOf nodes)
      fixed avoid (some cap) samples = .ok route) :
    chooseEntry (entriesOf nodes isEntry) (exitsOf nodes) fixed.canonicalPinnedEntry
        fixed.pinnedExit (some cap) samples.entry = some route.entry ∧
      pickTwice (eligibleMixes nodes fixed route.entry) (exitsOf nodes)
        (some (cap - (probationOf (some route.entry) + probationOf fixed.pinnedExit))) avoid
        samples.mix = some route.mix ∧
      chooseExit (exitsOf nodes) route.entry route.mix fixed.pinnedExit avoid (some cap)
        samples.exit = some route.exit := by
  rw [chooseRoute] at h
  split at h
  · cases h
  rename_i entry hentry
  split at h
  · cases h
  rename_i mix hmix
  split at h
  · cases h
  rename_i exit hexit
  obtain rfl := Except.ok.inj h
  exact ⟨hentry, hmix, hexit⟩

/-- The entry, where it is not pinned. -/
theorem pickTwice_entry (hfree : fixed.canonicalPinnedEntry = none) {sample : ℕ}
    {entry : TopologyNode}
    (h : chooseEntry (entriesOf nodes isEntry) (exitsOf nodes) fixed.canonicalPinnedEntry
      fixed.pinnedExit (some cap) sample = some entry) :
    pickTwice (selectableEntries nodes isEntry fixed) (exitsOf nodes)
      (some (cap - probationOf fixed.pinnedExit)) none sample = some entry := by
  rw [hfree] at h
  exact h

/-- The entry is picked from its pool. -/
theorem chooseEntry_eq (sample : ℕ) :
    chooseEntry (entriesOf nodes isEntry) (exitsOf nodes) fixed.canonicalPinnedEntry
        fixed.pinnedExit (some cap) sample =
      pickRandom (entryPool nodes isEntry fixed cap) sample := by
  rw [entryPool]
  cases hpinned : fixed.canonicalPinnedEntry with
  | some pinned =>
    -- a pool of one node, from which every sample picks it
    rw [pickRandom, List.length_singleton, Nat.mod_one]
    rfl
  | none =>
    have htwice := pickTwice_eq (selectableEntries nodes isEntry fixed) (exitsOf nodes)
      (some (cap - probationOf fixed.pinnedExit)) none sample
    simp only
    split_ifs at htwice ⊢ with hempty
    · exact htwice
    · exact htwice

theorem mem_entryPool {sample : ℕ} {entry : TopologyNode}
    (h : chooseEntry (entriesOf nodes isEntry) (exitsOf nodes) fixed.canonicalPinnedEntry
      fixed.pinnedExit (some cap) sample = some entry) :
    entry ∈ entryPool nodes isEntry fixed cap := by
  rw [chooseEntry_eq] at h
  exact mem_of_pickRandom h

/-- Every node of the pool is the entry for some outcome of the pick. -/
theorem exists_sample_of_mem_entryPool {entry : TopologyNode}
    (h : entry ∈ entryPool nodes isEntry fixed cap) :
    ∃ sample, chooseEntry (entriesOf nodes isEntry) (exitsOf nodes) fixed.canonicalPinnedEntry
      fixed.pinnedExit (some cap) sample = some entry := by
  obtain ⟨i, hi, rfl⟩ := List.getElem_of_mem h
  refine ⟨i, ?_⟩
  rw [chooseEntry_eq, pickRandom, Nat.mod_eq_of_lt hi, List.getElem?_eq_getElem hi]

/-- The hops that the caller fixed are those of the route. -/
theorem fixed_of_chooseRoute
    (hvalid : fixed.Valid (entriesOf nodes isEntry) (exitsOf nodes) pinnedEntry selectedExit)
    (h : chooseRoute (entriesOf nodes isEntry) (mixesOf nodes) (exitsOf nodes) fixed avoid
      (some cap) samples = .ok route) :
    (pinnedEntry.map fun _ => route.entry) = fixed.canonicalPinnedEntry ∧
      (selectedExit.map fun _ => route.exit) = fixed.pinnedExit := by
  obtain ⟨hentry, -, hexit⟩ := chooseRoute_ok h
  obtain ⟨canonical, pinnedExit⟩ := fixed
  refine ⟨?_, ?_⟩
  · cases hvalid.entry with
    | free => rfl
    | fixed => exact hentry.symm
  · cases hvalid.exit with
    | free => rfl
    | fixed => exact hexit.symm

/-- The fixed hops that pass the checks keep the cap as far as a settled exit is left. -/
theorem overBudget_of_fixedHops {entries mixes exits : List TopologyNode}
    (h : fixedHops entries mixes exits pinnedEntry selectedExit (some cap) = .ok fixed) :
    fixed.overBudget exits cap = false := by
  rw [fixedHops] at h
  split_ifs at h
  obtain ⟨pinnedExit, -, h⟩ := bind_eq_ok_iff.mp h
  obtain ⟨canonical, -, h⟩ := bind_eq_ok_iff.mp h
  simp only at h
  split_ifs at h with hdistinct hover
  obtain rfl := Except.ok.inj h
  exact Bool.eq_false_iff.mpr hover

theorem selected_of_not_overBudget {exits : List TopologyNode} {exit : TopologyNode}
    (hexit : fixed.pinnedExit = some exit) (h : fixed.overBudget exits cap = false) :
    SettledIfPossible fixed.canonicalPinnedEntry.toList exits cap exit := by
  intro hcap
  rw [probationHops_toList] at hcap
  by_cases hsettled : exit.onProbation = false
  · exact .inl hsettled
  · rw [Bool.not_eq_false] at hsettled
    have hexitHop : probationOf fixed.pinnedExit = 1 := by
      rw [hexit, probationOf, Option.any_some, hsettled, if_pos rfl]
    refine .inr fun node hnode hne => ?_
    by_contra hnode'
    have hover : fixed.overBudget exits cap = true := by
      rw [FixedHops.overBudget, Bool.and_eq_true, Bool.and_eq_true, hexit]
      rw [hexit] at hexitHop
      refine ⟨⟨by simpa using hsettled, by simp only [decide_eq_true_eq]; omega⟩, ?_⟩
      refine List.any_eq_true.mpr ⟨node, hnode, ?_⟩
      rw [Bool.and_eq_true, isNot_iff]
      exact ⟨by simpa using hnode', fun h hh => hne h (Option.mem_toList.mpr hh)⟩
    rw [h] at hover
    cases hover

/-- Where no settled candidate is hidden, the route honours the cap. -/
theorem honoursCap_of_showsSettled
    (hfixed : fixedHops (entriesOf nodes isEntry) (mixesOf nodes) (exitsOf nodes) pinnedEntry
      selectedExit (some cap) = .ok fixed)
    (h : chooseRoute (entriesOf nodes isEntry) (mixesOf nodes) (exitsOf nodes) fixed avoid
      (some cap) samples = .ok route) (hshows : ShowsSettled nodes isEntry fixed cap) :
    HonoursCap nodes pinnedEntry selectedExit isEntry cap route := by
  have hvalid := fixedHops_ok hfixed
  obtain ⟨hentryHop, hexitHop⟩ := fixed_of_chooseRoute hvalid h
  obtain ⟨hentry, hmix, hexit⟩ := chooseRoute_ok h
  refine ⟨fun hselected => ?_, fun hfree hcap => ?_, fun hcap => ?_, fun hfree hcap => ?_⟩
  · obtain ⟨selected, rfl⟩ := Option.isSome_iff_exists.mp hselected
    rw [hentryHop]
    exact selected_of_not_overBudget hexitHop.symm (overBudget_of_fixedHops hfixed)
  -- the entry was drawn with the budget that the fixed hops leave
  · rw [hexitHop] at hcap ⊢
    rw [probationHops_toList] at hcap
    have hcanonical : fixed.canonicalPinnedEntry = none := by
      rw [← hentryHop, hfree]
      rfl
    refine ((hshows.entry hcanonical).settled (by omega)
      (pickTwice_entry hcanonical hentry)).imp_right fun hall node hnode hne => ?_
    exact hall node (List.mem_filter.mpr ⟨hnode, isNot_iff.mpr fun x hx =>
      hne x (Option.mem_toList.mpr hx)⟩)
  -- the mix with what the entry leaves
  · rw [hexitHop] at hcap ⊢
    rw [probationHops_cons, probationHops_toList] at hcap
    refine ((hshows.mix route.entry (mem_entryPool hentry)).settled (by omega)
      hmix).imp_right fun hall node hnode hne => ?_
    refine hall node (List.mem_filter.mpr ⟨hnode, ?_⟩)
    simp only [Bool.and_eq_true, bne_iff_ne, isNot_iff]
    exact ⟨hne _ List.mem_cons_self, fun x hx =>
      hne x (List.mem_cons_of_mem _ (Option.mem_toList.mpr hx))⟩
  -- and the exit last
  · have hpinned : fixed.pinnedExit = none := by
      rw [← hexitHop, hfree]
      rfl
    rw [hpinned] at hexit
    rw [probationHops_cons, probationHops_cons] at hcap
    have hnil : probationHops [] = 0 := rfl
    have hpick : pickRandom (preferNotAvoided (withinProbation ((exitsOf nodes).filter fun n =>
        n.id != route.entry.id && n.id != route.mix.id)
        (some (cap - probationOf (some route.entry) - probationOf (some route.mix)))) avoid)
        samples.exit = some route.exit := hexit
    refine (settled_of_pick (by omega) hpick).imp_right fun hall node hnode hne => ?_
    refine hall node (List.mem_filter.mpr ⟨hnode, ?_⟩)
    simpa using ⟨hne route.entry (by simp), hne route.mix (by simp)⟩

/-- A hop on probation where a settled candidate is left. -/
theorem not_settledIfPossible {before candidates : List TopologyNode} {hop node : TopologyNode}
    (hcap : cap ≤ probationHops before) (hprobation : hop.onProbation = true)
    (hnode : node ∈ candidates) (hne : ∀ h ∈ before, node.id ≠ h.id)
    (hsettled : node.onProbation = false) : ¬ SettledIfPossible before candidates cap hop := by
  intro hpossible
  rcases hpossible hcap with hfalse | hevery
  · rw [hprobation] at hfalse
    cases hfalse
  · have hon := hevery node hnode hne
    rw [hsettled] at hon
    cases hon

/-- A route that honours the cap was drawn where no settled entry is hidden. -/
theorem HonoursCap.entry_shows
    (h : HonoursCap nodes pinnedEntry selectedExit isEntry cap route)
    (hvalid : fixed.Valid (entriesOf nodes isEntry) (exitsOf nodes) pinnedEntry selectedExit)
    (hroute : chooseRoute (entriesOf nodes isEntry) (mixesOf nodes) (exitsOf nodes) fixed avoid
      (some cap) samples = .ok route) (hfree : fixed.canonicalPinnedEntry = none) :
    PoolShowsSettled (selectableEntries nodes isEntry fixed) (exitsOf nodes)
      (cap - probationOf fixed.pinnedExit) := by
  by_contra hhidden
  obtain ⟨hpick, -, -⟩ := chooseRoute_ok hroute
  obtain ⟨hbudget, hprobation, node, hnode, hsettled⟩ :=
    not_settled_of_hidden hhidden (pickTwice_entry hfree hpick)
  obtain ⟨-, hexitHop⟩ := fixed_of_chooseRoute hvalid hroute
  have hentry := h.entry (hvalid.entry.eq_none hfree)
  rw [hexitHop] at hentry
  obtain ⟨hcandidate, hother⟩ := List.mem_filter.mp hnode
  refine not_settledIfPossible ?_ hprobation hcandidate (fun x hx => ?_) hsettled hentry
  · rw [probationHops_toList]
    omega
  · exact isNot_iff.mp hother x (Option.mem_toList.mp hx)

/-- A route that honours the cap was drawn where no settled mix is hidden. -/
theorem HonoursCap.mix_shows
    (h : HonoursCap nodes pinnedEntry selectedExit isEntry cap route)
    (hvalid : fixed.Valid (entriesOf nodes isEntry) (exitsOf nodes) pinnedEntry selectedExit)
    (hroute : chooseRoute (entriesOf nodes isEntry) (mixesOf nodes) (exitsOf nodes) fixed avoid
      (some cap) samples = .ok route) :
    PoolShowsSettled (eligibleMixes nodes fixed route.entry) (exitsOf nodes)
      (cap - (probationOf (some route.entry) + probationOf fixed.pinnedExit)) := by
  by_contra hhidden
  obtain ⟨-, hpick, -⟩ := chooseRoute_ok hroute
  obtain ⟨hbudget, hprobation, node, hnode, hsettled⟩ := not_settled_of_hidden hhidden hpick
  obtain ⟨-, hexitHop⟩ := fixed_of_chooseRoute hvalid hroute
  have hmix := h.mix
  rw [hexitHop] at hmix
  obtain ⟨hcandidate, hother⟩ := List.mem_filter.mp hnode
  simp only [Bool.and_eq_true, bne_iff_ne, isNot_iff] at hother
  refine not_settledIfPossible ?_ hprobation hcandidate (fun x hx => ?_) hsettled hmix
  · rw [probationHops_cons, probationHops_toList]
    omega
  · rcases List.mem_cons.mp hx with rfl | hx
    · exact hother.1
    · exact hother.2 x (Option.mem_toList.mp hx)

/-- The probation cap is honoured by every route `selectRoute` returns, for every outcome of its
picks, exactly if the nodes that are no exits hide no settled candidate of the entry, nor of the
mix next to an entry that can be drawn; where the fixed hops are refused or no route is possible
nothing is returned.

If a settled candidate is hidden, some outcome of the picks takes the probation node that is offered
in its place, so the route it completes breaks the cap. If none is hidden, each pick over the cap
has no settled candidate to prefer (`honoursCap_of_showsSettled`). -/
theorem probation_cap_honoured_iff (nodes : List TopologyNode)
    (pinnedEntry selectedExit : Option TopologyNode) (avoid : Option (List String))
    (isEntry : TopologyNode → Bool) (cap : ℤ) :
    (∀ samples route, selectRoute nodes pinnedEntry selectedExit avoid isEntry (some cap) samples =
      .ok route → HonoursCap nodes pinnedEntry selectedExit isEntry cap route) ↔
    ∀ fixed, fixedHops (entriesOf nodes isEntry) (mixesOf nodes) (exitsOf nodes) pinnedEntry
        selectedExit (some cap) = .ok fixed →
      (∃ route, IsRoute nodes pinnedEntry selectedExit isEntry route) →
      ShowsSettled nodes isEntry fixed cap := by
  constructor
  · rintro hall fixed hfixed ⟨possible, hpossible⟩
    have hvalid := fixedHops_ok hfixed
    -- every outcome of the picks is a route, so a hidden candidate shows in one of them
    have hchosen : ∀ samples, ∃ route, chooseRoute (entriesOf nodes isEntry) (mixesOf nodes)
        (exitsOf nodes) fixed avoid (some cap) samples = .ok route ∧
        HonoursCap nodes pinnedEntry selectedExit isEntry cap route := by
      intro samples
      obtain ⟨route, hroute⟩ := @exists_chooseRoute _ _ _ _ avoid (some cap) _ samples _ hvalid
        hpossible
      refine ⟨route, hroute, hall samples route ?_⟩
      rw [selectRoute, hfixed, ok_bind, hroute]
    constructor
    · intro hfree
      obtain ⟨route, hroute, hhonours⟩ := hchosen ⟨0, 0, 0⟩
      exact hhonours.entry_shows hvalid hroute hfree
    · intro entry hentry
      obtain ⟨sample, hsample⟩ := exists_sample_of_mem_entryPool hentry
      obtain ⟨route, hroute, hhonours⟩ := hchosen ⟨sample, 0, 0⟩
      obtain ⟨hpick, -, -⟩ := chooseRoute_ok hroute
      obtain rfl : route.entry = entry := Option.some.inj (hpick.symm.trans hsample)
      exact hhonours.mix_shows hvalid hroute
  · intro hshows samples route hroute
    have hisRoute := isRoute_of_selectRoute hroute
    obtain ⟨fixed, hfixed, hchoose⟩ := bind_eq_ok_iff.mp hroute
    exact honoursCap_of_showsSettled hfixed hchoose (hshows fixed hfixed ⟨route, hisRoute⟩)

end Main

/-- A relay on probation and three settled exits. -/
def probationSample : List TopologyNode :=
  let node (id : String) (role : ℕ) (probation : Bool) : TopologyNode :=
    ⟨id, "https://node.example", "", [], 0, role, none, some probation⟩
  [node "r" 1 true, node "a" 2 false, node "b" 2 false, node "c" 2 false]

/-- With no hop on probation allowed the relay is the entry, although the exits could serve. -/
theorem not_probation_cap_honoured :
    ¬ ∀ (nodes : List TopologyNode) (pinnedEntry selectedExit : Option TopologyNode)
      (avoid : Option (List String)) (isEntry : TopologyNode → Bool) (cap : ℤ) (samples : Samples)
      (route : Route), (nodes.map TopologyNode.id).Nodup →
      selectRoute nodes pinnedEntry selectedExit avoid isEntry (some cap) samples = .ok route →
      HonoursCap nodes pinnedEntry selectedExit isEntry cap route := by
  intro hall
  have hhonours := hall probationSample none none none (fun _ => true) 0 ⟨0, 0, 0⟩ _ (by decide) rfl
  rcases hhonours.entry rfl (by decide) with hsettled | hevery
  · cases hsettled
  · have hon := hevery ⟨"a", "https://node.example", "", [], 0, 2, none, some false⟩
      (by decide) (by simp)
    cases hon

end NoxSdk.Topology
