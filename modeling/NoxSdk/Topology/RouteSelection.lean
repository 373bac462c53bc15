import NoxSdk.Topology.SelectRoute
import Mathlib.Data.List.Basic

/-!
# Route selection is sound and complete

`IsRoute` says what a route is: three nodes with different IDs, of which the first can be an
entry and the last an exit, and which keep the hops the caller fixed. `selectRoute` returns
only routes and returns one whenever there is one, for every outcome of its random picks:
`selectRoute_sound_complete`.

The picks are greedy, and completeness rests on the order of preference. A hop that is no
possible exit is taken as long as there is one (`PrefersNoExit`); so when an exit was taken for
an earlier hop, every node that was left for that hop is an exit, and three nodes with
different IDs leave one of them for the last hop. Probation and the avoid set only narrow a
list of candidates that stays nonempty.
-/

namespace NoxSdk.Topology

/-! ### Picks -/

section Picks

variable {arr candidates exits : List TopologyNode} {node : TopologyNode} {sample : ℕ}

/-- A pick fails only from nothing. -/
theorem pickRandom_eq_none_iff : pickRandom arr sample = none ↔ arr = [] := by
  rw [pickRandom, List.getElem?_eq_none_iff]
  constructor
  · intro hle
    by_contra hne
    exact absurd (Nat.mod_lt sample (List.length_pos_iff.mpr hne)) (not_lt.mpr hle)
  · rintro rfl
    exact Nat.zero_le _

theorem mem_of_pickRandom (h : pickRandom arr sample = some node) : node ∈ arr :=
  List.mem_of_getElem? h

/-- A filter that leaves something narrows the candidates without emptying them. -/
private theorem filter_narrows {p : TopologyNode → Bool} (h : (candidates.filter p).length > 0) :
    candidates.filter p ⊆ candidates ∧ (candidates.filter p = [] ↔ candidates = []) := by
  have hne : candidates.filter p ≠ [] := List.length_pos_iff.mp h
  refine ⟨List.filter_subset_self _, iff_of_false hne ?_⟩
  rintro rfl
  exact hne rfl

/-- The probation budget narrows the candidates, but never to nothing. -/
theorem withinProbation_spec (candidates : List TopologyNode) (budget : Budget) :
    withinProbation candidates budget ⊆ candidates ∧
      (withinProbation candidates budget = [] ↔ candidates = []) := by
  simp only [withinProbation]
  split_ifs with hbudget hsettled
  · exact ⟨fun _ => id, Iff.rfl⟩
  · exact filter_narrows hsettled
  · exact ⟨fun _ => id, Iff.rfl⟩

/-- The avoid set narrows the candidates, but never to nothing. -/
theorem preferNotAvoided_spec (candidates : List TopologyNode) (avoid : Option (List String)) :
    preferNotAvoided candidates avoid ⊆ candidates ∧
      (preferNotAvoided candidates avoid = [] ↔ candidates = []) := by
  cases avoid with
  | none => exact ⟨fun _ => id, Iff.rfl⟩
  | some ids =>
    simp only [preferNotAvoided]
    split_ifs with hempty hpreferred
    · exact ⟨fun _ => id, Iff.rfl⟩
    · exact filter_narrows hpreferred
    · exact ⟨fun _ => id, Iff.rfl⟩

/-- A choice among `candidates` that prefers nodes that cannot be an exit. -/
structure PrefersNoExit (candidates exits : List TopologyNode) (node : TopologyNode) : Prop where
  mem : node ∈ candidates
  lastResort : (∀ exit ∈ exits, exit.id ≠ node.id) ∨
    ∀ other ∈ candidates, ∃ exit ∈ exits, exit.id = other.id

theorem mem_withoutExits : node ∈ withoutExits candidates exits ↔
    node ∈ candidates ∧ ∀ exit ∈ exits, exit.id ≠ node.id := by
  simp [withoutExits]

/-- Two picks in a row, the first among the candidates that are no exits; `narrow` is what
probation and the avoid set leave. -/
theorem two_picks {narrow : List TopologyNode → List TopologyNode}
    (hnarrow : ∀ l, narrow l ⊆ l ∧ (narrow l = [] ↔ l = [])) :
    (∀ node, (pickRandom (narrow (withoutExits candidates exits)) sample <|>
        pickRandom (narrow candidates) sample) = some node →
      PrefersNoExit candidates exits node) ∧
    ((pickRandom (narrow (withoutExits candidates exits)) sample <|>
        pickRandom (narrow candidates) sample) = none → candidates = []) := by
  cases hfirst : pickRandom (narrow (withoutExits candidates exits)) sample with
  | some first =>
    refine ⟨fun node hnode => ?_, fun hnone => by simp at hnone⟩
    obtain rfl : first = node := by simpa using hnode
    have hmem := mem_withoutExits.mp ((hnarrow _).1 (mem_of_pickRandom hfirst))
    exact ⟨hmem.1, .inl hmem.2⟩
  | none =>
    have hempty := (hnarrow _).2.mp (pickRandom_eq_none_iff.mp hfirst)
    refine ⟨fun node hnode => ?_, fun hnone => ?_⟩
    · have hpick : pickRandom (narrow candidates) sample = some node := by simpa using hnode
      refine ⟨(hnarrow _).1 (mem_of_pickRandom hpick), .inr fun other hother => ?_⟩
      by_contra hno
      push Not at hno
      have hin : other ∈ withoutExits candidates exits := mem_withoutExits.mpr ⟨hother, hno⟩
      simp [hempty] at hin
    · have hpick : pickRandom (narrow candidates) sample = none := by simpa using hnone
      exact (hnarrow _).2.mp (pickRandom_eq_none_iff.mp hpick)

end Picks

/-! ### Routes -/

/-- A route over the nodes that keeps the hops the caller fixed. -/
structure IsRoute (nodes : List TopologyNode) (pinnedEntry selectedExit : Option TopologyNode)
    (isEntry : TopologyNode → Bool) (route : Route) : Prop where
  entry_mem : route.entry ∈ nodes
  mix_mem : route.mix ∈ nodes
  exit_mem : route.exit ∈ nodes
  entry_ne_mix : route.entry.id ≠ route.mix.id
  entry_ne_exit : route.entry.id ≠ route.exit.id
  mix_ne_exit : route.mix.id ≠ route.exit.id
  isEntry : isEntry route.entry = true
  pinnedEntry : ∀ pinned ∈ pinnedEntry, route.entry.id = pinned.id
  exit_role : route.exit.role = 2 ∨ route.exit.role = 3
  selectedExit : ∀ selected ∈ selectedExit, route.exit.id = selected.id

section Candidates

variable {nodes : List TopologyNode} {isEntry : TopologyNode → Bool} {node : TopologyNode}

/-- Every role serves the first two layers. -/
theorem mem_entriesOf : node ∈ entriesOf nodes isEntry ↔ node ∈ nodes ∧ isEntry node = true := by
  have hlayer : 0 ∈ layersForRole node.role := by
    rw [layersForRole]
    split_ifs <;> simp
  simp [entriesOf, hlayer]

theorem mem_mixesOf : node ∈ mixesOf nodes ↔ node ∈ nodes := by
  have hlayer : 1 ∈ layersForRole node.role := by
    rw [layersForRole]
    split_ifs <;> simp
  simp [mixesOf, hlayer]

theorem mem_exitsOf : node ∈ exitsOf nodes ↔ node ∈ nodes ∧ (node.role = 2 ∨ node.role = 3) := by
  have hlayer : node.role = 2 ∨ node.role = 3 → (layersForRole node.role).contains 2 = true := by
    intro hrole
    rw [layersForRole, if_neg (by omega)]
    rfl
  simp only [exitsOf, List.mem_filter, Bool.and_eq_true, Bool.or_eq_true, beq_iff_eq]
  constructor
  · rintro ⟨hmem, -, hrole⟩
    exact ⟨hmem, hrole⟩
  · rintro ⟨hmem, hrole⟩
    exact ⟨hmem, hlayer hrole, hrole⟩

theorem isNot_iff {hop : Option TopologyNode} :
    isNot hop node = true ↔ ∀ h ∈ hop, node.id ≠ h.id := by
  cases hop with
  | none => simp [isNot]
  | some h =>
    simp only [isNot, Option.any_some, Option.mem_def, Option.some_inj, forall_eq',
      Bool.not_eq_true', beq_eq_false_iff_ne]
    exact ne_comm

end Candidates

/-! ### Fixed hops -/

/-- A hop the caller fixed, or left free, and its node among the candidates. -/
inductive Resolves (candidates : List TopologyNode) :
    Option TopologyNode → Option TopologyNode → Prop
  | free : Resolves candidates none none
  | fixed {hop node : TopologyNode} : node ∈ candidates → node.id = hop.id →
    Resolves candidates (some hop) (some node)

namespace Resolves

variable {candidates : List TopologyNode} {hop resolved : Option TopologyNode}

theorem mem (h : Resolves candidates hop resolved) : ∀ node ∈ resolved, node ∈ candidates := by
  cases h with
  | free => simp
  | fixed hmem _ => simpa using hmem

/-- A fixed hop is resolved to a node with its id. -/
theorem id_of_mem (h : Resolves candidates hop resolved) :
    ∀ node ∈ resolved, ∀ n ∈ hop, node.id = n.id := by
  cases h with
  | free => simp
  | fixed _ hid => simpa using hid

theorem eq_none (h : Resolves candidates hop resolved) (hnone : resolved = none) : hop = none := by
  cases h with
  | free => rfl
  | fixed => cases hnone

/-- A node with the ID of the fixed hop has the ID of its candidate. -/
theorem id_eq (h : Resolves candidates hop resolved) {other : TopologyNode}
    (hother : ∀ n ∈ hop, other.id = n.id) : ∀ node ∈ resolved, node.id = other.id := by
  cases h with
  | free => simp
  | fixed _ hid => simpa using hid.trans (hother _ rfl).symm

end Resolves

/-- A fixed hop is resolved among the candidates, or refused. -/
theorem fixedHop_ok {candidates : List TopologyNode} {hop resolved : Option TopologyNode}
    {missing : String} (h : fixedHop candidates hop missing = .ok resolved) :
    Resolves candidates hop resolved := by
  cases hop with
  | none =>
    obtain rfl := Except.ok.inj h
    exact .free
  | some hop =>
    rw [fixedHop] at h
    cases hfind : candidates.find? fun candidate => candidate.id == hop.id with
    | none => simp [hfind] at h
    | some node =>
      simp only [hfind] at h
      obtain rfl := Except.ok.inj h
      exact .fixed (List.mem_of_find?_eq_some hfind) (by simpa using List.find?_some hfind)

/-- A fixed hop is resolved when one of the candidates has its id. -/
theorem exists_fixedHop {candidates : List TopologyNode} {hop : Option TopologyNode}
    (missing : String) (h : ∀ n ∈ hop, ∃ node ∈ candidates, node.id = n.id) :
    ∃ resolved, fixedHop candidates hop missing = .ok resolved := by
  cases hop with
  | none => exact ⟨none, rfl⟩
  | some hop =>
    obtain ⟨node, hnode, hid⟩ := h hop rfl
    rw [fixedHop]
    cases hfind : candidates.find? fun candidate => candidate.id == hop.id with
    | none =>
      have hno := List.find?_eq_none.mp hfind node hnode
      simp [hid] at hno
    | some found => exact ⟨some found, rfl⟩

/-- The fixed hops as `selectRoute` keeps them: candidates with the IDs the caller gave, different
from one another. -/
structure FixedHops.Valid (fixed : FixedHops) (entries exits : List TopologyNode)
    (pinnedEntry selectedExit : Option TopologyNode) : Prop where
  entry : Resolves entries pinnedEntry fixed.canonicalPinnedEntry
  exit : Resolves exits selectedExit fixed.pinnedExit
  distinct : ∀ e ∈ fixed.canonicalPinnedEntry, ∀ x ∈ fixed.pinnedExit, x.id ≠ e.id

section Selection

variable {nodes entries mixes exits : List TopologyNode} {isEntry : TopologyNode → Bool}
  {pinnedEntry selectedExit : Option TopologyNode} {avoid : Option (List String)}
  {maxProbation : Budget} {fixed : FixedHops} {samples : Samples}

private theorem any_any_false {a b : Option TopologyNode} :
    ¬ (a.any fun x => b.any fun e => x.id == e.id) = true ↔
      ∀ e ∈ b, ∀ x ∈ a, x.id ≠ e.id := by
  cases a <;> cases b <;> simp

/-- Fixed hops that are resolved are those asked for, no two of them the same node. -/
theorem fixedHops_ok (h : fixedHops entries mixes exits pinnedEntry selectedExit maxProbation
    = .ok fixed) : fixed.Valid entries exits pinnedEntry selectedExit := by
  rw [fixedHops] at h
  split_ifs at h
  obtain ⟨pinnedExit, hexit, h⟩ := bind_eq_ok_iff.mp h
  obtain ⟨canonical, hentry, h⟩ := bind_eq_ok_iff.mp h
  simp only at h
  split at h
  · cases h
  · rename_i hdistinct
    have hfixed : fixed = ⟨canonical, pinnedExit⟩ := by
      split at h
      · exact (Except.ok.inj h).symm
      · split at h
        · cases h
        · exact (Except.ok.inj h).symm
    subst hfixed
    exact ⟨fixedHop_ok hentry, fixedHop_ok hexit, any_any_false.mp hdistinct⟩

/-- The hops that the caller fixed exceed the cap on probation while a settled exit could serve. -/
def OverBudget (nodes : List TopologyNode) (pinnedEntry selectedExit : Option TopologyNode)
    (isEntry : TopologyNode → Bool) (maxProbation : Budget) : Prop :=
  ∃ cap fixed, maxProbation = some cap ∧
    FixedHops.Valid fixed (entriesOf nodes isEntry) (exitsOf nodes) pinnedEntry selectedExit ∧
    fixed.overBudget (exitsOf nodes) cap = true

/-- The checks pass as soon as the fixed hops are candidates, but for the cap on probation. -/
theorem exists_fixedHops (hmixes : mixes ≠ []) {entry exit : TopologyNode}
    (hne : entry.id ≠ exit.id) (hentry : entry ∈ entries ∧ ∀ n ∈ pinnedEntry, entry.id = n.id)
    (hexit : exit ∈ exits ∧ ∀ n ∈ selectedExit, exit.id = n.id)
    (hbudget : ∀ cap fixed, maxProbation = some cap →
      FixedHops.Valid fixed entries exits pinnedEntry selectedExit →
      fixed.overBudget exits cap = false) :
    ∃ fixed, fixedHops entries mixes exits pinnedEntry selectedExit maxProbation = .ok fixed := by
  obtain ⟨pinnedExit, hpinnedExit⟩ := exists_fixedHop
    "Selected exit is not in the verified topology" fun n hn => ⟨exit, hexit.1, hexit.2 n hn⟩
  obtain ⟨canonical, hcanonical⟩ := exists_fixedHop
    "Pinned entry is not in the verified topology" fun n hn => ⟨entry, hentry.1, hentry.2 n hn⟩
  have hdistinct : ¬ (pinnedExit.any fun x => canonical.any fun e => x.id == e.id) = true := by
    rw [any_any_false]
    intro e he x hx hid
    have hx_exit := (fixedHop_ok hpinnedExit).id_eq hexit.2 x hx
    have he_entry := (fixedHop_ok hcanonical).id_eq hentry.2 e he
    exact hne (he_entry.symm.trans (hid.symm.trans hx_exit))
  have hvalid : FixedHops.Valid ⟨canonical, pinnedExit⟩ entries exits pinnedEntry selectedExit :=
    ⟨fixedHop_ok hcanonical, fixedHop_ok hpinnedExit, any_any_false.mp hdistinct⟩
  refine ⟨⟨canonical, pinnedExit⟩, ?_⟩
  rw [fixedHops, if_neg (by simpa using List.ne_nil_of_mem hentry.1),
    if_neg (by simpa using hmixes), if_neg (by simpa using List.ne_nil_of_mem hexit.1),
    hpinnedExit, hcanonical]
  simp only [ok_bind, if_neg hdistinct]
  cases maxProbation with
  | none => rfl
  | some cap => simp only [hbudget cap _ rfl hvalid, Bool.false_eq_true, if_false]

/-! ### The three choices -/

/-- Preferences narrow the candidates without emptying them. -/
theorem narrow_spec (budget : Budget) (avoid : Option (List String)) (l : List TopologyNode) :
    preferNotAvoided (withinProbation l budget) avoid ⊆ l ∧
      (preferNotAvoided (withinProbation l budget) avoid = [] ↔ l = []) := by
  obtain ⟨hsub, hempty⟩ := withinProbation_spec l budget
  obtain ⟨hsub', hempty'⟩ := preferNotAvoided_spec (withinProbation l budget) avoid
  exact ⟨fun _ h => hsub (hsub' h), hempty'.trans hempty⟩

variable {canonical pinnedExit : Option TopologyNode} {entry mix exit : TopologyNode} {sample : ℕ}

/-- An entry that is chosen is the fixed one, or one of those that are not the fixed exit. -/
theorem chooseEntry_eq_some
    (h : chooseEntry entries exits canonical pinnedExit maxProbation sample = some entry) :
    canonical = some entry ∨
      canonical = none ∧ PrefersNoExit (entries.filter (isNot pinnedExit)) exits entry := by
  cases canonical with
  | some pinned => exact .inl h
  | none => exact .inr ⟨rfl, (two_picks fun l => withinProbation_spec l _).1 entry h⟩

theorem chooseEntry_eq_none
    (h : chooseEntry entries exits canonical pinnedExit maxProbation sample = none) :
    canonical = none ∧ entries.filter (isNot pinnedExit) = [] := by
  cases canonical with
  | some pinned => cases h
  | none => exact ⟨rfl, (two_picks fun l => withinProbation_spec l _).2 h⟩

/-- A mix that is chosen is neither the entry nor the fixed exit. -/
theorem chooseMix_eq_some
    (h : chooseMix mixes exits entry pinnedExit avoid maxProbation sample = some mix) :
    PrefersNoExit (mixes.filter fun n => n.id != entry.id && isNot pinnedExit n) exits mix :=
  (two_picks fun l => narrow_spec _ avoid l).1 mix h

theorem chooseMix_eq_none
    (h : chooseMix mixes exits entry pinnedExit avoid maxProbation sample = none) :
    (mixes.filter fun n => n.id != entry.id && isNot pinnedExit n) = [] :=
  (two_picks fun l => narrow_spec _ avoid l).2 h

/-- An exit that is chosen is the fixed one, or neither the entry nor the mix. -/
theorem chooseExit_eq_some
    (h : chooseExit exits entry mix pinnedExit avoid maxProbation sample = some exit) :
    pinnedExit = some exit ∨
      pinnedExit = none ∧ exit ∈ exits ∧ exit.id ≠ entry.id ∧ exit.id ≠ mix.id := by
  cases pinnedExit with
  | some pinned => exact .inl h
  | none =>
    have hmem := (narrow_spec _ avoid _).1 (mem_of_pickRandom h)
    exact .inr ⟨rfl, by simpa using hmem⟩

theorem chooseExit_eq_none
    (h : chooseExit exits entry mix pinnedExit avoid maxProbation sample = none) :
    pinnedExit = none ∧ ∀ n ∈ exits, n.id = entry.id ∨ n.id = mix.id := by
  cases pinnedExit with
  | some pinned => cases h
  | none =>
    have hempty := (narrow_spec _ avoid _).2.mp (pickRandom_eq_none_iff.mp h)
    refine ⟨rfl, fun n hn => ?_⟩
    have hno := List.filter_eq_nil_iff.mp hempty n hn
    simp only [Bool.and_eq_true, bne_iff_ne, ne_eq, not_and_or, not_not] at hno
    exact hno

end Selection

/-! ### Soundness and completeness -/

section Main

variable {nodes : List TopologyNode} {isEntry : TopologyNode → Bool}
  {pinnedEntry selectedExit : Option TopologyNode} {avoid : Option (List String)}
  {maxProbation : Budget} {fixed : FixedHops} {samples : Samples} {route : Route}

/-- What `chooseRoute` returns is a route, whatever the probation budget. -/
theorem isRoute_of_chooseRoute
    (hvalid : fixed.Valid (entriesOf nodes isEntry) (exitsOf nodes) pinnedEntry selectedExit)
    (h : chooseRoute (entriesOf nodes isEntry) (mixesOf nodes) (exitsOf nodes) fixed avoid
      maxProbation samples = .ok route) : IsRoute nodes pinnedEntry selectedExit isEntry route := by
  rw [chooseRoute] at h
  split at h
  · cases h
  rename_i entry hentry
  split at h
  · cases h
  rename_i mix hmix
  split at h
  · cases h
  rename_i exit hexit
  obtain rfl := Except.ok.inj h
  have hmix_mem := (chooseMix_eq_some hmix).mem
  simp only [List.mem_filter, mem_mixesOf, Bool.and_eq_true, bne_iff_ne, isNot_iff] at hmix_mem
  obtain ⟨hmix_nodes, hmix_entry, hmix_exit⟩ := hmix_mem
  -- the entry, chosen or pinned, is an entry node other than the selected exit
  have hentry_spec : entry ∈ entriesOf nodes isEntry ∧ (∀ n ∈ pinnedEntry, entry.id = n.id) ∧
      ∀ x ∈ fixed.pinnedExit, entry.id ≠ x.id := by
    rcases chooseEntry_eq_some hentry with hpinned | ⟨hfree, hchosen⟩
    · exact ⟨hvalid.entry.mem entry hpinned, hvalid.entry.id_of_mem entry hpinned,
        fun x hx => (hvalid.distinct entry hpinned x hx).symm⟩
    · have hmem := List.mem_filter.mp hchosen.mem
      refine ⟨hmem.1, fun n hn => ?_, isNot_iff.mp hmem.2⟩
      have hnone := hvalid.entry.eq_none hfree
      simp [hnone] at hn
  obtain ⟨hentry_mem, hentry_pinned, hentry_exit⟩ := hentry_spec
  have hexit_spec : exit ∈ exitsOf nodes ∧ (∀ n ∈ selectedExit, exit.id = n.id) ∧
      exit.id ≠ entry.id ∧ exit.id ≠ mix.id := by
    rcases chooseExit_eq_some hexit with hpinned | ⟨hfree, hmem, hdistinct⟩
    · exact ⟨hvalid.exit.mem exit hpinned, hvalid.exit.id_of_mem exit hpinned,
        (hentry_exit exit hpinned).symm, (hmix_exit exit hpinned).symm⟩
    · refine ⟨hmem, fun n hn => ?_, hdistinct⟩
      have hnone := hvalid.exit.eq_none hfree
      simp [hnone] at hn
  obtain ⟨hexit_mem, hexit_selected, hexit_entry, hexit_mix⟩ := hexit_spec
  exact {
    entry_mem := (mem_entriesOf.mp hentry_mem).1
    mix_mem := hmix_nodes
    exit_mem := (mem_exitsOf.mp hexit_mem).1
    entry_ne_mix := hmix_entry.symm
    entry_ne_exit := hexit_entry.symm
    mix_ne_exit := hexit_mix.symm
    isEntry := (mem_entriesOf.mp hentry_mem).2
    pinnedEntry := hentry_pinned
    exit_role := (mem_exitsOf.mp hexit_mem).2
    selectedExit := hexit_selected }

/-- One of the three nodes of a route has neither of two IDs. -/
theorem IsRoute.exists_third (hroute : IsRoute nodes pinnedEntry selectedExit isEntry route)
    (a b : String) : ∃ node ∈ nodes, node.id ≠ a ∧ node.id ≠ b := by
  have hem := hroute.entry_ne_mix
  have hex := hroute.entry_ne_exit
  have hmx := hroute.mix_ne_exit
  by_cases hentry : route.entry.id ≠ a ∧ route.entry.id ≠ b
  · exact ⟨_, hroute.entry_mem, hentry⟩
  by_cases hmix : route.mix.id ≠ a ∧ route.mix.id ≠ b
  · exact ⟨_, hroute.mix_mem, hmix⟩
  · refine ⟨_, hroute.exit_mem, ?_⟩
    grind

/-- Greedy picks leave an exit: with no exit selected, a route and preferred picks of the entry
and the mix, some exit is neither of the two. -/
theorem IsRoute.exists_exit (hroute : IsRoute nodes pinnedEntry selectedExit isEntry route)
    {entry mix : TopologyNode} (hentry : entry.id = route.entry.id ∨
      PrefersNoExit (entriesOf nodes isEntry) (exitsOf nodes) entry)
    (hmix : PrefersNoExit ((mixesOf nodes).filter fun n => n.id != entry.id) (exitsOf nodes) mix) :
    ∃ exit ∈ exitsOf nodes, exit.id ≠ entry.id ∧ exit.id ≠ mix.id := by
  have hexit_mem : route.exit ∈ exitsOf nodes :=
    mem_exitsOf.mpr ⟨hroute.exit_mem, hroute.exit_role⟩
  rcases hmix.lastResort with hmix_no | hmix_all
  · -- the mix is no exit, so the exit of the route is free unless the entry took it
    by_cases htaken : route.exit.id = entry.id
    · rcases hentry with hid | hpref
      · exact absurd (htaken.trans hid).symm hroute.entry_ne_exit
      rcases hpref.lastResort with hentry_no | hentry_all
      · exact absurd htaken (hentry_no _ hexit_mem)
      · obtain ⟨exit, hexit, hid⟩ :=
          hentry_all _ (mem_entriesOf.mpr ⟨hroute.entry_mem, hroute.isEntry⟩)
        refine ⟨exit, hexit, ?_, hmix_no exit hexit⟩
        rw [hid, ← htaken]
        exact hroute.entry_ne_exit
    · exact ⟨route.exit, hexit_mem, htaken, hmix_no _ hexit_mem⟩
  · -- every node but the entry is an exit, and there are three nodes
    obtain ⟨node, hnode, hne_entry, hne_mix⟩ := hroute.exists_third entry.id mix.id
    obtain ⟨exit, hexit, hid⟩ := hmix_all node
      (List.mem_filter.mpr ⟨mem_mixesOf.mpr hnode, by simpa using hne_entry⟩)
    exact ⟨exit, hexit, by rwa [hid], by rwa [hid]⟩

/-- With a route among the nodes no pick fails, whatever the probation budget. -/
theorem exists_chooseRoute
    (hvalid : fixed.Valid (entriesOf nodes isEntry) (exitsOf nodes) pinnedEntry selectedExit)
    (hroute : IsRoute nodes pinnedEntry selectedExit isEntry route) :
    ∃ chosen, chooseRoute (entriesOf nodes isEntry) (mixesOf nodes) (exitsOf nodes) fixed avoid
      maxProbation samples = .ok chosen := by
  have hexit_id := hvalid.exit.id_eq hroute.selectedExit
  rw [chooseRoute]
  split
  · -- the entry of the route could have been picked
    rename_i hnone
    obtain ⟨-, hempty⟩ := chooseEntry_eq_none hnone
    refine absurd ?_ (List.filter_eq_nil_iff.mp hempty route.entry
      (mem_entriesOf.mpr ⟨hroute.entry_mem, hroute.isEntry⟩))
    exact isNot_iff.mpr fun x hx => by rw [hexit_id x hx]; exact hroute.entry_ne_exit
  rename_i entry hentry
  split
  · -- a third node could have been picked
    rename_i hnone
    obtain ⟨node, hnode, hne_entry, hne_exit⟩ := hroute.exists_third entry.id route.exit.id
    have hno := List.filter_eq_nil_iff.mp (chooseMix_eq_none hnone) node (mem_mixesOf.mpr hnode)
    refine absurd ?_ hno
    simp only [Bool.and_eq_true, bne_iff_ne, isNot_iff]
    exact ⟨hne_entry, fun x hx => by rwa [hexit_id x hx]⟩
  rename_i mix hmix
  split
  · rename_i hnone
    obtain ⟨hfree, hall⟩ := chooseExit_eq_none hnone
    have hmix_pref := chooseMix_eq_some hmix
    have hentry_pref := chooseEntry_eq_some hentry
    have hisNot : isNot none = fun _ => true := rfl
    simp only [hfree, hisNot, Bool.and_true, List.filter_true] at hmix_pref hentry_pref
    obtain ⟨exit, hexit, hne_entry, hne_mix⟩ := hroute.exists_exit
      (hentry_pref.imp (hvalid.entry.id_eq hroute.pinnedEntry entry) And.right) hmix_pref
    exact absurd (hall exit hexit) (not_or.mpr ⟨hne_entry, hne_mix⟩)
  · exact ⟨_, rfl⟩

/-- Whatever the probation cap, `selectRoute` returns nothing but routes. -/
theorem isRoute_of_selectRoute (h : selectRoute nodes pinnedEntry selectedExit avoid isEntry
    maxProbation samples = .ok route) : IsRoute nodes pinnedEntry selectedExit isEntry route := by
  obtain ⟨fixed, hfixed, h⟩ := bind_eq_ok_iff.mp h
  exact isRoute_of_chooseRoute (fixedHops_ok hfixed) h

/-- `selectRoute` finds a route when there is one, but for the cap on probation. -/
theorem exists_selectRoute (hroute : IsRoute nodes pinnedEntry selectedExit isEntry route)
    (hbudget : ¬ OverBudget nodes pinnedEntry selectedExit isEntry maxProbation) :
    ∃ chosen, selectRoute nodes pinnedEntry selectedExit avoid isEntry maxProbation samples
      = .ok chosen := by
  have hentry : route.entry ∈ entriesOf nodes isEntry :=
    mem_entriesOf.mpr ⟨hroute.entry_mem, hroute.isEntry⟩
  have hexit : route.exit ∈ exitsOf nodes :=
    mem_exitsOf.mpr ⟨hroute.exit_mem, hroute.exit_role⟩
  obtain ⟨fixed, hfixed⟩ := exists_fixedHops
    (List.ne_nil_of_mem (mem_mixesOf.mpr hroute.mix_mem)) hroute.entry_ne_exit
    ⟨hentry, hroute.pinnedEntry⟩ ⟨hexit, hroute.selectedExit⟩ (fun cap fixed hcap hvalid =>
      Bool.eq_false_iff.mpr fun hover => hbudget ⟨cap, fixed, hcap, hvalid, hover⟩)
  obtain ⟨chosen, hchosen⟩ := @exists_chooseRoute _ _ _ _ avoid maxProbation _ samples _
    (fixedHops_ok hfixed) hroute
  refine ⟨chosen, ?_⟩
  rw [selectRoute, hfixed, ok_bind, hchosen]

/-- Without a cap on probation, `selectRoute` returns only routes, and throws exactly when there is
none.

A returned route has passed all checks of a route (`isRoute_of_selectRoute`). Conversely a route
among the nodes leaves a candidate for every pick that the code makes, whatever was picked before
(`exists_selectRoute`); only a cap on probation could still refuse the exit. -/
theorem selectRoute_sound_complete (nodes : List TopologyNode)
    (pinnedEntry selectedExit : Option TopologyNode) (avoid : Option (List String))
    (isEntry : TopologyNode → Bool) (samples : Samples) :
    (∀ route, selectRoute nodes pinnedEntry selectedExit avoid isEntry none samples = .ok route →
      IsRoute nodes pinnedEntry selectedExit isEntry route) ∧
    ((∃ error, selectRoute nodes pinnedEntry selectedExit avoid isEntry none samples
        = .error error) ↔
      ¬ ∃ route, IsRoute nodes pinnedEntry selectedExit isEntry route) := by
  refine ⟨fun route => isRoute_of_selectRoute, ?_⟩
  constructor
  · rintro ⟨error, herror⟩ ⟨route, hroute⟩
    have hbudget : ¬ OverBudget nodes pinnedEntry selectedExit isEntry none := by
      rintro ⟨cap, fixed, hcap, -⟩
      cases hcap
    obtain ⟨chosen, hchosen⟩ := @exists_selectRoute _ _ _ _ avoid _ samples _ hroute hbudget
    rw [hchosen] at herror
    cases herror
  · intro hno
    cases hselect : selectRoute nodes pinnedEntry selectedExit avoid isEntry none samples with
    | error error => exact ⟨error, rfl⟩
    | ok route => exact absurd ⟨route, isRoute_of_selectRoute hselect⟩ hno

/-- A node with the role, one of three nodes of a network with a single exit. -/
private def sampleNode (id : String) (role : ℕ) : TopologyNode :=
  ⟨id, "https://node.example", "", [], 0, role, none, none⟩

/-- The only exit is listed first, and no sample makes it the entry or the mix. -/
theorem selectRoute_sound_complete_one_exit :
    selectRoute [sampleNode "exit" 3, sampleNode "a" 1, sampleNode "b" 1] none none none
      (fun _ => true) none ⟨2, 5, 0⟩ =
      .ok ⟨sampleNode "a" 1, sampleNode "b" 1, sampleNode "exit" 3⟩ ∧
    IsRoute [sampleNode "exit" 3, sampleNode "a" 1, sampleNode "b" 1] none none (fun _ => true)
      ⟨sampleNode "a" 1, sampleNode "b" 1, sampleNode "exit" 3⟩ :=
  ⟨rfl, (selectRoute_sound_complete [sampleNode "exit" 3, sampleNode "a" 1, sampleNode "b" 1] none
    none none (fun _ => true) ⟨2, 5, 0⟩).1 _ rfl⟩

end Main

end NoxSdk.Topology
