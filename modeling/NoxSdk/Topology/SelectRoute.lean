import NoxSdk.Types
import Mathlib.Algebra.Order.Group.Int

/-!
# Route selection

`selectRoute` picks an entry, a mix and an exit, in this order and at random. A random pick is
an index computed from a sample; the sample of each hop is an argument, so that every
outcome of the picks is an instance. A second pick of one hop is made only when the first had no
candidates and drew nothing, so one sample a hop suffices.

A probation budget is an integer or unbounded (`none`).
-/

namespace NoxSdk.Topology

/-- `TopologyNode`. -/
structure TopologyNode where
  id : String
  address : String
  routingAddress : String
  publicKey : Bytes
  layer : ℕ
  role : ℕ
  capabilities : Option (List String)
  probation : Option Bool
  deriving DecidableEq

/-- `Route`. -/
structure Route where
  entry : TopologyNode
  mix : TopologyNode
  exit : TopologyNode
  deriving DecidableEq

/-- `layersForRole`. -/
def layersForRole (role : ℕ) : List ℕ := if role = 1 then [0, 1] else [0, 1, 2]

/-- `node.probation === true`. -/
def TopologyNode.onProbation (node : TopologyNode) : Bool := node.probation == some true

/-- A number of hops on probation; `none` is `Infinity`. -/
abbrev Budget := Option ℤ

/-- What is left of a budget. -/
def Budget.minus (budget : Budget) (used : ℤ) : Budget := budget.map (· - used)

/-- `1` for a hop on probation, `0` for another one or none. -/
def probationOf (hop : Option TopologyNode) : ℤ := if hop.any TopologyNode.onProbation then 1 else 0

/-- `withinProbation`. -/
def withinProbation (candidates : List TopologyNode) (budget : Budget) : List TopologyNode :=
  if budget.all (fun left => decide (left > 0)) then candidates
  else
    let settled := candidates.filter fun node => !node.onProbation
    if settled.length > 0 then settled else candidates

/-- `preferNotAvoided`; the set of node IDs is the list of its members. -/
def preferNotAvoided (candidates : List TopologyNode) (avoid : Option (List String)) :
    List TopologyNode :=
  match avoid with
  | none => candidates
  | some ids =>
    if ids.length = 0 then candidates
    else
      let preferred := candidates.filter fun node => !ids.contains node.id
      if preferred.length > 0 then preferred else candidates

/-- `pickRandom`, with the accepted sample of `secureRandomIndex`. -/
def pickRandom (arr : List TopologyNode) (sample : ℕ) : Option TopologyNode :=
  arr[sample % arr.length]?

/-- An error of `selectRoute`. -/
def noNodes (message : String) : Thrown := .noxClientError message .noNodesAvailable

/-! ### The candidates of each hop -/

/-- The nodes that can be the entry. -/
def entriesOf (nodes : List TopologyNode) (isEntry : TopologyNode → Bool) : List TopologyNode :=
  nodes.filter fun node => (layersForRole node.role).contains 0 && isEntry node

/-- The nodes that can be the mix. -/
def mixesOf (nodes : List TopologyNode) : List TopologyNode :=
  nodes.filter fun node => (layersForRole node.role).contains 1

/-- The nodes that can be the exit. -/
def exitsOf (nodes : List TopologyNode) : List TopologyNode :=
  nodes.filter fun node =>
    (layersForRole node.role).contains 2 && (node.role == 2 || node.role == 3)

/-- The nodes without those that can be an exit. -/
def withoutExits (candidates exits : List TopologyNode) : List TopologyNode :=
  candidates.filter fun node => !exits.any fun exit => exit.id == node.id

/-- `node.id !== hop?.id`. -/
def isNot (hop : Option TopologyNode) (node : TopologyNode) : Bool :=
  !(hop.any fun h => h.id == node.id)

/-- A fixed hop, looked up among the candidates by its ID. -/
def fixedHop (candidates : List TopologyNode) (hop : Option TopologyNode) (missing : String) :
    Except Thrown (Option TopologyNode) :=
  match hop with
  | none => .ok none
  | some h =>
    match candidates.find? fun candidate => candidate.id == h.id with
    | none => .error (noNodes missing)
    | some candidate => .ok (some candidate)

/-- The choice of the entry. -/
def chooseEntry (entries exits : List TopologyNode) (canonicalPinnedEntry pinnedExit :
    Option TopologyNode) (maxProbation : Budget) (sample : ℕ) : Option TopologyNode :=
  let selectableEntries := entries.filter (isNot pinnedExit)
  let entryOnly := withoutExits selectableEntries exits
  let entryBudget := maxProbation.minus (probationOf pinnedExit)
  canonicalPinnedEntry <|> pickRandom (withinProbation entryOnly entryBudget) sample <|>
    pickRandom (withinProbation selectableEntries entryBudget) sample

/-- The choice of the mix. -/
def chooseMix (mixes exits : List TopologyNode) (entry : TopologyNode)
    (pinnedExit : Option TopologyNode) (avoid : Option (List String)) (maxProbation : Budget)
    (sample : ℕ) : Option TopologyNode :=
  let eligibleMixes := mixes.filter fun n => n.id != entry.id && isNot pinnedExit n
  let mixOnly := withoutExits eligibleMixes exits
  let mixBudget := maxProbation.minus (probationOf (some entry) + probationOf pinnedExit)
  pickRandom (preferNotAvoided (withinProbation mixOnly mixBudget) avoid) sample <|>
    pickRandom (preferNotAvoided (withinProbation eligibleMixes mixBudget) avoid) sample

/-- The choice of the exit. -/
def chooseExit (exits : List TopologyNode) (entry mix : TopologyNode)
    (pinnedExit : Option TopologyNode) (avoid : Option (List String)) (maxProbation : Budget)
    (sample : ℕ) : Option TopologyNode :=
  let eligibleExits := exits.filter fun n => n.id != entry.id && n.id != mix.id
  let exitBudget := (maxProbation.minus (probationOf (some entry))).minus (probationOf (some mix))
  pinnedExit <|>
    pickRandom (preferNotAvoided (withinProbation eligibleExits exitBudget) avoid) sample

/-- The samples of the three picks. -/
structure Samples where
  entry : ℕ
  mix : ℕ
  exit : ℕ

/-- The hops the caller fixed, in the lists of candidates: the pinned entry and the selected
exit. -/
structure FixedHops where
  canonicalPinnedEntry : Option TopologyNode
  pinnedExit : Option TopologyNode

/-- The fixed hops exceed the probation budget while a settled exit could serve. -/
def FixedHops.overBudget (fixed : FixedHops) (exits : List TopologyNode) (cap : ℤ) : Bool :=
  fixed.pinnedExit.any TopologyNode.onProbation &&
    decide (probationOf fixed.canonicalPinnedEntry + probationOf fixed.pinnedExit > cap) &&
    exits.any fun node => !node.onProbation && isNot fixed.canonicalPinnedEntry node

/-- `selectRoute` up to the first pick: the checks of the candidates and of the fixed hops. -/
def fixedHops (entries mixes exits : List TopologyNode) (pinnedEntry selectedExit :
    Option TopologyNode) (maxProbation : Budget) : Except Thrown FixedHops :=
  if entries.length = 0 then .error (noNodes "No entry nodes available")
  else if mixes.length = 0 then .error (noNodes "No mix nodes available")
  else if exits.length = 0 then .error (noNodes "No exit nodes available")
  else do
    let pinnedExit ← fixedHop exits selectedExit "Selected exit is not in the verified topology"
    let canonicalPinnedEntry ←
      fixedHop entries pinnedEntry "Pinned entry is not in the verified topology"
    let fixed : FixedHops := ⟨canonicalPinnedEntry, pinnedExit⟩
    if pinnedExit.any fun exit => canonicalPinnedEntry.any fun entry => exit.id == entry.id then
      .error (noNodes "Selected exit cannot also be the pinned entry")
    else match maxProbation with
      | none => .ok fixed
      | some cap =>
        if fixed.overBudget exits cap then
          let carried := probationOf canonicalPinnedEntry + probationOf pinnedExit - 1
          .error (noNodes
            (s!"Selected exit is on probation and the route already carries {carried} probation " ++
              s!"hop(s); the per-route cap is {cap} and a settled exit is available"))
        else .ok fixed

/-- `selectRoute` from the first pick on. -/
def chooseRoute (entries mixes exits : List TopologyNode) (fixed : FixedHops)
    (avoid : Option (List String)) (maxProbation : Budget) (samples : Samples) :
    Except Thrown Route :=
  match chooseEntry entries exits fixed.canonicalPinnedEntry fixed.pinnedExit maxProbation
      samples.entry with
  | none => .error (noNodes "No distinct entry node is available for the selected exit")
  | some entry =>
    match chooseMix mixes exits entry fixed.pinnedExit avoid maxProbation samples.mix with
    | none => .error (noNodes "No distinct mix node is available for the selected exit")
    | some mix =>
      match chooseExit exits entry mix fixed.pinnedExit avoid maxProbation samples.exit with
      | none => .error (noNodes "No distinct exit node is available")
      | some exit => .ok ⟨entry, mix, exit⟩

/-- `selectRoute`. -/
def selectRoute (nodes : List TopologyNode) (pinnedEntry selectedExit : Option TopologyNode)
    (avoid : Option (List String)) (isEntry : TopologyNode → Bool) (maxProbation : Budget)
    (samples : Samples) : Except Thrown Route := do
  let entries := entriesOf nodes isEntry
  let mixes := mixesOf nodes
  let exits := exitsOf nodes
  let fixed ← fixedHops entries mixes exits pinnedEntry selectedExit maxProbation
  chooseRoute entries mixes exits fixed avoid maxProbation samples

end NoxSdk.Topology
