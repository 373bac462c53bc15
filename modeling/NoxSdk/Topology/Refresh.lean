import NoxSdk.Js
import NoxSdk.Topology.RouteSelection

/-!
# Topology refreshes

`_refreshTopologyOnce` asks one source after another and applies the first topology that passes.
Applying is several assignments and, last, the choice of a new entry, which throws when no node
can be one. A function that may throw after it has assigned returns the client it leaves behind
beside the error it throws.

What a source answers is a parameter, from the fetch to the nodes that remain after every check
of `loadTopology`; so is the URL parser of `hasUsableIngress`. A client in KPS mode leaves
`_refreshTopologyOnce` on its first line and asks no source in turn.
-/

namespace NoxSdk.Topology

/-! ### Clients and answers -/

/-- The fields of a client that a refresh routes by. -/
@[ext]
structure Routing where
  nodes : List TopologyNode
  entryUrl : String
  seedUrl : String
  seedBlock : Option ℕ
  powDifficulty : ℤ
  topologyVerifiedAtMs : ℕ
  deriving DecidableEq

/-- What a refresh reads and writes of a `NoxClient`; `wsEntryUrl` is none without a response
socket. -/
structure Client extends Routing where
  topologyRefreshError : Option Thrown
  wsEntryUrl : Option String
  kps : Bool
  seeds : List String
  dangerouslySkipFingerprintCheck : Bool
  powDifficultyPinned : Bool
  deriving DecidableEq

/-- `LoadedTopology`. -/
structure LoadedTopology where
  seed : String
  blockNumber : Option ℕ
  powDifficulty : Option ℕ
  nodes : List TopologyNode
  deriving DecidableEq

/-- What a source answers, the clock when it does, and the sample of a pick made then. -/
structure Answer where
  topology : Except Thrown LoadedTopology
  now : ℕ
  sample : ℕ

/-- What a refresh depends on beside the client: the answers of the sources by their URL, the
samples of the fallback nodes, and the URL parser. -/
structure Surroundings where
  answer : String → Answer
  fallbackSample : ℕ → ℕ
  hasUsableIngress : String → Bool

/-- `DEFAULTS.powDifficulty`. -/
def defaultPowDifficulty : ℤ := 3

/-- `MAX_ADOPTED_POW_DIFFICULTY`. -/
def maxAdoptedPowDifficulty : ℤ := 16

/-- `NODE_TOPOLOGY_FALLBACKS`. -/
def nodeTopologyFallbacks : ℕ := 3

/-- `DEFAULT_SEED`. -/
def defaultSeed : String := "https://api.hisoka.io/seed"

/-- `seedBaseUrl`. -/
def seedBaseUrl (seed : String) : String :=
  let trimmed := (seed.toList.reverse.dropWhile fun c => c == '/').reverse
  let path := "/topology".toList
  String.ofList (if path.isSuffixOf trimmed then trimmed.take (trimmed.length - path.length)
    else trimmed)

/-- `seedCandidates`. -/
def seedCandidates (userSeeds : List String) (includeDefault : Bool) : List String :=
  Js.unique (userSeeds.map seedBaseUrl ++ if includeDefault then [defaultSeed] else [])

/-- `effectivePowDifficulty`. -/
def effectivePowDifficulty (current : ℤ) (pinned : Bool) (seedDifficulty : Option ℕ) : ℤ :=
  match seedDifficulty with
  | none | some 0 => if pinned then current else defaultPowDifficulty
  | some (n + 1) =>
    let advertised := min ((n + 1 : ℕ) : ℤ) maxAdoptedPowDifficulty
    if pinned then max current advertised else advertised

/-- The end of `loadTopology`. -/
def loadTopology (seed : String) (answer : Answer) : Except Thrown LoadedTopology := do
  let loaded ← answer.topology
  if loaded.nodes.length = 0 then
    throw (noNodes s!"Topology from {seed} returned 0 nodes")
  return { loaded with seed := seed }

/-- `asTopologyLoadError`. -/
def asTopologyLoadError (seed : String) : Thrown → Thrown
  | .noxClientError message code => .noxClientError message code
  | .noxKpsError message _ =>
    .noxClientError s!"Topology from {seed} failed: NoxKpsError: {message}" .topologyFetchFailed
  | .error message =>
    .noxClientError s!"Topology from {seed} failed: Error: {message}" .topologyFetchFailed

/-! ### Applying a topology -/

/-- `preferSettled`. -/
def preferSettled (candidates : List TopologyNode) : List TopologyNode :=
  let settled := candidates.filter fun node => !node.onProbation
  if settled.length > 0 then settled else candidates

/-- `pickEntryUrl`, with the rule of the classic mode. -/
def pickEntryUrl (nodes : List TopologyNode) (hasUsableIngress : String → Bool) (sample : ℕ) :
    Except Thrown String :=
  let capable := entriesOf nodes fun node => hasUsableIngress node.address
  match pickRandom (preferSettled capable) sample with
  | none => .error (noNodes "No layer-0 node has a usable HTTP(S) ingress URL")
  | some node => .ok node.address

/-- What `_setNodes` assigns before it looks for the entry. -/
def assignNodes (client : Client) (nodes : List TopologyNode) (now : ℕ) : Client :=
  { client with
    nodes := nodes
    topologyVerifiedAtMs := if client.dangerouslySkipFingerprintCheck then 0 else now
    topologyRefreshError := none }

/-- `_setNodes`. -/
def setNodes (client : Client) (nodes : List TopologyNode) (world : Surroundings)
    (answer : Answer) : Client × Option Thrown :=
  let client := assignNodes client nodes answer.now
  if nodes.any fun n => n.address == client.entryUrl then (client, none)
  else
    -- what is assigned so far stays when this choice throws
    match pickEntryUrl nodes world.hasUsableIngress answer.sample with
    | .error thrown => (client, some thrown)
    | .ok url => ({ client with
        entryUrl := url
        wsEntryUrl := client.wsEntryUrl.map fun _ => url }, none)

/-- `_applyTopology`. -/
def applyTopology (client : Client) (loaded : LoadedTopology) (world : Surroundings)
    (answer : Answer) : Client × Option Thrown :=
  setNodes { client with
    seedUrl := loaded.seed
    seedBlock := loaded.blockNumber
    powDifficulty := effectivePowDifficulty client.powDifficulty client.powDifficultyPinned
      loaded.powDifficulty } loaded.nodes world answer

/-- The previous nodes that are still members, with the capabilities the last seed reported. -/
def stillMembers (previous members : List TopologyNode) : List TopologyNode :=
  previous.filterMap fun node =>
    -- a `Map` keeps the last node of an ID
    (members.reverse.find? fun member => member.id == node.id).map fun member =>
      if node.capabilities.isNone then member
      else { member with capabilities := node.capabilities }

/-- The checks of `_applyNodeMembership`, which come before any assignment. -/
def checkMembership (client : Client) (loaded : LoadedTopology) : Except Thrown Unit := do
  let before := Thrown.noxClientError
    s!"Topology from {loaded.seed} is pinned before the last seed snapshot"
    .topologyVerificationFailed
  match client.seedBlock, loaded.blockNumber with
  | some seedBlock, some block => if block < seedBlock then throw before
  | _, _ => throw before
  if (stillMembers client.nodes loaded.nodes).length = 0 then
    throw (noNodes s!"Topology from {loaded.seed} left no previously online member")

/-- `_applyNodeMembership`. -/
def applyNodeMembership (client : Client) (loaded : LoadedTopology) (world : Surroundings)
    (answer : Answer) : Client × Option Thrown :=
  match checkMembership client loaded with
  | .error thrown => (client, some thrown)
  | .ok () => setNodes client (stillMembers client.nodes loaded.nodes) world answer

/-! ### The attempts of a refresh -/

/-- The two kinds of source. -/
inductive Use
  | routing
  | membership
  deriving DecidableEq

/-- An attempt: the source asked, the client before it and after it, and the error it failed
with. -/
structure Attempt where
  use : Use
  source : String
  before : Client
  after : Client
  error : Option Thrown
  deriving DecidableEq

/-- One round of the loops of `_refreshTopologyOnce`. -/
def tryNext (world : Surroundings) (use : Use) (source : String) (client : Client) : Attempt :=
  let answer := world.answer source
  let (after, error) :=
    match loadTopology source answer with
    | .error thrown => (client, some thrown)
    | .ok loaded =>
      match use with
      | .routing => applyTopology client loaded world answer
      | .membership => applyNodeMembership client loaded world answer
  { use, source, before := client, after, error := error.map (asTopologyLoadError source) }

/-- The rounds over the sources of one kind, up to the first that does not fail. -/
def tryEach (world : Surroundings) (use : Use) : List String → Client → List Attempt
  | [], _ => []
  | source :: sources, client =>
    let attempt := tryNext world use source client
    attempt :: if attempt.error.isNone then [] else tryEach world use sources attempt.after

/-- The client that attempts leave behind. -/
def leftBy (client : Client) (attempts : List Attempt) : Client :=
  (attempts.getLast?.map Attempt.after).getD client

/-- Some attempt did not fail. -/
def succeeded (attempts : List Attempt) : Bool := attempts.any fun attempt => attempt.error.isNone

/-- The seeds, the last one that worked first. -/
def seedsOf (client : Client) : List String :=
  Js.unique (client.seedUrl :: seedCandidates client.seeds !client.dangerouslySkipFingerprintCheck)

/-- The other addresses that fallbacks are drawn from, without replacement. -/
def drawOthers (sample : ℕ → ℕ) : ℕ → List String → List String
  | 0, _ => []
  | count + 1, others =>
    let index := sample count % others.length
    match others[index]? with
    | none => []
    | some other => other :: drawOthers sample count (others.eraseIdx index)

/-- `_nodeTopologyFallbacks`. -/
def fallbacksOf (client : Client) (seeds : List String) (world : Surroundings) : List String :=
  if client.dangerouslySkipFingerprintCheck then []
  else
    let ingress := Js.unique ((client.nodes.map TopologyNode.address).filter fun address =>
      world.hasUsableIngress address && !seeds.contains address)
    let ordered := if ingress.contains client.entryUrl then [client.entryUrl] else []
    ordered ++ drawOthers world.fallbackSample (nodeTopologyFallbacks - ordered.length)
      (ingress.filter fun address => address != client.entryUrl)

/-- The attempts of `_refreshTopologyOnce`, in their order. -/
def refreshAttempts (client : Client) (world : Surroundings) : List Attempt :=
  if client.kps then []
  else
    let seeds := seedsOf client
    let ofSeeds := tryEach world .routing seeds client
    if succeeded ofSeeds then ofSeeds
    else
      let client := leftBy client ofSeeds
      ofSeeds ++ tryEach world .membership (fallbacksOf client seeds world) client

/-- `_refreshTopologyOnce`; a client in KPS mode is left to its own refresh. -/
def refreshTopologyOnce (client : Client) (world : Surroundings)
    (refreshKpsTopology : Client → Client) : Client :=
  if client.kps then refreshKpsTopology client
  else
    let attempts := refreshAttempts client world
    let last := leftBy client attempts
    if succeeded attempts then last
    else
      let firstError := attempts.findSome? Attempt.error
      { last with topologyRefreshError := some (firstError.getD
        (.noxClientError "Topology refresh found no reachable seed" .topologyFetchFailed)) }

/-! ### When an attempt that fails has changed nothing -/

/-- The nodes a source's topology would leave the client with. -/
def nodesAfter (use : Use) (client : Client) (loaded : LoadedTopology) : List TopologyNode :=
  match use with
  | .routing => loaded.nodes
  | .membership => stillMembers client.nodes loaded.nodes

/-- The client with the current entry or some node that can be one among the nodes. -/
def Enterable (world : Surroundings) (client : Client) (nodes : List TopologyNode) : Prop :=
  (∃ node ∈ nodes, node.address = client.entryUrl) ∨
    ∃ node ∈ nodes, world.hasUsableIngress node.address = true

/-- Every field that a topology sets before the entry has the value already. -/
structure AlreadyApplied (use : Use) (client : Client) (loaded : LoadedTopology)
    (answer : Answer) : Prop where
  nodes : nodesAfter use client loaded = client.nodes
  time : (if client.dangerouslySkipFingerprintCheck then 0 else answer.now) =
    client.topologyVerifiedAtMs
  seed : use = .routing → loaded.seed = client.seedUrl ∧ loaded.blockNumber = client.seedBlock ∧
    effectivePowDifficulty client.powDifficulty client.powDifficultyPinned loaded.powDifficulty =
      client.powDifficulty

/-- A topology that the checks let through has the current entry or a node that can be one, or
brings nothing new. -/
def Harmless (world : Surroundings) (use : Use) (source : String) (client : Client) : Prop :=
  ∀ loaded, loadTopology source (world.answer source) = .ok loaded →
    (use = .membership → checkMembership client loaded = .ok ()) →
    Enterable world client (nodesAfter use client loaded) ∨
      AlreadyApplied use client loaded (world.answer source)

section Lemmas

variable {world : Surroundings} {client : Client} {nodes : List TopologyNode} {answer : Answer}
  {loaded : LoadedTopology} {use : Use} {source : String} {sources : List String}
  {attempt : Attempt} {isEntry : TopologyNode → Bool}

theorem preferSettled_eq_nil_iff : preferSettled nodes = [] ↔ nodes = [] := by
  rw [preferSettled]
  split_ifs with hsettled
  · refine ⟨fun h => ?_, fun h => by simp [h]⟩
    simp [h] at hsettled
  · rfl

/-- An entry is found exactly when some node has a usable ingress. -/
theorem exists_pickEntryUrl_iff {hasUsableIngress : String → Bool} {sample : ℕ} :
    (∃ url, pickEntryUrl nodes hasUsableIngress sample = .ok url) ↔
      ∃ node ∈ nodes, hasUsableIngress node.address = true := by
  have hnone : pickRandom (preferSettled (entriesOf nodes fun node =>
      hasUsableIngress node.address)) sample = none ↔
      ¬ ∃ node ∈ nodes, hasUsableIngress node.address = true := by
    rw [pickRandom_eq_none_iff, preferSettled_eq_nil_iff, List.eq_nil_iff_forall_not_mem]
    simp [mem_entriesOf]
  rw [pickEntryUrl]
  cases hpick : pickRandom (preferSettled (entriesOf nodes fun node =>
      hasUsableIngress node.address)) sample with
  | none => simpa using hnone.mp hpick
  | some node =>
    refine ⟨fun _ => ?_, fun _ => ⟨_, rfl⟩⟩
    by_contra hno
    simp [hnone.mpr hno] at hpick

/-- `_setNodes` does not throw when an entry is kept or found. -/
theorem setNodes_error_eq_none (h : Enterable world client nodes) :
    (setNodes client nodes world answer).2 = none := by
  simp only [setNodes]
  by_cases hpresent : (nodes.any fun n => n.address == client.entryUrl) = true
  · rw [if_pos (by exact hpresent)]
  · obtain ⟨node, hnode, haddress⟩ | hcapable := h
    · exact absurd (List.any_eq_true.mpr ⟨node, hnode, by simpa using haddress⟩) hpresent
    · obtain ⟨url, hurl⟩ := exists_pickEntryUrl_iff.mpr hcapable
      rw [if_neg (by exact hpresent), hurl]

/-- Without an entry `_setNodes` throws, with every other field assigned. -/
theorem setNodes_of_not_enterable (h : ¬ Enterable world client nodes) :
    (setNodes client nodes world answer).1 = assignNodes client nodes answer.now ∧
      (setNodes client nodes world answer).2 ≠ none := by
  rw [Enterable, not_or] at h
  obtain ⟨habsent, hincapable⟩ := h
  have hpresent : ¬ (nodes.any fun n => n.address == client.entryUrl) = true := by
    simpa using habsent
  simp only [setNodes]
  rw [if_neg (by exact hpresent)]
  cases hpick : pickEntryUrl nodes world.hasUsableIngress answer.sample with
  | error thrown => exact ⟨rfl, by simp⟩
  | ok url => exact absurd (exists_pickEntryUrl_iff.mp ⟨url, hpick⟩) hincapable

/-- An attempt leaves the client as it is or has a topology that passes the checks. -/
theorem tryNext_cases : (tryNext world use source client).after = client ∨
    ∃ loaded, loadTopology source (world.answer source) = .ok loaded ∧
      (use = .membership → checkMembership client loaded = .ok ()) := by
  cases hload : loadTopology source (world.answer source) with
  | error thrown => exact .inl (by simp only [tryNext, hload])
  | ok loaded =>
    cases use with
    | routing => exact .inr ⟨loaded, rfl, fun huse => by cases huse⟩
    | membership =>
      cases hcheck : checkMembership client loaded with
      | error thrown => exact .inl (by simp only [tryNext, hload, applyNodeMembership, hcheck])
      | ok value => exact .inr ⟨loaded, rfl, fun _ => hcheck⟩

/-- What a topology assigns before the entry is chosen. -/
def assignTopology (use : Use) (client : Client) (loaded : LoadedTopology) (answer : Answer) :
    Client :=
  match use with
  | .routing => assignNodes { client with
      seedUrl := loaded.seed
      seedBlock := loaded.blockNumber
      powDifficulty := effectivePowDifficulty client.powDifficulty client.powDifficultyPinned
        loaded.powDifficulty } loaded.nodes answer.now
  | .membership => assignNodes client (stillMembers client.nodes loaded.nodes) answer.now

theorem assignTopology_toRouting_eq_iff :
    (assignTopology use client loaded answer).toRouting = client.toRouting ↔
      AlreadyApplied use client loaded answer := by
  cases use with
  | routing =>
    constructor
    · intro h
      rw [Routing.ext_iff] at h
      exact ⟨h.1, h.2.2.2.2.2, fun _ => ⟨h.2.2.1, h.2.2.2.1, h.2.2.2.2.1⟩⟩
    · intro h
      obtain ⟨hseed, hblock, hpow⟩ := h.seed rfl
      exact Routing.ext h.nodes rfl hseed hblock hpow h.time
  | membership =>
    constructor
    · intro h
      rw [Routing.ext_iff] at h
      exact ⟨h.1, h.2.2.2.2.2, fun huse => by cases huse⟩
    · intro h
      exact Routing.ext h.nodes rfl rfl rfl rfl h.time

/-- An attempt with a topology that passes the checks ends in `_setNodes`. -/
theorem tryNext_eq_setNodes (hload : loadTopology source (world.answer source) = .ok loaded)
    (hcheck : use = .membership → checkMembership client loaded = .ok ()) :
    ∃ base : Client, base.entryUrl = client.entryUrl ∧
      assignTopology use client loaded (world.answer source) =
        assignNodes base (nodesAfter use client loaded) (world.answer source).now ∧
      (tryNext world use source client).after =
        (setNodes base (nodesAfter use client loaded) world (world.answer source)).1 ∧
      (tryNext world use source client).error =
        (setNodes base (nodesAfter use client loaded) world (world.answer source)).2.map
          (asTopologyLoadError source) := by
  cases use with
  | routing =>
    simp only [tryNext, hload, applyTopology, nodesAfter]
    refine ⟨{ client with
      seedUrl := loaded.seed
      seedBlock := loaded.blockNumber
      powDifficulty := effectivePowDifficulty client.powDifficulty client.powDifficultyPinned
        loaded.powDifficulty }, rfl, rfl, rfl, rfl⟩
  | membership =>
    simp only [tryNext, hload, applyNodeMembership, hcheck rfl, nodesAfter]
    exact ⟨client, rfl, rfl, rfl, rfl⟩

/-- An attempt with a topology that passes the checks: it succeeds when there is an entry, and
else it fails with everything but the entry assigned. -/
theorem tryNext_of_passed (hload : loadTopology source (world.answer source) = .ok loaded)
    (hcheck : use = .membership → checkMembership client loaded = .ok ()) :
    (Enterable world client (nodesAfter use client loaded) →
        (tryNext world use source client).error = none) ∧
      (¬ Enterable world client (nodesAfter use client loaded) →
        (tryNext world use source client).after =
            assignTopology use client loaded (world.answer source) ∧
          (tryNext world use source client).error ≠ none) := by
  obtain ⟨base, hentry, hassign, hafter, herror⟩ := tryNext_eq_setNodes hload hcheck
  -- whether there is an entry depends on the entry of the client alone
  have henterable : Enterable world base (nodesAfter use client loaded) ↔
      Enterable world client (nodesAfter use client loaded) := by
    rw [Enterable, Enterable, hentry]
  rw [hassign, hafter, herror, ← henterable]
  constructor
  · intro h
    rw [setNodes_error_eq_none h, Option.map_none]
  · intro h
    obtain ⟨hclient, hthrown⟩ := @setNodes_of_not_enterable _ _ _ (world.answer source) h
    exact ⟨hclient, fun hnone => hthrown (Option.map_eq_none_iff.mp hnone)⟩

/-- An attempt that fails leaves the routing as it is exactly when it is harmless. -/
theorem tryNext_intact_iff :
    ((tryNext world use source client).error ≠ none →
        (tryNext world use source client).after.toRouting = client.toRouting) ↔
      Harmless world use source client := by
  constructor
  · intro h loaded hload hcheck
    obtain ⟨-, hfails⟩ := tryNext_of_passed hload hcheck
    by_cases hentry : Enterable world client (nodesAfter use client loaded)
    · exact .inl hentry
    · obtain ⟨hafter, herror⟩ := hfails hentry
      have hsame := h herror
      rw [hafter] at hsame
      exact .inr (assignTopology_toRouting_eq_iff.mp hsame)
  · intro h herror
    obtain hsame | ⟨loaded, hload, hcheck⟩ :=
      @tryNext_cases world client use source
    · rw [hsame]
    · obtain ⟨hsucceeds, hfails⟩ := tryNext_of_passed hload hcheck
      by_cases hentry : Enterable world client (nodesAfter use client loaded)
      · exact absurd (hsucceeds hentry) herror
      · -- without an entry the topology must be one that brings nothing new
        have happlied := (h loaded hload hcheck).resolve_left hentry
        rw [(hfails hentry).1]
        exact assignTopology_toRouting_eq_iff.mpr happlied

/-- An attempt of the loop is what `tryNext` does with the client it found. -/
theorem eq_tryNext_of_mem_tryEach (h : attempt ∈ tryEach world use sources client) :
    attempt = tryNext world use attempt.source attempt.before := by
  induction sources generalizing client with
  | nil => cases h
  | cons source sources ih =>
    rw [tryEach] at h
    obtain rfl | hrest := List.mem_cons.mp h
    · rfl
    · split_ifs at hrest with hdone
      · cases hrest
      · exact ih hrest

theorem exists_eq_tryNext_of_mem (h : attempt ∈ refreshAttempts client world) :
    attempt = tryNext world attempt.use attempt.source attempt.before := by
  have huse : ∀ {use sources client}, attempt ∈ tryEach world use sources client →
      attempt = tryNext world attempt.use attempt.source attempt.before := by
    intro use sources client hmem
    have heq := eq_tryNext_of_mem_tryEach hmem
    have huse : attempt.use = use := by rw [heq]; rfl
    rw [huse]
    exact heq
  simp only [refreshAttempts] at h
  split_ifs at h with hkps hseeds
  · cases h
  · exact huse h
  · obtain h | h := List.mem_append.mp h
    · exact huse h
    · exact huse h

end Lemmas

/-- An attempt of a refresh that fails leaves the routing of the client as it found it exactly
when the source's topology is refused by a check, has an entry, or brings nothing new.

The code replaces the nodes before it looks for an entry among them, so an attempt that fails behind
that has changed the routing, unless the same topology was applied before (`tryNext_intact_iff`).
Each attempt of a refresh is one call of `tryNext`. -/
theorem refresh_intact_iff (client : Client) (world : Surroundings) (attempt : Attempt)
    (hattempt : attempt ∈ refreshAttempts client world) :
    (attempt.error ≠ none → attempt.after.toRouting = attempt.before.toRouting) ↔
      Harmless world attempt.use attempt.source attempt.before := by
  have heq := exists_eq_tryNext_of_mem hattempt
  have h : ((tryNext world attempt.use attempt.source attempt.before).error ≠ none →
      (tryNext world attempt.use attempt.source attempt.before).after.toRouting =
        attempt.before.toRouting) ↔
      Harmless world attempt.use attempt.source attempt.before := tryNext_intact_iff
  rwa [← heq] at h

/-! ### Whole refreshes -/

section Runs

variable {world : Surroundings} {client : Client} {use : Use} {source : String}
  {sources : List String} {attempt : Attempt}

/-- A failed attempt that is harmless clears the recorded error at most. -/
theorem tryNext_after_eq (h : Harmless world use source client)
    (herror : (tryNext world use source client).error ≠ none) :
    ∃ recorded, (tryNext world use source client).after =
      { client with topologyRefreshError := recorded } := by
  obtain hsame | ⟨loaded, hload, hcheck⟩ :=
    @tryNext_cases world client use source
  · exact ⟨client.topologyRefreshError, hsame⟩
  · obtain ⟨hsucceeds, hfails⟩ := tryNext_of_passed hload hcheck
    by_cases hentry : Enterable world client (nodesAfter use client loaded)
    · exact absurd (hsucceeds hentry) herror
    · have happlied := (h loaded hload hcheck).resolve_left hentry
      have hrouting := assignTopology_toRouting_eq_iff.mpr happlied
      have hassign : assignTopology use client loaded (world.answer source) = { client with
          toRouting := (assignTopology use client loaded (world.answer source)).toRouting
          topologyRefreshError := none } := by
        cases use <;> rfl
      refine ⟨none, ?_⟩
      rw [(hfails hentry).1, hassign, hrouting]

/-- The recorded error is read by no attempt. -/
theorem Harmless.with_recorded (h : Harmless world use source client) (recorded : Option Thrown) :
    Harmless world use source { client with topologyRefreshError := recorded } := by
  intro loaded hload hcheck
  obtain hentry | happlied := h loaded hload hcheck
  · exact .inl hentry
  · exact .inr ⟨happlied.nodes, happlied.time, happlied.seed⟩

/-- What a round depends on does not change over rounds that fail. -/
theorem tryEach_after_eq (h : ∀ source, Harmless world use source client)
    {recorded : Option Thrown}
    (hattempt : attempt ∈ tryEach world use sources
      { client with topologyRefreshError := recorded })
    (herror : attempt.error ≠ none) :
    ∃ recorded, attempt.after = { client with topologyRefreshError := recorded } := by
  induction sources generalizing recorded with
  | nil => cases hattempt
  | cons source sources ih =>
    rw [tryEach] at hattempt
    have hharmless := (h source).with_recorded recorded
    obtain rfl | hrest := List.mem_cons.mp hattempt
    · exact tryNext_after_eq hharmless herror
    · split_ifs at hrest with hdone
      · cases hrest
      · obtain ⟨next, hnext⟩ := tryNext_after_eq hharmless (by simpa using hdone)
        rw [hnext] at hrest
        exact ih hrest

theorem leftBy_eq {attempts : List Attempt}
    (h : ∀ attempt ∈ attempts,
      ∃ recorded, attempt.after = { client with topologyRefreshError := recorded }) :
    ∃ recorded, leftBy client attempts = { client with topologyRefreshError := recorded } := by
  simp only [leftBy]
  cases hlast : attempts.getLast? with
  | none => exact ⟨client.topologyRefreshError, rfl⟩
  | some attempt => exact h attempt (List.mem_of_getLast? hlast)

/-- A refresh in which every source is harmless to the client it starts with and none succeeds
leaves the routing as it was. -/
theorem refreshTopologyOnce_toRouting {refreshKpsTopology : Client → Client}
    (hkps : client.kps = false) (h : ∀ use source, Harmless world use source client)
    (hfails : succeeded (refreshAttempts client world) = false) :
    (refreshTopologyOnce client world refreshKpsTopology).toRouting = client.toRouting := by
  have hall : ∀ attempt ∈ refreshAttempts client world, attempt.error ≠ none := by
    intro attempt hattempt hnone
    have := List.any_eq_false.mp hfails attempt hattempt
    simp [hnone] at this
  have hsame : ∃ recorded, leftBy client (refreshAttempts client world) =
      { client with topologyRefreshError := recorded } := by
    have hclassic : ¬ client.kps = true := by simp [hkps]
    simp only [refreshAttempts, if_neg hclassic] at hall ⊢
    have hseeds : ∀ attempt ∈ tryEach world .routing (seedsOf client) client,
        attempt.error ≠ none →
          ∃ recorded, attempt.after = { client with topologyRefreshError := recorded } :=
      fun attempt hattempt => @tryEach_after_eq world client .routing _ attempt
        (h .routing) client.topologyRefreshError hattempt
    split_ifs at hall ⊢ with hdone
    · exact leftBy_eq fun attempt hattempt => hseeds attempt hattempt (hall attempt hattempt)
    · -- the nodes are asked by a client that the seeds left as it was
      obtain ⟨between, hbetween⟩ := leftBy_eq fun attempt hattempt =>
        hseeds attempt hattempt (hall attempt (List.mem_append_left _ hattempt))
      rw [hbetween] at hall ⊢
      refine leftBy_eq fun attempt hattempt => ?_
      have herror := hall attempt hattempt
      obtain hof | hof := List.mem_append.mp hattempt
      · exact hseeds attempt hof herror
      · exact tryEach_after_eq (h .membership) hof herror
  obtain ⟨recorded, hleft⟩ := hsame
  simp [refreshTopologyOnce, hkps, hfails, hleft]

end Runs

/-! ### A topology without an entry -/

/-- A member without an ingress URL. -/
def inwardNode : TopologyNode :=
  ⟨"0xb", "", "/ip4/192.0.2.2/tcp/9000", [], 1, 2, none, none⟩

/-- A client of a test mesh with one seed and one node. -/
def meshClient : Client where
  nodes := [⟨"0xa", "http://192.0.2.1:8080", "/ip4/192.0.2.1/tcp/9000", [], 0, 2, none, none⟩]
  entryUrl := "http://192.0.2.1:8080"
  seedUrl := "http://127.0.0.1:3000"
  seedBlock := some 7
  powDifficulty := 3
  topologyVerifiedAtMs := 0
  topologyRefreshError := none
  wsEntryUrl := none
  kps := false
  seeds := ["http://127.0.0.1:3000"]
  dangerouslySkipFingerprintCheck := true
  powDifficultyPinned := false

/-- Every source answers with the one node. -/
def meshWorld : Surroundings where
  answer _ := ⟨.ok ⟨"", some 8, some 5, [inwardNode]⟩, 1000, 0⟩
  fallbackSample _ := 0
  hasUsableIngress url := "http://".toList.isPrefixOf url.toList ||
    "https://".toList.isPrefixOf url.toList

/-- The attempt with the seed of the client. -/
theorem refresh_intact_mesh :
    ((tryNext meshWorld .routing "http://127.0.0.1:3000" meshClient).error ≠ none →
      (tryNext meshWorld .routing "http://127.0.0.1:3000" meshClient).after.toRouting =
        meshClient.toRouting) ↔
      Harmless meshWorld .routing "http://127.0.0.1:3000" meshClient :=
  refresh_intact_iff meshClient meshWorld
    (tryNext meshWorld .routing "http://127.0.0.1:3000" meshClient) (by decide +kernel)

/-- The attempt that fails, and the nodes, the block and the difficulty it leaves behind. -/
theorem not_refresh_intact :
    ¬ ∀ (client : Client) (world : Surroundings), ∀ attempt ∈ refreshAttempts client world,
      attempt.error ≠ none → attempt.after.toRouting = attempt.before.toRouting := by
  intro h
  have hattempt : tryNext meshWorld .routing "http://127.0.0.1:3000" meshClient ∈
      refreshAttempts meshClient meshWorld := by decide +kernel
  have herror : (tryNext meshWorld .routing "http://127.0.0.1:3000" meshClient).error ≠ none := by
    decide +kernel
  have hchanged : (tryNext meshWorld .routing "http://127.0.0.1:3000" meshClient).after.toRouting ≠
      meshClient.toRouting := by decide +kernel
  exact hchanged (h meshClient meshWorld _ hattempt herror)

end NoxSdk.Topology
