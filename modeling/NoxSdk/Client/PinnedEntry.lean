import NoxSdk.Client.Planners
import NoxSdk.Kps.Sweeps
import NoxSdk.Topology.RouteSelection
import NoxSdk.Topology.Refresh

/-!
# The pinned entry and its standby

In KPS mode a client sends through one pinned entry and keeps the fastest other one connected as a
standby. It moves the pinned entry at once to a connected one when the connection of the pinned one
closes, to another one after two transport failures in a row, and to any one when the node left the
membership. The transport is the pool of connections of `Kps.ConnectionPool`.

* `Pinned`: what the transport retains are the pinned entry and its standby.
* `standby_kept`: no sweep gives up their connections.
* `entry_moves`: when the pinned entry moves, and where to.
-/

namespace NoxSdk.Kps

open NoxSdk.Lib

/-- What the owner of a transport alone does to it. -/
def ConnectionPoolEvent.isOwn : ConnectionPoolEvent → Bool
  | retain _ | close => true
  | _ => false

namespace ConnectionPool

variable (settings : ConnectionSettings) (pool : ConnectionPool) (now : ℕ)

/-- `isConnected`. -/
def isConnected (address : String) : Bool := pool.hasConn ⟨address, .primary⟩

/-- `isCoolingDown`. -/
def isCoolingDown (address : String) : Bool :=
  (pool.pool.get? ⟨address, .primary⟩).any fun lane =>
    lane.conn.isNone && decide (now < lane.coolUntil)

/-- `warmUp`, as far as it makes entries. -/
def warmUp (warmupBytes : ℕ) (addresses : List String) : ConnectionPool :=
  if pool.closed || decide (warmupBytes = 0) then pool
  else addresses.foldl (fun pool address => pool.entry ⟨address, .primary⟩ now) pool

/-- `prewarm`, of a primary connection. -/
def prewarm (address : String) : ConnectionPool :=
  if pool.closed then pool
  else (pool.entry ⟨address, .primary⟩ now).connect settings ⟨address, .primary⟩ now

section Lemmas

variable {settings} {pool} {now} {key : PoolKey} {address : String}

@[simp] theorem hasConn_entry (key' : PoolKey) :
    (pool.entry key' now).hasConn key = pool.hasConn key := by
  rw [entry]
  split_ifs with hhas
  · rfl
  · rw [hasConn, hasConn, OrderedMap.get?_set]
    split_ifs with heq
    · have hnone : pool.pool.get? key = none := by
        rw [heq]
        exact Option.not_isSome_iff_eq_none.mp hhas
      rw [hnone]
      rfl
    · rfl

@[simp] theorem hasConn_connect (key' : PoolKey) :
    (pool.connect settings key' now).hasConn key = pool.hasConn key := by
  rw [connect, onLane]
  cases hget : pool.pool.get? key' with
  | none => rfl
  | some lane =>
    have hsame : (lane.connection now).conn = lane.conn := by
      rw [Lane.connection]
      split_ifs <;> rfl
    rw [hasConn, hasConn, Option.bind_some, Lane.step, Option.map_some, Option.getD_some,
      OrderedMap.get?_set]
    split_ifs with heq
    · rw [heq, hget, Option.any_some, Option.any_some, hsame]
    · rfl

@[simp] theorem hasConn_warmUp (warmupBytes : ℕ) (addresses : List String) :
    (pool.warmUp now warmupBytes addresses).hasConn key = pool.hasConn key := by
  rw [warmUp]
  split_ifs with hclosed
  · rfl
  · clear hclosed
    induction addresses generalizing pool with
    | nil => rfl
    | cons first rest ih => rw [List.foldl_cons, ih, hasConn_entry]

@[simp] theorem hasConn_prewarm : (pool.prewarm settings now address).hasConn key =
    pool.hasConn key := by
  rw [prewarm]
  split_ifs
  · rfl
  · rw [hasConn_connect, hasConn_entry]

@[simp] theorem retained_warmUp (warmupBytes : ℕ) (addresses : List String) :
    (pool.warmUp now warmupBytes addresses).retained = pool.retained := by
  rw [warmUp]
  split_ifs with hclosed
  · rfl
  · clear hclosed
    induction addresses generalizing pool with
    | nil => rfl
    | cons first rest ih => rw [List.foldl_cons, ih, retained_entry]

@[simp] theorem retained_prewarm :
    (pool.prewarm settings now address).retained = pool.retained := by
  rw [prewarm]
  split_ifs
  · rfl
  · rw [connect, retained_onLaneD, retained_entry]

/-- What happens to an entry leaves the connections of the other ones. -/
theorem hasConn_of_onEntry {pool' : ConnectionPool} {key' : PoolKey} {event : LaneEvent}
    (hstep : pool.step settings (now, .onEntry key' event) = some pool') (hne : key ≠ key') :
    pool'.hasConn key = pool.hasConn key := by
  rw [step] at hstep
  split_ifs at hstep
  obtain ⟨behind, hbehind, rfl⟩ := Option.map_eq_some_iff.mp hstep
  obtain ⟨_, lane', -, -, rfl⟩ := onLane_eq_some_iff.mp hbehind
  have hsame : (pool.pool.set key' lane').get? key = pool.pool.get? key :=
    OrderedMap.get?_set_of_ne _ _ hne
  split_ifs
  · rw [hasConn, hasConn, hsame]
  · rw [hasConn, hasConn, hsame]

theorem retained_close : (pool.close settings now).retained = pool.retained := by
  rw [close]
  dsimp only
  generalize pool.pool.keys = keys
  induction keys generalizing pool with
  | nil => rfl
  | cons first rest ih => rw [List.foldl_cons, ih, retained_onLaneD]

/-- What is retained changes only when the client sets it. -/
theorem retained_of_step {pool' : ConnectionPool} {event : ConnectionPoolEvent}
    (hstep : pool.step settings (now, event) = some pool') (hown : ¬event.isOwn = true) :
    pool'.retained = pool.retained := by
  cases event with
  | prewarm key =>
    obtain rfl := Option.some.inj hstep
    split_ifs
    · rfl
    · rw [connect, retained_onLaneD, retained_entry]
  | warm address =>
    obtain rfl := Option.some.inj hstep
    rw [connect, retained_onLaneD, retained_entry]
  | request address lane isEncoded =>
    obtain rfl := Option.some.inj hstep
    exact retained_request address lane isEncoded
  | onEntry key event =>
    rw [step] at hstep
    split_ifs at hstep
    obtain ⟨behind, hbehind, rfl⟩ := Option.map_eq_some_iff.mp hstep
    obtain ⟨_, _, -, -, rfl⟩ := onLane_eq_some_iff.mp hbehind
    split_ifs <;> rfl
  | retain addresses => exact absurd rfl hown
  | maintain =>
    rw [step] at hstep
    split_ifs at hstep
    obtain rfl := Option.some.inj hstep
    rw [maintain]
    exact (retained_sweep .claims).trans (retained_sweep .primary)
  | close => exact absurd rfl hown

end Lemmas

end ConnectionPool

end NoxSdk.Kps

namespace NoxSdk.Client

open NoxSdk.Lib NoxSdk.Topology NoxSdk.Kps

/-- What the standby reads of the options. -/
structure StandbyOptions where
  standby : Bool
  userAnchors : Option (List String)
  warmupBytes : ℕ
  settings : ConnectionSettings

/-- What a step reads of the clock, of the measurements and of the random numbers. -/
structure EntryEnv where
  now : ℕ
  rttMs : String → Option ℕ
  dialMs : String → Option ℕ
  draw : ℕ

/-- `NoxClient`, as far as its entry goes. -/
structure EntryClient where
  nodes : List TopologyNode
  entryUrl : String
  standbyEntry : Option String := none
  pinnedEntryFailures : ℕ := 0
  /-- Whether the client listens for connections that close. -/
  listening : Bool := false
  transport : ConnectionPool := {}

/-- `isKpsEntryNode`. -/
def isKpsEntryNode (node : TopologyNode) : Bool := (kpsAddressOfEntry node.address).isSome

/-- `KPS_ENTRY_SWITCH_AFTER_FAILURES`. -/
def kpsEntrySwitchAfterFailures : ℕ := 2

/-- What happens to the entry. -/
inductive EntryEvent
  | transport (event : ConnectionPoolEvent)
  /-- `_noteEntrySuccess` of the entry with this endpoint. -/
  | success (url : String)
  /-- `_noteEntryTransportFailure`. -/
  | transportFailure (entry : TopologyNode)
  /-- `_setNodes`. -/
  | setNodes (nodes : List TopologyNode)
  | disconnect

namespace EntryClient

variable (options : StandbyOptions) (client : EntryClient) (env : EntryEnv)

/-- What the planners read of the client; the rest of it does not matter to the order of entries. -/
def planState : PlanState where
  nodes := client.nodes
  entryUrl := client.entryUrl
  wasmSupportsSurbV2 := false
  avoidedNodeIds := []
  entryRule := isKpsEntryNode
  maxProbation := none
  kps := some {
    standby := options.standby
    spreadCalls := false
    standbyEntry := client.standbyEntry
    isConnected := client.transport.isConnected
    isCoolingDown := client.transport.isCoolingDown env.now
    rttMs := env.rttMs
    dialMs := env.dialMs
    uploadsInFlight := fun _ => 0 }

/-- The standby that `_refreshStandby` chooses. -/
def chooseStandby : Option TopologyNode :=
  (rankedOtherEntries (client.planState options env)).find? fun node =>
    (kpsAddressOfEntry node.address).any fun address =>
      options.userAnchors.all (·.contains address) || client.transport.isConnected address

/-- `_refreshStandby`. -/
def refreshStandby : EntryClient :=
  let pinned := kpsAddressOfEntry client.entryUrl
  if !options.standby then
    { client with
      transport := client.transport.warmUp env.now options.warmupBytes pinned.toList }
  else
    let standby := client.chooseStandby options env
    let standbyAddress := standby.bind fun node => kpsAddressOfEntry node.address
    let kept := pinned.toList ++ standbyAddress.toList
    let transport := { client.transport with retained := kept }.warmUp env.now
      options.warmupBytes kept
    { client with
      standbyEntry := standby.map fun node => node.address
      transport := match standbyAddress with
        | some address =>
          if transport.isConnected address then transport
          else transport.prewarm options.settings env.now address
        | none => transport }

/-- `_startStandby`. -/
def startStandby : EntryClient :=
  { client.refreshStandby options env with listening := options.standby }

/-- The client that `connect` returns, over the transport that loaded the topology. -/
def connected (nodes : List TopologyNode) (entryUrl : String) (transport : ConnectionPool) :
    EntryClient :=
  { nodes, entryUrl, transport : EntryClient }.startStandby options env

/-- `_failOverFromClosedEntry`. -/
def failOverFromClosedEntry : EntryClient :=
  let connected := (rankedOtherEntries (client.planState options env)).find? fun node =>
    client.transport.isConnected (entryAddress node)
  match connected with
  | none =>
    let transport := client.transport.prewarm options.settings env.now
      ((kpsAddressOfEntry client.entryUrl).getD "")
    { client with transport }.refreshStandby options env
  | some next =>
    { client with entryUrl := next.address, pinnedEntryFailures := 0 }.refreshStandby options env

/-- The listener of `_startStandby`. -/
def onConnectionClosed (address : String) : EntryClient :=
  if some address = kpsAddressOfEntry client.entryUrl then
    client.failOverFromClosedEntry options env
  else client.refreshStandby options env

/-- `_switchPinnedEntry`. -/
def switchPinnedEntry (failed : TopologyNode) : EntryClient :=
  match pickOtherEntry (client.planState options env)
      { route := ⟨0, 0, 0⟩, fallback := ⟨0, 0, 0⟩, entry := env.draw, retryExit := 0,
        paidExit := fun _ => 0, paidRoute := fun _ => ⟨0, 0, 0⟩ } [failed.id] with
  | .error _ => client
  | .ok next =>
    { client with entryUrl := next.address, pinnedEntryFailures := 0 }.refreshStandby options env

/-- `_noteEntryTransportFailure`. -/
def noteEntryTransportFailure (entry : TopologyNode) : EntryClient :=
  if entry.address ≠ client.entryUrl then client
  else
    let client := { client with pinnedEntryFailures := client.pinnedEntryFailures + 1 }
    if kpsEntrySwitchAfterFailures ≤ client.pinnedEntryFailures then
      client.switchPinnedEntry options env entry
    else client

/-- `_setNodes`. -/
def setNodes (nodes : List TopologyNode) : EntryClient :=
  let client := { client with nodes }
  if nodes.any fun node => node.address == client.entryUrl then client
  else
    let client := { client with pinnedEntryFailures := 0 }
    match pickEntryUrl nodes (fun address => (kpsAddressOfEntry address).isSome) env.draw with
    | .error _ => client
    | .ok entryUrl => { client with entryUrl }.refreshStandby options env

/-- The address whose connection the event ends, where the listeners are told. -/
def reportedAddress (transport : ConnectionPool) : ConnectionPoolEvent → Option String
  | .onEntry ⟨address, .primary⟩ (.closed conn) =>
    if (transport.pool.get? ⟨address, .primary⟩).any fun lane =>
        decide (lane.conn = some conn) && !lane.closed then some address
    else none
  | _ => none

/-- The client behind an event of its transport. -/
def onTransport (transport : ConnectionPool) (event : ConnectionPoolEvent) : EntryClient :=
  match client.listening, reportedAddress client.transport event with
  | true, some address => { client with transport }.onConnectionClosed options env address
  | _, _ => { client with transport }

/-- One event at a time. -/
def step : EntryEnv × EntryEvent → Option EntryClient
  | (env, .transport event) =>
    if event.isOwn then none
    else (client.transport.step options.settings (env.now, event)).map fun transport =>
      client.onTransport options env transport event
  | (_, .success url) =>
    some (if url = client.entryUrl then { client with pinnedEntryFailures := 0 } else client)
  | (env, .transportFailure entry) => some (client.noteEntryTransportFailure options env entry)
  | (env, .setNodes nodes) => some (client.setNodes options env nodes)
  | (env, .disconnect) =>
    some { client with
      listening := false
      transport := if client.transport.closed then client.transport
        else client.transport.close options.settings env.now }

/-! ### What the transport retains -/

/-- The client is pinned to a KPS endpoint, and what the transport retains are this entry and its
standby, which is another one. -/
structure Pinned : Prop where
  isKps : (kpsAddressOfEntry client.entryUrl).isSome = true
  off : options.standby = false → client.standbyEntry = none
  standby : ∀ url, client.standbyEntry = some url → ∃ address,
    kpsAddressOfEntry url = some address ∧ kpsAddressOfEntry client.entryUrl ≠ some address
  retained : options.standby = true → client.transport.retained =
    (kpsAddressOfEntry client.entryUrl).toList ++
      (client.standbyEntry.bind kpsAddressOfEntry).toList

section Lemmas

variable {options} {client client' : EntryClient} {env} {node : TopologyNode} {key : PoolKey}

@[simp] theorem entryUrl_refreshStandby :
    (client.refreshStandby options env).entryUrl = client.entryUrl := by
  rw [refreshStandby]
  split_ifs <;> rfl

@[simp] theorem nodes_refreshStandby :
    (client.refreshStandby options env).nodes = client.nodes := by
  rw [refreshStandby]
  split_ifs <;> rfl

@[simp] theorem pinnedEntryFailures_refreshStandby :
    (client.refreshStandby options env).pinnedEntryFailures = client.pinnedEntryFailures := by
  rw [refreshStandby]
  split_ifs <;> rfl

@[simp] theorem hasConn_refreshStandby :
    (client.refreshStandby options env).transport.hasConn key = client.transport.hasConn key := by
  rw [refreshStandby]
  split_ifs
  · exact ConnectionPool.hasConn_warmUp _ _
  · dsimp only
    split
    · split_ifs
      · exact ConnectionPool.hasConn_warmUp _ _
      · rw [ConnectionPool.hasConn_prewarm, ConnectionPool.hasConn_warmUp]
        rfl
    · exact ConnectionPool.hasConn_warmUp _ _

/-- The other entries are the nodes that can be one and have another address than the pinned entry.
-/
theorem mem_rankedOtherEntries_iff :
    node ∈ rankedOtherEntries (client.planState options env) ↔ node ∈ client.nodes ∧
      isEntryCapable node isKpsEntryNode = true ∧
      kpsAddressOfEntry node.address ≠ kpsAddressOfEntry client.entryUrl := by
  refine (List.mergeSort_perm _ _).mem_iff.trans ?_
  simp only [planState, List.mem_filter, Bool.and_eq_true, bne_iff_ne]
  constructor
  · rintro ⟨⟨hmem, hcapable, -⟩, hother⟩
    exact ⟨hmem, hcapable, hother⟩
  · rintro ⟨hmem, hcapable, hother⟩
    exact ⟨⟨hmem, hcapable, fun hsame => hother (congrArg _ hsame)⟩, hother⟩

theorem isSome_of_isEntryCapable (h : isEntryCapable node isKpsEntryNode = true) :
    (kpsAddressOfEntry node.address).isSome = true :=
  (Bool.and_eq_true_iff.mp h).2

/-- A standby has another address than the pinned entry. -/
theorem chooseStandby_spec (h : client.chooseStandby options env = some node) :
    ∃ address, kpsAddressOfEntry node.address = some address ∧
      kpsAddressOfEntry client.entryUrl ≠ some address := by
  obtain ⟨-, hcapable, hne⟩ := mem_rankedOtherEntries_iff.mp (List.mem_of_find?_eq_some h)
  obtain ⟨address, haddress⟩ := Option.isSome_iff_exists.mp (isSome_of_isEntryCapable hcapable)
  exact ⟨address, haddress, fun hsame => hne (haddress.trans hsame.symm)⟩

theorem standbyEntry_refreshStandby (hon : options.standby = true) :
    (client.refreshStandby options env).standbyEntry =
      (client.chooseStandby options env).map fun node => node.address := by
  rw [refreshStandby, if_neg (by simp [hon])]

/-- What is retained behind a refresh are the pinned entry and its standby. -/
theorem retained_refreshStandby (hon : options.standby = true) :
    (client.refreshStandby options env).transport.retained =
      (kpsAddressOfEntry client.entryUrl).toList ++ ((client.chooseStandby options env).bind
        fun node => kpsAddressOfEntry node.address).toList := by
  rw [refreshStandby, if_neg (by simp [hon])]
  dsimp only
  split
  · split_ifs
    · exact ConnectionPool.retained_warmUp _ _
    · rw [ConnectionPool.retained_prewarm, ConnectionPool.retained_warmUp]
  · exact ConnectionPool.retained_warmUp _ _

/-- Behind `_refreshStandby` the transport retains what it should. -/
theorem pinned_refreshStandby (h : (kpsAddressOfEntry client.entryUrl).isSome = true)
    (hoff : options.standby = false → client.standbyEntry = none) :
    Pinned options (client.refreshStandby options env) := by
  refine ⟨entryUrl_refreshStandby.symm ▸ h, fun hstandby => ?_, fun url hurl => ?_, fun hon => ?_⟩
  · rw [refreshStandby, if_pos (by simp [hstandby])]
    exact hoff hstandby
  · rw [entryUrl_refreshStandby]
    cases hstandby : options.standby with
    | false =>
      rw [refreshStandby, if_pos (by simp [hstandby])] at hurl
      cases hurl.symm.trans (hoff hstandby)
    | true =>
      rw [standbyEntry_refreshStandby hstandby] at hurl
      obtain ⟨node, hchosen, rfl⟩ := Option.map_eq_some_iff.mp hurl
      exact chooseStandby_spec hchosen
  · rw [retained_refreshStandby hon, standbyEntry_refreshStandby hon, entryUrl_refreshStandby,
      Option.bind_map]
    rfl

theorem Pinned.startStandby (h : (kpsAddressOfEntry client.entryUrl).isSome = true)
    (hnone : client.standbyEntry = none) : Pinned options (client.startStandby options env) := by
  have hpinned : Pinned options (client.refreshStandby options env) :=
    pinned_refreshStandby h fun _ => hnone
  exact ⟨hpinned.isKps, hpinned.off, hpinned.standby, hpinned.retained⟩

theorem preferSettled_subset (candidates : List TopologyNode) :
    preferSettled candidates ⊆ candidates := by
  rw [preferSettled]
  split_ifs
  · exact List.filter_subset_self _
  · exact List.Subset.refl _

/-- What `_pickOtherEntry` finds is one of its candidates. -/
theorem mem_of_pickOtherEntry {state : PlanState} {draws : PlanDraws} {exclude : List String}
    (h : pickOtherEntry state draws exclude = .ok node) : node ∈ state.nodes.filter fun node =>
      !exclude.contains node.id && isEntryCapable node state.entryRule := by
  rw [pickOtherEntry] at h
  generalize state.nodes.filter (fun node =>
    !exclude.contains node.id && isEntryCapable node state.entryRule) = candidates at h ⊢
  split at h
  · rename_i fastest _ hfastest
    obtain rfl := Except.ok.inj h
    have hfound := List.find?_some hfastest
    exact List.contains_iff_mem.mp (Bool.and_eq_true_iff.mp hfound).2
  · split at h
    · cases h
    · rename_i tier htier
      have hsubset : tier ⊆ candidates := by
        have hmem := List.mem_of_find?_eq_some htier
        cases hkps : state.kps with
        | none =>
          simp only [hkps, List.mem_singleton] at hmem
          exact hmem ▸ List.Subset.refl _
        | some kps =>
          simp only [hkps, List.mem_cons, List.not_mem_nil, or_false] at hmem
          obtain rfl | rfl | rfl := hmem
          · exact List.filter_subset_self _
          · exact List.filter_subset_self _
          · exact List.Subset.refl _
      split at h
      · cases h
      · rename_i hpicked
        obtain rfl := Except.ok.inj h
        exact hsubset (preferSettled_subset _ (mem_of_pickRandom hpicked))

/-- An entry that is picked is a node that can be one and is not excluded. -/
theorem pickOtherEntry_spec {draws : PlanDraws} {exclude : List String}
    (h : pickOtherEntry (client.planState options env) draws exclude = .ok node) :
    node ∈ client.nodes ∧ node.id ∉ exclude ∧ isEntryCapable node isKpsEntryNode = true := by
  have hmem := mem_of_pickOtherEntry h
  rw [List.mem_filter, Bool.and_eq_true_iff] at hmem
  exact ⟨hmem.1, by simpa using hmem.2.1, hmem.2.2⟩

/-- A failover chooses the standby anew. -/
theorem Pinned.failOver (h : Pinned options client) :
    Pinned options (client.failOverFromClosedEntry options env) := by
  rw [failOverFromClosedEntry]
  dsimp only
  split
  · exact pinned_refreshStandby h.isKps h.off
  · rename_i next hnext
    obtain ⟨-, hcapable, -⟩ := mem_rankedOtherEntries_iff.mp (List.mem_of_find?_eq_some hnext)
    exact pinned_refreshStandby (isSome_of_isEntryCapable hcapable) h.off

theorem Pinned.onConnectionClosed (h : Pinned options client) (address : String) :
    Pinned options (client.onConnectionClosed options env address) := by
  rw [EntryClient.onConnectionClosed]
  split_ifs
  · exact h.failOver
  · exact pinned_refreshStandby h.isKps h.off

/-- A switch of the pinned entry chooses the standby anew. -/
theorem Pinned.switchPinnedEntry (h : Pinned options client) (failed : TopologyNode) :
    Pinned options (client.switchPinnedEntry options env failed) := by
  rw [EntryClient.switchPinnedEntry]
  split
  · exact h
  · rename_i next hnext
    obtain ⟨-, -, hcapable⟩ := pickOtherEntry_spec hnext
    exact pinned_refreshStandby (isSome_of_isEntryCapable hcapable) h.off

theorem Pinned.noteEntryTransportFailure (h : Pinned options client) (entry : TopologyNode) :
    Pinned options (client.noteEntryTransportFailure options env entry) := by
  have hcounted : Pinned options
      { client with pinnedEntryFailures := client.pinnedEntryFailures + 1 } :=
    ⟨h.isKps, h.off, h.standby, h.retained⟩
  rw [EntryClient.noteEntryTransportFailure]
  dsimp only
  split_ifs
  · exact h
  · exact hcounted.switchPinnedEntry entry
  · exact hcounted

/-- `pickEntryUrl` finds a KPS endpoint. -/
theorem pickEntryUrl_spec {nodes : List TopologyNode} {draw : ℕ} {url : String}
    (h : pickEntryUrl nodes (fun address => (kpsAddressOfEntry address).isSome) draw = .ok url) :
    ∃ node ∈ nodes, isEntryCapable node isKpsEntryNode = true ∧ node.address = url := by
  rw [pickEntryUrl] at h
  split at h
  · cases h
  · rename_i node hnode
    obtain rfl := Except.ok.inj h
    have hmem := preferSettled_subset _ (mem_of_pickRandom hnode)
    obtain ⟨hin, hcapable⟩ := List.mem_filter.mp hmem
    exact ⟨node, hin, hcapable, rfl⟩

/-- A new membership keeps the pinned entry, or moves it and chooses the standby anew. -/
theorem Pinned.setNodes (h : Pinned options client) (nodes : List TopologyNode) :
    Pinned options (client.setNodes options env nodes) := by
  rw [EntryClient.setNodes]
  dsimp only
  split_ifs
  · exact ⟨h.isKps, h.off, h.standby, h.retained⟩
  · split
    · exact ⟨h.isKps, h.off, h.standby, h.retained⟩
    · rename_i url hurl
      obtain ⟨node, -, hcapable, rfl⟩ := pickEntryUrl_spec hurl
      exact pinned_refreshStandby (isSome_of_isEntryCapable hcapable) h.off

/-- Each event keeps the retained addresses those of the pinned entry and its standby. -/
theorem Pinned.step (h : Pinned options client) {event : EntryEnv × EntryEvent}
    (hstep : client.step options event = some client') : Pinned options client' := by
  obtain ⟨env, event⟩ := event
  cases event with
  | transport event =>
    rw [EntryClient.step] at hstep
    split_ifs at hstep with hown
    obtain ⟨transport, htransport, rfl⟩ := Option.map_eq_some_iff.mp hstep
    have hbehind : Pinned options { client with transport } :=
      ⟨h.isKps, h.off, h.standby, fun hon =>
        (ConnectionPool.retained_of_step htransport hown).trans (h.retained hon)⟩
    rw [onTransport]
    split
    · exact hbehind.onConnectionClosed _
    · exact hbehind
  | success url =>
    obtain rfl := Option.some.inj hstep
    split_ifs
    · exact ⟨h.isKps, h.off, h.standby, h.retained⟩
    · exact h
  | transportFailure entry =>
    obtain rfl := Option.some.inj hstep
    exact h.noteEntryTransportFailure entry
  | setNodes nodes =>
    obtain rfl := Option.some.inj hstep
    exact h.setNodes nodes
  | disconnect =>
    obtain rfl := Option.some.inj hstep
    refine ⟨h.isKps, h.off, h.standby, fun hon => ?_⟩
    dsimp only
    split_ifs
    · exact h.retained hon
    · exact ConnectionPool.retained_close.trans (h.retained hon)

/-! ### How the pinned entry moves -/

/-- The entry with this endpoint sent something through. -/
def isSuccessOf (url : String) : EntryEvent → Bool
  | .success url' => url' == url
  | _ => false

/-- A transport failure of the entry with this endpoint. -/
def isFailureOf (url : String) : EntryEvent → Bool
  | .transportFailure entry => entry.address == url
  | _ => false

/-- The transport failures of an entry since it last sent something through. -/
def failuresSince (url : String) (events : List (EntryEnv × EntryEvent)) : ℕ :=
  (events.reverse.takeWhile fun event => !isSuccessOf url event.2).countP fun event =>
    isFailureOf url event.2

/-- A success starts the count of failures over. -/
theorem failuresSince_append (url : String) (events : List (EntryEnv × EntryEvent))
    (event : EntryEnv × EntryEvent) : failuresSince url (events ++ [event]) =
      if isSuccessOf url event.2 then 0
      else failuresSince url events + (isFailureOf url event.2).toNat := by
  rw [failuresSince, List.reverse_append, List.reverse_singleton, List.singleton_append,
    List.takeWhile_cons]
  cases hsuccess : isSuccessOf url event.2 with
  | true => simp
  | false =>
    rw [if_pos (by simp), if_neg (by simp), List.countP_cons, failuresSince]
    cases isFailureOf url event.2 <;> rfl

/-- What one event makes of the pinned entry. -/
inductive Move (client client' : EntryClient) : EntryEvent → Prop
  | stays {event : EntryEvent} (url : client'.entryUrl = client.entryUrl)
      (failures : client'.pinnedEntryFailures ≤
        if isSuccessOf client.entryUrl event then 0
        else client.pinnedEntryFailures + (isFailureOf client.entryUrl event).toNat) :
      Move client client' event
  /-- Its connection closed, and there is another one that is connected. -/
  | closed {address : String} {conn : ℕ} {next : TopologyNode}
      (pinned : kpsAddressOfEntry client.entryUrl = some address) (mem : next ∈ client'.nodes)
      (capable : isEntryCapable next isKpsEntryNode = true)
      (other : kpsAddressOfEntry next.address ≠ some address)
      (connected : client'.transport.isConnected (entryAddress next) = true)
      (url : client'.entryUrl = next.address) (failures : client'.pinnedEntryFailures = 0) :
      Move client client' (.transport (.onEntry ⟨address, .primary⟩ (.closed conn)))
  /-- It failed again. -/
  | failed {entry next : TopologyNode} (pinned : entry.address = client.entryUrl)
      (again : kpsEntrySwitchAfterFailures ≤ client.pinnedEntryFailures + 1)
      (mem : next ∈ client'.nodes) (capable : isEntryCapable next isKpsEntryNode = true)
      (other : next.id ≠ entry.id) (url : client'.entryUrl = next.address)
      (failures : client'.pinnedEntryFailures = 0) : Move client client' (.transportFailure entry)
  /-- It left the membership. -/
  | left {nodes : List TopologyNode} {next : TopologyNode}
      (gone : ∀ node ∈ nodes, node.address ≠ client.entryUrl) (mem : next ∈ client'.nodes)
      (capable : isEntryCapable next isKpsEntryNode = true)
      (url : client'.entryUrl = next.address) (failures : client'.pinnedEntryFailures = 0) :
      Move client client' (.setNodes nodes)

/-- An address is reported when the pinned connection of its entry closes. -/
theorem eq_of_reportedAddress {transport : ConnectionPool} {event : ConnectionPoolEvent}
    {address : String} (h : reportedAddress transport event = some address) :
    ∃ conn, event = .onEntry ⟨address, .primary⟩ (.closed conn) := by
  unfold reportedAddress at h
  split at h
  · split_ifs at h
    obtain rfl := Option.some.inj h
    exact ⟨_, rfl⟩
  · cases h

theorem move_failOver {transport : ConnectionPool} {address : String} {conn : ℕ}
    (hpinned : some address = kpsAddressOfEntry client.entryUrl) :
    Move client ({ client with transport }.failOverFromClosedEntry options env)
      (.transport (.onEntry ⟨address, .primary⟩ (.closed conn))) := by
  rw [failOverFromClosedEntry]
  dsimp only
  split
  · refine .stays entryUrl_refreshStandby ?_
    rw [pinnedEntryFailures_refreshStandby]
    exact le_rfl
  · rename_i next hnext
    obtain ⟨hmem, hcapable, hother⟩ :=
      mem_rankedOtherEntries_iff.mp (List.mem_of_find?_eq_some hnext)
    have hconnected := List.find?_some hnext
    refine .closed hpinned.symm (nodes_refreshStandby.symm ▸ hmem) hcapable
      (fun hsame => hother (hsame.trans hpinned)) ?_
      entryUrl_refreshStandby pinnedEntryFailures_refreshStandby
    exact hasConn_refreshStandby.trans hconnected

theorem move_of_step {event : EntryEvent}
    (hstep : client.step options (env, event) = some client') : Move client client' event := by
  cases event with
  | transport event =>
    rw [step] at hstep
    split_ifs at hstep
    obtain ⟨transport, -, rfl⟩ := Option.map_eq_some_iff.mp hstep
    rw [onTransport]
    split
    · rename_i address _ hreported
      obtain ⟨conn, rfl⟩ := eq_of_reportedAddress hreported
      rw [onConnectionClosed]
      split_ifs with hpinned
      -- the connection of the pinned entry closed: the client may fail over
      · exact move_failOver hpinned
      -- the connection of a standby closed: only the standbys change
      · refine .stays entryUrl_refreshStandby ?_
        rw [pinnedEntryFailures_refreshStandby]
        exact le_rfl
    · exact .stays rfl le_rfl
  | success url =>
    obtain rfl := Option.some.inj hstep
    split_ifs with hurl
    · exact .stays rfl (Nat.zero_le _)
    · refine .stays rfl ?_
      rw [if_neg (by simpa [isSuccessOf] using hurl)]
      exact Nat.le_add_right _ _
  | transportFailure entry =>
    obtain rfl := Option.some.inj hstep
    rw [noteEntryTransportFailure]
    dsimp only
    -- a failure of another entry, the one that is too many, or one that is counted
    split_ifs with hother hagain
    · exact .stays rfl (Nat.le_add_right _ _)
    · rw [switchPinnedEntry]
      split
      · refine .stays rfl ?_
        simp [isFailureOf, isSuccessOf, not_not.mp hother]
      · rename_i next hnext
        obtain ⟨hmem, hid, hcapable⟩ := pickOtherEntry_spec hnext
        exact .failed (not_not.mp hother) hagain (nodes_refreshStandby.symm ▸ hmem) hcapable
          (by simpa using hid) entryUrl_refreshStandby pinnedEntryFailures_refreshStandby
    · refine .stays rfl ?_
      simp [isFailureOf, isSuccessOf, not_not.mp hother]
  | setNodes nodes =>
    obtain rfl := Option.some.inj hstep
    rw [setNodes]
    dsimp only
    -- the pinned entry is in the new topology or not
    split_ifs with hpresent
    · exact .stays rfl (Nat.le_add_right _ _)
    · split
      · exact .stays rfl (Nat.zero_le _)
      · rename_i url hurl
        obtain ⟨next, hmem, hcapable, rfl⟩ := pickEntryUrl_spec hurl
        exact .left (by simpa using hpresent) (nodes_refreshStandby.symm ▸ hmem) hcapable
          entryUrl_refreshStandby pinnedEntryFailures_refreshStandby
  | disconnect =>
    obtain rfl := Option.some.inj hstep
    exact .stays rfl (Nat.le_add_right _ _)

/-- The count is of failures in a row. -/
theorem failures_le_of_step {past : List (EntryEnv × EntryEvent)} {event : EntryEnv × EntryEvent}
    (h : client.pinnedEntryFailures ≤ failuresSince client.entryUrl past)
    (hstep : client.step options event = some client') :
    client'.pinnedEntryFailures ≤ failuresSince client'.entryUrl (past ++ [event]) := by
  obtain ⟨env, event⟩ := event
  have hzero : ∀ {n : ℕ}, client'.pinnedEntryFailures = 0 → client'.pinnedEntryFailures ≤ n :=
    fun hnone => hnone ▸ Nat.zero_le _
  cases move_of_step hstep with
  | stays hurl hfailures =>
    rw [hurl, failuresSince_append]
    split_ifs at hfailures ⊢
    · exact hfailures
    · exact hfailures.trans (Nat.add_le_add_right h _)
  | closed _ _ _ _ _ _ hnone => exact hzero hnone
  | failed _ _ _ _ _ _ hnone => exact hzero hnone
  | left _ _ _ _ hnone => exact hzero hnone

variable {nodes : List TopologyNode} {entryUrl : String} {transport : ConnectionPool}

/-- **The entry and its standby stay connected.** In every run of a client with a standby, what the
transport retains are the pinned entry and the standby, two different ones, and no sweep at any time
takes the connection of one of them.

The client retains what it is pinned to and its standby whenever either changes, which is an
invariant (`Pinned`), and a sweep never takes a retained primary connection
(`hasConn_maintain_of_retained`). -/
theorem standby_kept (hkps : (kpsAddressOfEntry entryUrl).isSome = true)
    (hon : options.standby = true)
    (hrun : Run (step options) (connected options env nodes entryUrl transport) client) :
    ∃ pinned, kpsAddressOfEntry client.entryUrl = some pinned ∧
      client.transport.retained =
        pinned :: (client.standbyEntry.bind kpsAddressOfEntry).toList ∧
      client.standbyEntry.bind kpsAddressOfEntry ≠ some pinned ∧
      ∀ now, ∀ address ∈ client.transport.retained,
        client.transport.isConnected address = true →
        (client.transport.maintain options.settings now).isConnected address = true := by
  have hpinned : Pinned options client :=
    hrun.invariant (Pinned.startStandby hkps rfl) fun _ _ _ hbefore hstep => hbefore.step hstep
  obtain ⟨pinned, hurl⟩ := Option.isSome_iff_exists.mp hpinned.isKps
  have hretained := hpinned.retained hon
  rw [hurl, Option.toList_some, List.singleton_append] at hretained
  refine ⟨pinned, hurl, hretained, fun hsame => ?_, fun now address hmem hconnected => ?_⟩
  · obtain ⟨url, hstandby, haddress⟩ := Option.bind_eq_some_iff.mp hsame
    obtain ⟨address, haddress', hne⟩ := hpinned.standby url hstandby
    exact hne (hurl.trans (haddress.symm.trans haddress'))
  · exact ConnectionPool.hasConn_maintain_of_retained options.settings now hmem hconnected

/-- **The pinned entry moves for a reason.** In every run, an event that moves the pinned entry is
the end of its connection, and then the new one is connected; or a transport failure of it, at least
the second one since it last sent something through; or a membership without it. It moves to an
entry-capable node of the membership. And when its connection ends while the client listens, and
another entry-capable node is connected, the client is pinned to a connected one behind it.

One step moves the entry in one of three ways (`move_of_step`), and the failures that the client
counts are never more than those in the events since the last success. The last part follows the end
of a connection through `failOverFromClosedEntry`. -/
theorem entry_moves {events : List (EntryEnv × EntryEvent)} {event : EntryEvent} {env' : EntryEnv}
    (hrun : runEvents (step options) (connected options env nodes entryUrl transport) events =
      some client) (hstep : client.step options (env', event) = some client') :
    (client'.entryUrl ≠ client.entryUrl →
      (∃ next ∈ client'.nodes, isEntryCapable next isKpsEntryNode = true ∧
        client'.entryUrl = next.address) ∧
      ((∃ address conn, kpsAddressOfEntry client.entryUrl = some address ∧
          event = .transport (.onEntry ⟨address, .primary⟩ (.closed conn)) ∧
          client'.transport.isConnected ((kpsAddressOfEntry client'.entryUrl).getD "") = true) ∨
        (isFailureOf client.entryUrl event = true ∧
          2 ≤ failuresSince client.entryUrl (events ++ [(env', event)])) ∨
        ∃ members, event = .setNodes members ∧
          ∀ node ∈ members, node.address ≠ client.entryUrl)) ∧
    ∀ address conn, kpsAddressOfEntry client.entryUrl = some address →
      event = .transport (.onEntry ⟨address, .primary⟩ (.closed conn)) →
      client.listening = true →
      reportedAddress client.transport (.onEntry ⟨address, .primary⟩ (.closed conn)) =
        some address →
      (∃ next ∈ client.nodes, isEntryCapable next isKpsEntryNode = true ∧
        kpsAddressOfEntry next.address ≠ some address ∧
        client.transport.isConnected (entryAddress next) = true) →
      client'.transport.isConnected ((kpsAddressOfEntry client'.entryUrl).getD "") = true := by
  have hcounted : client.pinnedEntryFailures ≤ failuresSince client.entryUrl events := by
    refine @runEvents_invariant _ _ _ _ _ (fun past client =>
      client.pinnedEntryFailures ≤ failuresSince client.entryUrl past) [] events hrun ?_ ?_
    · exact Nat.le_of_eq pinnedEntryFailures_refreshStandby
    · exact fun _ _ _ _ hbefore hstep => failures_le_of_step hbefore hstep
  refine ⟨fun hmoved => ?_, ?_⟩
  · cases move_of_step hstep with
    | stays hurl => exact absurd hurl hmoved
    | closed hpinned hmem hcapable _ hconnected hurl =>
      refine ⟨⟨_, hmem, hcapable, hurl⟩, .inl ⟨_, _, hpinned, rfl, ?_⟩⟩
      rw [hurl]
      exact hconnected
    | failed hpinned hagain hmem hcapable _ hurl =>
      have hfailure : isFailureOf client.entryUrl (.transportFailure _) = true :=
        beq_iff_eq.mpr hpinned
      refine ⟨⟨_, hmem, hcapable, hurl⟩, .inr (.inl ⟨hfailure, ?_⟩)⟩
      rw [failuresSince_append, if_neg (by simp [isSuccessOf]), hfailure]
      exact hagain.trans (Nat.add_le_add_right hcounted 1)
    | left hgone hmem hcapable hurl =>
      exact ⟨⟨_, hmem, hcapable, hurl⟩, .inr (.inr ⟨_, rfl, hgone⟩)⟩
  · rintro address conn hpinned rfl hlistening hreported ⟨next, hmem, hcapable, hother, hconnected⟩
    rw [step, if_neg (by simp [ConnectionPoolEvent.isOwn])] at hstep
    obtain ⟨transport, htransport, rfl⟩ := Option.map_eq_some_iff.mp hstep
    have hne : (⟨entryAddress next, .primary⟩ : PoolKey) ≠ ⟨address, .primary⟩ := by
      obtain ⟨found, hfound⟩ := Option.isSome_iff_exists.mp (isSome_of_isEntryCapable hcapable)
      rw [entryAddress, hfound, Option.getD_some]
      rintro ⟨⟩
      exact hother hfound
    -- the connected entry is among those that the failover looks at
    have hranked : next ∈ rankedOtherEntries
        (planState options { client with transport } env') :=
      mem_rankedOtherEntries_iff.mpr ⟨hmem, hcapable, hpinned.symm ▸ hother⟩
    -- and the end of another connection has not touched its own
    have hstill : transport.isConnected (entryAddress next) = true :=
      (ConnectionPool.hasConn_of_onEntry htransport hne).trans hconnected
    rw [onTransport, hlistening, hreported]
    dsimp only
    rw [onConnectionClosed, if_pos hpinned.symm, failOverFromClosedEntry]
    dsimp only
    split
    · rename_i hnone
      exact absurd hstill (List.find?_eq_none.mp hnone next hranked)
    · rename_i found hfound
      have hfast : transport.isConnected (entryAddress found) = true :=
        @List.find?_some _ (fun node => transport.isConnected (entryAddress node)) _ _ hfound
      rw [entryUrl_refreshStandby]
      exact hasConn_refreshStandby.trans hfast

end Lemmas
/-! ### An entry that closes -/

private def pinnedAddress : String :=
  "192.0.2.1:443:uEiAAAAAAAAAAAAAAAAAAAAAAAAAAAAAAAAAAAAAAAAAAAA"

private def standbyAddress : String :=
  "192.0.2.2:443:uEiAAAAAAAAAAAAAAAAAAAAAAAAAAAAAAAAAAAAAAAAAAAA"

private def nodeAt (address : String) : TopologyNode where
  id := address
  address := kpsEndpointPrefix ++ address
  routingAddress := ""
  publicKey := []
  layer := 0
  role := 3
  capabilities := none
  probation := none

private def standbyOptions : StandbyOptions where
  standby := true
  userAnchors := none
  warmupBytes := 0
  settings := ConnectionPool.sampleSettings

private def standbyEnv (now : ℕ) : EntryEnv := ⟨now, fun _ => none, fun _ => none, 0⟩

/-- Both entries are connected. -/
private def standbyPool : ConnectionPool where
  pool := ⟨[pinnedAddress, standbyAddress].map fun address => (⟨address, .primary⟩,
    { dials := [⟨0, .pooled, true, 0, false, none⟩], conn := some 0, lastActivity := 0 }),
    by decide +kernel⟩

private def standbyStart : EntryClient :=
  connected standbyOptions (standbyEnv 0) [] (nodeAt pinnedAddress).address standbyPool

private def standbyEvents : List (EntryEnv × EntryEvent) :=
  [(standbyEnv 10, .setNodes [nodeAt pinnedAddress, nodeAt standbyAddress])]

private def beforeClose : EntryClient :=
  (runEvents (step standbyOptions) standbyStart standbyEvents).get (by decide +kernel)

private theorem entry_pinnedAddress :
    kpsAddressOfEntry (nodeAt pinnedAddress).address = some pinnedAddress := by decide +kernel

private theorem entry_standbyAddress :
    kpsAddressOfEntry (nodeAt standbyAddress).address = some standbyAddress := by decide +kernel

private theorem run_beforeClose :
    runEvents (step standbyOptions) standbyStart standbyEvents = some beforeClose :=
  (Option.some_get _).symm

private theorem beforeClose_facts :
    beforeClose.entryUrl = (nodeAt pinnedAddress).address ∧ beforeClose.listening = true ∧
      nodeAt standbyAddress ∈ beforeClose.nodes ∧
      beforeClose.transport.isConnected pinnedAddress = true ∧
      beforeClose.transport.isConnected standbyAddress = true ∧
      reportedAddress beforeClose.transport (.onEntry ⟨pinnedAddress, .primary⟩ (.closed 0)) =
        some pinnedAddress := by
  decide +kernel

private def pinnedCloses : EntryEvent :=
  .transport (.onEntry ⟨pinnedAddress, .primary⟩ (.closed 0))

private def afterClose : EntryClient :=
  (beforeClose.step standbyOptions (standbyEnv 50000, pinnedCloses)).get (by decide +kernel)

/-- A sweep long after the last use leaves the connection of the entry. -/
theorem standby_kept_sample :
    (beforeClose.transport.maintain standbyOptions.settings 90000).isConnected pinnedAddress =
      true := by
  obtain ⟨hurl, -, -, hconnected, -, -⟩ := beforeClose_facts
  obtain ⟨pinned, hpinned, hretained, -, hkept⟩ := standby_kept
    (by rw [entry_pinnedAddress]; rfl) rfl (run_of_runEvents run_beforeClose)
  rw [hurl, entry_pinnedAddress] at hpinned
  obtain rfl := Option.some.inj hpinned
  exact hkept 90000 _ (by rw [hretained]; exact List.mem_cons_self) hconnected

/-- The connection of the pinned entry ends, and the client is pinned to a connected one. -/
theorem entry_moves_sample :
    afterClose.transport.isConnected ((kpsAddressOfEntry afterClose.entryUrl).getD "") = true := by
  have hstep : beforeClose.step standbyOptions (standbyEnv 50000, pinnedCloses) =
      some afterClose := (Option.some_get _).symm
  obtain ⟨hurl, hlistening, hmem, -, hconnected, hreported⟩ := beforeClose_facts
  have hcapable : isEntryCapable (nodeAt standbyAddress) isKpsEntryNode = true := by
    rw [isEntryCapable, isKpsEntryNode, entry_standbyAddress]
    rfl
  have hother : kpsAddressOfEntry (nodeAt standbyAddress).address ≠ some pinnedAddress := by
    rw [entry_standbyAddress]
    decide
  have hopen : beforeClose.transport.isConnected (entryAddress (nodeAt standbyAddress)) = true := by
    rw [entryAddress, entry_standbyAddress]
    exact hconnected
  exact (entry_moves run_beforeClose hstep).2 pinnedAddress 0
    (hurl.symm ▸ entry_pinnedAddress) rfl hlistening hreported
    ⟨_, hmem, hcapable, hother, hopen⟩

end EntryClient

end NoxSdk.Client
