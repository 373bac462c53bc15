import NoxSdk.Lib.OrderedMap
import NoxSdk.Topology.Snapshot
import Mathlib.Data.List.Sort
import Mathlib.Data.String.Basic

/-!
# Liveness of the members

A snapshot of schema version 2 lists an observation for each member. The order, membership,
duplicate and cardinality checks of `verifySelfConsistency` stand in separate loops; together
they pair the observations with the nodes one by one, and so `selectLiveNodes` keeps the nodes
whose own observation is recent.
-/

namespace NoxSdk.Topology

open Js (toLowerCase isHexDigit)

/-! ### Selection of the live nodes -/

/-- `DEFAULT_CLOCK_SKEW_TOLERANCE_SECONDS`. -/
def defaultClockSkewToleranceSeconds : ℤ := 60

/-- `Number.isSafeInteger`, of a whole number. -/
def isSafeInteger (n : ℤ) : Bool := n.natAbs < Js.safeBound

/-- `livenessByAddress` of `selectLiveNodes`. -/
def livenessByAddress (liveness : List TopologyLiveness) : OrderedMap String TopologyLiveness :=
  liveness.foldl (fun map observation =>
    map.set (normalizeAddress observation.address) observation) .empty

/-- The test of `selectLiveNodes` on the observation of a node. -/
def isLive (snapshotUnix maxAgeSeconds : ℤ) (observation : TopologyLiveness) : Bool :=
  decide (observation.status = .online) && decide (observation.observedAtUnix ≤ snapshotUnix) &&
    decide (snapshotUnix - observation.observedAtUnix ≤ maxAgeSeconds)

/-- The arguments `selectLiveNodes` accepts. -/
def selectionInRange (nowUnix maxAgeSeconds clockSkewToleranceSeconds : ℤ) : Bool :=
  isSafeInteger nowUnix && decide (0 ≤ nowUnix) &&
    isSafeInteger maxAgeSeconds && decide (0 < maxAgeSeconds) &&
    isSafeInteger clockSkewToleranceSeconds && decide (0 ≤ clockSkewToleranceSeconds)

/-- `selectLiveNodes`; the last argument is `defaultClockSkewToleranceSeconds` where the caller
leaves it out. -/
def selectLiveNodes (hashes : Hashes) (snapshot : TopologySnapshot)
    (nowUnix maxAgeSeconds clockSkewToleranceSeconds : ℤ) :
    Except Thrown (List RelayerNode) := do
  if !selectionInRange nowUnix maxAgeSeconds clockSkewToleranceSeconds then
    throw (.noxClientError
      "Liveness selection requires non-negative time and positive maximum age" .invalidConfig)
  validateLiveness hashes snapshot true
  let snapshotUnix : ℤ := snapshot.timestamp.getD 0
  if maxAgeSeconds + clockSkewToleranceSeconds < nowUnix - snapshotUnix then
    throw (verificationFailed <|
      s!"Topology snapshot is {nowUnix - snapshotUnix}s older than the local clock " ++
      s!"(limit {maxAgeSeconds + clockSkewToleranceSeconds}s); the seed is serving stale data " ++
      "or the local clock is wrong")
  let byAddress := livenessByAddress (snapshot.liveness.getD [])
  return snapshot.nodes.filter fun node =>
    (byAddress.get? (normalizeAddress node.address)).any (isLive snapshotUnix maxAgeSeconds)

/-! ### What the separate checks say -/

variable {hashes : Hashes} {snapshot : TopologySnapshot} {nodes : List RelayerNode}
  {liveness : List TopologyLiveness}

/-- Each address below the next one is each below all that follow. -/
theorem isCanonicalAddressOrder_iff {addresses : List String} :
    isCanonicalAddressOrder addresses = true ↔ addresses.Pairwise (· < ·) := by
  induction addresses with
  | nil => simp [isCanonicalAddressOrder]
  | cons a rest ih =>
    cases rest with
    | nil => simp [isCanonicalAddressOrder]
    | cons b rest =>
      rw [isCanonicalAddressOrder, Bool.and_eq_true, decide_eq_true_iff, ih,
        List.pairwise_cons (a := a)]
      refine and_congr_left fun hrest => ⟨fun hlt c hc => ?_, fun h => h b List.mem_cons_self⟩
      rcases List.mem_cons.mp hc with rfl | hc
      · exact hlt
      · exact hlt.trans (List.rel_of_pairwise_cons hrest hc)

/-- The loop over the observations collects their addresses, all of them of members. -/
theorem checkObservations_ok {members observations result : List String}
    (h : checkObservations members observations liveness = .ok result) :
    result = observations ++ liveness.map (normalizeAddress ·.address) ∧
      ∀ observation ∈ liveness, normalizeAddress observation.address ∈ members := by
  induction liveness generalizing observations with
  | nil =>
    obtain rfl := Except.ok.inj h
    simp
  | cons observation rest ih =>
    simp only [checkObservations] at h
    split_ifs at h with hmember hduplicate
    obtain ⟨rfl, hrest⟩ := ih h
    refine ⟨by simp, List.forall_mem_cons.mpr ⟨?_, hrest⟩⟩
    simpa using hmember

/-- A node that passes is in the primary layer of its role. -/
theorem checkPrimaryLayer_ok {node : RelayerNode} (h : checkPrimaryLayer hashes node = .ok ()) :
    node.layer = primaryLayerForRole hashes node.address node.role := by
  simp only [checkPrimaryLayer] at h
  split_ifs at h with hne
  exact not_ne_iff.mp hne

/-- A loop of checks passes when each of them does. -/
theorem forM_ok {α : Type} {check : α → Except Thrown Unit} {l : List α}
    (h : l.forM check = .ok ()) : ∀ a ∈ l, check a = .ok () := by
  induction l with
  | nil => simp
  | cons a rest ih =>
    obtain ⟨_, ha, hrest⟩ := bind_eq_ok_iff.mp h
    exact List.forall_mem_cons.mpr ⟨ha, ih hrest⟩

/-- The pairing: a sorted list of distinct members that is as long as theirs is their list. -/
theorem eq_of_covers {members addresses : List String} (hmembers : members.Pairwise (· < ·))
    (haddresses : addresses.Pairwise (· < ·)) (hsubset : ∀ a ∈ addresses, a ∈ members)
    (hlength : addresses.length = members.length) : addresses = members := by
  have hnodup : addresses.Nodup := haddresses.imp (fun h => h.ne)
  have hperm : addresses.Perm members :=
    (List.subperm_of_subset hnodup hsubset).perm_of_length_le hlength.ge
  exact hperm.eq_of_pairwise' haddresses hmembers

/-- What complete liveness means for the lists of a document. -/
structure Aligned (hashes : Hashes) (nodes : List RelayerNode)
    (liveness : List TopologyLiveness) : Prop where
  sorted : (nodes.map (normalizeAddress ·.address)).Pairwise (· < ·)
  own : liveness.map (normalizeAddress ·.address) = nodes.map (normalizeAddress ·.address)
  layers : ∀ node ∈ nodes, node.layer = primaryLayerForRole hashes node.address node.role

/-- What passes has one observation for each node, in their order. -/
theorem validateCompleteLiveness_ok (h : validateCompleteLiveness hashes nodes liveness = .ok ()) :
    Aligned hashes nodes liveness := by
  simp only [validateCompleteLiveness] at h
  split_ifs at h with horder
  · cases h
  obtain ⟨_, hlayers, h⟩ := bind_eq_ok_iff.mp h
  obtain ⟨observations, hobservations, h⟩ := bind_eq_ok_iff.mp h
  split_ifs at h with hcount
  simp only [Bool.or_eq_true, Bool.not_eq_true', not_or, Bool.not_eq_false,
    isCanonicalAddressOrder_iff] at horder
  obtain ⟨rfl, hmembers⟩ := checkObservations_ok hobservations
  have hnodup : (nodes.map (normalizeAddress ·.address)).Nodup :=
    horder.1.imp (fun h => h.ne)
  refine ⟨horder.1, ?_, fun node hnode => checkPrimaryLayer_ok (forM_ok hlayers node hnode)⟩
  refine eq_of_covers horder.1 horder.2 (List.forall_mem_map.mpr hmembers) ?_
  simpa [hnodup.dedup] using hcount

/-- A complete document that passes has liveness, a timestamp and aligned observations. -/
theorem validateLiveness_ok (h : validateLiveness hashes snapshot true = .ok ()) :
    ∃ liveness timestamp, snapshot.liveness = some liveness ∧
      snapshot.timestamp = some timestamp ∧ Aligned hashes snapshot.nodes liveness := by
  rw [validateLiveness] at h
  split at h
  · cases h
  · split at h
    · rename_i liveness hliveness
      split_ifs at h with hpinned
      rw [not_or] at hpinned
      cases htimestamp : snapshot.timestamp with
      | none => simp [htimestamp] at hpinned
      | some timestamp => exact ⟨liveness, timestamp, hliveness, rfl,
          validateCompleteLiveness_ok h⟩
    · cases h
  · cases h

/-! ### The nodes of a document -/

/-- The addresses of nodes that pass `validateSnapshotNodes` are distinct, whatever their case. -/
theorem validateSnapshotNodes_ok {addresses : List String}
    (h : validateSnapshotNodes addresses nodes = .ok ()) (hnodup : addresses.Nodup) :
    (∀ node ∈ nodes, isAddress node.address = true) ∧
      (addresses ++ nodes.map (toLowerCase ·.address)).Nodup := by
  induction nodes generalizing addresses with
  | nil => simpa using hnodup
  | cons node rest ih =>
    obtain ⟨_, hnode, hrest⟩ := bind_eq_ok_iff.mp h
    rw [validateSnapshotNode] at hnode
    split_ifs at hnode with haddress hduplicate
    have hfresh : toLowerCase node.address ∉ addresses := by simpa using hduplicate
    have hgrown : (addresses ++ [toLowerCase node.address]).Nodup :=
      List.nodup_append.mpr ⟨hnodup, List.nodup_singleton _, by
        rintro a ha _ hb rfl
        exact hfresh (List.mem_singleton.mp hb ▸ ha)⟩
    obtain ⟨haddresses, hdistinct⟩ := ih hrest hgrown
    refine ⟨List.forall_mem_cons.mpr ⟨by simpa using haddress, haddresses⟩, ?_⟩
    simpa using hdistinct

/-! ### The fingerprint -/

/-- The bytes of an address. -/
def addressBytes (node : RelayerNode) : Bytes :=
  bytesOfDigits ((stripPrefix node.address).map Char.toLower)

/-- The XOR of one byte of the hashes of the addresses. -/
def xorOfHashes (hashes : Hashes) (nodes : List RelayerNode) (i : ℕ) : UInt8 :=
  nodes.foldr (fun node xor => (hashes.keccak256 (addressBytes node)).getD i 0 ^^^ xor) 0

/-- The XOR over the nodes as text. -/
def fingerprintOf (hashes : Hashes) (nodes : List RelayerNode) : String :=
  bytesToHex ((List.range 32).map (xorOfHashes hashes nodes))

/-- Lower case leaves digits digits, checked for all of ASCII. -/
private theorem isHexDigit_toLower_ascii : ∀ n < 128, isHexDigit (Char.ofNat n) = true →
    isHexDigit (Char.ofNat n).toLower = true := by
  decide

/-- The lower case of a digit is a digit. -/
theorem isHexDigit_toLower {c : Char} (h : isHexDigit c = true) :
    isHexDigit c.toLower = true := by
  have hlower := isHexDigit_toLower_ascii c.toNat (Js.toNat_lt_of_isHexDigit h)
  rw [Char.ofNat_toNat] at hlower
  exact hlower h

/-- The bytes of a well-formed address are read. -/
theorem hexToBytes_address {node : RelayerNode} (h : isAddress node.address = true) :
    hexToBytes ((stripPrefix node.address).map Char.toLower) = .ok (addressBytes node) := by
  rw [isAddress] at h
  split at h
  · rename_i digits heq
    simp only [Bool.and_eq_true, beq_iff_eq, List.all_eq_true] at h
    have hstrip : stripPrefix node.address = digits := by
      rw [stripPrefix, heq]
      rfl
    have hlower : ∀ c ∈ digits.map Char.toLower, isHexDigit c = true := by
      intro c hc
      obtain ⟨d, hd, rfl⟩ := List.mem_map.mp hc
      exact isHexDigit_toLower (h.2 d hd)
    simp only [hexToBytes, addressBytes, hstrip, strip0x_of_isHexDigit hlower]
    exact if_pos ⟨by rw [List.length_map, h.1], List.all_eq_true.mpr hlower⟩
  · cases h

/-- The loop of the fingerprint, from any bytes. -/
theorem foldlM_xorAddress {xor : Bytes} (hxor : xor.length = 32)
    (h : ∀ node ∈ nodes, isAddress node.address = true) :
    nodes.foldlM (xorAddress hashes) xor =
      .ok ((List.range 32).map fun i => xor.getD i 0 ^^^ xorOfHashes hashes nodes i) := by
  induction nodes generalizing xor with
  | nil =>
    refine congrArg Except.ok (List.ext_getElem (by simpa using hxor) fun i hi _ => ?_)
    simp [xorOfHashes, List.getD_eq_getElem?_getD, hi]
  | cons node rest ih =>
    obtain ⟨hnode, hrest⟩ := List.forall_mem_cons.mp h
    rw [List.foldlM_cons, xorAddress, hexToBytes_address hnode, ok_bind, pure_eq_ok, ok_bind,
      ih (by simp) hrest]
    refine congrArg Except.ok (List.map_congr_left fun i hi => ?_)
    have hi := List.mem_range.mp hi
    simp [xorOfHashes, List.getD_eq_getElem?_getD, hi, UInt8.xor_assoc]

/-- The fingerprint of nodes with proper addresses is the hash of their sorted lines. -/
theorem computeTopologyFingerprint_eq (h : ∀ node ∈ nodes, isAddress node.address = true) :
    computeTopologyFingerprint hashes nodes = .ok (fingerprintOf hashes nodes) := by
  rw [computeTopologyFingerprint, foldlM_xorAddress (by simp) h, ok_bind]
  refine congrArg (Except.ok ∘ bytesToHex) (List.map_congr_left fun i hi => ?_)
  have hzero : (List.replicate 32 (0 : UInt8)).getD i 0 = 0 := by
    rw [List.getD_eq_getElem?_getD, List.getElem?_replicate]
    split_ifs <;> rfl
  rw [hzero]
  exact UInt8.zero_xor

/-! ### The selection by paired observations -/

/-- One entry of `livenessByAddress`. -/
private def addObservation (map : OrderedMap String TopologyLiveness)
    (observation : TopologyLiveness) : OrderedMap String TopologyLiveness :=
  map.set (normalizeAddress observation.address) observation

/-- Observations of others do not change what is noted for an address. -/
private theorem get?_foldl_of_notMem {address : String} {map : OrderedMap String TopologyLiveness}
    (h : address ∉ liveness.map (normalizeAddress ·.address)) :
    (liveness.foldl addObservation map).get? address = map.get? address := by
  induction liveness generalizing map with
  | nil => rfl
  | cons first rest ih =>
    rw [List.map_cons, List.mem_cons, not_or] at h
    rw [List.foldl_cons, ih h.2, addObservation, OrderedMap.get?_set_of_ne _ _ h.1]

/-- A map filled from a list with distinct addresses holds each observation under its own. -/
theorem get?_livenessByAddress (hnodup : (liveness.map (normalizeAddress ·.address)).Nodup)
    {observation : TopologyLiveness} (h : observation ∈ liveness) :
    (livenessByAddress liveness).get? (normalizeAddress observation.address) =
      some observation := by
  suffices ∀ map, (liveness.foldl addObservation map).get? (normalizeAddress observation.address) =
      some observation from this .empty
  induction liveness with
  | nil => cases h
  | cons first rest ih =>
    intro map
    rw [List.map_cons, List.nodup_cons] at hnodup
    rw [List.foldl_cons]
    rcases List.mem_cons.mp h with rfl | h
    · rw [get?_foldl_of_notMem hnodup.1, addObservation, OrderedMap.get?_set_self]
    · exact ih hnodup.2 h _

/-- Nodes kept by a test of their paired observation. -/
def liveOf (snapshotUnix maxAgeSeconds : ℤ) (nodes : List RelayerNode)
    (liveness : List TopologyLiveness) : List RelayerNode :=
  ((nodes.zip liveness).filter fun pair => isLive snapshotUnix maxAgeSeconds pair.2).map Prod.fst

/-- A lookup that finds the paired observation of every node keeps what the pairs keep. -/
theorem filter_eq_liveOf {lookup : RelayerNode → Option TopologyLiveness}
    {snapshotUnix maxAgeSeconds : ℤ}
    (h : List.Forall₂ (fun node observation => lookup node = some observation) nodes liveness) :
    nodes.filter (fun node => (lookup node).any (isLive snapshotUnix maxAgeSeconds)) =
      liveOf snapshotUnix maxAgeSeconds nodes liveness := by
  induction h with
  | nil => rfl
  | @cons node observation nodes liveness hlookup _ ih =>
    rw [List.filter_cons, hlookup, ih, liveOf, liveOf, List.zip_cons_cons, List.filter_cons,
      Option.any_some]
    split_ifs <;> simp

/-- The observation of each node is the one in its place. -/
def Paired (nodes : List RelayerNode) (liveness : List TopologyLiveness) : Prop :=
  List.Forall₂ (fun node observation =>
    normalizeAddress observation.address = normalizeAddress node.address) nodes liveness

/-- Aligned observations belong to the nodes one by one. -/
theorem Aligned.paired (h : Aligned hashes nodes liveness) : Paired nodes liveness := by
  have hown : List.Forall₂ (· = ·) (nodes.map (normalizeAddress ·.address))
      (liveness.map (normalizeAddress ·.address)) := by
    rw [h.own]
    exact List.forall₂_refl _
  rw [List.forall₂_map_left_iff, List.forall₂_map_right_iff] at hown
  exact hown.imp fun _ _ heq => heq.symm

/-- No address is observed twice. -/
theorem Aligned.nodup (h : Aligned hashes nodes liveness) :
    (liveness.map (normalizeAddress ·.address)).Nodup := by
  rw [h.own]
  exact h.sorted.imp fun h => h.ne

/-- A node is live by the map exactly when its own observation says so. -/
theorem Aligned.filter_eq (h : Aligned hashes nodes liveness) (snapshotUnix maxAgeSeconds : ℤ) :
    nodes.filter (fun node => ((livenessByAddress liveness).get?
        (normalizeAddress node.address)).any (isLive snapshotUnix maxAgeSeconds)) =
      liveOf snapshotUnix maxAgeSeconds nodes liveness := by
  refine filter_eq_liveOf ?_
  refine List.forall₂_iff_get.mpr ⟨h.paired.length_eq, fun i hi hl => ?_⟩
  have hown := (List.forall₂_iff_get.mp h.paired).2 i hi hl
  rw [← hown]
  exact get?_livenessByAddress h.nodup (List.get_mem _ _)

/-- The arguments and the age under which a snapshot is read. -/
structure Fresh (timestamp : ℕ) (nowUnix maxAgeSeconds clockSkewToleranceSeconds : ℤ) :
    Prop where
  inRange : selectionInRange nowUnix maxAgeSeconds clockSkewToleranceSeconds = true
  notStale : nowUnix - timestamp ≤ maxAgeSeconds + clockSkewToleranceSeconds

/-- The live nodes are returned exactly when the document is not from the future. -/
theorem selectLiveNodes_eq_ok_iff {timestamp : ℕ}
    {nowUnix maxAgeSeconds clockSkewToleranceSeconds : ℤ} {live : List RelayerNode}
    (hvalid : validateLiveness hashes snapshot true = .ok ())
    (hliveness : snapshot.liveness = some liveness)
    (htimestamp : snapshot.timestamp = some timestamp)
    (halign : Aligned hashes snapshot.nodes liveness) :
    selectLiveNodes hashes snapshot nowUnix maxAgeSeconds clockSkewToleranceSeconds = .ok live ↔
      Fresh timestamp nowUnix maxAgeSeconds clockSkewToleranceSeconds ∧
        live = liveOf timestamp maxAgeSeconds snapshot.nodes liveness := by
  rw [selectLiveNodes, hliveness, htimestamp]
  simp only [Option.getD_some, halign.filter_eq]
  cases hrange : selectionInRange nowUnix maxAgeSeconds clockSkewToleranceSeconds with
  | false =>
    constructor
    · intro h
      cases h
    · intro h
      cases hrange.symm.trans h.1.inRange
  | true =>
    simp only [Bool.not_true, Bool.false_eq_true, if_false, hvalid, ok_bind]
    constructor
    · intro h
      split_ifs at h with hstale
      · cases h
      · exact ⟨⟨hrange, not_lt.mp hstale⟩, (Except.ok.inj h).symm⟩
    · rintro ⟨⟨-, hage⟩, rfl⟩
      rw [if_neg (not_lt.mpr hage)]
      rfl

/-- A self-consistent snapshot with complete liveness pairs its observations with its nodes: the
addresses are strictly increasing and distinct, every node reports the primary layer of its role,
the fingerprint is the XOR over these addresses, and the selection is by the paired observation.

Each check that has passed says its part: those of the nodes that the addresses are distinct
(`validateSnapshotNodes_ok`), those of the observations that they are aligned
(`validateLiveness_ok`). With both, the map by address that the selection uses is the pairing
(`selectLiveNodes_eq_ok_iff`). -/
theorem verifySelfConsistency_aligned (hashes : Hashes) (snapshot : TopologySnapshot)
    (h : verifySelfConsistency hashes snapshot true = .ok ()) :
    ∃ liveness timestamp, snapshot.liveness = some liveness ∧
      snapshot.timestamp = some timestamp ∧
      snapshot.nodes.length = liveness.length ∧ Paired snapshot.nodes liveness ∧
      (snapshot.nodes.map (normalizeAddress ·.address)).Pairwise (· < ·) ∧
      (liveness.map (normalizeAddress ·.address)).Nodup ∧
      (snapshot.nodes.map (toLowerCase ·.address)).Nodup ∧
      (∀ node ∈ snapshot.nodes, node.layer = primaryLayerForRole hashes node.address node.role) ∧
      computeTopologyFingerprint hashes snapshot.nodes =
        .ok (fingerprintOf hashes snapshot.nodes) ∧
      fingerprintOf hashes snapshot.nodes =
        String.ofList (strip0x (toLowerCase snapshot.fingerprint).toList) ∧
      ∀ (nowUnix maxAgeSeconds clockSkewToleranceSeconds : ℤ) (live : List RelayerNode),
        selectLiveNodes hashes snapshot nowUnix maxAgeSeconds clockSkewToleranceSeconds =
            .ok live ↔
          Fresh timestamp nowUnix maxAgeSeconds clockSkewToleranceSeconds ∧
            live = liveOf timestamp maxAgeSeconds snapshot.nodes liveness := by
  obtain ⟨_, hnodes, h⟩ := bind_eq_ok_iff.mp h
  obtain ⟨_, hvalid, h⟩ := bind_eq_ok_iff.mp h
  obtain ⟨liveness, timestamp, hliveness, htimestamp, halign⟩ := validateLiveness_ok hvalid
  obtain ⟨haddresses, hdistinct⟩ := validateSnapshotNodes_ok hnodes List.nodup_nil
  have hcomputed : computeTopologyFingerprint hashes snapshot.nodes = _ :=
    computeTopologyFingerprint_eq haddresses
  rw [hcomputed, ok_bind] at h
  dsimp only at h
  split_ifs at h with hclaimed
  exact ⟨liveness, timestamp, hliveness, htimestamp, halign.paired.length_eq, halign.paired,
    halign.sorted, halign.nodup, hdistinct, halign.layers, hcomputed, not_ne_iff.mp hclaimed,
    fun _ _ _ _ => selectLiveNodes_eq_ok_iff hvalid hliveness htimestamp halign⟩

/-- The hashes of the two addresses of the example, and the first byte of the other digest. -/
private def twoHashes : Hashes where
  keccak256 bytes :=
    if bytes = List.replicate 20 0x11 then
      [0xe2, 0xc0, 0x74, 0x04, 0xb8, 0xc1, 0xdf, 0x4c, 0x46, 0x22, 0x64, 0x25, 0xca, 0xc6,
       0x8c, 0x28, 0xd2, 0x7a, 0x76, 0x6b, 0xbd, 0xdc, 0xe6, 0x23, 0x09, 0xf3, 0x67, 0x24,
       0x83, 0x9b, 0x22, 0xc0]
    else
      [0x5a, 0xb9, 0xa7, 0x56, 0x47, 0x46, 0x3d, 0xb7, 0xd9, 0x26, 0x3b, 0xfd, 0xf0, 0xf9,
       0xb4, 0x55, 0xfd, 0x5a, 0x2f, 0xf8, 0x9f, 0x44, 0x6d, 0x3d, 0xfa, 0x3d, 0xfe, 0x67,
       0xca, 0xe5, 0x64, 0x9d]
  sha256 bytes := if bytes = 0x30 :: 0x78 :: List.replicate 40 0x31 then [0xa8] else [0x30]

private def exampleNode (digits : String) (role : ℕ) : RelayerNode where
  address := "0x" ++ digits
  sphinxKey := String.ofList (List.replicate 64 '5')
  url := "http://node"
  stake := "1000"
  lastSeen := 0
  isPrivileged := false
  layer := 0
  role := role
  ingressUrl := none
  metadataUrl := none

/-- A relay that was seen and a full node that was not; the cases of the addresses differ. -/
private def twoNodes : TopologySnapshot where
  nodes := [exampleNode "1111111111111111111111111111111111111111" 1,
    exampleNode "AAAAAaaaaaAAAAAaaaaaAAAAAaaaaaAAAAAaaaaa" 3]
  fingerprint := "0xb879d352ff87e2fb9f045fd83a3f387d2f20599322988b1ef3ce9943497e465d"
  schemaVersion := some 2
  liveness := some
    [⟨"0x1111111111111111111111111111111111111111", .online, 990⟩,
      ⟨"0xaaaaaaaaaaaaaaaaaaaaaaaaaaaaaaaaaaaaaaaa", .offline, 995⟩]
  timestamp := some 1000
  blockNumber := some 5

/-- A document of two nodes, one of which is live. -/
theorem verifySelfConsistency_aligned_two :
    verifySelfConsistency twoHashes twoNodes true = .ok () ∧
      selectLiveNodes twoHashes twoNodes 1010 180 defaultClockSkewToleranceSeconds =
        .ok [exampleNode "1111111111111111111111111111111111111111" 1] := by
  have hok : verifySelfConsistency twoHashes twoNodes true = .ok () :=
    toOption_eq_some_iff.mp (by decide +kernel)
  refine ⟨hok, ?_⟩
  obtain ⟨liveness, timestamp, hliveness, htimestamp, -, -, -, -, -, -, -, -, hselect⟩ :=
    verifySelfConsistency_aligned twoHashes twoNodes hok
  obtain rfl := Option.some.inj hliveness
  obtain rfl := Option.some.inj htimestamp
  exact (hselect _ _ _ _).mpr ⟨⟨by decide, by decide⟩, by decide⟩

end NoxSdk.Topology
