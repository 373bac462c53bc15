import NoxSdk.Kps.ServedTopologies

/-!
# What a stale verdict rests on

`applyServedTopologies` reads liveness for the kept set, for the floor and for the layers that
it reports offline, in the loop that also finds the layers the registry no longer lists. The
verdict `TOPOLOGY_STALE` does not read it: documents that differ only in what a seed observed
are accepted alike and list the same members, and the loop looks for a layer that is gone before
it counts the members that are online. `throwsStale_iff_registryGone` is the whole condition.
-/

namespace NoxSdk.Kps

open NoxSdk.Topology

/-! ### Documents without what a seed observed -/

section Unobserved

variable {hashes : Hashes}

/-- The observation of a member, without what was observed. -/
def unobservedLiveness (observation : TopologyLiveness) : TopologyLiveness :=
  { observation with status := .offline, observedAtUnix := 0 }

/-- A snapshot whose observations say nothing. -/
def unobservedSnapshot (snapshot : TopologySnapshot) : TopologySnapshot :=
  { snapshot with liveness := snapshot.liveness.map (·.map unobservedLiveness) }

/-- A document whose observations say nothing. -/
def ServedTopology.unobserved (source : ServedTopology) : ServedTopology :=
  { source with snapshot := unobservedSnapshot source.snapshot }

/-- A document has nothing more to lose than its observations. -/
theorem unobserved_unobserved (source : ServedTopology) :
    source.unobserved.unobserved = source.unobserved := by
  simp only [ServedTopology.unobserved, unobservedSnapshot, Option.map_map, Function.comp_def,
    List.map_map]
  rfl

/-- The documents differ only in the status and the time of their observations. -/
def DifferInLiveness (served others : List ServedTopology) : Prop :=
  List.Forall₂ (fun source other => source.unobserved = other.unobserved) served others

/-- The check of the observations does not look at what they say of a member. -/
theorem checkObservations_unobserved (members observations : List String)
    (liveness : List TopologyLiveness) :
    checkObservations members observations (liveness.map unobservedLiveness) =
      checkObservations members observations liveness := by
  induction liveness generalizing observations with
  | nil => rfl
  | cons observation rest ih =>
    rw [List.map_cons, checkObservations, checkObservations, ih]
    rfl

/-- Nor does the check that every member is observed. -/
theorem validateCompleteLiveness_unobserved (nodes : List RelayerNode)
    (liveness : List TopologyLiveness) :
    validateCompleteLiveness hashes nodes (liveness.map unobservedLiveness) =
      validateCompleteLiveness hashes nodes liveness := by
  have haddresses : (liveness.map unobservedLiveness).map
      (fun observation => normalizeAddress observation.address) =
        liveness.map fun observation => normalizeAddress observation.address := by
    rw [List.map_map]
    rfl
  simp only [validateCompleteLiveness, haddresses, checkObservations_unobserved]

/-- Nor does the whole check of the liveness part. -/
theorem validateLiveness_unobserved (snapshot : TopologySnapshot) (complete : Bool) :
    validateLiveness hashes (unobservedSnapshot snapshot) complete =
      validateLiveness hashes snapshot complete := by
  obtain ⟨nodes, fingerprint, version, liveness, timestamp, block⟩ := snapshot
  cases liveness with
  | none => rfl
  | some liveness =>
    simp only [unobservedSnapshot, validateLiveness, Option.map_some,
      validateCompleteLiveness_unobserved]

/-- A document is consistent or not whatever it observed. -/
theorem verifySelfConsistency_unobserved (snapshot : TopologySnapshot) (complete : Bool) :
    verifySelfConsistency hashes (unobservedSnapshot snapshot) complete =
      verifySelfConsistency hashes snapshot complete := by
  rw [verifySelfConsistency, verifySelfConsistency, validateLiveness_unobserved]
  rfl

/-- A document is rejected for its members, its fingerprint, its block, its time and its anchor,
never for an observation. -/
theorem reasonAgainst_unobserved (pinned : PinnedSnapshot) (nowUnix : ℤ)
    (options : ApplyServedOptions) (source : ServedTopology) :
    reasonAgainst hashes pinned nowUnix options source.unobserved =
      reasonAgainst hashes pinned nowUnix options source := by
  simp only [reasonAgainst, rejectionReason, ServedTopology.unobserved,
    verifySelfConsistency_unobserved]
  rfl

/-- The same documents are accepted, up to their observations. -/
theorem acceptedTopologies_unobserved (pinned : PinnedSnapshot) (served : List ServedTopology)
    (nowUnix : ℤ) (options : ApplyServedOptions) :
    acceptedTopologies hashes pinned (served.map ServedTopology.unobserved) nowUnix options =
      (acceptedTopologies hashes pinned served nowUnix options).map
        ServedTopology.unobserved := by
  rw [acceptedTopologies, acceptedTopologies, List.filter_map]
  congr 1
  refine List.filter_congr fun source _ => ?_
  rw [Function.comp_apply, reasonAgainst_unobserved]

/-- The same anchors have a document that is accepted. -/
theorem acceptedAnchors_unobserved (pinned : PinnedSnapshot) (served : List ServedTopology)
    (nowUnix : ℤ) (options : ApplyServedOptions) :
    acceptedAnchors hashes pinned (served.map ServedTopology.unobserved) nowUnix options =
      acceptedAnchors hashes pinned served nowUnix options := by
  rw [acceptedAnchors, acceptedAnchors, acceptedTopologies_unobserved, List.map_map]
  rfl

/-- Whether the documents list a member is read off their nodes and blocks. -/
theorem listed_unobserved (accepted : List ServedTopology) (limits : Thresholds)
    (member : PinnedMember) :
    Listed (accepted.map ServedTopology.unobserved) limits member ↔
      Listed accepted limits member := by
  have hlisting : listing (accepted.map ServedTopology.unobserved) member =
      (listing accepted member).map ServedTopology.unobserved := by
    rw [listing, listing, List.filter_map]
    rfl
  have hunknown : unknownToAll (accepted.map ServedTopology.unobserved) limits.membershipBlock
      member.address = unknownToAll accepted limits.membershipBlock member.address := by
    simp only [unknownToAll, List.all_map, List.any_map]
    rfl
  rw [Listed, Listed, hlisting, hunknown, Ne, List.map_eq_nil_iff]

end Unobserved

/-! ### The verdict -/

/-- The error of a stale snapshot. -/
def IsStale : Thrown → Prop
  | .noxClientError _ .topologyStale => True
  | _ => False

/-- The call throws `TOPOLOGY_STALE`. -/
def ThrowsStale {α : Type} (result : Except Thrown α) : Prop :=
  ∃ error, result = .error error ∧ IsStale error

section NotStale

variable {α β : Type}

/-- A value is no error. -/
theorem not_throwsStale_ok (value : α) : ¬ ThrowsStale (.ok value : Except Thrown α) := by
  rintro ⟨error, herror, -⟩
  cases herror

/-- An error is stale when its code says so. -/
theorem throwsStale_error {error : Thrown} :
    ThrowsStale (.error error : Except Thrown α) ↔ IsStale error := by
  constructor
  · rintro ⟨thrown, hthrown, hstale⟩
    exact Except.error.inj hthrown ▸ hstale
  · exact fun hstale => ⟨error, rfl, hstale⟩

/-- A program throws no stale error when none of its steps does. -/
theorem not_throwsStale_bind {x : Except Thrown α} {f : α → Except Thrown β}
    (hx : ¬ ThrowsStale x) (hf : ∀ value, ¬ ThrowsStale (f value)) : ¬ ThrowsStale (x >>= f) := by
  cases x with
  | error error => exact fun h => hx (throwsStale_error.mpr (throwsStale_error.mp h))
  | ok value => exact hf value

/-- A loop throws no stale error when none of its rounds does. -/
theorem not_throwsStale_mapM {f : α → Except Thrown β} (hf : ∀ value, ¬ ThrowsStale (f value))
    (values : List α) : ¬ ThrowsStale (values.mapM f) := by
  induction values with
  | nil => exact not_throwsStale_ok []
  | cons value values ih =>
    rw [List.mapM_cons]
    exact not_throwsStale_bind (hf value) fun _ =>
      not_throwsStale_bind ih fun _ => not_throwsStale_ok _

/-- Reading hexadecimal throws other errors. -/
theorem not_throwsStale_hexToBytes (hex : List Char) : ¬ ThrowsStale (hexToBytes hex) := by
  simp only [hexToBytes]
  split_ifs
  · exact not_throwsStale_ok _
  · exact fun h => throwsStale_error.mp h

/-- Reading a node throws other errors. -/
theorem not_throwsStale_parseNode (raw : RelayerNode) : ¬ ThrowsStale (parseNode raw) := by
  simp only [parseNode]
  split_ifs
  · exact fun h => throwsStale_error.mp h
  · exact not_throwsStale_bind (not_throwsStale_hexToBytes _) fun _ => not_throwsStale_ok _

/-- Reading a host throws other errors. -/
theorem not_throwsStale_parseHost (value : List Char) : ¬ ThrowsStale (parseHost value) := by
  unfold parseHost
  split <;> split <;> try split_ifs
  all_goals first
    | exact not_throwsStale_ok _
    | exact fun h => throwsStale_error.mp h

/-- Checking a certhash throws other errors. -/
theorem not_throwsStale_validateCerthash (certhash address : List Char) :
    ¬ ThrowsStale (validateCerthash certhash address) := by
  unfold validateCerthash
  split_ifs
  · exact fun h => throwsStale_error.mp h
  · split
    · exact fun h => throwsStale_error.mp h
    · split_ifs
      · exact fun h => throwsStale_error.mp h
      · exact fun h => throwsStale_error.mp h
      · exact not_throwsStale_ok _

/-- Reading an address throws other errors. -/
theorem not_throwsStale_parseKpsAddress (text : String) :
    ¬ ThrowsStale (parseKpsAddress text) := by
  simp only [parseKpsAddress]
  split_ifs
  · exact fun h => throwsStale_error.mp h
  · refine not_throwsStale_bind (not_throwsStale_parseHost _) fun parts => ?_
    split
    · exact fun h => throwsStale_error.mp h
    · split_ifs
      · exact fun h => throwsStale_error.mp h
      · exact fun h => throwsStale_error.mp h
      all_goals exact not_throwsStale_bind (not_throwsStale_validateCerthash _ _) fun _ =>
        not_throwsStale_ok _

/-- Members that cannot be made into nodes are another error. -/
theorem not_throwsStale_baseNodesOf (pinned : PinnedSnapshot) (options : ApplyServedOptions) :
    ¬ ThrowsStale (baseNodesOf pinned options) := by
  refine not_throwsStale_mapM (fun raw => not_throwsStale_bind (not_throwsStale_parseNode raw)
    fun node => not_throwsStale_bind ?_ fun _ => not_throwsStale_ok _) _
  rw [RoutingContext.entryEndpoint]
  split
  · exact not_throwsStale_ok _
  · exact not_throwsStale_bind (not_throwsStale_parseKpsAddress _) fun _ => not_throwsStale_ok _

end NotStale

section Verdict

variable {hashes : Hashes} {pinned : PinnedSnapshot} {served : List ServedTopology} {nowUnix : ℤ}
  {options : ApplyServedOptions}

/-- Some route layer has base members, and the accepted documents list none of them. -/
def SomeLayerGone (accepted : List ServedTopology) (limits : Thresholds)
    (base : List MemberRecord) (baseNodes : List TopologyNode) : Prop :=
  ∃ layer, layerNodes baseNodes layer ≠ [] ∧ ∀ node ∈ layerNodes baseNodes layer,
    ∀ member ∈ base, member.address = node.id → ¬ Listed accepted limits member.toPinnedMember

/-- A layer is gone when the listed addresses have none of its nodes. -/
theorem someLayerGone_iff {accepted : List ServedTopology} {limits : Thresholds}
    {base : List MemberRecord} {baseNodes : List TopologyNode} :
    SomeLayerGone accepted limits base baseNodes ↔
      ∃ layer, Gone baseNodes (listedAddresses accepted limits base) layer := by
  refine exists_congr fun layer => and_congr_right fun _ => forall₂_congr fun node _ => ?_
  simp only [listedAddresses, List.mem_toFinset, List.mem_map, List.mem_filter, decide_eq_true_eq]
  constructor
  · rintro hnone ⟨member, ⟨hmember, hlisted⟩, haddress⟩
    exact hnone member hmember haddress hlisted
  · exact fun hnone member hmember haddress hlisted =>
      hnone ⟨member, ⟨hmember, hlisted⟩, haddress⟩

/-- The documents that are accepted come from enough anchors, and a layer of the base members is
gone from them. -/
def RegistryGone (hashes : Hashes) (pinned : PinnedSnapshot) (served : List ServedTopology)
    (nowUnix : ℤ) (options : ApplyServedOptions) : Prop :=
  (thresholds pinned options).minSources ≤
      (acceptedAnchors hashes pinned served nowUnix options).card ∧
    ∃ baseNodes, baseNodesOf pinned options = .ok baseNodes ∧
      SomeLayerGone (acceptedTopologies hashes pinned served nowUnix options)
        (thresholds pinned options) (baseMembers pinned options) baseNodes

/-- The call is stale exactly when enough documents leave a layer of the base without any node. -/
theorem throwsStale_iff_registryGone :
    ThrowsStale (applyServedTopologies hashes pinned served nowUnix options) ↔
      RegistryGone hashes pinned served nowUnix options := by
  rw [applyServedTopologies, RegistryGone]
  split_ifs with hfew
  · exact iff_of_false (not_throwsStale_ok _) fun hgone => absurd hgone.1 (not_le.mpr hfew)
  rw [and_iff_right (not_lt.mp hfew)]
  cases hnodes : baseNodesOf pinned options with
  | error error =>
    have hother := not_throwsStale_baseNodesOf pinned options
    rw [hnodes, throwsStale_error] at hother
    refine iff_of_false (fun h => hother (throwsStale_error.mp h)) ?_
    rintro ⟨baseNodes, hbaseNodes, -⟩
    cases hbaseNodes
  | ok baseNodes =>
    have hgone : (floorsOf hashes pinned served nowUnix options baseNodes).gone.length > 0 ↔
        SomeLayerGone (acceptedTopologies hashes pinned served nowUnix options)
          (thresholds pinned options) (baseMembers pinned options) baseNodes := by
      rw [gt_iff_lt, List.length_pos_iff_exists_mem, someLayerGone_iff, ← listed_evidenceOf]
      exact exists_congr fun layer => mem_gone_floorsOf baseNodes layer
    have hok : ∀ other, (Except.ok baseNodes : Except Thrown (List TopologyNode)) = .ok other ↔
        other = baseNodes := fun other => ⟨fun h => (Except.ok.inj h).symm, fun h => h ▸ rfl⟩
    simp only [ok_bind, hok, exists_eq_left, ← hgone]
    split_ifs with hlayers
    · exact iff_of_true (throwsStale_error.mpr trivial) hlayers
    · exact iff_of_false (not_throwsStale_ok _) hlayers

/-- Whether a layer is gone does not depend on what was observed. -/
theorem registryGone_unobserved :
    RegistryGone hashes pinned (served.map ServedTopology.unobserved) nowUnix options ↔
      RegistryGone hashes pinned served nowUnix options := by
  simp only [RegistryGone, SomeLayerGone, acceptedAnchors_unobserved,
    acceptedTopologies_unobserved, listed_unobserved]

/-- Documents that differ in their observations only are the same without them. -/
theorem map_unobserved_of_differInLiveness {others : List ServedTopology}
    (h : DifferInLiveness served others) :
    served.map ServedTopology.unobserved = others.map ServedTopology.unobserved :=
  List.forall₂_eq_eq_eq ▸ List.forall₂_map_left_iff.mpr (List.forall₂_map_right_iff.mpr h)

/-- A stale verdict rests on registry evidence: it is thrown exactly when documents of enough
anchors are accepted and a layer of the base members is gone from them, so documents that differ
only in their observations agree on it.

The verdict is a condition on the accepted documents (`throwsStale_iff_registryGone`), and this
condition does not change when the observations are taken out of them
(`registryGone_unobserved`). -/
theorem throwsStale_registry_only (hashes : Hashes) (pinned : PinnedSnapshot)
    (options : ApplyServedOptions) (nowUnix : ℤ) :
    (∀ served others, DifferInLiveness served others →
      (ThrowsStale (applyServedTopologies hashes pinned served nowUnix options) ↔
        ThrowsStale (applyServedTopologies hashes pinned others nowUnix options))) ∧
    ∀ served, ThrowsStale (applyServedTopologies hashes pinned served nowUnix options) ↔
      (thresholds pinned options).minSources ≤
          (acceptedAnchors hashes pinned served nowUnix options).card ∧
        ∃ baseNodes, baseNodesOf pinned options = .ok baseNodes ∧
          ∃ layer, layerNodes baseNodes layer ≠ [] ∧ ∀ node ∈ layerNodes baseNodes layer,
            ∀ member ∈ baseMembers pinned options, member.address = node.id →
              ¬ Listed (acceptedTopologies hashes pinned served nowUnix options)
                (thresholds pinned options) member.toPinnedMember := by
  refine ⟨fun served others hdiffer => ?_, fun served => throwsStale_iff_registryGone⟩
  rw [throwsStale_iff_registryGone, throwsStale_iff_registryGone, ← registryGone_unobserved,
    map_unobserved_of_differInLiveness hdiffer, registryGone_unobserved]

/-- The documents of the sample without their observations: every member counts as offline, and
the verdict stays what it is. -/
theorem throwsStale_registry_only_sample :
    DifferInLiveness (sampleServed.map ServedTopology.unobserved) sampleServed ∧
    ¬ ThrowsStale (applyServedTopologies sampleHashes samplePinned
      (sampleServed.map ServedTopology.unobserved) 1000 sampleOptions) := by
  have hdiffer : DifferInLiveness (sampleServed.map ServedTopology.unobserved) sampleServed :=
    List.forall₂_map_left_iff.mpr (List.forall₂_same.mpr fun source _ =>
      unobserved_unobserved source)
  have hrun := sample_run
  rw [Option.map_eq_some_iff] at hrun
  obtain ⟨working, hworking, -⟩ := hrun
  refine ⟨hdiffer, ?_⟩
  rw [(throwsStale_registry_only sampleHashes samplePinned sampleOptions 1000).1 _ _ hdiffer,
    toOption_eq_some_iff.mp hworking]
  exact not_throwsStale_ok working

end Verdict

end NoxSdk.Kps
