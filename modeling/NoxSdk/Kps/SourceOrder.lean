import Mathlib.Data.List.Dedup
import NoxSdk.Kps.ServedTopologies

/-!
# The order of the sources

Which anchor answers first does not matter: `applyServedTopologies_perm`. The documents are read
by loops that fill sets and tables, but each of these is determined by what some document says, or
by how many anchors say it, and a permutation changes neither. Only the list of the rejected
documents keeps the order in which they came. One accepted document is enough to keep a member.
-/

namespace NoxSdk.Kps

open NoxSdk.Topology

/-! ### Agreement -/

section Agreed

variable {docs docs' : List ServedTopology} {member : PinnedMember} {minSources : ℤ} {url : String}

/-- A list whose elements all are the same, without repetition. -/
private theorem eq_singleton_of_forall_eq {α : Type*} {l : List α} {a : α} (hnodup : l.Nodup)
    (hmem : a ∈ l) (hall : ∀ x ∈ l, x = a) : l = [a] := by
  have hreplicate : l = List.replicate l.length a := List.eq_replicate_of_mem hall
  rw [hreplicate, List.nodup_replicate] at hnodup
  rw [hreplicate, le_antisymm hnodup (List.length_pos_of_mem hmem)]
  rfl

/-- A URL that enough anchors agree on, and no other, is the one that is returned. -/
theorem agreedNewUrl_of_agreeOn (h : AgreeOn docs member minSources url) :
    agreedNewUrl docs member minSources = some url := by
  rw [agreedNewUrl]
  set table := docs.foldl (addAnchor member) .empty
  have hget : ∀ u, table.get? u = if u = member.url ∨ anchorsAt docs member u = ∅ then none
      else some (anchorsAt docs member u) := get?_addAnchors docs member
  have hsingle : (table.entries.filter fun entry => decide ((entry.2.card : ℤ) ≥ minSources)) =
      [(url, anchorsAt docs member url)] := by
    refine eq_singleton_of_forall_eq (table.nodup_keys.of_map.filter _) ?_ ?_
    · refine List.mem_filter.mpr ⟨OrderedMap.get?_eq_some_iff.mp ?_, decide_eq_true h.quorum⟩
      rw [hget, if_neg (not_or.mpr ⟨h.new, h.listed.ne_empty⟩)]
    · rintro ⟨other, anchors⟩ hother
      obtain ⟨hentry, hquorum⟩ := List.mem_filter.mp hother
      have hstored := OrderedMap.get?_eq_some_iff.mpr hentry
      rw [hget] at hstored
      split_ifs at hstored with hnone
      obtain ⟨hnew, hlisted⟩ := not_or.mp hnone
      obtain rfl := Option.some.inj hstored
      by_contra hne
      have hurl : other ≠ url := fun heq => hne (heq ▸ rfl)
      rcases h.alone other hurl hnew with hempty | hfew
      · exact hlisted hempty
      · exact absurd (of_decide_eq_true hquorum) (not_le.mpr hfew)
  rw [hsingle]

/-- A URL is returned exactly when the anchors agree on it. -/
theorem agreedNewUrl_eq_some_iff : agreedNewUrl docs member minSources = some url ↔
    AgreeOn docs member minSources url :=
  ⟨agreeOn_of_agreedNewUrl, agreedNewUrl_of_agreeOn⟩

/-- Which anchors report a member at a URL does not depend on the order. -/
theorem anchorsAt_perm (h : docs.Perm docs') :
    anchorsAt docs member url = anchorsAt docs' member url :=
  List.toFinset_eq_of_perm _ _ ((h.filter _).map _)

/-- Nor does what they agree on. -/
theorem AgreeOn.perm (hagree : AgreeOn docs member minSources url) (h : docs.Perm docs') :
    AgreeOn docs' member minSources url where
  new := hagree.new
  listed := anchorsAt_perm h ▸ hagree.listed
  quorum := anchorsAt_perm h ▸ hagree.quorum
  alone other hother hbase := by
    rw [← anchorsAt_perm h]
    exact hagree.alone other hother hbase

/-- Nor does the URL that is returned. -/
theorem agreedNewUrl_perm (h : docs.Perm docs') :
    agreedNewUrl docs member minSources = agreedNewUrl docs' member minSources := by
  ext url
  rw [agreedNewUrl_eq_some_iff, agreedNewUrl_eq_some_iff]
  exact ⟨fun hagree => hagree.perm h, fun hagree => hagree.perm h.symm⟩

end Agreed

/-! ### Evidence -/

section Evidence

variable {accepted accepted' : List ServedTopology} {limits : Thresholds}

/-- The documents that list a member are the same, in another order. -/
theorem listing_perm (h : accepted.Perm accepted') (member : PinnedMember) :
    (listing accepted member).Perm (listing accepted' member) := h.filter _

/-- Whether an address is unknown does not depend on the order. -/
theorem unknownToAll_perm (h : accepted.Perm accepted') (block : ℤ) (address : String) :
    unknownToAll accepted block address = unknownToAll accepted' block address := by
  rw [unknownToAll, unknownToAll, h.all_eq, h.any_eq]

/-- A member is judged the same. -/
theorem judge_perm (h : accepted.Perm accepted') (evidence : Evidence) (member : PinnedMember) :
    evidence.judge accepted limits member = evidence.judge accepted' limits member := by
  have hlisting := listing_perm h member
  rw [Evidence.judge, Evidence.judge]
  simp only [hlisting.length_eq, unknownToAll_perm h, hlisting.any_eq, newerListing,
    agreedNewUrl_perm (hlisting.filter _)]

end Evidence

/-! ### The working set -/

/-- A working set without the list of the rejected documents. -/
def WorkingSet.withoutRejected (working : WorkingSet) : WorkingSet :=
  { working with rejected := [] }

section Apply

variable {hashes : Hashes} {pinned : PinnedSnapshot} {served served' : List ServedTopology}
  {nowUnix : ℤ} {options : ApplyServedOptions}

/-- The same documents are accepted, in another order. -/
theorem acceptedTopologies_perm (h : served.Perm served') :
    (acceptedTopologies hashes pinned served nowUnix options).Perm
      (acceptedTopologies hashes pinned served' nowUnix options) := h.filter _

/-- The same anchors are counted. -/
theorem acceptedAnchors_perm (h : served.Perm served') :
    acceptedAnchors hashes pinned served nowUnix options =
      acceptedAnchors hashes pinned served' nowUnix options :=
  List.toFinset_eq_of_perm _ _ ((acceptedTopologies_perm h).map _)

/-- The same members are added. -/
theorem additions_perm (h : served.Perm served') :
    additions hashes pinned served nowUnix options =
      additions hashes pinned served' nowUnix options :=
  List.toFinset_eq_of_perm _ _ ((acceptedTopologies_perm h).flatMap_right _)

/-- The evidence is the same. -/
theorem evidenceOf_perm (h : served.Perm served') :
    evidenceOf hashes pinned served nowUnix options =
      evidenceOf hashes pinned served' nowUnix options := by
  rw [evidenceOf, evidenceOf]
  congr 1
  funext evidence member
  exact judge_perm (acceptedTopologies_perm h) evidence member.toPinnedMember

/-- The floors give the same members back. -/
theorem floorsOf_perm (h : served.Perm served') (baseNodes : List TopologyNode) :
    floorsOf hashes pinned served nowUnix options baseNodes =
      floorsOf hashes pinned served' nowUnix options baseNodes := by
  rw [floorsOf, floorsOf, evidenceOf_perm h]

/-- The error is the same. -/
theorem staleError_perm (h : served.Perm served') (gone : List RouteLayer) :
    staleError hashes pinned served nowUnix options gone =
      staleError hashes pinned served' nowUnix options gone := by
  rw [staleError, staleError, acceptedAnchors_perm h]

/-- A set that stays is the same but for the rejected documents. -/
theorem unchanged_perm (h : served.Perm served') (removalQuorum : Bool) :
    (unchanged hashes pinned served nowUnix options removalQuorum).withoutRejected =
      (unchanged hashes pinned served' nowUnix options removalQuorum).withoutRejected := by
  rw [unchanged, unchanged, WorkingSet.withoutRejected, WorkingSet.withoutRejected,
    additions_perm h, (acceptedTopologies_perm h).length_eq]

/-- A set that is assembled is the same but for the rejected documents. -/
theorem assembled_perm (h : served.Perm served') (floors : Floors) :
    (assembled hashes pinned served nowUnix options floors).withoutRejected =
      (assembled hashes pinned served' nowUnix options floors).withoutRejected := by
  rw [assembled, assembled, WorkingSet.withoutRejected, WorkingSet.withoutRejected,
    additions_perm h, (acceptedTopologies_perm h).length_eq, evidenceOf_perm h]

/-- The whole result is the same but for the rejected documents. -/
theorem applyServedTopologies_withoutRejected_perm (h : served.Perm served') :
    (applyServedTopologies hashes pinned served nowUnix options).map WorkingSet.withoutRejected =
      (applyServedTopologies hashes pinned served' nowUnix options).map
        WorkingSet.withoutRejected := by
  rw [applyServedTopologies, applyServedTopologies, acceptedAnchors_perm h]
  split_ifs
  · exact congrArg Except.ok (unchanged_perm h false)
  · cases baseNodesOf pinned options with
    | error error => rfl
    | ok baseNodes =>
      simp only [ok_bind, floorsOf_perm h, staleError_perm h]
      split_ifs
      · rfl
      · exact congrArg Except.ok (assembled_perm h _)

/-- A layer that gets members back loses none. -/
theorem kept_subset_restore {baseNodes : List TopologyNode} {listed agreed previous : Finset String}
    {minPerLayer : ℤ} (floors : Floors) (layer : RouteLayer) :
    floors.kept ⊆ (floors.restore baseNodes listed agreed previous minPerLayer layer).kept := by
  rw [Floors.restore]
  dsimp only
  split_ifs
  · exact Finset.Subset.refl _
  · exact Finset.Subset.refl _
  · exact Finset.Subset.refl _
  · exact Finset.subset_union_left
  · exact Finset.subset_union_left
  · exact Finset.subset_union_left

/-- The loop keeps what the documents confirm. -/
theorem subset_kept_floorsOf (baseNodes : List TopologyNode) :
    (evidenceOf hashes pinned served nowUnix options).kept ⊆
      (floorsOf hashes pinned served nowUnix options baseNodes).kept := by
  rw [floorsOf]
  simp only [routeLayers, List.foldl_cons, List.foldl_nil]
  refine Finset.Subset.trans ?_ (kept_subset_restore _ _)
  refine Finset.Subset.trans ?_ (kept_subset_restore _ _)
  exact kept_subset_restore ⟨_, [], [], []⟩ _

/-- A confirmed member is not removed. -/
theorem not_mem_removed {working : WorkingSet} {member : MemberRecord}
    (h : applyServedTopologies hashes pinned served nowUnix options = .ok working)
    (hmember : member ∈ baseMembers pinned options)
    (hconfirmed : Confirmed (acceptedTopologies hashes pinned served nowUnix options)
      (thresholds pinned options) member.toPinnedMember) : member.address ∉ working.removed := by
  rw [applyServedTopologies] at h
  split at h
  · obtain rfl := Except.ok.inj h
    exact List.not_mem_nil
  · obtain ⟨baseNodes, -, h⟩ := bind_eq_ok_iff.mp h
    simp only at h
    split_ifs at h with hgone
    obtain rfl := Except.ok.inj h
    have hkept : member.address ∈
        (floorsOf hashes pinned served nowUnix options baseNodes).kept :=
      subset_kept_floorsOf baseNodes (mem_kept.mpr ⟨member, hmember, rfl, hconfirmed⟩)
    rw [assembled, List.mem_map]
    rintro ⟨other, hother, haddress⟩
    obtain ⟨-, hnot⟩ := List.mem_filter.mp hother
    simp [haddress, hkept] at hnot

/-- The order of the sources is irrelevant, but for the order of the rejected documents, and a
member is not removed while an accepted document lists it with its identity and reports it
online.

The documents enter only through sets and counts of anchors, so a permutation changes nothing but
the list of the rejected (`applyServedTopologies_withoutRejected_perm`). And a member that one
accepted document confirms is kept (`not_mem_removed`). -/
theorem applyServedTopologies_perm (hashes : Hashes) (pinned : PinnedSnapshot)
    (served : List ServedTopology) (nowUnix : ℤ) (options : ApplyServedOptions) :
    (∀ served', served.Perm served' →
      (applyServedTopologies hashes pinned served nowUnix options).map
          WorkingSet.withoutRejected =
        (applyServedTopologies hashes pinned served' nowUnix options).map
          WorkingSet.withoutRejected) ∧
    ∀ working member source,
      applyServedTopologies hashes pinned served nowUnix options = .ok working →
      member ∈ baseMembers pinned options →
      source ∈ acceptedTopologies hashes pinned served nowUnix options →
      (findWithIdentity source.snapshot member.toPinnedMember).isSome →
      isOnline source.snapshot member.address options.livenessMaxAgeSeconds = true →
        member.address ∉ working.removed :=
  ⟨fun _ h => applyServedTopologies_withoutRejected_perm h,
    fun _ _ source h hmember hsource hlists honline => not_mem_removed h hmember
      (.inl ⟨source, List.mem_filter.mpr ⟨hsource, hlists⟩, honline⟩)⟩

/-- The documents of the sample in the other order; the first member stays. -/
theorem applyServedTopologies_perm_sample :
    (applyServedTopologies sampleHashes samplePinned sampleServed 1000 sampleOptions).map
          WorkingSet.withoutRejected =
        (applyServedTopologies sampleHashes samplePinned sampleServed.reverse 1000
          sampleOptions).map WorkingSet.withoutRejected ∧
      ∃ working, applyServedTopologies sampleHashes samplePinned sampleServed 1000 sampleOptions
          = .ok working ∧ (sampleMember '1' 1 0).address ∉ working.removed := by
  obtain ⟨horder, hkept⟩ :=
    applyServedTopologies_perm sampleHashes samplePinned sampleServed 1000 sampleOptions
  refine ⟨horder _ (List.reverse_perm _).symm, ?_⟩
  obtain ⟨working, hworking, -⟩ := Option.map_eq_some_iff.mp sample_run
  rw [toOption_eq_some_iff] at hworking
  have haccepted :
      (⟨"192.0.2.1:443:uEiAAAAAAAAAAAAAAAAAAAAAAAAAAAAAAAAAAAAAAAAAAAA", sampleSnapshot⟩ :
        ServedTopology) ∈ acceptedTopologies sampleHashes samplePinned sampleServed 1000
        sampleOptions :=
    accepted_sample .online .online ▸ List.mem_map_of_mem (.tail _ (.head _))
  exact ⟨working, hworking, hkept working
    { sampleMember '1' 1 0 with floor := true, probation := false } _ hworking
    (.head _) haccepted (Option.isSome_of_eq_some (findWithIdentity_sample .online .online).1)
    (isOnline_sample .online .online).1⟩

end Apply

end NoxSdk.Kps
