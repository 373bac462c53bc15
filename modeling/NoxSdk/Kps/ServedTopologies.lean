import NoxSdk.Kps.Pinned
import Mathlib.Data.List.Forall2
import Mathlib.Data.Finset.Image

/-!
# What served topologies can do

Served documents remove and relocate members of the base membership; they never introduce an
identity: `applyServedTopologies_routes`. A member is relocated only to the one `url` on
which documents of enough different anchors agree, all of them newer than the base membership.

Anchors are counted by their KPS address. A member behind two addresses counts twice, so
the documents of one member can reach the quorum and shrink the set;
`keepsBase_iff_costNothing` says exactly when the documents leave the set as it is.
-/

namespace NoxSdk.Kps

open Js (toLowerCase isHexDigit isDecimal)
open NoxSdk.Topology

/-! ### Agreed locations -/

section Agreed

variable {docs : List ServedTopology} {member : PinnedMember} {minSources : ℤ} {url : String}

/-- The anchors of the documents that list the member, with its identity, at `url`. -/
def anchorsAt (docs : List ServedTopology) (member : PinnedMember) (url : String) :
    Finset String :=
  ((docs.filter fun source =>
    (findWithIdentity source.snapshot member).any (·.url == url)).map (·.anchor)).toFinset

/-- The anchors that report a member at a URL are those with a document that lists it there. -/
theorem mem_anchorsAt {anchor : String} : anchor ∈ anchorsAt docs member url ↔
    ∃ source ∈ docs, source.anchor = anchor ∧
      ∃ node, findWithIdentity source.snapshot member = some node ∧ node.url = url := by
  simp only [anchorsAt, List.mem_toFinset, List.mem_map, List.mem_filter, Option.any_eq_true,
    beq_iff_eq]
  constructor
  · rintro ⟨source, ⟨hsource, hnode⟩, rfl⟩
    exact ⟨source, hsource, rfl, hnode⟩
  · rintro ⟨source, hsource, rfl, hnode⟩
    exact ⟨source, ⟨hsource, hnode⟩, rfl⟩

/-- One more document adds its anchor, if it reports the member at the URL. -/
private theorem anchorsAt_concat (source : ServedTopology) :
    anchorsAt (docs ++ [source]) member url =
      if (findWithIdentity source.snapshot member).any (·.url == url) then
        insert source.anchor (anchorsAt docs member url)
      else anchorsAt docs member url := by
  rw [anchorsAt, List.filter_append, List.map_append, List.toFinset_append]
  split_ifs with hlists
  · simp [hlists, anchorsAt, Finset.union_comm]
  · simp [hlists, anchorsAt]

/-- The table of `agreedNewUrl`: at each new `url` the anchors that list it. -/
theorem get?_addAnchors (docs : List ServedTopology) (member : PinnedMember) (url : String) :
    (docs.foldl (addAnchor member) .empty).get? url =
      if url = member.url ∨ anchorsAt docs member url = ∅ then none
      else some (anchorsAt docs member url) := by
  induction docs using List.reverseRecOn with
  | nil => simp [anchorsAt]
  | append_singleton docs source ih =>
    rw [List.foldl_concat, addAnchor, anchorsAt_concat]
    cases hnode : findWithIdentity source.snapshot member with
    | none => simpa using ih
    | some node =>
      simp only [Option.any_some, beq_iff_eq]
      by_cases hold : node.url = member.url
      · rw [if_pos hold]
        by_cases hurl : node.url = url
        · rw [ih, if_pos (.inl (hurl ▸ hold)), if_pos (.inl (hurl ▸ hold))]
        · rw [if_neg hurl, ih]
      · rw [if_neg hold, OrderedMap.get?_set]
        by_cases hurl : node.url = url
        · subst hurl
          have hbefore : ((docs.foldl (addAnchor member) .empty).get? node.url).getD ∅
              = anchorsAt docs member node.url := by
            rw [ih]
            split_ifs with hnone
            · exact (hnone.resolve_left hold).symm
            · rfl
          simp [hold, hbefore]
        · simp only [if_neg hurl, if_neg (Ne.symm hurl), ih]

/-- Documents agree on `url`: enough anchors list the member there, and at no other new
location. -/
structure AgreeOn (docs : List ServedTopology) (member : PinnedMember) (minSources : ℤ)
    (url : String) : Prop where
  new : url ≠ member.url
  listed : (anchorsAt docs member url).Nonempty
  quorum : minSources ≤ (anchorsAt docs member url).card
  alone : ∀ other, other ≠ url → other ≠ member.url →
    anchorsAt docs member other = ∅ ∨ ((anchorsAt docs member other).card : ℤ) < minSources

/-- A URL that `agreedNewUrl` returns has enough anchors, and no other URL has. -/
theorem agreeOn_of_agreedNewUrl (h : agreedNewUrl docs member minSources = some url) :
    AgreeOn docs member minSources url := by
  rw [agreedNewUrl] at h
  set table := docs.foldl (addAnchor member) .empty with htable
  have hget : ∀ u, table.get? u = if u = member.url ∨ anchorsAt docs member u = ∅ then none
      else some (anchorsAt docs member u) := get?_addAnchors docs member
  split at h
  next agreed hagreed =>
    obtain rfl := Option.some.inj h
    have hmem : agreed ∈ table.entries.filter fun entry =>
        decide ((entry.2.card : ℤ) ≥ minSources) := by
      rw [hagreed]
      exact List.mem_singleton_self agreed
    obtain ⟨hentry, hquorum⟩ := List.mem_filter.mp hmem
    have hstored := OrderedMap.get?_eq_some_iff.mpr hentry
    rw [hget] at hstored
    split_ifs at hstored with hnone
    obtain ⟨hnew, hlisted⟩ := not_or.mp hnone
    have hanchors := Option.some.inj hstored
    refine ⟨hnew, Finset.nonempty_iff_ne_empty.mpr hlisted, ?_, fun other hother hbase => ?_⟩
    · rw [hanchors]
      simpa using hquorum
    · by_contra hboth
      obtain ⟨hsome, hmany⟩ := not_or.mp hboth
      have hother_mem : (other, anchorsAt docs member other) ∈ table.entries.filter fun entry =>
          decide ((entry.2.card : ℤ) ≥ minSources) := by
        refine List.mem_filter.mpr ⟨OrderedMap.get?_eq_some_iff.mp ?_, ?_⟩
        · rw [hget, if_neg (not_or.mpr ⟨hbase, hsome⟩)]
        · simpa using hmany
      rw [hagreed, List.mem_singleton] at hother_mem
      exact hother (congrArg Prod.fst hother_mem)
  next => cases h

end Agreed

/-! ### Evidence about the base members -/

section Evidence

variable {accepted : List ServedTopology} {limits : Thresholds} {member : MemberRecord}

/-- Registry evidence: a document lists the member with its identity, or none can know it. -/
def Listed (accepted : List ServedTopology) (limits : Thresholds) (member : PinnedMember) : Prop :=
  listing accepted member ≠ [] ∨
    listing accepted member = [] ∧
      unknownToAll accepted limits.membershipBlock member.address = true

/-- The member stays: a document that lists it reports it online, or none can know it. -/
def Confirmed (accepted : List ServedTopology) (limits : Thresholds) (member : PinnedMember) :
    Prop :=
  (∃ source ∈ listing accepted member,
      isOnline source.snapshot member.address limits.livenessMaxAgeSeconds = true) ∨
    listing accepted member = [] ∧
      unknownToAll accepted limits.membershipBlock member.address = true

instance : Decidable (Listed accepted limits member.toPinnedMember) :=
  inferInstanceAs (Decidable (_ ∨ _ ∧ _))

instance : Decidable (Confirmed accepted limits member.toPinnedMember) :=
  inferInstanceAs (Decidable ((∃ source ∈ _, _) ∨ _ ∧ _))

/-- Where the newer documents that list the member agree to find it. -/
def relocation (accepted : List ServedTopology) (limits : Thresholds) (member : PinnedMember) :
    Option String :=
  agreedNewUrl (newerListing accepted limits.membershipBlock member) member limits.minSources

/-- Judging a member adds its address to the listed ones, if the documents list it. -/
theorem mem_listed_judge (evidence : Evidence) (member : PinnedMember) (address : String) :
    address ∈ (evidence.judge accepted limits member).listed ↔
      address ∈ evidence.listed ∨ address = member.address ∧ Listed accepted limits member := by
  by_cases hnone : listing accepted member = []
  · by_cases hunknown : unknownToAll accepted limits.membershipBlock member.address = true
    · simp [Evidence.judge, Listed, hnone, hunknown, or_comm]
    · simp [Evidence.judge, Listed, hnone, hunknown]
  · simp [Evidence.judge, Listed, hnone, or_comm]

/-- Judging a member adds its address to the kept ones, if the documents confirm it. -/
theorem mem_kept_judge (evidence : Evidence) (member : PinnedMember) (address : String) :
    address ∈ (evidence.judge accepted limits member).kept ↔
      address ∈ evidence.kept ∨ address = member.address ∧ Confirmed accepted limits member := by
  by_cases hnone : listing accepted member = []
  · by_cases hunknown : unknownToAll accepted limits.membershipBlock member.address = true
    · simp [Evidence.judge, Confirmed, hnone, hunknown, or_comm]
    · simp [Evidence.judge, Confirmed, hnone, hunknown]
  · by_cases honline : ∃ source ∈ listing accepted member,
        isOnline source.snapshot member.address limits.livenessMaxAgeSeconds = true
    · simp [Evidence.judge, Confirmed, hnone, List.any_eq_true, honline, or_comm]
    · simp [Evidence.judge, Confirmed, hnone, List.any_eq_true, honline]

/-- Judging a member notes its new URL, if the documents agree on one, and no other. -/
theorem get?_relocatedUrls_judge (evidence : Evidence) (member : PinnedMember) (address : String) :
    (evidence.judge accepted limits member).relocatedUrls.get? address =
      if address = member.address then
        (relocation accepted limits member).or (evidence.relocatedUrls.get? address)
      else evidence.relocatedUrls.get? address := by
  by_cases hnone : listing accepted member = []
  · have hstays : relocation accepted limits member = none := by
      rw [relocation, newerListing, hnone]
      rfl
    rw [hstays, Option.none_or, ite_self, Evidence.judge]
    simp only [hnone, List.length_nil, if_true]
    split_ifs <;> rfl
  · rw [Evidence.judge, if_neg (by simpa using hnone)]
    change (relocate evidence.relocatedUrls member.address
      (relocation accepted limits member)).get? address = _
    cases relocation accepted limits member with
    | none => simp [relocate]
    | some url => simp [relocate, OrderedMap.get?_set]

/-- A member that no document knows leaves the evidence as it is. -/
private theorem judge_of_gone {evidence : Evidence} {member : PinnedMember}
    (h : listing accepted member = [])
    (hunknown : unknownToAll accepted limits.membershipBlock member.address = false) :
    evidence.judge accepted limits member = evidence := by
  rw [Evidence.judge, h, hunknown]
  rfl

/-- A member that all documents list, all of them newer than the base membership. -/
private theorem judge_of_listed {evidence : Evidence} {member : PinnedMember}
    (h : listing accepted member = accepted) (hne : accepted ≠ [])
    (hnewer : ∀ source ∈ accepted, (source.block : ℤ) > limits.membershipBlock) :
    evidence.judge accepted limits member =
      ⟨insert member.address evidence.listed,
        if accepted.any fun source =>
            isOnline source.snapshot member.address limits.livenessMaxAgeSeconds then
          insert member.address evidence.kept
        else evidence.kept,
        relocate evidence.relocatedUrls member.address
          (agreedNewUrl accepted member limits.minSources)⟩ := by
  have hnewest : newerListing accepted limits.membershipBlock member = accepted := by
    rw [newerListing, h, List.filter_eq_self]
    exact fun source hsource => decide_eq_true (hnewer source hsource)
  rw [Evidence.judge, h, if_neg (by simpa using hne), hnewest]

/-- A document that lists a member at another `url` adds its anchor to those of the `url`. -/
private theorem addAnchor_of_moved {member : PinnedMember} {source : ServedTopology}
    {anchorsByUrl : OrderedMap String (Finset String)} {node : RelayerNode} {url : String}
    (h : findWithIdentity source.snapshot member = some node) (hnode : node.url = url)
    (hurl : url ≠ member.url) :
    addAnchor member anchorsByUrl source =
      anchorsByUrl.set url (insert source.anchor ((anchorsByUrl.get? url).getD ∅)) := by
  subst hnode
  simp only [addAnchor, h, if_neg hurl]

/-- A document that lists a member at its own `url` adds no anchor. -/
private theorem addAnchor_of_same {member : PinnedMember} {source : ServedTopology}
    {anchorsByUrl : OrderedMap String (Finset String)} {node : RelayerNode}
    (h : findWithIdentity source.snapshot member = some node) (hurl : node.url = member.url) :
    addAnchor member anchorsByUrl source = anchorsByUrl := by
  simp only [addAnchor, h, if_pos hurl]

/-- The evidence about a list of members. -/
private def judgeAll (accepted : List ServedTopology) (limits : Thresholds) (evidence : Evidence)
    (base : List MemberRecord) : Evidence :=
  base.foldl (fun evidence member => evidence.judge accepted limits member.toPinnedMember) evidence

/-- The listed addresses after all members were judged. -/
private theorem mem_listed_judgeAll (base : List MemberRecord) (evidence : Evidence)
    (address : String) :
    address ∈ (judgeAll accepted limits evidence base).listed ↔
      address ∈ evidence.listed ∨
        ∃ member ∈ base,
          address = member.address ∧ Listed accepted limits member.toPinnedMember := by
  induction base generalizing evidence with
  | nil => simp [judgeAll]
  | cons member base ih =>
    have hstep := ih (evidence.judge accepted limits member.toPinnedMember)
    rw [mem_listed_judge, or_assoc] at hstep
    simpa [judgeAll] using hstep

/-- The kept addresses after all members were judged. -/
private theorem mem_kept_judgeAll (base : List MemberRecord) (evidence : Evidence)
    (address : String) : address ∈ (judgeAll accepted limits evidence base).kept ↔
      address ∈ evidence.kept ∨ ∃ member ∈ base,
        address = member.address ∧ Confirmed accepted limits member.toPinnedMember := by
  induction base generalizing evidence with
  | nil => simp [judgeAll]
  | cons member base ih =>
    have hstep := ih (evidence.judge accepted limits member.toPinnedMember)
    rw [mem_kept_judge, or_assoc] at hstep
    simpa [judgeAll] using hstep

/-- Nothing is noted for an address that no member has. -/
private theorem get?_judgeAll_of_ne (base : List MemberRecord) (evidence : Evidence)
    {address : String} (h : ∀ member ∈ base, member.address ≠ address) :
    (judgeAll accepted limits evidence base).relocatedUrls.get? address =
      evidence.relocatedUrls.get? address := by
  induction base generalizing evidence with
  | nil => rfl
  | cons member base ih =>
    have hrest := ih (evidence.judge accepted limits member.toPinnedMember) fun other hother =>
      h other (List.mem_cons_of_mem _ hother)
    rw [get?_relocatedUrls_judge,
      if_neg (h member List.mem_cons_self).symm] at hrest
    exact hrest

/-- Each member gets the URL of its own documents, as no two members share an address. -/
private theorem get?_judgeAll (base : List MemberRecord) (evidence : Evidence)
    (hnodup : (base.map (·.address)).Nodup)
    (hfresh : ∀ member ∈ base, evidence.relocatedUrls.get? member.address = none)
    (hmember : member ∈ base) :
    (judgeAll accepted limits evidence base).relocatedUrls.get? member.address =
      relocation accepted limits member.toPinnedMember := by
  induction base generalizing evidence with
  | nil => cases hmember
  | cons first base ih =>
    rw [List.map_cons, List.nodup_cons] at hnodup
    have hne : ∀ other ∈ base, other.address ≠ first.address := fun other hother heq =>
      hnodup.1 (heq ▸ List.mem_map_of_mem hother)
    change (judgeAll accepted limits (evidence.judge accepted limits first.toPinnedMember)
      base).relocatedUrls.get? member.address = _
    rcases List.mem_cons.mp hmember with rfl | hrest
    · rw [get?_judgeAll_of_ne base _ hne, get?_relocatedUrls_judge, if_pos rfl,
        hfresh _ List.mem_cons_self, Option.or_none]
    · refine ih _ hnodup.2 (fun other hother => ?_) hrest
      rw [get?_relocatedUrls_judge, if_neg (hne other hother)]
      exact hfresh other (List.mem_cons_of_mem _ hother)

end Evidence

/-! ### A network of three members -/

section Sample

/-- The digests of the addresses that the document below lists. -/
def sampleHashes : Hashes where
  keccak256 bytes :=
    if bytes = List.replicate 20 0x11 then
      [0xe2, 0xc0, 0x74, 0x04, 0xb8, 0xc1, 0xdf, 0x4c, 0x46, 0x22, 0x64, 0x25, 0xca, 0xc6,
       0x8c, 0x28, 0xd2, 0x7a, 0x76, 0x6b, 0xbd, 0xdc, 0xe6, 0x23, 0x09, 0xf3, 0x67, 0x24,
       0x83, 0x9b, 0x22, 0xc0]
    else if bytes = List.replicate 20 0x33 then
      [0x37, 0xd9, 0x5e, 0x0a, 0xa7, 0x1e, 0x34, 0xde, 0xfa, 0x88, 0xb4, 0xc4, 0x34, 0x98,
       0xbc, 0x8b, 0x90, 0x20, 0x7e, 0x31, 0xad, 0x0e, 0xf4, 0xaa, 0x6f, 0x5b, 0xea, 0x78,
       0xbd, 0x25, 0xa1, 0xab]
    else []
  sha256 bytes :=
    if bytes = 0x30 :: 0x78 :: List.replicate 40 0x31 then
      [0xa8, 0xa3, 0x2d, 0x43, 0xf0, 0x25, 0xad, 0x68, 0xe5, 0xff, 0x80, 0x68, 0xc7, 0x42,
       0x77, 0x94, 0x77, 0xb7, 0x50, 0x4e, 0x89, 0xe8, 0x9b, 0xb9, 0xd1, 0xe9, 0xec, 0x50,
       0x88, 0xce, 0x7e, 0x9a]
    else []

/-- A member with one digit for its address and key. -/
def sampleMember (digit : Char) (role layer : ℕ) : PinnedMember where
  address := String.ofList ('0' :: 'x' :: List.replicate 40 digit)
  sphinxKey := String.ofList (List.replicate 64 digit)
  url := String.ofList ['u', digit]
  ingressUrl := ""
  metadataUrl := ""
  stake := "1"
  role := role
  layer := layer
  status := 1
  frozen := false
  capabilities := []

/-- Two relays and an exit. -/
def samplePinned : PinnedSnapshot :=
  ⟨10, [sampleMember '1' 1 0, sampleMember '2' 1 0, sampleMember '3' 2 2]⟩

/-- The first member at another `url`. -/
def movedMember : PinnedMember := { sampleMember '1' 1 0 with url := "moved" }

/-- A document without the second member, with the first one moved. -/
def sampleSnapshot : TopologySnapshot where
  nodes := [toRelayerNode movedMember, toRelayerNode (sampleMember '3' 2 2)]
  fingerprint := "d5192a0e1fdfeb92bcaad0e1fe5e30a3425a085a10d2128966a88d5c3ebe836b"
  schemaVersion := some 2
  liveness := some [⟨(sampleMember '1' 1 0).address, .online, 1000⟩,
    ⟨(sampleMember '3' 2 2).address, .online, 1000⟩]
  timestamp := some 1000
  blockNumber := some 20

/-- The gateway address and the published address of the first member. -/
def sampleAnchors : List String :=
  ["192.0.2.1:8443:uEiAAAAAAAAAAAAAAAAAAAAAAAAAAAAAAAAAAAAAAAAAAAA",
    "192.0.2.1:443:uEiAAAAAAAAAAAAAAAAAAAAAAAAAAAAAAAAAAAAAAAAAAAA"]

/-- The document, served by both anchors. -/
def sampleServed : List ServedTopology := sampleAnchors.map fun anchor => ⟨anchor, sampleSnapshot⟩

/-- The default thresholds, with the anchors of the first member. -/
def sampleOptions : ApplyServedOptions where
  clockSkewToleranceSeconds := 600
  livenessMaxAgeSeconds := 60
  anchorMembers := some
    (sampleAnchors.foldl (fun map anchor => map.set anchor (sampleMember '1' 1 0).address) .empty)

/-- The document with other observations of its two members. -/
def snapshotWith (first second : TopologyLivenessStatus) : TopologySnapshot :=
  { sampleSnapshot with
    liveness := some [⟨(sampleMember '1' 1 0).address, first, 1000⟩,
      ⟨(sampleMember '3' 2 2).address, second, 1000⟩] }

/-- It, served by both anchors. -/
def servedWith (first second : TopologyLivenessStatus) : List ServedTopology :=
  sampleAnchors.map fun anchor => ⟨anchor, snapshotWith first second⟩

/-! The texts of the members, which no evaluation of the checks has to read again. -/

theorem normalizeAddress_sample {digit : Char} {role layer : ℕ} (h : digit.toLower = digit) :
    normalizeAddress (sampleMember digit role layer).address =
      (sampleMember digit role layer).address := by
  rw [normalizeAddress, stripPrefix, sampleMember, String.toList_ofList]
  simp only [List.map_replicate, h]

private theorem toLowerCase_sample {digit : Char} {role layer : ℕ} (h : digit.toLower = digit) :
    toLowerCase (sampleMember digit role layer).address =
      (sampleMember digit role layer).address := by
  rw [toLowerCase, sampleMember, String.toList_ofList]
  simp only [List.map_cons, List.map_replicate, h]
  rfl

private theorem sphinxKey_sample {digit : Char} {role layer : ℕ} (h : digit.toLower = digit)
    (hzero : digit ≠ '0') :
    String.ofList (strip0x (toLowerCase (sampleMember digit role layer).sphinxKey).toList) =
      (sampleMember digit role layer).sphinxKey := by
  rw [toLowerCase, sampleMember, String.toList_ofList, String.toList_ofList, List.map_replicate, h]
  refine congrArg String.ofList ?_
  -- a key without a leading zero has no prefix to strip
  rw [List.replicate_succ, strip0x.eq_def]
  split
  · rename_i heq
    exact absurd (List.cons.inj heq).1 hzero
  · rfl

private theorem addresses_ne :
    (sampleMember '1' 1 0).address ≠ (sampleMember '2' 1 0).address ∧
      (sampleMember '3' 2 2).address ≠ (sampleMember '2' 1 0).address ∧
      (sampleMember '3' 2 2).address ≠ (sampleMember '1' 1 0).address := by
  decide +kernel

/-! Both members pass the checks of a document. -/

private theorem validateSnapshotNode_sample {digit : Char} {role layer : ℕ}
    {addresses : List String} {url : String} (hlower : digit.toLower = digit)
    (hhex : isHexDigit digit = true)
    (hnew : addresses.contains (sampleMember digit role layer).address = false)
    (hrole : ¬ (role < 1 ∨ role > 3)) (hlayer : (layersForRole role).contains layer = true) :
    validateSnapshotNode addresses
      (toRelayerNode { sampleMember digit role layer with url := url }) = .ok () := by
  have haddress : isAddress (sampleMember digit role layer).address = true := by
    rw [isAddress, sampleMember, String.toList_ofList]
    simp [hhex]
  have hkey : ((sampleMember digit role layer).sphinxKey.toList.length == 64 &&
      (sampleMember digit role layer).sphinxKey.toList.all isHexDigit) = true := by
    rw [sampleMember, String.toList_ofList]
    simp [hhex]
  have hstake : isDecimal "1" = true := by decide
  rw [validateSnapshotNode]
  change (if !isAddress (sampleMember digit role layer).address then _
    else if addresses.contains (toLowerCase (sampleMember digit role layer).address) then _
    else if !((sampleMember digit role layer).sphinxKey.toList.length == 64 &&
      (sampleMember digit role layer).sphinxKey.toList.all isHexDigit) then _
    else if !isDecimal "1" then _ else if role < 1 ∨ role > 3 then _
    else if !(layersForRole role).contains layer then _ else _) = _
  rw [toLowerCase_sample hlower, haddress, hnew, hkey, hstake, hlayer, if_neg hrole]
  rfl

private theorem validateSnapshotNodes_sample :
    validateSnapshotNodes [] sampleSnapshot.nodes = .ok () := by
  have hfirst : validateSnapshotNode [] (toRelayerNode movedMember) = .ok () :=
    validateSnapshotNode_sample rfl rfl rfl (by decide) rfl
  have hsecond : validateSnapshotNode [(sampleMember '1' 1 0).address]
      (toRelayerNode (sampleMember '3' 2 2)) = .ok () := by
    refine validateSnapshotNode_sample rfl rfl ?_ (by decide) rfl
    simp [addresses_ne.2.2]
  have hmoved : toLowerCase (toRelayerNode movedMember).address = (sampleMember '1' 1 0).address :=
    toLowerCase_sample rfl
  simp only [sampleSnapshot, validateSnapshotNodes, hfirst, ok_bind, hmoved, List.nil_append,
    hsecond]

private theorem validateLiveness_sample (first second : TopologyLivenessStatus) :
    validateLiveness sampleHashes (snapshotWith first second) true = .ok () := by
  have hone : normalizeAddress (sampleMember '1' 1 0).address = (sampleMember '1' 1 0).address :=
    normalizeAddress_sample rfl
  have hthree : normalizeAddress (sampleMember '3' 2 2).address = (sampleMember '3' 2 2).address :=
    normalizeAddress_sample rfl
  have hmoved : normalizeAddress (toRelayerNode movedMember).address =
      (sampleMember '1' 1 0).address := hone
  have hthird : normalizeAddress (toRelayerNode (sampleMember '3' 2 2)).address =
      (sampleMember '3' 2 2).address := hthree
  have hclosed : isCanonicalAddressOrder
        [(sampleMember '1' 1 0).address, (sampleMember '3' 2 2).address] = true ∧
      checkPrimaryLayer sampleHashes (toRelayerNode movedMember) = .ok () ∧
      checkPrimaryLayer sampleHashes (toRelayerNode (sampleMember '3' 2 2)) = .ok () := by
    simp only [checkPrimaryLayer, primaryLayerForRole, hmoved, hthird]
    decide +kernel
  obtain ⟨-, -, hne⟩ := addresses_ne
  have hdedup : [(sampleMember '1' 1 0).address, (sampleMember '3' 2 2).address].dedup =
      [(sampleMember '1' 1 0).address, (sampleMember '3' 2 2).address] :=
    List.dedup_eq_self.mpr (by simp [hne.symm])
  simp [validateLiveness, snapshotWith, sampleSnapshot, validateCompleteLiveness, hone, hthree,
    hmoved, hthird, hclosed, checkObservations, hne, hdedup]

private theorem verifySelfConsistency_sample (first second : TopologyLivenessStatus) :
    verifySelfConsistency sampleHashes (snapshotWith first second) true = .ok () := by
  have hfingerprint : computeTopologyFingerprint sampleHashes sampleSnapshot.nodes =
        .ok sampleSnapshot.fingerprint ∧
      String.ofList (strip0x (toLowerCase sampleSnapshot.fingerprint).toList) =
        sampleSnapshot.fingerprint := by
    decide +kernel
  have hnodes : validateSnapshotNodes [] (snapshotWith first second).nodes = .ok () :=
    validateSnapshotNodes_sample
  simp only [verifySelfConsistency, hnodes, ok_bind, validateLiveness_sample]
  simp only [snapshotWith, hfingerprint, ok_bind]
  rfl

/-! What the document says about the three base members. -/

theorem findWithIdentity_sample (first second : TopologyLivenessStatus) :
    findWithIdentity (snapshotWith first second) (sampleMember '1' 1 0) =
        some (toRelayerNode movedMember) ∧
      findWithIdentity (snapshotWith first second) (sampleMember '2' 1 0) = none ∧
      findWithIdentity (snapshotWith first second) (sampleMember '3' 2 2) =
        some (toRelayerNode (sampleMember '3' 2 2)) := by
  obtain ⟨hfirst, hthird, hne⟩ := addresses_ne
  have hnodes : (snapshotWith first second).nodes =
      [toRelayerNode movedMember, toRelayerNode (sampleMember '3' 2 2)] := rfl
  have hone : toLowerCase (toRelayerNode movedMember).address = (sampleMember '1' 1 0).address :=
    toLowerCase_sample rfl
  have hthree : toLowerCase (toRelayerNode (sampleMember '3' 2 2)).address =
      (sampleMember '3' 2 2).address := toLowerCase_sample rfl
  have hkey : String.ofList (strip0x (toLowerCase (toRelayerNode movedMember).sphinxKey).toList) =
      (sampleMember '1' 1 0).sphinxKey := sphinxKey_sample rfl (by decide)
  have hkey' : String.ofList
      (strip0x (toLowerCase (toRelayerNode (sampleMember '3' 2 2)).sphinxKey).toList) =
        (sampleMember '3' 2 2).sphinxKey := sphinxKey_sample rfl (by decide)
  have hplace : (toRelayerNode movedMember).role = (sampleMember '1' 1 0).role ∧
      (toRelayerNode movedMember).layer = (sampleMember '1' 1 0).layer := ⟨rfl, rfl⟩
  have hplace' : (toRelayerNode (sampleMember '3' 2 2)).role = (sampleMember '3' 2 2).role ∧
      (toRelayerNode (sampleMember '3' 2 2)).layer = (sampleMember '3' 2 2).layer := ⟨rfl, rfl⟩
  simp [findWithIdentity, hnodes, hone, hthree, hkey, hkey', hfirst, hthird, hne.symm, hplace,
    hplace']

theorem isOnline_sample (first second : TopologyLivenessStatus) :
    isOnline (snapshotWith first second) (sampleMember '1' 1 0).address 60 = (first == .online) ∧
      isOnline (snapshotWith first second) (sampleMember '3' 2 2).address 60 =
        (second == .online) := by
  obtain ⟨-, -, hne⟩ := addresses_ne
  have hone : toLowerCase (sampleMember '1' 1 0).address = (sampleMember '1' 1 0).address :=
    toLowerCase_sample rfl
  have hthree : toLowerCase (sampleMember '3' 2 2).address = (sampleMember '3' 2 2).address :=
    toLowerCase_sample rfl
  simp [isOnline, snapshotWith, sampleSnapshot, hone, hthree, hne.symm]

private theorem listing_sample (first second : TopologyLivenessStatus) :
    listing (servedWith first second) (sampleMember '1' 1 0) = servedWith first second ∧
      listing (servedWith first second) (sampleMember '2' 1 0) = [] ∧
      listing (servedWith first second) (sampleMember '3' 2 2) = servedWith first second := by
  obtain ⟨hfirst, hsecond, hthird⟩ := findWithIdentity_sample first second
  simp [listing, servedWith, sampleAnchors, hfirst, hsecond, hthird]

/-- The documents move the first member and agree with the base about the exit. -/
private theorem agreedNewUrl_sample (first second : TopologyLivenessStatus) :
    agreedNewUrl (servedWith first second) (sampleMember '1' 1 0) 2 = some "moved" ∧
      agreedNewUrl (servedWith first second) (sampleMember '3' 2 2) 2 = none := by
  obtain ⟨hfirst, -, hthird⟩ := findWithIdentity_sample first second
  have hmoved : "moved" ≠ (sampleMember '1' 1 0).url := by decide +kernel
  have hall : ∀ source ∈ servedWith first second,
      source.snapshot = snapshotWith first second := by
    intro source hsource
    obtain ⟨anchor, -, rfl⟩ := List.mem_map.mp hsource
    rfl
  have hjoins : ∀ urls, ∀ source ∈ servedWith first second,
      addAnchor (sampleMember '1' 1 0) urls source =
        urls.set "moved" (insert source.anchor ((urls.get? "moved").getD ∅)) :=
    fun urls source hsource => addAnchor_of_moved (hall source hsource ▸ hfirst) rfl hmoved
  have hstays : ∀ urls, ∀ source ∈ servedWith first second,
      addAnchor (sampleMember '3' 2 2) urls source = urls :=
    fun urls source hsource => addAnchor_of_same (hall source hsource ▸ hthird) rfl
  constructor
  · rw [agreedNewUrl, List.foldl_ext _ _ _ hjoins]
    rfl
  · rw [agreedNewUrl, List.foldl_ext _ _ _ hstays]
    rfl

private theorem judge_sample (first second : TopologyLivenessStatus) (evidence : Evidence) :
    evidence.judge (servedWith first second) ⟨10, 60, 2, 2⟩ (sampleMember '1' 1 0) =
        ⟨insert (sampleMember '1' 1 0).address evidence.listed,
          if first = .online then insert (sampleMember '1' 1 0).address evidence.kept
          else evidence.kept,
          evidence.relocatedUrls.set (sampleMember '1' 1 0).address "moved"⟩ ∧
      evidence.judge (servedWith first second) ⟨10, 60, 2, 2⟩ (sampleMember '2' 1 0) = evidence ∧
      evidence.judge (servedWith first second) ⟨10, 60, 2, 2⟩ (sampleMember '3' 2 2) =
        ⟨insert (sampleMember '3' 2 2).address evidence.listed,
          if second = .online then insert (sampleMember '3' 2 2).address evidence.kept
          else evidence.kept, evidence.relocatedUrls⟩ := by
  obtain ⟨hfirst, hsecond, hthird⟩ := listing_sample first second
  obtain ⟨honline, honline'⟩ := isOnline_sample first second
  obtain ⟨hmoved, hstays⟩ := agreedNewUrl_sample first second
  have hany : ∀ address,
      ((servedWith first second).any fun source => isOnline source.snapshot address 60) =
        isOnline (snapshotWith first second) address 60 := by
    simp [servedWith, sampleAnchors]
  have hnewer : ∀ source ∈ servedWith first second, (source.block : ℤ) > 10 := by
    intro source hsource
    obtain ⟨anchor, -, rfl⟩ := List.mem_map.mp hsource
    exact (by decide : (20 : ℤ) > 10)
  have hne : servedWith first second ≠ [] := List.cons_ne_nil _ _
  refine ⟨?_, judge_of_gone hsecond rfl, ?_⟩
  · rw [judge_of_listed hfirst hne hnewer, hany, honline, hmoved]
    simp only [relocate, beq_iff_eq]
  · rw [judge_of_listed hthird hne hnewer, hany, honline', hstays]
    simp only [relocate, beq_iff_eq]

/-- The base members of the sample. -/
private theorem baseMembers_sample : baseMembers samplePinned sampleOptions =
    [sampleMember '1' 1 0, sampleMember '2' 1 0, sampleMember '3' 2 2].map fun member =>
      { toPinnedMember := member, floor := true, probation := false } :=
  rfl

theorem nodup_base_sample :
    ((baseMembers samplePinned sampleOptions).map (·.address)).Nodup := by
  obtain ⟨hfirst, hthird, hne⟩ := addresses_ne
  simp [baseMembers_sample, hfirst, hthird.symm, hne.symm]

theorem lower_sample : ∀ member ∈ baseMembers samplePinned sampleOptions,
    normalizeAddress member.address = member.address := by
  rw [baseMembers_sample]
  simp only [List.forall_mem_map, List.forall_mem_cons]
  exact ⟨normalizeAddress_sample rfl, normalizeAddress_sample rfl, normalizeAddress_sample rfl,
    fun _ h => nomatch h⟩

/-- Both anchors serve a consistent document that passes the other checks. -/
theorem accepted_sample (first second : TopologyLivenessStatus) :
    acceptedTopologies sampleHashes samplePinned (servedWith first second) 1000 sampleOptions
      = servedWith first second := by
  have hmember : ((baseByAddress samplePinned sampleOptions).get?
        (sampleMember '1' 1 0).address).map (·.toPinnedMember) = some (sampleMember '1' 1 0) ∧
      ∀ anchor ∈ sampleAnchors, (anchorMembersOf samplePinned sampleOptions).get? anchor =
        some (sampleMember '1' 1 0).address := by
    decide +kernel
  refine List.filter_eq_self.mpr fun source hsource => Option.isNone_iff_eq_none.mpr ?_
  obtain ⟨anchor, hanchor, rfl⟩ := List.mem_map.mp hsource
  obtain ⟨member, hbase, hrecord⟩ := Option.map_eq_some_iff.mp hmember.1
  simp only [reasonAgainst, rejectionReason, verifySelfConsistency_sample,
    hmember.2 anchor hanchor, hbase, hrecord, findWithIdentity_sample]
  simp [snapshotWith, sampleSnapshot, samplePinned, maxCandidates, sampleOptions]

/-- What both documents say: they list the first member and the exit, keep those they report
online, and move the first one. -/
theorem evidence_sample (first second : TopologyLivenessStatus) :
    evidenceOf sampleHashes samplePinned (servedWith first second) 1000 sampleOptions =
      ⟨{(sampleMember '3' 2 2).address, (sampleMember '1' 1 0).address},
        if second = .online then
          insert (sampleMember '3' 2 2).address
            (if first = .online then {(sampleMember '1' 1 0).address} else ∅)
        else if first = .online then {(sampleMember '1' 1 0).address} else ∅,
        OrderedMap.empty.set (sampleMember '1' 1 0).address "moved"⟩ := by
  have hlimits : thresholds samplePinned sampleOptions = ⟨10, 60, 2, 2⟩ := rfl
  rw [evidenceOf, accepted_sample, baseMembers_sample, hlimits]
  simp only [List.map_cons, List.map_nil, List.foldl_cons, List.foldl_nil, judge_sample]
  rfl

/-- The two addresses of the first member reach the quorum: the second member is removed and the
first one moved. -/
theorem sample_run :
    (applyServedTopologies sampleHashes samplePinned sampleServed 1000 sampleOptions).toOption.map
        (fun working => (working.members, working.removed, working.relocated)) =
      some ([toRelayerNode movedMember, toRelayerNode (sampleMember '3' 2 2)],
        [(sampleMember '2' 1 0).address], [(sampleMember '1' 1 0).address]) := by
  have hserved : sampleServed = servedWith .online .online := rfl
  simp only [hserved, applyServedTopologies, acceptedAnchors, floorsOf, assembled,
    accepted_sample, evidence_sample]
  decide +kernel

end Sample

section Apply

variable {hashes : Hashes} {pinned : PinnedSnapshot} {served : List ServedTopology} {nowUnix : ℤ}
  {options : ApplyServedOptions}

/-- The accepted documents list the member, or none of them can know it. -/
theorem mem_listed {address : String} :
    address ∈ (evidenceOf hashes pinned served nowUnix options).listed ↔
      ∃ member ∈ baseMembers pinned options, address = member.address ∧
        Listed (acceptedTopologies hashes pinned served nowUnix options)
          (thresholds pinned options) member.toPinnedMember := by
  refine (mem_listed_judgeAll (baseMembers pinned options) ⟨∅, ∅, .empty⟩ address).trans ?_
  simp only [Finset.notMem_empty, false_or]

/-- Exactly the confirmed members are kept by the evidence. -/
theorem mem_kept {address : String} :
    address ∈ (evidenceOf hashes pinned served nowUnix options).kept ↔
      ∃ member ∈ baseMembers pinned options, address = member.address ∧
        Confirmed (acceptedTopologies hashes pinned served nowUnix options)
          (thresholds pinned options) member.toPinnedMember := by
  refine (mem_kept_judgeAll (baseMembers pinned options) ⟨∅, ∅, .empty⟩ address).trans ?_
  simp only [Finset.notMem_empty, false_or]

/-- Exactly the members that the newer documents agree to have moved are relocated. -/
theorem get?_relocatedUrls (hbase : ((baseMembers pinned options).map (·.address)).Nodup)
    {member : MemberRecord} (hmember : member ∈ baseMembers pinned options) :
    (evidenceOf hashes pinned served nowUnix options).relocatedUrls.get? member.address =
      relocation (acceptedTopologies hashes pinned served nowUnix options)
        (thresholds pinned options) member.toPinnedMember :=
  get?_judgeAll (baseMembers pinned options) ⟨∅, ∅, .empty⟩ hbase (fun _ _ => rfl) hmember

/-! ### No new identities -/

/-- The accepted documents that are newer than the base membership. -/
def newerTopologies (hashes : Hashes) (pinned : PinnedSnapshot) (served : List ServedTopology)
    (nowUnix : ℤ) (options : ApplyServedOptions) : List ServedTopology :=
  (acceptedTopologies hashes pinned served nowUnix options).filter fun source =>
    decide ((source.block : ℤ) > (thresholds pinned options).membershipBlock)

/-- `node` routes over the member `record`: its identity, and its `url` unless the documents
agree on another one. -/
structure Routes (docs : List ServedTopology) (minSources : ℤ) (record : MemberRecord)
    (node : RelayerNode) : Prop where
  address : node.address = record.address
  sphinxKey : node.sphinxKey = record.sphinxKey
  role : node.role = record.role
  layer : node.layer = record.layer
  stake : node.stake = record.stake
  ingressUrl : node.ingressUrl = some record.ingressUrl
  metadataUrl : node.metadataUrl = some record.metadataUrl
  url : node.url ≠ record.url → AgreeOn docs record.toPinnedMember minSources node.url

/-- The node of a member is one of its routes, at the URL that it was registered with. -/
theorem routes_toRelayerNode (docs : List ServedTopology) (minSources : ℤ)
    (record : MemberRecord) : Routes docs minSources record (toRelayerNode record.toPinnedMember) :=
  ⟨rfl, rfl, rfl, rfl, rfl, rfl, rfl, fun hne => absurd rfl hne⟩

/-- Only the documents of a later membership block count for a relocation. -/
private theorem anchorsAt_newerListing (accepted : List ServedTopology) (membershipBlock : ℤ)
    (member : PinnedMember) (url : String) :
    anchorsAt (newerListing accepted membershipBlock member) member url =
      anchorsAt (accepted.filter fun source => decide ((source.block : ℤ) > membershipBlock))
        member url := by
  ext anchor
  simp only [mem_anchorsAt, newerListing, listing, List.mem_filter]
  constructor
  · rintro ⟨source, ⟨⟨haccepted, -⟩, hnewer⟩, hanchor, hlists⟩
    exact ⟨source, ⟨haccepted, hnewer⟩, hanchor, hlists⟩
  · rintro ⟨source, ⟨haccepted, hnewer⟩, hanchor, node, hnode, hurl⟩
    exact ⟨source, ⟨⟨haccepted, by rw [hnode]; rfl⟩, hnewer⟩, hanchor, node, hnode, hurl⟩

/-- A relocation is to a URL that enough anchors of newer documents agree on. -/
theorem agreeOn_of_relocation {member : MemberRecord} {url : String}
    (h : relocation (acceptedTopologies hashes pinned served nowUnix options)
      (thresholds pinned options) member.toPinnedMember = some url) :
    AgreeOn (newerTopologies hashes pinned served nowUnix options) member.toPinnedMember
      (thresholds pinned options).minSources url := by
  have hagree := agreeOn_of_agreedNewUrl h
  have hanchors := anchorsAt_newerListing (acceptedTopologies hashes pinned served nowUnix options)
    (thresholds pinned options).membershipBlock member.toPinnedMember
  refine ⟨hagree.new, ?_, ?_, fun other hother hbase => ?_⟩
  · rw [newerTopologies, ← hanchors]
    exact hagree.listed
  · rw [newerTopologies, ← hanchors]
    exact hagree.quorum
  · rw [newerTopologies, ← hanchors]
    exact hagree.alone other hother hbase

/-- Each member is routed at the URL that the documents agree on, or where it was. -/
theorem routes_routedMember (hbase : ((baseMembers pinned options).map (·.address)).Nodup)
    {member : MemberRecord} (hmember : member ∈ baseMembers pinned options) :
    Routes (newerTopologies hashes pinned served nowUnix options)
      (thresholds pinned options).minSources member
      (routedMember (evidenceOf hashes pinned served nowUnix options).relocatedUrls member) := by
  rw [routedMember, get?_relocatedUrls hbase hmember]
  cases hrelocation : relocation (acceptedTopologies hashes pinned served nowUnix options)
      (thresholds pinned options) member.toPinnedMember with
  | none => exact routes_toRelayerNode _ _ _
  | some url =>
    exact ⟨rfl, rfl, rfl, rfl, rfl, rfl, rfl, fun _ => agreeOn_of_relocation hrelocation⟩

/-- Served topologies remove and relocate, and introduce no identity: the members of the result
are base members, each at most once and in base order, with their own `url` unless the newer
documents of enough anchors agree on another one.

With too few anchors the base is returned as it is. Otherwise the result is the base filtered by the
kept addresses, with each member routed on its own (`routes_routedMember`); the floors only choose
the addresses. -/
theorem applyServedTopologies_routes (hashes : Hashes) (pinned : PinnedSnapshot)
    (served : List ServedTopology) (nowUnix : ℤ) (options : ApplyServedOptions)
    (working : WorkingSet) (hbase : ((baseMembers pinned options).map (·.address)).Nodup)
    (h : applyServedTopologies hashes pinned served nowUnix options = .ok working) :
    ∃ kept : List MemberRecord, kept.Sublist (baseMembers pinned options) ∧
      List.Forall₂ (Routes (newerTopologies hashes pinned served nowUnix options)
        (thresholds pinned options).minSources) kept working.members := by
  rw [applyServedTopologies] at h
  split at h
  · obtain rfl := Except.ok.inj h
    refine ⟨_, List.Sublist.refl _, ?_⟩
    exact List.forall₂_map_right_iff.mpr
      (List.forall₂_same.mpr fun record _ => routes_toRelayerNode _ _ record)
  · obtain ⟨baseNodes, -, h⟩ := bind_eq_ok_iff.mp h
    simp only at h
    split_ifs at h with hgone
    obtain rfl := Except.ok.inj h
    refine ⟨(baseMembers pinned options).filter fun member => decide
      (member.address ∈ (floorsOf hashes pinned served nowUnix options baseNodes).kept),
      List.filter_sublist, List.forall₂_map_right_iff.mpr ?_⟩
    exact List.forall₂_same.mpr fun record hrecord =>
      routes_routedMember hbase (List.mem_of_mem_filter hrecord)

/-- Two anchors of one member: the run of the sample moves a member and removes another. -/
theorem applyServedTopologies_routes_sample : ∃ working,
    applyServedTopologies sampleHashes samplePinned sampleServed 1000 sampleOptions
      = .ok working ∧
    working.relocated = [(sampleMember '1' 1 0).address] ∧
    ∃ kept : List MemberRecord, kept.Sublist (baseMembers samplePinned sampleOptions) ∧
      List.Forall₂ (Routes
        (newerTopologies sampleHashes samplePinned sampleServed 1000 sampleOptions) 2)
        kept working.members := by
  have hrun := sample_run
  cases h : applyServedTopologies sampleHashes samplePinned sampleServed 1000 sampleOptions with
  | error error =>
    rw [h] at hrun
    cases hrun
  | ok working =>
    rw [h] at hrun
    refine ⟨working, rfl, congrArg (·.2.2) (Option.some.inj hrun), ?_⟩
    exact applyServedTopologies_routes sampleHashes samplePinned sampleServed 1000 sampleOptions
      working nodup_base_sample h

/-! ### What leaves the set as it is -/

/-- The documents confirm fewer members of a layer than its floor. -/
def BelowFloor (baseNodes : List TopologyNode) (confirmed : Finset String) (minPerLayer : ℤ)
    (layer : RouteLayer) : Prop :=
  (((layerNodes baseNodes layer).filter fun node => decide (node.id ∈ confirmed)).length : ℤ) <
    min minPerLayer (layerNodes baseNodes layer).length

/-- A layer below its floor gives the member back: it was in the previous set, or the layer is
without confirmed and previous members and the member is still listed. -/
def GivenBack (baseNodes : List TopologyNode) (listed confirmed previous : Finset String)
    (minPerLayer : ℤ) (address : String) (layer : RouteLayer) : Prop :=
  BelowFloor baseNodes confirmed minPerLayer layer ∧
    ∃ node ∈ layerNodes baseNodes layer, node.id = address ∧
      (address ∈ previous ∨
        address ∈ listed ∧ ∀ other ∈ layerNodes baseNodes layer,
          other.id ∉ confirmed ∧ other.id ∉ previous)

/-- No member of a layer with members is listed. -/
def Gone (baseNodes : List TopologyNode) (listed : Finset String) (layer : RouteLayer) : Prop :=
  layerNodes baseNodes layer ≠ [] ∧ ∀ node ∈ layerNodes baseNodes layer, node.id ∉ listed

section Floors

variable {baseNodes : List TopologyNode} {listed agreed previous : Finset String}
  {minPerLayer : ℤ}

/-- The ids of nodes, as a set. -/
private theorem mem_ids {nodes : List TopologyNode} {address : String} :
    address ∈ (nodes.map (·.id)).toFinset ↔ ∃ node ∈ nodes, node.id = address := by
  simp

/-- Where some member of the layer is confirmed or was there before, only those that were there
before are given back. -/
private theorem givenBack_iff_previous {layer : RouteLayer} {address : String}
    (hbelow : BelowFloor baseNodes agreed minPerLayer layer)
    (hsome : ∃ other ∈ layerNodes baseNodes layer, other.id ∈ agreed ∨ other.id ∈ previous) :
    GivenBack baseNodes listed agreed previous minPerLayer address layer ↔
      ∃ node ∈ (layerNodes baseNodes layer).filter fun node => decide (node.id ∈ previous),
        node.id = address := by
  constructor
  · rintro ⟨-, node, hnode, rfl, hback | ⟨-, hno⟩⟩
    · exact ⟨node, List.mem_filter.mpr ⟨hnode, decide_eq_true hback⟩, rfl⟩
    · obtain ⟨other, hother, hother_in⟩ := hsome
      exact absurd hother_in (not_or.mpr (hno other hother))
  · rintro ⟨node, hnode, rfl⟩
    rw [List.mem_filter, decide_eq_true_eq] at hnode
    exact ⟨hbelow, node, hnode.1, rfl, .inl hnode.2⟩

/-- A layer is noted as gone by its own round only. -/
theorem mem_gone_restore (floors : Floors) (layer other : RouteLayer) :
    other ∈ (floors.restore baseNodes listed agreed previous minPerLayer layer).gone ↔
      other ∈ floors.gone ∨ other = layer ∧ Gone baseNodes listed layer := by
  rw [Floors.restore, Gone]
  simp only [List.length_eq_zero_iff, Bool.not_eq_true', List.any_eq_false, decide_eq_true_eq]
  split_ifs with hempty hgone hfloor hoffline
  · simp [hempty]
  · have hall : layerNodes baseNodes layer ≠ [] ∧
        ∀ node ∈ layerNodes baseNodes layer, node.id ∉ listed := ⟨hempty, hgone⟩
    simp only [List.mem_append, List.mem_singleton, and_iff_left hall]
  all_goals simp [hgone]

/-- One round of the floor keeps what was kept, and gives back what the layer needs for its floor.
-/
theorem mem_kept_restore (floors : Floors) (layer : RouteLayer) (address : String)
    (hgone : ¬ Gone baseNodes listed layer) :
    address ∈ (floors.restore baseNodes listed agreed previous minPerLayer layer).kept ↔
      address ∈ floors.kept ∨
        GivenBack baseNodes listed agreed previous minPerLayer address layer := by
  rw [Floors.restore]
  simp only [List.length_eq_zero_iff, Bool.not_eq_true', List.any_eq_false, decide_eq_true_eq]
  split_ifs with hempty hnone hfloor hoffline
  · -- a layer without members has no floor
    have hno : ¬ GivenBack baseNodes listed agreed previous minPerLayer address layer := by
      rintro ⟨-, node, hnode, -⟩
      simp [hempty] at hnode
    simp [hno]
  · exact absurd ⟨hempty, hnone⟩ hgone
  -- the layer has its floor without help
  · have hno : ¬ GivenBack baseNodes listed agreed previous minPerLayer address layer :=
      fun hback => absurd hfloor (not_le.mpr hback.1)
    simp [hno]
  · -- no member of the layer is confirmed, some are in the previous set
    rename_i hrestored
    obtain ⟨node, hnode⟩ := List.exists_mem_of_length_pos hrestored
    rw [List.mem_filter, decide_eq_true_eq] at hnode
    rw [Finset.mem_union, mem_ids,
      givenBack_iff_previous (not_le.mp hfloor) ⟨node, hnode.1, .inr hnode.2⟩]
  · -- no member of the layer is confirmed or in the previous set
    rename_i hrestored
    have hno_previous : ∀ node ∈ layerNodes baseNodes layer, node.id ∉ previous := by
      simpa using hrestored
    have hno_agreed : ∀ node ∈ layerNodes baseNodes layer, node.id ∉ agreed := by
      simpa using hoffline
    rw [Finset.mem_union, mem_ids]
    refine or_congr_right ⟨?_, ?_⟩
    · rintro ⟨node, hnode, rfl⟩
      rw [List.mem_filter, decide_eq_true_eq] at hnode
      exact ⟨not_le.mp hfloor, node, hnode.1, rfl, .inr ⟨hnode.2, fun other hother =>
        ⟨hno_agreed other hother, hno_previous other hother⟩⟩⟩
    · rintro ⟨-, node, hnode, rfl, hback | ⟨hlisted, -⟩⟩
      · exact absurd hback (hno_previous node hnode)
      · exact ⟨node, List.mem_filter.mpr ⟨hnode, decide_eq_true hlisted⟩, rfl⟩
  -- some members of the layer are confirmed, but fewer than its floor
  · obtain ⟨node, hnode⟩ := List.exists_mem_of_ne_nil _ hoffline
    rw [List.mem_filter, decide_eq_true_eq] at hnode
    rw [Finset.mem_union, mem_ids,
      givenBack_iff_previous (not_le.mp hfloor) ⟨node, hnode.1, .inl hnode.2⟩]

end Floors

/-- The loop throws for the layers that are gone. -/
theorem mem_gone_floorsOf (baseNodes : List TopologyNode) (layer : RouteLayer) :
    layer ∈ (floorsOf hashes pinned served nowUnix options baseNodes).gone ↔
      Gone baseNodes (evidenceOf hashes pinned served nowUnix options).listed layer := by
  simp only [floorsOf, routeLayers, List.foldl_cons, List.foldl_nil, mem_gone_restore]
  cases layer <;> simp

/-- Without a layer that is gone the loop keeps the confirmed members and those given back. -/
theorem mem_kept_floorsOf {baseNodes : List TopologyNode} (address : String)
    (hgone : ∀ layer,
      ¬ Gone baseNodes (evidenceOf hashes pinned served nowUnix options).listed layer) :
    address ∈ (floorsOf hashes pinned served nowUnix options baseNodes).kept ↔
      address ∈ (evidenceOf hashes pinned served nowUnix options).kept ∨
        ∃ layer, GivenBack baseNodes (evidenceOf hashes pinned served nowUnix options).listed
          (evidenceOf hashes pinned served nowUnix options).kept (previousOf pinned options)
          (thresholds pinned options).minPerLayer address layer := by
  simp only [floorsOf, routeLayers, List.foldl_cons, List.foldl_nil,
    mem_kept_restore _ _ _ (hgone _), or_assoc]
  refine or_congr_right ⟨?_, ?_⟩
  · rintro (hentry | hmix | hexit)
    exacts [⟨_, hentry⟩, ⟨_, hmix⟩, ⟨_, hexit⟩]
  · rintro ⟨_ | _ | _, hback⟩
    exacts [.inl hback, .inr (.inl hback), .inr (.inr hback)]

/-- The base members the documents list, by address. -/
def listedAddresses (accepted : List ServedTopology) (limits : Thresholds)
    (base : List MemberRecord) : Finset String :=
  ((base.filter fun member => decide (Listed accepted limits member.toPinnedMember)).map
    (·.address)).toFinset

/-- The base members the documents confirm, by address. -/
def confirmedAddresses (accepted : List ServedTopology) (limits : Thresholds)
    (base : List MemberRecord) : Finset String :=
  ((base.filter fun member => decide (Confirmed accepted limits member.toPinnedMember)).map
    (·.address)).toFinset

/-- The addresses that the evidence lists, as a set of the members. -/
theorem listed_evidenceOf : (evidenceOf hashes pinned served nowUnix options).listed =
    listedAddresses (acceptedTopologies hashes pinned served nowUnix options)
      (thresholds pinned options) (baseMembers pinned options) := by
  ext address
  simp only [mem_listed, listedAddresses, List.mem_toFinset, List.mem_map, List.mem_filter,
    decide_eq_true_eq, and_assoc]
  exact exists_congr fun member => and_congr_right fun _ => by rw [and_comm, eq_comm]

/-- The addresses that the evidence keeps, as a set of the members. -/
theorem kept_evidenceOf : (evidenceOf hashes pinned served nowUnix options).kept =
    confirmedAddresses (acceptedTopologies hashes pinned served nowUnix options)
      (thresholds pinned options) (baseMembers pinned options) := by
  ext address
  simp only [mem_kept, confirmedAddresses, List.mem_toFinset, List.mem_map, List.mem_filter,
    decide_eq_true_eq, and_assoc]
  exact exists_congr fun member => and_congr_right fun _ => by rw [and_comm, eq_comm]

/-- An address names one base member. -/
theorem mem_confirmedAddresses {accepted : List ServedTopology} {limits : Thresholds}
    {base : List MemberRecord} (hbase : (base.map (·.address)).Nodup) {member : MemberRecord}
    (hmember : member ∈ base) : member.address ∈ confirmedAddresses accepted limits base ↔
      Confirmed accepted limits member.toPinnedMember := by
  simp only [confirmedAddresses, List.mem_toFinset, List.mem_map, List.mem_filter,
    decide_eq_true_eq]
  constructor
  · rintro ⟨other, ⟨hother, hconfirmed⟩, haddress⟩
    exact List.inj_on_of_nodup_map hbase hother hmember haddress ▸ hconfirmed
  · intro hconfirmed
    exact ⟨member, ⟨hmember, hconfirmed⟩, rfl⟩

/-- The accepted documents cost no member: every layer keeps a registered member, every
member is confirmed or given back by a layer below its floor, and no new location has a quorum. -/
structure CostNothing (accepted : List ServedTopology) (limits : Thresholds)
    (base : List MemberRecord) (baseNodes : List TopologyNode) (previous : Finset String) :
    Prop where
  registered : ∀ layer, ¬ Gone baseNodes (listedAddresses accepted limits base) layer
  stays : ∀ member ∈ base, Confirmed accepted limits member.toPinnedMember ∨
    ∃ layer, GivenBack baseNodes (listedAddresses accepted limits base)
      (confirmedAddresses accepted limits base) previous limits.minPerLayer member.address layer
  unmoved : ∀ member ∈ base, relocation accepted limits member.toPinnedMember = none

/-- The result is every base member, unchanged. -/
def KeepsBase (hashes : Hashes) (pinned : PinnedSnapshot) (served : List ServedTopology)
    (nowUnix : ℤ) (options : ApplyServedOptions) : Prop :=
  ∃ working, applyServedTopologies hashes pinned served nowUnix options = .ok working ∧
    working.members =
      ((baseMembers pinned options).map fun member => toRelayerNode member.toPinnedMember) ∧
    working.removed = [] ∧ working.relocated = []

/-- The result of the documents of the sample. -/
theorem exists_sampleWorking : ∃ working,
    applyServedTopologies sampleHashes samplePinned sampleServed 1000 sampleOptions = .ok working ∧
      working.removed = [(sampleMember '2' 1 0).address] := by
  have hrun := sample_run
  cases h : applyServedTopologies sampleHashes samplePinned sampleServed 1000 sampleOptions with
  | error error =>
    rw [h] at hrun
    cases hrun
  | ok working =>
    rw [h] at hrun
    exact ⟨working, rfl, congrArg (·.2.1) (Option.some.inj hrun)⟩

/-- The set of the sample changes, as one of its members is not confirmed. -/
theorem not_keepsBase_sampleServed :
    ¬ KeepsBase sampleHashes samplePinned sampleServed 1000 sampleOptions := by
  rintro ⟨other, hother, -, hnone, -⟩
  obtain ⟨working, hworking, hsome⟩ := exists_sampleWorking
  rw [hworking] at hother
  obtain rfl := Except.ok.inj hother
  rw [hnone] at hsome
  cases hsome

/-- All documents come from anchors of one member, the default thresholds ask for two anchors, and
yet a member is removed. -/
theorem keepsBase_fails_for_one_member :
    (∀ source ∈ sampleServed, (anchorMembersOf samplePinned sampleOptions).get? source.anchor
      = some (sampleMember '1' 1 0).address) ∧
    (thresholds samplePinned sampleOptions).minSources = 2 ∧
    (∃ working, applyServedTopologies sampleHashes samplePinned sampleServed 1000 sampleOptions
      = .ok working ∧ working.removed = [(sampleMember '2' 1 0).address]) ∧
    ¬ KeepsBase sampleHashes samplePinned sampleServed 1000 sampleOptions :=
  ⟨by decide +kernel, rfl, exists_sampleWorking, not_keepsBase_sampleServed⟩

/-- The floor loop kept every member, and none is relocated. -/
private theorem assembled_keeps_iff {floors : Floors} (hbase :
    ((baseMembers pinned options).map (·.address)).Nodup) :
    ((assembled hashes pinned served nowUnix options floors).members =
        ((baseMembers pinned options).map fun member => toRelayerNode member.toPinnedMember) ∧
      (assembled hashes pinned served nowUnix options floors).removed = [] ∧
      (assembled hashes pinned served nowUnix options floors).relocated = []) ↔
    ∀ member ∈ baseMembers pinned options, member.address ∈ floors.kept ∧
      relocation (acceptedTopologies hashes pinned served nowUnix options)
        (thresholds pinned options) member.toPinnedMember = none := by
  have hhas : ∀ member ∈ baseMembers pinned options,
      ((evidenceOf hashes pinned served nowUnix options).relocatedUrls.has member.address = false ↔
        relocation (acceptedTopologies hashes pinned served nowUnix options)
          (thresholds pinned options) member.toPinnedMember = none) := fun member hmember => by
    rw [OrderedMap.not_has_iff, get?_relocatedUrls hbase hmember]
  constructor
  · rintro ⟨-, hremoved, hrelocated⟩ member hmember
    rw [assembled, List.map_eq_nil_iff, List.filter_eq_nil_iff] at hremoved hrelocated
    have hkept : member.address ∈ floors.kept := by simpa using hremoved member hmember
    refine ⟨hkept, (hhas member hmember).mp ?_⟩
    simpa [hkept] using hrelocated member hmember
  · intro hall
    have hfilter : ((baseMembers pinned options).filter fun member =>
        decide (member.address ∈ floors.kept)) = baseMembers pinned options :=
      List.filter_eq_self.mpr fun member hmember => decide_eq_true (hall member hmember).1
    refine ⟨?_, ?_, ?_⟩
    · rw [assembled]
      simp only [hfilter]
      refine List.map_congr_left fun member hmember => ?_
      rw [routedMember, get?_relocatedUrls hbase hmember, (hall member hmember).2]
    · rw [assembled, List.map_eq_nil_iff, List.filter_eq_nil_iff]
      intro member hmember
      simpa using (hall member hmember).1
    · rw [assembled, List.map_eq_nil_iff, List.filter_eq_nil_iff]
      intro member hmember
      simp [(hhas member hmember).mpr (hall member hmember).2]

/-- With a key of 64 hexadecimal digits and valid entry locations, a member has a node. -/
theorem exists_routingNode {context : RoutingContext} {raw : RelayerNode}
    (hlength : raw.sphinxKey.toList.length = 64)
    (hhex : ∀ c ∈ raw.sphinxKey.toList, Js.isHexDigit c = true)
    (hendpoints : ∀ entry ∈ context.endpoints.entries,
      ∃ parts, parseKpsAddress entry.2 = .ok parts) :
    ∃ node, routingNode context raw = .ok node := by
  obtain ⟨node, hnode⟩ := exists_parseNode hlength hhex
  have hendpoint : ∃ endpoint, context.entryEndpoint node.id = .ok endpoint := by
    rw [RoutingContext.entryEndpoint]
    split
    · exact ⟨_, rfl⟩
    · rename_i address hallowed
      obtain ⟨hget, -⟩ := Option.filter_eq_some_iff.mp hallowed
      obtain ⟨parts, hparts⟩ := hendpoints _ (OrderedMap.get?_eq_some_iff.mp hget)
      rw [kpsEntryEndpoint, hparts]
      exact ⟨_, rfl⟩
  obtain ⟨endpoint, hendpoint⟩ := hendpoint
  rw [routingNode, hnode, ok_bind, hendpoint]
  exact ⟨_, rfl⟩

/-- Base members whose key has 64 hexadecimal digits, with valid entry locations, have nodes. -/
theorem exists_baseNodes
    (hkeys : ∀ member ∈ baseMembers pinned options, member.sphinxKey.toList.length = 64 ∧
      ∀ c ∈ member.sphinxKey.toList, Js.isHexDigit c = true)
    (hendpoints : ∀ entry ∈ (options.endpoints.getD (pinnedKpsAddresses pinned)).entries,
      ∃ parts, parseKpsAddress entry.2 = .ok parts) :
    ∃ baseNodes, baseNodesOf pinned options = .ok baseNodes := by
  refine exists_mapM_ok fun raw hraw => ?_
  obtain ⟨member, hmember, rfl⟩ := List.mem_map.mp hraw
  exact exists_routingNode (hkeys member hmember).1 (hkeys member hmember).2 hendpoints

/-- The served documents leave the set as it is exactly when too few anchors have an accepted
document or the accepted ones cost no member.

With enough anchors, a layer that is gone makes the call throw (`mem_gone_floorsOf`). Otherwise the
set stays exactly when each member is kept, because it is confirmed or given back
(`mem_kept_floorsOf`), and none is moved (`assembled_keeps_iff`). -/
theorem keepsBase_iff_costNothing (hashes : Hashes) (pinned : PinnedSnapshot)
    (served : List ServedTopology) (nowUnix : ℤ) (options : ApplyServedOptions)
    (baseNodes : List TopologyNode)
    (hbase : ((baseMembers pinned options).map (·.address)).Nodup)
    (hnodes : baseNodesOf pinned options = .ok baseNodes) :
    KeepsBase hashes pinned served nowUnix options ↔
      ((acceptedAnchors hashes pinned served nowUnix options).card : ℤ)
          < (thresholds pinned options).minSources ∨
        CostNothing (acceptedTopologies hashes pinned served nowUnix options)
          (thresholds pinned options) (baseMembers pinned options) baseNodes
          (previousOf pinned options) := by
  rw [KeepsBase, applyServedTopologies]
  by_cases hfew : ((acceptedAnchors hashes pinned served nowUnix options).card : ℤ)
      < (thresholds pinned options).minSources
  · rw [if_pos hfew]
    exact iff_of_true ⟨_, rfl, rfl, rfl, rfl⟩ (.inl hfew)
  rw [if_neg hfew, hnodes, ok_bind, or_iff_right hfew]
  have hgone_iff : (floorsOf hashes pinned served nowUnix options baseNodes).gone.length > 0 ↔
      ∃ layer, Gone baseNodes (evidenceOf hashes pinned served nowUnix options).listed layer := by
    rw [gt_iff_lt, List.length_pos_iff_exists_mem]
    exact exists_congr fun layer => mem_gone_floorsOf baseNodes layer
  by_cases hgone : (floorsOf hashes pinned served nowUnix options baseNodes).gone.length > 0
  · -- a layer is gone: the call throws
    simp only [if_pos hgone]
    obtain ⟨layer, hlayer⟩ := hgone_iff.mp hgone
    rw [listed_evidenceOf] at hlayer
    exact iff_of_false (by rintro ⟨_, herror, -⟩; cases herror)
      fun hcost => hcost.registered layer hlayer
  simp only [if_neg hgone]
  have hno := not_exists.mp (mt hgone_iff.mpr hgone)
  -- a member is kept as confirmed, or given back in some layer
  have hkept : ∀ member ∈ baseMembers pinned options,
      (member.address ∈ (floorsOf hashes pinned served nowUnix options baseNodes).kept ↔
        Confirmed (acceptedTopologies hashes pinned served nowUnix options)
            (thresholds pinned options) member.toPinnedMember ∨
          ∃ layer, GivenBack baseNodes
            (listedAddresses (acceptedTopologies hashes pinned served nowUnix options)
              (thresholds pinned options) (baseMembers pinned options))
            (confirmedAddresses (acceptedTopologies hashes pinned served nowUnix options)
              (thresholds pinned options) (baseMembers pinned options))
            (previousOf pinned options) (thresholds pinned options).minPerLayer
            member.address layer) := fun member hmember => by
    rw [mem_kept_floorsOf member.address hno, listed_evidenceOf, kept_evidenceOf,
      mem_confirmedAddresses hbase hmember]
  rw [listed_evidenceOf] at hno
  constructor
  · rintro ⟨working, hworking, hkeeps⟩
    obtain rfl := Except.ok.inj hworking
    have hall := (assembled_keeps_iff hbase).mp hkeeps
    exact ⟨hno, fun member hmember => (hkept member hmember).mp (hall member hmember).1,
      fun member hmember => (hall member hmember).2⟩
  · intro hcost
    exact ⟨_, rfl, (assembled_keeps_iff hbase).mpr fun member hmember =>
      ⟨(hkept member hmember).mpr (hcost.stays member hmember), hcost.unmoved member hmember⟩⟩

/-- The documents of the sample change the set: they come from two anchors and cost a member. -/
theorem keepsBase_iff_costNothing_sample : ∃ baseNodes,
    baseNodesOf samplePinned sampleOptions = .ok baseNodes ∧
    ¬ KeepsBase sampleHashes samplePinned sampleServed 1000 sampleOptions ∧
    ¬ (((acceptedAnchors sampleHashes samplePinned sampleServed 1000 sampleOptions).card : ℤ) < 2 ∨
      CostNothing (acceptedTopologies sampleHashes samplePinned sampleServed 1000 sampleOptions)
        (thresholds samplePinned sampleOptions) (baseMembers samplePinned sampleOptions) baseNodes
        (previousOf samplePinned sampleOptions)) := by
  have hkeys : ∀ member ∈ baseMembers samplePinned sampleOptions,
      member.sphinxKey.toList.length = 64 ∧
        ∀ c ∈ member.sphinxKey.toList, Js.isHexDigit c = true := by
    simp [baseMembers, sampleOptions, floorRecords, eligiblePinnedMembers, samplePinned,
      sampleMember, Js.isHexDigit, Js.isLowerHexDigit]
  have hnone : (sampleOptions.endpoints.getD (pinnedKpsAddresses samplePinned)).entries = [] := by
    decide +kernel
  obtain ⟨baseNodes, hnodes⟩ :
      ∃ baseNodes, baseNodesOf samplePinned sampleOptions = .ok baseNodes :=
    exists_baseNodes hkeys (by simp [hnone])
  exact ⟨baseNodes, hnodes, not_keepsBase_sampleServed, (keepsBase_iff_costNothing sampleHashes
    samplePinned sampleServed 1000 sampleOptions baseNodes nodup_base_sample hnodes).not.mp
      not_keepsBase_sampleServed⟩

end Apply

end NoxSdk.Kps
