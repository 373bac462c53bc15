import NoxSdk.Kps.Membership
import NoxSdk.Kps.Floor

/-!
# The snapshot floor of a registry read

A read may drop snapshot members, and the floor loop brings them back until each route layer holds
enough floor members. It brings back only members that are absent from the read: one that the read
lists with another key or role, or moves out of the entry layer, is present and does not come back.
`floorStays_iff` says exactly when the floor holds.
-/

namespace NoxSdk.Kps

open NoxSdk.Topology

variable {hashes : Hashes} {pinned : PinnedSnapshot} {chain : ChainMembership}
  {firstSeen : OrderedMap String MemberFirstSeen} {policy : DiscoveryPolicy} {nowUnix : ℤ}

/-! ### The snapshot members -/

/-- The eligible snapshot members, by address. -/
def floorMembers (pinned : PinnedSnapshot) : List PinnedMember := (floorByAddress pinned).values

theorem get?_foldl_set {members : List PinnedMember} {map : OrderedMap String PinnedMember}
    (hkeys : ∀ address member, map.get? address = some member → member.address = address)
    {address : String} {member : PinnedMember}
    (h : (members.foldl (fun map member => map.set member.address member) map).get? address
      = some member) : member.address = address := by
  induction members generalizing map with
  | nil => exact hkeys address member h
  | cons head members ih =>
    refine ih (fun address' member' h' => ?_) h
    rw [OrderedMap.get?_set] at h'
    split_ifs at h' with heq
    · rw [← Option.some.inj h', heq]
    · exact hkeys address' member' h'

/-- An entry is stored under its address. -/
theorem address_of_mem_entries {entry : String × PinnedMember}
    (h : entry ∈ (floorByAddress pinned).entries) : entry.2.address = entry.1 := by
  have hempty : ∀ (address : String) (member : PinnedMember),
      OrderedMap.empty.get? address = some member → member.address = address :=
    fun _ _ h => by cases h
  exact get?_foldl_set hempty (OrderedMap.get?_eq_some_iff.mpr h)

/-- The snapshot members have different addresses. -/
theorem nodup_floorMembers : ((floorMembers pinned).map (·.address)).Nodup := by
  have hkeys : (floorMembers pinned).map (·.address) =
      (floorByAddress pinned).entries.map Prod.fst := by
    rw [floorMembers, OrderedMap.values, List.map_map]
    exact List.map_congr_left fun entry hentry => address_of_mem_entries hentry
  rw [hkeys]
  exact (floorByAddress pinned).nodup_keys

/-! ### The floor loop -/

/-- A snapshot member as a floor record. -/
def floorRecord (member : PinnedMember) : MemberRecord :=
  { member with floor := true, probation := false }

/-- What the floor loop keeps: behind the members of the read it has some snapshot members that are
absent from it, each once. -/
structure RestoredSome (pinned : PinnedSnapshot) (members : List MemberRecord)
    (restored : List PinnedMember) (loop : Restoring) : Prop where
  members_eq : loop.members = members ++ restored.map floorRecord
  present_eq : loop.present = members.map (·.address) ++ restored.map (·.address)
  known : restored ⊆ floorMembers pinned
  absent : ∀ member ∈ restored, member.address ∉ members.map (·.address)
  nodup : (restored.map (·.address)).Nodup

section Loop

variable {members : List MemberRecord} {restored : List PinnedMember} {loop : Restoring}
  {layer : RouteLayer} {target : ℤ}

theorem keptCount_append (layer : RouteLayer) (members : List MemberRecord)
    (restored : List PinnedMember) :
    keptCount layer (members ++ restored.map floorRecord) =
      keptCount layer members + (restored.filter (inFloorLayer layer)).length := by
  rw [keptCount, List.filter_append, List.length_append, List.filter_map, List.length_map]
  congr 2

theorem RestoredSome.keptCount_eq (h : RestoredSome pinned members restored loop)
    (layer : RouteLayer) : keptCount layer loop.members =
      keptCount layer members + (restored.filter (inFloorLayer layer)).length := by
  rw [h.members_eq, keptCount_append]

/-- The target of a layer is reached, or the member is present. -/
def Served (layer : RouteLayer) (target : ℤ) (loop : Restoring) (member : PinnedMember) : Prop :=
  target ≤ keptCount layer loop.members ∨ member.address ∈ loop.present

/-- A loop that has restored more serves all it has served before. -/
theorem Served.mono {restored' : List PinnedMember} {loop' : Restoring} {member : PinnedMember}
    (h : Served layer target loop member) (hloop : RestoredSome pinned members restored loop)
    (hloop' : RestoredSome pinned members restored' loop') (hearlier : restored <+: restored') :
    Served layer target loop' member := by
  rcases h with htarget | hpresent
  · refine .inl (htarget.trans (Nat.cast_le.mpr ?_))
    rw [hloop.keptCount_eq, hloop'.keptCount_eq]
    exact Nat.add_le_add_left (hearlier.filter _).length_le _
  · refine .inr ?_
    rw [hloop.present_eq, List.mem_append] at hpresent
    rw [hloop'.present_eq, List.mem_append]
    exact hpresent.imp_right fun hin => (hearlier.map _).subset hin

/-- One snapshot member is served, and nothing that was restored is lost. -/
theorem RestoredSome.restore (h : RestoredSome pinned members restored loop) {member : PinnedMember}
    (hmember : member ∈ floorMembers pinned) :
    ∃ restored', RestoredSome pinned members restored' (loop.restore layer target member) ∧
      restored <+: restored' ∧
      Served layer target (loop.restore layer target member) member := by
  rw [Restoring.restore]
  split_ifs with htarget hpresent
  · exact ⟨restored, h, List.prefix_refl _, .inl htarget⟩
  · exact ⟨restored, h, List.prefix_refl _, .inr hpresent⟩
  · rw [h.present_eq, List.mem_append, not_or] at hpresent
    refine ⟨restored ++ [member], ⟨?_, ?_, ?_, ?_, ?_⟩, List.prefix_append _ _, .inr ?_⟩
    · rw [h.members_eq, List.map_append, List.append_assoc]
      rfl
    · rw [h.present_eq, List.map_append, List.append_assoc]
      rfl
    · refine List.append_subset.mpr ⟨h.known, fun other hother => ?_⟩
      exact List.mem_singleton.mp hother ▸ hmember
    · intro other hother
      rcases List.mem_append.mp hother with hbefore | hlast
      · exact h.absent other hbefore
      · exact List.mem_singleton.mp hlast ▸ hpresent.1
    · rw [List.map_append, List.nodup_append]
      refine ⟨h.nodup, List.nodup_singleton _, fun address haddress other hother heq => ?_⟩
      obtain rfl : other = member.address := List.mem_singleton.mp hother
      exact hpresent.2 (heq ▸ haddress)
    · exact List.mem_append_right _ (List.mem_singleton_self _)

/-- The members of a layer, one after the other, are all served at the end. -/
theorem RestoredSome.foldl (target : ℤ) (h : RestoredSome pinned members restored loop)
    {todo : List PinnedMember} (htodo : todo ⊆ floorMembers pinned) :
    ∃ restored', RestoredSome pinned members restored'
        (todo.foldl (Restoring.restore layer target) loop) ∧ restored <+: restored' ∧
      ∀ member ∈ todo,
        Served layer target (todo.foldl (Restoring.restore layer target) loop) member := by
  induction todo generalizing loop restored with
  | nil => exact ⟨restored, h, List.prefix_refl _, fun member hmember => by cases hmember⟩
  | cons first todo ih =>
    obtain ⟨restored', hfirst, hearlier, hserved⟩ := h.restore (htodo List.mem_cons_self)
    obtain ⟨restored'', hrest, hearlier', hall⟩ :=
      ih hfirst fun member hmember => htodo (List.mem_cons_of_mem _ hmember)
    refine ⟨restored'', hrest, hearlier.trans hearlier', fun member hmember => ?_⟩
    rcases List.mem_cons.mp hmember with rfl | hlater
    · exact hserved.mono hfirst hrest hearlier'
    · exact hall member hlater

theorem floorInLayer_subset (pinned : PinnedSnapshot) (layer : RouteLayer) :
    floorInLayer pinned layer ⊆ floorMembers pinned := List.filter_subset_self _

/-- The layers, one after the other: every member of each is served at the end. -/
theorem RestoredSome.layers (policy : DiscoveryPolicy)
    (h : RestoredSome pinned members restored loop) (layers : List RouteLayer) :
    ∃ restored', RestoredSome pinned members restored'
        (layers.foldl (Restoring.layer pinned policy) loop) ∧ restored <+: restored' ∧
      ∀ layer ∈ layers, ∀ member ∈ floorInLayer pinned layer,
        Served layer (floorTarget pinned policy layer)
          (layers.foldl (Restoring.layer pinned policy) loop) member := by
  induction layers generalizing loop restored with
  | nil => exact ⟨restored, h, List.prefix_refl _, fun layer hlayer => by cases hlayer⟩
  | cons first layers ih =>
    obtain ⟨restored', hfirst, hearlier, hserved⟩ :=
      h.foldl (floorTarget pinned policy first) (floorInLayer_subset pinned first)
    obtain ⟨restored'', hrest, hearlier', hall⟩ := ih hfirst
    refine ⟨restored'', hrest, hearlier.trans hearlier', fun layer hlayer member hmember => ?_⟩
    rcases List.mem_cons.mp hlayer with rfl | hlater
    · exact (hserved member hmember).mono hfirst hrest hearlier'
    · exact hall layer hlater member hmember

/-- The floor loop serves every snapshot member of every layer. -/
theorem exists_restoredSome (pinned : PinnedSnapshot) (policy : DiscoveryPolicy)
    (members : List MemberRecord) :
    ∃ restored, RestoredSome pinned members restored (restoreFloor pinned policy members) ∧
      ∀ layer, ∀ member ∈ floorInLayer pinned layer,
        Served layer (floorTarget pinned policy layer) (restoreFloor pinned policy members)
          member := by
  have hstart : RestoredSome pinned members [] ⟨members, members.map (·.address), []⟩ :=
    ⟨(List.append_nil _).symm, (List.append_nil _).symm, List.nil_subset _, fun _ h => (by cases h),
      List.nodup_nil⟩
  obtain ⟨restored, hloop, -, hserved⟩ := hstart.layers policy routeLayers
  refine ⟨restored, hloop, fun layer member hmember => hserved layer ?_ member hmember⟩
  cases layer <;> decide

end Loop

/-! ### The floor -/

/-- The snapshot members of a layer that no eligible profile of the read has the address of. -/
def absentInLayer (pinned : PinnedSnapshot) (present : List String) (layer : RouteLayer) :
    List PinnedMember :=
  (floorInLayer pinned layer).filter fun member => decide (member.address ∉ present)

/-- The floor loop leaves a layer its floor exactly when the floor members of the read and the
snapshot members that are absent from it are enough. -/
theorem floorTarget_le_iff (members : List MemberRecord) (layer : RouteLayer) :
    floorTarget pinned policy layer ≤
        keptCount layer (restoreFloor pinned policy members).members ↔
      floorTarget pinned policy layer ≤ keptCount layer members +
        (absentInLayer pinned (members.map (·.address)) layer).length := by
  obtain ⟨restored, hloop, hserved⟩ := exists_restoredSome pinned policy members
  -- members of the snapshot are told apart by their addresses
  have hinj : ∀ member ∈ floorMembers pinned, ∀ other ∈ floorMembers pinned,
      member.address = other.address → member = other := fun member hmember other hother =>
    List.inj_on_of_nodup_map nodup_floorMembers hmember hother
  rw [hloop.keptCount_eq]
  constructor
  · -- what is restored in the layer is absent from the read
    intro hfloor
    have hsub : restored.filter (inFloorLayer layer) ⊆
        absentInLayer pinned (members.map (·.address)) layer := by
      intro member hmember
      obtain ⟨hrestored, hlayer⟩ := List.mem_filter.mp hmember
      refine List.mem_filter.mpr ⟨List.mem_filter.mpr ⟨hloop.known hrestored, hlayer⟩, ?_⟩
      exact decide_eq_true (hloop.absent member hrestored)
    have hle := (hloop.nodup.of_map.filter (inFloorLayer layer)).subperm hsub |>.length_le
    omega
  · intro henough
    by_cases hall : ∀ member ∈ floorInLayer pinned layer,
        member.address ∈ (restoreFloor pinned policy members).present
    · -- every absent member of the layer is restored
      have hsub : absentInLayer pinned (members.map (·.address)) layer ⊆
          restored.filter (inFloorLayer layer) := by
        intro member hmember
        obtain ⟨hin, habsent⟩ := List.mem_filter.mp hmember
        have hpresent := hall member hin
        rw [hloop.present_eq, List.mem_append,
          or_iff_right (of_decide_eq_true habsent)] at hpresent
        obtain ⟨other, hother, haddress⟩ := List.mem_map.mp hpresent
        obtain ⟨hknown, hlayer⟩ := List.mem_filter.mp hin
        obtain rfl := hinj other (hloop.known hother) member hknown haddress
        exact List.mem_filter.mpr ⟨hother, hlayer⟩
      have hnodup : (absentInLayer pinned (members.map (·.address)) layer).Nodup :=
        ((nodup_floorMembers.of_map).filter _).filter _
      have hle := (hnodup.subperm hsub).length_le
      omega
    · -- the loop passed a member over, which it does at the floor only
      push Not at hall
      obtain ⟨member, hmember, hnot⟩ := hall
      have htarget := (hserved layer member hmember).resolve_right hnot
      rwa [hloop.keptCount_eq] at htarget

/-- Every layer of the returned members holds `min(minMembersPerLayer, eligible snapshot members of
the layer)` floor members. -/
def FloorStays (pinned : PinnedSnapshot) (policy : DiscoveryPolicy) (result : ChainResult) : Prop :=
  ∀ layer, min policy.minMembersPerLayer
      ((floorMembers pinned).filter (inFloorLayer layer)).length ≤
    ((result.members.filter fun member =>
      member.floor && inFloorLayer layer member.toPinnedMember).length : ℤ)

/-- The floor of every layer holds exactly when the read leaves enough members to it: floor members
that it lists in the layer, and snapshot members of the layer that are absent from it.

Sorting the members does not change how many are of the layer. `restoreFloor` gives floor members
back until the target is met or none is left that is absent from the read, so the target is met
exactly when those that are there and those that are absent are enough (`floorTarget_le_iff`). -/
theorem floorStays_iff (hashes : Hashes) (pinned : PinnedSnapshot) (chain : ChainMembership)
    (firstSeen : OrderedMap String MemberFirstSeen) (policy : DiscoveryPolicy) (nowUnix : ℤ) :
    FloorStays pinned policy (membershipFromChain hashes pinned chain firstSeen policy nowUnix) ↔
      ∀ layer, min policy.minMembersPerLayer
          ((floorMembers pinned).filter (inFloorLayer layer)).length ≤
        (((eligibleProfiles chain).filter fun profile => (floorMember pinned profile).isSome &&
            layer.has profile.role
              (kpsAddrFromMetadataUrl profile.metadataUrl).isSome).length : ℤ) +
          ((floorMembers pinned).filter fun member => inFloorLayer layer member &&
            decide
              (∀ profile ∈ eligibleProfiles chain, profile.address ≠ member.address)).length := by
  refine forall_congr' fun layer => ?_
  set members := (eligibleProfiles chain).map
    (chainRecord hashes pinned chain firstSeen policy nowUnix) with hmembers
  have hsorted : ((membershipFromChain hashes pinned chain firstSeen policy nowUnix).members.filter
      fun member => member.floor && inFloorLayer layer member.toPinnedMember).length =
        keptCount layer (restoreFloor pinned policy members).members :=
    ((List.perm_insertionSort _ _).filter _).length_eq
  have hchain : keptCount layer members = ((eligibleProfiles chain).filter fun profile =>
      (floorMember pinned profile).isSome &&
        layer.has profile.role (kpsAddrFromMetadataUrl profile.metadataUrl).isSome).length := by
    rw [keptCount, hmembers, List.filter_map, List.length_map]
    rfl
  have habsent : absentInLayer pinned (members.map (·.address)) layer =
      (floorMembers pinned).filter fun member => inFloorLayer layer member &&
        decide (∀ profile ∈ eligibleProfiles chain, profile.address ≠ member.address) := by
    rw [absentInLayer, floorInLayer, List.filter_filter, floorMembers]
    refine List.filter_congr fun member _ => ?_
    rw [Bool.and_comm, hmembers, List.map_map]
    congr 1
    exact decide_eq_decide.mpr (by simp [chainRecord])
  rw [hsorted, ← hchain, ← habsent]
  exact floorTarget_le_iff members layer

/-! ### A member that moves out of the entry layer -/

/-- A relay that publishes a KPS address. -/
def entryMember : PinnedMember :=
  { sampleMember '1' 1 0 with
    metadataUrl :=
      "kps:192.0.2.1:443:uEiAAAAAAAAAAAAAAAAAAAAAAAAAAAAAAAAAAAAAAAAAAAA/metadata.json" }

/-- The profile of a member in the registry, at the given metadata location. -/
def profileOf (member : PinnedMember) (metadataUrl : String) : ChainProfile where
  address := member.address
  sphinxKey := member.sphinxKey
  url := member.url
  ingressUrl := member.ingressUrl
  metadataUrl := metadataUrl
  stake := member.stake
  status := 1
  frozen := false
  role := member.role

/-- A read of the registry at a block with the given number and time. -/
def sampleRead (time : ℕ) (registered : List ChainProfile) : ChainMembership where
  block := ⟨"", time, time⟩
  fingerprint := ""
  relayerCount := registered.length
  registered := registered

/-- The policy of the samples. -/
def samplePolicy : DiscoveryPolicy := ⟨10, 2⟩

/-- A read lists the only snapshot entry with its identity and without its KPS address: it is
present, so it does not come back, and no floor member is left that can be the entry. -/
theorem not_floorStays :
    eligiblePinnedMembers ⟨10, [entryMember]⟩ = [entryMember] ∧
    inFloorLayer .entry entryMember = true ∧
    isEligible (profileOf entryMember "") = true ∧
    (floorMember ⟨10, [entryMember]⟩ (profileOf entryMember "")).isSome = true ∧
    ¬ FloorStays ⟨10, [entryMember]⟩ samplePolicy
      (membershipFromChain sampleHashes ⟨10, [entryMember]⟩
        (sampleRead 20 [profileOf entryMember ""]) .empty samplePolicy 20) := by
  refine ⟨by decide +kernel, by decide +kernel, by decide +kernel, by decide +kernel, fun h => ?_⟩
  have hentry := h .entry
  revert hentry
  decide +kernel

end NoxSdk.Kps
