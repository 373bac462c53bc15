import NoxSdk.Kps.MembershipFloor

/-!
# Probation over a run of reads

A client threads the first-seen records from one registry read to the next. A record is kept under
an address while each read lists an eligible member there that is no floor member, so a member off
probation has been listed for as long as the policy asks: `probation_served`. Which member it was
the record does not say: an address that comes back with another key or role keeps its record.
-/

namespace NoxSdk.Kps

open NoxSdk.Topology

variable {hashes : Hashes} {pinned : PinnedSnapshot}

/-! ### The first-seen records of a read -/

/-- The eligible profiles of a read that are no floor members. -/
def newProfiles (pinned : PinnedSnapshot) (chain : ChainMembership) : List ChainProfile :=
  (eligibleProfiles chain).filter fun profile => (floorMember pinned profile).isNone

theorem mem_newProfiles {chain : ChainMembership} {profile : ChainProfile} :
    profile ∈ newProfiles pinned chain ↔
      profile ∈ eligibleProfiles chain ∧ floorMember pinned profile = none := by
  rw [newProfiles, List.mem_filter, Option.isNone_iff_eq_none]

/-- The records after a read: of the new profiles, each with its record of before if it had one. -/
theorem get?_seenIn {chain : ChainMembership} {firstSeen : OrderedMap String MemberFirstSeen}
    {address : String} {first : MemberFirstSeen}
    (h : (seenIn pinned chain firstSeen).get? address = some first) :
    ∃ profile ∈ newProfiles pinned chain, profile.address = address ∧
      first = firstSeenIn chain firstSeen profile := by
  have hfold : ∀ (profiles : List ChainProfile) (seen : OrderedMap String MemberFirstSeen),
      (profiles.foldl (fun seen profile =>
        if (floorMember pinned profile).isSome then seen
        else seen.set profile.address (firstSeenIn chain firstSeen profile)) seen).get? address
          = some first →
      seen.get? address = some first ∨
        ∃ profile ∈ profiles, floorMember pinned profile = none ∧ profile.address = address ∧
          first = firstSeenIn chain firstSeen profile := by
    intro profiles
    induction profiles with
    | nil => exact fun seen h => .inl h
    | cons profile profiles ih =>
      intro seen h
      rcases ih _ h with hbefore | ⟨other, hother, hrest⟩
      · dsimp only at hbefore
        split_ifs at hbefore with hfloor
        · exact .inl hbefore
        · rw [OrderedMap.get?_set] at hbefore
          split_ifs at hbefore with haddress
          · exact .inr ⟨profile, List.mem_cons_self, by simpa using hfloor, haddress.symm,
              (Option.some.inj hbefore).symm⟩
          · exact .inl hbefore
      · exact .inr ⟨other, List.mem_cons_of_mem _ hother, hrest⟩
  rcases hfold _ _ h with hempty | ⟨profile, hprofile, hnew, haddress, hfirst⟩
  · cases hempty
  · exact ⟨profile, mem_newProfiles.mpr ⟨hprofile, hnew⟩, haddress, hfirst⟩

/-- A returned member that is no floor member comes from a new profile. -/
theorem mem_members_of_not_floor {chain : ChainMembership}
    {firstSeen : OrderedMap String MemberFirstSeen} {policy : DiscoveryPolicy} {nowUnix : ℤ}
    {member : MemberRecord}
    (h : member ∈ (membershipFromChain hashes pinned chain firstSeen policy nowUnix).members)
    (hfloor : member.floor = false) :
    ∃ profile ∈ newProfiles pinned chain,
      member = chainRecord hashes pinned chain firstSeen policy nowUnix profile := by
  obtain ⟨restored, hloop, -⟩ := exists_restoredSome pinned policy
    ((eligibleProfiles chain).map (chainRecord hashes pinned chain firstSeen policy nowUnix))
  have hmember := (List.mem_insertionSort _).mp h
  rw [hloop.members_eq, List.mem_append] at hmember
  rcases hmember with hchain | hrestored
  · obtain ⟨profile, hprofile, rfl⟩ := List.mem_map.mp hchain
    exact ⟨profile, mem_newProfiles.mpr ⟨hprofile, by simpa [chainRecord] using hfloor⟩, rfl⟩
  · obtain ⟨other, -, rfl⟩ := List.mem_map.mp hrestored
    cases hfloor

/-! ### A run of reads -/

/-- A registry read that the client applies. -/
structure ChainRead where
  chain : ChainMembership
  policy : DiscoveryPolicy
  nowUnix : ℤ

/-- The first-seen records after some reads. -/
def seenAfter (hashes : Hashes) (pinned : PinnedSnapshot) (reads : List ChainRead) :
    OrderedMap String MemberFirstSeen :=
  reads.foldl (fun seen read =>
    (membershipFromChain hashes pinned read.chain seen read.policy read.nowUnix).firstSeen) .empty

/-- The result of a read after others. -/
def resultAfter (hashes : Hashes) (pinned : PinnedSnapshot) (reads : List ChainRead)
    (last : ChainRead) : ChainResult :=
  membershipFromChain hashes pinned last.chain (seenAfter hashes pinned reads) last.policy
    last.nowUnix

/-- The same routing identity. -/
def SameIdentity (profile other : ChainProfile) : Prop :=
  profile.address = other.address ∧ profile.sphinxKey = other.sphinxKey ∧ profile.role = other.role

/-- The new profiles of two reads have one identity for an address. -/
def KeepsIdentities (pinned : PinnedSnapshot) (read other : ChainRead) : Prop :=
  ∀ profile ∈ newProfiles pinned read.chain, ∀ profile' ∈ newProfiles pinned other.chain,
    profile.address = profile'.address → SameIdentity profile profile'

/-- In each read of a run and from each to the next, an address keeps the identity that is new
there. -/
def StableRun (pinned : PinnedSnapshot) (reads : List ChainRead) : Prop :=
  (∀ read ∈ reads, KeepsIdentities pinned read read) ∧
    ∀ before read next after, reads = before ++ read :: next :: after →
      KeepsIdentities pinned read next

/-- The identity was registered and eligible in some read with the given time, and in every read
since. -/
def ListedSince (reads : List ChainRead) (profile : ChainProfile) (time : ℕ) : Prop :=
  ∃ before read since, reads = before ++ read :: since ∧ read.chain.block.timestamp = time ∧
    ∀ later ∈ read :: since, ∃ other ∈ eligibleProfiles later.chain, SameIdentity other profile

theorem ListedSince.snoc {reads : List ChainRead} {profile other : ChainProfile} {time : ℕ}
    {last : ChainRead} (h : ListedSince reads profile time) (hsame : SameIdentity profile other)
    (hlast : other ∈ eligibleProfiles last.chain) : ListedSince (reads ++ [last]) other time := by
  obtain ⟨before, read, since, rfl, htime, hsince⟩ := h
  refine ⟨before, read, since ++ [last], by simp, htime, fun later hlater => ?_⟩
  rw [← List.cons_append, List.mem_append, List.mem_singleton] at hlater
  rcases hlater with hearlier | rfl
  · obtain ⟨listed, hlisted, hidentity⟩ := hsince later hearlier
    exact ⟨listed, hlisted, hidentity.1.trans hsame.1, hidentity.2.1.trans hsame.2.1,
      hidentity.2.2.trans hsame.2.2⟩
  · exact ⟨other, hlast, rfl, rfl, rfl⟩

/-- What the records say after the reads: a new profile of the last read has been listed since the
time of its record. -/
def RecordsTrue (hashes : Hashes) (pinned : PinnedSnapshot) (reads : List ChainRead) : Prop :=
  ∀ address first, (seenAfter hashes pinned reads).get? address = some first →
    ∃ before last profile, reads = before ++ [last] ∧ profile ∈ newProfiles pinned last.chain ∧
      profile.address = address ∧ ListedSince reads profile first.time

/-- A new profile of a read has been listed since the time that its record gives. -/
theorem RecordsTrue.listedSince {reads : List ChainRead} {last : ChainRead}
    (h : RecordsTrue hashes pinned reads) (hstable : StableRun pinned (reads ++ [last]))
    {profile : ChainProfile} (hprofile : profile ∈ newProfiles pinned last.chain) :
    ListedSince (reads ++ [last]) profile
      (firstSeenIn last.chain (seenAfter hashes pinned reads) profile).time := by
  have hlisted := (mem_newProfiles.mp hprofile).1
  rw [firstSeenIn]
  cases hseen : (seenAfter hashes pinned reads).get? profile.address with
  | none =>
    refine ⟨reads, last, [], rfl, rfl, fun later hlater => ?_⟩
    obtain rfl := List.mem_singleton.mp hlater
    exact ⟨profile, hlisted, rfl, rfl, rfl⟩
  | some first =>
    obtain ⟨before, previous, earlier, rfl, hearlier, haddress, hsince⟩ := h _ _ hseen
    refine hsince.snoc ?_ hlisted
    exact hstable.2 before previous last [] (by simp) earlier hearlier profile hprofile haddress

theorem StableRun.init {reads : List ChainRead} {last : ChainRead}
    (h : StableRun pinned (reads ++ [last])) : StableRun pinned reads := by
  refine ⟨fun read hread => h.1 read (List.mem_append_left _ hread), ?_⟩
  rintro before read next after rfl
  exact h.2 before read next (after ++ [last]) (by simp)

theorem recordsTrue (hashes : Hashes) {reads : List ChainRead} (hstable : StableRun pinned reads) :
    RecordsTrue hashes pinned reads := by
  induction reads using List.reverseRecOn with
  | nil => exact fun address first h => by cases h
  | append_singleton reads last ih =>
    intro address first h
    rw [seenAfter, List.foldl_concat] at h
    obtain ⟨profile, hprofile, haddress, rfl⟩ := get?_seenIn h
    exact ⟨reads, last, profile, rfl, hprofile, haddress,
      (ih hstable.init).listedSince hstable hprofile⟩

/-- While no address changes the identity that is new there, every returned member off probation
that is no floor member has been registered and eligible since a read that is as old as the
probation is long.

The invariant over the reads (`recordsTrue`) says of each first-seen record from which read on its
profile was registered with this identity, in every later one too. A member off probation has a
record that is old enough. -/
theorem probation_served (hashes : Hashes) (pinned : PinnedSnapshot) (reads : List ChainRead)
    (last : ChainRead) (hstable : StableRun pinned (reads ++ [last])) :
    ∀ member ∈ (resultAfter hashes pinned reads last).members, member.floor = false →
      member.probation = false →
        ∃ before read since, reads ++ [last] = before ++ read :: since ∧
          (read.chain.block.timestamp : ℤ) ≤ last.nowUnix - last.policy.probationSeconds ∧
          ∀ later ∈ read :: since, ∃ profile ∈ later.chain.registered, isEligible profile = true ∧
            profile.address = member.address ∧ profile.sphinxKey = member.sphinxKey ∧
            profile.role = member.role := by
  intro member hmember hfloor hprobation
  obtain ⟨profile, hprofile, rfl⟩ := mem_members_of_not_floor hmember hfloor
  have hnew := (mem_newProfiles.mp hprofile).2
  obtain ⟨before, read, since, hreads, htime, hsince⟩ :=
    (recordsTrue hashes hstable.init).listedSince hstable hprofile
  refine ⟨before, read, since, hreads, ?_, fun later hlater => ?_⟩
  · have hlong : ¬ last.nowUnix -
        (firstSeenIn last.chain (seenAfter hashes pinned reads) profile).time
          < last.policy.probationSeconds := by
      simpa [chainRecord, hnew] using hprobation
    rw [htime]
    omega
  · obtain ⟨other, hother, hidentity⟩ := hsince later hlater
    obtain ⟨hregistered, heligible⟩ := List.mem_filter.mp hother
    exact ⟨other, hregistered, heligible, hidentity⟩

/-! ### An address with another key -/

/-- A member of the sample with another key. -/
def rekeyedMember : PinnedMember :=
  { sampleMember '2' 1 0 with sphinxKey := String.ofList (List.replicate 64 '4') }

/-- A read at a time that lists one member. -/
def oneRead (time : ℕ) (member : PinnedMember) : ChainRead :=
  ⟨sampleRead time [profileOf member ""], samplePolicy, time⟩

/-- The result of the second read. -/
private theorem rekeyed_members :
    (resultAfter sampleHashes ⟨10, []⟩ [oneRead 20 (sampleMember '2' 1 0)]
        (oneRead 40 rekeyedMember)).members =
      [{ rekeyedMember with floor := false, probation := false }] := by
  decide +kernel

/-- The second read lists the address with another key, which no read listed before, and the member
is off probation at once. -/
theorem not_probation_served :
    ∃ member ∈ (resultAfter sampleHashes ⟨10, []⟩ [oneRead 20 (sampleMember '2' 1 0)]
        (oneRead 40 rekeyedMember)).members,
      member.floor = false ∧ member.probation = false ∧
      ¬ ∃ before read since, [oneRead 20 (sampleMember '2' 1 0)] ++ [oneRead 40 rekeyedMember] =
            before ++ read :: since ∧
          (read.chain.block.timestamp : ℤ) ≤ 40 - samplePolicy.probationSeconds ∧
          ∀ later ∈ read :: since, ∃ profile ∈ later.chain.registered, isEligible profile = true ∧
            profile.address = member.address ∧ profile.sphinxKey = member.sphinxKey ∧
            profile.role = member.role := by
  rw [rekeyed_members]
  refine ⟨_, List.mem_singleton_self _, rfl, rfl, ?_⟩
  rintro ⟨before, read, since, hreads, htime, hlisted⟩
  rcases before with _ | ⟨first, _ | ⟨second, before⟩⟩
  · -- the first read lists the old key
    obtain ⟨rfl, -⟩ := List.cons.inj hreads
    obtain ⟨profile, hprofile, -, -, hkey, -⟩ := hlisted _ List.mem_cons_self
    obtain rfl := List.mem_singleton.mp hprofile
    revert hkey
    decide +kernel
  · -- the second read is too recent
    obtain ⟨rfl, -⟩ := List.cons.inj (List.cons.inj hreads).2
    revert htime
    decide
  · simp at hreads

/-- A member that keeps its key is off probation after twenty seconds. -/
theorem probation_served_sample :
    ∃ member, member ∈ (resultAfter sampleHashes ⟨10, []⟩ [oneRead 20 rekeyedMember]
        (oneRead 40 rekeyedMember)).members ∧ member.floor = false ∧ member.probation = false ∧
      ∃ before read since, [oneRead 20 rekeyedMember] ++ [oneRead 40 rekeyedMember] =
            before ++ read :: since ∧
          (read.chain.block.timestamp : ℤ) ≤ 40 - samplePolicy.probationSeconds ∧
          ∀ later ∈ read :: since, ∃ profile ∈ later.chain.registered, isEligible profile = true ∧
            profile.address = member.address ∧ profile.sphinxKey = member.sphinxKey ∧
            profile.role = member.role := by
  have hmembers : (resultAfter sampleHashes ⟨10, []⟩ [oneRead 20 rekeyedMember]
      (oneRead 40 rekeyedMember)).members =
        [{ rekeyedMember with floor := false, probation := false }] := by
    decide +kernel
  have hsame : ∀ time time',
      KeepsIdentities ⟨10, []⟩ (oneRead time rekeyedMember) (oneRead time' rekeyedMember) := by
    intro time time' profile hprofile profile' hprofile' haddress
    obtain rfl := List.mem_singleton.mp (List.mem_of_mem_filter (mem_newProfiles.mp hprofile).1)
    obtain rfl := List.mem_singleton.mp (List.mem_of_mem_filter (mem_newProfiles.mp hprofile').1)
    exact ⟨rfl, rfl, rfl⟩
  have hstable : StableRun ⟨10, []⟩ ([oneRead 20 rekeyedMember] ++ [oneRead 40 rekeyedMember]) := by
    constructor
    · intro read hread
      rcases List.mem_pair.mp hread with rfl | rfl
      · exact hsame 20 20
      · exact hsame 40 40
    · rintro (_ | ⟨first, _ | ⟨second, before⟩⟩) read next after hreads
      · obtain ⟨rfl, hrest⟩ := List.cons.inj hreads
        obtain ⟨rfl, -⟩ := List.cons.inj hrest
        exact hsame 20 40
      · simp at hreads
      · simp at hreads
  refine ⟨_, hmembers ▸ List.mem_singleton_self _, rfl, rfl, ?_⟩
  exact probation_served sampleHashes ⟨10, []⟩ [oneRead 20 rekeyedMember] (oneRead 40 rekeyedMember)
    hstable _ (hmembers ▸ List.mem_singleton_self _) rfl rfl

end NoxSdk.Kps
