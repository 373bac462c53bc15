import NoxSdk.Kps.MembershipFloor
import NoxSdk.Kps.Probation

/-!
# The learned-anchor cache

A session stores the anchors that a verified chain check has confirmed and when each member was
first seen; the next boot reads them. The reader takes nothing at all unless every record is well
formed, so what the writer lets through has to be (`storedAnchor?_anchorJson`,
`firstSeen?_firstSeenJson`), and then leaves records out by its own rules.

The bytes are the text of a JSON value: `stringify` writes it and `parse` reads bytes that are
UTF-8 and JSON.
-/

namespace NoxSdk.Worker.Learned

open Js (Json safeBound)
open NoxSdk.Kps NoxSdk.Topology

/-- `LEARNED_CACHE_MAX_ANCHORS`. -/
def learnedCacheMaxAnchors : ℕ := 32

/-- `LEARNED_CACHE_MAX_FIRST_SEEN`. -/
def learnedCacheMaxFirstSeen : ℕ := 256

/-- `LEARNED_CACHE_MAX_AGE_SECONDS`. -/
def learnedCacheMaxAgeSeconds : ℕ := 30 * 86400

/-- `StoredAnchor`. -/
structure StoredAnchor where
  address : String
  member : String
  block : ℕ
  blockHash : String
  at_ : ℕ
  deriving DecidableEq

/-- `LearnedCache`. -/
structure LearnedCache where
  registry : String
  anchors : List StoredAnchor
  firstSeen : List MemberFirstSeen

/-- `LearnedAnchor`. -/
structure LearnedAnchor where
  address : String
  member : String
  deriving DecidableEq

/-- `LearnedForBoot`. -/
structure LearnedForBoot where
  learned : List LearnedAnchor
  firstSeen : List MemberFirstSeen
  deriving DecidableEq

/-! ### Writing -/

/-- A member of `VerifiedDiscovery`. -/
structure VerifiedMember where
  address : String
  kpsAddress : Option String
  floor : Bool
  probation : Bool

/-- `VerifiedDiscovery`. -/
structure VerifiedDiscovery where
  blockHash : String
  blockNumber : ℕ
  blockTimestamp : ℕ
  members : List VerifiedMember
  firstSeen : List MemberFirstSeen

/-- What `_applyChainOutcome` hands to `onVerified` for a read at this block. -/
def verifiedDiscovery (block : FinalizedBlock) (result : ChainResult) : VerifiedDiscovery where
  blockHash := block.hash
  blockNumber := block.number
  blockTimestamp := block.timestamp
  members := result.members.map fun member =>
    ⟨member.address, kpsAddrFromMetadataUrl member.metadataUrl, member.floor, member.probation⟩
  firstSeen := result.firstSeen.values

/-- The order of the anchors: snapshot members first, then by address. -/
def anchorOrder (left right : VerifiedMember) : Prop :=
  (left.floor = true ∧ right.floor = false) ∨
    (left.floor = right.floor ∧ left.address ≤ right.address)

instance (left right : VerifiedMember) : Decidable (anchorOrder left right) :=
  inferInstanceAs (Decidable (_ ∨ _))

/-- `learnedCacheFrom`. -/
def learnedCacheFrom (registry : String) (state : VerifiedDiscovery) (nowUnix : ℕ) :
    LearnedCache where
  registry := registry
  anchors :=
    (((state.members.filter (·.kpsAddress.isSome)).insertionSort anchorOrder).take
      learnedCacheMaxAnchors).map fun member =>
        ⟨member.kpsAddress.getD "", member.address, state.blockNumber, state.blockHash, nowUnix⟩
  firstSeen :=
    (state.firstSeen.insertionSort fun left right => left.address ≤ right.address).take
      learnedCacheMaxFirstSeen

/-- An anchor as it is stored. -/
def anchorJson (anchor : StoredAnchor) : Json :=
  .object [("address", .string anchor.address), ("member", .string anchor.member),
    ("block", .number (.integer anchor.block)), ("blockHash", .string anchor.blockHash),
    ("at", .number (.integer anchor.at_))]

/-- A first-seen record as it is stored. -/
def firstSeenJson (entry : MemberFirstSeen) : Json :=
  .object [("address", .string entry.address), ("block", .number (.integer entry.block)),
    ("time", .number (.integer entry.time))]

/-- The cache as it is stored. -/
def cacheJson (cache : LearnedCache) : Json :=
  .object [("registry", .string cache.registry), ("anchors", .array (cache.anchors.map anchorJson)),
    ("firstSeen", .array (cache.firstSeen.map firstSeenJson))]

/-- What `LearnedCacheWriter` compares to the last content. -/
abbrev ContentKey := List (String × String) × List MemberFirstSeen

/-- `LearnedCacheWriter`. -/
structure LearnedCacheWriter where
  registry : String
  intervalMs : ℕ
  lastKey : Option ContentKey
  lastWriteMs : Option ℕ
  writing : Bool

/-- `update`: the cache that it writes, if it writes one. -/
def LearnedCacheWriter.update (writer : LearnedCacheWriter) (state : VerifiedDiscovery)
    (nowMs : ℕ) : Option LearnedCache :=
  if writer.writing then none
  else
    let cache := learnedCacheFrom writer.registry state (nowMs / 1000)
    let key : ContentKey :=
      (cache.anchors.map fun anchor => (anchor.address, anchor.member), cache.firstSeen)
    if writer.lastKey = some key ∨ writer.lastWriteMs.any (nowMs < · + writer.intervalMs) then none
    else some cache

/-! ### Reading -/

/-- `isKpsAddress`. -/
def isKpsAddress (text : String) : Bool := (parseKpsAddress text).toBool

/-- The text is `0x` and so many lower-case digits. -/
def isLowerHex (count : ℕ) (text : String) : Bool :=
  match text.toList with
  | '0' :: 'x' :: digits => digits.length == count && digits.all Js.isLowerHexDigit
  | _ => false

/-- A field with a text that passes a check. -/
def textField (check : String → Bool) (value : Json) (key : String) : Option String :=
  match value.field key with
  | some (.string text) => if check text then some text else none
  | _ => none

/-- A field with a number that passes `isSafeNonNegative`. -/
def natField (value : Json) (key : String) : Option ℕ :=
  match value.field key with
  | some (.number (.integer n)) => if 0 ≤ n ∧ n < safeBound then some n.toNat else none
  | _ => none

/-- `isStoredAnchor`, with the record. -/
def storedAnchor? (value : Json) : Option StoredAnchor := do
  let address ← textField isKpsAddress value "address"
  let member ← textField (isLowerHex 40) value "member"
  let block ← natField value "block"
  let blockHash ← textField (isLowerHex 64) value "blockHash"
  let at_ ← natField value "at"
  return ⟨address, member, block, blockHash, at_⟩

/-- `isFirstSeen`, with the record. -/
def firstSeen? (value : Json) : Option MemberFirstSeen := do
  let address ← textField (isLowerHex 40) value "address"
  let block ← natField value "block"
  let time ← natField value "time"
  return ⟨address, block, time⟩

/-- The stored records, when the value is a well-formed record for the registry. -/
def wellFormed? (registry : String) (value : Json) :
    Option (List StoredAnchor × List MemberFirstSeen) :=
  match value.field "registry", value.field "anchors", value.field "firstSeen" with
  | some (.string stored), some (.array anchors), some (.array firstSeen) =>
    if stored ≠ registry ∨ learnedCacheMaxAnchors < anchors.length ∨
        learnedCacheMaxFirstSeen < firstSeen.length then none
    else do
      let anchors ← anchors.mapM storedAnchor?
      let firstSeen ← firstSeen.mapM firstSeen?
      return (anchors, firstSeen)
  | _, _, _ => none

section Reading

variable (snapshotBlock : ℕ) (eligible : List String) (nowUnix : ℕ)

/-- The loop over the anchors, with the addresses seen. -/
def readAnchors (seen : List String) : List StoredAnchor → List LearnedAnchor
  | [] => []
  | anchor :: rest =>
    if nowUnix < anchor.at_ ∨ learnedCacheMaxAgeSeconds < nowUnix - anchor.at_ then
      readAnchors seen rest
    else if anchor.block < snapshotBlock ∨ anchor.member ∉ eligible ∨ anchor.address ∈ seen then
      readAnchors seen rest
    else ⟨anchor.address, anchor.member⟩ :: readAnchors (anchor.address :: seen) rest

/-- The loop over the first-seen records, with the members seen. -/
def readFirstSeen (seen : List String) : List MemberFirstSeen → List MemberFirstSeen
  | [] => []
  | entry :: rest =>
    if entry.block < snapshotBlock ∨ nowUnix < entry.time ∨ entry.address ∈ seen then
      readFirstSeen seen rest
    else entry :: readFirstSeen (entry.address :: seen) rest

/-- `readLearnedCache` of what is stored, if anything is and can be read. -/
def readLearnedCache (parse : Bytes → Option Json) (stored : Option Bytes) (registry : String) :
    LearnedForBoot :=
  match (stored.bind parse).bind (wellFormed? registry) with
  | none => ⟨[], []⟩
  | some (anchors, firstSeen) =>
    ⟨readAnchors snapshotBlock eligible nowUnix [] anchors,
      readFirstSeen snapshotBlock nowUnix [] firstSeen⟩

end Reading

/-! ### What is written is well formed -/

/-- A text field is read back when its value passes the check. -/
theorem textField_eq {check : String → Bool} {value : Json} {key text : String}
    (h : value.field key = some (.string text)) (hcheck : check text = true) :
    textField check value key = some text := by
  rw [textField, h]
  exact if_pos hcheck

/-- A number field is read back when it is a safe integer. -/
theorem natField_eq {value : Json} {key : String} {n : ℕ}
    (h : value.field key = some (.number (.integer n))) (hsafe : n < safeBound) :
    natField value key = some n := by
  rw [natField, h]
  exact if_pos ⟨Int.natCast_nonneg n, Int.ofNat_lt.mpr hsafe⟩

/-- The reader takes the anchor. -/
structure ValidAnchor (anchor : StoredAnchor) : Prop where
  address : isKpsAddress anchor.address = true
  member : isLowerHex 40 anchor.member = true
  block : anchor.block < safeBound
  blockHash : isLowerHex 64 anchor.blockHash = true
  at_ : anchor.at_ < safeBound

/-- The reader takes the first-seen record. -/
structure ValidFirstSeen (entry : MemberFirstSeen) : Prop where
  address : isLowerHex 40 entry.address = true
  block : entry.block < safeBound
  time : entry.time < safeBound

/-- A valid anchor is read back as it was written. -/
theorem storedAnchor?_anchorJson {anchor : StoredAnchor} (h : ValidAnchor anchor) :
    storedAnchor? (anchorJson anchor) = some anchor := by
  have haddress : textField isKpsAddress (anchorJson anchor) "address" = some anchor.address :=
    textField_eq rfl h.address
  have hmember : textField (isLowerHex 40) (anchorJson anchor) "member" = some anchor.member :=
    textField_eq rfl h.member
  have hblock : natField (anchorJson anchor) "block" = some anchor.block := natField_eq rfl h.block
  have hhash : textField (isLowerHex 64) (anchorJson anchor) "blockHash" =
      some anchor.blockHash := textField_eq rfl h.blockHash
  have hat : natField (anchorJson anchor) "at" = some anchor.at_ := natField_eq rfl h.at_
  rw [storedAnchor?, haddress, hmember, hblock, hhash, hat]
  rfl

/-- A valid record is read back as it was written. -/
theorem firstSeen?_firstSeenJson {entry : MemberFirstSeen} (h : ValidFirstSeen entry) :
    firstSeen? (firstSeenJson entry) = some entry := by
  have haddress : textField (isLowerHex 40) (firstSeenJson entry) "address" =
      some entry.address := textField_eq rfl h.address
  have hblock : natField (firstSeenJson entry) "block" = some entry.block := natField_eq rfl h.block
  have htime : natField (firstSeenJson entry) "time" = some entry.time := natField_eq rfl h.time
  rw [firstSeen?, haddress, hblock, htime]
  rfl

/-- What each element is written as, read back. -/
theorem mapM_map_eq_some {α : Type} {write : α → Json} {read : Json → Option α} {items : List α}
    (h : ∀ item ∈ items, read (write item) = some item) :
    (items.map write).mapM read = some items := by
  induction items with
  | nil => rfl
  | cons item rest ih =>
    obtain ⟨hitem, hrest⟩ := List.forall_mem_cons.mp h
    rw [List.map_cons, List.mapM_cons, hitem, Option.bind_eq_bind, Option.bind_some, ih hrest]
    rfl

/-- A cache of valid entries within its limits is read back as it was written. -/
theorem wellFormed?_cacheJson {cache : LearnedCache}
    (hanchors : ∀ anchor ∈ cache.anchors, ValidAnchor anchor)
    (hfirst : ∀ entry ∈ cache.firstSeen, ValidFirstSeen entry)
    (hmany : cache.anchors.length ≤ learnedCacheMaxAnchors)
    (hseen : cache.firstSeen.length ≤ learnedCacheMaxFirstSeen) :
    wellFormed? cache.registry (cacheJson cache) = some (cache.anchors, cache.firstSeen) := by
  have hregistry : (cacheJson cache).field "registry" = some (.string cache.registry) := rfl
  have harray : (cacheJson cache).field "anchors" =
      some (.array (cache.anchors.map anchorJson)) := rfl
  have hseenArray : (cacheJson cache).field "firstSeen" =
      some (.array (cache.firstSeen.map firstSeenJson)) := rfl
  have hfits : ¬(cache.registry ≠ cache.registry ∨ learnedCacheMaxAnchors < cache.anchors.length ∨
      learnedCacheMaxFirstSeen < cache.firstSeen.length) := by
    rintro (h | h | h)
    · exact h rfl
    · exact absurd h (not_lt.mpr hmany)
    · exact absurd h (not_lt.mpr hseen)
  rw [wellFormed?, hregistry, harray, hseenArray]
  dsimp only
  rw [List.length_map, List.length_map, if_neg hfits,
    mapM_map_eq_some fun anchor hanchor => storedAnchor?_anchorJson (hanchors anchor hanchor),
    mapM_map_eq_some fun entry hentry => firstSeen?_firstSeenJson (hfirst entry hentry)]
  rfl

/-! ### What is read -/

/-- The anchors without those of an address that came before. -/
def firstPerAddress (seen : List String) : List StoredAnchor → List StoredAnchor
  | [] => []
  | anchor :: rest =>
    if anchor.address ∈ seen then firstPerAddress seen rest
    else anchor :: firstPerAddress (anchor.address :: seen) rest

/-- An anchor as boot gets it. -/
def StoredAnchor.learned (anchor : StoredAnchor) : LearnedAnchor := ⟨anchor.address, anchor.member⟩

variable {snapshotBlock nowUnix : ℕ} {eligible : List String}

/-- Anchors that are young enough and on the snapshot or behind it are all taken. -/
theorem readAnchors_eq {anchors : List StoredAnchor}
    (h : ∀ anchor ∈ anchors, anchor.at_ ≤ nowUnix ∧
      nowUnix - anchor.at_ ≤ learnedCacheMaxAgeSeconds ∧ snapshotBlock ≤ anchor.block)
    (seen : List String) :
    readAnchors snapshotBlock eligible nowUnix seen anchors =
      (firstPerAddress seen (anchors.filter fun anchor => anchor.member ∈ eligible)).map
        StoredAnchor.learned := by
  induction anchors generalizing seen with
  | nil => rfl
  | cons anchor rest ih =>
    obtain ⟨⟨hat, hage, hblock⟩, hrest⟩ := List.forall_mem_cons.mp h
    rw [readAnchors, if_neg (by omega)]
    by_cases hmember : anchor.member ∈ eligible
    · rw [List.filter_cons, if_pos (decide_eq_true hmember), firstPerAddress]
      by_cases haddress : anchor.address ∈ seen
      · rw [if_pos (.inr (.inr haddress)), if_pos haddress, ih hrest]
      · have hkeep : ¬(anchor.block < snapshotBlock ∨ anchor.member ∉ eligible ∨
            anchor.address ∈ seen) := by
          rintro (hlow | hout | hin)
          · exact absurd hlow (not_lt.mpr hblock)
          · exact hout hmember
          · exact haddress hin
        rw [if_neg hkeep, if_neg haddress, ih hrest, List.map_cons]
        rfl
    · rw [if_pos (.inr (.inl hmember)), ih hrest,
        List.filter_cons_of_neg (by rw [decide_eq_true_eq]; exact hmember)]

/-- Records of different addresses are all taken. -/
theorem readFirstSeen_eq {entries : List MemberFirstSeen}
    (hblock : ∀ entry ∈ entries, snapshotBlock ≤ entry.block)
    (hnodup : (entries.map MemberFirstSeen.address).Nodup) {seen : List String}
    (hseen : ∀ entry ∈ entries, entry.address ∉ seen) :
    readFirstSeen snapshotBlock nowUnix seen entries =
      entries.filter fun entry => entry.time ≤ nowUnix := by
  induction entries generalizing seen with
  | nil => rfl
  | cons entry rest ih =>
    obtain ⟨hlow, hrest⟩ := List.forall_mem_cons.mp hblock
    obtain ⟨hnew, hlater⟩ := List.forall_mem_cons.mp hseen
    rw [List.map_cons, List.nodup_cons] at hnodup
    rw [readFirstSeen]
    by_cases htime : entry.time ≤ nowUnix
    · have hkeep : ¬(entry.block < snapshotBlock ∨ nowUnix < entry.time ∨
          entry.address ∈ seen) := by
        rintro (h | h | h)
        · exact absurd h (not_lt.mpr hlow)
        · exact absurd h (not_lt.mpr htime)
        · exact hnew h
      rw [if_neg hkeep, List.filter_cons, if_pos (decide_eq_true htime), ih hrest hnodup.2]
      intro other hother hmem
      rcases List.mem_cons.mp hmem with heq | hmem
      · exact hnodup.1 (heq ▸ List.mem_map_of_mem hother)
      · exact hlater other hother hmem
    · rw [if_pos (.inr (.inl (not_le.mp htime))),
        List.filter_cons_of_neg (by rw [decide_eq_true_eq]; exact htime), ih hrest hnodup.2 hlater]

/-! ### A verified read -/

/-- A read and the records before it, as the checks of the client leave them: addresses in lower
case, a block at or after that of the snapshot, safe numbers, and at most as many new members as
the cache has room for. -/
structure Verified (pinned : PinnedSnapshot) (chain : ChainMembership)
    (before : OrderedMap String MemberFirstSeen) : Prop where
  hash : isLowerHex 64 chain.block.hash = true
  number : pinned.blockNumber ≤ chain.block.number ∧ chain.block.number < safeBound
  timestamp : chain.block.timestamp < safeBound
  profiles : ∀ profile ∈ chain.registered, isLowerHex 40 profile.address = true
  members : ∀ member ∈ pinned.members, isLowerHex 40 member.address = true
  records : ∀ address first, before.get? address = some first → first.address = address ∧
    pinned.blockNumber ≤ first.block ∧ first.block < safeBound ∧ first.time < safeBound
  count : (seenIn pinned chain before).values.length ≤ learnedCacheMaxFirstSeen

variable {hashes : Hashes} {pinned : PinnedSnapshot} {chain : ChainMembership}
  {before : OrderedMap String MemberFirstSeen} {policy : DiscoveryPolicy} {now : ℤ}

/-- A published KPS address is one. -/
theorem isKpsAddress_of_metadataUrl {url address : String}
    (h : kpsAddrFromMetadataUrl url = some address) : isKpsAddress address = true := by
  rw [kpsAddrFromMetadataUrl] at h
  split at h
  · split at h
    · cases h
    · next published path =>
      split_ifs at h
      split at h
      · cases h
      · next parts hparts =>
        split_ifs at h with hcanonical
        rw [← Option.some.inj h, hcanonical, isKpsAddress, hparts]
        rfl
  · cases h

/-- A first-seen record of a read, with its address. -/
theorem Verified.record (h : Verified pinned chain before) {address : String}
    {first : MemberFirstSeen} (hfirst : (seenIn pinned chain before).get? address = some first) :
    first.address = address ∧ ValidFirstSeen first ∧ pinned.blockNumber ≤ first.block := by
  obtain ⟨profile, hprofile, rfl, rfl⟩ := get?_seenIn hfirst
  have haddress : isLowerHex 40 profile.address = true :=
    h.profiles profile (List.mem_filter.mp (mem_newProfiles.mp hprofile).1).1
  rw [firstSeenIn]
  cases hbefore : before.get? profile.address with
  | none => exact ⟨rfl, ⟨haddress, h.number.2, h.timestamp⟩, h.number.1⟩
  | some first =>
    obtain ⟨hname, hlow, hblock, htime⟩ := h.records _ _ hbefore
    exact ⟨hname, ⟨hname.symm ▸ haddress, hblock, htime⟩, hlow⟩

/-- The records of a read have different addresses. -/
theorem Verified.nodup_records (h : Verified pinned chain before) :
    ((seenIn pinned chain before).values.map MemberFirstSeen.address).Nodup := by
  have hkeys : (seenIn pinned chain before).values.map MemberFirstSeen.address =
      (seenIn pinned chain before).entries.map Prod.fst := by
    rw [OrderedMap.values, List.map_map]
    exact List.map_congr_left fun entry hentry =>
      (h.record (OrderedMap.get?_eq_some_iff.mpr hentry)).1
  rw [hkeys]
  exact (seenIn pinned chain before).nodup_keys

/-- Each record of a verified read is valid, and no older than the snapshot. -/
theorem Verified.valid_record (h : Verified pinned chain before) {first : MemberFirstSeen}
    (hfirst : first ∈ (seenIn pinned chain before).values) :
    ValidFirstSeen first ∧ pinned.blockNumber ≤ first.block := by
  obtain ⟨entry, hentry, rfl⟩ := List.mem_map.mp hfirst
  exact (h.record (OrderedMap.get?_eq_some_iff.mpr hentry)).2

/-- What a map of members holds is one of the members. -/
theorem mem_of_get?_foldl_set {members : List PinnedMember} {map : OrderedMap String PinnedMember}
    {address : String} {member : PinnedMember}
    (h : (members.foldl (fun map member => map.set member.address member) map).get? address =
      some member) : map.get? address = some member ∨ member ∈ members := by
  induction members generalizing map with
  | nil => exact .inl h
  | cons head members ih =>
    rcases ih h with hset | hlater
    · rw [OrderedMap.get?_set] at hset
      split_ifs at hset
      · exact .inr (Option.some.inj hset ▸ List.mem_cons_self)
      · exact .inl hset
    · exact .inr (List.mem_cons_of_mem _ hlater)

/-- The floor members are members of the snapshot. -/
theorem mem_of_mem_floorMembers {member : PinnedMember} (h : member ∈ floorMembers pinned) :
    member ∈ pinned.members := by
  obtain ⟨entry, hentry, rfl⟩ := List.mem_map.mp h
  rcases mem_of_get?_foldl_set (OrderedMap.get?_eq_some_iff.mpr hentry) with hempty | hmember
  · rw [OrderedMap.get?_empty] at hempty
    cases hempty
  · exact (List.mem_filter.mp hmember).1

/-- The members of a read are those that the floor loop leaves. -/
theorem members_perm : (membershipFromChain hashes pinned chain before policy now).members.Perm
    (restoreFloor pinned policy ((eligibleProfiles chain).map
      (chainRecord hashes pinned chain before policy now))).members :=
  List.perm_insertionSort _ _

/-- The members of a read have addresses in lower case. -/
theorem Verified.member_address (h : Verified pinned chain before) {member : MemberRecord}
    (hmember : member ∈ (membershipFromChain hashes pinned chain before policy now).members) :
    isLowerHex 40 member.address = true := by
  obtain ⟨restored, hloop, -⟩ := exists_restoredSome pinned policy
    ((eligibleProfiles chain).map (chainRecord hashes pinned chain before policy now))
  have hin := members_perm.subset hmember
  rw [hloop.members_eq, List.mem_append] at hin
  rcases hin with hchain | hrestored
  · obtain ⟨profile, hprofile, rfl⟩ := List.mem_map.mp hchain
    exact h.profiles profile (List.mem_filter.mp hprofile).1
  · obtain ⟨other, hother, rfl⟩ := List.mem_map.mp hrestored
    exact h.members other (mem_of_mem_floorMembers (hloop.known hother))

/-- The writer stores the first records by their addresses. -/
theorem firstSeen_learnedCacheFrom (registry : String) (at_ : ℕ) :
    (learnedCacheFrom registry (verifiedDiscovery chain.block
      (membershipFromChain hashes pinned chain before policy now)) at_).firstSeen =
        ((seenIn pinned chain before).values.insertionSort fun left right =>
          left.address ≤ right.address).take learnedCacheMaxFirstSeen := rfl

/-- The records that the writer stores of a read, each as it was. -/
theorem firstSeen_perm (h : Verified pinned chain before) (registry : String) (at_ : ℕ) :
    (learnedCacheFrom registry (verifiedDiscovery chain.block
      (membershipFromChain hashes pinned chain before policy now)) at_).firstSeen.Perm
        (seenIn pinned chain before).values := by
  have hperm := List.perm_insertionSort (fun left right : MemberFirstSeen =>
    left.address ≤ right.address) (seenIn pinned chain before).values
  rw [firstSeen_learnedCacheFrom, List.take_of_length_le (hperm.length_eq.trans_le h.count)]
  exact hperm

/-- Everything that the writer stores of a read is well formed. -/
theorem valid_learnedCacheFrom (h : Verified pinned chain before) (registry : String) {at_ : ℕ}
    (hat : at_ < safeBound) :
    ∀ anchor ∈ (learnedCacheFrom registry (verifiedDiscovery chain.block
      (membershipFromChain hashes pinned chain before policy now)) at_).anchors,
        ValidAnchor anchor ∧ anchor.at_ = at_ ∧ pinned.blockNumber ≤ anchor.block := by
  intro anchor hanchor
  obtain ⟨member, hmember, rfl⟩ := List.mem_map.mp hanchor
  have hsorted := (List.mem_insertionSort _).mp (List.mem_of_mem_take hmember)
  obtain ⟨hverified, hsome⟩ := List.mem_filter.mp hsorted
  obtain ⟨record, hrecord, rfl⟩ := List.mem_map.mp hverified
  obtain ⟨address, haddress⟩ := Option.isSome_iff_exists.mp hsome
  have hkps : kpsAddrFromMetadataUrl record.metadataUrl = some address := haddress
  refine ⟨⟨?_, h.member_address hrecord, h.number.2, h.hash, hat⟩, rfl, h.number.1⟩
  change isKpsAddress ((kpsAddrFromMetadataUrl record.metadataUrl).getD "") = true
  rw [hkps]
  exact isKpsAddress_of_metadataUrl hkps

/-- A value that the reader takes records from: the record of this registry, with at most as many
anchors and first-seen records as there may be, and every one of them well formed. -/
def WellFormed (registry : String) (value : Json) : Prop :=
  ∃ anchors firstSeen, value.field "registry" = some (.string registry) ∧
    value.field "anchors" = some (.array anchors) ∧
    value.field "firstSeen" = some (.array firstSeen) ∧
    anchors.length ≤ learnedCacheMaxAnchors ∧ firstSeen.length ≤ learnedCacheMaxFirstSeen ∧
    (∀ anchor ∈ anchors, (storedAnchor? anchor).isSome) ∧
    ∀ entry ∈ firstSeen, (firstSeen? entry).isSome

/-- Where all items are read, each of them is. -/
theorem isSome_of_mapM {α β : Type} {read : α → Option β} {items : List α} {out : List β}
    (h : items.mapM read = some out) : ∀ item ∈ items, (read item).isSome := by
  induction items generalizing out with
  | nil => exact fun item hitem => absurd hitem List.not_mem_nil
  | cons item rest ih =>
    rw [List.mapM_cons] at h
    obtain ⟨first, hfirst, hrest⟩ := Option.bind_eq_some_iff.mp h
    obtain ⟨later, hlater, -⟩ := Option.bind_eq_some_iff.mp hrest
    exact List.forall_mem_cons.mpr ⟨Option.isSome_iff_exists.mpr ⟨first, hfirst⟩, ih hlater⟩

/-- What is read passed all checks of the form. -/
theorem wellFormed_of_wellFormed? {registry : String} {value : Json}
    {out : List StoredAnchor × List MemberFirstSeen}
    (h : wellFormed? registry value = some out) : WellFormed registry value := by
  unfold wellFormed? at h
  split at h
  · next stored anchors firstSeen hregistry hanchors hfirst =>
    split_ifs at h with hfits
    obtain ⟨read, hread, hrest⟩ := Option.bind_eq_some_iff.mp h
    obtain ⟨seen, hseen, -⟩ := Option.bind_eq_some_iff.mp hrest
    obtain ⟨hsame, hcounts⟩ := not_or.mp hfits
    obtain ⟨hmany, hlong⟩ := not_or.mp hcounts
    exact ⟨anchors, firstSeen, not_not.mp hsame ▸ hregistry, hanchors, hfirst, not_lt.mp hmany,
      not_lt.mp hlong, isSome_of_mapM hread, isSome_of_mapM hseen⟩
  · cases h

/-- What a session stores of a verified read, a boot within thirty days reads: the anchors of
eligible members, the first for each address, in their order, and the first-seen records whose time
is not after the boot, which are those of the read. Of bytes that are no well-formed record for the
registry nothing is read.

What a verified read makes of members and records is what the reader checks
(`valid_learnedCacheFrom`), so the cache that is written is well formed, and its JSON is read back
field by field (`wellFormed?_cacheJson`). -/
theorem readLearnedCache_written {parse : Bytes → Option Json} {stringify : Json → Bytes}
    {writer : LearnedCacheWriter} {cache : LearnedCache} {nowMs : ℕ}
    (hverified : Verified pinned chain before)
    (hwrite : writer.update (verifiedDiscovery chain.block
      (membershipFromChain hashes pinned chain before policy now)) nowMs = some cache)
    (hsafe : nowMs < safeBound) (hboot : nowMs / 1000 ≤ nowUnix)
    (hage : nowUnix - nowMs / 1000 ≤ learnedCacheMaxAgeSeconds)
    (hjson : parse (stringify (cacheJson cache)) = some (cacheJson cache)) :
    readLearnedCache pinned.blockNumber eligible nowUnix parse
        (some (stringify (cacheJson cache))) writer.registry =
      ⟨(firstPerAddress [] (cache.anchors.filter fun anchor => anchor.member ∈ eligible)).map
          StoredAnchor.learned, cache.firstSeen.filter fun entry => entry.time ≤ nowUnix⟩ ∧
    cache.firstSeen.Perm (seenIn pinned chain before).values ∧
    ∀ stored registry, (∀ value, stored.bind parse = some value → ¬ WellFormed registry value) →
      readLearnedCache pinned.blockNumber eligible nowUnix parse stored registry = ⟨[], []⟩ := by
  -- the writer made the cache of the read, at the second of the write
  have hcache : cache = learnedCacheFrom writer.registry (verifiedDiscovery chain.block
      (membershipFromChain hashes pinned chain before policy now)) (nowMs / 1000) := by
    unfold LearnedCacheWriter.update at hwrite
    dsimp only at hwrite
    split_ifs at hwrite
    exact (Option.some.inj hwrite).symm
  have hregistry : cache.registry = writer.registry := by
    rw [hcache]
    rfl
  have hanchors : ∀ anchor ∈ cache.anchors, ValidAnchor anchor ∧ anchor.at_ = nowMs / 1000 ∧
      pinned.blockNumber ≤ anchor.block := by
    rw [hcache]
    exact valid_learnedCacheFrom hverified _ ((Nat.div_le_self _ _).trans_lt hsafe)
  have hperm : cache.firstSeen.Perm (seenIn pinned chain before).values := by
    rw [hcache]
    exact firstSeen_perm hverified _ _
  have hrecords : ∀ entry ∈ cache.firstSeen, ValidFirstSeen entry ∧
      pinned.blockNumber ≤ entry.block :=
    fun entry hentry => hverified.valid_record (hperm.subset hentry)
  have hmany : cache.anchors.length ≤ learnedCacheMaxAnchors := by
    rw [hcache]
    change (List.map _ _).length ≤ _
    rw [List.length_map]
    exact List.length_take_le _ _
  -- the whole text passes the shape checks; what is left are block and age of each entry
  have hread := wellFormed?_cacheJson (fun anchor hanchor => (hanchors anchor hanchor).1)
    (fun entry hentry => (hrecords entry hentry).1) hmany
    (hperm.length_eq.trans_le hverified.count)
  refine ⟨?_, hperm, fun stored registry hbad => ?_⟩
  · rw [readLearnedCache, Option.bind_some, hjson, Option.bind_some, ← hregistry, hread]
    dsimp only
    rw [readAnchors_eq (fun anchor hanchor => ?_) [],
      readFirstSeen_eq (fun entry hentry => (hrecords entry hentry).2)
        ((hperm.map _).nodup_iff.mpr hverified.nodup_records)
        fun _ _ => List.not_mem_nil]
    obtain ⟨-, hat, hblock⟩ := hanchors anchor hanchor
    exact ⟨hat ▸ hboot, hat ▸ hage, hblock⟩
  · rw [readLearnedCache]
    -- a text that is not well formed gives nothing
    cases hstored : stored.bind parse with
    | none => rfl
    | some value =>
      rw [Option.bind_some]
      cases hvalue : wellFormed? registry value with
      | none => rfl
      | some out => exact absurd (wellFormed_of_wellFormed? hvalue) (hbad value hstored)

/-! ### A session with an anchor and a new member -/

/-- An exit of the snapshot, which publishes a KPS address. -/
def anchorMember : PinnedMember :=
  { sampleMember '3' 2 2 with
    metadataUrl :=
      "kps:192.0.2.1:443:uEiAAAAAAAAAAAAAAAAAAAAAAAAAAAAAAAAAAAAAAAAAAAA/metadata.json" }

/-- A relay that is not in the snapshot. -/
def newMember : PinnedMember := sampleMember '2' 1 0

/-- A read that lists both. -/
def learnedRead : ChainMembership :=
  { sampleRead 20
      [Kps.profileOf anchorMember anchorMember.metadataUrl, Kps.profileOf newMember ""] with
    block := ⟨String.ofList ('0' :: 'x' :: List.replicate 64 '0'), 20, 20⟩ }

/-- A writer that has not written. -/
def newWriter : LearnedCacheWriter := ⟨"1:0xr", 60000, none, none, false⟩

/-- What it stores: the anchor, and when the new member was seen first. -/
def sampleCache : LearnedCache where
  registry := "1:0xr"
  anchors := [⟨"192.0.2.1:443:uEiAAAAAAAAAAAAAAAAAAAAAAAAAAAAAAAAAAAAAAAAAAAA",
    anchorMember.address, 20, learnedRead.block.hash, 25⟩]
  firstSeen := [⟨newMember.address, 20, 20⟩]

/-- Its text. -/
def sampleText : Bytes :=
  Js.textEncode ("\x7b\"registry\":\"1:0xr\",\"anchors\":[\x7b\"address\":\"192.0.2.1:443:" ++
    "uEiAAAAAAAAAAAAAAAAAAAAAAAAAAAAAAAAAAAAAAAAAAAA\",\"member\":\"" ++ anchorMember.address ++
    "\",\"block\":20,\"blockHash\":\"" ++ learnedRead.block.hash ++ "\",\"at\":25\x7d]," ++
    "\"firstSeen\":[\x7b\"address\":\"" ++ newMember.address ++
    "\",\"block\":20,\"time\":20\x7d]\x7d")

/-- A writer of this text. -/
def stringifySample (_ : Json) : Bytes := sampleText

/-- A parser that knows this text. -/
def parseSample (bytes : Bytes) : Option Json :=
  if bytes = sampleText then some (cacheJson sampleCache) else none

/-- A text of equal digits behind `0x` is hexadecimal. -/
theorem isLowerHex_ofList {count : ℕ} {digit : Char} (h : Js.isLowerHexDigit digit = true) :
    isLowerHex count (String.ofList ('0' :: 'x' :: List.replicate count digit)) = true := by
  simp [isLowerHex, h]

/-- The floor member of the sample. -/
theorem floorMembers_sample : floorMembers ⟨10, [anchorMember]⟩ = [anchorMember] := by
  decide +kernel

/-- The members of the sample that may be stored. -/
theorem eligibleProfiles_sample : eligibleProfiles learnedRead =
    [Kps.profileOf anchorMember anchorMember.metadataUrl, Kps.profileOf newMember ""] := by
  decide +kernel

/-- The new member of the sample gets its record. -/
theorem seenIn_sample : (seenIn ⟨10, [anchorMember]⟩ learnedRead .empty).values =
    [⟨newMember.address, 20, 20⟩] := by
  decide +kernel

/-- The read of the sample is a verified one. -/
theorem verified_learnedRead : Verified ⟨10, [anchorMember]⟩ learnedRead .empty where
  hash := isLowerHex_ofList (by decide)
  number := by decide
  timestamp := by decide
  profiles := by
    rintro profile hprofile
    rcases List.mem_pair.mp hprofile with rfl | rfl
    · exact isLowerHex_ofList (by decide)
    · exact isLowerHex_ofList (by decide)
  members member hmember := by
    obtain rfl := List.mem_singleton.mp hmember
    exact isLowerHex_ofList (by decide)
  records address first hfirst := by
    rw [OrderedMap.get?_empty] at hfirst
    cases hfirst
  count := by
    rw [seenIn_sample]
    decide

/-- The floor adds nobody, as the only snapshot member is listed. -/
theorem members_sample :
    (membershipFromChain sampleHashes ⟨10, [anchorMember]⟩ learnedRead .empty samplePolicy
      20).members.Perm
      [chainRecord sampleHashes ⟨10, [anchorMember]⟩ learnedRead .empty samplePolicy 20
        (Kps.profileOf anchorMember anchorMember.metadataUrl),
      chainRecord sampleHashes ⟨10, [anchorMember]⟩ learnedRead .empty samplePolicy 20
        (Kps.profileOf newMember "")] := by
  obtain ⟨restored, hloop, -⟩ := exists_restoredSome ⟨10, [anchorMember]⟩ samplePolicy
    ((eligibleProfiles learnedRead).map
      (chainRecord sampleHashes ⟨10, [anchorMember]⟩ learnedRead .empty samplePolicy 20))
  have hnone : restored = [] := by
    refine List.eq_nil_iff_forall_not_mem.mpr fun member hmember => hloop.absent member hmember ?_
    have hknown := hloop.known hmember
    rw [floorMembers_sample] at hknown
    rw [List.mem_singleton.mp hknown, eligibleProfiles_sample]
    exact List.mem_cons_self
  refine members_perm.trans (List.Perm.of_eq ?_)
  rw [hloop.members_eq, hnone, eligibleProfiles_sample, List.map_nil, List.append_nil,
    List.map_cons, List.map_cons, List.map_nil]

/-- The only member with a KPS address is stored as an anchor. -/
theorem anchors_sample : (learnedCacheFrom "1:0xr" (verifiedDiscovery learnedRead.block
    (membershipFromChain sampleHashes ⟨10, [anchorMember]⟩ learnedRead .empty samplePolicy 20))
      25).anchors = sampleCache.anchors := by
  have hkps : kpsAddrFromMetadataUrl anchorMember.metadataUrl =
      some "192.0.2.1:443:uEiAAAAAAAAAAAAAAAAAAAAAAAAAAAAAAAAAAAAAAAAAAAA" :=
    kpsAddrFromMetadataUrl_sample
  have hnew : kpsAddrFromMetadataUrl "" = none := by decide
  have hmembers := members_sample.map fun member : MemberRecord => (⟨member.address,
    kpsAddrFromMetadataUrl member.metadataUrl, member.floor, member.probation⟩ : VerifiedMember)
  have hanchors := (List.perm_insertionSort anchorOrder _).trans
    (hmembers.filter (·.kpsAddress.isSome))
  simp only [List.map_cons, List.map_nil, chainRecord, Kps.profileOf, hkps, hnew, List.filter_cons,
    List.filter_nil, Option.isSome_some, Option.isSome_none, if_true, Bool.false_eq_true,
    if_false] at hanchors
  rw [learnedCacheFrom, verifiedDiscovery]
  dsimp only
  rw [List.perm_singleton.mp hanchors]
  rfl

/-- A cache with one anchor and one first-seen record, read back as it was written. -/
theorem readLearnedCache_written_sample :
    readLearnedCache 10 [anchorMember.address] 30 parseSample (some sampleText) "1:0xr" =
      ⟨[⟨"192.0.2.1:443:uEiAAAAAAAAAAAAAAAAAAAAAAAAAAAAAAAAAAAAAAAAAAAA", anchorMember.address⟩],
        [⟨newMember.address, 20, 20⟩]⟩ := by
  have hfirst : (learnedCacheFrom "1:0xr" (verifiedDiscovery learnedRead.block
      (membershipFromChain sampleHashes ⟨10, [anchorMember]⟩ learnedRead .empty samplePolicy 20))
        25).firstSeen = sampleCache.firstSeen := by
    rw [firstSeen_learnedCacheFrom, seenIn_sample]
    rfl
  have hwrite : newWriter.update (verifiedDiscovery learnedRead.block
      (membershipFromChain sampleHashes ⟨10, [anchorMember]⟩ learnedRead .empty samplePolicy 20))
        25000 = some sampleCache := by
    have hcache : ∀ cache : LearnedCache, cache.registry = "1:0xr" →
        cache.anchors = sampleCache.anchors → cache.firstSeen = sampleCache.firstSeen →
          cache = sampleCache := by
      rintro ⟨registry, anchors, firstSeen⟩ rfl rfl rfl
      rfl
    exact congrArg some (hcache _ rfl anchors_sample hfirst)
  have hjson : parseSample (stringifySample (cacheJson sampleCache)) =
      some (cacheJson sampleCache) := if_pos rfl
  have hboot : 25000 / 1000 ≤ 30 := by decide
  have hage : 30 - 25000 / 1000 ≤ learnedCacheMaxAgeSeconds := by decide
  have hread : readLearnedCache 10 [anchorMember.address] 30 parseSample (some sampleText)
      "1:0xr" = _ :=
    (readLearnedCache_written verified_learnedRead hwrite (by decide) hboot hage hjson).1
  refine hread.trans ?_
  simp [sampleCache, firstPerAddress, StoredAnchor.learned]

end NoxSdk.Worker.Learned
