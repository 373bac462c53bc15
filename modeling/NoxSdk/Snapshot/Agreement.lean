import NoxSdk.Snapshot.Format

/-!
# Build and boot agree on the snapshot

The two validators were written apart. Both come down to the same requirements: the document and
its members have the shape of the schema (`WellFormedDocument`), the addresses increase, the count
and the fingerprint are those of the members, and each layer is the primary one. Only the order of
the capabilities is required by the build alone.
-/

namespace NoxSdk.Snapshot

open Js (Json safeBound isHexDigit isLowerHexDigit)
open NoxSdk.Kps NoxSdk.Topology

/-! ### The tests -/

/-- A check reports nothing exactly when it has passed. -/
@[simp]
theorem problem_eq_nil {passed : Bool} {text : String} :
    problem passed text = [] ↔ passed = true := by
  cases passed <;> simp [problem]

/-- The list of problems passes when it is empty. -/
@[simp]
theorem requireNone_eq_ok {problems : List String} :
    requireNone problems = .ok () ↔ problems = [] := by
  simp [requireNone]

/-- A single check passes exactly when its condition holds. -/
@[simp]
theorem checkThat_eq_ok {passed : Bool} {detail : String} :
    checkThat passed detail = .ok () ↔ passed = true := by
  cases passed <;> simp [checkThat]

/-- A check that returns is followed by the rest. -/
theorem check_bind_eq_ok {ε : Type} {check next : Except ε Unit} :
    (check >>= fun _ => next) = .ok () ↔ check = .ok () ∧ next = .ok () := by
  rw [bind_eq_ok_iff]
  exact ⟨fun ⟨_, hcheck, hnext⟩ => ⟨hcheck, hnext⟩, fun ⟨hcheck, hnext⟩ => ⟨(), hcheck, hnext⟩⟩

/-- A loop of checks passes when every check passes. -/
theorem forM_eq_ok_iff {α : Type} {check : α → Except Thrown Unit} {l : List α} :
    l.forM check = .ok () ↔ ∀ a ∈ l, check a = .ok () := by
  refine ⟨forM_ok, fun h => ?_⟩
  induction l with
  | nil => rfl
  | cons a rest ih =>
    rw [List.forall_mem_cons] at h
    exact bind_eq_ok_iff.mpr ⟨(), h.1, ih h.2⟩

/-- A property of the elements alone, asked of the elements with their indices. -/
theorem forall_mem_zipIdx {α : Type} {P : α → Prop} {l : List α} :
    (∀ entry ∈ l.zipIdx, P entry.1) ↔ ∀ a ∈ l, P a := by
  conv_rhs => rw [← List.zipIdx_map_fst 0 l]
  exact List.forall_mem_map.symm

/-! ### The shape -/

/-- The keys of an object are the given ones. -/
def SameKeys (value : Json) (keys : List String) : Prop :=
  (∀ key ∈ keysOf value, key ∈ keys) ∧ ∀ key ∈ keys, key ∈ keysOf value

/-- The build finds nothing about the keys when they are exactly the expected ones. -/
theorem checkExactKeys_eq_nil {value : Json} {keys : List String} {place : String} :
    checkExactKeys value keys place = [] ↔ SameKeys value keys := by
  simp only [checkExactKeys, SameKeys, List.append_eq_nil_iff, List.map_eq_nil_iff,
    List.filter_eq_nil_iff, Bool.not_eq_true', List.contains_eq_mem, decide_eq_false_iff_not,
    not_not]
  exact and_comm

/-- Boot asks the same of the keys as the build. -/
theorem checkKeys_eq_ok {value : Json} {keys : List String} {place : String} :
    checkKeys value keys place = .ok () ↔ SameKeys value keys := by
  rw [checkKeys]
  cases hunknown : (keysOf value).find? fun key => !keys.contains key with
  | some key =>
    have hbad := List.find?_some hunknown
    simp only [reduceCtorEq, false_iff]
    intro h
    simp [h.1 key (List.mem_of_find?_eq_some hunknown)] at hbad
  | none =>
    have hknown : ∀ key ∈ keysOf value, key ∈ keys := by simpa using hunknown
    cases hmissing : keys.find? fun key => !(keysOf value).contains key with
    | some key =>
      have hbad := List.find?_some hmissing
      simp only [reduceCtorEq, false_iff]
      intro h
      simp [h.2 key (List.mem_of_find?_eq_some hmissing)] at hbad
    | none =>
      have hpresent : ∀ key ∈ keys, key ∈ keysOf value := by simpa using hmissing
      exact iff_of_true rfl ⟨hknown, hpresent⟩

/-- What both validators ask of the value of a member. -/
structure WellFormedMember (member : Json) : Prop where
  object : isPlainRecord member = true
  keys : SameKeys member memberKeys
  address : isTextWith (isLowerHex0x 40) (member.field "address") = true
  sphinxKey : isTextWith (isLowerHex 64) (member.field "sphinxKey") = true
  url : isTextWith (hasLength 1 maxFieldLength) (member.field "url") = true
  ingressUrl : isTextWith (hasLength 0 maxFieldLength) (member.field "ingressUrl") = true
  metadataUrl : isTextWith (hasLength 0 maxFieldLength) (member.field "metadataUrl") = true
  stake : isTextWith Js.isDecimal (member.field "stake") = true
  role : isOneOf [1, 2, 3] (member.field "role") = true
  layer : isOneOf [0, 1, 2] (member.field "layer") = true
  status : isOneOf [1, 2] (member.field "status") = true
  frozen : isBoolean (member.field "frozen") = true
  capabilities : isArrayWith isCapabilityList (member.field "capabilities") = true

/-- The two tests of the capabilities differ in their order. -/
theorem areCapabilities_eq : areCapabilities = isCapabilityList := by
  funext items
  rw [areCapabilities, isCapabilityList, Bool.and_assoc, Bool.and_assoc]
  exact congrArg _ (Bool.and_comm _ _)

/-- Both validators take the same values for records. -/
theorem isRecord_eq (value : Json) : isRecord value = isPlainRecord value := by
  cases value <;> rfl

/-- The build finds nothing about a member that is well formed, and something about any other. -/
theorem memberProblems_eq_nil {member : Json} {index : ℕ} :
    memberProblems member index = [] ↔ WellFormedMember member := by
  rw [memberProblems, isRecord_eq]
  cases hrecord : isPlainRecord member with
  | false => simpa using fun h : WellFormedMember member => by simpa [hrecord] using h.object
  | true =>
    simp only [if_true, List.append_eq_nil_iff, checkExactKeys_eq_nil, problem_eq_nil,
      List.flatMap_cons, List.flatMap_nil, and_true, areCapabilities_eq]
    constructor
    · rintro ⟨⟨⟨⟨⟨⟨⟨⟨⟨⟨h1, h2⟩, h3⟩, h4⟩, h5, h6⟩, h7⟩, h8⟩, h9⟩, h10⟩, h11⟩, h12⟩
      exact ⟨hrecord, h1, h2, h3, h4, h5, h6, h7, h8, h9, h10, h11, h12⟩
    · rintro ⟨-, h1, h2, h3, h4, h5, h6, h7, h8, h9, h10, h11, h12⟩
      exact ⟨⟨⟨⟨⟨⟨⟨⟨⟨⟨h1, h2⟩, h3⟩, h4⟩, h5, h6⟩, h7⟩, h8⟩, h9⟩, h10⟩, h11⟩, h12⟩

/-- What both validators ask of the fields of the document and of each member. -/
structure WellFormedDocument (doc : Json) : Prop where
  object : isPlainRecord doc = true
  keys : SameKeys doc snapshotKeys
  format : isTextWith (· == pinnedSnapshotFormat) (doc.field "format") = true
  chainId : isIntegerFrom 1 (doc.field "chainId") = true
  registry : isTextWith (isLowerHex0x 40) (doc.field "registry") = true
  blockNumber : isIntegerFrom 1 (doc.field "blockNumber") = true
  blockHash : isTextWith (isLowerHex0x 64) (doc.field "blockHash") = true
  fingerprint : isTextWith (isLowerHex 64) (doc.field "fingerprint") = true
  relayerCount : isIntegerIn 1 maxPinnedMembers (doc.field "relayerCount") = true
  powDifficulty : isIntegerIn 0 maxPinnedPowDifficulty (doc.field "powDifficulty") = true
  array : hasMembers doc = true
  members : ∀ member ∈ itemsAt doc "members", WellFormedMember member

/-- The build finds nothing about the shape of a document that is well formed, and something about
any other. -/
theorem snapshotShapeProblems_eq_nil {doc : Json} :
    snapshotShapeProblems doc = [] ↔ WellFormedDocument doc := by
  rw [snapshotShapeProblems, isRecord_eq]
  cases hrecord : isPlainRecord doc with
  | false => simpa using fun h : WellFormedDocument doc => by simpa [hrecord] using h.object
  | true =>
    cases harray : hasMembers doc with
    | false => simpa using fun h : WellFormedDocument doc => by simpa [harray] using h.array
    | true =>
      simp only [if_true, headProblems, List.append_eq_nil_iff, checkExactKeys_eq_nil,
        problem_eq_nil, List.flatMap_eq_nil_iff, memberProblems_eq_nil]
      rw [forall_mem_zipIdx (P := WellFormedMember)]
      constructor
      · rintro ⟨⟨⟨⟨⟨⟨⟨⟨⟨h1, h2⟩, h3⟩, h4⟩, h5⟩, h6⟩, h7⟩, h8⟩, h9⟩, h10⟩
        exact ⟨hrecord, h1, h2, h3, h4, h5, h6, h7, h8, h9, harray, h10⟩
      · rintro ⟨-, h1, h2, h3, h4, h5, h6, h7, h8, h9, -, h10⟩
        exact ⟨⟨⟨⟨⟨⟨⟨⟨⟨h1, h2⟩, h3⟩, h4⟩, h5⟩, h6⟩, h7⟩, h8⟩, h9⟩, h10⟩

/-! ### The check at boot -/

/-- The text of a field that was checked passes the check. -/
theorem isTextWith_textAt {test : String → Bool} {value : Json} {key : String}
    (h : isTextWith test (value.field key) = true) : test (textAt value key) = true := by
  rw [textAt]
  split
  · rename_i s hfield
    simpa [hfield, isTextWith] using h
  · rename_i hfield
    unfold isTextWith at h
    split at h
    · rename_i s hs
      exact absurd hs (hfield s)
    · cases h

/-- The number of a field that was checked is one of the list. -/
theorem isOneOf_integerAt {numbers : List ℕ} {value : Json} {key : String}
    (h : isOneOf numbers (value.field key) = true) :
    (integerAt value key).toNat ∈ numbers := by
  unfold isOneOf at h
  split at h
  · rename_i n hfield
    obtain ⟨k, hk, hn⟩ := List.any_eq_true.mp h
    have hvalue : integerAt value key = n := by simp [integerAt, hfield]
    rw [hvalue, eq_of_beq hn]
    exact hk
  · cases h

/-- The layer that the library assigns is one that the role can serve. -/
theorem primaryLayerForRole_mem (hashes : Hashes) (address : String) {role : ℕ}
    (hrole : role ∈ [1, 2, 3]) : primaryLayerForRole hashes address role ∈ layersForRole role := by
  simp only [List.mem_cons, List.not_mem_nil, or_false] at hrole
  rcases hrole with rfl | rfl | rfl
  · change _ % 2 ∈ ([0, 1] : List ℕ)
    simp only [List.mem_cons, List.not_mem_nil, or_false]
    omega
  · change 2 ∈ ([0, 1, 2] : List ℕ)
    decide
  · change _ % 3 ∈ ([0, 1, 2] : List ℕ)
    simp only [List.mem_cons, List.not_mem_nil, or_false]
    omega

/-- The layer of a member is the primary one of its role. -/
def HasPrimaryLayer (hashes : Hashes) (member : PinnedMember) : Prop :=
  member.layer = primaryLayerForRole hashes member.address member.role

/-- Boot asks of a member that it is well formed and has its primary layer. -/
theorem checkMember_eq_ok {hashes : Hashes} {member : Json} {index : ℕ} :
    checkMember hashes member index = .ok () ↔
      WellFormedMember member ∧ HasPrimaryLayer hashes (pinnedMember member) := by
  simp only [checkMember, check_bind_eq_ok, checkThat_eq_ok, checkKeys_eq_ok, checkPattern,
    checkString, beq_iff_eq, List.contains_eq_mem, decide_eq_true_eq]
  constructor
  · rintro ⟨h1, h2, h3, h4, h5, h6, h7, h8, h9, h10, -, hlayer, h11, h12, h13⟩
    exact ⟨⟨h1, h2, h3, h4, h5, h6, h7, h8, h9, h10, h11, h12, h13⟩, hlayer⟩
  · rintro ⟨⟨h1, h2, h3, h4, h5, h6, h7, h8, h9, h10, h11, h12, h13⟩, hlayer⟩
    have hmem : (pinnedMember member).layer ∈ layersForRole (pinnedMember member).role := by
      rw [hlayer]
      exact primaryLayerForRole_mem hashes _ (isOneOf_integerAt h9)
    exact ⟨h1, h2, h3, h4, h5, h6, h7, h8, h9, h10, hmem, hlayer, h11, h12, h13⟩

/-- A safe integer is below the bound of safe integers, with either sign. -/
theorem safeInteger?_lt {value : Option Json} {n : ℤ} (h : safeInteger? value = some n) :
    n.natAbs < safeBound := by
  unfold safeInteger? at h
  split at h
  · split_ifs at h with hsafe
    obtain rfl := Option.some.inj h
    simpa [isSafeInteger] using hsafe
  · cases h

/-- The largest safe integer bounds nothing more. -/
theorem isIntegerIn_safe (min : ℤ) (value : Option Json) :
    isIntegerIn min (safeBound - 1) value = isIntegerFrom min value := by
  rw [isIntegerIn, isIntegerFrom]
  cases hvalue : safeInteger? value with
  | none => rfl
  | some n =>
    have hlt := safeInteger?_lt hvalue
    have hmax : n ≤ (safeBound : ℤ) - 1 := by omega
    simp only [Option.any_some, hmax, decide_true, Bool.and_true]

/-- A number passes exactly when it is an integer within its bounds. -/
theorem checkInteger_eq_ok {value : Option Json} {field : String} {min max : ℤ} :
    checkInteger value field min max = .ok () ↔ isIntegerIn min max value = true :=
  checkThat_eq_ok

/-- What both validators ask beyond the shape. -/
structure Consistent (hashes : Hashes) (doc : Json) : Prop where
  layers : ∀ member ∈ pinnedMembers doc, HasPrimaryLayer hashes member
  ordered : ((pinnedMembers doc).map (·.address)).Pairwise (· < ·)
  count : ((itemsAt doc "members").length : ℤ) = integerAt doc "relayerCount"
  fingerprint : computeTopologyFingerprint hashes ((pinnedMembers doc).map toRelayerNode) =
    .ok (textAt doc "fingerprint")

/-- The check at boot, as requirements. -/
theorem verifyPinnedSnapshot_eq_ok {hashes : Hashes} {doc : Json} :
    verifyPinnedSnapshot hashes doc = .ok () ↔
      WellFormedDocument doc ∧ Consistent hashes doc := by
  simp only [verifyPinnedSnapshot, check_bind_eq_ok, checkThat_eq_ok, checkKeys_eq_ok,
    checkPattern, checkInteger_eq_ok, isIntegerIn_safe, forM_eq_ok_iff, checkMember_eq_ok,
    isCanonicalAddressOrder_iff, beq_iff_eq]
  rw [bind_eq_ok_iff, forall_mem_zipIdx (P := fun member =>
    WellFormedMember member ∧ HasPrimaryLayer hashes (pinnedMember member)), forall₂_and]
  simp only [checkThat_eq_ok, beq_iff_eq]
  constructor
  · rintro ⟨h1, h2, h3, h4, h5, h6, h7, h8, h9, h10, h11, ⟨hmembers, hlayers⟩, hordered, hcount,
      computed, hcomputed, hfingerprint⟩
    exact ⟨⟨h1, h2, h3, h4, h5, h6, h7, h8, h9, h10, h11, hmembers⟩,
      ⟨List.forall_mem_map.mpr hlayers, hordered, hcount, hfingerprint ▸ hcomputed⟩⟩
  · rintro ⟨⟨h1, h2, h3, h4, h5, h6, h7, h8, h9, h10, h11, hmembers⟩,
      ⟨hlayers, hordered, hcount, hfingerprint⟩⟩
    exact ⟨h1, h2, h3, h4, h5, h6, h7, h8, h9, h10, h11,
      ⟨hmembers, List.forall_mem_map.mp hlayers⟩, hordered, hcount, _, hfingerprint, rfl⟩

/-! ### The validator of served topologies over the members -/

/-- A node whose profile the validator accepts. -/
structure GoodProfile (node : RelayerNode) : Prop where
  address : isLowerHex0x 40 node.address = true
  sphinxKey : isLowerHex 64 node.sphinxKey = true
  stake : Js.isDecimal node.stake = true
  role : node.role ∈ [1, 2, 3]

/-- A well-formed member is a good profile for the checks of the SDK. -/
theorem WellFormedMember.goodProfile {member : Json} (h : WellFormedMember member) :
    GoodProfile (toRelayerNode (pinnedMember member)) :=
  ⟨isTextWith_textAt h.address, isTextWith_textAt h.sphinxKey, isTextWith_textAt h.stake,
    isOneOf_integerAt h.role⟩

/-- A digit in lower case is a digit. -/
theorem isHexDigit_of_isLowerHexDigit {c : Char} (h : isLowerHexDigit c = true) :
    isHexDigit c = true := by
  simp [isHexDigit, h]

/-- Lower-case digits are their own lower case, checked for all of ASCII. -/
private theorem toLower_ascii : ∀ n < 128, isLowerHexDigit (Char.ofNat n) = true →
    (Char.ofNat n).toLower = Char.ofNat n := by
  decide

/-- A digit of lower case is its own lower case. -/
theorem toLower_of_isLowerHexDigit {c : Char} (h : isLowerHexDigit c = true) :
    c.toLower = c := by
  have hlower := toLower_ascii c.toNat
    (Js.toNat_lt_of_isHexDigit (isHexDigit_of_isLowerHexDigit h))
  rw [Char.ofNat_toNat] at hlower
  exact hlower h

/-- The characters of a lower-case address. -/
theorem exists_digits {count : ℕ} {s : String} (h : isLowerHex0x count s = true) :
    ∃ digits, s.toList = '0' :: 'x' :: digits ∧ digits.length = count ∧
      ∀ c ∈ digits, isLowerHexDigit c = true := by
  unfold isLowerHex0x at h
  split at h
  · rename_i digits hs
    simp only [Bool.and_eq_true, beq_iff_eq, List.all_eq_true] at h
    exact ⟨digits, hs, h⟩
  · cases h

/-- A text of lower-case digits is its own lower case. -/
theorem map_toLower {digits : List Char} (h : ∀ c ∈ digits, isLowerHexDigit c = true) :
    digits.map Char.toLower = digits :=
  (List.map_congr_left fun c hc => toLower_of_isLowerHexDigit (h c hc)).trans (List.map_id _)

/-- Forty digits of lower case are an address. -/
theorem isAddress_of_isLowerHex0x {s : String} (h : isLowerHex0x 40 s = true) :
    isAddress s = true := by
  obtain ⟨digits, hs, hlength, hdigits⟩ := exists_digits h
  simp only [isAddress, hs, hlength, beq_self_eq_true, Bool.true_and, List.all_eq_true]
  exact fun c hc => isHexDigit_of_isLowerHexDigit (hdigits c hc)

/-- A lower-case address is in the form that the validator compares. -/
theorem normalizeAddress_of_isLowerHex0x {s : String} (h : isLowerHex0x 40 s = true) :
    normalizeAddress s = s := by
  obtain ⟨digits, hs, -, hdigits⟩ := exists_digits h
  have hstrip : stripPrefix s = digits := by simp [stripPrefix, hs]
  rw [normalizeAddress, hstrip, map_toLower hdigits, ← hs, String.ofList_toList]

/-- A text of lower case digits is its own lower case. -/
theorem toLowerCase_of_isLowerHex0x {s : String} (h : isLowerHex0x 40 s = true) :
    Js.toLowerCase s = s := by
  obtain ⟨digits, hs, -, hdigits⟩ := exists_digits h
  rw [Js.toLowerCase, hs, List.map_cons, List.map_cons, map_toLower hdigits]
  exact hs ▸ String.ofList_toList

/-- Without a prefix nothing is stripped from a text of digits. -/
theorem stripped_of_isLowerHex {count : ℕ} {s : String} (h : isLowerHex count s = true) :
    String.ofList (strip0x (Js.toLowerCase s).toList) = s := by
  simp only [isLowerHex, Bool.and_eq_true, List.all_eq_true] at h
  have hlower : (Js.toLowerCase s).toList = s.toList := by
    rw [Js.toLowerCase, String.toList_ofList, map_toLower h.2]
  rw [hlower, strip0x_of_isHexDigit fun c hc => isHexDigit_of_isLowerHexDigit (h.2 c hc),
    String.ofList_toList]

/-- The digits that are written are in lower case. -/
theorem isLowerHexDigit_digitChar : ∀ n < 16, isLowerHexDigit (Nat.digitChar n) = true := by
  decide

/-- Bytes are written in digits of lower case. -/
theorem isLowerHex_bytesToHex (bytes : Bytes) :
    isLowerHex (bytesToHex bytes).toList.length (bytesToHex bytes) = true := by
  simp only [isLowerHex, beq_self_eq_true, Bool.true_and, List.all_eq_true]
  intro c hc
  rw [bytesToHex, String.toList_ofList] at hc
  obtain ⟨b, -, hb⟩ := List.mem_flatMap.mp hc
  have hbyte := b.toNat_lt
  simp only [List.mem_cons, List.not_mem_nil, or_false] at hb
  rcases hb with rfl | rfl
  · exact isLowerHexDigit_digitChar _ (by omega)
  · exact isLowerHexDigit_digitChar _ (by omega)

/-- A computed fingerprint is in the form that the validator compares. -/
theorem stripped_fingerprint {hashes : Hashes} {nodes : List RelayerNode} {fingerprint : String}
    (h : computeTopologyFingerprint hashes nodes = .ok fingerprint) :
    String.ofList (strip0x (Js.toLowerCase fingerprint).toList) = fingerprint := by
  obtain ⟨xor, -, hxor⟩ := bind_eq_ok_iff.mp h
  obtain rfl := Except.ok.inj hxor
  exact stripped_of_isLowerHex (isLowerHex_bytesToHex xor)

/-- The SDK takes a good profile with a new address and a layer of its role. -/
theorem validateSnapshotNode_eq_ok {addresses : List String} {node : RelayerNode}
    (h : GoodProfile node) (hfresh : node.address ∉ addresses)
    (hlayer : node.layer ∈ layersForRole node.role) :
    validateSnapshotNode addresses node = .ok () := by
  obtain ⟨haddress, hkey, hstake, hrole⟩ := h
  have hhex : (node.sphinxKey.toList.length == 64 &&
      node.sphinxKey.toList.all isHexDigit) = true := by
    simp only [isLowerHex, Bool.and_eq_true, List.all_eq_true] at hkey ⊢
    exact ⟨hkey.1, fun c hc => isHexDigit_of_isLowerHexDigit (hkey.2 c hc)⟩
  have hrange : node.role ≠ 0 ∧ node.role ≤ 3 := by
    simp only [List.mem_cons, List.not_mem_nil, or_false] at hrole
    omega
  simp [validateSnapshotNode, isAddress_of_isLowerHex0x haddress,
    toLowerCase_of_isLowerHex0x haddress, hfresh, hhex, hstake, hrange.1, hrange.2, hlayer]

/-- The SDK takes good profiles with distinct addresses. -/
theorem validateSnapshotNodes_eq_ok {nodes : List RelayerNode} {addresses : List String}
    (h : ∀ node ∈ nodes, GoodProfile node ∧ node.layer ∈ layersForRole node.role)
    (hnodup : (addresses ++ nodes.map (·.address)).Nodup) :
    validateSnapshotNodes addresses nodes = .ok () := by
  induction nodes generalizing addresses with
  | nil => rfl
  | cons node rest ih =>
    obtain ⟨⟨hgood, hlayer⟩, hrest⟩ := List.forall_mem_cons.mp h
    have hfresh : node.address ∉ addresses := fun hmem =>
      (List.nodup_append.mp hnodup).2.2 _ hmem _ List.mem_cons_self rfl
    rw [validateSnapshotNodes, validateSnapshotNode_eq_ok hgood hfresh hlayer, ok_bind,
      toLowerCase_of_isLowerHex0x hgood.address]
    exact ih hrest (by simpa using hnodup)

/-- Observations of members, each of another one, are taken and noted. -/
theorem checkObservations_eq_ok {members observations : List String}
    {liveness : List TopologyLiveness}
    (hmembers : ∀ observation ∈ liveness, normalizeAddress observation.address ∈ members)
    (hnodup : (observations ++ liveness.map (normalizeAddress ·.address)).Nodup) :
    checkObservations members observations liveness =
      .ok (observations ++ liveness.map (normalizeAddress ·.address)) := by
  induction liveness generalizing observations with
  | nil => simp [checkObservations]
  | cons observation rest ih =>
    obtain ⟨hmember, hrest⟩ := List.forall_mem_cons.mp hmembers
    have hfresh : normalizeAddress observation.address ∉ observations := fun hmem =>
      (List.nodup_append.mp hnodup).2.2 _ hmem _ List.mem_cons_self rfl
    simp only [checkObservations, List.contains_eq_mem, hmember, hfresh, decide_true, decide_false,
      Bool.not_true, Bool.false_eq_true, if_false]
    rw [ih hrest (by simpa using hnodup)]
    simp

/-- The layer of a node is checked against that of its role and address. -/
theorem checkPrimaryLayer_eq_ok_iff {hashes : Hashes} {node : RelayerNode} :
    checkPrimaryLayer hashes node = .ok () ↔
      node.layer = primaryLayerForRole hashes node.address node.role := by
  refine ⟨checkPrimaryLayer_ok, fun h => ?_⟩
  simp only [checkPrimaryLayer]
  exact if_neg (not_not.mpr h)

/-- Nodes that the validator accepts but for their layers. -/
structure GoodNodes (nodes : List RelayerNode) : Prop where
  good : ∀ node ∈ nodes, GoodProfile node ∧ node.layer ∈ layersForRole node.role
  ordered : (nodes.map (·.address)).Pairwise (· < ·)

/-- Addresses of good nodes are normal as they are. -/
theorem GoodNodes.normalized {nodes : List RelayerNode} (h : GoodNodes nodes) :
    nodes.map (normalizeAddress ·.address) = nodes.map (·.address) :=
  List.map_congr_left fun node hnode =>
    normalizeAddress_of_isLowerHex0x (h.good node hnode).1.address

/-- No two nodes share an address. -/
theorem GoodNodes.nodup {nodes : List RelayerNode} (h : GoodNodes nodes) :
    (nodes.map (·.address)).Nodup :=
  h.ordered.imp fun hlt => hlt.ne

/-- With one observation for each node, what is left to check are the primary layers. -/
theorem validateCompleteLiveness_eq_ok_iff {hashes : Hashes} {nodes : List RelayerNode}
    (h : GoodNodes nodes) :
    validateCompleteLiveness hashes nodes (nodes.map observe) = .ok () ↔
      ∀ node ∈ nodes, node.layer = primaryLayerForRole hashes node.address node.role := by
  have hobserved : (nodes.map observe).map (normalizeAddress ·.address) =
      nodes.map (·.address) := by
    rw [← h.normalized, List.map_map]
    rfl
  have horder : isCanonicalAddressOrder (nodes.map (·.address)) = true :=
    isCanonicalAddressOrder_iff.mpr h.ordered
  have hobservations : checkObservations (nodes.map (·.address)) [] (nodes.map observe) =
      .ok (nodes.map (·.address)) := by
    rw [checkObservations_eq_ok, hobserved, List.nil_append]
    · intro observation hobservation
      rw [← hobserved]
      exact List.mem_map_of_mem hobservation
    · rw [hobserved, List.nil_append]
      exact h.nodup
  simp only [validateCompleteLiveness, hobserved, h.normalized, horder, Bool.not_true, Bool.or_self,
    Bool.false_eq_true, if_false, hobservations, h.nodup.dedup, ne_eq, not_true_eq_false,
    pure_eq_ok, ok_bind]
  rw [check_bind_eq_ok, and_iff_left rfl, forM_eq_ok_iff]
  exact forall₂_congr fun node _ => checkPrimaryLayer_eq_ok_iff

/-- On a document of schema version 2 over such nodes the validator decides by the layers. -/
theorem verifySelfConsistency_full_iff {hashes : Hashes} {nodes : List RelayerNode}
    {fingerprint : String} {blockNumber : ℕ} (h : GoodNodes nodes)
    (hfingerprint : computeTopologyFingerprint hashes nodes = .ok fingerprint)
    (hblock : blockNumber ≠ 0) :
    verifySelfConsistency hashes (fullTopology nodes fingerprint blockNumber) false = .ok () ↔
      ∀ node ∈ nodes, node.layer = primaryLayerForRole hashes node.address node.role := by
  have hnodes : validateSnapshotNodes [] nodes = .ok () :=
    validateSnapshotNodes_eq_ok h.good (by simpa using h.nodup)
  have hliveness : validateLiveness hashes (fullTopology nodes fingerprint blockNumber) false =
      validateCompleteLiveness hashes nodes (nodes.map observe) := by
    simp [validateLiveness, fullTopology, hblock]
  rw [verifySelfConsistency, hliveness]
  simp only [fullTopology, hnodes, ok_bind, hfingerprint, stripped_fingerprint hfingerprint,
    ne_eq, not_true_eq_false, if_false, pure_eq_ok]
  rw [check_bind_eq_ok, and_iff_left rfl]
  exact validateCompleteLiveness_eq_ok_iff h

/-! ### The layer that the build finds -/

/-- The fingerprint of nodes with proper addresses is computed without an error. -/
theorem exists_fingerprint (hashes : Hashes) (nodes : List RelayerNode)
    (h : ∀ node ∈ nodes, isLowerHex0x 40 node.address = true) :
    computeTopologyFingerprint hashes nodes = .ok (fingerprintOf hashes nodes) :=
  computeTopologyFingerprint_eq fun node hnode => isAddress_of_isLowerHex0x (h node hnode)

/-- A profile is good in whatever layer it is put. -/
theorem GoodProfile.withLayer {node : RelayerNode} (h : GoodProfile node) (layer : ℕ) :
    GoodProfile { node with layer := layer } :=
  ⟨h.address, h.sphinxKey, h.stake, h.role⟩

/-- A good profile alone makes a good list, in a layer of its role. -/
theorem GoodProfile.single {node : RelayerNode} (h : GoodProfile node) {layer : ℕ}
    (hlayer : layer ∈ layersForRole node.role) : GoodNodes [{ node with layer := layer }] where
  good := List.forall_mem_singleton.mpr ⟨h.withLayer layer, hlayer⟩
  ordered := List.pairwise_singleton _ _

/-- A probe passes for the primary layer and for no other layer of the role. -/
theorem probeLayer_eq_ok_iff (hashes : Hashes) {node : RelayerNode} (h : GoodProfile node)
    {layer : ℕ} (hlayer : layer ∈ layersForRole node.role) :
    probeLayer hashes node layer = .ok () ↔
      layer = primaryLayerForRole hashes node.address node.role := by
  have hfingerprint := exists_fingerprint hashes [{ node with layer := layer }]
    (List.forall_mem_singleton.mpr h.address)
  simp only [probeLayer, hfingerprint, ok_bind]
  rw [verifySelfConsistency_full_iff (h.single hlayer) hfingerprint one_ne_zero,
    List.forall_mem_singleton]

/-- A good profile passes the check of the snapshot in each layer of its role. -/
theorem checkProfile_eq_ok {hashes : Hashes} {node : RelayerNode} (h : GoodProfile node)
    {layer : ℕ} (hlayer : layer ∈ layersForRole node.role) :
    checkProfile hashes node layer = .ok () := by
  have hfingerprint := exists_fingerprint hashes [node]
    (List.forall_mem_singleton.mpr h.address)
  have hsame : computeTopologyFingerprint hashes [{ node with layer := layer }] =
      computeTopologyFingerprint hashes [node] := by
    simp only [computeTopologyFingerprint, List.foldlM_cons, List.foldlM_nil, xorAddress]
  have hnodes : validateSnapshotNodes [] [{ node with layer := layer }] = .ok () :=
    validateSnapshotNodes_eq_ok (h.single hlayer).good (List.nodup_singleton _)
  simp only [checkProfile, verifySelfConsistency, hsame, hfingerprint, ok_bind, hnodes,
    stripped_fingerprint hfingerprint, validateLiveness, Option.getD_some, Bool.false_eq_true,
    if_false, ne_eq, not_true_eq_false, pure_eq_ok]

/-- The layers of a role are different. -/
theorem nodup_layersForRole (role : ℕ) : (layersForRole role).Nodup := by
  rw [layersForRole]
  split_ifs <;> decide

/-- Each role has a layer. -/
theorem headD_mem_layersForRole (role : ℕ) : (layersForRole role).headD 0 ∈ layersForRole role := by
  rw [layersForRole]
  split_ifs <;> decide

/-- Asking the validator layer by layer finds the layer that the client library exports. -/
theorem primaryLayer_eq {hashes : Hashes} {node : RelayerNode} (h : GoodProfile node) :
    primaryLayer hashes node = .ok (primaryLayerForRole hashes node.address node.role) := by
  have hprimary := primaryLayerForRole_mem hashes node.address h.role
  have haccepted : (layersForRole node.role).filter
      (fun layer => (probeLayer hashes node layer).toBool) =
        [primaryLayerForRole hashes node.address node.role] := by
    have hprobe : ∀ layer ∈ layersForRole node.role, (probeLayer hashes node layer).toBool =
        (layer == primaryLayerForRole hashes node.address node.role) := by
      intro layer hlayer
      have hiff := probeLayer_eq_ok_iff hashes h hlayer
      cases hresult : probeLayer hashes node layer with
      | ok _ =>
        rw [beq_iff_eq.mpr (hiff.mp hresult)]
        rfl
      | error e =>
        have hne : layer ≠ primaryLayerForRole hashes node.address node.role := fun heq => by
          rw [hiff.mpr heq] at hresult
          cases hresult
        rw [beq_eq_false_iff_ne.mpr hne]
        rfl
    rw [List.filter_congr hprobe, List.filter_beq,
      List.count_eq_one_of_mem (nodup_layersForRole _) hprimary]
    rfl
  rw [primaryLayer, checkProfile_eq_ok h (headD_mem_layersForRole _), haccepted]
  exact if_pos rfl

/-- A member has no problem with its layer exactly when it is in the primary one of its role. -/
theorem layerProblem_eq_nil {hashes : Hashes} {member : Json} (h : WellFormedMember member)
    {index : ℕ} :
    layerProblem hashes member index = [] ↔ HasPrimaryLayer hashes (pinnedMember member) := by
  rw [layerProblem, primaryLayer_eq h.goodProfile, layerLines, problem_eq_nil, beq_iff_eq]
  exact eq_comm

/-! ### The order of the members -/

/-- The lines about capabilities, the only ones that boot does not ask for. -/
def capabilityLines (doc : Json) : List String :=
  (itemsAt doc "members").zipIdx.flatMap fun (value, index) =>
    capabilityProblem (pinnedMember value) (memberLabel value index)

/-- Every member's capabilities are sorted. -/
def CapabilitiesSorted (doc : Json) : Prop :=
  ∀ member ∈ pinnedMembers doc, member.capabilities.Pairwise textOrder

instance : Std.Total textOrder := ⟨fun a b => le_total (codeUnits a) (codeUnits b)⟩

instance : IsTrans String textOrder := ⟨fun _ _ _ hab hbc => le_trans hab hbc⟩

/-- A list is sorted exactly when sorting leaves it as it is. -/
theorem sortTexts_eq_self_iff {texts : List String} :
    sortTexts texts = texts ↔ texts.Pairwise textOrder := by
  refine ⟨fun h => ?_, List.Pairwise.insertionSort_eq⟩
  rw [← h]
  exact List.pairwise_insertionSort textOrder texts

/-- The capabilities are reported exactly when they are out of order. -/
theorem capabilityLines_eq_nil {doc : Json} :
    capabilityLines doc = [] ↔ CapabilitiesSorted doc := by
  simp only [capabilityLines, capabilityProblem, List.flatMap_eq_nil_iff, problem_eq_nil,
    beq_iff_eq, sortTexts_eq_self_iff]
  rw [forall_mem_zipIdx (P := fun value => (pinnedMember value).capabilities.Pairwise textOrder),
    CapabilitiesSorted, pinnedMembers, List.forall_mem_map]

/-- Over members in order the loop lists the lines about capabilities. -/
theorem orderProblems_of_ordered {previous : Option PinnedMember} {members : List (Json × ℕ)}
    (h : (previous.toList.map (·.address) ++
      members.map fun entry => (pinnedMember entry.1).address).Pairwise (· < ·)) :
    orderProblems previous members = members.flatMap fun (value, index) =>
      capabilityProblem (pinnedMember value) (memberLabel value index) := by
  induction members generalizing previous with
  | nil => rfl
  | cons entry rest ih =>
    obtain ⟨value, index⟩ := entry
    have horder : orderProblem previous (pinnedMember value) (memberLabel value index) = [] := by
      rw [orderProblem, problem_eq_nil]
      cases previous with
      | none => rfl
      | some previous => simpa using List.rel_of_pairwise_cons h List.mem_cons_self
    rw [orderProblems, horder, List.nil_append, List.flatMap_cons, ih]
    exact (List.pairwise_append.mp h).2.1

/-- Members without a problem of order are in the canonical order. -/
theorem ordered_of_orderProblems {previous : Option PinnedMember} {members : List (Json × ℕ)}
    (h : orderProblems previous members = []) :
    isCanonicalAddressOrder (previous.toList.map (·.address) ++
      members.map fun entry => (pinnedMember entry.1).address) = true := by
  induction members generalizing previous with
  | nil => cases previous <;> rfl
  | cons entry rest ih =>
    obtain ⟨value, index⟩ := entry
    rw [orderProblems, List.append_eq_nil_iff, List.append_eq_nil_iff] at h
    have hrest := ih h.2
    cases previous with
    | none => simpa using hrest
    | some previous =>
      have hlt : previous.address < (pinnedMember value).address := by
        simpa [orderProblem] using h.1.1
      simpa [isCanonicalAddressOrder, hlt] using hrest

/-- The addresses of the members, as both validators read them. -/
theorem map_pinnedAddress (doc : Json) :
    ((itemsAt doc "members").zipIdx.map fun entry => (pinnedMember entry.1).address) =
      (pinnedMembers doc).map (·.address) := by
  conv_rhs => rw [pinnedMembers, ← List.zipIdx_map_fst 0 (itemsAt doc "members")]
  rw [List.map_map, List.map_map]
  rfl

/-! ### Agreement -/

/-- The members of a well-formed document have good profiles. -/
theorem WellFormedDocument.goodProfiles {doc : Json} (h : WellFormedDocument doc) :
    ∀ node ∈ (pinnedMembers doc).map toRelayerNode, GoodProfile node := by
  rw [pinnedMembers, List.map_map]
  exact List.forall_mem_map.mpr fun member hmember => (h.members member hmember).goodProfile

/-- The fingerprint of a well-formed document can be computed. -/
theorem WellFormedDocument.fingerprint_eq {hashes : Hashes} {doc : Json}
    (h : WellFormedDocument doc) :
    computeTopologyFingerprint hashes ((pinnedMembers doc).map toRelayerNode) =
      .ok (fingerprintOf hashes ((pinnedMembers doc).map toRelayerNode)) :=
  exists_fingerprint _ _ fun node hnode => (h.goodProfiles node hnode).address

/-- The build finds nothing about the layers when every member has its primary one. -/
theorem layerProblems_eq_nil {hashes : Hashes} {doc : Json} (h : WellFormedDocument doc) :
    (itemsAt doc "members").zipIdx.flatMap (fun (member, index) =>
        layerProblem hashes member index) = [] ↔
      ∀ member ∈ pinnedMembers doc, HasPrimaryLayer hashes member := by
  have heach : ∀ entry ∈ (itemsAt doc "members").zipIdx,
      (layerProblem hashes entry.1 entry.2 = [] ↔
        HasPrimaryLayer hashes (pinnedMember entry.1)) := by
    intro entry hentry
    exact layerProblem_eq_nil (h.members entry.1 (List.fst_mem_of_mem_zipIdx hentry))
  rw [List.flatMap_eq_nil_iff, pinnedMembers, List.forall_mem_map]
  exact (forall₂_congr heach).trans
    (forall_mem_zipIdx (P := fun member => HasPrimaryLayer hashes (pinnedMember member)))

/-- The last check of the build never fails: what it asks was asked before. -/
theorem checkWithSdkValidator_eq_ok {hashes : Hashes} {doc : Json} (h : WellFormedDocument doc)
    (hlayers : ∀ member ∈ pinnedMembers doc, HasPrimaryLayer hashes member)
    (hordered : ((pinnedMembers doc).map (·.address)).Pairwise (· < ·)) (blockNumber : ℕ) :
    checkWithSdkValidator hashes ((pinnedMembers doc).map toRelayerNode)
      (fingerprintOf hashes ((pinnedMembers doc).map toRelayerNode)) blockNumber = .ok () := by
  have hprimary : ∀ node ∈ (pinnedMembers doc).map toRelayerNode,
      node.layer = primaryLayerForRole hashes node.address node.role :=
    List.forall_mem_map.mpr hlayers
  have hgood : GoodNodes ((pinnedMembers doc).map toRelayerNode) := by
    refine ⟨fun node hnode => ⟨h.goodProfiles node hnode, ?_⟩, ?_⟩
    · rw [hprimary node hnode]
      exact primaryLayerForRole_mem hashes _ (h.goodProfiles node hnode).role
    · rw [List.map_map]
      exact hordered
  have hblock : max blockNumber 1 ≠ 0 := by omega
  rw [checkWithSdkValidator,
    (verifySelfConsistency_full_iff hgood h.fingerprint_eq hblock).mpr hprimary]
  rfl

/-- After a snapshot that boot accepts, the build looks at the order of the capabilities alone. -/
theorem validateSnapshotDocument_of_verified {hashes : Hashes} {doc : Json}
    (h : verifyPinnedSnapshot hashes doc = .ok ()) :
    validateSnapshotDocument hashes doc = requireNone (capabilityLines doc) := by
  obtain ⟨hshape, hconsistent⟩ := verifyPinnedSnapshot_eq_ok.mp h
  obtain ⟨hlayers, hordered, hcount, hfingerprint⟩ := hconsistent
  have hclaimed : fingerprintOf hashes ((pinnedMembers doc).map toRelayerNode) =
      textAt doc "fingerprint" := by
    rw [hshape.fingerprint_eq] at hfingerprint
    exact Except.ok.inj hfingerprint
  have horder : orderProblems none (itemsAt doc "members").zipIdx = capabilityLines doc :=
    orderProblems_of_ordered (by simpa [map_pinnedAddress] using hordered)
  have hlast := checkWithSdkValidator_eq_ok hshape hlayers hordered
    (integerAt doc "blockNumber").toNat
  simp only [validateSnapshotDocument, requireNone_eq_ok.mpr
    (snapshotShapeProblems_eq_nil.mpr hshape), ok_bind, hcount, problem_eq_nil.mpr
    (beq_self_eq_true _), List.nil_append, horder, hshape.fingerprint_eq, Except.mapError,
    hclaimed, (layerProblems_eq_nil hshape).mpr hlayers]
  rw [hclaimed] at hlast
  cases hlines : requireNone (capabilityLines doc) with
  | error e => rfl
  | ok _ => simp [requireNone, hlast]

/-- What the build accepts has everything that boot asks for. -/
theorem verified_of_validateSnapshotDocument {hashes : Hashes} {doc : Json}
    (h : validateSnapshotDocument hashes doc = .ok ()) :
    verifyPinnedSnapshot hashes doc = .ok () := by
  rw [validateSnapshotDocument, check_bind_eq_ok, requireNone_eq_ok,
    snapshotShapeProblems_eq_nil] at h
  obtain ⟨hshape, h⟩ := h
  simp only [check_bind_eq_ok, requireNone_eq_ok, List.append_eq_nil_iff, problem_eq_nil,
    beq_iff_eq, hshape.fingerprint_eq, Except.mapError, ok_bind, layerProblems_eq_nil hshape] at h
  obtain ⟨⟨hcount, horder⟩, ⟨hclaimed, hlayers⟩, -⟩ := h
  have hordered := isCanonicalAddressOrder_iff.mp (ordered_of_orderProblems horder)
  refine verifyPinnedSnapshot_eq_ok.mpr ⟨hshape, hlayers, ?_, hcount.symm, ?_⟩
  · simpa [map_pinnedAddress] using hordered
  · rw [hshape.fingerprint_eq, hclaimed]

/-- The build accepts a value exactly when boot accepts it and the capabilities of every member
are sorted. So a boot with a snapshot that passed the build goes on to its other checks, and where
boot accepts what the build refuses, the refusal lists the members whose capabilities are not
sorted and nothing else.

Each of the two validators is brought into the form of one description of a document, field by
field. The descriptions are the same but for the order of the capabilities, which only the build
looks at. -/
theorem validateSnapshotDocument_iff_verifyPinnedSnapshot (hashes : Hashes) (doc : Json) :
    (validateSnapshotDocument hashes doc = .ok () ↔
      CapabilitiesSorted doc ∧ verifyPinnedSnapshot hashes doc = .ok ()) ∧
    (validateSnapshotDocument hashes doc = .ok () →
      ∀ describe others, bootCheck hashes describe doc others = others) ∧
    (verifyPinnedSnapshot hashes doc = .ok () → ¬CapabilitiesSorted doc →
      validateSnapshotDocument hashes doc = .error (invalidDocument (capabilityLines doc))) := by
  refine ⟨⟨fun h => ?_, ?_⟩, fun h describe others => ?_, fun h hunsorted => ?_⟩
  · have hverified := verified_of_validateSnapshotDocument h
    rw [validateSnapshotDocument_of_verified hverified, requireNone_eq_ok,
      capabilityLines_eq_nil] at h
    exact ⟨h, hverified⟩
  · rintro ⟨hsorted, hverified⟩
    rw [validateSnapshotDocument_of_verified hverified, requireNone_eq_ok, capabilityLines_eq_nil]
    exact hsorted
  · rw [bootCheck, verified_of_validateSnapshotDocument h]
  · rw [validateSnapshotDocument_of_verified h, requireNone,
      if_neg (mt capabilityLines_eq_nil.mp hunsorted)]

/-- A snapshot of one exit node, under hashes of no bytes. -/
private def oneExit (capabilities : List String) : Json :=
  .object [("format", .string snapshotFormat), ("chainId", .number (.integer 1)),
    ("registry", .string ("0x" ++ String.ofList (List.replicate 40 'a'))),
    ("blockNumber", .number (.integer 5)),
    ("blockHash", .string ("0x" ++ String.ofList (List.replicate 64 'b'))),
    ("fingerprint", .string (String.ofList (List.replicate 64 '0'))),
    ("relayerCount", .number (.integer 1)), ("powDifficulty", .number (.integer 0)),
    ("members", .array [.object [
      ("address", .string ("0x" ++ String.ofList (List.replicate 40 '1'))),
      ("sphinxKey", .string (String.ofList (List.replicate 64 '5'))),
      ("url", .string "node"), ("ingressUrl", .string ""), ("metadataUrl", .string ""),
      ("stake", .string "1000"), ("role", .number (.integer 2)), ("layer", .number (.integer 2)),
      ("status", .number (.integer 1)), ("frozen", .bool false),
      ("capabilities", .array (capabilities.map .string))]])]

private def emptyHashes : Hashes := ⟨fun _ => [], fun _ => []⟩

example : verifyPinnedSnapshot emptyHashes (oneExit ["surb", "dns"]) = .ok () := by
  decide +kernel

end NoxSdk.Snapshot
