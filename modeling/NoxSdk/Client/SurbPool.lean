import NoxSdk.Client.Planners
import NoxSdk.Lib.OrderedMap
import Mathlib.Data.List.DropRight

/-!
# Reply blocks and the items that answer them

The registry of `SurbPool`, and the two parsers of the ID of a claimed item: `surbIdOfItem`, after
which the claim scheduler acks the item, and `parseSurbIdFromPacketId`, after which the client
decrypts it. They agree on an ID with a `-` whose part after the last one has no capital letter
(`parseSurbIdFromPacketId_eq_some_iff`).

The WASM module is a parameter: what `decrypt_surb_response` gives for a recovery and a body, and
nothing where it or `from_json` throws.
-/

namespace NoxSdk.Js

/-- `s.slice(s.lastIndexOf(sep) + 1)`. -/
def afterLast (sep : Char) (s : String) : String :=
  String.ofList (s.toList.rtakeWhile (· ≠ sep))

theorem afterLast_eq_self {sep : Char} {s : String} (h : sep ∉ s.toList) :
    afterLast sep s = s := by
  have hall : ∀ c ∈ s.toList, decide (c ≠ sep) = true := by
    intro c hc
    exact decide_eq_true fun heq => h (heq ▸ hc)
  rw [afterLast, List.rtakeWhile_eq_self_iff.mpr hall, String.ofList_toList]

/-- A capital letter is lowered to the letter 32 places on. -/
theorem toNat_toLower (c : Char) :
    c.toLower.toNat = if c.isUpper then c.toNat + 32 else c.toNat := by
  delta Char.toLower Char.isUpper
  split_ifs with h hup hup
  · have hle : c.val.toNat ≤ 90 := UInt32.le_iff_toNat_le.mp h.2
    change (c.val + 32).toNat = c.val.toNat + 32
    rw [UInt32.toNat_add, Nat.mod_eq_of_lt]
    · rfl
    · exact lt_of_le_of_lt (Nat.add_le_add_right hle _) (by decide)
  · exact absurd (decide_eq_true h) hup
  · exact absurd (of_decide_eq_true hup) h
  · rfl

theorem toLower_eq_self_iff {c : Char} : c.toLower = c ↔ c.isUpper = false := by
  rw [← Char.toNat_inj, toNat_toLower]
  cases c.isUpper <;> simp

/-- Only a dash is lowered to a dash. -/
theorem toLower_eq_dash_iff {c : Char} : c.toLower = '-' ↔ c = '-' := by
  rw [← Char.toNat_inj, ← Char.toNat_inj, toNat_toLower]
  split_ifs with h
  · have hlarge : 65 ≤ c.toNat := UInt32.le_iff_toNat_le.mp (of_decide_eq_true h).1
    have hdash : '-'.toNat = 45 := rfl
    omega
  · rfl

theorem toLowerCase_eq_self_iff {s : String} :
    toLowerCase s = s ↔ ∀ c ∈ s.toList, c.isUpper = false := by
  have hmap : s.toList.map Char.toLower = s.toList ↔ ∀ c ∈ s.toList, c.toLower = c := by
    rw [← List.map_inj_left, List.map_id' s.toList]
  rw [toLowerCase, ← String.toList_inj, String.toList_ofList, hmap]
  exact forall₂_congr fun c _ => toLower_eq_self_iff

theorem afterLast_toLowerCase (s : String) :
    afterLast '-' (toLowerCase s) = toLowerCase (afterLast '-' s) := by
  rw [afterLast, afterLast, toLowerCase, toLowerCase, String.toList_ofList, String.toList_ofList]
  congr 1
  rw [List.rtakeWhile, List.rtakeWhile, ← List.map_reverse, List.takeWhile_map, List.map_reverse]
  simp only [Function.comp_def, ne_eq, toLower_eq_dash_iff]

end NoxSdk.Js

namespace NoxSdk.Client

/-! ### The IDs of items -/

/-- `HEX32_RE`. -/
def isHex32 (s : String) : Bool := s.toList.length == 32 && s.toList.all Js.isLowerHexDigit

/-- `surbIdOfItem`. -/
def surbIdOfItem (itemId : String) : Option String :=
  let lower := Js.toLowerCase itemId
  if isHex32 lower then some lower
  else
    let suffix := Js.afterLast '-' lower
    if isHex32 suffix then some suffix else none

/-- `parseSurbIdFromPacketId`. -/
def parseSurbIdFromPacketId (packetId : String) : Option String :=
  if '-' ∈ packetId.toList then
    let suffix := Js.afterLast '-' packetId
    if isHex32 suffix then some suffix else none
  else none

theorem not_dash_mem_of_isHex32 {s : String} (h : isHex32 s = true) : '-' ∉ s.toList := by
  intro hmem
  rw [isHex32, Bool.and_eq_true] at h
  have hdash : Js.isLowerHexDigit '-' = true := List.all_eq_true.mp h.2 _ hmem
  exact absurd hdash (by decide)

/-- The scheduler acks the lowered part after the last dash. -/
theorem surbIdOfItem_eq_some_iff {itemId s : String} :
    surbIdOfItem itemId = some s ↔
      isHex32 s = true ∧ s = Js.toLowerCase (Js.afterLast '-' itemId) := by
  have hwhole : isHex32 (Js.toLowerCase itemId) = true →
      Js.toLowerCase (Js.afterLast '-' itemId) = Js.toLowerCase itemId := by
    intro hhex
    rw [← Js.afterLast_toLowerCase, Js.afterLast_eq_self (not_dash_mem_of_isHex32 hhex)]
  rw [surbIdOfItem, Js.afterLast_toLowerCase]
  dsimp only
  split_ifs with hlower hsuffix
  · rw [hwhole hlower, Option.some_inj]
    exact ⟨fun heq => ⟨heq ▸ hlower, heq.symm⟩, fun h => h.2.symm⟩
  · rw [Option.some_inj]
    exact ⟨fun heq => ⟨heq ▸ hsuffix, heq.symm⟩, fun h => h.2.symm⟩
  · exact ⟨nofun, fun h => absurd (h.2 ▸ h.1) hsuffix⟩

/-- The client takes the part after the last dash as it is. -/
theorem parseSurbIdFromPacketId_eq_some_iff {packetId s : String} :
    parseSurbIdFromPacketId packetId = some s ↔
      '-' ∈ packetId.toList ∧ isHex32 s = true ∧ s = Js.afterLast '-' packetId := by
  rw [parseSurbIdFromPacketId]
  dsimp only
  split_ifs with hdash hsuffix
  · rw [Option.some_inj]
    exact ⟨fun heq => ⟨hdash, heq ▸ hsuffix, heq.symm⟩, fun h => h.2.2.symm⟩
  · exact ⟨nofun, fun h => absurd (h.2.2 ▸ h.2.1) hsuffix⟩
  · exact ⟨nofun, fun h => absurd h.1 hdash⟩

/-- Where the scheduler acks an ID, the client finds the same one in an item ID with a dash and no
capital letter after the last one. -/
theorem parseSurbIdFromPacketId_of_surbIdOfItem {itemId s : String}
    (h : surbIdOfItem itemId = some s) : parseSurbIdFromPacketId itemId = some s ↔
      '-' ∈ itemId.toList ∧ ∀ c ∈ (Js.afterLast '-' itemId).toList, c.isUpper = false := by
  obtain ⟨hhex, hlower⟩ := surbIdOfItem_eq_some_iff.mp h
  rw [parseSurbIdFromPacketId_eq_some_iff, ← Js.toLowerCase_eq_self_iff, ← hlower]
  exact and_congr_right fun _ => and_iff_right hhex

/-! ### The pool -/

/-- `decrypt_surb_response` on a recovery of `JsSurbRecovery.from_json`. -/
structure Wasm where
  decrypt : String → Bytes → Option Bytes

/-- `SurbEntry`. -/
structure SurbEntry where
  requestId : ℕ
  recoveryJson : String
  version : Option SurbVersion
  deriving DecidableEq

/-- `SurbPool`. -/
structure SurbPool where
  registry : OrderedMap String SurbEntry

/-- A request and the plaintext of its reply. -/
structure ReplyMatch where
  requestId : ℕ
  plaintext : Bytes
  deriving DecidableEq

/-- The decryption of a body by one entry, with the check of the version byte. -/
def openReply (wasm : Wasm) (entry : SurbEntry) (body : Bytes) : Option Bytes :=
  (wasm.decrypt entry.recoveryJson body).filter fun plaintext => plaintext.head? == some 1

namespace SurbPool

variable (pool : SurbPool) (wasm : Wasm) (body : Bytes)

/-- `idsForRequest`. -/
def idsForRequest (requestId : ℕ) : List String :=
  (pool.registry.entries.filter fun e => e.2.requestId = requestId).map Prod.fst

/-- The pool without an entry. -/
def delete (idHex : String) : SurbPool := ⟨pool.registry.delete idHex⟩

/-- `decryptById`. -/
def decryptById (idHex : String) : Option (SurbPool × ReplyMatch) :=
  (pool.registry.get? idHex).bind fun entry => (openReply wasm entry body).map fun plaintext =>
    (pool.delete idHex, ⟨entry.requestId, plaintext⟩)

/-- What `matchAndDecrypt` makes of one entry. -/
def tryEntry (e : String × SurbEntry) : Option (SurbPool × ReplyMatch) :=
  if e.2.version = some .v2 then none
  else (openReply wasm e.2 body).map fun plaintext =>
    (pool.delete e.1, ⟨e.2.requestId, plaintext⟩)

/-- `matchAndDecrypt`. -/
def matchAndDecrypt : Option (SurbPool × ReplyMatch) :=
  pool.registry.entries.findSome? (pool.tryEntry wasm body)

variable {pool wasm body}

theorem decryptById_eq_some_iff {idHex : String} {found : SurbPool × ReplyMatch} :
    pool.decryptById wasm body idHex = some found ↔
      ∃ entry plaintext, pool.registry.get? idHex = some entry ∧
        openReply wasm entry body = some plaintext ∧
          found = (pool.delete idHex, ⟨entry.requestId, plaintext⟩) := by
  rw [decryptById, Option.bind_eq_some_iff]
  refine exists_congr fun entry => ?_
  rw [Option.map_eq_some_iff, ← exists_and_left]
  exact exists_congr fun plaintext => by rw [eq_comm (a := found)]

/-- The trial decryption finds an entry that is not of version 2. -/
theorem matchAndDecrypt_spec {found : SurbPool × ReplyMatch}
    (h : pool.matchAndDecrypt wasm body = some found) :
    ∃ idHex entry plaintext, pool.registry.get? idHex = some entry ∧ entry.version ≠ some .v2 ∧
      openReply wasm entry body = some plaintext ∧
        found = (pool.delete idHex, ⟨entry.requestId, plaintext⟩) := by
  obtain ⟨⟨idHex, entry⟩, hmem, htry⟩ := List.exists_of_findSome?_eq_some h
  rw [tryEntry] at htry
  split_ifs at htry with hversion
  obtain ⟨plaintext, hopen, rfl⟩ := Option.map_eq_some_iff.mp htry
  exact ⟨idHex, entry, plaintext, OrderedMap.get?_eq_some_iff.mpr hmem, hversion, hopen, rfl⟩

/-- It finds none exactly when no entry that is not of version 2 opens the body. -/
theorem matchAndDecrypt_eq_none_iff :
    pool.matchAndDecrypt wasm body = none ↔
      ∀ idHex entry, pool.registry.get? idHex = some entry → entry.version ≠ some .v2 →
        openReply wasm entry body = none := by
  rw [matchAndDecrypt, List.findSome?_eq_none_iff, Prod.forall]
  refine forall₂_congr fun idHex entry => ?_
  rw [OrderedMap.get?_eq_some_iff, tryEntry]
  refine imp_congr_right fun _ => ?_
  split_ifs with hversion
  · exact iff_of_true rfl fun hne => absurd hversion hne
  · rw [Option.map_eq_none_iff]
    exact ⟨fun hopen _ => hopen, fun h => h hversion⟩

theorem mem_idsForRequest {requestId : ℕ} {idHex : String} :
    idHex ∈ pool.idsForRequest requestId ↔
      ∃ entry, pool.registry.get? idHex = some entry ∧ entry.requestId = requestId := by
  simp [idsForRequest, OrderedMap.get?_eq_some_iff]

end SurbPool

end NoxSdk.Client
