import NoxSdk.Kps.Pinned
import NoxSdk.Topology.LiveNodes

/-!
# The check of a pinned snapshot

At boot the client reads the snapshot of its bundle as an unknown value and checks it completely
before anything routes over it: the keys, the format of each field, the order and the number of
the members, their fingerprint, and for each member the primary layer of its role.

A field is read as its type says. A reading of a value of another type is the default of the type,
and the checks stand before each use.
-/

namespace NoxSdk.Kps

open Js (Json safeBound)
open NoxSdk.Topology

/-! ### Parsed values -/

/-- `Object.keys(value)`. -/
def keysOf : Json → List String
  | .object fields => fields.map Prod.fst
  | _ => []

/-- `isPlainRecord`, of a parsed value. -/
def isPlainRecord : Json → Bool
  | .object _ => true
  | _ => false

/-- `typeof value === "string"`, and the text passes a test. -/
def isTextWith (test : String → Bool) : Option Json → Bool
  | some (.string s) => test s
  | _ => false

/-- A value with `Number.isSafeInteger`. -/
def safeInteger? : Option Json → Option ℤ
  | some (.number (.integer n)) => if isSafeInteger n then some n else none
  | _ => none

/-- One of a few small numbers. -/
def isOneOf (numbers : List ℕ) : Option Json → Bool
  | some (.number (.integer n)) => numbers.any fun (k : ℕ) => n == k
  | _ => false

/-- `typeof value === "boolean"`. -/
def isBoolean : Option Json → Bool
  | some (.bool _) => true
  | _ => false

/-- `Array.isArray(value)`, and the elements pass a test. -/
def isArrayWith (test : List Json → Bool) : Option Json → Bool
  | some (.array items) => test items
  | _ => false

/-- Equality of the elements of a `Set`: two parsed objects or arrays are never the same. -/
def sameValue : Json → Json → Bool
  | .null, .null => true
  | .bool a, .bool b => a == b
  | .number a, .number b => a == b
  | .string a, .string b => a == b
  | _, _ => false

/-- `new Set(items).size`. -/
def setSize (items : List Json) : ℕ :=
  (items.foldl (fun seen item => if seen.any (sameValue item) then seen else item :: seen)
    []).length

/-- The regular expression `^[0-9a-f]{count}$`. -/
def isLowerHex (count : ℕ) (s : String) : Bool :=
  s.toList.length == count && s.toList.all Js.isLowerHexDigit

/-- The regular expression `^0x[0-9a-f]{count}$`. -/
def isLowerHex0x (count : ℕ) (s : String) : Bool :=
  match s.toList with
  | '0' :: 'x' :: digits => digits.length == count && digits.all Js.isLowerHexDigit
  | _ => false

/-- `value.length` in a range. -/
def hasLength (min max : ℕ) (s : String) : Bool :=
  decide (min ≤ Js.length s.toList) && decide (Js.length s.toList ≤ max)

/-! ### Fields at their types -/

/-- A field of type `string`. -/
def textAt (value : Json) (key : String) : String :=
  match value.field key with
  | some (.string s) => s
  | _ => ""

/-- A field of type `number`. -/
def integerAt (value : Json) (key : String) : ℤ :=
  match value.field key with
  | some (.number (.integer n)) => n
  | _ => 0

/-- A field of type `boolean`. -/
def booleanAt (value : Json) (key : String) : Bool :=
  match value.field key with
  | some (.bool b) => b
  | _ => false

/-- A field of an array type. -/
def itemsAt (value : Json) (key : String) : List Json :=
  match value.field key with
  | some (.array items) => items
  | _ => []

/-- An element of type `string`. -/
def itemText : Json → String
  | .string s => s
  | _ => ""

/-- A value of type `PinnedMember`. -/
def pinnedMember (value : Json) : PinnedMember where
  address := textAt value "address"
  sphinxKey := textAt value "sphinxKey"
  url := textAt value "url"
  ingressUrl := textAt value "ingressUrl"
  metadataUrl := textAt value "metadataUrl"
  stake := textAt value "stake"
  role := (integerAt value "role").toNat
  layer := (integerAt value "layer").toNat
  status := (integerAt value "status").toNat
  frozen := booleanAt value "frozen"
  capabilities := (itemsAt value "capabilities").map itemText

/-- `pinned.members`. -/
def pinnedMembers (value : Json) : List PinnedMember := (itemsAt value "members").map pinnedMember

/-! ### The checks -/

/-- `PINNED_SNAPSHOT_FORMAT`. -/
def pinnedSnapshotFormat : String := "nox-anon-rpc-snapshot/1"

/-- `MAX_PINNED_MEMBERS`. -/
def maxPinnedMembers : ℕ := 256

/-- `MAX_PINNED_POW_DIFFICULTY`. -/
def maxPinnedPowDifficulty : ℕ := 16

/-- `SNAPSHOT_KEYS`. -/
def snapshotKeys : List String :=
  ["format", "chainId", "registry", "blockNumber", "blockHash", "fingerprint", "relayerCount",
    "powDifficulty", "members"]

/-- `MEMBER_KEYS`. -/
def memberKeys : List String :=
  ["address", "sphinxKey", "url", "ingressUrl", "metadataUrl", "stake", "role", "layer", "status",
    "frozen", "capabilities"]

/-- `MAX_FIELD_LENGTH`. -/
def maxFieldLength : ℕ := 256

/-- `MAX_CAPABILITIES`. -/
def maxCapabilities : ℕ := 32

/-- `MAX_CAPABILITY_LENGTH`. -/
def maxCapabilityLength : ℕ := 64

/-- `invalid`. -/
def invalid (detail : String) : Thrown :=
  .noxClientError s!"Pinned snapshot is invalid: {detail}" .topologyVerificationFailed

/-- One test of the check, with what it throws otherwise. -/
def checkThat (passed : Bool) (detail : String) : Except Thrown Unit :=
  if passed then .ok () else .error (invalid detail)

/-- `checkKeys`. -/
def checkKeys (value : Json) (keys : List String) (place : String) : Except Thrown Unit :=
  match (keysOf value).find? fun key => !keys.contains key with
  | some key => .error (invalid s!"{place} has an unknown field \"{key}\"")
  | none =>
    match keys.find? fun key => !(keysOf value).contains key with
    | some key => .error (invalid s!"{place} is missing \"{key}\"")
    | none => .ok ()

/-- `checkInteger`. -/
def checkInteger (value : Option Json) (field : String) (min max : ℤ) : Except Thrown Unit :=
  checkThat ((safeInteger? value).any fun n => decide (min ≤ n) && decide (n ≤ max))
    s!"{field} must be an integer in {min}..{max}"

/-- `checkPattern`. -/
def checkPattern (value : Option Json) (pattern : String → Bool) (field : String) :
    Except Thrown Unit :=
  checkThat (isTextWith pattern value) s!"{field} is malformed"

/-- `checkString`. -/
def checkString (value : Option Json) (field : String) (minLength : ℕ) : Except Thrown Unit :=
  checkThat (isTextWith (hasLength minLength maxFieldLength) value)
    s!"{field} must be a string of {minLength}..{maxFieldLength} characters"

/-- The test of `capabilities`. -/
def isCapabilityList (items : List Json) : Bool :=
  decide (items.length ≤ maxCapabilities) &&
    items.all (fun entry => isTextWith (hasLength 1 maxCapabilityLength) (some entry)) &&
    setSize items == items.length

/-- `checkMember`. -/
def checkMember (hashes : Hashes) (member : Json) (index : ℕ) : Except Thrown Unit := do
  let place := s!"members[{index}]"
  checkThat (isPlainRecord member) s!"{place} is not an object"
  checkKeys member memberKeys place
  checkPattern (member.field "address") (isLowerHex0x 40)
    s!"{place}.address (lowercase 0x address)"
  checkPattern (member.field "sphinxKey") (isLowerHex 64) s!"{place}.sphinxKey (64 lowercase hex)"
  checkString (member.field "url") s!"{place}.url" 1
  checkString (member.field "ingressUrl") s!"{place}.ingressUrl" 0
  checkString (member.field "metadataUrl") s!"{place}.metadataUrl" 0
  checkPattern (member.field "stake") Js.isDecimal s!"{place}.stake (decimal string)"
  checkThat (isOneOf [1, 2, 3] (member.field "role")) s!"{place}.role must be 1, 2 or 3"
  checkThat (isOneOf [0, 1, 2] (member.field "layer")) s!"{place}.layer must be 0, 1 or 2"
  let role := (pinnedMember member).role
  let layer := (pinnedMember member).layer
  checkThat ((layersForRole role).contains layer) s!"{place}.layer {layer} is outside role {role}"
  checkThat (layer == primaryLayerForRole hashes (pinnedMember member).address role)
    s!"{place}.layer {layer} is not the primary layer of role {role}"
  checkThat (isOneOf [1, 2] (member.field "status")) s!"{place}.status must be 1 or 2"
  checkThat (isBoolean (member.field "frozen")) s!"{place}.frozen must be a boolean"
  checkThat (isArrayWith isCapabilityList (member.field "capabilities"))
    (s!"{place}.capabilities must be up to {maxCapabilities} unique strings of " ++
      s!"1..{maxCapabilityLength} characters")

/-- `verifyPinnedSnapshot`. -/
def verifyPinnedSnapshot (hashes : Hashes) (value : Json) : Except Thrown Unit := do
  checkThat (isPlainRecord value) "the snapshot is not an object"
  checkKeys value snapshotKeys "snapshot"
  checkThat (isTextWith (· == pinnedSnapshotFormat) (value.field "format"))
    s!"format must be \"{pinnedSnapshotFormat}\""
  checkInteger (value.field "chainId") "chainId" 1 (safeBound - 1)
  checkPattern (value.field "registry") (isLowerHex0x 40) "registry (lowercase 0x address)"
  checkInteger (value.field "blockNumber") "blockNumber" 1 (safeBound - 1)
  checkPattern (value.field "blockHash") (isLowerHex0x 64)
    "blockHash (lowercase 0x 32-byte hash)"
  checkPattern (value.field "fingerprint") (isLowerHex 64) "fingerprint (64 lowercase hex)"
  checkInteger (value.field "relayerCount") "relayerCount" 1 maxPinnedMembers
  checkInteger (value.field "powDifficulty") "powDifficulty" 0 maxPinnedPowDifficulty
  checkThat
    (isArrayWith (fun members => decide (1 ≤ members.length ∧ members.length ≤ maxPinnedMembers))
      (value.field "members"))
    s!"members must be an array of 1..{maxPinnedMembers} members"
  (itemsAt value "members").zipIdx.forM fun (member, index) => checkMember hashes member index
  checkThat (isCanonicalAddressOrder ((pinnedMembers value).map (·.address)))
    "members must be sorted by address, ascending and without duplicates"
  let relayerCount := integerAt value "relayerCount"
  let count := (itemsAt value "members").length
  checkThat ((count : ℤ) == relayerCount)
    s!"relayerCount {relayerCount} does not match {count} members"
  let computed ← computeTopologyFingerprint hashes ((pinnedMembers value).map toRelayerNode)
  checkThat (computed == textAt value "fingerprint")
    s!"fingerprint mismatch: members hash to {computed}"

end NoxSdk.Kps
