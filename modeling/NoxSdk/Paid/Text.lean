import NoxSdk.Js
import NoxSdk.Topology.Snapshot

/-!
# Failures and hexadecimal text

The hexadecimal text that paid execution makes of bytes and words, and the texts it makes of
failures.
-/

namespace NoxSdk.Paid

open Js (isHexDigit takeUnits toLowerCase)
open NoxSdk.Topology (bytesOfDigits bytesToHex)

/-! ### Failures -/

/-- A value caught by the code: its message, the code of a `NoxClientError` and the revert data
it carries. -/
structure Failure where
  message : String
  code : Option NoxClientErrorCode
  data : Option String
  deriving DecidableEq, Repr

/-- A plain `Error`. -/
def Failure.error (message : String) : Failure := ⟨message, none, none⟩

/-- `invalid`. -/
def invalid (message : String) : Failure :=
  ⟨s!"Invalid paid execution: {message}", some .invalidConfig, none⟩

/-- `errorCode`. -/
def errorCode (failure : Failure) (fallback : String) : String :=
  match failure.code with
  | some code => code.value
  | none => fallback

/-- `\s` of a regular expression. -/
def isSpace (c : Char) : Bool :=
  c.toNat ∈ [0x9, 0xA, 0xB, 0xC, 0xD, 0x20, 0xA0, 0x1680, 0x2028, 0x2029, 0x202F, 0x205F, 0x3000,
    0xFEFF] || decide (0x2000 ≤ c.toNat ∧ c.toNat ≤ 0x200A)

/-- The text after `https?:\/\/[^\s]+` at the front, if it is there. -/
def afterUrl (cs : List Char) : Option (List Char) :=
  let afterScheme :=
    if "https://".toList.isPrefixOf cs then some (cs.drop 8)
    else if "http://".toList.isPrefixOf cs then some (cs.drop 7)
    else none
  match afterScheme with
  | none => none
  | some rest =>
    if (rest.takeWhile (!isSpace ·)).isEmpty then none else some (rest.dropWhile (!isSpace ·))

/-- `text.replace(/https?:\/\/[^\s]+/gu, "[redacted URL]")`. -/
def redactUrls (cs : List Char) : List Char :=
  scan cs.length cs
where
  /-- The replacement in at most `n` steps. -/
  scan : ℕ → List Char → List Char
    | _, [] => []
    | 0, cs => cs
    | n + 1, c :: cs =>
      match afterUrl (c :: cs) with
      | some rest => "[redacted URL]".toList ++ scan n rest
      | none => c :: scan n cs

/-- `safeExternalError`, of the message of an error or of a text. -/
def safeExternalError (message : String) : String :=
  let masked := (redactUrls message.toList).map fun c =>
    if c.toNat ≤ 0x1F ∨ c.toNat = 0x7F then '?' else c
  String.ofList (takeUnits 160 masked)

/-- `text.match(/0x[0-9a-fA-F]{8,}/gu)`. -/
def hexRuns (cs : List Char) : List String :=
  scan cs.length cs
where
  /-- The matches in at most `n` steps. -/
  scan : ℕ → List Char → List String
    | _, [] => []
    | 0, _ => []
    | n + 1, c :: cs =>
      let digits := (cs.drop 1).takeWhile isHexDigit
      if c = '0' ∧ cs.head? = some 'x' ∧ 8 ≤ digits.length then
        String.ofList ('0' :: 'x' :: digits) :: scan n (cs.drop (digits.length + 1))
      else scan n cs

/-! ### Hexadecimal text -/

/-- `hexlify`. -/
def hexlify (bytes : Bytes) : String := "0x" ++ bytesToHex bytes

/-- The text is `0x` and an even number of hexadecimal digits. -/
def isHexData (text : List Char) : Bool :=
  match text with
  | '0' :: 'x' :: digits => digits.all isHexDigit && digits.length % 2 == 0
  | _ => false

/-- `getBytes`, of hexadecimal text. -/
def getBytes (text : String) : Except Failure Bytes :=
  if isHexData text.toList then .ok (bytesOfDigits (text.toList.drop 2))
  else .error (.error "invalid BytesLike value")

theorem toList_hexlify (bytes : Bytes) : (hexlify bytes).toList = '0' :: 'x' ::
    bytes.flatMap fun b => [Nat.digitChar (b.toNat / 16), Nat.digitChar (b.toNat % 16)] := by
  rw [hexlify, bytesToHex, String.toList_append]
  exact congrArg _ (String.toList_ofList)

/-- Each of the sixteen digits is one, and is read back. -/
theorem isHexDigit_digitChar : ∀ n < 16, isHexDigit (Nat.digitChar n) = true ∧
    Js.parseDigits 16 [Nat.digitChar n] = n := by
  decide

theorem parseDigits_digitChar (b : UInt8) :
    Js.parseDigits 16 [Nat.digitChar (b.toNat / 16), Nat.digitChar (b.toNat % 16)]
      = b.toNat := by
  have hbyte := b.toNat_lt
  have hhigh := (isHexDigit_digitChar (b.toNat / 16) (by omega)).2
  have hlow := (isHexDigit_digitChar (b.toNat % 16) (by omega)).2
  simp only [Js.parseDigits, List.foldl_cons, List.foldl_nil] at hhigh hlow ⊢
  omega

theorem bytesOfDigits_flatMap (bytes : Bytes) :
    bytesOfDigits (bytes.flatMap fun b =>
      [Nat.digitChar (b.toNat / 16), Nat.digitChar (b.toNat % 16)]) = bytes := by
  induction bytes with
  | nil => rfl
  | cons b bytes ih =>
    rw [List.flatMap_cons, List.cons_append, List.cons_append, List.nil_append, bytesOfDigits, ih,
      parseDigits_digitChar, UInt8.ofNat_toNat]

/-- `getBytes` reads back what `hexlify` writes. -/
theorem getBytes_hexlify (bytes : Bytes) : getBytes (hexlify bytes) = .ok bytes := by
  have hdata : isHexData (hexlify bytes).toList = true := by
    rw [toList_hexlify, isHexData, Bool.and_eq_true]
    constructor
    · refine List.all_eq_true.mpr fun c hc => ?_
      obtain ⟨b, -, hc⟩ := List.mem_flatMap.mp hc
      have hbyte := b.toNat_lt
      rcases List.mem_cons.mp hc with rfl | hlow
      · exact (isHexDigit_digitChar _ (by omega)).1
      · rw [List.mem_singleton.mp hlow]
        exact (isHexDigit_digitChar _ (by omega)).1
    · simp [List.length_flatMap]
  rw [getBytes, if_pos hdata, toList_hexlify, List.drop_succ_cons, List.drop_succ_cons,
    List.drop_zero, bytesOfDigits_flatMap]

/-- The value of a big-endian byte string. -/
def toBigInt (bytes : Bytes) : ℕ := bytes.foldl (fun value b => value * 256 + b.toNat) 0

/-- The last `length` bytes of a big-endian integer. -/
def bigEndian : ℕ → ℕ → Bytes
  | 0, _ => []
  | length + 1, n => bigEndian length (n / 256) ++ [UInt8.ofNat (n % 256)]

/-- `getBytes(toBeHex(value, 32))`. -/
def word (value : ℕ) : Except Failure Bytes :=
  if 2 ^ 256 ≤ value then .error (.error "value exceeds width (32 bytes)")
  else .ok (bigEndian 32 value)

/-- `sameAddress`. -/
def sameAddress (left right : String) : Bool := toLowerCase left == toLowerCase right

end NoxSdk.Paid
