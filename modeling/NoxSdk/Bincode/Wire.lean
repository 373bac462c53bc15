import NoxSdk.Js
import NoxSdk.Lib.ByteReader

/-!
# Writer and Reader

The primitives of `bincode.ts`. What a `Writer` has collected is the concatenation of what its
calls wrote, so each call is the bytes it adds; a number that does not fit is truncated, as
by `DataView`. A `Reader` is a `ByteReader` whose errors are those of the class.

Beside each pair the fact a codec needs: the reader reads what the writer wrote
(`reads_u32`, `reads_bytes`, `reads_string`, …), under the bound of the wire.
-/

namespace NoxSdk.Bincode

/-! ### Writer -/

namespace Writer

/-- `u8`. -/
def u8 (v : ℕ) : Bytes := leBytes 1 v

/-- `u16`. -/
def u16 (v : ℕ) : Bytes := leBytes 2 v

/-- `u32`. -/
def u32 (v : ℕ) : Bytes := leBytes 4 v

/-- `u64`. -/
def u64 (v : ℕ) : Bytes := leBytes 8 v

/-- `bytes`: the length, then the bytes. -/
def bytes (v : Bytes) : Bytes := u64 v.length ++ v

/-- `fixedBytes`. -/
def fixedBytes (v : Bytes) : Bytes := v

/-- `string`. -/
def string (v : String) : Bytes := bytes (Js.textEncode v)

/-- `optString`. -/
def optString : Option String → Bytes
  | none => u8 0
  | some v => u8 1 ++ string v

end Writer

/-! ### Reader -/

/-- `Reader`. -/
abbrev Reader (α : Type) := ByteReader Thrown α

/-- The error of `ensure` for `n` missing bytes. -/
def unexpectedEnd (n : ℕ) (pos len : ℕ) : Thrown :=
  let need := Js.numberText n
  .noxClientError
    s!"Unexpected end of payload at offset {pos} (need {need} more bytes, have {len - pos})"
    .decryptionFailed

namespace Reader

/-- A number of `width` bytes. -/
def num (width : ℕ) : Reader ℕ := do
  let raw ← ByteReader.slice (unexpectedEnd width) width
  return leValue raw

/-- `u8`. -/
def u8 : Reader ℕ := num 1

/-- `u16`. -/
def u16 : Reader ℕ := num 2

/-- `u32`. -/
def u32 : Reader ℕ := num 4

/-- `u64`. -/
def u64 : Reader ℕ := num 8

/-- `fixedBytes`. -/
def fixedBytes (n : ℕ) : Reader Bytes := ByteReader.slice (unexpectedEnd n) n

/-- `bytes`. -/
def bytes : Reader Bytes := do
  let len ← u64
  fixedBytes (Js.number len)

/-- `string`. -/
def string : Reader String := do
  let raw ← bytes
  return Js.textDecode raw

/-- `optString`: every tag but `0` announces a string. -/
def optString : Reader (Option String) := do
  let tag ← u8
  if tag = 0 then return none
  else do
    let v ← string
    return some v

/-- `bool`. -/
def bool : Reader Bool := do
  let v ← u8
  if v > 1 then
    ByteReader.fail fun pos =>
      .noxClientError s!"Invalid bool byte {v} at offset {pos - 1}" .decryptionFailed
  else return decide (v = 1)

/-- `option`. -/
def option {α : Type} (read : Reader α) : Reader (Option α) := do
  let tag ← u8
  if tag > 1 then
    ByteReader.fail fun pos =>
      .noxClientError s!"Invalid option tag {tag} at offset {pos - 1}" .decryptionFailed
  else if tag = 0 then return none
  else do
    let v ← read
    return some v

end Reader

/-! ### A reader reads what the writer wrote -/

theorem reads_num {width v : ℕ} (h : v < 256 ^ width) :
    Reads (Reader.num width) (leBytes width v) v := by
  have hraw : Reads (ByteReader.slice (unexpectedEnd width) width) (leBytes width v)
      (leBytes width v) := Reads.slice (length_leBytes width v)
  have hread := hraw.bind_pure leValue
  rwa [leValue_leBytes_of_lt h] at hread

theorem reads_u8 {v : ℕ} (h : v < 2 ^ 8) : Reads Reader.u8 (Writer.u8 v) v := reads_num h

theorem reads_u16 {v : ℕ} (h : v < 2 ^ 16) : Reads Reader.u16 (Writer.u16 v) v := reads_num h

theorem reads_u32 {v : ℕ} (h : v < 2 ^ 32) : Reads Reader.u32 (Writer.u32 v) v := reads_num h

theorem reads_u64 {v : ℕ} (h : v < 2 ^ 64) : Reads Reader.u64 (Writer.u64 v) v := reads_num h

theorem reads_fixedBytes {v : Bytes} {n : ℕ} (h : v.length = n) :
    Reads (Reader.fixedBytes n) (Writer.fixedBytes v) v := Reads.slice h

theorem reads_bytes {v : Bytes} (h : Js.FitsArray v) :
    Reads Reader.bytes (Writer.bytes v) v := by
  have hlen : v.length < 2 ^ 64 := lt_trans h (by decide)
  refine (reads_u64 hlen).bind ?_
  rw [Js.number_of_safe h]
  exact reads_fixedBytes rfl

theorem reads_string {v : String} (h : Js.FitsArray (Js.textEncode v)) (hmark : Js.NoMark v) :
    Reads Reader.string (Writer.string v) v := by
  have hread := (reads_bytes h).bind_pure Js.textDecode
  rwa [Js.textDecode_textEncode hmark] at hread

theorem reads_optString {o : Option String}
    (h : ∀ v ∈ o, Js.FitsArray (Js.textEncode v) ∧ Js.NoMark v) :
    Reads Reader.optString (Writer.optString o) o := by
  cases o with
  | none =>
    refine (reads_u8 (v := 0) (by decide)).bind_nil ?_
    rw [if_pos rfl]
    exact Reads.pure none
  | some v =>
    refine (reads_u8 (v := 1) (by decide)).bind ?_
    rw [if_neg (by decide)]
    exact (reads_string (h v rfl).1 (h v rfl).2).bind_pure some

theorem reads_bool (b : Bool) : Reads Reader.bool (Writer.u8 (if b then 1 else 0)) b := by
  cases b with
  | false =>
    refine (reads_u8 (v := 0) (by decide)).bind_nil ?_
    rw [if_neg (by decide)]
    exact Reads.pure false
  | true =>
    refine (reads_u8 (v := 1) (by decide)).bind_nil ?_
    rw [if_neg (by decide)]
    exact Reads.pure true

theorem reads_option_none {α : Type} (p : Reader α) :
    Reads (Reader.option p) (Writer.u8 0) none := by
  refine (reads_u8 (v := 0) (by decide)).bind_nil ?_
  rw [if_neg (by decide), if_pos rfl]
  exact Reads.pure none

theorem reads_option_some {α : Type} {p : Reader α} {enc : Bytes} {a : α} (h : Reads p enc a) :
    Reads (Reader.option p) (Writer.u8 1 ++ enc) (some a) := by
  refine (reads_u8 (v := 1) (by decide)).bind ?_
  rw [if_neg (by decide), if_neg (by decide)]
  exact h.bind_pure some

end NoxSdk.Bincode
