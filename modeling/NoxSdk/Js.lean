import NoxSdk.Types
import Mathlib.Algebra.Order.Ring.Nat
import Mathlib.Data.List.Dedup
import Mathlib.Data.Nat.Log

/-!
# Pieces of the language

What the client uses of its language and has no counterpart in Lean: the conversion of a `bigint`
to a `number`, the text of such a number, and UTF-8 as `TextEncoder` and `TextDecoder` see
it. A well-formed string is a `String`.

The decoder is the state machine of the encoding standard: a byte that cannot continue a
character ends it with a replacement character and is looked at again, and a byte order mark at
the front is dropped. `textDecode_textEncode` says that a string that does not start with that
mark is decoded to itself.
-/

namespace NoxSdk.Js

/-! ### Numbers -/

/-- `Number.MAX_SAFE_INTEGER + 1`. -/
def safeBound : ℕ := 2 ^ 53

/-- `Number(n)`: the nearest double, the even one of two. -/
def number (n : ℕ) : ℕ :=
  if n < safeBound then n
  else
    let ulp := 2 ^ (Nat.log 2 n - 52)
    let quotient := n / ulp
    let up := decide (ulp < 2 * (n % ulp) ∨ ulp = 2 * (n % ulp) ∧ quotient % 2 = 1)
    (if up then quotient + 1 else quotient) * ulp

theorem number_of_safe {n : ℕ} (h : n < safeBound) : number n = n := if_pos h

/-- Only a safe integer converts to a safe integer. -/
theorem number_of_number_lt {n : ℕ} (h : number n < safeBound) : number n = n := by
  by_contra hne
  have hlarge : safeBound ≤ n := by
    by_contra hsmall
    exact hne (number_of_safe (not_le.mp hsmall))
  have hlog : 53 ≤ Nat.log 2 n := Nat.le_log_of_pow_le (by decide) hlarge
  rw [number, if_neg (not_lt.mpr hlarge)] at h
  -- the quotient has 53 bits, so it is at least `2 ^ 52` units
  have hquotient : 2 ^ 52 ≤ n / 2 ^ (Nat.log 2 n - 52) := by
    rw [Nat.le_div_iff_mul_le (Nat.two_pow_pos _), ← pow_add, Nat.add_sub_cancel' (by omega)]
    exact Nat.pow_log_le_self 2 (by omega)
  have hulp : 2 ^ 1 ≤ 2 ^ (Nat.log 2 n - 52) := Nat.pow_le_pow_right (by decide) (by omega)
  refine absurd h (not_lt.mpr ?_)
  calc safeBound = 2 ^ 52 * 2 ^ 1 := rfl
    _ ≤ _ := Nat.mul_le_mul (hquotient.trans (by split_ifs <;> omega)) hulp

/-- A number rounded to its `k` leading decimal digits. -/
def roundToDigits (n k : ℕ) : ℕ :=
  let unit := 10 ^ (Nat.log 10 n + 1 - k)
  (n + unit / 2) / unit * unit

/-- `String(x)` for a double below `10 ^ 21` without fraction: the fewest digits that denote
it. -/
def numberText (n : ℕ) : String :=
  if n < safeBound then toString n
  else
    match (List.range' 1 17).find? fun k => number (roundToDigits n k) = n with
    | some k => toString (roundToDigits n k)
    | none => toString n

/-- The length of a typed array is a safe integer. -/
def FitsArray (v : Bytes) : Prop := v.length < safeBound

instance (v : Bytes) : Decidable (FitsArray v) := inferInstanceAs (Decidable (_ < _))

/-! ### Strings -/

/-- `s.toLowerCase()` on the letters of ASCII. The client compares what it lowers with
hexadecimal text, which no other letter turns into. -/
def toLowerCase (s : String) : String := String.ofList (s.toList.map Char.toLower)

/-- `s.length`: the code units of UTF-16. -/
def length (s : List Char) : ℕ := (s.map fun c => if c.toNat < 0x10000 then 1 else 2).sum

theorem length_eq {s : List Char} (h : ∀ c ∈ s, c.toNat < 0x10000) : length s = s.length := by
  induction s with
  | nil => rfl
  | cons c cs ih =>
    have hcs := ih fun c' hc' => h c' (List.mem_cons_of_mem _ hc')
    rw [length] at hcs ⊢
    rw [List.map_cons, List.sum_cons, hcs, if_pos (h c List.mem_cons_self), List.length_cons,
      Nat.add_comm]

/-- The characters that fit in the first `n` code units. -/
def takeUnits : ℕ → List Char → List Char
  | _, [] => []
  | n, c :: cs => if length [c] ≤ n then c :: takeUnits (n - length [c]) cs else []

/-- The text before the first `sep` and the text after it, as `indexOf` and two `slice` find
them. -/
def splitAtFirst (sep : Char) : List Char → Option (List Char × List Char)
  | [] => none
  | c :: cs =>
    if c = sep then some ([], cs) else (splitAtFirst sep cs).map fun p => (c :: p.1, p.2)

/-- A character of `[0-9a-f]`. -/
def isLowerHexDigit (c : Char) : Bool := c.isDigit || decide ('a' ≤ c ∧ c ≤ 'f')

/-- A character of `[0-9a-fA-F]`. -/
def isHexDigit (c : Char) : Bool := isLowerHexDigit c || decide ('A' ≤ c ∧ c ≤ 'F')

theorem toNat_lt_of_isHexDigit {c : Char} (h : isHexDigit c = true) : c.toNat < 0x80 := by
  simp only [isHexDigit, isLowerHexDigit, Char.isDigit, Bool.or_eq_true, Bool.and_eq_true,
    decide_eq_true_eq, Char.le_def, UInt32.le_iff_toNat_le] at h
  change c.val.toNat < 0x80
  rcases h with (⟨-, h⟩ | ⟨-, h⟩) | ⟨-, h⟩
  all_goals exact lt_of_le_of_lt h (by decide)

/-- The regular expression `^(?:0|[1-9][0-9]*)$`. -/
def isDecimal (s : String) : Bool :=
  match s.toList with
  | [] => false
  | ['0'] => true
  | c :: cs => decide (c ≠ '0') && (c :: cs).all Char.isDigit

/-- The value of digits in base `base`, most significant first. -/
def parseDigits (base : ℕ) (digits : List Char) : ℕ :=
  digits.foldl (fun value c => value * base + digit c) 0
where
  /-- The value of one digit. -/
  digit (c : Char) : ℕ :=
    if c.isDigit then c.toNat - '0'.toNat else 10 + (c.toLower.toNat - 'a'.toNat)

/-- `parts.join(sep)`. -/
def join (sep : Char) (parts : List String) : String :=
  String.ofList ([sep].intercalate (parts.map String.toList))

/-- `s.split(sep)`. -/
def split (sep : Char) (s : String) : List String := (s.toList.splitOn sep).map String.ofList

/-- A joined text is split at the separator into its parts when these do not hold it. -/
theorem split_join {sep : Char} {parts : List String} (h : ∀ s ∈ parts, sep ∉ s.toList)
    (hne : parts ≠ []) : split sep (join sep parts) = parts := by
  rw [split, join, String.toList_ofList, List.splitOn_intercalate sep (by simpa using h)
    (by simpa using hne), List.map_map]
  exact (List.map_congr_left fun s _ => String.ofList_toList).trans (List.map_id _)

/-- A joined text holds the separator and the characters of its parts. -/
theorem mem_join {sep c : Char} {parts : List String} (h : c ∈ (join sep parts).toList) :
    c = sep ∨ ∃ part ∈ parts, c ∈ part.toList := by
  rw [join, String.toList_ofList] at h
  induction parts with
  | nil => cases h
  | cons part parts ih =>
    cases parts with
    | nil => exact .inr ⟨part, List.mem_cons_self, by simpa using h⟩
    | cons next rest =>
      rw [List.map_cons, List.map_cons, List.intercalate_cons_cons, List.mem_append,
        List.mem_append] at h
      rcases h with (hpart | hsep) | hrest
      · exact .inr ⟨part, List.mem_cons_self, hpart⟩
      · exact .inl (List.mem_singleton.mp hsep)
      · refine (ih hrest).imp_right ?_
        rintro ⟨other, hother, hc⟩
        exact ⟨other, List.mem_cons_of_mem _ hother, hc⟩

/-- `[...new Set(items)]`: each item where it first occurs. -/
def unique {α : Type*} [DecidableEq α] (items : List α) : List α := items.reverse.dedup.reverse

theorem nodup_unique {α : Type*} [DecidableEq α] (items : List α) : (unique items).Nodup :=
  List.nodup_reverse.mpr (List.nodup_dedup _)

/-! ### JSON values -/

/-- A number in a JSON value: an integer, or another double by its text. -/
inductive JsonNumber
  | integer (n : ℤ)
  | decimal (text : String)
  deriving DecidableEq

/-- What `JSON.parse` returns. The fields of an object have different keys. -/
inductive Json
  | null
  | bool (b : Bool)
  | number (n : JsonNumber)
  | string (s : String)
  | array (items : List Json)
  | object (fields : List (String × Json))

namespace Json

/-- `String(n)`. -/
def numberText : JsonNumber → String
  | .integer n => toString n
  | .decimal text => text

mutual

/-- `String(value)`. -/
def text : Json → String
  | null => "null"
  | bool b => if b then "true" else "false"
  | number n => numberText n
  | string s => s
  | array items => ",".intercalate (elementTexts items)
  | object _ => "[object Object]"

/-- The texts of the elements of an array. -/
def elementTexts : List Json → List String
  | [] => []
  | null :: rest => "" :: elementTexts rest
  | item :: rest => item.text :: elementTexts rest

end

/-- A field of an object; other values have none. -/
def field (value : Json) (key : String) : Option Json :=
  match value with
  | object fields => fields.lookup key
  | _ => none

end Json

/-! ### Text -/

/-- `new TextEncoder().encode(text)`. -/
def textEncode (text : String) : Bytes := text.toList.flatMap String.utf8EncodeChar

/-- U+FFFD. -/
def replacementChar : Char := '\uFFFD'

/-- U+FEFF. -/
def byteOrderMark : Char := '\uFEFF'

/-- The state of the UTF-8 decoder: the bytes still needed, the code point so far and the bounds
of the next byte. -/
structure Utf8State where
  needed : ℕ
  point : ℕ
  lower : ℕ
  upper : ℕ

namespace Utf8State

/-- Between two characters. -/
def start : Utf8State := ⟨0, 0, 0x80, 0xBF⟩

/-- The first byte of a character. -/
def first (b : ℕ) : List Char × Utf8State :=
  if b ≤ 0x7F then ([Char.ofNat b], start)
  else if 0xC2 ≤ b ∧ b ≤ 0xDF then ([], ⟨1, b % 32, 0x80, 0xBF⟩)
  else if 0xE0 ≤ b ∧ b ≤ 0xEF then
    ([], ⟨2, b % 16, if b = 0xE0 then 0xA0 else 0x80, if b = 0xED then 0x9F else 0xBF⟩)
  else if 0xF0 ≤ b ∧ b ≤ 0xF4 then
    ([], ⟨3, b % 8, if b = 0xF0 then 0x90 else 0x80, if b = 0xF4 then 0x8F else 0xBF⟩)
  else ([replacementChar], start)

/-- One byte: the characters it completes and the next state. -/
def step (s : Utf8State) (b : ℕ) : List Char × Utf8State :=
  if s.needed = 0 then first b
  else if b < s.lower ∨ s.upper < b then
    (replacementChar :: (first b).1, (first b).2)
  else if s.needed = 1 then ([Char.ofNat (s.point * 64 + b % 64)], start)
  else ([], ⟨s.needed - 1, s.point * 64 + b % 64, 0x80, 0xBF⟩)

/-- The characters of the rest of the input. -/
def decode (s : Utf8State) : Bytes → List Char
  | [] => if s.needed = 0 then [] else [replacementChar]
  | b :: bs => (s.step b.toNat).1 ++ (s.step b.toNat).2.decode bs

end Utf8State

/-- `new TextDecoder().decode(bytes)`. -/
def textDecode (bytes : Bytes) : String :=
  match Utf8State.start.decode bytes with
  | [] => ""
  | c :: cs => if c = byteOrderMark then String.ofList cs else String.ofList (c :: cs)

/-- The string does not start with a byte order mark. -/
def NoMark (text : String) : Prop := text.toList.head? ≠ some byteOrderMark

instance (text : String) : Decidable (NoMark text) := inferInstanceAs (Decidable (¬ _ = _))

/-! ### Decoding an encoding -/

private theorem decode_ofNat (s : Utf8State) {n : ℕ} (h : n < 256) (bs : Bytes) :
    s.decode (UInt8.ofNat n :: bs) = (s.step n).1 ++ (s.step n).2.decode bs := by
  rw [Utf8State.decode, UInt8.toNat_ofNat', Nat.mod_eq_of_lt h]

private theorem step_next {needed point lower upper n : ℕ} (hlower : lower ≤ n)
    (hupper : n ≤ upper) :
    Utf8State.step ⟨needed + 2, point, lower, upper⟩ n
      = ([], ⟨needed + 1, point * 64 + n % 64, 0x80, 0xBF⟩) := by
  rw [Utf8State.step, if_neg (by simp), if_neg (by simp only; omega), if_neg (by simp)]
  rfl

private theorem step_last {point lower upper n : ℕ} (hlower : lower ≤ n) (hupper : n ≤ upper) :
    Utf8State.step ⟨1, point, lower, upper⟩ n
      = ([Char.ofNat (point * 64 + n % 64)], Utf8State.start) := by
  rw [Utf8State.step, if_neg (by simp), if_neg (by simp only; omega), if_pos rfl]

/-- The bytes of a character decode to it. -/
theorem decode_utf8EncodeChar (c : Char) (bs : Bytes) :
    Utf8State.start.decode (String.utf8EncodeChar c ++ bs)
      = c :: Utf8State.start.decode bs := by
  have hvalid : c.toNat < 0xD800 ∨ 0xDFFF < c.toNat ∧ c.toNat < 0x110000 := c.valid
  have hchar : ∀ n, n = c.toNat → Char.ofNat n = c := fun n hn => by rw [hn, Char.ofNat_toNat]
  have hfirst : ∀ n, Utf8State.start.step n = Utf8State.first n := fun n => if_pos rfl
  simp only [String.utf8EncodeChar, show c.val.toNat = c.toNat from rfl]
  generalize c.toNat = v at hvalid hchar
  split_ifs with h1 h2 h3
  · rw [List.singleton_append, decode_ofNat _ (by omega), hfirst, Utf8State.first, if_pos h1,
      hchar v rfl]
    rfl
  · rw [List.cons_append, List.singleton_append, decode_ofNat _ (by omega), hfirst,
      Utf8State.first, if_neg (by omega), if_pos (by omega), decode_ofNat _ (by omega),
      step_last (by omega) (by omega), hchar _ (by omega)]
    rfl
  · rw [List.cons_append, List.cons_append, List.singleton_append, decode_ofNat _ (by omega),
      hfirst, Utf8State.first, if_neg (by omega), if_neg (by omega), if_pos (by omega),
      decode_ofNat _ (by omega), step_next (by split_ifs <;> omega) (by split_ifs <;> omega),
      decode_ofNat _ (by omega), step_last (by omega) (by omega), hchar _ (by omega)]
    rfl
  · rw [List.cons_append, List.cons_append, List.cons_append, List.singleton_append,
      decode_ofNat _ (by omega), hfirst, Utf8State.first, if_neg (by omega), if_neg (by omega),
      if_neg (by omega), if_pos (by omega), decode_ofNat _ (by omega),
      step_next (by split_ifs <;> omega) (by split_ifs <;> omega), decode_ofNat _ (by omega),
      step_next (by omega) (by omega), decode_ofNat _ (by omega),
      step_last (by omega) (by omega), hchar _ (by omega)]
    rfl

theorem decode_flatMap_utf8EncodeChar (cs : List Char) :
    Utf8State.start.decode (cs.flatMap String.utf8EncodeChar) = cs := by
  induction cs with
  | nil => rfl
  | cons c cs ih => rw [List.flatMap_cons, decode_utf8EncodeChar, ih]

/-- A string without a mark in front is decoded to itself. -/
theorem textDecode_textEncode {text : String} (h : NoMark text) :
    textDecode (textEncode text) = text := by
  rw [textDecode, textEncode, decode_flatMap_utf8EncodeChar]
  rw [NoMark] at h
  cases hcs : text.toList with
  | nil => rw [← String.ofList_toList (s := text), hcs]
  | cons c cs =>
    rw [hcs, List.head?_cons, ne_eq, Option.some_inj] at h
    simp only [if_neg h, ← hcs, String.ofList_toList]

end NoxSdk.Js
