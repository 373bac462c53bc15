import NoxSdk.Types
import Mathlib.Data.List.Nodup

/-!
# Base64 claim items

`decodeBase64` of `transport.ts`. A string is the list of its UTF-16 code units, which the code
indexes. The outer loop goes over groups of four units, the inner one over the units of a group,
and the bytes of a group are written as long as the output is not full; the three counters of the
code are `j`, the length of what is written and the length of the output.

`Base64Decodes` is the grammar of RFC 4648 section 4 with the bytes a text stands for. The decoder
accepts it and nothing else (`decodeBase64_eq_some_iff`), the standard encoding among it.
-/

namespace NoxSdk.Transport

/-- The UTF-16 code units of a string. -/
abbrev Units := List UInt16

/-- `"="`. -/
def padUnit : UInt16 := 61

/-- `BASE64_ALPHABET`. -/
def base64Alphabet : Units :=
  "ABCDEFGHIJKLMNOPQRSTUVWXYZabcdefghijklmnopqrstuvwxyz0123456789+/".toList.map
    fun c => UInt16.ofNat c.toNat

/-- `BASE64_VALUES.get(unit)`. -/
def base64Value (unit : UInt16) : Option ℕ := base64Alphabet.idxOf? unit

/-- `text.endsWith(suffix)`. -/
def endsWith (text suffix : Units) : Bool :=
  decide (text.drop (text.length - suffix.length) = suffix)

/-- `padding`. -/
def paddingOf (text : Units) : ℕ :=
  if endsWith text [padUnit, padUnit] then 2 else if endsWith text [padUnit] then 1 else 0

/-- The loop over the units of a group, from unit `j` on. -/
def readWord (last : Bool) (padding : ℕ) : ℕ → Units → ℕ → Option ℕ
  | _, [], word => some word
  | j, unit :: units, word =>
    if unit = padUnit ∧ last ∧ 4 - padding ≤ j then
      readWord last padding (j + 1) units (word <<< 6)
    else match base64Value unit with
      | none => none
      | some value => readWord last padding (j + 1) units (word <<< 6 ||| value)

/-- The loop that writes the bytes of a group behind those that are written. -/
def writeWord (outLength word : ℕ) (out : Bytes) : Bytes :=
  [16, 8, 0].foldl (fun out shift =>
    if out.length < outLength then out ++ [UInt8.ofNat (word >>> shift)] else out) out

/-- The loop over the groups. -/
def decodeGroups (padding outLength : ℕ) : Units → Bytes → Option Bytes
  | a :: b :: c :: d :: rest, out =>
    match readWord rest.isEmpty padding 0 [a, b, c, d] 0 with
    | none => none
    | some word => decodeGroups padding outLength rest (writeWord outLength word out)
  | _, out => some out

/-- `decodeBase64`; what is not written of the output is zero. -/
def decodeBase64 (text : Units) : Option Bytes :=
  if text.length % 4 ≠ 0 then none
  else
    let outLength := text.length / 4 * 3 - paddingOf text
    (decodeGroups (paddingOf text) outLength text []).map fun out =>
      out ++ List.replicate (outLength - out.length) 0

/-! ### The grammar -/

/-- The unit stands for this value. -/
def IsLetter (unit : UInt16) (value : ℕ) : Prop := base64Alphabet[value]? = some unit

/-- The bytes of a group of four values. -/
def groupBytes (a b c d : ℕ) : Bytes :=
  [UInt8.ofNat (a * 4 + b / 16), UInt8.ofNat (b % 16 * 16 + c / 4), UInt8.ofNat (c % 4 * 64 + d)]

/-- Groups over the alphabet, of which the last may end in one or two pads, and their bytes. -/
inductive Base64Decodes : Units → Bytes → Prop
  | nil : Base64Decodes [] []
  | group {ua ub uc ud : UInt16} {a b c d : ℕ} {rest : Units} {bytes : Bytes} :
    IsLetter ua a → IsLetter ub b → IsLetter uc c → IsLetter ud d → Base64Decodes rest bytes →
    Base64Decodes (ua :: ub :: uc :: ud :: rest) (groupBytes a b c d ++ bytes)
  | padOne {ua ub uc : UInt16} {a b c : ℕ} : IsLetter ua a → IsLetter ub b → IsLetter uc c →
    Base64Decodes [ua, ub, uc, padUnit] ((groupBytes a b c 0).take 2)
  | padTwo {ua ub : UInt16} {a b : ℕ} : IsLetter ua a → IsLetter ub b →
    Base64Decodes [ua, ub, padUnit, padUnit] ((groupBytes a b 0 0).take 1)

/-- The letter of a value. -/
def letter (value : ℕ) : UInt16 := base64Alphabet.getD value 0

/-- The standard encoding. -/
def encodeBase64 : Bytes → Units
  | x :: y :: z :: rest =>
    letter (x.toNat / 4) :: letter (x.toNat % 4 * 16 + y.toNat / 16) ::
      letter (y.toNat % 16 * 4 + z.toNat / 64) :: letter (z.toNat % 64) :: encodeBase64 rest
  | [x, y] =>
    [letter (x.toNat / 4), letter (x.toNat % 4 * 16 + y.toNat / 16), letter (y.toNat % 16 * 4),
      padUnit]
  | [x] => [letter (x.toNat / 4), letter (x.toNat % 4 * 16), padUnit, padUnit]
  | [] => []

/-! ### Letters -/

/-- The alphabet has 64 letters, all different, and the pad is none of them. -/
private theorem base64Alphabet_letters :
    base64Alphabet.length = 64 ∧ base64Alphabet.Nodup ∧ padUnit ∉ base64Alphabet := by
  decide +kernel

theorem length_base64Alphabet : base64Alphabet.length = 64 := base64Alphabet_letters.1

theorem nodup_base64Alphabet : base64Alphabet.Nodup := base64Alphabet_letters.2.1

theorem padUnit_notMem : padUnit ∉ base64Alphabet := base64Alphabet_letters.2.2

theorem base64Value_eq_some_iff {unit : UInt16} {value : ℕ} :
    base64Value unit = some value ↔ IsLetter unit value := by
  rw [base64Value, List.idxOf?_eq_some_iff, IsLetter, List.getElem?_eq_some_iff]
  constructor
  · rintro ⟨hlt, hunit, -⟩
    exact ⟨hlt, hunit⟩
  · rintro ⟨hlt, hunit⟩
    refine ⟨hlt, hunit, fun j hj heq => ?_⟩
    have hsame := (List.Nodup.getElem_inj_iff nodup_base64Alphabet).mp (heq.trans hunit.symm)
    omega

theorem IsLetter.lt {unit : UInt16} {value : ℕ} (h : IsLetter unit value) : value < 64 := by
  rw [← length_base64Alphabet]
  exact (List.getElem?_eq_some_iff.mp h).1

theorem not_isLetter_padUnit (value : ℕ) : ¬ IsLetter padUnit value := fun h =>
  padUnit_notMem (List.mem_of_getElem? h)

theorem isLetter_letter (value : ℕ) (h : value < 64) : IsLetter (letter value) value := by
  rw [IsLetter, letter, List.getD_eq_getElem?_getD,
    List.getElem?_eq_getElem (by rwa [length_base64Alphabet]), Option.getD_some]

/-! ### The loops -/

/-- The six bits of a unit: a pad where the group may end counts as zero. -/
def sextet (last : Bool) (padding j : ℕ) (unit : UInt16) : Option ℕ :=
  if unit = padUnit ∧ last ∧ 4 - padding ≤ j then some 0 else base64Value unit

theorem sextet_lt {last : Bool} {padding j value : ℕ} {unit : UInt16}
    (h : sextet last padding j unit = some value) : value < 64 := by
  rw [sextet] at h
  split_ifs at h
  · obtain rfl := Option.some.inj h
    decide
  · exact (base64Value_eq_some_iff.mp h).lt

theorem readWord_cons (last : Bool) (padding j : ℕ) (unit : UInt16) (units : Units) (word : ℕ) :
    readWord last padding j (unit :: units) word = (sextet last padding j unit).bind fun value =>
      readWord last padding (j + 1) units (word * 64 + value) := by
  rw [readWord, sextet]
  split_ifs
  · rw [Option.bind_some, Nat.shiftLeft_eq]
    rfl
  · cases hvalue : base64Value unit with
    | none => rfl
    | some value =>
      have hlt : value < 2 ^ 6 := (base64Value_eq_some_iff.mp hvalue).lt
      simp only [Option.bind_some]
      rw [← Nat.shiftLeft_add_eq_or_of_lt hlt, Nat.shiftLeft_eq]

/-- The word of a group. -/
theorem readWord_eq_some_iff {last : Bool} {padding word : ℕ} {a b c d : UInt16} :
    readWord last padding 0 [a, b, c, d] 0 = some word ↔
      ∃ va vb vc vd, sextet last padding 0 a = some va ∧ sextet last padding 1 b = some vb ∧
        sextet last padding 2 c = some vc ∧ sextet last padding 3 d = some vd ∧
        word = ((va * 64 + vb) * 64 + vc) * 64 + vd := by
  simp only [readWord_cons, Option.bind_eq_some_iff, Nat.zero_add, Nat.zero_mul, Nat.reduceAdd]
  constructor
  · rintro ⟨va, ha, vb, hb, vc, hc, vd, hd, hword⟩
    exact ⟨va, vb, vc, vd, ha, hb, hc, hd, (Option.some.inj hword).symm⟩
  · rintro ⟨va, vb, vc, vd, ha, hb, hc, hd, rfl⟩
    exact ⟨va, ha, vb, hb, vc, hc, vd, hd, rfl⟩

/-- A loop that writes while there is room writes as much as there is room for. -/
theorem foldl_write (outLength : ℕ) (byte : ℕ → UInt8) (shifts : List ℕ) (out : Bytes) :
    (shifts.foldl (fun out shift =>
      if out.length < outLength then out ++ [byte shift] else out) out) =
      out ++ (shifts.map byte).take (outLength - out.length) := by
  induction shifts generalizing out with
  | nil => simp
  | cons shift shifts ih =>
    rw [List.foldl_cons, ih, List.map_cons]
    split_ifs with hroom
    · obtain ⟨room, hroom'⟩ := Nat.exists_eq_add_of_lt hroom
      have hleft : outLength - (out ++ [byte shift]).length = room := by
        rw [List.length_append, List.length_singleton]
        omega
      have hall : outLength - out.length = room + 1 := by omega
      rw [hleft, hall, List.take_succ_cons, List.append_assoc, List.singleton_append]
    · rw [show outLength - out.length = 0 by omega, List.take_zero, List.take_zero]

/-- As many bytes of a group are written as there is room for. -/
theorem writeWord_eq {va vb vc vd : ℕ} (hc : vc < 64) (hd : vd < 64)
    (outLength : ℕ) (out : Bytes) :
    writeWord outLength (((va * 64 + vb) * 64 + vc) * 64 + vd) out =
      out ++ (groupBytes va vb vc vd).take (outLength - out.length) := by
  rw [writeWord, foldl_write]
  set word := ((va * 64 + vb) * 64 + vc) * 64 + vd with hword
  have hfirst : UInt8.ofNat (word >>> 16) = UInt8.ofNat (va * 4 + vb / 16) := by
    congr 1
    rw [Nat.shiftRight_eq_div_pow]
    omega
  have hsecond : UInt8.ofNat (word >>> 8) = UInt8.ofNat (vb % 16 * 16 + vc / 4) := by
    rw [← UInt8.toNat_inj, UInt8.toNat_ofNat', UInt8.toNat_ofNat', Nat.shiftRight_eq_div_pow]
    omega
  have hthird : UInt8.ofNat (word >>> 0) = UInt8.ofNat (vc % 4 * 64 + vd) := by
    rw [← UInt8.toNat_inj, UInt8.toNat_ofNat', UInt8.toNat_ofNat', Nat.shiftRight_zero]
    omega
  simp only [groupBytes, List.map_cons, List.map_nil, hfirst, hsecond, hthird]

/-! ### Padding -/

/-- The end of a text is the end of its last group. -/
theorem endsWith_append {text suffix : Units} (h : suffix.length ≤ text.length) (front : Units) :
    endsWith (front ++ text) suffix = endsWith text suffix := by
  rw [endsWith, endsWith, List.length_append,
    show front.length + text.length - suffix.length = front.length + (text.length - suffix.length)
      by omega, List.drop_append, List.drop_of_length_le (Nat.le_add_right _ _), List.nil_append,
    Nat.add_sub_cancel_left]

theorem paddingOf_append {text : Units} (h : 2 ≤ text.length) (front : Units) :
    paddingOf (front ++ text) = paddingOf text := by
  rw [paddingOf, paddingOf, endsWith_append (by simpa using h),
    endsWith_append (by simp; omega)]

theorem paddingOf_le (text : Units) : paddingOf text ≤ 2 := by
  rw [paddingOf]
  split_ifs <;> omega

/-- The pads of one group. -/
theorem paddingOf_group (a b c d : UInt16) :
    paddingOf [a, b, c, d] =
      if c = padUnit ∧ d = padUnit then 2 else if d = padUnit then 1 else 0 := by
  simp [paddingOf, endsWith]

/-! ### The decoder -/

/-- The ways a text of at least one group is decoded. -/
theorem base64Decodes_cons_iff {a b c d : UInt16} {rest : Units} {bytes : Bytes} :
    Base64Decodes (a :: b :: c :: d :: rest) bytes ↔
      (∃ va vb vc vd more, IsLetter a va ∧ IsLetter b vb ∧ IsLetter c vc ∧ IsLetter d vd ∧
        Base64Decodes rest more ∧ bytes = groupBytes va vb vc vd ++ more) ∨
      (∃ va vb vc, IsLetter a va ∧ IsLetter b vb ∧ IsLetter c vc ∧ d = padUnit ∧ rest = [] ∧
        bytes = (groupBytes va vb vc 0).take 2) ∨
      (∃ va vb, IsLetter a va ∧ IsLetter b vb ∧ c = padUnit ∧ d = padUnit ∧ rest = [] ∧
        bytes = (groupBytes va vb 0 0).take 1) := by
  constructor
  · intro h
    cases h with
    | group ha hb hc hd hrest => exact .inl ⟨_, _, _, _, _, ha, hb, hc, hd, hrest, rfl⟩
    | padOne ha hb hc => exact .inr (.inl ⟨_, _, _, ha, hb, hc, rfl, rfl, rfl⟩)
    | padTwo ha hb => exact .inr (.inr ⟨_, _, ha, hb, rfl, rfl, rfl, rfl⟩)
  · rintro (⟨va, vb, vc, vd, more, ha, hb, hc, hd, hrest, rfl⟩ |
      ⟨va, vb, vc, ha, hb, hc, rfl, rfl, rfl⟩ | ⟨va, vb, ha, hb, rfl, rfl, rfl, rfl⟩)
    · exact .group ha hb hc hd hrest
    · exact .padOne ha hb hc
    · exact .padTwo ha hb

/-- The units of a group without pads where they may stand are letters. -/
theorem sextet_of_lt {last : Bool} {padding j : ℕ} (h : j < 4 - padding) (unit : UInt16)
    (value : ℕ) : sextet last padding j unit = some value ↔ IsLetter unit value := by
  rw [sextet, if_neg (by omega), base64Value_eq_some_iff]

theorem sextet_inner (padding j : ℕ) (unit : UInt16) (value : ℕ) :
    sextet false padding j unit = some value ↔ IsLetter unit value := by
  rw [sextet, if_neg (by simp), base64Value_eq_some_iff]

theorem sextet_padUnit {padding j value : ℕ} (h : 4 - padding ≤ j) :
    sextet true padding j padUnit = some value ↔ value = 0 := by
  rw [sextet, if_pos ⟨rfl, rfl, h⟩, Option.some_inj, eq_comm]

/-- One round of the loop over the groups. -/
theorem decodeGroups_cons_iff {padding outLength : ℕ} {a b c d : UInt16} {rest : Units}
    {out result : Bytes} :
    decodeGroups padding outLength (a :: b :: c :: d :: rest) out = some result ↔
      ∃ va vb vc vd, sextet rest.isEmpty padding 0 a = some va ∧
        sextet rest.isEmpty padding 1 b = some vb ∧ sextet rest.isEmpty padding 2 c = some vc ∧
        sextet rest.isEmpty padding 3 d = some vd ∧
        decodeGroups padding outLength rest
          (out ++ (groupBytes va vb vc vd).take (outLength - out.length)) = some result := by
  rw [decodeGroups]
  constructor
  · intro h
    cases hword : readWord rest.isEmpty padding 0 [a, b, c, d] 0 with
    | none =>
      rw [hword] at h
      cases h
    | some word =>
      rw [hword] at h
      obtain ⟨va, vb, vc, vd, ha, hb, hc, hd, rfl⟩ := readWord_eq_some_iff.mp hword
      refine ⟨va, vb, vc, vd, ha, hb, hc, hd, ?_⟩
      rw [← writeWord_eq (sextet_lt hc) (sextet_lt hd)]
      exact h
  · rintro ⟨va, vb, vc, vd, ha, hb, hc, hd, h⟩
    rw [readWord_eq_some_iff.mpr ⟨va, vb, vc, vd, ha, hb, hc, hd, rfl⟩]
    simp only
    rwa [writeWord_eq (sextet_lt hc) (sextet_lt hd)]

/-- A group that is not the last is decoded to three bytes. -/
theorem decodeGroups_inner {padding outLength : ℕ} {a b c d : UInt16} {rest : Units}
    (hrest : rest ≠ []) {out result : Bytes} (hroom : out.length + 3 ≤ outLength) :
    decodeGroups padding outLength (a :: b :: c :: d :: rest) out = some result ↔
      ∃ va vb vc vd, IsLetter a va ∧ IsLetter b vb ∧ IsLetter c vc ∧ IsLetter d vd ∧
        decodeGroups padding outLength rest (out ++ groupBytes va vb vc vd) = some result := by
  have htake : ∀ va vb vc vd, (groupBytes va vb vc vd).take (outLength - out.length) =
      groupBytes va vb vc vd := by
    intro va vb vc vd
    refine List.take_of_length_le ?_
    simp only [groupBytes, List.length_cons, List.length_nil]
    omega
  simp only [decodeGroups_cons_iff, List.isEmpty_eq_false_iff.mpr hrest, sextet_inner, htake]

/-- The last group is decoded to the bytes its pads leave. -/
theorem decodeGroups_last {a b c d : UInt16} {out result : Bytes} :
    decodeGroups (paddingOf [a, b, c, d]) (out.length + (3 - paddingOf [a, b, c, d]))
        [a, b, c, d] out = some result ↔
      ∃ bytes, Base64Decodes [a, b, c, d] bytes ∧ result = out ++ bytes := by
  set padding := paddingOf [a, b, c, d] with hpadding
  rw [paddingOf_group] at hpadding
  -- four sextets, of which the pads are zero, and the bytes that the pads leave
  have hsplit : decodeGroups padding (out.length + (3 - padding)) [a, b, c, d] out = some result ↔
      ∃ va vb vc vd, sextet true padding 0 a = some va ∧ sextet true padding 1 b = some vb ∧
        sextet true padding 2 c = some vc ∧ sextet true padding 3 d = some vd ∧
        result = out ++ (groupBytes va vb vc vd).take (3 - padding) := by
    rw [decodeGroups_cons_iff]
    simp only [List.isEmpty_nil, decodeGroups, Option.some_inj, Nat.add_sub_cancel_left,
      eq_comm (b := result)]
  rw [hsplit]
  simp only [base64Decodes_cons_iff]
  by_cases hd : d = padUnit
  · subst hd
    by_cases hc : c = padUnit
    · -- two pads: the two letters in front of them
      subst hc
      rw [if_pos ⟨rfl, rfl⟩] at hpadding
      simp only [hpadding, sextet_of_lt (show 0 < 4 - 2 by decide),
        sextet_of_lt (show 1 < 4 - 2 by decide), sextet_padUnit (show 4 - 2 ≤ 2 by decide),
        sextet_padUnit (show 4 - 2 ≤ 3 by decide), not_isLetter_padUnit]
      constructor
      · rintro ⟨va, vb, _, _, ha, hb, rfl, rfl, rfl⟩
        exact ⟨_, .inr (.inr ⟨va, vb, ha, hb, trivial, trivial, trivial, rfl⟩), rfl⟩
      · rintro ⟨_, (⟨_, _, _, _, _, -, -, h, -⟩ | ⟨_, _, _, -, -, h, -⟩ |
          ⟨va, vb, ha, hb, -, -, -, rfl⟩), rfl⟩
        · exact h.elim
        · exact h.elim
        · exact ⟨va, vb, 0, 0, ha, hb, rfl, rfl, rfl⟩
    · -- one pad: three letters
      rw [if_neg (fun h => hc h.1), if_pos rfl] at hpadding
      simp only [hpadding, sextet_of_lt (show 0 < 4 - 1 by decide),
        sextet_of_lt (show 1 < 4 - 1 by decide), sextet_of_lt (show 2 < 4 - 1 by decide),
        sextet_padUnit (show 4 - 1 ≤ 3 by decide), not_isLetter_padUnit]
      constructor
      · rintro ⟨va, vb, vc, _, ha, hb, hc', rfl, rfl⟩
        exact ⟨_, .inr (.inl ⟨va, vb, vc, ha, hb, hc', trivial, trivial, rfl⟩), rfl⟩
      · rintro ⟨_, (⟨_, _, _, _, _, -, -, -, h, -⟩ | ⟨va, vb, vc, ha, hb, hc', -, -, rfl⟩ |
          ⟨_, _, -, -, h, -⟩), rfl⟩
        · exact h.elim
        · exact ⟨va, vb, vc, 0, ha, hb, hc', rfl, rfl⟩
        · exact absurd h hc
  · -- no pad: four letters
    rw [if_neg (fun h => hd h.2), if_neg hd] at hpadding
    simp only [hpadding, sextet_of_lt (show 0 < 4 - 0 by decide),
      sextet_of_lt (show 1 < 4 - 0 by decide), sextet_of_lt (show 2 < 4 - 0 by decide),
      sextet_of_lt (show 3 < 4 - 0 by decide)]
    constructor
    · rintro ⟨va, vb, vc, vd, ha, hb, hc, hd', rfl⟩
      exact ⟨_, .inl ⟨va, vb, vc, vd, [], ha, hb, hc, hd', .nil, (List.append_nil _).symm⟩, rfl⟩
    · rintro ⟨_, (⟨va, vb, vc, vd, more, ha, hb, hc, hd', hmore, rfl⟩ |
        ⟨_, _, _, -, -, -, h, -⟩ | ⟨_, _, -, -, -, h, -⟩), rfl⟩
      · cases hmore
        exact ⟨va, vb, vc, vd, ha, hb, hc, hd', by rw [List.append_nil]; rfl⟩
      · exact absurd h hd
      · exact absurd h hd

/-- A text of whole groups starts with one. -/
theorem exists_group {text : Units} {n : ℕ} (h : text.length = 4 * (n + 1)) :
    ∃ a b c d rest, text = a :: b :: c :: d :: rest ∧ rest.length = 4 * n := by
  match text, h with
  | a :: b :: c :: d :: rest, h =>
    refine ⟨a, b, c, d, rest, rfl, ?_⟩
    simp only [List.length_cons] at h
    omega
  | [], h => simp at h
  | [_], h => simp at h; omega
  | [_, _], h => simp at h; omega
  | [_, _, _], h => simp at h; omega

/-- The loop over the groups writes what the text stands for behind what is written. -/
theorem decodeGroups_eq_some_iff {n : ℕ} {text : Units} (h : text.length = 4 * n)
    (out result : Bytes) :
    decodeGroups (paddingOf text) (out.length + (n * 3 - paddingOf text)) text out = some result ↔
      ∃ bytes, Base64Decodes text bytes ∧ result = out ++ bytes := by
  induction n generalizing text out with
  | zero =>
    obtain rfl := List.length_eq_zero_iff.mp h
    constructor
    · intro hdone
      exact ⟨[], .nil, by rw [List.append_nil]; exact (Option.some.inj hdone).symm⟩
    · rintro ⟨bytes, hbytes, rfl⟩
      cases hbytes
      rw [List.append_nil]
      rfl
  | succ n ih =>
    obtain ⟨a, b, c, d, rest, rfl, hrest⟩ := exists_group h
    cases n with
    | zero =>
      obtain rfl := List.length_eq_zero_iff.mp hrest
      exact decodeGroups_last
    | succ n =>
      -- the pads are those of the rest, so three bytes are written for this group
      have hne : rest ≠ [] := List.ne_nil_of_length_pos (by omega)
      have hpadding : paddingOf (a :: b :: c :: d :: rest) = paddingOf rest :=
        paddingOf_append (by omega) [a, b, c, d]
      have hle := paddingOf_le rest
      rw [hpadding, decodeGroups_inner hne (by omega)]
      have hroom : ∀ va vb vc vd, (out ++ groupBytes va vb vc vd).length +
          ((n + 1) * 3 - paddingOf rest) = out.length + ((n + 1 + 1) * 3 - paddingOf rest) := by
        intro va vb vc vd
        simp only [List.length_append, groupBytes, List.length_cons, List.length_nil]
        omega
      constructor
      · rintro ⟨va, vb, vc, vd, ha, hb, hc, hd, hdecode⟩
        rw [← hroom va vb vc vd] at hdecode
        obtain ⟨bytes, hbytes, rfl⟩ := (ih hrest _).mp hdecode
        exact ⟨_, .group ha hb hc hd hbytes, List.append_assoc ..⟩
      · rintro ⟨bytes, hbytes, rfl⟩
        rcases base64Decodes_cons_iff.mp hbytes with
          ⟨va, vb, vc, vd, more, ha, hb, hc, hd, hmore, rfl⟩ | ⟨_, _, _, -, -, -, -, hnil, -⟩ |
            ⟨_, _, -, -, -, -, hnil, -⟩
        · refine ⟨va, vb, vc, vd, ha, hb, hc, hd, ?_⟩
          rw [← hroom va vb vc vd]
          exact (ih hrest _).mpr ⟨more, hmore, (List.append_assoc ..).symm⟩
        · exact absurd hnil hne
        · exact absurd hnil hne

/-- A text that stands for bytes consists of groups, and of three bytes each but for the pads. -/
theorem Base64Decodes.length {text : Units} {bytes : Bytes} (h : Base64Decodes text bytes) :
    text.length % 4 = 0 ∧ bytes.length = text.length / 4 * 3 - paddingOf text := by
  induction h with
  | nil => exact ⟨rfl, rfl⟩
  | @group ua ub uc ud a b c d rest bytes ha hb hc hd hrest ih =>
    obtain ⟨hmod, hlen⟩ := ih
    rcases List.eq_nil_or_concat rest with hnil | ⟨_, _, hrest'⟩
    · subst hnil
      cases hrest
      have hne : ud ≠ padUnit := fun hpad => not_isLetter_padUnit d (hpad ▸ hd)
      refine ⟨by simp, ?_⟩
      rw [paddingOf_group, if_neg (fun h => hne h.2), if_neg hne]
      simp [groupBytes]
    · have hpos : 0 < rest.length := by rw [hrest']; simp
      have hpadding : paddingOf (ua :: ub :: uc :: ud :: rest) = paddingOf rest :=
        paddingOf_append (by omega) [ua, ub, uc, ud]
      have hle := paddingOf_le rest
      rw [hpadding]
      simp only [List.length_append, List.length_cons, groupBytes, List.length_nil]
      omega
  | @padOne ua ub uc a b c ha hb hc =>
    have hne : uc ≠ padUnit := fun hpad => not_isLetter_padUnit c (hpad ▸ hc)
    refine ⟨by simp, ?_⟩
    rw [paddingOf_group, if_neg (fun h => hne h.1), if_pos rfl]
    simp [groupBytes]
  | padTwo ha hb =>
    refine ⟨by simp, ?_⟩
    rw [paddingOf_group, if_pos ⟨rfl, rfl⟩]
    simp [groupBytes]

/-- What `decodeBase64` returns is what the text stands for; for no other text it returns
anything. -/
theorem decodeBase64_eq_some_iff (text : Units) (bytes : Bytes) :
    decodeBase64 text = some bytes ↔ Base64Decodes text bytes := by
  by_cases hmod : text.length % 4 = 0
  · have hgroups : text.length = 4 * (text.length / 4) := by omega
    have hloop := decodeGroups_eq_some_iff hgroups []
    simp only [List.length_nil, Nat.zero_add, List.nil_append, exists_eq_right'] at hloop
    rw [decodeBase64, if_neg (not_not.mpr hmod)]
    simp only [Option.map_eq_some_iff, hloop]
    -- the output is full, so no zero is left in it
    have hfull : ∀ out, Base64Decodes text out →
        out ++ List.replicate (text.length / 4 * 3 - paddingOf text - out.length) 0 = out := by
      intro out hout
      rw [hout.length.2, Nat.sub_self, List.replicate_zero, List.append_nil]
    constructor
    · rintro ⟨out, hout, rfl⟩
      rw [hfull out hout]
      exact hout
    · intro hbytes
      exact ⟨bytes, hbytes, hfull bytes hbytes⟩
  · rw [decodeBase64, if_pos hmod]
    constructor
    · nofun
    · exact fun h => absurd h.length.1 hmod

/-- The values a group is encoded to stand for its bytes. -/
theorem groupBytes_encode (x y z : ℕ) (hy : y < 256) (hz : z < 256) :
    groupBytes (x / 4) (x % 4 * 16 + y / 16) (y % 16 * 4 + z / 64) (z % 64) =
      [UInt8.ofNat x, UInt8.ofNat y, UInt8.ofNat z] := by
  have hfirst : x / 4 * 4 + (x % 4 * 16 + y / 16) / 16 = x := by omega
  have hsecond : (x % 4 * 16 + y / 16) % 16 * 16 + (y % 16 * 4 + z / 64) / 4 = y := by omega
  have hthird : (y % 16 * 4 + z / 64) % 4 * 64 + z % 64 = z := by omega
  rw [groupBytes, hfirst, hsecond, hthird]

/-- The standard encoding stands for the bytes it was made from. -/
theorem base64Decodes_encodeBase64 (bytes : Bytes) :
    Base64Decodes (encodeBase64 bytes) bytes := by
  fun_induction encodeBase64 bytes with
  | case1 x y z rest ih =>
    have hx := x.toNat_lt
    have hy := y.toNat_lt
    have hz := z.toNat_lt
    have hgroup := Base64Decodes.group (isLetter_letter (x.toNat / 4) (by omega))
      (isLetter_letter (x.toNat % 4 * 16 + y.toNat / 16) (by omega))
      (isLetter_letter (y.toNat % 16 * 4 + z.toNat / 64) (by omega))
      (isLetter_letter (z.toNat % 64) (by omega)) ih
    rw [groupBytes_encode _ _ _ hy hz] at hgroup
    simpa using hgroup
  | case2 x y =>
    have hx := x.toNat_lt
    have hy := y.toNat_lt
    have hbytes := groupBytes_encode x.toNat y.toNat 0 hy (by decide)
    have hgroup := Base64Decodes.padOne (isLetter_letter (x.toNat / 4) (by omega))
      (isLetter_letter (x.toNat % 4 * 16 + y.toNat / 16) (by omega))
      (isLetter_letter (y.toNat % 16 * 4) (by omega))
    simp only [Nat.zero_div, Nat.add_zero, Nat.zero_mod] at hbytes
    rw [hbytes] at hgroup
    simpa using hgroup
  | case3 x =>
    have hx := x.toNat_lt
    have hbytes := groupBytes_encode x.toNat 0 0 (by decide) (by decide)
    have hgroup := Base64Decodes.padTwo (isLetter_letter (x.toNat / 4) (by omega))
      (isLetter_letter (x.toNat % 4 * 16) (by omega))
    simp only [Nat.zero_div, Nat.add_zero, Nat.zero_mod, Nat.zero_mul] at hbytes
    rw [hbytes] at hgroup
    simpa using hgroup
  | case4 => exact .nil

/-- Base64 items decode exactly: the texts that are decoded are those of the grammar, to the bytes
they stand for, and decoding inverts the standard encoding.

Both the decoder and the grammar go by groups of four letters, and the decoder accepts a group
exactly when the grammar does (`decodeBase64_eq_some_iff`); what the encoder writes is of the
grammar. -/
theorem decodeBase64_exact :
    (∀ text, (decodeBase64 text).isSome ↔ ∃ bytes, Base64Decodes text bytes) ∧
    (∀ text bytes, decodeBase64 text = some bytes ↔ Base64Decodes text bytes) ∧
    ∀ bytes, decodeBase64 (encodeBase64 bytes) = some bytes := by
  refine ⟨fun text => ?_, decodeBase64_eq_some_iff, fun bytes => ?_⟩
  · simp only [Option.isSome_iff_exists, decodeBase64_eq_some_iff]
  · exact (decodeBase64_eq_some_iff _ _).mpr (base64Decodes_encodeBase64 bytes)

end NoxSdk.Transport
