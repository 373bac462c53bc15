import NoxSdk.Lib.ByteReader

/-!
# Reads at an offset

`readAt` is the read of a `DataView`: bytes at an offset, or nothing when they reach past the end.
What is read at an offset splits the buffer there (`readAt_eq_some_iff`), so a decoder that reads
its fields one after the other writes the buffer as their concatenation. The numbers are those of
`ByteReader`, here also most significant byte first, and with the way back from the bytes to the
number (`leBytes_leValue`, `beBytes_beValue`).

`ByteReader.Outcome` says what holds of the value a reader returns and of the error it fails with;
`Outcome.bind` is its rule for a sequence.
-/

namespace NoxSdk

/-! ### Numbers and their bytes -/

/-- The bytes of a number of their own width are read from them. -/
theorem leBytes_leValue (bs : List UInt8) : leBytes bs.length (leValue bs) = bs := by
  induction bs with
  | nil => rfl
  | cons b bs ih =>
    have hlow : UInt8.ofNat (b.toNat + 256 * leValue bs) = b := by
      apply UInt8.toNat_inj.mp
      rw [UInt8.toNat_ofNat']
      have hb := b.toNat_lt
      omega
    have hhigh : (b.toNat + 256 * leValue bs) / 256 = leValue bs := by
      have hb := b.toNat_lt
      omega
    rw [leValue, List.length_cons, leBytes, hlow, hhigh, ih]

theorem leValue_lt (bs : List UInt8) : leValue bs < 256 ^ bs.length := by
  have hmod := leValue_leBytes bs.length (leValue bs)
  rw [leBytes_leValue] at hmod
  rw [hmod]
  exact Nat.mod_lt _ (Nat.pow_pos (by decide))

/-- The low `width` bytes of a number, most significant first. -/
def beBytes (width n : ℕ) : List UInt8 := (leBytes width n).reverse

/-- The number big-endian bytes stand for. -/
def beValue (bs : List UInt8) : ℕ := leValue bs.reverse

@[simp]
theorem length_beBytes (width n : ℕ) : (beBytes width n).length = width := by
  rw [beBytes, List.length_reverse, length_leBytes]

theorem beValue_beBytes_of_lt {width n : ℕ} (h : n < 256 ^ width) :
    beValue (beBytes width n) = n := by
  rw [beValue, beBytes, List.reverse_reverse, leValue_leBytes_of_lt h]

theorem beBytes_beValue (bs : List UInt8) : beBytes bs.length (beValue bs) = bs := by
  rw [beBytes, beValue, ← bs.length_reverse, leBytes_leValue, List.reverse_reverse]

theorem beValue_lt (bs : List UInt8) : beValue bs < 256 ^ bs.length := by
  rw [beValue, ← bs.length_reverse]
  exact leValue_lt _

/-! ### Reads -/

/-- The `width` bytes at an offset, if the buffer holds them. -/
def readAt (bytes : List UInt8) (offset width : ℕ) : Option (List UInt8) :=
  if offset + width ≤ bytes.length then some ((bytes.drop offset).take width) else none

theorem readAt_eq_none_iff {bytes : List UInt8} {offset width : ℕ} :
    readAt bytes offset width = none ↔ bytes.length < offset + width := by
  rw [readAt]
  split_ifs with hfits
  · simpa using hfits
  · simpa using hfits

/-- What is read splits the buffer. -/
theorem readAt_eq_some_iff {bytes enc : List UInt8} {offset width : ℕ} :
    readAt bytes offset width = some enc ↔
      enc.length = width ∧ offset + width ≤ bytes.length ∧
        bytes.drop offset = enc ++ bytes.drop (offset + width) := by
  rw [readAt]
  constructor
  · intro h
    split_ifs at h with hfits
    obtain rfl := Option.some.inj h
    refine ⟨?_, hfits, ?_⟩
    · rw [List.length_take, List.length_drop]
      omega
    · rw [← List.drop_drop, List.take_append_drop]
  · rintro ⟨hlen, hfits, hdrop⟩
    rw [if_pos hfits, hdrop, List.take_left' hlen]

/-- A field is read back where it stands. -/
theorem readAt_append {bytes enc rest : List UInt8} {offset width : ℕ}
    (h : bytes.drop offset = enc ++ rest) (hlen : enc.length = width) (hpos : 0 < width) :
    readAt bytes offset width = some enc := by
  have hle : offset + width ≤ bytes.length := by
    have hcount := congrArg List.length h
    rw [List.length_drop, List.length_append] at hcount
    omega
  rw [readAt, if_pos hle, h, List.take_left' hlen]

/-- The buffer behind a field. -/
theorem drop_of_drop_eq_append {bytes enc rest : List UInt8} {offset width : ℕ}
    (h : bytes.drop offset = enc ++ rest) (hlen : enc.length = width) :
    bytes.drop (offset + width) = rest := by
  rw [← List.drop_drop, h, List.drop_left' hlen]

/-! ### What a reader comes to -/

namespace ByteReader

universe u v

variable {ε : Type u} {α β : Type v}

/-- `Q` holds of what is returned and of the position after it, `E` of an error. -/
def Outcome (Q : α → ℕ → Prop) (E : ε → Prop) : Except ε (α × ℕ) → Prop
  | .ok (a, pos) => Q a pos
  | .error e => E e

variable {Q : α → ℕ → Prop} {R : β → ℕ → Prop} {E : ε → Prop} {body : List UInt8} {pos : ℕ}

theorem Outcome.bind {p : ByteReader ε α} {f : α → ByteReader ε β}
    (hp : Outcome Q E (p body pos)) (hf : ∀ a mid, Q a mid → Outcome R E (f a body mid)) :
    Outcome R E ((p >>= f) body pos) := by
  rw [bind_apply]
  cases hresult : p body pos with
  | error e =>
    rw [hresult] at hp
    exact hp
  | ok result =>
    rw [hresult] at hp
    exact hf result.1 result.2 hp

theorem Outcome.mono {Q' : α → ℕ → Prop} {result : Except ε (α × ℕ)} (h : Outcome Q E result)
    (hQ : ∀ a pos, Q a pos → Q' a pos) : Outcome Q' E result := by
  cases result with
  | error e => exact h
  | ok a => exact hQ a.1 a.2 h

theorem Outcome.of_ok {a : α} {mid : ℕ} {result : Except ε (α × ℕ)} (h : Outcome Q E result)
    (hok : result = .ok (a, mid)) : Q a mid := by
  rw [hok] at h
  exact h

/-- What is sliced stands between the two positions. -/
theorem slice_outcome {short : ℕ → ℕ → ε} (hshort : ∀ pos len, E (short pos len)) (n : ℕ) :
    Outcome (fun raw mid => raw.length = n ∧ mid = pos + n ∧ mid ≤ body.length ∧
        body.drop pos = raw ++ body.drop mid) E (slice short n body pos) := by
  rw [slice]
  split_ifs with hfits
  · exact hshort _ _
  · refine ⟨?_, rfl, not_lt.mp hfits, ?_⟩
    · rw [List.length_take, List.length_drop]
      omega
    · rw [← List.drop_drop, List.take_append_drop]

/-- A sequence goes on from what its first part returns. -/
theorem bind_of_ok {p : ByteReader ε α} {f : α → ByteReader ε β} {a : α} {mid : ℕ}
    (h : p body pos = .ok (a, mid)) : (p >>= f) body pos = f a body mid := by
  rw [bind_apply, h]

end ByteReader

end NoxSdk
