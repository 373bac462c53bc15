import Mathlib.Data.Nat.Notation
import Mathlib.Algebra.Order.Group.Nat
import Mathlib.Algebra.Order.Ring.Nat
import Mathlib.Data.List.Basic

/-!
# Byte readers

A `ByteReader` consumes a fixed buffer from a position on, over any type of errors. `Reads p enc a`
says that `p` reads `a` from the bytes `enc` wherever they stand and whatever follows them; it
is closed under sequencing (`Reads.bind`) and repetition (`Reads.replicate`), so the round
trip of a codec is assembled field by field in the order of its writer.

* `leBytes`, `leValue`: little-endian numbers of a fixed width; a larger number is truncated.
* `ByteReader.slice`: the next `n` bytes, with the error of the caller when they are missing.
-/

namespace NoxSdk

/-! ### Little-endian numbers -/

/-- The low `width` bytes of a number, least significant first. -/
def leBytes : ℕ → ℕ → List UInt8
  | 0, _ => []
  | width + 1, n => UInt8.ofNat n :: leBytes width (n / 256)

/-- The number little-endian bytes stand for. -/
def leValue : List UInt8 → ℕ
  | [] => 0
  | b :: bs => b.toNat + 256 * leValue bs

@[simp]
theorem length_leBytes (width n : ℕ) : (leBytes width n).length = width := by
  induction width generalizing n with
  | zero => rfl
  | succ width ih => rw [leBytes, List.length_cons, ih]

/-- Reading back gives the number modulo the width. -/
theorem leValue_leBytes (width n : ℕ) : leValue (leBytes width n) = n % 256 ^ width := by
  induction width generalizing n with
  | zero => simp [leBytes, leValue, Nat.mod_one]
  | succ width ih =>
    rw [leBytes, leValue, ih, UInt8.toNat_ofNat', pow_succ' 256 width]
    exact Nat.mod_mul.symm

/-- A number that fits is read back as it was. -/
theorem leValue_leBytes_of_lt {width n : ℕ} (h : n < 256 ^ width) :
    leValue (leBytes width n) = n := by
  rw [leValue_leBytes, Nat.mod_eq_of_lt h]

/-! ### Readers -/

universe u v

/-- A reader: from a buffer and a position, an error or a value and the position after it. -/
def ByteReader (ε : Type u) (α : Type v) := List UInt8 → ℕ → Except ε (α × ℕ)

namespace ByteReader

variable {ε : Type u} {α β : Type v}

instance : Monad (ByteReader ε) where
  pure a := fun _ pos => .ok (a, pos)
  bind p f := fun buf pos =>
    match p buf pos with
    | .error e => .error e
    | .ok (a, pos') => f a buf pos'

/-- A sequence, one part after the other. -/
theorem bind_apply (p : ByteReader ε α) (f : α → ByteReader ε β) (buf : List UInt8) (pos : ℕ) :
    (p >>= f) buf pos =
      match p buf pos with
      | .error e => .error e
      | .ok (a, pos') => f a buf pos' := rfl

/-- Fail with an error that may name the position. -/
def fail (e : ℕ → ε) : ByteReader ε α := fun _ pos => .error (e pos)

/-- The next `n` bytes; `short pos len` is the error at position `pos` of a buffer of `len`
bytes with less than `n` left. -/
def slice (short : ℕ → ℕ → ε) (n : ℕ) : ByteReader ε (List UInt8) := fun buf pos =>
  if pos + n > buf.length then .error (short pos buf.length)
  else .ok ((buf.drop pos).take n, pos + n)

/-- The same reader `n` times. -/
def replicate (p : ByteReader ε α) : ℕ → ByteReader ε (List α)
  | 0 => pure []
  | n + 1 => do
    let a ← p
    let as ← replicate p n
    return a :: as

end ByteReader

/-! ### What a reader reads -/

/-- `p` reads `a` from `enc`, whatever stands before and after. -/
def Reads {ε : Type u} {α : Type v} (p : ByteReader ε α) (enc : List UInt8) (a : α) : Prop :=
  ∀ before rest, p (before ++ (enc ++ rest)) before.length = .ok (a, before.length + enc.length)

namespace Reads

variable {ε : Type u} {α β : Type v}

theorem pure (a : α) : Reads (Pure.pure a : ByteReader ε α) [] a := fun _ _ => rfl

/-- Reading in sequence reads the concatenation. -/
theorem bind {p : ByteReader ε α} {f : α → ByteReader ε β} {enc enc' : List UInt8} {a : α} {b : β}
    (hp : Reads p enc a) (hf : Reads (f a) enc' b) : Reads (p >>= f) (enc ++ enc') b := by
  intro before rest
  have hfirst := hp before (enc' ++ rest)
  have hsecond := hf (before ++ enc) rest
  rw [List.append_assoc, List.length_append] at hsecond
  rw [ByteReader.bind_apply, List.append_assoc, hfirst]
  simp only [hsecond, List.length_append, Nat.add_assoc]

/-- A reader that is finished after its first part. -/
theorem bind_nil {p : ByteReader ε α} {f : α → ByteReader ε β} {enc : List UInt8} {a : α} {b : β}
    (hp : Reads p enc a) (hf : Reads (f a) [] b) : Reads (p >>= f) enc b := by
  have h := hp.bind hf
  rwa [List.append_nil] at h

/-- A value computed from what was read. -/
theorem bind_pure {p : ByteReader ε α} {enc : List UInt8} {a : α} (hp : Reads p enc a)
    (f : α → β) : Reads (p >>= fun x => Pure.pure (f x)) enc (f a) :=
  hp.bind_nil (f := fun x => Pure.pure (f x)) (Reads.pure (f a))

/-- Reading the bytes themselves. -/
theorem slice {short : ℕ → ℕ → ε} {enc : List UInt8} {n : ℕ} (hn : enc.length = n) :
    Reads (ByteReader.slice short n) enc enc := by
  intro before rest
  rw [ByteReader.slice, if_neg (by simp only [List.length_append]; omega), List.drop_left,
    List.take_left' hn, hn]

/-- Reading a list of encoded values. -/
theorem replicate {p : ByteReader ε α} {enc : α → List UInt8} {as : List α}
    (h : ∀ a ∈ as, Reads p (enc a) a) :
    Reads (ByteReader.replicate p as.length) (as.flatMap enc) as := by
  induction as with
  | nil => exact Reads.pure []
  | cons a as ih =>
    have hrest := ih fun b hb => h b (List.mem_cons_of_mem _ hb)
    exact (h a List.mem_cons_self).bind (hrest.bind_pure fun as => a :: as)

end Reads

end NoxSdk
