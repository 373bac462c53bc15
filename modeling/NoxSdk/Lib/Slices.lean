import Mathlib.Data.List.Range

/-!
# Slices of a stream

`slice S start length` are the elements of a stream from one position on. Pieces of a stream, each
with the position where it starts, cover the stream up to a point when every position before it is
in one of them.
-/

namespace NoxSdk.Lib

variable {α : Type*} {S : ℕ → α}

/-- The elements of a stream from a position on. -/
def slice (S : ℕ → α) (start length : ℕ) : List α := (List.range' start length).map S

@[simp] theorem length_slice {start length : ℕ} : (slice S start length).length = length := by
  rw [slice, List.length_map, List.length_range']

@[simp] theorem slice_zero {start : ℕ} : slice S start 0 = [] := rfl

theorem slice_append {start first second : ℕ} :
    slice S start first ++ slice S (start + first) second = slice S start (first + second) := by
  rw [slice, slice, slice, ← List.map_append, List.range'_append_1]

theorem drop_slice {start length count : ℕ} (h : count ≤ length) :
    (slice S start length).drop count = slice S (start + count) (length - count) := by
  obtain ⟨rest, rfl⟩ := Nat.exists_eq_add_of_le h
  rw [← slice_append, List.drop_append_of_le_length (le_of_eq length_slice.symm),
    List.drop_of_length_le (le_of_eq length_slice), List.nil_append, Nat.add_sub_cancel_left]

/-- The data are what the stream holds from the position on. -/
def IsSlice (S : ℕ → α) (start : ℕ) (data : List α) : Prop := data = slice S start data.length

instance [DecidableEq α] {start : ℕ} {data : List α} : Decidable (IsSlice S start data) :=
  inferInstanceAs (Decidable (_ = _))

/-- A prefix of the stream goes on with what a piece holds beyond it. -/
theorem IsSlice.extend {start point : ℕ} {data : List α} (h : IsSlice S start data)
    (hstart : start ≤ point) (hend : point ≤ start + data.length) :
    slice S 0 point ++ data.drop (point - start) = slice S 0 (start + data.length) := by
  have hdrop : data.drop (point - start) = slice S point (start + data.length - point) := by
    rw [h, drop_slice (by omega), length_slice, Nat.add_sub_cancel' hstart]
    congr 1
    omega
  rw [hdrop]
  have happend := @slice_append _ S 0 point (start + data.length - point)
  rwa [Nat.zero_add, Nat.add_sub_cancel' hend] at happend

/-- Every position before the point is in a piece. -/
def Covered (pieces : List (ℕ × List α)) (point : ℕ) : Prop :=
  ∀ i < point, ∃ piece ∈ pieces, piece.1 ≤ i ∧ i < piece.1 + piece.2.length

variable {pieces more : List (ℕ × List α)} {point : ℕ}

theorem Covered.mono (h : Covered pieces point) (hsub : pieces ⊆ more) : Covered more point :=
  fun i hi => (h i hi).imp fun _ ⟨hpiece, hin⟩ => ⟨hsub hpiece, hin⟩

/-- A piece that starts in the covered part covers up to its end. -/
theorem Covered.extend (h : Covered pieces point) {piece : ℕ × List α} (hpiece : piece ∈ pieces)
    (hstart : piece.1 ≤ point) : Covered pieces (piece.1 + piece.2.length) := by
  intro i hi
  by_cases hbefore : i < point
  · exact h i hbefore
  · exact ⟨piece, hpiece, hstart.trans (not_lt.mp hbefore), hi⟩

/-- Nothing is covered beyond a point that no piece goes over. -/
theorem Covered.le {limit : ℕ} (h : Covered pieces point)
    (hlimit : ∀ piece ∈ pieces, piece.1 + piece.2.length ≤ limit ∨ limit < piece.1) :
    point ≤ limit := by
  by_contra hbeyond
  obtain ⟨piece, hpiece, hstart, hend⟩ := h limit (not_le.mp hbeyond)
  rcases hlimit piece hpiece with hbefore | hafter
  · exact absurd hend (not_lt.mpr hbefore)
  · exact absurd hstart (not_le.mpr hafter)

end NoxSdk.Lib
