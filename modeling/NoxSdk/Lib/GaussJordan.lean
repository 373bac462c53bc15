import Mathlib.Algebra.BigOperators.Intervals
import Mathlib.Algebra.BigOperators.Ring.Finset
import Mathlib.Algebra.Field.Defs
import Mathlib.LinearAlgebra.Matrix.NonsingularInverse
import Mathlib.LinearAlgebra.Vandermonde
import Mathlib.Logic.Equiv.Basic

/-!
# Gauss–Jordan inversion

The row operations of Gauss–Jordan elimination on a matrix augmented by the identity, over
an arbitrary field. A matrix is a function of two indices of which only the first `n` rows
matter; the first `n` columns are the matrix being reduced, the next `n` the accumulated
inverse.

`Solved A n c M` is what the loop over the columns establishes on any matrix: every row of `M`
solves the same equations against `A`, and the first `c` columns are already those of the identity.
It is carried over one column by `Solved.pivotStep`, and after `n` columns says that the right half
is a left inverse of `A` (`Solved.left_inverse`). `Augmented A n c M` says besides that no nonzero
vector is killed by the left half; it holds of the initial matrix when `A` is regular
(`augmented_augment`) and provides a pivot in every column (`Augmented.exists_pivot`).

Vandermonde matrices over different nodes are regular (`regular_vandermonde`), and a left
inverse of a square matrix is a right inverse (`mul_inverse_of_inverse_mul`).
-/

namespace NoxSdk.GaussJordan

open Finset

variable {K : Type*} [Field K]

/-- A square matrix that kills no nonzero vector. -/
def Regular (A : ℕ → ℕ → K) (n : ℕ) : Prop :=
  ∀ v : ℕ → K, (∀ i < n, ∑ k ∈ range n, A i k * v k = 0) → ∀ k < n, v k = 0

/-! ### Row operations -/

/-- Exchange two rows. -/
def swapRows (M : ℕ → ℕ → K) (p q : ℕ) : ℕ → ℕ → K := fun i => M (Equiv.swap p q i)

/-- Multiply a row. -/
def scaleRow (M : ℕ → ℕ → K) (r : ℕ) (s : K) : ℕ → ℕ → K := fun i k =>
  if i = r then s * M r k else M i k

/-- Subtract from every other row the multiple of row `c` that clears its column `c`. -/
def clearColumn (M : ℕ → ℕ → K) (c : ℕ) : ℕ → ℕ → K := fun i k =>
  if i = c then M c k else M i k - M i c * M c k

/-- One column of the elimination with pivot row `p`. -/
def pivotStep (M : ℕ → ℕ → K) (c p : ℕ) : ℕ → ℕ → K :=
  clearColumn (scaleRow (swapRows M c p) c (M p c)⁻¹) c

/-- The matrix next to the identity. -/
def augment (A : ℕ → ℕ → K) (n : ℕ) : ℕ → ℕ → K := fun i k =>
  if k < n then A i k else if k - n = i then 1 else 0

/-! ### The loop invariant -/

/-- What `c` columns of the elimination establish on any matrix. -/
structure Solved (A : ℕ → ℕ → K) (n c : ℕ) (M : ℕ → ℕ → K) : Prop where
  /-- The right half expresses the left half in the rows of `A`. -/
  solves : ∀ i < n, ∀ k < n, M i k = ∑ j ∈ range n, M i (n + j) * A j k
  /-- The first `c` columns are those of the identity. -/
  reduced : ∀ i < n, ∀ k < c, M i k = if i = k then 1 else 0

theorem solved_augment (A : ℕ → ℕ → K) (n : ℕ) : Solved A n 0 (augment A n) where
  solves := by
    intro i hi k hk
    have hid : ∀ j ∈ range n, augment A n i (n + j) * A j k = if i = j then A i k else 0 := by
      intro j _
      by_cases hij : i = j
      · subst hij
        simp [augment]
      · simp [augment, hij, Ne.symm hij]
    rw [sum_congr rfl hid, sum_ite_eq, if_pos (mem_range.mpr hi), augment, if_pos hk]
  reduced := fun _ _ k hk => absurd hk (Nat.not_lt_zero k)

namespace Solved

variable {A M : ℕ → ℕ → K} {n c : ℕ}

theorem swapRows (h : Solved A n c M) {p : ℕ} (hcp : c ≤ p) (hp : p < n) :
    Solved A n c (swapRows M c p) := by
  have hlt : ∀ i < n, Equiv.swap c p i < n := by
    intro i hi
    rw [Equiv.swap_apply_def]
    split_ifs <;> omega
  refine ⟨fun i hi k hk => h.solves _ (hlt i hi) k hk, fun i hi k hk => ?_⟩
  rw [GaussJordan.swapRows, h.reduced _ (hlt i hi) k hk]
  have hiff : Equiv.swap c p i = k ↔ i = k := by
    rw [Equiv.swap_apply_def]
    split_ifs <;> omega
  simp only [hiff]

theorem scaleRow (h : Solved A n c M) (s : K) (hc : c < n) : Solved A n c (scaleRow M c s) := by
  refine ⟨fun i hi k hk => ?_, fun i hi k hk => ?_⟩
  · by_cases hic : i = c
    · subst hic
      simp only [GaussJordan.scaleRow, if_pos, h.solves i hi k hk, mul_sum, mul_assoc]
    · simp only [GaussJordan.scaleRow, if_neg hic, h.solves i hi k hk]
  · by_cases hic : i = c
    · subst hic
      have hik : i ≠ k := by omega
      simp [GaussJordan.scaleRow, h.reduced i hi k hk, hik]
    · simp [GaussJordan.scaleRow, hic, h.reduced i hi k hk]

theorem clearColumn (h : Solved A n c M) (hone : M c c = 1) (hc : c < n) :
    Solved A n (c + 1) (clearColumn M c) := by
  refine ⟨fun i hi k hk => ?_, fun i hi k hk => ?_⟩
  · by_cases hic : i = c
    · subst hic
      simp only [GaussJordan.clearColumn, if_pos, h.solves i hi k hk]
    · simp only [GaussJordan.clearColumn, if_neg hic, sub_mul, sum_sub_distrib, mul_assoc,
        ← mul_sum, ← h.solves i hi k hk, ← h.solves c hc k hk]
  · by_cases hic : i = c
    · subst hic
      rcases Nat.lt_succ_iff_lt_or_eq.mp hk with hki | rfl
      · simp [GaussJordan.clearColumn, h.reduced i hi k hki]
      · simp [GaussJordan.clearColumn, hone]
    · rcases Nat.lt_succ_iff_lt_or_eq.mp hk with hki | rfl
      · have hck : c ≠ k := by omega
        simp [GaussJordan.clearColumn, hic, h.reduced i hi k hki, h.reduced c hc k hki, hck]
      · simp [GaussJordan.clearColumn, hic, hone]

/-- One column: after the pivot row is exchanged, normalised and used to clear the column, one
more column is reduced. -/
theorem pivotStep (h : Solved A n c M) {p : ℕ} (hcp : c ≤ p) (hp : p < n)
    (hpivot : M p c ≠ 0) : Solved A n (c + 1) (pivotStep M c p) := by
  have hc : c < n := by omega
  refine ((h.swapRows hcp hp).scaleRow _ hc).clearColumn ?_ hc
  simp [GaussJordan.scaleRow, GaussJordan.swapRows, hpivot]

/-- After the last column the right half is a left inverse. -/
theorem left_inverse (h : Solved A n n M) {i k : ℕ} (hi : i < n) (hk : k < n) :
    ∑ j ∈ range n, M i (n + j) * A j k = if i = k then 1 else 0 := by
  rw [← h.solves i hi k hk, h.reduced i hi k hk]

end Solved

/-- The invariant of the elimination of a regular matrix after `c` columns. -/
structure Augmented (A : ℕ → ℕ → K) (n c : ℕ) (M : ℕ → ℕ → K) : Prop where
  /-- The right half expresses the left half in the rows of `A`. -/
  solves : ∀ i < n, ∀ k < n, M i k = ∑ j ∈ range n, M i (n + j) * A j k
  /-- The first `c` columns are those of the identity. -/
  reduced : ∀ i < n, ∀ k < c, M i k = if i = k then 1 else 0
  /-- The left half kills no nonzero vector. -/
  regular : Regular M n

theorem Augmented.solved {A M : ℕ → ℕ → K} {n c : ℕ} (h : Augmented A n c M) : Solved A n c M :=
  ⟨h.solves, h.reduced⟩

theorem augmented_augment {A : ℕ → ℕ → K} {n : ℕ} (hA : Regular A n) :
    Augmented A n 0 (augment A n) where
  solves := (solved_augment A n).solves
  reduced := (solved_augment A n).reduced
  regular := by
    intro v hv
    refine hA v fun i hi => ?_
    rw [← hv i hi]
    exact sum_congr rfl fun k hk => by rw [augment, if_pos (mem_range.mp hk)]

namespace Augmented

variable {A M : ℕ → ℕ → K} {n c : ℕ}

/-- A column of the identity that is not yet reached has a nonzero entry at or below the
diagonal: otherwise the vector with the negated column and a `1` at `c` would be killed. -/
theorem exists_pivot (h : Augmented A n c M) (hc : c < n) : ∃ p, c ≤ p ∧ p < n ∧ M p c ≠ 0 := by
  by_contra hnone
  push Not at hnone
  let v : ℕ → K := fun k => if k < c then -M k c else if k = c then 1 else 0
  have hkilled : ∀ i < n, ∑ k ∈ range n, M i k * v k = 0 := by
    intro i hi
    have hsplit : ∀ k ∈ range n, M i k * v k
        = (if k = i then (if i < c then -M i c else 0) else 0) + (if k = c then M i c else 0) := by
      intro k _
      rcases lt_trichotomy k c with hk | rfl | hk
      · rw [h.reduced i hi k hk]
        by_cases hik : i = k
        · subst hik
          simp [v, hk, hk.ne]
        · simp [hik, Ne.symm hik, hk.ne]
      · have hik : ¬ (k = i ∧ i < k) := fun hc' => absurd hc'.2 (by omega)
        by_cases hki : k = i
        · subst hki
          simp [v]
        · simp [v, hki]
      · by_cases hki : k = i
        · subst hki
          simp [v, hk.not_gt, hk.ne']
        · simp [v, hk.not_gt, hk.ne', hki]
    rw [sum_congr rfl hsplit, sum_add_distrib, sum_ite_eq', sum_ite_eq',
      if_pos (mem_range.mpr hi), if_pos (mem_range.mpr hc)]
    by_cases hic : i < c
    · simp [hic]
    · simp [hic, hnone i (not_lt.mp hic) hi]
  have hvc := h.regular v hkilled c hc
  simp [v] at hvc

theorem swapRows (h : Augmented A n c M) {p : ℕ} (hcp : c ≤ p) (hp : p < n) :
    Augmented A n c (swapRows M c p) where
  solves := (h.solved.swapRows hcp hp).solves
  reduced := (h.solved.swapRows hcp hp).reduced
  regular := by
    intro v hv
    refine h.regular v fun i hi => ?_
    have hlt : Equiv.swap c p i < n := by
      rw [Equiv.swap_apply_def]
      split_ifs <;> omega
    have hi' := hv _ hlt
    simpa only [GaussJordan.swapRows, Equiv.swap_apply_self] using hi'

theorem scaleRow (h : Augmented A n c M) {s : K} (hs : s ≠ 0) (hc : c < n) :
    Augmented A n c (scaleRow M c s) where
  solves := (h.solved.scaleRow s hc).solves
  reduced := (h.solved.scaleRow s hc).reduced
  regular := by
    intro v hv
    refine h.regular v fun i hi => ?_
    have hi' := hv i hi
    by_cases hic : i = c
    · subst hic
      simp only [GaussJordan.scaleRow, if_pos, mul_assoc, ← mul_sum] at hi'
      exact (mul_eq_zero.mp hi').resolve_left hs
    · simpa only [GaussJordan.scaleRow, if_neg hic] using hi'

theorem clearColumn (h : Augmented A n c M) (hone : M c c = 1) (hc : c < n) :
    Augmented A n (c + 1) (clearColumn M c) where
  solves := (h.solved.clearColumn hone hc).solves
  reduced := (h.solved.clearColumn hone hc).reduced
  regular := by
    intro v hv
    have hrow : ∑ k ∈ range n, M c k * v k = 0 := by
      simpa [GaussJordan.clearColumn] using hv c hc
    refine h.regular v fun i hi => ?_
    by_cases hic : i = c
    · rw [hic, hrow]
    · have hi' := hv i hi
      simp only [GaussJordan.clearColumn, if_neg hic, sub_mul, sum_sub_distrib, mul_assoc,
        ← mul_sum, hrow, mul_zero, sub_zero] at hi'
      exact hi'

/-- One column of the elimination keeps the invariant. -/
theorem pivotStep (h : Augmented A n c M) {p : ℕ} (hcp : c ≤ p) (hp : p < n)
    (hpivot : M p c ≠ 0) : Augmented A n (c + 1) (pivotStep M c p) := by
  have hc : c < n := by omega
  refine ((h.swapRows hcp hp).scaleRow (inv_ne_zero hpivot) hc).clearColumn ?_ hc
  simp [GaussJordan.scaleRow, GaussJordan.swapRows, hpivot]

end Augmented

/-! ### Square matrices -/

private theorem toMatrix_mul (R A : ℕ → ℕ → K) (n : ℕ) (i k : Fin n) :
    (Matrix.of (fun i j : Fin n => R i j) * Matrix.of (fun i j : Fin n => A i j)) i k
      = ∑ j ∈ range n, R i j * A j k := by
  rw [Matrix.mul_apply, sum_range fun j => R i j * A j k]
  rfl

/-- A left inverse is a right inverse. -/
theorem mul_inverse_of_inverse_mul {R A : ℕ → ℕ → K} {n : ℕ}
    (h : ∀ i < n, ∀ k < n, ∑ j ∈ range n, R i j * A j k = if i = k then 1 else 0) :
    ∀ i < n, ∀ k < n, ∑ j ∈ range n, A i j * R j k = if i = k then 1 else 0 := by
  have hmul : Matrix.of (fun i j : Fin n => R i j) * Matrix.of (fun i j : Fin n => A i j) = 1 := by
    ext i k
    rw [toMatrix_mul, h i i.2 k k.2, Matrix.one_apply]
    simp only [Fin.ext_iff]
  have hcomm : Matrix.of (fun i j : Fin n => A i j) * Matrix.of (fun i j : Fin n => R i j) = 1 :=
    mul_eq_one_comm.mp hmul
  intro i hi k hk
  have hentry := congrFun (congrFun hcomm ⟨i, hi⟩) ⟨k, hk⟩
  rw [toMatrix_mul, Matrix.one_apply] at hentry
  simpa only [Fin.mk.injEq] using hentry

/-- A matrix with a repeated row has no left inverse. -/
theorem not_inverse_of_eq_rows {R A : ℕ → ℕ → K} {n a b : ℕ} (ha : a < n) (hb : b < n)
    (hab : a ≠ b) (hrows : ∀ k < n, A a k = A b k) :
    ¬ ∀ i < n, ∀ k < n, ∑ j ∈ range n, R i j * A j k = if i = k then 1 else 0 := by
  intro hleft
  have hright := mul_inverse_of_inverse_mul hleft
  have hone := hright a ha a ha
  rw [sum_congr rfl fun j hj => by rw [hrows j (mem_range.mp hj)], hright b hb a ha,
    if_pos rfl, if_neg hab.symm] at hone
  exact zero_ne_one hone

/-- Rows of powers of different nodes form a regular matrix. -/
theorem regular_vandermonde {node : ℕ → K} {n : ℕ}
    (hnode : ∀ i < n, ∀ j < n, node i = node j → i = j) :
    Regular (fun i k => node i ^ k) n := by
  intro v hv k hk
  have hdet : (Matrix.vandermonde fun i : Fin n => node i).det ≠ 0 :=
    Matrix.det_vandermonde_ne_zero_iff.mpr fun i j hij => Fin.ext (hnode i i.2 j j.2 hij)
  have hzero : (Matrix.vandermonde fun i : Fin n => node i).mulVec (fun k : Fin n => v k) = 0 := by
    funext i
    have hi := hv i i.2
    rw [sum_range fun k => node i ^ k * v k] at hi
    exact hi
  exact congrFun (Matrix.eq_zero_of_mulVec_eq_zero hdet hzero) ⟨k, hk⟩

/-- Multiplying a regular matrix by an invertible one keeps it regular. -/
theorem Regular.mul {A B C : ℕ → ℕ → K} {n : ℕ} (hA : Regular A n)
    (hB : ∀ i < n, ∀ k < n, ∑ j ∈ range n, C i j * B j k = if i = k then 1 else 0) :
    Regular (fun i k => ∑ j ∈ range n, A i j * B j k) n := by
  intro v hv
  have hBv : ∀ j < n, ∑ k ∈ range n, B j k * v k = 0 := by
    refine hA _ fun i hi => ?_
    rw [← hv i hi]
    simp only [mul_sum, sum_mul, mul_assoc]
    exact sum_comm
  intro k hk
  have hkv : ∑ j ∈ range n, C k j * ∑ l ∈ range n, B j l * v l = v k := by
    calc ∑ j ∈ range n, C k j * ∑ l ∈ range n, B j l * v l
        = ∑ l ∈ range n, (∑ j ∈ range n, C k j * B j l) * v l := by
          simp only [mul_sum, sum_mul, mul_assoc]
          exact sum_comm
      _ = ∑ l ∈ range n, (if k = l then 1 else 0) * v l :=
          sum_congr rfl fun l hl => by rw [hB k hk l (mem_range.mp hl)]
      _ = v k := by simp [hk]
  rw [← hkv]
  exact sum_eq_zero fun j hj => by rw [hBv j (mem_range.mp hj), mul_zero]

end NoxSdk.GaussJordan
