import NoxSdk.Fragmentation.DecodeShards
import NoxSdk.Lib.GaussJordan

/-!
# Reconstruction from any sufficient set of shards

The decoder on bytes computes over the field GF(2⁸): a matrix of bytes is a matrix of field
elements (`toCells`), `gfPivotStep` is the row operation `GaussJordan.pivotStep`
(`gfPivotStep_toCells`), and `gfMatrixInvert` inverts every regular matrix
(`gfMatrixInvert_toCells`).

The encode matrix is a Vandermonde matrix times an invertible one (`EncodeMatrix`), so any
`D` of its rows are regular and its first `D` rows are those of the identity. Inverting the rows of
the shards that arrived therefore gives back the data shards (`rsReconstruct_eq`), whichever
they are: `decodeShards_encodeShards`. The results differ for an original length beyond the data,
to which only the reconstruction fills up (`decodeShards_paths_agree_iff`).

A row number from 256 on is no index of the tables; its row of the encode matrix repeats row 0
(`nodeRow`, `buildEncodeMatrix_nodeRow`).
-/

namespace NoxSdk.Fragmentation

open Finset GaussJordan

/-! ### Matrices of field elements -/

/-- The table values of an `n` by `m` matrix over the field. -/
def toCells (n m : ℕ) (M : ℕ → ℕ → GF256) : CellMatrix :=
  (List.range n).map fun i => (List.range m).map fun k => (M i k).cell

theorem row_toCells {n m : ℕ} (M : ℕ → ℕ → GF256) {i : ℕ} (hi : i < n) :
    (toCells n m M).row i = (List.range m).map fun k => (M i k).cell := by
  simp [toCells, CellMatrix.row, hi]

theorem ofRow_map_range {m : ℕ} (f : ℕ → GF256) {k : ℕ} (hk : k < m) :
    Cell.ofRow ((List.range m).map fun k => (f k).cell) k = (f k).cell := by
  simp [Cell.ofRow, hk]

theorem entry_toCells {n m : ℕ} (M : ℕ → ℕ → GF256) {i k : ℕ} (hi : i < n) (hk : k < m) :
    (toCells n m M).entry i k = (M i k).cell := by
  rw [CellMatrix.entry, row_toCells M hi, ofRow_map_range _ hk]

/-- Only the entries within the bounds are written. -/
theorem toCells_congr {n m : ℕ} {M M' : ℕ → ℕ → GF256}
    (h : ∀ i < n, ∀ k < m, M i k = M' i k) : toCells n m M = toCells n m M' :=
  List.map_congr_left fun i hi => List.map_congr_left fun k hk => by
    rw [h i (List.mem_range.mp hi) k (List.mem_range.mp hk)]

@[simp]
theorem length_toCells (n m : ℕ) (M : ℕ → ℕ → GF256) : (toCells n m M).length = n := by
  simp [toCells]

theorem xor_cell (a b : GF256) : a.cell.xor b.cell = (a + b).cell := rfl

/-- Replacing a row. -/
private theorem set_toCells {n m : ℕ} (M : ℕ → ℕ → GF256) (r : ℕ) (f : ℕ → GF256) :
    (toCells n m M).set r ((List.range m).map fun k => (f k).cell)
      = toCells n m fun i k => if i = r then f k else M i k := by
  apply List.ext_getElem?
  intro i
  by_cases hir : r = i
  · subst hir
    by_cases hr : r < n <;> simp [toCells, hr]
  · by_cases hi : i < n <;> simp [toCells, hir, Ne.symm hir, hi]

/-! ### One column -/

/-- The step of the code on the written matrix is the step of the library on the matrix it stands
for. -/
theorem gfSwapRows_toCells {n m : ℕ} (M : ℕ → ℕ → GF256) {c p : ℕ} (hc : c < n) (hp : p < n) :
    gfSwapRows (toCells n m M) c p = toCells n m (swapRows M c p) := by
  rw [gfSwapRows, row_toCells M hp, row_toCells M hc, set_toCells, set_toCells]
  refine toCells_congr fun i _ k _ => ?_
  rw [swapRows, Equiv.swap_apply_def]
  split_ifs <;> simp_all

/-- Scaling a row of the written matrix scales the row of the matrix it stands for. -/
theorem gfScaleRow_toCells {n : ℕ} (M : ℕ → ℕ → GF256) {c : ℕ} (hc : c < n) (s : GF256) :
    gfScaleRow n (toCells n (2 * n) M) c s.cell = toCells n (2 * n) (scaleRow M c s) := by
  have hrow : (List.range (2 * n)).map (fun k => gfMul ((toCells n (2 * n) M).entry c k) s.cell)
      = (List.range (2 * n)).map fun k => (s * M c k).cell := by
    refine List.map_congr_left fun k hk => ?_
    rw [entry_toCells M hc (List.mem_range.mp hk), gfMul_cell, mul_comm]
  rw [gfScaleRow, hrow, set_toCells]
  rfl

/-- Clearing a column of the written matrix clears the column of the matrix it stands for. -/
theorem gfClearColumn_toCells {n : ℕ} (M : ℕ → ℕ → GF256) {c : ℕ} (hc : c < n) :
    gfClearColumn n (toCells n (2 * n) M) c = toCells n (2 * n) (clearColumn M c) := by
  apply List.ext_getElem?
  intro i
  by_cases hi : i < n
  swap
  · simp [gfClearColumn, toCells, hi]
  have hfactor : Cell.ofRow ((List.range (2 * n)).map fun k => (M i k).cell) c = (M i c).cell :=
    ofRow_map_range _ (by omega)
  have hlhs : (gfClearColumn n (toCells n (2 * n) M) c)[i]? = some
      (if i = c then (List.range (2 * n)).map fun k => (M i k).cell
        else if (M i c).cell = some 0 then (List.range (2 * n)).map fun k => (M i k).cell
        else (List.range (2 * n)).map fun k => (M i k + M i c * M c k).cell) := by
    rw [gfClearColumn, List.getElem?_mapIdx,
      show (toCells n (2 * n) M)[i]? = some ((List.range (2 * n)).map fun k => (M i k).cell) by
        simp [toCells, hi], Option.map_some, hfactor]
    congr 3
    refine List.map_congr_left fun k hk => ?_
    rw [ofRow_map_range _ (List.mem_range.mp hk), entry_toCells M hc (List.mem_range.mp hk),
      gfMul_cell, xor_cell]
  rw [hlhs]
  simp only [toCells, List.getElem?_map, List.getElem?_range hi, Option.map_some, clearColumn]
  by_cases hic : i = c
  · subst hic
    simp
  · -- in characteristic two the difference is the sum
    have hsub : ∀ k, M i k - M i c * M c k = M i k + M i c * M c k := fun k => by
      rw [sub_eq_add_neg, GF256.neg_eq]
    simp only [if_neg hic, hsub, GF256.cell_eq_zero_iff]
    by_cases hzero : M i c = 0
    · simp [hzero]
    · simp [hzero]

/-- A round of `gfMatrixInvert` is one pivot step of the elimination, or finds no pivot. -/
theorem gfPivotStep_toCells_cases (M : ℕ → ℕ → GF256) {n c : ℕ} (hc : c < n) :
    (gfPivotStep n (toCells n (2 * n) M) c = .error singularMatrix ∧
        ∀ p, c ≤ p → p < n → M p c = 0) ∨
      ∃ p, c ≤ p ∧ p < n ∧ M p c ≠ 0 ∧
        gfPivotStep n (toCells n (2 * n) M) c = .ok (toCells n (2 * n) (pivotStep M c p)) := by
  have hentry : ∀ row < n, (toCells n (2 * n) M).entry row c = (M row c).cell := fun row hrow =>
    entry_toCells M hrow (by omega)
  cases hfind : gfFindPivot n (toCells n (2 * n) M) c with
  | none =>
    refine .inl ⟨by rw [gfPivotStep, hfind], fun p hcp hp => ?_⟩
    rw [gfFindPivot, List.find?_eq_none] at hfind
    have hzero := hfind p (List.mem_range'_1.mpr ⟨hcp, by omega⟩)
    rw [hentry p hp] at hzero
    simpa using hzero
  | some p =>
    have hmem := List.mem_range'_1.mp (List.mem_of_find?_eq_some hfind)
    have hp : p < n := by omega
    have hne : M p c ≠ 0 := by
      have hpred := List.find?_some hfind
      rw [hentry p hp] at hpred
      simpa using hpred
    refine .inr ⟨p, hmem.1, hp, hne, ?_⟩
    have hswap : (if p ≠ c then gfSwapRows (toCells n (2 * n) M) c p else toCells n (2 * n) M)
        = toCells n (2 * n) (swapRows M c p) := by
      by_cases hpc : p = c
      · subst hpc
        rw [if_neg (by simp)]
        exact toCells_congr fun i _ k _ => by rw [swapRows, Equiv.swap_self]; rfl
      · rw [if_pos hpc, gfSwapRows_toCells M hc hp]
    -- after the swap the pivot stands on the diagonal
    have hpivot : (toCells n (2 * n) (swapRows M c p)).entry c c = (M p c).cell := by
      rw [entry_toCells _ hc (by omega), swapRows, Equiv.swap_apply_left]
    rw [gfPivotStep, hfind]
    simp only [hswap, hpivot, ne_eq, GF256.cell_eq_one_iff]
    by_cases hone : M p c = 1
    · -- the code skips the scaling by one
      have hnoop : toCells n (2 * n) (scaleRow (swapRows M c p) c (M p c)⁻¹)
          = toCells n (2 * n) (swapRows M c p) := by
        refine toCells_congr fun i _ k _ => ?_
        by_cases hic : i = c <;> simp [scaleRow, hone, hic]
      rw [if_neg (by simp [hone])]
      simp only [pure_bind, pivotStep, ← gfClearColumn_toCells _ hc, hnoop]
      rfl
    · rw [if_pos hone, gfInv_cell hne]
      simp only [pivotStep, ← gfClearColumn_toCells _ hc, ← gfScaleRow_toCells _ hc]
      rfl

/-- The elimination of a regular matrix finds a pivot in every column. -/
theorem gfPivotStep_toCells {A M : ℕ → ℕ → GF256} {n c : ℕ} (h : Augmented A n c M)
    (hc : c < n) : ∃ p, c ≤ p ∧ p < n ∧ M p c ≠ 0 ∧
      gfPivotStep n (toCells n (2 * n) M) c = .ok (toCells n (2 * n) (pivotStep M c p)) := by
  refine (gfPivotStep_toCells_cases M hc).resolve_left fun hnone => ?_
  obtain ⟨p, hcp, hp, hne⟩ := h.exists_pivot hc
  exact hne (hnone.2 p hcp hp)

/-! ### Inversion -/

/-- The loop over the columns keeps the invariant of the elimination. -/
theorem foldlM_gfPivotStep {A : ℕ → ℕ → GF256} {n : ℕ} (hA : Regular A n) {c : ℕ} (hc : c ≤ n) :
    ∃ M, Augmented A n c M ∧
      (List.range c).foldlM (gfPivotStep n) (toCells n (2 * n) (augment A n))
        = .ok (toCells n (2 * n) M) := by
  induction c with
  | zero => exact ⟨augment A n, augmented_augment hA, rfl⟩
  | succ c ih =>
    obtain ⟨M, hM, hrun⟩ := ih (by omega)
    obtain ⟨p, hcp, hp, hne, hstep⟩ := gfPivotStep_toCells hM (by omega)
    refine ⟨pivotStep M c p, hM.pivotStep hcp hp hne, ?_⟩
    rw [List.range_succ, List.foldlM_append, hrun]
    simp only [List.foldlM_cons, List.foldlM_nil]
    exact congrArg (fun r => r >>= pure) hstep

/-- The rest of the loop, on any matrix: it ends without a pivot or reduces the columns. -/
theorem foldlM_range'_gfPivotStep {A M : ℕ → ℕ → GF256} {n c : ℕ} (h : Solved A n c M) (k : ℕ)
    (hk : c + k ≤ n) :
    (List.range' c k).foldlM (gfPivotStep n) (toCells n (2 * n) M) = .error singularMatrix ∨
      ∃ M', Solved A n (c + k) M' ∧
        (List.range' c k).foldlM (gfPivotStep n) (toCells n (2 * n) M)
          = .ok (toCells n (2 * n) M') := by
  -- the induction is on the columns that are left
  induction k generalizing c M with
  | zero => exact .inr ⟨M, h, rfl⟩
  | succ k ih =>
    rw [List.range'_succ, List.foldlM_cons]
    have hc : c < n := by omega
    rcases gfPivotStep_toCells_cases M hc with ⟨hnone, -⟩ | ⟨p, hcp, hp, hne, hstep⟩
    · exact .inl (by rw [hnone]; rfl)
    · have hrest := ih (h.pivotStep hcp hp hne) (by omega)
      rw [show c + 1 + k = c + (k + 1) by omega] at hrest
      rw [hstep]
      exact hrest

/-- The augmented matrix of a table: the table, and next to it the identity. -/
theorem gfAugment_table {n : ℕ} {f g : ℕ → ℕ → Cell} (hleft : ∀ i, ∀ k < n, f i k = g i k)
    (hright : ∀ i j, g i (n + j) = if j = i then some 1 else some 0) :
    gfAugment ((List.range n).map fun i => (List.range n).map (f i)) n =
      (List.range n).map fun i => (List.range (2 * n)).map (g i) := by
  apply List.ext_getElem?
  intro i
  by_cases hi : i < n
  swap
  · simp [gfAugment, hi]
  rw [gfAugment, List.getElem?_mapIdx]
  simp only [List.getElem?_map, List.getElem?_range hi, Option.map_some]
  rw [two_mul, List.range_add, List.map_append, List.map_map]
  congr 2
  · exact List.map_congr_left fun k hk => hleft i k (List.mem_range.mp hk)
  · exact List.map_congr_left fun j _ => (hright i j).symm

/-- The code writes the unit matrix beside the matrix, as the library does. -/
theorem gfAugment_toCells (A : ℕ → ℕ → GF256) (n : ℕ) :
    gfAugment (toCells n n A) n = toCells n (2 * n) (augment A n) := by
  refine gfAugment_table (fun i k hk => ?_) fun i j => ?_
  · rw [augment, if_pos hk]
  · by_cases hji : j = i <;> simp [augment, hji, GF256.cell]

private theorem map_drop_toCells (M : ℕ → ℕ → GF256) (n : ℕ) :
    (toCells n (2 * n) M).map (·.drop n) = toCells n n fun i k => M i (n + k) := by
  rw [toCells, List.map_map]
  refine List.map_congr_left fun i _ => ?_
  simp only [Function.comp_apply, two_mul, List.range_add, List.map_append, List.map_map]
  rw [List.drop_left' (by simp)]
  rfl

/-- `gfMatrixInvert` finds a left inverse of every regular matrix. -/
theorem gfMatrixInvert_toCells {A : ℕ → ℕ → GF256} {n : ℕ} (hA : Regular A n) :
    ∃ R, gfMatrixInvert (toCells n n A) n = .ok (toCells n n R) ∧
      ∀ i < n, ∀ k < n, ∑ j ∈ range n, R i j * A j k = if i = k then 1 else 0 := by
  obtain ⟨M, hM, hrun⟩ := foldlM_gfPivotStep hA (le_refl n)
  refine ⟨fun i k => M i (n + k), ?_, fun i hi k hk => hM.solved.left_inverse hi hk⟩
  rw [gfMatrixInvert, gfAugment_toCells, hrun, ← map_drop_toCells]
  rfl

/-- A run of `gfMatrixInvert` whose first columns reduce a matrix with a repeated row throws: one
that reduced all of them would have found a left inverse. -/
theorem gfMatrixInvert_eq_error {A : ℕ → ℕ → GF256} {matrix : CellMatrix} {n a b c : ℕ}
    {M : ℕ → ℕ → GF256} (h : Solved A n c M) (hc : c ≤ n)
    (hfirst : (List.range' 0 c).foldlM (gfPivotStep n) (gfAugment matrix n)
      = .ok (toCells n (2 * n) M))
    (ha : a < n) (hb : b < n) (hab : a ≠ b) (hrows : ∀ k < n, A a k = A b k) :
    gfMatrixInvert matrix n = .error singularMatrix := by
  have hsplit : List.range n = List.range' 0 c ++ List.range' c (n - c) := by
    have happend := @List.range'_append 0 c (n - c) 1
    rw [Nat.one_mul, Nat.zero_add, Nat.add_sub_cancel' hc] at happend
    rw [List.range_eq_range', happend]
  rw [gfMatrixInvert, hsplit, List.foldlM_append, hfirst]
  rcases foldlM_range'_gfPivotStep h (n - c) (by omega) with herror | ⟨M', hM', -⟩
  · exact congrArg (· >>= _) herror
  · rw [Nat.add_sub_cancel' hc] at hM'
    exact absurd (fun i hi k hk => hM'.left_inverse hi hk) (not_inverse_of_eq_rows ha hb hab hrows)

/-- `gfMatrixInvert` throws on a matrix with a repeated row. -/
theorem gfMatrixInvert_of_eq_rows {A : ℕ → ℕ → GF256} {n a b : ℕ} (ha : a < n) (hb : b < n)
    (hab : a ≠ b) (hrows : ∀ k < n, A a k = A b k) :
    gfMatrixInvert (toCells n n A) n = .error singularMatrix :=
  gfMatrixInvert_eq_error (solved_augment A n) (Nat.zero_le n)
    (by rw [gfAugment_toCells]; rfl) ha hb hab hrows

/-! ### The encode matrix -/

/-- A Vandermonde matrix with its top square normalised to the identity: `T` is a right
inverse of the top square. -/
structure EncodeMatrix (D : ℕ) (T E : ℕ → ℕ → GF256) : Prop where
  eq : ∀ r k, E r k = ∑ j ∈ range D, GF256.ofNat r ^ j * T j k
  top : ∀ i < D, ∀ k < D, ∑ j ∈ range D, GF256.ofNat i ^ j * T j k = if i = k then 1 else 0

/-- A fold of `^` is the sum of the field. -/
theorem foldl_xor_cell (f : ℕ → GF256) (n : ℕ) :
    (List.range n).foldl (fun acc k => Cell.xor acc (f k).cell) (some 0)
      = (∑ k ∈ range n, f k).cell := by
  induction n with
  | zero => rfl
  | succ n ih =>
    rw [List.range_succ, List.foldl_append, ih, sum_range_succ, ← xor_cell]
    rfl

theorem cell_ofIndex {r : ℕ} (hr : r < 256) : Cell.ofIndex r = (GF256.ofNat r).cell := by
  rw [Cell.ofIndex, gfSize, if_pos hr]
  rfl

/-- The row of the encode matrix that row `r` repeats: a row number from 256 on is no index of
the tables, and its powers read as those of `0`. -/
def nodeRow (r : ℕ) : ℕ := if r < 256 then r else 0

/-- Every row repeats one whose number is an index of the tables. -/
theorem nodeRow_lt (r : ℕ) : nodeRow r < 256 := by
  rw [nodeRow]
  split_ifs <;> omega

/-- A factor that is `undefined` makes the product so, next to a factor that is not `0`. -/
theorem gfMul_none {a : Cell} (ha : a ≠ some 0) : gfMul a none = none := by
  rw [gfMul, if_neg (by simp [ha])]
  cases a.log <;> rfl

private theorem gfExp_powLoop_none (fuel e : ℕ) : gfExp_powLoop fuel none none e = none := by
  induction fuel generalizing e with
  | zero => rfl
  | succ fuel ih =>
    rw [gfExp_powLoop, gfMul_none (by simp), ite_self, ih, ite_self]

private theorem gfExp_powLoop_one_none {fuel e : ℕ} (hpos : e ≠ 0) (hle : e ≤ fuel) :
    gfExp_powLoop fuel (some 1) none e = none := by
  induction fuel generalizing e with
  | zero => omega
  | succ fuel ih =>
    rw [gfExp_powLoop, if_neg hpos, gfMul_none (by decide), gfMul_none (by simp)]
    by_cases hodd : e % 2 = 1
    · rw [if_pos hodd, gfExp_powLoop_none]
    · rw [if_neg hodd]
      exact ih (by omega) (by omega)

/-- Powers of zero, which has no logarithm, are zero. -/
theorem gfExp_pow_none {e : ℕ} (he : e ≠ 0) : gfExp_pow none e = none := by
  rw [gfExp_pow, if_neg he, if_neg (by simp)]
  exact gfExp_powLoop_one_none he (le_refl e)

/-- The exclusive or reads an entry of the Vandermonde matrix as a power of its node. -/
theorem getD_gfExp_pow (r c : ℕ) :
    (gfExp_pow (Cell.ofIndex r) c).getD 0 = (GF256.ofNat (nodeRow r) ^ c).byte := by
  by_cases hr : r < 256
  · rw [cell_ofIndex hr, gfExp_pow_cell, nodeRow, if_pos hr]
    rfl
  · rw [Cell.ofIndex, gfSize, if_neg hr, nodeRow, if_neg hr]
    by_cases hc : c = 0
    · subst hc
      rfl
    · rw [gfExp_pow_none hc, show GF256.ofNat 0 = 0 from rfl, zero_pow hc]
      rfl

/-- And a product with it as the product in the field. -/
private theorem xor_gfMul_gfExp_pow (acc : Cell) (r c : ℕ) (b : GF256) :
    acc.xor (gfMul (gfExp_pow (Cell.ofIndex r) c) b.cell)
      = acc.xor (GF256.ofNat (nodeRow r) ^ c * b).cell := by
  have hread := getD_gfExp_pow r c
  cases hpow : gfExp_pow (Cell.ofIndex r) c with
  | some byte =>
    rw [hpow, Option.getD_some] at hread
    rw [hread, ← gfMul_cell]
    rfl
  | none =>
    -- the node reads as `0`, and so does the product
    rw [hpow, Option.getD_none] at hread
    rw [GF256.byte_eq_zero_iff.mp hread.symm, zero_mul, gfMul]
    split_ifs <;> rfl

/-- The first rows of the tall matrix are the square one. -/
theorem take_vandermonde {total D : ℕ} (hD : D ≤ total) :
    (vandermonde total D).take D = vandermonde D D := by
  rw [vandermonde, ← List.map_take, List.take_range, Nat.min_eq_left hD]
  rfl

/-- The written Vandermonde matrix stands for the powers of the elements of its rows. -/
private theorem vandermonde_toCells {total dataCount : ℕ} (htotal : total ≤ 256) :
    vandermonde total dataCount = toCells total dataCount fun r c => GF256.ofNat r ^ c := by
  refine List.map_congr_left fun r hr => List.map_congr_left fun c _ => ?_
  rw [cell_ofIndex (by have := List.mem_range.mp hr; omega), gfExp_pow_cell]

/-- An entry is a power of the element of its row. -/
private theorem entry_vandermonde {total D r c : ℕ} (hr : r < total) (hc : c < D) :
    (vandermonde total D).entry r c = gfExp_pow (Cell.ofIndex r) c := by
  simp [vandermonde, CellMatrix.entry, CellMatrix.row, Cell.ofRow, hr, hc]

/-- The encode matrix for any number of shards: from 256 on its rows repeat row 0. -/
theorem buildEncodeMatrix_nodeRow {D : ℕ} (P : ℕ) (hD : D ≤ 256) :
    ∃ T E, buildEncodeMatrix D P = .ok (toCells (D + P) D fun r k => E (nodeRow r) k) ∧
      EncodeMatrix D T E := by
  have hnodes : ∀ i < D, ∀ j < D, GF256.ofNat i = GF256.ofNat j → i = j := fun i hi j hj =>
    GF256.ofNat_injOn (by omega) (by omega)
  obtain ⟨T, hinv, hleft⟩ := gfMatrixInvert_toCells (regular_vandermonde hnodes)
  refine ⟨T, fun r k => ∑ j ∈ range D, GF256.ofNat r ^ j * T j k, ?_,
    fun _ _ => rfl, mul_inverse_of_inverse_mul hleft⟩
  have hentry : ∀ r < D + P, ∀ c < D, (List.range D).foldl (fun acc k => Cell.xor acc
        (gfMul ((vandermonde (D + P) D).entry r k) ((toCells D D T).entry k c))) (some 0)
      = (∑ j ∈ range D, GF256.ofNat (nodeRow r) ^ j * T j c).cell := by
    intro r hr c hc
    rw [← foldl_xor_cell]
    refine List.foldl_ext _ _ _ fun acc k hk => ?_
    have hk := List.mem_range.mp hk
    rw [entry_vandermonde hr hk, entry_toCells _ hk hc, xor_gfMul_gfExp_pow]
  rw [buildEncodeMatrix]
  simp only [take_vandermonde (Nat.le_add_right D P), vandermonde_toCells hD, hinv]
  refine congrArg Except.ok (List.map_congr_left fun r hr => List.map_congr_left fun c hc => ?_)
  exact hentry r (List.mem_range.mp hr) c (List.mem_range.mp hc)

/-- The encode matrix stands for the Vandermonde matrix times the inverse of its first rows. -/
theorem buildEncodeMatrix_toCells {D P : ℕ} (htotal : D + P ≤ 256) :
    ∃ T E, buildEncodeMatrix D P = .ok (toCells (D + P) D E) ∧ EncodeMatrix D T E := by
  obtain ⟨T, E, hbuild, hE⟩ := buildEncodeMatrix_nodeRow P (show D ≤ 256 by omega)
  refine ⟨T, E, ?_, hE⟩
  rw [hbuild, toCells_congr fun r hr k _ => by rw [nodeRow, if_pos (by omega)]]

namespace EncodeMatrix

variable {D : ℕ} {T E : ℕ → ℕ → GF256}

/-- The first `D` shards of a codeword are the data. -/
theorem systematic (h : EncodeMatrix D T E) (data : ℕ → GF256) {r : ℕ} (hr : r < D) :
    ∑ k ∈ range D, E r k * data k = data r := by
  have hrow : ∀ k ∈ range D, E r k * data k = if r = k then data k else 0 := fun k hk => by
    rw [h.eq, h.top r hr k (mem_range.mp hk), ite_mul, one_mul, zero_mul]
  rw [sum_congr rfl hrow, sum_ite_eq, if_pos (mem_range.mpr hr)]

/-- Any `D` rows of an encode matrix over different nodes are regular. -/
theorem regular_rows (h : EncodeMatrix D T E) {idx : ℕ → ℕ} (hidx : ∀ i < D, idx i < 256)
    (hinj : ∀ i < D, ∀ j < D, idx i = idx j → i = j) : Regular (fun i k => E (idx i) k) D := by
  have hnodes : ∀ i < D, ∀ j < D, GF256.ofNat (idx i) = GF256.ofNat (idx j) → i = j :=
    fun i hi j hj heq => hinj i hi j hj (GF256.ofNat_injOn (hidx i hi) (hidx j hj) heq)
  have hreg := (regular_vandermonde hnodes).mul (B := T) (C := fun i j => GF256.ofNat i ^ j) h.top
  simpa only [h.eq] using hreg

end EncodeMatrix

/-! ### Codewords -/

/-- Byte `k` of shard `r`. -/
def byteAt (shards : List Bytes) (r k : ℕ) : UInt8 := (shards[r]?.bind (·[k]?)).getD 0

/-- Byte `k` of a row of an encode matrix applied to the data shards over GF(2⁸). -/
def encodeByte (row : List Cell) (data : List Bytes) (k : ℕ) : UInt8 :=
  (List.range data.length).foldl
    (fun acc c => acc ^^^ polyMul ((Cell.ofRow row c).getD 0) (byteAt data c k)) 0

/-- The data shards followed by the parity shards: the rows of the encode matrix below its top
square, applied to the data shards. -/
def encodeShards (data : List Bytes) (shardSize parityCount : ℕ) : Except Thrown (List Bytes) := do
  let matrix ← buildEncodeMatrix data.length parityCount
  return data ++ (matrix.drop data.length).map fun row =>
    (List.range shardSize).map fun k => encodeByte row data k

/-- The shards that arrived; the others are `null`. -/
def erase (kept : ℕ → Bool) (codeword : List Bytes) : Shards :=
  codeword.mapIdx fun i shard => if kept i then some shard else none

/-- Byte `k` of shard `r` of the codeword, in the field. -/
def codewordByte (E : ℕ → ℕ → GF256) (data : List Bytes) (r k : ℕ) : GF256 :=
  ∑ c ∈ range data.length, E r c * ⟨byteAt data c k⟩

/-- The loop over the terms of a byte adds them in the field. -/
private theorem foldl_xor_byte (f : ℕ → GF256) (n : ℕ) :
    (List.range n).foldl (fun acc k => acc ^^^ (f k).byte) 0 = (∑ k ∈ range n, f k).byte := by
  induction n with
  | zero => rfl
  | succ n ih =>
    rw [List.range_succ, List.foldl_append, ih, sum_range_succ, GF256.byte_add]
    rfl

private theorem map_byteAt {data : List Bytes} {L r : ℕ} (hL : ∀ s ∈ data, s.length = L)
    (hr : r < data.length) : (List.range L).map (byteAt data r) = data[r] := by
  apply List.ext_getElem?
  intro k
  have hlen : data[r].length = L := hL _ (List.getElem_mem hr)
  by_cases hk : k < L
  · have hk' : k < data[r].length := by omega
    simp [byteAt, hr, hk, List.getElem?_eq_getElem hk']
  · simp [hk, List.getElem?_eq_none (show data[r].length ≤ k by omega)]

/-- Every shard of a codeword is its row of the encode matrix applied to the data. -/
theorem encodeShards_eq {data : List Bytes} {L P : ℕ} (hL : ∀ s ∈ data, s.length = L)
    (htotal : data.length + P ≤ 256) :
    ∃ T E, buildEncodeMatrix data.length P = .ok (toCells (data.length + P) data.length E) ∧
      EncodeMatrix data.length T E ∧
      encodeShards data L P = .ok ((List.range (data.length + P)).map fun r =>
        (List.range L).map fun k => (codewordByte E data r k).byte) := by
  obtain ⟨T, E, hbuild, hE⟩ := buildEncodeMatrix_toCells (D := data.length) htotal
  refine ⟨T, E, hbuild, hE, ?_⟩
  rw [encodeShards, hbuild]
  refine congrArg Except.ok ?_
  rw [List.range_add, List.map_append, toCells, ← List.map_drop, List.range_add,
    List.drop_left' (by simp), List.map_map, List.map_map, List.map_map]
  congr 1
  · -- the top square is the identity
    apply List.ext_getElem?
    intro r
    by_cases hr : r < data.length
    · rw [List.getElem?_eq_getElem hr, ← map_byteAt hL hr]
      simp [hr, codewordByte, hE.systematic (fun c => ⟨byteAt data c _⟩) hr]
    · simp [hr]
  · refine List.map_congr_left fun p _ => List.map_congr_left fun k _ => ?_
    rw [encodeByte, codewordByte, ← foldl_xor_byte]
    refine List.foldl_ext _ _ _ fun acc c hc => ?_
    rw [ofRow_map_range _ (List.mem_range.mp hc)]
    rfl

/-! ### Reconstruction -/

/-- The table product with a source byte is the product in the field. -/
theorem rsTerm_cell (a b : GF256) : rsTerm a.cell b.cell = (a * b).cell := by
  rw [rsTerm]
  by_cases ha : a = 0
  · simp [ha, GF256.cell]
  by_cases hone : a = 1
  · simp [hone]
  by_cases hb : b = 0
  · simp [hb, GF256.cell]
  rw [if_neg (by simpa using ha), if_neg (by simpa using hone), if_neg (by simpa using hb),
    ← gfMul_cell, gfMul, if_neg (by simp [ha, hb])]

/-- A shard is there when it was kept. -/
private theorem isSome_erase (kept : ℕ → Bool) (codeword : List Bytes) (i : ℕ) :
    ((erase kept codeword)[i]?.join).isSome = (kept i && decide (i < codeword.length)) := by
  rw [erase, List.getElem?_mapIdx]
  by_cases hi : i < codeword.length
  · rw [List.getElem?_eq_getElem hi]
    cases kept i <;> simp [hi]
  · simp [hi]

/-- The indices of the shards that are there are as many as these shards. -/
theorem length_filter_isSome (shards : Shards) :
    ((List.range shards.length).filter fun i => (shards[i]?.join).isSome).length
      = shards.countP Option.isSome := by
  rw [← List.countP_eq_length_filter]
  conv_rhs => rw [show shards = (List.range shards.length).map fun i => shards[i]?.join by
    apply List.ext_getElem?
    intro i
    by_cases hi : i < shards.length <;> simp [hi]]
  rw [List.countP_map]
  rfl

/-- The indices the reconstruction works from: `D` different present ones. -/
theorem exists_present {shards : Shards} {D : ℕ} (hcount : D ≤ shards.countP Option.isSome) :
    ∃ idx : ℕ → ℕ,
      presentIndices shards D shards.length = (List.range D).map idx ∧
      (∀ i < D, idx i < shards.length ∧ (shards[idx i]?.join).isSome = true) ∧
      ∀ i < D, ∀ j < D, idx i = idx j → i = j := by
  set present := presentIndices shards D shards.length with hpresent
  have hlen : present.length = D := by
    rw [hpresent, presentIndices, List.length_take, length_filter_isSome]
    omega
  have hnodup : present.Nodup :=
    (List.nodup_range.filter _).sublist (List.take_sublist _ _)
  refine ⟨fun i => present.getD i 0, ?_, fun i hi => ?_, fun i hi j hj heq => ?_⟩
  · apply List.ext_getElem?
    intro i
    by_cases hi : i < D
    · simp [hi, List.getElem?_eq_getElem (show i < present.length by omega)]
    · simp [hi, List.getElem?_eq_none (show present.length ≤ i by omega)]
  · have hi' : i < present.length := by omega
    have hmem : present.getD i 0 ∈ present := by
      rw [List.getD_eq_getElem _ _ hi']
      exact List.getElem_mem hi'
    have hfilter := List.mem_of_mem_take hmem
    rw [List.mem_filter, List.mem_range] at hfilter
    exact hfilter
  · have hi' : i < present.length := by omega
    have hj' : j < present.length := by omega
    simp only [List.getD_eq_getElem _ _ hi', List.getD_eq_getElem _ _ hj'] at heq
    exact (hnodup.getElem_inj_iff).mp heq

/-- The inverse of the rows that arrived, applied to their bytes, gives back the data. -/
private theorem sum_inverse_codeword {data : List Bytes} {E R : ℕ → ℕ → GF256} {idx : ℕ → ℕ}
    (hleft : ∀ i < data.length, ∀ k < data.length,
      ∑ j ∈ range data.length, R i j * E (idx j) k = if i = k then 1 else 0)
    {di : ℕ} (hdi : di < data.length) (k : ℕ) :
    ∑ pi ∈ range data.length, R di pi * codewordByte E data (idx pi) k = ⟨byteAt data di k⟩ := by
  calc ∑ pi ∈ range data.length, R di pi * codewordByte E data (idx pi) k
      = ∑ c ∈ range data.length,
          (∑ pi ∈ range data.length, R di pi * E (idx pi) c) * ⟨byteAt data c k⟩ := by
        simp only [codewordByte, mul_sum, sum_mul, mul_assoc]
        exact sum_comm
    _ = ∑ c ∈ range data.length, (if di = c then 1 else 0) * ⟨byteAt data c k⟩ :=
        sum_congr rfl fun c hc => by rw [hleft di hdi c (mem_range.mp hc)]
    _ = ⟨byteAt data di k⟩ := by simp [hdi]

/-- From any `D` shards of a codeword `rsReconstruct` computes the data shards. -/
theorem rsReconstruct_eq {data codeword : List Bytes} {L P : ℕ} {kept : ℕ → Bool}
    (hL : ∀ s ∈ data, s.length = L) (htotal : data.length + P ≤ 256)
    (hcodeword : encodeShards data L P = .ok codeword)
    (hcount : data.length ≤ (erase kept codeword).countP Option.isSome) :
    rsReconstruct (erase kept codeword) data.length P L = .ok data := by
  obtain ⟨T, E, hbuild, hE, hcw⟩ := encodeShards_eq hL htotal
  obtain rfl : codeword = _ := Except.ok.inj (hcodeword.symm.trans hcw)
  clear hcodeword hcw
  set D := data.length with hD
  set codeword := (List.range (D + P)).map fun r =>
    (List.range L).map fun k => (codewordByte E data r k).byte with hcw
  have hcwlen : codeword.length = D + P := by simp [hcw]
  -- `idx i` is where the `i`-th shard that is present stands in the codeword
  obtain ⟨idx, hpresent, hsome, hinj⟩ := exists_present hcount
  have hidx : ∀ i < D, idx i < D + P ∧ kept (idx i) = true := by
    intro i hi
    have hkept := (hsome i hi).2
    rw [isSome_erase, Bool.and_eq_true, decide_eq_true_eq, hcwlen] at hkept
    exact ⟨hkept.2, hkept.1⟩
  rw [show (erase kept codeword).length = D + P by simp [erase, hcwlen]] at hpresent
  obtain ⟨R, hinv, hleft⟩ := gfMatrixInvert_toCells
    (hE.regular_rows (fun i hi => by have := (hidx i hi).1; omega) hinj)
  have hsub : (((List.range D).map idx).map fun rowIdx =>
        ((toCells (D + P) D E).row rowIdx).take D)
      = toCells D D fun i k => E (idx i) k := by
    rw [List.map_map]
    refine List.map_congr_left fun i hi => ?_
    rw [Function.comp_apply, row_toCells E (hidx i (List.mem_range.mp hi)).1,
      List.take_of_length_le (by simp)]
  have hsrc : ∀ pi < D, presentShard (erase kept codeword) ((List.range D).map idx) pi
      = (List.range L).map fun k => (codewordByte E data (idx pi) k).byte := by
    intro pi hpi
    obtain ⟨hlt, hkept⟩ := hidx pi hpi
    simp [presentShard, hpi, erase, hcw, hlt, hkept]
  -- the inverse of the rows of these shards gives back every byte of the data
  have hbyte : ∀ di < D, ∀ k < L, rsByte (erase kept codeword) ((List.range D).map idx)
      (toCells D D R) D di k = byteAt data di k := by
    intro di hdi k hk
    have hfold := foldl_xor_byte (fun pi => R di pi * codewordByte E data (idx pi) k) D
    rw [sum_inverse_codeword hleft hdi k] at hfold
    refine Eq.trans (List.foldl_ext _ _ _ fun acc pi hpi => ?_) hfold
    have hpi := List.mem_range.mp hpi
    have hterm := rsTerm_cell (R di pi) (codewordByte E data (idx pi) k)
    rw [hsrc pi hpi, entry_toCells R hdi hpi, List.getElem?_map, List.getElem?_range hk,
      Option.map_some, show some (codewordByte E data (idx pi) k).byte
        = (codewordByte E data (idx pi) k).cell from rfl, hterm]
    rfl
  have hresult : ((List.range D).map fun di => (List.range L).map fun k =>
        rsByte (erase kept codeword) ((List.range D).map idx) (toCells D D R) D di k) = data := by
    apply List.ext_getElem?
    intro di
    by_cases hdi : di < D
    · rw [List.getElem?_eq_getElem hdi, ← map_byteAt hL hdi, List.getElem?_map,
        List.getElem?_range hdi, Option.map_some]
      exact congrArg some (List.map_congr_left fun k hk => hbyte di hdi k (List.mem_range.mp hk))
    · simp [hdi, ← hD]
  simp only [rsReconstruct, hbuild, ok_bind, hpresent, List.length_map, List.length_range,
    lt_irrefl, if_false, hsub, hinv, hresult, pure_eq_ok]

/-! ### The decoder -/

/-- The copy loop writes the concatenated shards up to its budget. -/
theorem copyShards_eq (shards : List Bytes) (rem : ℕ) :
    copyShards shards rem = shards.flatten.take rem := by
  induction shards generalizing rem with
  | nil => simp [copyShards]
  | cons shard rest ih =>
    rw [copyShards, ih, List.flatten_cons, List.take_append]
    by_cases hrem : rem = 0
    · simp [hrem]
    · rw [if_neg hrem]

/-- Shards of one length are together as long as their number times this length. -/
theorem length_flatten_uniform {data : List Bytes} {L : ℕ}
    (hL : ∀ s ∈ data, s.length = L) : data.flatten.length = data.length * L := by
  rw [List.length_flatten, List.map_congr_left hL, List.map_const', List.sum_replicate,
    smul_eq_mul]

/-- A codeword has the data in front and shards of one length. -/
private theorem length_encodeShards {data codeword : List Bytes} {L P : ℕ}
    (hL : ∀ s ∈ data, s.length = L) (htotal : data.length + P ≤ 256)
    (hcodeword : encodeShards data L P = .ok codeword) :
    codeword.length = data.length + P ∧ codeword.take data.length = data ∧
      ∀ s ∈ codeword, s.length = L := by
  obtain ⟨T, E, hbuild, hE, hcw⟩ := encodeShards_eq hL htotal
  obtain rfl : codeword = _ := Except.ok.inj (hcodeword.symm.trans hcw)
  rw [encodeShards, hbuild] at hcodeword
  refine ⟨by simp, ?_, by simp⟩
  rw [← Except.ok.inj hcodeword, List.take_left']
  rfl

/-- The first present shard of a codeword has the common length. -/
private theorem findSome?_erase {codeword : List Bytes} {L : ℕ} {kept : ℕ → Bool}
    (hL : ∀ s ∈ codeword, s.length = L)
    (hcount : 0 < (erase kept codeword).countP Option.isSome) :
    ((erase kept codeword).findSome? id).map List.length = some L := by
  have hmem : ∀ s, some s ∈ erase kept codeword → s.length = L := by
    intro s hs
    obtain ⟨i, hi, his⟩ := List.mem_mapIdx.mp hs
    split_ifs at his
    exact Option.some.inj his ▸ hL _ (List.getElem_mem hi)
  cases hfind : (erase kept codeword).findSome? id with
  | none =>
    obtain ⟨s, hs, hsome⟩ := List.countP_pos_iff.mp hcount
    have hnone := List.findSome?_eq_none_iff.mp hfind s hs
    rw [id_eq] at hnone
    rw [hnone] at hsome
    exact absurd hsome (by decide)
  | some s =>
    obtain ⟨o, ho, hos⟩ := List.exists_of_findSome?_eq_some hfind
    rw [id_eq] at hos
    rw [Option.map_some, hmem s (hos ▸ ho)]

/-- With all data shards kept, what is there of the front is the data. -/
private theorem filterMap_take_erase {data codeword : List Bytes} {kept : ℕ → Bool}
    (htake : codeword.take data.length = data)
    (hall : ((erase kept codeword).take data.length).all Option.isSome = true) :
    ((erase kept codeword).take data.length).filterMap id = data := by
  have hfirst : (erase kept codeword).take data.length = data.map some := by
    apply List.ext_getElem?
    intro i
    by_cases hi : i < data.length
    · have hdata : codeword[i]? = some data[i] := by
        rw [← List.getElem?_take_of_lt hi, htake, List.getElem?_eq_getElem hi]
      have hkept : kept i = true := by
        by_contra hno
        have hmem : none ∈ (erase kept codeword).take data.length := by
          refine List.mem_iff_getElem?.mpr ⟨i, ?_⟩
          rw [List.getElem?_take_of_lt hi, erase, List.getElem?_mapIdx, hdata]
          simp [hno]
        exact absurd (List.all_eq_true.mp hall none hmem) (by decide)
      rw [List.getElem?_take_of_lt hi, erase, List.getElem?_mapIdx, hdata]
      simp [hkept, hi]
    · simp [hi]
  rw [hfirst, List.filterMap_map]
  exact List.filterMap_some

/-- All data shards are there exactly when all were kept. -/
private theorem all_take_erase_iff {data codeword : List Bytes} {kept : ℕ → Bool}
    (hlen : data.length ≤ codeword.length) :
    ((erase kept codeword).take data.length).all Option.isSome = true ↔
      ∀ i < data.length, kept i = true := by
  have hentry : ∀ i < data.length, ((erase kept codeword).take data.length)[i]? =
      some (if kept i then codeword[i]? else none) := by
    intro i hi
    rw [List.getElem?_take_of_lt hi, erase, List.getElem?_mapIdx,
      List.getElem?_eq_getElem (show i < codeword.length by omega)]
    rfl
  rw [List.all_eq_true]
  constructor
  · intro hall i hi
    by_contra hno
    have hmem := List.mem_of_getElem? (hentry i hi)
    rw [if_neg hno] at hmem
    exact absurd (hall none hmem) (by decide)
  · intro hkept o ho
    obtain ⟨i, hio⟩ := List.mem_iff_getElem?.mp ho
    have hi : i < data.length := by
      have hlt := (List.getElem?_eq_some_iff.mp hio).1
      rw [List.length_take] at hlt
      omega
    rw [hentry i hi, if_pos (hkept i hi),
      List.getElem?_eq_getElem (show i < codeword.length by omega)] at hio
    exact Option.some.inj hio ▸ rfl

section Decoder

variable {data codeword : List Bytes} {L P originalDataLen : ℕ} {kept : ℕ → Bool}
  (hD : 1 ≤ data.length) (htotal : data.length + P ≤ 256) (hLpos : 1 ≤ L)
  (hL : ∀ s ∈ data, s.length = L) (hcodeword : encodeShards data L P = .ok codeword)
  (hcount : data.length ≤ (erase kept codeword).countP Option.isSome)

include hD htotal hL hcodeword hcount

/-- With all data shards at hand the decoder returns the data, cut to the original length. -/
theorem decodeShards_erase_of_data (hdata : ∀ i < data.length, kept i = true) :
    decodeShards (erase kept codeword) data.length originalDataLen
      = .ok (data.flatten.take originalDataLen) := by
  obtain ⟨hlen, htake, -⟩ := length_encodeShards hL htotal hcodeword
  have hlenErase : (erase kept codeword).length = data.length + P := by simp [erase, hlen]
  have hle : data.length ≤ codeword.length := by omega
  have hall := (all_take_erase_iff hle).mpr hdata
  simp only [decodeShards, hlenErase]
  rw [if_neg (by omega), if_neg (by omega), if_neg (by omega), if_pos hall,
    filterMap_take_erase htake hall, copyShards_eq, pure_eq_ok]

include hLpos

/-- Without some data shard the decoder returns the data too, cut or filled with zeros to the
original length. -/
theorem decodeShards_erase_of_missing (hdata : ¬ ∀ i < data.length, kept i = true) :
    decodeShards (erase kept codeword) data.length originalDataLen
      = .ok (data.flatten.take originalDataLen ++
          List.replicate (originalDataLen - data.length * L) 0) := by
  obtain ⟨hlen, htake, hcwL⟩ := length_encodeShards hL htotal hcodeword
  have hlenErase : (erase kept codeword).length = data.length + P := by simp [erase, hlen]
  have hle : data.length ≤ codeword.length := by omega
  have hall := mt (all_take_erase_iff hle).mp hdata
  -- without parity shards all the data shards would be present
  have hP : data.length + P - data.length ≠ 0 := by
    intro hP
    have hcountLe := List.countP_le_length (p := Option.isSome) (l := erase kept codeword)
    have hevery := List.countP_eq_length.mp (le_antisymm hcountLe (by omega))
    exact hall (List.all_eq_true.mpr fun o ho => hevery o (List.mem_of_mem_take ho))
  have hfill : originalDataLen - min originalDataLen (data.length * L)
      = originalDataLen - data.length * L := by omega
  simp only [decodeShards, hlenErase]
  rw [if_neg (by omega), if_neg (by omega), if_neg (by omega), if_neg hall, if_neg hP,
    findSome?_erase hcwL (by omega), Option.getD_some, if_neg (by omega),
    Nat.add_sub_cancel_left, rsReconstruct_eq hL htotal hcodeword hcount]
  simp only [ok_bind, pure_eq_ok, copyShards_eq, List.length_take, length_flatten_uniform hL,
    hfill]

/-- From at least `D` shards of a codeword the decoder returns the data. -/
theorem decodeShards_erase (hle : originalDataLen ≤ data.length * L) :
    decodeShards (erase kept codeword) data.length originalDataLen
      = .ok (data.flatten.take originalDataLen) := by
  by_cases hdata : ∀ i < data.length, kept i = true
  · exact decodeShards_erase_of_data hD htotal hL hcodeword hcount hdata
  · rw [decodeShards_erase_of_missing hD htotal hLpos hL hcodeword hcount hdata,
      Nat.sub_eq_zero_of_le hle, List.replicate_zero, List.append_nil]

end Decoder

section Paths

variable {data codeword : List Bytes} {L P : ℕ} {kept kept' : ℕ → Bool}

/-- The path with all data shards and the path without one agree as long as the original length
does not exceed the data: only the second fills up to it.

Either path returns the front of the data (`decodeShards_erase_of_data`,
`decodeShards_erase_of_missing`), but the second goes on with zeros up to the original length, so
the results differ in length when that is more than the data. -/
theorem decodeShards_paths_agree_iff (hD : 1 ≤ data.length) (htotal : data.length + P ≤ 256)
    (hLpos : 1 ≤ L) (hL : ∀ s ∈ data, s.length = L)
    (hcodeword : encodeShards data L P = .ok codeword)
    (hcount : data.length ≤ (erase kept codeword).countP Option.isSome)
    (hcount' : data.length ≤ (erase kept' codeword).countP Option.isSome)
    (originalDataLen : ℕ) :
    decodeShards (erase kept codeword) data.length originalDataLen
        = decodeShards (erase kept' codeword) data.length originalDataLen ↔
      originalDataLen ≤ data.length * L ∨
        ((∀ i < data.length, kept i = true) ↔ ∀ i < data.length, kept' i = true) := by
  by_cases hle : originalDataLen ≤ data.length * L
  · rw [decodeShards_erase hD htotal hLpos hL hcodeword hcount hle,
      decodeShards_erase hD htotal hLpos hL hcodeword hcount' hle]
    exact iff_of_true rfl (.inl hle)
  -- the results differ in length: `D * L` bytes of data against `originalDataLen`
  have hlength : data.flatten.take originalDataLen ≠ data.flatten.take originalDataLen ++
      List.replicate (originalDataLen - data.length * L) 0 := by
    intro heq
    have hlen := congrArg List.length heq
    rw [List.length_append, List.length_replicate] at hlen
    omega
  rw [or_iff_right hle]
  by_cases hdata : ∀ i < data.length, kept i = true <;>
    by_cases hdata' : ∀ i < data.length, kept' i = true
  · rw [decodeShards_erase_of_data hD htotal hL hcodeword hcount hdata,
      decodeShards_erase_of_data hD htotal hL hcodeword hcount' hdata']
    exact iff_of_true rfl (iff_of_true hdata hdata')
  · rw [decodeShards_erase_of_data hD htotal hL hcodeword hcount hdata,
      decodeShards_erase_of_missing hD htotal hLpos hL hcodeword hcount' hdata']
    exact iff_of_false (fun heq => hlength (Except.ok.inj heq)) fun hiff => hdata' (hiff.mp hdata)
  · rw [decodeShards_erase_of_missing hD htotal hLpos hL hcodeword hcount hdata,
      decodeShards_erase_of_data hD htotal hL hcodeword hcount' hdata']
    exact iff_of_false (fun heq => hlength (Except.ok.inj heq).symm)
      fun hiff => hdata (hiff.mpr hdata')
  · rw [decodeShards_erase_of_missing hD htotal hLpos hL hcodeword hcount hdata,
      decodeShards_erase_of_missing hD htotal hLpos hL hcodeword hcount' hdata']
    exact iff_of_true rfl (iff_of_false hdata hdata')

/-- The codeword of one data shard of one byte, with one parity shard. -/
theorem encodeShards_one_one : encodeShards [[5]] 1 1 = .ok [[5], [5]] := by decide +kernel

theorem decodeShards_paths_agree_iff_one_one :
    decodeShards (erase (· = 0) [[5], [5]]) 1 1 = decodeShards (erase (· = 1) [[5], [5]]) 1 1 :=
  (@decodeShards_paths_agree_iff [[5]] _ 1 1 _ _ (by decide) (by decide) (by decide) (by decide)
    encodeShards_one_one (by decide) (by decide) 1).mpr (.inl (by decide))

/-- For an original length of two bytes the data shard alone gives one byte, the parity shard
alone two. -/
theorem not_decodeShards_paths_agree :
    ¬ ∀ (data codeword : List Bytes) (L P originalDataLen : ℕ) (kept kept' : ℕ → Bool),
      1 ≤ data.length → 1 ≤ P → data.length + P ≤ 256 → 1 ≤ L → (∀ s ∈ data, s.length = L) →
      encodeShards data L P = .ok codeword →
      data.length ≤ (erase kept codeword).countP Option.isSome →
      data.length ≤ (erase kept' codeword).countP Option.isSome →
      decodeShards (erase kept codeword) data.length originalDataLen
        = decodeShards (erase kept' codeword) data.length originalDataLen := by
  intro hall
  have hsame := hall [[5]] [[5], [5]] 1 1 2 (· = 0) (· = 1) (by decide) (by decide) (by decide)
    (by decide) (by simp) encodeShards_one_one (by decide) (by decide)
  exact absurd hsame (by decide +kernel)

end Paths

/-- Any `D` shards of a codeword decode to its message: whichever shards arrive, the decoder
returns the first `originalDataLen` bytes of the data.

The shards of the encoder are a codeword (`encodeShards_eq`), and any `D` rows of the matrix are
invertible, so the rows that were kept give the data back (`decodeShards_erase`). -/
theorem decodeShards_encodeShards {data : List Bytes} {L P : ℕ} (hD : 1 ≤ data.length)
    (htotal : data.length + P ≤ 256) (hLpos : 1 ≤ L) (hL : ∀ s ∈ data, s.length = L) :
    ∃ codeword, encodeShards data L P = .ok codeword ∧ codeword.length = data.length + P ∧
      ∀ kept : ℕ → Bool, data.length ≤ (erase kept codeword).countP Option.isSome →
        ∀ originalDataLen ≤ data.length * L,
          decodeShards (erase kept codeword) data.length originalDataLen
            = .ok (data.flatten.take originalDataLen) := by
  obtain ⟨_, _, _, _, hcodeword⟩ := encodeShards_eq hL htotal
  exact ⟨_, hcodeword, (length_encodeShards hL htotal hcodeword).1,
    fun kept hcount originalDataLen hle =>
      decodeShards_erase hD htotal hLpos hL hcodeword hcount hle⟩

/-- Two data shards and one parity shard: the first data shard is recovered from the other two. -/
theorem decodeShards_encodeShards_two_one :
    ∃ codeword, encodeShards [[1, 2], [3, 4]] 2 1 = .ok codeword ∧ codeword.length = 2 + 1 ∧
      ∀ kept : ℕ → Bool, 2 ≤ (erase kept codeword).countP Option.isSome →
        ∀ originalDataLen ≤ 2 * 2, decodeShards (erase kept codeword) 2 originalDataLen
          = .ok ([[1, 2], [3, 4]].flatten.take originalDataLen) :=
  @decodeShards_encodeShards [[1, 2], [3, 4]] 2 1 (by decide) (by decide) (by decide) (by decide)

end NoxSdk.Fragmentation
