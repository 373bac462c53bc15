import NoxSdk.Fragmentation.Reassembler
import NoxSdk.Fragmentation.Reconstruct

/-!
# Codes of more than 256 shards

Nothing bounds the number of shards by the 256 elements of the field. A row number from 256 on is
no index of the tables, so its row of the encode matrix repeats row 0 (`nodeRow`). Two such rows
make the matrix to invert singular and the decoder throws; one of them, in the place of row 0,
does not, and the decoder returns bytes (`decodeShards_throws_iff`). With more than 256 data shards
the top square itself repeats row 0 (`buildEncodeMatrix_eq_error`).
-/

namespace NoxSdk.Fragmentation

open Finset GaussJordan

/-! ### More than 256 data shards -/

/-- An entry of the Vandermonde matrix next to the identity, as a table value. -/
private def augmentedCell (D i k : ℕ) : Cell :=
  if k < D then gfExp_pow (Cell.ofIndex i) k else if k - D = i then some 1 else some 0

/-- The matrix over the nodes the rows stand for. -/
private def nodePowers (i k : ℕ) : GF256 := GF256.ofNat (nodeRow i) ^ k

private theorem gfAugment_vandermonde (D : ℕ) :
    gfAugment (vandermonde D D) D =
      (List.range D).map fun i => (List.range (2 * D)).map (augmentedCell D i) := by
  refine gfAugment_table (fun i k hk => ?_) fun i j => ?_
  · rw [augmentedCell, if_pos hk]
  · by_cases hji : j = i <;> simp [augmentedCell, hji]

/-- An exclusive or reads the entries as those over the nodes. -/
private theorem getD_augmentedCell (D i k : ℕ) :
    (augmentedCell D i k).getD 0 = (augment nodePowers D i k).byte := by
  rw [augmentedCell, augment]
  by_cases hk : k < D
  · rw [if_pos hk, if_pos hk, nodePowers, getD_gfExp_pow]
  · rw [if_neg hk, if_neg hk]
    split_ifs <;> rfl

/-- The entries of row 0 and of column 0 are those over the nodes. -/
private theorem augmentedCell_eq {D i k : ℕ} (h : i = 0 ∨ k = 0) :
    augmentedCell D i k = (augment nodePowers D i k).cell := by
  have hsome : (augmentedCell D i k).isSome = true := by
    rw [augmentedCell]
    split_ifs with hk
    · rcases h with rfl | rfl
      · rw [cell_ofIndex (by omega), gfExp_pow_cell]
        rfl
      · rfl
    · rfl
    · rfl
  obtain ⟨byte, hbyte⟩ := Option.isSome_iff_exists.mp hsome
  have hread := getD_augmentedCell D i k
  rw [hbyte, Option.getD_some] at hread
  rw [hbyte, hread]
  rfl

private theorem nodePowers_zero (i : ℕ) : nodePowers i 0 = 1 := pow_zero _

/-- The first column of the elimination clears every entry that is `undefined`. -/
private theorem gfPivotStep_vandermonde {D : ℕ} (hD : 0 < D) :
    gfPivotStep D (gfAugment (vandermonde D D) D) 0 =
      .ok (toCells D (2 * D) (pivotStep (augment nodePowers D) 0 0)) := by
  rw [gfAugment_vandermonde]
  set aug : CellMatrix := (List.range D).map fun i => (List.range (2 * D)).map (augmentedCell D i)
    with haug
  have hentry : ∀ k < 2 * D, aug.entry 0 k = (augment nodePowers D 0 k).cell := by
    intro k hk
    rw [← augmentedCell_eq (.inl rfl)]
    simp [haug, CellMatrix.entry, CellMatrix.row, Cell.ofRow, hD, hk]
  have hone : ∀ i, augment nodePowers D i 0 = 1 := fun i => by
    rw [augment, if_pos hD, nodePowers_zero]
  have hpivot : aug.entry 0 0 = some 1 := by
    rw [hentry 0 (by omega), hone]
    rfl
  have hfind : gfFindPivot D aug 0 = some 0 := by
    obtain ⟨m, rfl⟩ := Nat.exists_eq_succ_of_ne_zero hD.ne'
    rw [gfFindPivot, Nat.sub_zero, List.range'_succ, List.find?_cons_of_pos]
    rw [hpivot]
    decide
  -- row 0 is `1, 0, …, 0` next to its row of the identity: adding it to a row changes nothing but
  -- column 0, and makes every entry a byte
  have hclear : gfClearColumn D aug 0 =
      toCells D (2 * D) (pivotStep (augment nodePowers D) 0 0) := by
    apply List.ext_getElem?
    intro i
    by_cases hi : i < D
    swap
    · simp [gfClearColumn, haug, toCells, hi]
    rw [gfClearColumn, List.getElem?_mapIdx, haug]
    simp only [toCells, List.getElem?_map, List.getElem?_range hi, Option.map_some]
    rw [← haug]
    congr 1
    have hfirst : Cell.ofRow ((List.range (2 * D)).map (augmentedCell D i)) 0 = some 1 := by
      have hcell := augmentedCell_eq (D := D) (i := i) (.inr rfl)
      rw [hone] at hcell
      rw [Cell.ofRow, List.getElem?_map, List.getElem?_range (by omega), Option.map_some, hcell]
      rfl
    by_cases hizero : i = 0
    · subst hizero
      rw [if_pos rfl]
      refine List.map_congr_left fun k _ => ?_
      rw [augmentedCell_eq (.inl rfl)]
      simp [pivotStep, clearColumn, scaleRow, swapRows, hone]
    · rw [if_neg hizero, hfirst, if_neg (by decide)]
      refine List.map_congr_left fun k hk => ?_
      have hk := List.mem_range.mp hk
      have hrow : Cell.ofRow ((List.range (2 * D)).map (augmentedCell D i)) k
          = augmentedCell D i k := by
        simp [Cell.ofRow, hk]
      have hprod : gfMul (some 1) (aug.entry 0 k) = (augment nodePowers D 0 k).cell := by
        rw [hentry k hk, show (some 1 : Cell) = GF256.cell 1 from rfl, gfMul_cell, one_mul]
      have hvalue : pivotStep (augment nodePowers D) 0 0 i k
          = augment nodePowers D i k + augment nodePowers D 0 k := by
        simp [pivotStep, clearColumn, scaleRow, swapRows, hone, hizero, sub_eq_add_neg]
      rw [hrow, hprod, hvalue, Cell.xor, getD_augmentedCell]
      rfl
  rw [gfPivotStep, hfind]
  simp only [hpivot, ne_eq, not_true_eq_false, if_false, pure_bind, hclear]
  rfl

/-- More than 256 rows repeat row 0, so that the top square has no inverse. -/
theorem buildEncodeMatrix_eq_error {D : ℕ} (P : ℕ) (hD : 256 < D) :
    buildEncodeMatrix D P = .error singularMatrix := by
  have hsolved : Solved nodePowers D 1 (pivotStep (augment nodePowers D) 0 0) := by
    refine (solved_augment nodePowers D).pivotStep (le_refl 0) (by omega) ?_
    rw [augment, if_pos (by omega), nodePowers_zero]
    exact one_ne_zero
  have hinvert : gfMatrixInvert (vandermonde D D) D = .error singularMatrix := by
    refine gfMatrixInvert_eq_error hsolved (by omega) ?_ (show 0 < D by omega) hD (by decide)
      fun k _ => rfl
    rw [List.range'_one, List.foldlM_cons, gfPivotStep_vandermonde (by omega)]
    rfl
  rw [buildEncodeMatrix]
  simp only [take_vandermonde (Nat.le_add_right D P), hinvert]
  rfl

/-! ### Reconstruction -/

/-- Two of the shards the reconstruction works from repeat row 0. -/
def RepeatsRowZero (shards : Shards) (D : ℕ) : Prop :=
  ∃ i ∈ presentIndices shards D shards.length, ∃ j ∈ presentIndices shards D shards.length,
    i ≠ j ∧ nodeRow i = 0 ∧ nodeRow j = 0

instance (shards : Shards) (D : ℕ) : Decidable (RepeatsRowZero shards D) :=
  inferInstanceAs (Decidable (∃ i ∈ presentIndices shards D shards.length,
    ∃ j ∈ presentIndices shards D shards.length, i ≠ j ∧ nodeRow i = 0 ∧ nodeRow j = 0))

/-- Different rows below 256 are different rows of the encode matrix. -/
theorem nodeRow_eq_iff {i j : ℕ} :
    nodeRow i = nodeRow j ↔ i = j ∨ nodeRow i = 0 ∧ nodeRow j = 0 := by
  simp only [nodeRow]
  split_ifs <;> omega

/-- With enough shards, `rsReconstruct` throws where it would invert a matrix with a repeated
row. -/
theorem rsReconstruct_throws_iff {shards : Shards} {D P : ℕ} (shardSize : ℕ)
    (htotal : D + P = shards.length) (hcount : D ≤ shards.countP Option.isSome) :
    (∃ e, rsReconstruct shards D P shardSize = .error e) ↔
      256 < D ∨ RepeatsRowZero shards D := by
  by_cases hlarge : 256 < D
  · -- beyond 256 data shards the encoding matrix itself cannot be built
    refine iff_of_true ⟨singularMatrix, ?_⟩ (.inl hlarge)
    rw [rsReconstruct, buildEncodeMatrix_eq_error P hlarge]
    rfl
  rw [or_iff_right hlarge]
  obtain ⟨T, E, hbuild, hE⟩ := buildEncodeMatrix_nodeRow P (not_lt.mp hlarge)
  obtain ⟨idx, hpresent, hidx, hinj⟩ := exists_present hcount
  -- the matrix that is inverted has the rows of the shards that are present
  have hsub : (((List.range D).map idx).map fun rowIdx =>
        ((toCells (D + P) D fun r k => E (nodeRow r) k).row rowIdx).take D)
      = toCells D D fun i k => E (nodeRow (idx i)) k := by
    rw [List.map_map]
    refine List.map_congr_left fun i hi => ?_
    rw [Function.comp_apply, row_toCells _ (htotal ▸ (hidx i (List.mem_range.mp hi)).1),
      List.take_of_length_le (by simp)]
  simp only [rsReconstruct, hbuild, ok_bind, htotal, hpresent, List.length_map,
    List.length_range, lt_irrefl, if_false, pure_eq_ok]
  rw [← htotal, hsub]
  by_cases hrepeat : ∃ i < D, ∃ j < D, i ≠ j ∧ nodeRow (idx i) = nodeRow (idx j)
  · -- different indices with equal rows both stand for row 0
    obtain ⟨i, hi, j, hj, hij, hrow⟩ := hrepeat
    have hne : idx i ≠ idx j := fun heq => hij (hinj i hi j hj heq)
    have hzero := (nodeRow_eq_iff.mp hrow).resolve_left hne
    refine iff_of_true ⟨singularMatrix, ?_⟩ ?_
    · rw [gfMatrixInvert_of_eq_rows hi hj hij fun k _ => by rw [hrow]]
      rfl
    · rw [RepeatsRowZero, hpresent]
      exact ⟨idx i, List.mem_map_of_mem (List.mem_range.mpr hi), idx j,
        List.mem_map_of_mem (List.mem_range.mpr hj), hne, hzero⟩
  -- distinct rows: the matrix is regular, and nothing is thrown
  · have hnodes : ∀ i < D, ∀ j < D, nodeRow (idx i) = nodeRow (idx j) → i = j := by
      intro i hi j hj heq
      by_contra hij
      exact hrepeat ⟨i, hi, j, hj, hij, heq⟩
    obtain ⟨R, hinv, -⟩ := gfMatrixInvert_toCells
      (hE.regular_rows (fun i _ => nodeRow_lt (idx i)) hnodes)
    refine iff_of_false ?_ ?_
    · rw [hinv]
      rintro ⟨e, he⟩
      cases he
    · rw [RepeatsRowZero, hpresent]
      rintro ⟨_, hi, _, hj, hne, hzero⟩
      obtain ⟨i, hiD, rfl⟩ := List.mem_map.mp hi
      obtain ⟨j, hjD, rfl⟩ := List.mem_map.mp hj
      refine hne (congrArg idx (hnodes i (List.mem_range.mp hiD) j (List.mem_range.mp hjD) ?_))
      rw [hzero.1, hzero.2]

/-! ### The decoder -/

/-- With a data shard missing and more than 256 shards the decoder throws exactly for too few
shards, an empty first one, more than 256 data shards, or two shards among those it works from
that repeat row 0.

The cases follow the checks of the decoder in their order. Behind them only the elimination can
fail, which it does when the matrix of the rows that are there is singular
(`rsReconstruct_throws_iff`). -/
theorem decodeShards_throws_iff {shards : Shards} {D : ℕ} (originalDataLen : ℕ) (hpos : D ≠ 0)
    (htotal : D ≤ shards.length)
    (hmissing : (shards.take D).all Option.isSome = false) :
    (∃ e, decodeShards shards D originalDataLen = .error e) ↔
      shards.countP Option.isSome < D ∨ (shards.findSome? id).map List.length = some 0 ∨
        256 < D ∨ RepeatsRowZero shards D := by
  by_cases hfew : shards.countP Option.isSome < D
  · refine iff_of_true ?_ (.inl hfew)
    simp only [decodeShards, if_neg hpos, if_neg (not_lt.mpr htotal), if_pos hfew]
    exact ⟨_, rfl⟩
  -- with all shards present none of the data shards would be missing
  have hparity : shards.length - D ≠ 0 := by
    intro hzero
    have hle := List.countP_le_length (p := Option.isSome) (l := shards)
    have hevery := List.countP_eq_length.mp (show shards.countP Option.isSome = shards.length by
      omega)
    have hall : (shards.take D).all Option.isSome = true :=
      List.all_eq_true.mpr fun o ho => hevery o (List.mem_of_mem_take ho)
    rw [hmissing] at hall
    cases hall
  obtain ⟨shard, hshard⟩ : ∃ shard, shards.findSome? id = some shard := by
    rw [← Option.isSome_iff_exists, List.findSome?_isSome_iff]
    obtain ⟨o, ho, hsome⟩ := List.countP_pos_iff.mp (show 0 < shards.countP Option.isSome by omega)
    exact ⟨o, ho, hsome⟩
  rw [or_iff_right hfew, hshard, Option.map_some, Option.some_inj]
  by_cases hempty : shard.length = 0
  · refine iff_of_true ?_ (.inl hempty)
    simp only [decodeShards, if_neg hpos, if_neg (not_lt.mpr htotal), if_neg hfew, hmissing,
      Bool.false_eq_true, if_false, if_neg hparity, hshard, Option.map_some, Option.getD_some,
      if_pos hempty]
    exact ⟨_, rfl⟩
  have hthrows := rsReconstruct_throws_iff shard.length
    (Nat.add_sub_cancel' htotal) (not_lt.mp hfew)
  rw [or_iff_right hempty, ← hthrows]
  simp only [decodeShards, if_neg hpos, if_neg (not_lt.mpr htotal), if_neg hfew, hmissing,
    Bool.false_eq_true, if_false, if_neg hparity, hshard, Option.map_some, Option.getD_some,
    if_neg hempty]
  cases rsReconstruct shards D (shards.length - D) shard.length with
  | error e => exact iff_of_true ⟨e, rfl⟩ ⟨e, rfl⟩
  | ok reconstructed =>
    refine iff_of_false ?_ ?_ <;> rintro ⟨e, he⟩ <;> cases he

/-- The shards of which `first` and `second` arrived, with one byte each. -/
def sampleTwoShards (total first second : ℕ) : Shards :=
  (List.range total).map fun i =>
    if i = first then some [7] else if i = second then some [9] else none

theorem decodeShards_throws_iff_two_rows :
    ∃ e, decodeShards (sampleTwoShards 258 256 257) 2 2 = .error e :=
  (decodeShards_throws_iff 2 (by decide) (by decide +kernel) (by decide +kernel)).mpr
    (.inr (.inr (.inr (by decide +kernel))))

/-- Of 257 shards, numbers 1 and 256 arrive: the bytes of shard 256 are returned in the place of
data shard 0. -/
theorem not_decodeShards_throws :
    (¬ ∀ (shards : Shards) (D originalDataLen : ℕ), shards.length ≤ maxFragmentsPerMessage →
      D ≠ 0 → D ≤ shards.length → (shards.take D).all Option.isSome = false →
      256 < shards.length → ∃ e, decodeShards shards D originalDataLen = .error e) ∧
    decodeShards (sampleTwoShards 257 1 256) 2 2 = .ok [9, 7] ∧
    (((Reassembler.new ⟨none, none, none⟩).addFragment clampedSub 0 1
        ⟨7, 257, 1, [7], some ⟨2, 2⟩⟩).2.addFragment clampedSub 2 3
        ⟨7, 257, 256, [9], some ⟨2, 2⟩⟩).1 = .ok (some [9, 7]) := by
  have hbytes : decodeShards (sampleTwoShards 257 1 256) 2 2 = .ok [9, 7] := by decide +kernel
  refine ⟨fun hall => ?_, hbytes, by decide +kernel⟩
  obtain ⟨e, he⟩ := hall (sampleTwoShards 257 1 256) 2 2 (by decide +kernel) (by decide)
    (by decide +kernel) (by decide +kernel) (by decide +kernel)
  rw [hbytes] at he
  cases he

end NoxSdk.Fragmentation
