import NoxSdk.Fragmentation.Galois

/-!
# The Reed–Solomon decoder

`decodeShards` and the functions under it. Matrices are lists of rows of table values
(`Cell`), so that a matrix built for more than 256 shards, whose nodes are no bytes any more,
computes what the code computes on it.

The loops over the bytes of a shard and over the entries of a row are independent in every
index; they appear as maps over the indices. The loop over the columns of an elimination is a
fold, one `gfPivotStep` a column.
-/

namespace NoxSdk.Fragmentation

/-! ### Matrices of table values -/

/-- A `number[][]` of table values. -/
abbrev CellMatrix := List (List Cell)

/-- `row[c]!`. -/
def Cell.ofRow (row : List Cell) (c : ℕ) : Cell := row[c]?.join

/-- `m[r]!`. -/
def CellMatrix.row (m : CellMatrix) (r : ℕ) : List Cell := m[r]?.getD []

/-- `m[r]![c]!`. -/
def CellMatrix.entry (m : CellMatrix) (r c : ℕ) : Cell := Cell.ofRow (m.row r) c

/-- `a ^ b` on table values: `undefined` counts as `0`. -/
def Cell.xor (a b : Cell) : Cell := some (a.getD 0 ^^^ b.getD 0)

/-! ### Inversion -/

/-- The rows of the matrix, each followed by its row of the identity. -/
def gfAugment (matrix : CellMatrix) (n : ℕ) : CellMatrix :=
  matrix.mapIdx fun i row => row ++ (List.range n).map fun j => if j = i then some 1 else some 0

/-- The first row from `col` on whose entry in the column is not `0`. -/
def gfFindPivot (n : ℕ) (aug : CellMatrix) (col : ℕ) : Option ℕ :=
  (List.range' col (n - col)).find? fun row => decide (aug.entry row col ≠ some 0)

/-- `[aug[col], aug[pivotRow]] = [aug[pivotRow], aug[col]]`. -/
def gfSwapRows (aug : CellMatrix) (col pivotRow : ℕ) : CellMatrix :=
  (aug.set col (aug.row pivotRow)).set pivotRow (aug.row col)

/-- `for (k < 2 * n) row[k] = gfMul(row[k], invPivot)` on the pivot row. -/
def gfScaleRow (n : ℕ) (aug : CellMatrix) (col : ℕ) (invPivot : Cell) : CellMatrix :=
  aug.set col ((List.range (2 * n)).map fun k => gfMul (aug.entry col k) invPivot)

/-- `for (row < n) if (row !== col) …`: add to every other row the multiple of the pivot row
that clears its entry in the column; a row whose entry is `0` is left alone. -/
def gfClearColumn (n : ℕ) (aug : CellMatrix) (col : ℕ) : CellMatrix :=
  aug.mapIdx fun row curRow =>
    if row = col then curRow
    else if Cell.ofRow curRow col = some 0 then curRow
    else (List.range (2 * n)).map fun k =>
      (Cell.ofRow curRow k).xor (gfMul (Cell.ofRow curRow col) (aug.entry col k))

/-- The error of an inversion without a pivot. -/
def singularMatrix : Thrown :=
  .noxClientError "Matrix inversion failed: singular matrix (insufficient independent shards)"
    .decryptionFailed

/-- One round of the loop over the columns in `gfMatrixInvert`. -/
def gfPivotStep (n : ℕ) (aug : CellMatrix) (col : ℕ) : Except Thrown CellMatrix :=
  match gfFindPivot n aug col with
  | none => .error singularMatrix
  | some pivotRow => do
    let swapped := if pivotRow ≠ col then gfSwapRows aug col pivotRow else aug
    let pivotVal := swapped.entry col col
    let scaled ←
      if pivotVal ≠ some 1 then do
        let invPivot ← gfInv pivotVal
        pure (gfScaleRow n swapped col invPivot)
      else pure swapped
    return gfClearColumn n scaled col

/-- `gfMatrixInvert`, called with `n` rows of `n` entries. -/
def gfMatrixInvert (matrix : CellMatrix) (n : ℕ) : Except Thrown CellMatrix := do
  let aug ← (List.range n).foldlM (gfPivotStep n) (gfAugment matrix n)
  return aug.map (·.drop n)

/-! ### The encode matrix -/

/-- The row number `r` as a factor: a byte, or no index of the tables. -/
def Cell.ofIndex (r : ℕ) : Cell := if r < gfSize then some r.toUInt8 else none

/-- `V[r][c] = r^c`. -/
def vandermonde (total dataCount : ℕ) : CellMatrix :=
  (List.range total).map fun r => (List.range dataCount).map fun c => gfExp_pow (Cell.ofIndex r) c

/-- `buildEncodeMatrix`: the Vandermonde matrix times the inverse of its top square. -/
def buildEncodeMatrix (dataCount parityCount : ℕ) : Except Thrown CellMatrix := do
  let total := dataCount + parityCount
  let vand := vandermonde total dataCount
  let topInv ← gfMatrixInvert (vand.take dataCount) dataCount
  return (List.range total).map fun r => (List.range dataCount).map fun c =>
    (List.range dataCount).foldl
      (fun acc k => acc.xor (gfMul (vand.entry r k) (topInv.entry k c))) (some 0)

/-! ### Reconstruction -/

/-- `(Uint8Array | null)[]`. -/
abbrev Shards := List (Option Bytes)

/-- The first `dataCount` indices whose shard is present. -/
def presentIndices (shards : Shards) (dataCount total : ℕ) : List ℕ :=
  ((List.range total).filter fun i => (shards[i]?.join).isSome).take dataCount

/-- What `out[k]` is combined with for one coefficient and one source byte; `src[k]` past the end of
a short shard is `undefined`. -/
def rsTerm (coeff src : Cell) : Cell :=
  if coeff = some 0 then some 0
  else if coeff = some 1 then src
  else if src = some 0 then some 0
  else do
    let logCoeff ← coeff.log
    let logSrc ← src.log
    gfExp[(logCoeff + logSrc) % (gfSize - 1)]?

/-- `shards[presentIndices[pi]]!`. -/
def presentShard (shards : Shards) (present : List ℕ) (pi : ℕ) : Bytes :=
  ((present[pi]?.bind (shards[·]?)).join).getD []

/-- `out[k]` of data shard `di` after the loop over the present shards. -/
def rsByte (shards : Shards) (present : List ℕ) (invMatrix : CellMatrix) (dataCount di k : ℕ) :
    UInt8 :=
  (List.range dataCount).foldl
    (fun acc pi =>
      acc ^^^ (rsTerm (invMatrix.entry di pi) (presentShard shards present pi)[k]?).getD 0) 0

/-- `rsReconstruct`. -/
def rsReconstruct (shards : Shards) (dataCount parityCount shardSize : ℕ) :
    Except Thrown (List Bytes) := do
  let total := dataCount + parityCount
  let encodeMatrix ← buildEncodeMatrix dataCount parityCount
  let present := presentIndices shards dataCount total
  if present.length < dataCount then
    throw (.noxClientError "rsReconstruct: insufficient received shards" .decryptionFailed)
  let subMatrix : CellMatrix := present.map fun rowIdx => (encodeMatrix.row rowIdx).take dataCount
  let invMatrix ← gfMatrixInvert subMatrix dataCount
  return (List.range dataCount).map fun di => (List.range shardSize).map fun k =>
    rsByte shards present invMatrix dataCount di k

/-- The copy loop of `decodeShards`: shard after shard until `rem` bytes are written. -/
def copyShards : List Bytes → ℕ → Bytes
  | [], _ => []
  | shard :: rest, rem =>
    if rem = 0 then [] else shard.take rem ++ copyShards rest (rem - shard.length)

/-- `decodeShards`. -/
def decodeShards (shards : Shards) (dataShardCount originalDataLen : ℕ) :
    Except Thrown Bytes := do
  if dataShardCount = 0 then
    throw (.noxClientError "decodeShards: dataShardCount must be > 0" .decryptionFailed)
  let totalShards := shards.length
  if totalShards < dataShardCount then
    throw (.noxClientError
      s!"decodeShards: total shards {totalShards} < dataShardCount {dataShardCount}"
      .decryptionFailed)
  let available := shards.countP Option.isSome
  if available < dataShardCount then
    throw (.noxClientError
      (s!"decodeShards: insufficient shards for reconstruction: have {available}, " ++
        s!"need {dataShardCount}")
      .decryptionFailed)
  if (shards.take dataShardCount).all Option.isSome then
    -- the output has room for `min totalLen originalDataLen` bytes, which the copy fills
    return copyShards ((shards.take dataShardCount).filterMap id) originalDataLen
  let parityCount := totalShards - dataShardCount
  if parityCount = 0 then
    throw (.noxClientError
      "decodeShards: missing data shards and no parity shards available" .decryptionFailed)
  let shardSize := ((shards.findSome? id).map List.length).getD 0
  if shardSize = 0 then
    throw (.noxClientError "decodeShards: all shards are null" .decryptionFailed)
  let reconstructed ← rsReconstruct shards dataShardCount parityCount shardSize
  -- the output has room for `originalDataLen` bytes; what the copy leaves stays `0`
  let copied := copyShards reconstructed originalDataLen
  return copied ++ List.replicate (originalDataLen - copied.length) 0

end NoxSdk.Fragmentation
