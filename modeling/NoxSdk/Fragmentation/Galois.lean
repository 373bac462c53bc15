import NoxSdk.Types
import Mathlib.Algebra.Field.Defs
import Mathlib.Data.Finset.Card
import Mathlib.Data.Nat.Bitwise
import Mathlib.Data.UInt
import Mathlib.Order.Interval.Finset.Nat

/-!
# Arithmetic of GF(2⁸)

The field operations of the Reed–Solomon decoder. The code multiplies through two tables,
`gfExp` and `gfLog`, filled by one loop that doubles a value modulo the polynomial `0x11d`.

* `Cell` is what an expression over those tables evaluates to: a byte, or no byte at all
  (`undefined`) once an index has left the tables.
* `GF256` is the field itself, with the polynomial product `polyMul` (shift and add, reduced
  by `0x11d`), which mentions no table.
* `gfMul_some`, `gfInv_some` and `gfExp_pow_some` identify the table operations on bytes
  with the field operations.

The bridge is the orbit `genPow i` of the generator `2`: the loop writes `genPow i` at index
`i` of `gfExp` and `i` at index `genPow i` of `gfLog`, and the orbit runs through every
nonzero byte.
-/

namespace NoxSdk.Fragmentation

/-! ### The tables -/

/-- `GF_PRIME`: x⁸ + x⁴ + x³ + x² + 1. -/
def gfPrime : ℕ := 0x11d

/-- `GF_SIZE`. -/
def gfSize : ℕ := 256

/-- The doubling at the end of a round of `buildTables`:
`x <<= 1; if (x >= GF_SIZE) x ^= GF_PRIME`. -/
def gfDouble (x : ℕ) : ℕ :=
  if x <<< 1 ≥ gfSize then x <<< 1 ^^^ gfPrime else x <<< 1

/-- The state of `buildTables`: the running value and the two tables. -/
structure GfTables where
  x : ℕ
  gfExp : List UInt8
  gfLog : List UInt8

/-- One round of `buildTables`. -/
def GfTables.round (t : GfTables) (i : ℕ) : GfTables where
  x := gfDouble t.x
  gfExp := (t.gfExp.set i t.x.toUInt8).set (i + gfSize - 1) t.x.toUInt8
  gfLog := t.gfLog.set t.x i.toUInt8

/-- The tables after `n` rounds. -/
def buildTables (n : ℕ) : GfTables :=
  (List.range n).foldl GfTables.round
    ⟨1, List.replicate (gfSize * 2) 0, List.replicate gfSize 0⟩

/-- `gfExp`: a `Uint8Array` of 512 bytes. -/
def gfExp : List UInt8 := (buildTables (gfSize - 1)).gfExp

/-- `gfLog`: a `Uint8Array` of 256 bytes. -/
def gfLog : List UInt8 := (buildTables (gfSize - 1)).gfLog

/-! ### Table arithmetic -/

/-- The value of a table expression: a byte, or `none` for a value that is no index of the
tables (`undefined`, or a number from 256 on, which every lookup turns into `undefined`). -/
abbrev Cell := Option UInt8

/-- `gfLog[c]!` as a number. -/
def Cell.log (c : Cell) : Option ℕ := do
  let byte ← c
  let log ← gfLog[byte.toNat]?
  return log.toNat

/-- `gfMul`. -/
def gfMul (a b : Cell) : Cell :=
  if a = some 0 ∨ b = some 0 then some 0
  else do
    let la ← a.log
    let lb ← b.log
    gfExp[(la + lb) % (gfSize - 1)]?

/-- `gfDiv`. -/
def gfDiv (a b : Cell) : Except Thrown Cell :=
  if b = some 0 then .error (.error "GF division by zero")
  else if a = some 0 then .ok (some 0)
  else .ok do
    let la ← a.log
    let lb ← b.log
    gfExp[(la + (gfSize - 1) - lb) % (gfSize - 1)]?

/-- `gfInv`. -/
def gfInv (a : Cell) : Except Thrown Cell := gfDiv (some 1) a

/-- The loop of `gfExp_pow`; a shift more than the exponent has bits leaves it at `0`, so
`e` rounds always suffice. -/
def gfExp_powLoop : ℕ → Cell → Cell → ℕ → Cell
  | 0, result, _, _ => result
  | fuel + 1, result, b, e =>
    if e = 0 then result
    else gfExp_powLoop fuel (if e % 2 = 1 then gfMul result b else result) (gfMul b b) (e / 2)

/-- `gfExp_pow`. -/
def gfExp_pow (base : Cell) (exp : ℕ) : Cell :=
  if exp = 0 then some 1
  else if base = some 0 then some 0
  else gfExp_powLoop exp (some 1) base exp

/-! ### The polynomial product -/

/-- Multiplication by `x` modulo the polynomial. -/
def xtime (a : UInt8) : UInt8 := a <<< 1 ^^^ (if a < 128 then 0 else 0x1d)

/-- Shift and add: the product of `a` with the low `n` bits of `b`. -/
def polyMulBits : ℕ → UInt8 → ℕ → UInt8
  | 0, _, _ => 0
  | n + 1, a, b => (if b % 2 = 1 then a else 0) ^^^ polyMulBits n (xtime a) (b / 2)

/-- The product of two polynomials over GF(2) modulo `0x11d`. -/
def polyMul (a b : UInt8) : UInt8 := polyMulBits 8 a b.toNat

/-- What the byte operations do, byte by byte. -/
private theorem bytewise : ∀ n < 256,
    gfDouble n = (xtime (UInt8.ofNat n)).toNat ∧
    (xtime (UInt8.ofNat n)).toBitVec = (UInt8.ofNat n).toBitVec <<< 1 ^^^
      (if (UInt8.ofNat n).toBitVec.msb then 0x1d#8 else 0#8) ∧
    polyMulBits 8 1 n = UInt8.ofNat n := by
  decide +kernel

private theorem gfDouble_toNat (a : UInt8) : gfDouble a.toNat = (xtime a).toNat := by
  have ha := (bytewise a.toNat a.toNat_lt).1
  rwa [UInt8.ofNat_toNat] at ha

private theorem toBitVec_xtime (a : UInt8) :
    (xtime a).toBitVec = a.toBitVec <<< 1 ^^^ (if a.toBitVec.msb then 0x1d#8 else 0#8) := by
  have ha := (bytewise a.toNat a.toNat_lt).2.1
  rwa [UInt8.ofNat_toNat] at ha

/-- Doubling is linear over GF(2). -/
theorem xtime_xor (a b : UInt8) : xtime (a ^^^ b) = xtime a ^^^ xtime b := by
  apply UInt8.toBitVec_inj.mp
  rw [UInt8.toBitVec_xor, toBitVec_xtime, toBitVec_xtime, toBitVec_xtime, UInt8.toBitVec_xor,
    BitVec.shiftLeft_xor_distrib, BitVec.msb_xor]
  have hpoly : (if (a.toBitVec.msb ^^ b.toBitVec.msb) = true then 0x1d#8 else 0#8)
      = (if a.toBitVec.msb then 0x1d#8 else 0#8) ^^^ (if b.toBitVec.msb then 0x1d#8 else 0#8) := by
    cases a.toBitVec.msb <;> cases b.toBitVec.msb <;> rfl
  rw [hpoly]
  ac_rfl

@[simp]
theorem xtime_zero : xtime 0 = 0 := rfl

private theorem ite_xor_ite (p : Prop) [Decidable p] (a b : UInt8) :
    (if p then a ^^^ b else 0) = (if p then a else 0) ^^^ (if p then b else 0) := by
  by_cases hp : p <;> simp [hp]

/-- The polynomial product is linear in its first factor. -/
theorem polyMulBits_xor_left (n : ℕ) (a a' : UInt8) (b : ℕ) :
    polyMulBits n (a ^^^ a') b = polyMulBits n a b ^^^ polyMulBits n a' b := by
  induction n generalizing a a' b with
  | zero => simp [polyMulBits]
  | succ n ih =>
    simp only [polyMulBits, xtime_xor, ih, ite_xor_ite]
    ac_rfl

/-- The polynomial product is linear in its second factor. -/
theorem polyMulBits_xor_right (n : ℕ) (a : UInt8) (b b' : ℕ) :
    polyMulBits n a (b ^^^ b') = polyMulBits n a b ^^^ polyMulBits n a b' := by
  induction n generalizing a b b' with
  | zero => simp [polyMulBits]
  | succ n ih =>
    have hbit : (if (b ^^^ b') % 2 = 1 then a else 0)
        = (if b % 2 = 1 then a else 0) ^^^ (if b' % 2 = 1 then a else 0) := by
      rcases Nat.mod_two_eq_zero_or_one b with h | h <;>
        rcases Nat.mod_two_eq_zero_or_one b' with h' | h' <;>
        simp [Nat.add_mod, h, h']
    simp only [polyMulBits, Nat.xor_div_two, ih, hbit]
    ac_rfl

/-- Doubling a factor doubles the product. -/
theorem polyMulBits_xtime (n : ℕ) (a : UInt8) (b : ℕ) :
    polyMulBits n (xtime a) b = xtime (polyMulBits n a b) := by
  induction n generalizing a b with
  | zero => simp [polyMulBits]
  | succ n ih =>
    simp only [polyMulBits, xtime_xor, ih]
    by_cases hb : b % 2 = 1 <;> simp [hb]

@[simp]
theorem polyMul_one_left (b : UInt8) : polyMul 1 b = b := by
  rw [polyMul, (bytewise b.toNat b.toNat_lt).2.2, UInt8.ofNat_toNat]

@[simp]
theorem polyMul_zero_left (b : UInt8) : polyMul 0 b = 0 := by
  have h := polyMulBits_xor_left 8 0 0 b.toNat
  rwa [UInt8.xor_self, UInt8.xor_self] at h

/-! ### The orbit of the generator -/

/-- The `i`-th power of the generator `2`. -/
def genPow (i : ℕ) : UInt8 := xtime^[i] 1

/-- Multiplying by a power of the generator doubles that often. -/
theorem polyMul_genPow (i : ℕ) (b : UInt8) : polyMul (genPow i) b = xtime^[i] b := by
  induction i with
  | zero => exact polyMul_one_left b
  | succ i ih =>
    rw [genPow, Function.iterate_succ_apply', Function.iterate_succ_apply', ← ih]
    exact polyMulBits_xtime 8 _ _

theorem polyMul_genPow_genPow (i j : ℕ) : polyMul (genPow i) (genPow j) = genPow (i + j) := by
  rw [polyMul_genPow, genPow, genPow, Function.iterate_add_apply]

private theorem toNat_genPow (i : ℕ) : (genPow i).toNat = gfDouble^[i] 1 := by
  induction i with
  | zero => rfl
  | succ i ih =>
    rw [genPow, Function.iterate_succ_apply', Function.iterate_succ_apply', ← ih, ← genPow,
      gfDouble_toNat]

/-- The orbit of `1` closes after 255 steps and not earlier. -/
private theorem iterate_gfDouble_one :
    gfDouble^[255] 1 = 1 ∧ ∀ d < 254, gfDouble^[d + 1] 1 ≠ 1 := by
  decide +kernel

theorem genPow_255 : genPow 255 = 1 :=
  UInt8.toNat_inj.mp ((toNat_genPow 255).trans iterate_gfDouble_one.1)

/-- The orbit does not return to `1` earlier. -/
private theorem genPow_ne_one {d : ℕ} (h0 : 0 < d) (h : d < 255) : genPow d ≠ 1 := by
  intro hd
  have hnat := congrArg UInt8.toNat hd
  rw [toNat_genPow] at hnat
  obtain ⟨e, rfl⟩ : ∃ e, d = e + 1 := ⟨d - 1, by omega⟩
  exact iterate_gfDouble_one.2 e (by omega) hnat

theorem genPow_mod (i : ℕ) : genPow (i % 255) = genPow i := by
  have hperiod : ∀ k j, genPow (j + 255 * k) = genPow j := by
    intro k j
    induction k with
    | zero => rfl
    | succ k ih =>
      rw [show j + 255 * (k + 1) = j + 255 * k + 255 by omega, genPow,
        Function.iterate_add_apply, ← genPow, genPow_255]
      exact ih
  conv_rhs => rw [← Nat.mod_add_div i 255]
  rw [hperiod]

theorem genPow_ne_zero (i : ℕ) : genPow i ≠ 0 := by
  intro h
  -- from `0` the orbit would never come back to `1`
  have hstuck : ∀ k, xtime^[k] 0 = 0 := fun k => Function.iterate_fixed xtime_zero k
  have hone : genPow (255 * (i + 1)) = 1 := by
    rw [← genPow_mod, Nat.mul_mod_right]
    rfl
  have hsplit : 255 * (i + 1) = (254 * i + 255) + i := by omega
  rw [hsplit, genPow, Function.iterate_add_apply, ← genPow, h, hstuck] at hone
  exact absurd hone (by decide)

/-- Within one period the powers are different. -/
theorem genPow_injOn {i j : ℕ} (hi : i < 255) (hj : j < 255) (h : genPow i = genPow j) :
    i = j := by
  wlog hij : i ≤ j generalizing i j with hsymm
  · exact (hsymm hj hi h.symm (by omega)).symm
  by_contra hne
  have hclose : genPow (255 - i + j) = 1 := by
    rw [← polyMul_genPow_genPow, ← h, polyMul_genPow_genPow,
      show 255 - i + i = 255 by omega, genPow_255]
  have hback : genPow (j - i) = 1 := by
    rw [← genPow_mod, ← hclose, ← genPow_mod (255 - i + j)]
    congr 1
    omega
  exact genPow_ne_one (by omega) (by omega) hback

/-- Every nonzero byte is a power of the generator. -/
theorem exists_genPow_eq {a : UInt8} (ha : a ≠ 0) : ∃ i < 255, genPow i = a := by
  -- an injection of 255 exponents into 255 nonzero bytes
  have hmaps : Set.MapsTo (fun i => (genPow i).toNat) (Finset.range 255) (Finset.Icc 1 255) := by
    intro i _
    have hlt := (genPow i).toNat_lt
    have hne : (genPow i).toNat ≠ 0 := fun h => genPow_ne_zero i (UInt8.toNat_inj.mp h)
    simp only [Finset.coe_Icc, Set.mem_Icc]
    omega
  have hinj : Set.InjOn (fun i => (genPow i).toNat) (Finset.range 255) := by
    intro i hi j hj hij
    simp only [Finset.coe_range, Set.mem_Iio] at hi hj
    exact genPow_injOn hi hj (UInt8.toNat_inj.mp hij)
  have hsurj := Finset.surjOn_of_injOn_of_card_le _ hmaps hinj (by simp)
  have hmem : a.toNat ∈ (Finset.Icc 1 255 : Finset ℕ) := by
    have hlt := a.toNat_lt
    have hne : a.toNat ≠ 0 := fun h => ha (UInt8.toNat_inj.mp h)
    rw [Finset.mem_Icc]
    omega
  obtain ⟨i, hi, hia⟩ := hsurj hmem
  exact ⟨i, by simpa using hi, UInt8.toNat_inj.mp hia⟩

/-! ### The field -/

@[simp]
theorem polyMul_zero_right (a : UInt8) : polyMul a 0 = 0 := by
  have h := polyMulBits_xor_right 8 a 0 0
  rwa [Nat.xor_self, UInt8.xor_self] at h

theorem polyMul_comm (a b : UInt8) : polyMul a b = polyMul b a := by
  by_cases ha : a = 0
  · simp [ha]
  by_cases hb : b = 0
  · simp [hb]
  obtain ⟨i, -, rfl⟩ := exists_genPow_eq ha
  obtain ⟨j, -, rfl⟩ := exists_genPow_eq hb
  rw [polyMul_genPow_genPow, polyMul_genPow_genPow, Nat.add_comm]

theorem polyMul_assoc (a b c : UInt8) : polyMul (polyMul a b) c = polyMul a (polyMul b c) := by
  by_cases ha : a = 0
  · simp [ha]
  by_cases hb : b = 0
  · simp [hb]
  obtain ⟨i, -, rfl⟩ := exists_genPow_eq ha
  obtain ⟨j, -, rfl⟩ := exists_genPow_eq hb
  rw [polyMul_genPow_genPow, polyMul_genPow, polyMul_genPow, polyMul_genPow,
    Function.iterate_add_apply]

theorem polyMul_xor (a b c : UInt8) : polyMul a (b ^^^ c) = polyMul a b ^^^ polyMul a c := by
  rw [polyMul, UInt8.toNat_xor, polyMulBits_xor_right]
  rfl

/-- `a²⁵⁴`, the inverse of a nonzero byte. -/
def polyInv (a : UInt8) : UInt8 := (polyMul a)^[254] 1

theorem polyInv_genPow (i : ℕ) : polyInv (genPow i) = genPow (254 * i) := by
  have h : ∀ k, (polyMul (genPow i))^[k] 1 = genPow (k * i) := by
    intro k
    induction k with
    | zero => simp [genPow]
    | succ k ih =>
      rw [Function.iterate_succ_apply', ih, polyMul_genPow_genPow, Nat.succ_mul, Nat.add_comm]
  exact h 254

@[simp]
theorem polyInv_zero : polyInv 0 = 0 := by
  rw [polyInv, show 254 = 253 + 1 from rfl, Function.iterate_succ_apply', polyMul_zero_left]

theorem polyMul_polyInv {a : UInt8} (ha : a ≠ 0) : polyMul a (polyInv a) = 1 := by
  obtain ⟨i, -, rfl⟩ := exists_genPow_eq ha
  rw [polyInv_genPow, polyMul_genPow_genPow, ← genPow_mod, show (i + 254 * i) % 255 = 0 by omega]
  rfl

attribute [irreducible] polyInv

/-- GF(2⁸) over the polynomial `0x11d`: bytes under exclusive or and the polynomial
product. -/
@[ext]
structure GF256 where
  byte : UInt8
  deriving DecidableEq

namespace GF256

instance : Zero GF256 := ⟨⟨0⟩⟩
instance : One GF256 := ⟨⟨1⟩⟩
instance : Add GF256 := ⟨fun a b => ⟨a.byte ^^^ b.byte⟩⟩
instance : Neg GF256 := ⟨id⟩
instance : Mul GF256 := ⟨fun a b => ⟨polyMul a.byte b.byte⟩⟩
instance : Inv GF256 := ⟨fun a => ⟨polyInv a.byte⟩⟩

@[simp] theorem byte_zero : (0 : GF256).byte = 0 := rfl
@[simp] theorem byte_one : (1 : GF256).byte = 1 := rfl
@[simp] theorem byte_add (a b : GF256) : (a + b).byte = a.byte ^^^ b.byte := rfl
@[simp] theorem byte_neg (a : GF256) : (-a).byte = a.byte := rfl
@[simp] theorem byte_mul (a b : GF256) : (a * b).byte = polyMul a.byte b.byte := rfl
@[simp] theorem byte_inv (a : GF256) : a⁻¹.byte = polyInv a.byte := rfl

theorem byte_eq_zero_iff {a : GF256} : a.byte = 0 ↔ a = 0 :=
  ⟨fun h => GF256.ext h, fun h => h ▸ rfl⟩

theorem byte_eq_one_iff {a : GF256} : a.byte = 1 ↔ a = 1 :=
  ⟨fun h => GF256.ext h, fun h => h ▸ rfl⟩

instance : Field GF256 where
  add_assoc a b c := GF256.ext (UInt8.xor_assoc _ _ _)
  zero_add a := GF256.ext UInt8.zero_xor
  add_zero a := GF256.ext UInt8.xor_zero
  add_comm a b := GF256.ext (UInt8.xor_comm _ _)
  neg_add_cancel a := GF256.ext UInt8.xor_self
  nsmul := nsmulRec
  zsmul := zsmulRec
  left_distrib a b c := GF256.ext (polyMul_xor _ _ _)
  right_distrib a b c := GF256.ext (polyMulBits_xor_left 8 _ _ _)
  zero_mul a := GF256.ext (polyMul_zero_left _)
  mul_zero a := GF256.ext (polyMul_zero_right _)
  mul_assoc a b c := GF256.ext (polyMul_assoc _ _ _)
  one_mul a := GF256.ext (polyMul_one_left _)
  mul_one a := GF256.ext ((polyMul_comm _ _).trans (polyMul_one_left _))
  mul_comm a b := GF256.ext (polyMul_comm _ _)
  exists_pair_ne := ⟨0, 1, by decide⟩
  mul_inv_cancel a ha := GF256.ext (polyMul_polyInv fun h => ha (byte_eq_zero_iff.mp h))
  inv_zero := GF256.ext polyInv_zero
  nnqsmul := _
  qsmul := _

/-- The field has characteristic two: every element is its own opposite. -/
@[simp]
theorem neg_eq (a : GF256) : -a = a := rfl

/-- The elements whose bytes are the numbers below 256. -/
def ofNat (n : ℕ) : GF256 := ⟨UInt8.ofNat n⟩

theorem ofNat_injOn {i j : ℕ} (hi : i < 256) (hj : j < 256) (h : ofNat i = ofNat j) :
    i = j := by
  have hbyte : UInt8.ofNat i = UInt8.ofNat j := congrArg GF256.byte h
  have hnat := congrArg UInt8.toNat hbyte
  rwa [UInt8.toNat_ofNat', UInt8.toNat_ofNat', Nat.mod_eq_of_lt hi, Nat.mod_eq_of_lt hj] at hnat

end GF256

/-! ### The tables hold the orbit -/

/-- The state of `buildTables` after `n` rounds. -/
structure GfTables.Filled (t : GfTables) (n : ℕ) : Prop where
  x_eq : t.x = (genPow n).toNat
  length_gfExp : t.gfExp.length = 512
  length_gfLog : t.gfLog.length = 256
  gfExp_eq : ∀ i < n, t.gfExp[i]? = some (genPow i)
  gfLog_eq : ∀ i < n, t.gfLog[(genPow i).toNat]? = some (UInt8.ofNat i)

/-- One round writes the next power and its logarithm, and disturbs no earlier entry. -/
theorem GfTables.Filled.round {t : GfTables} {n : ℕ} (h : t.Filled n) (hn : n < 255) :
    (t.round n).Filled (n + 1) where
  x_eq := by
    rw [GfTables.round, h.x_eq, gfDouble_toNat, genPow, genPow, Function.iterate_succ_apply']
  length_gfExp := by simp [GfTables.round, h.length_gfExp]
  length_gfLog := by simp [GfTables.round, h.length_gfLog]
  gfExp_eq := by
    intro i hi
    have hfar : ¬ n + gfSize - 1 = i := by simp only [gfSize]; omega
    simp only [GfTables.round, h.x_eq, List.getElem?_set, if_neg hfar, h.length_gfExp]
    by_cases hin : n = i
    · subst hin
      simp [show n < 512 by omega]
    · rw [if_neg hin]
      exact h.gfExp_eq i (by omega)
  gfLog_eq := by
    intro i hi
    simp only [GfTables.round, h.x_eq, List.getElem?_set, h.length_gfLog]
    by_cases hin : n = i
    · subst hin
      simp [(genPow n).toNat_lt]
    · have hne : ¬ (genPow n).toNat = (genPow i).toNat := fun heq =>
        hin (genPow_injOn hn (by omega) (UInt8.toNat_inj.mp heq))
      rw [if_neg hne]
      exact h.gfLog_eq i (by omega)

theorem filled_buildTables {n : ℕ} (hn : n ≤ 255) : (buildTables n).Filled n := by
  induction n with
  | zero =>
    exact ⟨rfl, List.length_replicate, List.length_replicate, fun i hi => absurd hi (by omega),
      fun i hi => absurd hi (by omega)⟩
  | succ n ih =>
    have hstep : buildTables (n + 1) = (buildTables n).round n := by
      rw [buildTables, List.range_succ, List.foldl_append]
      rfl
    rw [hstep]
    exact (ih (by omega)).round (by omega)

theorem gfExp_getElem? {i : ℕ} (hi : i < 255) : gfExp[i]? = some (genPow i) :=
  (filled_buildTables (le_refl 255)).gfExp_eq i hi

/-- The logarithm of a power of the generator is its exponent. -/
theorem log_genPow {i : ℕ} (hi : i < 255) : Cell.log (some (genPow i)) = some i := by
  have h : gfLog[(genPow i).toNat]? = some (UInt8.ofNat i) :=
    (filled_buildTables (le_refl 255)).gfLog_eq i hi
  simp [Cell.log, h, UInt8.toNat_ofNat', Nat.mod_eq_of_lt (show i < 256 by omega)]

attribute [irreducible] gfExp gfLog

/-! ### The table operations are the field operations -/

/-- An element of the field as a table value. -/
def GF256.cell (a : GF256) : Cell := some a.byte

@[simp]
theorem GF256.cell_eq_zero_iff {a : GF256} : a.cell = some 0 ↔ a = 0 := by
  rw [GF256.cell, Option.some_inj, GF256.byte_eq_zero_iff]

@[simp]
theorem GF256.cell_eq_one_iff {a : GF256} : a.cell = some 1 ↔ a = 1 := by
  rw [GF256.cell, Option.some_inj, GF256.byte_eq_one_iff]

/-- The table product of two bytes is their product in the field. -/
theorem gfMul_cell (a b : GF256) : gfMul a.cell b.cell = (a * b).cell := by
  rw [gfMul]
  by_cases ha : a = 0
  · simp [ha, GF256.cell]
  by_cases hb : b = 0
  · simp [hb, GF256.cell]
  obtain ⟨i, hi, hia⟩ := exists_genPow_eq fun h => ha (GF256.byte_eq_zero_iff.mp h)
  obtain ⟨j, hj, hjb⟩ := exists_genPow_eq fun h => hb (GF256.byte_eq_zero_iff.mp h)
  have hprod : (a * b).byte = genPow ((i + j) % 255) := by
    rw [GF256.byte_mul, ← hia, ← hjb, polyMul_genPow_genPow, genPow_mod]
  rw [if_neg (by simp [ha, hb])]
  simp only [GF256.cell, hprod, ← hia, ← hjb, log_genPow hi, log_genPow hj]
  exact gfExp_getElem? (Nat.mod_lt _ (by decide))

/-- The table inverse of a nonzero byte is its inverse in the field. -/
theorem gfInv_cell {a : GF256} (ha : a ≠ 0) : gfInv a.cell = .ok a⁻¹.cell := by
  obtain ⟨i, hi, hia⟩ := exists_genPow_eq fun h => ha (GF256.byte_eq_zero_iff.mp h)
  have hinv : a⁻¹.byte = genPow ((0 + 255 - i) % 255) := by
    rw [GF256.byte_inv, ← hia, polyInv_genPow, genPow_mod, ← genPow_mod (254 * i),
      ← genPow_mod (0 + 255 - i)]
    congr 1
    omega
  have hone : Cell.log (some 1) = some 0 := log_genPow (i := 0) (by omega)
  rw [gfInv, gfDiv, if_neg (by simp [ha]), if_neg (by decide)]
  simp only [GF256.cell, hinv, ← hia, log_genPow hi, hone]
  exact congrArg Except.ok (gfExp_getElem? (Nat.mod_lt _ (by decide)))

private theorem gfExp_powLoop_cell (fuel : ℕ) (result b : GF256) (e : ℕ) (h : e ≤ fuel) :
    gfExp_powLoop fuel result.cell b.cell e = (result * b ^ e).cell := by
  induction fuel generalizing result b e with
  | zero =>
    obtain rfl : e = 0 := by omega
    simp [gfExp_powLoop]
  | succ fuel ih =>
    rw [gfExp_powLoop]
    by_cases he : e = 0
    · simp [he]
    have hpow : b ^ e = b ^ (e % 2) * (b * b) ^ (e / 2) := by
      rw [← pow_two, ← pow_mul, ← pow_add, Nat.mod_add_div]
    rw [if_neg he, gfMul_cell, gfMul_cell, hpow]
    rcases Nat.mod_two_eq_zero_or_one e with hmod | hmod
    · rw [if_neg (by omega), ih _ _ _ (by omega), hmod, pow_zero, one_mul]
    · rw [if_pos hmod, ih _ _ _ (by omega), hmod, pow_one, mul_assoc]

/-- `gfExp_pow` is the power in the field. -/
theorem gfExp_pow_cell (b : GF256) (e : ℕ) : gfExp_pow b.cell e = (b ^ e).cell := by
  rw [gfExp_pow]
  by_cases he : e = 0
  · simp [he, GF256.cell]
  by_cases hb : b = 0
  · simp [hb, he, GF256.cell]
  · rw [if_neg he, if_neg (by simpa using hb)]
    have h := gfExp_powLoop_cell e 1 b e (le_refl e)
    rwa [one_mul] at h

end NoxSdk.Fragmentation
