import Mathlib.Algebra.Order.Floor.Ring
import Mathlib.Data.Rat.Floor
import Mathlib.Data.Multiset.Count
import Mathlib.Order.Bounds.Basic

/-!
# The nearest rank

The `q` quantile of a multiset by the nearest rank is the least of its elements that at least the
fraction `q` of them do not exceed. In the sorted list it stands at the place of that rank.
-/

namespace NoxSdk.Lib

variable {α : Type*} [LinearOrder α]

/-- The element is the `q` quantile by the nearest rank. -/
def IsNearestRank (q : ℚ) (values : Multiset α) (value : α) : Prop :=
  IsLeast {v | v ∈ values ∧ q * values.card ≤ values.countP (· ≤ v)} value

/-- The place of the `q` quantile in a sorted list of so many elements. -/
def rankIndex (q : ℚ) (length : ℕ) : ℕ := min (length - 1) (⌈q * length⌉ - 1).toNat

theorem rankIndex_lt {length : ℕ} (q : ℚ) (h : 0 < length) : rankIndex q length < length :=
  (min_le_left ..).trans_lt (Nat.sub_lt h Nat.one_pos)

/-- In a sorted list at least `i + 1` elements do not exceed the one at `i`. -/
theorem lt_countP_le {sorted : List α} (hsorted : sorted.Pairwise (· ≤ ·)) {i : ℕ}
    (hi : i < sorted.length) : i < sorted.countP (· ≤ sorted[i]) := by
  have htake : ∀ a ∈ sorted.take (i + 1), decide (a ≤ sorted[i]) = true := by
    intro a ha
    obtain ⟨j, hj, rfl⟩ := List.mem_iff_getElem.mp ha
    rw [List.length_take] at hj
    rw [List.getElem_take]
    rcases Nat.lt_or_ge j i with hlt | hge
    · exact decide_eq_true (List.pairwise_iff_getElem.mp hsorted j i (by omega) hi hlt)
    · obtain rfl : j = i := by omega
      exact decide_eq_true le_rfl
  have hcount := List.countP_eq_length.mpr htake
  have hsub := (List.take_sublist (i + 1) sorted).countP_le (p := (· ≤ sorted[i]))
  rw [hcount, List.length_take] at hsub
  omega

/-- In a sorted list at most `i` elements are less than the one at `i`. -/
theorem countP_le_of_lt {sorted : List α} (hsorted : sorted.Pairwise (· ≤ ·)) {i : ℕ}
    (hi : i < sorted.length) {value : α} (hlt : value < sorted[i]) :
    sorted.countP (· ≤ value) ≤ i := by
  have hdrop : ∀ a ∈ sorted.drop i, ¬decide (a ≤ value) = true := by
    intro a ha
    obtain ⟨j, hj, rfl⟩ := List.mem_iff_getElem.mp ha
    rw [List.getElem_drop, decide_eq_true_eq, not_le]
    refine hlt.trans_le ?_
    rcases Nat.eq_zero_or_pos j with rfl | hpos
    · exact le_rfl
    · rw [List.length_drop] at hj
      exact List.pairwise_iff_getElem.mp hsorted i (i + j) hi (by omega) (by omega)
  have hnone := List.countP_eq_zero.mpr hdrop
  have hlength := List.countP_le_length (p := (· ≤ value)) (l := sorted.take i)
  rw [← List.take_append_drop i sorted, List.countP_append, hnone, Nat.add_zero]
  exact hlength.trans (List.length_take_le i sorted)

theorem rankIndex_eq {q : ℚ} {length : ℕ} (hpos : 0 < q) (hle : q ≤ 1) (hne : 0 < length) :
    (rankIndex q length : ℤ) = ⌈q * length⌉ - 1 := by
  have hlength : (0 : ℚ) < length := Nat.cast_pos.mpr hne
  have hlow : 0 < ⌈q * length⌉ := Int.ceil_pos.mpr (mul_pos hpos hlength)
  have hhigh : ⌈q * length⌉ ≤ length :=
    Int.ceil_le.mpr (by rw [Int.cast_natCast]; exact mul_le_of_le_one_left hlength.le hle)
  rw [rankIndex]
  omega

/-- The element at the place of the rank is the quantile. -/
theorem isNearestRank_getElem {sorted : List α} (hsorted : sorted.Pairwise (· ≤ ·))
    (hne : 0 < sorted.length) {q : ℚ} (hpos : 0 < q) (hle : q ≤ 1) :
    IsNearestRank q (sorted : Multiset α)
      (sorted.get ⟨rankIndex q sorted.length, rankIndex_lt q hne⟩) := by
  have hindex := rankIndex_eq hpos hle hne
  have hrank := rankIndex_lt q hne
  constructor
  · refine ⟨Multiset.mem_coe.mpr (List.get_mem ..), ?_⟩
    have hcount := lt_countP_le hsorted hrank
    have hceil : ⌈q * sorted.length⌉ ≤
        (sorted.countP (· ≤ sorted[rankIndex q sorted.length]) : ℤ) := by omega
    rw [Multiset.coe_card, Multiset.coe_countP]
    have hle := Int.ceil_le.mp hceil
    rwa [Int.cast_natCast] at hle
  · rintro value ⟨-, hvalue⟩
    by_contra hlt
    have hcount := countP_le_of_lt hsorted hrank (not_le.mp hlt)
    rw [Multiset.coe_card, Multiset.coe_countP] at hvalue
    have hceil : ⌈q * sorted.length⌉ ≤ rankIndex q sorted.length :=
      Int.ceil_le.mpr (hvalue.trans (by rw [Int.cast_natCast]; exact Nat.cast_le.mpr hcount))
    omega

end NoxSdk.Lib
