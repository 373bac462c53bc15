import NoxSdk.Lib.NearestRank
import Mathlib.Data.List.Rotate

/-!
# The latency window

`LatencyTracker` keeps the last reply times in a ring: the first ones are appended, and then each
takes the place of the oldest. The place that is next is the one of the oldest sample in both
stretches, so the ring read from there is the last samples in their order.

A reply time is a number of any kind; those that are not finite or below zero are not recorded. The
factor of the quantile is a fraction.
-/

namespace NoxSdk.Client

open NoxSdk.Lib

/-- `LATENCY_SAMPLES`. -/
def latencySamples : ℕ := 64

/-- `LATENCY_MIN_SAMPLES`. -/
def latencyMinSamples : ℕ := 8

/-- A number of JavaScript: finite, or an infinity or no number. -/
inductive Millis
  | finite (ms : ℚ)
  | other

/-- `LatencyTracker`. -/
structure LatencyTracker where
  samples : List ℚ
  next : ℕ

/-- What `hedgeDelay` reads of `ResendPolicy`. -/
structure HedgePolicy where
  hedgeAfterMs : ℕ
  hedgeAdaptive : Bool

namespace LatencyTracker

/-- A tracker without samples. -/
def new : LatencyTracker := ⟨[], 0⟩

/-- A sample is kept. -/
def push (tracker : LatencyTracker) (ms : ℚ) : LatencyTracker where
  samples :=
    if tracker.samples.length < latencySamples then tracker.samples ++ [ms]
    else tracker.samples.set tracker.next ms
  next := (tracker.next + 1) % latencySamples

/-- `record`. -/
def record (tracker : LatencyTracker) : Millis → LatencyTracker
  | .finite ms => if ms < 0 then tracker else tracker.push ms
  | .other => tracker

/-- `quantile`. -/
def quantile (tracker : LatencyTracker) (q : ℚ) : Option ℚ :=
  if tracker.samples.length < latencyMinSamples then none
  else
    let sorted := tracker.samples.mergeSort fun left right => decide (left ≤ right)
    sorted[min (sorted.length - 1) (max 0 (⌈q * sorted.length⌉ - 1)).toNat]?

/-- `Math.round`. -/
def mathRound (ms : ℚ) : ℤ := ⌊ms + 1 / 2⌋

/-- `hedgeDelay`. -/
def hedgeDelay (tracker : LatencyTracker) (policy : HedgePolicy) (attemptTimeoutMs : ℤ) : ℤ :=
  let delay : ℤ :=
    if policy.hedgeAdaptive then
      match tracker.quantile (95 / 100) with
      | some p95 => max (policy.hedgeAfterMs : ℤ) (mathRound p95)
      | none => policy.hedgeAfterMs
    else policy.hedgeAfterMs
  min delay (max 0 (attemptTimeoutMs - 1))

end LatencyTracker

/-- The reply times that are recorded. -/
def recorded (times : List Millis) : List ℚ :=
  times.filterMap fun
    | .finite ms => if ms < 0 then none else some ms
    | .other => none

/-- The last ones of a list. -/
def lastSamples (times : List ℚ) : List ℚ := times.drop (times.length - latencySamples)

namespace LatencyTracker

/-! ### The ring -/

/-- The ring read from the next place on has the last samples in their order. -/
structure Holds (tracker : LatencyTracker) (times : List ℚ) : Prop where
  length_eq : tracker.samples.length = min times.length latencySamples
  next_eq : tracker.next = times.length % latencySamples
  rotate_eq : tracker.samples.rotate tracker.next = lastSamples times

/-- The place that is next gets a new element, and the ring is read from the one behind it. -/
theorem rotate_set {α : Type*} {l : List α} {n : ℕ} (h : n < l.length) (a : α) :
    (l.set n a).rotate (n + 1) = (l.rotate n).tail ++ [a] := by
  have hset : (l.set n a).drop (n + 1) = l.drop (n + 1) := List.drop_set_of_lt (Nat.lt_succ_self n)
  have htake : (l.set n a).take (n + 1) = l.take n ++ [a] := by
    rw [List.take_add_one, List.take_set_of_le le_rfl, List.getElem?_set_self h]
    rfl
  rw [List.rotate_eq_drop_append_take (by rw [List.length_set]; exact h), hset, htake,
    List.rotate_eq_drop_append_take h.le, List.drop_eq_getElem_cons h, List.cons_append,
    List.tail_cons, List.append_assoc]

theorem lastSamples_append (times : List ℚ) (ms : ℚ) :
    lastSamples (times ++ [ms]) =
      if times.length < latencySamples then times ++ [ms]
      else (lastSamples times).tail ++ [ms] := by
  rw [lastSamples, List.length_append, List.length_singleton]
  split_ifs with hless
  · rw [Nat.sub_eq_zero_of_le (Nat.succ_le_of_lt hless), List.drop_zero]
  · rw [List.drop_append_of_le_length (by simp only [latencySamples] at hless ⊢; omega),
      lastSamples, List.tail_drop]
    congr 2
    omega

theorem holds_new : new.Holds [] := ⟨rfl, rfl, rfl⟩

theorem Holds.push {tracker : LatencyTracker} {times : List ℚ} (h : tracker.Holds times) (ms : ℚ) :
    (tracker.push ms).Holds (times ++ [ms]) := by
  obtain ⟨hlength, hnext, hrotate⟩ := h
  have hnext' : (tracker.push ms).next = (times ++ [ms]).length % latencySamples := by
    rw [LatencyTracker.push, List.length_append, List.length_singleton, hnext, Nat.mod_add_mod]
  rcases Nat.lt_or_ge times.length latencySamples with hless | hmore
  · -- the buffer grows
    rw [min_eq_left hless.le] at hlength
    rw [Nat.mod_eq_of_lt hless] at hnext
    have hsamples : tracker.samples = times := by
      rw [← hlength] at hnext
      rw [hnext, List.rotate_length, lastSamples, Nat.sub_eq_zero_of_le hless.le,
        List.drop_zero] at hrotate
      exact hrotate
    have hpush : (tracker.push ms).samples = times ++ [ms] := by
      rw [LatencyTracker.push, if_pos (hlength.trans_lt hless), hsamples]
    refine ⟨?_, hnext', ?_⟩
    · rw [hpush, List.length_append, List.length_singleton, min_eq_left (Nat.succ_le_of_lt hless)]
    · rw [hpush, lastSamples_append, if_pos hless, hnext']
      rcases Nat.lt_or_ge (times ++ [ms]).length latencySamples with hfew | hfull
      · rw [Nat.mod_eq_of_lt hfew, List.rotate_length]
      · have hlength' : (times ++ [ms]).length = latencySamples := by
          rw [List.length_append, List.length_singleton] at hfull ⊢
          omega
        rw [hlength', Nat.mod_self, List.rotate_zero]
  · -- the oldest sample goes
    rw [min_eq_right hmore] at hlength
    have hplace : tracker.next < tracker.samples.length := by
      rw [hlength, hnext]
      exact Nat.mod_lt _ (by decide)
    have hpush : (tracker.push ms).samples = tracker.samples.set tracker.next ms := by
      rw [LatencyTracker.push, if_neg (by rw [hlength]; exact lt_irrefl _)]
    refine ⟨?_, hnext', ?_⟩
    · rw [hpush, List.length_set, hlength, min_eq_right]
      rw [List.length_append]
      exact hmore.trans (Nat.le_add_right ..)
    · have hmod : (tracker.push ms).next = (tracker.next + 1) % (tracker.samples.set
          tracker.next ms).length := by
        rw [List.length_set, hlength, LatencyTracker.push]
      rw [hpush, hmod, List.rotate_mod, rotate_set hplace, hrotate, lastSamples_append,
        if_neg (not_lt.mpr hmore)]

theorem recorded_append (times : List Millis) (ms : Millis) :
    recorded (times ++ [ms]) = recorded times ++ recorded [ms] := List.filterMap_append ..

/-- A record of any number keeps the window. -/
theorem Holds.record {tracker : LatencyTracker} {times : List Millis}
    (h : tracker.Holds (recorded times)) (ms : Millis) :
    (tracker.record ms).Holds (recorded (times ++ [ms])) := by
  rw [recorded_append]
  cases ms with
  | other =>
    have hnone : recorded [Millis.other] = [] := rfl
    rw [hnone, List.append_nil]
    exact h
  | finite ms =>
    rw [LatencyTracker.record]
    split_ifs with hneg
    · have hnone : recorded [.finite ms] = [] := by simp [recorded, hneg]
      rw [hnone, List.append_nil]
      exact h
    · have hone : recorded [.finite ms] = [ms] := by simp [recorded, hneg]
      rw [hone]
      exact h.push ms

/-- After any calls of `record` the window has the last samples. -/
theorem holds_foldl (times : List Millis) : (times.foldl record new).Holds (recorded times) := by
  induction times using List.reverseRecOn with
  | nil => exact holds_new
  | append_singleton times ms ih =>
    rw [List.foldl_append]
    exact ih.record ms

/-! ### The quantile and the delay -/

/-- The samples as they are sorted. -/
def sorted (tracker : LatencyTracker) : List ℚ :=
  tracker.samples.mergeSort fun left right => decide (left ≤ right)

theorem sorted_perm (tracker : LatencyTracker) : tracker.sorted.Perm tracker.samples :=
  List.mergeSort_perm ..

theorem pairwise_sorted (tracker : LatencyTracker) : tracker.sorted.Pairwise (· ≤ ·) := by
  refine (List.pairwise_mergeSort (fun a b c hab hbc => ?_) (fun a b => ?_) _).imp
    fun h => of_decide_eq_true h
  · exact decide_eq_true ((of_decide_eq_true hab).trans (of_decide_eq_true hbc))
  · rw [Bool.or_eq_true, decide_eq_true_eq, decide_eq_true_eq]
    exact le_total a b

theorem quantile_of_length_lt {tracker : LatencyTracker} (q : ℚ)
    (h : tracker.samples.length < latencyMinSamples) : tracker.quantile q = none := if_pos h

/-- With enough samples the quantile is the one of their multiset. -/
theorem exists_quantile {tracker : LatencyTracker} {q : ℚ} (hpos : 0 < q) (hle : q ≤ 1)
    (h : latencyMinSamples ≤ tracker.samples.length) :
    ∃ value, tracker.quantile q = some value ∧
      IsNearestRank q (tracker.samples : Multiset ℚ) value := by
  have hlength := tracker.sorted_perm.length_eq
  have hne : 0 < tracker.sorted.length := by
    rw [hlength]
    exact (by decide : 0 < latencyMinSamples).trans_le h
  have hindex : min (tracker.sorted.length - 1)
      (max 0 (⌈q * tracker.sorted.length⌉ - 1)).toNat = rankIndex q tracker.sorted.length := by
    rw [rankIndex]
    omega
  refine ⟨_, ?_, Multiset.coe_eq_coe.mpr tracker.sorted_perm ▸
    isNearestRank_getElem tracker.pairwise_sorted hne hpos hle⟩
  have hquantile : tracker.quantile q = tracker.sorted[min (tracker.sorted.length - 1)
      (max 0 (⌈q * tracker.sorted.length⌉ - 1)).toNat]? := if_neg (not_lt.mpr h)
  rw [hquantile, hindex, List.getElem?_eq_getElem (rankIndex_lt q hne)]
  rfl

/-- The delay is no less than its floor, and less than the timeout of an attempt. -/
theorem hedgeDelay_bounds (tracker : LatencyTracker) (policy : HedgePolicy) {timeoutMs : ℤ}
    (hpos : 0 < timeoutMs) :
    min (policy.hedgeAfterMs : ℤ) (timeoutMs - 1) ≤ tracker.hedgeDelay policy timeoutMs ∧
      tracker.hedgeDelay policy timeoutMs < timeoutMs := by
  have hmax : max 0 (timeoutMs - 1) = timeoutMs - 1 := max_eq_right (by omega)
  rw [hedgeDelay, hmax]
  constructor
  · refine min_le_min_right _ ?_
    split_ifs
    · split
      · exact le_max_left ..
      · exact le_rfl
    · exact le_rfl
  · exact (min_le_right ..).trans_lt (Int.sub_one_lt_of_le le_rfl)

/-- **The latency window holds the last samples.** After any calls of `record` the samples are, as
a multiset, the last of the numbers that were recorded, 64 of them if there were so many; the 0.95
quantile is undefined below 8 samples and otherwise the one of that multiset by the nearest rank;
and the delay of a hedge lies between its floor and the timeout of the attempt.

The ring holds the last samples up to a rotation (`Holds`), which a multiset does not see. Sorting
them gives the nearest rank directly (`isNearestRank_getElem`). -/
theorem latency_window (times : List Millis) :
    let tracker := times.foldl record new
    let last : Multiset ℚ := lastSamples (recorded times)
    (tracker.samples : Multiset ℚ) = last ∧
      last.card = min (recorded times).length latencySamples ∧
      (last.card < latencyMinSamples → tracker.quantile (95 / 100) = none) ∧
      (latencyMinSamples ≤ last.card → ∃ value, tracker.quantile (95 / 100) = some value ∧
        IsNearestRank (95 / 100) last value) ∧
      ∀ (policy : HedgePolicy) (timeoutMs : ℤ), 0 < timeoutMs →
        min (policy.hedgeAfterMs : ℤ) (timeoutMs - 1) ≤ tracker.hedgeDelay policy timeoutMs ∧
          tracker.hedgeDelay policy timeoutMs < timeoutMs := by
  intro tracker last
  have hholds : tracker.Holds (recorded times) := holds_foldl times
  have hperm : tracker.samples.Perm (lastSamples (recorded times)) :=
    hholds.rotate_eq ▸ (List.rotate_perm ..).symm
  have hsamples : (tracker.samples : Multiset ℚ) = last := Multiset.coe_eq_coe.mpr hperm
  have hcard : last.card = tracker.samples.length := by
    rw [← hsamples, Multiset.coe_card]
  refine ⟨hsamples, hcard.trans hholds.length_eq, fun hfew => ?_, fun henough => ?_,
    fun policy timeoutMs => hedgeDelay_bounds tracker policy⟩
  · exact quantile_of_length_lt _ (hcard ▸ hfew)
  · rw [← hsamples]
    exact exists_quantile (by norm_num) (by norm_num) (hcard ▸ henough)

end LatencyTracker

end NoxSdk.Client
