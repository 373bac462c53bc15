import Mathlib.Algebra.Order.Ring.Nat
import Mathlib.Data.List.Basic

/-!
# Chunks of a list

`chunks size l` cuts a list into pieces of `size` elements, the last one possibly shorter. The
pieces concatenated are the list (`flatten_chunks`).
-/

namespace NoxSdk

variable {α : Type*}

/-- The piece of a list at an index. -/
def chunkAt (size : ℕ) (l : List α) (index : ℕ) : List α := (l.drop (index * size)).take size

/-- The number of pieces. -/
def chunkCount (size length : ℕ) : ℕ := (length + size - 1) / size

/-- The pieces of a list. -/
def chunks (size : ℕ) (l : List α) : List (List α) :=
  (List.range (chunkCount size l.length)).map (chunkAt size l)

/-- The first pieces concatenated are a front of the list. -/
theorem flatten_map_chunkAt (size : ℕ) (l : List α) (n : ℕ) :
    ((List.range n).map (chunkAt size l)).flatten = l.take (n * size) := by
  induction n with
  | zero => simp
  | succ n ih =>
    rw [List.range_succ, List.map_append, List.flatten_append, ih, List.map_singleton,
      List.flatten_singleton, chunkAt, Nat.succ_mul, List.take_add]

theorem le_chunkCount_mul {size : ℕ} (hsize : 0 < size) (length : ℕ) :
    length ≤ chunkCount size length * size := by
  have hdiv := Nat.div_add_mod (length + size - 1) size
  have hmod := Nat.mod_lt (length + size - 1) hsize
  rw [chunkCount, Nat.mul_comm]
  omega

/-- The pieces concatenated are the list. -/
theorem flatten_chunks {size : ℕ} (hsize : 0 < size) (l : List α) :
    (chunks size l).flatten = l := by
  rw [chunks, flatten_map_chunkAt, List.take_of_length_le (le_chunkCount_mul hsize l.length)]

theorem getElem?_chunks_eq_some_iff {size index : ℕ} {l piece : List α} :
    (chunks size l)[index]? = some piece ↔
      index < chunkCount size l.length ∧ chunkAt size l index = piece := by
  rw [chunks, List.getElem?_map, Option.map_eq_some_iff]
  constructor
  · rintro ⟨place, hplace, rfl⟩
    obtain ⟨hlt, rfl⟩ := List.getElem?_eq_some_iff.mp hplace
    rw [List.length_range] at hlt
    exact ⟨hlt, congrArg _ (List.getElem_range ..).symm⟩
  · rintro ⟨hlt, rfl⟩
    exact ⟨index, List.getElem?_range hlt, rfl⟩

/-- The elements of lists that all have one length, but for a shorter last one, by their places. -/
theorem getElem?_flatten_of_full {size : ℕ} (hsize : 0 < size) {parts : List (List α)}
    (hfull : ∀ index part, index + 1 < parts.length → parts[index]? = some part →
      part.length = size)
    (hle : ∀ part ∈ parts, part.length ≤ size) (i : ℕ) :
    parts.flatten[i]? = (parts[i / size]?).bind fun part => part[i % size]? := by
  induction parts generalizing i with
  | nil => rfl
  | cons part rest ih =>
    have hpart := hle part List.mem_cons_self
    rw [List.flatten_cons, List.getElem?_append]
    split_ifs with hi
    · rw [Nat.div_eq_of_lt (hi.trans_le hpart), Nat.mod_eq_of_lt (hi.trans_le hpart)]
      rfl
    · cases rest with
      | nil =>
        rcases Nat.lt_or_ge i size with hlt | hge
        · rw [Nat.div_eq_of_lt hlt, Nat.mod_eq_of_lt hlt]
          exact (List.getElem?_eq_none (not_lt.mp hi)).symm
        · rw [Nat.div_eq_sub_div hsize hge]
          rfl
      | cons next rest =>
        have hlength : part.length = size := hfull 0 part (by simp) rfl
        have hge : size ≤ i := hlength ▸ not_lt.mp hi
        rw [hlength, ih (fun index later hindex hlater => hfull (index + 1) later
          (Nat.succ_lt_succ hindex) hlater) (fun later hlater => hle later
          (List.mem_cons_of_mem _ hlater)), Nat.div_eq_sub_div hsize hge,
          Nat.mod_eq_sub_mod hge]
        rfl

theorem length_chunkAt_le (size : ℕ) (l : List α) (index : ℕ) :
    (chunkAt size l index).length ≤ size := by
  rw [chunkAt, List.length_take]
  exact Nat.min_le_left _ _

/-- All pieces but the last have the full length. -/
theorem length_chunkAt_of_lt {size index : ℕ} {l : List α}
    (h : index + 1 < chunkCount size l.length) : (chunkAt size l index).length = size := by
  have hsize : 0 < size := by
    rcases Nat.eq_zero_or_pos size with rfl | hpos
    · simp [chunkCount] at h
    · exact hpos
  have hmul : (index + 1 + 1) * size ≤ l.length + size - 1 :=
    (Nat.mul_le_mul_right size h).trans (Nat.div_mul_le_self _ _)
  rw [Nat.succ_mul, Nat.succ_mul] at hmul
  rw [chunkAt, List.length_take, List.length_drop]
  omega

/-- An element of a list is in one of its pieces. -/
theorem getElem?_chunks_bind {size : ℕ} (hsize : 0 < size) (l : List α) (i : ℕ) :
    ((chunks size l)[i / size]?).bind (fun piece => piece[i % size]?) = l[i]? := by
  rw [← getElem?_flatten_of_full hsize, flatten_chunks hsize]
  · intro index piece hindex hpiece
    obtain ⟨-, rfl⟩ := getElem?_chunks_eq_some_iff.mp hpiece
    rw [chunks, List.length_map, List.length_range] at hindex
    exact length_chunkAt_of_lt hindex
  · intro piece hpiece
    obtain ⟨index, -, rfl⟩ := List.mem_map.mp hpiece
    exact length_chunkAt_le size l index

end NoxSdk
