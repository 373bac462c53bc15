import Mathlib.Algebra.Order.SuccPred
import Mathlib.Data.Int.SuccPred
import Mathlib.Data.Nat.SuccPred
import Mathlib.Data.List.Basic

/-!
# Spans that tile a range

A scan over a range of positions asks for one span after another. Spans **tile** the range when the
first begins where the range does, each begins right after the one before it, and the last ends
where the range does. Every position of the range then lies in one of them
(`Tiles.exists_mem_iff`), and what lies in the spans, one after the other, is what lies in the
range (`Tiles.perm`).
-/

namespace NoxSdk.Lib

/-- A span of positions, both ends included. -/
structure Span (α : Type*) where
  first : α
  last : α
deriving DecidableEq

section Tiles

variable {α : Type*} [LinearOrder α] [Add α] [One α]

/-- The position lies in the span. -/
def Span.Has (s : Span α) (n : α) : Prop := s.first ≤ n ∧ n ≤ s.last

instance (s : Span α) (n : α) : Decidable (s.Has n) := inferInstanceAs (Decidable (_ ∧ _))

/-- The spans tile the range from `first` to `last`. -/
def Tiles : α → α → List (Span α) → Prop
  | first, last, [] => first = last + 1
  | first, last, s :: rest => s.first = first ∧ first ≤ s.last ∧ Tiles (s.last + 1) last rest

variable {first mid last n : α} {spans later : List (Span α)}

theorem Tiles.cons (hle : first ≤ mid) (hlater : Tiles (mid + 1) last later) :
    Tiles first last (⟨first, mid⟩ :: later) :=
  ⟨rfl, hle, hlater⟩

theorem Tiles.append (h : Tiles first mid spans) (hlater : Tiles (mid + 1) last later) :
    Tiles first last (spans ++ later) := by
  induction spans generalizing first with
  | nil =>
    obtain rfl : first = mid + 1 := h
    exact hlater
  | cons s spans ih => exact ⟨h.1, h.2.1, ih h.2.2⟩

variable [SuccAddOrder α] [NoMaxOrder α]

theorem Tiles.le (h : Tiles first last spans) : first ≤ last + 1 := by
  induction spans generalizing first with
  | nil => exact le_of_eq h
  | cons s spans ih =>
    calc first ≤ s.last := h.2.1
      _ ≤ s.last + 1 := (Order.lt_add_one_iff.mpr le_rfl).le
      _ ≤ last + 1 := ih h.2.2

/-- The spans have between them the positions of the range. -/
theorem Tiles.exists_mem_iff (h : Tiles first last spans) :
    (∃ s ∈ spans, s.Has n) ↔ first ≤ n ∧ n ≤ last := by
  induction spans generalizing first with
  | nil =>
    obtain rfl : first = last + 1 := h
    simp only [List.not_mem_nil, false_and, exists_false, false_iff, not_and, not_le]
    exact fun hn => Order.add_one_le_iff.mp hn
  | cons s spans ih =>
    obtain ⟨rfl, hs, hrest⟩ := h
    have hend : s.last ≤ last := Order.lt_add_one_iff.mp (Order.add_one_le_iff.mp hrest.le)
    simp only [List.mem_cons, exists_eq_or_imp]
    rw [ih hrest, Span.Has, Order.add_one_le_iff]
    constructor
    · rintro (⟨hfirst, hlast⟩ | ⟨hfirst, hlast⟩)
      · exact ⟨hfirst, hlast.trans hend⟩
      · exact ⟨hs.trans hfirst.le, hlast⟩
    · rintro ⟨hfirst, hlast⟩
      rcases le_or_gt n s.last with hn | hn
      · exact .inl ⟨hfirst, hn⟩
      · exact .inr ⟨hn, hlast⟩

/-- No span begins before the range, and none ends before it begins. -/
theorem Tiles.bounds (h : Tiles first last spans) {s : Span α} (hs : s ∈ spans) :
    first ≤ s.first ∧ s.first ≤ s.last := by
  induction spans generalizing first with
  | nil => cases hs
  | cons t spans ih =>
    obtain ⟨rfl, ht, hrest⟩ := h
    rcases List.mem_cons.mp hs with rfl | hs
    · exact ⟨le_rfl, ht⟩
    · have hle : t.last < s.first := Order.add_one_le_iff.mp (ih hrest hs).1
      exact ⟨ht.trans hle.le, (ih hrest hs).2⟩

/-- What lies in the spans, span by span, is what lies in the range. -/
theorem Tiles.perm (h : Tiles first last spans) {β : Type*} (items : List β) (place : β → α) :
    (spans.flatMap fun s => items.filter fun item => s.Has (place item)).Perm
      (items.filter fun item => first ≤ place item ∧ place item ≤ last) := by
  induction spans generalizing first with
  | nil =>
    obtain rfl : first = last + 1 := h
    rw [List.flatMap_nil, List.filter_eq_nil_iff.mpr]
    simp only [decide_eq_true_eq, not_and, not_le]
    exact fun item _ hitem => Order.add_one_le_iff.mp hitem
  | cons s spans ih =>
    obtain ⟨rfl, hs, hrest⟩ := h
    have hend : s.last ≤ last := Order.lt_add_one_iff.mp (Order.add_one_le_iff.mp hrest.le)
    refine ((ih hrest).append_left _).trans ?_
    have hsplit := List.filter_append_perm (fun item => decide (place item ≤ s.last))
      (items.filter fun item => s.first ≤ place item ∧ place item ≤ last)
    rw [List.filter_filter, List.filter_filter] at hsplit
    convert hsplit using 2
    · refine List.filter_congr fun item _ => ?_
      rw [← Bool.decide_and, decide_eq_decide]
      exact ⟨fun h => ⟨h.2, h.1, h.2.trans hend⟩, fun h => ⟨h.2.1, h.1⟩⟩
    · refine List.filter_congr fun item _ => ?_
      rw [← decide_not, ← Bool.decide_and, decide_eq_decide, Order.add_one_le_iff, not_le]
      exact ⟨fun h => ⟨h.1, hs.trans h.1.le, h.2⟩, fun h => ⟨h.1, h.2.2⟩⟩

end Tiles

end NoxSdk.Lib
