import Mathlib.Data.List.Infix
import Mathlib.Data.List.Basic

/-!
# Text between separators

`findSeparator` is the first place where a separator starts. What is found in the beginning of a
text is found in the whole (`findSeparator_append`), so a reader that gets its input in pieces finds
what it would find at once. `splitOnPair` cuts at every pair of letters; on parts without the first
letter of the pair it undoes `intercalate`.
-/

namespace NoxSdk.Lib

variable {α β : Type*} [DecidableEq α] [DecidableEq β]

/-! ### The first separator -/

/-- Where the separator starts for the first time. -/
def findSeparator (sep : List α) : List α → Option ℕ
  | [] => if sep = [] then some 0 else none
  | x :: xs => if sep <+: x :: xs then some 0 else (findSeparator sep xs).map (· + 1)

variable {sep xs : List α} {n : ℕ}

theorem findSeparator_of_prefix (h : sep <+: xs) : findSeparator sep xs = some 0 := by
  cases xs with
  | nil => exact if_pos (List.prefix_nil.mp h)
  | cons x xs => exact if_pos h

theorem findSeparator_cons {x : α} (h : ¬ sep <+: x :: xs) :
    findSeparator sep (x :: xs) = (findSeparator sep xs).map (· + 1) := if_neg h

/-- What is found is cut out. -/
theorem eq_of_findSeparator (h : findSeparator sep xs = some n) :
    n + sep.length ≤ xs.length ∧ xs = xs.take n ++ sep ++ xs.drop (n + sep.length) := by
  induction xs generalizing n with
  | nil =>
    rw [findSeparator] at h
    split_ifs at h with hsep
    obtain rfl := Option.some.inj h
    simp [hsep]
  | cons x xs ih =>
    rw [findSeparator] at h
    split_ifs at h with hstart
    · obtain rfl := Option.some.inj h
      obtain ⟨rest, hrest⟩ := hstart
      rw [← hrest]
      simp
    · obtain ⟨m, hm, rfl⟩ := Option.map_eq_some_iff.mp h
      obtain ⟨hle, hcut⟩ := ih hm
      rw [Nat.add_right_comm, List.take_succ_cons, List.drop_succ_cons, List.cons_append,
        List.cons_append, ← hcut, List.length_cons]
      exact ⟨Nat.succ_le_succ hle, rfl⟩

/-- What is found in the beginning is found in the whole. -/
theorem findSeparator_append (h : findSeparator sep xs = some n) (ys : List α) :
    findSeparator sep (xs ++ ys) = some n := by
  induction xs generalizing n with
  | nil =>
    rw [findSeparator] at h
    split_ifs at h with hsep
    obtain rfl := Option.some.inj h
    exact findSeparator_of_prefix (hsep ▸ List.nil_prefix)
  | cons x xs ih =>
    have hlength := (eq_of_findSeparator h).1
    rw [findSeparator] at h
    split_ifs at h with hstart
    · obtain rfl := Option.some.inj h
      exact findSeparator_of_prefix (hstart.trans (List.prefix_append _ _))
    · obtain ⟨m, hm, rfl⟩ := Option.map_eq_some_iff.mp h
      -- the whole is longer than the separator, so that nothing starts here either
      have hshort : sep.length ≤ (x :: xs).length := by omega
      have hother : ¬ sep <+: x :: (xs ++ ys) := fun hwhole =>
        hstart (List.prefix_of_prefix_length_le hwhole (List.prefix_append (x :: xs) ys) hshort)
      rw [List.cons_append, findSeparator_cons hother, ih hm]
      rfl

/-- A text that contains the separator has a first one. -/
theorem findSeparator_ne_none (front rest : List α) :
    findSeparator sep (front ++ sep ++ rest) ≠ none := by
  induction front with
  | nil =>
    rw [List.nil_append, findSeparator_of_prefix (List.prefix_append sep rest)]
    exact Option.some_ne_none 0
  | cons x front ih =>
    rw [List.cons_append, List.cons_append, findSeparator]
    split_ifs
    · exact Option.some_ne_none 0
    · exact fun hnone => ih (Option.map_eq_none_iff.mp hnone)

/-- A part without the first letter of the separator is passed over. -/
theorem findSeparator_append_of_not_mem {c : α} {front : List α} (h : c ∉ front)
    (xs : List α) : findSeparator (c :: sep) (front ++ xs) =
      (findSeparator (c :: sep) xs).map (· + front.length) := by
  induction front with
  | nil => simp
  | cons x front ih =>
    obtain ⟨hne, hfront⟩ := not_or.mp (List.mem_cons.not.mp h)
    have hother : ¬ c :: sep <+: x :: (front ++ xs) :=
      fun hstart => hne (List.cons_prefix_cons.mp hstart).1
    rw [List.cons_append, findSeparator_cons hother, ih hfront, Option.map_map]
    exact congrArg (Option.map · _) (funext fun m => by simp [Nat.add_assoc])

/-- An encoding of the letters does not move the separator. -/
theorem findSeparator_map {encode : α → β} (hencode : Function.Injective encode)
    (sep xs : List α) :
    findSeparator (sep.map encode) (xs.map encode) = findSeparator sep xs := by
  induction xs with
  | nil => simp [findSeparator]
  | cons x xs ih =>
    have hstart : sep.map encode <+: (x :: xs).map encode ↔ sep <+: x :: xs := by
      constructor
      · rintro ⟨rest, hrest⟩
        obtain ⟨front, back, heq, hfront, -⟩ := List.map_eq_append_iff.mp hrest.symm
        exact ⟨back, by rw [heq, List.map_injective_iff.mpr hencode hfront]⟩
      · exact fun h => h.map encode
    rw [List.map_cons] at hstart ⊢
    rw [findSeparator, findSeparator, ih]
    simp only [hstart]

/-! ### Parts -/

/-- The parts between the pairs. -/
def splitOnPair (a b : α) : List α → List (List α)
  | [] => [[]]
  | [x] => [[x]]
  | x :: y :: xs =>
    if x = a ∧ y = b then [] :: splitOnPair a b xs
    else (splitOnPair a b (y :: xs)).modifyHead (x :: ·)

variable {a b : α}

theorem splitOnPair_ne_nil (xs : List α) : splitOnPair a b xs ≠ [] := by
  induction xs using splitOnPair.induct a b with
  | case1 => simp [splitOnPair]
  | case2 x => simp [splitOnPair]
  | case3 x y xs h ih => simp [splitOnPair, h]
  | case4 x y xs h ih =>
    rw [splitOnPair, if_neg h]
    cases hparts : splitOnPair a b (y :: xs) with
    | nil => exact absurd hparts ih
    | cons part parts => simp

/-- Nothing is lost in the cut. -/
theorem intercalate_splitOnPair (xs : List α) :
    [a, b].intercalate (splitOnPair a b xs) = xs := by
  induction xs using splitOnPair.induct a b with
  | case1 => simp [splitOnPair, List.intercalate]
  | case2 x => simp [splitOnPair, List.intercalate]
  | case3 x y xs h ih =>
    rw [splitOnPair, if_pos h, List.intercalate_cons_of_ne_nil (splitOnPair_ne_nil xs), ih, h.1,
      h.2]
    rfl
  | case4 x y xs h ih =>
    rw [splitOnPair, if_neg h]
    cases hparts : splitOnPair a b (y :: xs) with
    | nil => exact absurd hparts (splitOnPair_ne_nil _)
    | cons part parts =>
      rw [hparts] at ih
      rw [List.modifyHead_cons, ← ih]
      cases parts with
      | nil => simp [List.intercalate]
      | cons next rest =>
        rw [List.intercalate_cons_of_ne_nil (List.cons_ne_nil _ _),
          List.intercalate_cons_of_ne_nil (List.cons_ne_nil _ _)]
        rfl

theorem splitOnPair_of_not_mem {part : List α} (h : a ∉ part) :
    splitOnPair a b part = [part] := by
  induction part using splitOnPair.induct a b with
  | case1 => rfl
  | case2 x => rfl
  | case3 x y xs hpair => exact absurd (hpair.1 ▸ List.mem_cons_self) h
  | case4 x y xs hpair ih =>
    rw [splitOnPair, if_neg hpair, ih fun hmem => h (List.mem_cons_of_mem _ hmem)]
    rfl

theorem splitOnPair_append {part : List α} (h : a ∉ part) (xs : List α) :
    splitOnPair a b (part ++ a :: b :: xs) = part :: splitOnPair a b xs := by
  induction part with
  | nil => rw [List.nil_append, splitOnPair, if_pos ⟨rfl, rfl⟩]
  | cons x part ih =>
    obtain ⟨hne, hpart⟩ := not_or.mp (List.mem_cons.not.mp h)
    obtain ⟨y, ys, hys⟩ := List.exists_cons_of_ne_nil
      (List.append_ne_nil_of_right_ne_nil part (List.cons_ne_nil a (b :: xs)))
    have hrest := ih hpart
    rw [hys] at hrest
    rw [List.cons_append, hys, splitOnPair, if_neg fun hpair => hne hpair.1.symm, hrest]
    rfl

/-- Parts without the first letter are found again. -/
theorem splitOnPair_intercalate {parts : List (List α)} (hne : parts ≠ [])
    (h : ∀ part ∈ parts, a ∉ part) : splitOnPair a b ([a, b].intercalate parts) = parts := by
  induction parts with
  | nil => exact absurd rfl hne
  | cons part parts ih =>
    have hpart := h part List.mem_cons_self
    cases parts with
    | nil => simpa [List.intercalate] using splitOnPair_of_not_mem hpart
    | cons next rest =>
      have hrest := ih (List.cons_ne_nil _ _) fun p hp => h p (List.mem_cons_of_mem _ hp)
      rw [List.intercalate_cons_of_ne_nil (List.cons_ne_nil _ _), List.append_assoc,
        List.cons_append, List.cons_append, List.nil_append, splitOnPair_append hpart, hrest]

/-- Where parts that are not empty end in two pairs, the separator of two pairs starts there for
the first time. -/
theorem findSeparator_intercalate (hab : a ≠ b) {parts : List (List α)} (hne : parts ≠ [])
    (h : ∀ part ∈ parts, part ≠ [] ∧ a ∉ part) (rest : List α) :
    findSeparator [a, b, a, b] ([a, b].intercalate parts ++ [a, b, a, b] ++ rest) =
      some ([a, b].intercalate parts).length := by
  induction parts with
  | nil => exact absurd rfl hne
  | cons part parts ih =>
    have hpart := (h part List.mem_cons_self).2
    cases parts with
    | nil =>
      have hend : findSeparator [a, b, a, b] ([a, b, a, b] ++ rest) = some 0 :=
        findSeparator_of_prefix (List.prefix_append _ _)
      rw [List.intercalate_singleton, List.append_assoc, findSeparator_append_of_not_mem hpart,
        hend]
      simp
    | cons next others =>
      have hrest := ih (List.cons_ne_nil _ _) fun p hp => h p (List.mem_cons_of_mem _ hp)
      obtain ⟨hnext, hmem⟩ := h next (List.mem_cons_of_mem _ List.mem_cons_self)
      -- the parts after the first pair start with a letter of the next one
      obtain ⟨c, tail, hc, hca⟩ : ∃ c tail,
          [a, b].intercalate (next :: others) = c :: tail ∧ c ≠ a := by
        obtain ⟨c, cs, rfl⟩ := List.exists_cons_of_ne_nil hnext
        refine ⟨c, _, List.intercalate_cons_cons_left, fun hca => ?_⟩
        exact hmem (hca ▸ List.mem_cons_self)
      have hfirst : ¬ [a, b, a, b] <+: a :: b :: (c :: tail ++ [a, b, a, b] ++ rest) := by
        simp [Ne.symm hca]
      have hsecond : ¬ [a, b, a, b] <+: b :: (c :: tail ++ [a, b, a, b] ++ rest) := by
        simp [hab]
      rw [hc] at hrest
      have hwhole : [a, b].intercalate (part :: next :: others) ++ [a, b, a, b] ++ rest =
          part ++ a :: b :: (c :: tail ++ [a, b, a, b] ++ rest) := by
        rw [List.intercalate_cons_of_ne_nil (List.cons_ne_nil _ _), hc]
        simp
      rw [hwhole, findSeparator_append_of_not_mem hpart, findSeparator_cons hfirst,
        findSeparator_cons hsecond, hrest,
        List.intercalate_cons_of_ne_nil (List.cons_ne_nil _ _), hc]
      simp
      omega

end NoxSdk.Lib
