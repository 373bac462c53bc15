import Mathlib.Algebra.BigOperators.Group.List.Basic
import Mathlib.Algebra.Order.BigOperators.Group.List
import Mathlib.Algebra.Order.Ring.Nat
import Mathlib.Data.Finset.Card
import Mathlib.Data.List.Nodup
import Mathlib.Tactic.Ring

/-!
# Insertion-ordered maps

`OrderedMap κ ν` is a finite map that remembers the order in which its keys were first
set: writing to a key that is present keeps its position, a new key goes to the end, and
iteration visits the entries in that order. The absence of repeated keys is a field, so
every value of the type is a map.

`OrderedMap.sum` adds a weight over the entries; its three laws (`sum_set_of_not_has`,
`sum_set_of_get?`, `sum_delete_of_get?`) are what an accounting invariant over such a map
needs.
-/

namespace NoxSdk

universe u v

/-- A finite map in insertion order: a list of entries without repeated keys. -/
structure OrderedMap (κ : Type u) (ν : Type v) where
  /-- The entries, oldest key first. -/
  entries : List (κ × ν)
  /-- No key is stored twice. -/
  nodup_keys : (entries.map Prod.fst).Nodup

namespace OrderedMap

variable {κ : Type u} {ν : Type v}

/-- The map without entries. -/
def empty : OrderedMap κ ν := ⟨[], List.nodup_nil⟩

/-- The number of entries. -/
def size (m : OrderedMap κ ν) : ℕ := m.entries.length

/-- The keys, oldest first. -/
def keys (m : OrderedMap κ ν) : List κ := m.entries.map Prod.fst

/-- The values, in key order. -/
def values (m : OrderedMap κ ν) : List ν := m.entries.map Prod.snd

@[simp] theorem entries_empty : (empty : OrderedMap κ ν).entries = [] := rfl

@[simp] theorem size_empty : (empty : OrderedMap κ ν).size = 0 := rfl

@[ext] theorem ext {m m' : OrderedMap κ ν} (h : m.entries = m'.entries) : m = m' := by
  cases m
  cases m'
  cases h
  rfl

theorem size_eq_zero_iff {m : OrderedMap κ ν} : m.size = 0 ↔ m = empty := by
  constructor
  · intro h
    exact ext (List.eq_nil_of_length_eq_zero h)
  · rintro rfl
    rfl

variable [DecidableEq κ]

/-- The value stored under `k`. -/
def get? (m : OrderedMap κ ν) (k : κ) : Option ν := m.entries.lookup k

/-- Whether `k` is stored. -/
def has (m : OrderedMap κ ν) (k : κ) : Bool := (m.get? k).isSome

private theorem lookup_eq_some_iff {k : κ} {v : ν} :
    ∀ {l : List (κ × ν)}, (l.map Prod.fst).Nodup → (l.lookup k = some v ↔ (k, v) ∈ l)
  | [], _ => by simp
  | (k', v') :: l, h => by
    rw [List.map_cons, List.nodup_cons] at h
    by_cases hk : k = k'
    · subst hk
      have hnot : (k, v) ∉ l := fun hmem => h.1 (List.mem_map.mpr ⟨(k, v), hmem, rfl⟩)
      simp [hnot, eq_comm]
    · have hb : (k == k') = false := beq_false_of_ne hk
      simp [List.lookup_cons, hb, lookup_eq_some_iff h.2, hk]

/-- The value of a key is the one of its entry, as no key has two. -/
theorem get?_eq_some_iff {m : OrderedMap κ ν} {k : κ} {v : ν} :
    m.get? k = some v ↔ (k, v) ∈ m.entries :=
  lookup_eq_some_iff m.nodup_keys

theorem get?_eq_none_iff {m : OrderedMap κ ν} {k : κ} :
    m.get? k = none ↔ ∀ v, (k, v) ∉ m.entries := by
  rw [Option.eq_none_iff_forall_ne_some]
  exact forall_congr' fun v => not_congr get?_eq_some_iff

theorem has_iff {m : OrderedMap κ ν} {k : κ} : m.has k = true ↔ k ∈ m.keys := by
  rw [has, Option.isSome_iff_exists, keys, List.mem_map]
  constructor
  · rintro ⟨v, hv⟩
    exact ⟨(k, v), get?_eq_some_iff.mp hv, rfl⟩
  · rintro ⟨⟨k', v⟩, hmem, rfl⟩
    exact ⟨v, get?_eq_some_iff.mpr hmem⟩

theorem not_has_iff {m : OrderedMap κ ν} {k : κ} : m.has k = false ↔ m.get? k = none := by
  rw [has, Option.isSome_eq_false_iff, Option.isNone_iff_eq_none]

/-- A map without another key than `k` has at most the entry of `k`. -/
theorem entries_of_alone {m : OrderedMap κ ν} {k : κ} (h : ∀ k', k' ≠ k → m.get? k' = none) :
    m.entries = ((m.get? k).map fun v => (k, v)).toList := by
  have hkey : ∀ e ∈ m.entries, e.1 = k := by
    intro e he
    by_contra hne
    exact get?_eq_none_iff.mp (h e.1 hne) e.2 he
  have hnodup := m.nodup_keys
  rcases hentries : m.entries with _ | ⟨⟨k₁, v₁⟩, _ | ⟨⟨k₂, v₂⟩, rest⟩⟩
  · have hnone : m.get? k = none := get?_eq_none_iff.mpr fun v hv => by simp [hentries] at hv
    rw [hnone]
    rfl
  · obtain rfl : k₁ = k := hkey (k₁, v₁) (by simp [hentries])
    have hsome : m.get? k₁ = some v₁ := get?_eq_some_iff.mpr (by simp [hentries])
    rw [hsome]
    rfl
  · have h₁ : k₁ = k := hkey (k₁, v₁) (by simp [hentries])
    have h₂ : k₂ = k := hkey (k₂, v₂) (by simp [hentries])
    rw [hentries] at hnodup
    simp [h₁, h₂] at hnodup

/-- The number of entries is the number of keys, counted as a set. -/
theorem size_eq_card {m : OrderedMap κ ν} {s : Finset κ} (h : ∀ k, (m.get? k).isSome ↔ k ∈ s) :
    m.size = s.card := by
  have hkeys : m.keys.toFinset = s := by
    ext k
    rw [List.mem_toFinset, ← has_iff, has]
    exact h k
  rw [← hkeys, keys, List.toFinset_card_of_nodup m.nodup_keys, List.length_map, size]

/-! ### Writing and deleting -/

/-- Store `v` under `k`: in place when `k` is present, at the end otherwise. -/
def set (m : OrderedMap κ ν) (k : κ) (v : ν) : OrderedMap κ ν :=
  if h : m.has k then
    ⟨m.entries.map fun e => if e.1 = k then (k, v) else e, by
      have hkeys : (m.entries.map fun e => if e.1 = k then (k, v) else e).map Prod.fst
          = m.entries.map Prod.fst := by
        rw [List.map_map]
        refine List.map_congr_left fun e _ => ?_
        by_cases he : e.1 = k <;> simp [he]
      rw [hkeys]
      exact m.nodup_keys⟩
  else
    ⟨m.entries ++ [(k, v)], by
      have hk : k ∉ m.entries.map Prod.fst := fun hmem => h (has_iff.mpr hmem)
      rw [List.map_append, List.nodup_append]
      refine ⟨m.nodup_keys, by simp, fun a ha b hb => ?_⟩
      simp only [List.map_cons, List.map_nil, List.mem_singleton] at hb
      subst hb
      exact fun hab => hk (hab ▸ ha)⟩

/-- Forget `k`. -/
def delete (m : OrderedMap κ ν) (k : κ) : OrderedMap κ ν :=
  ⟨m.entries.filter fun e => e.1 ≠ k,
    m.nodup_keys.sublist (List.filter_sublist.map Prod.fst)⟩

/-- A new key comes last. -/
theorem entries_set_of_not_has {m : OrderedMap κ ν} {k : κ} {v : ν} (h : m.get? k = none) :
    (m.set k v).entries = m.entries ++ [(k, v)] := by
  have hk : m.has k = false := not_has_iff.mpr h
  simp [set, hk]

/-- A key that is there keeps its place. -/
theorem entries_set_of_has {m : OrderedMap κ ν} {k : κ} {v w : ν} (h : m.get? k = some w) :
    (m.set k v).entries = m.entries.map fun e => if e.1 = k then (k, v) else e := by
  have hk : m.has k = true := by rw [has, h]; rfl
  simp [set, hk]

/-- An entry of the changed map is the new one, or an old one of another key. -/
theorem mem_entries_set {m : OrderedMap κ ν} {k k' : κ} {v v' : ν} :
    (k', v') ∈ (m.set k v).entries ↔
      (k' = k ∧ v' = v) ∨ (k' ≠ k ∧ (k', v') ∈ m.entries) := by
  rcases hget : m.get? k with _ | w
  · rw [entries_set_of_not_has hget, List.mem_append, List.mem_singleton, Prod.mk.injEq]
    have hne : (k', v') ∈ m.entries → k' ≠ k := by
      rintro hmem rfl
      exact get?_eq_none_iff.mp hget v' hmem
    tauto
  · rw [entries_set_of_has hget, List.mem_map]
    constructor
    · rintro ⟨⟨a, b⟩, hmem, heq⟩
      by_cases ha : a = k
      · subst ha
        rw [if_pos rfl, Prod.mk.injEq] at heq
        exact .inl ⟨heq.1.symm, heq.2.symm⟩
      · rw [if_neg ha, Prod.mk.injEq] at heq
        obtain ⟨rfl, rfl⟩ := heq
        exact .inr ⟨ha, hmem⟩
    · rintro (⟨rfl, rfl⟩ | ⟨hne, hmem⟩)
      · exact ⟨(k', w), get?_eq_some_iff.mp hget, by simp⟩
      · exact ⟨(k', v'), hmem, by simp [hne]⟩

/-- Deleting a key takes out its entry alone. -/
theorem mem_entries_delete {m : OrderedMap κ ν} {k k' : κ} {v' : ν} :
    (k', v') ∈ (m.delete k).entries ↔ k' ≠ k ∧ (k', v') ∈ m.entries := by
  simp [delete, and_comm]

@[simp]
theorem get?_empty (k : κ) : (empty : OrderedMap κ ν).get? k = none := rfl

@[simp]
theorem get?_set_self (m : OrderedMap κ ν) (k : κ) (v : ν) : (m.set k v).get? k = some v :=
  get?_eq_some_iff.mpr (mem_entries_set.mpr (.inl ⟨rfl, rfl⟩))

theorem get?_set_of_ne {k k' : κ} (m : OrderedMap κ ν) (v : ν) (h : k' ≠ k) :
    (m.set k v).get? k' = m.get? k' := by
  refine Option.ext fun w => ?_
  rw [get?_eq_some_iff, get?_eq_some_iff, mem_entries_set]
  simp [h]

/-- The changed map has the new value at its key and the old ones elsewhere. -/
theorem get?_set (m : OrderedMap κ ν) (k k' : κ) (v : ν) :
    (m.set k v).get? k' = if k' = k then some v else m.get? k' := by
  by_cases h : k' = k
  · subst h; simp
  · rw [if_neg h, get?_set_of_ne m v h]

@[simp]
theorem get?_delete_self (m : OrderedMap κ ν) (k : κ) : (m.delete k).get? k = none :=
  get?_eq_none_iff.mpr fun _ h => (mem_entries_delete.mp h).1 rfl

theorem get?_delete_of_ne {k k' : κ} (m : OrderedMap κ ν) (h : k' ≠ k) :
    (m.delete k).get? k' = m.get? k' := by
  refine Option.ext fun w => ?_
  rw [get?_eq_some_iff, get?_eq_some_iff, mem_entries_delete]
  simp [h]

/-- A new key is one more. -/
theorem size_set_of_not_has {m : OrderedMap κ ν} {k : κ} {v : ν} (h : m.get? k = none) :
    (m.set k v).size = m.size + 1 := by
  simp [size, entries_set_of_not_has h]

/-- A new value is not one more. -/
theorem size_set_of_get? {m : OrderedMap κ ν} {k : κ} {v w : ν} (h : m.get? k = some w) :
    (m.set k v).size = m.size := by
  simp [size, entries_set_of_has h]

theorem size_delete_le (m : OrderedMap κ ν) (k : κ) : (m.delete k).size ≤ m.size :=
  List.length_filter_le _ _

/-- Deleting a key that is there leaves fewer. -/
theorem size_delete_lt {m : OrderedMap κ ν} {k : κ} {v : ν} (h : (k, v) ∈ m.entries) :
    (m.delete k).size < m.size := by
  refine List.length_filter_lt_length_iff_exists.mpr ⟨(k, v), h, ?_⟩
  simp

/-- Writing twice to one key keeps the last value. -/
@[simp]
theorem set_set (m : OrderedMap κ ν) (k : κ) (v w : ν) : (m.set k v).set k w = m.set k w := by
  refine ext ?_
  rw [entries_set_of_has (get?_set_self m k v)]
  rcases hget : m.get? k with _ | u
  · rw [entries_set_of_not_has hget, entries_set_of_not_has hget, List.map_append]
    congr 1
    · refine (List.map_congr_left fun e he => ?_).trans (List.map_id _)
      have hne : e.1 ≠ k := by
        rintro rfl
        exact get?_eq_none_iff.mp hget e.2 he
      simp [hne]
    · simp
  · rw [entries_set_of_has hget, entries_set_of_has hget, List.map_map]
    refine List.map_congr_left fun e _ => ?_
    by_cases he : e.1 = k <;> simp [he]

/-! ### Weighted sums over the entries -/

section Sum

variable {M : Type*} [AddCommMonoid M]

/-- The sum of a weight over the entries. -/
def sum (m : OrderedMap κ ν) (f : κ → ν → M) : M := (m.entries.map fun e => f e.1 e.2).sum

omit [DecidableEq κ] in
@[simp] theorem sum_empty (f : κ → ν → M) : (empty : OrderedMap κ ν).sum f = 0 := rfl

omit [DecidableEq κ] in
/-- A sum of bounded weights. -/
theorem sum_le {m : OrderedMap κ ν} {f : κ → ν → ℕ} {bound : ℕ}
    (h : ∀ e ∈ m.entries, f e.1 e.2 ≤ bound) : m.sum f ≤ m.size * bound := by
  have hle := List.sum_le_card_nsmul (m.entries.map fun e => f e.1 e.2) bound fun x hx => by
    obtain ⟨e, he, rfl⟩ := List.mem_map.mp hx
    exact h e he
  rwa [List.length_map, nsmul_eq_mul, Nat.cast_id] at hle

/-- A new key adds its weight. -/
theorem sum_set_of_not_has {m : OrderedMap κ ν} {k : κ} {v : ν} (f : κ → ν → M)
    (h : m.get? k = none) : (m.set k v).sum f = m.sum f + f k v := by
  simp [sum, entries_set_of_not_has h]

private theorem sum_filter_ne_add (f : κ → ν → M) {k : κ} {v : ν} :
    ∀ {l : List (κ × ν)}, (l.map Prod.fst).Nodup → (k, v) ∈ l →
      ((l.filter fun e => e.1 ≠ k).map fun e => f e.1 e.2).sum + f k v
        = (l.map fun e => f e.1 e.2).sum
  | [], _, h => by simp at h
  | (k', v') :: l, hnd, h => by
    rw [List.map_cons, List.nodup_cons] at hnd
    rcases List.mem_cons.mp h with heq | hmem
    · obtain ⟨rfl, rfl⟩ := Prod.mk.inj heq
      have hall : l.filter (fun e => e.1 ≠ k) = l := by
        refine List.filter_eq_self.mpr fun e he => ?_
        have hne : e.1 ≠ k := by
          rintro rfl
          exact hnd.1 (List.mem_map.mpr ⟨e, he, rfl⟩)
        simpa using hne
      rw [List.filter_cons_of_neg (by simp), hall, List.map_cons, List.sum_cons, add_comm]
    · have hne : k' ≠ k := by
        rintro rfl
        exact hnd.1 (List.mem_map.mpr ⟨_, hmem, rfl⟩)
      rw [List.filter_cons_of_pos (by simpa using hne), List.map_cons, List.sum_cons,
        List.map_cons, List.sum_cons, add_assoc, sum_filter_ne_add f hnd.2 hmem]

/-- Deleting a stored key takes exactly its weight away. -/
theorem sum_delete_of_get? {m : OrderedMap κ ν} {k : κ} {v : ν} (f : κ → ν → M)
    (h : m.get? k = some v) : (m.delete k).sum f + f k v = m.sum f :=
  sum_filter_ne_add f m.nodup_keys (get?_eq_some_iff.mp h)

/-- A key that is set and deleted is deleted. -/
theorem delete_set (m : OrderedMap κ ν) (k : κ) (v : ν) :
    (m.set k v).delete k = m.delete k := by
  refine ext ?_
  rcases hget : m.get? k with _ | w
  · simp [delete, entries_set_of_not_has hget]
  · simp only [delete, entries_set_of_has hget, List.filter_map]
    refine (List.map_congr_left fun e he => ?_).trans
      ((List.map_id _).trans (List.filter_congr fun e _ => ?_))
    · have hne := (List.mem_filter.mp he).2
      by_cases hk : e.1 = k
      · simp [hk] at hne
      · simp [hk]
    · by_cases hk : e.1 = k <;> simp [hk]

/-- Overwriting a stored key exchanges its old weight for the new one. -/
theorem sum_set_of_get? {m : OrderedMap κ ν} {k : κ} {v w : ν} (f : κ → ν → M)
    (h : m.get? k = some w) : (m.set k v).sum f + f k w = m.sum f + f k v := by
  rw [← sum_delete_of_get? f (get?_set_self m k v), delete_set, ← sum_delete_of_get? f h,
    add_right_comm]

end Sum

/-! ### Groups -/

/-- The values in groups by a key, each in order; the groups in the order of their first values. -/
def groupBy (key : ν → κ) (values : List ν) : OrderedMap κ (List ν) :=
  values.foldl (fun groups v => groups.set (key v) ((groups.get? (key v)).getD [] ++ [v])) empty

/-- A value that comes last is added to the end of its group. -/
theorem groupBy_append_singleton (key : ν → κ) (values : List ν) (v : ν) :
    groupBy key (values ++ [v]) = (groupBy key values).set (key v)
      (((groupBy key values).get? (key v)).getD [] ++ [v]) := by
  rw [groupBy, List.foldl_append]
  rfl

/-- A group holds the values with its key. -/
theorem getD_get?_groupBy (key : ν → κ) (values : List ν) (k : κ) :
    ((groupBy key values).get? k).getD [] = values.filter fun v => key v = k := by
  induction values using List.reverseRecOn with
  | nil => rfl
  | append_singleton values v ih =>
    rw [groupBy_append_singleton, get?_set, List.filter_append]
    by_cases hk : k = key v
    · subst hk
      simp [ih]
    · have hne : key v ≠ k := Ne.symm hk
      simp [hk, hne, ih]

/-- A group has the values of its key, in their order. -/
theorem eq_filter_of_get?_groupBy {key : ν → κ} {values : List ν} {k : κ} {group : List ν}
    (h : (groupBy key values).get? k = some group) : group = values.filter fun v => key v = k := by
  rw [← getD_get?_groupBy, h, Option.getD_some]

end OrderedMap

end NoxSdk
