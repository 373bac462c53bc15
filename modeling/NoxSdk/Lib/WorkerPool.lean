import Mathlib.Algebra.BigOperators.Group.List.Basic
import Mathlib.Algebra.Order.Ring.Nat
import Mathlib.Logic.Function.Iterate
import Mathlib.Tactic.SplitIfs

/-!
# Worker pools

A pool of workers maps over a list of items: each worker takes the next item, runs its task and,
when the task has ended well, takes the next one. A task that fails ends its worker and rejects the
whole, but the other workers go on, and what the task has left behind may go on as well. A task
has a state of its own and a **load**, which a pool adds up (`Pool.load`).

The results of a pool are those of its items in their order (`Pool.results_eq_some_iff`), and it
has them, or is rejected, as soon as no task is running (`Pool.Sound.results`).
-/

namespace NoxSdk.Lib

/-- An item of a pool. -/
inductive PoolItem (σ R : Type*)
  | waiting
  | running (task : σ)
  | done (result : R)
  | failed (left : σ)

/-- The load of an item: that of its task. -/
def PoolItem.load {σ R : Type*} (weight : σ → ℕ) : PoolItem σ R → ℕ
  | .running task => weight task
  | .failed left => weight left
  | _ => 0

/-- The items of a pool, the next one to take, and whether a task has failed. -/
structure Pool (σ R : Type*) where
  items : List (PoolItem σ R)
  next : ℕ
  rejected : Bool

namespace Pool

variable {σ R : Type*}

/-- An item is replaced. -/
def put (pool : Pool σ R) (i : ℕ) (item : PoolItem σ R) : Pool σ R :=
  { pool with items := pool.items.set i item }

/-- A worker takes the next item, if there is one. -/
def take (start : ℕ → σ) (pool : Pool σ R) : Pool σ R :=
  if pool.next < pool.items.length then
    { pool.put pool.next (.running (start pool.next)) with next := pool.next + 1 }
  else pool

/-- The pool when its workers have taken their first items. -/
def begin (start : ℕ → σ) (count limit : ℕ) : Pool σ R :=
  (take start)^[min (max 1 limit) count] ⟨List.replicate count .waiting, 0, false⟩

/-- A task ends well, and its worker goes on. -/
def finish (start : ℕ → σ) (pool : Pool σ R) (i : ℕ) (result : R) : Pool σ R :=
  (pool.put i (.done result)).take start

/-- A task fails, and its worker ends. -/
def fail (pool : Pool σ R) (i : ℕ) (left : σ) : Pool σ R :=
  { pool.put i (.failed left) with rejected := true }

/-- The results of items that are all done. -/
def collect : List (PoolItem σ R) → Option (List R)
  | [] => some []
  | .done result :: rest => (collect rest).map (result :: ·)
  | _ :: _ => none

/-- What the pool resolves with, once it does. -/
def results (pool : Pool σ R) : Option (List R) :=
  if pool.rejected then none else collect pool.items

variable {start : ℕ → σ} {pool : Pool σ R} {i count limit : ℕ} {item item' : PoolItem σ R}
  {rs : List R}

/-- Results are collected when every item is done. -/
theorem collect_eq_some_iff {items : List (PoolItem σ R)} :
    collect items = some rs ↔ items = rs.map .done := by
  induction items generalizing rs with
  | nil => cases rs <;> simp [collect]
  | cons item items ih =>
    cases item with
    | done result =>
      cases rs with
      | nil => simp [collect]
      | cons first rest =>
        rw [collect, Option.map_eq_some_iff, List.map_cons, List.cons.injEq, PoolItem.done.injEq]
        constructor
        · rintro ⟨later, hlater, heq⟩
          obtain ⟨rfl, rfl⟩ := List.cons.inj heq
          exact ⟨rfl, ih.mp hlater⟩
        · rintro ⟨rfl, hrest⟩
          exact ⟨rest, ih.mpr hrest, rfl⟩
    | _ => cases rs <;> simp [collect]

/-- A pool has results when it did not reject and every item is done. -/
theorem results_eq_some_iff :
    pool.results = some rs ↔ pool.rejected = false ∧ pool.items = rs.map .done := by
  rw [Pool.results]
  cases pool.rejected with
  | true => simp
  | false => simp [collect_eq_some_iff]

@[simp] theorem length_put : (pool.put i item).items.length = pool.items.length :=
  List.length_set

theorem length_take : (pool.take start).items.length = pool.items.length := by
  rw [take]
  split_ifs
  · exact length_put
  · rfl

theorem length_finish {result : R} :
    (pool.finish start i result).items.length = pool.items.length :=
  length_take.trans length_put

theorem rejected_finish {result : R} : (pool.finish start i result).rejected = pool.rejected := by
  rw [finish, take]
  split_ifs <;> rfl

theorem rejected_begin : (begin start count limit : Pool σ R).rejected = false := by
  rw [begin]
  induction min (max 1 limit) count with
  | zero => rfl
  | succ n ih =>
    rw [Function.iterate_succ_apply', take]
    split_ifs <;> exact ih

theorem length_begin : (begin start count limit : Pool σ R).items.length = count := by
  rw [begin]
  induction min (max 1 limit) count with
  | zero => exact List.length_replicate
  | succ n ih => rw [Function.iterate_succ_apply', length_take, ih]

/-! ### Items -/

/-- Every item has a property, which may depend on its place. -/
def Each (P : ℕ → PoolItem σ R → Prop) (pool : Pool σ R) : Prop :=
  ∀ i item, pool.items[i]? = some item → P i item

variable {P Q : ℕ → PoolItem σ R → Prop}

theorem Each.imp (h : pool.Each P) (himp : ∀ i item, P i item → Q i item) : pool.Each Q :=
  fun i item hitem => himp i item (h i item hitem)

/-- What holds of every item holds after one of them changes to such an item. -/
theorem Each.put (h : pool.Each P) (hitem : P i item) : (pool.put i item).Each P := by
  intro j other hother
  rw [Pool.put, List.getElem?_set] at hother
  split_ifs at hother with hij hlt
  · obtain rfl := Option.some.inj hother
    exact hij ▸ hitem
  · exact h j other hother

/-- A worker that takes the next item starts it. -/
theorem Each.take (h : pool.Each P) (hstart : ∀ i, P i (.running (start i))) :
    (pool.take start).Each P := by
  rw [Pool.take]
  split_ifs
  · exact h.put (hstart _)
  · exact h

theorem Each.finish {result : R} (h : pool.Each P) (hstart : ∀ i, P i (.running (start i)))
    (hresult : P i (.done result)) : (pool.finish start i result).Each P :=
  (h.put hresult).take hstart

/-- A pool begins with waiting items, the first of them started. -/
theorem each_begin (hwaiting : ∀ i, P i .waiting) (hstart : ∀ i, P i (.running (start i))) :
    (begin start count limit : Pool σ R).Each P := by
  rw [begin]
  induction min (max 1 limit) count with
  | zero =>
    intro i item hitem
    rw [Function.iterate_zero_apply] at hitem
    obtain rfl := List.eq_of_mem_replicate (List.mem_of_getElem? hitem)
    exact hwaiting i
  | succ n ih =>
    rw [Function.iterate_succ_apply']
    exact ih.take hstart

/-! ### Load -/

/-- The load of the tasks. -/
def load (weight : σ → ℕ) (pool : Pool σ R) : ℕ := (pool.items.map (PoolItem.load weight)).sum

variable {weight : σ → ℕ}

/-- A changed element changes a sum by its own share. -/
theorem sum_map_set {α : Type*} {f : α → ℕ} {l : List α} {i : ℕ} {a b : α} (h : l[i]? = some a) :
    ((l.set i b).map f).sum + f a = (l.map f).sum + f b := by
  induction l generalizing i with
  | nil => cases h
  | cons head rest ih =>
    cases i with
    | zero =>
      obtain rfl : head = a := Option.some.inj h
      simp only [List.set_cons_zero, List.map_cons, List.sum_cons]
      omega
    | succ i =>
      have hrest := ih (i := i) h
      simp only [List.set_cons_succ, List.map_cons, List.sum_cons]
      omega

/-- A changed item changes the load by its own share. -/
theorem load_put (h : pool.items[i]? = some item) :
    (pool.put i item').load weight + item.load weight = pool.load weight + item'.load weight :=
  sum_map_set h

/-- The load of one item is part of the load. -/
theorem load_le_of_getElem? (weight : σ → ℕ) (h : pool.items[i]? = some item) :
    item.load weight ≤ pool.load weight := by
  have hput : (pool.put i .waiting).load weight + item.load weight = pool.load weight + 0 :=
    load_put h
  omega

/-- A worker that takes an item adds one to the load at most. -/
theorem load_take_le (hstart : ∀ i, weight (start i) = 1) :
    (pool.take start).load weight ≤ pool.load weight + 1 := by
  rw [take]
  split_ifs with hnext
  · have hload : (pool.put pool.next (.running (start pool.next))).load weight +
        pool.items[pool.next].load weight = pool.load weight + weight (start pool.next) :=
      load_put (List.getElem?_eq_getElem hnext)
    have hone := hstart pool.next
    change (pool.put _ _).load weight ≤ _
    omega
  · omega

/-- A worker that goes on adds no load. -/
theorem load_finish_le {result : R} (hstart : ∀ i, weight (start i) = 1)
    (h : pool.items[i]? = some item) (hitem : 1 ≤ item.load weight) :
    (pool.finish start i result).load weight ≤ pool.load weight := by
  have hput : (pool.put i (.done result)).load weight + item.load weight =
      pool.load weight + 0 := load_put h
  have htake : ((pool.put i (.done result)).take start).load weight ≤
      (pool.put i (.done result)).load weight + 1 := load_take_le hstart
  rw [finish]
  omega

/-- The pool after so many items have been taken. -/
theorem iterate_take {n : ℕ} (h : n ≤ count) :
    (take start)^[n] (⟨List.replicate count .waiting, 0, false⟩ : Pool σ R) =
      ⟨(List.range n).map (fun i => .running (start i)) ++ List.replicate (count - n) .waiting, n,
        false⟩ := by
  induction n with
  | zero => rfl
  | succ n ih =>
    rw [Function.iterate_succ_apply', ih (Nat.le_of_succ_le h), take, if_pos (by simp; omega), put]
    have hrest : count - n = count - (n + 1) + 1 := by omega
    simp only [hrest, List.replicate_succ, List.range_succ, List.map_append, List.map_singleton,
      List.append_assoc, List.singleton_append, mk.injEq, and_true]
    rw [List.set_append_right _ _ (by simp)]
    simp

/-- A pool begins with one running item for each worker, as far as there are items. -/
theorem load_begin (hstart : ∀ i, weight (start i) = 1) :
    (begin start count limit : Pool σ R).load weight = min (max 1 limit) count := by
  rw [begin, iterate_take (Nat.min_le_right _ _), load, List.map_append, List.sum_append,
    List.map_map, List.map_replicate]
  have hone : PoolItem.load weight ∘ (fun i => PoolItem.running (R := R) (start i)) = fun _ => 1 :=
    funext hstart
  have hzero : PoolItem.load weight (PoolItem.waiting : PoolItem σ R) = 0 := rfl
  rw [hone, hzero]
  simp

/-! ### The end of a pool -/

/-- The items before the next one have been taken, and none has failed in a pool that is not
rejected. -/
structure Shape (pool : Pool σ R) : Prop where
  bound : pool.next ≤ pool.items.length
  taken : pool.Each fun i item => item = .waiting → pool.next ≤ i
  clean : pool.rejected = false → pool.Each fun _ item => ∀ left, item ≠ .failed left

/-- A pool that is not rejected has a task running until every item has been taken. -/
structure Sound (pool : Pool σ R) : Prop extends Shape pool where
  busy : pool.rejected = false → (∃ (i : ℕ) (task : σ), pool.items[i]? = some (.running task)) ∨
    pool.next = pool.items.length

theorem Shape.put (h : pool.Shape) (hwaiting : item ≠ .waiting)
    (hfailed : ∀ left, item ≠ .failed left) : (pool.put i item).Shape where
  bound := h.bound.trans_eq length_put.symm
  taken := h.taken.put fun heq => absurd heq hwaiting
  clean hrejected := (h.clean hrejected).put hfailed

/-- A worker that takes the next item leaves no gap among those started. -/
theorem Shape.take (h : pool.Shape) : (pool.take start).Sound := by
  rw [Pool.take]
  split_ifs with hnext
  · refine ⟨⟨Nat.succ_le_of_lt (hnext.trans_eq length_put.symm), fun j item hitem hwaiting => ?_,
      fun hrejected => (h.clean hrejected).put fun left heq => by cases heq⟩, fun _ => .inl ?_⟩
    · subst hwaiting
      change (pool.items.set _ _)[j]? = _ at hitem
      rw [List.getElem?_set] at hitem
      split_ifs at hitem with hj
      · cases hitem
      exact Nat.lt_of_le_of_ne (h.taken j _ hitem rfl) hj
    · exact ⟨pool.next, start pool.next, List.getElem?_set_self hnext⟩
  · exact ⟨h, fun _ => .inr (Nat.le_antisymm h.bound (Nat.not_lt.mp hnext))⟩

theorem Shape.finish {result : R} (h : pool.Shape) : (pool.finish start i result).Sound := by
  have hput : (pool.put i (.done result)).Shape :=
    h.put (fun heq => by cases heq) fun _ heq => by cases heq
  exact hput.take

theorem Shape.fail {left : σ} (h : pool.Shape) : (pool.fail i left).Sound where
  bound := h.bound.trans_eq length_put.symm
  taken := h.taken.put fun heq => by cases heq
  clean hrejected := by cases hrejected
  busy hrejected := by cases hrejected

/-- A running task changes. -/
theorem Sound.update {task task' : σ} (h : pool.Sound)
    (hi : pool.items[i]? = some (.running task)) :
    (pool.put i (.running task')).Sound where
  toShape := h.put (fun heq => by cases heq) fun _ heq => by cases heq
  busy _ := .inl ⟨i, task', List.getElem?_set_self (List.getElem?_eq_some_iff.mp hi).1⟩

/-- What a failed task has left behind changes. -/
theorem Sound.leave {left left' : σ} (h : pool.Sound) (hi : pool.items[i]? = some (.failed left)) :
    (pool.put i (.failed left')).Sound := by
  have hrejected : pool.rejected = true := by
    by_contra hne
    exact h.clean (eq_false_of_ne_true hne) i _ hi left rfl
  have hput : (pool.put i (.failed left')).rejected ≠ false := fun hput =>
    absurd (hrejected.symm.trans hput) (by decide)
  exact
    { bound := h.bound.trans_eq length_put.symm
      taken := h.taken.put fun heq => by cases heq
      clean := fun hclean => absurd hclean hput
      busy := fun hbusy => absurd hbusy hput }

/-- A pool begins with no item done or failed. -/
theorem sound_begin : (begin start count limit : Pool σ R).Sound := by
  have hshape : ∀ n,
      ((take start)^[n] (⟨List.replicate count .waiting, 0, false⟩ : Pool σ R)).Shape := by
    intro n
    induction n with
    | zero =>
      refine ⟨Nat.zero_le _, fun i _ _ _ => Nat.zero_le i, fun _ i item hitem left heq => ?_⟩
      obtain rfl := List.eq_of_mem_replicate (List.mem_of_getElem? hitem)
      cases heq
    | succ n ih =>
      rw [Function.iterate_succ_apply']
      exact ih.take.toShape
  rw [begin]
  cases hworkers : min (max 1 limit) count with
  | zero =>
    obtain rfl : count = 0 := by omega
    exact ⟨hshape 0, fun _ => .inr rfl⟩
  | succ n =>
    rw [Function.iterate_succ_apply']
    exact (hshape n).take

/-- A pool in which no task is running is rejected or has its results. -/
theorem Sound.results (h : pool.Sound)
    (hidle : ∀ (i : ℕ) (task : σ), pool.items[i]? ≠ some (.running task)) :
    pool.rejected = true ∨ ∃ rs, pool.results = some rs := by
  cases hrejected : pool.rejected with
  | true => exact .inl rfl
  | false =>
    right
    have hend : pool.next = pool.items.length := by
      rcases h.busy hrejected with ⟨i, task, hi⟩ | hend
      · exact absurd hi (hidle i task)
      · exact hend
    have hdone : ∀ item ∈ pool.items, ∃ result, item = PoolItem.done result := by
      intro item hmem
      obtain ⟨i, hi⟩ := List.getElem?_of_mem hmem
      cases item with
      | waiting =>
        have hlt := (List.getElem?_eq_some_iff.mp hi).1
        exact absurd (h.taken i _ hi rfl) (by omega)
      | running task => exact absurd hi (hidle i task)
      | done result => exact ⟨result, rfl⟩
      | failed left => exact absurd rfl (h.clean hrejected i _ hi left)
    obtain ⟨rs, hrs⟩ : ∃ rs : List R, pool.items = rs.map .done := by
      clear hend hidle h
      generalize pool.items = items at hdone ⊢
      induction items with
      | nil => exact ⟨[], rfl⟩
      | cons item items ih =>
        obtain ⟨⟨result, rfl⟩, hitems⟩ := List.forall_mem_cons.mp hdone
        obtain ⟨rs, rfl⟩ := ih hitems
        exact ⟨result :: rs, rfl⟩
    exact ⟨rs, results_eq_some_iff.mpr ⟨hrejected, hrs⟩⟩

end Pool

end NoxSdk.Lib
