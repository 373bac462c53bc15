import Mathlib.Algebra.BigOperators.Group.List.Basic
import Mathlib.Algebra.Order.BigOperators.Group.List
import Mathlib.Algebra.Order.Ring.Nat

/-!
# Sliding windows

A log of amounts is limited over a window when the amounts of no stretch of time of that length add
up to more than the limit. A log stays limited when an amount is added that fits beside the recent
ones. To know these, a queue of them is enough: what is dropped from its front has left the window
for good, as long as the clock does not go back. The order of the log is of no account.

* `Limited`: the bound over every stretch of time.
* `Recent`: a queue that holds all that is in the window.
-/

namespace NoxSdk.Lib.SlidingWindow

/-- An amount and its time. -/
abbrev Entry := ℕ × ℕ

/-- What entries add up to. -/
def total (log : List Entry) : ℕ := (log.map Prod.snd).sum

/-- The entries of the stretch of time that starts at `start`. -/
def within (window start : ℕ) (log : List Entry) : List Entry :=
  log.filter fun entry => decide (start ≤ entry.1) && decide (entry.1 < start + window)

/-- No stretch of time of the length of the window has more than the limit. -/
def Limited (window limit : ℕ) (log : List Entry) : Prop :=
  ∀ start, total (within window start log) ≤ limit

/-- The entry has left the window. -/
def isExpired (window now : ℕ) (entry : Entry) : Bool := decide (entry.1 + window ≤ now)

/-- The queue once what has left the window is dropped from its front. -/
def expire (window now : ℕ) (queue : List Entry) : List Entry :=
  queue.dropWhile (isExpired window now)

/-- The queue holds what is in the window, and what it lacks has left it. -/
def Recent (window now : ℕ) (log queue : List Entry) : Prop :=
  ∃ old, log.Perm (old ++ queue) ∧ ∀ entry ∈ old, isExpired window now entry = true

variable {window limit now now' : ℕ} {log log' queue : List Entry} {amount : ℕ}

@[simp] theorem total_nil : total [] = 0 := rfl

@[simp] theorem total_append (log log' : List Entry) :
    total (log ++ log') = total log + total log' := by
  simp [total]

@[simp] theorem total_singleton (entry : Entry) : total [entry] = entry.2 := by simp [total]

theorem total_le_of_sublist (h : log.Sublist log') : total log ≤ total log' :=
  (h.map Prod.snd).sum_le_sum fun _ _ => Nat.zero_le _

theorem total_eq_of_perm (h : log.Perm log') : total log = total log' :=
  (h.map Prod.snd).sum_eq

theorem limited_nil : Limited window limit [] := fun _ => Nat.zero_le _

theorem Limited.perm (h : Limited window limit log) (hperm : log.Perm log') :
    Limited window limit log' := fun start =>
  (total_eq_of_perm (hperm.filter _)).symm.trans_le (h start)

theorem Recent.nil : Recent window now [] [] := ⟨[], .rfl, by simp⟩

theorem Recent.perm (h : Recent window now log queue) (hperm : log.Perm log') :
    Recent window now log' queue := by
  obtain ⟨old, hlog, hold⟩ := h
  exact ⟨old, hperm.symm.trans hlog, hold⟩

/-- Time goes on. -/
theorem Recent.mono (h : Recent window now log queue) (hnow : now ≤ now') :
    Recent window now' log queue := by
  obtain ⟨old, hlog, hold⟩ := h
  refine ⟨old, hlog, fun entry hentry => ?_⟩
  have hexpired := hold entry hentry
  simp only [isExpired, decide_eq_true_eq] at hexpired ⊢
  exact hexpired.trans hnow

theorem Recent.expire (h : Recent window now log queue) :
    Recent window now log (expire window now queue) := by
  obtain ⟨old, hlog, hold⟩ := h
  refine ⟨old ++ queue.takeWhile (isExpired window now), ?_, fun entry hentry => ?_⟩
  · rwa [SlidingWindow.expire, List.append_assoc, List.takeWhile_append_dropWhile]
  · rcases List.mem_append.mp hentry with hentry | hentry
    · exact hold entry hentry
    · exact List.all_eq_true.mp List.all_takeWhile entry hentry

theorem Recent.push (h : Recent window now log queue) :
    Recent window now (log ++ [(now, amount)]) (queue ++ [(now, amount)]) := by
  obtain ⟨old, hlog, hold⟩ := h
  exact ⟨old, (hlog.append_right _).trans (List.append_assoc _ _ _ ▸ .rfl), hold⟩

/-- The entries of a stretch of time that is not over are in the queue. -/
theorem Recent.total_within_le (h : Recent window now log queue) {start : ℕ}
    (hstart : now < start + window) : total (within window start log) ≤ total queue := by
  obtain ⟨old, hlog, hold⟩ := h
  have hnone : within window start old = [] := by
    refine List.filter_eq_nil_iff.mpr fun entry hentry => ?_
    have hexpired := hold entry hentry
    simp only [isExpired, decide_eq_true_eq] at hexpired
    simp only [Bool.and_eq_true, decide_eq_true_eq, not_and]
    omega
  rw [within, total_eq_of_perm (hlog.filter _), List.filter_append, ← within, hnone,
    List.nil_append]
  exact total_le_of_sublist List.filter_sublist

/-- An amount that fits beside the queue keeps the log limited. -/
theorem Limited.push (h : Limited window limit log) (hrecent : Recent window now log queue)
    (hfits : total queue + amount ≤ limit) : Limited window limit (log ++ [(now, amount)]) := by
  intro start
  rw [within, List.filter_append, ← within, total_append]
  by_cases hin : start ≤ now ∧ now < start + window
  · have hqueue := hrecent.total_within_le hin.2
    have hlast : total (([(now, amount)] : List Entry).filter fun entry =>
        decide (start ≤ entry.1) && decide (entry.1 < start + window)) ≤ amount :=
      (total_le_of_sublist List.filter_sublist).trans (total_singleton _).le
    omega
  · have hnone : ([(now, amount)] : List Entry).filter (fun entry =>
        decide (start ≤ entry.1) && decide (entry.1 < start + window)) = [] := by
      refine List.filter_eq_nil_iff.mpr fun entry hentry => ?_
      obtain rfl := List.mem_singleton.mp hentry
      simpa using hin
    rw [hnone, total_nil, Nat.add_zero]
    exact h start

end NoxSdk.Lib.SlidingWindow
