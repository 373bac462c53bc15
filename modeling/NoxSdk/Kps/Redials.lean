import Mathlib.Data.Nat.Cast.Order.Field
import NoxSdk.Kps.ConnectionFate

/-!
# Dials and their cooldowns

Over the dials of a pool entry, in their order: one starts when those before it were heard of, and
after a failure only when its cooldown is over (`dials_spaced`). The cooldown is between half the
ceiling and the ceiling of so many failures in a row.
-/

namespace NoxSdk.Kps

open NoxSdk.Lib NoxSdk.Client

namespace Lane

section Lemmas

variable {settings : ConnectionSettings} {lane lane' : Lane} {n m : ℕ} {dial dial' found : Dial}

/-- How many dials before this one failed in a row. -/
def streak (dials : List Dial) : ℕ → ℕ
  | 0 => 0
  | n + 1 => match (dials[n]?).bind Dial.failure with
    | some (_, failures) => failures
    | none => 0

/-- Dials and cooldowns. -/
structure Spaced (settings : ConnectionSettings) (lane : Lane) : Prop where
  counted : ∀ {n : ℕ} {dial : Dial} {at' failures : ℕ}, lane.dials[n]? = some dial →
    dial.failure = some (at', failures) → failures = streak lane.dials n + 1 ∧
      (∃ isOpen, dial.phase = .counted isOpen) ∧
      (∀ {next : Dial}, lane.dials[n + 1]? = some next →
        at' + settings.leastBackoff failures ≤ next.startedAt) ∧
      (n + 1 = lane.dials.length → at' + settings.leastBackoff failures ≤ lane.coolUntil ∧
        lane.coolUntil ≤ at' + settings.redialMaxMs)
  failures : lane.closed = false → lane.failures =
    streak lane.dials (if lane.dial.isSome then lane.dials.length - 1 else lane.dials.length)

theorem leastBackoff_le_backoff {failures : ℕ} {random : ℚ} (hrandom : 0 ≤ random) :
    settings.leastBackoff failures ≤ settings.backoff failures random := by
  have hhalf : (((settings.ceiling failures + 1) / 2 : ℕ) : ℚ) ≤
      settings.ceiling failures * (1 / 2 + 1 / 2 * random) + 1 / 2 := by
    have hdiv : (((settings.ceiling failures + 1) / 2 : ℕ) : ℚ) ≤
        ((settings.ceiling failures + 1 : ℕ) : ℚ) / (2 : ℕ) := Nat.cast_div_le
    have hscaled : 0 ≤ (settings.ceiling failures : ℚ) * random :=
      mul_nonneg (Nat.cast_nonneg _) hrandom
    push_cast at hdiv
    linarith
  have hround : (((settings.ceiling failures + 1) / 2 : ℕ) : ℤ) ≤ LatencyTracker.mathRound
      (settings.ceiling failures * (1 / 2 + 1 / 2 * random)) := Int.le_floor.mpr hhalf
  rw [ConnectionSettings.leastBackoff, ConnectionSettings.backoff]
  omega

theorem backoff_le {failures : ℕ} {random : ℚ} (hrandom : random ≤ 1) :
    settings.backoff failures random ≤ settings.redialMaxMs := by
  have hceiling : settings.ceiling failures ≤ settings.redialMaxMs := min_le_right _ _
  have hscaled : settings.ceiling failures * (1 / 2 + 1 / 2 * random) + 1 / 2 <
      ((settings.ceiling failures : ℤ) : ℚ) + 1 := by
    have hmul : (settings.ceiling failures : ℚ) * random ≤ settings.ceiling failures :=
      mul_le_of_le_one_right (Nat.cast_nonneg _) hrandom
    push_cast
    linarith
  have hround : LatencyTracker.mathRound (settings.ceiling failures * (1 / 2 + 1 / 2 * random)) <
      (settings.ceiling failures : ℤ) + 1 := Int.floor_lt.mpr (by exact_mod_cast hscaled)
  have hpos := settings.redialMaxMs_pos
  rw [ConnectionSettings.backoff]
  omega

theorem streak_congr {dials dials' : List Dial}
    (h : ∀ m < n, (dials'[m]?).bind Dial.failure = (dials[m]?).bind Dial.failure) :
    streak dials' n = streak dials n := by
  cases n with
  | zero => rfl
  | succ n => rw [streak, streak, h n (Nat.lt_succ_self n)]

theorem bind_failure_set (hget : lane.dials[n]? = some dial) (hfail : dial'.failure = dial.failure)
    (m : ℕ) :
    ((lane.dials.set n dial')[m]?).bind Dial.failure = (lane.dials[m]?).bind Dial.failure := by
  rw [getElem?_setDial hget]
  split_ifs with hm
  · rw [hm, hget, Option.bind_some, Option.bind_some, hfail]
  · rfl

/-- What becomes of a dial without a failure of its own. -/
theorem Spaced.set (h : Spaced settings lane) (hget : lane.dials[n]? = some dial)
    (hdials : lane'.dials = lane.dials.set n dial') (hstart : dial'.startedAt = dial.startedAt)
    (hfail : dial'.failure = dial.failure)
    (hphase : ∀ isOpen, dial.phase = .counted isOpen → ∃ isOpen, dial'.phase = .counted isOpen)
    (hcool : lane'.coolUntil = lane.coolUntil ∨ (n + 1 = lane.dials.length ∧ dial.failure = none))
    (hfailures : lane'.closed = false → lane'.failures = streak lane.dials
      (if lane'.dial.isSome then lane.dials.length - 1 else lane.dials.length)) :
    Spaced settings lane' where
  counted := by
    intro m found at' failures hfound hfailure
    have hstreak : ∀ m, streak lane'.dials m = streak lane.dials m := fun m =>
      streak_congr fun k _ => hdials ▸ bind_failure_set hget hfail k
    have hbefore : ∃ before, lane.dials[m]? = some before ∧ before.failure = some (at', failures) ∧
        ∀ isOpen, before.phase = .counted isOpen → ∃ isOpen, found.phase = .counted isOpen := by
      rw [hdials, getElem?_setDial hget] at hfound
      split_ifs at hfound with hm
      · obtain rfl := Option.some.inj hfound
        exact ⟨dial, hm ▸ hget, hfail ▸ hfailure, hphase⟩
      · exact ⟨found, hfound, hfailure, fun isOpen hcounted => ⟨isOpen, hcounted⟩⟩
    obtain ⟨before, hbefore, hfailure', hkept⟩ := hbefore
    obtain ⟨hcount, ⟨isOpen, hcounted⟩, hnext, hlast⟩ := h.counted hbefore hfailure'
    refine ⟨hcount.trans (by rw [hstreak]), hkept isOpen hcounted, fun hget' => ?_, fun hm => ?_⟩
    · rw [hdials, getElem?_setDial hget] at hget'
      split_ifs at hget' with hm
      · obtain rfl := Option.some.inj hget'
        rw [hstart]
        exact hnext (hm ▸ hget)
      · exact hnext hget'
    · rw [hdials, List.length_set] at hm
      rcases hcool with hcool | ⟨hn, hnone⟩
      · rw [hcool]
        exact hlast hm
      · obtain rfl : m = n := by omega
        obtain rfl := Option.some.inj (hget.symm.trans hbefore)
        cases hnone.symm.trans hfailure'
  failures hopen := by
    have hstreak : ∀ m, streak lane'.dials m = streak lane.dials m := fun m =>
      streak_congr fun k _ => hdials ▸ bind_failure_set hget hfail k
    rw [hstreak, hdials, List.length_set]
    exact hfailures hopen

theorem Spaced.same (h : Spaced settings lane) (hdials : lane'.dials = lane.dials)
    (hclosed : lane'.closed = false → lane.closed = false) (hdial : lane'.dial = lane.dial)
    (hfailures : lane'.failures = lane.failures) (hcool : lane'.coolUntil = lane.coolUntil) :
    Spaced settings lane' where
  counted hfound hfailure := by
    rw [hdials] at hfound ⊢
    rw [hcool]
    exact h.counted hfound hfailure
  failures hopen := by
    rw [hfailures, hdials, hdial]
    exact h.failures (hclosed hopen)

theorem Spaced.startDial (h : Spaced settings lane) {now : ℕ} (hclosed : lane.closed = false)
    (hdial : lane.dial = none) (hcool : lane.coolUntil ≤ now) :
    Spaced settings (lane.startDial now) where
  counted := by
    intro m found at' failures hfound hfailure
    have hlt : m < lane.dials.length := by
      rw [Lane.startDial, List.getElem?_append] at hfound
      split_ifs at hfound with hlt
      · exact hlt
      · rw [List.getElem?_singleton] at hfound
        split_ifs at hfound
        obtain rfl := Option.some.inj hfound
        cases hfailure
    rw [Lane.startDial, List.getElem?_append_left hlt] at hfound
    obtain ⟨hcount, hcounted, hnext, hlast⟩ := h.counted hfound hfailure
    refine ⟨hcount.trans ?_, hcounted, fun hget => ?_, fun hm => ?_⟩
    · refine congrArg (· + 1) (streak_congr fun k hk => ?_).symm
      rw [Lane.startDial, List.getElem?_append_left (hk.trans hlt)]
    · rw [Lane.startDial, List.getElem?_append] at hget
      split_ifs at hget with hnot
      · exact hnext hget
      · rw [List.getElem?_singleton] at hget
        split_ifs at hget
        obtain rfl := Option.some.inj hget
        exact (hlast (by omega)).1.trans hcool
    · rw [Lane.startDial, List.length_append, List.length_singleton] at hm
      omega
  failures _ := by
    have hbefore := h.failures hclosed
    rw [hdial] at hbefore
    refine hbefore.trans ?_
    rw [Lane.startDial, List.length_append, List.length_singleton]
    refine (streak_congr fun k hk => ?_).symm
    exact congrArg (Option.bind · Dial.failure) (List.getElem?_append_left hk)

/-- The dial that is heard of is the last one. -/
theorem Tracked.last_of_unheard (h : Tracked lane) (hget : lane.dials[n]? = some dial)
    (hunheard : dial.phase.unheard = true) : n + 1 = lane.dials.length :=
  h.last ((h.fits hget).unheard hunheard)

/-- A dial that was not counted has no failure. -/
theorem Spaced.failure_eq_none (h : Spaced settings lane) (hget : lane.dials[n]? = some dial)
    (hphase : ∀ isOpen, dial.phase ≠ .counted isOpen) : dial.failure = none := by
  cases hfailure : dial.failure with
  | none => rfl
  | some failure =>
    obtain ⟨-, ⟨isOpen, hcounted⟩, -⟩ := h.counted hget hfailure
    exact absurd hcounted (hphase isOpen)

theorem Spaced.onDialled (h : Spaced settings lane) (htracked : Tracked lane) {now : ℕ}
    (hget : lane.dials[n]? = some dial) (hphase : dial.phase = .resolved) :
    Spaced settings (lane.onDialled n dial now) := by
  have hlast := htracked.last_of_unheard hget (by rw [hphase]; rfl)
  have hnone := h.failure_eq_none hget fun isOpen => by simp [hphase]
  have hnot : ∀ isOpen (phase : DialPhase), dial.phase = .counted isOpen →
      ∃ isOpen, phase = .counted isOpen := fun isOpen phase hcounted => by
    cases hphase.symm.trans hcounted
  rw [Lane.onDialled]
  split_ifs
  · exact h.set hget rfl rfl rfl (fun isOpen => hnot isOpen _) (.inl rfl) h.failures
  · refine h.set hget rfl rfl rfl (fun isOpen => hnot isOpen _) (.inr ⟨hlast, hnone⟩) fun _ => ?_
    change 0 = streak lane.dials lane.dials.length
    rw [← hlast, streak, hget, Option.bind_some, hnone]
  · exact h.set hget rfl rfl rfl (fun isOpen => hnot isOpen _) (.inl rfl) h.failures

theorem Spaced.onDialFailed (h : Spaced settings lane) (htracked : Tracked lane) {now : ℕ}
    {isOpen : Bool} {random : ℚ} (hget : lane.dials[n]? = some dial)
    (hphase : dial.phase = .failed isOpen) (hunit : 0 ≤ random ∧ random ≤ 1) :
    Spaced settings (lane.onDialFailed settings n dial isOpen now random) := by
  have hunheard : dial.phase.unheard = true := by rw [hphase]; rfl
  have hlast := htracked.last_of_unheard hget hunheard
  rw [Lane.onDialFailed]
  split_ifs with hclosed
  · exact h.set hget rfl rfl rfl (fun _ _ => ⟨isOpen, rfl⟩) (.inl rfl) h.failures
  · have hshared : lane.dial = some n := (htracked.fits hget).unheard hunheard
    have hfailures : lane.failures = streak lane.dials n := by
      have hbefore := h.failures (by simpa using hclosed)
      rw [hshared, Option.isSome_some, if_pos rfl, ← hlast, Nat.add_sub_cancel] at hbefore
      exact hbefore
    -- the dials before this one are as they were
    have hstreak : ∀ {m}, m ≤ n → ∀ dial', streak (lane.dials.set n dial') m =
        streak lane.dials m := fun hm dial' => streak_congr fun k hk => by
      rw [getElem?_setDial hget, if_neg (by omega)]
    constructor
    case counted =>
      intro m found at' failures hfound hfailure
      change (lane.dials.set n _)[m]? = some found at hfound
      rw [getElem?_setDial hget] at hfound
      split_ifs at hfound with hm
      · obtain rfl := Option.some.inj hfound
        obtain ⟨rfl, rfl⟩ := Prod.mk.inj (Option.some.inj hfailure)
        subst hm
        refine ⟨congrArg (· + 1) (hfailures.trans (hstreak le_rfl _).symm), ⟨isOpen, rfl⟩,
          fun hget' => ?_, fun _ => ⟨?_, ?_⟩⟩
        · have hlt : m + 1 < (lane.dials.set m _).length := (List.getElem?_eq_some_iff.mp hget').1
          rw [List.length_set] at hlt
          omega
        · exact Nat.add_le_add_left (leastBackoff_le_backoff hunit.1) now
        · exact Nat.add_le_add_left (backoff_le hunit.2) now
      · have hlt := (List.getElem?_eq_some_iff.mp hfound).1
        obtain ⟨hcount, hcounted, hnext, -⟩ := h.counted hfound hfailure
        refine ⟨hcount.trans (congrArg (· + 1) (hstreak (by omega) _).symm), hcounted,
          fun hget' => ?_, fun hend => ?_⟩
        · change (lane.dials.set n _)[m + 1]? = _ at hget'
          rw [getElem?_setDial hget] at hget'
          split_ifs at hget' with hn
          · obtain rfl := Option.some.inj hget'
            have hstart := hnext (hn ▸ hget)
            exact hstart
          · exact hnext hget'
        · change m + 1 = (lane.dials.set n _).length at hend
          rw [List.length_set] at hend
          omega
    case failures =>
      intro _
      change lane.failures + 1 = streak (lane.dials.set n _) (lane.dials.set n _).length
      rw [List.length_set, ← hlast, streak, getElem?_setDial hget, if_pos rfl, Option.bind_some]

theorem failure_of_settles (hsettles : (∃ isConnection,
    lane.onResolved dial isConnection = some dial') ∨ Lane.onRejected dial = some dial' ∨
      Lane.onTimeout dial = some dial') :
    dial'.startedAt = dial.startedAt ∧ dial'.failure = dial.failure ∧
      ∀ isOpen, dial.phase = .counted isOpen → ∃ isOpen, dial'.phase = .counted isOpen := by
  rcases hsettles with ⟨_, hdial⟩ | hdial | hdial
  · rw [Lane.onResolved] at hdial
    split at hdial
    case h_1 hphase => cases hdial; simp [hphase]
    case h_2 hphase => cases hdial; simp [hphase]
    case h_3 hphase => cases hdial; simp
    case h_4 => cases hdial
  · rw [Lane.onRejected] at hdial
    split at hdial
    case h_1 hphase => cases hdial; simp [hphase]
    case h_2 hphase => cases hdial; simp [hphase]
    case h_3 hphase => cases hdial; simp
    case h_4 => cases hdial
  · rw [Lane.onTimeout] at hdial
    split at hdial
    case h_1 hphase => cases hdial; simp [hphase]
    case h_2 => cases hdial

theorem Spaced.change (h : Spaced settings lane) (htracked : Tracked lane)
    (hchange : Change settings lane lane') : Spaced settings lane' := by
  cases hchange with
  | same hdials hclosed hdial _ _ hfailures hcool =>
    exact h.same hdials (fun hopen => hclosed ▸ hopen) hdial hfailures hcool
  | startDial hclosed _ hdial hcool => exact h.startDial hclosed hdial hcool
  -- a promise settles a dial that was counted before
  | promise hget hsettles =>
    obtain ⟨hstart, hfail, hphase⟩ := failure_of_settles hsettles
    exact h.set hget rfl hstart hfail hphase (.inl rfl) h.failures
  | onDialled hget hphase => exact h.onDialled htracked hget hphase
  | onDialFailed hget hphase hunit => exact h.onDialFailed htracked hget hphase hunit
  | giveUp hget =>
    exact h.set hget rfl rfl rfl (fun isOpen hcounted => ⟨isOpen, hcounted⟩) (.inl rfl) h.failures
  | onClosed hget =>
    exact h.set hget rfl rfl rfl (fun isOpen hcounted => ⟨isOpen, hcounted⟩) (.inl rfl) h.failures
  | close =>
    -- `close` drops the connection, if there is one, and dials no more
    cases hconn : lane.conn with
    | none =>
      have hclose : lane.close.dials = lane.dials ∧ lane.close.closed = true ∧
          lane.close.dial = lane.dial ∧ lane.close.failures = lane.failures ∧
            lane.close.coolUntil = lane.coolUntil := by
        rw [Lane.close]
        simp [hconn]
      refine h.same hclose.1 (fun hopen => ?_) hclose.2.2.1 hclose.2.2.2.1 hclose.2.2.2.2
      cases hclose.2.1.symm.trans hopen
    | some n =>
      obtain ⟨-, dial, hget, -⟩ := htracked.conn hconn
      have hclose : lane.close = { lane.close with dials := (lane.giveUp n dial).dials } ∧
          lane.close.closed = true ∧ lane.close.coolUntil = lane.coolUntil := by
        rw [Lane.close]
        simp [hconn, hget, Lane.giveUp, Lane.setDial]
      rw [hclose.1]
      refine h.set hget rfl rfl rfl (fun isOpen hcounted => ⟨isOpen, hcounted⟩) (.inl hclose.2.2)
        fun hopen => ?_
      cases hclose.2.1.symm.trans hopen

theorem Reachable.spaced (h : Reachable settings lane) : Spaced settings lane := by
  obtain ⟨isClosed, now, hrun⟩ := h
  have hnew : Spaced settings (.new isClosed now) := ⟨by rintro _ _ _ _ ⟨⟩, fun _ => rfl⟩
  have hboth : Tracked lane ∧ Spaced settings lane :=
    hrun.invariant ⟨tracked_new isClosed now, hnew⟩ fun _ _ _ hbefore hstep =>
      ⟨hbefore.1.change (change_of_step hstep), hbefore.2.change hbefore.1 (change_of_step hstep)⟩
  exact hboth.2

/-- **Dials are spaced.** In every run of a pool entry: a dial starts only when those before it
were heard of. After the `k`-th failure in a row the next dial starts no sooner than half the
ceiling of `k` failures later, and none is refused for longer than `redialMaxMs`.

`streak` counts the failures in a row from the list of dials alone. The invariant (`Spaced`) ties it
to the count of the lane, from which the code computes when to dial again. -/
theorem dials_spaced (hrun : Reachable settings lane) :
    (∀ n dial next, lane.dials[n]? = some dial → lane.dials[n + 1]? = some next →
      dial.phase.unheard = false) ∧
    (∀ n dial at' failures, lane.dials[n]? = some dial → dial.failure = some (at', failures) →
      failures = streak lane.dials n + 1 ∧
      (∀ next, lane.dials[n + 1]? = some next →
        at' + settings.leastBackoff failures ≤ next.startedAt) ∧
      (n + 1 = lane.dials.length → lane.coolUntil ≤ at' + settings.redialMaxMs)) := by
  have htracked := hrun.tracked
  have hspaced := hrun.spaced
  refine ⟨fun n dial next hget hnext => ?_, fun n dial at' failures hget hfailure => ?_⟩
  · by_contra hunheard
    have hlast := htracked.last_of_unheard hget (by simpa using hunheard)
    have hlt := (List.getElem?_eq_some_iff.mp hnext).1
    omega
  · obtain ⟨hcount, -, hnext, hlast⟩ := hspaced.counted hget hfailure
    exact ⟨hcount, fun _ => hnext, fun hend => (hlast hend).2⟩

end Lemmas

end Lane

/-! ### A failed dial -/

private def redialSettings : ConnectionSettings :=
  ⟨500, 12500, 60000, 2, 1, 30000, by decide +kernel⟩

private def redialEvents : List (ℕ × LaneEvent) :=
  [(0, .connect), (9000, .rejected 0), (9000, .heard 0 (1 / 2)), (9100, .connect),
    (9400, .connect)]

private def redialBehind : Lane where
  dials := [⟨0, .counted false, false, 0, false, some (9000, 1)⟩, { startedAt := 9400 }]
  dial := some 1
  failures := 1
  coolUntil := 9375
  lastActivity := 0

theorem Lane.dials_spaced_sample :
    runEvents (Lane.step redialSettings) (.new false 0) redialEvents = some redialBehind ∧
      9000 + redialSettings.leastBackoff 1 ≤ 9400 := by
  have hrun : runEvents (Lane.step redialSettings) (.new false 0) redialEvents =
      some redialBehind := by decide +kernel
  have hspaced := (Lane.dials_spaced ⟨false, 0, run_of_runEvents hrun⟩).2 0
    ⟨0, .counted false, false, 0, false, some (9000, 1)⟩ 9000 1 rfl rfl
  exact ⟨hrun, hspaced.2.1 { startedAt := 9400 } rfl⟩

end NoxSdk.Kps
