import NoxSdk.Client.Latency
import NoxSdk.Lib.Runs
import NoxSdk.Lib.SlidingWindow
import Mathlib.Tactic.Linarith

/-!
# Warming up connections

A new connection to the pinned entry or its standby is warmed up with a few rounds of padding. The
warm-ups of several connections run at once, each one a loop that sleeps between its rounds, waits
for uploads, and stops when its connection is gone, when a round is slow, or when the bytes of the
last minute are spent.

* `warmupRoundsFrom_spec`: the sizes of the rounds.
* `warmups_limited`: what the warm-ups send in any minute, and what each of them sends.
-/

namespace NoxSdk.Kps

open NoxSdk.Lib NoxSdk.Client NoxSdk.Lib.SlidingWindow

/-- `KPS_WARMUP_FIRST_ROUND_BYTES`. -/
def warmupFirstRoundBytes : ℕ := 12000

/-- `KPS_WARMUP_GROWTH`. -/
def warmupGrowth : ℚ := 3 / 2

/-- `KPS_WARMUP_MAX_ROUND_BYTES`. -/
def warmupMaxRoundBytes : ℕ := 60000

/-- `KPS_WARMUP_MIN_ROUND_BYTES`. -/
def warmupMinRoundBytes : ℕ := 1000

/-- `KPS_WARMUP_MAX_MS`. -/
def warmupMaxMs : ℕ := 15000

/-- `WARMUP_BUDGET_WINDOW_MS`. -/
def warmupBudgetWindowMs : ℕ := 60000

/-- The settings of the warm-up. -/
structure WarmupSettings where
  warmupBytes : ℕ
  warmupMaxBytesPerMinute : ℕ
  warmupAbortRtts : ℕ

/-- The size of a round, with so many rounds before it and so many bytes left. -/
def warmupRoundSize (before left : ℕ) : ℕ :=
  min (min left (LatencyTracker.mathRound (warmupFirstRoundBytes * warmupGrowth ^ before)).toNat)
    warmupMaxRoundBytes

theorem le_warmupRoundSize {before left : ℕ} (h : warmupMinRoundBytes ≤ left) :
    warmupMinRoundBytes ≤ warmupRoundSize before left := by
  have hgrown : (1 : ℚ) ≤ warmupGrowth ^ before := one_le_pow₀ (by norm_num [warmupGrowth])
  have hround : (warmupMinRoundBytes : ℤ) ≤ LatencyTracker.mathRound
      (warmupFirstRoundBytes * warmupGrowth ^ before) := by
    refine Int.le_floor.mpr ?_
    norm_num [warmupMinRoundBytes, warmupFirstRoundBytes]
    linarith
  have hmax : warmupMinRoundBytes ≤ warmupMaxRoundBytes := by decide
  exact le_min (le_min h (by omega)) hmax

/-- The loop of `kpsWarmupRounds`. -/
def warmupRoundsFrom (before left : ℕ) : List ℕ :=
  if _ : warmupMinRoundBytes ≤ left then
    warmupRoundSize before left ::
      warmupRoundsFrom (before + 1) (left - warmupRoundSize before left)
  else []
termination_by left
decreasing_by
  rename_i h
  have hsize := @le_warmupRoundSize before left h
  simp only [warmupMinRoundBytes] at hsize h
  omega

/-- `kpsWarmupRounds`. -/
def kpsWarmupRounds (bytes : ℕ) : List ℕ := warmupRoundsFrom 0 bytes

theorem warmupRoundsFrom_spec (before left : ℕ) :
    (∀ size ∈ warmupRoundsFrom before left,
      warmupMinRoundBytes ≤ size ∧ size ≤ warmupMaxRoundBytes) ∧
      (warmupRoundsFrom before left).sum ≤ left ∧
        left < (warmupRoundsFrom before left).sum + warmupMinRoundBytes := by
  induction before, left using warmupRoundsFrom.induct with
  | case1 before left h ih =>
    have hsize := @le_warmupRoundSize before left h
    have hleft : warmupRoundSize before left ≤ left := (min_le_left _ _).trans (min_le_left _ _)
    rw [warmupRoundsFrom, dif_pos h]
    refine ⟨fun size hmem => ?_, ?_, ?_⟩
    · rcases List.mem_cons.mp hmem with rfl | hmem
      · exact ⟨hsize, min_le_right _ _⟩
      · exact ih.1 size hmem
    · rw [List.sum_cons]
      omega
    · rw [List.sum_cons]
      omega
  | case2 before left h =>
    rw [warmupRoundsFrom, dif_neg h]
    exact ⟨by simp, Nat.zero_le _, by simpa using h⟩

/-! ### Warm-ups at work -/

/-- Why a warm-up stopped. -/
inductive WarmupStop
  | done
  | closed
  | deadline
  | slow
  | budget
  deriving DecidableEq, Repr

/-- `runWarmup` of a connection, where it sleeps or after its end. -/
structure Warmup where
  address : String
  conn : ℕ
  started : ℕ
  /-- The rounds to come. -/
  rounds : List ℕ
  /-- The rounds that were sent: when, how large, and whether their exchange is over. -/
  sent : List (ℕ × ℕ × Bool) := []
  paused : Bool := false
  yielded : ℕ := 0
  stop : Option WarmupStop := none
  deriving DecidableEq, Repr

/-- The warm-ups of a transport. -/
structure Warmups where
  /-- The latest reading of the clock. -/
  now : ℕ := 0
  warmups : List Warmup := []
  /-- What was sent in the last minute, at least. -/
  warmupSent : List (ℕ × ℕ) := []
  deriving DecidableEq, Repr

/-- What a turn of a warm-up reads. -/
structure WarmupEnv where
  now : ℕ
  closed : Bool
  /-- `entry.conn`. -/
  conn : Option ℕ
  uploads : ℕ
  rttMs : Option ℚ

/-- What happens to the warm-ups. -/
inductive WarmupEvent
  /-- `startWarmup` of a connection that was not warmed yet. -/
  | start (address : String) (conn : ℕ) (env : WarmupEnv)
  /-- A warm-up wakes up. -/
  | wake (index : ℕ) (env : WarmupEnv)
  /-- The exchange of a round is over. -/
  | roundDone (index round : ℕ)

namespace Warmup

/-- When the rounds were sent and how large they are. -/
def log (warmup : Warmup) : List (ℕ × ℕ) := warmup.sent.map fun round => (round.1, round.2.1)

/-- Some round is open for longer than `warmupAbortRtts` round trips. -/
def isSlow (settings : WarmupSettings) (warmup : Warmup) (env : WarmupEnv) : Bool :=
  env.rttMs.any fun rtt => warmup.sent.any fun round =>
    !round.2.2 && decide (rtt * settings.warmupAbortRtts < (env.now : ℚ) - round.1)

/-- A round is sent. -/
def send (warmup : Warmup) (now size : ℕ) (rounds : List ℕ) : Warmup :=
  { warmup with
    rounds
    sent := warmup.sent ++ [(now, size, false)]
    stop := if rounds.isEmpty then some .done else none }

/-- The loop of `runWarmup` up to its next sleep or its end, with the queue of what was sent. A
warm-up that waited for uploads is not asked again whether its connection is gone. -/
def turn (settings : WarmupSettings) (warmup : Warmup) (queue : List (ℕ × ℕ)) (env : WarmupEnv) :
    Warmup × List (ℕ × ℕ) :=
  match warmup.rounds with
  | [] => ({ warmup with stop := some .done }, queue)
  | size :: rounds =>
    let isGone := env.closed || decide (env.conn ≠ some warmup.conn)
    let isLate := decide (warmup.started + warmupMaxMs ≤ env.now)
    if !warmup.paused && isGone then ({ warmup with stop := some .closed }, queue)
    else if decide (0 < env.uploads) && !isGone && !isLate then
      ({ warmup with paused := true }, queue)
    else
      let warmup := { warmup with
        paused := false
        yielded := warmup.yielded + warmup.paused.toNat }
      if decide (0 < env.uploads) || isLate then ({ warmup with stop := some .deadline }, queue)
      else if warmup.isSlow settings env then ({ warmup with stop := some .slow }, queue)
      else
        let queue := expire warmupBudgetWindowMs env.now queue
        if (settings.warmupMaxBytesPerMinute : ℤ) - total queue < size then
          ({ warmup with stop := some .budget }, queue)
        else (warmup.send env.now size rounds, queue ++ [(env.now, size)])

/-- The exchange of a round is over. -/
def roundDone (warmup : Warmup) (round : ℕ) : Warmup :=
  { warmup with sent := warmup.sent.modify round fun sent => (sent.1, sent.2.1, true) }

@[simp] theorem log_send (warmup : Warmup) (now size : ℕ) (rounds : List ℕ) :
    (warmup.send now size rounds).log = warmup.log ++ [(now, size)] := by
  simp [log, send]

@[simp] theorem log_roundDone (warmup : Warmup) (round : ℕ) :
    (warmup.roundDone round).log = warmup.log := by
  refine List.ext_getElem? fun index => ?_
  simp only [log, roundDone, List.getElem?_map, List.getElem?_modify]
  cases warmup.sent[index]? with
  | none => rfl
  | some sent =>
    refine congrArg some ?_
    split <;> rfl

/-- A turn sends nothing, or the next round in time and within what is left of the minute. -/
theorem turn_cases (settings : WarmupSettings) (warmup : Warmup) (queue : List (ℕ × ℕ))
    (env : WarmupEnv) :
    ∃ behind queue', warmup.turn settings queue env = (behind, queue') ∧
      behind.started = warmup.started ∧
      ((behind.log = warmup.log ∧ behind.rounds = warmup.rounds ∧
          (queue' = queue ∨ queue' = expire warmupBudgetWindowMs env.now queue)) ∨
        ∃ size, warmup.rounds = size :: behind.rounds ∧
          behind.log = warmup.log ++ [(env.now, size)] ∧
          queue' = expire warmupBudgetWindowMs env.now queue ++ [(env.now, size)] ∧
          env.now < warmup.started + warmupMaxMs ∧
          total (expire warmupBudgetWindowMs env.now queue) + size ≤
            settings.warmupMaxBytesPerMinute) := by
  rw [turn]
  split
  · exact ⟨_, _, rfl, rfl, .inl ⟨rfl, rfl, .inl rfl⟩⟩
  · rename_i size rounds hrounds
    dsimp only
    split_ifs with hgone hwait hlate hslow hfull
    · exact ⟨_, _, rfl, rfl, .inl ⟨rfl, rfl, .inl rfl⟩⟩
    · exact ⟨_, _, rfl, rfl, .inl ⟨rfl, rfl, .inl rfl⟩⟩
    · exact ⟨_, _, rfl, rfl, .inl ⟨rfl, rfl, .inl rfl⟩⟩
    · exact ⟨_, _, rfl, rfl, .inl ⟨rfl, rfl, .inl rfl⟩⟩
    · exact ⟨_, _, rfl, rfl, .inl ⟨rfl, rfl, .inr rfl⟩⟩
    · refine ⟨_, _, rfl, rfl, .inr ⟨size, hrounds, log_send _ _ _ _, rfl, ?_, ?_⟩⟩
      · simp only [Bool.or_eq_true, decide_eq_true_eq, not_or, not_le] at hlate
        exact hlate.2
      · omega

end Warmup

namespace Warmups

/-- All rounds of all warm-ups. -/
def log (warmups : Warmups) : List (ℕ × ℕ) := warmups.warmups.flatMap Warmup.log

variable (settings : WarmupSettings)

/-- A turn of the warm-up at this index. -/
def turn (warmups : Warmups) (index : ℕ) (warmup : Warmup) (env : WarmupEnv) : Warmups :=
  let (behind, queue) := warmup.turn settings warmups.warmupSent env
  { now := env.now, warmups := warmups.warmups.set index behind, warmupSent := queue }

/-- One event at a time; the clock does not go back. -/
def step (warmups : Warmups) : WarmupEvent → Option Warmups
  | .start address conn env =>
    if env.now < warmups.now ∨ env.closed ∨ env.conn ≠ some conn ∨ settings.warmupBytes = 0 then
      none
    else
      let warmup : Warmup := ⟨address, conn, env.now, kpsWarmupRounds settings.warmupBytes, [],
        false, 0, none⟩
      some ({ warmups with now := env.now, warmups := warmups.warmups ++ [warmup] }.turn settings
        warmups.warmups.length warmup env)
  | .wake index env => warmups.warmups[index]?.bind fun warmup =>
    if env.now < warmups.now ∨ warmup.stop.isSome then none
    else some (warmups.turn settings index warmup env)
  | .roundDone index round => warmups.warmups[index]?.map fun warmup =>
    { warmups with warmups := warmups.warmups.set index (warmup.roundDone round) }

/-! ### What the warm-ups send -/

/-- The rounds of a warm-up: those that were sent, in time, and those to come. -/
structure Paced (settings : WarmupSettings) (now : ℕ) (warmup : Warmup) : Prop where
  started : warmup.started ≤ now
  rounds : warmup.log.map Prod.snd ++ warmup.rounds = kpsWarmupRounds settings.warmupBytes
  sent : ∀ round ∈ warmup.log, warmup.started ≤ round.1 ∧ round.1 < warmup.started + warmupMaxMs

/-- What holds of the warm-ups at any time. -/
structure Metered (settings : WarmupSettings) (warmups : Warmups) : Prop where
  recent : Recent warmupBudgetWindowMs warmups.now warmups.log warmups.warmupSent
  limited : Limited warmupBudgetWindowMs settings.warmupMaxBytesPerMinute warmups.log
  paced : ∀ warmup ∈ warmups.warmups, Paced settings warmups.now warmup

section Lemmas

variable {settings} {warmups warmups' : Warmups} {warmup behind : Warmup} {env : WarmupEnv}
  {index now now' : ℕ}

theorem flatMap_log_set {all : List Warmup} (hget : all[index]? = some warmup)
    {more : List (ℕ × ℕ)} (hlog : behind.log = warmup.log ++ more) :
    ((all.set index behind).flatMap Warmup.log).Perm (all.flatMap Warmup.log ++ more) := by
  induction all generalizing index with
  | nil => simp at hget
  | cons first all ih =>
    cases index with
    | zero =>
      obtain rfl : first = warmup := by simpa using hget
      rw [List.set_cons_zero, List.flatMap_cons, List.flatMap_cons, hlog, List.append_assoc,
        List.append_assoc]
      exact List.perm_append_comm.append_left _
    | succ index =>
      rw [List.set_cons_succ, List.flatMap_cons, List.flatMap_cons, List.append_assoc]
      exact (ih (by simpa using hget)).append_left _

theorem Paced.mono (h : Paced settings now warmup) (hnow : now ≤ now') :
    Paced settings now' warmup :=
  ⟨h.started.trans hnow, h.rounds, h.sent⟩

theorem Metered.turn (h : Metered settings warmups) (hget : warmups.warmups[index]? = some warmup)
    (hnow : warmups.now ≤ env.now) :
    Metered settings (warmups.turn settings index warmup env) := by
  obtain ⟨behind, queue', hturn, hsame, hcases⟩ :=
    warmup.turn_cases settings warmups.warmupSent env
  have hpaced := (h.paced warmup (List.mem_of_getElem? hget)).mono hnow
  have hrecent := h.recent.mono hnow
  have hall : ∀ found ∈ warmups.warmups.set index behind, Paced settings env.now behind →
      Paced settings env.now found := by
    intro found hfound hbehind
    rcases List.mem_or_eq_of_mem_set hfound with hfound | rfl
    · exact (h.paced found hfound).mono hnow
    · exact hbehind
  rw [Warmups.turn, hturn]
  obtain ⟨hlog, hrounds, hqueue⟩ | ⟨size, hrounds, hlog, rfl, htime, hfits⟩ := hcases
  · have hperm := (flatMap_log_set hget (hlog.trans (List.append_nil _).symm)).symm
    rw [List.append_nil] at hperm
    refine ⟨?_, h.limited.perm hperm, fun found hfound => hall found hfound ?_⟩
    · rcases hqueue with rfl | rfl
      · exact hrecent.perm hperm
      · exact hrecent.expire.perm hperm
    · exact ⟨hsame ▸ hpaced.started, hlog ▸ hrounds ▸ hpaced.rounds, hlog ▸ hsame ▸ hpaced.sent⟩
  · have hperm := (flatMap_log_set hget hlog).symm
    refine ⟨hrecent.expire.push.perm hperm, (h.limited.push hrecent.expire hfits).perm hperm,
      fun found hfound => hall found hfound ⟨hsame ▸ hpaced.started, ?_, fun round hround => ?_⟩⟩
    · rw [hlog, List.map_append, List.append_assoc, ← hpaced.rounds, hrounds]
      rfl
    · rw [hlog] at hround
      rw [hsame]
      rcases List.mem_append.mp hround with hround | hround
      · exact hpaced.sent round hround
      · obtain rfl := List.mem_singleton.mp hround
        exact ⟨hpaced.started, htime⟩

theorem Metered.step (h : Metered settings warmups) {event : WarmupEvent}
    (hstep : warmups.step settings event = some warmups') : Metered settings warmups' := by
  cases event with
  | start address conn env =>
    rw [Warmups.step] at hstep
    split_ifs at hstep with hrefused
    obtain rfl := Option.some.inj hstep
    simp only [not_or, not_lt] at hrefused
    -- Nothing was sent by the new warm-up yet, so the log is the same.
    have hlog : ∀ warmup : Warmup, warmup.log = [] →
        (warmups.warmups ++ [warmup]).flatMap Warmup.log = warmups.log := by
      intro warmup hnone
      rw [List.flatMap_append, List.flatMap_singleton, hnone, List.append_nil, ← Warmups.log]
    refine Metered.turn ⟨?_, ?_, fun found hfound => ?_⟩ (by simp) le_rfl
    · rw [Warmups.log, hlog _ rfl]
      exact h.recent.mono hrefused.1
    · rw [Warmups.log, hlog _ rfl]
      exact h.limited
    · rcases List.mem_append.mp hfound with hfound | hfound
      · exact (h.paced found hfound).mono hrefused.1
      · obtain rfl := List.mem_singleton.mp hfound
        exact ⟨le_rfl, rfl, by rintro _ ⟨⟩⟩
  | wake index env =>
    obtain ⟨warmup, hget, hwake⟩ := Option.bind_eq_some_iff.mp hstep
    split_ifs at hwake with hrefused
    obtain rfl := Option.some.inj hwake
    simp only [not_or, not_lt] at hrefused
    exact h.turn hget hrefused.1
  | roundDone index round =>
    obtain ⟨warmup, hget, rfl⟩ := Option.map_eq_some_iff.mp hstep
    have hpaced := h.paced warmup (List.mem_of_getElem? hget)
    have hlog := warmup.log_roundDone round
    have hperm := (flatMap_log_set hget (hlog.trans (List.append_nil _).symm)).symm
    rw [List.append_nil] at hperm
    refine ⟨h.recent.perm hperm, h.limited.perm hperm, fun found hfound => ?_⟩
    rcases List.mem_or_eq_of_mem_set hfound with hfound | rfl
    · exact h.paced found hfound
    · exact ⟨hpaced.started, hlog ▸ hpaced.rounds, hlog ▸ hpaced.sent⟩

end Lemmas

/-- In every run the rounds of all warm-ups stay within the bytes of a minute, over every minute.
Each warm-up sends, in their order, the rounds planned for it, none of them smaller than a thousand
bytes or larger than sixty thousand, all within fifteen seconds of its start and together no more
than its bytes; one that sent them all leaves less than a smallest round unsent.

The budget is a sliding window over what was sent (`Recent`), and a round is sent only while the
window has room for it. What a warm-up sent and has to come is always the plan it started with
(`Paced`). -/
theorem warmups_limited {settings : WarmupSettings} {warmups : Warmups}
    (hrun : Run (Warmups.step settings) {} warmups) :
    Limited warmupBudgetWindowMs settings.warmupMaxBytesPerMinute warmups.log ∧
      ∀ warmup ∈ warmups.warmups,
        (warmup.log.map Prod.snd).IsPrefix (kpsWarmupRounds settings.warmupBytes) ∧
        (∀ round ∈ warmup.log, warmup.started ≤ round.1 ∧
          round.1 < warmup.started + warmupMaxMs ∧
          warmupMinRoundBytes ≤ round.2 ∧ round.2 ≤ warmupMaxRoundBytes) ∧
        total warmup.log ≤ settings.warmupBytes ∧
        (warmup.rounds = [] → settings.warmupBytes < total warmup.log + warmupMinRoundBytes) := by
  have hmetered : Metered settings warmups :=
    hrun.invariant ⟨.nil, limited_nil, by rintro _ ⟨⟩⟩ fun _ _ _ h => h.step
  refine ⟨hmetered.limited, fun warmup hmem => ?_⟩
  have hpaced := hmetered.paced warmup hmem
  have hspec := warmupRoundsFrom_spec 0 settings.warmupBytes
  rw [← kpsWarmupRounds, ← hpaced.rounds, List.sum_append, ← total] at hspec
  refine ⟨⟨_, hpaced.rounds⟩, fun round hround => ⟨(hpaced.sent round hround).1,
    (hpaced.sent round hround).2, ?_⟩, by omega, fun hnone => ?_⟩
  · exact hspec.1 _ (List.mem_append_left _ (List.mem_map_of_mem hround))
  · rw [hnone, List.sum_nil] at hspec
    exact hspec.2.2

/-- The settings of `KPS_TRANSPORT_DEFAULTS`. -/
def sampleWarmupSettings : WarmupSettings := ⟨96000, 400000, 3⟩

/-- A warm-up that pauses for an upload and goes on, beside one that is stopped by a slow round. -/
def sampleWarmupEvents : List WarmupEvent :=
  [.start "a" 1 ⟨0, false, some 1, 0, some 100⟩, .wake 0 ⟨100, false, some 1, 0, some 100⟩,
    .start "b" 2 ⟨150, false, some 2, 0, some 50⟩, .roundDone 0 0,
    .wake 0 ⟨200, false, some 1, 1, some 100⟩, .wake 0 ⟨300, false, some 1, 0, some 100⟩,
    .wake 1 ⟨350, false, some 2, 0, some 50⟩]

/-- The warm-ups behind these events. -/
def sampleWarmups : Warmups :=
  (runEvents (Warmups.step sampleWarmupSettings) {} sampleWarmupEvents).get (by decide +kernel)

theorem warmups_limited_sample :
    sampleWarmups.warmups.map (fun warmup => (warmup.log, warmup.yielded, warmup.stop)) =
        [([(0, 12000), (100, 18000), (300, 27000)], 1, none),
          ([(150, 12000)], 0, some .slow)] ∧
      Limited warmupBudgetWindowMs 400000 sampleWarmups.log :=
  ⟨by decide +kernel, (warmups_limited (run_of_runEvents (Option.some_get _).symm)).1⟩

end Warmups

end NoxSdk.Kps
