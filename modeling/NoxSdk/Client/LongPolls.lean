import NoxSdk.Client.ClaimRuns

/-!
# Long-polls

How many claims of an entry ask it to hold them. A claim does so only below `max(1, maxClaims - 1)`
of the limit at its launch, so at the larger limit this holds in every run. Where no answer lowers
the limit of an entry to its other long-polls or below, one claim of the entry stays free of
long-polls, unless it may have one claim only (`long_polls_limited`).
-/

namespace NoxSdk.Client.Scheduler

open NoxSdk.Lib EntryState

variable {fair : Prop} {settings : ReplyClaimSettings} {host : ClaimHost} {s s' : Scheduler}
  {entryUrl : String}

/-- A claim that asks its entry to hold it was launched below the limit on such claims. -/
theorem waiting_lt_of_waitFor {state : EntryState} (h : 0 < state.waitFor settings host false) :
    state.waiting < max 1 ((state.limits settings).maxClaims - 1) := by
  by_contra hfull
  rw [waitFor] at h
  split_ifs at h with hoff hslots
  · exact absurd h (lt_irrefl 0)
  · exact absurd h (lt_irrefl 0)
  · exact hslots ⟨rfl, not_lt.mp hfull⟩
  · exact hslots ⟨rfl, not_lt.mp hfull⟩

/-- What `launch` makes of the long-polls of an entry that were below a bound. -/
theorem waiting_launch_le {state : EntryState} {batch : Batch} {bound : ℕ}
    (h : state.waiting ≤ bound) (hbound : max 1 ((state.limits settings).maxClaims - 1) ≤ bound) :
    (state.launch (state.newClaim settings host entryUrl batch)).waiting ≤ bound := by
  rw [EntryState.launch]
  dsimp only
  split_ifs with hwaits
  · rw [newClaim] at hwaits
    dsimp only at hwaits
    split_ifs at hwaits with hempty
    · exact absurd hwaits (lt_irrefl 0)
    · exact (Nat.succ_le_of_lt (waiting_lt_of_waitFor hwaits)).trans hbound
  · exact h

/-- No entry has more long-polls than a bound that may depend on its version. -/
def LongPollsWithin (bound : Option Bool → ℕ) (s : Scheduler) : Prop :=
  ∀ entryUrl, (s.entryAt entryUrl).waiting ≤ bound (s.entryAt entryUrl).v2

variable {bound : Option Bool → ℕ}

theorem LongPollsWithin.setEntry (h : s.LongPollsWithin bound) {state : EntryState}
    (hstate : state.waiting ≤ bound state.v2) :
    (s.setEntry entryUrl state).LongPollsWithin bound :=
  forall_entryAt_setEntry (P := fun state => state.waiting ≤ bound state.v2) h hstate

theorem LongPollsWithin.change
    (hbound : ∀ state : EntryState,
      max 1 ((state.limits settings).maxClaims - 1) ≤ bound state.v2)
    (h : s.LongPollsWithin bound) (hchange : Change fair settings host s s') :
    s'.LongPollsWithin bound := by
  cases hchange with
  | acks entryUrl ids =>
    rcases queueAcks_cases settings s entryUrl ids with heq | heq
    · rwa [heq]
    · rw [heq]
      refine h.setEntry ?_
      rw [EntryState.queueAcks]
      split_ifs <;> exact h entryUrl
  | entry entryUrl state hbooks =>
    refine h.setEntry ?_
    rw [hbooks.waiting, hbooks.v2]
    exact h entryUrl
  | claim entryUrl batch _ =>
    exact h.setEntry (waiting_launch_le (h entryUrl) (hbound _))
  | _ => exact h

theorem LongPollsWithin.changes
    (hbound : ∀ state : EntryState,
      max 1 ((state.limits settings).maxClaims - 1) ≤ bound state.v2)
    (h : s.LongPollsWithin bound) (hchanges : Changes fair settings host s s') :
    s'.LongPollsWithin bound :=
  hchanges.keeps h fun _ _ ht hchange => ht.change hbound hchange

theorem waiting_release_le (state : EntryState) (claim : Claim) :
    (state.release claim).waiting ≤ state.waiting := by
  rw [EntryState.release]
  dsimp only
  split_ifs
  · exact Nat.sub_le _ _
  · exact le_rfl

theorem LongPollsWithin.release (h : s.LongPollsWithin bound) (index : ℕ) {claim : Claim}
    {state : EntryState} (hstate : (state.release claim).waiting ≤ bound state.v2) :
    (s.release index claim state).LongPollsWithin bound := by
  have hentry : (s.setEntry claim.entryUrl (state.release claim)).LongPollsWithin bound :=
    h.setEntry hstate
  exact hentry

/-- The event is no answer after which an entry has more long-polls than the bound of its
version. -/
def KeepsBound (host : ClaimHost) (bound : Option Bool → ℕ) (s : Scheduler) :
    SchedulerEvent host → Prop
  | .answered index outcome _ => ∀ claim, s.claims[index]? = some claim →
    ((s.entryAt claim.entryUrl).release claim).waiting ≤
      bound (outcome.v2.or (s.entryAt claim.entryUrl).v2)
  | _ => True

theorem LongPollsWithin.step
    (hbound : ∀ state : EntryState,
      max 1 ((state.limits settings).maxClaims - 1) ≤ bound state.v2)
    (h : s.LongPollsWithin bound) {event : SchedulerEvent host}
    (hkeeps : KeepsBound host bound s event)
    (hstep : s.step settings host event = some s') : s'.LongPollsWithin bound := by
  cases effect_of_any_step hstep with
  | track htrack =>
    rw [htrack]
    exact h
  | changes hchanges => exact h.changes hbound hchanges
  | answered claim hclaim hchanges =>
    exact (h.release _ (hkeeps claim hclaim)).changes hbound hchanges
  | failed claim _ hchanges =>
    refine (h.release _ ?_).changes hbound hchanges
    exact (waiting_release_le _ claim).trans (h claim.entryUrl)

/-- What holds of an entry at the start of a run, and of every answer in it. -/
theorem longPollsWithin_of_runWhen {condition : Scheduler → SchedulerEvent host → Prop}
    (hbound : ∀ state : EntryState,
      max 1 ((state.limits settings).maxClaims - 1) ≤ bound state.v2)
    (hkeeps : ∀ s event, s.LongPollsWithin bound → condition s event →
      KeepsBound host bound s event)
    (hrun : RunWhen (step settings host) condition init s) : s.LongPollsWithin bound := by
  refine hrun.invariant (fun _ => Nat.zero_le _) ?_
  intro t event t' hwithin hcondition hstep
  exact hwithin.step hbound (hkeeps t event hwithin hcondition) hstep

/-! ### The free claim -/

/-- Where the event is an answer that lowers the limit of its entry, the other long-polls of the
entry are fewer than the new limit. -/
def FindsRoom (settings : ReplyClaimSettings) (host : ClaimHost) (s : Scheduler) :
    SchedulerEvent host → Prop
  | .answered index outcome ms => ∀ claim, s.claims[index]? = some claim →
    let state := s.entryAt claim.entryUrl
    let after := state.noteOutcome claim outcome ms
    (after.limits settings).maxClaims < (state.limits settings).maxClaims →
      (state.release claim).waiting < (after.limits settings).maxClaims
  | _ => True

/-- The limit on claims after a version was observed. -/
def maxClaimsAt (settings : ReplyClaimSettings) (v2 : Option Bool) : ℕ :=
  if v2 = some true then settings.maxClaimsInFlight else settings.jsonMaxClaimsInFlight

theorem maxClaims_limits (state : EntryState) :
    (state.limits settings).maxClaims = maxClaimsAt settings state.v2 := by
  rw [EntryState.limits, maxClaimsAt]
  split_ifs <;> rfl

theorem one_le_maxClaimsAt (hsettings : settings.Valid) (v2 : Option Bool) :
    1 ≤ maxClaimsAt settings v2 := by
  rw [maxClaimsAt]
  split_ifs <;> exact hsettings _ (by simp [ReplyClaimSettings.positives])

theorem keepsBound_of_findsRoom {event : SchedulerEvent host}
    (h : s.LongPollsWithin fun v2 => max 1 (maxClaimsAt settings v2 - 1))
    (hroom : FindsRoom settings host s event) :
    KeepsBound host (fun v2 => max 1 (maxClaimsAt settings v2 - 1)) s event := by
  cases event with
  | answered index outcome ms =>
    intro claim hclaim
    have hbefore := h claim.entryUrl
    have hless := waiting_release_le (s.entryAt claim.entryUrl) claim
    have hroom := hroom claim hclaim
    simp only [maxClaims_limits] at hroom
    change maxClaimsAt settings (outcome.v2.or (s.entryAt claim.entryUrl).v2) < _ →
      _ < maxClaimsAt settings (outcome.v2.or (s.entryAt claim.entryUrl).v2) at hroom
    dsimp only at hbefore ⊢
    omega
  | _ => trivial

/-- In every run an entry has at most `max(1, m - 1)` long-polls, for the larger limit `m`. Where
every answer that lowers the limit of its entry finds its other long-polls below the new limit, an
entry has fewer long-polls than it may have claims, unless it may have one claim only, and this
long-polls.

A long-poll starts only while the entry has fewer than `max(1, limit - 1)` of them, and the limit
depends on the version of the entry. With the larger limit of the two the bound does not move in a
run; with the limit of the moment it moves at an answer, and there the condition is asked. -/
theorem long_polls_limited (overrides : List (String × SettingValue)) (base : ReplyClaimSettings)
    (settings : ReplyClaimSettings) (hbase : base.Valid)
    (hsettings : resolveReplyClaimSettings overrides base = .ok settings) (host : ClaimHost)
    (s : Scheduler) :
    (Run (step settings host) init s → ∀ entryUrl state, s.entries.get? entryUrl = some state →
      (s.claims.filter fun claim => claim.entryUrl = entryUrl ∧ 0 < claim.waitMs).length ≤
        max 1 (max settings.maxClaimsInFlight settings.jsonMaxClaimsInFlight - 1)) ∧
    (RunWhen (step settings host) (FindsRoom settings host) init s →
      ∀ entryUrl state, s.entries.get? entryUrl = some state →
        let waiting :=
          (s.claims.filter fun claim => claim.entryUrl = entryUrl ∧ 0 < claim.waitMs).length
        waiting < (state.limits settings).maxClaims ∨
          waiting = 1 ∧ (state.limits settings).maxClaims = 1) := by
  have hvalid := valid_of_resolveReplyClaimSettings hbase hsettings
  have hcount : Run (step settings host) init s → ∀ entryUrl,
      (s.claims.filter fun claim => claim.entryUrl = entryUrl ∧ 0 < claim.waitMs).length =
        (s.entryAt entryUrl).waiting := by
    intro hrun entryUrl
    rw [(counted_of_run hrun).waiting, List.countP_eq_length_filter]
  constructor
  · intro hrun entryUrl state _
    rw [hcount hrun]
    have hwithin : s.LongPollsWithin fun _ =>
        max 1 (max settings.maxClaimsInFlight settings.jsonMaxClaimsInFlight - 1) := by
      refine longPollsWithin_of_runWhen (fun state => ?_) (fun t event hwithin _ => ?_) hrun
      · exact max_le_max_left 1 (Nat.sub_le_sub_right (limits_le state).2 1)
      · -- an answer takes a long-poll away and leaves this bound alone
        cases event with
        | answered index outcome ms =>
          exact fun claim _ => (waiting_release_le _ claim).trans (hwithin claim.entryUrl)
        | _ => trivial
    exact hwithin entryUrl
  · intro hrun entryUrl state hget
    have hwithin := longPollsWithin_of_runWhen
      (fun state => by rw [maxClaims_limits state]) (fun _ _ => keepsBound_of_findsRoom) hrun
      entryUrl
    dsimp only at hwithin ⊢
    rw [hcount hrun.run, maxClaims_limits]
    rw [entryAt_of_get? hget] at hwithin ⊢
    have hone := one_le_maxClaimsAt hvalid state.v2
    omega

/-- An answer without items of an entry that speaks version 2 and holds claims. -/
def sampleOutcome : ClaimOutcome := ⟨[], .empty, 0, some true, some 4000, ⟨0, 0, 0⟩⟩

/-- A request is claimed twice from such an entry. -/
def sampleEvents : List (SchedulerEvent sampleHost) :=
  [.track 1 "entry" ["a"] 1 0, .kick (sampleView 0 ["a"]),
    .answered 0 sampleOutcome 1, .delivered, .tick (sampleView 200 ["a"])]

theorem findsRoom_sampleEvents :
    ∀ event ∈ sampleEvents, ∀ s, FindsRoom replyClaimDefaults sampleHost s event := by
  simp only [sampleEvents, List.forall_mem_cons, List.not_mem_nil, false_imp_iff, implies_true,
    and_true]
  refine ⟨fun _ => trivial, fun _ => trivial, fun s claim _ => ?_, fun _ => trivial,
    fun _ => trivial⟩
  -- the limit for version 2 is the larger one
  simp only [maxClaims_limits]
  intro hlower
  rw [maxClaimsAt, maxClaimsAt] at hlower
  split_ifs at hlower <;> simp_all [replyClaimDefaults, noteOutcome, sampleOutcome]

theorem long_polls_limited_sample :
    ∃ (s : Scheduler) (state : EntryState), s.claims.map Claim.waitMs = [4000] ∧
      s.entries.get? "entry" = some state ∧
      (s.claims.filter fun claim => claim.entryUrl = "entry" ∧ 0 < claim.waitMs).length ≤ 3 ∧
        ((s.claims.filter fun claim => claim.entryUrl = "entry" ∧ 0 < claim.waitMs).length <
            (state.limits replyClaimDefaults).maxClaims ∨
          (s.claims.filter fun claim => claim.entryUrl = "entry" ∧ 0 < claim.waitMs).length = 1 ∧
            (state.limits replyClaimDefaults).maxClaims = 1) := by
  have hrun : (runEvents (step replyClaimDefaults sampleHost) init sampleEvents).map
      (fun s : Scheduler => (s.claims.map Claim.waitMs, s.entries.has "entry")) =
        some ([4000], true) := by decide +kernel
  obtain ⟨s, hs, hview⟩ := Option.map_eq_some_iff.mp hrun
  obtain ⟨hwaits, hentry⟩ := Prod.mk.inj hview
  obtain ⟨state, hget⟩ := Option.isSome_iff_exists.mp hentry
  have hlimited := long_polls_limited [] replyClaimDefaults replyClaimDefaults
    valid_replyClaimDefaults rfl sampleHost s
  exact ⟨s, state, hwaits, hget, hlimited.1 (run_of_runEvents hs) "entry" state hget,
    hlimited.2 (runWhen_of_runEvents findsRoom_sampleEvents hs) "entry" state hget⟩

/-- With one claim at a time, which is accepted, an entry that speaks version 2 has its one claim
long-poll. -/
theorem not_long_polls_limited :
    ∃ settings, resolveReplyClaimSettings [("maxClaimsInFlight", .integer 1)] replyClaimDefaults =
        .ok settings ∧
      ∃ s state, Run (step settings sampleHost) init s ∧ s.entries.get? "entry" = some state ∧
        (s.claims.filter fun claim => claim.entryUrl = "entry" ∧ 0 < claim.waitMs).length = 1 ∧
          (state.limits settings).maxClaims = 1 := by
  refine ⟨{ replyClaimDefaults with maxClaimsInFlight := 1 }, rfl, ?_⟩
  have hrun : (runEvents (step { replyClaimDefaults with maxClaimsInFlight := 1 } sampleHost) init
      sampleEvents).map (fun s : Scheduler =>
        ((s.claims.filter fun claim => claim.entryUrl = "entry" ∧ 0 < claim.waitMs).length,
          (s.entries.get? "entry").map EntryState.v2)) = some (1, some (some true)) := by
    decide +kernel
  obtain ⟨s, hs, hview⟩ := Option.map_eq_some_iff.mp hrun
  obtain ⟨hwaiting, hentry⟩ := Prod.mk.inj hview
  obtain ⟨state, hget, hv2⟩ := Option.map_eq_some_iff.mp hentry
  refine ⟨s, state, run_of_runEvents hs, hget, hwaiting, ?_⟩
  rw [maxClaims_limits, hv2]
  rfl

end NoxSdk.Client.Scheduler
