import NoxSdk.Client.Resend
import Mathlib.Data.List.Basic

/-!
# What a handler can do to a call

`Effect` says what the handlers of `_sendWithRetry` can do to a call, and `effect_handle` that
they do nothing else. The invariants of a call follow from it, one case for each effect:
`Call.Bounded` counts its copies and its settlements, `Call.Waiting` says that a call that has not
settled has a live copy, `Local.Balanced` counts its hedge copies among those of the client, and
`Call.SettledAs` says what a call that has settled keeps.
-/

namespace NoxSdk.Client

open NoxSdk.Topology

/-! ### What a handler can do -/

section Effects

variable {settings : Settings} {moment : Moment} {s s' : Local} {event : CallEvent} {copy : ℕ}

/-- The errors that end a call at once: not a timeout, and not a transport failure in KPS mode. -/
def EndsCall (settings : Settings) (error : ErrorChain) : Prop :=
  ¬ (settings.kpsMode = true ∧ isTransportFailure error = true) ∧ isResponseTimeout error = false

/-- Which resend an event can launch for a copy, with the tests of its own handler. -/
inductive RouteResend (settings : Settings) (s : Local) :
    CallEvent → Attempt → ℕ → CopyReason → Prop
  | timeout {copy error attempt} : isResponseTimeout error = true →
      settings.retryOnTimeout = true →
      RouteResend settings s (.failure copy error) attempt copy (.timeout copy)
  | lostReply {copy attempt} : attempt.live = true → s.call.policy.resendOnLostReply = true →
      settings.retryOnTimeout = true →
      RouteResend settings s (.lost copy) attempt copy (.lostReply copy)
  | hedge {attempt} : attempt.live = true → s.call.anyLive = true →
      s.hedgesInFlight < s.call.policy.maxHedgesInFlight →
      RouteResend settings s .hedgeTimer attempt s.call.firstLive (.hedge s.call.firstLive)

/-- What a handler does to a call whose ended copy is marked. -/
inductive Effect (settings : Settings) (moment : Moment) (event : CallEvent) (s : Local) :
    Local → Prop
  | nothing : (∀ copy, event ≠ .success copy) → (∀ copy error, event = .failure copy error →
      s.call.settled = true ∨ s.call.anyLive = true) → Effect settings moment event s s
  | late : s.call.settled = true → Effect settings moment event s s
  | resolve (copy : ℕ) : event = .success copy → s.call.settled = false →
      Effect settings moment event s (s.withCall (s.call.finish (.resolved copy)))
  | rejectIdle (copy : ℕ) (error : ErrorChain) : event = .failure copy error →
      s.call.settled = false → s.call.anyLive = false →
      Effect settings moment event s (s.withCall (s.call.finish (.rejected error)))
  | rejectAtOnce (copy : ℕ) (error : ErrorChain) : event = .failure copy error →
      s.call.settled = false → EndsCall settings error →
      Effect settings moment event s (s.withCall (s.call.finish (.rejected error)))
  | transport (copy : ℕ) (error : ErrorChain) (attempt : Attempt) (planned : PlannedRoute)
      (call : Call) : event = .failure copy error → s.call.settled = false →
      settings.kpsMode = true → isTransportFailure error = true →
      (notSent error = true ∨ s.call.retry ≠ .none) → s.call.attempts[copy]? = some attempt →
      planTransportResend moment.state settings.surbFormat attempt.planned s.call.selectedExit
        s.call.policy moment.draws = some planned →
      s.call.takeTransportResend = some call →
      Effect settings moment event s
        ((s.withCall call).launch moment.state planned (.transport copy))
  | route (copy : ℕ) (attempt : Attempt) (planned : PlannedRoute) (reason : CopyReason) :
      RouteResend settings s event attempt copy reason → s.call.settled = false →
      s.call.routeResendUsed = false → s.call.retry ≠ .none →
      s.call.attempts[copy]? = some attempt →
      planResend moment.state settings.surbFormat attempt.planned s.call.selectedExit s.call.retry
        s.call.policy moment.draws = some planned →
      Effect settings moment event s (s.launchRouteResend moment.state planned reason)

/-- The state in which a handler decides: the copy that ended is marked, a timer that fired is
cleared, an abort is noted. -/
def Local.before (s : Local) : CallEvent → Local
  | .success copy => s.endCopy copy
  | .failure copy _ => s.endCopy copy
  | .lost _ => s
  | .hedgeTimer => s.clearHedgeTimer
  | .abort => s.noteAbort

/-- A copy that fails settles the call only when it was the last one, and does nothing else. -/
theorem effect_failIfIdle {error : ErrorChain} (hevent : event = .failure copy error)
    (hsettled : s.call.settled = false) :
    Effect settings moment event s (s.withCall (s.call.failIfIdle error)) := by
  rw [Call.failIfIdle]
  split_ifs with hlive
  · refine .nothing (fun c hc => ?_) fun c e _ => .inr hlive
    rw [hevent] at hc
    cases hc
  · exact .rejectIdle copy error hevent hsettled (Bool.eq_false_iff.mpr hlive)

/-- A transport failure of the latest copy may launch another copy; otherwise the call goes on or
settles as without it. -/
theorem effect_onTransportFailure {attempt : Attempt} {error : ErrorChain}
    (hevent : event = .failure copy error) (hsettled : s.call.settled = false)
    (hkps : settings.kpsMode = true) (herror : isTransportFailure error = true)
    (hattempt : s.call.attempts[copy]? = some attempt) :
    Effect settings moment event s
      (s.onTransportFailure settings moment copy attempt error) := by
  have hidle : Effect settings moment event s (s.withCall (s.call.failIfIdle error)) :=
    effect_failIfIdle hevent hsettled
  rw [Local.onTransportFailure]
  split_ifs with haborted hresend
  · exact hidle
  · split
    next next call hplan htake =>
      have hretry : notSent error = true ∨ s.call.retry ≠ .none := by simpa using hresend
      exact .transport copy error attempt next call hevent hsettled hkps herror hretry hattempt
        hplan htake
    · exact hidle
  · exact hidle

/-- A timeout may launch a copy behind the one that timed out, and settles the call otherwise as any
failure does. -/
theorem effect_onTimeout {attempt : Attempt} {error : ErrorChain}
    (hevent : event = .failure copy error) (hsettled : s.call.settled = false)
    (herror : isResponseTimeout error = true)
    (hattempt : s.call.attempts[copy]? = some attempt) :
    Effect settings moment event s (s.onTimeout settings moment copy attempt error) := by
  have hidle : Effect settings moment event s (s.withCall (s.call.failIfIdle error)) :=
    effect_failIfIdle hevent hsettled
  rw [Local.onTimeout]
  split_ifs with hoff hresend
  · exact hidle
  · have hretry : settings.retryOnTimeout = true := by simpa using hoff
    obtain ⟨hnone, hused⟩ : s.call.retry ≠ .none ∧ s.call.routeResendUsed = false := by
      simpa using hresend
    split
    next next hplan =>
      exact .route copy attempt next _ (hevent ▸ .timeout herror hretry) hsettled hused hnone
        hattempt hplan
    · exact hidle
  · exact hidle

/-- The end of a live copy. -/
theorem endCopy_of_live {attempt : Attempt} (hattempt : s.call.attempts[copy]? = some attempt)
    (hlive : attempt.live = true) :
    s.endCopy copy =
      ⟨{ s.call with attempts := s.call.attempts.set copy { attempt with live := false } },
        if attempt.hedge then s.hedgesInFlight - 1 else s.hedgesInFlight⟩ := by
  simp [Local.endCopy, hattempt, hlive]

/-- A live copy that ends is dead behind it, and nothing else of it has changed. -/
theorem getElem?_endCopy {attempt : Attempt} (hattempt : s.call.attempts[copy]? = some attempt)
    (hlive : attempt.live = true) :
    (s.endCopy copy).call.attempts[copy]? = some { attempt with live := false } := by
  have hlt : copy < s.call.attempts.length := (List.getElem?_eq_some_iff.mp hattempt).1
  rw [endCopy_of_live hattempt hlive]
  exact List.getElem?_set_self hlt

/-- A failure comes to one of the effects, whichever of the three handlers takes it. -/
theorem effect_onFailure {attempt : Attempt} (error : ErrorChain)
    (hattempt : s.call.attempts[copy]? = some attempt) (hlive : attempt.live = true) :
    Effect settings moment (.failure copy error) (s.endCopy copy)
      (s.onFailure settings moment copy error) := by
  have hended := getElem?_endCopy hattempt hlive
  rw [Local.onFailure]
  simp only [hended]
  split_ifs with hsettled
  · exact .late hsettled
  · have hsettled : (s.endCopy copy).call.settled = false := Bool.eq_false_iff.mpr hsettled
    rw [Local.onError]
    split_ifs with hkps htimeout
    · obtain ⟨hkps, herror⟩ := Bool.and_eq_true_iff.mp hkps
      exact effect_onTransportFailure rfl hsettled hkps herror hended
    · exact effect_onTimeout rfl hsettled htimeout hended
    · refine .rejectAtOnce copy error rfl hsettled ⟨?_, Bool.eq_false_iff.mpr htimeout⟩
      simpa using hkps

/-- A lost reply may launch one copy, if the settings ask for it and none was launched for that
before. -/
theorem effect_onLost : Effect settings moment (.lost copy) s (s.onLost settings moment copy) := by
  have hnothing : Effect settings moment (.lost copy) s s := .nothing nofun nofun
  rw [Local.onLost]
  split
  · exact hnothing
  next attempt hattempt =>
    split_ifs with hguard hused
    · exact hnothing
    · exact hnothing
    · split
      · exact hnothing
      next next hplan =>
        simp only [Bool.or_eq_true, Bool.not_eq_true', not_or, Bool.not_eq_false, Bool.not_eq_true,
          beq_iff_eq] at hguard hused
        exact .route copy attempt next _ (.lostReply hguard.1.2 hguard.2 hused.2) hguard.1.1
          hused.1.2 hused.1.1 hattempt hplan

/-- The hedge timer may launch one copy beside the live one, and leaves the call as it is otherwise.
-/
theorem effect_fireHedge (hretry : s.call.retry ≠ .none) :
    Effect settings moment .hedgeTimer s (s.fireHedge settings moment) := by
  have hnothing : Effect settings moment .hedgeTimer s s := .nothing nofun nofun
  rw [Local.fireHedge]
  split_ifs with hguard hmany
  · exact hnothing
  · exact hnothing
  · split
    · exact hnothing
    next attempt hattempt =>
      split
      · exact hnothing
      next next hplan =>
        simp only [Bool.or_eq_true, Bool.not_eq_true', not_or, Bool.not_eq_true,
          Bool.not_eq_false] at hguard
        have hlive : attempt.live = true := by
          obtain ⟨hlt, rfl⟩ := List.getElem?_eq_some_iff.mp hattempt
          exact List.findIdx_getElem
        exact .route s.call.firstLive attempt next _ (.hedge hlive hguard.2 (not_le.mp hmany))
          hguard.1.1 hguard.1.2 hretry hattempt hplan

/-- The handlers do nothing else. -/
theorem effect_handle (henabled : event.enabled s.call = true)
    (hretry : s.call.hedgeTimer = true → s.call.retry ≠ .none) :
    Effect settings moment event (s.before event) (s.handle settings moment event) := by
  cases event with
  | success copy =>
    rw [Local.handle, Local.onSuccess]
    split_ifs with hsettled
    · exact .late hsettled
    · exact .resolve copy rfl (Bool.eq_false_iff.mpr hsettled)
  | failure copy error =>
    obtain ⟨attempt, hattempt, hlive⟩ : ∃ attempt, s.call.attempts[copy]? = some attempt ∧
        attempt.live = true := by
      simpa [CallEvent.enabled, Option.any_eq_true] using henabled
    exact effect_onFailure error hattempt hlive
  | lost copy => exact effect_onLost
  | hedgeTimer => exact effect_fireHedge (hretry henabled)
  | abort => exact .nothing nofun nofun

end Effects

/-! ### Counting the copies of a call -/

namespace Call

/-- The copies launched for a timeout, a lost reply or a hedge. -/
def routeResends (call : Call) : ℕ :=
  call.attempts.countP fun attempt => attempt.reason.routeResend.isSome

/-- The hedge copies that are live. -/
def liveHedges (call : Call) : ℕ :=
  call.attempts.countP fun attempt => attempt.hedge && attempt.live

/-- `finish` of a call that has not settled. -/
theorem finish_of_open {call : Call} (outcome : Outcome) (h : call.settled = false) :
    call.finish outcome =
      { call with
        settled := true
        hedgeTimer := false
        attempts := call.attempts.map fun attempt =>
          if attempt.live then { attempt with aborted := true } else attempt
        settlements := call.settlements ++ [⟨outcome, call.anyLive⟩] } := by
  rw [finish, h, if_neg Bool.false_ne_true]

/-- The bounds of a call: its copies against the resends spent, and its settlements. -/
structure Bounded (call : Call) : Prop where
  transport_le : call.transportLeft ≤ call.policy.transportResends
  copies_le : call.attempts.length + call.transportLeft
    ≤ 1 + call.policy.transportResends + call.routeResendUsed.toNat
  resends_le : call.routeResends ≤ call.routeResendUsed.toNat
  open_settlements : call.settled = false → call.settlements = []
  settled_settlements : call.settled = true → call.settlements.length = 1
  settled_aborted : call.settled = true → ∀ attempt ∈ call.attempts, attempt.live = true →
    attempt.aborted = true
  timer_retry : call.hedgeTimer = true → call.retry ≠ .none

/-- A call that was open and is finished has settled once. -/
theorem Bounded.finish {call : Call} (h : call.Bounded) (outcome : Outcome)
    (hopen : call.settled = false) : (call.finish outcome).Bounded := by
  rw [finish_of_open outcome hopen]
  refine ⟨h.transport_le, ?_, ?_, nofun, fun _ => ?_, fun _ => ?_, nofun⟩
  · simpa using h.copies_le
  · have hcount : ∀ attempt : Attempt,
        (if attempt.live then { attempt with aborted := true } else attempt).reason
          = attempt.reason := by
      intro attempt
      split_ifs <;> rfl
    have hresends := h.resends_le
    simpa only [routeResends, List.countP_map, Function.comp_def, hcount] using hresends
  · simp [h.open_settlements hopen]
  · intro attempt hattempt hlive
    obtain ⟨before, -, rfl⟩ := List.mem_map.mp hattempt
    split_ifs at hlive ⊢ with hbefore
    · rfl
    · exact absurd hlive hbefore

end Call

namespace Local

variable {s : Local} {copy : ℕ}

/-- A copy that ends takes nothing from the counts of copies and settlements. -/
theorem bounded_endCopy (h : s.call.Bounded) {attempt : Attempt}
    (hattempt : s.call.attempts[copy]? = some attempt) (hlive : attempt.live = true) :
    (s.endCopy copy).call.Bounded := by
  obtain ⟨hlt, hget⟩ := List.getElem?_eq_some_iff.mp hattempt
  rw [endCopy_of_live hattempt hlive]
  refine ⟨h.transport_le, ?_, ?_, h.open_settlements, h.settled_settlements, ?_, h.timer_retry⟩
  · simpa using h.copies_le
  · have hresends := h.resends_le
    rw [Call.routeResends] at hresends ⊢
    have hpos : (if s.call.attempts[copy].reason.routeResend.isSome then 1 else 0)
        ≤ s.call.attempts.countP fun attempt => attempt.reason.routeResend.isSome := by
      split_ifs with hreason
      · exact List.countP_pos_iff.mpr ⟨_, List.getElem_mem hlt, hreason⟩
      · exact Nat.zero_le _
    rw [List.countP_set hlt, ← hget, Nat.sub_add_cancel hpos]
    exact hresends
  · intro hsettled other hother hother_live
    rcases List.mem_or_eq_of_mem_set hother with hmem | rfl
    · exact h.settled_aborted hsettled other hmem hother_live
    · cases hother_live

/-- A copy launched with a transport resend taken. -/
theorem bounded_launch_transport (h : s.call.Bounded) (hopen : s.call.settled = false)
    {call : Call} (htake : s.call.takeTransportResend = some call) (state : PlanState)
    (planned : PlannedRoute) :
    ((s.withCall call).launch state planned (.transport copy)).call.Bounded := by
  have hcopies := h.copies_le
  have hresends := h.resends_le
  have htransport := h.transport_le
  rw [Call.takeTransportResend] at htake
  split_ifs at htake with hleft hused
  · obtain rfl := Option.some.inj htake
    refine ⟨?_, ?_, ?_, h.open_settlements, h.settled_settlements, ?_, h.timer_retry⟩
    · exact (Nat.sub_le _ _).trans htransport
    · simp only [launch, withCall, List.length_append, List.length_singleton]
      omega
    · simpa [launch, withCall, Call.routeResends, List.countP_append, CopyReason.routeResend]
        using hresends
    · intro hsettled
      rw [launch, withCall] at hsettled
      exact absurd hsettled (by simp [hopen])
  · obtain rfl := Option.some.inj htake
    have hunused : s.call.routeResendUsed = false := by simpa using hused
    rw [hunused] at hcopies hresends
    refine ⟨htransport, ?_, ?_, h.open_settlements, h.settled_settlements, ?_, h.timer_retry⟩
    · simp only [launch, withCall, List.length_append, List.length_singleton, Bool.toNat_true]
      simp only [Bool.toNat_false] at hcopies
      omega
    · have hnone : [(⟨planned, false, true, false, .transport copy, state⟩ : Attempt)].countP
          (fun attempt => attempt.reason.routeResend.isSome) = 0 := rfl
      rw [Bool.toNat_false, Call.routeResends] at hresends
      rw [Call.routeResends, launch, withCall, List.countP_append]
      exact (Nat.add_le_add hresends hnone.le).trans (Nat.zero_le _)
    · intro hsettled
      rw [launch, withCall] at hsettled
      exact absurd hsettled (by simp [hopen])

/-- A copy launched with the one resend for a timeout, a lost reply or a hedge. -/
theorem bounded_launchRouteResend (h : s.call.Bounded) (hopen : s.call.settled = false)
    (hunused : s.call.routeResendUsed = false) (state : PlanState) (planned : PlannedRoute)
    (reason : CopyReason) : (s.launchRouteResend state planned reason).call.Bounded := by
  have hcopies := h.copies_le
  have hresends := h.resends_le
  rw [hunused] at hcopies hresends
  refine ⟨h.transport_le, ?_, ?_, h.open_settlements, h.settled_settlements, ?_, h.timer_retry⟩
  · simp only [launchRouteResend, launch, withCall, List.length_append, List.length_singleton,
      Bool.toNat_true]
    simp only [Bool.toNat_false] at hcopies
    omega
  · have hone : [(⟨planned, reason.isHedge, true, false, reason, state⟩ : Attempt)].countP
        (fun attempt => attempt.reason.routeResend.isSome) ≤ 1 := List.countP_le_length
    simp only [launchRouteResend, launch, withCall, Call.routeResends, List.countP_append,
      Bool.toNat_true]
    simp only [Bool.toNat_false, Call.routeResends] at hresends
    omega
  · intro hsettled
    rw [launchRouteResend, launch, withCall] at hsettled
    exact absurd hsettled (by simp [hopen])

end Local

section Steps

variable {settings : Settings} {moment : Moment} {event : CallEvent} {s s' : Local}

/-- Each effect keeps the bounds: a copy is launched only while fewer than two are there. -/
theorem Effect.bounded (heffect : Effect settings moment event s s') (h : s.call.Bounded) :
    s'.call.Bounded := by
  cases heffect with
  | nothing _ _ => exact h
  | late _ => exact h
  | resolve copy _ hopen => exact h.finish _ hopen
  | rejectIdle copy error _ hopen _ => exact h.finish _ hopen
  | rejectAtOnce copy error _ hopen _ => exact h.finish _ hopen
  | transport copy error attempt planned call _ hopen _ _ _ _ _ htake =>
    exact Local.bounded_launch_transport h hopen htake _ _
  | route copy attempt planned reason _ hopen hunused _ _ _ =>
    exact Local.bounded_launchRouteResend h hopen hunused _ _ _

/-- The copy that ends at an event. -/
theorem exists_live_of_enabled {copy : ℕ}
    (henabled : s.call.attempts[copy]?.any Attempt.live = true) :
    ∃ attempt, s.call.attempts[copy]? = some attempt ∧ attempt.live = true := by
  simpa [Option.any_eq_true] using henabled

/-- What an event does before its handler keeps the bounds. -/
theorem bounded_before (h : s.call.Bounded) (henabled : event.enabled s.call = true) :
    (s.before event).call.Bounded := by
  have hend : ∀ copy, s.call.attempts[copy]?.any Attempt.live = true →
      (s.endCopy copy).call.Bounded := fun copy hcopy => by
    obtain ⟨attempt, hattempt, hlive⟩ := exists_live_of_enabled hcopy
    exact Local.bounded_endCopy h hattempt hlive
  cases event with
  | success copy => exact hend copy henabled
  | failure copy error => exact hend copy henabled
  | lost copy => exact h
  | hedgeTimer => exact { h with timer_retry := nofun }
  | abort => exact { h with }

/-- A call that has not settled has a live copy. -/
def Call.Waiting (call : Call) : Prop := call.settled = false → call.anyLive = true

/-- An open call has a live copy or a timer after each effect, so it can still settle. -/
theorem Effect.waiting (heffect : Effect settings moment event (s.before event) s')
    (h : s.call.Waiting) : s'.call.Waiting := by
  have hlaunch : ∀ (s : Local) (state : PlanState) (planned : PlannedRoute) (reason : CopyReason),
      (s.launch state planned reason).call.anyLive = true := by
    intro s state planned reason
    simp [Local.launch, Call.anyLive]
  have hfinish : ∀ (call : Call) (outcome : Outcome), call.settled = false →
      (call.finish outcome).Waiting := by
    intro call outcome hopen hsettled
    rw [Call.finish_of_open outcome hopen] at hsettled
    cases hsettled
  cases heffect with
  | nothing hsuccess hfailure =>
    intro hopen
    cases event with
    | success copy => exact absurd rfl (hsuccess copy)
    | failure copy error =>
      rcases hfailure copy error rfl with hsettled | hlive
      · rw [hsettled] at hopen
        cases hopen
      · exact hlive
    | lost copy => exact h hopen
    | hedgeTimer => exact h hopen
    | abort => exact h hopen
  | late hsettled =>
    intro hopen
    rw [hsettled] at hopen
    cases hopen
  | resolve copy _ hopen => exact hfinish _ _ hopen
  | rejectIdle copy error _ hopen _ => exact hfinish _ _ hopen
  | rejectAtOnce copy error _ hopen _ => exact hfinish _ _ hopen
  | transport copy error attempt planned call => exact fun _ => hlaunch _ _ _ _
  | route copy attempt planned reason => exact fun _ => hlaunch _ _ _ _

/-! ### The hedges in flight -/

/-- The hedges in flight are the live hedge copies of the call and `rest` of the other calls. -/
def Local.Balanced (rest : ℕ) (s : Local) : Prop := s.hedgesInFlight = rest + s.call.liveHedges

/-- The copy that ends gives back what it counted for. -/
theorem Local.Balanced.endCopy {rest copy : ℕ} (h : s.Balanced rest) {attempt : Attempt}
    (hattempt : s.call.attempts[copy]? = some attempt) (hlive : attempt.live = true) :
    (s.endCopy copy).Balanced rest := by
  obtain ⟨hlt, hget⟩ := List.getElem?_eq_some_iff.mp hattempt
  rw [Local.Balanced, Call.liveHedges] at h
  rw [endCopy_of_live hattempt hlive, Local.Balanced, Call.liveHedges,
    List.countP_set hlt, hget]
  cases hhedge : attempt.hedge with
  | false => simpa [hhedge] using h
  | true =>
    -- the copy that ends is counted, so neither subtraction is cut off at zero
    have hpos : 0 < s.call.attempts.countP fun attempt => attempt.hedge && attempt.live :=
      List.countP_pos_iff.mpr ⟨attempt, List.mem_of_getElem? hattempt, by simp [hhedge, hlive]⟩
    simp only [if_true, hlive, Bool.and_self, Bool.and_false, Bool.false_eq_true, if_false]
    omega

/-- A copy that is launched counts for one more. -/
theorem Local.Balanced.launch {rest : ℕ} (h : s.Balanced rest) (state : PlanState)
    (planned : PlannedRoute) (reason : CopyReason) :
    (s.launch state planned reason).Balanced rest := by
  rw [Local.Balanced, Call.liveHedges] at h
  rw [Local.Balanced, Local.launch, Call.liveHedges, List.countP_append, h]
  cases hhedge : reason.isHedge <;> simp [Nat.add_assoc]

/-- Finishing a call counts nothing. -/
theorem Local.Balanced.finish {rest : ℕ} (h : s.Balanced rest) (outcome : Outcome) :
    (s.withCall (s.call.finish outcome)).Balanced rest := by
  have hcount : (s.call.finish outcome).liveHedges = s.call.liveHedges := by
    rw [Call.finish]
    split_ifs with hsettled
    · rfl
    · rw [Call.liveHedges, Call.liveHedges, List.countP_map]
      congr 1
      funext attempt
      rw [Function.comp_apply]
      split_ifs <;> rfl
  rw [Local.Balanced] at h
  rw [Local.Balanced, Local.withCall, hcount, h]

/-- Each effect keeps the count of copies in balance with the copies of the call. -/
theorem Effect.balanced {rest : ℕ} (heffect : Effect settings moment event s s')
    (h : s.Balanced rest) : s'.Balanced rest := by
  cases heffect with
  | nothing _ _ => exact h
  | late _ => exact h
  | resolve copy _ _ => exact h.finish _
  | rejectIdle copy error _ _ _ => exact h.finish _
  | rejectAtOnce copy error _ _ _ => exact h.finish _
  | transport copy error attempt planned call _ _ _ _ _ _ _ htake =>
    have hcall : (s.withCall call).Balanced rest := by
      rw [Call.takeTransportResend] at htake
      split_ifs at htake <;> obtain rfl := Option.some.inj htake <;> exact h
    exact hcall.launch _ _ _
  | route copy attempt planned reason _ _ _ _ _ _ =>
    have hcall : (s.withCall { s.call with routeResendUsed := true }).Balanced rest := h
    exact hcall.launch _ _ _

/-- What an event does before its handler keeps the balance. -/
theorem balanced_before {rest : ℕ} (h : s.Balanced rest) (henabled : event.enabled s.call = true) :
    (s.before event).Balanced rest := by
  have hend : ∀ copy, s.call.attempts[copy]?.any Attempt.live = true →
      (s.endCopy copy).Balanced rest := fun copy hcopy => by
    obtain ⟨attempt, hattempt, hlive⟩ := exists_live_of_enabled hcopy
    exact h.endCopy hattempt hlive
  cases event with
  | success copy => exact hend copy henabled
  | failure copy error => exact hend copy henabled
  | lost copy => exact h
  | hedgeTimer => exact h
  | abort => exact h

/-! ### A call that has settled -/

/-- What later events keep of a call that has settled. -/
structure Call.SettledAs (call later : Call) : Prop where
  settled : later.settled = true
  planned : later.attempts.map Attempt.planned = call.attempts.map Attempt.planned
  settlements : later.settlements = call.settlements

/-- A settled call keeps its outcome, whatever event comes for it. -/
theorem settledAs_before (h : s.call.settled = true) (henabled : event.enabled s.call = true) :
    s.call.SettledAs (s.before event).call := by
  have hend : ∀ copy, s.call.attempts[copy]?.any Attempt.live = true →
      s.call.SettledAs (s.endCopy copy).call := fun copy hcopy => by
    obtain ⟨attempt, hattempt, hlive⟩ := exists_live_of_enabled hcopy
    obtain ⟨hlt, hget⟩ := List.getElem?_eq_some_iff.mp hattempt
    rw [endCopy_of_live hattempt hlive]
    refine ⟨h, ?_, rfl⟩
    -- the entry is set to itself: the mark `live` is no part of the plan
    have hlt' : copy < (s.call.attempts.map Attempt.planned).length := by simpa using hlt
    have hplanned : attempt.planned = (s.call.attempts.map Attempt.planned)[copy] := by
      rw [List.getElem_map, hget]
    rw [List.map_set, hplanned]
    exact List.set_getElem_self hlt'
  cases event with
  | success copy => exact hend copy henabled
  | failure copy error => exact hend copy henabled
  | lost copy => exact ⟨h, rfl, rfl⟩
  | hedgeTimer => exact ⟨h, rfl, rfl⟩
  | abort => exact ⟨h, rfl, rfl⟩

/-- A settled call launches nothing and does not settle again. -/
theorem Effect.eq_of_settled (heffect : Effect settings moment event s s')
    (h : s.call.settled = true) : s' = s := by
  have hopen : s.call.settled ≠ false := by simp [h]
  cases heffect with
  | nothing _ _ => rfl
  | late _ => rfl
  | resolve copy _ hfalse => exact absurd hfalse hopen
  | rejectIdle copy error _ hfalse _ => exact absurd hfalse hopen
  | rejectAtOnce copy error _ hfalse _ => exact absurd hfalse hopen
  | transport copy error attempt planned call _ hfalse => exact absurd hfalse hopen
  | route copy attempt planned reason _ hfalse => exact absurd hfalse hopen

/-! ### A call that waits for its copies -/

/-- A call was not rejected for a transport failure or a timeout while a copy was live. -/
def Call.Patient (call : Call) : Prop :=
  ∀ settlement ∈ call.settlements, ∀ error, settlement.outcome = .rejected error →
    settlement.copyLive = true → isTransportFailure error = false ∧ isResponseTimeout error = false

/-- A call stays patient when it settles, unless it rejects with a failure while a copy lives. -/
theorem Call.Patient.finish {call : Call} (h : call.Patient) {outcome : Outcome}
    (hopen : call.settled = false)
    (houtcome : ∀ error, outcome = .rejected error → call.anyLive = true →
      isTransportFailure error = false ∧ isResponseTimeout error = false) :
    (call.finish outcome).Patient := by
  rw [Call.finish_of_open outcome hopen]
  intro settlement hmem
  rcases List.mem_append.mp hmem with hmem | hmem
  · exact h settlement hmem
  · rw [List.mem_singleton.mp hmem]
    exact houtcome

end Steps

end NoxSdk.Client
