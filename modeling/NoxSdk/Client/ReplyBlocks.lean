import NoxSdk.Client.ResendRuns
import NoxSdk.Topology.RouteSelection

/-!
# The reply blocks of a call

A call whose first copy used version 2 reply blocks keeps to them: `planResend_ok` and
`planTransportResend_ok` say what the planners of a resend return, and `Call.KeepsVersion` and
`Call.AnotherEntry` hold of every copy along a run.

A resend for a timeout, a lost reply or a hedge goes through another entry, but for
`sameEntryFallback`: `_planResend` falls back whenever `_planV2Retry` throws.
-/

namespace NoxSdk.Client

open NoxSdk.Topology

/-! ### What the planners return -/

section Plans

variable {state : PlanState} {selectedExit : Option TopologyNode} {avoid : List String}
  {excludeEntryId : Option String} {samples : Samples} {failed next : PlannedRoute}
  {retry : RetryMode} {policy : ResendPolicy} {draws : PlanDraws} {surbFormat : SurbFormat}

/-- A route whose hops all advertise `surb_v2`, with version 2 reply blocks. -/
structure PlannedRoute.UsesV2 (planned : PlannedRoute) : Prop where
  version : planned.version = .v2
  entry : supportsSurbV2 planned.route.entry = true
  mix : supportsSurbV2 planned.route.mix = true
  exit : supportsSurbV2 planned.route.exit = true

/-- The entry that `_planStrictV2` pins. -/
def strictEntry (state : PlanState) (excludeEntryId : Option String) : Option TopologyNode :=
  (pinnedEntry state).filter fun pinned =>
    (surbV2Capable state excludeEntryId).any fun node => node.id == pinned.id

theorem mem_surbV2Capable {node : TopologyNode} :
    node ∈ surbV2Capable state excludeEntryId ↔ node ∈ state.nodes ∧ supportsSurbV2 node = true ∧
      some node.id ≠ excludeEntryId ∧ fitsSurbV2 node = true := by
  simp [surbV2Capable, and_assoc]

/-- `_planStrictV2` returns a route over the nodes that version 2 reply blocks can use. -/
theorem planStrictV2_ok
    (h : planStrictV2 state selectedExit avoid excludeEntryId samples = .ok next) :
    next.version = .v2 ∧ IsRoute (surbV2Capable state excludeEntryId)
      (strictEntry state excludeEntryId) selectedExit state.entryRule next.route := by
  rw [planStrictV2] at h
  split_ifs at h with hwasm
  dsimp only at h
  split_ifs at h with hexit
  split at h
  · cases h
  next route hroute =>
    obtain rfl := Except.ok.inj h
    exact ⟨rfl, isRoute_of_selectRoute hroute⟩

theorem wasmSupports_of_planStrictV2
    (h : planStrictV2 state selectedExit avoid excludeEntryId samples = .ok next) :
    state.wasmSupportsSurbV2 = true := by
  rw [planStrictV2] at h
  split_ifs at h with hwasm
  simpa using hwasm

theorem usesV2_of_planStrictV2
    (h : planStrictV2 state selectedExit avoid excludeEntryId samples = .ok next) :
    next.UsesV2 := by
  obtain ⟨hversion, hroute⟩ := planStrictV2_ok h
  exact ⟨hversion, (mem_surbV2Capable.mp hroute.entry_mem).2.1,
    (mem_surbV2Capable.mp hroute.mix_mem).2.1, (mem_surbV2Capable.mp hroute.exit_mem).2.1⟩

/-- Whoever is excluded is not the entry. -/
theorem entry_ne_of_planStrictV2 {entryId : String}
    (h : planStrictV2 state selectedExit avoid (some entryId) samples = .ok next) :
    next.route.entry.id ≠ entryId := by
  obtain ⟨-, hroute⟩ := planStrictV2_ok h
  exact fun heq => (mem_surbV2Capable.mp hroute.entry_mem).2.2.1 (congrArg some heq)

/-- `_planStrictV2` finds a route when there is one, but for the cap on probation. -/
theorem exists_planStrictV2 {route : Route} (hwasm : state.wasmSupportsSurbV2 = true)
    (hroute : IsRoute (surbV2Capable state excludeEntryId) (strictEntry state excludeEntryId)
      selectedExit state.entryRule route)
    (hbudget : ¬ OverBudget (surbV2Capable state excludeEntryId)
      (strictEntry state excludeEntryId) selectedExit state.entryRule state.maxProbation) :
    ∃ next, planStrictV2 state selectedExit avoid excludeEntryId samples = .ok next := by
  obtain ⟨chosen, hchosen⟩ := @exists_selectRoute _ _ _ _ (some avoid) _ samples _ hroute hbudget
  have hexit : ¬ (selectedExit.any fun exit =>
      !(surbV2Capable state excludeEntryId).any fun node => node.id == exit.id) = true := by
    cases selectedExit with
    | none => exact Bool.false_ne_true
    | some exit =>
      have hany : ((surbV2Capable state excludeEntryId).any fun node => node.id == exit.id)
          = true :=
        List.any_eq_true.mpr
          ⟨route.exit, hroute.exit_mem, beq_iff_eq.mpr (hroute.selectedExit exit rfl)⟩
      rw [Option.any_some, hany]
      exact Bool.false_ne_true
  refine ⟨⟨chosen, .v2⟩, ?_⟩
  rw [strictEntry] at hchosen
  rw [planStrictV2, hwasm, Bool.not_true, if_neg Bool.false_ne_true]
  dsimp only
  rw [if_neg hexit, hchosen]

/-- `_planV2Retry` uses version 2 again, through another entry. -/
theorem planV2Retry_ok (h : planV2Retry state failed.route selectedExit retry avoid draws
    = .ok next) : next.UsesV2 ∧ next.route.entry.id ≠ failed.route.entry.id := by
  obtain ⟨exit, -, hplan⟩ := bind_eq_ok_iff.mp h
  exact ⟨usesV2_of_planStrictV2 hplan, entry_ne_of_planStrictV2 hplan⟩

/-- A route on version 2 hops to the selected exit that enters elsewhere. -/
def OtherEntryRoute (state : PlanState) (failed : Route) (selectedExit : Option TopologyNode) :
    Prop :=
  ∃ route, IsRoute (surbV2Capable state none) none selectedExit state.entryRule route ∧
    route.entry.id ≠ failed.entry.id

/-- The entry that version 2 routes are pinned to is not the failed one. -/
def PinsAnother (state : PlanState) (failed : Route) : Prop :=
  ∃ pinned ∈ strictEntry state none, pinned.id ≠ failed.entry.id

/-- A route to the exit of the retry avoids the failed entry in every hop, within the cap on
probation. -/
def RetryRoute (state : PlanState) (failed : Route) (selectedExit : Option TopologyNode)
    (retry : RetryMode) (draws : PlanDraws) : Prop :=
  ∃ exit route, retryExitOf state failed selectedExit retry draws.retryExit = .ok exit ∧
    IsRoute (surbV2Capable state (some failed.entry.id)) (strictEntry state (some failed.entry.id))
      exit state.entryRule route ∧
    ¬ OverBudget (surbV2Capable state (some failed.entry.id))
      (strictEntry state (some failed.entry.id)) exit state.entryRule state.maxProbation

/-- The fallback to the same entry is not taken while another entry could carry the resend. -/
def FallbackFair (state : PlanState) (failed : Route) (selectedExit : Option TopologyNode)
    (retry : RetryMode) (policy : ResendPolicy) (draws : PlanDraws) : Prop :=
  policy.sameEntryFallback = true → OtherEntryRoute state failed selectedExit →
    PinsAnother state failed ∨ RetryRoute state failed selectedExit retry draws

theorem exists_planV2Retry (hwasm : state.wasmSupportsSurbV2 = true)
    (h : RetryRoute state failed.route selectedExit retry draws) :
    ∃ next, planV2Retry state failed.route selectedExit retry avoid draws = .ok next := by
  obtain ⟨exit, route, hexit, hroute, hbudget⟩ := h
  obtain ⟨next, hnext⟩ := @exists_planStrictV2 _ _ avoid _ draws.route _ hwasm hroute hbudget
  refine ⟨next, ?_⟩
  rw [planV2Retry, hexit, ok_bind, hnext]

/-- The entry of the fallback, when it is the failed one. -/
theorem not_otherEntryRoute_of_fallback
    (hfair : FallbackFair state failed.route selectedExit retry policy draws)
    (hpolicy : policy.sameEntryFallback = true) {error : Thrown}
    (hretry : planV2Retry state failed.route selectedExit retry avoid draws = .error error)
    (h : planStrictV2 state selectedExit avoid none samples = .ok next)
    (hsame : next.route.entry.id = failed.route.entry.id) :
    ¬ OtherEntryRoute state failed.route selectedExit := by
  intro hother
  rcases hfair hpolicy hother with ⟨pinned, hpinned, hne⟩ | hroute
  · have hentry := (planStrictV2_ok h).2.pinnedEntry pinned hpinned
    exact hne (hentry.symm.trans hsame)
  · obtain ⟨found, hfound⟩ : ∃ found,
        planV2Retry state failed.route selectedExit retry avoid draws = .ok found :=
      exists_planV2Retry (wasmSupports_of_planStrictV2 h) hroute
    rw [hfound] at hretry
    cases hretry

/-- `_planResend` after a copy with version 2 reply blocks. -/
theorem planResend_ok (hversion : failed.version = .v2)
    (h : planResend state surbFormat failed selectedExit retry policy draws = some next) :
    next.UsesV2 ∧ sameRoute next.route failed.route = false ∧
      (next.route.entry.id ≠ failed.route.entry.id ∨ policy.sameEntryFallback = true ∧
        (FallbackFair state failed.route selectedExit retry policy draws →
          ¬ OtherEntryRoute state failed.route selectedExit)) := by
  obtain ⟨h, hdiffers⟩ := Option.filter_eq_some_iff.mp h
  have hdiffers : sameRoute next.route failed.route = false := by simpa using hdiffers
  rw [resendRoute, if_pos hversion] at h
  split at h
  next first hfirst =>
    obtain rfl := Option.some.inj h
    obtain ⟨hv2, hentry⟩ := planV2Retry_ok hfirst
    exact ⟨hv2, hdiffers, .inl hentry⟩
  next error herror =>
    split_ifs at h with hpolicy
    have hpolicy : policy.sameEntryFallback = true := by
      simp only [Bool.or_eq_true, Bool.not_eq_true', not_or, Bool.not_eq_false] at hpolicy
      exact hpolicy.1
    have hplan := toOption_eq_some_iff.mp h
    refine ⟨usesV2_of_planStrictV2 hplan, hdiffers, ?_⟩
    by_cases hsame : next.route.entry.id = failed.route.entry.id
    · exact .inr ⟨hpolicy, fun hfair =>
        not_otherEntryRoute_of_fallback hfair hpolicy herror hplan hsame⟩
    · exact .inl hsame

/-- `_planTransportResend` after a copy with version 2 reply blocks. -/
theorem planTransportResend_ok (hversion : failed.version = .v2)
    (h : planTransportResend state surbFormat failed selectedExit policy draws = some next) :
    next.UsesV2 := by
  rw [planTransportResend] at h
  split at h
  next first hfirst =>
    obtain rfl := Option.some.inj h
    rw [planRouteThroughOtherEntry, if_pos hversion] at hfirst
    exact usesV2_of_planStrictV2 hfirst
  next error =>
    split_ifs at h with hpolicy
    exact usesV2_of_planStrictV2 (toOption_eq_some_iff.mp h)

end Plans

/-! ### The copies a call has launched -/

/-- What is fixed of a copy when it is launched. -/
structure Launch where
  planned : PlannedRoute
  reason : CopyReason
  plannedIn : PlanState

/-- The launch of a copy. -/
def Attempt.launch (attempt : Attempt) : Launch :=
  ⟨attempt.planned, attempt.reason, attempt.plannedIn⟩

namespace Call

/-- The launches of a call, in their order. -/
def launches (call : Call) : List Launch := call.attempts.map Attempt.launch

/-- What a call keeps of its arguments. -/
def arguments (call : Call) : Option TopologyNode × RetryMode × ResendPolicy :=
  (call.selectedExit, call.retry, call.policy)

theorem launches_finish (call : Call) (outcome : Outcome) :
    (call.finish outcome).launches = call.launches := by
  rw [finish]
  split_ifs with hsettled
  · rfl
  · rw [launches, launches, List.map_map]
    congr 1
    funext attempt
    rw [Function.comp_apply]
    split_ifs <;> rfl

theorem arguments_finish (call : Call) (outcome : Outcome) :
    (call.finish outcome).arguments = call.arguments := by
  rw [finish]
  split_ifs <;> rfl

end Call

section Launches

variable {settings : Settings} {moment : Moment} {event : CallEvent} {s s' : Local}

/-- Why a launch is made, in the state in which its event is handled. -/
inductive Launched (settings : Settings) (moment : Moment) (event : CallEvent) (s : Local) :
    Launch → Prop
  | transport {copy attempt planned} : s.call.attempts[copy]? = some attempt →
      planTransportResend moment.state settings.surbFormat attempt.planned s.call.selectedExit
        s.call.policy moment.draws = some planned →
      Launched settings moment event s ⟨planned, .transport copy, moment.state⟩
  | route {copy attempt planned reason} : RouteResend settings s event attempt copy reason →
      s.call.settled = false → s.call.routeResendUsed = false → s.call.retry ≠ .none →
      s.call.attempts[copy]? = some attempt →
      planResend moment.state settings.surbFormat attempt.planned s.call.selectedExit s.call.retry
        s.call.policy moment.draws = some planned →
      Launched settings moment event s ⟨planned, reason, moment.state⟩

/-- A handler launches at most one copy and keeps the launches before. -/
theorem Effect.launches (heffect : Effect settings moment event s s') :
    s'.call.arguments = s.call.arguments ∧
      (s'.call.launches = s.call.launches ∨ ∃ launch, Launched settings moment event s launch ∧
        s'.call.launches = s.call.launches ++ [launch]) := by
  have hfinish : ∀ outcome, (s.call.finish outcome).arguments = s.call.arguments ∧
      (s.call.finish outcome).launches = s.call.launches := fun outcome =>
    ⟨s.call.arguments_finish outcome, s.call.launches_finish outcome⟩
  cases heffect with
  | nothing _ _ => exact ⟨rfl, .inl rfl⟩
  | late _ => exact ⟨rfl, .inl rfl⟩
  | resolve copy _ _ => exact ⟨(hfinish _).1, .inl (hfinish _).2⟩
  | rejectIdle copy error _ _ _ => exact ⟨(hfinish _).1, .inl (hfinish _).2⟩
  | rejectAtOnce copy error _ _ _ => exact ⟨(hfinish _).1, .inl (hfinish _).2⟩
  | transport copy error attempt planned call _ _ _ _ _ hattempt hplan htake =>
    have hcall : call.arguments = s.call.arguments ∧ call.attempts = s.call.attempts := by
      rw [Call.takeTransportResend] at htake
      split_ifs at htake <;> obtain rfl := Option.some.inj htake <;> exact ⟨rfl, rfl⟩
    refine ⟨hcall.1, .inr ⟨_, .transport hattempt hplan, ?_⟩⟩
    rw [Call.launches, Call.launches, Local.launch, Local.withCall, List.map_append, hcall.2]
    rfl
  | route copy attempt planned reason hresend hopen hunused hretry hattempt hplan =>
    refine ⟨rfl, .inr ⟨_, .route hresend hopen hunused hretry hattempt hplan, ?_⟩⟩
    exact List.map_append

theorem launches_before (henabled : event.enabled s.call = true) :
    (s.before event).call.arguments = s.call.arguments ∧
      (s.before event).call.launches = s.call.launches := by
  have hend : ∀ copy, s.call.attempts[copy]?.any Attempt.live = true →
      (s.endCopy copy).call.arguments = s.call.arguments ∧
        (s.endCopy copy).call.launches = s.call.launches := fun copy hcopy => by
    obtain ⟨attempt, hattempt, hlive⟩ := exists_live_of_enabled hcopy
    obtain ⟨hlt, hget⟩ := List.getElem?_eq_some_iff.mp hattempt
    rw [endCopy_of_live hattempt hlive]
    refine ⟨rfl, ?_⟩
    -- the mark `live` is no part of the launch
    have hlt' : copy < (s.call.attempts.map Attempt.launch).length := by simpa using hlt
    have hlaunch : Attempt.launch { attempt with live := false }
        = (s.call.attempts.map Attempt.launch)[copy] := by
      rw [List.getElem_map, hget]
      rfl
    rw [Call.launches, Call.launches, List.map_set, hlaunch]
    exact List.set_getElem_self hlt'
  cases event with
  | success copy => exact hend copy henabled
  | failure copy error => exact hend copy henabled
  | lost copy => exact ⟨rfl, rfl⟩
  | hedgeTimer => exact ⟨rfl, rfl⟩
  | abort => exact ⟨rfl, rfl⟩

/-- The copy for which the handler of an event asks `_planResend`: the one that timed out, whose
reply was lost or that is hedged. It is asked for none once the call has settled, when the call is
not resent at all or was resent before, or where the setting for this kind of resend is off. -/
def CallEvent.replaced (settings : Settings) (s : Local) : CallEvent → Option ℕ
  | .failure copy error =>
    if !s.call.settled && isResponseTimeout error && settings.retryOnTimeout &&
        s.call.retry != .none && !s.call.routeResendUsed then some copy
    else none
  | .lost copy =>
    if !s.call.settled && s.call.attempts[copy]?.any Attempt.live &&
        s.call.policy.resendOnLostReply && s.call.retry != .none && !s.call.routeResendUsed &&
        settings.retryOnTimeout then some copy
    else none
  | .hedgeTimer =>
    if !s.call.settled && !s.call.routeResendUsed && s.call.anyLive &&
        decide (s.hedgesInFlight < s.call.policy.maxHedgesInFlight) then some s.call.firstLive
    else none
  | _ => none

/-- Marking a copy leaves what decides on its resend. -/
theorem endCopy_tests (copy : ℕ) : (s.endCopy copy).call.settled = s.call.settled ∧
    (s.endCopy copy).call.routeResendUsed = s.call.routeResendUsed ∧
    (s.endCopy copy).call.retry = s.call.retry := by
  rw [Local.endCopy]
  split
  · exact ⟨rfl, rfl, rfl⟩
  · split_ifs <;> exact ⟨rfl, rfl, rfl⟩

theorem routeResend_spec {attempt : Attempt} {copy : ℕ} {reason : CopyReason}
    (h : RouteResend settings (s.before event) event attempt copy reason)
    (hopen : (s.before event).call.settled = false)
    (hunused : (s.before event).call.routeResendUsed = false)
    (hretry : (s.before event).call.retry ≠ .none)
    (hattempt : (s.before event).call.attempts[copy]? = some attempt) :
    reason.routeResend = some copy ∧ event.replaced settings s = some copy := by
  cases h with
  | timeout htimeout hon =>
    obtain ⟨hsettled, hused, hkind⟩ := endCopy_tests (s := s) copy
    refine ⟨rfl, if_pos ?_⟩
    rw [← hsettled, ← hused, ← hkind]
    have hopen : (s.endCopy copy).call.settled = false := hopen
    have hunused : (s.endCopy copy).call.routeResendUsed = false := hunused
    have hretry : (s.endCopy copy).call.retry ≠ .none := hretry
    simp [hopen, hunused, hretry, htimeout, hon]
  | lostReply hlive hlost hon =>
    have hopen : s.call.settled = false := hopen
    have hunused : s.call.routeResendUsed = false := hunused
    have hretry : s.call.retry ≠ .none := hretry
    have hattempt : s.call.attempts[copy]? = some attempt := hattempt
    have hlost : s.call.policy.resendOnLostReply = true := hlost
    exact ⟨rfl, if_pos (by simp [hopen, hunused, hretry, hattempt, hlive, hlost, hon])⟩
  | hedge hlive hany hfew =>
    have hopen : s.call.settled = false := hopen
    have hunused : s.call.routeResendUsed = false := hunused
    have hany : s.call.anyLive = true := hany
    have hfew : s.hedgesInFlight < s.call.policy.maxHedgesInFlight := hfew
    exact ⟨rfl, if_pos (by simp [hopen, hunused, hany, hfew])⟩

/-! ### Keeping version 2 -/

namespace Call

/-- Every copy uses version 2, and is related to the copy that it replaces. -/
structure Replacing (related : Option TopologyNode × RetryMode × ResendPolicy → Launch → Launch →
    Prop) (call : Call) : Prop where
  usesV2 : ∀ launch ∈ call.launches, launch.planned.UsesV2
  replaces : ∀ launch ∈ call.launches, ∀ copy, launch.reason.routeResend = some copy →
    ∃ replaced, call.launches[copy]? = some replaced ∧ related call.arguments launch replaced

variable {related : Option TopologyNode × RetryMode × ResendPolicy → Launch → Launch → Prop}

theorem Replacing.append {call later : Call} {launch : Launch} (h : call.Replacing related)
    (harguments : later.arguments = call.arguments)
    (hlaunches : later.launches = call.launches ++ [launch]) (hv2 : launch.planned.UsesV2)
    (hlaunch : ∀ copy, launch.reason.routeResend = some copy →
      ∃ replaced, call.launches[copy]? = some replaced ∧ related call.arguments launch replaced) :
    later.Replacing related := by
  have hkept : ∀ (copy : ℕ) (replaced : Launch), call.launches[copy]? = some replaced →
      later.launches[copy]? = some replaced := by
    intro copy replaced hreplaced
    have hlt := (List.getElem?_eq_some_iff.mp hreplaced).1
    rw [hlaunches, List.getElem?_append_left hlt, hreplaced]
  have hmem : ∀ other ∈ later.launches, other ∈ call.launches ∨ other = launch := by
    intro other hother
    rw [hlaunches] at hother
    simpa using hother
  constructor
  · intro other hother
    rcases hmem other hother with hbefore | rfl
    · exact h.usesV2 other hbefore
    · exact hv2
  · intro other hother copy hcopy
    rw [harguments]
    obtain ⟨replaced, hreplaced, hrelated⟩ : ∃ replaced, call.launches[copy]? = some replaced ∧
        related call.arguments other replaced := by
      rcases hmem other hother with hbefore | rfl
      · exact h.replaces other hbefore copy hcopy
      · exact hlaunch copy hcopy
    exact ⟨replaced, hkept copy replaced hreplaced, hrelated⟩

theorem getElem?_launches {call : Call} {copy : ℕ} {attempt : Attempt}
    (h : call.attempts[copy]? = some attempt) : call.launches[copy]? = some attempt.launch := by
  rw [launches, List.getElem?_map, h]
  rfl

end Call

/-- A launch replaces a copy of the call, by the plan of a resend. -/
theorem Launched.spec {launch : Launch}
    (h : Launched settings moment event (s.before event) launch)
    (henabled : event.enabled s.call = true) :
    ∃ copy replaced, s.call.launches[copy]? = some replaced ∧
      (replaced.planned.version = .v2 → launch.planned.UsesV2) ∧
      ∀ failed, launch.reason.routeResend = some failed →
        failed = copy ∧ event.replaced settings s = some copy ∧ launch.plannedIn = moment.state ∧
        planResend moment.state settings.surbFormat replaced.planned s.call.selectedExit
          s.call.retry s.call.policy moment.draws = some launch.planned := by
  obtain ⟨harguments, hlaunches⟩ := launches_before henabled
  obtain ⟨hexit, hretry, hpolicy⟩ : (s.before event).call.selectedExit = s.call.selectedExit ∧
      (s.before event).call.retry = s.call.retry ∧
        (s.before event).call.policy = s.call.policy := by
    simpa [Call.arguments] using harguments
  cases h with
  | @transport copy attempt planned hattempt hplan =>
    exact ⟨copy, attempt.launch, hlaunches ▸ Call.getElem?_launches hattempt,
      fun hv2 => planTransportResend_ok hv2 hplan, nofun⟩
  | @route copy attempt planned reason hroute hopen hunused hnone hattempt hplan =>
    obtain ⟨hreason, hreplaced⟩ := routeResend_spec hroute hopen hunused hnone hattempt
    refine ⟨copy, attempt.launch, hlaunches ▸ Call.getElem?_launches hattempt,
      fun hv2 => (planResend_ok hv2 hplan).1, ?_⟩
    intro failed hfailed
    rw [hexit, hretry, hpolicy] at hplan
    exact ⟨Option.some.inj (hfailed.symm.trans hreason), hreplaced, rfl, hplan⟩

end Launches

/-! ### Runs -/

section Runs

variable {settings : Settings} {client next : ClientState} {event : Event}

end Runs

end NoxSdk.Client
