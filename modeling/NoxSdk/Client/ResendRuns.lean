import NoxSdk.Client.ResendEffects
import NoxSdk.Lib.Runs
import Mathlib.Algebra.BigOperators.Group.List.Basic

/-!
# Runs of the calls of a client

`ClientState.Invariant` holds in every state that a connected client can be in.

`sendWithRetry_bounded`: in every reachable state a call has launched at most
`2 + transportResends` copies, at most one of them for a timeout, a lost reply or a hedge; it has
settled at most once, and exactly once when no copy is live.
-/

namespace NoxSdk.Client

open NoxSdk.Topology

/-! ### The start of a call -/

section Start

variable {settings : Settings} {moment : Moment} {params : CallParams} {hedges : ℕ} {s : Local}

/-- The state of a call that has launched its first copy. -/
theorem startCall_eq (h : startCall settings moment params hedges = .ok s) :
    ∃ first call, planRoute moment.state settings.surbFormat params.selectedExit
        moment.state.avoidedNodeIds params.entry moment.draws.route = .ok first ∧
      s = (Local.mk call hedges).launch moment.state first .first ∧ call.attempts = [] ∧
      call.settled = false ∧ call.settlements = [] ∧ call.routeResendUsed = false ∧
      call.transportLeft = call.policy.transportResends ∧ call.policy = params.policy ∧
      call.retry = params.retry ∧ call.selectedExit = params.selectedExit ∧
      (call.hedgeTimer = true → call.retry ≠ .none) := by
  rw [startCall] at h
  obtain ⟨first, hplan, h⟩ := bind_eq_ok_iff.mp h
  refine ⟨first, _, hplan, (Except.ok.inj h).symm, rfl, rfl, rfl, rfl, rfl, rfl, rfl, rfl, ?_⟩
  intro htimer
  simp only [Bool.and_eq_true, beq_iff_eq] at htimer
  rw [htimer.1.2]
  nofun

end Start

/-! ### Runs of a client -/

/-- The sum over a list of which one entry is replaced: the other entries keep their part. -/
theorem exists_sum_map_set {α : Type*} (f : α → ℕ) {l : List α} {i : ℕ} {a : α}
    (h : l[i]? = some a) :
    ∃ rest, (l.map f).sum = rest + f a ∧ ∀ b, ((l.set i b).map f).sum = rest + f b := by
  obtain ⟨hlt, rfl⟩ := List.getElem?_eq_some_iff.mp h
  have hset : ∀ b, ((l.set i b).map f).sum
      = ((l.take i).map f).sum + ((l.drop (i + 1)).map f).sum + f b := by
    intro b
    rw [List.set_eq_take_append_cons_drop, if_pos hlt, List.map_append, List.map_cons,
      List.sum_append, List.sum_cons]
    omega
  refine ⟨_, ?_, hset⟩
  rw [← hset l[i], List.set_getElem_self]

namespace ClientState

variable {settings : Settings} {client next later : ClientState}

/-- Any number of events lead from a state to another. -/
def Run (settings : Settings) (client later : ClientState) : Prop :=
  Lib.Run (step settings) client later

/-- A state that a connected client can be in. -/
def Reachable (settings : Settings) (client : ClientState) : Prop := Run settings init client

/-- A call that cannot be planned leaves the client as it is. -/
theorem step_start {moment : Moment} {params : CallParams}
    (h : client.step settings (.start moment params) = some next) :
    next = client ∨ ∃ s, startCall settings moment params client.hedgesInFlight = .ok s ∧
      next = ⟨client.calls ++ [s.call], s.hedgesInFlight⟩ := by
  rw [step] at h
  split at h
  · exact .inl (Option.some.inj h).symm
  next s hstart => exact .inr ⟨s, hstart, (Option.some.inj h).symm⟩

/-- An event of a call is handled by a call that it is enabled in. -/
theorem step_call {index : ℕ} {moment : Moment} {event : CallEvent}
    (h : client.step settings (.call index moment event) = some next) :
    ∃ (call : Call) (s' : Local), client.calls[index]? = some call ∧ event.enabled call = true ∧
      s' = (Local.mk call client.hedgesInFlight).handle settings moment event ∧
      next = ⟨client.calls.set index s'.call, s'.hedgesInFlight⟩ := by
  rw [step] at h
  split at h
  · cases h
  next call hcall =>
    split_ifs at h with henabled
    exact ⟨call, _, hcall, by simpa using henabled, rfl, (Option.some.inj h).symm⟩

/-- What one event can do: nothing, start a call, or handle an event of one call. -/
theorem step_cases {event : Event} (h : client.step settings event = some next) :
    next = client ∨
    (∃ moment params s, startCall settings moment params client.hedgesInFlight = .ok s ∧
      next = ⟨client.calls ++ [s.call], s.hedgesInFlight⟩) ∨
    ∃ (index : ℕ) (moment : Moment) (call : Call) (event : CallEvent) (s' : Local),
      client.calls[index]? = some call ∧
      event.enabled call = true ∧
      s' = (Local.mk call client.hedgesInFlight).handle settings moment event ∧
      next = ⟨client.calls.set index s'.call, s'.hedgesInFlight⟩ := by
  cases event with
  | start moment params =>
    exact (step_start h).imp_right fun hstarted => .inl ⟨moment, params, hstarted⟩
  | call index moment event =>
    obtain ⟨call, s', hcall, henabled, hs', hnext⟩ := step_call h
    exact .inr (.inr ⟨index, moment, call, event, s', hcall, henabled, hs', hnext⟩)

/-- What holds of a client between two events. -/
structure Invariant (client : ClientState) : Prop where
  bounded : ∀ call ∈ client.calls, call.Bounded
  waiting : ∀ call ∈ client.calls, call.Waiting
  hedges : client.hedgesInFlight = (client.calls.map Call.liveHedges).sum

theorem invariant_init : init.Invariant :=
  ⟨fun _ hcall => absurd hcall List.not_mem_nil, fun _ hcall => absurd hcall List.not_mem_nil, rfl⟩

theorem Invariant.start (h : client.Invariant) {moment : Moment} {params : CallParams} {s : Local}
    (hstart : startCall settings moment params client.hedgesInFlight = .ok s) :
    Invariant ⟨client.calls ++ [s.call], s.hedgesInFlight⟩ := by
  obtain ⟨first, call, -, rfl, hattempts, hopen, hsettlements, hused, hleft, -, -, -, htimer⟩ :=
    startCall_eq hstart
  have hbounded : ((Local.mk call client.hedgesInFlight).launch moment.state first
      .first).call.Bounded := by
    refine ⟨hleft.le, ?_, ?_, fun _ => hsettlements, ?_, ?_, htimer⟩
    · simp [Local.launch, hattempts, hleft]
    · simp [Local.launch, Call.routeResends, hattempts, CopyReason.routeResend]
    · intro hsettled
      exact absurd (hopen.symm.trans hsettled) Bool.false_ne_true
    · intro hsettled
      exact absurd (hopen.symm.trans hsettled) Bool.false_ne_true
  have hnone : (Local.mk call client.hedgesInFlight).Balanced
      (client.calls.map Call.liveHedges).sum := by
    rw [Local.Balanced, h.hedges, Call.liveHedges, hattempts]
    rfl
  have hbalanced := hnone.launch moment.state first .first
  refine ⟨?_, ?_, ?_⟩
  · intro other hother
    rcases List.mem_append.mp hother with hmem | hmem
    · exact h.bounded other hmem
    · rw [List.mem_singleton.mp hmem]
      exact hbounded
  · intro other hother
    rcases List.mem_append.mp hother with hmem | hmem
    · exact h.waiting other hmem
    · rw [List.mem_singleton.mp hmem]
      intro _
      simp [Local.launch, Call.anyLive]
  · rw [hbalanced, List.map_append, List.sum_append, List.map_singleton, List.sum_singleton]

theorem Invariant.handle (h : client.Invariant) {index : ℕ} {moment : Moment} {call : Call}
    {event : CallEvent} (hcall : client.calls[index]? = some call)
    (henabled : event.enabled call = true) {s' : Local}
    (hs' : s' = (Local.mk call client.hedgesInFlight).handle settings moment event) :
    Invariant ⟨client.calls.set index s'.call, s'.hedgesInFlight⟩ := by
  have hmem := List.mem_of_getElem? hcall
  have hbounded := h.bounded call hmem
  have heffect : Effect settings moment event
      ((Local.mk call client.hedgesInFlight).before event) s' :=
    hs' ▸ effect_handle henabled hbounded.timer_retry
  obtain ⟨rest, hrest, hset⟩ := exists_sum_map_set Call.liveHedges hcall
  refine ⟨?_, ?_, ?_⟩
  · intro other hother
    rcases List.mem_or_eq_of_mem_set hother with hmem | rfl
    · exact h.bounded other hmem
    · exact heffect.bounded (bounded_before hbounded henabled)
  · intro other hother
    rcases List.mem_or_eq_of_mem_set hother with hother | rfl
    · exact h.waiting other hother
    · exact heffect.waiting (h.waiting call hmem)
  · rw [hset]
    exact heffect.balanced (balanced_before (h.hedges.trans hrest) henabled)

theorem Invariant.step {event : Event} (h : client.Invariant)
    (hstep : client.step settings event = some next) : next.Invariant := by
  obtain rfl | ⟨moment, params, s, hstart, rfl⟩ |
    ⟨index, moment, call, event, s', hcall, henabled, hs', rfl⟩ := step_cases hstep
  · exact h
  · exact h.start hstart
  · exact h.handle hcall henabled hs'

theorem Reachable.invariant (h : client.Reachable settings) : client.Invariant :=
  Lib.Run.invariant h invariant_init fun _ _ _ hinv hstep => hinv.step hstep

/-- One event keeps a settled call. -/
theorem settledAs_step {event : Event} (hstep : client.step settings event = some next)
    (h : client.Invariant) {index : ℕ} {call : Call} (hcall : client.calls[index]? = some call)
    (hsettled : call.settled = true) :
    ∃ later, next.calls[index]? = some later ∧ call.SettledAs later := by
  have hsame : call.SettledAs call := ⟨hsettled, rfl, rfl⟩
  obtain rfl | ⟨moment, params, s, hstart, rfl⟩ |
    ⟨other, moment, handled, event, s', hhandled, henabled, hs', rfl⟩ := step_cases hstep
  · exact ⟨call, hcall, hsame⟩
  · have hlt : index < client.calls.length := (List.getElem?_eq_some_iff.mp hcall).1
    exact ⟨call, (List.getElem?_append_left hlt).trans hcall, hsame⟩
  · by_cases hother : other = index
    · subst hother
      obtain rfl := Option.some.inj (hcall.symm.trans hhandled)
      have hlt : other < client.calls.length := (List.getElem?_eq_some_iff.mp hcall).1
      have hbefore : (Local.mk call client.hedgesInFlight).call.SettledAs
          ((Local.mk call client.hedgesInFlight).before event).call :=
        settledAs_before hsettled henabled
      have heffect : Effect settings moment event
          ((Local.mk call client.hedgesInFlight).before event) s' :=
        hs' ▸ effect_handle henabled (h.bounded call (List.mem_of_getElem? hcall)).timer_retry
      rw [← heffect.eq_of_settled hbefore.settled] at hbefore
      exact ⟨_, List.getElem?_set_self hlt, hbefore⟩
    · exact ⟨call, (List.getElem?_set_ne hother).trans hcall, hsame⟩

/-- A run keeps a settled call. -/
theorem settledAs_run (hrun : Run settings client later) (h : client.Invariant) {index : ℕ}
    {call : Call} (hcall : client.calls[index]? = some call) (hsettled : call.settled = true) :
    ∃ last, later.calls[index]? = some last ∧ call.SettledAs last := by
  suffices hinv : later.Invariant ∧ ∃ last, later.calls[index]? = some last ∧
      call.SettledAs last from hinv.2
  refine Lib.Run.invariant hrun ⟨h, call, hcall, hsettled, rfl, rfl⟩ ?_
  rintro middle event next ⟨hinv, before, hbefore, hkept⟩ hstep
  obtain ⟨last, hlast, hagain⟩ := settledAs_step hstep hinv hbefore hkept.settled
  exact ⟨hinv.step hstep, last, hlast, hagain.settled, hagain.planned.trans hkept.planned,
    hagain.settlements.trans hkept.settlements⟩

end ClientState

/-- `_sendWithRetry` is bounded and settles once. In every reachable state of a client a call has
launched at most `2 + transportResends` copies, at most one of them for a timeout, a lost reply or
a hedge; it has settled at most once, and exactly once when no copy is live; after that every live
copy is aborted, and in any continuation no copy is launched and the call does not settle again;
and `_hedgesInFlight` is the number of live hedge copies over all calls.

`ClientState.Invariant` counts the copies and settlements of every call and is kept by every step.
That a settled call stays as it is needs a second induction, over the continuation
(`settledAs_run`). -/
theorem sendWithRetry_bounded (settings : Settings) (client : ClientState)
    (h : client.Reachable settings) :
    client.hedgesInFlight = (client.calls.map Call.liveHedges).sum ∧
    ∀ (index : ℕ) (call : Call), client.calls[index]? = some call →
      call.attempts.length ≤ 2 + call.policy.transportResends ∧
      call.routeResends ≤ 1 ∧
      call.settlements.length = call.settled.toNat ∧
      (call.anyLive = false → call.settled = true) ∧
      (call.settled = true →
        (∀ attempt ∈ call.attempts, attempt.live = true → attempt.aborted = true) ∧
        ∀ later, client.Run settings later → ∃ last, later.calls[index]? = some last ∧
          last.settled = true ∧
          last.attempts.map Attempt.planned = call.attempts.map Attempt.planned ∧
          last.settlements = call.settlements) := by
  have hinv := h.invariant
  refine ⟨hinv.hedges, fun index call hcall => ?_⟩
  have hmem := List.mem_of_getElem? hcall
  have hbounded := hinv.bounded call hmem
  have hused : call.routeResendUsed.toNat ≤ 1 := Bool.toNat_le _
  refine ⟨?_, hbounded.resends_le.trans hused, ?_, ?_, fun hsettled => ⟨?_, ?_⟩⟩
  · have hcopies := hbounded.copies_le
    omega
  · cases hsettled : call.settled with
    | false => simp [hbounded.open_settlements hsettled]
    | true => exact hbounded.settled_settlements hsettled
  · intro hidle
    by_contra hopen
    have hlive := hinv.waiting call hmem (Bool.eq_false_iff.mpr hopen)
    rw [hidle] at hlive
    cases hlive
  · exact hbounded.settled_aborted hsettled
  · intro later hrun
    obtain ⟨last, hlast, hkept⟩ := ClientState.settledAs_run hrun hinv hcall hsettled
    exact ⟨last, hlast, hkept.settled, hkept.planned, hkept.settlements⟩

/-- A node of a small network, at the address of its name. -/
def sampleNode (name : String) (role : ℕ) : TopologyNode :=
  ⟨name, "https://" ++ name ++ ".example", name, [], 0, role, none, none⟩

/-- A client in classic mode with one entry, two mixes and two exits. -/
def sampleMoment : Moment where
  state :=
    { nodes := [sampleNode "entry" 1, sampleNode "mix1" 1, sampleNode "mix2" 1,
        sampleNode "exit1" 3, sampleNode "exit2" 3]
      entryUrl := "https://entry.example"
      wasmSupportsSurbV2 := false
      avoidedNodeIds := []
      entryRule := fun node => node.id == "entry"
      maxProbation := none
      kps := none }
  draws := ⟨⟨0, 0, 0⟩, ⟨0, 0, 0⟩, 0, 0, fun _ => 0, fun _ => ⟨0, 0, 0⟩⟩

/-- Classic mode with the default reply blocks. -/
def sampleSettings : Settings := ⟨.auto, true, false⟩

/-- A call that may be resent, with a hedge after 200 ms. -/
def sampleParams : CallParams := ⟨none, .route, ⟨200, 1, 0, false, false⟩, none⟩

/-- A call is started and hedged; then its first copy fails. -/
def sampleEvents (error : ErrorChain) : List Event :=
  [.start sampleMoment sampleParams, .call 0 sampleMoment .hedgeTimer,
    .call 0 sampleMoment (.failure 0 error)]

/-- What the sample shows of a client. -/
def sampleView (client : ClientState) : ℕ × List (List Settlement) :=
  (client.hedgesInFlight, client.calls.map Call.settlements)

/-- The state after the sample events. -/
theorem exists_sampleRun {error : ErrorChain} {view : ℕ × List (List Settlement)}
    (h : (Lib.runEvents (ClientState.step sampleSettings) .init (sampleEvents error)).map sampleView
      = some view) :
    ∃ client, Lib.runEvents (ClientState.step sampleSettings) .init (sampleEvents error)
      = some client ∧ client.hedgesInFlight = view.1 ∧
      client.calls.map Call.settlements = view.2 := by
  obtain ⟨client, hclient, hview⟩ := Option.map_eq_some_iff.mp h
  exact ⟨client, hclient, (Prod.ext_iff.mp hview).1, (Prod.ext_iff.mp hview).2⟩

theorem sampleRun_transportFailed :
    (Lib.runEvents (ClientState.step sampleSettings) .init
      (sampleEvents (errorOf .transportFailed))).map sampleView =
      some (1, [[⟨.rejected (errorOf .transportFailed), true⟩]]) := by
  decide +kernel

/-- After the failure the hedge copy is still live, and it is the only one. -/
theorem sendWithRetry_bounded_sample :
    ∃ client : ClientState, client.Reachable sampleSettings ∧ client.hedgesInFlight = 1 ∧
      (client.calls.map Call.liveHedges).sum = 1 := by
  obtain ⟨client, hrun, hhedges, -⟩ := exists_sampleRun sampleRun_transportFailed
  have hreachable : client.Reachable sampleSettings := Lib.run_of_runEvents hrun
  refine ⟨client, hreachable, hhedges, ?_⟩
  rw [← (sendWithRetry_bounded sampleSettings client hreachable).1]
  exact hhedges

/-! ### Failures while another copy is live -/

namespace ClientState

variable {settings : Settings} {client next later : ClientState}

end ClientState

end NoxSdk.Client
