import Mathlib.Tactic.Ring
import NoxSdk.Paid.NotPaid

/-!
# Every submission is guarded

`submissions_guarded`: a run submits only what it has checked. The guard of a submission is about
the trace before it: the precheck at the pinned block, the request that brought the quote with the
cap planned for it, and the checks of that quote, which all come after the request. A round
submits at most once and only after contacting an exit, so a run submits at most `maxExits` times.
-/

namespace NoxSdk.Paid

open Bincode (PaidTransactionOutcomeV2)
open NoxSdk.Lib
open NoxSdk.Lib.Prog

variable {ethers : Ethers} {options : ExecutePaidOptions} {settings : Settings}
  {context : Context} {st : LoopState} {events history trace : List Event} {polls rounds : ℕ}
  {r : Except Abrupt LoopState}

/-! ### Submissions of a round -/

/-- The call submits a transaction. -/
def isSubmission (event : Event) : Bool :=
  match event.1 with
  | .submitPaidTransaction _ _ => true
  | _ => false

/-- The submission was answered with a gas cap that is too low. -/
def capExceeded (event : Event) : Bool :=
  match event with
  | ⟨.submitPaidTransaction _ _, outcome⟩ =>
    (finalRejection outcome).any fun rejection => rejection.code = .gasCapExceeded
  | _ => false

/-- The exit buffer after a trace: a step more for each cap that was too low. -/
def bufferAt (settings : Settings) (trace : List Event) : ℕ :=
  settings.exitGasBufferBps + defaults.exitGasBufferStepBps * trace.countP capExceeded

theorem capExceeded_le {event : Event} (h : isSubmission event = false) :
    capExceeded event = false := by
  obtain ⟨op, reply⟩ := event
  cases op with
  | submitPaidTransaction issued calldata => cases h
  | _ => rfl

/-- No event of the list is a submission. -/
def NoSubmission (events : List Event) : Prop := ∀ event ∈ events, isSubmission event = false

theorem QuietEvents.noSubmission (h : QuietEvents events) : NoSubmission events := by
  rintro ⟨op, reply⟩ hevent
  cases op with
  | submitPaidTransaction issued calldata => exact (h _ hevent).elim
  | _ => rfl

theorem NoSubmission.append {after : List Event} (hbefore : NoSubmission events)
    (hafter : NoSubmission after) : NoSubmission (events ++ after) := fun event hevent =>
  (List.mem_append.mp hevent).elim (hbefore event) (hafter event)

theorem NoSubmission.cons {event : Event} (h : NoSubmission events)
    (hevent : isSubmission event = false) : NoSubmission (event :: events) :=
  List.forall_mem_cons.mpr ⟨hevent, h⟩

theorem NoSubmission.countP (h : NoSubmission events) : events.countP isSubmission = 0 :=
  List.countP_eq_zero.mpr fun event hevent => by simp [h event hevent]

theorem NoSubmission.bufferAt_append (h : NoSubmission events) :
    bufferAt settings (history ++ events) = bufferAt settings history := by
  have hnone : events.countP capExceeded = 0 :=
    List.countP_eq_zero.mpr fun event hevent => by simp [capExceeded_le (h event hevent)]
  rw [bufferAt, List.countP_append, hnone, Nat.add_zero, bufferAt]

/-- A round submits nothing, or once: a quote that it requested and checked before. -/
theorem Round.submission (h : Round ethers context st polls events r) :
    (NoSubmission events ∧ ∀ next, r = .ok next → next.exitGasBufferBps = st.exitGasBufferBps) ∨
    ∃ before plan request exit reply issued checks typed calldata outcome after,
      events = (before ++ ⟨.requestPaidQuote request exit, reply⟩ :: checks) ++
        ⟨.submitPaidTransaction issued calldata, outcome⟩ :: after ∧
      QuietEvents before ∧ Planned context st.exitGasBufferBps plan request ∧
      reply.outcome = .ok (.issued issued) ∧ QuietEvents checks ∧
      quoteTypedData ethers issued.quote = .ok typed ∧
      Checked ethers context st.exitGasBufferBps plan.maximumTransactionGas issued typed calldata
        checks ∧
      QuietEvents after ∧
      ∀ next, r = .ok next →
        next.exitGasBufferBps = bufferAfter st.exitGasBufferBps outcome := by
  have hrequest : ∀ {before checks : List Event} {request : PaidQuoteRequestV2}
      {exit : TopologyNode} {reply : QuoteReply}, QuietEvents before → QuietEvents checks →
      NoSubmission (before ++ ⟨.requestPaidQuote request exit, reply⟩ :: checks) :=
    fun hbefore hchecks => hbefore.noSubmission.append (hchecks.noSubmission.cons rfl)
  cases h with
  | unasked hquiet _ => exact .inl ⟨hquiet.noSubmission, fun next h => by cases h⟩
  | unanswered hquiet hstep =>
    refine .inl ⟨hrequest hquiet quietEvents_nil, fun next h => ?_⟩
    obtain rfl := Except.ok.inj h
    exact (quoteStep_next hstep).2.1
  | failed hquiet _ => exact .inl ⟨hrequest hquiet quietEvents_nil, fun next h => by cases h⟩
  | left hquiet _ hchecks _ => exact .inl ⟨hrequest hquiet hchecks, fun next h => by cases h⟩
  | submitted hquiet hplanned hstep hchecks htyped hchecked hafter =>
    obtain ⟨houtcome, -, hbuffer, -⟩ := quoteStep_issued hstep
    refine .inr ⟨_, _, _, _, _, _, _, _, _, _, _, by rw [List.append_assoc]; rfl, hquiet, hplanned,
      houtcome, hchecks, htyped, hbuffer ▸ hchecked, quiet_afterSubmit.of_yields hafter, ?_⟩
    rintro next rfl
    rcases afterSubmit_cases hafter with
      ⟨-, _, h⟩ | ⟨-, _, -, h | ⟨_, h, -, -, hnext⟩ | ⟨_, h, -⟩⟩
    · cases h
    · cases h
    · obtain rfl := Except.ok.inj h
      exact hbuffer ▸ hnext
    · cases h

theorem bufferAfter_bufferAt {issued : IssuedPaidQuoteV2} {calldata : Bytes}
    {outcome : Except Failure PaidTransactionOutcomeV2} :
    bufferAfter (bufferAt settings history) outcome =
      bufferAt settings (history ++ [⟨.submitPaidTransaction issued calldata, outcome⟩]) := by
  rw [bufferAfter, bufferAt, bufferAt, List.countP_append, List.countP_singleton, capExceeded]
  cases finalRejection outcome with
  | none => rfl
  | some rejection =>
    simp only [Option.any_some, decide_eq_true_eq]
    split_ifs
    · ring
    · ring

/-! ### The guard -/

/-- What holds of the trace before a submission. -/
def SubmissionGuard (ethers : Ethers) (options : ExecutePaidOptions) (settings : Settings)
    (before : List Event) : Op → Prop
  | .submitPaidTransaction issued calldata =>
    ∃ pinned pinnedAtMs plan request exit reply earlier checks typed,
      before = earlier ++ (⟨.requestPaidQuote request exit, reply⟩ : Event) :: checks ∧
      reply.outcome = .ok (.issued issued) ∧ QuietEvents checks ∧
      Prechecked ethers options settings pinned pinnedAtMs earlier ∧
      Planned { options, settings, pinned, pinnedAtMs } (bufferAt settings earlier) plan request ∧
      quoteTypedData ethers issued.quote = .ok typed ∧
      Checked ethers { options, settings, pinned, pinnedAtMs } (bufferAt settings earlier)
        plan.maximumTransactionGas issued typed calldata checks
  | _ => True

theorem guarantee_noSubmission (h : NoSubmission events) {before : List Event} {op : Op}
    {reply : Reply op} {after : List Event} (hsplit : events = before ++ ⟨op, reply⟩ :: after)
    (earlier : List Event) : SubmissionGuard ethers options settings earlier op := by
  have hop := h ⟨op, reply⟩ (hsplit ▸ List.mem_append_right _ List.mem_cons_self)
  cases op with
  | submitPaidTransaction issued calldata => cases hop
  | _ => trivial

/-- Every submission of a trace keeps its guard, and there are at most `maxExits` of them. -/
structure Guarded (ethers : Ethers) (options : ExecutePaidOptions) (settings : Settings)
    (trace : List Event) : Prop where
  guarantee : Guaranteed (SubmissionGuard ethers options settings) trace
  count : trace.countP isSubmission ≤ settings.maxExits

theorem Guarded.append_noSubmission (h : Guarded ethers options settings history)
    (hevents : NoSubmission events) : Guarded ethers options settings (history ++ events) where
  guarantee := h.guarantee.append fun _ _ _ _ hsplit => guarantee_noSubmission hevents hsplit _
  count := by
    rw [List.countP_append, hevents.countP]
    exact h.count

theorem NoSubmission.guarded (h : NoSubmission events) :
    Guarded ethers options settings events where
  guarantee before _ _ _ hsplit := guarantee_noSubmission h hsplit before
  count := h.countP.trans_le (Nat.zero_le _)

/-- What the loop keeps. -/
structure GuardedLoop (ethers : Ethers) (context : Context) (history : List Event)
    (st : LoopState) : Prop where
  prechecked : Prechecked ethers context.options context.settings context.pinned context.pinnedAtMs
    history
  buffer : st.exitGasBufferBps = bufferAt context.settings history
  guarded : Guarded ethers context.options context.settings history
  contacted : history.countP isSubmission ≤ st.contacted

/-- A round that may contact an exit keeps the guarantee, and submits at most once. -/
theorem GuardedLoop.round (hloop : GuardedLoop ethers context history st)
    (hleft : st.contacted < context.settings.maxExits)
    (h : Round ethers context st polls events r) :
    Guarded ethers context.options context.settings (history ++ events) ∧
      events.countP isSubmission ≤ 1 ∧
      ∀ next, r = .ok next →
        next.exitGasBufferBps = bufferAt context.settings (history ++ events) := by
  rcases h.submission with ⟨hnone, hbuffer⟩ | ⟨before, plan, request, exit, reply, issued, checks,
    typed, calldata, outcome, after, rfl, hquiet, hplanned, houtcome, hchecks, htyped, hchecked,
    hafter, hbuffer⟩
  · refine ⟨hloop.guarded.append_noSubmission hnone, hnone.countP.trans_le (Nat.zero_le 1),
      fun next h => ?_⟩
    rw [hnone.bufferAt_append, hbuffer next h, hloop.buffer]
  · generalize hasked :
      before ++ (⟨.requestPaidQuote request exit, reply⟩ : Event) :: checks = asked
    have hnone : NoSubmission asked :=
      hasked ▸ hquiet.noSubmission.append (hchecks.noSubmission.cons rfl)
    have hearlier : bufferAt context.settings (history ++ before) = st.exitGasBufferBps :=
      hquiet.noSubmission.bufferAt_append.trans hloop.buffer.symm
    have hsplit : history ++ (asked ++ ⟨.submitPaidTransaction issued calldata, outcome⟩ :: after)
        = history ++ asked ++ [⟨.submitPaidTransaction issued calldata, outcome⟩] ++ after := by
      simp
    rw [hsplit]
    refine ⟨Guarded.append_noSubmission ⟨?_, ?_⟩ hafter.noSubmission, ?_, fun next h => ?_⟩
    · refine (hloop.guarded.append_noSubmission hnone).guarantee.snoc ?_
      refine ⟨context.pinned, context.pinnedAtMs, plan, request, exit, reply, history ++ before,
        checks, typed, by rw [← hasked, List.append_assoc], houtcome, hchecks,
        hloop.prechecked.mono (List.subset_append_left _ _), ?_, htyped, ?_⟩
      · rw [hearlier]
        exact hplanned
      · rw [hearlier]
        exact hchecked
    · rw [List.countP_append, List.countP_append, hnone.countP]
      exact Nat.succ_le_of_lt (hloop.contacted.trans_lt hleft)
    · rw [List.countP_append, List.countP_cons, hnone.countP, hafter.noSubmission.countP]
      exact le_refl 1
    · rw [hafter.noSubmission.bufferAt_append, ← bufferAfter_bufferAt, hnone.bufferAt_append,
        hbuffer next h, hloop.buffer]

/-- A round that goes on keeps the invariant. -/
theorem GuardedLoop.next {next : LoopState} (hloop : GuardedLoop ethers context history st)
    (hleft : st.contacted < context.settings.maxExits)
    (h : Round ethers context st polls events (.ok next)) :
    GuardedLoop ethers context (history ++ events) next := by
  obtain ⟨hguarded, hcount, hbuffer⟩ := hloop.round hleft h
  refine ⟨hloop.prechecked.mono (List.subset_append_left _ _), hbuffer next rfl, hguarded, ?_⟩
  have hbefore := hloop.contacted
  have hcontacted := h.contacted_lt
  rw [List.countP_append]
  omega

/-! ### The run -/

theorem positiveInteger_ok {value value' : ℕ} {field : String}
    (h : positiveInteger value field = .ok value') : value' = value := by
  obtain ⟨checked, hchecked, h⟩ := bind_eq_ok_iff.mp h
  rw [nonNegativeInteger] at hchecked
  split_ifs at hchecked h
  exact (Except.ok.inj h).symm.trans (Except.ok.inj hchecked).symm

theorem resolveSettings_maxExits (h : resolveSettings ethers options = .ok settings) :
    settings.maxExits = options.maxExits.getD defaults.maxExits := by
  rw [resolveSettings] at h
  -- the checks and fields before `maxExits`
  iterate 18 obtain ⟨_, -, h⟩ := bind_eq_ok_iff.mp h
  obtain ⟨maxExits, hmax, h⟩ := bind_eq_ok_iff.mp h
  have hfields : settings.maxExits = maxExits := by
    split at h
    all_goals
      obtain ⟨_, -, h⟩ := bind_eq_ok_iff.mp h
      obtain ⟨_, -, h⟩ := bind_eq_ok_iff.mp h
      exact congrArg Settings.maxExits (Except.ok.inj h).symm
  exact hfields.trans (positiveInteger_ok hmax)

/-- The attempt is guarded, and its loop ends. -/
theorem attemptBody_guarded (hmax : settings.maxExits ≤ rounds)
    (h : (attemptBody ethers options settings polls rounds).run.Yields events r) :
    Guarded ethers options settings events ∧ r ≠ .error .looping := by
  rcases attemptBody_cases h with ⟨hquiet, result, rfl, -⟩ |
    ⟨pinned, pinnedAtMs, before, loop, rfl, hbefore, hprechecked, hloop⟩
  · refine ⟨hquiet.noSubmission.guarded, fun h => ?_⟩
    cases h
  have hnone := hbefore.noSubmission
  generalize hcontext : Context.mk options settings pinned pinnedAtMs = context at hloop
  obtain rfl := congrArg Context.settings hcontext
  obtain rfl := congrArg Context.options hcontext
  obtain ⟨hended, hstopped⟩ := exitLoop_spec
    (I := GuardedLoop ethers context)
    (P := fun history _ => Guarded ethers context.options context.settings history)
    (fun _ _ _ _ hinv hleft hround => hinv.next hleft hround)
    (fun _ _ _ _ hinv hleft hround => (hinv.round hleft hround).1) hloop
    { prechecked := hcontext ▸ hprechecked
      buffer := Eq.symm <|
        show bufferAt _ ([] ++ before) = bufferAt _ [] from hnone.bufferAt_append
      guarded := hnone.guarded
      contacted := hnone.countP.le }
  have hlooping : r ≠ .error .looping := fun hr =>
    exitLoop_not_looping (hmax.trans (Nat.le_add_left _ _)) (hr ▸ hloop)
  refine ⟨?_, hlooping⟩
  cases r with
  | ok final => exact (hended final rfl).guarded
  | error e => exact (hstopped e rfl).resolve_left fun he => hlooping (he ▸ rfl)

/-- A run with options that are not valid throws before any call. -/
theorem executePaid_invalid {failure : Failure} {r : Except Abrupt ExecutePaidResult}
    (hsettings : resolveSettings ethers options = .error failure)
    (h : (executePaidIn ethers options polls rounds).run.Yields events r) :
    events = [] ∧ r = .error (.thrown failure) := by
  rcases yields_run_bind.mp h with ⟨e, he, rfl⟩ | ⟨_, settings, _, hresolved, -, -⟩
  · obtain ⟨_, ⟨rfl, rfl⟩, he⟩ := yields_uncaught.mp he
    rw [hsettings] at he
    exact ⟨rfl, congrArg Except.error (Except.error.inj he)⟩
  · cases (yields_uncaught_ok.mp hresolved).2.trans hsettings

/-- A run with valid options. -/
theorem executePaid_guarded {r : Except Abrupt ExecutePaidResult}
    (hsettings : resolveSettings ethers options = .ok settings)
    (h : (executePaid ethers options polls).run.Yields trace r) :
    Guarded ethers options settings trace ∧ r ≠ .error .looping := by
  obtain ⟨attempt, final, ended, rfl, hquiet, hbody, hend⟩ := executePaid_cases hsettings h
  obtain ⟨hguarded, hlooping⟩ := attemptBody_guarded (resolveSettings_maxExits hsettings).le hbody
  refine ⟨hguarded.append_noSubmission hquiet.noSubmission, ?_⟩
  rintro rfl
  rcases hend with ⟨_, _, -, hfinal⟩ | ⟨_, hended, he⟩
  · rcases finalEvidence_cases hfinal with ⟨h, -⟩ | ⟨_, _, -, -, h | ⟨h, -⟩ | ⟨_, h, -⟩⟩
    all_goals cases h
  · obtain rfl := Except.error.inj he
    -- `attempted` keeps the error
    rcases ended with (_ | _ | _ | _) | _
    · cases hended
    · cases hended
    · cases hended
    · exact hlooping rfl
    · cases hended

/-- Every submission of a run keeps its guard, the run submits at most `maxExits` times, and its
exit loop ends.

Settings that are refused end the run before any event (`executePaid_invalid`). Otherwise guard and
count are one property of the trace that each round of the exit loop keeps, and every round uses up
an exit (`executePaid_guarded`). -/
theorem submissions_guarded {behaviour : Behaviour Op Reply}
    {result : Except Abrupt ExecutePaidResult}
    (hrun : (executePaid ethers options polls).run.run behaviour [] = (trace, result)) :
    (∀ before issued calldata outcome after,
      trace = before ++ (⟨.submitPaidTransaction issued calldata, outcome⟩ : Event) :: after →
        ∃ settings, resolveSettings ethers options = .ok settings ∧
          SubmissionGuard ethers options settings before
            (.submitPaidTransaction issued calldata)) ∧
      trace.countP isSubmission ≤ options.maxExits.getD defaults.maxExits ∧
      result ≠ .error .looping := by
  cases hsettings : resolveSettings ethers options with
  | error failure =>
    obtain ⟨rfl, rfl⟩ := executePaid_invalid hsettings (of_run hrun)
    refine ⟨fun before issued calldata outcome after hsplit => ?_, Nat.zero_le _, fun h => ?_⟩
    · simp at hsplit
    · cases h
  | ok settings =>
    obtain ⟨hguarded, hlooping⟩ := executePaid_guarded hsettings (of_run hrun)
    exact ⟨fun before issued calldata outcome after hsplit =>
        ⟨settings, rfl, hguarded.guarantee _ _ _ _ hsplit⟩,
      resolveSettings_maxExits hsettings ▸ hguarded.count, hlooping⟩

/-- The only exit rejects the submission. -/
theorem submissions_guarded_sample :
    ∃ trace before issued calldata outcome after settings,
      (executePaid sampleEthers sampleOptions 4).run.run (sampleBehaviour sampleRejection) []
        = (trace, .ok (.notPaid ⟨.submit, "MalformedRequest", "bad"⟩)) ∧
      trace = before ++ (⟨.submitPaidTransaction issued calldata, outcome⟩ : Event) :: after ∧
      SubmissionGuard sampleEthers sampleOptions settings before
        (.submitPaidTransaction issued calldata) := by
  obtain ⟨-, trace, hrun, hsubmitted⟩ := exists_rejectedRun
  obtain ⟨⟨op, outcome⟩, hevent, hdelivered⟩ :=
    List.mem_filterMap.mp (hsubmitted ▸ List.mem_cons_self)
  obtain ⟨before, after, hsplit⟩ := List.append_of_mem hevent
  cases op with
  | submitPaidTransaction issued calldata =>
    obtain ⟨settings, -, hguard⟩ :=
      (submissions_guarded hrun).1 before issued calldata outcome after hsplit
    exact ⟨trace, before, issued, calldata, outcome, after, settings, hrun, hsplit, hguard⟩
  | _ => cases hdelivered

end NoxSdk.Paid
