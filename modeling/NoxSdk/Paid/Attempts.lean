import NoxSdk.Paid.Rounds

/-!
# Whole runs

`exitLoop_spec` is the induction over the rounds of the exit loop, `executePaid_cases` cuts a run
into the precheck, the loop and the final read of the evidence. The quotes that a run submitted are
read off its trace (`deliveries`), and `submitted` is exactly that list.
-/

namespace NoxSdk.Paid

open Bincode (PaidTransactionOutcomeV2)
open NoxSdk.Lib
open NoxSdk.Lib.Prog

variable {ethers : Ethers} {options : ExecutePaidOptions} {settings : Settings}
  {context : Context} {st : LoopState} {events history : List Event} {polls rounds : ℕ}

/-! ### What was submitted -/

/-- The quote of a submission that was not refused locally. -/
def delivered : Event → Option SubmittedQuote
  | ⟨.submitPaidTransaction issued _, outcome⟩ =>
    if (localRefusal outcome).isNone then
      some ⟨hexlify issued.executionId, issued.quote.validUntilUnix⟩
    else none
  | _ => none

/-- A submission that the client did not refuse reached the exit. -/
theorem delivered_of_sent {issued : IssuedPaidQuoteV2} {calldata : Bytes}
    {outcome : Except Failure PaidTransactionOutcomeV2} (h : localRefusal outcome = none) :
    delivered ⟨.submitPaidTransaction issued calldata, outcome⟩ =
      some ⟨hexlify issued.executionId, issued.quote.validUntilUnix⟩ := by
  rw [delivered]
  exact if_pos (Option.isNone_iff_eq_none.mpr h)

/-- A submission that the client refused reached nobody. -/
theorem delivered_of_refused {issued : IssuedPaidQuoteV2} {calldata : Bytes}
    {outcome : Except Failure PaidTransactionOutcomeV2} (h : (localRefusal outcome).isSome) :
    delivered ⟨.submitPaidTransaction issued calldata, outcome⟩ = none := by
  rw [delivered]
  exact if_neg (by simpa [Option.isSome_iff_ne_none] using h)

/-- The quotes submitted in a trace, in their order. -/
def deliveries (events : List Event) : List SubmittedQuote := events.filterMap delivered

/-- What was delivered in two parts of a trace. -/
theorem deliveries_append (before after : List Event) :
    deliveries (before ++ after) = deliveries before ++ deliveries after :=
  List.filterMap_append

/-- What was delivered by one event more. -/
theorem deliveries_cons (event : Event) (after : List Event) :
    deliveries (event :: after) = (delivered event).toList ++ deliveries after := by
  rw [deliveries, List.filterMap_cons]
  cases delivered event with
  | none => rfl
  | some quote => rfl

/-- A quiet event delivers nothing. -/
theorem delivered_of_quiet {event : Event} (h : Op.Quiet event.1) : delivered event = none := by
  obtain ⟨op, reply⟩ := event
  cases op with
  | submitPaidTransaction issued calldata => exact h.elim
  | _ => rfl

/-- Quiet events deliver nothing. -/
theorem deliveries_of_quiet (h : QuietEvents events) : deliveries events = [] :=
  List.filterMap_eq_nil_iff.mpr fun event hevent => delivered_of_quiet (h event hevent)

/-! ### After a submission -/

/-- The exit buffer after the answer to a submission. -/
def bufferAfter (buffer : ℕ) (outcome : Except Failure PaidTransactionOutcomeV2) : ℕ :=
  match finalRejection outcome with
  | some rejection =>
    if rejection.code = .gasCapExceeded then buffer + defaults.exitGasBufferStepBps else buffer
  | none => buffer

/-- The execution that is waited for after a submission. -/
def IsPending (issued : IssuedPaidQuoteV2) (typed : QuoteTuple) (pending : PendingExecution) :
    Prop :=
  pending.executionId = hexlify issued.executionId ∧ pending.exit = typed.exitAddress ∧
    pending.exitFee = typed.exitFee ∧ pending.networkFee = typed.networkFee

/-- A result returned in view of the chain after a submission. -/
def AfterResult (ethers : Ethers) (settings : Settings) (issued : IssuedPaidQuoteV2)
    (typed : QuoteTuple) (events : List Event) (result : ExecutePaidResult) : Prop :=
  (∃ id detail, result = .unknown id (some (issued.quote.validUntilUnix : ℤ)) detail) ∨
  ConsumedRead ethers settings events result ∨
  ∃ pending settlement gas, IsPending issued typed pending ∧
    ConfirmationRead settings pending events (.found settlement) ∧
    result = settledResult settlement gas

section AfterSubmit

variable {plan : PaidGasPlan} {issued : IssuedPaidQuoteV2} {typed : QuoteTuple}
  {outcome : Except Failure PaidTransactionOutcomeV2} {r : Except Abrupt LoopState}

/-- Behind a rejection the round ends the call, or leads to the next one. -/
theorem afterRejection_cases {quote : SubmittedQuote} {rejection : Bincode.PaidV2Rejection}
    (h : (afterRejection ethers context st quote rejection polls).run.Yields events r) :
    r = .error .polling ∨
    (∃ next, r = .ok next ∧ next.submitted = st.submitted ∧ next.contacted = st.contacted ∧
      next.exitGasBufferBps = if rejection.code = .gasCapExceeded then
        st.exitGasBufferBps + defaults.exitGasBufferStepBps else st.exitGasBufferBps) ∨
    ∃ result, r = .error (.returned result st.submitted) ∧
      ((∃ id detail, result = .unknown id (some quote.validUntilUnix) detail) ∨
        ConsumedRead ethers context.settings events result) := by
  rcases yields_run_bind.mp h with ⟨e, he, rfl⟩ | ⟨read, evidence, _, hread, hrest, rfl⟩
  · rcases paymentEvidence_spec he with hpolling | ⟨evidence, hok, -⟩
    · cases hpolling
      exact .inl rfl
    · cases hok
  · rcases paymentEvidence_spec hread with hpolling | ⟨evidence', hok, hevidence⟩
    · cases hpolling
    obtain rfl := Except.ok.inj hok
    cases evidence with
    | result result =>
      obtain ⟨rfl, rfl⟩ := hrest
      rw [List.append_nil]
      exact .inr (.inr ⟨result, rfl, hevidence.imp_left fun ⟨detail, h⟩ => ⟨_, detail, h⟩⟩)
    | unconsumed => exact .inr (.inl ⟨_, hrest.2, rfl, rfl, rfl⟩)
    | expired => exact .inr (.inl ⟨_, hrest.2, rfl, rfl, rfl⟩)

/-- The time for the confirmation is computed without failing. -/
theorem stops_confirmationMs {P : Abrupt → Prop} : Stops P (confirmationMs context issued) := by
  have hheadroom : Stops P (headroom context issued) :=
    (stops_lift.bind fun _ => stops_pure).bind fun _ => stops_pure
  rw [confirmationMs]
  split
  · exact stops_pure
  · refine hheadroom.bind fun left => ?_
    split_ifs
    · exact hheadroom.bind fun _ => stops_pure
    · exact stops_pure

/-- A confirmation ends with what became of the submission, or waits too long. -/
theorem confirm_cases {quote : SubmittedQuote}
    (hid : quote.executionId = hexlify issued.executionId)
    (h : (confirm ethers context st plan issued typed quote polls).run.Yields events r) :
    r = .error .polling ∨
    (∃ next, r = .ok next ∧ next.submitted = st.submitted ∧ next.contacted = st.contacted ∧
      next.exitGasBufferBps = st.exitGasBufferBps) ∨
    ∃ result, r = .error (.returned result st.submitted) ∧
      ((∃ id detail, result = .unknown id (some quote.validUntilUnix) detail) ∨
        ∃ pending settlement gas, IsPending issued typed pending ∧
          ConfirmationRead context.settings pending events (.found settlement) ∧
          result = settledResult settlement gas) := by
  obtain ⟨clock, startedAt, _, -, hms, rfl⟩ := yields_run_lift_bind.mp h
  rcases yields_run_bind.mp hms with ⟨e, he, -⟩ | ⟨wait, ms, _, -, hawait, rfl⟩
  · exact (stops_confirmationMs (P := fun _ => False) _ _ he).elim
  rcases yields_run_bind.mp hawait with ⟨e, he, rfl⟩ | ⟨read, evidence, _, hread, hrest, rfl⟩
  · rcases awaitSettlement_spec he with hpolling | ⟨evidence, hok, -⟩
    · cases hpolling
      exact .inl rfl
    · cases hok
  · rcases awaitSettlement_spec hread with hpolling | ⟨evidence', hok, hevidence⟩
    · cases hpolling
    obtain rfl := Except.ok.inj hok
    cases evidence with
    | expired => exact .inr (.inl ⟨_, hrest.2, rfl, rfl, rfl⟩)
    | unknown detail => exact .inr (.inr ⟨_, hrest.2, .inl ⟨_, _, rfl⟩⟩)
    | found settlement =>
      obtain ⟨rfl, rfl⟩ := hrest
      obtain ⟨hmatch, first, last, hlog⟩ := hevidence
      refine .inr (.inr ⟨_, rfl, .inr ⟨_, settlement, _, ⟨hid, rfl, rfl, rfl⟩, ⟨hmatch, first, last,
        hlog.mono fun event hevent => ?_⟩, rfl⟩⟩)
      simp [hevent]

/-- What can follow a submission. -/
theorem afterSubmit_cases
    (h : (afterSubmit ethers context st plan issued typed polls outcome).run.Yields events r) :
    ((localRefusal outcome).isSome ∧
      ∃ reason, r = .error (.returned (.notPaid reason) st.submitted)) ∨
    (localRefusal outcome = none ∧ ∃ submitted,
      submitted = st.submitted ++ [⟨hexlify issued.executionId, issued.quote.validUntilUnix⟩] ∧
      (r = .error .polling ∨
        (∃ next, r = .ok next ∧ next.submitted = submitted ∧ next.contacted = st.contacted ∧
          next.exitGasBufferBps = bufferAfter st.exitGasBufferBps outcome) ∨
        ∃ result, r = .error (.returned result submitted) ∧
          AfterResult ethers context.settings issued typed events result)) := by
  rw [afterSubmit] at h
  cases hrefusal : localRefusal outcome with
  | some failure =>
    rw [hrefusal] at h
    exact .inl ⟨rfl, _, h.2⟩
  | none =>
    rw [hrefusal] at h
    refine .inr ⟨rfl, _, rfl, ?_⟩
    rw [bufferAfter]
    cases hrejection : finalRejection outcome with
    | some rejection =>
      rw [hrejection] at h
      rcases afterRejection_cases h with hr | hr | ⟨result, hr, hresult⟩
      · exact .inl hr
      · exact .inr (.inl hr)
      · exact .inr (.inr ⟨result, hr, hresult.imp_right .inl⟩)
    | none =>
      rw [hrejection] at h
      rcases confirm_cases rfl h with hr | hr | ⟨result, hr, hresult⟩
      · exact .inl hr
      · exact .inr (.inl hr)
      · exact .inr (.inr ⟨result, hr, hresult.imp_right .inr⟩)

end AfterSubmit

/-! ### The precheck -/

/-- The result of a payment that settled. -/
def ExecutePaidResult.IsSettled : ExecutePaidResult → Prop
  | .settled _ _ => True
  | .paidActionFailed _ _ _ => True
  | _ => False

/-- What the precheck read when a run goes on to the loop. -/
structure Prechecked (ethers : Ethers) (options : ExecutePaidOptions) (settings : Settings)
    (pinned : Pinned) (pinnedAtMs : ℤ) (events : List Event) : Prop where
  block : Answered events .blockNumber (.ok pinned.block)
  payment : FlagRead ethers settings .isPaymentConsumed settings.paymentIdHex pinned.block false
    events
  intent : FlagRead ethers settings .isClientIntentConsumed settings.intentIdHex pinned.block false
    events
  timestamp : Answered events (.blockTimestamp (.number pinned.block)) (.ok pinned.timestamp)
  pending : ∀ pending, options.pending = some pending → pending.validUntilUnix < pinned.timestamp
  clock : Answered events .now pinnedAtMs

/-- What was checked stays checked when more happens. -/
theorem Prechecked.mono {pinned : Pinned} {pinnedAtMs : ℤ} {events' : List Event}
    (h : Prechecked ethers options settings pinned pinnedAtMs events) (hsub : events ⊆ events') :
    Prechecked ethers options settings pinned pinnedAtMs events' where
  block := h.block.mono hsub
  payment := h.payment.mono hsub
  intent := h.intent.mono hsub
  timestamp := h.timestamp.mono hsub
  pending := h.pending
  clock := h.clock.mono hsub

/-- Where the checks say nothing, neither flag was set and the deadline has not passed. -/
theorem precheckResult_none {paymentConsumed intentConsumed : Bool} {timestamp : ℤ}
    (h : precheckResult options settings paymentConsumed intentConsumed timestamp = none) :
    paymentConsumed = false ∧ intentConsumed = false ∧
      ∀ pending, options.pending = some pending → pending.validUntilUnix < timestamp := by
  rw [precheckResult] at h
  split_ifs at h with hintent hpayment
  rw [Bool.not_eq_true] at hintent hpayment
  refine ⟨hpayment, hintent, fun pending hpending => ?_⟩
  rw [hpending] at h
  dsimp only at h
  split_ifs at h with hearly
  exact not_le.mp hearly

/-- What the checks end the call with is no settlement. -/
theorem precheckResult_some {paymentConsumed intentConsumed : Bool} {timestamp : ℤ}
    {result : ExecutePaidResult}
    (h : precheckResult options settings paymentConsumed intentConsumed timestamp = some result) :
    ¬ result.IsSettled := by
  rw [precheckResult] at h
  split_ifs at h
  · cases h
    exact id
  · cases h
    exact id
  · split at h
    · cases h
    · split_ifs at h
      cases h
      exact id

/-- The `try` block of step 1: a result, of a settlement only if one was read, or the state. -/
theorem readState_ok {outcome : ExecutePaidResult ⊕ Pinned}
    (h : (readState ethers options settings).run.Yields events (.ok outcome)) :
    match outcome with
    | .inl result => result.IsSettled → Resumed ethers settings events result
    | .inr pinned => ∀ pinnedAtMs,
        Prechecked ethers options settings pinned pinnedAtMs
          (events ++ [(⟨.now, pinnedAtMs⟩ : Event)]) := by
  obtain ⟨first, block, _, hblock, hreads, rfl⟩ := yields_run_bind_ok.mp h
  obtain rfl := yields_perform.mp hblock
  obtain ⟨reads, ⟨paymentConsumed, intentConsumed, timestamp⟩, rest, hflags, hrest, rfl⟩ :=
    yields_run_bind_ok.mp hreads
  obtain ⟨paid, others, hpaid, hothers, rfl⟩ := yields_run_both_ok.mp hflags
  obtain ⟨intended, time, hintended, htime, rfl⟩ := yields_run_both_ok.mp hothers
  obtain rfl := yields_perform.mp htime
  dsimp only at hrest
  split_ifs at hrest
  -- the payment is known on chain: `resume` looks for its settlement
  · obtain ⟨_, result, _, hresume, ⟨rfl, hresult⟩, rfl⟩ := yields_run_lift_bind.mp hrest
    obtain rfl := Except.ok.inj hresult
    intro hsettled
    obtain ⟨resumed, found, last, hfound, hlast, rfl⟩ := yields_bind.mp hresume
    cases found with
    | error failure =>
      obtain ⟨rfl, rfl⟩ := hlast
      exact hsettled.elim
    | ok result =>
      obtain ⟨rfl, rfl⟩ := hlast
      refine (resume_ok hfound).mono fun event hevent => ?_
      simp [hevent]
  -- it is not: the checks end the attempt, or the state is pinned
  · cases hcheck : precheckResult options settings paymentConsumed intentConsumed timestamp with
    | some result =>
      rw [hcheck] at hrest
      obtain rfl := Except.ok.inj hrest.2
      exact fun hsettled => absurd hsettled (precheckResult_some hcheck)
    | none =>
      rw [hcheck] at hrest
      obtain ⟨gas, actionGasLimit, _, -, hfee, rfl⟩ := yields_run_bind_ok.mp hrest
      obtain ⟨fee, dataFeeGas, _, -, ⟨rfl, hpinned⟩, rfl⟩ := yields_run_bind_ok.mp hfee
      obtain rfl := Except.ok.inj hpinned
      obtain ⟨rfl, rfl, hpending⟩ := precheckResult_none hcheck
      intro pinnedAtMs
      refine
        { block := List.mem_cons_self
          payment := (readFlag_ok hpaid).mono fun event hevent => ?_
          intent := (readFlag_ok hintended).mono fun event hevent => ?_
          timestamp := ?_
          pending := hpending
          clock := List.mem_append_right _ List.mem_cons_self }
      · simp [hevent]
      · simp [hevent]
      · rw [Answered]
        simp

/-- The precheck ends the run with nothing submitted, or lets it go on. -/
theorem precheck_cases {r : Except Abrupt (Pinned × ℤ)}
    (h : (precheck ethers options settings).run.Yields events r) :
    (∃ result, r = .error (.returned result []) ∧
      (result.IsSettled → Resumed ethers settings events result)) ∨
    ∃ pinned pinnedAtMs, r = .ok (pinned, pinnedAtMs) ∧
      Prechecked ethers options settings pinned pinnedAtMs events := by
  rcases yields_run_bind.mp h with ⟨e, he, rfl⟩ | ⟨action, _, _, haction, hstate, rfl⟩
  · obtain ⟨failure | result | _, hcheck, heq⟩ := yields_tryOr.mp he
    · cases heq
      exact .inl ⟨_, rfl, False.elim⟩
    · obtain ⟨_, _, _, -, hlast, -⟩ := yields_run_bind_ok.mp hcheck
      cases hlast.2
    · cases heq
  rcases yields_run_bind.mp hstate with ⟨e, he, rfl⟩ | ⟨read, pinned, _, hread, hclock, rfl⟩
  · obtain ⟨failure | result | _, hread, heq⟩ := yields_tryOr.mp he
    · cases heq
      exact .inl ⟨_, rfl, False.elim⟩
    · cases heq
      exact .inl ⟨_, rfl, fun hsettled => (readState_ok hread hsettled).mono
        (List.subset_append_right _ _)⟩
    · cases heq
  obtain ⟨_, pinnedAtMs, _, hnow, ⟨rfl, rfl⟩, rfl⟩ := yields_run_lift_bind.mp hclock
  obtain rfl := yields_perform.mp hnow
  have hprechecked := readState_ok (yields_tryOr_ok.mp hread) pinnedAtMs
  refine .inr ⟨pinned, pinnedAtMs, rfl, hprechecked.mono fun event hevent => ?_⟩
  simpa using .inr (by simpa using hevent)

/-! ### The loop -/

/-- A round that goes on has contacted an exit. -/
theorem Round.contacted_lt {next : LoopState}
    (h : Round ethers context st polls events (.ok next)) :
    st.contacted < next.contacted := by
  generalize hr : (.ok next : Except Abrupt LoopState) = r at h
  cases h with
  | unasked => cases hr
  | failed => cases hr
  | left => cases hr
  | unanswered hquiet hstep =>
    cases hr
    exact (quoteStep_next hstep).2.2
  | submitted hquiet hplanned hstep hchecks htyped hchecked hafter =>
    subst hr
    rcases afterSubmit_cases hafter with
      ⟨-, _, h⟩ | ⟨-, _, -, h | ⟨_, h, -, hcontacted, -⟩ | ⟨_, h, -⟩⟩
    · cases h
    · cases h
    · obtain rfl := Except.ok.inj h
      exact hcontacted ▸ (quoteStep_issued hstep).2.2.2
    · cases h

/-- A round ends, unless it polls on. -/
theorem Round.not_looping (h : Round ethers context st polls events (.error .looping)) : False := by
  generalize hr : (.error .looping : Except Abrupt LoopState) = r at h
  cases h with
  | unasked hquiet hearly =>
    cases hr
    exact hearly
  | unanswered => cases hr
  | failed => cases hr
  | left hquiet hstep hchecks hearly =>
    cases hr
    exact hearly
  | submitted hquiet hplanned hstep hchecks htyped hchecked hafter =>
    subst hr
    rcases afterSubmit_cases hafter with ⟨-, _, h⟩ | ⟨-, _, -, h | ⟨_, h, -⟩ | ⟨_, h, -⟩⟩
    all_goals cases h

/-- The exit loop ends within a round for each exit that may still be contacted. -/
theorem exitLoop_not_looping (hrounds : context.settings.maxExits ≤ st.contacted + rounds)
    (h : (exitLoop ethers context polls rounds st).run.Yields events (.error .looping)) :
    False := by
  induction rounds generalizing st events with
  | zero =>
    rw [exitLoop, if_neg (by omega)] at h
    cases h.2
  | succ rounds ih =>
    rw [exitLoop] at h
    split_ifs at h with hleft
    · rcases yields_run_bind.mp h with ⟨e, he, heq⟩ | ⟨round, next, _, hround, hrest, rfl⟩
      · cases heq
        exact (exitRound_round he).not_looping
      · refine ih ?_ hrest
        have hcontacted := (exitRound_round hround).contacted_lt
        omega
    · cases h.2

/-- What holds at the start of the exit loop and is kept by a round that goes on holds at its end;
what a round that stops leaves holds of the stop. -/
theorem exitLoop_spec {I : List Event → LoopState → Prop} {P : List Event → Abrupt → Prop}
    (hnext : ∀ history st events next, I history st →
      st.contacted < context.settings.maxExits →
      Round ethers context st polls events (.ok next) → I (history ++ events) next)
    (hstop : ∀ history st events e, I history st → st.contacted < context.settings.maxExits →
      Round ethers context st polls events (.error e) → P (history ++ events) e)
    {r : Except Abrupt LoopState}
    (h : (exitLoop ethers context polls rounds st).run.Yields events r) (hinv : I history st) :
    (∀ final, r = .ok final → I (history ++ events) final) ∧
      ∀ e, r = .error e → e = .looping ∨ P (history ++ events) e := by
  induction rounds generalizing st events history with
  | zero =>
    rw [exitLoop] at h
    split_ifs at h
    · obtain ⟨rfl, rfl⟩ := h
      exact ⟨fun final h => (by cases h), fun e he => .inl (Except.error.inj he).symm⟩
    · obtain ⟨rfl, rfl⟩ := h
      rw [List.append_nil]
      exact ⟨fun final h => Except.ok.inj h ▸ hinv, fun e he => by cases he⟩
  | succ rounds ih =>
    rw [exitLoop] at h
    split_ifs at h with hleft
    · rcases yields_run_bind.mp h with ⟨e, he, rfl⟩ | ⟨round, next, _, hround, hrest, rfl⟩
      · refine ⟨fun final h => (by cases h), fun e' he' => .inr ?_⟩
        obtain rfl := Except.error.inj he'
        exact hstop _ _ _ _ hinv hleft (exitRound_round he)
      · rw [← List.append_assoc]
        exact ih hrest (hnext _ _ _ _ hinv hleft (exitRound_round hround))
    · obtain ⟨rfl, rfl⟩ := h
      rw [List.append_nil]
      exact ⟨fun final h => Except.ok.inj h ▸ hinv, fun e he => by cases he⟩

/-- What a round that stops leaves holds where the loop stops. -/
theorem exitLoop_stop {P : List Event → Abrupt → Prop} {e : Abrupt} (history : List Event)
    (hstop : ∀ history st events e, Round ethers context st polls events (.error e) →
      P (history ++ events) e)
    (h : (exitLoop ethers context polls rounds st).run.Yields events (.error e)) :
    e = .looping ∨ P (history ++ events) e :=
  (exitLoop_spec (I := fun _ _ => True) (fun _ _ _ _ _ _ _ => trivial)
    (fun history st events e _ _ hround => hstop history st events e hround) h trivial).2 e rfl

/-! ### The whole -/

/-- The last read submits nothing. -/
theorem quiet_finalEvidence {result : ExecutePaidResult} {submitted : List SubmittedQuote} :
    (finalEvidence ethers settings result submitted polls).run.Within Op.Quiet := by
  unfold finalEvidence
  split
  · refine quiet_paymentEvidence.run_bind fun evidence => ?_
    cases evidence with
    | result result => exact trivial
    | unconsumed => exact trivial
    | expired => exact trivial
  · exact trivial

/-- A run with valid options: the attempt, then the final read of the evidence. -/
theorem executePaid_cases {r : Except Abrupt ExecutePaidResult}
    (hsettings : resolveSettings ethers options = .ok settings)
    (h : (executePaidIn ethers options polls rounds).run.Yields events r) :
    ∃ attempt final ended, events = attempt ++ final ∧ QuietEvents final ∧
      (attemptBody ethers options settings polls rounds).run.Yields attempt ended ∧
      ((∃ result submitted, attempted ended = .ok (result, submitted) ∧
          (finalEvidence ethers settings result submitted polls).run.Yields final r) ∨
        ∃ e, attempted ended = .error e ∧ r = .error e) := by
  rcases yields_run_bind.mp h with ⟨e, he, rfl⟩ | ⟨_, settings', _, hresolved, hattempt, rfl⟩
  · obtain ⟨_, ⟨-, rfl⟩, he⟩ := yields_uncaught.mp he
    rw [hsettings] at he
    cases he
  obtain ⟨rfl, hok⟩ := yields_uncaught_ok.mp hresolved
  obtain rfl : settings' = settings := Except.ok.inj (hok.trans hsettings)
  rcases yields_run_bind.mp hattempt with
    ⟨e, he, rfl⟩ | ⟨attempt, ⟨result, submitted⟩, final, hended, hfinal, rfl⟩
  · obtain ⟨ended, hbody, he⟩ := yields_map.mp he
    exact ⟨_, [], ended, (List.append_nil _).symm, quietEvents_nil, hbody, .inr ⟨e, he.symm, rfl⟩⟩
  · obtain ⟨ended, hbody, hended⟩ := yields_map.mp hended
    exact ⟨attempt, final, ended, rfl, quiet_finalEvidence.of_yields hfinal, hbody,
      .inl ⟨result, submitted, hended.symm, hfinal⟩⟩

/-- The attempt: it ends in the precheck, or goes through the exit loop. -/
theorem attemptBody_cases {r : Except Abrupt LoopState}
    (h : (attemptBody ethers options settings polls rounds).run.Yields events r) :
    (QuietEvents events ∧ ∃ result, r = .error (.returned result []) ∧
      (result.IsSettled → Resumed ethers settings events result)) ∨
    ∃ pinned pinnedAtMs before loop, events = before ++ loop ∧ QuietEvents before ∧
      Prechecked ethers options settings pinned pinnedAtMs before ∧
      (exitLoop ethers { options, settings, pinned, pinnedAtMs } polls rounds
        (.start settings)).run.Yields loop r := by
  rcases yields_run_bind.mp h with
    ⟨e, he, rfl⟩ | ⟨before, ⟨pinned, pinnedAtMs⟩, loop, hbefore, hloop, rfl⟩
  · rcases precheck_cases he with ⟨result, hresult, hsettled⟩ | ⟨_, _, hok, -⟩
    · cases hresult
      exact .inl ⟨quiet_precheck.of_yields he, result, rfl, hsettled⟩
    · cases hok
  · rcases precheck_cases hbefore with ⟨_, herror, -⟩ | ⟨_, _, hok, hprechecked⟩
    · cases herror
    · cases hok
      exact .inr ⟨pinned, pinnedAtMs, before, loop, rfl, quiet_precheck.of_yields hbefore,
        hprechecked, hloop⟩

/-! ### The quotes that were submitted -/

/-- A round submits what it adds to `submitted`. -/
theorem Round.submitted_eq {r : Except Abrupt LoopState}
    (h : Round ethers context st polls events r) :
    (∀ next, r = .ok next → next.submitted = st.submitted ++ deliveries events) ∧
      ∀ result submitted, r = .error (.returned result submitted) →
        submitted = st.submitted ++ deliveries events := by
  -- asking for a quote delivers nothing
  have hrequest : ∀ (request : PaidQuoteRequestV2) (exit : TopologyNode) (reply : QuoteReply)
      (before after : List Event), QuietEvents before →
      deliveries (before ++ ⟨.requestPaidQuote request exit, reply⟩ :: after)
        = deliveries after := by
    intro request exit reply before after hquiet
    rw [deliveries_append, deliveries_of_quiet hquiet, deliveries_cons]
    rfl
  cases h with
  | unasked hquiet hearly =>
    rw [deliveries_of_quiet hquiet, List.append_nil]
    refine ⟨fun next h => (by cases h), fun result submitted h => ?_⟩
    obtain rfl := Except.error.inj h
    exact hearly.2
  | unanswered hquiet hstep =>
    rw [hrequest _ _ _ _ _ hquiet]
    refine ⟨fun next h => ?_, fun result submitted h => by cases h⟩
    obtain rfl := Except.ok.inj h
    rw [(quoteStep_next hstep).1]
    exact (List.append_nil _).symm
  | failed hquiet hstep =>
    rw [hrequest _ _ _ _ _ hquiet]
    refine ⟨fun next h => (by cases h), fun result submitted h => ?_⟩
    cases h
    exact (List.append_nil _).symm
  | left hquiet hstep hchecks hearly =>
    rw [hrequest _ _ _ _ _ hquiet, deliveries_of_quiet hchecks, List.append_nil]
    refine ⟨fun next h => (by cases h), fun result submitted h => ?_⟩
    obtain rfl := Except.error.inj h
    exact hearly.2
  | @submitted before plan request exit reply issued next checks typed calldata outcome after r
      hquiet hplanned hstep hchecks htyped hchecked hafter =>
    have hdelivered : deliveries (before ++ ⟨.requestPaidQuote request exit, reply⟩ ::
        (checks ++ ⟨.submitPaidTransaction issued calldata, outcome⟩ :: after))
          = (delivered ⟨.submitPaidTransaction issued calldata, outcome⟩).toList := by
      rw [hrequest _ _ _ _ _ hquiet, deliveries_append, deliveries_of_quiet hchecks,
        deliveries_cons, deliveries_of_quiet (quiet_afterSubmit.of_yields hafter),
        List.append_nil, List.nil_append]
    rw [hdelivered, ← (quoteStep_issued hstep).2.1]
    rcases afterSubmit_cases hafter with
      ⟨hrefused, reason, rfl⟩ | ⟨hsent, _, rfl, rfl | ⟨_, rfl, hsubmitted, -⟩ | ⟨_, rfl, -⟩⟩
    · refine ⟨fun next h => (by cases h), fun result submitted h => ?_⟩
      cases h
      rw [delivered_of_refused hrefused]
      exact (List.append_nil _).symm
    · exact ⟨fun next h => (by cases h), fun result submitted h => by cases h⟩
    · refine ⟨fun next h => ?_, fun result submitted h => by cases h⟩
      obtain rfl := Except.ok.inj h
      rw [hsubmitted, delivered_of_sent hsent]
      rfl
    · refine ⟨fun next h => (by cases h), fun result submitted h => ?_⟩
      cases h
      rw [delivered_of_sent hsent]
      rfl

/-- `submitted` is what the trace of the attempt submitted. -/
theorem attempted_submitted {ended : Except Abrupt LoopState} {result : ExecutePaidResult}
    {submitted : List SubmittedQuote}
    (h : (attemptBody ethers options settings polls rounds).run.Yields events ended)
    (hended : attempted ended = .ok (result, submitted)) : submitted = deliveries events := by
  rcases attemptBody_cases h with ⟨hquiet, result', rfl, -⟩ |
    ⟨pinned, pinnedAtMs, before, loop, rfl, hquiet, -, hloop⟩
  · cases hended
    exact (deliveries_of_quiet hquiet).symm
  · have hspec := exitLoop_spec
      (I := fun history st => st.submitted = deliveries history)
      (P := fun history e => ∀ result submitted, e = .returned result submitted →
        submitted = deliveries history)
      (fun history st events next hinv _ hround => by
        rw [deliveries_append, ← hinv]
        exact hround.submitted_eq.1 _ rfl)
      (fun history st events e hinv _ hround result submitted he => by
        rw [deliveries_append, ← hinv]
        exact hround.submitted_eq.2 result submitted (he ▸ rfl))
      hloop (deliveries_of_quiet hquiet).symm
    rcases ended with (_ | _ | _ | _) | final
    · cases hended
      rcases hspec.2 _ rfl with h | h
      · cases h
      · exact h _ _ rfl
    · cases hended
    · cases hended
    · cases hended
    · cases hended
      exact hspec.1 _ rfl

end NoxSdk.Paid
