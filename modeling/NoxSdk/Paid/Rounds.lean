import NoxSdk.Paid.EvidenceFacts

/-!
# What a round of the exit loop can do

`Round` says it once: a round asks no exit, or asks one and goes on or stops with what it got, or
stops on a check of the quote, or submits. Everything else about paid execution is read off from
it. Two kinds of facts carry it: which steps make neither a request nor a submission (`Op.Quiet`),
and what is known when a step goes on.
-/

namespace NoxSdk.Paid

open Bincode (PaidTransactionOutcomeV2)
open Js (toLowerCase)
open NoxSdk.Lib
open NoxSdk.Lib.Prog

variable {ethers : Ethers} {options : ExecutePaidOptions} {settings : Settings}
  {context : Context} {st : LoopState} {events : List Event} {polls : ℕ}

/-! ### Steps without a request or a submission -/

section Quiet

variable {plan : PaidGasPlan} {issued : IssuedPaidQuoteV2} {typed : QuoteTuple}

/-- The state is only read. -/
theorem quiet_readState : (readState ethers options settings).run.Within Op.Quiet := by
  refine Within.run_bind (within_perform trivial) fun block => ?_
  refine (quiet_readFlag.both (quiet_readFlag.both (within_perform trivial))).run_bind ?_
  rintro ⟨paymentConsumed, intentConsumed, timestamp⟩
  dsimp only
  split_ifs
  -- both flags are set, and the settlement is read
  · refine (quiet_lift (quiet_resume.bind fun result => ?_)).run_bind fun _ => trivial
    cases result with
    | error failure => exact trivial
    | ok result => exact trivial
  · cases precheckResult options settings paymentConsumed intentConsumed timestamp with
    | some result => exact trivial
    | none =>
      -- what is left are the reads for the gas
      have hgas : (readActionGas ethers settings options.action block).run.Within Op.Quiet := by
        rw [readActionGas]
        split
        · exact trivial
        · refine quiet_ofExcept.run_bind fun data => ?_
          refine Within.run_bind (within_perform trivial) fun predicted => ?_
          refine quiet_ofExcept.run_bind fun sandbox => ?_
          exact Within.run_bind (within_perform trivial) fun _ => trivial
      have hfee : ∀ bytes,
          (readDataFeeGas ethers options settings bytes).run.Within Op.Quiet := by
        intro bytes
        have hbytes : (perform (Op.randomBytes bytes) : Program Bytes).Within Op.Quiet :=
          ⟨trivial, fun _ => trivial⟩
        rw [readDataFeeGas]
        split_ifs
        · exact (quiet_lift hbytes).run_bind fun _ => within_perform trivial
        · refine (quiet_lift hbytes).run_bind fun data => ?_
          refine quiet_ofExcept.run_bind fun encoded => ?_
          exact Within.run_bind (within_perform trivial) fun _ => quiet_ofExcept
        · exact trivial
      exact hgas.run_bind fun _ => (hfee _).run_bind fun _ => trivial

/-- The check before the loop only reads. -/
theorem quiet_precheck : (precheck ethers options settings).run.Within Op.Quiet := by
  have haction : (checkAction options).run.Within Op.Quiet :=
    Within.run_bind (within_perform trivial) fun _ => trivial
  refine (quiet_tryOr haction).run_bind fun _ => ?_
  exact (quiet_tryOr quiet_readState).run_bind fun _ => quiet_dateNow.run_bind fun _ => trivial

theorem quiet_readUnix : (readUnix context).run.Within Op.Quiet :=
  quiet_dateNow.run_bind fun _ => trivial

theorem quiet_headroom : (headroom context issued).run.Within Op.Quiet :=
  quiet_readUnix.run_bind fun _ => trivial

/-- The check of the headroom reads the clock and nothing else. -/
theorem quiet_checkHeadroom {subject : String} :
    (checkHeadroom context st issued subject).run.Within Op.Quiet := by
  refine quiet_headroom.run_bind fun left => ?_
  split_ifs
  · exact quiet_headroom.run_bind fun _ => quiet_stop
  · exact trivial

/-- The check of a quote only reads. -/
theorem quiet_checkQuote :
    (checkQuote ethers context st issued typed).run.Within Op.Quiet := by
  rw [checkQuote]
  split_ifs
  · exact quiet_stop
  · refine Within.run_bind ?_ fun _ => quiet_checkHeadroom
    refine quiet_readUnix.run_bind fun unix => ?_
    split_ifs
    · refine quiet_tryOr (Within.run_bind (within_perform trivial) fun chainNow => ?_)
      split_ifs
      · exact trivial
      · exact trivial
    · exact trivial

theorem quiet_buildPayment :
    (buildPayment ethers context st issued typed).run.Within Op.Quiet :=
  quiet_tryOr (Within.run_bind (within_perform trivial) fun _ =>
    quiet_ofExcept.run_bind fun _ => trivial)

/-- The simulation is an estimate of gas, which only reads. -/
theorem quiet_simulate {calldata : Bytes} :
    (simulate ethers context st plan typed calldata).run.Within Op.Quiet := by
  refine quiet_tryOr (Within.run_bind
    (Within.both (within_perform trivial) (within_perform trivial)) ?_)
  rintro ⟨estimate, simulated⟩
  refine quiet_ofExcept.run_bind fun success => ?_
  split_ifs
  · exact trivial
  · exact trivial

theorem quiet_checkSubmit {estimatedGas : ℤ} :
    (checkSubmit context st plan issued typed estimatedGas).run.Within Op.Quiet := by
  rw [checkSubmit]
  split_ifs
  · exact quiet_stop
  · exact quiet_stop
  · exact quiet_checkHeadroom

/-- All that comes before the submission only reads. -/
theorem quiet_prepare :
    (prepare ethers context st plan issued typed).run.Within Op.Quiet := by
  refine quiet_checkQuote.run_bind fun _ => quiet_buildPayment.run_bind fun paymentData => ?_
  refine (quiet_uncaught quiet_ofExcept).run_bind fun calldata => ?_
  exact quiet_simulate.run_bind fun _ => quiet_checkSubmit.run_bind fun _ => trivial

/-- What comes behind the submission only reads and sleeps. -/
theorem quiet_afterSubmit {outcome : Except Failure PaidTransactionOutcomeV2} :
    (afterSubmit ethers context st plan issued typed polls outcome).run.Within Op.Quiet := by
  rw [afterSubmit]
  split
  · exact quiet_stop
  · dsimp only
    split
    · refine quiet_paymentEvidence.run_bind fun evidence => ?_
      cases evidence with
      | result result => exact quiet_stop
      | unconsumed => exact trivial
      | expired => exact trivial
    · refine quiet_dateNow.run_bind fun startedAt => Within.run_bind ?_ fun ms => ?_
      · rw [confirmationMs]
        split
        · exact trivial
        · refine quiet_headroom.run_bind fun left => ?_
          dsimp only
          split_ifs
          · exact quiet_headroom.run_bind fun _ => trivial
          · exact trivial
      · refine quiet_awaitSettlement.run_bind fun evidence => ?_
        cases evidence with
        | found settlement => exact quiet_stop
        | unknown detail => exact quiet_stop
        | expired => exact trivial

end Quiet

/-! ### Stopping before a submission -/

/-- The result of a run that submitted nothing in this round. -/
def ExecutePaidResult.BeforeSubmission : ExecutePaidResult → Prop
  | .notPaid _ => True
  | .dryRun _ _ _ _ _ _ => True
  | _ => False

/-- A step stopped before the submission of its round. -/
def EndsEarly (submitted : List SubmittedQuote) : Abrupt → Prop
  | .returned result submitted' => result.BeforeSubmission ∧ submitted' = submitted
  | .thrown _ => True
  | _ => False

section Early

variable {plan : PaidGasPlan} {issued : IssuedPaidQuoteV2} {typed : QuoteTuple} {α : Type}
  {submitted : List SubmittedQuote}

/-- A stage that stops with such a result ends early. -/
theorem endsEarly_stop {result : ExecutePaidResult} (h : result.BeforeSubmission) :
    Stops (EndsEarly submitted) (stop result submitted : Stage α) :=
  stops_throw ⟨h, rfl⟩

theorem endsEarly_uncaught {x : Async α} : Stops (EndsEarly submitted) (uncaught x) := by
  intro events e h
  obtain ⟨failure | a, -, he⟩ := yields_uncaught.mp h
  · cases he
    exact trivial
  · cases he

/-- A `try` block whose results, and those of its `catch`, are of a run that submitted nothing. -/
theorem endsEarly_tryOr {x : Async (ExecutePaidResult ⊕ α)}
    {onFailure : Failure → ExecutePaidResult}
    (hx : ∀ events result, x.run.Yields events (.ok (.inl result)) → result.BeforeSubmission)
    (hfailure : ∀ failure, (onFailure failure).BeforeSubmission) :
    Stops (EndsEarly submitted) (tryOr submitted x onFailure) := by
  intro events e h
  obtain ⟨failure | result | a, hr, he⟩ := yields_tryOr.mp h
  · cases he
    exact ⟨hfailure failure, rfl⟩
  · cases he
    exact ⟨hx _ _ hr, rfl⟩
  · cases he

theorem endsEarly_checkHeadroom {subject : String} :
    Stops (EndsEarly st.submitted) (checkHeadroom context st issued subject) := by
  have hread : ∀ {β : Type} {f : ℤ → Stage β}, (∀ left, Stops (EndsEarly st.submitted) (f left)) →
      Stops (EndsEarly st.submitted) (headroom context issued >>= f) :=
    fun hf => (stops_lift.bind fun _ => stops_pure).bind (fun _ => stops_pure) |>.bind hf
  refine hread fun left => ?_
  split_ifs
  · exact hread fun _ => endsEarly_stop trivial
  · exact stops_pure

theorem endsEarly_checkQuote :
    Stops (EndsEarly st.submitted) (checkQuote ethers context st issued typed) := by
  rw [checkQuote]
  split_ifs
  · exact endsEarly_stop trivial
  · refine Stops.bind ?_ fun _ => endsEarly_checkHeadroom
    refine (stops_lift.bind fun _ => stops_pure).bind fun unix => ?_
    split_ifs
    · refine endsEarly_tryOr (fun events result h => ?_) fun _ => trivial
      obtain ⟨_, chainNow, _, -, hrest, -⟩ := yields_run_bind_ok.mp h
      split_ifs at hrest
      · cases hrest.2
        exact trivial
      · cases hrest.2
    · exact stops_pure

theorem endsEarly_buildPayment :
    Stops (EndsEarly st.submitted) (buildPayment ethers context st issued typed) := by
  refine endsEarly_tryOr (fun events result h => ?_) fun _ => trivial
  obtain ⟨_, data, _, -, hrest, -⟩ := yields_run_bind_ok.mp h
  obtain ⟨_, data, _, -, hlast, -⟩ := yields_run_bind_ok.mp hrest
  cases hlast.2

theorem endsEarly_simulate {calldata : Bytes} :
    Stops (EndsEarly st.submitted) (simulate ethers context st plan typed calldata) := by
  refine endsEarly_tryOr (fun events result h => ?_) fun _ => trivial
  obtain ⟨_, ⟨estimate, simulated⟩, _, -, hrest, -⟩ := yields_run_bind_ok.mp h
  obtain ⟨_, success, _, -, hlast, -⟩ := yields_run_bind_ok.mp hrest
  split_ifs at hlast
  · cases hlast.2
  · cases hlast.2
    exact trivial

/-- Whatever ends the preparation of a submission ends the call before it. -/
theorem endsEarly_prepare :
    Stops (EndsEarly st.submitted) (prepare ethers context st plan issued typed) := by
  refine endsEarly_checkQuote.bind fun _ => endsEarly_buildPayment.bind fun paymentData => ?_
  refine endsEarly_uncaught.bind fun calldata => endsEarly_simulate.bind fun estimatedGas => ?_
  refine Stops.bind ?_ fun _ => stops_pure
  rw [checkSubmit]
  split_ifs
  · exact endsEarly_stop trivial
  · exact endsEarly_stop trivial
  · exact endsEarly_checkHeadroom

end Early

/-! ### What was checked before a submission -/

/-- What holds of the events between a quote and its submission. -/
structure Checked (ethers : Ethers) (context : Context) (buffer : ℕ) (cap : ℤ)
    (issued : IssuedPaidQuoteV2) (typed : QuoteTuple) (calldata : Bytes)
    (events : List Event) : Prop where
  notDryRun : context.settings.dryRun = false
  fee : ((typed.exitFee + typed.networkFee : ℕ) : ℤ) ≤ context.options.maxTotalFee
  payment : ∃ paymentData, Answered events (.buildPaymentData issued.executionId
      (typed.exitFee + typed.networkFee) context.settings.feeAsset) (.ok paymentData) ∧
    0 < paymentData.length ∧ paymentData.length ≤ context.options.payment.paymentDataLength ∧
    encodeEntryPointExecute ethers issued context.options.action.data
      context.settings.trackedAssets paymentData = .ok calldata
  simulation : ∃ result, Answered events (.preflightCall
      { from_ := typed.exitAddress
        to_ := context.settings.entryPoint
        data := hexlify calldata
        gas := cap
        gasPrice := some (typed.maximumFeePerGas : ℤ) } .latest) (.ok result) ∧
    ethers.decodeExecuteSuccess result = .ok true
  estimate : ∃ estimatedGas, Answered events (.preflightEstimateGas typed.exitAddress
      context.settings.entryPoint (hexlify calldata)) (.ok estimatedGas) ∧
    ceilDiv (estimatedGas * (bpsUnit + buffer)) bpsUnit ≤ cap
  headroom : ∃ earlier localMs, events = earlier ++ [(⟨.now, localMs⟩ : Event)] ∧
    (context.settings.minSubmitHeadroomSecs : ℤ) ≤ issued.quote.validUntilUnix -
      nowUnix context.pinned.timestamp context.pinnedAtMs localMs

section Checks

variable {plan : PaidGasPlan} {issued : IssuedPaidQuoteV2} {typed : QuoteTuple}
  {calldata : Bytes}

/-- The time is the pinned one, moved by the local clock. -/
theorem readUnix_ok {unix : ℤ} (h : (readUnix context).run.Yields events (.ok unix)) :
    ∃ localMs, events = [(⟨.now, localMs⟩ : Event)] ∧
      unix = nowUnix context.pinned.timestamp context.pinnedAtMs localMs := by
  obtain ⟨_, localMs, _, hnow, ⟨rfl, hunix⟩, rfl⟩ := yields_run_lift_bind.mp h
  obtain rfl := yields_perform.mp hnow
  exact ⟨localMs, rfl, Except.ok.inj hunix⟩

/-- A quote passes when it is valid for long enough at the time that was read. -/
theorem checkHeadroom_ok {subject : String}
    (h : (checkHeadroom context st issued subject).run.Yields events (.ok ())) :
    ∃ localMs, events = [(⟨.now, localMs⟩ : Event)] ∧
      (context.settings.minSubmitHeadroomSecs : ℤ) ≤ issued.quote.validUntilUnix -
        nowUnix context.pinned.timestamp context.pinnedAtMs localMs := by
  obtain ⟨_, left, _, hleft, hrest, rfl⟩ := yields_run_bind_ok.mp h
  obtain ⟨_, unix, _, hunix, ⟨rfl, heq⟩, rfl⟩ := yields_run_bind_ok.mp hleft
  obtain ⟨localMs, rfl, rfl⟩ := readUnix_ok hunix
  obtain rfl := Except.ok.inj heq
  split_ifs at hrest with hshort
  · obtain ⟨_, _, _, -, hstop, -⟩ := yields_run_bind_ok.mp hrest
    cases hstop.2
  · obtain ⟨rfl, -⟩ := hrest
    exact ⟨localMs, rfl, not_lt.mp hshort⟩

/-- The payment data are what the caller built for this quote and its fees. -/
theorem buildPayment_ok {paymentData : Bytes}
    (h : (buildPayment ethers context st issued typed).run.Yields events (.ok paymentData)) :
    Answered events (.buildPaymentData issued.executionId (typed.exitFee + typed.networkFee)
      context.settings.feeAsset) (.ok paymentData) ∧
    0 < paymentData.length ∧ paymentData.length ≤ context.options.payment.paymentDataLength := by
  obtain ⟨_, data, _, hcall, hrest, rfl⟩ := yields_run_bind_ok.mp (yields_tryOr_ok.mp h)
  obtain rfl := yields_perform.mp hcall
  obtain ⟨_, checked, _, ⟨rfl, hchecked⟩, ⟨rfl, heq⟩, rfl⟩ := yields_run_bind_ok.mp hrest
  obtain rfl : paymentData = checked := Sum.inr.inj (Except.ok.inj heq)
  rw [checkPaymentData] at hchecked
  split_ifs at hchecked with hempty hlong
  obtain rfl := Except.ok.inj hchecked
  exact ⟨List.mem_cons_self, Nat.pos_of_ne_zero hempty, not_lt.mp hlong⟩

/-- The estimate is that of the calldata which is submitted afterwards. -/
theorem simulate_ok {estimatedGas : ℤ}
    (h : (simulate ethers context st plan typed calldata).run.Yields events (.ok estimatedGas)) :
    Answered events (.preflightEstimateGas typed.exitAddress context.settings.entryPoint
      (hexlify calldata)) (.ok estimatedGas) ∧
    ∃ result, Answered events (.preflightCall (simulationCall context plan typed calldata) .latest)
      (.ok result) ∧ ethers.decodeExecuteSuccess result = .ok true := by
  obtain ⟨_, ⟨estimate, simulated⟩, _, hreads, hrest, rfl⟩ :=
    yields_run_bind_ok.mp (yields_tryOr_ok.mp h)
  obtain ⟨_, _, hestimate, hcall, rfl⟩ := yields_run_both_ok.mp hreads
  obtain rfl := yields_perform.mp hestimate
  obtain rfl := yields_perform.mp hcall
  obtain ⟨_, success, _, ⟨rfl, hsuccess⟩, hlast, rfl⟩ := yields_run_bind_ok.mp hrest
  split_ifs at hlast with htrue
  · obtain rfl := Sum.inr.inj (Except.ok.inj hlast.2)
    refine ⟨List.mem_cons_self, simulated, ?_, htrue ▸ hsuccess.symm⟩
    exact List.mem_append_left _ (List.mem_append_right _ List.mem_cons_self)
  · cases hlast.2

/-- Calldata that are ready for the submission have passed every check. -/
theorem prepare_ok
    (h : (prepare ethers context st plan issued typed).run.Yields events (.ok calldata)) :
    Checked ethers context st.exitGasBufferBps plan.maximumTransactionGas issued typed calldata
      events := by
  obtain ⟨quoted, _, _, hquote, hpaid, rfl⟩ := yields_run_bind_ok.mp h
  obtain ⟨paid, paymentData, _, hpayment, hencoded, rfl⟩ := yields_run_bind_ok.mp hpaid
  obtain ⟨_, calldata', _, hcalldata, hsimulated, rfl⟩ := yields_run_bind_ok.mp hencoded
  obtain ⟨rfl, hencode⟩ := yields_uncaught_ok.mp hcalldata
  obtain ⟨simulated, estimatedGas, _, hsimulate, hlast, rfl⟩ := yields_run_bind_ok.mp hsimulated
  obtain ⟨submitted, _, _, hsubmit, ⟨rfl, heq⟩, rfl⟩ := yields_run_bind_ok.mp hlast
  obtain rfl := Except.ok.inj heq
  obtain ⟨hanswered, hpositive, hlength⟩ := buildPayment_ok hpayment
  obtain ⟨hestimate, result, hcall, hsuccess⟩ := simulate_ok hsimulate
  have hfee : ¬ context.options.maxTotalFee < ((typed.exitFee + typed.networkFee : ℕ) : ℤ) := by
    intro hexceeds
    rw [checkQuote, if_pos hexceeds] at hquote
    cases hquote.2
  rw [checkSubmit] at hsubmit
  split_ifs at hsubmit with hcap hdry
  · cases hsubmit.2
  · cases hsubmit.2
  obtain ⟨localMs, rfl, hheadroom⟩ := checkHeadroom_ok hsubmit
  refine
    { notDryRun := Bool.not_eq_true _ ▸ hdry
      fee := not_lt.mp hfee
      payment := ⟨paymentData, hanswered.mono ?_, hpositive, hlength, hencode.symm⟩
      simulation := ⟨result, hcall.mono ?_, hsuccess⟩
      estimate := ⟨estimatedGas, hestimate.mono ?_, not_lt.mp hcap⟩
      headroom := ⟨quoted ++ paid ++ simulated, localMs, by simp, hheadroom⟩ }
  all_goals
    intro event hevent
    simp [hevent]

end Checks

/-! ### The round -/

/-- What was planned for a request. -/
def Planned (context : Context) (buffer : ℕ) (plan : PaidGasPlan) (request : PaidQuoteRequestV2) :
    Prop :=
  planPaidGas (planInput context buffer) = .ok plan ∧
    request.maximumTransactionGas = plan.maximumTransactionGas

/-- No request and no submission. -/
def QuietEvents (events : List Event) : Prop := ∀ event ∈ events, Op.Quiet event.1

/-- What a round of the exit loop can do: its events and its end. -/
inductive Round (ethers : Ethers) (context : Context) (st : LoopState) (polls : ℕ) :
    List Event → Except Abrupt LoopState → Prop
  /-- No exit was asked. -/
  | unasked {events : List Event} {e : Abrupt} (hquiet : QuietEvents events)
    (hearly : EndsEarly st.submitted e) : Round ethers context st polls events (.error e)
  /-- An exit was asked, and the loop goes on without its quote. -/
  | unanswered {before : List Event} {request : PaidQuoteRequestV2} {exit : TopologyNode}
    {reply : QuoteReply} {next : LoopState} (hquiet : QuietEvents before)
    (hstep : quoteStep ethers (st.use exit) exit reply.outcome = .next next) :
    Round ethers context st polls (before ++ [⟨.requestPaidQuote request exit, reply⟩]) (.ok next)
  /-- The request failed in a way that ends the run. -/
  | failed {before : List Event} {request : PaidQuoteRequestV2} {exit : TopologyNode}
    {reply : QuoteReply} {reason : NotPaid} (hquiet : QuietEvents before)
    (hstep : quoteStep ethers (st.use exit) exit reply.outcome = .failed reason) :
    Round ethers context st polls (before ++ [⟨.requestPaidQuote request exit, reply⟩])
      (.error (.returned (.notPaid reason) st.submitted))
  /-- A quote was issued, and a check stopped the run before the submission. -/
  | left {before : List Event} {request : PaidQuoteRequestV2} {exit : TopologyNode}
    {reply : QuoteReply} {issued : IssuedPaidQuoteV2} {next : LoopState} {checks : List Event}
    {e : Abrupt} (hquiet : QuietEvents before)
    (hstep : quoteStep ethers (st.use exit) exit reply.outcome = .issued issued next)
    (hchecks : QuietEvents checks) (hearly : EndsEarly st.submitted e) :
    Round ethers context st polls
      (before ++ ⟨.requestPaidQuote request exit, reply⟩ :: checks) (.error e)
  /-- A quote was issued, checked and submitted. -/
  | submitted {before : List Event} {plan : PaidGasPlan} {request : PaidQuoteRequestV2}
    {exit : TopologyNode} {reply : QuoteReply} {issued : IssuedPaidQuoteV2} {next : LoopState}
    {checks : List Event} {typed : QuoteTuple} {calldata : Bytes}
    {outcome : Except Failure PaidTransactionOutcomeV2} {after : List Event}
    {r : Except Abrupt LoopState} (hquiet : QuietEvents before)
    (hplanned : Planned context st.exitGasBufferBps plan request)
    (hstep : quoteStep ethers (st.use exit) exit reply.outcome = .issued issued next)
    (hquietChecks : QuietEvents checks)
    (htyped : quoteTypedData ethers issued.quote = .ok typed)
    (hchecked : Checked ethers context next.exitGasBufferBps plan.maximumTransactionGas issued
      typed calldata checks)
    (hafter : (afterSubmit ethers context next plan issued typed polls outcome).run.Yields
      after r) :
    Round ethers context st polls (before ++ ⟨.requestPaidQuote request exit, reply⟩ ::
      (checks ++ ⟨.submitPaidTransaction issued calldata, outcome⟩ :: after)) r

theorem QuietEvents.append {before after : List Event} (hbefore : QuietEvents before)
    (hafter : QuietEvents after) : QuietEvents (before ++ after) := fun event hevent =>
  (List.mem_append.mp hevent).elim (hbefore event) (hafter event)

/-- The state after an outcome without a quote. -/
theorem quoteStep_next {exit : TopologyNode} {outcome : Except Failure PaidQuoteResultV2}
    {next : LoopState} (h : quoteStep ethers (st.use exit) exit outcome = .next next) :
    next.submitted = st.submitted ∧ next.exitGasBufferBps = st.exitGasBufferBps ∧
      st.contacted < next.contacted := by
  match outcome with
  | .ok (.rejected rejection) =>
    cases h
    exact ⟨rfl, rfl, Nat.lt_succ_self _⟩
  | .ok (.issued issued) => cases h
  | .error failure =>
    rw [quoteStep] at h
    split at h <;> cases h
    · exact ⟨rfl, rfl, Nat.lt_add_of_pos_right Nat.two_pos⟩
    · exact ⟨rfl, rfl, Nat.lt_succ_self _⟩

/-- The state after a quote. -/
theorem quoteStep_issued {exit : TopologyNode} {outcome : Except Failure PaidQuoteResultV2}
    {issued : IssuedPaidQuoteV2} {next : LoopState}
    (h : quoteStep ethers (st.use exit) exit outcome = .issued issued next) :
    outcome = .ok (.issued issued) ∧ next.submitted = st.submitted ∧
      next.exitGasBufferBps = st.exitGasBufferBps ∧ st.contacted < next.contacted := by
  match outcome with
  | .ok (.rejected rejection) => cases h
  | .ok (.issued issued') =>
    cases h
    refine ⟨rfl, rfl, rfl, Nat.lt_add_of_pos_right ?_⟩
    split_ifs
    · exact Nat.one_pos
    · exact Nat.two_pos
  | .error failure =>
    rw [quoteStep] at h
    split at h <;> cases h

theorem quietEvents_nil : QuietEvents [] := fun _ hevent => absurd hevent List.not_mem_nil

/-- Selecting an exit asks none, and stops the run when there is none. -/
theorem selectExit_spec {r : Except Abrupt TopologyNode}
    (h : (selectExit ethers st).run.Yields events r) :
    QuietEvents events ∧ ∀ e, r = .error e → EndsEarly st.submitted e := by
  obtain ⟨_, result, _, hcall, hrest, rfl⟩ := yields_run_lift_bind.mp h
  obtain rfl := yields_perform.mp hcall
  have hone : QuietEvents [(⟨.selectPaidExit st.usedExits, result⟩ : Event)] :=
    List.forall_mem_singleton.mpr trivial
  cases result with
  | ok exit =>
    obtain ⟨rfl, rfl⟩ := hrest
    exact ⟨hone.append quietEvents_nil, fun e he => by cases he⟩
  | error failure =>
    obtain ⟨rfl, rfl⟩ := hrest
    refine ⟨hone.append quietEvents_nil, fun e he => ?_⟩
    cases he
    refine ⟨?_, rfl⟩
    split_ifs
    · trivial
    · trivial

/-- A request for a quote carries the bounds of the plan. -/
theorem quoteRequest_planned {plan : PaidGasPlan} {unix : ℤ} {request : PaidQuoteRequestV2}
    (hplan : planPaidGas (planInput context st.exitGasBufferBps) = .ok plan)
    (h : quoteRequest ethers context plan unix = .ok request) :
    Planned context st.exitGasBufferBps plan request := by
  refine ⟨hplan, ?_⟩
  obtain ⟨_, -, h⟩ := bind_eq_ok_iff.mp h
  obtain ⟨_, -, h⟩ := bind_eq_ok_iff.mp h
  obtain ⟨_, -, h⟩ := bind_eq_ok_iff.mp h
  obtain ⟨_, -, h⟩ := bind_eq_ok_iff.mp h
  obtain ⟨_, -, h⟩ := bind_eq_ok_iff.mp h
  exact (congrArg PaidQuoteRequestV2.maximumTransactionGas (Except.ok.inj h)).symm

/-- A request for a quote ends before anything was asked, or asks one exit; what comes back is a
quote that was validated, another round, or the end of the call. -/
theorem requestQuote_cases
    {r : Except Abrupt (LoopState ⊕ PaidGasPlan × IssuedPaidQuoteV2 × LoopState)}
    (h : (requestQuote ethers context st).run.Yields events r) :
    (QuietEvents events ∧ ∃ e, r = .error e ∧ EndsEarly st.submitted e) ∨
    ∃ before plan request exit reply,
      events = before ++ [(⟨.requestPaidQuote request exit, reply⟩ : Event)] ∧
      QuietEvents before ∧ Planned context st.exitGasBufferBps plan request ∧
      r = match quoteStep ethers (st.use exit) exit reply.outcome with
        | .next next => .ok (.inl next)
        | .issued issued next => .ok (.inr (plan, issued, next))
        | .failed reason => .error (.returned (.notPaid reason) st.submitted) := by
  rw [requestQuote, planRound] at h
  cases hplan : planPaidGas (planInput context st.exitGasBufferBps) with
  | error failure =>
    -- no gas plan: the round ends before it asks
    rw [hplan] at h
    rcases yields_run_bind.mp h with ⟨e, ⟨rfl, he⟩, rfl⟩ | ⟨_, _, _, ⟨_, hok⟩, _⟩
    · cases he
      exact .inl ⟨quietEvents_nil, _, rfl, trivial, rfl⟩
    · cases hok
  | ok plan =>
    rw [hplan] at h
    rcases yields_run_bind.mp h with ⟨_, ⟨_, hok⟩, _⟩ | ⟨_, plan', _, ⟨rfl, hok⟩, hselect, rfl⟩
    · cases hok
    obtain rfl := Except.ok.inj hok
    rcases yields_run_bind.mp hselect with ⟨e, he, rfl⟩ | ⟨select, exit, _, hexit, hunix, rfl⟩
    · exact .inl ⟨(selectExit_spec he).1, e, rfl, (selectExit_spec he).2 e rfl⟩
    have hselected := (selectExit_spec hexit).1
    rcases yields_run_bind.mp hunix with ⟨e, he, -⟩ | ⟨clock, unix, _, hclock, hrequest, rfl⟩
    · -- the clock is read by operations that do not fail
      have hnever : Stops (fun _ => False) (readUnix context) :=
        stops_lift.bind fun _ => stops_pure
      exact (hnever _ _ he).elim
    have hclocked : QuietEvents clock := quiet_readUnix.of_yields hclock
    rcases yields_run_bind.mp hrequest with ⟨e, he, rfl⟩ | ⟨_, request, _, hbuilt, hask, rfl⟩
    · obtain ⟨_, ⟨rfl, -⟩, -⟩ := yields_uncaught.mp he
      exact .inl ⟨hselected.append (hclocked.append quietEvents_nil), e, rfl,
        endsEarly_uncaught _ _ he⟩
    obtain ⟨rfl, hrequested⟩ := yields_uncaught_ok.mp hbuilt
    -- the exit is asked, and `quoteStep` reads its answer
    obtain ⟨_, reply, _, hreply, hend, rfl⟩ := yields_run_lift_bind.mp hask
    obtain rfl := yields_perform.mp hreply
    refine .inr ⟨select ++ clock, plan', request, exit, reply, ?_, hselected.append hclocked,
      quoteRequest_planned hplan hrequested.symm, ?_⟩
    · cases hstep : quoteStep ethers (st.use exit) exit reply.outcome <;>
        rw [hstep] at hend <;> obtain ⟨rfl, -⟩ := hend <;> simp
    · cases hstep : quoteStep ethers (st.use exit) exit reply.outcome <;>
        rw [hstep] at hend <;> exact hend.2

/-- A round is one of these. -/
theorem exitRound_round {r : Except Abrupt LoopState}
    (h : (exitRound ethers context st polls).run.Yields events r) :
    Round ethers context st polls events r := by
  rcases yields_run_bind.mp h with ⟨e, he, rfl⟩ | ⟨asked, step, rest, hasked, hrest, rfl⟩
  -- no quote: before an exit was asked, or by its answer
  · rcases requestQuote_cases he with ⟨hquiet, e', he', hearly⟩ |
      ⟨before, plan, request, exit, reply, rfl, hquiet, -, hr⟩
    · cases he'
      exact .unasked hquiet hearly
    · cases hstep : quoteStep ethers (st.use exit) exit reply.outcome with
      | next next =>
        rw [hstep] at hr
        cases hr
      | issued issued next =>
        rw [hstep] at hr
        cases hr
      | failed reason =>
        rw [hstep] at hr
        cases hr
        exact .failed hquiet hstep
  · rcases requestQuote_cases hasked with ⟨-, e, he, -⟩ |
      ⟨before, plan, request, exit, reply, rfl, hquiet, hplanned, hr⟩
    · cases he
    cases hstep : quoteStep ethers (st.use exit) exit reply.outcome with
    | failed reason =>
      rw [hstep] at hr
      cases hr
    | next next =>
      rw [hstep] at hr
      obtain rfl := Except.ok.inj hr
      obtain ⟨rfl, rfl⟩ := hrest
      rw [List.append_nil]
      exact .unanswered hquiet hstep
    | issued issued next =>
      rw [hstep] at hr
      obtain rfl := Except.ok.inj hr
      obtain ⟨-, hsubmitted, -, -⟩ := quoteStep_issued hstep
      rcases yields_run_bind.mp hrest with ⟨e, he, rfl⟩ | ⟨_, typed, later, htyped, hlater, rfl⟩
      -- the typed data of the quote cannot be computed
      · obtain ⟨_, ⟨rfl, -⟩, -⟩ := yields_uncaught.mp he
        rw [List.append_assoc, List.singleton_append]
        exact .left hquiet hstep quietEvents_nil (endsEarly_uncaught _ _ he)
      obtain ⟨rfl, htypedData⟩ := yields_uncaught_ok.mp htyped
      rw [List.nil_append, List.append_assoc, List.singleton_append]
      rcases yields_run_bind.mp hlater with
        ⟨e, he, rfl⟩ | ⟨checks, calldata, _, hprepare, hsubmit, rfl⟩
      · exact .left hquiet hstep (quiet_prepare.of_yields he)
          (hsubmitted ▸ endsEarly_prepare _ _ he)
      · -- the quote passed its checks, and its calldata goes to the exit
        obtain ⟨_, outcome, after, hcall, hafter, rfl⟩ := yields_run_lift_bind.mp hsubmit
        obtain rfl := yields_perform.mp hcall
        exact .submitted hquiet hplanned hstep (quiet_prepare.of_yields hprepare) htypedData.symm
          (prepare_ok hprepare) hafter

end NoxSdk.Paid
