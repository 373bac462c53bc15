import NoxSdk.Paid.Submissions

/-!
# Settled results

A settled result is made from a log of the chain reader. After a submission the log is compared
field by field with the quote that was submitted; where the payment was found consumed, only the
action and the hash of the quote in the transaction's calldata are. `settled_bound` is the
condition on the logs under which the result is about this payment either way.
-/

namespace NoxSdk.Paid

open Js (toLowerCase)
open NoxSdk.Lib
open NoxSdk.Lib.Prog
open Bincode (ExecutionQuoteV1 PaidQuoteOutcomeV2 PaidTransactionOutcomeV2)

variable {ethers : Ethers} {options : ExecutePaidOptions} {settings : Settings}
  {context : Context} {st : LoopState} {events events' trace : List Event} {polls rounds : ℕ}
  {settlement : PaidSettlement} {result : ExecutePaidResult}

/-- A settlement log that the chain reader returned. -/
def reported : Event → Option PaidSettlement
  | ⟨.settlementLog _ _ _ _, .ok found⟩ => found
  | ⟨.settlementLogByPayment _ _ _ _, .ok found⟩ => found
  | _ => none

/-- The exit and the fees of a settlement are those of a quote. -/
def Charges (ethers : Ethers) (quote : ExecutionQuoteV1) (settlement : PaidSettlement) : Prop :=
  ∃ typed, quoteTypedData ethers quote = .ok typed ∧
    sameAddress settlement.exit typed.exitAddress ∧ settlement.exitFee = typed.exitFee ∧
    settlement.networkFee = typed.networkFee

/-- A settlement of this payment: its ids, and its exit and fees against the quote with its
execution id. -/
structure Bound (ethers : Ethers) (settings : Settings) (settlement : PaidSettlement) : Prop where
  paymentId : toLowerCase settlement.paymentId = settings.paymentIdHex
  actionTarget : sameAddress settlement.actionTarget settings.target
  feeAsset : sameAddress settlement.feeAsset settings.feeAsset
  quote : ∃ quote, hashExecutionQuoteV1 ethers quote = .ok (toLowerCase settlement.executionId) ∧
    Charges ethers quote settlement

/-- The quotes of a trace went through the client's check. -/
def Validated (ethers : Ethers) (events : List Event) : Prop :=
  ∀ request exit reply issued,
    (⟨.requestPaidQuote request exit, reply⟩ : Event) ∈ events →
    reply.outcome = .ok (.issued issued) →
      ∃ outcome asked selected chainTimestamp,
        validateIssuedPaidQuote ethers outcome asked selected chainTimestamp = .ok issued

theorem requireQuote_ok {condition : Bool} {message : String} {u : Unit}
    (h : requireQuote condition message = .ok u) : condition := by
  rw [requireQuote] at h
  split_ifs at h with hcondition
  · exact hcondition

theorem fixedHex_ok {value : Bytes} {length : ℕ} {field hex : String}
    (h : fixedHex value length field = .ok hex) : hex = hexlify value := by
  rw [fixedHex, requireFixed] at h
  split_ifs at h
  · exact (Except.ok.inj h).symm
  · cases h

/-- The execution id of a quote that went through the check is its hash. -/
theorem validateIssuedPaidQuote_hash {outcome : PaidQuoteOutcomeV2}
    {request : Option PaidQuoteRequestV2} {selectedExit : TopologyNode}
    {chainTimestamp : Option ℤ} {issued : IssuedPaidQuoteV2}
    (h : validateIssuedPaidQuote ethers outcome request selectedExit chainTimestamp = .ok issued) :
    hashExecutionQuoteV1 ethers issued.quote = .ok (toLowerCase (hexlify issued.executionId)) := by
  cases outcome with
  | rejected rejection => cases h
  | issued quote executionId exitSignature =>
    obtain ⟨_, -, h⟩ := bind_eq_ok_iff.mp h
    obtain ⟨_, -, h⟩ := bind_eq_ok_iff.mp h
    obtain ⟨_, -, h⟩ := bind_eq_ok_iff.mp h
    obtain ⟨_, -, h⟩ := bind_eq_ok_iff.mp h
    obtain ⟨_, -, h⟩ := bind_eq_ok_iff.mp h
    obtain ⟨digest, hdigest, h⟩ := bind_eq_ok_iff.mp h
    obtain ⟨id, hid, h⟩ := bind_eq_ok_iff.mp h
    obtain ⟨_, hsame, h⟩ := bind_eq_ok_iff.mp h
    obtain ⟨_, -, h⟩ := bind_eq_ok_iff.mp h
    obtain ⟨_, -, h⟩ := bind_eq_ok_iff.mp h
    obtain ⟨_, -, h⟩ := bind_eq_ok_iff.mp h
    obtain ⟨_, -, h⟩ := bind_eq_ok_iff.mp h
    have hissued : issued = ⟨quote, executionId, exitSignature, selectedExit⟩ := by
      cases request with
      | none => exact (Except.ok.inj h).symm
      | some request =>
        obtain ⟨_, -, h⟩ := bind_eq_ok_iff.mp h
        exact (Except.ok.inj h).symm
    rw [hissued, hdigest, ← of_decide_eq_true (requireQuote_ok hsame), fixedHex_ok hid]

/-! ### The two paths -/

/-- A result made from a log that the chain reader returned, which was judged by the calldata of
its transaction or by a quote of the run. -/
def SettledBy (ethers : Ethers) (settings : Settings) (events : List Event)
    (result : ExecutePaidResult) : Prop :=
  ∃ settlement gas, result = settledResult settlement gas ∧
    settlement ∈ events.filterMap reported ∧
    ((∃ settled, SettlementRead ethers settings events settlement settled ∧
        sameAction settings settled = true) ∨
      ∃ request exit reply issued typed pending,
        (⟨.requestPaidQuote request exit, reply⟩ : Event) ∈ events ∧
        reply.outcome = .ok (.issued issued) ∧ quoteTypedData ethers issued.quote = .ok typed ∧
        IsPending issued typed pending ∧ settlementMismatch settlement settings pending = none)

theorem SettledBy.mono (h : SettledBy ethers settings events result) (hsub : events ⊆ events') :
    SettledBy ethers settings events' result := by
  obtain ⟨settlement, gas, hresult, hreported, hjudged⟩ := h
  refine ⟨settlement, gas, hresult, ?_, ?_⟩
  · obtain ⟨event, hevent, hsome⟩ := List.mem_filterMap.mp hreported
    exact List.mem_filterMap.mpr ⟨event, hsub hevent, hsome⟩
  · rcases hjudged with ⟨settled, hread, hsame⟩ |
      ⟨request, exit, reply, issued, typed, pending, hmem, hrest⟩
    · exact .inl ⟨settled, hread.mono hsub, hsame⟩
    · exact .inr ⟨request, exit, reply, issued, typed, pending, hsub hmem, hrest⟩

theorem Resumed.settledBy (h : Resumed ethers settings events result)
    (hsettled : result.IsSettled) : SettledBy ethers settings events result := by
  rcases h with ⟨_, _, rfl⟩ | ⟨settlement, settled, hread, ⟨-, _, rfl⟩ | ⟨hsame, rfl⟩⟩
  · exact hsettled.elim
  · exact hsettled.elim
  · obtain ⟨first, last, input, hlog, -⟩ := id hread
    exact ⟨settlement, _, rfl, List.mem_filterMap.mpr ⟨_, hlog, rfl⟩, .inl ⟨settled, hread, hsame⟩⟩

/-- A round that ends with a settled result took it from a log. -/
theorem Round.settledBy {submitted : List SubmittedQuote}
    (h : Round ethers context st polls events (.error (.returned result submitted)))
    (hsettled : result.IsSettled) : SettledBy ethers context.settings events result := by
  generalize hr : (.error (.returned result submitted) : Except Abrupt LoopState) = r at h
  -- what ends a round before its submission is no settled result
  have hearlier : ∀ {result : ExecutePaidResult}, result.BeforeSubmission → ¬result.IsSettled := by
    intro result hbefore hsettled
    cases result with
    | settled => exact hbefore
    | paidActionFailed => exact hbefore
    | dryRun => exact hsettled
    | notPaid => exact hsettled
    | unknown => exact hsettled
  cases h with
  | unasked hquiet hearly =>
    cases hr
    exact absurd hsettled (hearlier hearly.1)
  | unanswered => cases hr
  | failed =>
    cases hr
    exact hsettled.elim
  | left hquiet hstep hchecks hearly =>
    cases hr
    exact absurd hsettled (hearlier hearly.1)
  | @submitted before plan request exit reply issued next checks typed calldata outcome after r
      hquiet hplanned hstep hchecks htyped hchecked hafter =>
    subst hr
    rcases afterSubmit_cases hafter with
      ⟨-, reason, hr⟩ | ⟨hsent, _, rfl, hr | ⟨_, hr, -⟩ | ⟨_, hr, hresult⟩⟩
    · cases hr
      exact hsettled.elim
    · cases hr
    · cases hr
    · cases hr
      rcases hresult with ⟨_, _, rfl⟩ | ⟨_, -, -, hresumed⟩ |
        ⟨pending, settlement, gas, hpending, ⟨hmatch, first, last, hlog⟩, rfl⟩
      · exact hsettled.elim
      · exact (hresumed.settledBy hsettled).mono fun event hevent => by simp [hevent]
      · have hafterwards : ∀ event ∈ after, event ∈ before ++
            (⟨.requestPaidQuote request exit, reply⟩ : Event) ::
              (checks ++ ⟨.submitPaidTransaction issued calldata, outcome⟩ :: after) :=
          fun event hevent => by simp [hevent]
        exact ⟨settlement, gas, rfl, List.mem_filterMap.mpr ⟨_, hafterwards _ hlog, rfl⟩,
          .inr ⟨request, exit, reply, issued, typed, pending, by simp, (quoteStep_issued hstep).1,
            htyped, hpending, hmatch⟩⟩

/-- A settled result of a run was taken from a log. -/
theorem executePaid_settledBy (hsettings : resolveSettings ethers options = .ok settings)
    (h : (executePaid ethers options polls).run.Yields trace (.ok result))
    (hsettled : result.IsSettled) : SettledBy ethers settings trace result := by
  obtain ⟨attempt, final, ended, rfl, hquiet, hbody, hend⟩ := executePaid_cases hsettings h
  -- within the attempt: `resume` found the log, or a round of the loop did
  have hattempt : ∀ submitted, attempted ended = .ok (result, submitted) →
      SettledBy ethers settings attempt result := by
    intro submitted hended
    rcases attemptBody_cases hbody with ⟨-, result', rfl, hresumed⟩ |
      ⟨pinned, pinnedAtMs, before, loop, rfl, -, -, hloop⟩
    · cases hended
      exact (hresumed hsettled).settledBy hsettled
    have hstop : ∀ (history : List Event) st events e,
        Round ethers ⟨options, settings, pinned, pinnedAtMs⟩ st polls events (.error e) →
        ∀ result submitted, e = .returned result submitted → result.IsSettled →
          SettledBy ethers settings (history ++ events) result := by
      rintro history st events e hround result submitted rfl hsettled
      exact (hround.settledBy hsettled).mono (List.subset_append_right _ _)
    rcases ended with (_ | _ | _ | _) | final
    · cases hended
      rcases exitLoop_stop (P := fun history e => ∀ result submitted,
        e = .returned result submitted → result.IsSettled →
          SettledBy ethers settings history result) before hstop hloop with h | h
      · cases h
      · exact h _ _ rfl hsettled
    all_goals cases hended
    exact hsettled.elim
  rcases hend with ⟨result', submitted, hended, hfinal⟩ | ⟨e, -, he⟩
  -- or the last read of the evidence found it
  · rcases finalEvidence_cases hfinal with ⟨hok, -⟩ |
      ⟨reason, latest, rfl, -, hpolling | ⟨hok, -⟩ | ⟨final', hok, hread⟩⟩
    · obtain rfl := Except.ok.inj hok
      exact (hattempt _ hended).mono (List.subset_append_left _ _)
    · cases hpolling
    · obtain rfl := Except.ok.inj hok
      exact hsettled.elim
    · obtain rfl := Except.ok.inj hok
      rcases hread with ⟨_, _, rfl⟩ | ⟨_, -, -, hresumed⟩
      · exact hsettled.elim
      · exact (hresumed.settledBy hsettled).mono (List.subset_append_right _ _)
  · cases he

/-! ### The binding -/

/-- A log that agrees with a quote of the client is bound to this payment. -/
theorem bound_of_pending {issued : IssuedPaidQuoteV2} {typed : QuoteTuple}
    {pending : PendingExecution} (htyped : quoteTypedData ethers issued.quote = .ok typed)
    (hhash : hashExecutionQuoteV1 ethers issued.quote
      = .ok (toLowerCase (hexlify issued.executionId)))
    (hpending : IsPending issued typed pending)
    (hmatch : settlementMismatch settlement settings pending = none) :
    Bound ethers settings settlement := by
  obtain ⟨hid, hexit, hexitFee, hnetworkFee⟩ := hpending
  simp only [settlementMismatch, Option.map_eq_none_iff, List.find?_eq_none, List.mem_cons,
    List.not_mem_nil, or_false, forall_eq_or_imp, forall_eq, Bool.not_eq_true,
    Bool.not_eq_false', beq_iff_eq] at hmatch
  obtain ⟨hexecution, hpayment, hsameExit, hfeeAsset, htarget, hfee, hnetwork⟩ := hmatch
  refine ⟨hpayment, htarget, hfeeAsset, issued.quote, ?_, typed, htyped, ?_, ?_, ?_⟩
  · rw [hhash, hexecution, hid]
  · rw [← hexit]
    exact hsameExit
  · rw [hfee, hexitFee]
  · rw [hnetwork, hnetworkFee]

/-- **Settlement evidence is bound to the payment** on both paths, if every log that the reader
returned for the payment, with the calldata of an execution of this action, carries the payment
id, the target and the fee asset of the call, and the exit and the fees of that calldata's
quote.

A settled result comes from a log that `resume` read, or from the submission of the run itself
(`executePaid_settledBy`). The first is bound by what is asked of the logs, the second by the hash
of the quote that was validated before (`bound_of_pending`). -/
theorem settled_bound {behaviour : Behaviour Op Reply}
    (hsettings : resolveSettings ethers options = .ok settings)
    (hrun : (executePaid ethers options polls).run.run behaviour [] = (trace, .ok result))
    (hvalidated : Validated ethers trace) (hsettled : result.IsSettled)
    (hlogs : ∀ settlement settled, SettlementRead ethers settings trace settlement settled →
      sameAction settings settled = true →
        toLowerCase settlement.paymentId = settings.paymentIdHex ∧
        sameAddress settlement.actionTarget settings.target ∧
        sameAddress settlement.feeAsset settings.feeAsset ∧ Charges ethers settled settlement) :
    ∃ settlement gas, result = settledResult settlement gas ∧
      settlement ∈ trace.filterMap reported ∧ Bound ethers settings settlement := by
  obtain ⟨settlement, gas, hresult, hreported, hjudged⟩ :=
    executePaid_settledBy hsettings (of_run hrun) hsettled
  refine ⟨settlement, gas, hresult, hreported, ?_⟩
  rcases hjudged with ⟨settled, hread, hsame⟩ |
    ⟨request, exit, reply, issued, typed, pending, hmem, hissued, htyped, hpending, hmatch⟩
  · obtain ⟨hpayment, htarget, hfeeAsset, hcharges⟩ := hlogs settlement settled hread hsame
    obtain ⟨_, _, _, -, -, -, hhash⟩ := hread
    exact ⟨hpayment, htarget, hfeeAsset, settled, hhash, hcharges⟩
  · obtain ⟨_, _, _, _, hok⟩ := hvalidated request exit reply issued hmem hissued
    exact bound_of_pending htyped (validateIssuedPaidQuote_hash hok) hpending hmatch

/-! ### A consumed payment -/

/-- The quote of the samples' exit, as the EntryPoint takes it. -/
def sampleTuple : QuoteTuple where
  quoteVersion := 1
  chainId := 1
  entryPoint := sampleAddress '1'
  exitAddress := sampleExit
  clientIntentId := hexlify (List.replicate 32 6)
  paymentAdapter := sampleAddress '3'
  paymentId := hexlify (List.replicate 32 5)
  feeAsset := sampleAddress '4'
  exitFee := 300
  networkFee := 200
  paymentGasLimit := 200000
  actionTarget := sampleAddress '2'
  actionCalldataHash := hexlify sampleActionHash
  actionGasLimit := 100000
  trackedAssetsHash := hexlify sampleAssetsHash
  maximumTransactionGas := 740830
  maximumFeePerGas := 7
  returnDataLimit := 256
  validAfterUnix := 0
  validUntilUnix := 1100
  quoteNonce := 9

/-- The calldata of the transaction that executed it. -/
def sampleCalldata : String := hexlify (abiExecute sampleTuple sampleSignature [] [] [7])

/-- `ethers`, which also decodes that calldata. -/
def decodingEthers : Ethers := { sampleEthers with decodeExecuteQuote := fun _ => .ok sampleTuple }

/-- The settlement of the quote. -/
def sampleSettlement : PaidSettlement where
  executionId := hexlify sampleExecutionId
  paymentId := hexlify (List.replicate 32 5)
  exit := sampleExit
  feeAsset := sampleAddress '4'
  exitFee := 300
  networkFee := 200
  actionTarget := sampleAddress '2'
  actionSuccess := true
  returnDataLength := 0
  returnPrefixHash := sampleWord 0
  transactionHash := sampleWord 1
  blockNumber := 90

/-- A settlement of another payment in the same execution, without an exit fee. -/
def forgedSettlement : PaidSettlement :=
  { sampleSettlement with
    paymentId := hexlify (List.replicate 32 9)
    exitFee := 0 }

/-- An environment whose chain reader answers that everything is consumed, by a log. -/
def consumedBehaviour (log : PaidSettlement) : Behaviour Op Reply := fun trace op =>
  match op with
  | .call _ _ => .ok (sampleWord 1)
  | .settlementLogByPayment _ _ _ _ => .ok (some log)
  | .transactionInput _ => .ok (some sampleCalldata)
  | op => sampleBehaviour sampleRejection trace op

/-- Whether a call asked for a quote. -/
def isQuoteRequest (event : Event) : Bool :=
  match event.1 with
  | .requestPaidQuote _ _ => true
  | _ => false

/-- What these samples show of a run. -/
def consumedView (run : List Event × Except Abrupt ExecutePaidResult) :
    Option ExecutePaidResult × List PaidSettlement × Bool :=
  (run.2.toOption, run.1.filterMap reported, run.1.any isQuoteRequest)

/-- The texts of the samples as hexadecimal data. -/
theorem hexlify_sample :
    (sampleAddress '1' = hexlify (List.replicate 20 0x11) ∧
      sampleAddress '2' = hexlify (List.replicate 20 0x22) ∧
      sampleAddress '3' = hexlify (List.replicate 20 0x33) ∧
      sampleAddress '4' = hexlify (List.replicate 20 0x44) ∧
      getBytes sampleExit = .ok sampleExitBytes) ∧
    sameAddress sampleSettlement.exit sampleTuple.exitAddress ∧
      sameAddress sampleSettlement.actionTarget (sampleAddress '2') ∧
      sameAddress sampleSettlement.feeAsset (sampleAddress '4') ∧
      toLowerCase sampleSettlement.paymentId = hexlify (List.replicate 32 5) ∧
      toLowerCase forgedSettlement.paymentId ≠ hexlify (List.replicate 32 5) := by
  decide +kernel

/-- Whatever the calldata is, these `ethers` find the quote in it. -/
theorem settledQuote_sample {input : String} :
    settledQuote decodingEthers input = .ok sampleQuote := by
  obtain ⟨⟨hfirst, hsecond, hthird, hfourth, hexit⟩, -⟩ := hexlify_sample
  refine bind_eq_ok_iff.mpr ⟨sampleTuple, rfl, ?_⟩
  simp only [quoteFromTuple, sampleTuple, hfirst, hsecond, hthird, hfourth, getBytes_hexlify, hexit]
  rfl

theorem quoteTypedData_sample : quoteTypedData decodingEthers sampleQuote = .ok sampleTuple := by
  decide +kernel

theorem hashExecutionQuoteV1_sample :
    hashExecutionQuoteV1 decodingEthers sampleQuote = .ok (hexlify sampleExecutionId) := by
  simp only [hashExecutionQuoteV1, quoteTypedData_sample, ok_bind]
  rfl

theorem charges_sample : Charges decodingEthers sampleQuote sampleSettlement :=
  ⟨sampleTuple, quoteTypedData_sample, hexlify_sample.2.1, rfl, rfl⟩

/-- The settings of the samples. -/
theorem exists_consumedSettings :
    ∃ settings, resolveSettings decodingEthers sampleOptions = .ok settings ∧
      settings.paymentIdHex = hexlify (List.replicate 32 5) ∧
      settings.target = sampleAddress '2' ∧ settings.feeAsset = sampleAddress '4' := by
  have hfields : (resolveSettings decodingEthers sampleOptions).toOption.map
      (fun settings => (settings.paymentIdHex, settings.target, settings.feeAsset))
      = some (hexlify (List.replicate 32 5), sampleAddress '2', sampleAddress '4') := by
    decide +kernel
  obtain ⟨settings, hsettings, hfields⟩ := Option.map_eq_some_iff.mp hfields
  simp only [Prod.mk.injEq] at hfields
  exact ⟨settings, toOption_eq_some_iff.mp hsettings, hfields⟩

/-- Either settlement is taken for the one of this payment: only its quote is looked at. -/
theorem consumedView_sample : ∀ log ∈ [sampleSettlement, forgedSettlement],
    consumedView ((executePaid decodingEthers sampleOptions 4).run.run (consumedBehaviour log) [])
      = (some (settledResult log 740830), [log], false) := by
  -- the quote is read in place, so that what is left to evaluate decodes no calldata
  simp only [executePaid, executePaidIn, attemptPaid, attemptBody, precheck, readState,
    resumeOrUnknown, resume, judgeSettlement, settledQuote_sample, ok_bind,
    hashExecutionQuoteV1_sample]
  decide +kernel

/-- The run of such an environment. -/
theorem exists_consumedRun {log : PaidSettlement}
    (hlog : log ∈ [sampleSettlement, forgedSettlement]) :
    ∃ trace, (executePaid decodingEthers sampleOptions 4).run.run (consumedBehaviour log) []
        = (trace, .ok (settledResult log 740830)) ∧
      trace.filterMap reported = [log] ∧ Validated decodingEthers trace := by
  have h := consumedView_sample log hlog
  rcases hrun : (executePaid decodingEthers sampleOptions 4).run.run (consumedBehaviour log) []
    with ⟨trace, ended⟩
  rw [hrun] at h
  simp only [consumedView, Prod.mk.injEq] at h
  obtain ⟨hresult, hreported, hrequests⟩ := h
  obtain rfl := toOption_eq_some_iff.mp hresult
  refine ⟨trace, rfl, hreported, ?_⟩
  intro request exit reply issued hmem
  exact absurd rfl (List.any_eq_false.mp hrequests _ hmem)

theorem isSettled_settledResult {gas : ℤ} : (settledResult settlement gas).IsSettled := by
  rw [settledResult]
  split_ifs
  · trivial
  · trivial

/-- The reader reports the settlement of the quote. -/
theorem settled_bound_sample :
    ∃ settings trace settlement gas,
      (executePaid decodingEthers sampleOptions 4).run.run (consumedBehaviour sampleSettlement) []
        = (trace, .ok (settledResult settlement gas)) ∧
      settlement ∈ trace.filterMap reported ∧ Bound decodingEthers settings settlement := by
  obtain ⟨settings, hsettings, hpayment, htarget, hfeeAsset⟩ := exists_consumedSettings
  obtain ⟨trace, hrun, hreported, hvalidated⟩ :=
    exists_consumedRun (.head [forgedSettlement])
  obtain ⟨settlement, gas, hresult, hmem, hbound⟩ :=
    settled_bound hsettings hrun hvalidated isSettled_settledResult <| by
      rintro settlement settled ⟨first, last, input, hlog, -, hsettled, -⟩ -
      have hlog := List.mem_filterMap.mpr ⟨_, hlog, show reported _ = some settlement from rfl⟩
      rw [hreported] at hlog
      rw [settledQuote_sample] at hsettled
      obtain rfl := List.mem_singleton.mp hlog
      obtain rfl := Except.ok.inj hsettled
      rw [hpayment, htarget, hfeeAsset]
      obtain ⟨-, -, hsameTarget, hsameAsset, hsamePayment, -⟩ := hexlify_sample
      exact ⟨hsamePayment, hsameTarget, hsameAsset, charges_sample⟩
  rw [hresult] at hrun
  exact ⟨settings, trace, settlement, gas, hrun, hmem, hbound⟩

/-- The reader reports the settlement of another payment and another fee, with the calldata of the
quote. -/
theorem not_settled_bound :
    ¬∀ (ethers : Ethers) (options : ExecutePaidOptions) (settings : Settings) (polls : ℕ)
        (behaviour : Behaviour Op Reply) (trace : List Event) (result : ExecutePaidResult),
        resolveSettings ethers options = .ok settings →
        (executePaid ethers options polls).run.run behaviour [] = (trace, .ok result) →
        Validated ethers trace → result.IsSettled →
        ∃ settlement gas, result = settledResult settlement gas ∧
          settlement ∈ trace.filterMap reported ∧ Bound ethers settings settlement := by
  intro hbound
  obtain ⟨settings, hsettings, hpayment, -⟩ := exists_consumedSettings
  obtain ⟨trace, hrun, hreported, hvalidated⟩ :=
    exists_consumedRun (.tail sampleSettlement (.head []))
  obtain ⟨settlement, gas, -, hmem, hbound⟩ :=
    hbound _ _ _ _ _ _ _ hsettings hrun hvalidated isSettled_settledResult
  rw [hreported] at hmem
  obtain rfl := List.mem_singleton.mp hmem
  obtain ⟨-, -, -, -, -, hforged⟩ := hexlify_sample
  exact hforged (hbound.paymentId.trans hpayment)

end NoxSdk.Paid
