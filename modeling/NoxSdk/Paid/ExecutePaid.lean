import NoxSdk.Paid.Evidence

/-!
# Paid execution

`executePaid`: the state of the intent and the payment is read at one block, then exits are asked
one after the other for a quote, and each quote is checked, paid for, simulated and submitted. The
body of the exit loop is `exitRound`, cut where the source has its steps; the loop is given a
number of rounds, and `looping` is how it would end with rounds to spare (it never does).
-/

namespace NoxSdk.Paid

open Bincode (PaidTransactionOutcomeV2 PaidTransactionRejectionCodeV2 PaidV2Rejection)
open Js (toLowerCase)
open NoxSdk.Lib

variable (ethers : Ethers)

/-! ### Step 1: state of the intent and the payment -/

/-- What is read at the pinned block. -/
structure Pinned where
  block : ℤ
  timestamp : ℤ
  actionGasLimit : ℤ
  dataFeeGas : ℤ

/-- `estimateActionGas`. -/
def estimateActionGas (settings : Settings) (action : PaidAction) (block : ℤ) : Async ℤ := do
  let data ← ofExcept (ethers.encodeView .predictSandbox settings.intentIdHex)
  let predicted ← call (viewCall settings.entryPoint data) (.number block)
  let sandbox ← ofExcept (ethers.decodeSandbox predicted)
  let estimate ← ExceptT.mk
    (Prog.perform (Op.preflightEstimateGas sandbox settings.target (hexlify action.data)))
  return ceilDiv (estimate * settings.actionMarginBps) bpsUnit

/-- `ARBITRUM_CHAIN_IDS`. -/
def arbitrumChainIds : List ℤ := [42161, 421614]

/-- `arbitrumDataFeeGas`, of the reader's `call`. -/
def arbitrumDataFeeGas (to_ data : String) : Async ℤ := do
  let encoded ← ofExcept (ethers.encodeDataFee to_ data)
  let result ← call (viewCall "0x00000000000000000000000000000000000000C8" encoded) .latest
  ofExcept (ethers.decodeDataFee result)

/-- The data fee of calldata of the given length, with random bytes in its place. -/
def readDataFeeGas (options : ExecutePaidOptions) (settings : Settings) (bytes : ℕ) : Async ℤ :=
  if options.chainDataFeeGas then do
    let data ← liftM (Prog.perform (Op.randomBytes bytes) : Program Bytes)
    ExceptT.mk (Prog.perform (Op.dataFeeGas settings.entryPoint (hexlify data)))
  else if options.chainId ∈ arbitrumChainIds then do
    let data ← liftM (Prog.perform (Op.randomBytes bytes) : Program Bytes)
    arbitrumDataFeeGas ethers settings.entryPoint (hexlify data)
  else pure 0

/-- `action.gasLimit`, or its estimate. -/
def readActionGas (settings : Settings) (action : PaidAction) (block : ℤ) : Async ℤ :=
  match action.gasLimit with
  | some gasLimit => pure gasLimit
  | none => estimateActionGas ethers settings action block

/-- `resume` of the precheck, with its `catch`. -/
def resumeOrUnknown (settings : Settings) (block : ℤ) : Program ExecutePaidResult := do
  match ← (resume ethers settings block).run with
  | .ok result => pure result
  | .error failure => pure (.unknown none none <|
      "the intent and the payment id are consumed; reading the settlement failed: " ++
        describe ethers failure)

/-- The result for a flag that is consumed, or a pending execution that can still settle. -/
def precheckResult (options : ExecutePaidOptions) (settings : Settings)
    (paymentConsumed intentConsumed : Bool) (timestamp : ℤ) : Option ExecutePaidResult :=
  if intentConsumed then
    some (notPaid .precheck "INTENT_CONSUMED" <|
      s!"intent id {settings.intentIdHex} is consumed on the EntryPoint by an execution with " ++
        "another payment id; this payment source is unspent")
  else if paymentConsumed then
    some (notPaid .precheck "PAYMENT_CONSUMED"
      "the payment id is already consumed by another execution")
  else
    match options.pending with
    | none => none
    | some pending =>
      if timestamp ≤ pending.validUntilUnix then
        some (.unknown pending.executionId pending.validUntilUnix <|
          s!"execution {pending.executionId} can settle until {pending.validUntilUnix}; " ++
            s!"chain time is {timestamp}")
      else none

/-- The `try` block of step 1. -/
def readState (options : ExecutePaidOptions) (settings : Settings) :
    Async (ExecutePaidResult ⊕ Pinned) := do
  let block ← blockNumber
  let (paymentConsumed, intentConsumed, timestamp) ← Prog.both
    (readFlag ethers settings .isPaymentConsumed settings.paymentIdHex block)
    (Prog.both (readFlag ethers settings .isClientIntentConsumed settings.intentIdHex block)
      (blockTimestamp (.number block)))
  if intentConsumed && paymentConsumed then
    let result ← liftM (resumeOrUnknown ethers settings block)
    return .inl result
  else
    match precheckResult options settings paymentConsumed intentConsumed timestamp with
    | some result => return .inl result
    | none =>
      let actionGasLimit ← readActionGas ethers settings options.action block
      let dataFeeGas ← readDataFeeGas ethers options settings
        (executeBytes options.action.data settings.trackedAssets.length
          options.payment.paymentDataLength)
      return .inr { block, timestamp, actionGasLimit, dataFeeGas }

/-- `payment.checkAction(action)`. -/
def checkAction (options : ExecutePaidOptions) : Async (ExecutePaidResult ⊕ Unit) := do
  ExceptT.mk (Prog.perform (Op.checkAction options.action))
  return .inr ()

/-- `attemptPaid` up to its loop; the time is `pinnedAtMs`. -/
def precheck (options : ExecutePaidOptions) (settings : Settings) : Stage (Pinned × ℤ) := do
  tryOr [] (checkAction options) fun failure =>
    notPaid .precheck "ACTION_REFUSED" (describe ethers failure)
  let pinned ← tryOr [] (readState ethers options settings) fun failure =>
    notPaid .precheck "CHAIN_READ_FAILED" (describe ethers failure)
  let pinnedAtMs ← liftM dateNow
  return (pinned, pinnedAtMs)

/-! ### The loop -/

/-- `usedExits.add(id)`. -/
def addExit (usedExits : List String) (id : String) : List String :=
  if id ∈ usedExits then usedExits else usedExits ++ [id]

/-- The variables of the exit loop, and `submitted`. -/
structure LoopState where
  usedExits : List String
  contacted : ℕ
  exitGasBufferBps : ℕ
  last : NotPaid
  submitted : List SubmittedQuote

/-- The exit is used. -/
def LoopState.use (st : LoopState) (exit : TopologyNode) : LoopState :=
  { st with usedExits := addExit st.usedExits (toLowerCase exit.id) }

/-- What the loop reads. -/
structure Context where
  options : ExecutePaidOptions
  settings : Settings
  pinned : Pinned
  pinnedAtMs : ℤ

/-- `nowUnix`, at a time of the clock. -/
def nowUnix (pinnedTimestamp pinnedAtMs localMs : ℤ) : ℤ :=
  let elapsed := max 0 ((localMs - pinnedAtMs) / 1000)
  let localUnix := localMs / 1000
  if localUnix < pinnedTimestamp + elapsed then pinnedTimestamp + elapsed else localUnix

variable (context : Context) (st : LoopState)

/-- `nowUnix()`. -/
def readUnix : Stage ℤ := do
  let localMs ← liftM dateNow
  return nowUnix context.pinned.timestamp context.pinnedAtMs localMs

/-- The arguments of `planPaidGas`, for an exit buffer. -/
def planInput (exitGasBufferBps : ℕ) : PaidGasPlanInput :=
  { paymentGasLimit := context.options.payment.gasLimit
    actionGasLimit := context.pinned.actionGasLimit
    calldataGas := executeGas context.options.action.data context.settings.trackedAssets.length
      context.options.payment.paymentDataLength
    dataFeeGas := some context.pinned.dataFeeGas
    exitGasBufferBps := some exitGasBufferBps
    capHeadroomBps := some context.settings.capHeadroomBps
    dataFeeHeadroomBps := some context.settings.dataFeeHeadroomBps
    maximumTransactionGas := context.settings.maximumTransactionGas }

/-- The plan of a round. -/
def planRound : Stage PaidGasPlan :=
  match planPaidGas (planInput context st.exitGasBufferBps) with
  | .ok plan => pure plan
  | .error failure =>
    stop (notPaid .precheck "GAS_PLAN" (describe ethers failure)) st.submitted

/-! ### Step 2: one signed quote from one exit -/

/-- `client.selectPaidExit`. -/
def selectExit : Stage TopologyNode := do
  match ← liftM (Prog.perform (Op.selectPaidExit st.usedExits) :
      Program (Except Failure TopologyNode)) with
  | .ok exit => return exit
  | .error failure =>
    let result := if st.contacted = 0 then
        notPaid .quote (errorCode failure "NO_PAID_EXIT") (describe ethers failure)
      else .notPaid st.last
    stop result st.submitted

/-- The request for a quote, at a chain time. -/
def quoteRequest (plan : PaidGasPlan) (unix : ℤ) : Except Failure PaidQuoteRequestV2 := do
  let settings := context.settings
  let entryPoint ← getBytes settings.entryPoint
  let paymentAdapter ← getBytes settings.adapter
  let feeAsset ← getBytes settings.feeAsset
  let actionTarget ← getBytes settings.target
  let trackedAssets ← ethers.encodeAddresses settings.trackedAssets
  return {
    chainId := context.options.chainId
    clientIntentId := settings.intentId
    paymentId := settings.paymentId
    paymentGasLimit := context.options.payment.gasLimit
    actionCalldataHash := ethers.keccak256 context.options.action.data
    actionGasLimit := context.pinned.actionGasLimit
    trackedAssetsHash := ethers.keccak256 trackedAssets
    maximumTransactionGas := plan.maximumTransactionGas
    returnDataLimit := settings.returnDataLimit
    validUntilUnix := unix + defaults.quoteRequestTtlSecs
    entryPoint, paymentAdapter, feeAsset, actionTarget }

/-- What a round goes on with after the outcome of its quote request: the next round, the quote,
or a result. -/
inductive QuoteStep
  | next (st : LoopState)
  | issued (issued : IssuedPaidQuoteV2) (st : LoopState)
  | failed (reason : NotPaid)

/-- The outcome of a quote request to an exit; `contacted` grows by the exits that it counts. -/
def quoteStep (requestedExit : TopologyNode) : Except Failure PaidQuoteResultV2 → QuoteStep
  | .ok (.rejected rejection) =>
    .next { st with
      contacted := st.contacted + 1
      last := ⟨.quote, rejection.code.value, describe ethers (.error rejection.detail)⟩ }
  | .ok (.issued issued) =>
    let issuingExit := toLowerCase issued.selectedExit.id
    .issued issued { st.use issued.selectedExit with
      contacted := st.contacted + if issuingExit = toLowerCase requestedExit.id then 1 else 2 }
  | .error failure =>
    let last : NotPaid := ⟨.quote, errorCode failure "QUOTE_FAILED", describe ethers failure⟩
    match failure.code with
    | some .responseTimeout => .next { st with contacted := st.contacted + 2, last }
    | some .decryptionFailed => .next { st with contacted := st.contacted + 1, last }
    | _ => .failed last

/-- Step 2. -/
def requestQuote : Stage (LoopState ⊕ PaidGasPlan × IssuedPaidQuoteV2 × LoopState) := do
  let plan ← planRound ethers context st
  let requestedExit ← selectExit ethers st
  let unix ← readUnix context
  let request ← uncaught (ofExcept (quoteRequest ethers context plan unix))
  let reply ← liftM (Prog.perform (Op.requestPaidQuote request requestedExit) : Program QuoteReply)
  match quoteStep ethers (st.use requestedExit) requestedExit reply.outcome with
  | .next st => return .inl st
  | .issued issued st => return .inr (plan, issued, st)
  | .failed reason => stop (.notPaid reason) st.submitted

/-- The check of `validAfterUnix`. -/
def checkActive (issued : IssuedPaidQuoteV2) (typed : QuoteTuple) : Stage Unit := do
  let unix ← readUnix context
  if unix < issued.quote.validAfterUnix then
    tryOr st.submitted (do
      let chainNow ← blockTimestamp .latest
      if chainNow < issued.quote.validAfterUnix then
        return .inl (notPaid .quote "QUOTE_NOT_ACTIVE" <|
          s!"quote of exit {typed.exitAddress} starts at {issued.quote.validAfterUnix}; " ++
            s!"chain time is {chainNow}")
      else return .inr ())
      fun failure => notPaid .quote "CHAIN_READ_FAILED" (describe ethers failure)
  else return ()

/-- `headroom()`. -/
def headroom (issued : IssuedPaidQuoteV2) : Stage ℤ := do
  let unix ← readUnix context
  return issued.quote.validUntilUnix - unix

/-- A check of the headroom; the text says what left too little. -/
def checkHeadroom (issued : IssuedPaidQuoteV2) (subject : String) : Stage Unit := do
  let left ← headroom context issued
  if left < context.settings.minSubmitHeadroomSecs then
    let left ← headroom context issued
    stop (notPaid .expired "QUOTE_HEADROOM" <|
      s!"{subject} {left} s before validUntil {issued.quote.validUntilUnix}, below " ++
        s!"{context.settings.minSubmitHeadroomSecs} s") st.submitted
  else return ()

/-- The checks on the quote. -/
def checkQuote (issued : IssuedPaidQuoteV2) (typed : QuoteTuple) : Stage Unit := do
  let total := typed.exitFee + typed.networkFee
  if context.options.maxTotalFee < total then
    stop (notPaid .feeCap "FEE_ABOVE_MAXIMUM" <|
      s!"quoted fee {total} exceeds maxTotalFee {context.options.maxTotalFee} " ++
        s!"(exit {typed.exitAddress})") st.submitted
  else
    checkActive ethers context st issued typed
    checkHeadroom context st issued "quote leaves"

/-! ### Step 3: payment proof and calldata -/

/-- The checks on the payment data. -/
def checkPaymentData (options : ExecutePaidOptions) (data : Bytes) : Except Failure Bytes :=
  if data.length = 0 then .error (.error "payment source returned no payment data")
  else if options.payment.paymentDataLength < data.length then
    .error (.error <| s!"payment data is {data.length} bytes, above the declared " ++
      s!"{options.payment.paymentDataLength}")
  else .ok data

/-- The payment data of a quote. -/
def buildPayment (issued : IssuedPaidQuoteV2) (typed : QuoteTuple) : Stage Bytes :=
  tryOr st.submitted (do
    let data ← ExceptT.mk (Prog.perform (Op.buildPaymentData issued.executionId
      (typed.exitFee + typed.networkFee) context.settings.feeAsset))
    let data ← ofExcept (checkPaymentData context.options data)
    return .inr data)
    fun failure => notPaid .payment "PAYMENT_BUILD_FAILED" (describe ethers failure)

/-- `encodeEntryPointExecute`. -/
def encodeEntryPointExecute (issued : IssuedPaidQuoteV2) (actionData : Bytes)
    (trackedAssets : List String) (paymentData : Bytes) : Except Failure Bytes := do
  let typed ← quoteTypedData ethers issued.quote
  ethers.encodeExecute typed issued.exitSignature actionData trackedAssets paymentData

/-! ### Step 4: simulation -/

/-- The call that simulates the transaction. -/
def simulationCall (plan : PaidGasPlan) (typed : QuoteTuple) (calldata : Bytes) :
    PaidCallRequest :=
  { from_ := typed.exitAddress
    to_ := context.settings.entryPoint
    data := hexlify calldata
    gas := plan.maximumTransactionGas
    gasPrice := some (typed.maximumFeePerGas : ℤ) }

/-- The simulation of the transaction: its estimated gas. -/
def simulate (plan : PaidGasPlan) (typed : QuoteTuple) (calldata : Bytes) : Stage ℤ :=
  tryOr st.submitted (do
    let (estimate, simulated) ← Prog.both
      (ExceptT.mk (Prog.perform (Op.preflightEstimateGas typed.exitAddress
        context.settings.entryPoint (hexlify calldata))))
      (ExceptT.mk (Prog.perform (Op.preflightCall
        (simulationCall context plan typed calldata) .latest)))
    let success ← ofExcept (ethers.decodeExecuteSuccess simulated)
    if success then return .inr estimate
    else return .inl (notPaid .preflight "ACTION_WOULD_FAIL"
      "the payment simulates as settling while the action fails; nothing was submitted"))
    fun failure => notPaid .preflight "SIMULATION_FAILED" (describe ethers failure)

/-- The checks on the estimate, `dryRun` and the headroom. -/
def checkSubmit (plan : PaidGasPlan) (issued : IssuedPaidQuoteV2) (typed : QuoteTuple)
    (estimatedGas : ℤ) : Stage Unit := do
  let exitGasLimit := ceilDiv (estimatedGas * (bpsUnit + st.exitGasBufferBps)) bpsUnit
  if plan.maximumTransactionGas < exitGasLimit then
    stop (notPaid .preflight "GAS_CAP_TOO_LOW" <|
      s!"estimate {estimatedGas} with the exit buffer is {exitGasLimit}, above the quoted cap " ++
        s!"{plan.maximumTransactionGas}") st.submitted
  else if context.settings.dryRun then
    stop (.dryRun (hexlify issued.executionId) typed.exitAddress typed.exitFee typed.networkFee
      plan.maximumTransactionGas estimatedGas) st.submitted
  else checkHeadroom context st issued "proving and simulation left"

/-- Steps 3 and 4: the calldata that is submitted. -/
def prepare (plan : PaidGasPlan) (issued : IssuedPaidQuoteV2) (typed : QuoteTuple) :
    Stage Bytes := do
  checkQuote ethers context st issued typed
  let paymentData ← buildPayment ethers context st issued typed
  let calldata ← uncaught (ofExcept (encodeEntryPointExecute ethers issued
    context.options.action.data context.settings.trackedAssets paymentData))
  let estimatedGas ← simulate ethers context st plan typed calldata
  checkSubmit context st plan issued typed estimatedGas
  return calldata

/-! ### Steps 5 and 6: submission and evidence -/

/-- `POSSIBLY_BROADCAST`. -/
def possiblyBroadcast : List PaidTransactionRejectionCodeV2 :=
  [.submissionFailure, .duplicateExecution]

/-- The rejection after which the exit does not hold the transaction, if this is one. -/
def finalRejection : Except Failure PaidTransactionOutcomeV2 → Option PaidV2Rejection
  | .ok (.rejected _ rejection) => if rejection.code ∈ possiblyBroadcast then none else rejection
  | _ => none

/-- The failure with which local validation refused the submission, if it did: no packet was
sent. -/
def localRefusal : Except Failure PaidTransactionOutcomeV2 → Option Failure
  | .error failure => if failure.code = some .invalidConfig then failure else none
  | .ok _ => none

/-- A rejection: the exit's word, then the chain's. -/
def afterRejection (quote : SubmittedQuote) (rejection : PaidV2Rejection) (polls : ℕ) :
    Stage LoopState := do
  let st := { st with
    last := ⟨.submit, rejection.code.value, describe ethers (.error rejection.detail)⟩
    exitGasBufferBps := if rejection.code = .gasCapExceeded then
      st.exitGasBufferBps + defaults.exitGasBufferStepBps else st.exitGasBufferBps }
  match ← paymentEvidence ethers context.settings quote false polls with
  | .result result => stop result st.submitted
  | _ => return st

/-- The time given to the confirmation of a quote. -/
def confirmationMs (issued : IssuedPaidQuoteV2) : Stage ℤ := do
  match context.settings.confirmationTimeoutMs with
  | some ms => return ms
  | none =>
    let left ← headroom context issued
    let left ← if 0 < left then headroom context issued else pure 0
    return left * 1000 + defaults.confirmationGraceMs

/-- Step 6. -/
def confirm (plan : PaidGasPlan) (issued : IssuedPaidQuoteV2) (typed : QuoteTuple)
    (quote : SubmittedQuote) (polls : ℕ) : Stage LoopState := do
  let startedAt ← liftM dateNow
  let ms ← confirmationMs context issued
  let evidence ← awaitSettlement ethers context.settings
    { executionId := quote.executionId
      validUntilUnix := quote.validUntilUnix
      fromBlock := context.pinned.block
      exit := typed.exitAddress
      exitFee := typed.exitFee
      networkFee := typed.networkFee
      deadlineMs := startedAt + ms } polls
  match evidence with
  | .expired => return { st with last := ⟨.expired, "QUOTE_EXPIRED_UNSETTLED",
      s!"execution {quote.executionId} did not settle before validUntil {quote.validUntilUnix}; " ++
        "nothing was paid"⟩ }
  | .unknown detail => stop (.unknown quote.executionId quote.validUntilUnix detail) st.submitted
  | .found settlement => stop (settledResult settlement plan.maximumTransactionGas) st.submitted

/-- What follows the answer to a submission. -/
def afterSubmit (plan : PaidGasPlan) (issued : IssuedPaidQuoteV2) (typed : QuoteTuple)
    (polls : ℕ) (outcome : Except Failure PaidTransactionOutcomeV2) : Stage LoopState :=
  match localRefusal outcome with
  | some failure =>
    stop (notPaid .submit NoxClientErrorCode.invalidConfig.value (describe ethers failure))
      st.submitted
  | none =>
    let quote : SubmittedQuote := ⟨hexlify issued.executionId, issued.quote.validUntilUnix⟩
    let st := { st with submitted := st.submitted ++ [quote] }
    match finalRejection outcome with
    | some rejection => afterRejection ethers context st quote rejection polls
    | none => confirm ethers context st plan issued typed quote polls

/-- Steps 5 and 6. -/
def submit (plan : PaidGasPlan) (issued : IssuedPaidQuoteV2) (typed : QuoteTuple)
    (calldata : Bytes) (polls : ℕ) : Stage LoopState := do
  let outcome ← liftM (Prog.perform (Op.submitPaidTransaction issued calldata) :
    Program (Except Failure PaidTransactionOutcomeV2))
  afterSubmit ethers context st plan issued typed polls outcome

/-! ### The loop and the whole -/

/-- The body of the exit loop. -/
def exitRound (polls : ℕ) : Stage LoopState := do
  match ← requestQuote ethers context st with
  | .inl st => return st
  | .inr (plan, issued, st) =>
    let typed ← uncaught (ofExcept (quoteTypedData ethers issued.quote))
    let calldata ← prepare ethers context st plan issued typed
    submit ethers context st plan issued typed calldata polls

/-- The exit loop. -/
def exitLoop (polls rounds : ℕ) (st : LoopState) : Stage LoopState :=
  if st.contacted < context.settings.maxExits then
    match rounds with
    | 0 => throw .looping
    | rounds + 1 => do
      let st ← exitRound ethers context st polls
      exitLoop polls rounds st
  else pure st

/-- The variables at the start of the loop. -/
def LoopState.start (settings : Settings) : LoopState :=
  { usedExits := []
    contacted := 0
    exitGasBufferBps := settings.exitGasBufferBps
    last := ⟨.quote, "NO_PAID_EXIT", "no paid exit was contacted"⟩
    submitted := [] }

/-- The body of `attemptPaid`. -/
def attemptBody (options : ExecutePaidOptions) (settings : Settings) (polls rounds : ℕ) :
    Stage LoopState := do
  let (pinned, pinnedAtMs) ← precheck ethers options settings
  exitLoop ethers { options, settings, pinned, pinnedAtMs } polls rounds (.start settings)

/-- The result of `attemptPaid` and what it submitted, from how its body ended. -/
def attempted : Except Abrupt LoopState → Except Abrupt (ExecutePaidResult × List SubmittedQuote)
  | .ok st => .ok (.notPaid st.last, st.submitted)
  | .error (.returned result submitted) => .ok (result, submitted)
  | .error (.thrown failure) => .error (.thrown failure)
  | .error .polling => .error .polling
  | .error .looping => .error .looping

/-- `attemptPaid`. -/
def attemptPaid (options : ExecutePaidOptions) (settings : Settings) (polls rounds : ℕ) :
    Stage (ExecutePaidResult × List SubmittedQuote) :=
  ExceptT.mk (attempted <$> (attemptBody ethers options settings polls rounds).run)

/-- `latest` of `executePaid`: the submitted quote that expires last. -/
def latestQuote (submitted : List SubmittedQuote) : Option SubmittedQuote :=
  submitted.foldl (fun kept quote =>
    match kept with
    | none => some quote
    | some kept => if kept.validUntilUnix < quote.validUntilUnix then some quote else some kept)
    none

/-- The final read of the evidence, for a result that is not paid. -/
def finalEvidence (settings : Settings) (result : ExecutePaidResult)
    (submitted : List SubmittedQuote) (polls : ℕ) : Stage ExecutePaidResult :=
  match result, latestQuote submitted with
  | .notPaid reason, some latest => do
    -- an exit that received the calldata can broadcast it until its quote expires
    match ← paymentEvidence ethers settings latest true polls with
    | .result result => return result
    | _ => return .notPaid reason
  | result, _ => pure result

/-- `executePaid`, with a number of polls for each loop that polls and of rounds for the exit
loop. -/
def executePaidIn (options : ExecutePaidOptions) (polls rounds : ℕ) : Stage ExecutePaidResult := do
  let settings ← uncaught (ofExcept (resolveSettings ethers options))
  let (result, submitted) ← attemptPaid ethers options settings polls rounds
  finalEvidence ethers settings result submitted polls

/-- `executePaid`. Each round of the exit loop contacts an exit. -/
def executePaid (options : ExecutePaidOptions) (polls : ℕ) : Stage ExecutePaidResult :=
  executePaidIn ethers options polls (options.maxExits.getD defaults.maxExits)

end NoxSdk.Paid
