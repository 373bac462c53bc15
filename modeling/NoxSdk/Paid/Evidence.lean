import NoxSdk.Paid.Calls

/-!
# Reading the chain

The chain reads of `paid_execute.ts`: consumed flags, the settlement of an execution or a payment,
and the two loops that poll for them. A loop that polls may go on for as long as the clock lets
it, so it is given a number of polls; one that needs more has not ended.
-/

namespace NoxSdk.Paid

open Js (toLowerCase)
open NoxSdk.Lib

variable (ethers : Ethers)

/-- `notPaid`. -/
def notPaid (stage : PaidNotPaidStage) (code detail : String) : ExecutePaidResult :=
  .notPaid ⟨stage, code, detail⟩

/-- `readFlag`. -/
def readFlag (settings : Settings) (flag : View) (id : String) (block : ℤ) : Async Bool := do
  let data ← ofExcept (ethers.encodeView flag id)
  let result ← call (viewCall settings.entryPoint data) (.number block)
  ofExcept (ethers.decodeFlag flag result)

/-- The number of ranges between two blocks. -/
def rangeCount (fromBlock toBlock : ℤ) : ℕ :=
  ((toBlock - fromBlock) / defaults.logRangeBlocks + 1).toNat

/-- The loop of `findSettlement`, in at most so many ranges. -/
def findSettlementIn (query : ℤ → ℤ → Async (Option PaidSettlement)) (fromBlock : ℤ) :
    ℕ → ℤ → Async (Option PaidSettlement)
  | 0, _ => pure none
  | ranges + 1, to_ =>
    if to_ < fromBlock then pure none
    else do
      let first := to_ - defaults.logRangeBlocks + 1
      match ← query (if fromBlock < first then first else fromBlock) to_ with
      | some settlement => pure (some settlement)
      | none => findSettlementIn query fromBlock ranges (to_ - defaults.logRangeBlocks)

/-- `findSettlement`. -/
def findSettlement (fromBlock toBlock : ℤ) (query : ℤ → ℤ → Async (Option PaidSettlement)) :
    Async (Option PaidSettlement) :=
  findSettlementIn query fromBlock (rangeCount fromBlock toBlock) toBlock

/-- `settledResult`. -/
def settledResult (settlement : PaidSettlement) (maximumTransactionGas : ℤ) : ExecutePaidResult :=
  let common : SettledCommon :=
    { executionId := settlement.executionId
      exit := settlement.exit
      exitFee := settlement.exitFee
      networkFee := settlement.networkFee
      transactionHash := settlement.transactionHash
      blockNumber := settlement.blockNumber }
  if settlement.actionSuccess then .settled common maximumTransactionGas
  else .paidActionFailed common settlement.returnDataLength settlement.returnPrefixHash

/-! ### The settlement of a consumed payment -/

/-- `sameAction` of `resume`. -/
def sameAction (settings : Settings) (settled : Bincode.ExecutionQuoteV1) : Bool :=
  hexlify settled.clientIntentId == settings.intentIdHex &&
    hexlify settled.actionCalldataHash == settings.actionCalldataHash &&
    sameAddress (hexlify settled.actionTarget) settings.target

/-- `settled` of `resume`: the quote in the calldata of a transaction. -/
def settledQuote (input : String) : Except Failure Bincode.ExecutionQuoteV1 :=
  ethers.decodeExecuteQuote input >>= quoteFromTuple

/-- `resume` once it has the calldata of the settlement's transaction. -/
def judgeSettlement (settings : Settings) (settlement : PaidSettlement) (input : String) :
    Except Failure ExecutePaidResult := do
  let settled ← settledQuote ethers input
  let hash ← hashExecutionQuoteV1 ethers settled
  if hash ≠ toLowerCase settlement.executionId then
    return .unknown settlement.executionId none
      "the settlement transaction does not carry the settled quote"
  else if !sameAction settings settled then
    return notPaid .precheck "PAYMENT_CONSUMED"
      s!"the payment id was consumed by another action in execution {settlement.executionId}"
  else return settledResult settlement (toBigInt settled.maximumTransactionGas)

/-- `resume`. -/
def resume (settings : Settings) (block : ℤ) : Async ExecutePaidResult := do
  let lookback := settings.resumeLookbackBlocks
  let found ← findSettlement (if lookback < block then block - lookback else 0) block
    (settlementLogByPayment settings.entryPoint settings.paymentIdHex)
  match found with
  | none => return .unknown none none <|
      "the intent and the payment id are consumed; no settlement log in the last " ++
        s!"{lookback} blocks"
  | some settlement =>
    match ← transactionInput settlement.transactionHash with
    | none =>
      return .unknown settlement.executionId none "the settlement transaction is not readable"
    | some input => ofExcept (judgeSettlement ethers settings settlement input)

/-! ### Polling for a settlement -/

/-- `PendingExecution`. -/
structure PendingExecution where
  executionId : String
  validUntilUnix : ℤ
  fromBlock : ℤ
  exit : String
  exitFee : ℤ
  networkFee : ℤ
  deadlineMs : ℤ

/-- `settlementMismatch`. -/
def settlementMismatch (settlement : PaidSettlement) (settings : Settings)
    (pending : PendingExecution) : Option String :=
  let checks : List (Bool × String) :=
    [(toLowerCase settlement.executionId == toLowerCase pending.executionId, "executionId"),
      (toLowerCase settlement.paymentId == settings.paymentIdHex, "paymentId"),
      (sameAddress settlement.exit pending.exit, "exit"),
      (sameAddress settlement.feeAsset settings.feeAsset, "feeAsset"),
      (sameAddress settlement.actionTarget settings.target, "actionTarget"),
      (settlement.exitFee == pending.exitFee, "exitFee"),
      (settlement.networkFee == pending.networkFee, "networkFee")]
  (checks.find? fun check => !check.1).map fun failed =>
    s!"settlement log {failed.2} does not match the quote"

/-- What `awaitSettlement` ends with. -/
inductive Confirmation
  | found (settlement : PaidSettlement)
  | unknown (detail : String)
  | expired

/-- One round of `awaitSettlement`: its end, or the detail to go on with. -/
def readSettlement (settings : Settings) (pending : PendingExecution) :
    Async (Confirmation ⊕ String) := do
  let block ← blockNumber
  let (consumed, timestamp) ← Prog.both
    (readFlag ethers settings .isExecutionConsumed pending.executionId block)
    (blockTimestamp (.number block))
  if consumed then
    match ← findSettlement pending.fromBlock block
        (settlementLog settings.entryPoint pending.executionId) with
    | some settlement =>
      match settlementMismatch settlement settings pending with
      | none => return .inl (.found settlement)
      | some mismatch => return .inl (.unknown mismatch)
    | none => return .inr "the execution is consumed and its settlement log is not readable yet"
  else if pending.validUntilUnix < timestamp then return .inl .expired
  else return .inr s!"not settled at block {block}"

/-- A round with its `catch`. -/
def pollSettlement (settings : Settings) (pending : PendingExecution) :
    Program (Confirmation ⊕ String) := do
  match ← (readSettlement ethers settings pending).run with
  | .ok outcome => pure outcome
  | .error failure => pure (.inr s!"chain read failed: {describe ethers failure}")

/-- `awaitSettlement`; its `unknown` carries the ids of `pending`. -/
def awaitSettlement (settings : Settings) (pending : PendingExecution) : ℕ → Stage Confirmation
  | 0 => throw .polling
  | polls + 1 => do
    match ← liftM (pollSettlement ethers settings pending) with
    | .inl confirmation => return confirmation
    | .inr detail =>
      let now ← liftM dateNow
      if pending.deadlineMs ≤ now then return .unknown detail
      else
        liftM (sleep settings.pollIntervalMs)
        awaitSettlement settings pending polls

/-! ### Polling for the payment -/

/-- What `paymentEvidence` ends with. -/
inductive Evidence
  | result (result : ExecutePaidResult)
  | unconsumed
  | expired

/-- One round of `paymentEvidence`: its end, or the chain time and the detail to go on with. -/
def readPayment (settings : Settings) (quote : SubmittedQuote) (wait : Bool) :
    Async (Evidence ⊕ ℤ × String) := do
  let block ← blockNumber
  let (consumed, timestamp) ← Prog.both
    (readFlag ethers settings .isPaymentConsumed settings.paymentIdHex block)
    (blockTimestamp (.number block))
  if consumed then
    let result ← resume ethers settings block
    return .inl (.result result)
  else if quote.validUntilUnix < timestamp then return .inl .expired
  else if !wait then return .inl .unconsumed
  else return .inr (timestamp, s!"the payment id is unconsumed at block {block} and execution " ++
    s!"{quote.executionId} can settle until {quote.validUntilUnix}")

/-- The variables of the loop of `paymentEvidence`. The deadline is exact: past the range of the
clock it stays past it when it is rounded to a `number`. -/
structure Waiting where
  deadlineMs : ℤ
  extended : Bool
  detail : String

/-- A round of `paymentEvidence` with its `catch`. -/
def afterRead (quote : SubmittedQuote) (wait : Bool) (waiting : Waiting) :
    Except Failure (Evidence ⊕ ℤ × String) → Evidence ⊕ Waiting
  | .ok (.inl evidence) => .inl evidence
  | .ok (.inr (timestamp, detail)) =>
    if waiting.extended then .inr { waiting with detail }
    else .inr ⟨waiting.deadlineMs + (quote.validUntilUnix - timestamp) * 1000, true, detail⟩
  | .error failure =>
    let detail := s!"chain read failed after a submission: {describe ethers failure}"
    if !wait then .inl (.result (.unknown quote.executionId quote.validUntilUnix detail))
    else .inr { waiting with detail }

/-- The loop of `paymentEvidence`. -/
def pollPayment (settings : Settings) (quote : SubmittedQuote) (wait : Bool) :
    ℕ → Waiting → Stage Evidence
  | 0, _ => throw .polling
  | polls + 1, waiting => do
    let outcome ← liftM (readPayment ethers settings quote wait).run
    match afterRead ethers quote wait waiting outcome with
    | .inl evidence => return evidence
    | .inr waiting =>
      let now ← liftM dateNow
      if waiting.deadlineMs ≤ now then
        return .result (.unknown quote.executionId quote.validUntilUnix waiting.detail)
      else
        liftM (sleep settings.pollIntervalMs)
        pollPayment settings quote wait polls waiting

/-- `paymentEvidence`. -/
def paymentEvidence (settings : Settings) (quote : SubmittedQuote) (wait : Bool) (polls : ℕ) :
    Stage Evidence := do
  let now ← liftM dateNow
  let timeout := settings.confirmationTimeoutMs.getD defaults.confirmationGraceMs
  pollPayment ethers settings quote wait polls
    ⟨now + timeout, settings.confirmationTimeoutMs.isSome, "no chain evidence was read"⟩

end NoxSdk.Paid
