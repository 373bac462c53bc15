import NoxSdk.Lib.Effects
import NoxSdk.Paid.Settings

/-!
# The calls of a paid execution

A paid execution is a program over the client, the chain reader, the preflight, the payment source
and the clock. `Op` are the calls it makes of them, `Reply` what it gets: a call that may reject
answers with an `Except`. A payment source without `checkAction` is one whose `checkAction`
returns.
-/

namespace NoxSdk.Paid

open Bincode (PaidTransactionOutcomeV2 PaidV2Rejection)
open NoxSdk.Lib

/-- `PaidSettlement`. -/
structure PaidSettlement where
  executionId : String
  paymentId : String
  exit : String
  feeAsset : String
  exitFee : ℤ
  networkFee : ℤ
  actionTarget : String
  actionSuccess : Bool
  returnDataLength : ℤ
  returnPrefixHash : String
  transactionHash : String
  blockNumber : ℤ
  deriving DecidableEq, Repr

/-- `PaidCallRequest`. -/
structure PaidCallRequest where
  from_ : Option String
  to_ : String
  data : String
  gas : Option ℤ
  gasPrice : Option ℤ
  deriving DecidableEq, Repr

/-- `bigint | "latest"`. -/
inductive BlockTag
  | number (n : ℤ)
  | latest
  deriving DecidableEq, Repr

/-- `PaidQuoteResultV2`. -/
inductive PaidQuoteResultV2
  | issued (quote : IssuedPaidQuoteV2)
  | rejected (rejection : PaidV2Rejection)
  deriving DecidableEq, Repr

/-- What `requestPaidQuote` did: its outcome, and the exit that the request was sent to once more
after a timeout, which the client does not report. -/
structure QuoteReply where
  outcome : Except Failure PaidQuoteResultV2
  resentTo : Option TopologyNode

/-- A call of the environment. -/
inductive Op
  | now
  | sleep (ms : ℕ)
  | randomBytes (length : ℕ)
  | checkAction (action : PaidAction)
  | buildPaymentData (executionId : Bytes) (amount : ℕ) (feeAsset : String)
  | selectPaidExit (exclude : List String)
  | requestPaidQuote (request : PaidQuoteRequestV2) (selectedExit : TopologyNode)
  | submitPaidTransaction (issued : IssuedPaidQuoteV2) (calldata : Bytes)
  | blockNumber
  | call (tx : PaidCallRequest) (block : BlockTag)
  | blockTimestamp (block : BlockTag)
  | settlementLog (entryPoint executionId : String) (fromBlock toBlock : ℤ)
  | settlementLogByPayment (entryPoint paymentId : String) (fromBlock toBlock : ℤ)
  | transactionInput (transactionHash : String)
  | dataFeeGas (to_ data : String)
  | preflightEstimateGas (from_ to_ data : String)
  | preflightCall (tx : PaidCallRequest) (block : BlockTag)

/-- The reply to a call. -/
abbrev Reply : Op → Type
  | .now => ℤ
  | .sleep _ => Unit
  | .randomBytes _ => Bytes
  | .checkAction _ => Except Failure Unit
  | .buildPaymentData _ _ _ => Except Failure Bytes
  | .selectPaidExit _ => Except Failure TopologyNode
  | .requestPaidQuote _ _ => QuoteReply
  | .submitPaidTransaction _ _ => Except Failure PaidTransactionOutcomeV2
  | .blockNumber => Except Failure ℤ
  | .call _ _ => Except Failure String
  | .blockTimestamp _ => Except Failure ℤ
  | .settlementLog _ _ _ _ => Except Failure (Option PaidSettlement)
  | .settlementLogByPayment _ _ _ _ => Except Failure (Option PaidSettlement)
  | .transactionInput _ => Except Failure (Option String)
  | .dataFeeGas _ _ => Except Failure ℤ
  | .preflightEstimateGas _ _ _ => Except Failure ℤ
  | .preflightCall _ _ => Except Failure String

/-- A call with its reply. -/
abbrev Event := Prog.Event Op Reply

/-- A program over the calls. -/
abbrev Program := Prog Op Reply

/-- An `async` function, which may reject. -/
abbrev Async := ExceptT Failure Program

/-- A result that is there at once. -/
def ofExcept {α : Type} (result : Except Failure α) : Async α := ExceptT.mk (pure result)

/-! ### The calls of the clock and the chain reader -/

/-- `Date.now()`. -/
def dateNow : Program ℤ := Prog.perform Op.now

/-- `setTimeout`, awaited. -/
def sleep (ms : ℕ) : Program Unit := Prog.perform (Op.sleep ms)

/-- `reader.blockNumber()`. -/
def blockNumber : Async ℤ := ExceptT.mk (Prog.perform Op.blockNumber)

/-- `reader.call(tx, block)`. -/
def call (tx : PaidCallRequest) (block : BlockTag) : Async String :=
  ExceptT.mk (Prog.perform (Op.call tx block))

/-- `reader.blockTimestamp(block)`. -/
def blockTimestamp (block : BlockTag) : Async ℤ :=
  ExceptT.mk (Prog.perform (Op.blockTimestamp block))

/-- `reader.settlementLog`. -/
def settlementLog (entryPoint executionId : String) (fromBlock toBlock : ℤ) :
    Async (Option PaidSettlement) :=
  ExceptT.mk (Prog.perform (Op.settlementLog entryPoint executionId fromBlock toBlock))

/-- `reader.settlementLogByPayment`. -/
def settlementLogByPayment (entryPoint paymentId : String) (fromBlock toBlock : ℤ) :
    Async (Option PaidSettlement) :=
  ExceptT.mk (Prog.perform (Op.settlementLogByPayment entryPoint paymentId fromBlock toBlock))

/-- `reader.transactionInput(transactionHash)`. -/
def transactionInput (transactionHash : String) : Async (Option String) :=
  ExceptT.mk (Prog.perform (Op.transactionInput transactionHash))

/-- A call of the contract without a sender. -/
def viewCall (to_ data : String) : PaidCallRequest :=
  { from_ := none, to_, data, gas := none, gasPrice := none }

/-! ### Ways to end -/

/-- `SubmittedQuote`. -/
structure SubmittedQuote where
  executionId : String
  validUntilUnix : ℤ
  deriving DecidableEq, Repr

/-- `PaidNotPaidStage`. -/
inductive PaidNotPaidStage
  | precheck
  | quote
  | feeCap
  | payment
  | preflight
  | submit
  | expired
  deriving DecidableEq, Repr

/-- The `not-paid` result. -/
structure NotPaid where
  stage : PaidNotPaidStage
  code : String
  detail : String
  deriving DecidableEq, Repr

/-- `common` of `settledResult`. -/
structure SettledCommon where
  executionId : String
  exit : String
  exitFee : ℤ
  networkFee : ℤ
  transactionHash : String
  blockNumber : ℤ
  deriving DecidableEq, Repr

/-- `ExecutePaidResult`, without the timings. -/
inductive ExecutePaidResult
  | settled (common : SettledCommon) (maximumTransactionGas : ℤ)
  | paidActionFailed (common : SettledCommon) (returnDataLength : ℤ) (returnPrefixHash : String)
  | dryRun (executionId exit : String) (exitFee networkFee : ℤ) (maximumTransactionGas : ℤ)
    (estimatedGas : ℤ)
  | notPaid (reason : NotPaid)
  | unknown (executionId : Option String) (validUntilUnix : Option ℤ) (detail : String)
  deriving DecidableEq, Repr

/-- How a step of `attemptPaid` ends when it does not go on: with a `return`, in view of what was
submitted, with an exception, or not at all. -/
inductive Abrupt
  | returned (result : ExecutePaidResult) (submitted : List SubmittedQuote)
  | thrown (failure : Failure)
  | polling
  | looping

/-- A step of `attemptPaid`. -/
abbrev Stage := ExceptT Abrupt Program

/-- `return result`. -/
def stop {α : Type} (result : ExecutePaidResult) (submitted : List SubmittedQuote) : Stage α :=
  throw (.returned result submitted)

/-- A rejection that is not caught. -/
def uncaughtResult {α : Type} : Except Failure α → Except Abrupt α
  | .ok a => .ok a
  | .error failure => .error (.thrown failure)

/-- A step that throws what it does not catch. -/
def uncaught {α : Type} (x : Async α) : Stage α := ExceptT.mk (uncaughtResult <$> x.run)

/-- The end of a `try` block with its `catch`. -/
def caughtResult {α : Type} (submitted : List SubmittedQuote)
    (onFailure : Failure → ExecutePaidResult) :
    Except Failure (ExecutePaidResult ⊕ α) → Except Abrupt α
  | .ok (.inl result) => .error (.returned result submitted)
  | .ok (.inr a) => .ok a
  | .error failure => .error (.returned (onFailure failure) submitted)

/-- A `try` block with its `catch`, both of which may return a result. -/
def tryOr {α : Type} (submitted : List SubmittedQuote) (x : Async (ExecutePaidResult ⊕ α))
    (onFailure : Failure → ExecutePaidResult) : Stage α :=
  ExceptT.mk (caughtResult submitted onFailure <$> x.run)

end NoxSdk.Paid
