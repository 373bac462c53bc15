import NoxSdk.Types

/-!
# Paid outcomes

The values of `bincode.ts` that a paid exit answers with: a signed quote and the two outcomes. The
words and addresses of a quote are byte strings here; their lengths are checked where a quote is
read.
-/

namespace NoxSdk.Bincode

/-- `ExecutionQuoteV1`. -/
structure ExecutionQuoteV1 where
  quoteVersion : ℕ
  chainId : Bytes
  entryPoint : Bytes
  exitAddress : Bytes
  clientIntentId : Bytes
  paymentAdapter : Bytes
  paymentId : Bytes
  feeAsset : Bytes
  exitFee : Bytes
  networkFee : Bytes
  paymentGasLimit : Bytes
  actionTarget : Bytes
  actionCalldataHash : Bytes
  actionGasLimit : Bytes
  trackedAssetsHash : Bytes
  maximumTransactionGas : Bytes
  maximumFeePerGas : Bytes
  returnDataLimit : Bytes
  validAfterUnix : ℕ
  validUntilUnix : ℕ
  quoteNonce : Bytes
  deriving DecidableEq, Repr

/-- `PaidTransactionRejectionCodeV2`, in the order of `PAID_TRANSACTION_REJECTION_CODES_V2`. -/
inductive PaidTransactionRejectionCodeV2
  | malformedRequest
  | wrongChain
  | wrongEntryPoint
  | unknownQuote
  | expiredQuote
  | duplicateExecution
  | simulationFailure
  | paymentMissing
  | paymentReverted
  | unsupportedFeeAsset
  | stalePrice
  | unprofitable
  | gasCapExceeded
  | submissionFailure
  | unsupportedPaymentAdapter
  | quoteCapacityExceeded
  | pendingLossLimit
  deriving DecidableEq, Repr

/-- The text of a code. -/
def PaidTransactionRejectionCodeV2.value : PaidTransactionRejectionCodeV2 → String
  | malformedRequest => "MalformedRequest"
  | wrongChain => "WrongChain"
  | wrongEntryPoint => "WrongEntryPoint"
  | unknownQuote => "UnknownQuote"
  | expiredQuote => "ExpiredQuote"
  | duplicateExecution => "DuplicateExecution"
  | simulationFailure => "SimulationFailure"
  | paymentMissing => "PaymentMissing"
  | paymentReverted => "PaymentReverted"
  | unsupportedFeeAsset => "UnsupportedFeeAsset"
  | stalePrice => "StalePrice"
  | unprofitable => "Unprofitable"
  | gasCapExceeded => "GasCapExceeded"
  | submissionFailure => "SubmissionFailure"
  | unsupportedPaymentAdapter => "UnsupportedPaymentAdapter"
  | quoteCapacityExceeded => "QuoteCapacityExceeded"
  | pendingLossLimit => "PendingLossLimit"

/-- The rejection of `PaidQuoteOutcomeV2`. -/
structure PaidV2Rejection where
  code : PaidTransactionRejectionCodeV2
  retryable : Bool
  detail : String
  deriving DecidableEq, Repr

/-- `PaidTransactionOutcomeV2`. -/
inductive PaidTransactionOutcomeV2
  | submitted (executionId transactionHash : Bytes)
  | rejected (executionId : Option Bytes) (rejection : PaidV2Rejection)
  deriving DecidableEq, Repr

/-- `PaidQuoteOutcomeV2`. -/
inductive PaidQuoteOutcomeV2
  | issued (quote : ExecutionQuoteV1) (executionId exitSignature : Bytes)
  | rejected (rejection : PaidV2Rejection)
  deriving DecidableEq, Repr

end NoxSdk.Bincode
