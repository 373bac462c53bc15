import NoxSdk.Paid.Quote

/-!
# The planned gas cap

The gas arithmetic of `paid_execute.ts`: the size and price of the calldata, and the cap that is
asked for in a quote.
-/

namespace NoxSdk.Paid

/-- `TRANSACTION_BASE_GAS`. -/
def transactionBaseGas : ℤ := 21000

/-- `NONZERO_BYTE_GAS`. -/
def nonzeroByteGas : ℤ := 16

/-- `ZERO_BYTE_GAS`. -/
def zeroByteGas : ℤ := 4

/-- `BPS`. -/
def bpsUnit : ℤ := 10000

/-- `EXECUTE_HEAD_WORDS`. -/
def executeHeadWords : ℕ := 25

/-- `SIGNATURE_BYTES`. -/
def signatureBytes : ℕ := 65

/-- `PAID_EXECUTE_DEFAULTS`. -/
structure PaidExecuteDefaults where
  exitGasBufferBps : ℕ := 2000
  capHeadroomBps : ℕ := 500
  dataFeeHeadroomBps : ℕ := 5000
  actionMarginBps : ℕ := 15000
  exitGasBufferStepBps : ℕ := 1000
  minSubmitHeadroomSecs : ℕ := 12
  maxExits : ℕ := 2
  returnDataLimit : ℕ := 256
  quoteRequestTtlSecs : ℕ := 120
  confirmationGraceMs : ℕ := 60000
  pollIntervalMs : ℕ := 2000
  logRangeBlocks : ℤ := 2000
  resumeLookbackBlocks : ℤ := 16000

/-- `PAID_EXECUTE_DEFAULTS`. -/
def defaults : PaidExecuteDefaults := {}

/-- `ceilDiv`; the division of the language rounds towards zero. -/
def ceilDiv (numerator denominator : ℤ) : ℤ := (numerator + denominator - 1).tdiv denominator

/-- A check of the options. -/
def requireOption (ok : Bool) (message : String) : Except Failure Unit :=
  if ok then .ok () else .error (invalid message)

/-- `nonNegativeInteger`, of a number without sign and fraction. -/
def nonNegativeInteger (value : ℕ) (field : String) : Except Failure ℕ :=
  if value < Js.safeBound then .ok value
  else .error (invalid s!"{field} must be a non-negative integer")

/-- `positiveInteger`. -/
def positiveInteger (value : ℕ) (field : String) : Except Failure ℕ := do
  let value ← nonNegativeInteger value field
  if value = 0 then .error (invalid s!"{field} must be positive") else .ok value

/-- `bps`. -/
def bps (value : ℕ) (field : String) : Except Failure ℕ := nonNegativeInteger value field

/-- `padded` of `paidExecuteCalldata`. -/
def padded (length : ℕ) : ℕ := (length + 31) / 32 * 32

/-- `bytes` of `paidExecuteCalldata`. -/
def executeBytes (actionData : Bytes) (trackedAssetCount paymentDataLength : ℕ) : ℕ :=
  4 + executeHeadWords * 32 + (32 + padded signatureBytes) + (32 + padded actionData.length) +
    (32 + trackedAssetCount * 32) + (32 + padded paymentDataLength)

/-- `gas` of `paidExecuteCalldata`. -/
def executeGas (actionData : Bytes) (trackedAssetCount paymentDataLength : ℕ) : ℤ :=
  let bytes := executeBytes actionData trackedAssetCount paymentDataLength
  let zeroBytes := actionData.count 0
  ((bytes : ℤ) - zeroBytes) * nonzeroByteGas + zeroBytes * zeroByteGas

/-- `PaidGasPlanInput`. -/
structure PaidGasPlanInput where
  paymentGasLimit : ℤ
  actionGasLimit : ℤ
  calldataGas : ℤ
  dataFeeGas : Option ℤ
  exitGasBufferBps : Option ℕ
  capHeadroomBps : Option ℕ
  dataFeeHeadroomBps : Option ℕ
  maximumTransactionGas : Option ℤ
  deriving DecidableEq, Repr

/-- `PaidGasPlan`. -/
structure PaidGasPlan where
  boundedGas : ℤ
  envelopeGas : ℤ
  maximumTransactionGas : ℤ
  deriving DecidableEq, Repr

/-- The cap under the clamp of the options. -/
def clampGas (clamp : Option ℤ) (boundedGas maximumTransactionGas : ℤ) : Except Failure ℤ :=
  match clamp with
  | none => .ok maximumTransactionGas
  | some clamp =>
    if maximumTransactionGas ≤ clamp then .ok maximumTransactionGas
    else if clamp < boundedGas then
      .error (invalid <| s!"gas.maximumTransactionGas {clamp} is below paymentGasLimit + " ++
        s!"actionGasLimit + {entryPointGasReserve}")
    else .ok clamp

/-- `planPaidGas`. -/
def planPaidGas (input : PaidGasPlanInput) : Except Failure PaidGasPlan := do
  let exitGasBufferBps ←
    bps (input.exitGasBufferBps.getD defaults.exitGasBufferBps) "exitGasBufferBps"
  let capHeadroomBps ← bps (input.capHeadroomBps.getD defaults.capHeadroomBps) "capHeadroomBps"
  let dataFeeHeadroomBps ←
    bps (input.dataFeeHeadroomBps.getD defaults.dataFeeHeadroomBps) "dataFeeHeadroomBps"
  requireOption (0 < input.paymentGasLimit) "paymentGasLimit must be a positive bigint"
  requireOption (0 < input.actionGasLimit) "actionGasLimit must be a positive bigint"
  let dataFeeGas := input.dataFeeGas.getD 0
  requireOption (0 ≤ input.calldataGas ∧ 0 ≤ dataFeeGas)
    "calldataGas and dataFeeGas must not be negative"
  let boundedGas := input.paymentGasLimit + input.actionGasLimit + entryPointGasReserve
  let envelopeGas := transactionBaseGas + input.calldataGas +
    ceilDiv (dataFeeGas * (bpsUnit + dataFeeHeadroomBps)) bpsUnit
  let maximumTransactionGas ← clampGas input.maximumTransactionGas boundedGas
    (ceilDiv ((boundedGas + envelopeGas) * (bpsUnit + exitGasBufferBps) *
      (bpsUnit + capHeadroomBps)) (bpsUnit * bpsUnit))
  return { boundedGas, envelopeGas, maximumTransactionGas }

end NoxSdk.Paid
