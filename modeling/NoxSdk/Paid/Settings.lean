import NoxSdk.Paid.Gas

/-!
# Options of a paid execution

`ExecutePaidOptions` and what `resolveSettings` makes of them. The `number` options are natural
numbers: one with a sign or a fraction is refused by the same checks as one that is too large. The
functions among the options (chain reader, preflight, payment source) are calls of the
environment.
-/

namespace NoxSdk.Paid

open Js (isHexDigit textEncode)

/-- `PaidAction`. -/
structure PaidAction where
  target : String
  data : Bytes
  gasLimit : Option ℤ
  trackedAssets : Option (List String)
  returnDataLimit : Option ℕ
  deriving DecidableEq, Repr

/-- `PaidPaymentSource`, without its functions. -/
structure PaidPaymentSource where
  adapter : String
  feeAsset : String
  paymentId : Bytes
  gasLimit : ℤ
  paymentDataLength : ℕ
  deriving DecidableEq, Repr

/-- `PaidGasOptions`. -/
structure PaidGasOptions where
  exitGasBufferBps : Option ℕ
  capHeadroomBps : Option ℕ
  dataFeeHeadroomBps : Option ℕ
  actionMarginBps : Option ℕ
  maximumTransactionGas : Option ℤ
  deriving DecidableEq, Repr

/-- `ExecutePaidOptions.pending`. -/
structure PendingResult where
  executionId : String
  validUntilUnix : ℤ
  deriving DecidableEq, Repr

/-- `ExecutePaidOptions`; `chainDataFeeGas` says whether the chain reader has a `dataFeeGas`. -/
structure ExecutePaidOptions where
  chainId : ℤ
  entryPoint : String
  action : PaidAction
  payment : PaidPaymentSource
  maxTotalFee : ℤ
  intentSalt : Option Bytes
  clientIntentId : Option Bytes
  chainDataFeeGas : Bool
  pending : Option PendingResult
  gas : Option PaidGasOptions
  minSubmitHeadroomSecs : Option ℕ
  maxExits : Option ℕ
  dryRun : Bool
  confirmationTimeoutMs : Option ℕ
  pollIntervalMs : Option ℕ
  resumeLookbackBlocks : Option ℤ
  deriving DecidableEq, Repr

/-- `Settings`. -/
structure Settings where
  entryPoint : String
  target : String
  adapter : String
  feeAsset : String
  trackedAssets : List String
  intentId : Bytes
  intentIdHex : String
  paymentId : Bytes
  paymentIdHex : String
  actionCalldataHash : String
  returnDataLimit : ℕ
  exitGasBufferBps : ℕ
  capHeadroomBps : ℕ
  dataFeeHeadroomBps : ℕ
  actionMarginBps : ℕ
  maximumTransactionGas : Option ℤ
  minSubmitHeadroomSecs : ℕ
  maxExits : ℕ
  dryRun : Bool
  confirmationTimeoutMs : Option ℕ
  pollIntervalMs : ℕ
  resumeLookbackBlocks : ℤ
  deriving DecidableEq, Repr

variable (ethers : Ethers)

/-- `address`. -/
def address (value field : String) : Except Failure String :=
  match ethers.getAddress value with
  | .ok address => .ok address
  | .error _ => .error (invalid s!"{field} is not a valid address")

/-- `deriveClientIntentId`. -/
def deriveClientIntentId (chainId : ℤ) (entryPoint target : String) (data salt : Bytes) :
    Except Failure Bytes := do
  requireOption (salt.length = 32) "intentSalt must be 32 bytes"
  let chain ← word chainId.toNat
  let entryPoint ← getBytes (← ethers.getAddress entryPoint)
  let target ← getBytes (← ethers.getAddress target)
  return ethers.keccak256 (textEncode "nox.client-intent.v1" ++ (chain ++ (entryPoint ++ (target ++
    (ethers.keccak256 data ++ salt)))))

/-- The regular expression `^0x[0-9a-fA-F]{64}$`. -/
def isWordHex (text : String) : Bool :=
  match text.toList with
  | '0' :: 'x' :: digits => digits.length == 64 && digits.all isHexDigit
  | _ => false

/-- The intent id of `resolveSettings`. -/
def resolveIntentId (options : ExecutePaidOptions) (entryPoint target : String) :
    Except Failure Bytes := do
  let intentId ← match options.clientIntentId, options.intentSalt with
    | some clientIntentId, none => .ok clientIntentId
    | none, some salt =>
      deriveClientIntentId ethers options.chainId entryPoint target options.action.data salt
    | _, _ => .error (invalid "give exactly one of intentSalt and clientIntentId")
  requireOption (intentId.length = 32) "clientIntentId must be 32 bytes"
  return intentId

/-- `resolveSettings`. -/
def resolveSettings (options : ExecutePaidOptions) : Except Failure Settings := do
  requireOption (0 < options.chainId) "chainId must be a positive bigint"
  requireOption (0 < options.maxTotalFee) "maxTotalFee must be a positive bigint"
  requireOption (options.action.gasLimit.all (0 < ·)) "action.gasLimit must be positive"
  requireOption (options.payment.paymentId.length = 32) "payment.paymentId must be 32 bytes"
  requireOption (0 < options.payment.gasLimit) "payment.gasLimit must be a positive bigint"
  requireOption (0 < options.payment.paymentDataLength ∧
    options.payment.paymentDataLength < Js.safeBound)
    "payment.paymentDataLength must be a positive integer"
  let entryPoint ← address ethers options.entryPoint "entryPoint"
  let target ← address ethers options.action.target "action.target"
  let intentId ← resolveIntentId ethers options entryPoint target
  requireOption (options.pending.all fun pending => isWordHex pending.executionId)
    "pending must carry the executionId and validUntilUnix of an unknown result"
  let gas := fun (field : PaidGasOptions → Option ℕ) (default : ℕ) =>
    (options.gas.bind field).getD default
  let actionMarginBps := gas (·.actionMarginBps) defaults.actionMarginBps
  requireOption (10000 ≤ actionMarginBps ∧ actionMarginBps < Js.safeBound)
    "gas.actionMarginBps must be an integer of at least 10000"
  let exitGasBufferBps ←
    bps (gas (·.exitGasBufferBps) defaults.exitGasBufferBps) "gas.exitGasBufferBps"
  let capHeadroomBps ← bps (gas (·.capHeadroomBps) defaults.capHeadroomBps) "gas.capHeadroomBps"
  let dataFeeHeadroomBps ←
    bps (gas (·.dataFeeHeadroomBps) defaults.dataFeeHeadroomBps) "gas.dataFeeHeadroomBps"
  let adapter ← address ethers options.payment.adapter "payment.adapter"
  let feeAsset ← address ethers options.payment.feeAsset "payment.feeAsset"
  let trackedAssets ← (options.action.trackedAssets.getD []).mapM fun asset =>
    address ethers asset "action.trackedAssets"
  let minSubmitHeadroomSecs ← nonNegativeInteger
    (options.minSubmitHeadroomSecs.getD defaults.minSubmitHeadroomSecs) "minSubmitHeadroomSecs"
  let maxExits ← positiveInteger (options.maxExits.getD defaults.maxExits) "maxExits"
  let confirmationTimeoutMs ← match options.confirmationTimeoutMs with
    | none => .ok none
    | some ms => (nonNegativeInteger ms "confirmationTimeoutMs").map some
  let pollIntervalMs ← nonNegativeInteger
    (options.pollIntervalMs.getD defaults.pollIntervalMs) "pollIntervalMs"
  return {
    intentIdHex := hexlify intentId
    paymentId := options.payment.paymentId
    paymentIdHex := hexlify options.payment.paymentId
    actionCalldataHash := hexlify (ethers.keccak256 options.action.data)
    returnDataLimit := options.action.returnDataLimit.getD defaults.returnDataLimit
    maximumTransactionGas := options.gas.bind (·.maximumTransactionGas)
    dryRun := options.dryRun
    resumeLookbackBlocks := options.resumeLookbackBlocks.getD defaults.resumeLookbackBlocks
    entryPoint, target, adapter, feeAsset, trackedAssets, intentId, exitGasBufferBps,
    capHeadroomBps, dataFeeHeadroomBps, actionMarginBps, minSubmitHeadroomSecs, maxExits,
    confirmationTimeoutMs, pollIntervalMs }

end NoxSdk.Paid
