import NoxSdk.Bincode.Quote
import NoxSdk.Paid.Text

/-!
# Signed quotes

A quote as typed data, its hash, and the checks a client makes on a quote that an exit issued
(`paid.ts`). Hashing, addresses and the ABI of the EntryPoint are functions of `ethers`, collected
in `Ethers`.
-/

namespace NoxSdk.Paid

open Bincode (ExecutionQuoteV1 PaidQuoteOutcomeV2)
open Js (toLowerCase)

/-- `QuoteTuple`: the quote as `quoteTypedData` gives it and the ABI decodes it. -/
structure QuoteTuple where
  quoteVersion : ℕ
  chainId : ℕ
  entryPoint : String
  exitAddress : String
  clientIntentId : String
  paymentAdapter : String
  paymentId : String
  feeAsset : String
  exitFee : ℕ
  networkFee : ℕ
  paymentGasLimit : ℕ
  actionTarget : String
  actionCalldataHash : String
  actionGasLimit : ℕ
  trackedAssetsHash : String
  maximumTransactionGas : ℕ
  maximumFeePerGas : ℕ
  returnDataLimit : ℕ
  validAfterUnix : ℕ
  validUntilUnix : ℕ
  quoteNonce : ℕ
  deriving DecidableEq, Repr

/-- The view functions of the EntryPoint that paid execution reads, all of one 32-byte id. -/
inductive View
  | isExecutionConsumed
  | isPaymentConsumed
  | isClientIntentConsumed
  | predictSandbox
  deriving DecidableEq, Repr

/-- The functions of `ethers`. -/
structure Ethers where
  /-- The checksummed address; fails on another text. -/
  getAddress : String → Except Failure String
  keccak256 : Bytes → Bytes
  /-- `AbiCoder.encode(["address[]"], [addresses])`. -/
  encodeAddresses : List String → Except Failure Bytes
  /-- `ENTRY_POINT.encodeFunctionData` of a view function. -/
  encodeView : View → String → Except Failure String
  /-- `ENTRY_POINT.decodeFunctionResult` of a consumed flag, compared with `true`. -/
  decodeFlag : View → String → Except Failure Bool
  /-- `ENTRY_POINT.decodeFunctionResult` of `predictSandbox`. -/
  decodeSandbox : String → Except Failure String
  /-- `ENTRY_POINT.encodeFunctionData` of `execute`: quote, exit signature, action data, tracked
  assets and payment data. -/
  encodeExecute : QuoteTuple → Bytes → Bytes → List String → Bytes → Except Failure Bytes
  /-- `ENTRY_POINT.decodeFunctionResult` of `execute`: whether `success` is `true`. -/
  decodeExecuteSuccess : String → Except Failure Bool
  /-- `ENTRY_POINT.decodeFunctionData` of `execute`: the quote. -/
  decodeExecuteQuote : String → Except Failure QuoteTuple
  /-- `NODE_INTERFACE.encodeFunctionData` of `gasEstimateL1Component(to, false, data)`. -/
  encodeDataFee : String → String → Except Failure String
  /-- `NODE_INTERFACE.decodeFunctionResult` of it: the gas. -/
  decodeDataFee : String → Except Failure ℤ
  /-- `TypedDataEncoder.hash` of a quote in the domain of its chain and EntryPoint. -/
  hashTypedData : QuoteTuple → Except Failure String
  /-- `verifyTypedData` in that domain: the signer. -/
  verifyTypedData : QuoteTuple → String → Except Failure String
  /-- `ENTRY_POINT.parseError`: the name of the error in revert data. -/
  parseError : String → Option String

variable (ethers : Ethers)

/-- `describe`, with the error name of the first text that is revert data. -/
def describe (failure : Failure) : String :=
  let text := safeExternalError failure.message
  match (failure.data.toList ++ hexRuns text.toList).findSome? ethers.parseError with
  | some name => s!"{name}: {text}"
  | none => text

/-! ### Typed data -/

/-- `invalidQuote`. -/
def invalidQuote (message : String) : Failure :=
  ⟨s!"Invalid paid quote response: {message}", some .decryptionFailed, none⟩

/-- `requireFixed`. -/
def requireFixed (value : Bytes) (length : ℕ) (field : String) : Except Failure Bytes :=
  if value.length = length then .ok value
  else .error (invalidQuote s!"{field} must be {length} bytes")

/-- `wordToBigInt`. -/
def wordToBigInt (value : Bytes) (field : String) : Except Failure ℕ :=
  (requireFixed value 32 field).map toBigInt

/-- `fixedHex`. -/
def fixedHex (value : Bytes) (length : ℕ) (field : String) : Except Failure String :=
  (requireFixed value length field).map hexlify

/-- `addressHex`. -/
def addressHex (value : Bytes) (field : String) : Except Failure String := do
  let value ← requireFixed value 20 field
  match ethers.getAddress (hexlify value) with
  | .ok address => .ok address
  | .error failure => .error (invalidQuote s!"{field} is not a valid address: {failure.message}")

/-- `normalizeAddress`. -/
def normalizeAddress (value field : String) : Except Failure String :=
  match ethers.getAddress value with
  | .ok address => .ok (toLowerCase address)
  | .error failure => .error (invalidQuote s!"{field} is not a valid address: {failure.message}")

/-- `quoteTypedData(quote).value`. -/
def quoteTypedData (quote : ExecutionQuoteV1) : Except Failure QuoteTuple := do
  let chainId ← wordToBigInt quote.chainId "quote.chainId"
  let entryPoint ← addressHex ethers quote.entryPoint "quote.entryPoint"
  let exitAddress ← addressHex ethers quote.exitAddress "quote.exitAddress"
  let clientIntentId ← fixedHex quote.clientIntentId 32 "quote.clientIntentId"
  let paymentAdapter ← addressHex ethers quote.paymentAdapter "quote.paymentAdapter"
  let paymentId ← fixedHex quote.paymentId 32 "quote.paymentId"
  let feeAsset ← addressHex ethers quote.feeAsset "quote.feeAsset"
  let exitFee ← wordToBigInt quote.exitFee "quote.exitFee"
  let networkFee ← wordToBigInt quote.networkFee "quote.networkFee"
  let paymentGasLimit ← wordToBigInt quote.paymentGasLimit "quote.paymentGasLimit"
  let actionTarget ← addressHex ethers quote.actionTarget "quote.actionTarget"
  let actionCalldataHash ← fixedHex quote.actionCalldataHash 32 "quote.actionCalldataHash"
  let actionGasLimit ← wordToBigInt quote.actionGasLimit "quote.actionGasLimit"
  let trackedAssetsHash ← fixedHex quote.trackedAssetsHash 32 "quote.trackedAssetsHash"
  let maximumTransactionGas ←
    wordToBigInt quote.maximumTransactionGas "quote.maximumTransactionGas"
  let maximumFeePerGas ← wordToBigInt quote.maximumFeePerGas "quote.maximumFeePerGas"
  let returnDataLimit ← wordToBigInt quote.returnDataLimit "quote.returnDataLimit"
  let quoteNonce ← wordToBigInt quote.quoteNonce "quote.quoteNonce"
  return {
    quoteVersion := quote.quoteVersion
    validAfterUnix := quote.validAfterUnix
    validUntilUnix := quote.validUntilUnix
    chainId, entryPoint, exitAddress, clientIntentId, paymentAdapter, paymentId, feeAsset, exitFee,
    networkFee, paymentGasLimit, actionTarget, actionCalldataHash, actionGasLimit,
    trackedAssetsHash, maximumTransactionGas, maximumFeePerGas, returnDataLimit, quoteNonce }

/-- `hashExecutionQuoteV1`. -/
def hashExecutionQuoteV1 (quote : ExecutionQuoteV1) : Except Failure String := do
  ethers.hashTypedData (← quoteTypedData ethers quote)

/-- `quoteFromTuple`. -/
def quoteFromTuple (tuple : QuoteTuple) : Except Failure ExecutionQuoteV1 := do
  let chainId ← word tuple.chainId
  let entryPoint ← getBytes tuple.entryPoint
  let exitAddress ← getBytes tuple.exitAddress
  let clientIntentId ← getBytes tuple.clientIntentId
  let paymentAdapter ← getBytes tuple.paymentAdapter
  let paymentId ← getBytes tuple.paymentId
  let feeAsset ← getBytes tuple.feeAsset
  let exitFee ← word tuple.exitFee
  let networkFee ← word tuple.networkFee
  let paymentGasLimit ← word tuple.paymentGasLimit
  let actionTarget ← getBytes tuple.actionTarget
  let actionCalldataHash ← getBytes tuple.actionCalldataHash
  let actionGasLimit ← word tuple.actionGasLimit
  let trackedAssetsHash ← getBytes tuple.trackedAssetsHash
  let maximumTransactionGas ← word tuple.maximumTransactionGas
  let maximumFeePerGas ← word tuple.maximumFeePerGas
  let returnDataLimit ← word tuple.returnDataLimit
  let quoteNonce ← word tuple.quoteNonce
  return {
    quoteVersion := tuple.quoteVersion
    validAfterUnix := tuple.validAfterUnix
    validUntilUnix := tuple.validUntilUnix
    chainId, entryPoint, exitAddress, clientIntentId, paymentAdapter, paymentId, feeAsset, exitFee,
    networkFee, paymentGasLimit, actionTarget, actionCalldataHash, actionGasLimit,
    trackedAssetsHash, maximumTransactionGas, maximumFeePerGas, returnDataLimit, quoteNonce }

/-! ### Issued quotes -/

/-- `TopologyNode`, of which paid execution reads the id. -/
structure TopologyNode where
  id : String
  deriving DecidableEq, Repr

/-- `PaidQuoteRequestV2`, as the caller fills it in. -/
structure PaidQuoteRequestV2 where
  chainId : ℤ
  entryPoint : Bytes
  clientIntentId : Bytes
  paymentAdapter : Bytes
  paymentId : Bytes
  feeAsset : Bytes
  paymentGasLimit : ℤ
  actionTarget : Bytes
  actionCalldataHash : Bytes
  actionGasLimit : ℤ
  trackedAssetsHash : Bytes
  maximumTransactionGas : ℤ
  returnDataLimit : ℕ
  validUntilUnix : ℤ
  deriving DecidableEq, Repr

/-- `IssuedPaidQuoteV2`. -/
structure IssuedPaidQuoteV2 where
  quote : ExecutionQuoteV1
  executionId : Bytes
  exitSignature : Bytes
  selectedExit : TopologyNode
  deriving DecidableEq, Repr

/-- `ENTRY_POINT_GAS_RESERVE`. -/
def entryPointGasReserve : ℕ := 250000

/-- A check of an issued quote. -/
def requireQuote (ok : Bool) (message : String) : Except Failure Unit :=
  if ok then .ok () else .error (invalidQuote message)

/-- `validateQuoteBounds`. -/
def validateQuoteBounds (quote : ExecutionQuoteV1) (chainTimestamp : Option ℤ) :
    Except Failure Unit := do
  let paymentGas ← wordToBigInt quote.paymentGasLimit "quote.paymentGasLimit"
  let actionGas ← wordToBigInt quote.actionGasLimit "quote.actionGasLimit"
  let maximumGas ← wordToBigInt quote.maximumTransactionGas "quote.maximumTransactionGas"
  requireQuote (paymentGas ≠ 0 ∧ actionGas ≠ 0) "payment and action gas limits must be positive"
  requireQuote (paymentGas + actionGas + entryPointGasReserve ≤ maximumGas)
    "maximum transaction gas does not cover the EntryPoint reserve"
  requireQuote ((← wordToBigInt quote.maximumFeePerGas "quote.maximumFeePerGas") ≠ 0)
    "maximumFeePerGas must be positive"
  let exitFee ← wordToBigInt quote.exitFee "quote.exitFee"
  let networkFee ← wordToBigInt quote.networkFee "quote.networkFee"
  requireQuote (exitFee + networkFee ≠ 0) "quoted payment must be positive"
  requireQuote ((← wordToBigInt quote.returnDataLimit "quote.returnDataLimit") ≤ 4096)
    "returnDataLimit exceeds the EntryPoint cap"
  requireQuote (quote.validAfterUnix ≤ quote.validUntilUnix) "quote has an invalid validity window"
  requireQuote (chainTimestamp.all fun now => (quote.validAfterUnix : ℤ) ≤ now)
    "quote is not active yet"
  requireQuote (chainTimestamp.all fun now => now ≤ (quote.validUntilUnix : ℤ)) "quote is expired"

/-- `validateQuoteMatchesRequest`. -/
def validateQuoteMatchesRequest (quote : ExecutionQuoteV1) (request : PaidQuoteRequestV2) :
    Except Failure Unit := do
  [(quote.entryPoint, request.entryPoint, "entryPoint"),
    (quote.clientIntentId, request.clientIntentId, "clientIntentId"),
    (quote.paymentAdapter, request.paymentAdapter, "paymentAdapter"),
    (quote.paymentId, request.paymentId, "paymentId"),
    (quote.feeAsset, request.feeAsset, "feeAsset"),
    (quote.actionTarget, request.actionTarget, "actionTarget"),
    (quote.actionCalldataHash, request.actionCalldataHash, "actionCalldataHash"),
    (quote.trackedAssetsHash, request.trackedAssetsHash, "trackedAssetsHash")].forM
    fun (quoted, requested, field) => matches_ (quoted == requested) field
  let chainId ← wordToBigInt quote.chainId "quote.chainId"
  let paymentGasLimit ← wordToBigInt quote.paymentGasLimit "quote.paymentGasLimit"
  let actionGasLimit ← wordToBigInt quote.actionGasLimit "quote.actionGasLimit"
  let maximumTransactionGas ←
    wordToBigInt quote.maximumTransactionGas "quote.maximumTransactionGas"
  let returnDataLimit ← wordToBigInt quote.returnDataLimit "quote.returnDataLimit"
  [((chainId : ℤ), request.chainId, "chainId"),
    ((paymentGasLimit : ℤ), request.paymentGasLimit, "paymentGasLimit"),
    ((actionGasLimit : ℤ), request.actionGasLimit, "actionGasLimit"),
    ((maximumTransactionGas : ℤ), request.maximumTransactionGas, "maximumTransactionGas"),
    ((returnDataLimit : ℤ), (request.returnDataLimit : ℤ), "returnDataLimit")].forM
    fun (quoted, requested, field) => matches_ (quoted == requested) field
  requireQuote ((quote.validUntilUnix : ℤ) ≤ request.validUntilUnix)
    "validUntilUnix exceeds the requested deadline"
where
  /-- One field. -/
  matches_ (same : Bool) (field : String) : Except Failure Unit :=
    requireQuote same s!"{field} does not match the quote request"

/-- `validateIssuedPaidQuote`. -/
def validateIssuedPaidQuote (outcome : PaidQuoteOutcomeV2) (request : Option PaidQuoteRequestV2)
    (selectedExit : TopologyNode) (chainTimestamp : Option ℤ) :
    Except Failure IssuedPaidQuoteV2 :=
  match outcome with
  | .rejected rejection =>
    .error (invalidQuote s!"exit rejected the quote with {rejection.code.value}")
  | .issued quote executionId exitSignature => do
    requireQuote (quote.quoteVersion = 1) "quoteVersion must be 1"
    let selectedExitAddress ← normalizeAddress ethers selectedExit.id "selected exit"
    let quoteExitAddress ← normalizeAddress ethers
      (← addressHex ethers quote.exitAddress "quote.exitAddress") "quote.exitAddress"
    requireQuote (quoteExitAddress = selectedExitAddress)
      "quote exit does not match the selected exit"
    let digest ← hashExecutionQuoteV1 ethers quote
    requireQuote (toLowerCase (← fixedHex executionId 32 "executionId") = digest)
      "executionId does not match the signed quote"
    let signature ← fixedHex exitSignature 65 "exitSignature"
    let signer ← recoverSigner quote signature
    requireQuote (signer = selectedExitAddress) "exit signature does not recover the selected exit"
    validateQuoteBounds quote chainTimestamp
    if let some request := request then validateQuoteMatchesRequest quote request
    return { quote, executionId, exitSignature, selectedExit }
where
  /-- The signer, in lower case. -/
  recoverSigner (quote : ExecutionQuoteV1) (signature : String) : Except Failure String :=
    match quoteTypedData ethers quote >>= fun typed => ethers.verifyTypedData typed signature with
    | .ok signer => .ok (toLowerCase signer)
    | .error _ => .error (invalidQuote "exit signature is invalid")

end NoxSdk.Paid
