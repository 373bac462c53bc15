import NoxSdk.Bincode.Quote
import NoxSdk.Bincode.RoundTrip
import NoxSdk.Bincode.TunnelReply

/-!
# Reply codecs

The codecs of what an exit answers with: `PaidTransactionOutcomeV2`, `PaidQuoteOutcomeV2` with its
quote, and `TunnelReplyV1`. The encoders check the lengths of fixed fields and the detail of a
rejection, but truncate a number that is too large. Below the width of its field every value that
is encoded is decoded to itself (`reply_codecs_round_trip`).
-/

namespace NoxSdk.Js

/-- `new TextDecoder("utf-8", { fatal: true }).decode(bytes)`, `none` where it throws. What is
decoded and encoded again is the input exactly when no character was replaced. -/
def textDecodeFatal (bytes : Bytes) : Option String :=
  if (Utf8State.start.decode bytes).flatMap String.utf8EncodeChar = bytes then
    some (textDecode bytes)
  else none

theorem textDecodeFatal_textEncode {text : String} (h : NoMark text) :
    textDecodeFatal (textEncode text) = some text := by
  rw [textDecodeFatal, textDecode_textEncode h, textEncode, decode_flatMap_utf8EncodeChar,
    if_pos rfl]

end NoxSdk.Js

namespace NoxSdk.Bincode

/-! ### Rejections -/

/-- `PAID_TRANSACTION_REJECTION_CODES_V2`. -/
def paidTransactionRejectionCodesV2 : List PaidTransactionRejectionCodeV2 :=
  [.malformedRequest, .wrongChain, .wrongEntryPoint, .unknownQuote, .expiredQuote,
    .duplicateExecution, .simulationFailure, .paymentMissing, .paymentReverted,
    .unsupportedFeeAsset, .stalePrice, .unprofitable, .gasCapExceeded, .submissionFailure,
    .unsupportedPaymentAdapter, .quoteCapacityExceeded, .pendingLossLimit]

/-- `MAX_SUBMIT_REJECTION_DETAIL_BYTES`. -/
def maxSubmitRejectionDetailBytes : ℕ := 256

/-- A character of `[\u0000-\u001f\u007f]`. -/
def isControl (c : Char) : Bool := decide (c.toNat ≤ 0x1f ∨ c.toNat = 0x7f)

/-- `invalidV2Outcome`. -/
def invalidV2Outcome (message : String) : Thrown :=
  .noxClientError s!"Invalid PaidTransactionOutcomeV2: {message}" .decryptionFailed

/-- `invalidQuoteOutcome`. -/
def invalidQuoteOutcome (message : String) : Thrown :=
  .noxClientError s!"Invalid PaidQuoteOutcomeV2: {message}" .decryptionFailed

/-- `invalidV2Encoding`. -/
def invalidV2Encoding (message : String) : Thrown :=
  .noxClientError s!"Invalid paid-v2 encoding: {message}" .packetBuildFailed

/-- `writePaidV2Rejection`. -/
def writePaidV2Rejection (rejection : PaidV2Rejection) : Except Thrown Bytes :=
  match paidTransactionRejectionCodesV2.idxOf? rejection.code with
  | none => .error (invalidV2Encoding "rejection code is unsupported")
  | some codeIndex =>
    let detailBytes := Js.textEncode rejection.detail
    if detailBytes.length = 0 ∨ maxSubmitRejectionDetailBytes < detailBytes.length ∨
        rejection.detail.toList.any isControl then
      .error (invalidV2Encoding "rejection detail is empty, oversized, or contains controls")
    else .ok (Writer.u32 codeIndex ++ (Writer.u8 (if rejection.retryable then 1 else 0) ++
      Writer.bytes detailBytes))

/-- The detail of a rejection. -/
def readDetail (invalid : String → Thrown) : Reader String := do
  let detailBytes ← Reader.bytes
  if detailBytes.length = 0 ∨ maxSubmitRejectionDetailBytes < detailBytes.length then
    ByteReader.fail fun _ => invalid "rejection detail is empty or exceeds 256 bytes"
  else match Js.textDecodeFatal detailBytes with
    | none => ByteReader.fail fun _ => invalid "rejection detail is not valid UTF-8"
    | some detail =>
      if detail.toList.any isControl then
        ByteReader.fail fun _ => invalid "rejection detail contains controls"
      else return detail

/-- `readPaidV2Rejection`. -/
def readPaidV2Rejection (invalid : String → Thrown) : Reader PaidV2Rejection := do
  let index ← Reader.u32
  match paidTransactionRejectionCodesV2[index]? with
  | none => ByteReader.fail fun _ => invalid "rejection code is unsupported"
  | some code => do
    let retryable ← Reader.u8
    if retryable ≠ 0 ∧ retryable ≠ 1 then
      ByteReader.fail fun _ => invalid "retryable flag is invalid"
    else do
      let detail ← readDetail invalid
      return { code, retryable := decide (retryable = 1), detail }

/-! ### Quotes -/

/-- `writeExecutionQuoteV1`. -/
def writeExecutionQuoteV1 (quote : ExecutionQuoteV1) : Except Thrown Bytes := do
  let chainId ← writeFixed quote.chainId 32 "ExecutionQuoteV1.chainId"
  let entryPoint ← writeFixed quote.entryPoint 20 "ExecutionQuoteV1.entryPoint"
  let exitAddress ← writeFixed quote.exitAddress 20 "ExecutionQuoteV1.exitAddress"
  let clientIntentId ← writeFixed quote.clientIntentId 32 "ExecutionQuoteV1.clientIntentId"
  let paymentAdapter ← writeFixed quote.paymentAdapter 20 "ExecutionQuoteV1.paymentAdapter"
  let paymentId ← writeFixed quote.paymentId 32 "ExecutionQuoteV1.paymentId"
  let feeAsset ← writeFixed quote.feeAsset 20 "ExecutionQuoteV1.feeAsset"
  let exitFee ← writeFixed quote.exitFee 32 "ExecutionQuoteV1.exitFee"
  let networkFee ← writeFixed quote.networkFee 32 "ExecutionQuoteV1.networkFee"
  let paymentGasLimit ← writeFixed quote.paymentGasLimit 32 "ExecutionQuoteV1.paymentGasLimit"
  let actionTarget ← writeFixed quote.actionTarget 20 "ExecutionQuoteV1.actionTarget"
  let actionCalldataHash ←
    writeFixed quote.actionCalldataHash 32 "ExecutionQuoteV1.actionCalldataHash"
  let actionGasLimit ← writeFixed quote.actionGasLimit 32 "ExecutionQuoteV1.actionGasLimit"
  let trackedAssetsHash ←
    writeFixed quote.trackedAssetsHash 32 "ExecutionQuoteV1.trackedAssetsHash"
  let maximumTransactionGas ←
    writeFixed quote.maximumTransactionGas 32 "ExecutionQuoteV1.maximumTransactionGas"
  let maximumFeePerGas ← writeFixed quote.maximumFeePerGas 32 "ExecutionQuoteV1.maximumFeePerGas"
  let returnDataLimit ← writeFixed quote.returnDataLimit 32 "ExecutionQuoteV1.returnDataLimit"
  let quoteNonce ← writeFixed quote.quoteNonce 32 "ExecutionQuoteV1.quoteNonce"
  return Writer.u8 quote.quoteVersion ++ (chainId ++ (entryPoint ++ (exitAddress ++
    (clientIntentId ++ (paymentAdapter ++ (paymentId ++ (feeAsset ++ (exitFee ++ (networkFee ++
    (paymentGasLimit ++ (actionTarget ++ (actionCalldataHash ++ (actionGasLimit ++
    (trackedAssetsHash ++ (maximumTransactionGas ++ (maximumFeePerGas ++ (returnDataLimit ++
    (Writer.u64 quote.validAfterUnix ++ (Writer.u64 quote.validUntilUnix ++
    quoteNonce)))))))))))))))))))

/-- `readExecutionQuoteV1`. -/
def readExecutionQuoteV1 : Reader ExecutionQuoteV1 := do
  let quoteVersion ← Reader.u8
  let chainId ← Reader.fixedBytes 32
  let entryPoint ← Reader.fixedBytes 20
  let exitAddress ← Reader.fixedBytes 20
  let clientIntentId ← Reader.fixedBytes 32
  let paymentAdapter ← Reader.fixedBytes 20
  let paymentId ← Reader.fixedBytes 32
  let feeAsset ← Reader.fixedBytes 20
  let exitFee ← Reader.fixedBytes 32
  let networkFee ← Reader.fixedBytes 32
  let paymentGasLimit ← Reader.fixedBytes 32
  let actionTarget ← Reader.fixedBytes 20
  let actionCalldataHash ← Reader.fixedBytes 32
  let actionGasLimit ← Reader.fixedBytes 32
  let trackedAssetsHash ← Reader.fixedBytes 32
  let maximumTransactionGas ← Reader.fixedBytes 32
  let maximumFeePerGas ← Reader.fixedBytes 32
  let returnDataLimit ← Reader.fixedBytes 32
  let validAfterUnix ← Reader.u64
  let validUntilUnix ← Reader.u64
  let quoteNonce ← Reader.fixedBytes 32
  return { quoteVersion, chainId, entryPoint, exitAddress, clientIntentId, paymentAdapter,
           paymentId, feeAsset, exitFee, networkFee, paymentGasLimit, actionTarget,
           actionCalldataHash, actionGasLimit, trackedAssetsHash, maximumTransactionGas,
           maximumFeePerGas, returnDataLimit, validAfterUnix, validUntilUnix, quoteNonce }

/-! ### Outcomes -/

/-- The optional execution of a rejection. -/
def writeExecutionId : Option Bytes → Except Thrown Bytes
  | none => .ok (Writer.u8 0)
  | some executionId => do
    let executionId ← writeFixed executionId 32 "PaidTransactionOutcomeV2.executionId"
    return Writer.u8 1 ++ executionId

/-- `encodePaidTransactionOutcomeV2`. -/
def encodePaidTransactionOutcomeV2 : PaidTransactionOutcomeV2 → Except Thrown Bytes
  | .submitted executionId transactionHash => do
    let executionId ← writeFixed executionId 32 "PaidTransactionOutcomeV2.executionId"
    let transactionHash ← writeFixed transactionHash 32 "PaidTransactionOutcomeV2.transactionHash"
    return Writer.u8 payloadVersion ++ (Writer.u32 0 ++ (executionId ++ transactionHash))
  | .rejected executionId rejection => do
    let executionId ← writeExecutionId executionId
    let rejection ← writePaidV2Rejection rejection
    return Writer.u8 payloadVersion ++ (Writer.u32 1 ++ (executionId ++ rejection))

/-- The fields of a rejected transaction. -/
def readRejectedTransaction : Reader PaidTransactionOutcomeV2 := do
  let option ← Reader.u8
  if option ≠ 0 ∧ option ≠ 1 then
    ByteReader.fail fun _ => invalidV2Outcome "execution_id option tag is invalid"
  else if option = 1 then do
    let executionId ← Reader.fixedBytes 32
    let rejection ← readPaidV2Rejection invalidV2Outcome
    return .rejected (some executionId) rejection
  else do
    let rejection ← readPaidV2Rejection invalidV2Outcome
    return .rejected none rejection

/-- The variants of `PaidTransactionOutcomeV2`. -/
def readPaidTransactionOutcomeV2 : Reader PaidTransactionOutcomeV2 := do
  let variant ← Reader.u32
  match variant with
  | 0 => do
    let executionId ← Reader.fixedBytes 32
    let transactionHash ← Reader.fixedBytes 32
    return .submitted executionId transactionHash
  | 1 => readRejectedTransaction
  | variant => ByteReader.fail fun _ => invalidV2Outcome s!"unknown outcome variant {variant}"

/-- `decodePaidTransactionOutcomeV2`. -/
def decodePaidTransactionOutcomeV2 (bytes : Bytes) : Except Thrown PaidTransactionOutcomeV2 := do
  checkVersion bytes
  let (outcome, pos) ← readPaidTransactionOutcomeV2 bytes 1
  expectEnd bytes pos "PaidTransactionOutcomeV2"
  return outcome

/-- `encodePaidQuoteOutcomeV2`. -/
def encodePaidQuoteOutcomeV2 : PaidQuoteOutcomeV2 → Except Thrown Bytes
  | .issued quote executionId exitSignature => do
    let quote ← writeExecutionQuoteV1 quote
    let executionId ← writeFixed executionId 32 "PaidQuoteOutcomeV2.executionId"
    let exitSignature ← writeFixed exitSignature 65 "PaidQuoteOutcomeV2.exitSignature"
    return Writer.u8 payloadVersion ++ (Writer.u32 0 ++ (quote ++ (executionId ++
      Writer.bytes exitSignature)))
  | .rejected rejection => do
    let rejection ← writePaidV2Rejection rejection
    return Writer.u8 payloadVersion ++ (Writer.u32 1 ++ rejection)

/-- The fields of an issued quote. -/
def readIssuedQuote : Reader PaidQuoteOutcomeV2 := do
  let quote ← readExecutionQuoteV1
  let executionId ← Reader.fixedBytes 32
  let exitSignature ← Reader.bytes
  if exitSignature.length ≠ 65 then
    ByteReader.fail fun _ => invalidQuoteOutcome "exit signature must be 65 bytes"
  else return .issued quote executionId exitSignature

/-- The variants of `PaidQuoteOutcomeV2`. -/
def readPaidQuoteOutcomeV2 : Reader PaidQuoteOutcomeV2 := do
  let variant ← Reader.u32
  match variant with
  | 0 => readIssuedQuote
  | 1 => do
    let rejection ← readPaidV2Rejection invalidQuoteOutcome
    return .rejected rejection
  | variant => ByteReader.fail fun _ => invalidQuoteOutcome s!"unknown outcome variant {variant}"

/-- `decodePaidQuoteOutcomeV2`. -/
def decodePaidQuoteOutcomeV2 (bytes : Bytes) : Except Thrown PaidQuoteOutcomeV2 := do
  checkVersion bytes
  let (outcome, pos) ← readPaidQuoteOutcomeV2 bytes 1
  expectEnd bytes pos "PaidQuoteOutcomeV2"
  return outcome

/-! ### Tunnel replies -/

/-- The optional `fin` of a part. -/
def writeFin : Option TunnelFinV1 → Bytes
  | none => Writer.u8 0
  | some fin => Writer.u8 1 ++ Writer.u32 (tunnelFinV1.idxOf fin)

/-- `encodeTunnelReplyV1`. -/
def encodeTunnelReplyV1 : TunnelReplyV1 → Bytes
  | .data seq part => Writer.u8 payloadVersion ++ (Writer.u32 0 ++ (Writer.u32 seq ++
    (Writer.u64 part.offset ++ (Writer.bytes part.data ++ writeFin part.fin))))
  | .rejected seq code retryable detail => Writer.u8 payloadVersion ++ (Writer.u32 1 ++
    (Writer.u32 seq ++ (Writer.u32 (tunnelRejectCodesV1.idxOf code) ++
    (Writer.u8 (if retryable then 1 else 0) ++ Writer.string detail))))

/-! ### Values in the widths of their fields -/

/-- The numbers of a quote fit in their fields. -/
structure ExecutionQuoteV1.InWidth (quote : ExecutionQuoteV1) : Prop where
  quoteVersion : quote.quoteVersion < 2 ^ 8
  validAfterUnix : quote.validAfterUnix < 2 ^ 64
  validUntilUnix : quote.validUntilUnix < 2 ^ 64

/-- The numbers of an outcome fit in their fields. -/
def PaidQuoteOutcomeV2.InWidth : PaidQuoteOutcomeV2 → Prop
  | .issued quote _ _ => quote.InWidth
  | .rejected _ => True

/-- The numbers of a reply fit in their fields. -/
def TunnelReplyV1.InWidth : TunnelReplyV1 → Prop
  | .data seq part => seq < 2 ^ 32 ∧ part.offset < 2 ^ 64
  | .rejected seq _ _ _ => seq < 2 ^ 32

/-- The detail does not start with a byte order mark. -/
def PaidTransactionOutcomeV2.NoMark : PaidTransactionOutcomeV2 → Prop
  | .submitted _ _ => True
  | .rejected _ rejection => Js.NoMark rejection.detail

/-- The detail does not start with a byte order mark. -/
def PaidQuoteOutcomeV2.NoMark : PaidQuoteOutcomeV2 → Prop
  | .issued _ _ _ => True
  | .rejected rejection => Js.NoMark rejection.detail

/-- The data of a part is within the limit, and the detail of a rejection is and does not start with
a byte order mark. -/
def TunnelReplyV1.Sized : TunnelReplyV1 → Prop
  | .data _ part => part.data.length ≤ tunnelPartMaxData
  | .rejected _ _ _ detail =>
    (Js.textEncode detail).length ≤ tunnelRejectDetailMax ∧ Js.NoMark detail

/-! ### Round trips -/

theorem writeFixed_eq_ok_iff {value written : Bytes} {length : ℕ} {name : String} :
    writeFixed value length name = .ok written ↔ value.length = length ∧ value = written := by
  rw [writeFixed]
  split_ifs with hlength
  · exact ⟨fun h => ⟨hlength, Except.ok.inj h⟩, fun h => congrArg Except.ok h.2⟩
  · exact ⟨nofun, fun h => absurd h.1 hlength⟩

theorem reads_indexed {α : Type} [DecidableEq α] {values : List α} {value : α} (what : String)
    (hmem : value ∈ values) (hlength : values.length < 2 ^ 32) :
    Reads (readIndexed values what) (Writer.u32 (values.idxOf value)) value := by
  have hindex : values.idxOf value < values.length := List.idxOf_lt_length_of_mem hmem
  refine (reads_u32 (hindex.trans hlength)).bind_nil ?_
  rw [List.getElem?_idxOf hmem]
  exact Reads.pure value

/-- A rejection that is written is read back. -/
theorem reads_rejection {rejection : PaidV2Rejection} {fields : Bytes}
    (invalid : String → Thrown) (hwrite : writePaidV2Rejection rejection = .ok fields)
    (hmark : Js.NoMark rejection.detail) :
    Reads (readPaidV2Rejection invalid) fields rejection := by
  rw [writePaidV2Rejection] at hwrite
  split at hwrite
  · cases hwrite
  · next codeIndex hindex =>
    dsimp only at hwrite
    split at hwrite
    · cases hwrite
    next hdetail =>
    cases hwrite
    rw [not_or, not_or, not_lt] at hdetail
    obtain ⟨hempty, hlong, hcontrol⟩ := hdetail
    obtain ⟨hbound, hcode, -⟩ := List.idxOf?_eq_some_iff.mp hindex
    have hget : paidTransactionRejectionCodesV2[codeIndex]? = some rejection.code :=
      List.getElem?_eq_some_iff.mpr ⟨hbound, by simpa using hcode⟩
    have hfits : Js.FitsArray (Js.textEncode rejection.detail) :=
      lt_of_le_of_lt hlong (by decide)
    -- the detail passes the same checks when it is read
    have hread : Reads (readDetail invalid) (Writer.bytes (Js.textEncode rejection.detail))
        rejection.detail := by
      refine (reads_bytes hfits).bind_nil ?_
      rw [if_neg (not_or.mpr ⟨hempty, not_lt.mpr hlong⟩), Js.textDecodeFatal_textEncode hmark]
      dsimp only
      rw [if_neg hcontrol]
      exact Reads.pure rejection.detail
    refine (reads_u32 (lt_of_lt_of_le hbound (by decide))).bind ?_
    rw [hget]
    obtain ⟨code, retryable, detail⟩ := rejection
    cases retryable with
    | false =>
      refine (reads_u8 (v := 0) (by decide)).bind ?_
      rw [if_neg (by decide)]
      exact hread.bind_pure _
    | true =>
      refine (reads_u8 (v := 1) (by decide)).bind ?_
      rw [if_neg (by decide)]
      exact hread.bind_pure _

/-- A quote that is written is read back. -/
theorem reads_quote {quote : ExecutionQuoteV1} {fields : Bytes}
    (hwrite : writeExecutionQuoteV1 quote = .ok fields) (hwidth : quote.InWidth) :
    Reads readExecutionQuoteV1 fields quote := by
  simp only [writeExecutionQuoteV1, bind_eq_ok_iff, writeFixed_eq_ok_iff] at hwrite
  obtain ⟨_, ⟨hchainId, rfl⟩, _, ⟨hentryPoint, rfl⟩, _, ⟨hexitAddress, rfl⟩,
    _, ⟨hclientIntentId, rfl⟩, _, ⟨hpaymentAdapter, rfl⟩, _, ⟨hpaymentId, rfl⟩,
    _, ⟨hfeeAsset, rfl⟩, _, ⟨hexitFee, rfl⟩, _, ⟨hnetworkFee, rfl⟩, _, ⟨hpaymentGasLimit, rfl⟩,
    _, ⟨hactionTarget, rfl⟩, _, ⟨hactionCalldataHash, rfl⟩, _, ⟨hactionGasLimit, rfl⟩,
    _, ⟨htrackedAssetsHash, rfl⟩, _, ⟨hmaximumTransactionGas, rfl⟩, _, ⟨hmaximumFeePerGas, rfl⟩,
    _, ⟨hreturnDataLimit, rfl⟩, _, ⟨hquoteNonce, rfl⟩, hfields⟩ := hwrite
  cases hfields
  exact (reads_u8 hwidth.quoteVersion).bind ((reads_fixedBytes hchainId).bind
    ((reads_fixedBytes hentryPoint).bind ((reads_fixedBytes hexitAddress).bind
    ((reads_fixedBytes hclientIntentId).bind ((reads_fixedBytes hpaymentAdapter).bind
    ((reads_fixedBytes hpaymentId).bind ((reads_fixedBytes hfeeAsset).bind
    ((reads_fixedBytes hexitFee).bind ((reads_fixedBytes hnetworkFee).bind
    ((reads_fixedBytes hpaymentGasLimit).bind ((reads_fixedBytes hactionTarget).bind
    ((reads_fixedBytes hactionCalldataHash).bind ((reads_fixedBytes hactionGasLimit).bind
    ((reads_fixedBytes htrackedAssetsHash).bind ((reads_fixedBytes hmaximumTransactionGas).bind
    ((reads_fixedBytes hmaximumFeePerGas).bind ((reads_fixedBytes hreturnDataLimit).bind
    ((reads_u64 hwidth.validAfterUnix).bind ((reads_u64 hwidth.validUntilUnix).bind
    ((reads_fixedBytes hquoteNonce).bind_pure _))))))))))))))))))))

theorem decodePaidTransactionOutcomeV2_of_encode {outcome : PaidTransactionOutcomeV2}
    {bytes : Bytes} (hencode : encodePaidTransactionOutcomeV2 outcome = .ok bytes)
    (hmark : outcome.NoMark) : decodePaidTransactionOutcomeV2 bytes = .ok outcome := by
  obtain ⟨body, rfl, hread⟩ : ∃ body, bytes = Writer.u8 payloadVersion ++ body ∧
      Reads readPaidTransactionOutcomeV2 body outcome := by
    cases outcome with
    | submitted executionId transactionHash =>
      simp only [encodePaidTransactionOutcomeV2, bind_eq_ok_iff, writeFixed_eq_ok_iff] at hencode
      obtain ⟨_, ⟨hexecution, rfl⟩, _, ⟨htransaction, rfl⟩, hbytes⟩ := hencode
      cases hbytes
      exact ⟨_, rfl, (reads_u32 (v := 0) (by decide)).bind ((reads_fixedBytes hexecution).bind
        ((reads_fixedBytes htransaction).bind_pure _))⟩
    | rejected executionId rejection =>
      simp only [encodePaidTransactionOutcomeV2, bind_eq_ok_iff] at hencode
      obtain ⟨execution, hexecution, fields, hrejection, hbytes⟩ := hencode
      cases hbytes
      have hrest := reads_rejection invalidV2Outcome hrejection hmark
      refine ⟨_, rfl, (reads_u32 (v := 1) (by decide)).bind ?_⟩
      cases executionId with
      | none =>
        cases hexecution
        refine (reads_u8 (v := 0) (by decide)).bind ?_
        rw [if_neg (by decide), if_neg (by decide)]
        exact hrest.bind_pure _
      | some executionId =>
        simp only [writeExecutionId, bind_eq_ok_iff, writeFixed_eq_ok_iff] at hexecution
        obtain ⟨_, ⟨hlength, rfl⟩, htagged⟩ := hexecution
        cases htagged
        rw [List.append_assoc]
        refine (reads_u8 (v := 1) (by decide)).bind ?_
        rw [if_neg (by decide), if_pos rfl]
        exact (reads_fixedBytes hlength).bind (hrest.bind_pure _)
  rw [decodePaidTransactionOutcomeV2, checkVersion_versioned, reads_versioned hread]
  simp only [ok_bind, expectEnd, ne_eq, not_true_eq_false, if_false, pure_eq_ok]

theorem decodePaidQuoteOutcomeV2_of_encode {outcome : PaidQuoteOutcomeV2} {bytes : Bytes}
    (hencode : encodePaidQuoteOutcomeV2 outcome = .ok bytes) (hmark : outcome.NoMark)
    (hwidth : outcome.InWidth) : decodePaidQuoteOutcomeV2 bytes = .ok outcome := by
  obtain ⟨body, rfl, hread⟩ : ∃ body, bytes = Writer.u8 payloadVersion ++ body ∧
      Reads readPaidQuoteOutcomeV2 body outcome := by
    cases outcome with
    | issued quote executionId exitSignature =>
      simp only [encodePaidQuoteOutcomeV2, bind_eq_ok_iff, writeFixed_eq_ok_iff] at hencode
      obtain ⟨fields, hquote, _, ⟨hexecution, rfl⟩, _, ⟨hsignature, rfl⟩, hbytes⟩ := hencode
      cases hbytes
      have hfits : Js.FitsArray exitSignature := by
        rw [Js.FitsArray, hsignature]
        decide
      refine ⟨_, rfl, (reads_u32 (v := 0) (by decide)).bind ((reads_quote hquote hwidth).bind
        ((reads_fixedBytes hexecution).bind ((reads_bytes hfits).bind_nil ?_)))⟩
      rw [if_neg (not_not_intro hsignature)]
      exact Reads.pure _
    | rejected rejection =>
      simp only [encodePaidQuoteOutcomeV2, bind_eq_ok_iff] at hencode
      obtain ⟨fields, hrejection, hbytes⟩ := hencode
      cases hbytes
      exact ⟨_, rfl, (reads_u32 (v := 1) (by decide)).bind
        ((reads_rejection invalidQuoteOutcome hrejection hmark).bind_pure _)⟩
  rw [decodePaidQuoteOutcomeV2, checkVersion_versioned, reads_versioned hread]
  simp only [ok_bind, expectEnd, ne_eq, not_true_eq_false, if_false, pure_eq_ok]

theorem reads_fin (fin : Option TunnelFinV1) :
    Reads (Reader.option (readIndexed tunnelFinV1 "fin")) (writeFin fin) fin := by
  cases fin with
  | none => exact reads_option_none _
  | some fin => exact reads_option_some (reads_indexed _ (by cases fin <;> decide) (by decide))

theorem decodeTunnelReplyV1_encode {reply : TunnelReplyV1} (hsized : reply.Sized)
    (hwidth : reply.InWidth) : decodeTunnelReplyV1 (encodeTunnelReplyV1 reply) = .ok reply := by
  obtain ⟨body, hbody, hread⟩ : ∃ body,
      encodeTunnelReplyV1 reply = Writer.u8 payloadVersion ++ body ∧
        Reads readTunnelReplyV1 body reply := by
    cases reply with
    | data seq part =>
      have hfits : Js.FitsArray part.data := lt_of_le_of_lt hsized (by decide)
      refine ⟨_, rfl, (reads_u32 (v := 0) (by decide)).bind ((reads_u32 hwidth.1).bind
        ((reads_u64 hwidth.2).bind ((reads_bytes hfits).bind ?_)))⟩
      rw [if_neg (not_lt.mpr hsized)]
      exact (reads_fin part.fin).bind_pure _
    | rejected seq code retryable detail =>
      have hfits : Js.FitsArray (Js.textEncode detail) := lt_of_le_of_lt hsized.1 (by decide)
      refine ⟨_, rfl, (reads_u32 (v := 1) (by decide)).bind ((reads_u32 hwidth).bind
        ((reads_indexed _ (by cases code <;> decide) (by decide)).bind
        ((reads_bool retryable).bind ((reads_bytes hfits).bind_nil ?_))))⟩
      rw [if_neg (not_lt.mpr hsized.1), Js.textDecode_textEncode hsized.2]
      exact Reads.pure _
  rw [hbody, decodeTunnelReplyV1, checkVersion_versioned, reads_versioned hread]
  simp only [ok_bind, expectEnd, ne_eq, not_true_eq_false, if_false, pure_eq_ok]

/-- Every reply that is encoded, with numbers in the widths of their fields and texts that do not
start with a byte order mark, is decoded to itself.

One round trip for each of the three replies, a case for each of their variants. -/
theorem reply_codecs_round_trip :
    (∀ (outcome : PaidTransactionOutcomeV2) (bytes : Bytes),
      encodePaidTransactionOutcomeV2 outcome = .ok bytes → outcome.NoMark →
        decodePaidTransactionOutcomeV2 bytes = .ok outcome) ∧
    (∀ (outcome : PaidQuoteOutcomeV2) (bytes : Bytes),
      encodePaidQuoteOutcomeV2 outcome = .ok bytes → outcome.NoMark → outcome.InWidth →
        decodePaidQuoteOutcomeV2 bytes = .ok outcome) ∧
    (∀ reply : TunnelReplyV1, reply.Sized → reply.InWidth →
      decodeTunnelReplyV1 (encodeTunnelReplyV1 reply) = .ok reply) :=
  ⟨fun _ _ => decodePaidTransactionOutcomeV2_of_encode,
    fun _ _ => decodePaidQuoteOutcomeV2_of_encode, fun _ => decodeTunnelReplyV1_encode⟩

/-- A quote whose fields count up. -/
def sampleQuote : ExecutionQuoteV1 :=
  let word (n : UInt8) : Bytes := List.replicate 32 n
  let address (n : UInt8) : Bytes := List.replicate 20 n
  ⟨1, word 1, address 2, address 3, word 4, address 5, word 6, address 7, word 8, word 9, word 10,
    address 11, word 12, word 13, word 14, word 15, word 16, word 17, 18, 19, word 20⟩

theorem reply_codecs_round_trip_sample :
    (∃ bytes, decodePaidTransactionOutcomeV2 bytes =
      .ok (.rejected none ⟨.expiredQuote, true, "late"⟩)) ∧
    (∃ bytes, decodePaidQuoteOutcomeV2 bytes =
      .ok (.issued sampleQuote (List.replicate 32 21) (List.replicate 65 22))) ∧
    decodeTunnelReplyV1 (encodeTunnelReplyV1 (.data 3 ⟨4, [5], some .eof⟩)) =
      .ok (.data 3 ⟨4, [5], some .eof⟩) :=
  ⟨⟨_, reply_codecs_round_trip.1 _ _ rfl (show Js.NoMark "late" by decide)⟩,
    ⟨_, reply_codecs_round_trip.2.1 _ _ rfl trivial ⟨by decide, by decide, by decide⟩⟩,
    reply_codecs_round_trip.2.2 _ (show ([5] : Bytes).length ≤ tunnelPartMaxData by decide)
      ⟨by decide, by decide⟩⟩

/-- A sequence number that is too large is encoded as another one. -/
theorem not_reply_codecs_round_trip :
    (TunnelReplyV1.data (2 ^ 32) ⟨0, [], none⟩).Sized ∧
      decodeTunnelReplyV1 (encodeTunnelReplyV1 (.data (2 ^ 32) ⟨0, [], none⟩)) =
        .ok (.data 0 ⟨0, [], none⟩) :=
  ⟨Nat.zero_le _, by decide +kernel⟩

end NoxSdk.Bincode
