import NoxSdk.Bincode.Wire
import NoxSdk.Fragmentation.Reassembler

/-!
# Service requests and relayer payloads

The two unions of `bincode.ts` that a client sends and receives, with their hand-written
codecs: a version byte, the variant index as `u32`, then the fields in order. Reading
checks the version first; only a `ServiceRequest` must end with the input.
-/

namespace NoxSdk.Bincode

/-! ### Types -/

/-- `FragmentWire` has the fields of a `Fragment`. -/
abbrev FragmentWire := Fragmentation.Fragment

/-- `RelayerPayload`. -/
inductive RelayerPayload
  | submitTransaction (to_ data : Bytes)
  | dummy (padding : Bytes)
  | heartbeat (id timestamp : ℕ)
  | fragment (frag : FragmentWire)
  | anonymousRequest (inner : Bytes) (replySurbs : List Bytes)
  | serviceResponse (requestId : ℕ) (fragment : FragmentWire)
  | needMoreSurbs (requestId fragmentsRemaining : ℕ)
  deriving DecidableEq, Repr

/-- `PaidTransactionRequestV2`. -/
structure PaidTransactionRequestV2 where
  chainId : ℕ
  entryPoint : Bytes
  calldata : Bytes
  executionId : Bytes
  validUntilUnix : ℕ
  deriving DecidableEq, Repr

/-- `PaidQuoteRequestV2`. -/
structure PaidQuoteRequestV2 where
  chainId : ℕ
  entryPoint : Bytes
  clientIntentId : Bytes
  paymentAdapter : Bytes
  paymentId : Bytes
  feeAsset : Bytes
  paymentGasLimit : ℕ
  actionTarget : Bytes
  actionCalldataHash : Bytes
  actionGasLimit : ℕ
  trackedAssetsHash : Bytes
  maximumTransactionGas : ℕ
  returnDataLimit : ℕ
  validUntilUnix : ℕ
  deriving DecidableEq, Repr

/-- `TunnelOpenV1`. -/
structure TunnelOpenV1 where
  host : String
  port : ℕ
  deriving DecidableEq, Repr

/-- `TunnelRequestV1`. -/
structure TunnelRequestV1 where
  tunnelId : Bytes
  seq : ℕ
  open_ : Option TunnelOpenV1
  ackOffset : ℕ
  data : Bytes
  close : Bool
  holdMs : ℕ
  deriving DecidableEq, Repr

/-- `ServiceRequest`. -/
inductive ServiceRequest
  | echo (data : Bytes)
  | httpRequest (method url : String) (headers : List (String × String)) (body : Bytes)
  | rpcRequest (method : String) (params : Bytes) (id : ℕ) (rpcUrl : Option String)
  | submitTransaction (to_ data : Bytes)
  | broadcastSignedTransaction (signedTx : Bytes) (rpcUrl rpcMethod : Option String)
  | replenishSurbs (requestId : ℕ) (surbs : List Bytes)
  | paidTransactionV2 (req : PaidTransactionRequestV2)
  | paidQuoteRequestV2 (req : PaidQuoteRequestV2)
  | tunnelV1 (req : TunnelRequestV1)
  deriving DecidableEq, Repr

/-- `PAYLOAD_VERSION`. -/
def payloadVersion : ℕ := 1

/-- `TUNNEL_ID_LEN`. -/
def tunnelIdLen : ℕ := 16

/-! ### Writing -/

/-- `writeFixed`: `assertLen`, then the bytes. -/
def writeFixed (value : Bytes) (length : ℕ) (name : String) : Except Thrown Bytes :=
  if value.length = length then .ok (Writer.fixedBytes value)
  else .error (.noxClientError s!"{name} must be exactly {length} bytes, got {value.length}"
    .packetBuildFailed)

/-- `writeFragmentWire`. -/
def writeFragmentWire (f : FragmentWire) : Bytes :=
  Writer.u64 f.messageId ++ (Writer.u32 f.totalFragments ++ (Writer.u32 f.sequence ++
    (Writer.bytes f.data ++
      match f.fec with
      | none => Writer.u8 0
      | some fec =>
        Writer.u8 1 ++ (Writer.u32 fec.dataShardCount ++ Writer.u64 fec.originalDataLen))))

/-- `writeSurbOpaque` for each SURB, after their number. -/
def writeSurbs (surbs : List Bytes) : Bytes :=
  Writer.u64 surbs.length ++ surbs.flatMap Writer.fixedBytes

/-- `writeRelayerPayload`. -/
def writeRelayerPayload : RelayerPayload → Except Thrown Bytes
  | .submitTransaction to_ data => do
    let to_ ← writeFixed to_ 20 "RelayerPayload.SubmitTransaction.to"
    return Writer.u32 0 ++ (to_ ++ Writer.bytes data)
  | .dummy padding => .ok (Writer.u32 1 ++ Writer.bytes padding)
  | .heartbeat id timestamp => .ok (Writer.u32 2 ++ (Writer.u64 id ++ Writer.u64 timestamp))
  | .fragment frag => .ok (Writer.u32 3 ++ writeFragmentWire frag)
  | .anonymousRequest inner replySurbs =>
    .ok (Writer.u32 4 ++ (Writer.bytes inner ++ writeSurbs replySurbs))
  | .serviceResponse requestId fragment =>
    .ok (Writer.u32 5 ++ (Writer.u64 requestId ++ writeFragmentWire fragment))
  | .needMoreSurbs requestId fragmentsRemaining =>
    .ok (Writer.u32 6 ++ (Writer.u64 requestId ++ Writer.u32 fragmentsRemaining))

/-- The fields of a header. -/
def writeHeader (header : String × String) : Bytes :=
  Writer.string header.1 ++ Writer.string header.2

/-- The fields of `PaidTransactionV2`. -/
def writePaidTransactionV2 (req : PaidTransactionRequestV2) : Except Thrown Bytes := do
  let entryPoint ← writeFixed req.entryPoint 20 "ServiceRequest.PaidTransactionV2.entryPoint"
  let executionId ← writeFixed req.executionId 32 "ServiceRequest.PaidTransactionV2.executionId"
  return Writer.u64 req.chainId ++ (entryPoint ++ (Writer.bytes req.calldata ++
    (executionId ++ Writer.u64 req.validUntilUnix)))

/-- The fields of `PaidQuoteRequestV2`. -/
def writePaidQuoteRequestV2 (req : PaidQuoteRequestV2) : Except Thrown Bytes := do
  let entryPoint ← writeFixed req.entryPoint 20 "PaidQuoteRequestV2.entryPoint"
  let clientIntentId ← writeFixed req.clientIntentId 32 "PaidQuoteRequestV2.clientIntentId"
  let paymentAdapter ← writeFixed req.paymentAdapter 20 "PaidQuoteRequestV2.paymentAdapter"
  let paymentId ← writeFixed req.paymentId 32 "PaidQuoteRequestV2.paymentId"
  let feeAsset ← writeFixed req.feeAsset 20 "PaidQuoteRequestV2.feeAsset"
  let actionTarget ← writeFixed req.actionTarget 20 "PaidQuoteRequestV2.actionTarget"
  let actionCalldataHash ←
    writeFixed req.actionCalldataHash 32 "PaidQuoteRequestV2.actionCalldataHash"
  let trackedAssetsHash ←
    writeFixed req.trackedAssetsHash 32 "PaidQuoteRequestV2.trackedAssetsHash"
  return Writer.u64 req.chainId ++ (entryPoint ++ (clientIntentId ++ (paymentAdapter ++
    (paymentId ++ (feeAsset ++ (Writer.u64 req.paymentGasLimit ++ (actionTarget ++
    (actionCalldataHash ++ (Writer.u64 req.actionGasLimit ++ (trackedAssetsHash ++
    (Writer.u64 req.maximumTransactionGas ++ (Writer.u32 req.returnDataLimit ++
    Writer.u64 req.validUntilUnix))))))))))))

/-- `invalidTunnelEncoding`. -/
def invalidTunnelEncoding (message : String) : Thrown :=
  .noxClientError s!"Invalid TunnelV1 request: {message}" .packetBuildFailed

/-- The opening of a tunnel. -/
def writeTunnelOpen : Option TunnelOpenV1 → Bytes
  | none => Writer.u8 0
  | some open_ => Writer.u8 1 ++ (Writer.string open_.host ++ Writer.u16 open_.port)

/-- The fields of `TunnelV1`. -/
def writeTunnelV1 (req : TunnelRequestV1) : Except Thrown Bytes := do
  let tunnelId ← writeFixed req.tunnelId tunnelIdLen "TunnelV1.tunnelId"
  if req.open_.isSome ≠ decide (req.seq = 0) then
    throw (invalidTunnelEncoding "open must be present exactly when seq is 0")
  return tunnelId ++ (Writer.u32 req.seq ++ (writeTunnelOpen req.open_ ++
    (Writer.u64 req.ackOffset ++ (Writer.bytes req.data ++
    (Writer.u8 (if req.close then 1 else 0) ++ Writer.u32 req.holdMs)))))

/-- `writeServiceRequest`. -/
def writeServiceRequest : ServiceRequest → Except Thrown Bytes
  | .echo data => .ok (Writer.u32 0 ++ Writer.bytes data)
  | .httpRequest method url headers body =>
    .ok (Writer.u32 1 ++ (Writer.string method ++ (Writer.string url ++
      (Writer.u64 headers.length ++ (headers.flatMap writeHeader ++ Writer.bytes body)))))
  | .rpcRequest method params id rpcUrl =>
    .ok (Writer.u32 2 ++ (Writer.string method ++ (Writer.bytes params ++ (Writer.u64 id ++
      Writer.optString rpcUrl))))
  | .submitTransaction to_ data => do
    let to_ ← writeFixed to_ 20 "ServiceRequest.SubmitTransaction.to"
    return Writer.u32 3 ++ (to_ ++ Writer.bytes data)
  | .broadcastSignedTransaction signedTx rpcUrl rpcMethod =>
    .ok (Writer.u32 4 ++ (Writer.bytes signedTx ++ (Writer.optString rpcUrl ++
      Writer.optString rpcMethod)))
  | .replenishSurbs requestId surbs =>
    .ok (Writer.u32 5 ++ (Writer.u64 requestId ++ writeSurbs surbs))
  | .paidTransactionV2 req => do
    let fields ← writePaidTransactionV2 req
    return Writer.u32 6 ++ fields
  | .paidQuoteRequestV2 req => do
    let fields ← writePaidQuoteRequestV2 req
    return Writer.u32 7 ++ fields
  | .tunnelV1 req => do
    let fields ← writeTunnelV1 req
    return Writer.u32 8 ++ fields

/-- `encodeServiceRequest`. -/
def encodeServiceRequest (req : ServiceRequest) : Except Thrown Bytes := do
  let body ← writeServiceRequest req
  return Writer.u8 payloadVersion ++ body

/-- `encodeRelayerPayload`. -/
def encodeRelayerPayload (payload : RelayerPayload) : Except Thrown Bytes := do
  let body ← writeRelayerPayload payload
  return Writer.u8 payloadVersion ++ body

/-! ### Reading -/

/-- `readFragmentWire`: every tag but `1` means no FEC info. -/
def readFragmentWire : Reader FragmentWire := do
  let messageId ← Reader.u64
  let totalFragments ← Reader.u32
  let sequence ← Reader.u32
  let data ← Reader.bytes
  let fecTag ← Reader.u8
  if fecTag = 1 then do
    let dataShardCount ← Reader.u32
    let originalDataLen ← Reader.u64
    return ⟨messageId, totalFragments, sequence, data,
      some ⟨dataShardCount, Js.number originalDataLen⟩⟩
  else return ⟨messageId, totalFragments, sequence, data, none⟩

/-- SURBs can be read only when there are none. -/
def readNoSurbs (variant field : String) : Reader Unit := do
  let count ← Reader.u64
  if Js.number count > 0 then
    ByteReader.fail fun _ => .noxClientError
      (s!"Cannot decode {variant} with non-empty {field} in TypeScript " ++
        "(inline Surb struct parsing not implemented - client only encodes this variant)")
      .decryptionFailed
  else return ()

/-- `readRelayerPayload`. -/
def readRelayerPayload : Reader RelayerPayload := do
  let variant ← Reader.u32
  match variant with
  | 0 => do
    let to_ ← Reader.fixedBytes 20
    let data ← Reader.bytes
    return .submitTransaction to_ data
  | 1 => do
    let padding ← Reader.bytes
    return .dummy padding
  | 2 => do
    let id ← Reader.u64
    let timestamp ← Reader.u64
    return .heartbeat id timestamp
  | 3 => do
    let frag ← readFragmentWire
    return .fragment frag
  | 4 => do
    let inner ← Reader.bytes
    let _ ← readNoSurbs "AnonymousRequest" "reply_surbs"
    return .anonymousRequest inner []
  | 5 => do
    let requestId ← Reader.u64
    let fragment ← readFragmentWire
    return .serviceResponse requestId fragment
  | 6 => do
    let requestId ← Reader.u64
    let fragmentsRemaining ← Reader.u32
    return .needMoreSurbs requestId fragmentsRemaining
  | variant => ByteReader.fail fun _ =>
    .noxClientError s!"Unknown RelayerPayload variant index {variant}" .decryptionFailed

/-- The fields of a header. -/
def readHeader : Reader (String × String) := do
  let name ← Reader.string
  let value ← Reader.string
  return (name, value)

/-- The fields of `PaidTransactionV2`. -/
def readPaidTransactionV2 : Reader PaidTransactionRequestV2 := do
  let chainId ← Reader.u64
  let entryPoint ← Reader.fixedBytes 20
  let calldata ← Reader.bytes
  let executionId ← Reader.fixedBytes 32
  let validUntilUnix ← Reader.u64
  return { chainId, entryPoint, calldata, executionId, validUntilUnix }

/-- The fields of `PaidQuoteRequestV2`. -/
def readPaidQuoteRequestV2 : Reader PaidQuoteRequestV2 := do
  let chainId ← Reader.u64
  let entryPoint ← Reader.fixedBytes 20
  let clientIntentId ← Reader.fixedBytes 32
  let paymentAdapter ← Reader.fixedBytes 20
  let paymentId ← Reader.fixedBytes 32
  let feeAsset ← Reader.fixedBytes 20
  let paymentGasLimit ← Reader.u64
  let actionTarget ← Reader.fixedBytes 20
  let actionCalldataHash ← Reader.fixedBytes 32
  let actionGasLimit ← Reader.u64
  let trackedAssetsHash ← Reader.fixedBytes 32
  let maximumTransactionGas ← Reader.u64
  let returnDataLimit ← Reader.u32
  let validUntilUnix ← Reader.u64
  return { chainId, entryPoint, clientIntentId, paymentAdapter, paymentId, feeAsset,
           paymentGasLimit, actionTarget, actionCalldataHash, actionGasLimit,
           trackedAssetsHash, maximumTransactionGas, returnDataLimit, validUntilUnix }

/-- The opening of a tunnel. -/
def readTunnelOpen : Reader TunnelOpenV1 := do
  let host ← Reader.string
  let port ← Reader.u16
  return { host, port }

/-- The fields of `TunnelV1`. -/
def readTunnelV1 : Reader TunnelRequestV1 := do
  let tunnelId ← Reader.fixedBytes tunnelIdLen
  let seq ← Reader.u32
  let open_ ← Reader.option readTunnelOpen
  let ackOffset ← Reader.u64
  let data ← Reader.bytes
  let close ← Reader.bool
  let holdMs ← Reader.u32
  return { tunnelId, seq, open_, ackOffset, data, close, holdMs }

/-- `readServiceRequest`. -/
def readServiceRequest : Reader ServiceRequest := do
  let variant ← Reader.u32
  match variant with
  | 0 => do
    let data ← Reader.bytes
    return .echo data
  | 1 => do
    let method ← Reader.string
    let url ← Reader.string
    let headerCount ← Reader.u64
    let headers ← ByteReader.replicate readHeader (Js.number headerCount)
    let body ← Reader.bytes
    return .httpRequest method url headers body
  | 2 => do
    let method ← Reader.string
    let params ← Reader.bytes
    let id ← Reader.u64
    let rpcUrl ← Reader.optString
    return .rpcRequest method params id rpcUrl
  | 3 => do
    let to_ ← Reader.fixedBytes 20
    let data ← Reader.bytes
    return .submitTransaction to_ data
  | 4 => do
    let signedTx ← Reader.bytes
    let rpcUrl ← Reader.optString
    let rpcMethod ← Reader.optString
    return .broadcastSignedTransaction signedTx rpcUrl rpcMethod
  | 5 => do
    let requestId ← Reader.u64
    let _ ← readNoSurbs "ReplenishSurbs" "surbs"
    return .replenishSurbs requestId []
  | 6 => do
    let req ← readPaidTransactionV2
    return .paidTransactionV2 req
  | 7 => do
    let req ← readPaidQuoteRequestV2
    return .paidQuoteRequestV2 req
  | 8 => do
    let req ← readTunnelV1
    return .tunnelV1 req
  | variant => ByteReader.fail fun _ =>
    .noxClientError s!"Unknown ServiceRequest variant index {variant}" .decryptionFailed

/-- `checkVersion`. -/
def checkVersion (bytes : Bytes) : Except Thrown Unit :=
  match bytes with
  | [] => .error (.noxClientError "Cannot decode empty payload bytes" .decryptionFailed)
  | ver :: _ =>
    if ver.toNat ≠ payloadVersion then
      .error (.noxClientError
        s!"Unsupported payload version {ver.toNat} (expected {payloadVersion})" .decryptionFailed)
    else .ok ()

/-- `decodeRelayerPayload`. -/
def decodeRelayerPayload (bytes : Bytes) : Except Thrown RelayerPayload := do
  checkVersion bytes
  let (payload, _) ← readRelayerPayload bytes 1
  return payload

/-- `expectEnd`. -/
def expectEnd (bytes : Bytes) (pos : ℕ) (typeName : String) : Except Thrown Unit :=
  if pos ≠ bytes.length then
    .error (.noxClientError s!"{typeName} has {bytes.length - pos} trailing bytes"
      .decryptionFailed)
  else .ok ()

/-- `decodeServiceRequest`. -/
def decodeServiceRequest (bytes : Bytes) : Except Thrown ServiceRequest := do
  checkVersion bytes
  let (request, pos) ← readServiceRequest bytes 1
  expectEnd bytes pos "ServiceRequest"
  return request

end NoxSdk.Bincode
