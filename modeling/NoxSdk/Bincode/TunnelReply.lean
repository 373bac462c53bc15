import NoxSdk.Bincode.Payload

/-!
# Reply parts of a tunnel

`TunnelReplyV1` (`bincode.ts`): a part of the downstream stream, or a rejection. The codes and the
hints stand in the order of `TUNNEL_FIN_V1` and `TUNNEL_REJECT_CODES_V1`, which is their index on
the wire.
-/

namespace NoxSdk.Bincode

/-- `TunnelFinV1`. -/
inductive TunnelFinV1
  | eof
  | needSurbs
  | expired
  deriving DecidableEq, Repr

/-- `TUNNEL_FIN_V1`. -/
def tunnelFinV1 : List TunnelFinV1 := [.eof, .needSurbs, .expired]

/-- `TunnelRejectCodeV1`. -/
inductive TunnelRejectCodeV1
  | malformed
  | disabled
  | portNotAllowed
  | hostNotAllowed
  | notTls
  | destinationBlocked
  | dnsFailed
  | connectFailed
  | sessionLimit
  | rateLimited
  | unknownSession
  | outOfOrder
  | byteLimit
  | upstreamClosed
  | expired
  deriving DecidableEq, Repr

/-- `TUNNEL_REJECT_CODES_V1`. -/
def tunnelRejectCodesV1 : List TunnelRejectCodeV1 :=
  [.malformed, .disabled, .portNotAllowed, .hostNotAllowed, .notTls, .destinationBlocked,
    .dnsFailed, .connectFailed, .sessionLimit, .rateLimited, .unknownSession, .outOfOrder,
    .byteLimit, .upstreamClosed, .expired]

/-- The text of a code. -/
def TunnelRejectCodeV1.value : TunnelRejectCodeV1 → String
  | malformed => "Malformed"
  | disabled => "Disabled"
  | portNotAllowed => "PortNotAllowed"
  | hostNotAllowed => "HostNotAllowed"
  | notTls => "NotTls"
  | destinationBlocked => "DestinationBlocked"
  | dnsFailed => "DnsFailed"
  | connectFailed => "ConnectFailed"
  | sessionLimit => "SessionLimit"
  | rateLimited => "RateLimited"
  | unknownSession => "UnknownSession"
  | outOfOrder => "OutOfOrder"
  | byteLimit => "ByteLimit"
  | upstreamClosed => "UpstreamClosed"
  | expired => "Expired"

/-- The `Data` variant of `TunnelReplyV1`, less its `seq`. -/
structure TunnelPartV1 where
  offset : ℕ
  data : Bytes
  fin : Option TunnelFinV1
  deriving DecidableEq, Repr

/-- `TunnelReplyV1`. -/
inductive TunnelReplyV1
  | data (seq : ℕ) (part : TunnelPartV1)
  | rejected (seq : ℕ) (code : TunnelRejectCodeV1) (retryable : Bool) (detail : String)
  deriving DecidableEq, Repr

/-- `reply.seq`. -/
def TunnelReplyV1.seq : TunnelReplyV1 → ℕ
  | data seq _ => seq
  | rejected seq _ _ _ => seq

/-- `TUNNEL_PART_MAX_DATA`. -/
def tunnelPartMaxData : ℕ := 30656

/-- `TUNNEL_REJECT_DETAIL_MAX`. -/
def tunnelRejectDetailMax : ℕ := 256

/-- `invalidTunnelReply`. -/
def invalidTunnelReply (message : String) : Thrown :=
  .noxClientError s!"Invalid TunnelReplyV1: {message}" .decryptionFailed

/-- A list of values that the wire names by their index. -/
def readIndexed {α : Type} (values : List α) (what : String) : Reader α := do
  let index ← Reader.u32
  match values[index]? with
  | some value => return value
  | none => ByteReader.fail fun _ => invalidTunnelReply s!"unknown {what} index {index}"

/-- The fields of a `Data` part. -/
def readTunnelData : Reader TunnelReplyV1 := do
  let seq ← Reader.u32
  let offset ← Reader.u64
  let data ← Reader.bytes
  if data.length > tunnelPartMaxData then
    ByteReader.fail fun _ =>
      invalidTunnelReply s!"part of {data.length} bytes exceeds {tunnelPartMaxData}"
  else do
    let fin ← Reader.option (readIndexed tunnelFinV1 "fin")
    return .data seq { offset, data, fin }

/-- The fields of a rejection. -/
def readTunnelRejected : Reader TunnelReplyV1 := do
  let seq ← Reader.u32
  let code ← readIndexed tunnelRejectCodesV1 "reject code"
  let retryable ← Reader.bool
  let detailBytes ← Reader.bytes
  if detailBytes.length > tunnelRejectDetailMax then
    ByteReader.fail fun _ =>
      invalidTunnelReply s!"detail of {detailBytes.length} bytes exceeds {tunnelRejectDetailMax}"
  else return .rejected seq code retryable (Js.textDecode detailBytes)

/-- The variants of `TunnelReplyV1`. -/
def readTunnelReplyV1 : Reader TunnelReplyV1 := do
  let variant ← Reader.u32
  match variant with
  | 0 => readTunnelData
  | 1 => readTunnelRejected
  | variant => ByteReader.fail fun _ => invalidTunnelReply s!"unknown variant {variant}"

/-- `decodeTunnelReplyV1`. -/
def decodeTunnelReplyV1 (bytes : Bytes) : Except Thrown TunnelReplyV1 := do
  checkVersion bytes
  let (reply, pos) ← readTunnelReplyV1 bytes 1
  expectEnd bytes pos "TunnelReplyV1"
  return reply

end NoxSdk.Bincode
