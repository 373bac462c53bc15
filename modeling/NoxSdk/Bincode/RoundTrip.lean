import NoxSdk.Bincode.Payload

/-!
# Round trips of the payload codecs

Decoding an encoding gives the value back: `codecs_round_trip`, for every variant of both
unions. The values are those the wire can carry (`WireValid`): numbers in the range of their
width, fixed fields of their length, strings that do not start with a byte order mark, no
SURBs, and a tunnel opening exactly at sequence number `0`. That an array has a safe integer as
its length (`Js.FitsArray`) holds of every `Uint8Array`.

A variant is read field by field in the order in which it is written, so each proof is the
chain of `Reads.bind` over the fields.
-/

namespace NoxSdk.Bincode

/-! ### Values the wire can carry -/

/-- A string that survives encoding and decoding. -/
structure StringValid (text : String) : Prop where
  fits : Js.FitsArray (Js.textEncode text)
  noMark : Js.NoMark text

/-- A fragment within the widths of its fields. -/
structure FragmentValid (f : FragmentWire) : Prop where
  messageId : f.messageId < 2 ^ 64
  totalFragments : f.totalFragments < 2 ^ 32
  sequence : f.sequence < 2 ^ 32
  data : Js.FitsArray f.data
  fec : ∀ fec ∈ f.fec, fec.dataShardCount < 2 ^ 32 ∧ fec.originalDataLen < Js.safeBound

/-- A payload the wire can carry. -/
def RelayerPayload.WireValid : RelayerPayload → Prop
  | .submitTransaction to_ data => to_.length = 20 ∧ Js.FitsArray data
  | .dummy padding => Js.FitsArray padding
  | .heartbeat id timestamp => id < 2 ^ 64 ∧ timestamp < 2 ^ 64
  | .fragment frag => FragmentValid frag
  | .anonymousRequest inner replySurbs => Js.FitsArray inner ∧ replySurbs = []
  | .serviceResponse requestId frag => requestId < 2 ^ 64 ∧ FragmentValid frag
  | .needMoreSurbs requestId fragmentsRemaining =>
    requestId < 2 ^ 64 ∧ fragmentsRemaining < 2 ^ 32

/-- A paid transaction the wire can carry. -/
structure PaidTransactionRequestV2.WireValid (req : PaidTransactionRequestV2) : Prop where
  chainId : req.chainId < 2 ^ 64
  entryPoint : req.entryPoint.length = 20
  calldata : Js.FitsArray req.calldata
  executionId : req.executionId.length = 32
  validUntilUnix : req.validUntilUnix < 2 ^ 64

/-- A quote request the wire can carry. -/
structure PaidQuoteRequestV2.WireValid (req : PaidQuoteRequestV2) : Prop where
  chainId : req.chainId < 2 ^ 64
  entryPoint : req.entryPoint.length = 20
  clientIntentId : req.clientIntentId.length = 32
  paymentAdapter : req.paymentAdapter.length = 20
  paymentId : req.paymentId.length = 32
  feeAsset : req.feeAsset.length = 20
  paymentGasLimit : req.paymentGasLimit < 2 ^ 64
  actionTarget : req.actionTarget.length = 20
  actionCalldataHash : req.actionCalldataHash.length = 32
  actionGasLimit : req.actionGasLimit < 2 ^ 64
  trackedAssetsHash : req.trackedAssetsHash.length = 32
  maximumTransactionGas : req.maximumTransactionGas < 2 ^ 64
  returnDataLimit : req.returnDataLimit < 2 ^ 32
  validUntilUnix : req.validUntilUnix < 2 ^ 64

/-- A tunnel exchange the wire can carry. -/
structure TunnelRequestV1.WireValid (req : TunnelRequestV1) : Prop where
  tunnelId : req.tunnelId.length = tunnelIdLen
  seq : req.seq < 2 ^ 32
  openAtZero : req.open_.isSome ↔ req.seq = 0
  open_ : ∀ o ∈ req.open_, StringValid o.host ∧ o.port < 2 ^ 16
  ackOffset : req.ackOffset < 2 ^ 64
  data : Js.FitsArray req.data
  holdMs : req.holdMs < 2 ^ 32

/-- A request the wire can carry. -/
def ServiceRequest.WireValid : ServiceRequest → Prop
  | .echo data => Js.FitsArray data
  | .httpRequest method url headers body =>
    StringValid method ∧ StringValid url ∧ headers.length < Js.safeBound ∧
      (∀ h ∈ headers, StringValid h.1 ∧ StringValid h.2) ∧ Js.FitsArray body
  | .rpcRequest method params id rpcUrl =>
    StringValid method ∧ Js.FitsArray params ∧ id < 2 ^ 64 ∧ ∀ v ∈ rpcUrl, StringValid v
  | .submitTransaction to_ data => to_.length = 20 ∧ Js.FitsArray data
  | .broadcastSignedTransaction signedTx rpcUrl rpcMethod =>
    Js.FitsArray signedTx ∧ (∀ v ∈ rpcUrl, StringValid v) ∧ ∀ v ∈ rpcMethod, StringValid v
  | .replenishSurbs requestId surbs => requestId < 2 ^ 64 ∧ surbs = []
  | .paidTransactionV2 req => req.WireValid
  | .paidQuoteRequestV2 req => req.WireValid
  | .tunnelV1 req => req.WireValid

/-! ### Fields -/

theorem StringValid.reads {text : String} (h : StringValid text) :
    Reads Reader.string (Writer.string text) text := reads_string h.fits h.noMark

theorem reads_optString_of_valid {o : Option String} (h : ∀ v ∈ o, StringValid v) :
    Reads Reader.optString (Writer.optString o) o :=
  reads_optString fun v hv => ⟨(h v hv).fits, (h v hv).noMark⟩

theorem writeFixed_ok {value : Bytes} {length : ℕ} (name : String) (h : value.length = length) :
    writeFixed value length name = .ok (Writer.fixedBytes value) := if_pos h

theorem reads_fragmentWire {f : FragmentWire} (h : FragmentValid f) :
    Reads readFragmentWire (writeFragmentWire f) f := by
  refine (reads_u64 h.messageId).bind ((reads_u32 h.totalFragments).bind
    ((reads_u32 h.sequence).bind ((reads_bytes h.data).bind ?_)))
  obtain ⟨messageId, totalFragments, sequence, data, fec⟩ := f
  cases fec with
  | none =>
    refine (reads_u8 (v := 0) (by decide)).bind_nil ?_
    rw [if_neg (by decide)]
    exact Reads.pure _
  | some fec =>
    obtain ⟨hcount, hlen⟩ := h.fec fec rfl
    have hnumber : Js.number fec.originalDataLen = fec.originalDataLen := Js.number_of_safe hlen
    refine (reads_u8 (v := 1) (by decide)).bind ?_
    rw [if_pos rfl]
    refine (reads_u32 hcount).bind ((reads_u64 (lt_trans hlen (by decide))).bind_nil ?_)
    rw [hnumber]
    exact Reads.pure _

theorem reads_noSurbs (variant field : String) :
    Reads (readNoSurbs variant field) (writeSurbs []) () := by
  refine (reads_u64 (v := 0) (by decide)).bind_nil ?_
  rw [if_neg (by decide)]
  exact Reads.pure ()

theorem reads_header {h : String × String} (hname : StringValid h.1) (hvalue : StringValid h.2) :
    Reads readHeader (writeHeader h) h :=
  hname.reads.bind (hvalue.reads.bind_pure fun value => (h.1, value))

/-! ### Relayer payloads -/

theorem reads_relayerPayload {p : RelayerPayload} (h : p.WireValid) :
    ∃ body, writeRelayerPayload p = .ok body ∧ Reads readRelayerPayload body p := by
  cases p with
  | submitTransaction to_ data =>
    obtain ⟨hto, hdata⟩ := h
    refine ⟨_, by rw [writeRelayerPayload, writeFixed_ok _ hto]; rfl, ?_⟩
    exact (reads_u32 (v := 0) (by decide)).bind ((reads_fixedBytes hto).bind
      ((reads_bytes hdata).bind_pure _))
  | dummy padding =>
    exact ⟨_, rfl, (reads_u32 (v := 1) (by decide)).bind ((reads_bytes h).bind_pure _)⟩
  | heartbeat id timestamp =>
    exact ⟨_, rfl, (reads_u32 (v := 2) (by decide)).bind ((reads_u64 h.1).bind
      ((reads_u64 h.2).bind_pure _))⟩
  | fragment frag =>
    exact ⟨_, rfl, (reads_u32 (v := 3) (by decide)).bind ((reads_fragmentWire h).bind_pure _)⟩
  | anonymousRequest inner replySurbs =>
    obtain ⟨hinner, rfl⟩ := h
    exact ⟨_, rfl, (reads_u32 (v := 4) (by decide)).bind ((reads_bytes hinner).bind
      ((reads_noSurbs _ _).bind_pure _))⟩
  | serviceResponse requestId fragment =>
    exact ⟨_, rfl, (reads_u32 (v := 5) (by decide)).bind ((reads_u64 h.1).bind
      ((reads_fragmentWire h.2).bind_pure _))⟩
  | needMoreSurbs requestId fragmentsRemaining =>
    exact ⟨_, rfl, (reads_u32 (v := 6) (by decide)).bind ((reads_u64 h.1).bind
      ((reads_u32 h.2).bind_pure _))⟩

/-! ### Service requests -/

theorem reads_paidTransactionV2 {req : PaidTransactionRequestV2} (h : req.WireValid) :
    ∃ fields, writePaidTransactionV2 req = .ok fields ∧ Reads readPaidTransactionV2 fields req := by
  refine ⟨_, by rw [writePaidTransactionV2, writeFixed_ok _ h.entryPoint,
    writeFixed_ok _ h.executionId]; rfl, ?_⟩
  exact (reads_u64 h.chainId).bind ((reads_fixedBytes h.entryPoint).bind
    ((reads_bytes h.calldata).bind ((reads_fixedBytes h.executionId).bind
    ((reads_u64 h.validUntilUnix).bind_pure _))))

theorem reads_paidQuoteRequestV2 {req : PaidQuoteRequestV2} (h : req.WireValid) :
    ∃ fields, writePaidQuoteRequestV2 req = .ok fields ∧
      Reads readPaidQuoteRequestV2 fields req := by
  refine ⟨_, by rw [writePaidQuoteRequestV2, writeFixed_ok _ h.entryPoint,
    writeFixed_ok _ h.clientIntentId, writeFixed_ok _ h.paymentAdapter,
    writeFixed_ok _ h.paymentId, writeFixed_ok _ h.feeAsset, writeFixed_ok _ h.actionTarget,
    writeFixed_ok _ h.actionCalldataHash, writeFixed_ok _ h.trackedAssetsHash]; rfl, ?_⟩
  exact (reads_u64 h.chainId).bind ((reads_fixedBytes h.entryPoint).bind
    ((reads_fixedBytes h.clientIntentId).bind ((reads_fixedBytes h.paymentAdapter).bind
    ((reads_fixedBytes h.paymentId).bind ((reads_fixedBytes h.feeAsset).bind
    ((reads_u64 h.paymentGasLimit).bind ((reads_fixedBytes h.actionTarget).bind
    ((reads_fixedBytes h.actionCalldataHash).bind ((reads_u64 h.actionGasLimit).bind
    ((reads_fixedBytes h.trackedAssetsHash).bind ((reads_u64 h.maximumTransactionGas).bind
    ((reads_u32 h.returnDataLimit).bind ((reads_u64 h.validUntilUnix).bind_pure _)))))))))))))

theorem reads_tunnelOpen {open_ : Option TunnelOpenV1}
    (h : ∀ o ∈ open_, StringValid o.host ∧ o.port < 2 ^ 16) :
    Reads (Reader.option readTunnelOpen) (writeTunnelOpen open_) open_ := by
  cases open_ with
  | none => exact reads_option_none _
  | some o =>
    obtain ⟨hhost, hport⟩ := h o rfl
    exact reads_option_some (hhost.reads.bind ((reads_u16 hport).bind_pure _))

theorem reads_tunnelV1 {req : TunnelRequestV1} (h : req.WireValid) :
    ∃ fields, writeTunnelV1 req = .ok fields ∧ Reads readTunnelV1 fields req := by
  have hopen : ¬ req.open_.isSome ≠ decide (req.seq = 0) := by
    have hiff := h.openAtZero
    by_cases hseq : req.seq = 0 <;> simp_all
  refine ⟨_, by rw [writeTunnelV1, writeFixed_ok _ h.tunnelId]; exact if_neg hopen, ?_⟩
  exact (reads_fixedBytes h.tunnelId).bind ((reads_u32 h.seq).bind
    ((reads_tunnelOpen h.open_).bind ((reads_u64 h.ackOffset).bind ((reads_bytes h.data).bind
    ((reads_bool req.close).bind ((reads_u32 h.holdMs).bind_pure _))))))

theorem reads_serviceRequest {r : ServiceRequest} (h : r.WireValid) :
    ∃ body, writeServiceRequest r = .ok body ∧ Reads readServiceRequest body r := by
  cases r with
  | echo data =>
    exact ⟨_, rfl, (reads_u32 (v := 0) (by decide)).bind ((reads_bytes h).bind_pure _)⟩
  | httpRequest method url headers body =>
    -- the number of headers is read before them, as a `u64` that fits a number
    obtain ⟨hmethod, hurl, hcount, hheaders, hbody⟩ := h
    have hnumber : Js.number headers.length = headers.length := Js.number_of_safe hcount
    have hread : Reads (ByteReader.replicate readHeader headers.length)
        (headers.flatMap writeHeader) headers :=
      Reads.replicate fun header hmem =>
        reads_header (hheaders header hmem).1 (hheaders header hmem).2
    refine ⟨_, rfl, (reads_u32 (v := 1) (by decide)).bind (hmethod.reads.bind (hurl.reads.bind
      ((reads_u64 (lt_trans hcount (by decide))).bind ?_)))⟩
    rw [hnumber]
    exact hread.bind ((reads_bytes hbody).bind_pure _)
  | rpcRequest method params id rpcUrl =>
    obtain ⟨hmethod, hparams, hid, hurl⟩ := h
    exact ⟨_, rfl, (reads_u32 (v := 2) (by decide)).bind (hmethod.reads.bind
      ((reads_bytes hparams).bind ((reads_u64 hid).bind
      ((reads_optString_of_valid hurl).bind_pure _))))⟩
  | submitTransaction to_ data =>
    obtain ⟨hto, hdata⟩ := h
    refine ⟨_, by rw [writeServiceRequest, writeFixed_ok _ hto]; rfl, ?_⟩
    exact (reads_u32 (v := 3) (by decide)).bind ((reads_fixedBytes hto).bind
      ((reads_bytes hdata).bind_pure _))
  | broadcastSignedTransaction signedTx rpcUrl rpcMethod =>
    obtain ⟨htx, hurl, hmethod⟩ := h
    exact ⟨_, rfl, (reads_u32 (v := 4) (by decide)).bind ((reads_bytes htx).bind
      ((reads_optString_of_valid hurl).bind ((reads_optString_of_valid hmethod).bind_pure _)))⟩
  | replenishSurbs requestId surbs =>
    -- only a request without reply blocks is read back
    obtain ⟨hid, rfl⟩ := h
    exact ⟨_, rfl, (reads_u32 (v := 5) (by decide)).bind ((reads_u64 hid).bind
      ((reads_noSurbs _ _).bind_pure _))⟩
  | paidTransactionV2 req =>
    obtain ⟨fields, hwrite, hread⟩ := reads_paidTransactionV2 h
    exact ⟨_, by rw [writeServiceRequest, hwrite]; rfl,
      (reads_u32 (v := 6) (by decide)).bind (hread.bind_pure _)⟩
  | paidQuoteRequestV2 req =>
    obtain ⟨fields, hwrite, hread⟩ := reads_paidQuoteRequestV2 h
    exact ⟨_, by rw [writeServiceRequest, hwrite]; rfl,
      (reads_u32 (v := 7) (by decide)).bind (hread.bind_pure _)⟩
  | tunnelV1 req =>
    obtain ⟨fields, hwrite, hread⟩ := reads_tunnelV1 h
    exact ⟨_, by rw [writeServiceRequest, hwrite]; rfl,
      (reads_u32 (v := 8) (by decide)).bind (hread.bind_pure _)⟩

/-! ### Versioned payloads -/

theorem checkVersion_versioned (body : Bytes) :
    checkVersion (Writer.u8 payloadVersion ++ body) = .ok () := rfl

/-- Reading a versioned body from behind its version byte. -/
theorem reads_versioned {α : Type} {p : Reader α} {body : Bytes} {a : α}
    (h : Reads p body a) :
    p (Writer.u8 payloadVersion ++ body) 1 =
      .ok (a, (Writer.u8 payloadVersion ++ body).length) := by
  have hread := h (Writer.u8 payloadVersion) []
  rw [List.append_nil] at hread
  rw [List.length_append]
  exact hread

/-- Decoding an encoded payload gives it back. -/
theorem decodeRelayerPayload_encodeRelayerPayload {p : RelayerPayload} (h : p.WireValid) :
    ∃ bytes, encodeRelayerPayload p = .ok bytes ∧ decodeRelayerPayload bytes = .ok p := by
  obtain ⟨body, hwrite, hread⟩ := reads_relayerPayload h
  refine ⟨_, by rw [encodeRelayerPayload, hwrite]; rfl, ?_⟩
  rw [decodeRelayerPayload, checkVersion_versioned, reads_versioned hread]
  rfl

/-- Decoding an encoded request gives it back. -/
theorem decodeServiceRequest_encodeServiceRequest {r : ServiceRequest} (h : r.WireValid) :
    ∃ bytes, encodeServiceRequest r = .ok bytes ∧ decodeServiceRequest bytes = .ok r := by
  obtain ⟨body, hwrite, hread⟩ := reads_serviceRequest h
  refine ⟨_, by rw [encodeServiceRequest, hwrite]; rfl, ?_⟩
  rw [decodeServiceRequest, checkVersion_versioned, reads_versioned hread]
  simp only [ok_bind, expectEnd, ne_eq, not_true_eq_false, if_false, pure_eq_ok]

/-- Both codecs round-trip, for every variant.

Each half goes through the variants: the reader of a field consumes what its writer wrote (`Reads`),
and readers compose as the writers do. -/
theorem codecs_round_trip :
    (∀ r : ServiceRequest, r.WireValid →
      ∃ bytes, encodeServiceRequest r = .ok bytes ∧ decodeServiceRequest bytes = .ok r) ∧
    (∀ p : RelayerPayload, p.WireValid →
      ∃ bytes, encodeRelayerPayload p = .ok bytes ∧ decodeRelayerPayload bytes = .ok p) :=
  ⟨fun _ h => decodeServiceRequest_encodeServiceRequest h,
    fun _ h => decodeRelayerPayload_encodeRelayerPayload h⟩

/-- A request that opens a tunnel and a heartbeat go round. -/
theorem codecs_round_trip_open_heartbeat :
    (∃ bytes, encodeServiceRequest (.tunnelV1 ⟨List.replicate 16 7, 0, some ⟨"h", 443⟩, 0, [1],
        false, 250⟩) = .ok bytes ∧
      decodeServiceRequest bytes = .ok (.tunnelV1 ⟨List.replicate 16 7, 0, some ⟨"h", 443⟩, 0, [1],
        false, 250⟩)) ∧
    (∃ bytes, encodeRelayerPayload (.heartbeat 1 2) = .ok bytes ∧
      decodeRelayerPayload bytes = .ok (.heartbeat 1 2)) := by
  refine ⟨codecs_round_trip.1 _ ?_, codecs_round_trip.2 _ ⟨by decide, by decide⟩⟩
  refine ⟨rfl, by decide, by decide, fun o ho => ?_, by decide, by decide, by decide⟩
  obtain rfl := Option.some.inj ho
  exact ⟨⟨by decide, by decide⟩, by decide⟩

end NoxSdk.Bincode
