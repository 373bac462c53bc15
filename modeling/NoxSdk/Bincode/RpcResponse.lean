import NoxSdk.Bincode.Wire
import NoxSdk.Lib.ByteViews

/-!
# The reply to an RPC call

`decodeRpcResponse` reads with a `DataView` and not with the `Reader` of the other codecs: it
checks neither the tag, nor that the announced payload is there, nor the end. What it is right
about are exactly the replies that are laid out as they should be and the bytes that end in the
header (`decodeRpcResponse_strict_iff`).
-/

namespace NoxSdk.Bincode

/-- `RpcResponse["result"]`. -/
inductive RpcResult
  | ok (data : Bytes)
  | error (error : String)
  deriving DecidableEq, Repr

/-- `RpcResponse`. -/
structure RpcResponse where
  id : ℕ
  result : RpcResult
  deriving DecidableEq, Repr

/-- The `RangeError` of a `DataView`. -/
def outsideDataView : Thrown := .error "Offset is outside the bounds of the DataView"

/-- The little-endian `get` methods of a `DataView`. -/
def getLittleEndian (bytes : Bytes) (offset width : ℕ) : Except Thrown ℕ :=
  match readAt bytes offset width with
  | none => .error outsideDataView
  | some raw => .ok (leValue raw)

/-- `decodeRpcResponse`. -/
def decodeRpcResponse (bytes : Bytes) : Except Thrown RpcResponse := do
  let id ← getLittleEndian bytes 0 8
  let tag ← getLittleEndian bytes 8 4
  let len ← getLittleEndian bytes 12 8
  -- `slice` stops at the end of the bytes
  let payload := (bytes.drop 20).take (Js.number len)
  if tag = 0 then return ⟨id, .ok payload⟩
  else
    let error := Js.textDecode payload
    return ⟨id, .error error⟩

/-- The bytes of a reply, nothing missing and nothing after them. -/
structure IsRpcReply (bytes : Bytes) (id tag : ℕ) (payload : Bytes) : Prop where
  id_lt : id < 2 ^ 64
  tag_le : tag ≤ 1
  bytes_eq : bytes = leBytes 8 id ++ (leBytes 4 tag ++ (leBytes 8 payload.length ++ payload))

/-- What a reply says. -/
def rpcReply (id tag : ℕ) (payload : Bytes) : RpcResponse :=
  ⟨id, if tag = 0 then .ok payload else .error (Js.textDecode payload)⟩

/-- A value is returned for the bytes of a reply only, and says what they say. -/
structure StrictRpcReply (bytes : Bytes) : Prop where
  sound : ∀ response, decodeRpcResponse bytes = .ok response →
    ∃ id tag payload, IsRpcReply bytes id tag payload ∧ response = rpcReply id tag payload
  complete : ∀ id tag payload, IsRpcReply bytes id tag payload →
    decodeRpcResponse bytes = .ok (rpcReply id tag payload)

variable {bytes : Bytes}

theorem getLittleEndian_append {rest : Bytes} {offset width n : ℕ}
    (h : bytes.drop offset = leBytes width n ++ rest) (hpos : 0 < width) (hn : n < 256 ^ width) :
    getLittleEndian bytes offset width = .ok n := by
  rw [getLittleEndian, readAt_append h (length_leBytes width n) hpos]
  simp only [leValue_leBytes_of_lt hn]

/-- A reply is decoded to what it says. -/
theorem IsRpcReply.decode {id tag : ℕ} {payload : Bytes} (h : IsRpcReply bytes id tag payload)
    (hfits : Js.FitsArray bytes) : decodeRpcResponse bytes = .ok (rpcReply id tag payload) := by
  obtain ⟨hid, htag, rfl⟩ := h
  set bytes := leBytes 8 id ++ (leBytes 4 tag ++ (leBytes 8 payload.length ++ payload)) with hbytes
  have hlen : payload.length < Js.safeBound := by
    refine lt_of_le_of_lt ?_ hfits
    simp only [hbytes, List.length_append]
    omega
  have hstart : bytes.drop 0 = leBytes 8 id ++
      (leBytes 4 tag ++ (leBytes 8 payload.length ++ payload)) := hbytes
  have hafterId := drop_of_drop_eq_append hstart (length_leBytes 8 id)
  have hafterTag := drop_of_drop_eq_append hafterId (length_leBytes 4 tag)
  have hafterLength := drop_of_drop_eq_append hafterTag (length_leBytes 8 payload.length)
  rw [decodeRpcResponse, getLittleEndian_append hstart (by decide) hid, ok_bind,
    getLittleEndian_append hafterId (by decide) (by omega), ok_bind,
    getLittleEndian_append hafterTag (by decide) (lt_trans hlen (by decide)), ok_bind,
    Js.number_of_safe hlen, hafterLength, List.take_length, rpcReply]
  split_ifs <;> rfl

/-- A value is returned whenever the header is there. -/
theorem decodeRpcResponse_isOk_iff :
    (∃ response, decodeRpcResponse bytes = .ok response) ↔ 20 ≤ bytes.length := by
  have hget : ∀ offset width, (∃ n, getLittleEndian bytes offset width = .ok n) ↔
      offset + width ≤ bytes.length := by
    intro offset width
    rw [getLittleEndian]
    cases hread : readAt bytes offset width with
    | none =>
      have hshort := readAt_eq_none_iff.mp hread
      simpa using hshort
    | some raw =>
      have hlong := (readAt_eq_some_iff.mp hread).2.1
      simpa using hlong
  constructor
  · rintro ⟨response, h⟩
    rw [decodeRpcResponse, bind_eq_ok_iff] at h
    obtain ⟨id, -, h⟩ := h
    rw [bind_eq_ok_iff] at h
    obtain ⟨tag, -, h⟩ := h
    rw [bind_eq_ok_iff] at h
    obtain ⟨len, hlen, -⟩ := h
    exact (hget 12 8).mp ⟨len, hlen⟩
  · intro hlong
    obtain ⟨id, hid⟩ := (hget 0 8).mpr (by omega)
    obtain ⟨tag, htag⟩ := (hget 8 4).mpr (by omega)
    obtain ⟨len, hlen⟩ := (hget 12 8).mpr hlong
    rw [decodeRpcResponse, hid, ok_bind, htag, ok_bind, hlen, ok_bind]
    split_ifs
    · exact ⟨_, rfl⟩
    · exact ⟨_, rfl⟩

/-- `decodeRpcResponse` returns a value for the bytes of a reply only, and then what they say,
exactly if the bytes end in the header or are those of a reply.

The decoder returns a value as soon as the header is there (`decodeRpcResponse_isOk_iff`),
whatever the tag and the length say; so it is strict only for bytes that end before it, or that
are a reply. -/
theorem decodeRpcResponse_strict_iff (hfits : Js.FitsArray bytes) :
    StrictRpcReply bytes ↔
      bytes.length < 20 ∨ ∃ id tag payload, IsRpcReply bytes id tag payload := by
  constructor
  · intro hstrict
    rcases Nat.lt_or_ge bytes.length 20 with hshort | hlong
    · exact .inl hshort
    · obtain ⟨response, hok⟩ := decodeRpcResponse_isOk_iff.mpr hlong
      obtain ⟨id, tag, payload, hreply, -⟩ := hstrict.sound response hok
      exact .inr ⟨id, tag, payload, hreply⟩
  · intro hcond
    refine ⟨fun response hok => ?_, fun id tag payload hreply => hreply.decode hfits⟩
    have hlong := decodeRpcResponse_isOk_iff.mp ⟨response, hok⟩
    obtain ⟨id, tag, payload, hreply⟩ := hcond.resolve_left (by omega)
    exact ⟨id, tag, payload, hreply, Except.ok.inj (hok.symm.trans (hreply.decode hfits))⟩

/-- The reply to call 7 with three bytes. -/
def sampleRpcReply : Bytes := [7, 0, 0, 0, 0, 0, 0, 0, 0, 0, 0, 0, 3, 0, 0, 0, 0, 0, 0, 0, 1, 2, 3]

theorem sampleRpcReply_isRpcReply : IsRpcReply sampleRpcReply 7 0 [1, 2, 3] :=
  ⟨by decide, by decide, rfl⟩

theorem decodeRpcResponse_strict_sample : StrictRpcReply sampleRpcReply :=
  (decodeRpcResponse_strict_iff (by decide)).mpr (.inr ⟨_, _, _, sampleRpcReply_isRpcReply⟩)

/-- Without its last byte that reply is decoded to a shorter result. -/
theorem not_decodeRpcResponse_strict :
    (¬ ∀ bytes, Js.FitsArray bytes → StrictRpcReply bytes) ∧
      decodeRpcResponse (sampleRpcReply.take 22) = .ok ⟨7, .ok [1, 2]⟩ := by
  have hok : decodeRpcResponse (sampleRpcReply.take 22) = .ok ⟨7, .ok [1, 2]⟩ := rfl
  refine ⟨fun hall => ?_, hok⟩
  obtain ⟨id, tag, payload, hreply, hresponse⟩ :=
    (hall (sampleRpcReply.take 22) (by decide)).sound _ hok
  -- the payload is the two bytes returned, but three are announced
  have hpayload : payload = [1, 2] := by
    rw [rpcReply] at hresponse
    split_ifs at hresponse with htag
    · exact (RpcResult.ok.inj (congrArg RpcResponse.result hresponse)).symm
    · cases congrArg RpcResponse.result hresponse
  have hbytes := hreply.bytes_eq
  rw [hpayload] at hbytes
  have htail := congrArg (List.drop 12) hbytes
  rw [← List.append_assoc, List.drop_left' (by simp)] at htail
  revert htail
  decide

end NoxSdk.Bincode
