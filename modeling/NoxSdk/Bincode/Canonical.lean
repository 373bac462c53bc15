import NoxSdk.Bincode.HttpResponse
import NoxSdk.Lib.StrictReads

/-!
# Canonical bytes

What a strict decoder of `bincode.ts` accepts is what the encoder writes for the value, up to four
leniencies of the readers: an optional string is announced by any tag but `0`, a string is decoded
whatever its bytes are, a byte order mark in front of a text is dropped, and a tunnel request may
have an opening at any sequence number.

Beside each reader that has one of them stands the reader without it. A decoder's value is encoded
to the bytes it came from exactly when the reader without them returns too
(`strict_decoders_canonical_iff`).
-/

namespace NoxSdk.Js

/-- The bytes are UTF-8 and do not start with those of a byte order mark. -/
def CanonicalText (raw : Bytes) : Prop :=
  (textDecodeFatal raw).isSome = true ∧ ¬ [0xEF, 0xBB, 0xBF] <+: raw

instance (raw : Bytes) : Decidable (CanonicalText raw) := inferInstanceAs (Decidable (_ ∧ _))

theorem utf8EncodeChar_byteOrderMark :
    String.utf8EncodeChar byteOrderMark = [0xEF, 0xBB, 0xBF] := by decide

/-- A text starts with a mark exactly when its bytes do. -/
theorem noMark_iff {text : String} : NoMark text ↔ ¬ [0xEF, 0xBB, 0xBF] <+: textEncode text := by
  rw [NoMark, not_iff_not, ← utf8EncodeChar_byteOrderMark]
  constructor
  · intro hmark
    cases hcs : text.toList with
    | nil =>
      rw [hcs] at hmark
      cases hmark
    | cons c cs =>
      rw [hcs, List.head?_cons, Option.some_inj] at hmark
      rw [textEncode, hcs, List.flatMap_cons, hmark]
      exact List.prefix_append _ _
  · rintro ⟨rest, hrest⟩
    have hdecode := decode_utf8EncodeChar byteOrderMark rest
    rw [hrest, textEncode, decode_flatMap_utf8EncodeChar] at hdecode
    rw [hdecode, List.head?_cons]

/-- A text from which no mark is dropped has none in front. -/
theorem noMark_of_dropMark_eq {text : String} (h : dropMark text = text) : NoMark text := by
  intro hmark
  rw [dropMark, if_pos hmark] at h
  have hlength := congrArg (fun s : String => s.toList.length) h
  cases hcs : text.toList with
  | nil =>
    rw [hcs] at hmark
    cases hmark
  | cons c cs => simp [hcs] at hlength

/-- Bytes are those of the text they are decoded to exactly when they are canonical. -/
theorem textEncode_textDecode_iff {raw : Bytes} :
    textEncode (textDecode raw) = raw ↔ CanonicalText raw := by
  constructor
  · intro h
    have hsame : dropMark (textDecode raw) = textDecode raw := by
      rw [← textDecode_textEncode_eq_dropMark, h]
    have hmark := noMark_of_dropMark_eq hsame
    refine ⟨?_, ?_⟩
    · rw [← h, textDecodeFatal_textEncode hmark, Option.isSome_some]
    · rw [← h]
      exact noMark_iff.mp hmark
  · rintro ⟨hutf8, hmark⟩
    obtain ⟨text, htext⟩ := Option.isSome_iff_exists.mp hutf8
    obtain ⟨original, rfl, -⟩ := textDecodeFatal_eq_some_iff.mp htext
    rw [textDecode_textEncode (noMark_iff.mpr hmark)]

/-- A text that was decoded without a replacement is what the lenient decoder gives. -/
theorem textDecode_of_fatal {raw : Bytes} {text : String} (h : textDecodeFatal raw = some text) :
    textDecode raw = text := by
  obtain ⟨original, rfl, rfl⟩ := textDecodeFatal_eq_some_iff.mp h
  exact textDecode_textEncode_eq_dropMark original

end NoxSdk.Js

namespace NoxSdk.Bincode

open ByteReader (ComparesField Compares Verdict bind_eq_ok bind_of_ok bind_ne_ok)

/-! ### The readers without the leniencies -/

namespace Reader

/-- `string`, of canonical bytes only. -/
def strictString : Reader String := do
  let raw ← bytes
  if Js.CanonicalText raw then return Js.textDecode raw
  else ByteReader.fail fun _ => .noxClientError "The text is not canonical" .decryptionFailed

/-- `optString`, with the tags `0` and `1` only. -/
def strictOptString : Reader (Option String) := do
  let tag ← u8
  if tag = 0 then return none
  else if tag = 1 then do
    let v ← strictString
    return some v
  else ByteReader.fail fun _ => .noxClientError "The tag is not canonical" .decryptionFailed

end Reader

/-- `readHeader`, strictly. -/
def readStrictHeader : Reader (String × String) := do
  let name ← Reader.strictString
  let value ← Reader.strictString
  return (name, value)

/-- The opening of a tunnel, strictly. -/
def readStrictTunnelOpen : Reader TunnelOpenV1 := do
  let host ← Reader.strictString
  let port ← Reader.u16
  return { host, port }

/-- The fields of `TunnelV1`, strictly: the opening is there exactly at sequence number `0`. -/
def readStrictTunnelV1 : Reader TunnelRequestV1 := do
  let tunnelId ← Reader.fixedBytes tunnelIdLen
  let seq ← Reader.u32
  let open_ ← Reader.option readStrictTunnelOpen
  let ackOffset ← Reader.u64
  let data ← Reader.bytes
  let close ← Reader.bool
  let holdMs ← Reader.u32
  if open_.isSome ≠ decide (seq = 0) then
    ByteReader.fail fun _ => invalidTunnelEncoding "open must be present exactly when seq is 0"
  else return { tunnelId, seq, open_, ackOffset, data, close, holdMs }

/-- `readServiceRequest`, strictly. -/
def readStrictServiceRequest : Reader ServiceRequest := do
  let variant ← Reader.u32
  match variant with
  | 0 => do
    let data ← Reader.bytes
    return .echo data
  | 1 => do
    let method ← Reader.strictString
    let url ← Reader.strictString
    let headerCount ← Reader.u64
    let headers ← ByteReader.replicate readStrictHeader (Js.number headerCount)
    let body ← Reader.bytes
    return .httpRequest method url headers body
  | 2 => do
    let method ← Reader.strictString
    let params ← Reader.bytes
    let id ← Reader.u64
    let rpcUrl ← Reader.strictOptString
    return .rpcRequest method params id rpcUrl
  | 3 => do
    let to_ ← Reader.fixedBytes 20
    let data ← Reader.bytes
    return .submitTransaction to_ data
  | 4 => do
    let signedTx ← Reader.bytes
    let rpcUrl ← Reader.strictOptString
    let rpcMethod ← Reader.strictOptString
    return .broadcastSignedTransaction signedTx rpcUrl rpcMethod
  | 5 => do
    let requestId ← Reader.u64
    let _ ← readNoSurbs "ReplenishSurbs" "surbs"
    return .replenishSurbs requestId []
  | 6 => do
    let req ← readPaidTransactionV2
    return .paidTransactionV2 req
  | 7 => do
    let req ← readPaidQuoteRequestV2
    return .paidQuoteRequestV2 req
  | 8 => do
    let req ← readStrictTunnelV1
    return .tunnelV1 req
  | variant => ByteReader.fail fun _ =>
    .noxClientError s!"Unknown ServiceRequest variant index {variant}" .decryptionFailed

/-- The detail of a rejection, strictly: without a byte order mark. -/
def readStrictDetail (invalid : String → Thrown) : Reader String := do
  let detailBytes ← Reader.bytes
  if detailBytes.length = 0 ∨ maxSubmitRejectionDetailBytes < detailBytes.length then
    ByteReader.fail fun _ => invalid "rejection detail is empty or exceeds 256 bytes"
  else match Js.textDecodeFatal detailBytes with
    | none => ByteReader.fail fun _ => invalid "rejection detail is not valid UTF-8"
    | some detail =>
      if detail.toList.any isControl then
        ByteReader.fail fun _ => invalid "rejection detail contains controls"
      else if Js.CanonicalText detailBytes then return detail
      else ByteReader.fail fun _ => invalid "rejection detail is not canonical"

/-- `readPaidV2Rejection`, strictly. -/
def readStrictPaidV2Rejection (invalid : String → Thrown) : Reader PaidV2Rejection := do
  let index ← Reader.u32
  match paidTransactionRejectionCodesV2[index]? with
  | none => ByteReader.fail fun _ => invalid "rejection code is unsupported"
  | some code => do
    let retryable ← Reader.u8
    if retryable ≠ 0 ∧ retryable ≠ 1 then
      ByteReader.fail fun _ => invalid "retryable flag is invalid"
    else do
      let detail ← readStrictDetail invalid
      return { code, retryable := decide (retryable = 1), detail }

/-- The fields of a rejected transaction, strictly. -/
def readStrictRejectedTransaction : Reader PaidTransactionOutcomeV2 := do
  let option ← Reader.u8
  if option ≠ 0 ∧ option ≠ 1 then
    ByteReader.fail fun _ => invalidV2Outcome "execution_id option tag is invalid"
  else if option = 1 then do
    let executionId ← Reader.fixedBytes 32
    let rejection ← readStrictPaidV2Rejection invalidV2Outcome
    return .rejected (some executionId) rejection
  else do
    let rejection ← readStrictPaidV2Rejection invalidV2Outcome
    return .rejected none rejection

/-- The variants of `PaidTransactionOutcomeV2`, strictly. -/
def readStrictPaidTransactionOutcomeV2 : Reader PaidTransactionOutcomeV2 := do
  let variant ← Reader.u32
  match variant with
  | 0 => do
    let executionId ← Reader.fixedBytes 32
    let transactionHash ← Reader.fixedBytes 32
    return .submitted executionId transactionHash
  | 1 => readStrictRejectedTransaction
  | variant => ByteReader.fail fun _ => invalidV2Outcome s!"unknown outcome variant {variant}"

/-- The variants of `PaidQuoteOutcomeV2`, strictly. -/
def readStrictPaidQuoteOutcomeV2 : Reader PaidQuoteOutcomeV2 := do
  let variant ← Reader.u32
  match variant with
  | 0 => readIssuedQuote
  | 1 => do
    let rejection ← readStrictPaidV2Rejection invalidQuoteOutcome
    return .rejected rejection
  | variant => ByteReader.fail fun _ => invalidQuoteOutcome s!"unknown outcome variant {variant}"

/-- The fields of a tunnel rejection, strictly. -/
def readStrictTunnelRejected : Reader TunnelReplyV1 := do
  let seq ← Reader.u32
  let code ← readIndexed tunnelRejectCodesV1 "reject code"
  let retryable ← Reader.bool
  let detailBytes ← Reader.bytes
  if detailBytes.length > tunnelRejectDetailMax then
    ByteReader.fail fun _ =>
      invalidTunnelReply s!"detail of {detailBytes.length} bytes exceeds {tunnelRejectDetailMax}"
  else if Js.CanonicalText detailBytes then
    return .rejected seq code retryable (Js.textDecode detailBytes)
  else ByteReader.fail fun _ => invalidTunnelReply "detail is not canonical"

/-- The variants of `TunnelReplyV1`, strictly. -/
def readStrictTunnelReplyV1 : Reader TunnelReplyV1 := do
  let variant ← Reader.u32
  match variant with
  | 0 => readTunnelData
  | 1 => readStrictTunnelRejected
  | variant => ByteReader.fail fun _ => invalidTunnelReply s!"unknown variant {variant}"

/-! ### Fields -/

section Fields

variable {buf : Bytes} {pos mid : ℕ}

/-- Bytes that are read are the next ones, and the position stays within the buffer. -/
theorem slice_eq_ok {short : ℕ → ℕ → Thrown} {n : ℕ} {raw : Bytes}
    (h : ByteReader.slice short n buf pos = .ok (raw, mid)) :
    raw.length = n ∧ mid = pos + n ∧ mid ≤ buf.length ∧ buf.drop pos = raw ++ buf.drop mid :=
  (ByteReader.slice_outcome (E := fun _ => True) (fun _ _ => trivial) n).of_ok h

/-- A number that is read is within its width, and its bytes are the next ones. -/
theorem num_eq_ok {width n : ℕ} (h : Reader.num width buf pos = .ok (n, mid)) :
    mid = pos + width ∧ mid ≤ buf.length ∧ n < 256 ^ width ∧
      buf.drop pos = leBytes width n ++ buf.drop mid := by
  obtain ⟨raw, last, hraw, hn⟩ := bind_eq_ok h
  obtain ⟨rfl, rfl⟩ := Prod.mk.inj (Except.ok.inj hn)
  obtain ⟨hlength, hmid, hend, hbuf⟩ := slice_eq_ok hraw
  subst hlength
  exact ⟨hmid, hend, leValue_lt raw, by rw [leBytes_leValue, hbuf]⟩

/-- Numbers are read strictly as they are, and written back to the bytes they were read from. -/
theorem compares_num (width : ℕ) :
    ComparesField Js.FitsArray (Reader.num width) (Reader.num width) (leBytes width)
      fun n => n < 256 ^ width :=
  ComparesField.same fun _ _ _ _ _ h => (num_eq_ok h).2.2

theorem compares_u8 : ComparesField Js.FitsArray Reader.u8 Reader.u8 Writer.u8
    fun n => n < 256 ^ 1 := compares_num 1

theorem compares_u16 : ComparesField Js.FitsArray Reader.u16 Reader.u16 Writer.u16
    fun n => n < 256 ^ 2 := compares_num 2

theorem compares_u32 : ComparesField Js.FitsArray Reader.u32 Reader.u32 Writer.u32
    fun n => n < 256 ^ 4 := compares_num 4

theorem compares_u64 : ComparesField Js.FitsArray Reader.u64 Reader.u64 Writer.u64
    fun n => n < 256 ^ 8 := compares_num 8

/-- Bytes of a fixed number are written back as they were read. -/
theorem compares_fixedBytes (n : ℕ) :
    ComparesField Js.FitsArray (Reader.fixedBytes n) (Reader.fixedBytes n) Writer.fixedBytes
      fun raw => raw.length = n :=
  ComparesField.same fun _ _ _ _ _ h =>
    have hslice := slice_eq_ok h
    ⟨hslice.1, hslice.2.2.2⟩

/-- A length that was read is exact: a rounded one would reach past the end. -/
theorem bytes_eq_ok {raw : Bytes} (hfits : Js.FitsArray buf)
    (h : Reader.bytes buf pos = .ok (raw, mid)) :
    pos + 8 + raw.length = mid ∧ mid ≤ buf.length ∧
      buf.drop pos = Writer.bytes raw ++ buf.drop mid := by
  obtain ⟨len, start, hlen, hraw⟩ := bind_eq_ok h
  obtain ⟨rfl, -, -, hhead⟩ := num_eq_ok hlen
  obtain ⟨hlength, rfl, hend, hbuf⟩ := slice_eq_ok hraw
  have hexact : Js.number len = len := by
    refine Js.number_of_number_lt (lt_of_le_of_lt ?_ hfits)
    omega
  rw [hexact] at hlength hend
  refine ⟨by rw [hlength, hexact], by rwa [hexact], ?_⟩
  rw [hhead, hbuf, Writer.bytes, Writer.u64, hlength, List.append_assoc]

/-- Bytes with their length in front are written back as they were read. -/
theorem compares_bytes : ComparesField Js.FitsArray Reader.bytes Reader.bytes Writer.bytes
    fun _ => True :=
  ComparesField.same fun _ _ _ _ hfits h => ⟨trivial, (bytes_eq_ok hfits h).2.2⟩

/-- Bytes with their length in front end where they end. -/
theorem bytes_append_inj {raw raw' rest rest' : Bytes} (hraw : raw.length < 2 ^ 64)
    (hraw' : raw'.length < 2 ^ 64) (h : Writer.bytes raw ++ rest = Writer.bytes raw' ++ rest') :
    raw = raw' := by
  rw [Writer.bytes, Writer.bytes, List.append_assoc, List.append_assoc] at h
  obtain ⟨hlength, htail⟩ := List.append_inj h (by simp [Writer.u64])
  have heq := congrArg leValue hlength
  rw [Writer.u64, Writer.u64, leValue_leBytes_of_lt hraw, leValue_leBytes_of_lt hraw'] at heq
  exact (List.append_inj htail heq).1

/-- A text whose bytes are not canonical is written as others. -/
theorem bytes_ne_of_not_canonical {raw rest : Bytes} {text : String} (hfits : Js.FitsArray buf)
    (hbuf : buf.drop pos = Writer.bytes raw ++ rest) (htext : Js.textDecode raw = text)
    (hraw : ¬ Js.CanonicalText raw) (rest' : Bytes) :
    buf.drop pos ≠ Writer.string text ++ rest' := by
  intro heq
  have hbound : ∀ {enc tail : Bytes}, buf.drop pos = Writer.bytes enc ++ tail →
      enc.length < 2 ^ 64 := by
    intro enc tail hdrop
    have hlength := congrArg List.length hdrop
    rw [List.length_drop, List.length_append, Writer.bytes, List.length_append] at hlength
    have hsafe : buf.length < 2 ^ 53 := hfits
    omega
  have hsame := bytes_append_inj (hbound hbuf) (hbound heq) (hbuf ▸ heq)
  rw [← htext] at hsame
  exact hraw (Js.textEncode_textDecode_iff.mp hsame.symm)

/-- A text that is read is what its bytes are decoded to. -/
theorem string_eq_ok {text : String} (hfits : Js.FitsArray buf)
    (h : Reader.string buf pos = .ok (text, mid)) :
    ∃ raw, Reader.bytes buf pos = .ok (raw, mid) ∧ Js.textDecode raw = text ∧ pos + 8 ≤ mid ∧
      mid ≤ buf.length ∧ buf.drop pos = Writer.bytes raw ++ buf.drop mid := by
  obtain ⟨raw, last, hraw, htext⟩ := bind_eq_ok h
  obtain ⟨rfl, rfl⟩ := Prod.mk.inj (Except.ok.inj htext)
  obtain ⟨hmid, hend, hbuf⟩ := bytes_eq_ok hfits hraw
  exact ⟨raw, hraw, rfl, by omega, hend, hbuf⟩

/-- A text is written back to its bytes exactly when a strict reader takes them: UTF-8 without a
mark. -/
theorem compares_string :
    ComparesField Js.FitsArray Reader.string Reader.strictString Writer.string fun _ => True := by
  intro buf pos text mid hfits h
  refine ⟨trivial, ?_⟩
  obtain ⟨raw, hraw, htext, -, -, hbuf⟩ := string_eq_ok hfits h
  rw [Reader.strictString, bind_of_ok hraw]
  by_cases hcanonical : Js.CanonicalText raw
  · rw [if_pos hcanonical, htext]
    refine .inl ⟨rfl, ?_⟩
    rw [hbuf, Writer.string, ← htext, Js.textEncode_textDecode_iff.mpr hcanonical]
  · -- the strict reader fails, and the text has other bytes
    rw [if_neg hcanonical]
    exact .inr ⟨nofun, bytes_ne_of_not_canonical hfits hbuf htext hcanonical⟩

/-- An optional text has in addition a tag, which the decoder takes to be set when it is not `0`. -/
theorem compares_optString :
    ComparesField Js.FitsArray Reader.optString Reader.strictOptString Writer.optString
      fun _ => True := by
  intro buf pos value mid hfits h
  refine ⟨trivial, ?_⟩
  obtain ⟨tag, start, htag, hvalue⟩ := bind_eq_ok h
  obtain ⟨-, -, hsmall, hhead⟩ := num_eq_ok htag
  rw [Reader.strictOptString, bind_of_ok htag]
  by_cases hnone : tag = 0
  · rw [if_pos hnone] at hvalue ⊢
    obtain ⟨rfl, rfl⟩ := Prod.mk.inj (Except.ok.inj hvalue)
    subst hnone
    exact .inl ⟨rfl, hhead⟩
  · rw [if_neg hnone] at hvalue ⊢
    obtain ⟨text, last, htext, hsome⟩ := bind_eq_ok hvalue
    obtain ⟨rfl, rfl⟩ := Prod.mk.inj (Except.ok.inj hsome)
    by_cases hone : tag = 1
    · rw [if_pos hone]
      subst hone
      obtain ⟨-, ⟨hstrict, hbuf⟩ | ⟨hstrict, hbuf⟩⟩ :=
        compares_string buf start text last hfits htext
      · refine .inl ⟨?_, ?_⟩
        · rw [bind_of_ok hstrict]
          rfl
        · rw [hhead, hbuf, Writer.optString, List.append_assoc]
          rfl
      · refine .inr ⟨bind_ne_ok hstrict, fun rest heq => ?_⟩
        rw [hhead, Writer.optString, List.append_assoc] at heq
        exact hbuf rest (List.append_cancel_left heq)
    · rw [if_neg hone]
      refine .inr ⟨nofun, fun rest heq => ?_⟩
      -- the tag is another byte
      rw [hhead, Writer.optString, List.append_assoc] at heq
      have hbyte := congrArg leValue (List.append_inj heq (by simp [Writer.u8])).1
      rw [leValue_leBytes_of_lt hsmall, Writer.u8, leValue_leBytes_of_lt (by decide)] at hbyte
      exact hone hbyte

/-- A flag is read strictly by the decoder itself. -/
theorem compares_bool :
    ComparesField Js.FitsArray Reader.bool Reader.bool
      (fun b => Writer.u8 (if b then 1 else 0)) fun _ => True := by
  refine ComparesField.same fun buf pos value mid _ h => ⟨trivial, ?_⟩
  obtain ⟨n, start, hn, hvalue⟩ := bind_eq_ok h
  obtain ⟨-, -, -, hhead⟩ := num_eq_ok hn
  split_ifs at hvalue with hlarge
  · cases hvalue
  · obtain ⟨rfl, rfl⟩ := Prod.mk.inj (Except.ok.inj hvalue)
    have hcases : n = 0 ∨ n = 1 := by omega
    obtain rfl | rfl := hcases
    · exact hhead
    · exact hhead

/-- The bytes of an optional value. -/
def writeOption {α : Type} (write : α → Bytes) : Option α → Bytes
  | none => Writer.u8 0
  | some value => Writer.u8 1 ++ write value

/-- An optional value compares as the value behind its tag does. -/
theorem compares_option {α : Type} {p q : Reader α} {write : α → Bytes} {fact : α → Prop}
    (h : ComparesField Js.FitsArray p q write fact) :
    ComparesField Js.FitsArray (Reader.option p) (Reader.option q) (writeOption write)
      fun _ => True := by
  refine Compares.toField (compares_u8.bind fun tag _ => ?_)
  split_ifs with hlarge hnone
  · exact Compares.fail
  · subst hnone
    exact Compares.pure rfl
  · have hone : tag = 1 := by omega
    subst hone
    exact h.bind fun value _ => Compares.pure rfl

/-- A number that names a value by its index. -/
theorem compares_indexed {α : Type} [DecidableEq α] {values : List α} (hnodup : values.Nodup)
    (what : String) :
    ComparesField Js.FitsArray (readIndexed values what) (readIndexed values what)
      (fun value => Writer.u32 (values.idxOf value)) fun _ => True := by
  refine ComparesField.same fun buf pos value mid _ h => ⟨trivial, ?_⟩
  obtain ⟨index, start, hindex, hvalue⟩ := bind_eq_ok h
  obtain ⟨-, -, -, hhead⟩ := num_eq_ok hindex
  cases hget : values[index]? with
  | none =>
    rw [hget] at hvalue
    cases hvalue
  | some found =>
    rw [hget] at hvalue
    obtain ⟨rfl, rfl⟩ := Prod.mk.inj (Except.ok.inj hvalue)
    obtain ⟨hbound, rfl⟩ := List.getElem?_eq_some_iff.mp hget
    rw [hnodup.idxOf_getElem index hbound]
    exact hhead

end Fields

/-! ### Service requests -/

theorem writeFixed_of_length {value : Bytes} {length : ℕ} {name : String}
    (h : value.length = length) : writeFixed value length name = .ok (Writer.fixedBytes value) :=
  if_pos h

/-- A header compares as its two texts do. -/
theorem compares_header :
    ComparesField Js.FitsArray readHeader readStrictHeader writeHeader fun _ => True :=
  Compares.toField (compares_string.bind fun _ _ => compares_string.bind fun _ _ =>
    Compares.pure rfl)

/-- The number of headers that were read is exact. -/
theorem compares_headers (count : ℕ) :
    ComparesField Js.FitsArray (ByteReader.replicate readHeader (Js.number count))
      (ByteReader.replicate readStrictHeader (Js.number count))
      (fun headers => headers.flatMap writeHeader) fun headers => headers.length = count := by
  refine (compares_header.replicate _).with_fact fun buf pos headers mid hfits hread => ?_
  -- each header has at least the two lengths, so that there are fewer than bytes
  have hadvance : ∀ pos header mid, readHeader buf pos = .ok (header, mid) →
      pos < mid ∧ mid ≤ buf.length := by
    intro pos header mid hheader
    obtain ⟨name, next, hname, hheader⟩ := bind_eq_ok hheader
    obtain ⟨value, last, hvalue, hmake⟩ := bind_eq_ok hheader
    obtain ⟨rfl, rfl⟩ := Prod.mk.inj (Except.ok.inj hmake)
    obtain ⟨-, -, -, hnext, -, -⟩ := string_eq_ok hfits hname
    obtain ⟨-, -, -, hlast, hend, -⟩ := string_eq_ok hfits hvalue
    exact ⟨by omega, hend⟩
  obtain ⟨hlength, hbound⟩ := ByteReader.length_of_replicate hadvance hread
  rw [hlength]
  have hsafe : buf.length < Js.safeBound := hfits
  refine Js.number_of_number_lt ?_
  obtain hnone | hsome := Nat.eq_zero_or_pos (Js.number count)
  · rw [hnone]
    decide
  · have hle := hbound hsome
    omega

/-- A list that has to be empty is written back as an empty one. -/
theorem compares_noSurbs (variant what : String) :
    ComparesField Js.FitsArray (readNoSurbs variant what) (readNoSurbs variant what)
      (fun _ => Writer.u64 0) fun _ => True := by
  refine ComparesField.same fun buf pos value mid _ h => ⟨trivial, ?_⟩
  obtain ⟨count, start, hcount, hvalue⟩ := bind_eq_ok h
  obtain ⟨-, -, -, hhead⟩ := num_eq_ok hcount
  split_ifs at hvalue with hsome
  · cases hvalue
  · obtain ⟨rfl, rfl⟩ := Prod.mk.inj (Except.ok.inj hvalue)
    have hexact : Js.number count = count := by
      refine Js.number_of_number_lt (lt_of_le_of_lt (not_lt.mp hsome) (by decide))
    obtain rfl : count = 0 := by omega
    exact hhead

/-- A paid transaction has fields of fixed widths and bytes only, so it is always written back as it
was read. -/
theorem compares_paidTransactionV2 :
    Compares Js.FitsArray readPaidTransactionV2 readPaidTransactionV2 []
      writePaidTransactionV2 := by
  refine compares_u64.bind fun chainId _ => (compares_fixedBytes 20).bind fun entryPoint hentry =>
    compares_bytes.bind fun calldata _ =>
    (compares_fixedBytes 32).bind fun executionId hexecution =>
    compares_u64.bind fun validUntilUnix _ => Compares.pure ?_
  simp only [writePaidTransactionV2, writeFixed_of_length hentry, writeFixed_of_length hexecution,
    ok_bind, pure_eq_ok, List.nil_append, List.append_assoc]

/-- A request for a quote is always written back as it was read. -/
theorem compares_paidQuoteRequestV2 :
    Compares Js.FitsArray readPaidQuoteRequestV2 readPaidQuoteRequestV2 []
      writePaidQuoteRequestV2 := by
  refine compares_u64.bind fun chainId _ => (compares_fixedBytes 20).bind fun entryPoint h1 =>
    (compares_fixedBytes 32).bind fun clientIntentId h2 =>
    (compares_fixedBytes 20).bind fun paymentAdapter h3 =>
    (compares_fixedBytes 32).bind fun paymentId h4 =>
    (compares_fixedBytes 20).bind fun feeAsset h5 =>
    compares_u64.bind fun paymentGasLimit _ => (compares_fixedBytes 20).bind fun actionTarget h6 =>
    (compares_fixedBytes 32).bind fun actionCalldataHash h7 =>
    compares_u64.bind fun actionGasLimit _ =>
    (compares_fixedBytes 32).bind fun trackedAssetsHash h8 =>
    compares_u64.bind fun maximumTransactionGas _ => compares_u32.bind fun returnDataLimit _ =>
    compares_u64.bind fun validUntilUnix _ => Compares.pure ?_
  simp only [writePaidQuoteRequestV2, writeFixed_of_length h1, writeFixed_of_length h2,
    writeFixed_of_length h3, writeFixed_of_length h4, writeFixed_of_length h5,
    writeFixed_of_length h6, writeFixed_of_length h7, writeFixed_of_length h8, ok_bind,
    pure_eq_ok, List.nil_append, List.append_assoc]

/-- The opening of a tunnel compares as its host does. -/
theorem compares_tunnelOpen :
    ComparesField Js.FitsArray readTunnelOpen readStrictTunnelOpen
      (fun open_ => Writer.string open_.host ++ Writer.u16 open_.port) fun _ => True :=
  Compares.toField (compares_string.bind fun _ _ => compares_u16.bind fun _ _ =>
    Compares.pure rfl)

/-- The encoder refuses what only the strict reader refuses. -/
theorem compares_tunnelV1 :
    Compares Js.FitsArray readTunnelV1 readStrictTunnelV1 [] writeTunnelV1 := by
  refine (compares_fixedBytes tunnelIdLen).bind fun tunnelId hid => compares_u32.bind fun seq _ =>
    (compares_option compares_tunnelOpen).bind fun open_ _ => compares_u64.bind fun ackOffset _ =>
    compares_bytes.bind fun data _ => compares_bool.bind fun close _ =>
    compares_u32.bind fun holdMs _ => ?_
  have hopen : writeTunnelOpen open_ = writeOption
      (fun open_ => Writer.string open_.host ++ Writer.u16 open_.port) open_ := by
    cases open_ <;> rfl
  intro buf pos value mid _ hread
  obtain ⟨rfl, rfl⟩ := Prod.mk.inj (Except.ok.inj hread)
  by_cases hplace : open_.isSome ≠ decide (seq = 0)
  · -- the decoder accepts an opening anywhere, the encoder only at sequence number `0`
    rw [if_pos hplace]
    refine .refused nofun fun out hout => ?_
    rw [writeTunnelV1, writeFixed_of_length hid, ok_bind, if_pos hplace] at hout
    cases hout
  · rw [if_neg hplace]
    refine .canonical [] rfl ?_ rfl
    rw [writeTunnelV1, writeFixed_of_length hid, ok_bind, if_neg hplace, hopen]
    simp only [pure_eq_ok, List.nil_append, List.append_nil, List.append_assoc]

/-- The strict reader of a service request against the reader of the decoder. -/
theorem compares_serviceRequest :
    Compares Js.FitsArray readServiceRequest readStrictServiceRequest [] writeServiceRequest := by
  refine compares_u32.bind fun variant _ => ?_
  match variant with
  | 0 => exact compares_bytes.bind fun data _ => Compares.pure rfl
  | 1 =>
    refine compares_string.bind fun method _ => compares_string.bind fun url _ =>
      compares_u64.bind fun count _ => (compares_headers count).bind fun headers hheaders =>
      compares_bytes.bind fun body _ => Compares.pure ?_
    rw [writeServiceRequest, hheaders]
    simp only [List.nil_append, List.append_assoc]
  | 2 =>
    refine compares_string.bind fun method _ => compares_bytes.bind fun params _ =>
      compares_u64.bind fun id _ => compares_optString.bind fun rpcUrl _ => Compares.pure ?_
    simp only [writeServiceRequest, List.nil_append, List.append_assoc]
  | 3 =>
    refine (compares_fixedBytes 20).bind fun to_ hto => compares_bytes.bind fun data _ =>
      Compares.pure ?_
    simp only [writeServiceRequest, writeFixed_of_length hto, ok_bind, pure_eq_ok,
      List.nil_append, List.append_assoc]
  | 4 =>
    refine compares_bytes.bind fun signedTx _ => compares_optString.bind fun rpcUrl _ =>
      compares_optString.bind fun rpcMethod _ => Compares.pure ?_
    simp only [writeServiceRequest, List.nil_append, List.append_assoc]
  | 5 =>
    refine compares_u64.bind fun requestId _ => (compares_noSurbs _ _).bind fun _ _ =>
      Compares.pure ?_
    simp only [writeServiceRequest, writeSurbs, List.length_nil, List.flatMap_nil,
      List.nil_append, List.append_assoc, List.append_nil]
  | 6 =>
    refine compares_paidTransactionV2.map fun req => ?_
    rw [writeServiceRequest]
    cases writePaidTransactionV2 req <;> rfl
  | 7 =>
    refine compares_paidQuoteRequestV2.map fun req => ?_
    rw [writeServiceRequest]
    cases writePaidQuoteRequestV2 req <;> rfl
  | 8 =>
    refine compares_tunnelV1.map fun req => ?_
    rw [writeServiceRequest]
    cases writeTunnelV1 req <;> rfl
  -- no variant has this tag
  | variant + 9 => exact Compares.fail

/-! ### Rejections -/

/-- The detail of a rejection, as the end of its record. -/
theorem compares_detail (invalid : String → Thrown) {written : Bytes}
    {code : PaidTransactionRejectionCodeV2} {retryable : Bool}
    (hwritten : ∀ detail, writePaidV2Rejection ⟨code, retryable, detail⟩ =
      if (Js.textEncode detail).length = 0 ∨
          maxSubmitRejectionDetailBytes < (Js.textEncode detail).length ∨
          detail.toList.any isControl then
        .error (invalidV2Encoding "rejection detail is empty, oversized, or contains controls")
      else .ok (written ++ Writer.bytes (Js.textEncode detail))) :
    Compares Js.FitsArray
      (readDetail invalid >>= fun detail => pure (⟨code, retryable, detail⟩ : PaidV2Rejection))
      (readStrictDetail invalid >>= fun detail =>
        pure (⟨code, retryable, detail⟩ : PaidV2Rejection))
      written writePaidV2Rejection := by
  intro buf pos value last hfits hread
  obtain ⟨detail, mid, hdetail, hmake⟩ := bind_eq_ok hread
  obtain ⟨rfl, rfl⟩ := Prod.mk.inj (Except.ok.inj hmake)
  obtain ⟨raw, next, hraw, hdetail⟩ := bind_eq_ok hdetail
  obtain ⟨-, -, hbuf⟩ := bytes_eq_ok hfits hraw
  split_ifs at hdetail with hsize
  · cases hdetail
  cases hfatal : Js.textDecodeFatal raw with
  | none =>
    rw [hfatal] at hdetail
    cases hdetail
  | some text =>
    rw [hfatal] at hdetail
    dsimp only at hdetail
    split_ifs at hdetail with hcontrol
    · cases hdetail
    obtain ⟨rfl, rfl⟩ := Prod.mk.inj (Except.ok.inj hdetail)
    have htext := Js.textDecode_of_fatal hfatal
    -- the strict reader refuses only what is not canonical
    have hstrict : readStrictDetail invalid buf pos =
        if Js.CanonicalText raw then .ok (text, next)
        else .error (invalid "rejection detail is not canonical") := by
      rw [readStrictDetail, bind_of_ok hraw, if_neg hsize, hfatal]
      dsimp only
      rw [if_neg hcontrol]
      split_ifs <;> rfl
    by_cases hcanonical : Js.CanonicalText raw
    · have hsame : Js.textEncode text = raw := by
        rw [← htext, Js.textEncode_textDecode_iff.mpr hcanonical]
      rw [if_pos hcanonical] at hstrict
      refine .canonical (Writer.bytes raw) ?_ ?_ hbuf
      · rw [bind_of_ok hstrict]
        rfl
      · rw [not_or] at hsize
        rw [hwritten, hsame, if_neg (by rw [not_or, not_or]; exact ⟨hsize.1, hsize.2, hcontrol⟩)]
    · -- the encoder checks the decoded text: it refuses it or writes other bytes
      rw [if_neg hcanonical] at hstrict
      have hfails : ∀ result, readStrictDetail invalid buf pos ≠ .ok result := by
        intro result
        rw [hstrict]
        exact nofun
      by_cases hrefused : (Js.textEncode text).length = 0 ∨
          maxSubmitRejectionDetailBytes < (Js.textEncode text).length ∨
          text.toList.any isControl
      · refine .refused (bind_ne_ok hfails) fun out hout => ?_
        rw [hwritten, if_pos hrefused] at hout
        cases hout
      · refine .different (Writer.bytes (Js.textEncode text)) (bind_ne_ok hfails) ?_ ?_
        · rw [hwritten, if_neg hrefused]
        · exact bytes_ne_of_not_canonical hfits hbuf htext hcanonical

/-- A rejection compares as its detail does, a case for each reason. -/
theorem compares_rejection (invalid : String → Thrown) :
    Compares Js.FitsArray (readPaidV2Rejection invalid) (readStrictPaidV2Rejection invalid) []
      writePaidV2Rejection := by
  have hnodup : paidTransactionRejectionCodesV2.Nodup := by decide
  refine compares_u32.bind fun index _ => ?_
  cases hcode : paidTransactionRejectionCodesV2[index]? with
  | none => exact Compares.fail
  | some code =>
    have hindex : paidTransactionRejectionCodesV2.idxOf? code = some index := by
      obtain ⟨hbound, rfl⟩ := List.getElem?_eq_some_iff.mp hcode
      rw [List.idxOf?_eq_some_iff]
      refine ⟨hbound, by simp, fun j hj => ?_⟩
      have hne := (@List.Nodup.getElem_inj_iff _ _ hnodup j (hj.trans hbound) index
        hbound).not.mpr hj.ne
      simpa using hne
    refine compares_u8.bind fun retryable _ => ?_
    split_ifs with hflag
    · exact Compares.fail
    · refine compares_detail invalid fun detail => ?_
      have hbyte : (if decide (retryable = 1) then 1 else 0) = retryable := by
        rw [not_and_or, not_ne_iff, not_ne_iff] at hflag
        obtain rfl | rfl := hflag
        · rfl
        · rfl
      rw [writePaidV2Rejection, hindex]
      simp only [hbyte, List.nil_append, List.append_assoc]

/-! ### Outcomes and replies -/

/-- The writer of an outcome, without the version. -/
def writePaidTransactionOutcomeV2 : PaidTransactionOutcomeV2 → Except Thrown Bytes
  | .submitted executionId transactionHash => do
    let executionId ← writeFixed executionId 32 "PaidTransactionOutcomeV2.executionId"
    let transactionHash ← writeFixed transactionHash 32 "PaidTransactionOutcomeV2.transactionHash"
    return Writer.u32 0 ++ (executionId ++ transactionHash)
  | .rejected executionId rejection => do
    let executionId ← writeExecutionId executionId
    let rejection ← writePaidV2Rejection rejection
    return Writer.u32 1 ++ (executionId ++ rejection)

theorem encodePaidTransactionOutcomeV2_eq (outcome : PaidTransactionOutcomeV2) :
    encodePaidTransactionOutcomeV2 outcome =
      (writePaidTransactionOutcomeV2 outcome).map fun body => Writer.u8 payloadVersion ++ body := by
  cases outcome with
  | submitted executionId transactionHash =>
    rw [encodePaidTransactionOutcomeV2, writePaidTransactionOutcomeV2]
    cases writeFixed executionId 32 "PaidTransactionOutcomeV2.executionId" with
    | error e => rfl
    | ok executionId =>
      cases writeFixed transactionHash 32 "PaidTransactionOutcomeV2.transactionHash" <;> rfl
  | rejected executionId rejection =>
    rw [encodePaidTransactionOutcomeV2, writePaidTransactionOutcomeV2]
    cases writeExecutionId executionId with
    | error e => rfl
    | ok executionId => cases writePaidV2Rejection rejection <;> rfl

/-- The outcome of a transaction compares variant by variant. -/
theorem compares_transactionOutcome :
    Compares Js.FitsArray readPaidTransactionOutcomeV2 readStrictPaidTransactionOutcomeV2 []
      writePaidTransactionOutcomeV2 := by
  refine compares_u32.bind fun variant _ => ?_
  match variant with
  | 0 =>
    refine (compares_fixedBytes 32).bind fun executionId hexecution =>
      (compares_fixedBytes 32).bind fun transactionHash htransaction => Compares.pure ?_
    simp only [writePaidTransactionOutcomeV2, writeFixed_of_length hexecution,
      writeFixed_of_length htransaction, ok_bind, pure_eq_ok, List.nil_append, List.append_assoc]
  | 1 =>
    refine compares_u8.bind fun option _ => ?_
    split_ifs with hoption hsome
    · exact Compares.fail
    · refine (compares_fixedBytes 32).bind fun executionId hexecution => ?_
      refine (compares_rejection invalidV2Outcome).map fun rejection => ?_
      subst hsome
      rw [writePaidTransactionOutcomeV2, writeExecutionId, writeFixed_of_length hexecution]
      cases writePaidV2Rejection rejection with
      | error e => rfl
      | ok fields =>
        simp only [ok_bind, pure_eq_ok, Except.map, List.nil_append, List.append_assoc]
    · refine (compares_rejection invalidV2Outcome).map fun rejection => ?_
      obtain rfl : option = 0 := by omega
      rw [writePaidTransactionOutcomeV2, writeExecutionId]
      cases writePaidV2Rejection rejection with
      | error e => rfl
      | ok fields =>
        simp only [ok_bind, pure_eq_ok, Except.map, List.nil_append, List.append_assoc]
  | variant + 2 => exact Compares.fail

/-- The writer of an outcome, without the version. -/
def writePaidQuoteOutcomeV2 : PaidQuoteOutcomeV2 → Except Thrown Bytes
  | .issued quote executionId exitSignature => do
    let quote ← writeExecutionQuoteV1 quote
    let executionId ← writeFixed executionId 32 "PaidQuoteOutcomeV2.executionId"
    let exitSignature ← writeFixed exitSignature 65 "PaidQuoteOutcomeV2.exitSignature"
    return Writer.u32 0 ++ (quote ++ (executionId ++ Writer.bytes exitSignature))
  | .rejected rejection => do
    let rejection ← writePaidV2Rejection rejection
    return Writer.u32 1 ++ rejection

theorem encodePaidQuoteOutcomeV2_eq (outcome : PaidQuoteOutcomeV2) :
    encodePaidQuoteOutcomeV2 outcome =
      (writePaidQuoteOutcomeV2 outcome).map fun body => Writer.u8 payloadVersion ++ body := by
  cases outcome with
  | issued quote executionId exitSignature =>
    rw [encodePaidQuoteOutcomeV2, writePaidQuoteOutcomeV2]
    cases writeExecutionQuoteV1 quote with
    | error e => rfl
    | ok quote =>
      cases writeFixed executionId 32 "PaidQuoteOutcomeV2.executionId" with
      | error e => rfl
      | ok executionId =>
        cases writeFixed exitSignature 65 "PaidQuoteOutcomeV2.exitSignature" <;> rfl
  | rejected rejection =>
    rw [encodePaidQuoteOutcomeV2, writePaidQuoteOutcomeV2]
    cases writePaidV2Rejection rejection <;> rfl

/-- A quote is written as it was read. -/
theorem compares_quote :
    ComparesField Js.FitsArray readExecutionQuoteV1 readExecutionQuoteV1
      (fun quote => ((writeExecutionQuoteV1 quote).toOption).getD [])
      fun quote => ∃ fields, writeExecutionQuoteV1 quote = .ok fields := by
  refine Compares.toField_of_same ?_
  refine compares_u8.bind fun quoteVersion _ =>
    (compares_fixedBytes 32).bind fun chainId h1 =>
    (compares_fixedBytes 20).bind fun entryPoint h2 =>
    (compares_fixedBytes 20).bind fun exitAddress h3 =>
    (compares_fixedBytes 32).bind fun clientIntentId h4 =>
    (compares_fixedBytes 20).bind fun paymentAdapter h5 =>
    (compares_fixedBytes 32).bind fun paymentId h6 =>
    (compares_fixedBytes 20).bind fun feeAsset h7 => (compares_fixedBytes 32).bind fun exitFee h8 =>
    (compares_fixedBytes 32).bind fun networkFee h9 =>
    (compares_fixedBytes 32).bind fun paymentGasLimit h10 =>
    (compares_fixedBytes 20).bind fun actionTarget h11 =>
    (compares_fixedBytes 32).bind fun actionCalldataHash h12 =>
    (compares_fixedBytes 32).bind fun actionGasLimit h13 =>
    (compares_fixedBytes 32).bind fun trackedAssetsHash h14 =>
    (compares_fixedBytes 32).bind fun maximumTransactionGas h15 =>
    (compares_fixedBytes 32).bind fun maximumFeePerGas h16 =>
    (compares_fixedBytes 32).bind fun returnDataLimit h17 =>
    compares_u64.bind fun validAfterUnix _ => compares_u64.bind fun validUntilUnix _ =>
    (compares_fixedBytes 32).bind fun quoteNonce h18 => Compares.pure ?_
  simp only [writeExecutionQuoteV1, writeFixed_of_length h1, writeFixed_of_length h2,
    writeFixed_of_length h3, writeFixed_of_length h4, writeFixed_of_length h5,
    writeFixed_of_length h6, writeFixed_of_length h7, writeFixed_of_length h8,
    writeFixed_of_length h9, writeFixed_of_length h10, writeFixed_of_length h11,
    writeFixed_of_length h12, writeFixed_of_length h13, writeFixed_of_length h14,
    writeFixed_of_length h15, writeFixed_of_length h16, writeFixed_of_length h17,
    writeFixed_of_length h18, ok_bind, pure_eq_ok, List.nil_append, List.append_assoc]

/-- The outcome of a request for a quote compares variant by variant. -/
theorem compares_quoteOutcome :
    Compares Js.FitsArray readPaidQuoteOutcomeV2 readStrictPaidQuoteOutcomeV2 []
      writePaidQuoteOutcomeV2 := by
  refine compares_u32.bind fun variant _ => ?_
  match variant with
  | 0 =>
    refine compares_quote.bind fun quote hquote => (compares_fixedBytes 32).bind
      fun executionId hexecution => compares_bytes.bind fun exitSignature _ => ?_
    split_ifs with hlength
    · exact Compares.fail
    · obtain ⟨fields, hfields⟩ := hquote
      refine Compares.pure ?_
      simp only [writePaidQuoteOutcomeV2, hfields, writeFixed_of_length hexecution,
        writeFixed_of_length (not_not.mp hlength), ok_bind, pure_eq_ok, List.nil_append,
        List.append_assoc, Except.toOption, Option.getD_some, Writer.fixedBytes]
  | 1 =>
    refine (compares_rejection invalidQuoteOutcome).map fun rejection => ?_
    rw [writePaidQuoteOutcomeV2]
    cases writePaidV2Rejection rejection <;> rfl
  | variant + 2 => exact Compares.fail

/-- The writer of a tunnel reply, without the version. -/
def writeTunnelReplyV1 : TunnelReplyV1 → Bytes
  | .data seq part => Writer.u32 0 ++ (Writer.u32 seq ++ (Writer.u64 part.offset ++
      (Writer.bytes part.data ++ writeFin part.fin)))
  | .rejected seq code retryable detail => Writer.u32 1 ++ (Writer.u32 seq ++
      (Writer.u32 (tunnelRejectCodesV1.idxOf code) ++
      (Writer.u8 (if retryable then 1 else 0) ++ Writer.string detail)))

theorem encodeTunnelReplyV1_eq (reply : TunnelReplyV1) :
    encodeTunnelReplyV1 reply = Writer.u8 payloadVersion ++ writeTunnelReplyV1 reply := by
  cases reply <;> rfl

/-- A reply of a tunnel compares variant by variant. -/
theorem compares_tunnelReply :
    Compares Js.FitsArray readTunnelReplyV1 readStrictTunnelReplyV1 []
      fun reply => (.ok (writeTunnelReplyV1 reply) : Except Thrown Bytes) := by
  refine compares_u32.bind fun variant _ => ?_
  match variant with
  | 0 =>
    refine compares_u32.bind fun seq _ => compares_u64.bind fun offset _ =>
      compares_bytes.bind fun data _ => ?_
    split_ifs with hlarge
    · exact Compares.fail
    · have hnodup : tunnelFinV1.Nodup := by decide
      refine (compares_option (compares_indexed hnodup "fin")).bind fun fin _ => Compares.pure ?_
      have hfin : writeFin fin =
          writeOption (fun fin => Writer.u32 (tunnelFinV1.idxOf fin)) fin := by
        cases fin <;> rfl
      rw [writeTunnelReplyV1, hfin]
      simp only [List.nil_append, List.append_assoc]
  | 1 =>
    have hnodup : tunnelRejectCodesV1.Nodup := by decide
    refine compares_u32.bind fun seq _ => (compares_indexed hnodup "reject code").bind
      fun code _ => compares_bool.bind fun retryable _ => ?_
    intro buf pos value mid hfits hread
    obtain ⟨raw, next, hraw, hdetail⟩ := bind_eq_ok hread
    obtain ⟨-, -, hbuf⟩ := bytes_eq_ok hfits hraw
    split_ifs at hdetail with hlarge
    · cases hdetail
    obtain ⟨rfl, rfl⟩ := Prod.mk.inj (Except.ok.inj hdetail)
    rw [bind_of_ok hraw, if_neg hlarge]
    have hwritten : writeTunnelReplyV1 (.rejected seq code retryable (Js.textDecode raw)) =
        ([] ++ Writer.u32 1 ++ Writer.u32 seq ++ Writer.u32 (tunnelRejectCodesV1.idxOf code) ++
          Writer.u8 (if retryable then 1 else 0)) ++ Writer.string (Js.textDecode raw) := by
      simp only [writeTunnelReplyV1, List.nil_append, List.append_assoc]
    by_cases hcanonical : Js.CanonicalText raw
    · rw [if_pos hcanonical]
      refine .canonical (Writer.string (Js.textDecode raw)) rfl (congrArg _ hwritten) ?_
      rw [Writer.string, Js.textEncode_textDecode_iff.mpr hcanonical]
      exact hbuf
    · rw [if_neg hcanonical]
      exact .different _ nofun (congrArg _ hwritten)
        (bytes_ne_of_not_canonical hfits hbuf rfl hcanonical)
  | variant + 2 => exact Compares.fail

/-! ### Decoders -/

section Decoders

variable {α : Type} {p q : Reader α} {write : α → Except Thrown Bytes} {bytes : Bytes} {value : α}
  {name : String}

/-- A decoder over a reader: the version, the fields, the end. -/
def decodeWith (p : Reader α) (name : String) (bytes : Bytes) : Except Thrown α := do
  checkVersion bytes
  let (value, pos) ← p bytes 1
  expectEnd bytes pos name
  return value

/-- The strict reader returns on the bytes behind the version. -/
def StrictlyRead (q : Reader α) (bytes : Bytes) : Prop := (q bytes 1).isOk = true

instance (q : Reader α) (bytes : Bytes) : Decidable (StrictlyRead q bytes) :=
  inferInstanceAs (Decidable (_ = true))

/-- A decoder that returns a value read the version and then all of the bytes. -/
theorem decodeWith_eq_ok (h : decodeWith p name bytes = .ok value) :
    p bytes 1 = .ok (value, bytes.length) ∧
      bytes = Writer.u8 payloadVersion ++ bytes.drop 1 := by
  rw [decodeWith, bind_eq_ok_iff] at h
  obtain ⟨_, hversion, h⟩ := h
  obtain ⟨⟨found, pos⟩, hread, h⟩ := bind_eq_ok_iff.mp h
  obtain ⟨_, hend, hvalue⟩ := bind_eq_ok_iff.mp h
  obtain rfl := Except.ok.inj hvalue
  have hpos : pos = bytes.length := by
    by_contra hne
    rw [expectEnd, if_pos hne] at hend
    cases hend
  refine ⟨hpos ▸ hread, ?_⟩
  cases bytes with
  | nil => cases hversion
  | cons version rest =>
    -- the version was checked, so it is the byte the encoder writes
    rw [checkVersion] at hversion
    split_ifs at hversion with hother
    have hone : version = 1 := UInt8.toNat_inj.mp (not_not.mp hother)
    rw [hone]
    rfl

/-- What is decoded is encoded to the bytes it came from exactly when they are strictly read. -/
theorem Compares.decodeWith_iff (h : Compares Js.FitsArray p q [] write)
    (hfits : Js.FitsArray bytes) (hdecode : decodeWith p name bytes = .ok value) :
    ((write value).map fun body => Writer.u8 payloadVersion ++ body) = .ok bytes ↔
      StrictlyRead q bytes := by
  obtain ⟨hread, hbytes⟩ := decodeWith_eq_ok hdecode
  rw [StrictlyRead]
  cases h bytes 1 value bytes.length hfits hread with
  | canonical enc hstrict houtput hbuf =>
    rw [List.drop_length, List.append_nil] at hbuf
    rw [hstrict, houtput]
    refine iff_of_true ?_ rfl
    rw [hbytes, hbuf]
    rfl
  | different enc hstrict houtput hbuf =>
    rw [houtput]
    refine iff_of_false (fun heq => ?_) ?_
    · have hsame := Except.ok.inj heq
      rw [hbytes] at hsame
      refine hbuf [] ?_
      rw [List.append_nil]
      exact (List.append_cancel_left hsame).symm
    · cases hq : q bytes 1 with
      | error e => exact Bool.false_ne_true
      | ok result => exact absurd hq (hstrict result)
  | refused hstrict houtput =>
    refine iff_of_false (fun heq => ?_) ?_
    · cases hwrite : write value with
      | error e =>
        rw [hwrite] at heq
        cases heq
      | ok body => exact houtput body hwrite
    · cases hq : q bytes 1 with
      | error e => exact Bool.false_ne_true
      | ok result => exact absurd hq (hstrict result)

end Decoders

theorem encodeServiceRequest_eq (request : ServiceRequest) :
    encodeServiceRequest request =
      (writeServiceRequest request).map fun body => Writer.u8 payloadVersion ++ body := by
  rw [encodeServiceRequest]
  cases writeServiceRequest request <;> rfl

/-- What a strict decoder returns is encoded to the bytes it was given exactly when the tags of
optional strings are `0` or `1`, texts are UTF-8 without a byte order mark in front, and a tunnel
request has an opening exactly at sequence number `0`.

A decoder is compared, field by field, with a strict reader of the same layout and with what its
value is encoded to (`Compares`): the comparison of a whole decoder is composed of those of its
fields, and the fields that can differ are the ones the condition names. -/
theorem strict_decoders_canonical_iff (bytes : Bytes) (hfits : Js.FitsArray bytes) :
    (∀ request, decodeServiceRequest bytes = .ok request →
      (encodeServiceRequest request = .ok bytes ↔
        StrictlyRead readStrictServiceRequest bytes)) ∧
    (∀ outcome, decodePaidTransactionOutcomeV2 bytes = .ok outcome →
      (encodePaidTransactionOutcomeV2 outcome = .ok bytes ↔
        StrictlyRead readStrictPaidTransactionOutcomeV2 bytes)) ∧
    (∀ outcome, decodePaidQuoteOutcomeV2 bytes = .ok outcome →
      (encodePaidQuoteOutcomeV2 outcome = .ok bytes ↔
        StrictlyRead readStrictPaidQuoteOutcomeV2 bytes)) ∧
    (∀ reply, decodeTunnelReplyV1 bytes = .ok reply →
      (encodeTunnelReplyV1 reply = bytes ↔ StrictlyRead readStrictTunnelReplyV1 bytes)) := by
  refine ⟨fun request hdecode => ?_, fun outcome hdecode => ?_, fun outcome hdecode => ?_,
    fun reply hdecode => ?_⟩
  · rw [encodeServiceRequest_eq]
    exact Compares.decodeWith_iff compares_serviceRequest hfits hdecode
  · rw [encodePaidTransactionOutcomeV2_eq]
    exact Compares.decodeWith_iff compares_transactionOutcome hfits hdecode
  · rw [encodePaidQuoteOutcomeV2_eq]
    exact Compares.decodeWith_iff compares_quoteOutcome hfits hdecode
  · rw [encodeTunnelReplyV1_eq, ← Compares.decodeWith_iff compares_tunnelReply hfits hdecode]
    exact (Except.ok.injEq _ _).symm ▸ Iff.rfl

/-- An RPC request whose optional URL has the tag `tag`. -/
def taggedRequest (tag : UInt8) : Bytes :=
  [1, 2, 0, 0, 0] ++ (List.replicate 24 0 ++ (tag :: List.replicate 8 0))

/-- The body of a rejection with the detail `a` behind a byte order mark. -/
def markedRejection : Bytes :=
  [0, 0, 0, 0, 0, 4, 0, 0, 0, 0, 0, 0, 0, 0xEF, 0xBB, 0xBF, 0x61]

/-- A tunnel rejection whose detail is the byte `0xFF`. -/
def brokenDetail : Bytes :=
  [1, 1, 0, 0, 0, 7, 0, 0, 0, 0, 0, 0, 0, 0, 1, 0, 0, 0, 0, 0, 0, 0, 0xFF]

theorem strict_decoders_canonical_iff_sample :
    (encodeServiceRequest (.rpcRequest "" [] 0 (some "")) = .ok (taggedRequest 1) ↔
      StrictlyRead readStrictServiceRequest (taggedRequest 1)) ∧
    (encodePaidTransactionOutcomeV2 (.rejected none ⟨.malformedRequest, false, "a"⟩) =
        .ok ([1, 1, 0, 0, 0, 0] ++ markedRejection) ↔
      StrictlyRead readStrictPaidTransactionOutcomeV2 ([1, 1, 0, 0, 0, 0] ++ markedRejection)) ∧
    (encodePaidQuoteOutcomeV2 (.rejected ⟨.malformedRequest, false, "a"⟩) =
        .ok ([1, 1, 0, 0, 0] ++ markedRejection) ↔
      StrictlyRead readStrictPaidQuoteOutcomeV2 ([1, 1, 0, 0, 0] ++ markedRejection)) ∧
    (encodeTunnelReplyV1 (.rejected 7 .malformed false "\uFFFD") = brokenDetail ↔
      StrictlyRead readStrictTunnelReplyV1 brokenDetail) :=
  ⟨(strict_decoders_canonical_iff _ (by decide)).1 _ (by decide +kernel),
    (strict_decoders_canonical_iff _ (by decide)).2.1 _ (by decide +kernel),
    (strict_decoders_canonical_iff _ (by decide)).2.2.1 _ (by decide +kernel),
    (strict_decoders_canonical_iff _ (by decide)).2.2.2 _ (by decide +kernel)⟩

/-- Each of the decoders accepts bytes that are not those of the value. -/
theorem not_strict_decoders_canonical :
    ¬ (∀ bytes request, decodeServiceRequest bytes = .ok request →
      encodeServiceRequest request = .ok bytes) ∧
    ¬ (∀ bytes outcome, decodePaidTransactionOutcomeV2 bytes = .ok outcome →
      encodePaidTransactionOutcomeV2 outcome = .ok bytes) ∧
    ¬ (∀ bytes outcome, decodePaidQuoteOutcomeV2 bytes = .ok outcome →
      encodePaidQuoteOutcomeV2 outcome = .ok bytes) ∧
    ¬ (∀ bytes reply, decodeTunnelReplyV1 bytes = .ok reply →
      encodeTunnelReplyV1 reply = bytes) := by
  refine ⟨fun h => ?_, fun h => ?_, fun h => ?_, fun h => ?_⟩
  · have hencode := h (taggedRequest 2) (.rpcRequest "" [] 0 (some "")) (by decide +kernel)
    exact absurd hencode (by decide +kernel)
  · have hencode := h ([1, 1, 0, 0, 0, 0] ++ markedRejection)
      (.rejected none ⟨.malformedRequest, false, "a"⟩) (by decide +kernel)
    exact absurd hencode (by decide +kernel)
  · have hencode := h ([1, 1, 0, 0, 0] ++ markedRejection)
      (.rejected ⟨.malformedRequest, false, "a"⟩) (by decide +kernel)
    exact absurd hencode (by decide +kernel)
  · have hencode := h brokenDetail (.rejected 7 .malformed false "\uFFFD") (by decide +kernel)
    exact absurd hencode (by decide +kernel)

end NoxSdk.Bincode
