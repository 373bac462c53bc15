import NoxSdk.Bincode.ReplyCodecs
import NoxSdk.Lib.ByteViews

/-!
# The exit's reply to an HTTP request

`http_response.ts`. The reader is a `ByteReader` with the errors of `malformed`. The loop over the
headers counts the rounds it starts, also where one of them throws, so that they can be bounded by
the bytes that are there and not by the count they declare (`headerLoop_rounds_le`).

`replyBytes` is the bincode encoding of a reply. The decoder accepts these bytes and no others, but
a byte order mark in front of a header string is lost: the `TextDecoder` drops it
(`decodeHttpResponse_grammar`).
-/

namespace NoxSdk.Js

/-- The string without a byte order mark in front. -/
def dropMark (text : String) : String :=
  if text.toList.head? = some byteOrderMark then String.ofList text.toList.tail else text

theorem dropMark_of_noMark {text : String} (h : NoMark text) : dropMark text = text := if_neg h

theorem textDecode_textEncode_eq_dropMark (text : String) :
    textDecode (textEncode text) = dropMark text := by
  by_cases hmark : NoMark text
  · rw [textDecode_textEncode hmark, dropMark_of_noMark hmark]
  · rw [NoMark, not_not] at hmark
    rw [textDecode, textEncode, decode_flatMap_utf8EncodeChar, dropMark, if_pos hmark]
    cases hcs : text.toList with
    | nil =>
      rw [hcs] at hmark
      cases hmark
    | cons c cs =>
      rw [hcs, List.head?_cons, Option.some_inj] at hmark
      simp only [if_pos hmark, List.tail_cons]

/-- The bytes that are decoded are those of a string, and they are decoded to it without its
mark. -/
theorem textDecodeFatal_eq_some_iff {bytes : Bytes} {text : String} :
    textDecodeFatal bytes = some text ↔
      ∃ original, bytes = textEncode original ∧ text = dropMark original := by
  rw [textDecodeFatal]
  constructor
  · intro h
    split_ifs at h with hutf8
    refine ⟨String.ofList (Utf8State.start.decode bytes), ?_, ?_⟩
    · rw [textEncode, String.toList_ofList, hutf8]
    · rw [← textDecode_textEncode_eq_dropMark, textEncode, String.toList_ofList, hutf8]
      exact (Option.some.inj h).symm
  · rintro ⟨original, rfl, rfl⟩
    rw [textDecode_textEncode_eq_dropMark, textEncode, decode_flatMap_utf8EncodeChar, if_pos rfl]

end NoxSdk.Js

namespace NoxSdk.HttpResponse

open Bincode (Writer.u8 Writer.u16 Writer.u64 Writer.bytes Writer.string)

/-- `DecodedHttpResponse`. -/
structure DecodedHttpResponse where
  status : ℕ
  headers : List (String × String)
  body : Bytes
  truncated : Bool
  deriving DecidableEq, Repr

/-- `malformed`. -/
def malformed (detail : String) : Thrown :=
  .noxClientError s!"malformed exit HTTP reply: {detail}" .decryptionFailed

/-! ### The reader -/

/-- `ReplyReader`. -/
abbrev ReplyReader (α : Type) := ByteReader Thrown α

namespace ReplyReader

/-- A little-endian number, after `need`. -/
def num (width : ℕ) : ReplyReader ℕ := do
  let raw ← ByteReader.slice (fun offset length =>
    malformed s!"ends at byte {length}, needs {width} more at {offset}") width
  return leValue raw

/-- `u8`. -/
def u8 : ReplyReader ℕ := num 1

/-- `u16`. -/
def u16 : ReplyReader ℕ := num 2

/-- `u64`. -/
def u64 : ReplyReader ℕ := num 8

/-- `bytes`: the announced length is compared with what is left. -/
def bytes : ReplyReader Bytes := do
  let length ← u64
  ByteReader.slice (fun offset bufferLength =>
    malformed s!"length {length} exceeds the {bufferLength - offset} bytes left") length

/-- `utf8`. -/
def utf8 : ReplyReader String := do
  let raw ← bytes
  match Js.textDecodeFatal raw with
  | none => ByteReader.fail fun _ => malformed "a header is not UTF-8"
  | some text => return text

/-- The body of the loop over the headers. -/
def headerPair : ReplyReader (String × String) := do
  let name ← utf8
  let value ← utf8
  return (name, value)

/-- The check that nothing follows. -/
def expectEnd : ReplyReader Unit := fun buffer offset =>
  if offset ≠ buffer.length then
    .error (malformed s!"{buffer.length - offset} trailing bytes")
  else .ok ((), offset)

/-- What follows the headers. -/
def rest (status : ℕ) (headers : List (String × String)) : ReplyReader DecodedHttpResponse := do
  let body ← bytes
  let flag ← u8
  if flag > 1 then
    ByteReader.fail fun _ => malformed s!"truncated flag byte {flag} is not a bool"
  else do
    expectEnd
    return ⟨status, headers, body, decide (flag = 1)⟩

/-- What precedes the headers: the status and their count. -/
def head : ReplyReader (ℕ × ℕ) := do
  let status ← u16
  let count ← u64
  return (status, count)

end ReplyReader

open ReplyReader

/-- The loop over the headers with `left` of them to come, and how many rounds it starts. -/
def headerLoop (buffer : Bytes) : ℕ → List (String × String) → ℕ →
    Except Thrown (List (String × String) × ℕ) × ℕ
  | 0, headers, offset => (.ok (headers, offset), 0)
  | left + 1, headers, offset =>
    match headerPair buffer offset with
    | .error e => (.error e, 1)
    | .ok (pair, offset) =>
      let (result, rounds) := headerLoop buffer left (headers ++ [pair]) offset
      (result, rounds + 1)

/-- `decodeHttpResponse`, with the rounds of its loop. -/
def decodeCounting (bytes : Bytes) : Except Thrown DecodedHttpResponse × ℕ :=
  match head bytes 0 with
  | .error e => (.error e, 0)
  | .ok ((status, count), offset) =>
    let (result, rounds) := headerLoop bytes count [] offset
    (do
      let (headers, offset) ← result
      let (response, _) ← rest status headers bytes offset
      return response, rounds)

/-- `decodeHttpResponse`. -/
def decodeHttpResponse (bytes : Bytes) : Except Thrown DecodedHttpResponse :=
  (decodeCounting bytes).1

/-! ### The grammar -/

/-- The encoding of a header pair. -/
def pairBytes (pair : String × String) : Bytes := Writer.string pair.1 ++ Writer.string pair.2

/-- The bincode encoding of a reply. -/
def replyBytes (response : DecodedHttpResponse) : Bytes :=
  (Writer.u16 response.status ++ Writer.u64 response.headers.length) ++
    (response.headers.flatMap pairBytes ++
      (Writer.bytes response.body ++ Writer.u8 (if response.truncated then 1 else 0)))

/-- The numbers of a reply fit their fields. -/
structure Fits (response : DecodedHttpResponse) : Prop where
  status : response.status < 2 ^ 16
  count : response.headers.length < 2 ^ 64
  names : ∀ pair ∈ response.headers, (Js.textEncode pair.1).length < 2 ^ 64 ∧
    (Js.textEncode pair.2).length < 2 ^ 64
  body : response.body.length < 2 ^ 64

/-- The bytes are the encoding of this reply. -/
def Encodes (bytes : Bytes) (response : DecodedHttpResponse) : Prop :=
  Fits response ∧ bytes = replyBytes response

/-- A reply as it is returned: header strings without a mark in front. -/
def withoutMarks (response : DecodedHttpResponse) : DecodedHttpResponse :=
  { response with headers := response.headers.map fun pair =>
      (Js.dropMark pair.1, Js.dropMark pair.2) }

theorem withoutMarks_of_noMark {response : DecodedHttpResponse}
    (h : ∀ pair ∈ response.headers, Js.NoMark pair.1 ∧ Js.NoMark pair.2) :
    withoutMarks response = response := by
  have hheaders : response.headers.map (fun pair => (Js.dropMark pair.1, Js.dropMark pair.2)) =
      response.headers := by
    refine (List.map_congr_left fun pair hpair => ?_).trans (List.map_id _)
    rw [Js.dropMark_of_noMark (h pair hpair).1, Js.dropMark_of_noMark (h pair hpair).2, id_eq]
  rw [withoutMarks, hheaders]

/-! ### Encodings are accepted -/

theorem reads_num {width n : ℕ} (h : n < 256 ^ width) : Reads (num width) (leBytes width n) n := by
  have hraw : Reads (ByteReader.slice (fun offset length =>
      malformed s!"ends at byte {length}, needs {width} more at {offset}") width) (leBytes width n)
      (leBytes width n) := Reads.slice (length_leBytes width n)
  have hread := hraw.bind_pure leValue
  rwa [leValue_leBytes_of_lt h] at hread

theorem reads_bytes {v : Bytes} (h : v.length < 2 ^ 64) : Reads bytes (Writer.bytes v) v :=
  (show Reads u64 _ _ from reads_num h).bind (Reads.slice rfl)

theorem reads_utf8 {text : String} (h : (Js.textEncode text).length < 2 ^ 64) :
    Reads utf8 (Writer.string text) (Js.dropMark text) := by
  refine (reads_bytes h).bind_nil ?_
  rw [Js.textDecodeFatal_eq_some_iff.mpr ⟨text, rfl, rfl⟩]
  exact Reads.pure _

theorem reads_headerPair {pair : String × String} (hname : (Js.textEncode pair.1).length < 2 ^ 64)
    (hvalue : (Js.textEncode pair.2).length < 2 ^ 64) :
    Reads headerPair (pairBytes pair) (Js.dropMark pair.1, Js.dropMark pair.2) :=
  (reads_utf8 hname).bind ((reads_utf8 hvalue).bind_pure fun value => (Js.dropMark pair.1, value))

/-- The loop reads the encodings of the headers. -/
theorem headerLoop_of_pairs {headers : List (String × String)}
    (h : ∀ pair ∈ headers, (Js.textEncode pair.1).length < 2 ^ 64 ∧
      (Js.textEncode pair.2).length < 2 ^ 64) (read : List (String × String))
    (before after : Bytes) :
    headerLoop (before ++ (headers.flatMap pairBytes ++ after)) headers.length read before.length =
      (.ok (read ++ headers.map fun pair => (Js.dropMark pair.1, Js.dropMark pair.2),
        before.length + (headers.flatMap pairBytes).length), headers.length) := by
  induction headers generalizing read before with
  | nil => simp [headerLoop]
  | cons pair headers ih =>
    obtain ⟨hname, hvalue⟩ := h pair List.mem_cons_self
    have hpair := reads_headerPair hname hvalue before (headers.flatMap pairBytes ++ after)
    have hrest := ih (fun p hp => h p (List.mem_cons_of_mem _ hp))
      (read ++ [(Js.dropMark pair.1, Js.dropMark pair.2)]) (before ++ pairBytes pair)
    rw [List.append_assoc, List.length_append] at hrest
    rw [List.length_cons, headerLoop, List.flatMap_cons, List.append_assoc, hpair]
    simp only [hrest, List.map_cons, List.append_assoc, List.singleton_append, List.length_append,
      Nat.add_assoc]

/-- What follows the headers is read to the end. -/
theorem rest_of_encoding {body : Bytes} (hbody : body.length < 2 ^ 64) (truncated : Bool)
    (status : ℕ) (headers : List (String × String)) (before : Bytes) :
    ∃ offset, rest status headers
        (before ++ (Writer.bytes body ++ Writer.u8 (if truncated then 1 else 0))) before.length =
      .ok (⟨status, headers, body, truncated⟩, offset) := by
  obtain ⟨flag, hflagEq, hle, hvalue⟩ : ∃ flag : ℕ, (if truncated then 1 else 0) = flag ∧
      flag ≤ 1 ∧ decide (flag = 1) = truncated := by
    cases truncated
    · exact ⟨0, rfl, by decide, rfl⟩
    · exact ⟨1, rfl, by decide, rfl⟩
  rw [hflagEq]
  -- the body stands behind `before`, the flag behind both and nothing behind the flag
  have hbytes := reads_bytes hbody before (Writer.u8 flag)
  have hflag : Reads u8 (Writer.u8 flag) flag := reads_num (by omega)
  have hflag' := hflag (before ++ Writer.bytes body) []
  rw [List.append_nil, List.length_append, List.append_assoc] at hflag'
  have hend : expectEnd (before ++ (Writer.bytes body ++ Writer.u8 flag))
      (before.length + (Writer.bytes body).length + (Writer.u8 flag).length) = .ok ((), _) :=
    if_neg (by simp [Nat.add_assoc])
  rw [rest, ByteReader.bind_of_ok hbytes, ByteReader.bind_of_ok hflag', if_neg (not_lt.mpr hle),
    ByteReader.bind_of_ok hend, hvalue]
  exact ⟨_, rfl⟩

/-- The encoding of a reply is decoded to it, without the marks of its header strings. -/
theorem decodeHttpResponse_of_encodes {bytes : Bytes} {response : DecodedHttpResponse}
    (h : Encodes bytes response) : decodeHttpResponse bytes = .ok (withoutMarks response) := by
  obtain ⟨hfits, rfl⟩ := h
  have hhead : Reads head (Writer.u16 response.status ++ Writer.u64 response.headers.length)
      (response.status, response.headers.length) :=
    (show Reads u16 _ _ from reads_num hfits.status).bind
      ((show Reads u64 _ _ from reads_num hfits.count).bind_pure fun count =>
        (response.status, count))
  set front := Writer.u16 response.status ++ Writer.u64 response.headers.length with hfront
  set tail := Writer.bytes response.body ++ Writer.u8 (if response.truncated then 1 else 0)
    with htail
  -- the three parts of the decoder, each where the one before it ends
  have hstart := hhead [] (response.headers.flatMap pairBytes ++ tail)
  rw [List.nil_append, List.length_nil, Nat.zero_add] at hstart
  have hloop := headerLoop_of_pairs hfits.names [] front tail
  obtain ⟨last, hrest⟩ := rest_of_encoding hfits.body response.truncated response.status
    (response.headers.map fun pair => (Js.dropMark pair.1, Js.dropMark pair.2))
    (front ++ response.headers.flatMap pairBytes)
  rw [List.append_assoc, List.length_append, ← htail] at hrest
  show (decodeCounting (front ++ (response.headers.flatMap pairBytes ++ tail))).1 = _
  rw [decodeCounting, hstart]
  simp only [hloop, List.nil_append, ok_bind, hrest, pure_eq_ok, withoutMarks]

/-! ### Only encodings are accepted -/

/-- The errors of the decoder. -/
def IsMalformed (e : Thrown) : Prop := ∃ detail, e = malformed detail

section Outcomes

variable {buffer : Bytes} {offset : ℕ}

theorem num_outcome (width : ℕ) :
    ByteReader.Outcome (fun n mid => n < 256 ^ width ∧ mid = offset + width ∧
        mid ≤ buffer.length ∧ buffer.drop offset = leBytes width n ++ buffer.drop mid) IsMalformed
      (num width buffer offset) := by
  refine (ByteReader.slice_outcome (fun _ _ => ⟨_, rfl⟩) width).bind ?_
  rintro raw mid ⟨rfl, hmid, hle, hdrop⟩
  exact ⟨leValue_lt raw, hmid, hle, by rw [leBytes_leValue, hdrop]⟩

theorem bytes_outcome :
    ByteReader.Outcome (fun v mid => v.length < 2 ^ 64 ∧ offset + 8 ≤ mid ∧
        mid ≤ buffer.length ∧ buffer.drop offset = Writer.bytes v ++ buffer.drop mid) IsMalformed
      (bytes buffer offset) := by
  refine (num_outcome 8).bind ?_
  rintro length start ⟨hlength, rfl, -, hdrop⟩
  -- the length is within the buffer, whatever was announced
  refine (ByteReader.slice_outcome (fun _ _ => ⟨_, rfl⟩) length).mono ?_
  rintro v mid ⟨rfl, rfl, hle, htail⟩
  exact ⟨hlength, Nat.le_add_right _ _, hle, by
    rw [hdrop, htail]
    exact (List.append_assoc ..).symm⟩

/-- A string that was read is one without its mark. -/
theorem utf8_outcome :
    ByteReader.Outcome (fun text mid => ∃ original, (Js.textEncode original).length < 2 ^ 64 ∧
        text = Js.dropMark original ∧ offset + 8 ≤ mid ∧ mid ≤ buffer.length ∧
        buffer.drop offset = Writer.string original ++ buffer.drop mid) IsMalformed
      (utf8 buffer offset) := by
  refine bytes_outcome.bind ?_
  rintro raw mid ⟨hlength, hmid, hle, hdrop⟩
  cases hdecode : Js.textDecodeFatal raw with
  | none => exact ⟨_, rfl⟩
  | some text =>
    obtain ⟨original, rfl, rfl⟩ := Js.textDecodeFatal_eq_some_iff.mp hdecode
    exact ⟨original, hlength, rfl, hmid, hle, hdrop⟩

/-- A round of the loop takes at least the two lengths of its strings. -/
theorem headerPair_outcome :
    ByteReader.Outcome (fun read mid => ∃ pair : String × String,
        ((Js.textEncode pair.1).length < 2 ^ 64 ∧ (Js.textEncode pair.2).length < 2 ^ 64) ∧
        read = (Js.dropMark pair.1, Js.dropMark pair.2) ∧ offset + 16 ≤ mid ∧
        mid ≤ buffer.length ∧ buffer.drop offset = pairBytes pair ++ buffer.drop mid) IsMalformed
      (headerPair buffer offset) := by
  refine utf8_outcome.bind ?_
  rintro _ mid ⟨name, hname, rfl, hmid, -, hdrop⟩
  refine utf8_outcome.bind ?_
  rintro _ last ⟨value, hvalue, rfl, hlast, hle, htail⟩
  exact ⟨(name, value), ⟨hname, hvalue⟩, rfl, by omega, hle, by
    rw [hdrop, htail, pairBytes, List.append_assoc]⟩

/-- What the loop has read are encodings of headers, and each of its rounds took sixteen bytes but
the last. -/
theorem headerLoop_outcome (left : ℕ) (read : List (String × String))
    (h : offset ≤ buffer.length) :
    (headerLoop buffer left read offset).2 ≤ (buffer.length - offset) / 16 + 1 ∧
      ByteReader.Outcome (fun headers mid => ∃ pairs : List (String × String),
        pairs.length = left ∧
        (∀ pair ∈ pairs, (Js.textEncode pair.1).length < 2 ^ 64 ∧
          (Js.textEncode pair.2).length < 2 ^ 64) ∧
        headers = read ++ pairs.map (fun pair => (Js.dropMark pair.1, Js.dropMark pair.2)) ∧
        mid ≤ buffer.length ∧ buffer.drop offset = pairs.flatMap pairBytes ++ buffer.drop mid)
        IsMalformed (headerLoop buffer left read offset).1 := by
  induction left generalizing read offset with
  | zero => exact ⟨Nat.zero_le _, [], rfl, by simp, by simp, h, by simp⟩
  | succ left ih =>
    have hround := @headerPair_outcome buffer offset
    rw [headerLoop]
    cases hpair : headerPair buffer offset with
    | error e =>
      rw [hpair] at hround
      exact ⟨Nat.le_add_left _ _, hround⟩
    | ok result =>
      rw [hpair] at hround
      obtain ⟨pair, hfits, hread, hmid, hle, hdrop⟩ := hround
      obtain ⟨hrounds, hrest⟩ := ih (read ++ [result.1]) hle
      -- this round took sixteen bytes at least, so the bound of the rest grows by one
      refine ⟨?_, hrest.mono ?_⟩
      · simp only
        omega
      · rintro headers last ⟨pairs, hlength, hall, rfl, hlast, htail⟩
        refine ⟨pair :: pairs, by rw [List.length_cons, hlength], ?_, ?_, hlast, ?_⟩
        · exact List.forall_mem_cons.mpr ⟨hfits, hall⟩
        · rw [hread, List.map_cons, List.append_assoc, List.singleton_append]
        · rw [hdrop, htail, List.flatMap_cons, List.append_assoc]

theorem rest_outcome (status : ℕ) (headers : List (String × String)) :
    ByteReader.Outcome (fun response _ => ∃ body truncated, body.length < 2 ^ 64 ∧
        response = ⟨status, headers, body, truncated⟩ ∧
        buffer.drop offset = Writer.bytes body ++ Writer.u8 (if truncated then 1 else 0))
      IsMalformed (rest status headers buffer offset) := by
  refine bytes_outcome.bind ?_
  rintro body mid ⟨hbody, -, -, hdrop⟩
  refine (num_outcome 1).bind ?_
  rintro flag last ⟨-, -, -, hflagDrop⟩
  split_ifs with hflag
  · exact ⟨_, rfl⟩
  · have hend : ByteReader.Outcome (fun _ _ => last = buffer.length) IsMalformed
        (expectEnd buffer last) := by
      rw [expectEnd]
      split_ifs with hlast
      · exact ⟨_, rfl⟩
      · exact not_not.mp hlast
    refine hend.bind ?_
    rintro - _ hlast
    refine ⟨body, decide (flag = 1), hbody, rfl, ?_⟩
    -- a flag above one was refused, so it is written back as it was
    have hvalue : (if decide (flag = 1) then 1 else 0) = flag := by
      by_cases hone : flag = 1
      · simp [hone]
      · simp [hone]
        omega
    rw [hdrop, hflagDrop, hlast, List.drop_length, List.append_nil, hvalue]
    rfl

end Outcomes

/-- What is returned was encoded, all else is refused as malformed, and the loop makes at most one
round more than there are sixteen bytes. -/
theorem decodeCounting_outcome (bytes : Bytes) :
    (decodeCounting bytes).2 ≤ bytes.length / 16 + 1 ∧
      ((∃ response, Encodes bytes response ∧
          (decodeCounting bytes).1 = .ok (withoutMarks response)) ∨
        ∃ e, (decodeCounting bytes).1 = .error e ∧ IsMalformed e) := by
  -- the status and the count are read in place, and the rest follows them
  have hhead : ByteReader.Outcome (fun result mid => result.1 < 2 ^ 16 ∧ result.2 < 2 ^ 64 ∧
      mid ≤ bytes.length ∧ bytes = Writer.u16 result.1 ++ (Writer.u64 result.2 ++ bytes.drop mid))
      IsMalformed (head bytes 0) := by
    refine (num_outcome 2).bind ?_
    rintro status mid ⟨hstatus, -, -, hdrop⟩
    refine (num_outcome 8).bind ?_
    rintro count last ⟨hcount, -, hlast, htail⟩
    exact ⟨hstatus, hcount, hlast, hdrop.trans (congrArg (leBytes 2 status ++ ·) htail)⟩
  rw [decodeCounting]
  cases hstart : head bytes 0 with
  | error e =>
    rw [hstart] at hhead
    exact ⟨Nat.zero_le _, .inr ⟨e, rfl, hhead⟩⟩
  | ok result =>
    obtain ⟨⟨status, count⟩, offset⟩ := result
    rw [hstart] at hhead
    obtain ⟨hstatus, hcount, hoffset, hbytes⟩ := hhead
    obtain ⟨hrounds, hloop⟩ := headerLoop_outcome count [] hoffset
    -- a round reads at least the two lengths of a header, sixteen bytes
    refine ⟨hrounds.trans (Nat.add_le_add_right (Nat.div_le_div_right (Nat.sub_le _ _)) 1), ?_⟩
    simp only
    cases hheaders : (headerLoop bytes count [] offset).1 with
    | error e =>
      rw [hheaders] at hloop
      exact .inr ⟨e, rfl, hloop⟩
    | ok result =>
      obtain ⟨headers, mid⟩ := result
      rw [hheaders] at hloop
      obtain ⟨pairs, rfl, hpairs, rfl, -, hdrop⟩ := hloop
      have htail := @rest_outcome bytes mid status
        ([] ++ pairs.map fun pair => (Js.dropMark pair.1, Js.dropMark pair.2))
      rw [ok_bind]
      cases hrest : rest status ([] ++ pairs.map fun pair =>
          (Js.dropMark pair.1, Js.dropMark pair.2)) bytes mid with
      | error e =>
        rw [hrest] at htail
        exact .inr ⟨e, rfl, htail⟩
      | ok result =>
        rw [hrest] at htail
        obtain ⟨body, truncated, hbody, hresponse, hend⟩ := htail
        refine .inl ⟨⟨status, pairs, body, truncated⟩, ⟨⟨hstatus, hcount, hpairs, hbody⟩, ?_⟩, ?_⟩
        · rw [hdrop, hend] at hbytes
          rw [hbytes]
          exact (List.append_assoc ..).symm
        · simp only [ok_bind, pure_eq_ok, hresponse, List.nil_append, withoutMarks]

/-- `decodeHttpResponse` accepts its grammar up to byte order marks and ends: the encoding of a
reply is decoded to it, with the values it has where no header string starts with a mark and
without the marks otherwise; all other bytes are refused as malformed; and the loop makes at most
one round more than there are sixteen bytes, whatever count they declare.

The decoder is run with a counter of its rounds (`decodeCounting_outcome`): each round consumes
sixteen bytes at least, and it ends with the reply that the bytes encode or with an error at an
offset. -/
theorem decodeHttpResponse_grammar (bytes : Bytes) :
    (∀ response, Encodes bytes response →
      decodeHttpResponse bytes = .ok (withoutMarks response) ∧
        ((∀ pair ∈ response.headers, Js.NoMark pair.1 ∧ Js.NoMark pair.2) →
          withoutMarks response = response)) ∧
    ((¬ ∃ response, Encodes bytes response) →
      ∃ detail, decodeHttpResponse bytes = .error (malformed detail)) ∧
    (decodeCounting bytes).2 ≤ bytes.length / 16 + 1 := by
  obtain ⟨hrounds, houtcome⟩ := decodeCounting_outcome bytes
  refine ⟨fun response hresponse => ⟨decodeHttpResponse_of_encodes hresponse, fun hmarks => ?_⟩,
    fun hnone => ?_, hrounds⟩
  · exact withoutMarks_of_noMark hmarks
  · rcases houtcome with ⟨response, hencodes, -⟩ | ⟨e, herror, detail, rfl⟩
    · exact absurd ⟨response, hencodes⟩ hnone
    · exact ⟨detail, herror⟩

/-- A reply with one header. -/
def sampleReply : DecodedHttpResponse := ⟨200, [("a", "b")], [7], false⟩

theorem sampleReply_encodes : Encodes (replyBytes sampleReply) sampleReply :=
  ⟨⟨by decide, by decide, by decide, by decide⟩, rfl⟩

theorem decodeHttpResponse_grammar_sample :
    decodeHttpResponse (replyBytes sampleReply) = .ok sampleReply ∧
      (decodeCounting (replyBytes sampleReply)).2 ≤ (replyBytes sampleReply).length / 16 + 1 := by
  obtain ⟨hok, hmarks⟩ := (decodeHttpResponse_grammar (replyBytes sampleReply)).1 _
    sampleReply_encodes
  rw [hmarks (by decide)] at hok
  exact ⟨hok, (decodeHttpResponse_grammar (replyBytes sampleReply)).2.2⟩

/-- A reply whose header value starts with a byte order mark. -/
def sampleMarked : DecodedHttpResponse :=
  ⟨200, [("a", String.ofList [Js.byteOrderMark, 'b'])], [7], false⟩

/-- Its encoding is not one of header strings without a mark, and is not refused. -/
theorem not_decodeHttpResponse_grammar :
    ¬ ∀ bytes, (¬ ∃ response, Encodes bytes response ∧
        ∀ pair ∈ response.headers, Js.NoMark pair.1 ∧ Js.NoMark pair.2) →
      ∃ detail, decodeHttpResponse bytes = .error (malformed detail) := by
  intro hall
  have hencodes : Encodes (replyBytes sampleMarked) sampleMarked :=
    ⟨⟨by decide, by decide, by decide, by decide⟩, rfl⟩
  have hok := decodeHttpResponse_of_encodes hencodes
  obtain ⟨detail, herror⟩ := hall (replyBytes sampleMarked) (by
    rintro ⟨response, hresponse, hmarks⟩
    -- another reply of the same bytes would be decoded to itself
    have hsame := Except.ok.inj (hok.symm.trans (decodeHttpResponse_of_encodes hresponse))
    rw [withoutMarks_of_noMark hmarks, show withoutMarks sampleMarked = sampleReply by decide]
      at hsame
    have hbytes := hresponse.2
    rw [← hsame] at hbytes
    revert hbytes
    decide +kernel)
  rw [hok] at herror
  cases herror

end NoxSdk.HttpResponse
