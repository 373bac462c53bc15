import NoxSdk.Tls.ResponseHead

/-!
# Responses over the TLS session

`ResponseParser` is fed the plaintext as it comes out of the records, in pieces of any size. Each
piece is put behind what is left of the ones before, and the parser goes on as far as it can: over
the head, over the heads of interim responses, over a body by its framing. `run_append` is the
fact about one turn that lets two pieces be one: what the parser makes of the first and then of the
second it makes of both. It fails in one place. A line that has not ended yet is refused when it is
too long, and one that has ended is not.

The parser of heads is not part of the package; `HeadParser` is what the package relies on.
-/

namespace NoxSdk.Tls

open Js (Utf8State)

/-! ### The parser of heads -/

/-- A head as it is parsed. -/
structure ParsedHead where
  code : Option ℕ
  version : Option ℕ
  headers : List (String × Bytes)

/-- What the parser of heads says. -/
inductive HeadRead where
  | complete (consumed : ℕ) (head : ParsedHead)
  | pending
  | tooManyHeaders
  | malformed (reason : String)

/-- A parser of heads: a head is read by its own bytes, whatever follows, and it is pending on
exactly the bytes that are less than a head it reads. -/
structure HeadParser where
  read : Bytes → HeadRead
  consumed_le : ∀ {bytes consumed head}, read bytes = .complete consumed head →
    0 < consumed ∧ consumed ≤ bytes.length
  read_take : ∀ {bytes consumed head}, read bytes = .complete consumed head →
    ∀ more, read (bytes.take consumed ++ more) = .complete consumed head
  pending_iff : ∀ {bytes}, read bytes = .pending ↔
    ∃ more consumed head, bytes.length < consumed ∧
      read (bytes ++ more) = .complete consumed head

/-! ### The parser of responses -/

/-- `MAX_CHUNK_LINE`. -/
def maxChunkLine : ℕ := 1024

/-- `ChunkState`. -/
inductive ChunkState where
  | size
  | data (remaining : ℕ)
  | dataEnd
  | trailers
  deriving DecidableEq

/-- `State`. -/
inductive ParserState where
  | head
  | body (framing : Framing) (chunk : ChunkState)
  | done
  deriving DecidableEq

/-- `HttpResponse`. -/
structure HttpResponse where
  status : ℕ
  headers : List (String × String)
  body : Bytes
  keepAlive : Bool
  deriving DecidableEq

/-- `ResponseParser`, in what changes. -/
structure ResponseParser where
  state : ParserState
  buf : Bytes
  response : HttpResponse

namespace ResponseParser

variable {usizeMax : ℕ} (httparse : HeadParser) (limits : HttpLimits usizeMax)
  (headRequest : Bool)

/-- `new`. -/
def new : ResponseParser := ⟨.head, [], ⟨0, [], [], true⟩⟩

/-- Bytes behind what is left. -/
def feed (p : ResponseParser) (data : Bytes) : ResponseParser := { p with buf := p.buf ++ data }

/-- `buf.drain(..n)`. -/
def drain (p : ResponseParser) (n : ℕ) : ResponseParser := { p with buf := p.buf.drop n }

/-- `set_chunk`. -/
def setChunk (p : ResponseParser) (chunk : ChunkState) : ResponseParser :=
  { p with state := .body .chunked chunk }

/-- `saturating_add` and the limit of the body. -/
def tooLong (limits : HttpLimits usizeMax) (length more : ℕ) : Bool :=
  decide (limits.maxBodyBytes < min (length + more) usizeMax)

/-- `append_body`. -/
def appendBody (p : ResponseParser) (bytes : Bytes) : Except TlsError ResponseParser :=
  if tooLong limits p.response.body.length bytes.length then
    .error (.httpTooLarge "body" limits.maxBodyBytes)
  else .ok { p with response.body := p.response.body ++ bytes }

/-- `String::from_utf8_lossy`. -/
def fromUtf8Lossy (bytes : Bytes) : String := String.ofList (Utf8State.start.decode bytes)

/-- `find_crlf`. -/
def findCrlf : Bytes → Option ℕ
  | a :: b :: rest => if a = 13 ∧ b = 10 then some 0 else (findCrlf (b :: rest)).map (· + 1)
  | _ => none

/-- A digit of a hexadecimal number. -/
def hexDigit (c : Char) : ℕ := if c.isDigit then c.toNat - 48 else c.toLower.toNat - 87

/-- A digit, as `is_ascii_hexdigit` has it. -/
def isHexDigit (c : Char) : Bool :=
  c.isDigit || decide (97 ≤ c.toLower.toNat ∧ c.toLower.toNat ≤ 102)

/-- The size a chunk-size line gives. -/
def chunkSize (usizeMax : ℕ) (line : Bytes) : Except TlsError ℕ :=
  let text := trimText ((fromUtf8Lossy line).toList.takeWhile (· != ';'))
  let size := text.foldl (fun n c => n * 16 + hexDigit c) 0
  if text = [] ∨ !text.all isHexDigit ∨ usizeMax < size then
    .error (.httpResponse s!"invalid chunk size '{String.ofList text}'")
  else .ok size

/-- The state with so many bytes of a chunk left. -/
def dataState (left : ℕ) : ChunkState := if left = 0 then .dataEnd else .data left

/-- `parse_chunk`; the flag says that there was progress. -/
def parseChunk (p : ResponseParser) : ChunkState → Except TlsError (Bool × ResponseParser)
  | .size =>
    match findCrlf p.buf with
    | none =>
      if maxChunkLine < p.buf.length then .error (.httpResponse "chunk size line too long")
      else .ok (false, p)
    | some lineEnd => do
      let size ← chunkSize usizeMax (p.buf.take lineEnd)
      if size = 0 then return (true, (p.drain (lineEnd + 2)).setChunk .trailers)
      else if tooLong limits p.response.body.length size then
        throw (.httpTooLarge "body" limits.maxBodyBytes)
      else return (true, (p.drain (lineEnd + 2)).setChunk (.data size))
  | .data remaining =>
    if p.buf = [] then .ok (false, p)
    else do
      let take := min remaining p.buf.length
      let p ← (p.drain take).appendBody limits (p.buf.take take)
      return (true, p.setChunk (dataState (remaining - take)))
  | .dataEnd =>
    if p.buf.length < 2 then .ok (false, p)
    else if p.buf.take 2 ≠ [13, 10] then
      .error (.httpResponse "chunk data not followed by CRLF")
    else .ok (true, (p.drain 2).setChunk .size)
  | .trailers =>
    match findCrlf p.buf with
    | none =>
      if limits.maxHeadBytes < p.buf.length then
        .error (.httpTooLarge "trailers" limits.maxHeadBytes)
      else .ok (false, p)
    | some lineEnd =>
      .ok (true, if lineEnd = 0 then { p.drain 2 with state := .done }
        else p.drain (lineEnd + 2))

/-- `parse_body`. -/
def parseBody (p : ResponseParser) (chunk : ChunkState) :
    Framing → Except TlsError (Bool × ResponseParser)
  | .length total => do
    let take := min (total - p.response.body.length) p.buf.length
    let p ← (p.drain take).appendBody limits (p.buf.take take)
    if p.response.body.length = total then return (true, { p with state := .done })
    else return (false, p)
  | .untilClose => do
    let p ← ({ p with buf := [] } : ResponseParser).appendBody limits p.buf
    return (false, p)
  | .chunked => p.parseChunk limits chunk

/-- The state after a final head. -/
def bodyState : Option Framing → ParserState
  | none | some (.length 0) => .done
  | some framing => .body framing .size

/-- What a head that has been read makes of the parser. -/
def takeHead (p : ResponseParser) (head : ParsedHead) : Except TlsError ResponseParser :=
  match head.code with
  | none => .error (.httpResponse "missing status code")
  | some status =>
    if status = 101 then
      .error (.httpResponse "101 Switching Protocols to a request that asked for no upgrade")
    else if 100 ≤ status ∧ status < 200 then .ok p
    else do
      let headers := head.headers.map fun header => (header.1, fromUtf8Lossy header.2)
      let (framing, keepAlive) ← frameHead limits headRequest
        ⟨status, head.version.getD 1, headers⟩
      return { p with
        state := bodyState framing
        response := ⟨status, headers, p.response.body, keepAlive⟩ }

/-- `parse_head`. -/
def parseHead (p : ResponseParser) : Except TlsError (Bool × ResponseParser) :=
  match httparse.read p.buf with
  | .pending =>
    if limits.maxHeadBytes < p.buf.length then .error (.httpTooLarge "head" limits.maxHeadBytes)
    else .ok (false, p)
  | .tooManyHeaders => .error (.httpTooLarge "header count" limits.maxHeaders)
  | .malformed reason => .error (.httpResponse reason)
  | .complete consumed head =>
    if limits.maxHeadBytes < consumed then .error (.httpTooLarge "head" limits.maxHeadBytes)
    else do
      let p ← (p.drain consumed).takeHead limits headRequest head
      return (true, p)

/-- `trailing_bytes`. -/
def trailingBytes (len : ℕ) : TlsError :=
  .httpResponse s!"{len} unexpected bytes after a complete response"

/-- A turn of the loop of `push`, and whether there is another. -/
def turn (p : ResponseParser) : Except TlsError (Bool × ResponseParser) :=
  match p.state with
  | .head => p.parseHead httparse limits headRequest
  | .body framing chunk => p.parseBody limits chunk framing
  | .done => if p.buf = [] then .ok (false, p) else .error (trailingBytes p.buf.length)

/-- How far a state is from the last. -/
def rank : ParserState → ℕ
  | .done => 0
  | .body _ (.data _) => 2
  | _ => 1

/-- What a turn with progress makes smaller. -/
def size (p : ResponseParser) : ℕ := 3 * p.buf.length + rank p.state

/-! ### More bytes -/

@[simp]
theorem feed_state (p : ResponseParser) (data : Bytes) : (p.feed data).state = p.state := rfl

@[simp]
theorem feed_buf (p : ResponseParser) (data : Bytes) : (p.feed data).buf = p.buf ++ data := rfl

@[simp]
theorem feed_response (p : ResponseParser) (data : Bytes) :
    (p.feed data).response = p.response := rfl

theorem feed_nil (p : ResponseParser) : p.feed [] = p := by rw [feed, List.append_nil]

/-- Two pieces in turn are fed as one. -/
theorem feed_feed (p : ResponseParser) (data more : Bytes) :
    (p.feed data).feed more = p.feed (data ++ more) := by
  simp only [feed, List.append_assoc]

/-- Bytes that come in after a drain are those that come in before it, as long as what is drained
was there. -/
theorem feed_drain {p : ResponseParser} {n : ℕ} (h : n ≤ p.buf.length) (more : Bytes) :
    (p.feed more).drain n = (p.drain n).feed more := by
  rw [drain, feed_buf, List.drop_append_of_le_length h]
  rfl

/-- A line end is within the bytes, with both of its own. -/
theorem findCrlf_le {bytes : Bytes} {n : ℕ} (h : findCrlf bytes = some n) :
    n + 2 ≤ bytes.length := by
  induction bytes using findCrlf.induct generalizing n with
  | case1 a b rest hcrlf =>
    rw [findCrlf, if_pos hcrlf] at h
    obtain rfl := Option.some.inj h
    simp
  | case2 a b rest hcrlf ih =>
    rw [findCrlf, if_neg hcrlf] at h
    obtain ⟨m, hm, rfl⟩ := Option.map_eq_some_iff.mp h
    have hlen := ih hm
    simp only [List.length_cons] at hlen ⊢
    omega
  | case3 bytes hshort =>
    rw [findCrlf.eq_2 _ hshort] at h
    cases h

/-- A line end that was found stays the first one, whatever comes behind it. -/
theorem findCrlf_append {bytes : Bytes} {n : ℕ} (h : findCrlf bytes = some n) (more : Bytes) :
    findCrlf (bytes ++ more) = some n := by
  induction bytes using findCrlf.induct generalizing n with
  | case1 a b rest hcrlf =>
    rw [findCrlf, if_pos hcrlf] at h
    rw [List.cons_append, List.cons_append, findCrlf, if_pos hcrlf, h]
  | case2 a b rest hcrlf ih =>
    rw [findCrlf, if_neg hcrlf] at h
    obtain ⟨m, hm, rfl⟩ := Option.map_eq_some_iff.mp h
    have hrest := ih hm
    rw [List.cons_append] at hrest
    rw [List.cons_append, List.cons_append, findCrlf, if_neg hcrlf, hrest, Option.map_some]
  | case3 bytes hshort =>
    rw [findCrlf.eq_2 _ hshort] at h
    cases h

/-- The end of a line that is found later lies behind what was there. -/
theorem le_of_findCrlf_append {bytes more : Bytes} {n : ℕ} (hnone : findCrlf bytes = none)
    (h : findCrlf (bytes ++ more) = some n) : bytes.length ≤ n + 1 := by
  induction bytes using findCrlf.induct generalizing n with
  | case1 a b rest hcrlf =>
    rw [findCrlf, if_pos hcrlf] at hnone
    cases hnone
  | case2 a b rest hcrlf ih =>
    rw [findCrlf, if_neg hcrlf] at hnone
    rw [List.cons_append, List.cons_append, findCrlf, if_neg hcrlf] at h
    obtain ⟨m, hm, rfl⟩ := Option.map_eq_some_iff.mp h
    have hlen := ih (Option.map_eq_none_iff.mp hnone) hm
    simp only [List.length_cons] at hlen ⊢
    omega
  | case3 bytes hshort =>
    match bytes, hshort with
    | [], _ => exact Nat.zero_le _
    | [_], _ => exact Nat.le_add_left 1 n
    | a :: b :: rest, hshort => exact absurd rfl (hshort a b rest)

/-- A head that is complete stays the same head, whatever comes behind it. -/
theorem read_append {bytes : Bytes} {consumed : ℕ} {head : ParsedHead}
    (h : httparse.read bytes = .complete consumed head) (more : Bytes) :
    httparse.read (bytes ++ more) = .complete consumed head := by
  have htake := httparse.read_take h (bytes.drop consumed ++ more)
  rwa [← List.append_assoc, List.take_append_drop] at htake

/-- A head that is read later was pending before, and longer. -/
theorem pending_of_read_append {bytes more : Bytes} {consumed : ℕ} {head : ParsedHead}
    (hnot : ∀ consumed head, httparse.read bytes ≠ .complete consumed head)
    (h : httparse.read (bytes ++ more) = .complete consumed head) :
    httparse.read bytes = .pending ∧ bytes.length < consumed := by
  have hlong : bytes.length < consumed := by
    by_contra hle
    have htake := httparse.read_take h (bytes.drop consumed)
    rw [List.take_append_of_le_length (not_lt.mp hle), List.take_append_drop] at htake
    exact hnot _ _ htake
  exact ⟨httparse.pending_iff.mpr ⟨more, consumed, head, hlong, h⟩, hlong⟩

/-- What is no complete head with more bytes is none without them. -/
theorem pending_of_append {bytes more : Bytes} (h : httparse.read (bytes ++ more) = .pending) :
    httparse.read bytes = .pending := by
  obtain ⟨rest, consumed, head, hlong, hread⟩ := httparse.pending_iff.mp h
  rw [List.append_assoc] at hread
  rw [List.length_append] at hlong
  exact httparse.pending_iff.mpr ⟨more ++ rest, consumed, head, by omega, hread⟩

/-! ### One turn -/

variable {httparse limits headRequest}

/-- The parser takes a line that would have been refused before its end came. -/
def LongLine (limits : HttpLimits usizeMax) (p : ResponseParser) : Prop :=
  (p.state = .body .chunked .size ∧ ∃ n, findCrlf p.buf = some n ∧ maxChunkLine ≤ n) ∨
    p.state = .body .chunked .trailers ∧ ∃ n, findCrlf p.buf = some n ∧ limits.maxHeadBytes ≤ n

/-- What a turn that was made says about the turn with more bytes: it is the turn that comes next
with them, or it makes the same step. -/
def Extends (httparse : HeadParser) (limits : HttpLimits usizeMax) (headRequest : Bool)
    (p : ResponseParser) (again : Bool) (p' : ResponseParser) (more : Bytes) : Prop :=
  ((p.feed more).turn httparse limits headRequest =
        (p'.feed more).turn httparse limits headRequest ∧
      (LongLine limits (p'.feed more) → LongLine limits (p.feed more))) ∨
    again = true ∧ (p.feed more).turn httparse limits headRequest = .ok (true, p'.feed more)

/-- Taking a head looks at the head alone, so bytes behind it only wait. -/
theorem takeHead_feed (p : ResponseParser) (head : ParsedHead) (more : Bytes) :
    (p.feed more).takeHead limits headRequest head =
      (p.takeHead limits headRequest head).map fun p' => p'.feed more := by
  rw [takeHead, takeHead]
  cases head.code with
  | none => rfl
  | some status =>
    dsimp only
    split_ifs
    · rfl
    · rfl
    · cases frameHead limits headRequest ⟨status, head.version.getD 1,
        head.headers.map fun header => (header.1, fromUtf8Lossy header.2)⟩ <;> rfl

/-- A turn that only waits is extended by whatever comes. -/
theorem extends_refl (p : ResponseParser) (again : Bool) (more : Bytes) :
    Extends httparse limits headRequest p again p more := .inl ⟨rfl, id⟩

/-- What `parseHead` can do. -/
theorem parseHead_cases {p p' : ResponseParser} {again : Bool}
    (h : p.parseHead httparse limits headRequest = .ok (again, p')) :
    again = false ∧ p' = p ∨ ∃ consumed head, again = true ∧
      httparse.read p.buf = .complete consumed head ∧ consumed ≤ limits.maxHeadBytes ∧
      (p.drain consumed).takeHead limits headRequest head = .ok p' := by
  rw [parseHead] at h
  cases hread : httparse.read p.buf with
  | pending =>
    rw [hread] at h
    dsimp only at h
    split_ifs at h
    obtain ⟨rfl, rfl⟩ := Prod.mk.inj (Except.ok.inj h)
    exact .inl ⟨rfl, rfl⟩
  | tooManyHeaders =>
    rw [hread] at h
    cases h
  | malformed reason =>
    rw [hread] at h
    cases h
  | complete consumed head =>
    rw [hread] at h
    dsimp only at h
    split_ifs at h with hlong
    obtain ⟨q, hq, hret⟩ := bind_eq_ok_iff.mp h
    obtain ⟨rfl, rfl⟩ := Prod.mk.inj (Except.ok.inj hret)
    exact .inr ⟨consumed, head, rfl, rfl, not_lt.mp hlong, hq⟩

/-- A head that is read is taken. -/
theorem turn_head {p : ResponseParser} {consumed : ℕ} {head : ParsedHead}
    (hstate : p.state = .head) (hread : httparse.read p.buf = .complete consumed head)
    (hfits : consumed ≤ limits.maxHeadBytes) :
    p.turn httparse limits headRequest =
      ((p.drain consumed).takeHead limits headRequest head).map fun p' => (true, p') := by
  rw [turn, hstate]
  dsimp only
  rw [parseHead, hread]
  dsimp only
  rw [if_neg (not_lt.mpr hfits)]
  cases (p.drain consumed).takeHead limits headRequest head <;> rfl

/-- A turn that reads the head goes on as before when more bytes were there. -/
theorem parseHead_feed {p p' : ResponseParser} {again : Bool} (more : Bytes)
    (hstate : p.state = .head)
    (h : p.parseHead httparse limits headRequest = .ok (again, p')) :
    Extends httparse limits headRequest p again p' more := by
  rcases parseHead_cases h with ⟨rfl, rfl⟩ | ⟨consumed, head, rfl, hread, hfits, htake⟩
  · exact extends_refl ..
  · refine .inr ⟨rfl, ?_⟩
    have hmore : httparse.read (p.feed more).buf = .complete consumed head :=
      read_append httparse hread more
    rw [turn_head ((p.feed_state more).trans hstate) hmore hfits,
      feed_drain (httparse.consumed_le hread).2, takeHead_feed, htake]
    rfl

/-- Bytes that were taken count towards the limit like those to come. -/
theorem tooLong_add (limits : HttpLimits usizeMax) (length more rest : ℕ) :
    tooLong limits (length + more) rest = tooLong limits length (more + rest) := by
  rw [tooLong, tooLong, Nat.add_assoc]

/-- What fits still fits with less. -/
theorem tooLong_mono {limits : HttpLimits usizeMax} {length more more' : ℕ} (hle : more ≤ more')
    (h : tooLong limits length more' = false) : tooLong limits length more = false := by
  rw [tooLong, decide_eq_false_iff_not] at h ⊢
  omega

/-- The bytes are taken and the rest is left. -/
def takeBody (p : ResponseParser) (n : ℕ) : ResponseParser :=
  { p.drain n with response.body := p.response.body ++ p.buf.take n }

/-- Taking the front of the buffer into the body fails only for the limit. -/
theorem appendBody_take (p : ResponseParser) {n : ℕ} (h : n ≤ p.buf.length) :
    (p.drain n).appendBody limits (p.buf.take n) =
      if tooLong limits p.response.body.length n then
        .error (.httpTooLarge "body" limits.maxBodyBytes)
      else .ok (p.takeBody n) := by
  rw [appendBody, List.length_take, min_eq_left h]
  rfl

/-- Bytes behind those that are taken into the body only wait. -/
theorem takeBody_feed {p : ResponseParser} {n : ℕ} (h : n ≤ p.buf.length) (more : Bytes) :
    (p.feed more).takeBody n = (p.takeBody n).feed more := by
  have htake : (p.feed more).buf.take n = p.buf.take n := List.take_append_of_le_length h
  rw [takeBody, feed_drain h, htake]
  rfl

/-- Two pieces are taken as one. -/
theorem takeBody_takeBody (p : ResponseParser) (more : Bytes) (n : ℕ) :
    ((p.takeBody p.buf.length).feed more).takeBody n =
      (p.feed more).takeBody (p.buf.length + n) := by
  have htake : p.buf.take p.buf.length = p.buf := List.take_length
  have hdrop : p.buf.drop p.buf.length = [] := List.drop_length
  simp only [takeBody, drain, feed, htake, hdrop, List.nil_append, List.append_assoc,
    List.take_length_add_append, List.drop_length_add_append]

/-- The body grows by the bytes that are taken. -/
theorem takeBody_length {p : ResponseParser} {n : ℕ} (h : n ≤ p.buf.length) :
    (p.takeBody n).response.body.length = p.response.body.length + n := by
  rw [takeBody]
  dsimp only
  rw [List.length_append, List.length_take, min_eq_left h]

theorem takeBody_zero (p : ResponseParser) : p.takeBody 0 = p := by
  rw [takeBody, drain, List.take_zero, List.append_nil, List.drop_zero]

/-- The body of a known length, with what is taken given a name. -/
theorem parseBody_length_eq (p : ResponseParser) (chunk : ChunkState) (total : ℕ) :
    p.parseBody limits chunk (.length total) =
      let take := min (total - p.response.body.length) p.buf.length
      if tooLong limits p.response.body.length take then
        .error (.httpTooLarge "body" limits.maxBodyBytes)
      else if p.response.body.length + take = total then
        .ok (true, { p.takeBody take with state := .done })
      else .ok (false, p.takeBody take) := by
  rw [parseBody, appendBody_take p (min_le_right ..)]
  dsimp only
  split_ifs with hlong hall
  · rfl
  · rw [ok_bind, takeBody_length (min_le_right ..), if_pos hall]
    rfl
  · rw [ok_bind, takeBody_length (min_le_right ..), if_neg hall]
    rfl

/-- The body up to the close, with what is taken given a name. -/
theorem parseBody_untilClose_eq (p : ResponseParser) (chunk : ChunkState) :
    p.parseBody limits chunk .untilClose =
      if tooLong limits p.response.body.length p.buf.length then
        .error (.httpTooLarge "body" limits.maxBodyBytes)
      else .ok (false, p.takeBody p.buf.length) := by
  have htake : (p.drain p.buf.length).appendBody limits (p.buf.take p.buf.length) = _ :=
    appendBody_take p le_rfl
  rw [List.take_length, drain, List.drop_length] at htake
  rw [parseBody, htake]
  split_ifs <;> rfl

/-- The data of a chunk, with what is taken given a name. -/
theorem parseChunk_data_eq (p : ResponseParser) (remaining : ℕ) :
    p.parseChunk limits (.data remaining) =
      if p.buf = [] then .ok (false, p)
      else
        let take := min remaining p.buf.length
        if tooLong limits p.response.body.length take then
          .error (.httpTooLarge "body" limits.maxBodyBytes)
        else .ok (true, (p.takeBody take).setChunk (dataState (remaining - take))) := by
  rw [parseChunk]
  dsimp only
  rw [appendBody_take p (min_le_right ..)]
  split_ifs <;> rfl

/-- A turn in a body is one of its framing. -/
theorem turn_body {p : ResponseParser} {framing : Framing} {chunk : ChunkState}
    (h : p.state = .body framing chunk) :
    p.turn httparse limits headRequest = p.parseBody limits chunk framing := by
  rw [turn, h]

/-- More bytes do not change which kind of turn it is. -/
theorem turn_feed_body {p : ResponseParser} {framing : Framing} {chunk : ChunkState}
    (more : Bytes) (h : p.state = .body framing chunk) :
    (p.feed more).turn httparse limits headRequest =
      (p.feed more).parseBody limits chunk framing :=
  turn_body ((p.feed_state more).trans h)

/-- Outside of chunk-size lines and trailers no line is read. -/
theorem not_longLine {p : ResponseParser} (hsize : p.state ≠ .body .chunked .size)
    (htrailers : p.state ≠ .body .chunked .trailers) : ¬LongLine limits p :=
  fun h => h.elim (fun h => hsize h.1) fun h => htrailers h.1

/-- A turn in a body with a length: it takes what is there up to the length, and with more bytes
there it takes more at once. -/
theorem parseLength_feed {p p' : ResponseParser} {again : Bool} {total : ℕ} {chunk : ChunkState}
    (more : Bytes) (hstate : p.state = .body (.length total) chunk)
    (h : p.parseBody limits chunk (.length total) = .ok (again, p')) :
    Extends httparse limits headRequest p again p' more := by
  rw [parseBody_length_eq] at h
  dsimp only at h
  split_ifs at h with hlong hall
  · obtain ⟨rfl, rfl⟩ := Prod.mk.inj (Except.ok.inj h)
    have hsame : min (total - p.response.body.length) (p.buf ++ more).length =
        min (total - p.response.body.length) p.buf.length := by
      rw [List.length_append]
      omega
    refine .inr ⟨rfl, ?_⟩
    rw [turn_feed_body more hstate, parseBody_length_eq]
    simp only [feed_response, feed_buf, hsame]
    rw [if_neg hlong, if_pos hall, takeBody_feed (min_le_right ..)]
    rfl
  · obtain ⟨rfl, rfl⟩ := Prod.mk.inj (Except.ok.inj h)
    rcases Nat.lt_or_ge p.buf.length (total - p.response.body.length) with hmore | hless
    · -- the whole piece is taken, and the next one goes on where it ended
      rw [min_eq_right hmore.le]
      refine .inl ⟨?_, fun hline => absurd hline (not_longLine ?_ ?_)⟩
      · have hstate' : ((p.takeBody p.buf.length).feed more).state = .body (.length total) chunk :=
          hstate
        have hbody : ((p.takeBody p.buf.length).feed more).response.body.length =
            p.response.body.length + p.buf.length := takeBody_length le_rfl
        have hbuf : ((p.takeBody p.buf.length).feed more).buf = more := by
          simp [takeBody, drain]
        have htake : min (total - p.response.body.length) (p.buf.length + more.length) =
            p.buf.length +
              min (total - (p.response.body.length + p.buf.length)) more.length := by omega
        rw [turn_feed_body more hstate, turn_body hstate', parseBody_length_eq, parseBody_length_eq]
        dsimp only
        rw [hbody, hbuf, feed_buf, feed_response, List.length_append, htake, tooLong_add,
          takeBody_takeBody, Nat.add_assoc]
      · exact fun heq => by cases hstate.symm.trans heq
      · exact fun heq => by cases hstate.symm.trans heq
    · -- the body is longer than it should be, which no run of the parser makes it
      have hzero : min (total - p.response.body.length) p.buf.length = 0 := by omega
      rw [hzero, takeBody_zero]
      exact extends_refl ..

/-- A turn in a body up to the close takes all that is there, so more bytes are taken at once. -/
theorem parseUntilClose_feed {p p' : ResponseParser} {again : Bool} {chunk : ChunkState}
    (more : Bytes) (hstate : p.state = .body .untilClose chunk)
    (h : p.parseBody limits chunk .untilClose = .ok (again, p')) :
    Extends httparse limits headRequest p again p' more := by
  rw [parseBody_untilClose_eq] at h
  split_ifs at h
  obtain ⟨rfl, rfl⟩ := Prod.mk.inj (Except.ok.inj h)
  refine .inl ⟨?_, fun hline => absurd hline (not_longLine ?_ ?_)⟩
  · have hstate' : ((p.takeBody p.buf.length).feed more).state = .body .untilClose chunk := hstate
    have hbody : ((p.takeBody p.buf.length).feed more).response.body.length =
        p.response.body.length + p.buf.length := takeBody_length le_rfl
    have hbuf : ((p.takeBody p.buf.length).feed more).buf = more := by
      simp [takeBody, drain]
    rw [turn_feed_body more hstate, turn_body hstate', parseBody_untilClose_eq,
      parseBody_untilClose_eq, hbody, hbuf, feed_buf, feed_response, List.length_append,
      tooLong_add, takeBody_takeBody]
  · exact fun heq => by cases hstate.symm.trans heq
  · exact fun heq => by cases hstate.symm.trans heq

/-- A turn in the data of a chunk takes what is there up to the end of the chunk. -/
theorem parseData_feed {p p' : ResponseParser} {again : Bool} {remaining : ℕ} (more : Bytes)
    (hstate : p.state = .body .chunked (.data remaining))
    (h : p.parseChunk limits (.data remaining) = .ok (again, p')) :
    Extends httparse limits headRequest p again p' more := by
  have hturn : p.turn httparse limits headRequest = .ok (again, p') :=
    (turn_body hstate).trans h
  rw [parseChunk_data_eq] at h
  dsimp only at h
  split_ifs at h with hnil hlong
  · obtain ⟨rfl, rfl⟩ := Prod.mk.inj (Except.ok.inj h)
    exact extends_refl ..
  obtain ⟨rfl, rfl⟩ := Prod.mk.inj (Except.ok.inj h)
  rcases Nat.lt_or_ge p.buf.length remaining with hmore | hless
  · rcases eq_or_ne more [] with rfl | hne
    · exact .inr ⟨rfl, by rw [feed_nil, hturn, feed_nil]⟩
    -- the whole piece is taken, and the next one goes on where it ended
    have hleft : dataState (remaining - p.buf.length) = .data (remaining - p.buf.length) :=
      if_neg (by omega)
    rw [min_eq_right hmore.le, hleft]
    refine .inl ⟨?_, fun hline => absurd hline (not_longLine nofun nofun)⟩
    have hbody : (p.takeBody p.buf.length).response.body.length =
        p.response.body.length + p.buf.length := takeBody_length le_rfl
    have htake : min remaining (p.buf.length + more.length) =
        p.buf.length + min (remaining - p.buf.length) more.length := by omega
    have hbuf : (((p.takeBody p.buf.length).setChunk (.data (remaining - p.buf.length))).feed
        more).buf = more := by simp [setChunk, takeBody, drain]
    have hrest : remaining - (p.buf.length + min (remaining - p.buf.length) more.length) =
        remaining - p.buf.length - min (remaining - p.buf.length) more.length := by omega
    have hcons : p.buf ++ more ≠ [] := fun heq => hnil (List.append_eq_nil_iff.mp heq).1
    have hnext : (((p.takeBody p.buf.length).setChunk (.data (remaining - p.buf.length))).feed
        more).turn httparse limits headRequest = _ := turn_feed_body more rfl
    rw [turn_feed_body more hstate, hnext, parseBody, parseBody, parseChunk_data_eq,
      parseChunk_data_eq, hbuf, feed_buf, if_neg hne, if_neg hcons]
    dsimp only
    rw [feed_response, feed_response, List.length_append, htake, hrest, ← takeBody_takeBody]
    change _ = if tooLong limits (p.takeBody p.buf.length).response.body.length _ = true then _
      else _
    rw [hbody, tooLong_add]
    rfl
  · have hne : (p.feed more).buf ≠ [] := fun heq => hnil (List.append_eq_nil_iff.mp heq).1
    have htake : min remaining (p.feed more).buf.length = min remaining p.buf.length := by
      rw [feed_buf, List.length_append]
      omega
    refine .inr ⟨rfl, ?_⟩
    rw [turn_feed_body more hstate, parseBody, parseChunk_data_eq, if_neg hne, htake]
    dsimp only
    rw [feed_response, if_neg hlong, takeBody_feed (min_le_right ..)]
    rfl

/-- The state after a chunk-size line. -/
def sizeState (size : ℕ) : ChunkState := if size = 0 then .trailers else .data size

/-- The parser after a line of the trailers. -/
def takeTrailer (p : ResponseParser) (lineEnd : ℕ) : ResponseParser :=
  if lineEnd = 0 then { p.drain 2 with state := .done } else p.drain (lineEnd + 2)

/-- What a chunk-size line can do. -/
theorem parseSize_cases {p p' : ResponseParser} {again : Bool}
    (h : p.parseChunk limits .size = .ok (again, p')) :
    again = false ∧ p' = p ∨ ∃ lineEnd size, again = true ∧ findCrlf p.buf = some lineEnd ∧
      chunkSize usizeMax (p.buf.take lineEnd) = .ok size ∧
      (size ≠ 0 → tooLong limits p.response.body.length size = false) ∧
      p' = (p.drain (lineEnd + 2)).setChunk (sizeState size) := by
  rw [parseChunk] at h
  cases hline : findCrlf p.buf with
  | none =>
    rw [hline] at h
    dsimp only at h
    split_ifs at h
    obtain ⟨rfl, rfl⟩ := Prod.mk.inj (Except.ok.inj h)
    exact .inl ⟨rfl, rfl⟩
  | some lineEnd =>
    rw [hline] at h
    obtain ⟨size, hsize, hrest⟩ := bind_eq_ok_iff.mp h
    refine .inr ⟨lineEnd, size, ?_⟩
    split_ifs at hrest with hzero hlong
    · obtain ⟨rfl, rfl⟩ := Prod.mk.inj (Except.ok.inj hrest)
      exact ⟨rfl, rfl, hsize, fun hne => absurd hzero hne, by rw [sizeState, if_pos hzero]⟩
    · obtain ⟨rfl, rfl⟩ := Prod.mk.inj (Except.ok.inj hrest)
      exact ⟨rfl, rfl, hsize, fun _ => Bool.eq_false_iff.mpr hlong,
        by rw [sizeState, if_neg hzero]⟩

/-- A chunk-size line that has ended is taken. -/
theorem turn_sizeLine {p : ResponseParser} {lineEnd size : ℕ}
    (hstate : p.state = .body .chunked .size) (hline : findCrlf p.buf = some lineEnd)
    (hsize : chunkSize usizeMax (p.buf.take lineEnd) = .ok size)
    (hfits : size ≠ 0 → tooLong limits p.response.body.length size = false) :
    p.turn httparse limits headRequest =
      .ok (true, (p.drain (lineEnd + 2)).setChunk (sizeState size)) := by
  rw [turn_body hstate, parseBody, parseChunk, hline]
  dsimp only
  rw [hsize, ok_bind, sizeState]
  split_ifs with hzero hlong
  · rfl
  · rw [hfits hzero] at hlong
    cases hlong
  · rfl

/-- What a line of the trailers can do. -/
theorem parseTrailers_cases {p p' : ResponseParser} {again : Bool}
    (h : p.parseChunk limits .trailers = .ok (again, p')) :
    again = false ∧ p' = p ∨ ∃ lineEnd, again = true ∧ findCrlf p.buf = some lineEnd ∧
      p' = p.takeTrailer lineEnd := by
  rw [parseChunk] at h
  cases hline : findCrlf p.buf with
  | none =>
    rw [hline] at h
    dsimp only at h
    split_ifs at h
    obtain ⟨rfl, rfl⟩ := Prod.mk.inj (Except.ok.inj h)
    exact .inl ⟨rfl, rfl⟩
  | some lineEnd =>
    rw [hline] at h
    obtain ⟨rfl, rfl⟩ := Prod.mk.inj (Except.ok.inj h)
    exact .inr ⟨lineEnd, rfl, rfl, rfl⟩

/-- A complete line of the trailers is taken, whatever its length. -/
theorem turn_trailers {p : ResponseParser} {lineEnd : ℕ}
    (hstate : p.state = .body .chunked .trailers) (hline : findCrlf p.buf = some lineEnd) :
    p.turn httparse limits headRequest = .ok (true, p.takeTrailer lineEnd) := by
  rw [turn_body hstate, parseBody, parseChunk, hline]
  rfl

/-- A line of the trailers is taken as before when more bytes are there. -/
theorem takeTrailer_feed {p : ResponseParser} {lineEnd : ℕ} (h : lineEnd + 2 ≤ p.buf.length)
    (more : Bytes) : (p.feed more).takeTrailer lineEnd = (p.takeTrailer lineEnd).feed more := by
  rw [takeTrailer, takeTrailer, feed_drain h, feed_drain (Nat.le_of_add_left_le h)]
  split_ifs <;> rfl

/-- What the CRLF behind a chunk can do. -/
theorem parseDataEnd_cases {p p' : ResponseParser} {again : Bool}
    (h : p.parseChunk limits .dataEnd = .ok (again, p')) :
    again = false ∧ p' = p ∨ again = true ∧ 2 ≤ p.buf.length ∧ p.buf.take 2 = [13, 10] ∧
      p' = (p.drain 2).setChunk .size := by
  rw [parseChunk] at h
  split_ifs at h with hshort hcrlf
  · obtain ⟨rfl, rfl⟩ := Prod.mk.inj (Except.ok.inj h)
    exact .inl ⟨rfl, rfl⟩
  · obtain ⟨rfl, rfl⟩ := Prod.mk.inj (Except.ok.inj h)
    exact .inr ⟨rfl, not_lt.mp hshort, not_not.mp hcrlf, rfl⟩

/-- Behind the data of a chunk come the two bytes of a line end. -/
theorem turn_dataEnd {p : ResponseParser} (hstate : p.state = .body .chunked .dataEnd)
    (hcrlf : p.buf.take 2 = [13, 10]) :
    p.turn httparse limits headRequest = .ok (true, (p.drain 2).setChunk .size) := by
  have hlen : ¬p.buf.length < 2 := by
    have hlength := congrArg List.length hcrlf
    rw [List.length_take] at hlength
    simp only [List.length_cons, List.length_nil] at hlength
    omega
  rw [turn_body hstate, parseBody, parseChunk, if_neg hlen, if_neg (not_not.mpr hcrlf)]

/-- A turn in a chunked body goes on as before when more bytes were there, or takes a line that is
too long. -/
theorem parseChunk_feed {p p' : ResponseParser} {again : Bool} {chunk : ChunkState} (more : Bytes)
    (hstate : p.state = .body .chunked chunk)
    (h : p.parseChunk limits chunk = .ok (again, p')) :
    Extends httparse limits headRequest p again p' more := by
  have hfeed : (p.feed more).state = .body .chunked chunk := (p.feed_state more).trans hstate
  cases chunk with
  | size =>
    rcases parseSize_cases h with ⟨rfl, rfl⟩ | ⟨lineEnd, size, rfl, hline, hsize, hfits, rfl⟩
    · exact extends_refl ..
    · have hle := findCrlf_le hline
      have hsize' : chunkSize usizeMax ((p.feed more).buf.take lineEnd) = .ok size := by
        rwa [feed_buf, List.take_append_of_le_length (by omega)]
      refine .inr ⟨rfl, ?_⟩
      rw [turn_sizeLine hfeed (findCrlf_append hline more) hsize' hfits, feed_drain hle]
      rfl
  | data remaining => exact parseData_feed more hstate h
  | dataEnd =>
    rcases parseDataEnd_cases h with ⟨rfl, rfl⟩ | ⟨rfl, hlen, hcrlf, rfl⟩
    · exact extends_refl ..
    · have hcrlf' : (p.feed more).buf.take 2 = [13, 10] := by
        rwa [feed_buf, List.take_append_of_le_length hlen]
      refine .inr ⟨rfl, ?_⟩
      rw [turn_dataEnd hfeed hcrlf', feed_drain hlen]
      rfl
  | trailers =>
    rcases parseTrailers_cases h with ⟨rfl, rfl⟩ | ⟨lineEnd, rfl, hline, rfl⟩
    · exact extends_refl ..
    · refine .inr ⟨rfl, ?_⟩
      rw [turn_trailers hfeed (findCrlf_append hline more), takeTrailer_feed (findCrlf_le hline)]

/-- More bytes go on from where a turn ended. -/
theorem turn_feed {p p' : ResponseParser} {again : Bool} (more : Bytes)
    (h : p.turn httparse limits headRequest = .ok (again, p')) :
    Extends httparse limits headRequest p again p' more := by
  cases hstate : p.state with
  | head =>
    rw [turn, hstate] at h
    exact parseHead_feed more hstate h
  | body framing chunk =>
    rw [turn_body hstate] at h
    cases framing with
    | length total => exact parseLength_feed more hstate h
    | chunked => exact parseChunk_feed more hstate h
    | untilClose => exact parseUntilClose_feed more hstate h
  | done =>
    rw [turn, hstate] at h
    dsimp only at h
    split_ifs at h
    obtain ⟨rfl, rfl⟩ := Prod.mk.inj (Except.ok.inj h)
    exact extends_refl ..

/-! ### Failing -/

/-- What is refused without being read is refused with more bytes. -/
theorem parseHead_refused_feed {p : ResponseParser} (more : Bytes)
    (hnot : ∀ consumed head, httparse.read p.buf ≠ .complete consumed head)
    (hpending : httparse.read p.buf ≠ .pending) :
    ∃ e, (p.feed more).parseHead httparse limits headRequest = .error e := by
  rw [parseHead, feed_buf]
  cases hread : httparse.read (p.buf ++ more) with
  | pending => exact absurd (pending_of_append httparse hread) hpending
  | tooManyHeaders => exact ⟨_, rfl⟩
  | malformed reason => exact ⟨_, rfl⟩
  | complete consumed head => exact absurd (pending_of_read_append httparse hnot hread).1 hpending

/-- A head that is refused is refused with more bytes too, if with another error. -/
theorem parseHead_error_feed {p : ResponseParser} {e : TlsError} (more : Bytes)
    (h : p.parseHead httparse limits headRequest = .error e) :
    ∃ e', (p.feed more).parseHead httparse limits headRequest = .error e' := by
  rw [parseHead] at h
  rw [parseHead, feed_buf]
  cases hread : httparse.read p.buf with
  | pending =>
    rw [hread] at h
    dsimp only at h
    split_ifs at h with hlong
    -- the head was too long already, and stays so whatever the rest makes of it
    cases hread' : httparse.read (p.buf ++ more) with
    | pending =>
      dsimp only
      rw [if_pos (by rw [List.length_append]; omega)]
      exact ⟨_, rfl⟩
    | tooManyHeaders => exact ⟨_, rfl⟩
    | malformed reason => exact ⟨_, rfl⟩
    | complete consumed head =>
      have hnot : ∀ consumed head, httparse.read p.buf ≠ .complete consumed head := by
        rw [hread]
        exact nofun
      have hconsumed := (pending_of_read_append httparse hnot hread').2
      dsimp only
      rw [if_pos (by omega)]
      exact ⟨_, rfl⟩
  | tooManyHeaders =>
    have hread' : ∃ e', (p.feed more).parseHead httparse limits headRequest = .error e' :=
      parseHead_refused_feed more (by rw [hread]; exact nofun) (by rw [hread]; exact nofun)
    rwa [parseHead, feed_buf] at hread'
  | malformed reason =>
    have hread' : ∃ e', (p.feed more).parseHead httparse limits headRequest = .error e' :=
      parseHead_refused_feed more (by rw [hread]; exact nofun) (by rw [hread]; exact nofun)
    rwa [parseHead, feed_buf] at hread'
  | complete consumed head =>
    rw [hread] at h
    -- a whole head is read as before, and refused for the same reason
    rw [read_append httparse hread]
    dsimp only at h ⊢
    split_ifs at h ⊢ with hlong
    · exact ⟨_, rfl⟩
    · rw [feed_drain (httparse.consumed_le hread).2, takeHead_feed]
      cases htake : (p.drain consumed).takeHead limits headRequest head with
      | error e' => exact ⟨_, rfl⟩
      | ok q =>
        rw [htake] at h
        cases h

/-- What does not fit fits no better with more. -/
theorem appendBody_error_feed {p : ResponseParser} {n n' : ℕ} (hle : n ≤ n')
    (h : tooLong limits p.response.body.length n = true) :
    tooLong limits p.response.body.length n' = true := by
  by_contra hnot
  rw [tooLong_mono hle (Bool.eq_false_iff.mpr hnot)] at h
  cases h

/-- A chunk-size line that is refused is refused with more bytes, or they bring the end of a line
that was too long without one. -/
theorem parseSize_error_feed {p : ResponseParser} {e : TlsError} (more : Bytes)
    (hstate : p.state = .body .chunked .size) (h : p.parseChunk limits .size = .error e) :
    (∃ e', (p.feed more).parseChunk limits .size = .error e') ∨ LongLine limits (p.feed more) := by
  rw [parseChunk] at h ⊢
  rw [feed_buf]
  cases hline : findCrlf p.buf with
  | none =>
    rw [hline] at h
    dsimp only at h
    split_ifs at h with hlong
    cases hline' : findCrlf (p.buf ++ more) with
    | none =>
      dsimp only
      rw [if_pos (by rw [List.length_append]; omega)]
      exact .inl ⟨_, rfl⟩
    | some n =>
      have hle := le_of_findCrlf_append hline hline'
      exact .inr (.inl ⟨hstate, n, hline', by omega⟩)
  | some lineEnd =>
    left
    -- the line has ended, so the size and the bound are read off the same bytes
    have hle := findCrlf_le hline
    rw [findCrlf_append hline more]
    rw [hline] at h
    dsimp only at h ⊢
    rw [List.take_append_of_le_length (by omega), feed_response]
    cases hsize : chunkSize usizeMax (p.buf.take lineEnd) with
    | error e' => exact ⟨e', rfl⟩
    | ok size =>
      rw [hsize, ok_bind] at h
      rw [ok_bind]
      split_ifs at h ⊢
      · cases h
      · exact ⟨_, rfl⟩
      · cases h

/-- A line of the trailers is refused only for its length before it has ended. -/
theorem parseTrailers_error_feed {p : ResponseParser} {e : TlsError} (more : Bytes)
    (hstate : p.state = .body .chunked .trailers)
    (h : p.parseChunk limits .trailers = .error e) :
    (∃ e', (p.feed more).parseChunk limits .trailers = .error e') ∨
      LongLine limits (p.feed more) := by
  rw [parseChunk] at h ⊢
  rw [feed_buf]
  cases hline : findCrlf p.buf with
  | none =>
    rw [hline] at h
    dsimp only at h
    split_ifs at h with hlong
    cases hline' : findCrlf (p.buf ++ more) with
    | none =>
      dsimp only
      rw [if_pos (by rw [List.length_append]; omega)]
      exact .inl ⟨_, rfl⟩
    | some n =>
      have hle := le_of_findCrlf_append hline hline'
      exact .inr (.inr ⟨hstate, n, hline', by omega⟩)
  | some lineEnd =>
    rw [hline] at h
    cases h

/-- What is refused of a chunked body is refused with more bytes, or it is a line whose end they
bring. -/
theorem parseChunk_error_feed {p : ResponseParser} {chunk : ChunkState} {e : TlsError}
    (more : Bytes) (hstate : p.state = .body .chunked chunk)
    (h : p.parseChunk limits chunk = .error e) :
    (∃ e', (p.feed more).parseChunk limits chunk = .error e') ∨ LongLine limits (p.feed more) := by
  cases chunk with
  | size => exact parseSize_error_feed more hstate h
  | data remaining =>
    left
    rw [parseChunk_data_eq] at h ⊢
    dsimp only at h ⊢
    split_ifs at h with hnil hlong
    have hne : (p.feed more).buf ≠ [] := fun heq => hnil (List.append_eq_nil_iff.mp heq).1
    rw [if_neg hne, feed_response,
      if_pos (appendBody_error_feed (min_le_min_left _ (by simp)) hlong)]
    exact ⟨_, rfl⟩
  | dataEnd =>
    left
    rw [parseChunk] at h ⊢
    split_ifs at h with hshort hcrlf
    have hlen : 2 ≤ p.buf.length := not_lt.mp hshort
    rw [feed_buf, List.length_append, if_neg (by omega),
      List.take_append_of_le_length hlen, if_pos hcrlf]
    exact ⟨_, rfl⟩
  | trailers => exact parseTrailers_error_feed more hstate h

/-- What a turn refuses is refused with more bytes, or it is a line whose end they bring. -/
theorem turn_error_feed {p : ResponseParser} {e : TlsError} (more : Bytes)
    (h : p.turn httparse limits headRequest = .error e) :
    (∃ e', (p.feed more).turn httparse limits headRequest = .error e') ∨
      LongLine limits (p.feed more) := by
  cases hstate : p.state with
  | head =>
    rw [turn, hstate] at h
    rw [turn, feed_state, hstate]
    exact .inl (parseHead_error_feed more h)
  | done =>
    -- bytes behind the end of a response are refused, and more bytes leave them there
    rw [turn, hstate] at h
    dsimp only at h
    split_ifs at h with hnil
    have hne : (p.feed more).buf ≠ [] := fun heq => hnil (List.append_eq_nil_iff.mp heq).1
    rw [turn, feed_state, hstate]
    dsimp only
    rw [if_neg hne]
    exact .inl ⟨_, rfl⟩
  | body framing chunk =>
    rw [turn_body hstate] at h
    rw [turn_feed_body more hstate]
    cases framing with
    | length total =>
      left
      rw [parseBody_length_eq] at h ⊢
      dsimp only at h ⊢
      split_ifs at h with hlong
      rw [feed_response, if_pos (appendBody_error_feed (min_le_min_left _ (by simp)) hlong)]
      exact ⟨_, rfl⟩
    | untilClose =>
      left
      rw [parseBody_untilClose_eq] at h ⊢
      split_ifs at h with hlong
      rw [feed_response, if_pos (appendBody_error_feed (by simp) hlong)]
      exact ⟨_, rfl⟩
    | chunked => exact parseChunk_error_feed more hstate h

/-! ### The loop -/

/-- The rank of a state is 2 at most. -/
theorem rank_le (state : ParserState) : rank state ≤ 2 := by
  unfold rank
  split <;> omega

/-- Only the last state has rank 0. -/
theorem rank_pos {state : ParserState} (h : state ≠ .done) : 0 < rank state := by
  unfold rank
  split
  · exact absurd rfl h
  · exact Nat.two_pos
  · exact Nat.one_pos

/-- The measure goes down when the buffer gets shorter, or when the state comes nearer to its end
with the buffer as it is. -/
theorem size_lt {p p' : ResponseParser} (hstate : p.state ≠ .done)
    (h : p'.buf.length < p.buf.length ∨
      rank p'.state < rank p.state ∧ p'.buf.length ≤ p.buf.length) : p'.size < p.size := by
  rw [size, size]
  rcases h with hlt | ⟨hrank, hle⟩
  · have hle := rank_le p'.state
    have hpos := rank_pos hstate
    omega
  · omega

/-- Taking bytes makes the buffer shorter. -/
theorem drain_lt {p : ResponseParser} {n : ℕ} (hpos : 0 < n) (hle : n ≤ p.buf.length) :
    (p.drain n).buf.length < p.buf.length := by
  rw [drain, List.length_drop]
  omega

/-- Taking a head does not touch the buffer behind it. -/
theorem takeHead_buf {p p' : ResponseParser} {head : ParsedHead}
    (h : p.takeHead limits headRequest head = .ok p') : p'.buf = p.buf := by
  rw [takeHead] at h
  cases hcode : head.code with
  | none =>
    rw [hcode] at h
    cases h
  | some status =>
    rw [hcode] at h
    dsimp only at h
    split_ifs at h
    · rw [← Except.ok.inj h]
    · obtain ⟨framed, -, hret⟩ := bind_eq_ok_iff.mp h
      rw [← Except.ok.inj hret]

/-- A turn with progress in a chunked body takes bytes, but at the end of the data of a chunk, where
the state gets on instead. -/
theorem parseChunk_size {p p' : ResponseParser} {chunk : ChunkState}
    (hstate : p.state = .body .chunked chunk)
    (h : p.parseChunk limits chunk = .ok (true, p')) :
    p'.buf.length < p.buf.length ∨
      rank p'.state < rank p.state ∧ p'.buf.length ≤ p.buf.length := by
  cases chunk with
  | size =>
    rcases parseSize_cases h with ⟨hwait, -⟩ | ⟨lineEnd, size, -, hline, -, -, rfl⟩
    · cases hwait
    · exact .inl (drain_lt (Nat.succ_pos (lineEnd + 1)) (findCrlf_le hline))
  | data remaining =>
    rw [parseChunk_data_eq] at h
    dsimp only at h
    split_ifs at h with hnil
    · cases h
    · obtain ⟨-, rfl⟩ := Prod.mk.inj (Except.ok.inj h)
      rcases Nat.eq_zero_or_pos remaining with rfl | hpos
      · right
        rw [hstate]
        exact ⟨by simp [setChunk, dataState, rank], by simp [setChunk, takeBody, drain]⟩
      · have hlen := List.length_pos_iff.mpr hnil
        exact .inl (drain_lt (by omega) (min_le_right ..))
  | dataEnd =>
    rcases parseDataEnd_cases h with ⟨hwait, -⟩ | ⟨-, hlen, -, rfl⟩
    · cases hwait
    · exact .inl (drain_lt Nat.two_pos hlen)
  | trailers =>
    rcases parseTrailers_cases h with ⟨hwait, -⟩ | ⟨lineEnd, -, hline, rfl⟩
    · cases hwait
    · have hlt := drain_lt (Nat.succ_pos (lineEnd + 1)) (findCrlf_le hline)
      left
      rw [takeTrailer]
      split_ifs with hempty
      · rw [hempty] at hlt
        exact hlt
      · exact hlt

/-- A turn with progress takes bytes, or it is the last. -/
theorem turn_size {p p' : ResponseParser}
    (h : p.turn httparse limits headRequest = .ok (true, p')) : p'.size < p.size := by
  cases hstate : p.state with
  | head =>
    rw [turn, hstate] at h
    refine size_lt (by rw [hstate]; exact nofun) (.inl ?_)
    rcases parseHead_cases h with ⟨hwait, -⟩ | ⟨consumed, head, -, hread, -, htake⟩
    · cases hwait
    · obtain ⟨hpos, hle⟩ := httparse.consumed_le hread
      rw [takeHead_buf htake]
      exact drain_lt hpos hle
  | done =>
    rw [turn, hstate] at h
    dsimp only at h
    split_ifs at h
    cases h
  | body framing chunk =>
    rw [turn_body hstate] at h
    have hne : p.state ≠ .done := by
      rw [hstate]
      exact nofun
    refine size_lt hne ?_
    cases framing with
    | length total =>
      rw [parseBody_length_eq] at h
      dsimp only at h
      split_ifs at h
      -- a body of a known length is done, if with no byte of its own
      · obtain ⟨-, rfl⟩ := Prod.mk.inj (Except.ok.inj h)
        exact .inr ⟨rank_pos hne, by simp [takeBody, drain]⟩
      · cases h
    | untilClose =>
      rw [parseBody_untilClose_eq] at h
      split_ifs at h
      cases h
    | chunked => exact parseChunk_size hstate h

/-- The loop of `push`. -/
def run (httparse : HeadParser) (limits : HttpLimits usizeMax) (headRequest : Bool)
    (p : ResponseParser) : Except TlsError ResponseParser :=
  match _h : p.turn httparse limits headRequest with
  | .error e => .error e
  | .ok (false, p') => .ok p'
  | .ok (true, p') => run httparse limits headRequest p'
termination_by p.size
decreasing_by exact turn_size _h

/-- `push`. -/
def push (httparse : HeadParser) (limits : HttpLimits usizeMax) (headRequest : Bool)
    (p : ResponseParser) (data : Bytes) : Except TlsError ResponseParser :=
  if p.state = .done then
    if data = [] then .ok p else .error (trailingBytes data.length)
  else (p.feed data).run httparse limits headRequest

/-- `finish_on_close`. -/
def finishOnClose (limits : HttpLimits usizeMax) (closeNotify : Bool) (p : ResponseParser) :
    Except TlsError ResponseParser :=
  match p.state with
  | .done => .ok p
  | .body .untilClose _ =>
    if closeNotify then do
      let p ← ({ p with buf := [] } : ResponseParser).appendBody limits p.buf
      return { p with state := .done, response.keepAlive := false }
    else
      .error (.httpTruncated "without TLS close_notify inside a close-delimited body")
  | .head => .error (.httpTruncated "before the response head")
  | .body _ _ => .error (.httpTruncated "inside the response body")

/-- `take_response`. -/
def takeResponse (p : ResponseParser) : Option HttpResponse :=
  if p.state = .done then some p.response else none

/-- The pieces are pushed in turn and the connection ends: the response, if there is one. -/
def outcome (httparse : HeadParser) (limits : HttpLimits usizeMax) (headRequest : Bool)
    (closeNotify : Bool) (pieces : List Bytes) : Option HttpResponse :=
  (do
    let p ← pieces.foldlM (push httparse limits headRequest) new
    p.finishOnClose limits closeNotify).toOption.bind takeResponse

/-- A run is a turn, and the run of what it leads to when the turn asks for another. -/
theorem run_eq (p : ResponseParser) :
    p.run httparse limits headRequest = (do
      let step ← p.turn httparse limits headRequest
      if step.1 then step.2.run httparse limits headRequest else .ok step.2) := by
  rw [run]
  split
  · next h => rw [h]; rfl
  · next h => rw [h]; rfl
  · next h => rw [h]; rfl

/-! ### Two pieces are one -/

/-- On the way the parser takes a line that would have been refused before its end came. -/
inductive TakesLong (httparse : HeadParser) (limits : HttpLimits usizeMax) (headRequest : Bool) :
    ResponseParser → Prop where
  | here {p : ResponseParser} (h : LongLine limits p) : TakesLong httparse limits headRequest p
  | later {p p' : ResponseParser} (h : p.turn httparse limits headRequest = .ok (true, p'))
      (h' : TakesLong httparse limits headRequest p') : TakesLong httparse limits headRequest p

/-- A run goes on behind a turn that asks for another. -/
theorem run_of_turn_again {p p' : ResponseParser}
    (h : p.turn httparse limits headRequest = .ok (true, p')) :
    p.run httparse limits headRequest = p'.run httparse limits headRequest := by
  rw [run_eq, h]
  rfl

/-- A run ends with a turn that waits. -/
theorem run_of_turn_wait {p p' : ResponseParser}
    (h : p.turn httparse limits headRequest = .ok (false, p')) :
    p.run httparse limits headRequest = .ok p' := by
  rw [run_eq, h]
  rfl

/-- A turn before more bytes came is one of the turns of the run with them. -/
theorem Extends.run_eq {p p' : ResponseParser} {again : Bool} {more : Bytes}
    (h : Extends httparse limits headRequest p again p' more) :
    (p.feed more).run httparse limits headRequest =
      (p'.feed more).run httparse limits headRequest := by
  rcases h with ⟨hturn, -⟩ | ⟨-, hturn⟩
  · rw [ResponseParser.run_eq, hturn, ← ResponseParser.run_eq]
  · exact run_of_turn_again hturn

/-- A line that is too long in the rest of a run is one in the run. -/
theorem Extends.takesLong {p p' : ResponseParser} {again : Bool} {more : Bytes}
    (h : Extends httparse limits headRequest p again p' more)
    (h' : TakesLong httparse limits headRequest (p'.feed more)) :
    TakesLong httparse limits headRequest (p.feed more) := by
  rcases h with ⟨hturn, hline⟩ | ⟨-, hturn⟩
  · cases h' with
    | here hlong => exact .here (hline hlong)
    | later hstep hlater => exact .later (hturn.trans hstep) hlater
  · exact .later hturn h'

/-- A run goes on with more bytes from where it ended, and a run that fails fails with more bytes
unless they end a line that is too long. -/
theorem run_feed (p : ResponseParser) (more : Bytes) :
    (∀ q, p.run httparse limits headRequest = .ok q →
      (p.feed more).run httparse limits headRequest =
          (q.feed more).run httparse limits headRequest ∧
        (TakesLong httparse limits headRequest (q.feed more) →
          TakesLong httparse limits headRequest (p.feed more))) ∧
    (∀ e q, p.run httparse limits headRequest = .error e →
      (p.feed more).run httparse limits headRequest = .ok q →
        TakesLong httparse limits headRequest (p.feed more)) := by
  induction hsize : p.size using Nat.strong_induction_on generalizing p with
  | h size ih =>
  cases hturn : p.turn httparse limits headRequest with
  | error e =>
    have hrun : p.run httparse limits headRequest = .error e := by
      rw [run_eq, hturn]
      rfl
    refine ⟨fun q hq => ?_, fun _ q _ hq => ?_⟩
    · rw [hrun] at hq
      cases hq
    · rcases turn_error_feed more hturn with ⟨e', he'⟩ | hlong
      · rw [run_eq, he'] at hq
        cases hq
      · exact .here hlong
  | ok step =>
    obtain ⟨again, p'⟩ := step
    have hext := turn_feed more hturn
    cases again with
    | false =>
      rw [run_of_turn_wait hturn]
      constructor
      · intro q hq
        obtain rfl := Except.ok.inj hq
        exact ⟨hext.run_eq, hext.takesLong⟩
      · exact nofun
    | true =>
      rw [run_of_turn_again hturn, hext.run_eq]
      obtain ⟨hok, herror⟩ := ih p'.size (hsize ▸ turn_size hturn) p' rfl
      refine ⟨fun q hq => ⟨(hok q hq).1, fun hlong => hext.takesLong ((hok q hq).2 hlong)⟩, ?_⟩
      exact fun e q he hq => hext.takesLong (herror e q he hq)

/-- Where a run ends it stays. -/
theorem run_run {p q : ResponseParser} (h : p.run httparse limits headRequest = .ok q) :
    q.run httparse limits headRequest = .ok q := by
  have hfeed := ((run_feed p []).1 q h).1
  rw [feed_nil, feed_nil] at hfeed
  rw [← hfeed, h]

/-- A parser that is done has nothing left. -/
def Clean (p : ResponseParser) : Prop := p.state = .done → p.buf = []

/-- A parser that its run leaves as it is waits for more bytes. -/
theorem clean_of_run {p : ResponseParser} (h : p.run httparse limits headRequest = .ok p) :
    p.Clean := by
  intro hdone
  by_contra hne
  rw [run_eq, turn, hdone] at h
  dsimp only at h
  rw [if_neg hne] at h
  cases h

/-- A push to a parser that waits is a run over the bytes. -/
theorem push_ok_iff {p q : ResponseParser} {data : Bytes} (hclean : p.Clean) :
    p.push httparse limits headRequest data = .ok q ↔
      (p.feed data).run httparse limits headRequest = .ok q := by
  rw [push]
  split_ifs with hdone hnil
  · have hturn : p.turn httparse limits headRequest = .ok (false, p) := by
      rw [turn, hdone]
      dsimp only
      rw [if_pos (hclean hdone)]
    rw [hnil, feed_nil, run_of_turn_wait hturn]
  · have hne : (p.feed data).buf ≠ [] := fun heq => hnil (List.append_eq_nil_iff.mp heq).2
    have hrun : ∃ e, (p.feed data).run httparse limits headRequest = .error e := by
      rw [run_eq, turn, feed_state, hdone]
      dsimp only
      rw [if_neg hne]
      exact ⟨_, rfl⟩
    obtain ⟨e, he⟩ := hrun
    rw [he]
    exact iff_of_false nofun nofun
  · exact Iff.rfl

/-- A run over bytes that came in two parts: two runs in turn lead where the run over all leads, and
back, unless the second takes a line that is too long. -/
theorem run_feed_feed (p : ResponseParser) (data rest : Bytes) :
    (∀ p₁ q, (p.feed data).run httparse limits headRequest = .ok p₁ →
      (p₁.feed rest).run httparse limits headRequest = .ok q →
      (p.feed (data ++ rest)).run httparse limits headRequest = .ok q) ∧
    (∀ q, ¬TakesLong httparse limits headRequest (p.feed (data ++ rest)) →
      (p.feed (data ++ rest)).run httparse limits headRequest = .ok q →
      ∃ p₁, (p.feed data).run httparse limits headRequest = .ok p₁ ∧
        (p₁.feed rest).run httparse limits headRequest = .ok q ∧
        ¬TakesLong httparse limits headRequest (p₁.feed rest)) := by
  have hfeed := @run_feed _ httparse limits headRequest (p.feed data) rest
  rw [feed_feed] at hfeed
  constructor
  · intro p₁ q hp₁ hq
    rw [(hfeed.1 p₁ hp₁).1, hq]
  · intro q hshort hq
    cases hrun : (p.feed data).run httparse limits headRequest with
    | error e => exact absurd (hfeed.2 e q hrun hq) hshort
    | ok p₁ =>
      obtain ⟨hsame, hlong⟩ := hfeed.1 p₁ hrun
      exact ⟨p₁, rfl, hsame ▸ hq, mt hlong hshort⟩

/-- The pieces in turn come to the same as all of them in one, unless a line is too long. -/
theorem foldlM_push {p q : ResponseParser} {pieces : List Bytes} (hclean : p.Clean)
    (hend : pieces ≠ [] ∨ p.run httparse limits headRequest = .ok p) :
    (pieces.foldlM (push httparse limits headRequest) p = .ok q →
      (p.feed pieces.flatten).run httparse limits headRequest = .ok q) ∧
    (¬TakesLong httparse limits headRequest (p.feed pieces.flatten) →
      (p.feed pieces.flatten).run httparse limits headRequest = .ok q →
      pieces.foldlM (push httparse limits headRequest) p = .ok q) := by
  induction pieces generalizing p with
  | nil =>
    have hrun := hend.resolve_left (not_not.mpr rfl)
    rw [List.flatten_nil, feed_nil, hrun]
    exact ⟨id, fun _ => id⟩
  | cons piece pieces ih =>
    obtain ⟨hjoin, hcut⟩ := @run_feed_feed _ httparse limits headRequest p piece
      pieces.flatten
    rw [List.foldlM_cons, bind_eq_ok_iff, List.flatten_cons]
    constructor
    · rintro ⟨p₁, hp₁, hrest⟩
      have hrun := (push_ok_iff hclean).mp hp₁
      have hrun₁ := run_run hrun
      exact hjoin p₁ q hrun ((ih (clean_of_run hrun₁) (.inr hrun₁)).1 hrest)
    · intro hshort hq
      obtain ⟨p₁, hp₁, hrest, hshort₁⟩ := hcut q hshort hq
      have hrun₁ := run_run hp₁
      exact ⟨p₁, (push_ok_iff hclean).mpr hp₁,
        (ih (clean_of_run hrun₁) (.inr hrun₁)).2 hshort₁ hrest⟩

/-! ### Where the cuts show -/

/-- The parser with the first bytes of what it has. -/
def cut (p : ResponseParser) (n : ℕ) : ResponseParser := { p with buf := p.buf.take n }

/-- A line end is found in every front of the bytes that has both its bytes. -/
theorem findCrlf_take {bytes : Bytes} {n m : ℕ} (h : findCrlf bytes = some n) (hm : n + 2 ≤ m) :
    findCrlf (bytes.take m) = some n := by
  cases hcut : findCrlf (bytes.take m) with
  | some k =>
    have hline := findCrlf_append hcut (bytes.drop m)
    rwa [List.take_append_drop, h, eq_comm] at hline
  | none =>
    have hline : findCrlf (bytes.take m ++ bytes.drop m) = some n := by
      rwa [List.take_append_drop]
    have hle := le_of_findCrlf_append hcut hline
    have hlen := findCrlf_le h
    rw [List.length_take] at hle
    omega

/-- Taking bytes and cutting the rest commute. -/
theorem cut_drain (p : ResponseParser) (c n : ℕ) : (p.cut (c + n)).drain c = (p.drain c).cut n := by
  simp only [cut, drain, List.drop_take, Nat.add_sub_cancel_left]

/-- Taking a part of the body and cutting the rest commute. -/
theorem cut_takeBody (p : ResponseParser) (c n : ℕ) :
    (p.cut (c + n)).takeBody c = (p.takeBody c).cut n := by
  have htake : (p.buf.take (c + n)).take c = p.buf.take c := by
    rw [List.take_take, min_eq_left (Nat.le_add_right c n)]
  simp only [takeBody, cut_drain]
  simp only [cut, htake]

/-- Taking a head does not look at the bytes that a cut leaves out. -/
theorem takeHead_cut (p : ResponseParser) (head : ParsedHead) (n : ℕ) :
    (p.cut n).takeHead limits headRequest head =
      (p.takeHead limits headRequest head).map fun p' => p'.cut n := by
  rw [takeHead, takeHead]
  cases head.code with
  | none => rfl
  | some status =>
    dsimp only
    split_ifs
    · rfl
    · rfl
    · cases frameHead limits headRequest ⟨status, head.version.getD 1,
        head.headers.map fun header => (header.1, fromUtf8Lossy header.2)⟩ <;> rfl

/-- A cut does not change which kind of turn it is. -/
theorem turn_cut_body {p : ResponseParser} {framing : Framing} {chunk : ChunkState} (n : ℕ)
    (h : p.state = .body framing chunk) :
    (p.cut n).turn httparse limits headRequest = (p.cut n).parseBody limits chunk framing :=
  turn_body (p := p.cut n) h

/-- The bytes that a turn in a chunked body takes are enough for it. -/
theorem parseChunk_cut {p p' : ResponseParser} {chunk : ChunkState}
    (hstate : p.state = .body .chunked chunk) (h : p.parseChunk limits chunk = .ok (true, p')) :
    ∃ c ≤ p.buf.length, ∀ n, 0 < n → (p.cut (c + n)).turn httparse limits headRequest =
      .ok (true, p'.cut n) := by
  cases chunk with
  | size =>
    -- a size line is taken whole, with its line end
    rcases parseSize_cases h with ⟨hwait, -⟩ | ⟨lineEnd, size, -, hline, hsize, hfits, rfl⟩
    · cases hwait
    · refine ⟨lineEnd + 2, findCrlf_le hline, fun n _ => ?_⟩
      have hline' : findCrlf (p.cut (lineEnd + 2 + n)).buf = some lineEnd :=
        findCrlf_take hline (Nat.le_add_right ..)
      have hsize' : chunkSize usizeMax ((p.cut (lineEnd + 2 + n)).buf.take lineEnd) =
          .ok size := by
        rwa [cut, List.take_take, min_eq_left (by omega)]
      rw [turn_sizeLine (p := p.cut (lineEnd + 2 + n)) hstate hline' hsize' hfits, cut_drain]
      rfl
  | data remaining =>
    -- what is taken of a chunk is what is there, up to its size
    rw [parseChunk_data_eq] at h
    dsimp only at h
    split_ifs at h with hnil hlong
    · cases h
    · obtain ⟨-, rfl⟩ := Prod.mk.inj (Except.ok.inj h)
      refine ⟨min remaining p.buf.length, min_le_right .., fun n hn => ?_⟩
      generalize htake : min remaining p.buf.length = c at *
      have hbuf : (p.cut (c + n)).buf = p.buf.take (c + n) := rfl
      have hresponse : (p.cut (c + n)).response = p.response := rfl
      have hlen := List.length_pos_iff.mpr hnil
      have hne : p.buf.take (c + n) ≠ [] := by
        rw [← List.length_pos_iff, List.length_take]
        omega
      have hmin : min remaining (min (c + n) p.buf.length) = c := by omega
      rw [turn_cut_body _ hstate, parseBody, parseChunk_data_eq, hbuf, if_neg hne]
      dsimp only
      rw [List.length_take, hmin, hresponse, if_neg hlong, cut_takeBody]
      rfl
  | dataEnd =>
    -- the line end behind a chunk is two bytes
    rcases parseDataEnd_cases h with ⟨hwait, -⟩ | ⟨-, hlen, hcrlf, rfl⟩
    · cases hwait
    · refine ⟨2, hlen, fun n _ => ?_⟩
      have hcrlf' : (p.cut (2 + n)).buf.take 2 = [13, 10] := by
        rwa [cut, List.take_take, min_eq_left (Nat.le_add_right ..)]
      rw [turn_dataEnd (p := p.cut (2 + n)) hstate hcrlf', cut_drain]
      rfl
  | trailers =>
    -- a trailer line is taken whole, with its line end
    rcases parseTrailers_cases h with ⟨hwait, -⟩ | ⟨lineEnd, -, hline, rfl⟩
    · cases hwait
    · refine ⟨lineEnd + 2, findCrlf_le hline, fun n _ => ?_⟩
      have hline' : findCrlf (p.cut (lineEnd + 2 + n)).buf = some lineEnd :=
        findCrlf_take hline (Nat.le_add_right ..)
      rw [turn_trailers (p := p.cut (lineEnd + 2 + n)) hstate hline', takeTrailer, takeTrailer]
      split_ifs with hempty
      · subst hempty
        rw [Nat.zero_add, cut_drain]
        rfl
      · rw [cut_drain]

/-- The bytes that a turn takes are enough for it. -/
theorem turn_cut {p p' : ResponseParser}
    (h : p.turn httparse limits headRequest = .ok (true, p')) :
    ∃ c ≤ p.buf.length, ∀ n, 0 < n → (p.cut (c + n)).turn httparse limits headRequest =
      .ok (true, p'.cut n) := by
  cases hstate : p.state with
  | head =>
    rw [turn, hstate] at h
    -- `httparse` reads a whole head from its own bytes
    rcases parseHead_cases h with ⟨hwait, -⟩ | ⟨consumed, head, -, hread, hfits, htake⟩
    · cases hwait
    · refine ⟨consumed, (httparse.consumed_le hread).2, fun n _ => ?_⟩
      have hread' : httparse.read (p.cut (consumed + n)).buf = .complete consumed head := by
        have hmore := httparse.read_take hread ((p.buf.drop consumed).take n)
        rwa [← List.take_add] at hmore
      rw [turn_head (p := p.cut (consumed + n)) hstate hread' hfits, cut_drain, takeHead_cut,
        htake]
      rfl
  | done =>
    rw [turn, hstate] at h
    dsimp only at h
    split_ifs at h
    cases h
  | body framing chunk =>
    rw [turn_body hstate] at h
    cases framing with
    | untilClose =>
      -- a body until the close takes all there is and asks for no second turn
      rw [parseBody_untilClose_eq] at h
      split_ifs at h
      cases h
    | length total =>
      -- what is taken of a body with a length is what is there, up to the length
      rw [parseBody_length_eq] at h
      dsimp only at h
      split_ifs at h with hlong hall
      · obtain ⟨-, rfl⟩ := Prod.mk.inj (Except.ok.inj h)
        refine ⟨min (total - p.response.body.length) p.buf.length, min_le_right .., fun n hn => ?_⟩
        generalize htake : min (total - p.response.body.length) p.buf.length = c at *
        have hbuf : (p.cut (c + n)).buf = p.buf.take (c + n) := rfl
        have hresponse : (p.cut (c + n)).response = p.response := rfl
        have hmin : min (total - p.response.body.length) (min (c + n) p.buf.length) = c := by
          omega
        rw [turn_cut_body _ hstate, parseBody_length_eq]
        dsimp only
        rw [hbuf, hresponse, List.length_take, hmin, if_neg hlong, if_pos hall, cut_takeBody]
        rfl
      · cases h
    | chunked => exact parseChunk_cut hstate h

/-- A run that takes a line that is too long fails when it is cut before the line ends. -/
theorem exists_cut {p : ResponseParser} (h : TakesLong httparse limits headRequest p) :
    ∃ n > 0, ∃ e, (p.cut n).run httparse limits headRequest = .error e := by
  induction h with
  | @here p hlong =>
    have hcut : ∀ n, findCrlf p.buf = some n →
        findCrlf (p.buf.take (n + 1)) = none ∧ (p.buf.take (n + 1)).length = n + 1 := by
      intro n hline
      have hle := findCrlf_le hline
      constructor
      · cases hcut : findCrlf (p.buf.take (n + 1)) with
        | none => rfl
        | some m =>
          have hline' := findCrlf_append hcut (p.buf.drop (n + 1))
          rw [List.take_append_drop, hline] at hline'
          have hle' := findCrlf_le hcut
          rw [List.length_take, ← Option.some.inj hline'] at hle'
          omega
      · rw [List.length_take]
        omega
    rcases hlong with ⟨hstate, n, hline, hlong⟩ | ⟨hstate, n, hline, hlong⟩
    all_goals
      obtain ⟨hnone, hlen⟩ := hcut n hline
      have hstate' : (p.cut (n + 1)).state = p.state := rfl
      have hbuf : (p.cut (n + 1)).buf = p.buf.take (n + 1) := rfl
      refine ⟨n + 1, Nat.succ_pos n, ?_⟩
      rw [run_eq, turn_body (hstate'.trans hstate), parseBody, parseChunk, hbuf, hnone]
      dsimp only
      rw [hlen, if_pos (Nat.lt_succ_of_le hlong)]
      exact ⟨_, rfl⟩
  | @later p p' hturn _ ih =>
    obtain ⟨n, hn, e, he⟩ := ih
    obtain ⟨c, -, hcut⟩ := turn_cut hturn
    exact ⟨c + n, Nat.add_pos_right c hn, e, (run_of_turn_again (hcut n hn)).trans he⟩

/-! ### The response -/

variable {closeNotify : Bool}

/-- The outcome is a response when all pieces are parsed and the end of the bytes is one. -/
theorem outcome_eq_some_iff {pieces : List Bytes} {r : HttpResponse} :
    outcome httparse limits headRequest closeNotify pieces = some r ↔
      ∃ p, pieces.foldlM (push httparse limits headRequest) new = .ok p ∧
        ((p.finishOnClose limits closeNotify).toOption.bind takeResponse) = some r := by
  rw [outcome]
  cases pieces.foldlM (push httparse limits headRequest) new with
  | error e => exact iff_of_false nofun nofun
  | ok p => simp

/-- A new parser is not done. -/
theorem clean_new : new.Clean := nofun

/-- Nothing is read from nothing. -/
theorem outcome_nil_pieces {pieces : List Bytes} (h : pieces.flatten = []) :
    outcome httparse limits headRequest closeNotify pieces = none := by
  have hwait : ∀ q, new.run httparse limits headRequest = .ok q → q = new := by
    intro q hq
    rw [run_eq, turn, new, parseHead] at hq
    cases hread : httparse.read [] with
    | complete consumed head =>
      have hle := httparse.consumed_le hread
      rw [List.length_nil] at hle
      omega
    | pending =>
      dsimp only at hq
      rw [hread] at hq
      exact (Except.ok.inj hq).symm
    | tooManyHeaders =>
      dsimp only at hq
      rw [hread] at hq
      cases hq
    | malformed reason =>
      dsimp only at hq
      rw [hread] at hq
      cases hq
  rw [← Option.not_isSome_iff_eq_none, Option.isSome_iff_exists]
  rintro ⟨r, hr⟩
  obtain ⟨p, hp, hfinish⟩ := outcome_eq_some_iff.mp hr
  have hnew : p = new := by
    rcases eq_or_ne pieces [] with rfl | hne
    · exact (Except.ok.inj hp).symm
    · have hrun := (foldlM_push clean_new (.inl hne)).1 hp
      rw [h, feed_nil] at hrun
      exact hwait p hrun
  rw [hnew] at hfinish
  cases hfinish

/-- What the pieces give, all of them give in one; and the other way round when no line is too
long. -/
theorem outcome_flatten (pieces : List Bytes) :
    (∀ r, outcome httparse limits headRequest closeNotify pieces = some r →
      outcome httparse limits headRequest closeNotify [pieces.flatten] = some r) ∧
    (¬TakesLong httparse limits headRequest (new.feed pieces.flatten) →
      ∀ r, outcome httparse limits headRequest closeNotify [pieces.flatten] = some r →
        outcome httparse limits headRequest closeNotify pieces = some r) := by
  rcases eq_or_ne pieces [] with rfl | hne
  · rw [outcome_nil_pieces rfl, outcome_nil_pieces rfl]
    exact ⟨nofun, nofun⟩
  simp only [outcome_eq_some_iff]
  have hone : [pieces.flatten].flatten = pieces.flatten := by simp
  constructor
  · rintro r ⟨p, hp, hr⟩
    have hrun := (foldlM_push clean_new (.inl hne)).1 hp
    refine ⟨p, ?_, hr⟩
    rw [List.foldlM_cons, (push_ok_iff clean_new).mpr hrun]
    rfl
  · rintro hshort r ⟨p, hp, hr⟩
    have hrun := (foldlM_push clean_new (.inl (List.cons_ne_nil _ _))).1 hp
    rw [hone] at hrun
    exact ⟨p, (foldlM_push clean_new (.inl hne)).2 hshort hrun, hr⟩

/-- How the bytes are cut does not matter exactly when they are no response on the way to which
the parser takes a line that is too long. -/
theorem outcome_cuts_iff_run (httparse : HeadParser) (limits : HttpLimits usizeMax)
    (headRequest closeNotify : Bool) (bytes : Bytes) :
    (∀ pieces pieces', pieces.flatten = bytes → pieces'.flatten = bytes →
      outcome httparse limits headRequest closeNotify pieces =
        outcome httparse limits headRequest closeNotify pieces') ↔
      ¬((outcome httparse limits headRequest closeNotify [bytes]).isSome = true ∧
        TakesLong httparse limits headRequest (new.feed bytes)) := by
  constructor
  · rintro h ⟨hsome, hlong⟩
    obtain ⟨n, -, e, he⟩ := exists_cut hlong
    have hcut : [bytes.take n, bytes.drop n].flatten = bytes := by simp
    rw [h [bytes] _ (by simp) hcut] at hsome
    obtain ⟨r, hr⟩ := Option.isSome_iff_exists.mp hsome
    obtain ⟨p, hp, -⟩ := outcome_eq_some_iff.mp hr
    rw [List.foldlM_cons] at hp
    obtain ⟨q, hq, -⟩ := bind_eq_ok_iff.mp hp
    have hrun := (push_ok_iff clean_new).mp hq
    have hsame : new.feed (bytes.take n) = (new.feed bytes).cut n := rfl
    rw [hsame, he] at hrun
    cases hrun
  · intro h pieces pieces' hpieces hpieces'
    have hwhole : ∀ pieces, pieces.flatten = bytes →
        outcome httparse limits headRequest closeNotify pieces =
          outcome httparse limits headRequest closeNotify [bytes] := by
      rintro pieces rfl
      obtain ⟨hjoin, hcut⟩ := @outcome_flatten _ httparse limits headRequest closeNotify pieces
      cases hone : outcome httparse limits headRequest closeNotify [pieces.flatten] with
      | none =>
        rw [← Option.not_isSome_iff_eq_none, Option.isSome_iff_exists]
        rintro ⟨r, hr⟩
        rw [hjoin r hr] at hone
        cases hone
      | some r => exact hcut (fun hlong => h ⟨by rw [hone]; rfl, hlong⟩) r hone
    rw [hwhole pieces hpieces, hwhole pieces' hpieces']

end ResponseParser

end NoxSdk.Tls
