import NoxSdk.Tls.ResponseCuts

/-!
# Complete messages

`Message` says which bytes are a complete response by its own framing, and which response they
are: the heads of interim responses, a final head, and the body that this head frames. The parser
ends with a response only on such bytes (`run_message`), and on none of their proper prefixes.
-/

namespace NoxSdk.Tls.ResponseParser

variable {usizeMax : ℕ}

/-! ### The grammar -/

/-- Trailers, with the empty line that ends them. -/
inductive TrailerLines : Bytes → Prop where
  | last : TrailerLines [13, 10]
  | line {line rest : Bytes} (hne : line ≠ [])
      (hline : findCrlf (line ++ 13 :: 10 :: rest) = some line.length)
      (h : TrailerLines rest) : TrailerLines (line ++ 13 :: 10 :: rest)

/-- A chunked body up to the end of its trailers, and its content. -/
inductive ChunkedBody (usizeMax : ℕ) : Bytes → Bytes → Prop where
  | last {line rest : Bytes} (hline : findCrlf (line ++ 13 :: 10 :: rest) = some line.length)
      (hsize : chunkSize usizeMax line = .ok 0) (h : TrailerLines rest) :
      ChunkedBody usizeMax (line ++ 13 :: 10 :: rest) []
  | chunk {line data rest content : Bytes}
      (hline : findCrlf (line ++ 13 :: 10 :: (data ++ 13 :: 10 :: rest)) = some line.length)
      (hsize : chunkSize usizeMax line = .ok data.length) (hne : data ≠ [])
      (h : ChunkedBody usizeMax rest content) :
      ChunkedBody usizeMax (line ++ 13 :: 10 :: (data ++ 13 :: 10 :: rest)) (data ++ content)

/-- A body by its framing: as it is sent, and its content. -/
inductive FramedBody (usizeMax : ℕ) : Option Framing → Bytes → Bytes → Prop where
  | none : FramedBody usizeMax none [] []
  | length (body : Bytes) : FramedBody usizeMax (some (.length body.length)) body body
  | chunked {sent content : Bytes} (h : ChunkedBody usizeMax sent content) :
      FramedBody usizeMax (some .chunked) sent content
  | untilClose (body : Bytes) : FramedBody usizeMax (some .untilClose) body body

/-- The fields of a head, as the response has them. -/
def headersOf (head : ParsedHead) : List (String × String) :=
  head.headers.map fun header => (header.1, fromUtf8Lossy header.2)

/-- A complete response with the framing of its final head. -/
inductive Message (httparse : HeadParser) (limits : HttpLimits usizeMax) (headRequest : Bool) :
    Option Framing → Bytes → HttpResponse → Prop where
  | interim {framing : Option Framing} {bytes : Bytes} {r : HttpResponse} {consumed status : ℕ}
      {head : ParsedHead} (hread : httparse.read bytes = .complete consumed head)
      (hcode : head.code = some status) (hinterim : 100 ≤ status ∧ status < 200)
      (h : Message httparse limits headRequest framing (bytes.drop consumed) r) :
      Message httparse limits headRequest framing bytes r
  | final {framing : Option Framing} {bytes body : Bytes} {keepAlive : Bool}
      {consumed status : ℕ} {head : ParsedHead}
      (hread : httparse.read bytes = .complete consumed head)
      (hcode : head.code = some status) (hfinal : ¬(100 ≤ status ∧ status < 200))
      (hframed : frameHead limits headRequest ⟨status, head.version.getD 1, headersOf head⟩ =
        .ok (framing, keepAlive))
      (hbody : FramedBody usizeMax framing (bytes.drop consumed) body) :
      Message httparse limits headRequest framing bytes
        ⟨status, headersOf head, body, keepAlive⟩

/-! ### What a parser still waits for -/

/-- The rest of a chunked body, from the middle of it. -/
def ChunkTail (usizeMax : ℕ) (sent content : Bytes) : ChunkState → Prop
  | .size => ChunkedBody usizeMax sent content
  | .data remaining => ∃ data rest more, data.length = remaining ∧
      sent = data ++ 13 :: 10 :: rest ∧ content = data ++ more ∧ ChunkedBody usizeMax rest more
  | .dataEnd => ∃ rest, sent = 13 :: 10 :: rest ∧ ChunkedBody usizeMax rest content
  | .trailers => TrailerLines sent ∧ content = []

/-- The response with more behind the body. -/
def withBody (p : ResponseParser) (more : Bytes) : HttpResponse :=
  { p.response with body := p.response.body ++ more }

/-- What the bytes that a parser has left make of it: a message with this framing, which is the
response. -/
def Completes (httparse : HeadParser) (limits : HttpLimits usizeMax) (headRequest : Bool)
    (p : ResponseParser) (r : HttpResponse) (framing : Option Framing) : Prop :=
  match p.state with
  | .head => p.response.body = [] → Message httparse limits headRequest framing p.buf r
  | .body (.length total) _ => framing = some (.length total) ∧
      p.response.body.length + p.buf.length = total ∧ r = p.withBody p.buf
  | .body .chunked chunk => framing = some .chunked ∧
      ∃ content, ChunkTail usizeMax p.buf content chunk ∧ r = p.withBody content
  | .body .untilClose _ => framing = some .untilClose ∧ r = p.withBody p.buf
  | .done => p.buf = [] ∧ r = p.response

variable {httparse : HeadParser} {limits : HttpLimits usizeMax} {headRequest : Bool}
  {p p' q : ResponseParser} {r : HttpResponse} {framing : Option Framing}

/-- A run has come to a response, or to the body that the end of the connection ends. -/
def Framed (q : ResponseParser) (framing : Option Framing) : Prop :=
  (q.state = .done ∧ framing ≠ some .untilClose) ∨
    ((∃ chunk, q.state = .body .untilClose chunk) ∧ q.buf = [] ∧ framing = some .untilClose)

theorem takeHead_cases {head : ParsedHead} (h : p.takeHead limits headRequest head = .ok p') :
    ∃ status, head.code = some status ∧ ((100 ≤ status ∧ status < 200) ∧ p' = p ∨
      ¬(100 ≤ status ∧ status < 200) ∧ ∃ framing keepAlive,
        frameHead limits headRequest ⟨status, head.version.getD 1, headersOf head⟩ =
            .ok (framing, keepAlive) ∧
          p' = { p with
            state := bodyState framing
            response := ⟨status, headersOf head, p.response.body, keepAlive⟩ }) := by
  rw [takeHead] at h
  cases hcode : head.code with
  | none =>
    rw [hcode] at h
    cases h
  | some status =>
    rw [hcode] at h
    dsimp only at h
    split_ifs at h with hupgrade hinterim
    · exact ⟨status, rfl, .inl ⟨hinterim, (Except.ok.inj h).symm⟩⟩
    · obtain ⟨⟨framing, keepAlive⟩, hframed, hret⟩ := bind_eq_ok_iff.mp h
      exact ⟨status, rfl, .inr ⟨hinterim, framing, keepAlive, hframed, (Except.ok.inj hret).symm⟩⟩

/-- Only a close-delimited body is without an end of its own. -/
theorem Framed.of_done {framing : Option Framing} (h : q.state = .done)
    (hend : framing.all (· != .untilClose) = true) : Framed q framing := by
  refine .inl ⟨h, ?_⟩
  rintro rfl
  cases hend

/-- A final head is followed by the body that it frames. -/
theorem Completes.final {status consumed : ℕ} {head : ParsedHead} {keepAlive : Bool}
    {headFraming : Option Framing} (hempty : p.response.body = [])
    (hstate : p'.state = bodyState headFraming)
    (hresponse : p'.response = ⟨status, headersOf head, p.response.body, keepAlive⟩)
    (hbuf : p'.buf = p.buf.drop consumed)
    (hframed : Framed q framing) (h : Completes httparse limits headRequest p' r framing)
    (hlast : p'.state = .done → q.state = .done) :
    Framed q headFraming ∧ ∃ body, r = ⟨status, headersOf head, body, keepAlive⟩ ∧
      FramedBody usizeMax headFraming (p.buf.drop consumed) body := by
  have hwith : ∀ more, p'.withBody more = ⟨status, headersOf head, more, keepAlive⟩ := by
    intro more
    rw [withBody, hresponse, hempty, List.nil_append]
  rw [Completes, hstate] at h
  rw [hstate] at hlast
  match headFraming, h with
  | none, ⟨hnil, hr⟩ =>
    refine ⟨.of_done (hlast rfl) rfl, [], ?_, ?_⟩
    · rw [hr, hresponse, hempty]
    · rw [← hbuf, hnil]
      exact .none
  | some (.length 0), ⟨hnil, hr⟩ =>
    refine ⟨.of_done (hlast rfl) rfl, [], ?_, ?_⟩
    · rw [hr, hresponse, hempty]
    · rw [← hbuf, hnil]
      exact .length []
  | some (.length (total + 1)), ⟨hframing, htotal, hr⟩ =>
    refine ⟨hframing ▸ hframed, p'.buf, hr.trans (hwith _), ?_⟩
    rw [hresponse, hempty, List.length_nil, Nat.zero_add] at htotal
    rw [← hbuf, ← htotal]
    exact .length _
  | some .chunked, ⟨hframing, content, htail, hr⟩ =>
    exact ⟨hframing ▸ hframed, content, hr.trans (hwith _), hbuf ▸ .chunked htail⟩
  | some .untilClose, ⟨hframing, hr⟩ =>
    exact ⟨hframing ▸ hframed, p'.buf, hr.trans (hwith _), hbuf ▸ .untilClose _⟩

theorem withBody_takeBody (p : ResponseParser) (n : ℕ) (more : Bytes) :
    (p.takeBody n).withBody more = p.withBody (p.buf.take n ++ more) := by
  simp [withBody, takeBody, drain, List.append_assoc]

theorem withBody_nil (p : ResponseParser) : p.withBody [] = p.response := by
  rw [withBody, List.append_nil]

/-- A turn over a part of a chunked body: what completes the rest completes the whole. -/
theorem ChunkTail.turn {chunk : ChunkState} (hstate : p.state = .body .chunked chunk)
    (hturn : p.parseChunk limits chunk = .ok (true, p')) (hframed : Framed q framing)
    (h : Completes httparse limits headRequest p' r framing)
    (hlast : p'.state = .done → q.state = .done) :
    Framed q (some .chunked) ∧
      ∃ content, ChunkTail usizeMax p.buf content chunk ∧ r = p.withBody content := by
  cases chunk with
  | size =>
    -- the size line of the next chunk, which for the last one opens the trailers
    rcases parseSize_cases hturn with ⟨hagain, -⟩ | ⟨lineEnd, size, -, hline, hsize, -, rfl⟩
    · cases hagain
    obtain ⟨line, rest, hsplit, hlength, htake, hdrop⟩ := exists_line hline
    have hline' : findCrlf (line ++ 13 :: 10 :: rest) = some line.length := by
      rw [← hsplit, hline, hlength]
    rw [htake] at hsize
    rw [Completes] at h
    obtain ⟨hframing, content, htail, hr⟩ := h
    refine ⟨hframing ▸ hframed, content, ?_, hr⟩
    have hrest : (p.drain (lineEnd + 2)).buf = rest := hdrop
    change ChunkTail usizeMax (p.drain (lineEnd + 2)).buf content (sizeState size) at htail
    rw [hrest, sizeState] at htail
    change ChunkedBody usizeMax p.buf content
    rw [hsplit]
    split_ifs at htail with hzero
    · obtain ⟨htrailers, rfl⟩ := htail
      exact .last hline' (hzero ▸ hsize) htrailers
    · obtain ⟨data, rest', more, hdata, rfl, rfl, hmore⟩ := htail
      refine .chunk hline' (hdata ▸ hsize) ?_ hmore
      rintro rfl
      exact hzero hdata.symm
  | data remaining =>
    -- bytes of the chunk, all that is left of it or all that is there
    rw [parseChunk_data_eq] at hturn
    dsimp only at hturn
    split_ifs at hturn with hempty hlong
    · cases hturn
    obtain ⟨-, rfl⟩ := Prod.mk.inj (Except.ok.inj hturn)
    obtain ⟨hframing, content, htail, hr⟩ : framing = some .chunked ∧ ∃ content,
      ChunkTail usizeMax (p.buf.drop (min remaining p.buf.length)) content
          (dataState (remaining - min remaining p.buf.length)) ∧
        r = (p.takeBody (min remaining p.buf.length)).withBody content := h
    rw [withBody_takeBody] at hr
    refine ⟨hframing ▸ hframed, _, ?_, hr⟩
    rw [dataState] at htail
    split_ifs at htail with hall
    · obtain ⟨rest, hrest, hbody⟩ := htail
      have hmin : min remaining p.buf.length = remaining := by omega
      rw [hmin] at hrest ⊢
      refine ⟨p.buf.take remaining, rest, content, ?_, ?_, rfl, hbody⟩
      · rw [List.length_take]
        omega
      · rw [← hrest, List.take_append_drop]
    · -- a chunk that is not all there leaves nothing, and nothing completes nothing
      obtain ⟨data, rest, more, -, hsent, -⟩ := htail
      have hmin : min remaining p.buf.length = p.buf.length := by omega
      rw [hmin, List.drop_length] at hsent
      cases data <;> cases hsent
  | dataEnd =>
    -- the line end behind the chunk
    rcases parseDataEnd_cases hturn with ⟨hagain, -⟩ | ⟨-, -, hcrlf, rfl⟩
    · cases hagain
    obtain ⟨hframing, content, htail, hr⟩ : framing = some .chunked ∧
      ∃ content, ChunkTail usizeMax (p.buf.drop 2) content .size ∧ r = p.withBody content := h
    refine ⟨hframing ▸ hframed, content, ⟨p.buf.drop 2, ?_, htail⟩, hr⟩
    rw [← List.take_append_drop 2 p.buf, hcrlf]
    rfl
  | trailers =>
    -- one trailer line; the empty one ends the message
    rcases parseTrailers_cases hturn with ⟨hagain, -⟩ | ⟨lineEnd, -, hline, rfl⟩
    · cases hagain
    obtain ⟨line, rest, hsplit, hlength, -, hdrop⟩ := exists_line hline
    rw [takeTrailer] at h hlast
    split_ifs at h hlast with hzero
    · obtain ⟨hnil, hr⟩ : p.buf.drop 2 = [] ∧ r = p.response := h
      refine ⟨.of_done (hlast rfl) rfl, [], ⟨?_, rfl⟩, ?_⟩
      · rw [hzero] at hlength hdrop
        rw [hsplit, List.length_eq_zero_iff.mp hlength, ← hdrop, hnil]
        exact .last
      · rw [withBody_nil]
        exact hr
    · have hsame : (p.drain (lineEnd + 2)).state = .body .chunked .trailers := hstate
      rw [Completes, hsame] at h
      obtain ⟨hframing, content, ⟨htrailers, rfl⟩, hr⟩ := h
      refine ⟨hframing ▸ hframed, [], ⟨?_, rfl⟩, hr⟩
      have hrest : (p.drain (lineEnd + 2)).buf = rest := hdrop
      rw [hrest] at htrailers
      rw [hsplit]
      refine .line (fun hnil => hzero ?_) ?_ htrailers
      · rw [← hlength, hnil]
        rfl
      · rw [← hsplit, hline, hlength]

/-- A chunked body does not go back to a head. -/
theorem parseChunk_state {chunk : ChunkState} (hstate : p.state = .body .chunked chunk)
    (hturn : p.parseChunk limits chunk = .ok (true, p')) : p'.state ≠ .head := by
  intro hhead
  cases chunk with
  | size =>
    rcases parseSize_cases hturn with ⟨hagain, -⟩ | ⟨lineEnd, size, -, -, -, -, rfl⟩
    · cases hagain
    · cases hhead
  | data remaining =>
    rw [parseChunk_data_eq] at hturn
    dsimp only at hturn
    split_ifs at hturn
    · cases hturn
    · obtain ⟨-, rfl⟩ := Prod.mk.inj (Except.ok.inj hturn)
      cases hhead
  | dataEnd =>
    rcases parseDataEnd_cases hturn with ⟨hagain, -⟩ | ⟨-, -, -, rfl⟩
    · cases hagain
    · cases hhead
  | trailers =>
    rcases parseTrailers_cases hturn with ⟨hagain, -⟩ | ⟨lineEnd, -, -, rfl⟩
    · cases hagain
    · rw [takeTrailer] at hhead
      split_ifs at hhead
      cases hstate.symm.trans hhead

/-- A turn over a head: what completes the bytes behind an interim head completes them with it, and
what completes those behind a final head is the body that it frames. -/
theorem Completes.headTurn (hstate : p.state = .head) (hempty : p.response.body = [])
    (hturn : p.parseHead httparse limits headRequest = .ok (true, p')) (hframed : Framed q framing)
    (h : Completes httparse limits headRequest p' r framing)
    (hlast : p'.state = .done → q.state = .done) :
    ∃ framing, Framed q framing ∧ Completes httparse limits headRequest p r framing := by
  rcases parseHead_cases hturn with ⟨hagain, -⟩ | ⟨consumed, head, -, hread, -, htake⟩
  · cases hagain
  obtain ⟨status, hcode, hcase⟩ := takeHead_cases htake
  rcases hcase with ⟨hinterim, rfl⟩ | ⟨hfinal, headFraming, keepAlive, hframe, rfl⟩
  · have hhead : (p.drain consumed).state = .head := hstate
    rw [Completes, hhead] at h
    refine ⟨framing, hframed, ?_⟩
    rw [Completes, hstate]
    exact fun hnil => .interim hread hcode hinterim (h hnil)
  · obtain ⟨hframed, body, hr, hbody⟩ :=
      Completes.final (p := p) hempty rfl rfl rfl hframed h hlast
    refine ⟨headFraming, hframed, ?_⟩
    rw [Completes, hstate, hr]
    exact fun _ => .final hread hcode hfinal hframe hbody

/-- Taking a head leaves the body as it was. -/
theorem parseHead_body (hturn : p.parseHead httparse limits headRequest = .ok (true, p')) :
    p'.response.body = p.response.body := by
  rcases parseHead_cases hturn with ⟨hagain, -⟩ | ⟨consumed, head, -, -, -, htake⟩
  · cases hagain
  obtain ⟨status, -, ⟨-, rfl⟩ | ⟨-, framing, keepAlive, -, rfl⟩⟩ := takeHead_cases htake
  · rfl
  · rfl

/-- A turn over a body of a known length: the parser is done, so the bytes were all of it. -/
theorem Completes.lengthTurn {total : ℕ} {chunk : ChunkState}
    (hstate : p.state = .body (.length total) chunk)
    (hturn : p.parseBody limits chunk (.length total) = .ok (true, p'))
    (h : Completes httparse limits headRequest p' r framing)
    (hlast : p'.state = .done → q.state = .done) :
    Framed q (some (.length total)) ∧
      Completes httparse limits headRequest p r (some (.length total)) := by
  rw [parseBody_length_eq] at hturn
  dsimp only at hturn
  split_ifs at hturn with hlong hall
  · obtain ⟨-, rfl⟩ := Prod.mk.inj (Except.ok.inj hturn)
    obtain ⟨hnil, hr⟩ := h
    have hrest : p.buf.drop (min (total - p.response.body.length) p.buf.length) = [] := hnil
    have hle := List.drop_eq_nil_iff.mp hrest
    refine ⟨.of_done (hlast rfl) rfl, ?_⟩
    rw [Completes, hstate]
    refine ⟨rfl, by omega, ?_⟩
    have hwhole := withBody_takeBody p (min (total - p.response.body.length) p.buf.length) []
    rw [withBody_nil, List.append_nil, List.take_of_length_le hle] at hwhole
    exact hr.trans hwhole
  · cases hturn

/-- A turn that takes the rest of a body of a known length is the last one. -/
theorem parseLength_done {total : ℕ} {chunk : ChunkState}
    (hturn : p.parseBody limits chunk (.length total) = .ok (true, p')) : p'.state = .done := by
  rw [parseBody_length_eq] at hturn
  dsimp only at hturn
  split_ifs at hturn
  · obtain ⟨-, rfl⟩ := Prod.mk.inj (Except.ok.inj hturn)
    rfl
  · cases hturn

/-- A body of a known length is waited for in its own state. -/
theorem parseLength_wait {total : ℕ} {chunk : ChunkState}
    (hturn : p.parseBody limits chunk (.length total) = .ok (false, p')) :
    p'.state = p.state := by
  rw [parseBody_length_eq] at hturn
  dsimp only at hturn
  split_ifs at hturn
  · cases hturn
  · obtain ⟨-, rfl⟩ := Prod.mk.inj (Except.ok.inj hturn)
    rfl

/-- What a parser that comes to an end was left with is the rest of a message. The induction is on
the size of the parser, which goes down with each turn that asks for another. -/
theorem run_completes (h : p.run httparse limits headRequest = .ok q)
    (hend : q.state = .done ∨ ∃ chunk, q.state = .body .untilClose chunk)
    (hempty : p.state = .head → p.response.body = []) :
    ∃ framing, Framed q framing ∧ Completes httparse limits headRequest p q.response framing := by
  induction hsize : p.size using Nat.strong_induction_on generalizing p with
  | h size ih =>
  cases hturn : p.turn httparse limits headRequest with
  | error e =>
    rw [run_eq, hturn] at h
    cases h
  | ok step =>
  obtain ⟨again, p'⟩ := step
  have hwait : again = false → q = p' := by
    rintro rfl
    rw [run_of_turn_wait hturn] at h
    exact (Except.ok.inj h).symm
  have hagain : again = true → (p'.state = .head → p'.response.body = []) →
      ∃ framing, Framed q framing ∧
        Completes httparse limits headRequest p' q.response framing := by
    rintro rfl hempty'
    rw [run_of_turn_again hturn] at h
    exact ih p'.size (hsize ▸ turn_size hturn) h hempty' rfl
  have hlast : again = true → p'.state = .done → q.state = .done := by
    rintro rfl hdone
    rw [run_of_turn_again hturn, run_eq, turn, hdone] at h
    dsimp only at h
    split_ifs at h
    · rw [← Except.ok.inj h]
      exact hdone
    · cases h
  cases hstate : p.state with
  | head =>
    rw [turn, hstate] at hturn
    cases again with
    | false =>
      -- a run does not end in a head, so it did not wait there
      rcases parseHead_cases hturn with ⟨-, rfl⟩ | ⟨_, _, hfalse, -⟩
      · rw [hwait rfl, hstate] at hend
        rcases hend with hend | ⟨_, hend⟩ <;> cases hend
      · cases hfalse
    | true =>
      have hbody := (parseHead_body hturn).trans (hempty hstate)
      obtain ⟨framing, hframed, hcompletes⟩ := hagain rfl fun _ => hbody
      exact Completes.headTurn hstate (hempty hstate) hturn hframed hcompletes (hlast rfl)
  | body bodyFraming chunk =>
    rw [turn_body hstate] at hturn
    cases bodyFraming with
    | length total =>
      cases again with
      | false =>
        rw [hwait rfl, parseLength_wait hturn, hstate] at hend
        rcases hend with hend | ⟨_, hend⟩ <;> cases hend
      | true =>
        have hdone := parseLength_done hturn
        obtain ⟨framing, -, hcompletes⟩ := hagain rfl fun hhead => by cases hdone.symm.trans hhead
        exact ⟨_, Completes.lengthTurn hstate hturn hcompletes (hlast rfl)⟩
    | chunked =>
      cases again with
      | false =>
        rw [hwait rfl, parseChunk_wait hturn, hstate] at hend
        rcases hend with hend | ⟨_, hend⟩ <;> cases hend
      | true =>
        obtain ⟨framing, hframed, hcompletes⟩ :=
          hagain rfl fun hhead => absurd hhead (parseChunk_state hstate hturn)
        obtain ⟨hframed, content, htail, hr⟩ :=
          ChunkTail.turn hstate hturn hframed hcompletes (hlast rfl)
        refine ⟨some .chunked, hframed, ?_⟩
        rw [Completes, hstate]
        exact ⟨rfl, content, htail, hr⟩
    | untilClose =>
      -- all there is is taken, and the parser waits for the end of the connection
      rw [parseBody_untilClose_eq] at hturn
      split_ifs at hturn
      obtain ⟨rfl, rfl⟩ := Prod.mk.inj (Except.ok.inj hturn)
      obtain rfl := hwait rfl
      refine ⟨some .untilClose, .inr ⟨⟨chunk, hstate⟩, List.drop_length, rfl⟩, ?_⟩
      rw [Completes, hstate]
      refine ⟨rfl, ?_⟩
      have hall := withBody_takeBody p p.buf.length []
      rw [withBody_nil, List.append_nil, List.take_length] at hall
      exact hall
  | done =>
    rw [turn, hstate] at hturn
    dsimp only at hturn
    split_ifs at hturn with hnil
    obtain ⟨rfl, rfl⟩ := Prod.mk.inj (Except.ok.inj hturn)
    obtain rfl := hwait rfl
    refine ⟨none, .of_done hstate rfl, ?_⟩
    rw [Completes, hstate]
    exact ⟨hnil, rfl⟩

/-- **A response is a complete message.** Where a run over bytes ends with a response, the bytes
are one by its own framing, and not one that the end of the connection ends; where it waits in such
a body, they are one if they are all. -/
theorem run_message {bytes : Bytes} (h : (new.feed bytes).run httparse limits headRequest = .ok q)
    (hend : q.state = .done ∨ ∃ chunk, q.state = .body .untilClose chunk) :
    ∃ framing, Framed q framing ∧ Message httparse limits headRequest framing bytes q.response := by
  obtain ⟨framing, hframed, hcompletes⟩ := run_completes h hend fun _ => rfl
  exact ⟨framing, hframed, hcompletes rfl⟩

/-- A response on bytes leaves none on bytes that go on. -/
theorem run_feed_of_done {bytes more : Bytes}
    (h : (new.feed bytes).run httparse limits headRequest = .ok q) (hdone : q.state = .done)
    (hne : more ≠ []) :
    ∃ e, (new.feed (bytes ++ more)).run httparse limits headRequest = .error e := by
  have hmore := ((run_feed (new.feed bytes) more).1 q h).1
  rw [feed_feed] at hmore
  have hclean := clean_of_run (run_run h) hdone
  refine ⟨trailingBytes (q.feed more).buf.length, ?_⟩
  rw [hmore, run_eq, turn, feed_state, hdone]
  dsimp only
  rw [if_neg (by simpa [hclean] using hne)]
  rfl

/-- A response without the end of the connection: the parser is done. -/
theorem done_of_outcome {pieces : List Bytes}
    (h : (outcome httparse limits headRequest false pieces).isSome = true) :
    ∃ q, (new.feed pieces.flatten).run httparse limits headRequest = .ok q ∧ q.state = .done := by
  obtain ⟨r, hr⟩ := Option.isSome_iff_exists.mp h
  obtain ⟨q, hq, hfinish⟩ := outcome_eq_some_iff.mp hr
  have hne : pieces ≠ [] := by
    rintro rfl
    rw [outcome_nil_pieces rfl] at hr
    cases hr
  refine ⟨q, (foldlM_push clean_new (.inl hne)).1 hq, ?_⟩
  rw [finishOnClose] at hfinish
  split at hfinish
  · assumption
  · cases hfinish
  · cases hfinish
  · cases hfinish

/-- What is a response without `close_notify` is none when it goes on. -/
theorem outcome_append_eq_none {pieces pieces' : List Bytes} {more : Bytes} {closeNotify : Bool}
    (h : (outcome httparse limits headRequest false pieces).isSome = true) (hne : more ≠ [])
    (hpieces : pieces'.flatten = pieces.flatten ++ more) :
    outcome httparse limits headRequest closeNotify pieces' = none := by
  obtain ⟨q, hrun, hdone⟩ := done_of_outcome h
  obtain ⟨e, he⟩ := run_feed_of_done hrun hdone hne
  rw [← Option.not_isSome_iff_eq_none, Option.isSome_iff_exists]
  rintro ⟨r, hr⟩
  obtain ⟨q', hq', -⟩ := outcome_eq_some_iff.mp hr
  have hsome : pieces' ≠ [] := by
    rintro rfl
    exact hne (List.append_eq_nil_iff.mp hpieces.symm).2
  have hrun' := (foldlM_push clean_new (.inl hsome)).1 hq'
  rw [hpieces, he] at hrun'
  cases hrun'

/-- A close-delimited response does not keep the connection. -/
theorem frameHead_untilClose {head : ResponseHead} {keepAlive : Bool}
    (h : frameHead limits headRequest head = .ok (some .untilClose, keepAlive)) :
    keepAlive = false := by
  obtain ⟨length, -, h⟩ := bind_eq_ok_iff.mp h
  split_ifs at h
  · cases h
  · cases h
  · cases length with
    | none => exact (Prod.mk.inj (Except.ok.inj h)).2.symm
    | some n =>
      dsimp only at h
      split_ifs at h
      cases h

theorem Message.keepAlive_untilClose {bytes : Bytes}
    (h : Message httparse limits headRequest framing bytes r)
    (hclose : framing = some .untilClose) : r.keepAlive = false := by
  induction h with
  | interim _ _ _ _ ih => exact ih
  | final _ _ _ hframed _ => exact frameHead_untilClose (hclose ▸ hframed)

/-! ### The limit of the body -/

/-- A body within the limit; a length is a machine word. -/
def Fits (limits : HttpLimits usizeMax) (p : ResponseParser) : Prop :=
  tooLong limits p.response.body.length 0 = false

theorem Fits.takeBody {n : ℕ} (hle : n ≤ p.buf.length)
    (h : tooLong limits p.response.body.length n = false) : Fits limits (p.takeBody n) := by
  rw [Fits, takeBody_length hle, tooLong_add]
  exact h

theorem Fits.chunk {again : Bool} {chunk : ChunkState} (hfits : Fits limits p)
    (h : p.parseChunk limits chunk = .ok (again, p')) : Fits limits p' := by
  cases chunk with
  | size =>
    rcases parseSize_cases h with ⟨-, rfl⟩ | ⟨_, _, -, -, -, -, rfl⟩
    · exact hfits
    · exact hfits
  | data remaining =>
    rw [parseChunk_data_eq] at h
    dsimp only at h
    split_ifs at h with hempty hlong
    · obtain ⟨-, rfl⟩ := Prod.mk.inj (Except.ok.inj h)
      exact hfits
    · obtain ⟨-, rfl⟩ := Prod.mk.inj (Except.ok.inj h)
      exact Fits.takeBody (min_le_right ..) (Bool.eq_false_iff.mpr hlong)
  | dataEnd =>
    rcases parseDataEnd_cases h with ⟨-, rfl⟩ | ⟨-, -, -, rfl⟩
    · exact hfits
    · exact hfits
  | trailers =>
    rcases parseTrailers_cases h with ⟨-, rfl⟩ | ⟨lineEnd, -, -, rfl⟩
    · exact hfits
    · rw [takeTrailer]
      split_ifs
      · exact hfits
      · exact hfits

theorem Fits.turn {again : Bool} (hfits : Fits limits p)
    (h : p.turn httparse limits headRequest = .ok (again, p')) : Fits limits p' := by
  cases hstate : p.state with
  | head =>
    rw [ResponseParser.turn, hstate] at h
    rcases parseHead_cases h with ⟨-, rfl⟩ | ⟨consumed, head, -, -, -, htake⟩
    · exact hfits
    · obtain ⟨status, -, hcase⟩ := takeHead_cases htake
      rcases hcase with ⟨-, rfl⟩ | ⟨-, _, _, -, rfl⟩
      · exact hfits
      · exact hfits
  | body framing chunk =>
    rw [turn_body hstate] at h
    cases framing with
    | length total =>
      rw [parseBody_length_eq] at h
      dsimp only at h
      split_ifs at h with hlong hall
      · obtain ⟨-, rfl⟩ := Prod.mk.inj (Except.ok.inj h)
        exact Fits.takeBody (min_le_right ..) (Bool.eq_false_iff.mpr hlong)
      · obtain ⟨-, rfl⟩ := Prod.mk.inj (Except.ok.inj h)
        exact Fits.takeBody (min_le_right ..) (Bool.eq_false_iff.mpr hlong)
    | chunked => exact hfits.chunk h
    | untilClose =>
      rw [parseBody_untilClose_eq] at h
      split_ifs at h with hlong
      obtain ⟨-, rfl⟩ := Prod.mk.inj (Except.ok.inj h)
      exact Fits.takeBody le_rfl (Bool.eq_false_iff.mpr hlong)
  | done =>
    rw [ResponseParser.turn, hstate] at h
    dsimp only at h
    split_ifs at h
    obtain ⟨-, rfl⟩ := Prod.mk.inj (Except.ok.inj h)
    exact hfits

theorem Fits.run (hfits : Fits limits p) (h : p.run httparse limits headRequest = .ok q) :
    Fits limits q := by
  induction hsize : p.size using Nat.strong_induction_on generalizing p with
  | h size ih =>
  cases hturn : p.turn httparse limits headRequest with
  | error e =>
    rw [run_eq, hturn] at h
    cases h
  | ok step =>
  obtain ⟨again, p'⟩ := step
  cases again with
  | false =>
    rw [run_of_turn_wait hturn] at h
    exact Except.ok.inj h ▸ hfits.turn hturn
  | true =>
    rw [run_of_turn_again hturn] at h
    exact ih p'.size (hsize ▸ turn_size hturn) (hfits.turn hturn) h rfl

/-- The limit of the body; its length is a machine word. -/
theorem Fits.min_le (h : Fits limits p) :
    min p.response.body.length usizeMax ≤ limits.maxBodyBytes := by
  rw [Fits, tooLong, decide_eq_false_iff_not, Nat.add_zero] at h
  exact not_lt.mp h

theorem fits_new : Fits limits new := by
  simp [Fits, tooLong, new]

end NoxSdk.Tls.ResponseParser
