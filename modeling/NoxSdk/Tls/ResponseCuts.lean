import NoxSdk.Tls.Responses

/-!
# Responses that are cut

How a response is cut into pieces matters for one kind of response only. `LongChunked` says which
by the bytes: heads, then a chunked body that is complete, with a chunk-size line or a line of the
trailers that has reached its limit. The grammar of the body knows nothing of pieces, and the
parser is run over it once, from the grammar to the response and back.
-/

namespace NoxSdk.Tls.ResponseParser

open Js (textEncode)

variable {usizeMax : ℕ}

/-! ### Chunked responses -/

/-- The trailers, lines up to an empty one, and whether one of them is as long as a head may
be. -/
inductive Trailers (limits : HttpLimits usizeMax) : Bool → Bytes → Prop where
  | done : Trailers limits false [13, 10]
  | line {long : Bool} {line rest : Bytes} (hne : line ≠ [])
      (hline : findCrlf (line ++ 13 :: 10 :: rest) = some line.length)
      (h : Trailers limits long rest) :
      Trailers limits (decide (limits.maxHeadBytes ≤ line.length) || long)
        (line ++ 13 :: 10 :: rest)

/-- A chunked body behind so many bytes, and whether one of its lines is too long. -/
inductive Chunks (limits : HttpLimits usizeMax) : ℕ → Bool → Bytes → Prop where
  | last {length : ℕ} {long : Bool} {line rest : Bytes}
      (hline : findCrlf (line ++ 13 :: 10 :: rest) = some line.length)
      (hsize : chunkSize usizeMax line = .ok 0) (h : Trailers limits long rest) :
      Chunks limits length (decide (maxChunkLine ≤ line.length) || long)
        (line ++ 13 :: 10 :: rest)
  | chunk {length : ℕ} {long : Bool} {line data rest : Bytes}
      (hline : findCrlf (line ++ 13 :: 10 :: (data ++ 13 :: 10 :: rest)) = some line.length)
      (hsize : chunkSize usizeMax line = .ok data.length) (hne : data ≠ [])
      (hfits : tooLong limits length data.length = false)
      (h : Chunks limits (length + data.length) long rest) :
      Chunks limits length (decide (maxChunkLine ≤ line.length) || long)
        (line ++ 13 :: 10 :: (data ++ 13 :: 10 :: rest))

/-- The heads of interim responses, and the head of a chunked one; what follows them. -/
inductive ChunkedHeads (httparse : HeadParser) (limits : HttpLimits usizeMax)
    (headRequest : Bool) : Bytes → Bytes → Prop where
  | interim {bytes rest : Bytes} {consumed status : ℕ} {head : ParsedHead}
      (hread : httparse.read bytes = .complete consumed head)
      (hfits : consumed ≤ limits.maxHeadBytes) (hcode : head.code = some status)
      (hupgrade : status ≠ 101) (hinterim : 100 ≤ status ∧ status < 200)
      (h : ChunkedHeads httparse limits headRequest (bytes.drop consumed) rest) :
      ChunkedHeads httparse limits headRequest bytes rest
  | final {bytes : Bytes} {consumed status : ℕ} {head : ParsedHead} {keepAlive : Bool}
      (hread : httparse.read bytes = .complete consumed head)
      (hfits : consumed ≤ limits.maxHeadBytes) (hcode : head.code = some status)
      (hfinal : ¬(100 ≤ status ∧ status < 200))
      (hframed : frameHead limits headRequest ⟨status, head.version.getD 1,
        head.headers.map fun header => (header.1, fromUtf8Lossy header.2)⟩ =
          .ok (some .chunked, keepAlive)) :
      ChunkedHeads httparse limits headRequest bytes (bytes.drop consumed)

/-- A chunked response with a chunk-size line of 1024 bytes or more, or a line of the trailers
that is as long as a head may be. -/
def LongChunked (httparse : HeadParser) (limits : HttpLimits usizeMax) (headRequest : Bool)
    (bytes : Bytes) : Prop :=
  ∃ rest, ChunkedHeads httparse limits headRequest bytes rest ∧ Chunks limits 0 true rest

/-! ### Turns -/

variable {httparse : HeadParser} {limits : HttpLimits usizeMax} {headRequest closeNotify : Bool}

/-- There is a response when the connection ends. -/
def Answers (httparse : HeadParser) (limits : HttpLimits usizeMax)
    (headRequest closeNotify : Bool) (p : ResponseParser) : Prop :=
  ∃ q, p.run httparse limits headRequest = .ok q ∧
    ((q.finishOnClose limits closeNotify).toOption.bind takeResponse).isSome = true

/-- Behind a turn the answer is the same. -/
theorem answers_again {p p' : ResponseParser}
    (h : p.turn httparse limits headRequest = .ok (true, p')) :
    Answers httparse limits headRequest closeNotify p ↔
      Answers httparse limits headRequest closeNotify p' := by
  rw [Answers, Answers, run_of_turn_again h]

/-- A long line is taken by the turn or behind it. -/
theorem takesLong_again {p p' : ResponseParser}
    (h : p.turn httparse limits headRequest = .ok (true, p')) :
    TakesLong httparse limits headRequest p ↔
      LongLine limits p ∨ TakesLong httparse limits headRequest p' := by
  constructor
  · intro hlong
    cases hlong with
    | here hline => exact .inl hline
    | later hturn hlater =>
      rw [h] at hturn
      obtain ⟨-, rfl⟩ := Prod.mk.inj (Except.ok.inj hturn)
      exact .inr hlater
  · rintro (hline | hlater)
    · exact .here hline
    · exact .later h hlater

/-- Only two states read lines. -/
theorem not_longLine_of_state {p : ResponseParser} {state : ParserState} (hstate : p.state = state)
    (hsize : state ≠ .body .chunked .size) (htrailers : state ≠ .body .chunked .trailers) :
    ¬LongLine limits p :=
  not_longLine (hstate ▸ hsize) (hstate ▸ htrailers)

/-- A parser that does not go on takes no line behind its own. -/
theorem not_takesLong {p : ResponseParser} (hline : ¬LongLine limits p)
    (hturn : ∀ p', p.turn httparse limits headRequest ≠ .ok (true, p')) :
    ¬TakesLong httparse limits headRequest p := by
  intro hlong
  cases hlong with
  | here h => exact hline h
  | later h _ => exact hturn _ h

/-- A parser that is done takes no line. -/
theorem not_takesLong_done {p : ResponseParser} (h : p.state = .done) :
    ¬TakesLong httparse limits headRequest p := by
  refine not_takesLong (not_longLine_of_state h (by simp) (by simp)) ?_
  intro p' hturn
  rw [turn, h] at hturn
  dsimp only at hturn
  split_ifs at hturn
  cases hturn

/-- A chunk that waits for bytes leaves the parser as it is. -/
theorem parseChunk_wait {p p' : ResponseParser} {chunk : ChunkState}
    (h : p.parseChunk limits chunk = .ok (false, p')) : p' = p := by
  cases chunk with
  | size =>
    rcases parseSize_cases h with ⟨-, hsame⟩ | ⟨_, _, hagain, -⟩
    · exact hsame
    · cases hagain
  | data remaining =>
    rw [parseChunk_data_eq] at h
    dsimp only at h
    split_ifs at h
    · exact (Prod.mk.inj (Except.ok.inj h)).2.symm
    · cases h
  | dataEnd =>
    rcases parseDataEnd_cases h with ⟨-, hsame⟩ | ⟨hagain, -⟩
    · exact hsame
    · cases hagain
  | trailers =>
    rcases parseTrailers_cases h with ⟨-, hsame⟩ | ⟨_, hagain, -⟩
    · exact hsame
    · cases hagain

/-- A chunked body that ends in a response makes progress. -/
theorem Answers.turn {p : ResponseParser} {chunk : ChunkState}
    (hstate : p.state = .body .chunked chunk)
    (h : Answers httparse limits headRequest closeNotify p) :
    ∃ p', p.parseChunk limits chunk = .ok (true, p') ∧
      p.turn httparse limits headRequest = .ok (true, p') ∧
      Answers httparse limits headRequest closeNotify p' := by
  have hturn : p.turn httparse limits headRequest = p.parseChunk limits chunk :=
    turn_body hstate
  obtain ⟨q, hq, hanswer⟩ := h
  cases hchunk : p.parseChunk limits chunk with
  | error e =>
    rw [run_eq, hturn, hchunk] at hq
    cases hq
  | ok step =>
    obtain ⟨again, p'⟩ := step
    rw [hchunk] at hturn
    cases again with
    | true => exact ⟨p', rfl, hturn, q, (run_of_turn_again hturn).symm.trans hq, hanswer⟩
    | false =>
      rw [run_of_turn_wait hturn, parseChunk_wait hchunk] at hq
      rw [← Except.ok.inj hq, finishOnClose, hstate] at hanswer
      cases hanswer

/-- The bytes are a line, its end and a rest. -/
theorem findCrlf_split {bytes : Bytes} {n : ℕ} (h : findCrlf bytes = some n) :
    bytes = bytes.take n ++ 13 :: 10 :: bytes.drop (n + 2) := by
  induction bytes using findCrlf.induct generalizing n with
  | case1 a b rest hcrlf =>
    rw [findCrlf, if_pos hcrlf] at h
    obtain rfl := Option.some.inj h
    rw [hcrlf.1, hcrlf.2]
    rfl
  | case2 a b rest hcrlf ih =>
    rw [findCrlf, if_neg hcrlf] at h
    obtain ⟨m, hm, rfl⟩ := Option.map_eq_some_iff.mp h
    exact congrArg (a :: ·) (ih hm)
  | case3 bytes hshort =>
    rw [findCrlf.eq_2 _ hshort] at h
    cases h

/-- A line as it is split off at its end. -/
theorem exists_line {bytes : Bytes} {n : ℕ} (h : findCrlf bytes = some n) :
    ∃ line rest, bytes = line ++ 13 :: 10 :: rest ∧ line.length = n ∧ bytes.take n = line ∧
      bytes.drop (n + 2) = rest := by
  have hle := findCrlf_le h
  refine ⟨_, _, findCrlf_split h, ?_, rfl, rfl⟩
  rw [List.length_take]
  omega

/-- Behind the line and its end is the rest. -/
theorem drop_line (line rest : Bytes) :
    (line ++ 13 :: 10 :: rest).drop (line.length + 2) = rest := by
  rw [List.drop_length_add_append]
  rfl

/-! ### Trailers -/

/-- Trailers that end a response are read. -/
theorem Trailers.answers {long : Bool} {bytes : Bytes} (h : Trailers limits long bytes)
    {p : ResponseParser} (hstate : p.state = .body .chunked .trailers) (hbuf : p.buf = bytes) :
    Answers httparse limits headRequest closeNotify p ∧
      (long = true → TakesLong httparse limits headRequest p) := by
  induction h generalizing p with
  | done =>
    have hline : findCrlf p.buf = some 0 := by
      rw [hbuf]
      rfl
    have hturn : p.turn httparse limits headRequest = _ := turn_trailers hstate hline
    rw [takeTrailer, if_pos rfl] at hturn
    have hwait : ({ p.drain 2 with state := .done } : ResponseParser).turn httparse limits
        headRequest = .ok (false, { p.drain 2 with state := .done }) := by
      rw [ResponseParser.turn, drain, hbuf]
      rfl
    exact ⟨(answers_again hturn).mpr ⟨_, run_of_turn_wait hwait, rfl⟩,
      fun hlong => absurd hlong Bool.false_ne_true⟩
  | @line long line rest hne hline _ ih =>
    rw [← hbuf] at hline
    have hturn : p.turn httparse limits headRequest = _ := turn_trailers hstate hline
    rw [takeTrailer, if_neg (fun hnil => hne (List.length_eq_zero_iff.mp hnil))] at hturn
    have hrest : (p.drain (line.length + 2)).buf = rest := by
      rw [drain, hbuf]
      exact drop_line line rest
    obtain ⟨hanswers, hlong⟩ := ih (p := p.drain (line.length + 2)) hstate hrest
    refine ⟨(answers_again hturn).mpr hanswers, fun h => (takesLong_again hturn).mpr ?_⟩
    rcases (Bool.or_eq_true ..).mp h with hfirst | hlater
    · exact .inl (.inr ⟨hstate, _, hline, of_decide_eq_true hfirst⟩)
    · exact .inr (hlong hlater)

/-- What ends in a response are trailers. -/
theorem Answers.trailers (hpos : 0 < limits.maxHeadBytes) {p : ResponseParser}
    (hstate : p.state = .body .chunked .trailers)
    (h : Answers httparse limits headRequest closeNotify p) :
    ∃ long, Trailers limits long p.buf ∧
      (TakesLong httparse limits headRequest p → long = true) := by
  induction hsize : p.size using Nat.strong_induction_on generalizing p with
  | _ size ih =>
    obtain ⟨p', hchunk, hturn, hanswers⟩ := h.turn hstate
    have hsmaller := turn_size hturn
    rcases parseTrailers_cases hchunk with ⟨hwait, -⟩ | ⟨n, -, hline, hp'⟩
    · cases hwait
    obtain ⟨line, rest, hbuf, hlen, -, hdrop⟩ := exists_line hline
    have hlong : LongLine limits p → limits.maxHeadBytes ≤ n := by
      rintro (⟨hsize, -⟩ | ⟨-, m, hm, hle⟩)
      · rw [hstate] at hsize
        cases hsize
      · rw [hline] at hm
        rwa [Option.some.inj hm]
    rw [takeTrailer] at hp'
    split_ifs at hp' with hempty
    · -- the empty line: the response is over, and nothing follows it
      obtain ⟨q, hq, -⟩ := hanswers
      have hnil : (p.drain 2).buf = [] := by
        by_contra hne
        rw [run_eq, ResponseParser.turn, hp'] at hq
        dsimp only at hq
        rw [if_neg hne] at hq
        cases hq
      have hbuf' : p.buf = [13, 10] := by
        rw [hempty, Nat.zero_add] at hdrop
        rw [hbuf, hdrop.symm.trans hnil, List.length_eq_zero_iff.mp (hlen.trans hempty)]
        rfl
      rw [hbuf']
      refine ⟨false, .done, fun htakes => ?_⟩
      rcases (takesLong_again hturn).mp htakes with hfirst | hlater
      · have hle := hlong hfirst
        omega
      · exact absurd hlater (not_takesLong_done (by rw [hp']))
    -- a line with a name: the trailers go on behind it
    · have hstate' : p'.state = .body .chunked .trailers := by
        rw [hp']
        exact hstate
      obtain ⟨long, htrailers, htakes⟩ := ih p'.size (hsize ▸ hsmaller) hstate' hanswers rfl
      have hbuf' : p'.buf = rest := by
        rw [hp']
        exact hdrop
      rw [hbuf'] at htrailers
      rw [hbuf] at hline ⊢
      rw [← hlen] at hline
      refine ⟨_, .line (fun hnil => hempty (by rw [← hlen, hnil]; rfl)) hline htrailers,
        fun htakes' => (Bool.or_eq_true ..).mpr ?_⟩
      rcases (takesLong_again hturn).mp htakes' with hfirst | hlater
      · exact .inl (decide_eq_true (hlen ▸ hlong hfirst))
      · exact .inr (htakes hlater)

/-! ### Chunks -/

/-- The bytes of a chunk and the CRLF behind them are taken. -/
theorem turn_data {p : ResponseParser} {data rest : Bytes} (hne : data ≠ [])
    (hstate : p.state = .body .chunked (.data data.length))
    (hbuf : p.buf = data ++ 13 :: 10 :: rest)
    (hfits : tooLong limits p.response.body.length data.length = false) :
    ∃ p₁ p₂ : ResponseParser, p.turn httparse limits headRequest = .ok (true, p₁) ∧
      p₁.turn httparse limits headRequest = .ok (true, p₂) ∧
      p₁.state = .body .chunked .dataEnd ∧ p₂.state = .body .chunked .size ∧ p₂.buf = rest ∧
      p₂.response.body.length = p.response.body.length + data.length := by
  have hle : data.length ≤ p.buf.length := by
    rw [hbuf, List.length_append]
    exact Nat.le_add_right ..
  have hnil : p.buf ≠ [] := by
    rw [hbuf]
    exact List.append_ne_nil_of_left_ne_nil hne _
  have hdrop : ((p.takeBody data.length).setChunk .dataEnd).buf = 13 :: 10 :: rest := by
    rw [setChunk, takeBody, drain, hbuf]
    exact List.drop_left
  refine ⟨(p.takeBody data.length).setChunk .dataEnd, _, ?_,
    turn_dataEnd rfl (by rw [hdrop]; rfl), rfl, rfl,
    ?_, takeBody_length hle⟩
  · rw [turn_body hstate, parseBody, parseChunk_data_eq, if_neg hnil]
    dsimp only
    rw [min_eq_left hle, hfits, if_neg Bool.false_ne_true, Nat.sub_self]
    rfl
  · rw [setChunk, drain, hdrop]
    rfl

/-- A chunk whose bytes are taken, in a response that is answered. -/
theorem Answers.data {p : ResponseParser} {size : ℕ}
    (hstate : p.state = .body .chunked (.data size))
    (h : Answers httparse limits headRequest closeNotify p) :
    ∃ data rest, data.length = size ∧ p.buf = data ++ 13 :: 10 :: rest := by
  obtain ⟨p₁, hchunk, -, hanswers⟩ := h.turn hstate
  rw [parseChunk_data_eq] at hchunk
  dsimp only at hchunk
  split_ifs at hchunk with hnil hlong
  · cases hchunk
  · obtain ⟨-, rfl⟩ := Prod.mk.inj (Except.ok.inj hchunk)
    rcases Nat.lt_or_ge p.buf.length size with hlt | hle
    · -- the chunk is not complete, and nothing is left
      have hstate₁ : ((p.takeBody (min size p.buf.length)).setChunk
          (dataState (size - min size p.buf.length))).state =
            .body .chunked (.data (size - p.buf.length)) := by
        rw [min_eq_right hlt.le, dataState, if_neg (by omega)]
        rfl
      obtain ⟨p₂, hchunk₂, -, -⟩ := hanswers.turn hstate₁
      have hempty : ((p.takeBody (min size p.buf.length)).setChunk
          (dataState (size - min size p.buf.length))).buf = [] := by
        rw [min_eq_right hlt.le]
        exact List.drop_length
      rw [parseChunk_data_eq, if_pos hempty] at hchunk₂
      cases hchunk₂
    -- the chunk is there, and the next turn takes the line end behind it
    · rw [min_eq_left hle, Nat.sub_self] at hanswers
      have hstate₁ : ((p.takeBody size).setChunk (dataState 0)).state =
          .body .chunked .dataEnd := rfl
      obtain ⟨p₂, hchunk₂, -, -⟩ := hanswers.turn hstate₁
      rcases parseDataEnd_cases hchunk₂ with ⟨hwait, -⟩ | ⟨-, -, htake, -⟩
      · cases hwait
      · refine ⟨p.buf.take size, (p.buf.drop size).drop 2, ?_, ?_⟩
        · rw [List.length_take, min_eq_left hle]
        · calc p.buf = p.buf.take size ++ p.buf.drop size := (List.take_append_drop ..).symm
            _ = p.buf.take size ++ ([13, 10] ++ (p.buf.drop size).drop 2) := by
                rw [← show (p.buf.drop size).take 2 = [13, 10] from htake,
                  List.take_append_drop 2]
            _ = p.buf.take size ++ 13 :: 10 :: (p.buf.drop size).drop 2 := rfl

/-- A chunked body ends in a response. -/
theorem Chunks.answers {length : ℕ} {long : Bool} {bytes : Bytes}
    (h : Chunks limits length long bytes) {p : ResponseParser}
    (hstate : p.state = .body .chunked .size) (hbuf : p.buf = bytes)
    (hlength : p.response.body.length = length) :
    Answers httparse limits headRequest closeNotify p ∧
      (long = true → TakesLong httparse limits headRequest p) := by
  induction h generalizing p with
  -- the trailers end the response
  | @last length long line rest hline hsize htrailers =>
    have htake : p.buf.take line.length = line := by
      rw [hbuf]
      exact List.take_left
    rw [← hbuf] at hline
    rw [← htake] at hsize
    have hturn : p.turn httparse limits headRequest = _ :=
      turn_sizeLine hstate hline hsize fun hne => absurd rfl hne
    rw [sizeState, if_pos rfl] at hturn
    have hrest : ((p.drain (line.length + 2)).setChunk .trailers).buf = rest := by
      rw [setChunk, drain, hbuf]
      exact drop_line line rest
    obtain ⟨hanswers, hlong⟩ := @Trailers.answers _ httparse limits headRequest closeNotify
      _ _ htrailers ((p.drain (line.length + 2)).setChunk .trailers) rfl hrest
    refine ⟨(answers_again hturn).mpr hanswers, fun h => (takesLong_again hturn).mpr ?_⟩
    rcases (Bool.or_eq_true ..).mp h with hfirst | hlater
    · exact .inl (.inl ⟨hstate, _, hline, of_decide_eq_true hfirst⟩)
    · exact .inr (hlong hlater)
  -- three turns take the line, the data and the line end; the induction goes on from there
  | @chunk length long line data rest hline hsize hne hfits _ ih =>
    have htake : p.buf.take line.length = line := by
      rw [hbuf]
      exact List.take_left
    rw [← hbuf] at hline
    rw [← htake] at hsize
    rw [← hlength] at hfits
    have hturn : p.turn httparse limits headRequest = _ :=
      turn_sizeLine hstate hline hsize fun _ => hfits
    rw [sizeState, if_neg (fun hnil => hne (List.length_eq_zero_iff.mp hnil))] at hturn
    have hrest : ((p.drain (line.length + 2)).setChunk (.data data.length)).buf =
        data ++ 13 :: 10 :: rest := by
      rw [setChunk, drain, hbuf]
      exact drop_line line _
    obtain ⟨p₁, p₂, hturn₁, hturn₂, -, hstate₂, hbuf₂, hlength₂⟩ :=
      @turn_data _ httparse limits headRequest
        ((p.drain (line.length + 2)).setChunk (.data data.length)) _ _ hne rfl hrest hfits
    obtain ⟨hanswers, hlong⟩ := ih hstate₂ hbuf₂ (hlength₂.trans (by rw [← hlength]; rfl))
    refine ⟨(answers_again hturn).mpr ((answers_again hturn₁).mpr
      ((answers_again hturn₂).mpr hanswers)), fun h => (takesLong_again hturn).mpr ?_⟩
    rcases (Bool.or_eq_true ..).mp h with hfirst | hlater
    · exact .inl (.inl ⟨hstate, _, hline, of_decide_eq_true hfirst⟩)
    · exact .inr (.later hturn₁ (.later hturn₂ (hlong hlater)))

/-- What ends in a response is a chunked body. -/
theorem Answers.chunks (hpos : 0 < limits.maxHeadBytes) {p : ResponseParser}
    (hstate : p.state = .body .chunked .size)
    (h : Answers httparse limits headRequest closeNotify p) :
    ∃ long, Chunks limits p.response.body.length long p.buf ∧
      (TakesLong httparse limits headRequest p → long = true) := by
  induction hp : p.size using Nat.strong_induction_on generalizing p with
  | _ measure ih =>
    obtain ⟨p', hchunk, hturn, hanswers⟩ := h.turn hstate
    have hsmaller := turn_size hturn
    rcases parseSize_cases hchunk with ⟨hwait, -⟩ | ⟨n, size, -, hline, hsize, hfits, rfl⟩
    · cases hwait
    obtain ⟨line, rest, hbuf, hlen, htake, hdrop⟩ := exists_line hline
    -- a line of this state is too long only as a chunk-size line
    have hlong : LongLine limits p → maxChunkLine ≤ line.length := by
      rintro (⟨-, m, hm, hle⟩ | ⟨htrailers, -⟩)
      · rw [hline] at hm
        rwa [hlen, Option.some.inj hm]
      · rw [hstate] at htrailers
        cases htrailers
    have hline' : findCrlf (line ++ 13 :: 10 :: rest) = some line.length := by
      rw [← hbuf, hline, hlen]
    rw [htake] at hsize
    rw [hbuf]
    rcases eq_or_ne size 0 with rfl | hne
    · obtain ⟨long, htrailers, htakes⟩ := hanswers.trailers hpos rfl
      rw [show ((p.drain (n + 2)).setChunk (sizeState 0)).buf = rest from hdrop] at htrailers
      refine ⟨_, .last hline' hsize htrailers, fun h => (Bool.or_eq_true ..).mpr ?_⟩
      rcases (takesLong_again hturn).mp h with hfirst | hlater
      · exact .inl (decide_eq_true (hlong hfirst))
      · exact .inr (htakes hlater)
    · have hstate₀ : ((p.drain (n + 2)).setChunk (sizeState size)).state =
          .body .chunked (.data size) := by
        rw [setChunk, sizeState, if_neg hne]
      -- a chunk takes two turns, over its data and over the line end
      obtain ⟨data, rest', hdata, hbuf'⟩ := hanswers.data hstate₀
      rw [show ((p.drain (n + 2)).setChunk (sizeState size)).buf = rest from hdrop] at hbuf'
      subst hbuf' hdata
      obtain ⟨p₁, p₂, hturn₁, hturn₂, hstate₁, hstate₂, hbuf₂, hlength₂⟩ :=
        @turn_data _ httparse limits headRequest
          ((p.drain (n + 2)).setChunk (sizeState data.length)) _ _
          (fun hnil => hne (List.length_eq_zero_iff.mpr hnil)) hstate₀ hdrop (hfits hne)
      have hanswers₂ := (answers_again hturn₂).mp ((answers_again hturn₁).mp hanswers)
      have hsmaller₂ := (turn_size hturn₂).trans ((turn_size hturn₁).trans hsmaller)
      obtain ⟨long, hchunks, htakes⟩ := ih p₂.size (hp ▸ hsmaller₂) hstate₂ hanswers₂ rfl
      rw [hbuf₂, hlength₂] at hchunks
      refine ⟨_, .chunk hline' hsize (fun hnil => hne (List.length_eq_zero_iff.mpr hnil))
        (hfits hne) hchunks, fun h => (Bool.or_eq_true ..).mpr ?_⟩
      rcases (takesLong_again hturn).mp h with hfirst | hlater
      · exact .inl (decide_eq_true (hlong hfirst))
      · -- no line is read in the turns that take the chunk
        have hdata : ¬LongLine limits ((p.drain (n + 2)).setChunk (sizeState data.length)) :=
          not_longLine_of_state hstate₀ (by simp) (by simp)
        have hend : ¬LongLine limits p₁ :=
          not_longLine_of_state hstate₁ (by simp) (by simp)
        have hlater₁ := ((takesLong_again hturn₁).mp hlater).resolve_left hdata
        exact .inr (htakes (((takesLong_again hturn₂).mp hlater₁).resolve_left hend))

/-! ### Heads -/

/-- An interim head leaves the parser as it was. -/
theorem takeHead_interim {p : ResponseParser} {head : ParsedHead} {status : ℕ}
    (hcode : head.code = some status) (hupgrade : status ≠ 101)
    (hinterim : 100 ≤ status ∧ status < 200) :
    p.takeHead limits headRequest head = .ok p := by
  rw [takeHead, hcode]
  dsimp only
  rw [if_neg hupgrade, if_pos hinterim]

/-- A final head starts its body. -/
theorem takeHead_final {p : ResponseParser} {head : ParsedHead} {status : ℕ}
    {framed : Option Framing × Bool} (hcode : head.code = some status)
    (hfinal : ¬(100 ≤ status ∧ status < 200))
    (hframed : frameHead limits headRequest ⟨status, head.version.getD 1,
      head.headers.map fun header => (header.1, fromUtf8Lossy header.2)⟩ = .ok framed) :
    p.takeHead limits headRequest head = .ok { p with
      state := bodyState framed.1
      response := ⟨status, head.headers.map fun header => (header.1, fromUtf8Lossy header.2),
        p.response.body, framed.2⟩ } := by
  rw [takeHead, hcode]
  dsimp only
  rw [if_neg (by omega), if_neg hfinal, hframed]
  rfl

/-- The heads of a chunked response are read. -/
theorem ChunkedHeads.answers {bytes rest : Bytes}
    (h : ChunkedHeads httparse limits headRequest bytes rest) {long : Bool} {p : ResponseParser}
    (hchunks : Chunks limits p.response.body.length long rest) (hstate : p.state = .head)
    (hbuf : p.buf = bytes) :
    Answers httparse limits headRequest closeNotify p ∧
      (long = true → TakesLong httparse limits headRequest p) := by
  induction h generalizing p with
  | @interim bytes rest consumed status head hread hfits hcode hupgrade hinterim _ ih =>
    subst hbuf
    have hturn : p.turn httparse limits headRequest = _ := turn_head hstate hread hfits
    rw [takeHead_interim hcode hupgrade hinterim] at hturn
    obtain ⟨hanswers, hlong⟩ := ih (p := p.drain consumed) hchunks hstate rfl
    exact ⟨(answers_again hturn).mpr hanswers, fun h => .later hturn (hlong h)⟩
  | @final bytes consumed status head keepAlive hread hfits hcode hfinal hframed =>
    subst hbuf
    have hturn : p.turn httparse limits headRequest = _ := turn_head hstate hread hfits
    rw [takeHead_final hcode hfinal hframed] at hturn
    obtain ⟨hanswers, hlong⟩ := @Chunks.answers _ httparse limits headRequest closeNotify _ _ _
      hchunks ⟨.body .chunked .size, p.buf.drop consumed, ⟨status, head.headers.map fun header =>
        (header.1, fromUtf8Lossy header.2), p.response.body, keepAlive⟩⟩ rfl rfl rfl
    exact ⟨(answers_again hturn).mpr hanswers, fun h => .later hturn (hlong h)⟩

/-- A body that is not chunked has no lines. -/
theorem not_takesLong_body {p : ResponseParser} {framing : Framing} {chunk : ChunkState}
    (hstate : p.state = .body framing chunk) (hframing : framing ≠ .chunked) :
    ¬TakesLong httparse limits headRequest p := by
  intro hlong
  cases hlong with
  | here hline =>
    rcases hline with ⟨hsize, -⟩ | ⟨htrailers, -⟩
    · exact hframing (ParserState.body.inj (hstate.symm.trans hsize)).1
    · exact hframing (ParserState.body.inj (hstate.symm.trans htrailers)).1
  | later hturn hlater =>
    rw [turn_body hstate] at hturn
    cases framing with
    | length total =>
      rw [parseBody_length_eq] at hturn
      dsimp only at hturn
      split_ifs at hturn
      · obtain ⟨-, rfl⟩ := Prod.mk.inj (Except.ok.inj hturn)
        exact not_takesLong_done rfl hlater
      · cases hturn
    | chunked => exact hframing rfl
    | untilClose =>
      rw [parseBody_untilClose_eq] at hturn
      split_ifs at hturn
      cases hturn

/-- A response that takes a line that is too long is a chunked one. -/
theorem Answers.heads {p : ResponseParser} (hstate : p.state = .head)
    (h : Answers httparse limits headRequest closeNotify p)
    (hlong : TakesLong httparse limits headRequest p) :
    ∃ rest, ChunkedHeads httparse limits headRequest p.buf rest ∧
      Chunks limits p.response.body.length true rest := by
  induction hp : p.size using Nat.strong_induction_on generalizing p with
  | _ measure ih =>
    cases hlong with
    | here hline =>
      exact absurd hline (not_longLine_of_state hstate (by simp) (by simp))
    | @later _ p' hturn hlater =>
      have hsmaller := turn_size hturn
      have hanswers := (answers_again hturn).mp h
      rw [ResponseParser.turn, hstate] at hturn
      rcases parseHead_cases hturn with ⟨hwait, -⟩ | ⟨consumed, head, -, hread, hfits, htake⟩
      · cases hwait
      have hpos := (httparse.consumed_le hread).1.trans_le hfits
      rw [takeHead] at htake
      cases hcode : head.code with
      | none =>
        rw [hcode] at htake
        cases htake
      | some status =>
        rw [hcode] at htake
        dsimp only at htake
        split_ifs at htake with hupgrade hinterim
        · obtain rfl := Except.ok.inj htake
          have hrest := @ih (p.drain consumed).size (hp ▸ hsmaller) (p.drain consumed)
          obtain ⟨rest, hheads, hchunks⟩ := hrest hstate hanswers hlater rfl
          exact ⟨rest, .interim hread hfits hcode hupgrade hinterim hheads, hchunks⟩
        · obtain ⟨⟨framing, keepAlive⟩, hframed, hret⟩ := bind_eq_ok_iff.mp htake
          obtain rfl := Except.ok.inj hret
          -- only a chunked body has lines that can be too long
          rcases framing with - | (total | - | -)
          · exact absurd hlater (not_takesLong_done rfl)
          · rcases Nat.eq_zero_or_pos total with rfl | htotal
            · exact absurd hlater (not_takesLong_done rfl)
            · obtain ⟨total, rfl⟩ := Nat.exists_eq_succ_of_ne_zero htotal.ne'
              exact absurd hlater (not_takesLong_body
                (show _ = ParserState.body (.length (total + 1)) .size from rfl) (by simp))
          · obtain ⟨long, hchunks, htakes⟩ := hanswers.chunks hpos rfl
            rw [htakes hlater] at hchunks
            exact ⟨_, .final hread hfits hcode hinterim hframed, hchunks⟩
          · exact absurd hlater (not_takesLong_body
              (show _ = ParserState.body .untilClose .size from rfl) (by simp))

/-! ### Cuts -/

/-- A response comes out exactly when the bytes in one piece end in one. -/
theorem outcome_isSome_iff {bytes : Bytes} :
    (outcome httparse limits headRequest closeNotify [bytes]).isSome = true ↔
      Answers httparse limits headRequest closeNotify (new.feed bytes) := by
  rw [Option.isSome_iff_exists]
  simp only [outcome_eq_some_iff, List.foldlM_cons, bind_eq_ok_iff, push_ok_iff clean_new]
  constructor
  · rintro ⟨r, q, ⟨q', hq, hret⟩, hr⟩
    obtain rfl := Except.ok.inj hret
    exact ⟨q', hq, Option.isSome_iff_exists.mpr ⟨r, hr⟩⟩
  · rintro ⟨q, hq, hanswer⟩
    obtain ⟨r, hr⟩ := Option.isSome_iff_exists.mp hanswer
    exact ⟨r, q, ⟨q, hq, rfl⟩, hr⟩

/-- The grammar of the long responses is that of the runs that take a long line. -/
theorem longChunked_iff {bytes : Bytes} :
    LongChunked httparse limits headRequest bytes ↔
      Answers httparse limits headRequest closeNotify (new.feed bytes) ∧
        TakesLong httparse limits headRequest (new.feed bytes) := by
  constructor
  · rintro ⟨rest, hheads, hchunks⟩
    obtain ⟨hanswers, hlong⟩ := @ChunkedHeads.answers _ httparse limits headRequest closeNotify _ _
      hheads _ (new.feed bytes) hchunks rfl rfl
    exact ⟨hanswers, hlong rfl⟩
  · rintro ⟨hanswers, hlong⟩
    exact hanswers.heads rfl hlong

/-- How the bytes are cut does not matter exactly when they are no chunked response in which a
line is too long: a chunk-size line of 1024 bytes, or a line of the trailers as long as a head may
be.

A line that is complete when the parser looks is taken whatever its length, and one that is not is
refused at the limit, so a cut decides (`outcome_cuts_iff_run`). `longChunked_iff` brings this from
the run of the parser to the grammar of the bytes. -/
theorem outcome_cuts_iff (httparse : HeadParser) (limits : HttpLimits usizeMax)
    (headRequest closeNotify : Bool) (bytes : Bytes) :
    (∀ pieces pieces', pieces.flatten = bytes → pieces'.flatten = bytes →
      outcome httparse limits headRequest closeNotify pieces =
        outcome httparse limits headRequest closeNotify pieces') ↔
      ¬LongChunked httparse limits headRequest bytes := by
  rw [outcome_cuts_iff_run, outcome_isSome_iff, ← longChunked_iff]

/-- A parser that knows one head. -/
def knownHead (text : Bytes) (head : ParsedHead) (hne : text ≠ []) : HeadParser where
  read bytes :=
    if text.isPrefixOf bytes then .complete text.length head
    else if bytes.isPrefixOf text then .pending
    else .malformed "invalid token"
  consumed_le := by
    intro bytes consumed head' h
    split_ifs at h with hprefix
    obtain ⟨rfl, rfl⟩ := HeadRead.complete.inj h
    exact ⟨List.length_pos_iff.mpr hne, (List.isPrefixOf_iff_prefix.mp hprefix).length_le⟩
  read_take := by
    intro bytes consumed head' h more
    split_ifs at h with hprefix
    obtain ⟨rfl, rfl⟩ := HeadRead.complete.inj h
    have htake := (List.prefix_iff_eq_take.mp (List.isPrefixOf_iff_prefix.mp hprefix)).symm
    rw [htake, if_pos (List.isPrefixOf_iff_prefix.mpr (List.prefix_append text more))]
  pending_iff := by
    intro bytes
    constructor
    · intro h
      split_ifs at h with hlong hprefix
      obtain ⟨more, hmore⟩ := List.isPrefixOf_iff_prefix.mp hprefix
      refine ⟨more, text.length, head, ?_, ?_⟩
      · by_contra hle
        have hlen := congrArg List.length hmore
        rw [List.length_append] at hlen
        obtain rfl := List.length_eq_zero_iff.mp (show more.length = 0 by omega)
        rw [List.append_nil] at hmore
        exact hlong (List.isPrefixOf_iff_prefix.mpr (hmore ▸ List.prefix_rfl))
      · rw [hmore, if_pos (List.isPrefixOf_iff_prefix.mpr List.prefix_rfl)]
    · rintro ⟨more, consumed, head', hlt, h⟩
      split_ifs at h with hprefix
      obtain ⟨rfl, rfl⟩ := HeadRead.complete.inj h
      have hshort : bytes <+: text := List.prefix_of_prefix_length_le
        (List.prefix_append bytes more) (List.isPrefixOf_iff_prefix.mp hprefix) hlt.le
      rw [if_neg, if_pos (List.isPrefixOf_iff_prefix.mpr hshort)]
      exact fun hlong =>
        absurd (List.isPrefixOf_iff_prefix.mp hlong).length_le (not_le.mpr hlt)

/-- The head of a chunked response. -/
def sampleHeadText : Bytes := textEncode "HTTP/1.1 200 OK\r\nTransfer-Encoding: chunked\r\n\r\n"

/-- The parser that knows it. -/
def sampleHead : HeadParser :=
  knownHead sampleHeadText ⟨some 200, some 1, [("Transfer-Encoding", textEncode "chunked")]⟩
    (by decide +kernel)

/-- A chunk-size line of 1024 bytes. -/
def sampleLine : Bytes := [53, 59] ++ List.replicate 1022 97

/-- The long line of the sample has no CR inside. -/
theorem not_mem_sampleLine : 13 ∉ sampleLine := by
  intro hmem
  rcases List.mem_append.mp hmem with hstart | hrest
  · revert hstart
    decide
  · exact absurd (List.eq_of_mem_replicate hrest) (by decide)

/-- A line without a CR ends where its end stands. -/
theorem findCrlf_of_no_cr {line : Bytes} (h : 13 ∉ line) (rest : Bytes) :
    findCrlf (line ++ 13 :: 10 :: rest) = some line.length := by
  induction line with
  | nil => rfl
  | cons a line ih =>
    obtain ⟨hne, hrest⟩ := not_or.mp fun hor => h (List.mem_cons.mpr hor)
    have hnext := ih hrest
    rcases line with - | ⟨b, line⟩
    · rw [List.cons_append, List.nil_append, findCrlf, if_neg (fun hcrlf => hne hcrlf.1.symm)]
      rfl
    · rw [List.cons_append, List.cons_append, findCrlf, if_neg (fun hcrlf => hne hcrlf.1.symm),
        ← List.cons_append, hnext]
      rfl

/-- The size of a line, given its text in front of the extension. -/
theorem chunkSize_eq (line : Bytes) {text : List Char}
    (h : trimText ((Js.Utf8State.start.decode line).takeWhile (· != ';')) = text)
    (hne : text ≠ []) (hhex : text.all isHexDigit = true)
    (hfits : text.foldl (fun n c => n * 16 + hexDigit c) 0 ≤ usizeMax) :
    chunkSize usizeMax line = .ok (text.foldl (fun n c => n * 16 + hexDigit c) 0) := by
  subst h
  rw [chunkSize, fromUtf8Lossy, String.toList_ofList, if_neg]
  rintro (hnil | hbad | hlong)
  · exact hne hnil
  · rw [hhex] at hbad
    cases hbad
  · exact absurd hfits (not_le.mpr hlong)

/-- A response with a chunk-size line of 1024 bytes is read when it comes in one piece, and not
when it is cut between the CR and the LF of the line. -/
theorem outcome_cuts_differ :
    ¬∀ pieces pieces' : List Bytes,
      pieces.flatten = sampleHeadText ++ sampleLine ++ textEncode "\r\nhello\r\n0\r\n\r\n" →
      pieces'.flatten = sampleHeadText ++ sampleLine ++ textEncode "\r\nhello\r\n0\r\n\r\n" →
        outcome sampleHead sampleLimits false false pieces =
          outcome sampleHead sampleLimits false false pieces' := by
  intro h
  have hcuts := (outcome_cuts_iff_run ..).mp h
  rw [outcome_isSome_iff, ← longChunked_iff] at hcuts
  refine hcuts ⟨sampleLine ++ textEncode "\r\nhello\r\n0\r\n\r\n", ?_, ?_⟩
  · have hread : sampleHead.read (sampleHeadText ++
        (sampleLine ++ textEncode "\r\nhello\r\n0\r\n\r\n")) =
          .complete sampleHeadText.length ⟨some 200, some 1,
            [("Transfer-Encoding", textEncode "chunked")]⟩ := by
      rw [sampleHead, knownHead]
      have hprefix : sampleHeadText.isPrefixOf (sampleHeadText ++
          (sampleLine ++ textEncode "\r\nhello\r\n0\r\n\r\n")) = true :=
        List.isPrefixOf_iff_prefix.mpr (List.prefix_append ..)
      dsimp only
      rw [if_pos hprefix]
    have hframed : frameHead sampleLimits false ⟨200, 1, [("Transfer-Encoding",
        textEncode "chunked")].map fun header => (header.1, fromUtf8Lossy header.2)⟩ =
          .ok (some .chunked, true) := by
      decide +kernel
    have hheads := ChunkedHeads.final hread (by decide +kernel) rfl (by decide) hframed
    rwa [List.drop_left, ← List.append_assoc] at hheads
  · have hline : findCrlf (sampleLine ++ 13 :: 10 :: (textEncode "hello" ++ 13 :: 10 ::
        (textEncode "0" ++ 13 :: 10 :: [13, 10]))) = some sampleLine.length :=
      findCrlf_of_no_cr not_mem_sampleLine _
    -- the line is long for its extension; the size in front of it is five
    have hfive : trimText ((Js.Utf8State.start.decode sampleLine).takeWhile (· != ';')) =
        ['5'] := by
      decide +kernel
    have hzero : trimText ((Js.Utf8State.start.decode (textEncode "0")).takeWhile (· != ';')) =
        ['0'] := by
      decide +kernel
    have hlast : Chunks sampleLimits (0 + (textEncode "hello").length) false
        (textEncode "0" ++ 13 :: 10 :: [13, 10]) :=
      .last (by decide +kernel) (chunkSize_eq _ hzero (by decide) (by decide) (by decide)) .done
    have hsize : chunkSize (2 ^ 32 - 1) sampleLine = .ok (textEncode "hello").length :=
      chunkSize_eq _ hfive (by decide) (by decide) (by decide)
    have hchunks := Chunks.chunk hline hsize (by decide +kernel) (by decide +kernel) hlast
    have hlong : decide (maxChunkLine ≤ sampleLine.length) = true := by
      rw [sampleLine, List.length_append, List.length_replicate]
      rfl
    rwa [hlong] at hchunks

end NoxSdk.Tls.ResponseParser
