import NoxSdk.Kps.ResponseHead

/-!
# Reading a response of KPS-HTTP/1

`readKpsHttpResponseHead` and `readKpsHttpResponseBody` of `kps/http1.ts`, over the chunks that the
stream delivers. Both limits are checked against what was read so far: a head whose end is not in
the buffer is longer than the buffer, and the body only grows, so a check that fails on a part
fails on the whole. What is read is therefore a matter of the bytes alone
(`readKpsHttpResponse_exact`).
-/

namespace NoxSdk.Kps

open Client (protocolError)

/-! ### The reader -/

/-- `KpsHttpReadLimits`. -/
structure KpsHttpReadLimits where
  maxHeadBytes : ℕ
  maxBodyBytes : ℕ

/-- `MAX_INTERIM_RESPONSES`. -/
def maxInterimResponses : ℕ := 8

/-- `headTooLarge`. -/
def headTooLarge (limit : ℕ) : Thrown :=
  .noxKpsError s!"KPS-HTTP/1 response head exceeds {limit} bytes" .tooLarge

/-- `bodyTooLarge`. -/
def bodyTooLarge (limit seen : ℕ) : Thrown :=
  .noxKpsError s!"KPS-HTTP/1 response body exceeds {limit} bytes (at least {seen})" .tooLarge

/-- What the calls of `readChunk` return, one after the other: it passes over empty chunks. -/
def deliveredChunks (chunks : List Bytes) : List Bytes := chunks.filter fun chunk => !chunk.isEmpty

/-- What the loop over the heads in the buffer comes to. -/
inductive Drained
  | final (head : KpsHttpResponseHead) (rest : Bytes)
  /-- No head ends in the buffer; so many interim heads may still be skipped. -/
  | incomplete (skips : ℕ) (buffer : Bytes)

/-- The loop over the heads in the buffer, with the interim heads that may still be skipped. -/
def drainHeads (limits : KpsHttpReadLimits) (skips : ℕ) (buffer : Bytes) :
    Except Thrown Drained :=
  match findHeadEnd buffer with
  | none => .ok (.incomplete skips buffer)
  | some last =>
    if last + 4 > limits.maxHeadBytes then .error (headTooLarge limits.maxHeadBytes)
    else match parseResponseHead (buffer.take last) with
      | .error thrown => .error thrown
      | .ok head =>
        if 200 ≤ head.status then .ok (.final head (buffer.drop (last + 4)))
        else if head.status = 101 then
          .error (protocolError "KPS-HTTP/1 forbids protocol upgrades (got 101)")
        else match skips with
          | 0 => .error (protocolError
              s!"KPS-HTTP/1 response sent more than {maxInterimResponses} interim 1xx heads")
          | skips + 1 => drainHeads limits skips (buffer.drop (last + 4))

/-- The loop of `readKpsHttpResponseHead`: the final head, what is left of the buffer and the
chunks that are left. -/
def readHeadLoop (limits : KpsHttpReadLimits) (skips : ℕ) (buffer : Bytes) (chunks : List Bytes) :
    Except Thrown (KpsHttpResponseHead × Bytes × List Bytes) :=
  match drainHeads limits skips buffer with
  | .error thrown => .error thrown
  | .ok (.final head rest) => .ok (head, rest, chunks)
  | .ok (.incomplete skips buffer) =>
    if limits.maxHeadBytes ≤ buffer.length then .error (headTooLarge limits.maxHeadBytes)
    else match chunks with
      | [] => .error (protocolError (if buffer.length = 0 then
          "KPS peer closed the stream without a response"
        else "KPS stream ended inside the response head"))
      | chunk :: chunks => readHeadLoop limits skips (buffer ++ chunk) chunks

/-- `readKpsHttpResponseHead`. -/
def readKpsHttpResponseHead (limits : KpsHttpReadLimits) (chunks : List Bytes) :
    Except Thrown (KpsHttpResponseHead × Bytes × List Bytes) :=
  readHeadLoop limits maxInterimResponses [] (deliveredChunks chunks)

/-- `bodyless`. -/
def bodyless (method : String) (head : KpsHttpResponseHead) : Bool :=
  method == "HEAD" || head.status == 204 || head.status == 304

/-- The loop of `readKpsHttpResponseBody` over the chunks that are left. -/
def readBodyLoop (limits : KpsHttpReadLimits) (body : Bytes) : List Bytes → Except Thrown Bytes
  | [] => .ok body
  | chunk :: chunks =>
    if (body ++ chunk).length > limits.maxBodyBytes then
      .error (bodyTooLarge limits.maxBodyBytes (body ++ chunk).length)
    else readBodyLoop limits (body ++ chunk) chunks

/-- The checks of `readKpsHttpResponseBody` on the whole body. -/
def checkBody (method : String) (head : KpsHttpResponseHead) (body : Bytes) :
    Except Thrown Bytes :=
  if bodyless method head then
    if body.length > 0 then
      let what := if method = "HEAD" then "HEAD" else toString head.status
      .error (protocolError s!"KPS-HTTP/1 {what} response carried {body.length} body bytes")
    else .ok []
  else match head.contentLength.filter fun length => length ≠ body.length with
    | some length => .error (protocolError
        s!"KPS-HTTP/1 response body has {body.length} bytes but Content-Length is {length}")
    | none => .ok body

/-- `readKpsHttpResponseBody`. -/
def readKpsHttpResponseBody (method : String) (limits : KpsHttpReadLimits)
    (head : KpsHttpResponseHead) (rest : Bytes) (chunks : List Bytes) : Except Thrown Bytes :=
  match head.contentLength.filter fun length =>
      !bodyless method head && decide (limits.maxBodyBytes < length) with
  | some length => .error (bodyTooLarge limits.maxBodyBytes length)
  | none =>
    if rest.length > limits.maxBodyBytes then
      .error (bodyTooLarge limits.maxBodyBytes rest.length)
    else do
      let body ← readBodyLoop limits rest chunks
      checkBody method head body

/-- A response: its head and then its body. -/
def readKpsHttpResponse (method : String) (limits : KpsHttpReadLimits) (chunks : List Bytes) :
    Except Thrown (KpsHttpResponseHead × Bytes) := do
  let (head, rest, left) ← readKpsHttpResponseHead limits chunks
  let body ← readKpsHttpResponseBody method limits head rest left
  return (head, body)

/-! ### The profile -/

/-- CRLF CRLF. -/
def headEnd : Bytes := [13, 10, 13, 10]

/-- At most so many interim heads, then the final head, then the rest. -/
inductive FinalHead (limits : KpsHttpReadLimits) :
    ℕ → Bytes → KpsHttpResponseHead → Bytes → Prop
  | final {skips : ℕ} {text rest : Bytes} {head : KpsHttpResponseHead} (ishead : IsHead text head)
      (size : text.length + 4 ≤ limits.maxHeadBytes) (status : 200 ≤ head.status) :
      FinalHead limits skips (text ++ headEnd ++ rest) head rest
  | interim {skips : ℕ} {text more rest : Bytes} {first head : KpsHttpResponseHead}
      (ishead : IsHead text first) (size : text.length + 4 ≤ limits.maxHeadBytes)
      (status : first.status < 200) (upgrade : first.status ≠ 101)
      (others : FinalHead limits skips more head rest) :
      FinalHead limits (skips + 1) (text ++ headEnd ++ more) head rest

/-- A body within the limit: none where the response carries none, and of the declared length
otherwise. -/
structure BodyFits (method : String) (limits : KpsHttpReadLimits) (head : KpsHttpResponseHead)
    (body : Bytes) : Prop where
  size : body.length ≤ limits.maxBodyBytes
  empty : bodyless method head = true → body = []
  declared : bodyless method head = false → ∀ length, head.contentLength = some length →
    body.length = length

section Lemmas

variable {limits : KpsHttpReadLimits} {skips last : ℕ} {bytes buffer rest body tail : Bytes}
  {chunks : List Bytes} {head : KpsHttpResponseHead} {method : String}

/-! ### Heads in the buffer -/

theorem length_headEnd : headEnd.length = 4 := rfl

theorem eq_of_findHeadEnd (h : findHeadEnd bytes = some last) :
    last + 4 ≤ bytes.length ∧ bytes = bytes.take last ++ headEnd ++ bytes.drop (last + 4) :=
  Lib.eq_of_findSeparator h

/-- The head that ends first is the first head of the whole. -/
theorem finalHead_iff (h : findHeadEnd bytes = some last) :
    FinalHead limits skips (bytes ++ tail) head rest ↔
      ∃ first, IsHead (bytes.take last) first ∧ last + 4 ≤ limits.maxHeadBytes ∧
        (200 ≤ first.status ∧ head = first ∧ rest = bytes.drop (last + 4) ++ tail ∨
          first.status < 200 ∧ first.status ≠ 101 ∧ ∃ fewer, skips = fewer + 1 ∧
            FinalHead limits fewer (bytes.drop (last + 4) ++ tail) head rest) := by
  obtain ⟨hlast, hcut⟩ := eq_of_findHeadEnd h
  have htake : (bytes.take last).length = last := by
    rw [List.length_take]
    omega
  have hwhole : findHeadEnd (bytes ++ tail) = some last := Lib.findSeparator_append h tail
  have hcuts : bytes ++ tail =
      bytes.take last ++ headEnd ++ (bytes.drop (last + 4) ++ tail) := by
    rw [← List.append_assoc, ← hcut]
  constructor
  · intro hfinal
    -- the first head of the whole ends where a head ends first
    have hparts : ∀ {text more : Bytes} {first : KpsHttpResponseHead}, IsHead text first →
        bytes ++ tail = text ++ headEnd ++ more →
          text = bytes.take last ∧ more = bytes.drop (last + 4) ++ tail := by
      intro text more first hhead heq
      have hlength : last = text.length := by
        rw [heq] at hwhole
        exact Option.some.inj (hwhole.symm.trans (hhead.findHeadEnd more))
      rw [hcuts, List.append_assoc, List.append_assoc] at heq
      obtain ⟨htext, hrest⟩ := List.append_inj heq (htake.trans hlength)
      exact ⟨htext.symm, (List.append_cancel_left hrest).symm⟩
    generalize hbytes : bytes ++ tail = whole at hfinal
    cases hfinal with
    | final ishead size status =>
      obtain ⟨rfl, rfl⟩ := hparts ishead hbytes
      rw [htake] at size
      exact ⟨head, ishead, size, .inl ⟨status, rfl, rfl⟩⟩
    | interim ishead size status upgrade others =>
      obtain ⟨rfl, rfl⟩ := hparts ishead hbytes
      rw [htake] at size
      exact ⟨_, ishead, size, .inr ⟨status, upgrade, _, rfl, others⟩⟩
  · rintro ⟨first, ishead, hsize, ⟨status, rfl, rfl⟩ | ⟨status, upgrade, fewer, rfl, others⟩⟩
    · rw [hcuts]
      exact .final ishead (by rw [htake]; exact hsize) status
    · rw [hcuts]
      exact .interim ishead (by rw [htake]; exact hsize) status upgrade others

/-- The first head ends in the whole, within the limit. -/
theorem FinalHead.exists_findHeadEnd (h : FinalHead limits skips bytes head rest) :
    ∃ last, findHeadEnd bytes = some last ∧ last + 4 ≤ limits.maxHeadBytes := by
  cases h with
  | final ishead size status => exact ⟨_, ishead.findHeadEnd rest, size⟩
  | interim ishead size status upgrade others => exact ⟨_, ishead.findHeadEnd _, size⟩

/-- Where no head ends in a buffer that is as long as the limit, none within the limit follows. -/
theorem not_finalHead_of_long (hnone : findHeadEnd buffer = none)
    (hlong : limits.maxHeadBytes ≤ buffer.length) :
    ¬ FinalHead limits skips (buffer ++ tail) head rest := by
  intro h
  obtain ⟨last, hfind, hsize⟩ := h.exists_findHeadEnd
  obtain ⟨hlast, hcut⟩ := eq_of_findHeadEnd hfind
  have hfit : last + 4 ≤ buffer.length := hsize.trans hlong
  have hlength : ((buffer ++ tail).take last ++ headEnd).length = last + 4 := by
    rw [List.length_append, List.length_take, length_headEnd]
    omega
  -- the first head of the whole ends in the buffer
  have hstart : (buffer ++ tail).take last ++ headEnd = buffer.take (last + 4) := by
    rw [← List.take_append_of_le_length hfit]
    conv_rhs => rw [hcut]
    exact (List.take_left' hlength).symm
  have hbuffer : buffer = (buffer ++ tail).take last ++ headEnd ++ buffer.drop (last + 4) := by
    rw [hstart, List.take_append_drop]
  rw [hbuffer] at hnone
  exact Lib.findSeparator_ne_none _ _ hnone

/-- What the loop over the heads in the buffer says about every continuation. -/
def DrainSpec (limits : KpsHttpReadLimits) (skips : ℕ) (bytes : Bytes) :
    Except Thrown Drained → Prop
  | .error _ => ∀ tail head rest, ¬ FinalHead limits skips (bytes ++ tail) head rest
  | .ok (.final head rest) => ∀ tail head' rest',
      FinalHead limits skips (bytes ++ tail) head' rest' ↔ head' = head ∧ rest' = rest ++ tail
  | .ok (.incomplete skips' buffer) => findHeadEnd buffer = none ∧ ∀ tail head rest,
      FinalHead limits skips (bytes ++ tail) head rest ↔
        FinalHead limits skips' (buffer ++ tail) head rest

theorem DrainSpec.shift {fewer : ℕ} {more : Bytes} {outcome : Except Thrown Drained}
    (h : DrainSpec limits fewer more outcome)
    (hshift : ∀ tail head rest, FinalHead limits skips (bytes ++ tail) head rest ↔
      FinalHead limits fewer (more ++ tail) head rest) : DrainSpec limits skips bytes outcome := by
  rcases outcome with thrown | ⟨head, rest⟩ | ⟨skips', buffer⟩
  · exact fun tail head rest hfinal => h tail head rest ((hshift tail head rest).mp hfinal)
  · exact fun tail head' rest' => (hshift tail head' rest').trans (h tail head' rest')
  · exact ⟨h.1, fun tail head rest => (hshift tail head rest).trans (h.2 tail head rest)⟩

/-- One round of the loop; after an interim head it goes on with what follows the head. -/
theorem drainHeads_round (hnext : ∀ fewer, skips = fewer + 1 → ∀ more,
      DrainSpec limits fewer more (drainHeads limits fewer more)) :
    DrainSpec limits skips bytes (drainHeads limits skips bytes) := by
  unfold drainHeads
  cases hfind : findHeadEnd bytes with
  | none => exact ⟨hfind, fun _ _ _ => Iff.rfl⟩
  | some last =>
    dsimp only
    split_ifs with hsize
    -- the bytes before the head end are too many, and the grammar has the same bound
    · intro tail head rest hfinal
      obtain ⟨-, -, hle, -⟩ := (finalHead_iff hfind).mp hfinal
      exact absurd hle (not_le.mpr hsize)
    have hsize : last + 4 ≤ limits.maxHeadBytes := not_lt.mp hsize
    cases hparse : parseResponseHead (bytes.take last) with
    -- what is refused is no head
    | error thrown =>
      intro tail head rest hfinal
      obtain ⟨first, ishead, -⟩ := (finalHead_iff hfind).mp hfinal
      cases hparse.symm.trans (parseResponseHead_eq_ok_iff.mpr ishead)
    | ok first =>
      have ishead : IsHead (bytes.take last) first := parseResponseHead_eq_ok_iff.mp hparse
      have hfirst : ∀ {other}, IsHead (bytes.take last) other → first = other := fun hother =>
        Except.ok.inj (hparse.symm.trans (parseResponseHead_eq_ok_iff.mpr hother))
      dsimp only
      -- a final head, an upgrade, or an interim head
      split_ifs with hstatus hupgrade
      · intro tail head' rest'
        rw [finalHead_iff hfind]
        constructor
        · rintro ⟨other, hother, -, ⟨-, rfl, rfl⟩ | ⟨hlow, -⟩⟩
          · exact ⟨(hfirst hother).symm, rfl⟩
          · rw [← hfirst hother] at hlow
            omega
        · rintro ⟨rfl, rfl⟩
          exact ⟨head', ishead, hsize, .inl ⟨hstatus, rfl, rfl⟩⟩
      · intro tail head rest hfinal
        obtain ⟨other, hother, -, ⟨hhigh, -⟩ | ⟨-, hne, -⟩⟩ := (finalHead_iff hfind).mp hfinal
        · rw [← hfirst hother] at hhigh
          exact hstatus hhigh
        · exact hne (hfirst hother ▸ hupgrade)
      · have hlow : first.status < 200 := not_le.mp hstatus
        cases skips with
        -- no skip is left for one more interim head
        | zero =>
          intro tail head rest hfinal
          obtain ⟨other, hother, -, ⟨hhigh, -⟩ | ⟨-, -, fewer, hzero, -⟩⟩ :=
            (finalHead_iff hfind).mp hfinal
          · rw [← hfirst hother] at hhigh
            exact hstatus hhigh
          · cases hzero
        | succ fewer =>
          refine (hnext fewer rfl _).shift fun tail head rest => ?_
          rw [finalHead_iff hfind]
          constructor
          · rintro ⟨other, hother, -, ⟨hhigh, -⟩ | ⟨-, -, _, hfewer, hothers⟩⟩
            · rw [← hfirst hother] at hhigh
              exact absurd hhigh hstatus
            · obtain rfl := Nat.succ.inj hfewer
              exact hothers
          · exact fun hothers =>
              ⟨first, ishead, hsize, .inr ⟨hlow, hupgrade, fewer, rfl, hothers⟩⟩

theorem drainHeads_spec (limits : KpsHttpReadLimits) (skips : ℕ) (bytes : Bytes) :
    DrainSpec limits skips bytes (drainHeads limits skips bytes) := by
  induction skips generalizing bytes with
  | zero => exact drainHeads_round nofun
  | succ skips ih =>
    refine drainHeads_round fun fewer heq more => ?_
    obtain rfl := Nat.succ.inj heq
    exact ih more

/-! ### The loops -/

/-- The head reader ends with this final head and, with the chunks that are left, this body. -/
def ReadsHead (limits : KpsHttpReadLimits) (skips : ℕ) (buffer : Bytes) (chunks : List Bytes)
    (head : KpsHttpResponseHead) (body : Bytes) : Prop :=
  ∃ rest left, readHeadLoop limits skips buffer chunks = .ok (head, rest, left) ∧
    body = rest ++ left.flatten

/-- One round of the loop; without a head in the buffer it goes on with the next chunk. -/
theorem readsHead_round (hnext : ∀ chunk more, chunks = chunk :: more → ∀ skips buffer,
      ReadsHead limits skips buffer more head body ↔
        FinalHead limits skips (buffer ++ more.flatten) head body) :
    ReadsHead limits skips buffer chunks head body ↔
      FinalHead limits skips (buffer ++ chunks.flatten) head body := by
  have hspec := drainHeads_spec limits skips buffer
  rw [ReadsHead]
  unfold readHeadLoop
  -- the buffer is refused, or holds the final head, or only heads that are skipped
  rcases hdrain : drainHeads limits skips buffer with thrown | ⟨first, rest⟩ | ⟨skips', buffer'⟩
  · rw [hdrain] at hspec
    refine iff_of_false ?_ (hspec _ _ _)
    rintro ⟨rest, left, h, -⟩
    cases h
  · rw [hdrain] at hspec
    rw [hspec]
    constructor
    · rintro ⟨rest', left, h, rfl⟩
      obtain ⟨rfl, hparts⟩ := Prod.mk.inj (Except.ok.inj h)
      obtain ⟨rfl, rfl⟩ := Prod.mk.inj hparts
      exact ⟨rfl, rfl⟩
    · rintro ⟨rfl, rfl⟩
      exact ⟨rest, chunks, rfl, rfl⟩
  · rw [hdrain] at hspec
    obtain ⟨hnone, hshift⟩ := hspec
    rw [hshift]
    dsimp only
    -- a head is not whole: the loop gives up at the limit and at the end of the chunks
    by_cases hlong : limits.maxHeadBytes ≤ buffer'.length
    · rw [if_pos hlong]
      refine iff_of_false ?_ (not_finalHead_of_long hnone hlong)
      rintro ⟨rest, left, h, -⟩
      cases h
    · rw [if_neg hlong]
      cases chunks with
      | nil =>
        refine iff_of_false ?_ fun hfinal => ?_
        · rintro ⟨rest, left, h, -⟩
          cases h
        · rw [List.flatten_nil, List.append_nil] at hfinal
          obtain ⟨last, hlast, -⟩ := hfinal.exists_findHeadEnd
          cases hnone.symm.trans hlast
      | cons chunk more =>
        have hrest := hnext chunk more rfl skips' (buffer' ++ chunk)
        rw [List.append_assoc] at hrest
        exact hrest

theorem readsHead_iff : ReadsHead limits skips buffer chunks head body ↔
    FinalHead limits skips (buffer ++ chunks.flatten) head body := by
  induction chunks generalizing skips buffer with
  | nil => exact readsHead_round nofun
  | cons chunk chunks ih =>
    refine readsHead_round fun chunk' more heq skips buffer => ?_
    obtain ⟨rfl, rfl⟩ := List.cons.inj heq
    exact ih

/-- The body reader returns what it is given as long as it is within the limit. -/
theorem readBodyLoop_eq_ok_iff {result : Bytes} (h : body.length ≤ limits.maxBodyBytes) :
    readBodyLoop limits body chunks = .ok result ↔
      result = body ++ chunks.flatten ∧ result.length ≤ limits.maxBodyBytes := by
  induction chunks generalizing body with
  | nil =>
    rw [readBodyLoop, List.flatten_nil, List.append_nil, Except.ok.injEq]
    constructor
    · rintro rfl
      exact ⟨rfl, h⟩
    · rintro ⟨rfl, -⟩
      rfl
  | cons chunk chunks ih =>
    rw [readBodyLoop, List.flatten_cons, ← List.append_assoc]
    split_ifs with hlarge
    · refine iff_of_false (by simp) ?_
      rintro ⟨rfl, hsize⟩
      rw [List.length_append] at hsize
      omega
    · exact ih (not_lt.mp hlarge)

theorem checkBody_eq_ok_iff {result : Bytes} (h : body.length ≤ limits.maxBodyBytes) :
    checkBody method head body = .ok result ↔
      result = body ∧ BodyFits method limits head body := by
  rw [checkBody]
  cases hbodyless : bodyless method head with
  | true =>
    rw [if_pos rfl]
    -- a response without a body may not come with one
    split_ifs with hpos
    · refine iff_of_false (by simp) ?_
      rintro ⟨-, hfits⟩
      rw [hfits.empty hbodyless] at hpos
      exact absurd hpos (lt_irrefl 0)
    · obtain rfl : body = [] := List.eq_nil_of_length_eq_zero (Nat.eq_zero_of_not_pos hpos)
      rw [Except.ok.injEq]
      constructor
      · rintro rfl
        refine ⟨rfl, h, fun _ => rfl, fun hother => ?_⟩
        cases hbodyless.symm.trans hother
      · rintro ⟨rfl, -⟩
        rfl
  | false =>
    rw [if_neg Bool.false_ne_true]
    split
    next length hlength =>
      -- a declared length that the body does not have
      obtain ⟨hlength, hne⟩ := Option.filter_eq_some_iff.mp hlength
      refine iff_of_false (by simp) ?_
      rintro ⟨-, hfits⟩
      exact of_decide_eq_true hne (hfits.declared hbodyless length hlength).symm
    next hnone =>
      rw [Except.ok.injEq]
      constructor
      · rintro rfl
        refine ⟨rfl, h, fun hother => ?_, fun _ length hlength => ?_⟩
        · cases hbodyless.symm.trans hother
        · rw [hlength, Option.filter_some] at hnone
          by_contra hne
          simp [Ne.symm hne] at hnone
      · rintro ⟨rfl, -⟩
        rfl

/-- What the body reader accepts. -/
theorem readKpsHttpResponseBody_eq_ok_iff {result : Bytes} :
    readKpsHttpResponseBody method limits head rest chunks = .ok result ↔
      result = rest ++ chunks.flatten ∧ BodyFits method limits head result := by
  rw [readKpsHttpResponseBody]
  split
  next length hlength =>
    obtain ⟨hlength, hlarge⟩ := Option.filter_eq_some_iff.mp hlength
    rw [Bool.and_eq_true, Bool.not_eq_true', decide_eq_true_iff] at hlarge
    refine iff_of_false (by simp) ?_
    rintro ⟨-, hfits⟩
    exact absurd (hfits.declared hlarge.1 length hlength ▸ hfits.size) (not_le.mpr hlarge.2)
  · split_ifs with hrest
    · refine iff_of_false (by simp) ?_
      rintro ⟨rfl, hfits⟩
      have hsize := hfits.size
      rw [List.length_append] at hsize
      omega
    · rw [bind_eq_ok_iff]
      constructor
      · rintro ⟨body, hbody, hcheck⟩
        obtain ⟨rfl, hsize⟩ := (readBodyLoop_eq_ok_iff (not_lt.mp hrest)).mp hbody
        obtain ⟨rfl, hfits⟩ := (checkBody_eq_ok_iff hsize).mp hcheck
        exact ⟨rfl, hfits⟩
      · rintro ⟨rfl, hfits⟩
        exact ⟨_, (readBodyLoop_eq_ok_iff (not_lt.mp hrest)).mpr ⟨rfl, hfits.size⟩,
          (checkBody_eq_ok_iff hfits.size).mpr ⟨rfl, hfits⟩⟩

theorem flatten_deliveredChunks (chunks : List Bytes) :
    (deliveredChunks chunks).flatten = chunks.flatten :=
  List.flatten_filter_not_isEmpty

theorem readKpsHttpResponse_eq_ok_iff :
    readKpsHttpResponse method limits chunks = .ok (head, body) ↔
      FinalHead limits maxInterimResponses chunks.flatten head body ∧
        BodyFits method limits head body := by
  have hhead : ReadsHead limits maxInterimResponses [] (deliveredChunks chunks) head body ↔
      FinalHead limits maxInterimResponses chunks.flatten head body := by
    rw [readsHead_iff, List.nil_append, flatten_deliveredChunks]
  rw [← hhead, readKpsHttpResponse, bind_eq_ok_iff]
  constructor
  · rintro ⟨⟨head', rest, left⟩, hread, h⟩
    obtain ⟨body', hbody, h⟩ := bind_eq_ok_iff.mp h
    obtain ⟨rfl, rfl⟩ := Prod.mk.inj (Except.ok.inj h)
    obtain ⟨hbody, hfits⟩ := readKpsHttpResponseBody_eq_ok_iff.mp hbody
    exact ⟨⟨rest, left, hread, hbody⟩, hfits⟩
  · rintro ⟨⟨rest, left, hread, hbody⟩, hfits⟩
    refine ⟨(head, rest, left), hread, bind_eq_ok_iff.mpr ⟨body, ?_, rfl⟩⟩
    exact readKpsHttpResponseBody_eq_ok_iff.mpr ⟨hbody, hfits⟩

end Lemmas

/-- How the bytes are cut into chunks does not matter, and a response is accepted exactly when the
bytes are at most eight interim heads, a final head and a body that fits it.

The reader accepts exactly by the grammar of the joined bytes (`readKpsHttpResponse_eq_ok_iff`), in
which the cuts do not occur; so two ways to cut give the same. -/
theorem readKpsHttpResponse_exact (method : String) (limits : KpsHttpReadLimits)
    (chunks : List Bytes) :
    (readKpsHttpResponse method limits chunks).toOption =
        (readKpsHttpResponse method limits [chunks.flatten]).toOption ∧
      ∀ head body, readKpsHttpResponse method limits chunks = .ok (head, body) ↔
        FinalHead limits 8 chunks.flatten head body ∧ BodyFits method limits head body := by
  refine ⟨?_, fun head body => readKpsHttpResponse_eq_ok_iff⟩
  refine Option.ext fun response => ?_
  obtain ⟨head, body⟩ := response
  rw [toOption_eq_some_iff, toOption_eq_some_iff, readKpsHttpResponse_eq_ok_iff,
    readKpsHttpResponse_eq_ok_iff, List.flatten_singleton]

/-- An answer to HEAD that names the length a GET would have. -/
private def namedLength : Bytes :=
  Client.charCodes "HTTP/1.1 200 OK\r\nContent-Length: 5\r\n\r\n"

theorem not_readKpsHttpResponse_exact :
    ∃ head body, readKpsHttpResponse "HEAD" ⟨64, 64⟩ [namedLength] = .ok (head, body) ∧
      head.contentLength = some 5 ∧ body.length = 0 := by
  have hread : (readKpsHttpResponse "HEAD" ⟨64, 64⟩ [namedLength]).toOption =
      some (⟨200, "OK", [("content-length", "5")], some 5⟩, []) := by
    decide +kernel
  exact ⟨_, _, toOption_eq_some_iff.mp hread, rfl, rfl⟩

end NoxSdk.Kps
