import NoxSdk.Tls.Requests

/-!
# The framing of a response over the TLS session

A response says in the fields of its head how long its body is and whether the connection stays.
`frameHead` is what the parser makes of a final head. The grammar reads all fields of a name as
one list: `codings` are the transfer codings of a response, `lengthTexts` its lengths, and
`FollowsGrammar` says what the parser has to make of them. The parser looks at the first
`Transfer-Encoding` and at the first `Connection` only, and takes a body as chunked when any
coding is; `followsGrammar_iff` says on which heads that comes to the same.
-/

namespace NoxSdk.Tls

/-! ### Texts -/

/-- White space, as `str::trim` has it. -/
def isWhitespace (c : Char) : Bool :=
  decide (9 ≤ c.toNat ∧ c.toNat ≤ 13) || decide (0x2000 ≤ c.toNat ∧ c.toNat ≤ 0x200A) ||
    [0x20, 0x85, 0xA0, 0x1680, 0x2028, 0x2029, 0x202F, 0x205F, 0x3000].contains c.toNat

/-- `trim`. -/
def trimText (text : List Char) : List Char :=
  (text.dropWhile isWhitespace).rdropWhile isWhitespace

/-- `to_ascii_lowercase`. -/
def asciiLowercase (text : String) : String := String.ofList (text.toList.map Char.toLower)

/-- The members of `value.split(',')`, trimmed. -/
def splitCommas (value : String) : List (List Char) :=
  (value.toList.splitOn ',').map trimText

/-! ### The parser -/

/-- `HttpLimits`; the body's is a machine word. -/
structure HttpLimits (usizeMax : ℕ) where
  maxHeadBytes : ℕ
  maxHeaders : ℕ
  maxBodyBytes : ℕ
  maxBodyBytes_le : maxBodyBytes ≤ usizeMax

/-- `Framing`. -/
inductive Framing where
  | length (total : ℕ)
  | chunked
  | untilClose
  deriving DecidableEq

/-- The head of a response, parsed. -/
structure ResponseHead where
  status : ℕ
  version : ℕ
  headers : List (String × String)

/-- `has_token`. -/
def hasToken (value token : String) : Bool :=
  (splitCommas value).any fun item => item == token.toList

/-- The fields of a name. -/
def fieldsOf (headers : List (String × String)) (name : String) : List (String × String) :=
  headers.filter fun header => asciiLowercase header.1 == name

/-- `header_value`. -/
def headerValue (headers : List (String × String)) (name : String) : Option String :=
  (headers.find? fun header => asciiLowercase header.1 == name).map Prod.snd

variable {usizeMax : ℕ}

/-- One part of a `Content-Length`, after what was found before it. -/
def lengthPart (usizeMax : ℕ) (found : Option ℕ) (part : String × List Char) :
    Except TlsError (Option ℕ) :=
  if part.2 = [] ∨ !part.2.all Char.isDigit then
    .error (.httpResponse s!"invalid Content-Length '{part.1}'")
  else
    let length := Nat.ofDigitChars 10 part.2 0
    if usizeMax < length then .error (.httpResponse s!"invalid Content-Length '{part.1}'")
    else if found.any fun previous => previous != length then
      .error (.httpResponse "conflicting Content-Length values")
    else .ok (some length)

/-- The parts of a field. -/
def lengthParts (field : String × String) : List (String × List Char) :=
  (splitCommas field.2).map fun text => (field.2, text)

/-- `content_length`. -/
def contentLength (usizeMax : ℕ) (headers : List (String × String)) :
    Except TlsError (Option ℕ) :=
  (fieldsOf headers "content-length").foldlM
    (fun found field => (lengthParts field).foldlM (lengthPart usizeMax) found) none

/-- The connection stays, for all that the `Connection` field says. -/
def staysOpen (head : ResponseHead) : Bool :=
  match (headerValue head.headers "connection").map asciiLowercase with
  | some value =>
    if hasToken value "close" then false
    else if hasToken value "keep-alive" then true
    else decide (1 ≤ head.version)
  | none => decide (1 ≤ head.version)

/-- The first `Transfer-Encoding` has the token. -/
def saysChunked (headers : List (String × String)) : Bool :=
  (headerValue headers "transfer-encoding").any fun value =>
    hasToken (asciiLowercase value) "chunked"

/-- A response without a body. -/
def bodiless (headRequest : Bool) (status : ℕ) : Bool :=
  headRequest || status == 204 || status == 304

/-- What `parse_head` makes of a final head: the framing of the body, if there is one, and
`keep_alive`. -/
def frameHead (limits : HttpLimits usizeMax) (headRequest : Bool) (head : ResponseHead) :
    Except TlsError (Option Framing × Bool) := do
  let length ← contentLength usizeMax head.headers
  if bodiless headRequest head.status then return (none, staysOpen head)
  else if saysChunked head.headers then
    return (some .chunked, staysOpen head && length.isNone)
  else
    match length with
    | some length =>
      if limits.maxBodyBytes < length then throw (.httpTooLarge "body" limits.maxBodyBytes)
      else return (some (.length length), staysOpen head)
    | none => return (some .untilClose, false)

/-! ### The grammar -/

/-- `chunked`. -/
def chunkedName : List Char := "chunked".toList

/-- The transfer codings of a response, over all its fields and in order. -/
def codings (headers : List (String × String)) : List (List Char) :=
  (fieldsOf headers "transfer-encoding").flatMap fun field =>
    (splitCommas (asciiLowercase field.2)).filter fun item => item != []

/-- The lengths of a response, over all its fields. -/
def lengthTexts (headers : List (String × String)) : List (List Char) :=
  (fieldsOf headers "content-length").flatMap fun field => splitCommas field.2

/-- The text is a number. -/
def IsLength (text : List Char) (n : ℕ) : Prop :=
  text ≠ [] ∧ text.all Char.isDigit = true ∧ Nat.ofDigitChars 10 text 0 = n

/-- The fields agree on a length. -/
def Agreed (headers : List (String × String)) (n : ℕ) : Prop :=
  lengthTexts headers ≠ [] ∧ ∀ text ∈ lengthTexts headers, IsLength text n

/-- The field has the option. -/
def saysClose (field : String × String) : Prop := hasToken (asciiLowercase field.2) "close" = true

instance : DecidablePred saysClose := fun _ => inferInstanceAs (Decidable (_ = _))

/-- What the grammar asks of a verdict about a final head. A body that is framed is returned with
its chunks undone and as it is otherwise. -/
structure FollowsGrammar (limits : HttpLimits usizeMax) (headRequest : Bool) (head : ResponseHead)
    (verdict : Except TlsError (Option Framing × Bool)) : Prop where
  /-- The body is empty for the methods and the statuses without one, and for no others. -/
  empty : ∀ framing keep, verdict = .ok (framing, keep) →
    (framing = none ↔ bodiless headRequest head.status = true)
  /-- It is chunked when that is the last coding. -/
  chunked : ∀ framing keep, verdict = .ok (some framing, keep) →
    (framing = .chunked ↔ (codings head.headers).getLast? = some chunkedName)
  /-- It goes to the end of the connection when another one is. -/
  untilClose : ∀ framing keep, verdict = .ok (some framing, keep) → codings head.headers ≠ [] →
    (codings head.headers).getLast? ≠ some chunkedName → framing = .untilClose
  /-- Without codings its length is what the fields say, and the end if they say nothing. -/
  length : ∀ framing keep, verdict = .ok (some framing, keep) → codings head.headers = [] →
    (∃ n, Agreed head.headers n ∧ framing = .length n) ∨
      lengthTexts head.headers = [] ∧ framing = .untilClose
  /-- What is returned carries no coding. -/
  content : ∀ framing keep, verdict = .ok (some framing, keep) →
    codings head.headers = [] ∨ codings head.headers = [chunkedName]
  /-- What is refused has a coding that is left, or no length that can be read and held. -/
  refused : ∀ e, verdict = .error e → ¬bodiless headRequest head.status = true ∧
    codings head.headers ≠ [chunkedName] ∧ (codings head.headers = [] →
      lengthTexts head.headers ≠ [] ∧ ∀ n, Agreed head.headers n → limits.maxBodyBytes < n)
  /-- A connection that is kept was not closed by any field, and its framing is certain. -/
  keep : ∀ framing, verdict = .ok (framing, true) →
    (∀ field ∈ fieldsOf head.headers "connection", ¬saysClose field) ∧
      framing ≠ some .untilClose ∧ (framing = some .chunked → lengthTexts head.headers = [])

/-! ### The lengths -/

/-- What was found before the texts and what is found after them. -/
def Reads (usizeMax : ℕ) (found : Option ℕ) (texts : List (List Char)) (found' : Option ℕ) : Prop :=
  texts = [] ∧ found' = found ∨
    texts ≠ [] ∧ ∃ n ≤ usizeMax, found' = some n ∧ (∀ m ∈ found, m = n) ∧
      ∀ text ∈ texts, IsLength text n

theorem lengthPart_eq_ok_iff {found found' : Option ℕ} {part : String × List Char} :
    lengthPart usizeMax found part = .ok found' ↔
      ∃ n ≤ usizeMax, found' = some n ∧ (∀ m ∈ found, m = n) ∧ IsLength part.2 n := by
  rw [lengthPart]
  dsimp only
  split_ifs with hdigits hword hdiffers
  · refine iff_of_false nofun ?_
    rintro ⟨n, -, -, -, hne, hall, -⟩
    exact hdigits.elim hne fun hnot => by simp [hall] at hnot
  · refine iff_of_false nofun ?_
    rintro ⟨n, hn, -, -, -, -, rfl⟩
    exact absurd hn (not_le.mpr hword)
  · refine iff_of_false nofun ?_
    rintro ⟨n, -, -, hfound, -, -, rfl⟩
    cases found with
    | none => cases hdiffers
    | some m => exact bne_iff_ne.mp hdiffers (hfound m rfl)
  · obtain ⟨hne, hall⟩ := not_or.mp hdigits
    rw [Except.ok.injEq, eq_comm]
    constructor
    · rintro rfl
      refine ⟨_, not_lt.mp hword, rfl, fun m hm => ?_, hne, by simpa using hall, rfl⟩
      by_contra hmn
      rw [Option.mem_def.mp hm] at hdiffers
      exact hdiffers (bne_iff_ne.mpr hmn)
    · rintro ⟨n, -, rfl, -, -, -, rfl⟩
      rfl

theorem foldlM_lengthPart {parts : List (String × List Char)} {found found' : Option ℕ} :
    parts.foldlM (lengthPart usizeMax) found = .ok found' ↔
      Reads usizeMax found (parts.map Prod.snd) found' := by
  induction parts generalizing found with
  | nil => simp [Reads, eq_comm]
  | cons part parts ih =>
    rw [List.foldlM_cons, bind_eq_ok_iff]
    simp only [lengthPart_eq_ok_iff, ih, Reads, List.map_cons]
    constructor
    · rintro ⟨_, ⟨n, hn, rfl, hfound, hpart⟩, ⟨hnil, rfl⟩ | ⟨-, n', -, rfl, hsame, hrest⟩⟩
      · refine .inr ⟨nofun, n, hn, rfl, hfound, ?_⟩
        rw [hnil]
        exact List.forall_mem_singleton.mpr hpart
      · obtain rfl := hsame n rfl
        exact .inr ⟨nofun, n, hn, rfl, hfound, List.forall_mem_cons.mpr ⟨hpart, hrest⟩⟩
    · rintro (⟨hnil, -⟩ | ⟨-, n, hn, rfl, hfound, hall⟩)
      · cases hnil
      · obtain ⟨hpart, hrest⟩ := List.forall_mem_cons.mp hall
        refine ⟨some n, ⟨n, hn, rfl, hfound, hpart⟩, ?_⟩
        rcases eq_or_ne (parts.map Prod.snd) [] with hnil | hne
        · exact .inl ⟨hnil, rfl⟩
        · exact .inr ⟨hne, n, hn, rfl, by simp, hrest⟩

theorem contentLength_eq_ok_iff {headers : List (String × String)} {length : Option ℕ} :
    contentLength usizeMax headers = .ok length ↔
      Reads usizeMax none (lengthTexts headers) length := by
  have hflat : contentLength usizeMax headers =
      ((fieldsOf headers "content-length").flatMap lengthParts).foldlM
        (lengthPart usizeMax) none := by
    rw [contentLength]
    generalize (none : Option ℕ) = found
    induction fieldsOf headers "content-length" generalizing found with
    | nil => rfl
    | cons field fields ih =>
      rw [List.foldlM_cons, List.flatMap_cons, List.foldlM_append]
      exact congrArg _ (funext ih)
  have htexts : ((fieldsOf headers "content-length").flatMap lengthParts).map Prod.snd =
      lengthTexts headers := by
    rw [List.map_flatMap, lengthTexts]
    refine List.flatMap_congr fun field _ => ?_
    rw [lengthParts, List.map_map]
    exact List.map_id _
  rw [hflat, foldlM_lengthPart, htexts]

theorem contentLength_none_iff {headers : List (String × String)} :
    contentLength usizeMax headers = .ok none ↔ lengthTexts headers = [] := by
  rw [contentLength_eq_ok_iff, Reads]
  simp

theorem contentLength_some_iff {headers : List (String × String)} {n : ℕ} :
    contentLength usizeMax headers = .ok (some n) ↔ n ≤ usizeMax ∧ Agreed headers n := by
  rw [contentLength_eq_ok_iff, Reads, Agreed]
  constructor
  · rintro (⟨-, hnone⟩ | ⟨hne, m, hm, heq, -, hall⟩)
    · cases hnone
    · obtain rfl := Option.some.inj heq
      exact ⟨hm, hne, hall⟩
  · rintro ⟨hn, hne, hall⟩
    exact .inr ⟨hne, n, hn, rfl, by simp, hall⟩

/-- The fields agree on one length at most. -/
theorem Agreed.unique {headers : List (String × String)} {n n' : ℕ} (h : Agreed headers n)
    (h' : Agreed headers n') : n = n' := by
  obtain ⟨text, htext⟩ := List.exists_mem_of_ne_nil _ h.1
  exact (h.2 text htext).2.2.symm.trans (h'.2 text htext).2.2

/-! ### Where the parser follows the grammar -/

theorem headerValue_eq (headers : List (String × String)) (name : String) :
    headerValue headers name = (fieldsOf headers name).head?.map Prod.snd := by
  rw [headerValue, fieldsOf, List.head?_filter]

/-- The first field is one of the codings. -/
theorem mem_codings_of_saysChunked {headers : List (String × String)}
    (h : saysChunked headers = true) : chunkedName ∈ codings headers := by
  rw [saysChunked, headerValue_eq] at h
  rw [codings]
  cases hfields : fieldsOf headers "transfer-encoding" with
  | nil =>
    rw [hfields] at h
    cases h
  | cons field fields =>
    rw [hfields] at h
    obtain ⟨item, hitem, heq⟩ := List.any_eq_true.mp h
    refine List.mem_flatMap.mpr ⟨field, List.mem_cons_self, List.mem_filter.mpr ⟨?_, by decide⟩⟩
    have hname : item = chunkedName := beq_iff_eq.mp heq
    rwa [← hname]

/-- The first `Connection` field does not have the option and a later one does. -/
def ClosesLater (head : ResponseHead) : Prop :=
  ¬((headerValue head.headers "connection").any fun value =>
      hasToken (asciiLowercase value) "close") = true ∧
    ∃ field ∈ fieldsOf head.headers "connection", saysClose field

/-- The first `Connection` field does not keep the connection of an old server. -/
def OldServer (head : ResponseHead) : Prop :=
  head.version = 0 ∧ ¬((headerValue head.headers "connection").any fun value =>
    hasToken (asciiLowercase value) "keep-alive") = true

/-- The heads on which the parser follows the grammar: the only coding is chunked and the first
field says so, or there is none; the lengths can be read when they do not matter; and no field
closes the connection behind the first one, unless it is not kept anyway. -/
def FramedByFirst (limits : HttpLimits usizeMax) (headRequest : Bool) (head : ResponseHead) :
    Prop :=
  match contentLength usizeMax head.headers with
  | .error _ => ¬bodiless headRequest head.status = true ∧ codings head.headers ≠ [chunkedName]
  | .ok length =>
    (bodiless headRequest head.status = true ∨ codings head.headers = [] ∨
      codings head.headers = [chunkedName] ∧ saysChunked head.headers = true ∨
      codings head.headers ≠ [chunkedName] ∧ ¬saysChunked head.headers = true ∧
        ∃ n ∈ length, limits.maxBodyBytes < n) ∧
    (ClosesLater head → OldServer head ∨ ¬bodiless headRequest head.status = true ∧
      match length with
      | none => ¬saysChunked head.headers = true
      | some n => saysChunked head.headers = true ∨ limits.maxBodyBytes < n)

theorem staysOpen_iff {head : ResponseHead} :
    staysOpen head = true ↔
      ¬((headerValue head.headers "connection").any fun value =>
        hasToken (asciiLowercase value) "close") = true ∧ ¬OldServer head := by
  rw [staysOpen, OldServer]
  cases headerValue head.headers "connection" with
  | none => simp [Nat.one_le_iff_ne_zero]
  | some value =>
    simp only [Option.map_some, Option.any_some]
    cases hasToken (asciiLowercase value) "close" <;>
      cases hasToken (asciiLowercase value) "keep-alive" <;> simp [Nat.one_le_iff_ne_zero]

section Verdicts

variable {limits : HttpLimits usizeMax} {headRequest : Bool} {head : ResponseHead}

theorem followsGrammar_error_iff {e : TlsError} :
    FollowsGrammar limits headRequest head (.error e) ↔
      ¬bodiless headRequest head.status = true ∧ codings head.headers ≠ [chunkedName] ∧
        (codings head.headers = [] →
          lengthTexts head.headers ≠ [] ∧ ∀ n, Agreed head.headers n → limits.maxBodyBytes < n) :=
  ⟨fun h => h.refused e rfl, fun h =>
    { empty := nofun, chunked := nofun, untilClose := nofun, length := nofun, content := nofun,
      refused := fun _ _ => h, keep := nofun }⟩

theorem followsGrammar_none_iff {keep : Bool} :
    FollowsGrammar limits headRequest head (.ok (none, keep)) ↔
      bodiless headRequest head.status = true ∧
        (keep = true → ∀ field ∈ fieldsOf head.headers "connection", ¬saysClose field) := by
  constructor
  · intro h
    refine ⟨(h.empty none keep rfl).mp rfl, ?_⟩
    rintro rfl
    exact (h.keep none rfl).1
  · rintro ⟨hbodiless, hkeep⟩
    exact
      { empty := by
          rintro _ _ ⟨⟩
          exact iff_of_true rfl hbodiless
        chunked := nofun
        untilClose := nofun
        length := nofun
        content := nofun
        refused := nofun
        keep := by
          rintro _ ⟨⟩
          exact ⟨hkeep rfl, nofun, nofun⟩ }

/-- The framing that the codings and the lengths ask for. -/
def RightFraming (headers : List (String × String)) (framing : Framing) : Prop :=
  codings headers = [chunkedName] ∧ framing = .chunked ∨
    codings headers = [] ∧ ((∃ n, Agreed headers n ∧ framing = .length n) ∨
      lengthTexts headers = [] ∧ framing = .untilClose)

theorem rightFraming_chunked_iff {headers : List (String × String)} :
    RightFraming headers .chunked ↔ codings headers = [chunkedName] := by
  simp [RightFraming]

theorem rightFraming_untilClose_iff {headers : List (String × String)} :
    RightFraming headers .untilClose ↔ codings headers = [] ∧ lengthTexts headers = [] := by
  simp [RightFraming]

theorem rightFraming_length_iff {headers : List (String × String)} {n : ℕ} :
    RightFraming headers (.length n) ↔ codings headers = [] ∧ Agreed headers n := by
  simp [RightFraming]

theorem followsGrammar_some_iff {framing : Framing} {keep : Bool} :
    FollowsGrammar limits headRequest head (.ok (some framing, keep)) ↔
      ¬bodiless headRequest head.status = true ∧ RightFraming head.headers framing ∧
        (keep = true → (∀ field ∈ fieldsOf head.headers "connection", ¬saysClose field) ∧
          framing ≠ .untilClose ∧ (framing = .chunked → lengthTexts head.headers = [])) := by
  constructor
  · intro h
    refine ⟨fun hbodiless => absurd ((h.empty _ _ rfl).mpr hbodiless) nofun, ?_, ?_⟩
    -- either no transfer coding or only `chunked` leaves a body to be read
    · rcases h.content _ _ rfl with hnil | hone
      · exact .inr ⟨hnil, h.length _ _ rfl hnil⟩
      · exact .inl ⟨hone, (h.chunked _ _ rfl).mpr (by rw [hone]; rfl)⟩
    · rintro rfl
      obtain ⟨hclose, hend, hlength⟩ := h.keep _ rfl
      exact ⟨hclose, fun heq => hend (congrArg some heq), fun heq => hlength (congrArg some heq)⟩
  · rintro ⟨hbodiless, hframing, hkeep⟩
    exact
      -- each field of the grammar from the three parts, by the kind of framing
      { empty := by
          rintro _ _ ⟨⟩
          exact iff_of_false nofun hbodiless
        chunked := by
          rintro _ _ ⟨⟩
          rcases hframing with ⟨hone, rfl⟩ | ⟨hnil, ⟨n, -, rfl⟩ | ⟨-, rfl⟩⟩
          · exact iff_of_true rfl (by rw [hone]; rfl)
          · exact iff_of_false nofun (by rw [hnil]; exact nofun)
          · exact iff_of_false nofun (by rw [hnil]; exact nofun)
        untilClose := by
          rintro _ _ ⟨⟩ hne hlast
          rcases hframing with ⟨hone, rfl⟩ | ⟨hnil, -⟩
          · exact absurd (by rw [hone]; rfl) hlast
          · exact absurd hnil hne
        length := by
          rintro _ _ ⟨⟩ hnil
          rcases hframing with ⟨hone, rfl⟩ | ⟨-, hlength⟩
          · rw [hnil] at hone
            cases hone
          · exact hlength
        content := by
          rintro _ _ ⟨⟩
          exact hframing.elim (fun h => .inr h.1) fun h => .inl h.1
        refused := nofun
        keep := by
          rintro _ ⟨⟩
          obtain ⟨hclose, hend, hlength⟩ := hkeep rfl
          exact ⟨hclose, fun heq => hend (Option.some.inj heq),
            fun heq => hlength (Option.some.inj heq)⟩ }

/-- A connection that stays open is closed by a later field only. -/
theorem staysOpen_closed_iff :
    (staysOpen head = true → ∀ field ∈ fieldsOf head.headers "connection", ¬saysClose field) ↔
      (ClosesLater head → OldServer head) := by
  rw [staysOpen_iff, ClosesLater]
  constructor
  · rintro h ⟨hfirst, field, hfield, hclose⟩
    by_contra hold
    exact h ⟨hfirst, hold⟩ field hfield hclose
  · rintro h ⟨hfirst, hold⟩ field hfield hclose
    exact hold (h ⟨hfirst, field, hfield, hclose⟩)

end Verdicts

/-- The parser follows the grammar on exactly the heads that say everything in their first
fields.

Parser and grammar read the same fields of a head, the parser the first of a name and the grammar
all of them. They agree whenever the further fields of a name say nothing new, and where they do say
something there is a body on which the two differ. -/
theorem followsGrammar_iff (limits : HttpLimits usizeMax) (headRequest : Bool)
    (head : ResponseHead) :
    FollowsGrammar limits headRequest head (frameHead limits headRequest head) ↔
      FramedByFirst limits headRequest head := by
  rw [frameHead, FramedByFirst]
  cases hlength : contentLength usizeMax head.headers with
  | error e =>
    -- the first length is no number: the grammar refuses the head too, unless there is no body
    refine followsGrammar_error_iff.trans ⟨fun h => ⟨h.1, h.2.1⟩, fun h => ⟨h.1, h.2, ?_⟩⟩
    rintro -
    constructor
    · intro hnil
      rw [contentLength_none_iff.mpr hnil] at hlength
      cases hlength
    · intro n hn
      by_contra hle
      have hok := contentLength_some_iff.mpr
        ⟨(not_lt.mp hle).trans limits.maxBodyBytes_le, hn⟩
      rw [hok] at hlength
      cases hlength
  | ok length =>
    rw [ok_bind]
    by_cases hbodiless : bodiless headRequest head.status = true
    -- no body whatever the fields say, so only the connection can be read wrongly
    · rw [if_pos hbodiless]
      refine followsGrammar_none_iff.trans ?_
      simp only [hbodiless, true_and, true_or, not_true, false_and, or_false]
      exact staysOpen_closed_iff
    rw [if_neg hbodiless]
    by_cases hchunked : saysChunked head.headers = true
    -- chunked: right unless other codings stand before it, and then a length does not matter
    · rw [if_pos hchunked]
      have hne : codings head.headers ≠ [] := fun hnil => by
        have hmem := mem_codings_of_saysChunked hchunked
        rw [hnil] at hmem
        cases hmem
      refine followsGrammar_some_iff.trans ?_
      rw [rightFraming_chunked_iff]
      cases length with
      | none =>
        have htexts := contentLength_none_iff.mp hlength
        simp only [hbodiless, hchunked, hne, htexts]
        simp [-Prod.forall, staysOpen_closed_iff]
      | some n =>
        simp only [hbodiless, hchunked, hne]
        simp
    · rw [if_neg hchunked]
      cases length with
      | none =>
        -- no length: the body goes up to the end of the connection
        have htexts := contentLength_none_iff.mp hlength
        refine followsGrammar_some_iff.trans ?_
        rw [rightFraming_untilClose_iff]
        simp only [hbodiless, hchunked, htexts]
        simp
      | some n =>
        -- a length that all fields agree on, too long or not
        have hagreed := (contentLength_some_iff.mp hlength).2
        by_cases hlong : limits.maxBodyBytes < n
        · simp only [if_pos hlong]
          refine followsGrammar_error_iff.trans ?_
          have hall : ∀ m, Agreed head.headers m → limits.maxBodyBytes < m :=
            fun m hm => hagreed.unique hm ▸ hlong
          have hnil : codings head.headers = [] → codings head.headers ≠ [chunkedName] := by
            rintro hnil
            rw [hnil]
            exact nofun
          constructor
          · rintro ⟨-, hcodings, -⟩
            exact ⟨.inr (.inr (.inr ⟨hcodings, hchunked, n, rfl, hlong⟩)),
              fun _ => .inr ⟨hbodiless, .inr hlong⟩⟩
          · rintro ⟨hframed, -⟩
            refine ⟨hbodiless, ?_, fun _ => ⟨hagreed.1, hall⟩⟩
            rcases hframed with h | h | ⟨-, h⟩ | ⟨h, -⟩
            · exact absurd h hbodiless
            · exact hnil h
            · exact absurd h hchunked
            · exact h
        · simp only [if_neg hlong]
          refine followsGrammar_some_iff.trans ?_
          rw [rightFraming_length_iff]
          simp only [hbodiless, hchunked, hagreed, hlong]
          simp [-Prod.forall, hlong, staysOpen_closed_iff]

/-- The limits of the tests. -/
def sampleLimits : HttpLimits (2 ^ 32 - 1) := ⟨65536, 128, 16777216, by decide⟩

/-- A body that is compressed and then chunked is taken for chunked and returned compressed, and
the second field that closes the connection is not seen. -/
theorem frameHead_loses_codings :
    ¬(FollowsGrammar sampleLimits false
        ⟨200, 1, [("Transfer-Encoding", "gzip, chunked")]⟩
        (frameHead sampleLimits false ⟨200, 1, [("Transfer-Encoding", "gzip, chunked")]⟩)) ∧
      ¬(FollowsGrammar sampleLimits false
        ⟨200, 1, [("Connection", "keep-alive"), ("Connection", "close"),
          ("Content-Length", "2")]⟩
        (frameHead sampleLimits false ⟨200, 1, [("Connection", "keep-alive"),
          ("Connection", "close"), ("Content-Length", "2")]⟩)) := by
  constructor
  · intro h
    have hframed : frameHead sampleLimits false
        ⟨200, 1, [("Transfer-Encoding", "gzip, chunked")]⟩ = .ok (some .chunked, true) := by
      decide +kernel
    have hcodings := h.content _ _ hframed
    revert hcodings
    decide +kernel
  · intro h
    have hframed : frameHead sampleLimits false
        ⟨200, 1, [("Connection", "keep-alive"), ("Connection", "close"),
          ("Content-Length", "2")]⟩ = .ok (some (.length 2), true) := by
      decide +kernel
    have hclose := (h.keep _ hframed).1 ("Connection", "close") (by decide +kernel)
    exact hclose (by decide +kernel)

end NoxSdk.Tls
