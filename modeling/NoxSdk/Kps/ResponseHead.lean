import NoxSdk.Client.Exchange
import NoxSdk.Kps.Endpoints
import NoxSdk.Lib.Separators
import Mathlib.Data.List.DropRight

/-!
# Response heads of KPS-HTTP/1

`parseResponseHead` of `kps/http1.ts`, and the heads it accepts: lines between CRLF pairs, of which
the first is a status line and each other one a field, without `Transfer-Encoding` and with at most
one `Content-Length` (`IsHead`, `parseResponseHead_eq_ok_iff`).

A head is read up to the first CRLF CRLF. The lines of a head hold no CR and are not empty, so that
the end of a head is where it is found (`IsHead.findHeadEnd`).
-/

namespace NoxSdk.Js

/-- How `JSON.stringify` writes a character of Latin-1. -/
def jsonCharText (c : Char) : List Char :=
  if c = '"' ∨ c = '\\' then ['\\', c]
  else if c = '\n' then ['\\', 'n']
  else if c = '\r' then ['\\', 'r']
  else if c = '\t' then ['\\', 't']
  else if c.toNat = 8 then ['\\', 'b']
  else if c.toNat = 12 then ['\\', 'f']
  else if c.toNat < 0x20 then
    ['\\', 'u', '0', '0', Nat.digitChar (c.toNat / 16), Nat.digitChar (c.toNat % 16)]
  else [c]

/-- `JSON.stringify(text)` of a text of Latin-1. -/
def jsonText (text : List Char) : String :=
  String.ofList ('"' :: text.flatMap jsonCharText ++ ['"'])

end NoxSdk.Js

namespace NoxSdk.Kps

open Client (isTokenChar protocolError)

/-! ### The parser -/

/-- `KpsHttpResponseHead`. -/
structure KpsHttpResponseHead where
  status : ℕ
  reason : String
  headers : List (String × String)
  contentLength : Option ℕ
  deriving DecidableEq

/-- `latin1`. -/
def latin1 (bytes : Bytes) : List Char := bytes.map fun b => Char.ofNat b.toNat

/-- The characters of `RESPONSE_VALUE_RE`. -/
def isResponseChar (c : Char) : Bool :=
  c == '\t' || decide (0x20 ≤ c.toNat ∧ c.toNat ≤ 0x7e) || decide (0x80 ≤ c.toNat ∧ c.toNat ≤ 0xff)

/-- A character of `[\t ]`. -/
def isBlank (c : Char) : Bool := c == '\t' || c == ' '

/-- `text.replace(/^[\t ]+|[\t ]+$/gu, "")`. -/
def trimBlanks (text : List Char) : List Char := (text.dropWhile isBlank).rdropWhile isBlank

/-- What `STATUS_LINE_RE` matches: the status and the reason. -/
def matchStatusLine (line : List Char) : Option (ℕ × String) :=
  if "HTTP/1.1 ".toList <+: line then
    match line.drop 9 with
    | a :: b :: c :: rest =>
      if decide ('1' ≤ a ∧ a ≤ '5') && b.isDigit && c.isDigit then
        match rest with
        | [] => some (Js.parseDigits 10 [a, b, c], "")
        | ' ' :: reason => if reason.all isResponseChar then
            some (Js.parseDigits 10 [a, b, c], String.ofList reason) else none
        | _ => none
      else none
    | _ => none
  else none

/-- `CONTENT_LENGTH_RE.test`. -/
def isContentLength (value : List Char) : Bool :=
  decide (1 ≤ value.length ∧ value.length ≤ 15) && value.all Char.isDigit

/-- What `parseResponseHead` has collected of the fields. -/
@[ext] structure HeadFields where
  headers : List (String × String)
  contentLength : Option ℕ
  contentLengthFields : ℕ

/-- The name, in lower case, and the value of a field line. -/
def parseFieldLine (line : List Char) : Except Thrown (String × String) :=
  if line.head?.any isBlank then
    .error (protocolError "KPS-HTTP/1 forbids obsolete header line folding")
  else
    -- `TOKEN_RE` fails on the empty name of a line without a colon
    match (Js.splitAtFirst ':' line).filter fun p => p.1 ≠ [] ∧ p.1.all isTokenChar with
    | none => .error (protocolError
        ("KPS-HTTP/1 response has a malformed header line: " ++ Js.jsonText (line.take 80)))
    | some (name, raw) =>
      if (trimBlanks raw).all isResponseChar then
        .ok (Js.toLowerCase (String.ofList name), String.ofList (trimBlanks raw))
      else .error (protocolError
        ("KPS-HTTP/1 response header \"" ++ String.ofList name ++ "\" has control characters"))

/-- The fields with one more. -/
def addField (fields : HeadFields) (header : String × String) : Except Thrown HeadFields :=
  let (lower, value) := header
  let headers := fields.headers ++ [header]
  if lower = "transfer-encoding" then
    .error (protocolError "KPS-HTTP/1 forbids Transfer-Encoding (bodies end at EOF)")
  else if lower = "content-length" then
    if fields.contentLengthFields + 1 > 1 then
      .error (protocolError "KPS-HTTP/1 response has more than one Content-Length field")
    else if !isContentLength value.toList then
      .error (protocolError "KPS-HTTP/1 response Content-Length is not a decimal length")
    else .ok ⟨headers, some (Js.parseDigits 10 value.toList), fields.contentLengthFields + 1⟩
  else .ok { fields with headers := headers }

/-- One round of the loop over the field lines. -/
def parseField (fields : HeadFields) (line : List Char) : Except Thrown HeadFields := do
  let header ← parseFieldLine line
  addField fields header

/-- `parseResponseHead`. -/
def parseResponseHead (bytes : Bytes) : Except Thrown KpsHttpResponseHead :=
  let lines := Lib.splitOnPair '\r' '\n' (latin1 bytes)
  if lines.any fun line => line.contains '\r' || line.contains '\n' then
    .error (protocolError "KPS-HTTP/1 response has a bare CR or LF in its head")
  else
    let statusLine := lines.headD []
    match matchStatusLine statusLine with
    | none => .error (protocolError
        ("KPS-HTTP/1 response has a malformed status line: " ++ Js.jsonText (statusLine.take 80)))
    | some (status, reason) => do
      let fields ← lines.tail.foldlM parseField ⟨[], none, 0⟩
      return ⟨status, reason, fields.headers, fields.contentLength⟩

/-- `findHeadEnd`. -/
def findHeadEnd (bytes : Bytes) : Option ℕ := Lib.findSeparator [13, 10, 13, 10] bytes

/-! ### What it accepts -/

/-- A status line: the version, a status from 100 to 599 and perhaps a reason. -/
def IsStatusLine (line : List Char) (status : ℕ) (reason : String) : Prop :=
  ∃ a b c : Char, ('1' ≤ a ∧ a ≤ '5') ∧ b.isDigit = true ∧ c.isDigit = true ∧
    status = Js.parseDigits 10 [a, b, c] ∧
    (line = "HTTP/1.1 ".toList ++ [a, b, c] ∧ reason = "" ∨
      line = "HTTP/1.1 ".toList ++ [a, b, c] ++ ' ' :: reason.toList ∧
        ∀ ch ∈ reason.toList, isResponseChar ch = true)

/-- A field line: a token, a colon and a value, with blanks around it that do not count. -/
def IsFieldLine (line : List Char) (header : String × String) : Prop :=
  ∃ name raw : List Char, line = name ++ ':' :: raw ∧ name ≠ [] ∧
    (∀ c ∈ name, isTokenChar c = true) ∧ (∀ c ∈ raw, isResponseChar c = true) ∧
    header = (Js.toLowerCase (String.ofList name), String.ofList (trimBlanks raw))

/-- The fields about the length. -/
def lengthFields (headers : List (String × String)) : List (String × String) :=
  headers.filter fun header => header.1 = "content-length"

/-- What the fields say about the length: nothing, or one of them a decimal length. -/
def DeclareLength (headers : List (String × String)) (contentLength : Option ℕ) : Prop :=
  lengthFields headers = [] ∧ contentLength = none ∨
    ∃ header, lengthFields headers = [header] ∧ isContentLength header.2.toList = true ∧
      contentLength = some (Js.parseDigits 10 header.2.toList)

/-- A well-formed head, without its final CRLF CRLF. -/
structure IsHead (bytes : Bytes) (head : KpsHttpResponseHead) : Prop where
  lines : ∃ statusLine fieldLines,
    latin1 bytes = ['\r', '\n'].intercalate (statusLine :: fieldLines) ∧
      IsStatusLine statusLine head.status head.reason ∧
      List.Forall₂ IsFieldLine fieldLines head.headers
  noTransferEncoding : ∀ header ∈ head.headers, header.1 ≠ "transfer-encoding"
  declareLength : DeclareLength head.headers head.contentLength

/-! ### Lines -/

section Lemmas

variable {line : List Char} {header : String × String} {bytes : Bytes}
  {head : KpsHttpResponseHead} {fields fields' : HeadFields}

/-- The pattern matches exactly the status lines: three digits, and a reason behind a blank or none.
-/
theorem matchStatusLine_eq_some_iff {status : ℕ} {reason : String} :
    matchStatusLine line = some (status, reason) ↔ IsStatusLine line status reason := by
  have hdrop : ∀ rest, ("HTTP/1.1 ".toList ++ rest).drop 9 = rest := fun _ => rfl
  rw [matchStatusLine, IsStatusLine]
  constructor
  · intro h
    split_ifs at h with hversion
    obtain ⟨rest, rfl⟩ := hversion
    rw [hdrop] at h
    rcases rest with _ | ⟨a, _ | ⟨b, _ | ⟨c, rest⟩⟩⟩
    · cases h
    · cases h
    · cases h
    · dsimp only at h
      split_ifs at h with hdigits
      rw [Bool.and_eq_true, Bool.and_eq_true, decide_eq_true_iff] at hdigits
      refine ⟨a, b, c, hdigits.1.1, hdigits.1.2, hdigits.2, ?_⟩
      -- nothing, a blank and a reason, or another character behind the three digits
      split at h
      · obtain ⟨rfl, rfl⟩ := Prod.mk.inj (Option.some.inj h)
        exact ⟨rfl, .inl ⟨rfl, rfl⟩⟩
      next reason' =>
        split_ifs at h with hreason
        obtain ⟨rfl, rfl⟩ := Prod.mk.inj (Option.some.inj h)
        have hlist : (String.ofList reason').toList = reason' := String.toList_ofList
        refine ⟨rfl, .inr ⟨?_, ?_⟩⟩
        · rw [hlist, List.append_assoc]
          rfl
        · rw [hlist]
          exact List.all_eq_true.mp hreason
      · cases h
  · rintro ⟨a, b, c, ha, hb, hc, rfl, hline⟩
    have hdigits : (decide ('1' ≤ a ∧ a ≤ '5') && b.isDigit && c.isDigit) = true := by
      rw [decide_eq_true ha, hb, hc]
      rfl
    obtain ⟨rfl, rfl⟩ | ⟨rfl, hreason⟩ := hline
    · rw [if_pos (List.prefix_append _ _), hdrop]
      dsimp only
      rw [if_pos hdigits]
    · rw [List.append_assoc, if_pos (List.prefix_append _ _), hdrop]
      dsimp only [List.cons_append, List.nil_append]
      rw [if_pos hdigits]
      have hall : reason.toList.all isResponseChar = true := List.all_eq_true.mpr hreason
      simp only [hall, if_true, String.ofList_toList]

/-- Blanks may stand anywhere in a value. -/
theorem all_trimBlanks {raw : List Char} :
    (trimBlanks raw).all isResponseChar = true ↔ ∀ c ∈ raw, isResponseChar c = true := by
  have hblank : ∀ c, isBlank c = true → isResponseChar c = true := by
    intro c hc
    rw [isBlank, Bool.or_eq_true, beq_iff_eq, beq_iff_eq] at hc
    obtain rfl | rfl := hc <;> decide
  have htake : ∀ c ∈ raw.takeWhile isBlank, isResponseChar c = true :=
    fun c hc => hblank c (List.mem_takeWhile_imp hc)
  have hrtake : ∀ c ∈ (raw.dropWhile isBlank).rtakeWhile isBlank, isResponseChar c = true :=
    fun c hc => hblank c (List.mem_rtakeWhile_imp hc)
  rw [List.all_eq_true]
  constructor
  · intro h c hc
    rw [← List.takeWhile_append_dropWhile (p := isBlank) (l := raw), List.mem_append] at hc
    obtain hc | hc := hc
    · exact htake c hc
    · rw [← @List.rdropWhile_append_rtakeWhile _ isBlank (raw.dropWhile isBlank)] at hc
      exact (List.mem_append.mp hc).elim (h c) (hrtake c)
  · intro h c hc
    exact h c ((List.dropWhile_suffix isBlank).mem ((List.rdropWhile_prefix isBlank _).mem hc))

/-- A name has no blank. -/
theorem not_isBlank_of_isTokenChar {c : Char} (h : isTokenChar c = true) : isBlank c = false := by
  by_contra hblank
  rw [Bool.not_eq_false, isBlank, Bool.or_eq_true, beq_iff_eq, beq_iff_eq] at hblank
  obtain rfl | rfl := hblank <;> exact absurd h (by decide)

/-- A name has no colon. -/
theorem not_colon_of_isTokenChar {name : List Char} (h : ∀ c ∈ name, isTokenChar c = true) :
    ':' ∉ name :=
  fun hmem => absurd (h ':' hmem) (by decide)

/-- A line is taken exactly when it is a field, whose name is then in lower case. -/
theorem parseFieldLine_eq_ok_iff : parseFieldLine line = .ok header ↔ IsFieldLine line header := by
  rw [parseFieldLine, IsFieldLine]
  constructor
  · intro h
    split_ifs at h with hfold
    split at h
    · cases h
    next name raw hsplit =>
      obtain ⟨hsplit, hname⟩ := Option.filter_eq_some_iff.mp hsplit
      obtain ⟨rfl, -⟩ := splitAtFirst_eq_some_iff.mp hsplit
      obtain ⟨hne, htoken⟩ := of_decide_eq_true hname
      split_ifs at h with hvalue
      obtain rfl := Except.ok.inj h
      exact ⟨name, raw, rfl, hne, List.all_eq_true.mp htoken, all_trimBlanks.mp hvalue, rfl⟩
  · rintro ⟨name, raw, rfl, hne, htoken, hraw, rfl⟩
    have hsplit : Js.splitAtFirst ':' (name ++ ':' :: raw) = some (name, raw) :=
      splitAtFirst_eq_some_iff.mpr ⟨rfl, not_colon_of_isTokenChar htoken⟩
    have hfold : ¬ (name ++ ':' :: raw).head?.any isBlank = true := by
      obtain ⟨c, cs, rfl⟩ := List.exists_cons_of_ne_nil hne
      simp [not_isBlank_of_isTokenChar (htoken c List.mem_cons_self)]
    have hname : decide (name ≠ [] ∧ name.all isTokenChar = true) = true :=
      decide_eq_true ⟨hne, List.all_eq_true.mpr htoken⟩
    rw [if_neg hfold, hsplit, Option.filter_some, if_pos hname]
    exact if_pos (all_trimBlanks.mpr hraw)

/-- A field is appended to those before it, but for a forbidden one and a second length. -/
theorem addField_eq_ok_iff :
    addField fields header = .ok fields' ↔ header.1 ≠ "transfer-encoding" ∧
      fields'.headers = fields.headers ++ [header] ∧
      (header.1 = "content-length" ∧ fields.contentLengthFields = 0 ∧
          isContentLength header.2.toList = true ∧
          fields'.contentLength = some (Js.parseDigits 10 header.2.toList) ∧
          fields'.contentLengthFields = 1 ∨
        header.1 ≠ "content-length" ∧ fields'.contentLength = fields.contentLength ∧
          fields'.contentLengthFields = fields.contentLengthFields) := by
  obtain ⟨before, known, seen⟩ := fields
  obtain ⟨headers, contentLength, count⟩ := fields'
  obtain ⟨lower, value⟩ := header
  rw [addField]
  dsimp only
  split_ifs with hte hcl hcount hlength
  · exact iff_of_false (by simp) fun h => h.1 hte
  · refine iff_of_false (by simp) fun h => ?_
    obtain ⟨-, hzero, -⟩ := h.2.2.resolve_right fun hother => hother.1 hcl
    omega
  · refine iff_of_false (by simp) fun h => ?_
    obtain ⟨-, -, hdigits, -⟩ := h.2.2.resolve_right fun hother => hother.1 hcl
    rw [hdigits] at hlength
    exact absurd hlength (by decide)
  · have hzero : seen = 0 := by omega
    have hdigits : isContentLength value.toList = true := by simpa using hlength
    rw [Except.ok.injEq, HeadFields.mk.injEq]
    constructor
    · rintro ⟨rfl, rfl, rfl⟩
      exact ⟨hte, rfl, .inl ⟨hcl, hzero, hdigits, rfl, by rw [hzero]⟩⟩
    · rintro ⟨-, rfl, ⟨-, -, -, rfl, rfl⟩ | hother⟩
      · exact ⟨rfl, rfl, by rw [hzero]⟩
      · exact absurd hcl hother.1
  · rw [Except.ok.injEq, HeadFields.mk.injEq]
    constructor
    · rintro ⟨rfl, rfl, rfl⟩
      exact ⟨hte, rfl, .inr ⟨hcl, rfl, rfl⟩⟩
    · rintro ⟨-, rfl, hlength | ⟨-, rfl, rfl⟩⟩
      · exact absurd hlength.1 hcl
      · exact ⟨rfl, rfl, rfl⟩

/-- What a list of fields adds to those before it. -/
structure AddsFields (fields : HeadFields) (headers : List (String × String))
    (fields' : HeadFields) : Prop where
  noTransferEncoding : ∀ header ∈ headers, header.1 ≠ "transfer-encoding"
  appended : fields'.headers = fields.headers ++ headers
  length : lengthFields headers = [] ∧ fields'.contentLength = fields.contentLength ∧
      fields'.contentLengthFields = fields.contentLengthFields ∨
    ∃ header, lengthFields headers = [header] ∧ fields.contentLengthFields = 0 ∧
      isContentLength header.2.toList = true ∧
      fields'.contentLength = some (Js.parseDigits 10 header.2.toList) ∧
      fields'.contentLengthFields = 1

/-- No header adds nothing. -/
theorem addsFields_nil_iff : AddsFields fields [] fields' ↔ fields' = fields := by
  constructor
  · intro h
    obtain ⟨-, hlength, hcount⟩ | ⟨_, hone, -⟩ := h.length
    · exact HeadFields.ext (h.appended.trans (List.append_nil _)) hlength hcount
    · cases hone
  · rintro rfl
    exact ⟨by simp, by simp, .inl ⟨rfl, rfl, rfl⟩⟩

/-- A length field is one of them. -/
theorem lengthFields_cons_of_pos (h : header.1 = "content-length")
    (headers : List (String × String)) :
    lengthFields (header :: headers) = header :: lengthFields headers :=
  List.filter_cons_of_pos (decide_eq_true h)

/-- Another field is none of them. -/
theorem lengthFields_cons_of_neg (h : header.1 ≠ "content-length")
    (headers : List (String × String)) :
    lengthFields (header :: headers) = lengthFields headers :=
  List.filter_cons_of_neg (by simpa using h)

/-- Fields are added one after the other. -/
theorem addsFields_cons_iff {headers : List (String × String)} :
    AddsFields fields (header :: headers) fields' ↔
      ∃ mid, addField fields header = .ok mid ∧ AddsFields mid headers fields' := by
  constructor
  · rintro ⟨hte, happended, hlength⟩
    obtain ⟨hfirst, hrest⟩ := List.forall_mem_cons.mp hte
    by_cases hcl : header.1 = "content-length"
    · rw [lengthFields_cons_of_pos hcl] at hlength
      obtain ⟨hnone, -⟩ | ⟨other, hone, hzero, hdigits, hvalue, hcount⟩ := hlength
      · cases hnone
      · obtain ⟨rfl, hnone⟩ := List.cons.inj hone
        refine ⟨⟨fields.headers ++ [header], fields'.contentLength, 1⟩, ?_, ?_⟩
        · exact addField_eq_ok_iff.mpr ⟨hfirst, rfl, .inl ⟨hcl, hzero, hdigits, hvalue, rfl⟩⟩
        · exact ⟨hrest, by rw [happended, List.append_assoc, List.singleton_append],
            .inl ⟨hnone, rfl, hcount⟩⟩
    · rw [lengthFields_cons_of_neg hcl] at hlength
      refine ⟨{ fields with headers := fields.headers ++ [header] }, ?_, ?_⟩
      · exact addField_eq_ok_iff.mpr ⟨hfirst, rfl, .inr ⟨hcl, rfl, rfl⟩⟩
      · exact ⟨hrest, by rw [happended, List.append_assoc, List.singleton_append], hlength⟩
  · rintro ⟨mid, hadd, hte, happended, hlength⟩
    obtain ⟨hfirst, hmid, hcase⟩ := addField_eq_ok_iff.mp hadd
    refine ⟨List.forall_mem_cons.mpr ⟨hfirst, hte⟩, ?_, ?_⟩
    · rw [happended, hmid, List.append_assoc, List.singleton_append]
    · obtain ⟨hcl, hzero, hdigits, hvalue, hone⟩ | ⟨hcl, hvalue, hcount⟩ := hcase
      · obtain ⟨hnone, hlength, hcount⟩ | ⟨_, -, hzero', -⟩ := hlength
        · exact .inr ⟨header, by rw [lengthFields_cons_of_pos hcl, hnone], hzero, hdigits,
            hlength.trans hvalue, hcount.trans hone⟩
        · cases hone.symm.trans hzero'
      · rwa [lengthFields_cons_of_neg hcl, ← hvalue, ← hcount]

/-- The loop over the field lines. -/
theorem foldlM_parseField_eq_ok_iff {lines : List (List Char)} :
    lines.foldlM parseField fields = .ok fields' ↔
      ∃ headers, List.Forall₂ IsFieldLine lines headers ∧ AddsFields fields headers fields' := by
  induction lines generalizing fields with
  | nil =>
    rw [List.foldlM_nil, pure_eq_ok, Except.ok.injEq]
    constructor
    · rintro rfl
      exact ⟨[], .nil, addsFields_nil_iff.mpr rfl⟩
    · rintro ⟨headers, hlines, hadds⟩
      cases hlines
      exact (addsFields_nil_iff.mp hadds).symm
  | cons line lines ih =>
    rw [List.foldlM_cons, bind_eq_ok_iff]
    constructor
    · rintro ⟨mid, hmid, hrest⟩
      obtain ⟨header, hline, hadd⟩ := bind_eq_ok_iff.mp hmid
      obtain ⟨headers, hlines, hadds⟩ := ih.mp hrest
      exact ⟨header :: headers, .cons (parseFieldLine_eq_ok_iff.mp hline) hlines,
        addsFields_cons_iff.mpr ⟨mid, hadd, hadds⟩⟩
    · rintro ⟨headers, hlines, hadds⟩
      cases hlines with
      | cons hline hlines =>
        obtain ⟨mid, hadd, hadds⟩ := addsFields_cons_iff.mp hadds
        exact ⟨mid, bind_eq_ok_iff.mpr ⟨_, parseFieldLine_eq_ok_iff.mpr hline, hadd⟩,
          ih.mpr ⟨_, hlines, hadds⟩⟩

/-! ### Heads -/

/-- A class of characters without the two breaks. -/
theorem not_break_of_class {P : Char → Prop} {c : Char} (hcr : ¬ P '\r') (hlf : ¬ P '\n')
    (h : P c) : c ≠ '\r' ∧ c ≠ '\n' := by
  constructor
  · rintro rfl
    exact hcr h
  · rintro rfl
    exact hlf h

/-- A character of a value breaks no line. -/
theorem not_break_of_isResponseChar {c : Char} (h : isResponseChar c = true) :
    c ≠ '\r' ∧ c ≠ '\n' :=
  @not_break_of_class (fun c => isResponseChar c = true) c (by decide) (by decide) h

/-- A character of a name breaks no line. -/
theorem not_break_of_isTokenChar {c : Char} (h : isTokenChar c = true) : c ≠ '\r' ∧ c ≠ '\n' :=
  @not_break_of_class (fun c => isTokenChar c = true) c (by decide) (by decide) h

/-- A digit breaks no line. -/
theorem not_break_of_isDigit {c : Char} (h : c.isDigit = true) : c ≠ '\r' ∧ c ≠ '\n' :=
  @not_break_of_class (fun c => c.isDigit = true) c (by decide) (by decide) h

/-- A line that is not empty and holds no CR and no LF. -/
def IsHeadLine (line : List Char) : Prop := line ≠ [] ∧ ∀ c ∈ line, c ≠ '\r' ∧ c ≠ '\n'

/-- A field is one line. -/
theorem IsFieldLine.isLine (h : IsFieldLine line header) : IsHeadLine line := by
  obtain ⟨name, raw, rfl, -, htoken, hraw, -⟩ := h
  refine ⟨by simp, fun c hc => ?_⟩
  obtain hc | hc := List.mem_append.mp hc
  · exact not_break_of_isTokenChar (htoken c hc)
  · obtain rfl | hc := List.mem_cons.mp hc
    · decide
    · exact not_break_of_isResponseChar (hraw c hc)

/-- The status line is one line. -/
theorem IsStatusLine.isLine {status : ℕ} {reason : String} (h : IsStatusLine line status reason) :
    IsHeadLine line := by
  obtain ⟨a, b, c, ha, hb, hc, -, hline⟩ := h
  have hfront : ∀ ch ∈ "HTTP/1.1 ".toList ++ [a, b, c], ch ≠ '\r' ∧ ch ≠ '\n' := by
    have hversion : ∀ ch ∈ "HTTP/1.1 ".toList, ch ≠ '\r' ∧ ch ≠ '\n' := by
      simp
    intro ch hch
    rw [List.mem_append, List.mem_cons, List.mem_cons, List.mem_singleton] at hch
    obtain hch | rfl | rfl | rfl := hch
    · exact hversion ch hch
    · constructor
      · rintro rfl
        exact absurd ha.1 (by decide)
      · rintro rfl
        exact absurd ha.1 (by decide)
    · exact not_break_of_isDigit hb
    · exact not_break_of_isDigit hc
  obtain ⟨rfl, -⟩ | ⟨rfl, hreason⟩ := hline
  · exact ⟨by simp, hfront⟩
  · refine ⟨by simp, fun ch hch => ?_⟩
    obtain hch | hch := List.mem_append.mp hch
    · exact hfront ch hch
    · obtain rfl | hch := List.mem_cons.mp hch
      · decide
      · exact not_break_of_isResponseChar (hreason ch hch)

/-- Each line of the head is a field. -/
theorem exists_header_of_mem {lines : List (List Char)} {headers : List (String × String)}
    (h : List.Forall₂ IsFieldLine lines headers) (hline : line ∈ lines) :
    ∃ header, IsFieldLine line header := by
  induction h with
  | nil => cases hline
  | cons hfirst _ ih =>
    obtain rfl | hline := List.mem_cons.mp hline
    · exact ⟨_, hfirst⟩
    · exact ih hline

/-- The lines of a head. -/
theorem IsHead.exists_lines (h : IsHead bytes head) : ∃ statusLine fieldLines,
    latin1 bytes = ['\r', '\n'].intercalate (statusLine :: fieldLines) ∧
      IsStatusLine statusLine head.status head.reason ∧
      List.Forall₂ IsFieldLine fieldLines head.headers ∧
      ∀ line ∈ statusLine :: fieldLines, IsHeadLine line := by
  obtain ⟨statusLine, fieldLines, htext, hstatus, hfields⟩ := h.lines
  refine ⟨statusLine, fieldLines, htext, hstatus, hfields, fun line hline => ?_⟩
  obtain rfl | hline := List.mem_cons.mp hline
  · exact hstatus.isLine
  · obtain ⟨header, hheader⟩ := exists_header_of_mem hfields hline
    exact hheader.isLine

/-- `parseResponseHead` accepts the well-formed heads. -/
theorem parseResponseHead_eq_ok_iff : parseResponseHead bytes = .ok head ↔ IsHead bytes head := by
  rw [parseResponseHead]
  dsimp only
  constructor
  · intro h
    -- the lines are those of the split, and the fold over them adds the fields in turn
    split_ifs at h with hbreak
    split at h
    · cases h
    next status reason hmatch =>
      obtain ⟨fields, hfold, hhead⟩ := bind_eq_ok_iff.mp h
      obtain rfl := Except.ok.inj hhead
      obtain ⟨headers, hlines, hadds⟩ := foldlM_parseField_eq_ok_iff.mp hfold
      obtain ⟨statusLine, fieldLines, hsplit⟩ :=
        List.exists_cons_of_ne_nil (@Lib.splitOnPair_ne_nil _ _ '\r' '\n' (latin1 bytes))
      have happended : fields.headers = headers := hadds.appended
      rw [hsplit] at hmatch hlines
      refine ⟨⟨statusLine, fieldLines, ?_, matchStatusLine_eq_some_iff.mp hmatch, ?_⟩, ?_, ?_⟩
      · rw [← hsplit, Lib.intercalate_splitOnPair]
      · rw [happended]
        exact hlines
      · rw [happended]
        exact hadds.noTransferEncoding
      · rw [happended]
        obtain ⟨hnone, hlength, -⟩ | ⟨header, hone, -, hdigits, hvalue, -⟩ := hadds.length
        · exact .inl ⟨hnone, hlength⟩
        · exact .inr ⟨header, hone, hdigits, hvalue⟩
  · intro h
    obtain ⟨statusLine, fieldLines, htext, hstatus, hfields, hlines⟩ := h.exists_lines
    -- no line of a head holds a line end, so the split gives the lines back
    have hsplit : Lib.splitOnPair '\r' '\n' (latin1 bytes) = statusLine :: fieldLines := by
      rw [htext]
      refine Lib.splitOnPair_intercalate (List.cons_ne_nil _ _) fun line hline hmem => ?_
      exact ((hlines line hline).2 _ hmem).1 rfl
    have hbreak : ((statusLine :: fieldLines).any fun line =>
        line.contains '\r' || line.contains '\n') = false := by
      refine List.any_eq_false.mpr fun line hline => ?_
      have hline := (hlines line hline).2
      simp only [Bool.or_eq_true, List.contains_iff_mem, not_or]
      exact ⟨fun hmem => (hline _ hmem).1 rfl, fun hmem => (hline _ hmem).2 rfl⟩
    -- the fields add up to the length that the head declares
    have hadds : AddsFields ⟨[], none, 0⟩ head.headers
        ⟨head.headers, head.contentLength, (lengthFields head.headers).length⟩ := by
      refine ⟨h.noTransferEncoding, rfl, ?_⟩
      obtain ⟨hnone, hlength⟩ | ⟨header, hone, hdigits, hvalue⟩ := h.declareLength
      · exact .inl ⟨hnone, hlength, by rw [hnone]; rfl⟩
      · exact .inr ⟨header, hone, rfl, hdigits, hvalue, by rw [hone]; rfl⟩
    have hmatch : matchStatusLine ((statusLine :: fieldLines).headD []) =
        some (head.status, head.reason) := matchStatusLine_eq_some_iff.mpr hstatus
    have hfold : (statusLine :: fieldLines).tail.foldlM parseField ⟨[], none, 0⟩ = .ok _ :=
      foldlM_parseField_eq_ok_iff.mpr ⟨_, hfields, hadds⟩
    rw [hsplit, hbreak, if_neg Bool.false_ne_true, hmatch]
    dsimp only
    rw [hfold]
    rfl

/-! ### Where a head ends -/

/-- Different bytes are different characters. -/
theorem latin1_injective : Function.Injective fun b : UInt8 => Char.ofNat b.toNat := by
  have hcode : ∀ b : UInt8, (Char.ofNat b.toNat).toNat = b.toNat := by
    intro b
    have hvalid : b.toNat.isValidChar := .inl (lt_trans b.toNat_lt (by decide))
    rw [Char.ofNat, dif_pos hvalid]
    rfl
  intro a b h
  exact UInt8.toNat_inj.mp ((hcode a).symm.trans ((congrArg Char.toNat h).trans (hcode b)))

/-- The end of a head is the first CRLF CRLF. -/
theorem IsHead.findHeadEnd (h : IsHead bytes head) (rest : Bytes) :
    Kps.findHeadEnd (bytes ++ [13, 10, 13, 10] ++ rest) = some bytes.length := by
  obtain ⟨statusLine, fieldLines, htext, -, -, hlines⟩ := h.exists_lines
  have hlength : bytes.length = (latin1 bytes).length := (List.length_map _).symm
  have hparts : ∀ line ∈ statusLine :: fieldLines, line ≠ [] ∧ '\r' ∉ line := by
    intro line hline
    exact ⟨(hlines line hline).1, fun hmem => ((hlines line hline).2 _ hmem).1 rfl⟩
  have hfind := Lib.findSeparator_intercalate (a := '\r') (b := '\n') (by decide)
    (List.cons_ne_nil _ _) hparts (latin1 rest)
  rw [← htext] at hfind
  rw [Kps.findHeadEnd, ← Lib.findSeparator_map latin1_injective, hlength, ← hfind, List.map_append,
    List.map_append]
  rfl

end Lemmas

end NoxSdk.Kps
