import NoxSdk.Js
import NoxSdk.Lib.RequestGrammar
import Mathlib.Data.Nat.Log

/-!
# Requests over the TLS session

`encodeRequest` writes one request of HTTP/1.1 from what a caller gives: a method, the authority
the request goes to, a target, the caller's fields and a body. The encoder alone writes the fields
that frame the message and keep the connection, and it drops the caller's. What
`encodeRequest_single` says is what that buys: whatever the caller gives, the server that reads
the bytes by the grammar reads one request, the one that was asked for, and nothing behind it.
-/

namespace NoxSdk.Tls

open Lib
open Js (textEncode)

/-- `TlsError`, in what the requests and the responses raise. -/
inductive TlsError where
  | httpRequest (reason : String)
  | httpResponse (reason : String)
  | httpTooLarge (part : String) (limit : ℕ)
  | httpTruncated (reason : String)
  deriving DecidableEq

/-! ### The encoder -/

/-- `USER_AGENT`. -/
def userAgent : String := "Nox-Proxy/1.0"

/-- `PAD_BUCKETS`. -/
def padBuckets : List ℕ := [512, 1024, 4096, 16384]

/-- `DROPPED_REQUEST_HEADERS`. -/
def droppedRequestHeaders : List String :=
  ["host", "content-length", "transfer-encoding", "connection", "keep-alive", "te", "trailer",
    "upgrade", "expect", "user-agent"]

/-- `RequestOptions`. -/
structure RequestOptions where
  keepAlive : Bool
  padJson : Bool

/-- `padded_len`. -/
def paddedLen (len : ℕ) : ℕ :=
  let step := padBuckets.getLast (by decide)
  (padBuckets.find? fun bucket => len ≤ bucket).getD ((len + step - 1) / step * step)

/-- `decimal_digits`. -/
def decimalDigits (value : ℕ) : ℕ := if value = 0 then 1 else Nat.log 10 value + 1

/-- `total` of `json_padding`. -/
def jsonTotal (headLen bodyLen pad : ℕ) : ℕ :=
  headLen + (textEncode "Content-Length: \r\n\r\n").length + bodyLen +
    decimalDigits (bodyLen + pad) + pad

/-- The rounds of `json_padding`. -/
def settlePad (total : ℕ → ℕ) (target : ℕ) : ℕ → ℕ → ℕ
  | 0, pad => pad
  | rounds + 1, pad =>
    if total pad ≤ target then pad else settlePad total target rounds (pad - (total pad - target))

/-- `json_padding`. -/
def jsonPadding (headLen bodyLen : ℕ) : ℕ :=
  let total := jsonTotal headLen bodyLen
  let target := paddedLen (total 0)
  settlePad total target 2 (target - total 0)

/-- `is_dropped_request_header`. -/
def isDroppedRequestHeader (name : String) : Bool :=
  let lower := (textEncode name).map lowerByte
  (textEncode "proxy-").isPrefixOf lower ||
    (droppedRequestHeaders.map textEncode).contains lower

/-- `is_token_byte`. -/
def isTokenByte (b : UInt8) : Bool :=
  (textEncode "!#$%&'*+-.^_`|~").contains b || decide (48 ≤ b ∧ b ≤ 57) ||
    decide (97 ≤ b ∧ b ≤ 122) || decide (65 ≤ b ∧ b ≤ 90)

/-- `is_forbidden_value_byte`. -/
def isForbiddenValueByte (b : UInt8) : Bool := (decide (b < 32) && b != 9) || b == 0x7f

/-- A blank, a control character or the delete character. -/
def isBlankOrControl (b : UInt8) : Bool := decide (b ≤ 32) || b == 0x7f

/-- What one of the caller's fields adds to the head. -/
def encodeHeader (header : String × String) : Except TlsError Bytes :=
  if header.1 = "" ∨ !(textEncode header.1).all isTokenByte then
    .error (.httpRequest s!"invalid header name '{header.1}'")
  else if (textEncode header.2).any isForbiddenValueByte then
    .error (.httpRequest s!"header '{header.1}' has a control character in its value")
  else if isDroppedRequestHeader header.1 then .ok []
  else .ok (textEncode header.1 ++ textEncode ": " ++ textEncode header.2 ++ textEncode "\r\n")

/-- The head of a request up to its length. -/
def requestHead (method authority target : String) (lines : List Bytes)
    (options : RequestOptions) : Bytes :=
  textEncode method ++ textEncode " " ++ textEncode target ++ textEncode " HTTP/1.1\r\nHost: " ++
    textEncode authority ++ textEncode "\r\n" ++ lines.flatten ++ textEncode "User-Agent: " ++
    textEncode userAgent ++
    if options.keepAlive then textEncode "\r\nConnection: keep-alive\r\n"
    else textEncode "\r\nConnection: close\r\n"

/-- The request has a `Content-Length`. -/
def withLength (method : String) (body : Bytes) : Bool :=
  body != [] || ["POST", "PUT", "PATCH"].contains method

/-- The line that has the length of the body. -/
def lengthLine (method : String) (body : Bytes) (pad : ℕ) : Bytes :=
  if withLength method body then
    textEncode "Content-Length: " ++ decimalBytes (body.length + pad) ++ textEncode "\r\n"
  else []

/-- How many blanks follow the body. -/
def requestPad (head body : Bytes) (options : RequestOptions) : ℕ :=
  if options.padJson && body != [] then jsonPadding head.length body.length else 0

/-- `encode_request`. -/
def encodeRequest (method authority target : String) (headers : List (String × String))
    (body : Bytes) (options : RequestOptions) : Except TlsError Bytes :=
  if method = "" ∨ !(textEncode method).all isTokenByte then
    .error (.httpRequest s!"invalid method '{method}'")
  else if authority = "" ∨ (textEncode authority).any isBlankOrControl then
    .error (.httpRequest s!"invalid authority '{authority}'")
  else if target.toList.head? ≠ some '/' ∨ (textEncode target).any isBlankOrControl then
    .error (.httpRequest s!"invalid request target '{target}'")
  else do
    let lines ← headers.mapM encodeHeader
    let head := requestHead method authority target lines options
    let pad := requestPad head body options
    return head ++ lengthLine method body pad ++ textEncode "\r\n" ++ body ++
      List.replicate pad 32

/-! ### The padding -/

/-- Padding makes a length no shorter. -/
theorem le_paddedLen (len : ℕ) : len ≤ paddedLen len := by
  rw [paddedLen]
  cases hfind : padBuckets.find? fun bucket => len ≤ bucket with
  | some bucket =>
    have hlen := List.find?_some hfind
    exact of_decide_eq_true hlen
  | none =>
    have hdiv := Nat.div_add_mod (len + 16384 - 1) 16384
    have hmod := Nat.mod_lt (len + 16384 - 1) (show 0 < 16384 by decide)
    change len ≤ (len + 16384 - 1) / 16384 * 16384
    omega

/-- A larger number has no fewer digits. -/
theorem decimalDigits_mono {n n' : ℕ} (h : n ≤ n') : decimalDigits n ≤ decimalDigits n' := by
  rw [decimalDigits, decimalDigits]
  have hlog := Nat.log_mono_right (b := 10) h
  split_ifs <;> omega

/-- The next number has at most one digit more. -/
theorem decimalDigits_succ (n : ℕ) : decimalDigits (n + 1) ≤ decimalDigits n + 1 := by
  rw [decimalDigits, decimalDigits, if_neg (Nat.succ_ne_zero n)]
  rcases Nat.eq_zero_or_pos n with rfl | hpos
  · decide
  · have hlog : Nat.log 10 (n + 1) ≤ Nat.log 10 (n * 10) := Nat.log_mono_right (by omega)
    rw [Nat.log_mul_base (by decide) hpos.ne'] at hlog
    rw [if_neg hpos.ne']
    omega

/-- More bytes than digits are added. -/
theorem decimalDigits_add (n k : ℕ) : decimalDigits (n + k) ≤ decimalDigits n + k := by
  induction k with
  | zero => exact le_rfl
  | succ k ih =>
    have hsucc := decimalDigits_succ (n + k)
    rw [← Nat.add_assoc]
    omega

/-! ### What is written -/

/-- A field as it is on the wire. -/
def wireField (header : String × String) : Bytes × Bytes :=
  (textEncode header.1, textEncode header.2)

/-- The caller's fields that are sent on. -/
def keptFields (headers : List (String × String)) : List (Bytes × Bytes) :=
  (headers.filter fun header => !isDroppedRequestHeader header.1).map wireField

/-- The fields of a request. -/
def requestFields (method authority : String) (headers : List (String × String)) (body : Bytes)
    (options : RequestOptions) (pad : ℕ) : List (Bytes × Bytes) :=
  (textEncode "Host", textEncode authority) :: keptFields headers ++
    [(textEncode "User-Agent", textEncode userAgent),
      (textEncode "Connection",
        textEncode (if options.keepAlive then "keep-alive" else "close"))] ++
    if withLength method body then
      [(textEncode "Content-Length", decimalBytes (body.length + pad))]
    else []

/-- The marks that a name may have, and what stands between the parts of a head. -/
private theorem marks_and_separators :
    textEncode "!#$%&'*+-.^_`|~" =
        [33, 35, 36, 37, 38, 39, 42, 43, 45, 46, 94, 95, 96, 124, 126] ∧
      textEncode " " = [32] ∧ textEncode ": " = [58, 32] ∧ textEncode "\r\n" = [13, 10] := by
  decide +kernel

/-- The fixed lines of a head, as a server splits them. -/
private theorem fixedLines :
    textEncode " HTTP/1.1\r\nHost: " =
        [32, 72, 84, 84, 80, 47, 49, 46, 49] ++ [13, 10] ++ textEncode "Host" ++ [58, 32] ∧
      textEncode "User-Agent: " = textEncode "User-Agent" ++ [58, 32] ∧
      textEncode "Content-Length: " = textEncode "Content-Length" ++ [58, 32] ∧
      ∀ keepAlive : Bool, (if keepAlive then textEncode "\r\nConnection: keep-alive\r\n"
          else textEncode "\r\nConnection: close\r\n") =
        [13, 10] ++ textEncode "Connection" ++ [58, 32] ++
          textEncode (if keepAlive then "keep-alive" else "close") ++ [13, 10] := by
  decide +kernel

/-- The encoder's own values are fields of the grammar without blanks at their ends. -/
private theorem ownFields :
    (∀ name ∈ ["Host", "User-Agent", "Connection", "Content-Length"],
        IsToken (textEncode name)) ∧
      ∀ value ∈ [userAgent, "keep-alive", "close"],
        (textEncode value).all isFieldByte = true ∧
          trimBytes (textEncode value) = textEncode value := by
  decide +kernel

/-- The names that say how long a body is, and the encoder's own. -/
private theorem framingNames :
    transferEncodingName = textEncode "transfer-encoding" ∧
      contentLengthName = textEncode "content-length" ∧
      (textEncode "Content-Length").map lowerByte = contentLengthName ∧
      transferEncodingName ≠ contentLengthName ∧
      ∀ dropped ∈ ["transfer-encoding", "content-length"],
        ∀ name ∈ ["Host", "User-Agent", "Connection"],
          (textEncode name).map lowerByte ≠ textEncode dropped := by
  decide +kernel

/-- The bytes of a name are those of the grammar. -/
theorem isTokenByte_eq (b : UInt8) : isTokenByte b = Lib.isTokenByte b := by
  rw [isTokenByte, Lib.isTokenByte, marks_and_separators.1, List.contains_eq_mem, Bool.or_assoc,
    Bool.or_comm (decide (97 ≤ b ∧ b ≤ 122)), ← Bool.or_assoc]

/-- The bytes that a value may not have are those outside the grammar. -/
theorem isForbiddenValueByte_eq (b : UInt8) : isForbiddenValueByte b = !isFieldByte b := by
  rw [isForbiddenValueByte, isFieldByte]
  rcases eq_or_ne b 127 with rfl | hdel
  · rfl
  · rcases UInt8.lt_or_le b 32 with hlow | hhigh
    · simp [hlow, hdel, UInt8.not_le.mpr hlow, bne]
    · simp [hhigh, hdel, UInt8.not_lt.mpr hhigh]

/-- The bytes that a target may not have are those outside the grammar. -/
theorem isBlankOrControl_eq (b : UInt8) : isBlankOrControl b = !isTargetByte b := by
  rw [isBlankOrControl, isTargetByte]
  rcases UInt8.lt_or_le 32 b with hhigh | hlow
  · rcases eq_or_ne b 127 with rfl | hdel
    · rfl
    · simp [hhigh, hdel, UInt8.not_le.mpr hhigh]
  · simp [hlow, UInt8.not_lt.mpr hlow]

/-- A target has no blank. -/
theorem not_blank_of_target {b : UInt8} (h : isTargetByte b = true) : isBlankByte b = false := by
  rw [isBlankByte, Bool.or_eq_false_iff, beq_eq_false_iff_ne, beq_eq_false_iff_ne]
  constructor
  · rintro rfl
    exact absurd h (by decide)
  · rintro rfl
    exact absurd h (by decide)

/-- A byte of a target may stand in a value. -/
theorem isFieldByte_of_target {b : UInt8} (h : isTargetByte b = true) : isFieldByte b = true := by
  obtain ⟨hhigh, hdel⟩ := of_decide_eq_true h
  exact Bool.or_eq_true_iff.mpr (.inr (decide_eq_true ⟨UInt8.le_of_lt hhigh, hdel⟩))

/-- A text that is not empty has bytes. -/
theorem textEncode_ne_nil {text : String} (h : text ≠ "") : textEncode text ≠ [] := by
  obtain ⟨c, hc⟩ := List.exists_mem_of_ne_nil _ (mt String.toList_eq_nil_iff.mp h)
  intro hnil
  exact String.utf8EncodeChar_ne_nil (List.flatMap_eq_nil_iff.mp hnil c hc)

/-- What passes the check of the name is a token of the grammar. -/
theorem isToken_of_checked {text : String}
    (h : ¬(text = "" ∨ !(textEncode text).all isTokenByte)) : IsToken (textEncode text) := by
  obtain ⟨hne, hall⟩ := not_or.mp h
  refine ⟨textEncode_ne_nil hne, ?_⟩
  rw [← funext isTokenByte_eq]
  simpa using hall

/-- A header that is encoded is a field of the grammar, and its line is rendered from it unless it
is dropped. -/
theorem encodeHeader_ok {header : String × String} {line : Bytes}
    (h : encodeHeader header = .ok line) :
    IsField (wireField header) ∧
      line = if isDroppedRequestHeader header.1 then []
        else renderFieldLine (wireField header) ++ [13, 10] := by
  rw [encodeHeader] at h
  split_ifs at h with hname hvalue hdropped
  all_goals
    have hfield : IsField (wireField header) := by
      refine ⟨isToken_of_checked hname, ?_⟩
      rw [funext isForbiddenValueByte_eq] at hvalue
      rw [wireField]
      simpa using hvalue
    refine ⟨hfield, ?_⟩
    rw [← Except.ok.inj h]
  · rw [if_pos hdropped]
  · obtain ⟨-, -, hcolon, hcrlf⟩ := marks_and_separators
    rw [if_neg hdropped, hcolon, hcrlf, renderFieldLine, List.append_assoc (textEncode header.1)]
    rfl

/-- The kept headers are fields of the grammar, and their lines are those that are written. -/
theorem encodeHeaders_ok {headers : List (String × String)} {lines : List Bytes}
    (h : headers.mapM encodeHeader = .ok lines) :
    (∀ field ∈ keptFields headers, IsField field) ∧
      lines.flatten =
        (keptFields headers).flatMap fun field => renderFieldLine field ++ [13, 10] := by
  have hall := mapM_eq_ok_iff.mp h
  clear h
  induction hall with
  | nil => exact ⟨fun _ h => absurd h List.not_mem_nil, rfl⟩
  | @cons header line headers lines hline _ ih =>
    obtain ⟨hfield, rfl⟩ := encodeHeader_ok hline
    rw [List.flatten_cons, ih.2]
    cases hdropped : isDroppedRequestHeader header.1 with
    | true =>
      have hkept : keptFields (header :: headers) = keptFields headers := by
        rw [keptFields, List.filter_cons_of_neg (by simp [hdropped]), keptFields]
      rw [hkept]
      exact ⟨ih.1, rfl⟩
    | false =>
      have hkept : keptFields (header :: headers) = wireField header :: keptFields headers := by
        rw [keptFields, List.filter_cons_of_pos (by simp [hdropped]), List.map_cons, keptFields]
      rw [hkept, List.flatMap_cons]
      exact ⟨List.forall_mem_cons.mpr ⟨hfield, ih.1⟩, rfl⟩

/-- The head that is written is the rendering of its request line and its fields. -/
theorem requestHead_eq_renderHead (method authority target : String)
    {headers : List (String × String)} (body : Bytes) (options : RequestOptions) (pad : ℕ)
    {lines : List Bytes}
    (hlines : lines.flatten =
      (keptFields headers).flatMap fun field => renderFieldLine field ++ [13, 10]) :
    requestHead method authority target lines options ++ lengthLine method body pad ++
        textEncode "\r\n" =
      renderHead (textEncode method) (textEncode target)
        (requestFields method authority headers body options pad) := by
  obtain ⟨-, hblank, -, hcrlf⟩ := marks_and_separators
  obtain ⟨hhost, hagent, hname, hconnection⟩ := fixedLines
  have hlength : lengthLine method body pad = (if withLength method body then
        [(textEncode "Content-Length", decimalBytes (body.length + pad))]
      else []).flatMap fun field => renderFieldLine field ++ [13, 10] := by
    rw [lengthLine, hname, hcrlf]
    split_ifs
    · simp [renderFieldLine]
    · rfl
  rw [requestHead, hblank, hcrlf, hhost, hlines, hagent, hconnection, hlength, renderHead,
    requestFields]
  simp [renderFieldLine, renderRequestLine, List.flatMap_map]

/-- What the encoder writes is the head of a request and its padded body. -/
theorem encodeRequest_ok {method authority target : String} {headers : List (String × String)}
    {body out : Bytes} {options : RequestOptions}
    (h : encodeRequest method authority target headers body options = .ok out) :
    IsToken (textEncode method) ∧
      (textEncode authority ≠ [] ∧ (textEncode authority).all isTargetByte = true) ∧
      (textEncode target ≠ [] ∧ (textEncode target).all isTargetByte = true) ∧
      (∀ field ∈ keptFields headers, IsField field) ∧
      ∃ pad, (pad = 0 ∨ body ≠ []) ∧
        out = renderHead (textEncode method) (textEncode target)
            (requestFields method authority headers body options pad) ++
          (body ++ List.replicate pad 32) := by
  rw [encodeRequest] at h
  split_ifs at h with hmethod hauthority htarget
  obtain ⟨lines, hlines, hout⟩ := bind_eq_ok_iff.mp h
  obtain ⟨hfields, hflat⟩ := encodeHeaders_ok hlines
  have hnotControl : ∀ {text : String}, ¬(textEncode text).any isBlankOrControl = true →
      (textEncode text).all isTargetByte = true := by
    intro text htext
    rw [funext isBlankOrControl_eq] at htext
    simpa using htext
  obtain ⟨hauthority, hauthority'⟩ := not_or.mp hauthority
  obtain ⟨htarget, htarget'⟩ := not_or.mp htarget
  have htargetNe : target ≠ "" := by
    rintro rfl
    exact htarget (by decide)
  refine ⟨isToken_of_checked hmethod, ⟨textEncode_ne_nil hauthority, hnotControl hauthority'⟩,
    ⟨textEncode_ne_nil htargetNe, hnotControl htarget'⟩, hfields,
    requestPad (requestHead method authority target lines options) body options, ?_, ?_⟩
  · rw [requestPad]
    split_ifs with hpad
    · exact .inr (bne_iff_ne.mp (Bool.and_eq_true_iff.mp hpad).2)
    · exact .inl rfl
  · rw [← requestHead_eq_renderHead method authority target body options _ hflat,
      ← List.append_assoc]
    exact (Except.ok.inj hout).symm

/-! ### What is read -/

/-- A field without the blanks around its value. -/
def trimField (field : Bytes × Bytes) : Bytes × Bytes := (field.1, trimBytes field.2)

/-- No kept field has the name of a dropped one. -/
theorem keptFields_not_dropped {headers : List (String × String)} {field : Bytes × Bytes}
    (h : field ∈ keptFields headers) :
    ¬textEncode "proxy-" <+: field.1.map lowerByte ∧
      ∀ dropped ∈ droppedRequestHeaders, field.1.map lowerByte ≠ textEncode dropped := by
  obtain ⟨header, hheader, rfl⟩ := List.mem_map.mp h
  have hkept := (List.mem_filter.mp hheader).2
  rw [isDroppedRequestHeader, Bool.not_eq_true', Bool.or_eq_false_iff] at hkept
  constructor
  · exact fun hproxy => ne_true_of_eq_false hkept.1 (List.isPrefixOf_iff_prefix.mpr hproxy)
  · intro dropped hdropped heq
    refine ne_true_of_eq_false hkept.2 (List.contains_iff_mem.mpr ?_)
    exact heq ▸ List.mem_map_of_mem hdropped

/-- Nothing is found among the kept fields under a dropped name. -/
theorem fieldsNamed_kept {headers : List (String × String)} {dropped : String}
    (hdropped : dropped ∈ droppedRequestHeaders) :
    fieldsNamed (textEncode dropped) ((keptFields headers).map trimField) = [] := by
  refine List.filter_eq_nil_iff.mpr fun field hfield hname => ?_
  obtain ⟨kept, hkept, rfl⟩ := List.mem_map.mp hfield
  exact (keptFields_not_dropped hkept).2 dropped hdropped (beq_iff_eq.mp hname)

/-- A decimal text has no blank. -/
theorem decimalBytes_noBlank (n : ℕ) : ∀ b ∈ decimalBytes n, isBlankByte b = false := by
  have hall := decimalBytes_all n (p := fun b => !isBlankByte b) (by decide)
  simpa using hall

/-- The fields of a request as they are read. -/
theorem trimField_requestFields (method : String) {authority : String}
    (headers : List (String × String)) (body : Bytes) (options : RequestOptions) (pad : ℕ)
    (hauthority : (textEncode authority).all isTargetByte = true) :
    (requestFields method authority headers body options pad).map trimField =
      (textEncode "Host", textEncode authority) :: (keptFields headers).map trimField ++
        [(textEncode "User-Agent", textEncode userAgent),
          (textEncode "Connection",
            textEncode (if options.keepAlive then "keep-alive" else "close"))] ++
        if withLength method body then
          [(textEncode "Content-Length", decimalBytes (body.length + pad))]
        else [] := by
  have hhost : trimBytes (textEncode authority) = textEncode authority := by
    refine trimBytes_of_noBlank fun b hb => ?_
    exact not_blank_of_target (List.all_eq_true.mp hauthority b hb)
  have hagent : trimBytes (textEncode userAgent) = textEncode userAgent :=
    (ownFields.2 _ (by simp)).2
  have hconnection : trimBytes (textEncode (if options.keepAlive then "keep-alive" else "close")) =
      textEncode (if options.keepAlive then "keep-alive" else "close") :=
    (ownFields.2 _ (by cases options.keepAlive <;> simp)).2
  have hlength : trimBytes (decimalBytes (body.length + pad)) = decimalBytes (body.length + pad) :=
    trimBytes_of_noBlank (decimalBytes_noBlank _)
  rw [requestFields, List.map_append, List.map_append, List.map_cons]
  congr 1
  · simp only [List.map_cons, List.map_nil, trimField, hhost, hagent, hconnection]
  · split_ifs
    · rw [List.map_singleton, trimField, hlength]
    · rfl

/-- A field that the encoder drops is only there when the encoder writes it itself. -/
theorem fieldsNamed_requestFields (method : String) {authority : String} (dropped : String)
    (headers : List (String × String)) (body : Bytes) (options : RequestOptions) (pad : ℕ)
    (hauthority : (textEncode authority).all isTargetByte = true)
    (hdropped : dropped ∈ droppedRequestHeaders)
    (hown : ∀ name ∈ ["Host", "User-Agent", "Connection"],
      (textEncode name).map lowerByte ≠ textEncode dropped) :
    fieldsNamed (textEncode dropped)
        ((requestFields method authority headers body options pad).map trimField) =
      fieldsNamed (textEncode dropped) (if withLength method body then
        [(textEncode "Content-Length", decimalBytes (body.length + pad))] else []) := by
  rw [trimField_requestFields method headers body options pad hauthority, List.cons_append,
    List.cons_append, fieldsNamed_cons_of_ne _ (hown _ (by simp)), List.append_assoc,
    fieldsNamed_append, fieldsNamed_kept hdropped, List.nil_append, List.cons_append,
    List.singleton_append, fieldsNamed_cons_of_ne _ (hown _ (by simp)),
    fieldsNamed_cons_of_ne _ (hown _ (by simp))]

/-- The length that a strict reader takes from the fields is that of the body. -/
theorem bodyLength_requestFields (method : String) {authority : String}
    (headers : List (String × String)) {body : Bytes} (options : RequestOptions) {pad : ℕ}
    (hauthority : (textEncode authority).all isTargetByte = true) (hpad : pad = 0 ∨ body ≠ []) :
    bodyLength ((requestFields method authority headers body options pad).map trimField) =
      some (body ++ List.replicate pad 32).length := by
  obtain ⟨hcodingName, hlengthName, hlower, hdiffer, hown⟩ := framingNames
  have hcoding := fieldsNamed_requestFields method "transfer-encoding" headers body options pad
    hauthority (by decide) (hown _ (by simp))
  have hlength := fieldsNamed_requestFields method "content-length" headers body options pad
    hauthority (by decide) (hown _ (by simp))
  rw [← hcodingName] at hcoding
  rw [← hlengthName] at hlength
  rw [bodyLength, hcoding, hlength, List.length_append, List.length_replicate]
  cases hwith : withLength method body with
  | true =>
    have hne : (textEncode "Content-Length").map lowerByte ≠ transferEncodingName :=
      hlower ▸ hdiffer.symm
    have heq : ((textEncode "Content-Length").map lowerByte == contentLengthName) = true :=
      beq_iff_eq.mpr hlower
    have hother : fieldsNamed transferEncodingName
        [(textEncode "Content-Length", decimalBytes (body.length + pad))] = [] :=
      fieldsNamed_cons_of_ne _ hne
    have hname : fieldsNamed contentLengthName
        [(textEncode "Content-Length", decimalBytes (body.length + pad))] =
          [(textEncode "Content-Length", decimalBytes (body.length + pad))] :=
      List.filter_cons_of_pos heq
    rw [if_pos rfl, hother, hname, if_neg (by simp)]
    exact parseDecimal_decimalBytes _
  | false =>
    rw [withLength, Bool.or_eq_false_iff, bne_eq_false_iff_eq] at hwith
    obtain ⟨rfl, -⟩ := hwith
    obtain rfl := hpad.resolve_right (by simp)
    rfl

/-- All fields that are written are fields of the grammar. -/
theorem isField_requestFields (method : String) {authority : String}
    {headers : List (String × String)} (body : Bytes) (options : RequestOptions) (pad : ℕ)
    (hauthority : (textEncode authority).all isTargetByte = true)
    (hfields : ∀ field ∈ keptFields headers, IsField field) :
    ∀ field ∈ requestFields method authority headers body options pad, IsField field := by
  obtain ⟨htoken, hvalue⟩ := ownFields
  have hhost : IsField (textEncode "Host", textEncode authority) := by
    refine ⟨htoken _ (by simp), List.all_eq_true.mpr fun b hb => ?_⟩
    exact isFieldByte_of_target (List.all_eq_true.mp hauthority b hb)
  have hagent : IsField (textEncode "User-Agent", textEncode userAgent) :=
    ⟨htoken _ (by simp), (hvalue _ (by simp)).1⟩
  have hconnection : IsField (textEncode "Connection",
      textEncode (if options.keepAlive then "keep-alive" else "close")) :=
    ⟨htoken _ (by simp), (hvalue _ (by cases options.keepAlive <;> simp)).1⟩
  have hlength : IsField (textEncode "Content-Length", decimalBytes (body.length + pad)) :=
    ⟨htoken _ (by simp), decimalBytes_all _ (by decide)⟩
  intro field hfield
  rw [requestFields, List.mem_append, List.cons_append, List.mem_cons, List.mem_append] at hfield
  rcases hfield with (rfl | hkept | hown) | hframing
  · exact hhost
  · exact hfields field hkept
  · rcases List.mem_pair.mp hown with rfl | rfl
    · exact hagent
    · exact hconnection
  · split_ifs at hframing
    · rwa [List.mem_singleton.mp hframing]
    · cases hframing

/-- Whatever the caller gives, a server that reads what is sent by the grammar reads one request
and nothing behind it: the method and the target, the authority, the caller's fields that are not
dropped, the encoder's own fields, and the body with blanks behind it, as long as it says. None of
the caller's fields has the name of one that is dropped.

The encoder writes lines without a line end in them, so the reader finds the same lines
(`parseRequest_render`); the length it writes is that of the body with its padding. -/
theorem encodeRequest_single {method authority target : String}
    {headers : List (String × String)} {body out : Bytes} {options : RequestOptions}
    (h : encodeRequest method authority target headers body options = .ok out) :
    (∃ pad, parseRequest out = some
      (⟨textEncode method, textEncode target,
        (textEncode "Host", textEncode authority) ::
          (keptFields headers).map (fun field => (field.1, trimBytes field.2)) ++
          [(textEncode "User-Agent", textEncode "Nox-Proxy/1.0"),
            (textEncode "Connection",
              textEncode (if options.keepAlive then "keep-alive" else "close"))] ++
          (if body ≠ [] ∨ method ∈ ["POST", "PUT", "PATCH"] then
            [(textEncode "Content-Length", decimalBytes (body ++ List.replicate pad 32).length)]
          else []),
        body ++ List.replicate pad 32⟩, [])) ∧
    ∀ field ∈ keptFields headers, ¬textEncode "proxy-" <+: field.1.map lowerByte ∧
      ∀ dropped ∈ droppedRequestHeaders, field.1.map lowerByte ≠ textEncode dropped := by
  obtain ⟨hmethod, ⟨-, hauthority⟩, ⟨htarget, htarget'⟩, hfields, pad, hpad, rfl⟩ :=
    encodeRequest_ok h
  refine ⟨⟨pad, ?_⟩, fun field hfield => keptFields_not_dropped hfield⟩
  have hread := parseRequest_render [] hmethod htarget htarget'
    (isField_requestFields method body options pad hauthority hfields)
    (bodyLength_requestFields method headers options hauthority hpad)
  have hwith : (body ≠ [] ∨ method ∈ ["POST", "PUT", "PATCH"]) ↔ withLength method body = true := by
    rw [withLength, Bool.or_eq_true, bne_iff_ne, List.contains_iff_mem]
  rw [List.append_nil] at hread
  rw [hread]
  simp only [hwith, List.length_append, List.length_replicate]
  exact congrArg (fun fields => some ((⟨_, _, fields, _⟩ : WireRequest), []))
    (trimField_requestFields method headers body options pad hauthority)

/-- A caller that sends framing fields of its own. -/
theorem encodeRequest_single_sample :
    ∃ pad, ∃ out, encodeRequest "POST" "rpc.example" "/v1?k=1"
        [("Content-Type", "application/json"), ("Transfer-Encoding", "chunked"),
          ("Content-Length", "999")] [123, 125] ⟨true, true⟩ = .ok out ∧
      (parseRequest out).map (fun read => (read.1.body, read.2)) =
        some ([123, 125] ++ List.replicate pad 32, []) := by
  have hrun : ∃ out, encodeRequest "POST" "rpc.example" "/v1?k=1"
      [("Content-Type", "application/json"), ("Transfer-Encoding", "chunked"),
        ("Content-Length", "999")] [123, 125] ⟨true, true⟩ = .ok out := ⟨_, rfl⟩
  obtain ⟨out, hout⟩ := hrun
  obtain ⟨⟨pad, hread⟩, -⟩ := encodeRequest_single hout
  exact ⟨pad, out, hout, by rw [hread]; rfl⟩

end NoxSdk.Tls
