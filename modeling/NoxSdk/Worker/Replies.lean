import Mathlib.Data.List.DropRight
import NoxSdk.Client.Exchange
import NoxSdk.Worker.FetchCall

/-!
# Replies

`finishResponse` (`fetch-map.ts`) turns the decoded reply of an exit or of a tunnel into the
response that the wallet reads: a gzip body is inflated, fields about the exit's own connection are
dropped. Only the first `content-encoding` field says whether to inflate, and all of them go with
it; `delivered_iff_oneCoding` says when the body is decoded all the same.

The stream that inflates is a parameter: the chunks it delivers, and whether it ends without an
error.
-/

namespace NoxSdk.Js

/-- A white space or a line terminator of the language. -/
def isSpace (c : Char) : Bool :=
  c.toNat ∈ [0x09, 0x0a, 0x0b, 0x0c, 0x0d, 0x20, 0xa0, 0x1680, 0x2028, 0x2029, 0x202f, 0x205f,
    0x3000, 0xfeff] || decide (0x2000 ≤ c.toNat ∧ c.toNat ≤ 0x200a)

/-- `text.trim()`. -/
def trim (text : String) : String :=
  String.ofList ((text.toList.dropWhile isSpace).rdropWhile isSpace)

end NoxSdk.Js

namespace NoxSdk.Worker

open Client (isToken)

/-- `AnonFetchResponse`. -/
structure AnonFetchResponse where
  status : ℕ
  headers : List (String × String)
  body : Bytes
  url : String
  deriving DecidableEq

/-- `GZIP_CODINGS`. -/
def gzipCodings : List String := ["gzip", "x-gzip"]

/-- `DROPPED_RESPONSE_HEADERS`. -/
def droppedResponseHeaders : List String :=
  ["content-length", "content-encoding", "transfer-encoding", "connection", "keep-alive",
    "proxy-connection", "te", "trailer", "upgrade", "set-cookie"]

/-- `FIELD_VALUE_RE`. -/
def isFieldValue (value : String) : Bool :=
  value.toList.all fun c =>
    c == '\t' || decide (0x20 ≤ c.toNat ∧ c.toNat ≤ 0x7e) ||
      decide (0x80 ≤ c.toNat ∧ c.toNat ≤ 0xff)

/-- What a `DecompressionStream` makes of a body. -/
structure Inflated where
  chunks : List Bytes
  complete : Bool

/-- The loop of `inflateReply` over the chunks. -/
def readInflated (maxBytes total : ℕ) (complete : Bool) : List Bytes → Except CallError Bytes
  | [] =>
    if complete then .ok []
    else .error ⟨.protocolError, "The upstream's gzip body is corrupt"⟩
  | chunk :: chunks =>
    if total + chunk.length > maxBytes then
      .error ⟨.tooLarge, s!"The response body inflates past {maxBytes} bytes"⟩
    else (readInflated maxBytes (total + chunk.length) complete chunks).map (chunk ++ ·)

/-- The content coding that decides. -/
def firstCoding (headers : List (String × String)) : Option String :=
  (headerOf "content-encoding" headers).map fun value => Js.toLowerCase (Js.trim value)

/-- `inflateReply`; without a stream the runtime cannot inflate. -/
def inflateReply (inflate : Option (Bytes → Inflated)) (reply : DecodedHttpResponse)
    (maxBytes : ℕ) : Except CallError DecodedHttpResponse :=
  if (firstCoding reply.headers).all (· ∉ gzipCodings) then .ok reply
  else
    let headers := dropHeaders ["content-encoding"] reply.headers
    if reply.body = [] then .ok { reply with headers }
    else match inflate with
      | none => .error ⟨.protocolError,
        "The upstream sent a gzip body and this runtime cannot inflate it"⟩
      | some inflate =>
        let inflated := inflate reply.body
        (readInflated maxBytes 0 inflated.complete inflated.chunks).map fun body =>
          { reply with headers, body }

/-- The loop of `toAnonResponse` over the fields. -/
def responseHeaders : List (String × String) → Except CallError (List (String × String))
  | [] => .ok []
  | (name, value) :: rest =>
    let lower := Js.toLowerCase name
    if lower = "content-encoding" ∧ Js.toLowerCase (Js.trim value) ≠ "identity" then
      .error ⟨.protocolError,
        s!"The upstream sent a {Js.trim value} body; this worker accepts identity and gzip"⟩
    else if lower ∈ droppedResponseHeaders ∨ isToken name = false ∨ isFieldValue value = false then
      responseHeaders rest
    else (responseHeaders rest).map ((lower, value) :: ·)

/-- The exit cut the body. -/
def checkTruncated (reply : DecodedHttpResponse) : Except CallError Unit :=
  if reply.truncated then
    .error ⟨.tooLarge, "The exit cut the response body at its response size limit"⟩
  else .ok ()

/-- The body is within the limit. -/
def checkLength (reply : DecodedHttpResponse) (maxResponseBytes : ℕ) : Except CallError Unit :=
  if reply.body.length > maxResponseBytes then .error ⟨.tooLarge,
    s!"The response body has {reply.body.length} bytes; the limit is {maxResponseBytes}"⟩
  else .ok ()

/-- `toAnonResponse`. -/
def toAnonResponse (reply : DecodedHttpResponse) (url : String) (maxResponseBytes : ℕ) :
    Except CallError AnonFetchResponse := do
  checkStatus reply
  checkTruncated reply
  checkLength reply maxResponseBytes
  let headers ← responseHeaders reply.headers
  return {
    status := reply.status
    headers := headers.mergeSort fun left right => decide (left.1 ≤ right.1)
    body := reply.body
    url := url }

/-- `finishResponse`. -/
def finishResponse (inflate : Option (Bytes → Inflated)) (reply : DecodedHttpResponse)
    (url : String) (maxResponseBytes : ℕ) : Except CallError AnonFetchResponse := do
  checkStatus reply
  checkTruncated reply
  let reply ← inflateReply inflate reply maxResponseBytes
  toAnonResponse reply url maxResponseBytes

/-! ### What the fields name -/

/-- The content codings that the value of a field names, but for `identity`. -/
def codingsOf (value : String) : List String :=
  (((Js.toLowerCase (Js.trim value)).toList.splitOn ',').map fun coding =>
    Js.trim (String.ofList coding)).filter fun coding => decide (coding ∉ ["", "identity"])

/-- The content codings that the fields of a reply name, in order. -/
def codings (headers : List (String × String)) : List String :=
  (headers.filter fun header => Js.toLowerCase header.1 == "content-encoding").flatMap fun header =>
    codingsOf header.2

/-- A body with its codings undone, the last one first. -/
def undoCodings (decode : String → Bytes → Option Bytes) (codings : List String) (body : Bytes) :
    Option Bytes :=
  codings.reverse.foldlM (fun body coding => decode coding body) body

/-- The bytes of a gzip stream. -/
def gunzip (inflate : Bytes → Inflated) (body : Bytes) : Option Bytes :=
  if (inflate body).complete then some (inflate body).chunks.flatten else none

/-- The decoders undo gzip as the runtime does. -/
def Gunzips (inflate : Bytes → Inflated) (decode : String → Bytes → Option Bytes) : Prop :=
  ∀ coding ∈ gzipCodings, decode coding = gunzip inflate

/-- What the wallet may expect of a response. -/
structure Delivered (decode : String → Bytes → Option Bytes) (reply : DecodedHttpResponse)
    (maxResponseBytes : ℕ) (response : AnonFetchResponse) : Prop where
  whole : reply.truncated = false
  decoded : if reply.body = [] then response.body = []
    else undoCodings decode (codings reply.headers) reply.body = some response.body
  bounded : response.body.length ≤ maxResponseBytes
  fields : ∀ header ∈ response.headers, Js.toLowerCase header.1 ∉ droppedResponseHeaders

/-- The first field is not gzip, or it names the only coding. -/
def OneCoding (headers : List (String × String)) : Prop :=
  (firstCoding headers).all (· ∉ gzipCodings) = true ∨ (codings headers).length = 1

/-! ### Fields -/

private theorem map_eq_ok_iff {ε α β : Type} {f : α → β} {x : Except ε α} {b : β} :
    x.map f = .ok b ↔ ∃ a, x = .ok a ∧ f a = b := by
  cases x with
  | error error => simp [Except.map]
  | ok a => simp [Except.map]

private theorem toLower_toLower (c : Char) : c.toLower.toLower = c.toLower := by
  by_cases hupper : c.val ≥ 'A'.val ∧ c.val ≤ 'Z'.val
  · have hval : c.toLower.val = c.val + ('a'.val - 'A'.val) := by
      delta Char.toLower
      rw [dif_pos hupper]
    have hlower : ¬(c.toLower.val ≥ 'A'.val ∧ c.toLower.val ≤ 'Z'.val) := by
      obtain ⟨hfirst, hlast⟩ := hupper
      have hA : 'A'.val.toNat = 65 := rfl
      have hZ : 'Z'.val.toNat = 90 := rfl
      have hshift : ('a'.val - 'A'.val).toNat = 32 := rfl
      rw [hval]
      rw [ge_iff_le, UInt32.le_iff_toNat_le] at *
      rw [UInt32.le_iff_toNat_le, UInt32.toNat_add, hshift]
      omega
    exact dif_neg hlower
  · have hsame : c.toLower = c := dif_neg hupper
    rw [hsame, hsame]

theorem toLowerCase_toLowerCase (text : String) :
    Js.toLowerCase (Js.toLowerCase text) = Js.toLowerCase text := by
  rw [Js.toLowerCase, Js.toLowerCase, String.toList_ofList, List.map_map]
  congr 1
  exact List.map_congr_left fun c _ => toLower_toLower c

section Headers

variable {headers out : List (String × String)}

/-- The fields that are returned: each `content-encoding` was `identity`, and no field is one of
those dropped. -/
theorem responseHeaders_ok (h : responseHeaders headers = .ok out) :
    (∀ header ∈ headers, Js.toLowerCase header.1 = "content-encoding" →
      Js.toLowerCase (Js.trim header.2) = "identity") ∧
    ∀ header ∈ out, Js.toLowerCase header.1 ∉ droppedResponseHeaders := by
  induction headers generalizing out with
  | nil =>
    obtain rfl := Except.ok.inj h
    simp
  | cons header rest ih =>
    obtain ⟨name, value⟩ := header
    rw [responseHeaders] at h
    split_ifs at h with hcoded hdropped
    · obtain ⟨hidentity, hout⟩ := ih h
      refine ⟨fun header hheader hname => ?_, hout⟩
      rcases List.mem_cons.mp hheader with rfl | hrest
      · by_contra hother
        exact hcoded ⟨hname, hother⟩
      · exact hidentity header hrest hname
    · obtain ⟨kept, hkept, rfl⟩ := map_eq_ok_iff.mp h
      obtain ⟨hidentity, hout⟩ := ih hkept
      refine ⟨fun header hheader hname => ?_, fun header hheader => ?_⟩
      · rcases List.mem_cons.mp hheader with rfl | hrest
        · by_contra hother
          exact hcoded ⟨hname, hother⟩
        · exact hidentity header hrest hname
      · rcases List.mem_cons.mp hheader with rfl | hrest
        · rw [toLowerCase_toLowerCase]
          exact (not_or.mp hdropped).1
        · exact hout header hrest

/-- Without a `content-encoding` field no field is an error. -/
theorem exists_responseHeaders
    (h : ∀ header ∈ headers, Js.toLowerCase header.1 ≠ "content-encoding") :
    ∃ out, responseHeaders headers = .ok out := by
  induction headers with
  | nil => exact ⟨[], rfl⟩
  | cons header rest ih =>
    obtain ⟨out, hout⟩ := ih fun other hother => h other (List.mem_cons_of_mem _ hother)
    rw [responseHeaders, if_neg fun hcoded => h header List.mem_cons_self hcoded.1, hout]
    split_ifs
    · exact ⟨out, rfl⟩
    · exact ⟨_, rfl⟩

theorem codingsOf_identity {value : String}
    (h : Js.toLowerCase (Js.trim value) = "identity") : codingsOf value = [] := by
  rw [codingsOf, h]
  decide +kernel

theorem codingsOf_gzip {value : String} (h : Js.toLowerCase (Js.trim value) ∈ gzipCodings) :
    codingsOf value = [Js.toLowerCase (Js.trim value)] := by
  rw [codingsOf]
  generalize Js.toLowerCase (Js.trim value) = coding at h
  simp only [gzipCodings, List.mem_cons, List.not_mem_nil, or_false] at h
  rcases h with rfl | rfl
  · decide +kernel
  · decide +kernel

/-- Fields that all say `identity` name no coding. -/
theorem codings_eq_nil (h : ∀ header ∈ headers, Js.toLowerCase header.1 = "content-encoding" →
    Js.toLowerCase (Js.trim header.2) = "identity") : codings headers = [] := by
  rw [codings, List.flatMap_eq_nil_iff]
  intro header hheader
  obtain ⟨hmem, hname⟩ := List.mem_filter.mp hheader
  exact codingsOf_identity (h header hmem (beq_iff_eq.mp hname))

theorem exists_gzip (h : ¬(firstCoding headers).all (· ∉ gzipCodings) = true) :
    ∃ coding, firstCoding headers = some coding ∧ coding ∈ gzipCodings := by
  cases hfirst : firstCoding headers with
  | none =>
    rw [hfirst] at h
    exact absurd rfl h
  | some coding =>
    rw [hfirst, Option.all_some, decide_eq_true_eq, not_not] at h
    exact ⟨coding, rfl, h⟩

/-- The first field names the first coding. -/
theorem codings_of_firstCoding {coding : String} (h : firstCoding headers = some coding)
    (hgzip : coding ∈ gzipCodings) : ∃ rest, codings headers = coding :: rest := by
  rw [firstCoding, headerOf, Option.map_map, ← List.head?_filter] at h
  obtain ⟨header, hheader, rfl⟩ := Option.map_eq_some_iff.mp h
  obtain ⟨rest, hrest⟩ := List.head?_eq_some_iff.mp hheader
  rw [codings, hrest, List.flatMap_cons, codingsOf_gzip hgzip]
  exact ⟨_, rfl⟩

end Headers

/-! ### Bodies -/

theorem readInflated_ok_iff {maxBytes total : ℕ} (htotal : total ≤ maxBytes) {complete : Bool}
    {chunks : List Bytes} {body : Bytes} :
    readInflated maxBytes total complete chunks = .ok body ↔
      complete = true ∧ chunks.flatten = body ∧ total + body.length ≤ maxBytes := by
  induction chunks generalizing total body with
  | nil =>
    rw [readInflated]
    split_ifs with hcomplete
    · rw [Except.ok.injEq, List.flatten_nil]
      constructor
      · rintro rfl
        exact ⟨hcomplete, rfl, htotal⟩
      · exact fun h => h.2.1
    · exact iff_of_false nofun fun h => hcomplete h.1
  | cons chunk chunks ih =>
    rw [readInflated]
    split_ifs with hlong
    · refine iff_of_false nofun ?_
      rintro ⟨-, rfl, hbound⟩
      rw [List.flatten_cons, List.length_append] at hbound
      omega
    · rw [map_eq_ok_iff]
      constructor
      · rintro ⟨rest, hrest, rfl⟩
        obtain ⟨hcomplete, rfl, hbound⟩ := (ih (not_lt.mp hlong)).mp hrest
        refine ⟨hcomplete, List.flatten_cons, ?_⟩
        rw [List.length_append]
        omega
      · rintro ⟨hcomplete, rfl, hbound⟩
        rw [List.flatten_cons, List.length_append] at hbound
        exact ⟨chunks.flatten, (ih (not_lt.mp hlong)).mpr ⟨hcomplete, rfl, by omega⟩,
          List.flatten_cons.symm⟩

section Finish

variable {inflate : Bytes → Inflated} {decode : String → Bytes → Option Bytes}
  {reply : DecodedHttpResponse} {url : String} {maxResponseBytes : ℕ}
  {response : AnonFetchResponse}

theorem checkTruncated_ok (h : checkTruncated reply = .ok ()) : reply.truncated = false := by
  rw [checkTruncated] at h
  split_ifs at h with htruncated
  exact Bool.eq_false_iff.mpr htruncated

/-- What `toAnonResponse` returns of a reply. -/
theorem toAnonResponse_ok (h : toAnonResponse reply url maxResponseBytes = .ok response) :
    response.body = reply.body ∧ response.body.length ≤ maxResponseBytes ∧ response.url = url ∧
      (∀ header ∈ reply.headers, Js.toLowerCase header.1 = "content-encoding" →
        Js.toLowerCase (Js.trim header.2) = "identity") ∧
      ∀ header ∈ response.headers, Js.toLowerCase header.1 ∉ droppedResponseHeaders := by
  obtain ⟨_, -, h⟩ := bind_eq_ok_iff.mp h
  obtain ⟨_, -, h⟩ := bind_eq_ok_iff.mp h
  obtain ⟨_, hlength, h⟩ := bind_eq_ok_iff.mp h
  obtain ⟨headers, hheaders, h⟩ := bind_eq_ok_iff.mp h
  obtain rfl := Except.ok.inj h
  obtain ⟨hidentity, hkept⟩ := responseHeaders_ok hheaders
  rw [checkLength] at hlength
  split_ifs at hlength with hlong
  exact ⟨rfl, not_lt.mp hlong, rfl, hidentity,
    fun header hheader => hkept header (List.mem_mergeSort.mp hheader)⟩

/-- With one coding at most, a response that is returned is what the wallet may expect. -/
theorem delivered_of_oneCoding (hdecode : Gunzips inflate decode)
    (hone : OneCoding reply.headers)
    (h : finishResponse (some inflate) reply url maxResponseBytes = .ok response) :
    Delivered decode reply maxResponseBytes response := by
  obtain ⟨_, -, h⟩ := bind_eq_ok_iff.mp h
  obtain ⟨_, htruncated, h⟩ := bind_eq_ok_iff.mp h
  obtain ⟨inflated, hinflated, h⟩ := bind_eq_ok_iff.mp h
  have hwhole := checkTruncated_ok htruncated
  obtain ⟨hbody, hbounded, -, hidentity, hfields⟩ := toAnonResponse_ok h
  refine ⟨hwhole, ?_, hbounded, hfields⟩
  rw [inflateReply] at hinflated
  split_ifs at hinflated with hplain hempty
  · -- the first field is not gzip, so that every field says `identity`
    obtain rfl := Except.ok.inj hinflated
    rw [codings_eq_nil hidentity, hbody]
    split_ifs with hnil
    · exact hnil
    · rfl
  · obtain rfl := Except.ok.inj hinflated
    rw [if_pos hempty, hbody]
    exact hempty
  · obtain ⟨plain, hplain_ok, rfl⟩ := map_eq_ok_iff.mp hinflated
    obtain ⟨hcomplete, hflatten, -⟩ := (readInflated_ok_iff (Nat.zero_le _)).mp hplain_ok
    obtain ⟨coding, hcoding, hgzip⟩ := exists_gzip hplain
    obtain ⟨rest, hrest⟩ := codings_of_firstCoding hcoding hgzip
    have hsingle : rest = [] := by
      have hlength := hone.resolve_left hplain
      rw [hrest, List.length_cons] at hlength
      exact List.length_eq_zero_iff.mp (Nat.succ_injective hlength)
    rw [if_neg hempty, hrest, hsingle, hbody]
    have hgunzip : gunzip inflate reply.body = some plain := by
      rw [gunzip, if_pos hcomplete, hflatten]
    simp [undoCodings, hdecode coding hgzip, hgunzip]

/-- Two codings: one is undone, and the body is returned as if it were decoded. -/
theorem exists_not_delivered {headers : List (String × String)} {coded : Bytes}
    (hempty : gunzip inflate [] = none) (hcoded : gunzip inflate coded = some [])
    (hmany : ¬OneCoding headers) :
    ∃ decode, Gunzips inflate decode ∧ ∃ response,
      finishResponse (some inflate) ⟨200, headers, coded, false⟩ "" 0 = .ok response ∧
        ¬Delivered decode ⟨200, headers, coded, false⟩ 0 response := by
  obtain ⟨hplain, hlength⟩ := not_or.mp hmany
  obtain ⟨coding, hcoding, hgzip⟩ := exists_gzip hplain
  obtain ⟨rest, hrest⟩ := codings_of_firstCoding hcoding hgzip
  -- the decoder of the counterexample knows the one coding
  let decode (coding : String) : Bytes → Option Bytes :=
    if coding ∈ gzipCodings then gunzip inflate else fun _ => none
  have hne : coded ≠ [] := by
    rintro rfl
    rw [hempty] at hcoded
    cases hcoded
  obtain ⟨out, hout⟩ : ∃ out,
      responseHeaders (dropHeaders ["content-encoding"] headers) = .ok out :=
    exists_responseHeaders fun header hheader hname => by
      have hkept := (List.mem_filter.mp hheader).2
      simp [hname] at hkept
  -- the body is inflated once, to nothing
  have hread : readInflated 0 0 (inflate coded).complete (inflate coded).chunks = .ok [] := by
    rw [gunzip] at hcoded
    split_ifs at hcoded with hcomplete
    exact (readInflated_ok_iff le_rfl).mpr ⟨hcomplete, Option.some.inj hcoded, le_rfl⟩
  -- and its header goes, with the other codings still in it
  have hinflated : inflateReply (some inflate) ⟨200, headers, coded, false⟩ 0 =
      .ok ⟨200, dropHeaders ["content-encoding"] headers, [], false⟩ := by
    rw [inflateReply, if_neg hplain]
    simp only [if_neg hne, hread]
    rfl
  refine ⟨decode, fun coding hcoding => if_pos hcoding,
    ⟨200, out.mergeSort fun left right => decide (left.1 ≤ right.1), [], ""⟩, ?_,
    fun hdelivered => ?_⟩
  · rw [finishResponse, hinflated]
    simp only [ok_bind, toAnonResponse, hout]
    rfl
  · -- whatever the last coding is, what is left of it cannot be decoded once more
    have hdecoded := hdelivered.decoded
    rw [if_neg hne, undoCodings] at hdecoded
    have hall : ∀ coding, decode coding [] = none := fun coding => by
      simp only [decode]
      split_ifs
      · exact hempty
      · rfl
    have hfirst : ∀ coding, decode coding coded = some [] ∨ decode coding coded = none :=
      fun coding => by
        simp only [decode]
        split_ifs
        · exact .inl hcoded
        · exact .inr rfl
    cases hreversed : (codings headers).reverse with
    | nil =>
      rw [List.reverse_eq_nil_iff, hrest] at hreversed
      cases hreversed
    | cons last before =>
      cases before with
      | nil =>
        refine hlength ?_
        rw [← List.length_reverse, hreversed]
        rfl
      | cons next others =>
        rw [hreversed, List.foldlM_cons] at hdecoded
        rcases hfirst last with hlast | hlast
        · rw [hlast] at hdecoded
          simp [List.foldlM_cons, hall next] at hdecoded
        · rw [hlast] at hdecoded
          cases hdecoded

end Finish

/-- A reply is delivered whatever its body and the limit exactly when its fields name one coding,
or do not start with gzip: the stream rejects an empty body, and some body inflates to an empty
one.

The code looks at the first coding alone. With one coding the body is what was sent or what it
inflates to (`delivered_of_oneCoding`); with several there is a body that is delivered as it should
not be (`exists_not_delivered`). -/
theorem delivered_iff_oneCoding (inflate : Bytes → Inflated) (hempty : gunzip inflate [] = none)
    (hcoded : ∃ coded, gunzip inflate coded = some []) (headers : List (String × String)) :
    (∀ decode, Gunzips inflate decode → ∀ reply url maxResponseBytes response,
      reply.headers = headers →
      finishResponse (some inflate) reply url maxResponseBytes = .ok response →
        Delivered decode reply maxResponseBytes response) ↔ OneCoding headers := by
  constructor
  · intro hall
    by_contra hmany
    obtain ⟨coded, hcoded⟩ := hcoded
    obtain ⟨decode, hdecode, response, hresponse, hnot⟩ :=
      exists_not_delivered hempty hcoded hmany
    exact hnot (hall decode hdecode _ _ _ response rfl hresponse)
  · rintro hone decode hdecode reply url maxResponseBytes response rfl h
    exact delivered_of_oneCoding hdecode hone h

/-! ### A body that is coded twice -/

/-- The gzip stream of no bytes. -/
def emptyGzip : Bytes :=
  [31, 139, 8, 0, 0, 0, 0, 0, 2, 3, 3, 0, 0, 0, 0, 0, 0, 0, 0, 0]

/-- The gzip stream of that stream. -/
def twiceGzip : Bytes :=
  [31, 139, 8, 0, 0, 0, 0, 0, 2, 3, 147, 239, 230, 96, 0, 1, 38, 102, 102, 6, 24, 0, 0, 100, 238,
    213, 42, 20, 0, 0, 0]

/-- What the runtime makes of the two streams. -/
def sampleInflate (body : Bytes) : Inflated :=
  if body = emptyGzip then ⟨[], true⟩
  else if body = twiceGzip then ⟨[emptyGzip], true⟩
  else ⟨[], false⟩

/-- A tunnel delivers a repeated field as two. -/
def twiceCodedReply : DecodedHttpResponse :=
  ⟨200, [("content-encoding", "gzip"), ("content-encoding", "gzip")], twiceGzip, false⟩

theorem delivered_iff_oneCoding_sample :
    OneCoding [("content-encoding", "gzip")] ∧ ∀ response,
      finishResponse (some sampleInflate)
          ⟨200, [("content-encoding", "gzip")], twiceGzip, false⟩ "" 1000 = .ok response →
        Delivered (fun _ => gunzip sampleInflate)
          ⟨200, [("content-encoding", "gzip")], twiceGzip, false⟩ 1000 response := by
  have hone : OneCoding [("content-encoding", "gzip")] := .inr (by decide +kernel)
  exact ⟨hone, fun response => (delivered_iff_oneCoding sampleInflate (by decide)
    ⟨emptyGzip, by decide⟩ _).mpr hone _ (fun _ _ => rfl) _ "" 1000 response rfl⟩

/-- The body that the wallet gets is still a gzip stream. -/
theorem not_delivered_twice : ∃ response,
    finishResponse (some sampleInflate) twiceCodedReply "" 1000 = .ok response ∧
      response.body = emptyGzip ∧
      undoCodings (fun _ => gunzip sampleInflate) (codings twiceCodedReply.headers)
        twiceCodedReply.body = some [] ∧
      ¬Delivered (fun _ => gunzip sampleInflate) twiceCodedReply 1000 response := by
  have hundone : undoCodings (fun _ => gunzip sampleInflate) (codings twiceCodedReply.headers)
      twiceCodedReply.body = some [] := by decide +kernel
  have hinflated : inflateReply (some sampleInflate) twiceCodedReply 1000 =
      .ok ⟨200, [], emptyGzip, false⟩ := by rfl
  refine ⟨⟨200, [], emptyGzip, ""⟩, ?_, rfl, hundone, fun hdelivered => ?_⟩
  · rw [finishResponse, hinflated]
    simp only [ok_bind, toAnonResponse, responseHeaders, List.mergeSort_nil]
    rfl
  · have hdecoded := hdelivered.decoded
    rw [if_neg (by decide), hundone] at hdecoded
    exact absurd (Option.some.inj hdecoded) (by decide)

end NoxSdk.Worker
