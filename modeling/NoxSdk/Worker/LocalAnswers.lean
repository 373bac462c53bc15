import NoxSdk.Lib.OrderedMap
import NoxSdk.Worker.FetchCall
import NoxSdk.Worker.Replies

/-!
# Answers the worker keeps

Some calls have one answer for good: the chain of an upstream, and, where it is enabled, what a
block of a given hash holds. `LocalAnswers` keeps such an answer under the URL, the method and the
parameters of the call, counts how often it was seen, and gives it out once it was seen twice.
`observe` is told of every answer that came through the network, `lookup` asks.

Calls and results are compared by the text that `JSON.stringify` writes of what `JSON.parse` read.
Of most values that text is read back as the same value, but an infinite number is written as `null`
and `-0` as `0`; `exact` tells the values without such numbers. `lookup_confirmed` says what an
answer from memory rests on, over any calls in any order: an entry is `Backed` by the answers that
were observed, and every call keeps that.
-/

namespace NoxSdk.Worker

open Js (Json)

/-- `LOCAL_ANSWER_MAX_ENTRIES`. -/
def localAnswerMaxEntries : ℕ := 512

/-- `LOCAL_ANSWER_MAX_BYTES`. -/
def localAnswerMaxBytes : ℕ := 4 * 1024 * 1024

/-- `LOCAL_ANSWER_MAX_ENTRY_BYTES`. -/
def localAnswerMaxEntryBytes : ℕ := 512 * 1024

/-- `LOCAL_ANSWER_CONFIRMATIONS`. -/
def localAnswerConfirmations : ℕ := 2

/-- `MEMO_METHODS`. -/
def memoMethods : List String := ["eth_chainId", "net_version"]

/-- `BY_BLOCK_HASH`. -/
def byBlockHash : List String :=
  ["eth_getBlockByHash", "eth_getBlockTransactionCountByHash",
    "eth_getTransactionByBlockHashAndIndex", "eth_getUncleByBlockHashAndIndex",
    "eth_getUncleCountByBlockHash"]

/-- `STATE_READS`. -/
def stateReads : List String :=
  ["eth_call", "eth_getBalance", "eth_getCode", "eth_getStorageAt", "eth_getTransactionCount",
    "eth_getProof"]

/-- `LocalKind`. -/
inductive LocalKind where
  | memo
  | blockHash
  deriving DecidableEq

/-! ### The calls that are kept -/

/-- `isHash`. -/
def isHash : Option Json → Bool
  | some (.string text) =>
    match text.toList with
    | '0' :: 'x' :: digits => digits.length == 64 && digits.all Js.isHexDigit
    | _ => false
  | _ => false

/-- `isBlockHashSelector`. -/
def isBlockHashSelector : Option Json → Bool
  | some (.object fields) =>
    isHash (fields.lookup "blockHash") &&
      (match fields.lookup "requireCanonical" with
        | some (.bool true) => false
        | _ => true) &&
      (fields.lookup "blockNumber").isNone
  | _ => false

/-- `classify`. -/
def classify (method : String) (params : Json) : Option LocalKind :=
  match params with
  | .array [] => if method ∈ memoMethods then some .memo else none
  | .array (first :: rest) =>
    if method ∈ memoMethods then none
    else if method ∈ byBlockHash then if isHash (some first) then some .blockHash else none
    else if method = "eth_getBlockReceipts" then
      if isHash (some first) || isBlockHashSelector (some first) then some .blockHash else none
    else if method = "eth_getLogs" then
      if isHash (first.field "blockHash") && (first.field "fromBlock").isNone &&
          (first.field "toBlock").isNone then some .blockHash
      else none
    else if method ∈ stateReads then
      if isBlockHashSelector (first :: rest).getLast? then some .blockHash else none
    else none
  | _ => none

/-- A letter as a pattern without case has it. -/
def foldCase (c : Char) : Char := if c = 'ſ' then 's' else c.toLower

/-- `/no-cache|no-store/iu`. -/
def forbidsStore (value : String) : Bool :=
  let folded := value.toList.map foldCase
  decide ("no-cache".toList <:+: folded ∨ "no-store".toList <:+: folded)

/-- `Call`, with what its key is made of. -/
structure LocalCall where
  url : String
  method : String
  params : Json
  kind : LocalKind
  id : Json

section Json

variable (parseJson : Bytes → Option Json) (stringify : Json → String)

/-- `params ?? []`. -/
def paramsOf (call : Json) : Json :=
  match call.field "params" with
  | none | some .null => .array []
  | some params => params

/-- An `id` that a call may have. -/
def isCallId : Json → Bool
  | .null | .string _ | .number _ => true
  | _ => false

/-- What `cacheableCall` reads in a body. -/
def readLocalCall (url : String) : Json → Option LocalCall
  | .object fields =>
    match fields.lookup "jsonrpc", fields.lookup "method", fields.lookup "id" with
    | some (.string "2.0"), some (.string method), some id =>
      if isCallId id then
        (classify method (paramsOf (.object fields))).map fun kind =>
          { url, method, params := paramsOf (.object fields), kind, id }
      else none
    | _, _, _ => none
  | _ => none

/-- `cacheableCall`. -/
def cacheableCall (request : PreparedRequest) : Option LocalCall :=
  if request.method ≠ "POST" ∨ request.profile.method = none ∨
      request.profile.method = some "batch" then none
  else if request.headers.any fun header =>
      Js.toLowerCase header.1 == "cache-control" && forbidsStore header.2 then none
  else (parseJson request.body).bind (readLocalCall request.url)

/-- The key of a call. -/
def LocalCall.key (call : LocalCall) : String :=
  call.url ++ "\n" ++ call.method ++ "\n" ++ stringify call.params

/-- What `resultOf` writes as text. -/
def resultValue (body : Bytes) : Option Json :=
  match parseJson body with
  | some (.object fields) =>
    match fields.lookup "error", fields.lookup "result" with
    | none, some .null => none
    | none, some result => some result
    | _, _ => none
  | _ => none

/-! ### The memory -/

/-- `Entry`. -/
structure LocalEntry where
  kind : LocalKind
  result : String
  headers : List (String × String)
  confirmations : ℕ

/-- `LocalAnswers`. -/
structure LocalAnswers where
  entries : OrderedMap String LocalEntry
  bytes : ℕ
  blockHashReads : Bool

namespace LocalAnswers

/-- `constructor`. -/
def init (blockHashReads : Bool) : LocalAnswers := ⟨.empty, 0, blockHashReads⟩

/-- `result.length`. -/
def weight (entry : LocalEntry) : ℕ := Js.length entry.result.toList

/-- `call`. -/
def callOf (blockHashReads : Bool) (request : PreparedRequest) : Option LocalCall :=
  (cacheableCall parseJson request).bind fun call =>
    if call.kind = .blockHash ∧ !blockHashReads then none else some call

/-- `remove`. -/
def remove (answers : LocalAnswers) (key : String) (entry : LocalEntry) : LocalAnswers :=
  { answers with entries := answers.entries.delete key, bytes := answers.bytes - weight entry }

/-- The loop of `evict`. -/
def evictFrom : List (String × LocalEntry) → LocalAnswers → LocalAnswers
  | [], answers => answers
  | (key, entry) :: rest, answers =>
    if answers.entries.size ≤ localAnswerMaxEntries ∧ answers.bytes ≤ localAnswerMaxBytes then
      answers
    else evictFrom rest (answers.remove key entry)

/-- `evict`. -/
def evict (answers : LocalAnswers) : LocalAnswers := evictFrom answers.entries.entries answers

/-- `served`. -/
def served (entry : LocalEntry) : Bool := decide (localAnswerConfirmations ≤ entry.confirmations)

/-- The body of an answer from memory. -/
def answerText (id result : String) : String :=
  "\x7b\"jsonrpc\":\"2.0\",\"id\":" ++ id ++ ",\"result\":" ++ result ++ "\x7d"

/-- `lookup`. -/
def lookup (answers : LocalAnswers) (request : PreparedRequest) :
    LocalAnswers × Option (AnonFetchResponse × LocalKind) :=
  match callOf parseJson answers.blockHashReads request with
  | none => (answers, none)
  | some call =>
    match answers.entries.get? (call.key stringify) with
    | none => (answers, none)
    | some entry =>
      if served entry then
        ({ answers with
            entries :=
              (answers.entries.delete (call.key stringify)).set (call.key stringify) entry },
          some (⟨200, entry.headers,
            Js.textEncode (answerText (stringify call.id) entry.result), request.url⟩, call.kind))
      else (answers, none)

/-- The call and the result of an answer that counts. -/
def counted (blockHashReads : Bool) (request : PreparedRequest) (response : AnonFetchResponse) :
    Option (LocalCall × Json) :=
  match callOf parseJson blockHashReads request with
  | none => none
  | some call =>
    if response.status ≠ 200 then none
    else (resultValue parseJson response.body).bind fun result =>
      if localAnswerMaxEntryBytes < Js.length (stringify result).toList then none
      else if call.kind = .blockHash ∧ stringify result = "[]" then none
      else some (call, result)

/-- `observe`; the flag asks for the call to be sent once more. -/
def observe (answers : LocalAnswers) (request : PreparedRequest) (response : AnonFetchResponse) :
    LocalAnswers × Bool :=
  match counted parseJson stringify answers.blockHashReads request response with
  | none => (answers, false)
  | some (call, result) =>
    match answers.entries.get? (call.key stringify) with
    | some existing =>
      if existing.result = stringify result then
        ({ answers with
            entries := answers.entries.set (call.key stringify)
              { existing with confirmations := existing.confirmations + 1 } }, false)
      else (answers.remove (call.key stringify) existing, false)
    | none =>
      let headers := response.headers.filter fun header =>
        Js.toLowerCase header.1 == "content-type"
      let entry : LocalEntry := ⟨call.kind, stringify result, headers, 1⟩
      (evict { answers with
          entries := answers.entries.set (call.key stringify) entry
          bytes := answers.bytes + weight entry }, call.kind = .memo)

/-! ### Calls in any order -/

/-- A call on the memory. -/
inductive Use where
  | observe (request : PreparedRequest) (response : AnonFetchResponse)
  | lookup (request : PreparedRequest)

/-- The memory after a call. -/
def step (answers : LocalAnswers) : Use → LocalAnswers
  | .observe request response => (answers.observe parseJson stringify request response).1
  | .lookup request => (answers.lookup parseJson stringify request).1

/-- The memory after calls. -/
def after (blockHashReads : Bool) (uses : List Use) : LocalAnswers :=
  uses.foldl (step parseJson stringify) (init blockHashReads)

variable {parseJson stringify}

/-! ### Entries and bytes -/

/-- The bytes are those of the results, and the limits hold. -/
structure Bounded (answers : LocalAnswers) : Prop where
  bytes_eq : answers.bytes = answers.entries.sum fun _ entry => weight entry
  size_le : answers.entries.size ≤ localAnswerMaxEntries
  bytes_le : answers.bytes ≤ localAnswerMaxBytes

/-- An entry that is removed takes its weight from the count of the bytes. -/
theorem bytes_remove {answers : LocalAnswers} {key : String} {entry : LocalEntry}
    (hbytes : answers.bytes = answers.entries.sum fun _ entry => weight entry)
    (h : answers.entries.get? key = some entry) :
    (answers.remove key entry).bytes =
      (answers.remove key entry).entries.sum fun _ entry => weight entry := by
  have hsum := OrderedMap.sum_delete_of_get? (fun _ entry => weight entry) h
  rw [remove]
  dsimp only
  omega

/-- The oldest entry goes first. -/
theorem entries_remove_head {answers : LocalAnswers} {key : String} {entry : LocalEntry}
    {rest : List (String × LocalEntry)} (h : answers.entries.entries = (key, entry) :: rest) :
    (answers.remove key entry).entries.entries = rest ∧
      answers.entries.get? key = some entry := by
  have hnodup := answers.entries.nodup_keys
  rw [h, List.map_cons, List.nodup_cons] at hnodup
  constructor
  · rw [remove, OrderedMap.delete]
    dsimp only
    rw [h, List.filter_cons_of_neg (by simp), List.filter_eq_self]
    intro other hother
    have hne : other.1 ≠ key := by
      rintro rfl
      exact hnodup.1 (List.mem_map.mpr ⟨other, hother, rfl⟩)
    simpa using hne
  · rw [OrderedMap.get?_eq_some_iff, h]
    exact List.mem_cons_self

/-- Eviction leaves the switch of the block hash reads alone. -/
theorem blockHashReads_evictFrom (list : List (String × LocalEntry)) (answers : LocalAnswers) :
    (evictFrom list answers).blockHashReads = answers.blockHashReads := by
  induction list generalizing answers with
  | nil => rfl
  | cons head rest ih =>
    rw [evictFrom]
    split_ifs
    · rfl
    · exact ih _

/-- `evict` makes room, and adds nothing. -/
theorem evictFrom_spec {list : List (String × LocalEntry)} {answers : LocalAnswers}
    (hbytes : answers.bytes = answers.entries.sum fun _ entry => weight entry)
    (hlist : answers.entries.entries = list) :
    Bounded (evictFrom list answers) ∧
      ∀ key entry, (evictFrom list answers).entries.get? key = some entry →
        answers.entries.get? key = some entry := by
  induction list generalizing answers with
  | nil =>
    rw [evictFrom]
    have hsize : answers.entries.size = 0 := by rw [OrderedMap.size, hlist, List.length_nil]
    have hzero : answers.bytes = 0 := by
      rw [hbytes, OrderedMap.sum, hlist]
      rfl
    exact ⟨⟨hbytes, by rw [hsize]; exact Nat.zero_le _, by rw [hzero]; exact Nat.zero_le _⟩,
      fun _ _ h => h⟩
  | cons head rest ih =>
    obtain ⟨key, entry⟩ := head
    rw [evictFrom]
    split_ifs with hroom
    · exact ⟨⟨hbytes, hroom.1, hroom.2⟩, fun _ _ h => h⟩
    · obtain ⟨hrest, hget⟩ := entries_remove_head hlist
      obtain ⟨hbounded, hkept⟩ := ih (bytes_remove hbytes hget) hrest
      refine ⟨hbounded, fun key' entry' h => ?_⟩
      have hdelete := hkept key' entry' h
      rw [remove] at hdelete
      rcases eq_or_ne key' key with rfl | hne
      · rw [OrderedMap.get?_delete_self] at hdelete
        cases hdelete
      · rwa [OrderedMap.get?_delete_of_ne _ hne] at hdelete

/-- Whatever is observed, the entries stay within their number and their bytes. -/
theorem bounded_observe {answers : LocalAnswers} (h : Bounded answers)
    (request : PreparedRequest) (response : AnonFetchResponse) :
    Bounded (answers.observe parseJson stringify request response).1 := by
  rw [observe]
  split
  · exact h
  · next call result _ =>
    split
    · next existing hget =>
      split_ifs
      · have hsum := OrderedMap.sum_set_of_get? (v := { existing with
          confirmations := existing.confirmations + 1 }) (fun _ entry => weight entry) hget
        have hsame : weight { existing with confirmations := existing.confirmations + 1 } =
            weight existing := rfl
        refine ⟨?_, ?_, h.bytes_le⟩
        · have hbytes := h.bytes_eq
          dsimp only
          omega
        · dsimp only
          rw [OrderedMap.size_set_of_get? hget]
          exact h.size_le
      · refine ⟨bytes_remove h.bytes_eq hget, ?_, ?_⟩
        · exact (OrderedMap.size_delete_le _ _).trans h.size_le
        · exact (Nat.sub_le _ _).trans h.bytes_le
    · next hget =>
      refine (evictFrom_spec ?_ rfl).1
      dsimp only
      rw [OrderedMap.sum_set_of_not_has _ hget, h.bytes_eq]

/-- A lookup only removes what is out of date, so the limits hold after it. -/
theorem bounded_lookup {answers : LocalAnswers} (h : Bounded answers)
    (request : PreparedRequest) : Bounded (answers.lookup parseJson stringify request).1 := by
  rw [lookup]
  split
  · exact h
  · next call _ =>
    split
    · exact h
    · next entry hget =>
      split_ifs
      · have hdelete := OrderedMap.sum_delete_of_get? (fun _ entry => weight entry) hget
        have hnone := OrderedMap.get?_delete_self answers.entries (call.key stringify)
        have hless := OrderedMap.size_delete_lt (OrderedMap.get?_eq_some_iff.mp hget)
        refine ⟨?_, ?_, h.bytes_le⟩
        · dsimp only
          rw [OrderedMap.sum_set_of_not_has _ hnone, hdelete, h.bytes_eq]
        · dsimp only
          rw [OrderedMap.size_set_of_not_has hnone]
          exact hless.trans_le h.size_le
      · exact h

/-- The limits hold after any uses of the cache. -/
theorem bounded_after (blockHashReads : Bool) (uses : List Use) :
    Bounded (after parseJson stringify blockHashReads uses) := by
  have hinit : Bounded (init blockHashReads) :=
    ⟨rfl, Nat.zero_le _, Nat.zero_le _⟩
  rw [after]
  generalize init blockHashReads = answers at hinit
  induction uses generalizing answers with
  | nil => exact hinit
  | cons use uses ih =>
    refine ih _ ?_
    cases use with
    | observe request response => exact bounded_observe hinit request response
    | lookup request => exact bounded_lookup hinit request

/-! ### What an answer rests on -/

/-- The number is finite and other than `-0`, so that its text stands for it. -/
def exactNumber : Js.JsonNumber → Bool
  | .integer _ => true
  | .decimal text => text != "Infinity" && text != "-Infinity" && text != "-0"

mutual

/-- Every number of the value is finite and other than `-0`. -/
def exact : Json → Bool
  | .number n => exactNumber n
  | .array items => exactItems items
  | .object fields => exactFields fields
  | _ => true

/-- `exact` of the elements of an array. -/
def exactItems : List Json → Bool
  | [] => true
  | item :: rest => exact item && exactItems rest

/-- `exact` of the values of an object. -/
def exactFields : List (String × Json) → Bool
  | [] => true
  | (_, value) :: rest => exact value && exactFields rest

end

/-- What a call asks. -/
structure LocalSubject where
  url : String
  method : String
  params : Json

/-- What the call asks. -/
def subjectOf (call : LocalCall) : LocalSubject := ⟨call.url, call.method, call.params⟩

/-- The answers that were observed and count, each with what was asked. -/
def facts (parseJson : Bytes → Option Json) (stringify : Json → String) (blockHashReads : Bool)
    (uses : List Use) : List (LocalSubject × Json) :=
  uses.filterMap fun
    | .observe request response =>
      (counted parseJson stringify blockHashReads request response).map fun fact =>
        (subjectOf fact.1, fact.2)
    | .lookup _ => none

/-- The parameters and the result are exact. -/
def ExactFact (fact : LocalSubject × Json) : Prop :=
  exact fact.1.params = true ∧ exact fact.2 = true

/-- A value that `JSON.parse` returned in a field, or the parameters of a call without any. -/
def Parsed (parseJson : Bytes → Option Json) (value : Json) : Prop :=
  value = .array [] ∨
    ∃ body fields key, parseJson body = some (.object fields) ∧ fields.lookup key = some value

/-- The key of what is asked. -/
def subjectKey (stringify : Json → String) (subject : LocalSubject) : String :=
  subject.url ++ "\n" ++ subject.method ++ "\n" ++ stringify subject.params

/-- The methods whose answers are kept. -/
def keptMethods : List String :=
  memoMethods ++ byBlockHash ++ ["eth_getBlockReceipts", "eth_getLogs"] ++ stateReads

/-- Only the methods of the list are classified. -/
theorem mem_keptMethods {method : String} {params : Json} {kind : LocalKind}
    (h : classify method params = some kind) : method ∈ keptMethods := by
  rw [keptMethods, List.mem_append, List.mem_append, List.mem_append]
  unfold classify at h
  split at h
  · split_ifs at h with hmemo
    exact .inl (.inl (.inl hmemo))
  · split_ifs at h with _ hhash _ hreceipts _ hlogs _ hstate
    · exact .inl (.inl (.inr hhash))
    · exact .inl (.inr (by simp [hreceipts]))
    · exact .inl (.inr (by simp [hlogs]))
    · exact .inr hstate
  · cases h

/-- What is asked, and the result, are values that were parsed, and the method is a known one. -/
structure Sound (parseJson : Bytes → Option Json) (subject : LocalSubject) : Prop where
  method : subject.method ∈ keptMethods
  params : Parsed parseJson subject.params

/-- The parameters of a parsed call are parsed values. -/
theorem parsed_paramsOf {body : Bytes} {fields : List (String × Json)}
    (h : parseJson body = some (.object fields)) :
    Parsed parseJson (paramsOf (.object fields)) := by
  rw [paramsOf]
  split
  · exact .inl rfl
  · exact .inl rfl
  · next params _ hparams => exact .inr ⟨body, fields, "params", h, hparams⟩

/-- A call that may be cached asks for one fact, with parameters that were parsed. -/
theorem sound_of_cacheableCall {request : PreparedRequest} {call : LocalCall}
    (h : cacheableCall parseJson request = some call) :
    Sound parseJson (subjectOf call) ∧ call.url = request.url := by
  rw [cacheableCall] at h
  split_ifs at h
  obtain ⟨value, hvalue, hcall⟩ := Option.bind_eq_some_iff.mp h
  unfold readLocalCall at hcall
  split at hcall
  · split at hcall
    · split_ifs at hcall
      obtain ⟨kind, hkind, rfl⟩ := Option.map_eq_some_iff.mp hcall
      exact ⟨⟨mem_keptMethods hkind, parsed_paramsOf hvalue⟩, rfl⟩
    · cases hcall
  · cases hcall

/-- So does a call that is looked up. -/
theorem sound_of_callOf {blockHashReads : Bool} {request : PreparedRequest} {call : LocalCall}
    (h : callOf parseJson blockHashReads request = some call) :
    Sound parseJson (subjectOf call) ∧ call.url = request.url := by
  obtain ⟨call', hcall', hkept⟩ := Option.bind_eq_some_iff.mp h
  split_ifs at hkept
  obtain rfl := Option.some.inj hkept
  exact sound_of_cacheableCall hcall'

/-- The result of a parsed reply is a parsed value. -/
theorem parsed_resultValue {body : Bytes} {result : Json}
    (h : resultValue parseJson body = some result) : Parsed parseJson result := by
  unfold resultValue at h
  split at h
  · next fields hfields =>
    split at h
    · cases h
    · next result' _ _ hresult =>
      obtain rfl := Option.some.inj h
      exact .inr ⟨body, fields, "result", hfields, hresult⟩
    · cases h
  · cases h

/-- An observation that counts has both from parsed texts. -/
theorem sound_of_counted {blockHashReads : Bool} {request : PreparedRequest}
    {response : AnonFetchResponse} {call : LocalCall} {result : Json}
    (h : counted parseJson stringify blockHashReads request response = some (call, result)) :
    Sound parseJson (subjectOf call) ∧ Parsed parseJson result := by
  unfold counted at h
  split at h
  · cases h
  · next call' hcall =>
    split_ifs at h
    obtain ⟨result', hresult, hkept⟩ := Option.bind_eq_some_iff.mp h
    split_ifs at hkept
    obtain ⟨rfl, rfl⟩ := Prod.mk.inj (Option.some.inj hkept)
    exact ⟨(sound_of_callOf hcall).1, parsed_resultValue hresult⟩

/-- A text that is cut at its last separator is cut in one way. -/
theorem eq_of_append_cons {sep : Char} {xs xs' ys ys' : List Char} (hys : sep ∉ ys)
    (hys' : sep ∉ ys') (h : xs ++ sep :: ys = xs' ++ sep :: ys') : xs = xs' ∧ ys = ys' := by
  rcases List.append_eq_append_iff.mp h with ⟨zs, rfl, hrest⟩ | ⟨zs, rfl, hrest⟩
  · cases zs with
    | nil => exact ⟨(List.append_nil xs).symm, (List.cons.inj hrest).2⟩
    | cons z zs =>
      rw [(List.cons.inj hrest).2] at hys
      exact absurd (List.mem_append_right zs List.mem_cons_self) hys
  · cases zs with
    | nil => exact ⟨List.append_nil xs', (List.cons.inj hrest).2.symm⟩
    | cons z zs =>
      rw [(List.cons.inj hrest).2] at hys'
      exact absurd (List.mem_append_right zs List.mem_cons_self) hys'

section Texts

variable (hround : ∀ value, Parsed parseJson value → exact value = true →
    parseJson (Js.textEncode (stringify value)) = some value)
  (hline : ∀ value, Parsed parseJson value → '\n' ∉ (stringify value).toList)

include hround

/-- Exact values can be told from their texts. -/
theorem eq_of_stringify {value value' : Json} (h : Parsed parseJson value)
    (h' : Parsed parseJson value') (hexact : exact value = true) (hexact' : exact value' = true)
    (htext : stringify value = stringify value') : value = value' := by
  have hread := hround value h hexact
  rw [htext, hround value' h' hexact'] at hread
  exact (Option.some.inj hread).symm

include hline

/-- What is asked can be told from the key. -/
theorem subjectKey_injective {subject subject' : LocalSubject} (h : Sound parseJson subject)
    (h' : Sound parseJson subject') (hexact : exact subject.params = true)
    (hexact' : exact subject'.params = true)
    (hkey : subjectKey stringify subject = subjectKey stringify subject') :
    subject = subject' := by
  obtain ⟨url, method, params⟩ := subject
  obtain ⟨url', method', params'⟩ := subject'
  have hmethods : ∀ method ∈ keptMethods, '\n' ∉ method.toList := by decide
  have hchars := congrArg String.toList hkey
  have hsep : "\n".toList = ['\n'] := rfl
  simp only [subjectKey, String.toList_append, hsep, List.append_assoc, List.singleton_append]
    at hchars
  rw [← List.append_assoc, ← List.append_assoc] at hchars
  obtain ⟨hfront, hparams⟩ := eq_of_append_cons (hline _ h.params) (hline _ h'.params) hchars
  obtain ⟨hurl, hmethod⟩ := eq_of_append_cons (hmethods _ h.method) (hmethods _ h'.method) hfront
  obtain rfl := String.toList_inj.mp hurl
  obtain rfl : method = method' := String.toList_inj.mp hmethod
  obtain rfl : params = params' :=
    eq_of_stringify hround h.params h'.params hexact hexact' (String.toList_inj.mp hparams)
  rfl

/-- An entry of the memory: it was made by an answer that counts, what was counted since was the
same, and it was confirmed by one of those. -/
def Backed (parseJson : Bytes → Option Json) (stringify : Json → String)
    (facts : List (LocalSubject × Json)) (key : String) (entry : LocalEntry) : Prop :=
  ∃ subject result before since, facts = before ++ (subject, result) :: since ∧
    subjectKey stringify subject = key ∧ Sound parseJson subject ∧ Parsed parseJson result ∧
    entry.result = stringify result ∧ 1 ≤ entry.confirmations ∧
    (localAnswerConfirmations ≤ entry.confirmations → (subject, result) ∈ since) ∧
    ∀ result', (subject, result') ∈ since → result' = result

omit hround hline in
/-- A new entry is backed by the one observation that made it. -/
theorem backed_new {facts : List (LocalSubject × Json)} {subject : LocalSubject} {result : Json}
    (hsubject : Sound parseJson subject) (hresult : Parsed parseJson result) (kind : LocalKind)
    (headers : List (String × String)) :
    Backed parseJson stringify (facts ++ [(subject, result)]) (subjectKey stringify subject)
      ⟨kind, stringify result, headers, 1⟩ :=
  ⟨subject, result, facts, [], rfl, rfl, hsubject, hresult, rfl, le_rfl,
    fun h => absurd (show 2 ≤ 1 from h) (by decide), fun _ h => absurd h List.not_mem_nil⟩

omit hround hline in
/-- An observation for another key does not touch what backs this one. -/
theorem Backed.other {facts : List (LocalSubject × Json)} {key : String} {entry : LocalEntry}
    {fact : LocalSubject × Json} (h : Backed parseJson stringify facts key entry)
    (hne : subjectKey stringify fact.1 ≠ key) :
    Backed parseJson stringify (facts ++ [fact]) key entry := by
  obtain ⟨subject, result, before, since, rfl, rfl, hsubject, hresult, htext, hone, htwice,
    hsame⟩ := h
  refine ⟨subject, result, before, since ++ [fact], by simp, rfl, hsubject, hresult, htext, hone,
    fun hconfirmed => List.mem_append_left _ (htwice hconfirmed), fun result' hmem => ?_⟩
  rcases List.mem_append.mp hmem with hsince | hlast
  · exact hsame result' hsince
  · rw [← List.mem_singleton.mp hlast] at hne
    exact absurd rfl hne

/-- An entry that sees the same answer again is backed by one observation more. -/
theorem Backed.again {facts : List (LocalSubject × Json)} {entry : LocalEntry}
    {fact : LocalSubject × Json}
    (h : Backed parseJson stringify facts (subjectKey stringify fact.1) entry)
    (hexact : ∀ other ∈ facts ++ [fact], ExactFact other)
    (hsubject : Sound parseJson fact.1) (hresult : Parsed parseJson fact.2)
    (htext : entry.result = stringify fact.2) :
    Backed parseJson stringify (facts ++ [fact]) (subjectKey stringify fact.1)
      { entry with confirmations := entry.confirmations + 1 } := by
  obtain ⟨subject, result, before, since, rfl, hkey, hsubject', hresult', htext', -, -,
    hsame⟩ := h
  obtain ⟨hparams, hvalue⟩ := hexact (subject, result) (by simp)
  obtain ⟨hparams', hvalue'⟩ := hexact fact (by simp)
  obtain rfl := subjectKey_injective hround hline hsubject' hsubject hparams hparams' hkey
  have hvalue : result = fact.2 :=
    eq_of_stringify hround hresult' hresult hvalue hvalue' (htext'.symm.trans htext)
  refine ⟨fact.1, result, before, since ++ [fact], by simp, rfl, hsubject, hresult', htext',
    Nat.le_add_left 1 _, fun _ => ?_, fun result' hmem => ?_⟩
  · rw [hvalue]
    exact List.mem_append_right _ (List.mem_singleton.mpr rfl)
  · rcases List.mem_append.mp hmem with hsince | hlast
    · exact hsame result' hsince
    · rw [hvalue]
      exact congrArg Prod.snd (List.mem_singleton.mp hlast)

/-- What is observed keeps the entries backed. -/
theorem backed_observe {answers : LocalAnswers} {facts : List (LocalSubject × Json)}
    (hbounded : Bounded answers)
    (h : ∀ key entry, answers.entries.get? key = some entry →
      Backed parseJson stringify facts key entry)
    {request : PreparedRequest} {response : AnonFetchResponse} {call : LocalCall} {result : Json}
    (hcounted : counted parseJson stringify answers.blockHashReads request response =
      some (call, result)) (hexact : ∀ fact ∈ facts ++ [(subjectOf call, result)], ExactFact fact)
    (key : String) (entry : LocalEntry)
    (hget : (answers.observe parseJson stringify request response).1.entries.get? key =
      some entry) :
    Backed parseJson stringify (facts ++ [(subjectOf call, result)]) key entry := by
  obtain ⟨hsubject, hresult⟩ := sound_of_counted hcounted
  have hkey : subjectKey stringify (subjectOf call) = call.key stringify := rfl
  rw [observe, hcounted] at hget
  dsimp only at hget
  cases hold : answers.entries.get? (call.key stringify) with
  | some existing =>
    rw [hold] at hget
    dsimp only at hget
    -- the same answer counts once more; another one drops the entry
    split_ifs at hget with hsame
    · rcases eq_or_ne key (call.key stringify) with rfl | hne
      · rw [OrderedMap.get?_set_self] at hget
        obtain rfl := Option.some.inj hget
        exact Backed.again hround hline (h _ existing hold) hexact hsubject hresult hsame
      · rw [OrderedMap.get?_set_of_ne _ _ hne] at hget
        exact (h key entry hget).other (hkey ▸ hne.symm)
    · rw [remove] at hget
      rcases eq_or_ne key (call.key stringify) with rfl | hne
      · rw [OrderedMap.get?_delete_self] at hget
        cases hget
      · rw [OrderedMap.get?_delete_of_ne _ hne] at hget
        exact (h key entry hget).other (hkey ▸ hne.symm)
  | none =>
    rw [hold] at hget
    have hbytes : ∀ entry : LocalEntry, answers.bytes + weight entry =
        (answers.entries.set (call.key stringify) entry).sum fun _ entry => weight entry := by
      intro entry
      rw [OrderedMap.sum_set_of_not_has _ hold, hbounded.bytes_eq]
    -- eviction takes entries away and changes none
    have hset := (evictFrom_spec (hbytes _) rfl).2 key entry hget
    dsimp only at hset
    rcases eq_or_ne key (call.key stringify) with rfl | hne
    · rw [OrderedMap.get?_set_self] at hset
      obtain rfl := Option.some.inj hset
      exact backed_new hsubject hresult _ _
    · rw [OrderedMap.get?_set_of_ne _ _ hne] at hset
      exact (h key entry hset).other (hkey ▸ hne.symm)

omit hround hline in
/-- A lookup makes no entry. -/
theorem get?_lookup {answers : LocalAnswers} {request : PreparedRequest} {key : String}
    {entry : LocalEntry}
    (h : (answers.lookup parseJson stringify request).1.entries.get? key = some entry) :
    answers.entries.get? key = some entry := by
  unfold lookup at h
  split at h
  · exact h
  · next call _ =>
    split at h
    · exact h
    · next served hget =>
      split_ifs at h
      · rcases eq_or_ne key (call.key stringify) with rfl | hne
        · rw [OrderedMap.get?_set_self] at h
          rwa [← Option.some.inj h]
        · rwa [OrderedMap.get?_set_of_ne _ _ hne, OrderedMap.get?_delete_of_ne _ hne] at h
      · exact h

omit hround hline in
/-- No use changes the switch of the block hash reads. -/
theorem blockHashReads_step (answers : LocalAnswers) (use : Use) :
    (answers.step parseJson stringify use).blockHashReads = answers.blockHashReads := by
  cases use with
  | lookup request =>
    rw [step, lookup]
    split
    · rfl
    · split
      · rfl
      · split_ifs <;> rfl
  | observe request response =>
    rw [step, observe]
    split
    · rfl
    · split
      · split_ifs <;> rfl
      · exact blockHashReads_evictFrom ..

omit hround hline in
/-- A lookup is no observation. -/
theorem facts_lookup (blockHashReads : Bool) (uses : List Use) (request : PreparedRequest) :
    facts parseJson stringify blockHashReads (uses ++ [.lookup request]) =
      facts parseJson stringify blockHashReads uses := by
  rw [facts, List.filterMap_append]
  exact List.append_nil _

omit hround hline in
/-- An observation adds its fact, if it counts. -/
theorem facts_observe (blockHashReads : Bool) (uses : List Use) (request : PreparedRequest)
    (response : AnonFetchResponse) :
    facts parseJson stringify blockHashReads (uses ++ [.observe request response]) =
      facts parseJson stringify blockHashReads uses ++
        ((counted parseJson stringify blockHashReads request response).map fun fact =>
          (subjectOf fact.1, fact.2)).toList := by
  rw [facts, List.filterMap_append, List.filterMap_cons, List.filterMap_nil]
  dsimp only
  cases counted parseJson stringify blockHashReads request response <;> rfl

/-- While what counts is exact, every entry is backed: by induction on the calls, of which only an
answer that counts adds an entry or a fact. -/
theorem backed_after (blockHashReads : Bool) (uses : List Use)
    (hexact : ∀ fact ∈ facts parseJson stringify blockHashReads uses, ExactFact fact) :
    (after parseJson stringify blockHashReads uses).blockHashReads = blockHashReads ∧
      ∀ key entry, (after parseJson stringify blockHashReads uses).entries.get? key = some entry →
        Backed parseJson stringify (facts parseJson stringify blockHashReads uses) key entry := by
  induction uses using List.reverseRecOn with
  | nil => exact ⟨rfl, fun _ _ h => by cases h⟩
  | append_singleton uses use ih =>
    have hafter : after parseJson stringify blockHashReads (uses ++ [use]) =
        (after parseJson stringify blockHashReads uses).step parseJson stringify use := by
      rw [after, List.foldl_append]
      rfl
    have hbounded := @bounded_after parseJson stringify blockHashReads uses
    rw [hafter]
    cases use with
    | lookup request =>
      rw [facts_lookup] at hexact ⊢
      obtain ⟨hreads, hbacked⟩ := ih hexact
      exact ⟨(blockHashReads_step _ _).trans hreads, fun key entry hget =>
        hbacked key entry (get?_lookup hget)⟩
    | observe request response =>
      rw [facts_observe] at hexact ⊢
      obtain ⟨hreads, hbacked⟩ := ih fun fact hfact => hexact fact (List.mem_append_left _ hfact)
      refine ⟨(blockHashReads_step _ _).trans hreads, fun key entry hget => ?_⟩
      cases hcounted : counted parseJson stringify blockHashReads request response with
      | none =>
        rw [step, observe, hreads, hcounted] at hget
        rw [Option.map_none, Option.toList_none, List.append_nil]
        exact hbacked key entry hget
      | some fact =>
        rw [hcounted] at hexact
        rw [← hreads] at hcounted
        exact backed_observe hround hline hbounded hbacked hcounted hexact key entry hget

omit hround hline in
/-- What the call says stands in the body of the request. -/
theorem read_of_callOf {blockHashReads : Bool} {request : PreparedRequest} {call : LocalCall}
    (h : callOf parseJson blockHashReads request = some call) :
    ∃ fields, parseJson request.body = some (.object fields) ∧
      fields.lookup "method" = some (.string call.method) ∧ fields.lookup "id" = some call.id ∧
      paramsOf (.object fields) = call.params ∧ call.url = request.url := by
  obtain ⟨call', hcall', hkept⟩ := Option.bind_eq_some_iff.mp h
  split_ifs at hkept
  obtain rfl := Option.some.inj hkept
  rw [cacheableCall] at hcall'
  split_ifs at hcall'
  obtain ⟨value, hvalue, hcall⟩ := Option.bind_eq_some_iff.mp hcall'
  unfold readLocalCall at hcall
  split at hcall
  · next fields =>
    split at hcall
    · next method id _ hmethod hid =>
      split_ifs at hcall
      obtain ⟨kind, -, rfl⟩ := Option.map_eq_some_iff.mp hcall
      exact ⟨fields, hvalue, hmethod, hid, rfl, rfl⟩
    · cases hcall
  · cases hcall

/-- **A local answer is a confirmed answer.** While the answers that count are exact: an answer from
memory holds the text of a result that two observed answers to the same call had, with no other
result among those that counted since the first of them, and the text of the `id` of the request.
Both are read back as what they were, the `id` when it is exact. And the memory keeps its limits.
What is the same is what `JSON.parse` reads; a call without parameters and one whose parameters are
null have none.

`Backed` says of each entry in memory from which answers it was made, and is kept by every use. Two
keys are the same only for the same call, as what is exact is read back from its text
(`subjectKey_injective`). -/
theorem lookup_confirmed (blockHashReads : Bool) (uses : List Use) :
    ((∀ fact ∈ facts parseJson stringify blockHashReads uses, ExactFact fact) →
      ∀ request response kind,
      ((after parseJson stringify blockHashReads uses).lookup parseJson stringify request).2 =
        some (response, kind) →
      ∃ fields method id result,
        parseJson request.body = some (.object fields) ∧
        fields.lookup "method" = some (.string method) ∧ fields.lookup "id" = some id ∧
        response.status = 200 ∧
        response.body = Js.textEncode (answerText (stringify id) (stringify result)) ∧
        parseJson (Js.textEncode (stringify result)) = some result ∧
        (exact id = true → parseJson (Js.textEncode (stringify id)) = some id) ∧
        (exact (paramsOf (.object fields)) = true → ∃ before since,
          facts parseJson stringify blockHashReads uses =
            before ++ (⟨request.url, method, paramsOf (.object fields)⟩, result) :: since ∧
          (⟨request.url, method, paramsOf (.object fields)⟩, result) ∈ since ∧
          ∀ result', (⟨request.url, method, paramsOf (.object fields)⟩, result') ∈ since →
            result' = result)) ∧
    (after parseJson stringify blockHashReads uses).entries.size ≤ localAnswerMaxEntries ∧
    (after parseJson stringify blockHashReads uses).bytes =
      (after parseJson stringify blockHashReads uses).entries.sum (fun _ entry => weight entry) ∧
    (after parseJson stringify blockHashReads uses).bytes ≤ localAnswerMaxBytes := by
  have hbounded := @bounded_after parseJson stringify blockHashReads uses
  refine ⟨fun hexact request response kind h => ?_, hbounded.size_le, hbounded.bytes_eq,
    hbounded.bytes_le⟩
  obtain ⟨hreads, hbacked⟩ := backed_after hround hline blockHashReads uses hexact
  unfold lookup at h
  rw [hreads] at h
  split at h
  · cases h
  · next call hcall =>
    split at h
    · cases h
    · next entry hget =>
      split_ifs at h with hserved
      obtain ⟨rfl, -⟩ := Prod.mk.inj (Option.some.inj h)
      obtain ⟨subject, result, before, since, hfacts, hkey, hsubject, hresult, htext, -, htwice,
        hsame⟩ := hbacked _ entry hget
      obtain ⟨hparams, hvalue⟩ := hexact (subject, result) (by rw [hfacts]; simp)
      obtain ⟨fields, hbody, hmethod, hid, hasked, hurl⟩ := read_of_callOf hcall
      refine ⟨fields, call.method, call.id, result, hbody, hmethod, hid, rfl, by rw [htext],
        hround result hresult hvalue,
        hround call.id (.inr ⟨request.body, fields, "id", hbody, hid⟩), fun hparams' => ?_⟩
      -- with exact parameters the entry is one of the very call that is asked
      have hcallParams : exact call.params = true := by rw [← hasked]; exact hparams'
      obtain rfl := subjectKey_injective hround hline hsubject (sound_of_callOf hcall).1 hparams
        hcallParams hkey
      have hcalled : subjectOf call = ⟨request.url, call.method, paramsOf (.object fields)⟩ := by
        rw [subjectOf, hurl, hasked]
      rw [hcalled] at hfacts htwice hsame
      exact ⟨before, since, hfacts, htwice (of_decide_eq_true hserved), hsame⟩

end Texts

/-! ### A call without parameters -/

/-- `{"jsonrpc":"2.0","id":1,"method":"eth_chainId","params":[]}`. -/
private def askBody : Bytes :=
  [123, 34, 106, 115, 111, 110, 114, 112, 99, 34, 58, 34, 50, 46, 48, 34, 44, 34, 105, 100, 34, 58,
    49, 44, 34, 109, 101, 116, 104, 111, 100, 34, 58, 34, 101, 116, 104, 95, 99, 104, 97, 105, 110,
    73, 100, 34, 44, 34, 112, 97, 114, 97, 109, 115, 34, 58, 91, 93, 125]

/-- `{"jsonrpc":"2.0","id":1,"method":"eth_chainId","params":null}`. -/
private def nullBody : Bytes :=
  [123, 34, 106, 115, 111, 110, 114, 112, 99, 34, 58, 34, 50, 46, 48, 34, 44, 34, 105, 100, 34, 58,
    49, 44, 34, 109, 101, 116, 104, 111, 100, 34, 58, 34, 101, 116, 104, 95, 99, 104, 97, 105, 110,
    73, 100, 34, 44, 34, 112, 97, 114, 97, 109, 115, 34, 58, 110, 117, 108, 108, 125]

/-- `{"jsonrpc":"2.0","id":1,"result":"0x1"}`. -/
private def replyBody : Bytes :=
  [123, 34, 106, 115, 111, 110, 114, 112, 99, 34, 58, 34, 50, 46, 48, 34, 44, 34, 105, 100, 34, 58,
    49, 44, 34, 114, 101, 115, 117, 108, 116, 34, 58, 34, 48, 120, 49, 34, 125]

private def askFields (params : Json) : List (String × Json) :=
  [("jsonrpc", .string "2.0"), ("id", .number (.integer 1)), ("method", .string "eth_chainId"),
    ("params", params)]

private def replyFields : List (String × Json) :=
  [("jsonrpc", .string "2.0"), ("id", .number (.integer 1)), ("result", .string "0x1")]

/-- The values of the sample, with their texts. -/
private def sampleValues : List (Bytes × Json) :=
  [(Js.textEncode "[]", .array []), (Js.textEncode "null", .null),
    (Js.textEncode "1", .number (.integer 1)), (Js.textEncode "\"2.0\"", .string "2.0"),
    (Js.textEncode "\"eth_chainId\"", .string "eth_chainId"),
    (Js.textEncode "\"0x1\"", .string "0x1")]

/-- `JSON.parse` on the texts of the sample. -/
def parseSample (body : Bytes) : Option Json :=
  if body = askBody then some (.object (askFields (.array [])))
  else if body = nullBody then some (.object (askFields .null))
  else if body = replyBody then some (.object replyFields)
  else sampleValues.lookup body

/-- `JSON.stringify` on the values of the sample. -/
def sampleStringify : Json → String
  | .string text => "\"" ++ text ++ "\""
  | .number n => Json.numberText n
  | .array _ => "[]"
  | _ => "null"

/-- The parser of the sample returns the sample values only. -/
private theorem parsed_sample {value : Json} (h : Parsed parseSample value) :
    value ∈ sampleValues.map Prod.snd := by
  rcases h with rfl | ⟨body, fields, key, hbody, hvalue⟩
  · exact List.mem_cons_self
  have hmem : value ∈ fields.map Prod.snd := by
    obtain ⟨before, after, heq, -⟩ := List.lookup_eq_some_iff.mp hvalue
    rw [heq]
    simp
  rw [parseSample] at hbody
  split_ifs at hbody
  iterate 3
    obtain rfl := Json.object.inj (Option.some.inj hbody)
    simp only [askFields, replyFields, sampleValues, List.map_cons, List.map_nil, List.mem_cons,
      List.not_mem_nil, or_false] at hmem ⊢
    tauto
  obtain ⟨before, after, heq, -⟩ := List.lookup_eq_some_iff.mp hbody
  exact absurd (heq ▸ by simp : (body, Json.object fields) ∈ sampleValues) (by simp [sampleValues])

private def requestOf (body : Bytes) : PreparedRequest :=
  ⟨"POST", "https://rpc.example/", [], body, .follow,
    { otherProfile with method := some "eth_chainId" }⟩

private def sampleResponse : AnonFetchResponse :=
  ⟨200, [("content-type", "application/json")], replyBody, "https://rpc.example/"⟩

private def sampleUses : List Use :=
  [.observe (requestOf askBody) sampleResponse,
    .observe (requestOf askBody) sampleResponse]

/-- A call whose parameters are null is answered with what calls without any were answered. -/
theorem lookup_null_params :
    ((after parseSample sampleStringify false sampleUses).lookup parseSample sampleStringify
        (requestOf nullBody)).2.isSome = true ∧
      (parseSample (requestOf nullBody).body).bind (fun call => call.field "params") =
        some .null ∧
      ∀ request response, Use.observe request response ∈ sampleUses →
        (parseSample request.body).bind (fun call => call.field "params") = some (.array []) := by
  refine ⟨by decide +kernel, rfl, fun request response h => ?_⟩
  simp only [sampleUses, List.mem_cons, List.not_mem_nil, or_false, or_self,
    Use.observe.injEq] at h
  obtain ⟨rfl, -⟩ := h
  rfl

/-- A call is answered with what it was answered twice, under its own `id`. -/
theorem lookup_confirmed_sample : ∃ response kind id result before since,
    ((after parseSample sampleStringify false sampleUses).lookup parseSample sampleStringify
      (requestOf askBody)).2 = some (response, kind) ∧ response.status = 200 ∧
    response.body = Js.textEncode (answerText (sampleStringify id) (sampleStringify result)) ∧
    parseSample (Js.textEncode (sampleStringify result)) = some result ∧
    parseSample (Js.textEncode (sampleStringify id)) = some id ∧
    facts parseSample sampleStringify false sampleUses =
      before ++ (⟨"https://rpc.example/", "eth_chainId", .array []⟩, result) :: since ∧
    (⟨"https://rpc.example/", "eth_chainId", .array []⟩, result) ∈ since := by
  have hround : ∀ value, Parsed parseSample value → exact value = true →
      parseSample (Js.textEncode (sampleStringify value)) = some value := by
    intro value hvalue _
    have hvalues := parsed_sample hvalue
    simp only [sampleValues, List.map_cons, List.map_nil, List.mem_cons, List.not_mem_nil,
      or_false] at hvalues
    rcases hvalues with rfl | rfl | rfl | rfl | rfl | rfl <;> rfl
  have hline : ∀ value, Parsed parseSample value → '\n' ∉ (sampleStringify value).toList := by
    intro value hvalue
    have hvalues := parsed_sample hvalue
    simp only [sampleValues, List.map_cons, List.map_nil, List.mem_cons, List.not_mem_nil,
      or_false] at hvalues
    rcases hvalues with rfl | rfl | rfl | rfl | rfl | rfl <;> decide
  have hanswer : ((after parseSample sampleStringify false sampleUses).lookup parseSample
      sampleStringify (requestOf askBody)).2.isSome = true := by decide +kernel
  have hfacts : facts parseSample sampleStringify false sampleUses =
      [(⟨"https://rpc.example/", "eth_chainId", .array []⟩, .string "0x1"),
        (⟨"https://rpc.example/", "eth_chainId", .array []⟩, .string "0x1")] := rfl
  have hexact : ∀ fact ∈ facts parseSample sampleStringify false sampleUses, ExactFact fact := by
    rw [hfacts]
    simp [ExactFact, exact, exactItems]
  obtain ⟨⟨response, kind⟩, hlookup⟩ := Option.isSome_iff_exists.mp hanswer
  obtain ⟨fields, method, id, result, hbody, hmethod, hid, hstatus, htext, hresult, hread, hsame⟩ :=
    (lookup_confirmed hround hline false sampleUses).1 hexact _ response kind hlookup
  obtain rfl : askFields (.array []) = fields := Json.object.inj (Option.some.inj hbody)
  obtain rfl : "eth_chainId" = method := Json.string.inj (Option.some.inj hmethod)
  obtain rfl : Json.number (.integer 1) = id := Option.some.inj hid
  obtain ⟨before, since, hsplit, htwice, -⟩ := hsame rfl
  exact ⟨response, kind, _, result, before, since, hlookup, hstatus, htext, hresult, hread rfl,
    hsplit, htwice⟩

end LocalAnswers

end Json

end NoxSdk.Worker
