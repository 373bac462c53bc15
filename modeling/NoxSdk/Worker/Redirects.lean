import NoxSdk.Worker.Replies
import NoxSdk.Worker.Resends

/-!
# The hops of a call

A call goes from one URL to the next by the `Location` of each reply. `Chain` lists its hops: each
one but the first is what `redirectedRequest` makes of the one before, and what was handed over and
what was answered are the requests of the first of them. Whatever holds of one redirect, and
composes, then holds along the chain: method and body change only to a GET, a field that was
dropped does not come back, and the credentials of a URL stay on the origin that they were given
for.

The parser of URLs stays a parameter. `UrlRules` is what its standard says of `href`, and of the
user name and the password of a URL that is resolved against a base.
-/

namespace NoxSdk.Worker

open Lib

/-! ### URLs -/

/-- `username` and `password` of a URL. -/
structure Credentials where
  username : String
  password : String
  deriving DecidableEq

/-- `http:` or `https:`. -/
def Url.IsHttp (url : Url) : Prop := url.protocol = "http:" ∨ url.protocol = "https:"

/-- A parser of URLs, with the credentials of a URL and those that a `Location` writes itself, if it
has an authority against a base of the given scheme. -/
structure UrlParser extends Urls where
  credentials : String → Credentials
  written : String → String → Option Credentials

/-- What the standard says of a resolved http(s) URL: its `href` parses to it; its credentials are
the ones that the `Location` writes, and where it has no authority they and the origin are those of
the base. -/
structure UrlRules (urls : UrlParser) : Prop where
  reparse : ∀ location base url, urls.resolve location base = some url → url.IsHttp →
    urls.parse url.href = some url
  writes : ∀ location base from_base url, urls.parse base = some from_base → from_base.IsHttp →
    urls.resolve location base = some url → url.IsHttp → ∀ credentials,
    urls.written location from_base.protocol = some credentials →
      urls.credentials url.href = credentials
  inherits : ∀ location base from_base url, urls.parse base = some from_base → from_base.IsHttp →
    urls.resolve location base = some url → url.IsHttp →
    urls.written location from_base.protocol = none →
      urls.credentials url.href = urls.credentials base ∧ url.origin = from_base.origin

/-- The origin of a request. -/
def originOf (urls : Urls) (request : PreparedRequest) : Option String :=
  (urls.parse request.url).map Url.origin

/-- The request goes to an http(s) URL. -/
def ToHttp (urls : Urls) (request : PreparedRequest) : Prop :=
  ∃ url, urls.parse request.url = some url ∧ url.IsHttp

/-- A field that a redirect to another origin drops. -/
def CarriesFields (request : PreparedRequest) : Prop :=
  ∃ header ∈ request.headers, Js.toLowerCase header.1 ∈ crossOriginDroppedHeaders

/-! ### One redirect -/

section Redirect

variable {parseJson : Bytes → Option Js.Json} {urls : Urls} {request next : PreparedRequest}
  {status : ℕ} {location : String}

/-- The method and the body of a hop after a reply with a status: a GET without a body and without
fields about one, or those of the hop before. -/
def Rewritten (request : PreparedRequest) (status : ℕ) (next : PreparedRequest) : Prop :=
  if status = 303 ∧ request.method ≠ "GET" ∧ request.method ≠ "HEAD" ∨
      (status = 301 ∨ status = 302) ∧ request.method = "POST" then
    next.method = "GET" ∧ next.body = [] ∧
      ∀ header ∈ next.headers, Js.toLowerCase header.1 ∉ requestBodyHeaders
  else next.method = request.method ∧ next.body = request.body

theorem turnsToGet_iff {method : String} : turnsToGet method status = true ↔
    status = 303 ∧ method ≠ "GET" ∧ method ≠ "HEAD" ∨
      (status = 301 ∨ status = 302) ∧ method = "POST" := by
  rw [turnsToGet]
  split_ifs with hsee
  · simp [hsee]
  · simp [hsee]

/-- Fields are kept as they are, or dropped. -/
theorem keepHeaders_sublist (url : String) (headers : List (String × String)) :
    (keepHeaders urls request url headers).Sublist headers := by
  rw [keepHeaders]
  split_ifs
  · exact List.filter_sublist
  · exact List.Sublist.refl _

theorem notMem_dropHeaders {names : List String} {headers : List (String × String)}
    {header : String × String} (h : header ∈ dropHeaders names headers) :
    Js.toLowerCase header.1 ∉ names :=
  of_decide_eq_true (List.mem_filter.mp h).2

/-- The target of a redirect. -/
theorem redirectTarget_ok {base target : String}
    (h : redirectTarget urls location base = .ok target) :
    ∃ url, urls.resolve location base = some url ∧ url.IsHttp ∧ url.href = target := by
  rw [redirectTarget] at h
  split at h
  · cases h
  next url hresolve =>
    split_ifs at h with hscheme
    obtain rfl := Except.ok.inj h
    refine ⟨url, hresolve, ?_, rfl⟩
    by_contra hother
    exact hscheme (not_or.mp hother)

/-- What a redirect makes of a request. -/
theorem redirectedRequest_next
    (h : redirectedRequest parseJson urls request status location = .ok (some next)) :
    redirectTarget urls location request.url = .ok next.url ∧ Rewritten request status next ∧
      next.headers.Sublist request.headers ∧
      (originOf urls next ≠ originOf urls request → ¬CarriesFields next) := by
  have hcarries : ∀ (url : String) (headers : List (String × String)),
      (urls.parse url).map Url.origin ≠ (urls.parse request.url).map Url.origin →
      ¬∃ header ∈ keepHeaders urls request url headers,
        Js.toLowerCase header.1 ∈ crossOriginDroppedHeaders := by
    rintro url headers hother ⟨header, hheader, hcarried⟩
    rw [keepHeaders, if_pos hother] at hheader
    exact notMem_dropHeaders hheader hcarried
  rw [redirectedRequest] at h
  split at h
  · cases h
  next url hurl =>
    split_ifs at h with hget hwrite
    · cases Except.ok.inj h
    · obtain rfl := Option.some.inj (Except.ok.inj h)
      refine ⟨hurl, ?_, (keepHeaders_sublist url _).trans List.filter_sublist, hcarries _ _⟩
      rw [Rewritten, if_pos (turnsToGet_iff.mp hget)]
      exact ⟨rfl, rfl, fun header hheader =>
        notMem_dropHeaders ((keepHeaders_sublist url _).subset hheader)⟩
    · obtain rfl := Option.some.inj (Except.ok.inj h)
      refine ⟨hurl, ?_, keepHeaders_sublist url _, hcarries _ _⟩
      rw [Rewritten, if_neg fun hcase => hget (turnsToGet_iff.mpr hcase)]
      exact ⟨rfl, rfl⟩

end Redirect

/-! ### The chain of hops -/

/-- The request of an exchange, at its first attempt. -/
def Handed.firstAttempt : Handed → Option PreparedRequest
  | exit request _ => some request
  | tunnel request none => some request
  | tunnel _ (some _) => none

/-- The exchanges that a call made. -/
def FetchCall.exchanges (call : FetchCall) : List PreparedRequest :=
  call.handed.filterMap Handed.firstAttempt

/-- The exchange of the hop has not begun. -/
def Phase.isWaiting : Phase → Bool
  | .routing | .acquiring none => true
  | _ => false

/-- The exchange of the hop has begun, and the call goes on. -/
def Phase.isSent : Phase → Bool
  | .onExit | .onSession _ | .acquiring (some _) => true
  | _ => false

/-- The hops before the current one, and what links them to it. -/
structure Chain (parseJson : Bytes → Option Js.Json) (urls : Urls) (request : PreparedRequest)
    (call : FetchCall) (past : List PreparedRequest) : Prop where
  first : (past ++ [call.current]).head? = some request
  count : past.length = call.hop
  few : call.hop ≤ maxRedirectHops
  redirects : ∀ i before after, (past ++ [call.current])[i]? = some before →
    (past ++ [call.current])[i + 1]? = some after →
      ∃ reply location, call.replies[i]? = some (before, reply) ∧
        headerOf "location" reply.headers = some location ∧
        redirectedRequest parseJson urls before reply.status location = .ok (some after)
  waiting : call.phase.isWaiting = true → call.exchanges = past
  sent : call.phase.isSent = true → call.exchanges = past ++ [call.current]
  exchanged : call.exchanges <+: past ++ [call.current]
  answered : call.phase.isWaiting = true ∨ call.phase.isSent = true →
    call.replies.map Prod.fst = past
  handed : ∀ handed ∈ call.handed, handed.request ∈ past ++ [call.current]
  outcome : ∀ reply last, call.phase = .ended (.response reply last) →
    last = call.current ∧ call.replies.getLast? = some (call.current, reply)

section Chains

variable {parseJson : Bytes → Option Js.Json} {urls : Urls} {settings : FetchSettings}
  {request : PreparedRequest} {call call' : FetchCall} {past : List PreparedRequest}
  {remaining : ℕ}

namespace Chain

theorem start : Chain parseJson urls request (.start request remaining) [] where
  first := rfl
  count := rfl
  few := Nat.zero_le _
  redirects i before after _ hafter := by simp at hafter
  waiting _ := rfl
  sent h := by
    rw [FetchCall.start] at h
    split_ifs at h
    · cases h
    · cases h
  exchanged := List.nil_prefix
  answered _ := rfl
  handed handed h := by cases h
  outcome reply last h := by
    rw [FetchCall.start] at h
    split_ifs at h
    cases h

/-- A call fails. -/
theorem fail (h : Chain parseJson urls request call past) {error : CallError} :
    Chain parseJson urls request (call.finish (.failed error)) past :=
  ⟨h.first, h.count, h.few, h.redirects, nofun, nofun, h.exchanged,
    fun hphase => by simp [FetchCall.finish, Phase.isWaiting, Phase.isSent] at hphase, h.handed,
    nofun⟩

/-- The exchange of the hop begins, or is tried once more. -/
theorem hand (h : Chain parseJson urls request call past) {phase : Phase} {handed : Handed}
    (hhanded : handed.request = call.current) (hsent : phase.isSent = true)
    (hphase : call.phase.isWaiting = true ∧ handed.firstAttempt = some call.current ∨
      call.phase.isSent = true ∧ handed.firstAttempt = none) :
    Chain parseJson urls request { call with phase, handed := call.handed ++ [handed] } past := by
  have hexchanges : (call.handed ++ [handed]).filterMap Handed.firstAttempt =
      past ++ [call.current] := by
    rw [List.filterMap_append]
    rcases hphase with ⟨hwaiting, hfirst⟩ | ⟨hbegun, hfirst⟩
    · rw [show call.handed.filterMap Handed.firstAttempt = past from h.waiting hwaiting]
      simp [hfirst]
    · rw [show call.handed.filterMap Handed.firstAttempt = _ from h.sent hbegun]
      simp [hfirst]
  have hnot : phase.isWaiting = false := by
    unfold Phase.isSent at hsent
    split at hsent
    all_goals first | rfl | cases hsent
  refine ⟨h.first, h.count, h.few, h.redirects, fun hwaiting => ?_, fun _ => hexchanges,
    hexchanges ▸ List.prefix_refl _, fun _ => h.answered (hphase.imp And.left And.left),
    fun other hother => ?_, fun reply last hended => ?_⟩
  · rw [hnot] at hwaiting
    cases hwaiting
  · rcases List.mem_append.mp hother with hold | hnew
    · exact h.handed other hold
    · rw [List.mem_singleton.mp hnew, hhanded]
      exact List.mem_append_right _ List.mem_cons_self
  · rw [show phase = _ from hended] at hsent
    cases hsent

/-- The call waits for a session, once more after a failed attempt. -/
theorem acquire (h : Chain parseJson urls request call past) {after : Option TunnelFailure}
    (hphase : call.phase.isWaiting = true ∧ after = none ∨
      call.phase.isSent = true ∧ after.isSome = true) :
    Chain parseJson urls request { call with phase := .acquiring after } past := by
  refine ⟨h.first, h.count, h.few, h.redirects, fun hwaiting => ?_, fun hsent => ?_, h.exchanged,
    fun _ => h.answered (hphase.imp And.left And.left), h.handed, nofun⟩
  · rcases hphase with ⟨hbefore, -⟩ | ⟨-, hafter⟩
    · exact h.waiting hbefore
    · cases after with
      | none => cases hafter
      | some failure => cases hwaiting
  · rcases hphase with ⟨-, rfl⟩ | ⟨hbefore, -⟩
    · cases hsent
    · exact h.sent hbefore

/-- The call ends with the reply of its hop. -/
theorem reply (h : Chain parseJson urls request call past) (hsent : call.phase.isSent = true)
    {reply : DecodedHttpResponse} {outcome : CallOutcome}
    (houtcome : ∀ other last, outcome = .response other last →
      other = reply ∧ last = call.current) :
    Chain parseJson urls request
      ({ call with replies := call.replies ++ [(call.current, reply)] }.finish outcome) past := by
  have hreplies := h.answered (.inr hsent)
  refine ⟨h.first, h.count, h.few, fun i before after hbefore hafter => ?_, nofun, nofun,
    h.exchanged, fun hphase => ?_, h.handed, fun other last hended => ?_⟩
  · obtain ⟨answer, location, hanswer, hrest⟩ := h.redirects i before after hbefore hafter
    exact ⟨answer, location, List.getElem?_append_left (List.getElem?_eq_some_iff.mp hanswer).1 ▸
      hanswer, hrest⟩
  · simp [FetchCall.finish, Phase.isWaiting, Phase.isSent] at hphase
  · obtain ⟨rfl, rfl⟩ := houtcome other last (Phase.ended.inj hended)
    exact ⟨rfl, List.getLast?_concat⟩

/-- The call follows a redirect. -/
theorem redirect (h : Chain parseJson urls request call past) (hsent : call.phase.isSent = true)
    {reply : DecodedHttpResponse} {location : String} {next : PreparedRequest}
    (hlocation : headerOf "location" reply.headers = some location)
    (hnext : redirectedRequest parseJson urls call.current reply.status location = .ok (some next))
    (hfew : call.hop + 1 ≤ maxRedirectHops) :
    Chain parseJson urls request
      { call with
        replies := call.replies ++ [(call.current, reply)]
        current := next
        hop := call.hop + 1
        phase := .routing } (past ++ [call.current]) := by
  have hreplies := h.answered (.inr hsent)
  have hlength : call.replies.length = past.length := by rw [← hreplies, List.length_map]
  have hfirst : (past ++ [call.current] ++ [next]).head? = some request := by
    rw [List.head?_append, h.first, Option.some_or]
  refine ⟨hfirst, ?_, hfew, fun i before after hbefore hafter => ?_, fun _ => h.sent hsent, nofun,
    (h.sent hsent) ▸ List.prefix_append _ _, fun _ => ?_, fun handed hhanded => ?_, nofun⟩
  · rw [List.length_append, h.count]
    rfl
  · rcases lt_trichotomy (i + 1) (past ++ [call.current]).length with hlt | heq | hgt
    · rw [List.getElem?_append_left (Nat.lt_of_succ_lt hlt)] at hbefore
      rw [List.getElem?_append_left hlt] at hafter
      obtain ⟨answer, other, hanswer, hrest⟩ := h.redirects i before after hbefore hafter
      exact ⟨answer, other, List.getElem?_append_left (List.getElem?_eq_some_iff.mp hanswer).1 ▸
        hanswer, hrest⟩
    · -- the new hop
      have hi : i = past.length := by simpa using heq
      subst hi
      simp only [List.append_assoc, List.getElem?_append_right le_rfl, Nat.sub_self,
        List.cons_append, List.nil_append, List.getElem?_cons_zero, Option.some.injEq] at hbefore
      rw [heq, List.getElem?_append_right le_rfl, Nat.sub_self, List.getElem?_cons_zero,
        Option.some.injEq] at hafter
      subst hbefore hafter
      refine ⟨reply, location, ?_, hlocation, hnext⟩
      rw [← hlength, List.getElem?_append_right le_rfl, Nat.sub_self]
      rfl
    · have hbound := (List.getElem?_eq_some_iff.mp hafter).1
      rw [List.length_append, List.length_singleton] at hbound
      omega
  · rw [List.map_append, hreplies]
    rfl
  · exact List.mem_append_left _ (h.handed handed hhanded)

/-- What is done with the reply of a hop. -/
theorem afterReply (h : Chain parseJson urls request call past) (hsent : call.phase.isSent = true)
    (reply : DecodedHttpResponse) :
    ∃ past', Chain parseJson urls request (call.afterReply parseJson urls reply remaining)
      past' := by
  have hfailed : ∀ error, ∃ past', Chain parseJson urls request
      ({ call with replies := call.replies ++ [(call.current, reply)] }.finish (.failed error))
        past' := fun error => ⟨past, h.reply hsent nofun⟩
  have hresponse : ∃ past', Chain parseJson urls request
      ({ call with replies := call.replies ++ [(call.current, reply)] }.finish
        (.response reply call.current)) past' := by
    refine ⟨past, h.reply hsent fun other last heq => ?_⟩
    obtain ⟨rfl, rfl⟩ := CallOutcome.response.inj heq
    exact ⟨rfl, rfl⟩
  rw [FetchCall.afterReply]
  dsimp only
  split
  · exact hfailed _
  split_ifs
  · exact hresponse
  · exact hfailed _
  split
  · exact hresponse
  next location hlocation =>
    split
    · exact hfailed _
    · exact hresponse
    next next hnext =>
      rw [FetchCall.follow]
      split_ifs with hmany htime
      · exact hfailed _
      · exact hfailed _
      · exact ⟨_, h.redirect hsent hlocation hnext (not_lt.mp hmany)⟩

theorem step (h : Chain parseJson urls request call past) {event : FetchEvent}
    (hstep : fetchStep parseJson urls settings call event = some call') :
    ∃ past', Chain parseJson urls request call' past' := by
  unfold fetchStep at hstep
  split at hstep <;> rename_i hphase
  · exact ⟨past, Option.some.inj hstep ▸ h.fail⟩
  · obtain rfl := Option.some.inj hstep
    exact ⟨past, h.hand rfl rfl (.inl ⟨by rw [hphase]; rfl, rfl⟩)⟩
  · obtain rfl := Option.some.inj hstep
    exact ⟨past, h.acquire (.inl ⟨by rw [hphase]; rfl, rfl⟩)⟩
  · exact ⟨past, Option.some.inj hstep ▸ h.fail⟩
  · obtain rfl := Option.some.inj hstep
    exact h.afterReply (by rw [hphase]; rfl) _
  · exact ⟨past, Option.some.inj hstep ▸ h.fail⟩
  next before =>
    obtain rfl := Option.some.inj hstep
    refine ⟨past, h.hand rfl rfl ?_⟩
    cases before with
    | none => exact .inl ⟨by rw [hphase]; rfl, rfl⟩
    | some failure => exact .inr ⟨by rw [hphase]; rfl, rfl⟩
  · obtain rfl := Option.some.inj hstep
    rw [FetchCall.afterFailure]
    split_ifs
    · exact ⟨past, h.fail⟩
    · exact ⟨past, h.acquire (.inr ⟨by rw [hphase]; rfl, rfl⟩)⟩
  · obtain rfl := Option.some.inj hstep
    have htunnel : Chain parseJson urls request { call with onTunnel := true } past :=
      ⟨h.first, h.count, h.few, h.redirects, h.waiting, h.sent, h.exchanged, h.answered, h.handed,
        h.outcome⟩
    exact htunnel.afterReply (by rw [hphase]; rfl) _
  · cases hstep

/-- Every call of a run has its chain. -/
theorem of_run (hrun : Run (fetchStep parseJson urls settings) (.start request remaining) call) :
    ∃ past, Chain parseJson urls request call past :=
  hrun.invariant ⟨[], start⟩ fun _ _ _ hbefore hstep =>
    hbefore.elim fun _ hchain => hchain.step hstep

end Chain

end Chains

/-! ### Along the chain -/

/-- The credentials of the URL of hop `j` were given for hop `i`, by the call or by the `Location`
that led there, and every hop from there on has the origin of hop `j`. -/
def CredentialsGiven (urls : UrlParser) (call : FetchCall) (hops : List PreparedRequest) (i j : ℕ) :
    Prop :=
  i ≤ j ∧ ∃ giver hop, hops[i]? = some giver ∧ hops[j]? = some hop ∧
    urls.credentials hop.url = urls.credentials giver.url ∧
    (∀ k between, i ≤ k → k ≤ j → hops[k]? = some between →
      originOf urls.toUrls between = originOf urls.toUrls hop) ∧
    (i = 0 ∨ ∃ before reply location base, call.replies[i - 1]? = some (before, reply) ∧
      headerOf "location" reply.headers = some location ∧ urls.parse before.url = some base ∧
      urls.written location base.protocol = some (urls.credentials giver.url))

/-- What is to hold of the hops of a call. -/
structure HopsKept (urls : UrlParser) (request : PreparedRequest) (call : FetchCall)
    (hops : List PreparedRequest) : Prop where
  first : hops.head? = some request
  few : hops.length ≤ maxRedirectHops + 1
  exchanged : call.exchanges <+: hops
  handed : ∀ handed ∈ call.handed, handed.request ∈ hops
  http : ∀ hop ∈ hops, ToHttp urls.toUrls hop
  rewritten : ∀ i before after, hops[i]? = some before → hops[i + 1]? = some after →
    ∃ reply, call.replies[i]? = some (before, reply) ∧ Rewritten before reply.status after
  fields : ∀ i j before after later, hops[i]? = some before → hops[i + 1]? = some after →
    originOf urls.toUrls after ≠ originOf urls.toUrls before → i < j → hops[j]? = some later →
      ¬CarriesFields later
  credentials : ∀ j < hops.length, ∃ i, CredentialsGiven urls call hops i j
  returned : ∀ reply last, call.phase = .ended (.response reply last) →
    hops.getLast? = some last ∧ call.replies.getLast? = some (last, reply) ∧
      ∀ inflate maxResponseBytes response,
        finishResponse inflate reply last.url maxResponseBytes = .ok response →
          response.url = last.url

section Hops

variable {parseJson : Bytes → Option Js.Json} {urls : UrlParser} {settings : FetchSettings}
  {request : PreparedRequest} {call : FetchCall} {past : List PreparedRequest} {remaining : ℕ}

/-- A redirect of a hop to an http(s) URL goes to one, with the credentials that the `Location`
writes or with those of the hop on its origin. -/
theorem redirect_url (rules : UrlRules urls) {before after : PreparedRequest} {status : ℕ}
    {location : String} (hbefore : ToHttp urls.toUrls before)
    (h : redirectedRequest parseJson urls.toUrls before status location = .ok (some after)) :
    ToHttp urls.toUrls after ∧ ∃ base, urls.parse before.url = some base ∧
      (urls.written location base.protocol = some (urls.credentials after.url) ∨
        urls.credentials after.url = urls.credentials before.url ∧
          originOf urls.toUrls after = originOf urls.toUrls before) := by
  obtain ⟨base, hbase, hbase_http⟩ := hbefore
  obtain ⟨htarget, -⟩ := redirectedRequest_next h
  obtain ⟨url, hresolve, hhttp, hhref⟩ := redirectTarget_ok htarget
  have hparse : urls.parse after.url = some url :=
    hhref ▸ rules.reparse location before.url url hresolve hhttp
  refine ⟨⟨url, hparse, hhttp⟩, base, hbase, ?_⟩
  cases hwritten : urls.written location base.protocol with
  | some credentials =>
    have hgiven := rules.writes location before.url base url hbase hbase_http hresolve hhttp
      credentials hwritten
    rw [hhref] at hgiven
    exact .inl (by rw [hgiven])
  | none =>
    obtain ⟨hsame, horigin⟩ := rules.inherits location before.url base url hbase hbase_http hresolve
      hhttp hwritten
    rw [hhref] at hsame
    refine .inr ⟨hsame, ?_⟩
    rw [originOf, originOf, hparse, hbase, Option.map_some, Option.map_some, horigin]

/-- Every hop goes to an http(s) URL. -/
theorem Chain.http (h : Chain parseJson urls.toUrls request call past) (rules : UrlRules urls)
    (hrequest : ToHttp urls.toUrls request) :
    ∀ (j : ℕ) (hop : PreparedRequest), (past ++ [call.current])[j]? = some hop →
      ToHttp urls.toUrls hop := by
  intro j
  induction j with
  | zero =>
    intro hop hhop
    rw [← List.head?_eq_getElem?, h.first] at hhop
    exact Option.some.inj hhop ▸ hrequest
  | succ j ih =>
    intro hop hhop
    obtain ⟨before, hbefore⟩ : ∃ before, (past ++ [call.current])[j]? = some before :=
      ⟨_, List.getElem?_eq_getElem (Nat.lt_of_succ_lt (List.getElem?_eq_some_iff.mp hhop).1)⟩
    obtain ⟨reply, location, -, -, hnext⟩ := h.redirects j before hop hbefore hhop
    exact (redirect_url rules (ih before hbefore) hnext).1

/-- A field that was dropped does not come back. -/
theorem Chain.fields (h : Chain parseJson urls.toUrls request call past) {i : ℕ}
    {before after : PreparedRequest} (hbefore : (past ++ [call.current])[i]? = some before)
    (hafter : (past ++ [call.current])[i + 1]? = some after)
    (horigin : originOf urls.toUrls after ≠ originOf urls.toUrls before) :
    ∀ j, i < j → ∀ later, (past ++ [call.current])[j]? = some later → ¬CarriesFields later := by
  intro j hij
  induction j, hij using Nat.le_induction with
  | base =>
    intro later hlater
    obtain rfl := Option.some.inj (hafter.symm.trans hlater)
    obtain ⟨reply, location, -, -, hnext⟩ := h.redirects i before after hbefore hafter
    exact (redirectedRequest_next hnext).2.2.2 horigin
  | succ j hij ih =>
    intro later hlater
    obtain ⟨hop, hhop⟩ : ∃ hop, (past ++ [call.current])[j]? = some hop :=
      ⟨_, List.getElem?_eq_getElem (Nat.lt_of_succ_lt (List.getElem?_eq_some_iff.mp hlater).1)⟩
    obtain ⟨reply, location, -, -, hnext⟩ := h.redirects j hop later hhop hlater
    rintro ⟨header, hheader, hcarried⟩
    exact ih hop hhop ⟨header, (redirectedRequest_next hnext).2.2.1.subset hheader, hcarried⟩

/-- The credentials of a hop were given for its origin. -/
theorem Chain.credentials (h : Chain parseJson urls.toUrls request call past)
    (rules : UrlRules urls) (hrequest : ToHttp urls.toUrls request) :
    ∀ j < (past ++ [call.current]).length,
      ∃ i, CredentialsGiven urls call (past ++ [call.current]) i j := by
  intro j
  induction j with
  | zero =>
    intro hlength
    have hhop := List.getElem?_eq_getElem hlength
    refine ⟨0, le_rfl, _, _, hhop, hhop, rfl, fun k between _ hk hbetween => ?_, .inl rfl⟩
    obtain rfl := Nat.le_zero.mp hk
    rw [Option.some.inj (hbetween.symm.trans hhop)]
  | succ j ih =>
    intro hlength
    have hhop := List.getElem?_eq_getElem hlength
    have hbefore := List.getElem?_eq_getElem (Nat.lt_of_succ_lt hlength)
    obtain ⟨reply, location, hreply, hlocation, hnext⟩ := h.redirects j _ _ hbefore hhop
    obtain ⟨-, base, hbase, hwritten | ⟨hsame, horigin⟩⟩ :=
      redirect_url rules (h.http rules hrequest j _ hbefore) hnext
    · -- the `Location` writes them
      refine ⟨j + 1, le_rfl, _, _, hhop, hhop, rfl, fun k between hjk hkj hbetween => ?_,
        .inr ⟨_, reply, location, base, hreply, hlocation, hbase, hwritten⟩⟩
      obtain rfl := le_antisymm hkj hjk
      rw [Option.some.inj (hbetween.symm.trans hhop)]
    · obtain ⟨i, hij, giver, hop, hgiver, hhop_j, hgiven, hbetween, hfrom⟩ :=
        ih (Nat.lt_of_succ_lt hlength)
      obtain rfl := Option.some.inj (hhop_j.symm.trans hbefore)
      refine ⟨i, hij.trans (Nat.le_succ j), giver, _, hgiver, hhop, hsame.trans hgiven,
        fun k between hik hkj hk => ?_, hfrom⟩
      rcases Nat.lt_or_eq_of_le hkj with hlt | rfl
      · exact (hbetween k between hik (Nat.le_of_lt_succ hlt) hk).trans horigin.symm
      · rw [Option.some.inj (hk.symm.trans hhop)]

/-- `finishResponse` returns the URL that it is given. -/
theorem url_of_finishResponse {inflate : Option (Bytes → Inflated)} {reply : DecodedHttpResponse}
    {url : String} {maxResponseBytes : ℕ} {response : AnonFetchResponse}
    (h : finishResponse inflate reply url maxResponseBytes = .ok response) :
    response.url = url := by
  obtain ⟨_, -, h⟩ := bind_eq_ok_iff.mp h
  obtain ⟨_, -, h⟩ := bind_eq_ok_iff.mp h
  obtain ⟨inflated, -, h⟩ := bind_eq_ok_iff.mp h
  exact (toAnonResponse_ok h).2.2.1

theorem Chain.hopsKept (h : Chain parseJson urls.toUrls request call past) (rules : UrlRules urls)
    (hrequest : ToHttp urls.toUrls request) :
    HopsKept urls request call (past ++ [call.current]) where
  first := h.first
  few := by
    rw [List.length_append, h.count]
    exact Nat.add_le_add_right h.few 1
  exchanged := h.exchanged
  handed := h.handed
  http hop hhop := by
    obtain ⟨j, hj⟩ := List.mem_iff_getElem?.mp hhop
    exact h.http rules hrequest j hop hj
  rewritten i before after hbefore hafter := by
    obtain ⟨reply, location, hreply, -, hnext⟩ := h.redirects i before after hbefore hafter
    exact ⟨reply, hreply, (redirectedRequest_next hnext).2.1⟩
  fields i j before after later hbefore hafter horigin hij hlater :=
    h.fields hbefore hafter horigin j hij later hlater
  credentials := h.credentials rules hrequest
  returned reply last hended := by
    obtain ⟨rfl, hreply⟩ := h.outcome reply last hended
    exact ⟨List.getLast?_concat, hreply, fun _ _ _ => url_of_finishResponse⟩

end Hops

/-- Redirects are bounded and keep what belongs to an origin there, whatever the replies: at every
state of every run of a call to an http(s) URL its hops are few, each is the one before rewritten,
and neither the fields nor the credentials of an origin that was left come back.

The invariant (`HopsKept`) has the list of hops of a call with the reason for each. A redirect to
another origin drops the fields and the credentials, and a later one only drops more. -/
theorem redirects_kept (parseJson : Bytes → Option Js.Json) (urls : UrlParser)
    (settings : FetchSettings) (rules : UrlRules urls) (request : PreparedRequest)
    (hrequest : ToHttp urls.toUrls request) (remaining : ℕ) (call : FetchCall)
    (hrun : Run (fetchStep parseJson urls.toUrls settings) (.start request remaining) call) :
    ∃ hops, HopsKept urls request call hops :=
  (Chain.of_run hrun).elim fun _ hchain => ⟨_, hchain.hopsKept rules hrequest⟩

/-! ### Away and back -/

private def urlA : Url := ⟨"https:", "https://a.example", "https://user:pw@a.example/"⟩

private def urlNext : Url := ⟨"https:", "https://a.example", "https://user:pw@a.example/next"⟩

private def urlB : Url := ⟨"https:", "https://b.example", "https://b.example/"⟩

private def urlBack : Url := ⟨"https:", "https://a.example", "https://a.example/back"⟩

/-- What the parser makes of the URLs of the sample. -/
private def hopsParser : UrlParser where
  parse text := [urlA, urlNext, urlB, urlBack].find? (·.href == text)
  resolve location base :=
    if location = "/next" ∧ base = urlA.href then some urlNext
    else if location = "//b.example/" then some urlB
    else if location = "https://a.example/back" then some urlBack
    else none
  credentials text :=
    if text = urlA.href ∨ text = urlNext.href then ⟨"user", "pw"⟩ else ⟨"", ""⟩
  written location _ := if location = "/next" then none else some ⟨"", ""⟩

private theorem hopsParser_cases {location base : String} {url : Url}
    (h : hopsParser.resolve location base = some url) :
    (location = "/next" ∧ base = urlA.href ∧ url = urlNext) ∨
      location ≠ "/next" ∧ (url = urlB ∨ url = urlBack) := by
  simp only [hopsParser] at h
  split_ifs at h with hnext hother hback
  · exact .inl ⟨hnext.1, hnext.2, (Option.some.inj h).symm⟩
  · exact .inr ⟨by rw [hother]; decide, .inl (Option.some.inj h).symm⟩
  · exact .inr ⟨by rw [hback]; decide, .inr (Option.some.inj h).symm⟩

private theorem hopsParser_rules : UrlRules hopsParser where
  reparse location base url h _ := by
    rcases hopsParser_cases h with ⟨-, -, rfl⟩ | ⟨-, rfl | rfl⟩
    · decide
    · decide
    · decide
  writes location base from_base url hbase _ h _ credentials hwritten := by
    rcases hopsParser_cases h with ⟨rfl, -, -⟩ | ⟨hne, rfl | rfl⟩
    · cases hwritten
    · simp only [hopsParser, if_neg hne, Option.some.injEq] at hwritten
      exact hwritten ▸ by decide
    · simp only [hopsParser, if_neg hne, Option.some.injEq] at hwritten
      exact hwritten ▸ by decide
  inherits location base from_base url hbase _ h _ hwritten := by
    rcases hopsParser_cases h with ⟨rfl, rfl, rfl⟩ | ⟨hne, -⟩
    · have hfrom : hopsParser.parse urlA.href = some urlA := by decide
      obtain rfl := Option.some.inj (hfrom.symm.trans hbase)
      decide
    · simp only [hopsParser, if_neg hne] at hwritten
      cases hwritten

private def hopsRequest : PreparedRequest :=
  prepared (fun _ => none) "GET" urlA.href [("authorization", "Bearer token")] [] .follow

private def movedTo (location : String) : DecodedHttpResponse :=
  ⟨302, [("location", location)], [], false⟩

/-- The call is sent to a path of its origin, to another origin, and back. -/
private def hopsEvents : List FetchEvent :=
  [.routed (.ok .http) 9000, .exitAnswered (.ok (movedTo "/next")) 8000,
    .routed (.ok .http) 8000, .exitAnswered (.ok (movedTo "//b.example/")) 7000,
    .routed (.ok .http) 7000, .exitAnswered (.ok (movedTo "https://a.example/back")) 6000,
    .routed (.ok .http) 6000, .exitAnswered (.ok ⟨200, [], [], false⟩) 5000]

theorem redirects_kept_sample : ∃ call,
    runEvents (fetchStep (fun _ => none) hopsParser.toUrls ⟨30000, 1048576⟩)
        (.start hopsRequest 9000) hopsEvents = some call ∧
      call.exchanges.map (fun hop => (hop.url, hop.headers)) =
        [(urlA.href, [("authorization", "Bearer token")]),
          (urlNext.href, [("authorization", "Bearer token")]), (urlB.href, []),
          (urlBack.href, [])] ∧
      ∃ hops, HopsKept hopsParser hopsRequest call hops := by
  refine ⟨_, rfl, rfl, ?_⟩
  have hrequest : ToHttp hopsParser.toUrls hopsRequest := ⟨urlA, by decide, .inr rfl⟩
  exact redirects_kept _ hopsParser ⟨30000, 1048576⟩ hopsParser_rules hopsRequest hrequest 9000 _
    (@run_of_runEvents _ _ _ _ _ hopsEvents rfl)

end NoxSdk.Worker
