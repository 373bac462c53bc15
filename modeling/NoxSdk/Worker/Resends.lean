import NoxSdk.Worker.FetchCall

/-!
# Only reads are resent

A call that holds a write keeps its method and its body over every redirect and is sent once; what
may have been written is sent again only when it holds reads and nothing else. Two steps break
this: a redirect to GET of a batch that mixes a write with an unlisted method, which is then no
`write`, and a refusal of the only copy of a later exchange of a request, which `retriable` takes
for a refusal of the request. `Spared` is the condition that neither happens.
-/

namespace NoxSdk.Worker

open NoxSdk.Lib Tls

section Requests

variable (parseJson : Bytes → Option Js.Json) (urls : Urls) (request : PreparedRequest)

/-- The calls in the body of a request. -/
def callsIn : Option (Bool × List RpcCall) :=
  rpcCalls parseJson request.method (headerOf "content-type" request.headers) request.body

/-- The body holds a call of a kind. -/
def Holds (kind : RpcCall → Prop) : Prop :=
  ∃ batch calls, callsIn parseJson request = some (batch, calls) ∧ ∃ call ∈ calls, kind call

/-- Every call of the body is a listed small or medium read. -/
def OnlyReads : Prop :=
  ∃ batch calls, callsIn parseJson request = some (batch, calls) ∧ ∀ call ∈ calls, call.IsRead

/-- The reply is a redirect that the call follows with a GET. -/
def AsksGet (reply : DecodedHttpResponse) : Prop :=
  request.redirect = .follow ∧ turnsToGet request.method reply.status = true ∧
    ∃ location target, headerOf "location" reply.headers = some location ∧
      redirectTarget urls location request.url = .ok target

end Requests

/-- The request of the failed attempt may have reached the upstream: the exit did not refuse its
only copy, or an exchange before that one had carried it. -/
def TunnelFailure.MayBeWritten (failure : TunnelFailure) : Prop :=
  ¬(failure.error.refusedUnwritten = true ∧ failure.earlier = 0)

section Calls

variable (parseJson : Bytes → Option Js.Json) (urls : Urls) (request : PreparedRequest)
  (call : FetchCall)

/-- A write goes out once, as it is; a redirect that would turn it into a GET is returned. -/
structure WriteKept : Prop where
  exit_retry : ∀ sent options, .exit sent options ∈ call.handed → options.retry = .none
  not_retryable : ∀ sent after, .tunnel sent after ∈ call.handed →
    sent.profile.retryable = false
  same : ∀ handed ∈ call.handed,
    handed.request.method = request.method ∧ handed.request.body = request.body
  returned : ∀ answered ∈ call.replies, AsksGet urls answered.1 answered.2 →
    call.phase = .ended (.response answered.2 answered.1)

/-- A POST that may have been written is sent again only when it holds reads. -/
structure ReadsResent : Prop where
  exit_retry : ∀ sent options, .exit sent options ∈ call.handed → sent.method = "POST" →
    options.retry = .route → OnlyReads parseJson sent
  resent : ∀ sent failure, .tunnel sent (some failure) ∈ call.handed → sent.method = "POST" →
    failure.MayBeWritten → OnlyReads parseJson sent

/-- What a call keeps. -/
def Kept : Prop :=
  (Holds parseJson request RpcCall.IsWrite → WriteKept urls request call) ∧
    ReadsResent parseJson call

/-- The event is neither a redirect to GET of a write beside an unlisted call, nor the refusal of
the only copy of a later exchange that has a POST retried though it does not only read. -/
def Spared : FetchEvent → Prop
  | .exitAnswered (.ok reply) _ | .sessionAnswered (.ok reply) _ =>
    ¬(Holds parseJson call.current RpcCall.IsWrite ∧
      Holds parseJson call.current RpcCall.IsUnlisted ∧ AsksGet urls call.current reply)
  | .sessionAnswered (.error failure) remaining =>
    ¬(call.current.method = "POST" ∧ ¬OnlyReads parseJson call.current ∧
      failure.error.refusedUnwritten = true ∧ failure.earlier ≠ 0 ∧ failure.aborted = false ∧
      call.phase = .onSession none ∧ remaining ≠ 0)
  | _ => True

end Calls

variable {parseJson : Bytes → Option Js.Json} {urls : Urls} {settings : FetchSettings}
  {request : PreparedRequest} {call call' : FetchCall} {reply : DecodedHttpResponse}
  {remaining : ℕ}

/-! ### Profiles and redirects -/

/-- The profile is the one of the request. -/
def Profiled (parseJson : Bytes → Option Js.Json) (request : PreparedRequest) : Prop :=
  request.profile = profileOf parseJson request.method request.headers request.body

theorem Profiled.retryable_iff (h : Profiled parseJson request) :
    request.profile.retryable = true ↔ OnlyReads parseJson request := by
  rw [h, profileOf]
  rcases hcalls : callsIn parseJson request with _ | ⟨batch, calls⟩
  · refine iff_of_false ?_ ?_
    · rw [profileRequest, show rpcCalls .. = none from hcalls]
      exact Bool.false_ne_true
    · rintro ⟨_, _, hsome, -⟩
      exact Option.some_ne_none _ (hsome.symm.trans hcalls)
  · rw [profileRequest_retryable_iff hcalls]
    constructor
    · exact fun hreads => ⟨batch, calls, hcalls, hreads⟩
    · rintro ⟨_, _, hsome, hreads⟩
      obtain ⟨rfl, rfl⟩ := Prod.mk.inj (Option.some.inj (hcalls.symm.trans hsome))
      exact hreads

theorem Profiled.not_retryable (h : Profiled parseJson request)
    (hwrite : Holds parseJson request RpcCall.IsWrite) : request.profile.retryable = false := by
  obtain ⟨batch, calls, hcalls, hwrite⟩ := hwrite
  rw [h]
  exact profileRequest_of_isWrite hcalls hwrite

theorem Profiled.write_iff (h : Profiled parseJson request)
    (hwrite : Holds parseJson request RpcCall.IsWrite) :
    request.profile.rpcClass = .write ↔ ¬Holds parseJson request RpcCall.IsUnlisted := by
  obtain ⟨batch, calls, hcalls, hwrite⟩ := hwrite
  rw [h]
  refine (profileRequest_write_iff hcalls hwrite).trans ?_
  constructor
  · rintro hlisted ⟨_, _, hsome, other, hother, hunlisted⟩
    obtain ⟨rfl, rfl⟩ := Prod.mk.inj (Option.some.inj (hcalls.symm.trans hsome))
    exact hlisted other hother hunlisted
  · exact fun hnone other hother hunlisted => hnone ⟨batch, calls, hcalls, other, hother, hunlisted⟩

theorem Holds.post {kind : RpcCall → Prop} (h : Holds parseJson request kind) :
    request.method = "POST" := by
  obtain ⟨_, _, hcalls, -⟩ := h
  exact rpcCalls_method hcalls

theorem headerOf_dropHeaders {name : String} {names : List String}
    {headers : List (String × String)} (h : name ∉ names) :
    headerOf name (dropHeaders names headers) = headerOf name headers := by
  rw [headerOf, dropHeaders, List.find?_filter, headerOf]
  congr 2
  funext header
  by_cases hname : Js.toLowerCase header.1 = name
  · simp [hname, h]
  · simp [hname]

/-- A redirect to another origin leaves the content type. -/
theorem contentType_keepHeaders {url : String} {headers : List (String × String)} :
    headerOf "content-type" (keepHeaders urls request url headers) =
      headerOf "content-type" headers := by
  rw [keepHeaders]
  split_ifs
  · exact headerOf_dropHeaders (by decide)
  · rfl

/-- What `redirectedRequest` makes of a request that it does not give back. -/
theorem redirectedRequest_some {location : String} {next : PreparedRequest} {status : ℕ}
    (hprofile : Profiled parseJson request)
    (h : redirectedRequest parseJson urls request status location = .ok (some next)) :
    Profiled parseJson next ∧
      ((turnsToGet request.method status = true ∧ next.method = "GET" ∧
          request.profile.rpcClass ≠ .write) ∨
        (turnsToGet request.method status = false ∧ next.method = request.method ∧
          next.body = request.body ∧ callsIn parseJson next = callsIn parseJson request)) := by
  rw [redirectedRequest] at h
  split at h
  · exact absurd h nofun
  · split_ifs at h with hget hwrite
    · exact absurd (Except.ok.inj h) nofun
    · obtain rfl := Option.some.inj (Except.ok.inj h)
      exact ⟨rfl, .inl ⟨hget, rfl, hwrite⟩⟩
    · obtain rfl := Option.some.inj (Except.ok.inj h)
      refine ⟨?_, .inr ⟨Bool.eq_false_iff.mpr hget, rfl, rfl, ?_⟩⟩
      · exact hprofile.trans (congrArg (profileRequest parseJson request.method · request.body)
          contentType_keepHeaders.symm)
      · exact congrArg (rpcCalls parseJson request.method · request.body) contentType_keepHeaders

/-! ### The invariant -/

/-- What every step of a call keeps: the hop is profiled, a POST is the request as it was, a call
with a write stays a POST, a retry waits only for what may be resent. -/
structure Follows (parseJson : Bytes → Option Js.Json) (urls : Urls) (request : PreparedRequest)
    (call : FetchCall) : Prop where
  kept : Kept parseJson urls request call
  profiled : Profiled parseJson call.current
  post : call.current.method = "POST" → request.method = "POST" ∧
    call.current.body = request.body ∧ callsIn parseJson call.current = callsIn parseJson request
  write : Holds parseJson request RpcCall.IsWrite → call.current.method = "POST"
  retry : ∀ failure,
    call.phase = .acquiring (some failure) ∨ call.phase = .onSession (some failure) →
    call.current.method = "POST" → failure.MayBeWritten → OnlyReads parseJson call.current

/-- The hop holds what the request holds. -/
theorem Follows.holds_iff (h : Follows parseJson urls request call) {kind : RpcCall → Prop}
    (hpost : call.current.method = "POST") :
    Holds parseJson call.current kind ↔ Holds parseJson request kind := by
  rw [Holds, (h.post hpost).2.2, Holds]

theorem Follows.holds_write (h : Follows parseJson urls request call)
    (hwrite : Holds parseJson request RpcCall.IsWrite) :
    Holds parseJson call.current RpcCall.IsWrite :=
  (h.holds_iff (h.write hwrite)).mpr hwrite

/-- A call that has not ended was not asked for a GET. -/
theorem Follows.not_asked (h : Follows parseJson urls request call)
    (hwrite : Holds parseJson request RpcCall.IsWrite)
    (hopen : ∀ outcome, call.phase ≠ .ended outcome) :
    ∀ answered ∈ call.replies, ¬AsksGet urls answered.1 answered.2 :=
  fun answered hanswered hasks =>
    hopen _ ((h.kept.1 hwrite).returned answered hanswered hasks)

/-- The call waits for something else now, or has ended in failure. -/
theorem Follows.phase (h : Follows parseJson urls request call) {phase : Phase}
    (hopen : ∀ outcome, call.phase ≠ .ended outcome)
    (hretry : ∀ failure, phase = .acquiring (some failure) ∨ phase = .onSession (some failure) →
      call.current.method = "POST" → failure.MayBeWritten → OnlyReads parseJson call.current) :
    Follows parseJson urls request { call with phase } where
  kept := by
    refine ⟨fun hwrite => ?_, ⟨h.kept.2.exit_retry, h.kept.2.resent⟩⟩
    have hkept := h.kept.1 hwrite
    exact ⟨hkept.exit_retry, hkept.not_retryable, hkept.same,
      fun answered hanswered hasks => absurd hasks (h.not_asked hwrite hopen answered hanswered)⟩
  profiled := h.profiled
  post := h.post
  write := h.write
  retry := hretry

theorem Follows.failed (h : Follows parseJson urls request call) {error : CallError}
    (hopen : ∀ outcome, call.phase ≠ .ended outcome) :
    Follows parseJson urls request (call.finish (.failed error)) :=
  h.phase hopen fun _ hphase => absurd hphase (not_or.mpr ⟨nofun, nofun⟩)

theorem Follows.onTunnel (h : Follows parseJson urls request call) :
    Follows parseJson urls request { call with onTunnel := true } where
  kept := by
    refine ⟨fun hwrite => ?_, ⟨h.kept.2.exit_retry, h.kept.2.resent⟩⟩
    have hkept := h.kept.1 hwrite
    exact ⟨hkept.exit_retry, hkept.not_retryable, hkept.same, hkept.returned⟩
  profiled := h.profiled
  post := h.post
  write := h.write
  retry := h.retry

/-- The hop is handed over. -/
theorem Follows.hand (h : Follows parseJson urls request call) {phase : Phase} {handed : Handed}
    (hopen : ∀ outcome, call.phase ≠ .ended outcome) (hrequest : handed.request = call.current)
    (hexit : ∀ sent options, handed = .exit sent options →
      ∃ settings remaining, options = exchangeOptions settings sent remaining)
    (hresent : ∀ sent failure, handed = .tunnel sent (some failure) → sent.method = "POST" →
      failure.MayBeWritten → OnlyReads parseJson sent)
    (hretry : ∀ failure, phase = .acquiring (some failure) ∨ phase = .onSession (some failure) →
      call.current.method = "POST" → failure.MayBeWritten → OnlyReads parseJson call.current) :
    Follows parseJson urls request { call with phase, handed := call.handed ++ [handed] } := by
  -- a POST may take another route exactly when its profile is retryable
  have hsend : ∀ sent options, handed = .exit sent options → sent.method = "POST" →
      (options.retry = .route ↔ sent.profile.retryable = true) := by
    rintro sent options hsent hpost
    obtain ⟨settings, remaining, rfl⟩ := hexit sent options hsent
    rw [exchangeOptions]
    dsimp only
    have hexposed : resendable sent = sent.profile.retryable := by
      rw [resendable, hpost]
      exact (congrArg (sent.profile.retryable || ·) (Bool.and_false _)).trans (Bool.or_false _)
    rw [hexposed]
    split_ifs with hretryable
    · exact iff_of_true rfl hretryable
    · exact iff_of_false nofun hretryable
  have hcurrent : ∀ sent options, handed = .exit sent options → sent = call.current :=
    fun _ _ hsent => (congrArg Handed.request hsent).symm.trans hrequest
  have hsession : ∀ sent after, handed = .tunnel sent after → sent = call.current :=
    fun _ _ hsent => (congrArg Handed.request hsent).symm.trans hrequest
  have hphase := h.phase hopen hretry
  refine ⟨⟨fun hwrite => ?_, ?_⟩, hphase.profiled, hphase.post, hphase.write, hphase.retry⟩
  · have hkept := hphase.kept.1 hwrite
    have hnot := h.profiled.not_retryable (h.holds_write hwrite)
    have hpost := h.write hwrite
    refine ⟨fun sent options hmem => ?_, fun sent after hmem => ?_, ?_, hkept.returned⟩
    · rcases List.mem_append.mp hmem with hbefore | hnow
      · exact hkept.exit_retry sent options hbefore
      · have hsent := (List.mem_singleton.mp hnow).symm
        obtain rfl := hcurrent sent options hsent
        rcases hretry' : options.retry with _ | _
        · rfl
        · exact absurd ((hsend _ options hsent hpost).mp hretry') (by rw [hnot]; exact nofun)
    · rcases List.mem_append.mp hmem with hbefore | hnow
      · exact hkept.not_retryable sent after hbefore
      · rw [hsession sent after (List.mem_singleton.mp hnow).symm]
        exact hnot
    · refine List.forall_mem_append.mpr ⟨hkept.same, List.forall_mem_singleton.mpr ?_⟩
      rw [hrequest]
      exact ⟨hpost.trans (h.post hpost).1.symm, (h.post hpost).2.1⟩
  · refine ⟨fun sent options hmem hpost hroute => ?_, fun sent failure hmem => ?_⟩
    · rcases List.mem_append.mp hmem with hbefore | hnow
      · exact h.kept.2.exit_retry sent options hbefore hpost hroute
      · have hsent := (List.mem_singleton.mp hnow).symm
        have hretryable := (hsend sent options hsent hpost).mp hroute
        obtain rfl := hcurrent sent options hsent
        exact h.profiled.retryable_iff.mp hretryable
    · rcases List.mem_append.mp hmem with hbefore | hnow
      · exact h.kept.2.resent sent failure hbefore
      · exact hresent sent failure (List.mem_singleton.mp hnow).symm

/-- A reply is taken in; one that asks for a GET ends a call with a write. -/
theorem Follows.answered (h : Follows parseJson urls request call) {phase : Phase}
    (hopen : ∀ outcome, call.phase ≠ .ended outcome)
    (hasked : Holds parseJson request RpcCall.IsWrite → AsksGet urls call.current reply →
      phase = .ended (.response reply call.current))
    (hphase : ∀ failure, phase ≠ .acquiring (some failure) ∧ phase ≠ .onSession (some failure)) :
    Follows parseJson urls request
      { call with phase, replies := call.replies ++ [(call.current, reply)] } := by
  have hmoved := h.phase hopen fun failure hwaits =>
    absurd hwaits (not_or.mpr (hphase failure))
  refine ⟨⟨fun hwrite => ?_, ⟨h.kept.2.exit_retry, h.kept.2.resent⟩⟩, hmoved.profiled,
    hmoved.post, hmoved.write, hmoved.retry⟩
  have hkept := hmoved.kept.1 hwrite
  refine ⟨hkept.exit_retry, hkept.not_retryable, hkept.same, ?_⟩
  exact List.forall_mem_append.mpr ⟨hkept.returned, List.forall_mem_singleton.mpr (hasked hwrite)⟩

/-- A followed redirect that would ask for a GET does so only of a call without a write. -/
theorem Follows.redirected (h : Follows parseJson urls request call) {next : PreparedRequest}
    (hopen : ∀ outcome, call.phase ≠ .ended outcome)
    (hnone : Holds parseJson request RpcCall.IsWrite → ¬AsksGet urls call.current reply)
    (hprofiled : Profiled parseJson next)
    (hnext : (next.method = "GET" ∧ ¬Holds parseJson request RpcCall.IsWrite) ∨
      (next.method = call.current.method ∧ next.body = call.current.body ∧
        callsIn parseJson next = callsIn parseJson call.current)) :
    Follows parseJson urls request { call with
      current := next
      hop := call.hop + 1
      phase := .routing
      replies := call.replies ++ [(call.current, reply)] } := by
  have hanswered : Follows parseJson urls request { call with
      phase := .routing
      replies := call.replies ++ [(call.current, reply)] } :=
    h.answered hopen (fun hwrite hasks => absurd hasks (hnone hwrite)) fun _ => ⟨nofun, nofun⟩
  refine ⟨⟨fun hwrite => ?_, ⟨hanswered.kept.2.exit_retry, hanswered.kept.2.resent⟩⟩, hprofiled,
    fun hpost => ?_, fun hwrite => ?_, fun _ hphase => absurd hphase (not_or.mpr ⟨nofun, nofun⟩)⟩
  · have hkept := hanswered.kept.1 hwrite
    exact ⟨hkept.exit_retry, hkept.not_retryable, hkept.same, hkept.returned⟩
  · rcases hnext with ⟨hget, -⟩ | ⟨hmethod, hbody, hcalls⟩
    · exact absurd (hget.symm.trans hpost) (by decide)
    · obtain ⟨hrequest, hbody', hcalls'⟩ := h.post (hmethod.symm.trans hpost)
      exact ⟨hrequest, hbody.trans hbody', hcalls.trans hcalls'⟩
  · rcases hnext with ⟨-, hnot⟩ | ⟨hmethod, -, -⟩
    · exact absurd hwrite hnot
    · exact hmethod.trans (h.write hwrite)

/-- A redirect to GET has one of three statuses. -/
theorem turnsToGet_status {method : String} {status : ℕ} (h : turnsToGet method status = true) :
    status ∈ [301, 302, 303] := by
  rw [turnsToGet] at h
  split_ifs at h with hsee
  · rw [hsee]
    decide
  · rcases (of_decide_eq_true h).1 with rfl | rfl <;> decide

/-- A reply that asks for a GET passes the checks of its status. -/
theorem AsksGet.status (h : AsksGet urls call.current reply) :
    checkStatus reply = .ok () ∧ reply.status ∈ redirectStatuses := by
  have hstatus := turnsToGet_status h.2.1
  rw [checkStatus]
  simp only [List.mem_cons, List.not_mem_nil, or_false] at hstatus
  rcases hstatus with hstatus | hstatus | hstatus <;> rw [hstatus] <;> decide

/-- The `Location` is read before the method is looked at. -/
theorem redirectedRequest_ok_iff {location : String} {status : ℕ} :
    (∃ next, redirectedRequest parseJson urls request status location = .ok next) ↔
      ∃ target, redirectTarget urls location request.url = .ok target := by
  rw [redirectedRequest]
  rcases redirectTarget urls location request.url with error | target
  · exact iff_of_false (fun ⟨_, h⟩ => absurd h nofun) fun ⟨_, h⟩ => absurd h nofun
  · refine iff_of_true ?_ ⟨target, rfl⟩
    dsimp only
    split_ifs
    · exact ⟨_, rfl⟩
    · exact ⟨_, rfl⟩
    · exact ⟨_, rfl⟩

theorem Follows.afterReply (h : Follows parseJson urls request call)
    (hopen : ∀ outcome, call.phase ≠ .ended outcome)
    (hspared : ¬(Holds parseJson call.current RpcCall.IsWrite ∧
      Holds parseJson call.current RpcCall.IsUnlisted ∧ AsksGet urls call.current reply)) :
    Follows parseJson urls request (call.afterReply parseJson urls reply remaining) := by
  have hfails : ∀ error, ¬AsksGet urls call.current reply → Follows parseJson urls request
      { call with
        phase := .ended (.failed error)
        replies := call.replies ++ [(call.current, reply)] } := fun error hnot =>
    h.answered hopen (fun _ hasks => absurd hasks hnot) fun _ => ⟨nofun, nofun⟩
  have hreturns : Follows parseJson urls request { call with
      phase := .ended (.response reply call.current)
      replies := call.replies ++ [(call.current, reply)] } :=
    h.answered hopen (fun _ _ => rfl) fun _ => ⟨nofun, nofun⟩
  rw [FetchCall.afterReply]
  dsimp only
  split
  · rename_i error hcheck
    exact hfails error fun hasks => absurd (hcheck.symm.trans hasks.status.1) nofun
  split_ifs with hplain herror
  · exact hreturns
  · exact hfails _ fun hasks => absurd (herror.symm.trans hasks.1) nofun
  split
  · exact hreturns
  rename_i location hlocation
  split
  · rename_i error hredirect
    refine hfails error fun ⟨_, _, location', target, hlocation', htarget⟩ => ?_
    obtain rfl := Option.some.inj (hlocation.symm.trans hlocation')
    obtain ⟨next, hnext⟩ := redirectedRequest_ok_iff.mpr ⟨target, htarget⟩
    exact absurd (hredirect.symm.trans hnext) nofun
  · exact hreturns
  rename_i next hnext
  obtain ⟨hprofiled, hcases⟩ := redirectedRequest_some h.profiled hnext
  -- past the two other modes the redirect is followed, so a GET was asked for
  have hasks : turnsToGet call.current.method reply.status = true →
      AsksGet urls call.current reply := fun hget =>
    ⟨by rcases hmode : call.current.redirect <;> simp_all, hget,
      location, _, hlocation, (redirectedRequest_ok_iff.mp ⟨_, hnext⟩).choose_spec⟩
  have hwritten : turnsToGet call.current.method reply.status = true →
      call.current.profile.rpcClass ≠ .write → ¬Holds parseJson request RpcCall.IsWrite := by
    intro hget hclass hwrite
    have hcurrent := h.holds_write hwrite
    refine hspared ⟨hcurrent, not_not.mp fun hlisted => hclass ?_, hasks hget⟩
    exact (h.profiled.write_iff hcurrent).mpr hlisted
  have hnone : Holds parseJson request RpcCall.IsWrite → ¬AsksGet urls call.current reply := by
    intro hwrite hget
    rcases hcases with ⟨hturns, -, hclass⟩ | ⟨hturns, -⟩
    · exact hwritten hturns hclass hwrite
    · exact absurd (hturns.symm.trans hget.2.1) nofun
  rw [FetchCall.follow]
  split_ifs
  · exact h.answered hopen (fun hwrite hget => absurd hget (hnone hwrite)) fun _ => ⟨nofun, nofun⟩
  · exact h.answered hopen (fun hwrite hget => absurd hget (hnone hwrite)) fun _ => ⟨nofun, nofun⟩
  · refine h.redirected hopen hnone hprofiled (hcases.imp ?_ ?_)
    · exact fun ⟨hget, hmethod, hclass⟩ => ⟨hmethod, hwritten hget hclass⟩
    · exact fun ⟨_, hsame⟩ => hsame

/-- A request that may not be resent is retried only when its only copy was refused. -/
theorem retriable_false {error : AttemptError} :
    retriable error false = error.refusedUnwritten := by
  rcases error with (⟨_, _, _, soleCopy, _⟩ | _ | _ | _ | _) | _ | _
  · rcases soleCopy <;> simp [retriable, AttemptError.refusedUnwritten]
  all_goals rfl

/-- A refusal of the only copy is always retried. -/
theorem retriable_of_refusedUnwritten {error : AttemptError} {resendable : Bool}
    (h : error.refusedUnwritten = true) : retriable error resendable = true := by
  rcases error with (⟨code, _, _, soleCopy, _⟩ | _ | _ | _ | _) | _ | _
  · exact if_pos h
  all_goals exact absurd h nofun

theorem Follows.afterFailure (h : Follows parseJson urls request call) {failure : TunnelFailure}
    {before : Option TunnelFailure} (hphase : call.phase = .onSession before)
    (hspared : ¬(call.current.method = "POST" ∧ ¬OnlyReads parseJson call.current ∧
      failure.error.refusedUnwritten = true ∧ failure.earlier ≠ 0 ∧ failure.aborted = false ∧
      call.phase = .onSession none ∧ remaining ≠ 0)) :
    Follows parseJson urls request (call.afterFailure failure before remaining) := by
  have hopen : ∀ outcome, call.phase ≠ .ended outcome := by
    rw [hphase]
    exact fun _ => nofun
  rw [FetchCall.afterFailure]
  split_ifs with hends
  · exact h.failed hopen
  · obtain ⟨haborted, hfirst, htime, hretriable⟩ := by simpa only [not_or] using hends
    refine h.phase hopen fun failure' hwaits hpost hwritten => ?_
    obtain rfl : failure = failure' :=
      hwaits.elim (fun heq => Option.some.inj (Phase.acquiring.inj heq)) fun heq => absurd heq nofun
    refine not_not.mp fun hnot => hspared ⟨hpost, hnot, ?_⟩
    have hrefused : failure.error.refusedUnwritten = true := by
      rw [← retriable_false, ← Bool.eq_false_iff.mpr (hnot ∘ h.profiled.retryable_iff.mp)]
      exact Bool.not_eq_false _ ▸ hretriable
    refine ⟨hrefused, fun hearlier => hwritten ⟨hrefused, hearlier⟩, ?_, ?_, htime⟩
    · exact Bool.eq_false_iff.mpr haborted
    · rw [hphase, not_not.mp hfirst]

/-! ### Runs -/

theorem Follows.step (h : Follows parseJson urls request call) {event : FetchEvent}
    (hspared : Spared parseJson urls call event)
    (hstep : fetchStep parseJson urls settings call event = some call') :
    Follows parseJson urls request call' := by
  have hopen : ∀ phase, call.phase = phase → (∀ outcome, phase ≠ .ended outcome) →
      ∀ outcome, call.phase ≠ .ended outcome := fun phase hphase hne => hphase ▸ hne
  unfold fetchStep at hstep
  -- the arms of `fetchStep` in turn: only a session can put a request on the wire again
  split at hstep <;> rename_i hphase
  · obtain rfl := Option.some.inj hstep
    exact h.failed (hopen _ hphase fun _ => nofun)
  · obtain rfl := Option.some.inj hstep
    refine h.hand (hopen _ hphase fun _ => nofun) rfl (fun sent options hsent => ?_)
      (fun _ _ hsent => absurd hsent nofun)
      fun _ hwaits => absurd hwaits (not_or.mpr ⟨nofun, nofun⟩)
    obtain ⟨rfl, rfl⟩ := Handed.exit.inj hsent
    exact ⟨_, _, rfl⟩
  · obtain rfl := Option.some.inj hstep
    exact h.phase (hopen _ hphase fun _ => nofun)
      fun _ hwaits => absurd hwaits (not_or.mpr ⟨nofun, nofun⟩)
  · obtain rfl := Option.some.inj hstep
    exact h.failed (hopen _ hphase fun _ => nofun)
  · obtain rfl := Option.some.inj hstep
    exact h.afterReply (hopen _ hphase fun _ => nofun) hspared
  · obtain rfl := Option.some.inj hstep
    exact h.failed (hopen _ hphase fun _ => nofun)
  · rename_i before
    obtain rfl := Option.some.inj hstep
    -- a session is asked for again only after a failure, which left the request unwritten or a read
    have hretry : ∀ failure, before = some failure → call.current.method = "POST" →
        failure.MayBeWritten → OnlyReads parseJson call.current := fun failure hbefore =>
      h.retry failure (.inl (hphase.trans (congrArg Phase.acquiring hbefore)))
    refine h.hand (hopen _ hphase fun _ => nofun) rfl (fun _ _ hsent => absurd hsent nofun)
      (fun sent failure hsent => ?_) fun failure hwaits => ?_
    · obtain ⟨rfl, hbefore⟩ := Handed.tunnel.inj hsent
      exact hretry failure hbefore
    · exact hwaits.elim (fun heq => absurd heq nofun) fun heq =>
        hretry failure (Phase.onSession.inj heq)
  · obtain rfl := Option.some.inj hstep
    exact h.afterFailure hphase hspared
  · obtain rfl := Option.some.inj hstep
    exact h.onTunnel.afterReply (hopen _ hphase fun _ => nofun) hspared
  · exact absurd hstep nofun

theorem follows_start {method url : String} {headers : List (String × String)} {body : Bytes}
    {redirect : RedirectMode} :
    Follows parseJson urls (prepared parseJson method url headers body redirect)
      (.start (prepared parseJson method url headers body redirect) remaining) where
  kept := by
    refine ⟨fun _ => ⟨?_, ?_, ?_, ?_⟩, ⟨?_, ?_⟩⟩
    · exact fun _ _ hmem => absurd hmem List.not_mem_nil
    · exact fun _ _ hmem => absurd hmem List.not_mem_nil
    · exact fun _ hmem => absurd hmem List.not_mem_nil
    · exact fun _ hmem => absurd hmem List.not_mem_nil
    · exact fun _ _ hmem => absurd hmem List.not_mem_nil
    · exact fun _ _ hmem => absurd hmem List.not_mem_nil
  profiled := rfl
  post hpost := ⟨hpost, rfl, rfl⟩
  write := Holds.post
  retry failure hphase := by
    rw [FetchCall.start] at hphase
    dsimp only at hphase
    split_ifs at hphase
    · exact absurd hphase (not_or.mpr ⟨nofun, nofun⟩)
    · exact absurd hphase (not_or.mpr ⟨nofun, nofun⟩)

/-- The redirect of a batch that mixes a write with an unlisted call is not given back. -/
theorem Follows.not_kept_afterReply (h : Follows parseJson urls request call)
    (hwrite : Holds parseJson call.current RpcCall.IsWrite)
    (hunlisted : Holds parseJson call.current RpcCall.IsUnlisted)
    (hasks : AsksGet urls call.current reply) :
    ¬Kept parseJson urls request (call.afterReply parseJson urls reply remaining) := by
  intro hkept
  have hclass : call.current.profile.rpcClass ≠ .write := fun hclass =>
    (h.profiled.write_iff hwrite).mp hclass hunlisted
  obtain ⟨hfollow, hget, location, target, hlocation, htarget⟩ := hasks
  have hstatus := AsksGet.status ⟨hfollow, hget, location, target, hlocation, htarget⟩
  obtain ⟨next, hnext⟩ : ∃ next,
      redirectedRequest parseJson urls call.current reply.status location = .ok (some next) := by
    rw [redirectedRequest, htarget]
    dsimp only
    rw [if_pos hget, if_neg hclass]
    exact ⟨_, rfl⟩
  have hafter : call.afterReply parseJson urls reply remaining =
      { call with replies := call.replies ++ [(call.current, reply)] }.follow next remaining := by
    rw [FetchCall.afterReply]
    dsimp only
    rw [hstatus.1]
    dsimp only
    rw [if_neg (not_or.mpr ⟨not_not.mpr hstatus.2, by rw [hfollow]; exact nofun⟩),
      if_neg (by rw [hfollow]; exact nofun), hlocation]
    dsimp only
    rw [hnext]
  have hreplies : (call.current, reply) ∈
      (call.afterReply parseJson urls reply remaining).replies := by
    rw [hafter, FetchCall.follow]
    split_ifs
    all_goals exact List.mem_concat_self
  have hphase := (hkept.1 ((h.holds_iff hwrite.post).mp hwrite)).returned _ hreplies
    ⟨hfollow, hget, location, target, hlocation, htarget⟩
  rw [hafter, FetchCall.follow] at hphase
  split_ifs at hphase
  all_goals exact absurd hphase nofun

/-- **Only reads are resent, and a write keeps its method.** This holds at every state of a run in
which no redirect asks for a GET in place of a write beside an unlisted call, and in which no later
exchange of a POST that does not only read is refused in its only copy; a step that breaks the
condition leads to a state where it does not hold.

`Follows` ties the current hop and what was handed on to the request of the caller; each spared step
keeps it. For the converse only a reply and a failed exchange can break the condition: the reply
leads at once to a GET in place of the write, the failure to a second attempt of what may have been
written. -/
theorem fetchCall_kept {method url : String} {headers : List (String × String)} {body : Bytes}
    {redirect : RedirectMode} :
    (∀ call, RunWhen (fetchStep parseJson urls settings) (Spared parseJson urls)
        (.start (prepared parseJson method url headers body redirect) remaining) call →
      Kept parseJson urls (prepared parseJson method url headers body redirect) call) ∧
    (∀ call event call', RunWhen (fetchStep parseJson urls settings) (Spared parseJson urls)
        (.start (prepared parseJson method url headers body redirect) remaining) call →
      fetchStep parseJson urls settings call event = some call' →
      ¬Spared parseJson urls call event →
      ∃ after, Run (fetchStep parseJson urls settings) call' after ∧
        ¬Kept parseJson urls (prepared parseJson method url headers body redirect) after) := by
  have hfollows : ∀ call, RunWhen (fetchStep parseJson urls settings) (Spared parseJson urls)
      (.start (prepared parseJson method url headers body redirect) remaining) call →
      Follows parseJson urls (prepared parseJson method url headers body redirect) call :=
    fun call hrun => hrun.invariant follows_start fun _ _ _ hbefore hspared hstep =>
      hbefore.step hspared hstep
  refine ⟨fun call hrun => (hfollows call hrun).kept, fun call event call' hrun hstep hnot => ?_⟩
  have h := hfollows call hrun
  unfold fetchStep at hstep
  -- only a reply (`h_5`, `h_9`) and a failed exchange (`h_8`) can break the condition
  split at hstep <;> rename_i hphase
  case h_5 =>
    obtain rfl := Option.some.inj hstep
    obtain ⟨hwrite, hunlisted, hasks⟩ := not_not.mp hnot
    exact ⟨_, .refl, h.not_kept_afterReply hwrite hunlisted hasks⟩
  case h_8 before failure remaining =>
    obtain rfl := Option.some.inj hstep
    obtain ⟨hpost, hreads, hrefused, hearlier, haborted, hfirst, htime⟩ := not_not.mp hnot
    obtain rfl : before = none := Phase.onSession.inj (hphase.symm.trans hfirst)
    have hretries : call.afterFailure failure none remaining =
        { call with phase := .acquiring (some failure) } := by
      refine if_neg (not_or.mpr ⟨Bool.eq_false_iff.mp haborted, not_or.mpr ⟨by simp, ?_⟩⟩)
      refine not_or.mpr ⟨htime, ?_⟩
      rw [retriable_of_refusedUnwritten hrefused]
      exact nofun
    refine ⟨{ call with
      phase := .onSession (some failure)
      handed := call.handed ++ [.tunnel call.current (some failure)] }, ?_, fun hkept => hreads ?_⟩
    · rw [hretries]
      have hacquired : fetchStep parseJson urls settings
          { call with phase := .acquiring (some failure) } (.acquired (.ok ())) = some { call with
            phase := .onSession (some failure)
            handed := call.handed ++ [.tunnel call.current (some failure)] } := rfl
      exact Run.refl.tail hacquired
    · exact hkept.2.resent call.current failure List.mem_concat_self hpost
        fun hunwritten => hearlier hunwritten.2
  case h_9 =>
    obtain rfl := Option.some.inj hstep
    obtain ⟨hwrite, hunlisted, hasks⟩ := not_not.mp hnot
    exact ⟨_, .refl, h.onTunnel.not_kept_afterReply hwrite hunlisted hasks⟩
  case h_10 => exact absurd hstep nofun
  all_goals exact absurd trivial hnot

/-! ### A batch with a write and an unlisted call -/

private def sampleUrls : Urls where
  parse text := some ⟨"https:", "https://node.example", text⟩
  resolve location _ := some ⟨"https:", "https://node.example", location⟩

private def sampleSettings : FetchSettings := ⟨30000, 1048576⟩

/-- The bytes of an array of two calls. -/
private def sampleBody : Bytes :=
  [91, 123, 34, 109, 101, 116, 104, 111, 100, 34, 58, 34, 101, 116, 104, 95, 115, 101, 110, 100,
    82, 97, 119, 84, 114, 97, 110, 115, 97, 99, 116, 105, 111, 110, 34, 125, 44, 123, 34, 109,
    101, 116, 104, 111, 100, 34, 58, 34, 119, 97, 108, 108, 101, 116, 95, 119, 97, 116, 99, 104,
    34, 125, 93]

/-- The bytes of the first of them. -/
private def writeBody : Bytes :=
  [123, 34, 109, 101, 116, 104, 111, 100, 34, 58, 34, 101, 116, 104, 95, 115, 101, 110, 100, 82, 97,
    119, 84, 114, 97, 110, 115, 97, 99, 116, 105, 111, 110, 34, 125]

/-- What `JSON.parse` makes of the sample bodies. -/
private def sampleParse (body : Bytes) : Option Js.Json :=
  if body = sampleBody then
    some (.array [.object [("method", .string "eth_sendRawTransaction")],
      .object [("method", .string "wallet_watch")]])
  else if body = writeBody then some (.object [("method", .string "eth_sendRawTransaction")])
  else none

private def sampleRequest : PreparedRequest :=
  prepared sampleParse "POST" "https://node.example/v1" [] sampleBody .follow

/-- The upstream answers 302. -/
private def sampleEvents : List FetchEvent :=
  [.routed (.ok .http) 9000,
    .exitAnswered (.ok ⟨302, [("location", "https://node.example/v2")], [], false⟩) 8000,
    .routed (.ok .http) 8000]

private def writeRequest : PreparedRequest :=
  prepared sampleParse "POST" "https://node.example/v1" [] writeBody .follow

/-- A write alone is not sent on as a GET: the call ends with the 302. -/
theorem fetchCall_kept_sample : ∃ call,
    runEvents (fetchStep sampleParse sampleUrls sampleSettings) (.start writeRequest 9000)
      (sampleEvents.take 2) = some call ∧
      Kept sampleParse sampleUrls writeRequest call ∧
      ∃ reply, call.phase = .ended (.response reply call.current) ∧ reply.status = 302 := by
  have hrouted : RunWhen (fetchStep sampleParse sampleUrls sampleSettings)
      (Spared sampleParse sampleUrls) (.start writeRequest 9000) _ :=
    .tail .refl ⟨.routed (.ok .http) 9000, trivial, rfl⟩
  have hspared : ¬Holds sampleParse writeRequest RpcCall.IsUnlisted := by
    rintro ⟨batch, calls, hcalls, other, hother, hunlisted⟩
    obtain ⟨-, rfl⟩ := Prod.mk.inj (Option.some.inj hcalls)
    obtain rfl := List.mem_singleton.mp hother
    exact hunlisted.2.2.2 (by decide)
  have hanswered : RunWhen (fetchStep sampleParse sampleUrls sampleSettings)
      (Spared sampleParse sampleUrls) (.start writeRequest 9000) _ :=
    .tail hrouted ⟨.exitAnswered
      (.ok ⟨302, [("location", "https://node.example/v2")], [], false⟩) 8000,
      fun hasks => hspared hasks.2.1, rfl⟩
  exact ⟨_, rfl, fetchCall_kept.1 _ hanswered, _, rfl, rfl⟩

theorem not_fetchCall_kept : ¬∀ call,
    Run (fetchStep sampleParse sampleUrls sampleSettings) (.start sampleRequest 9000) call →
      Kept sampleParse sampleUrls sampleRequest call := by
  intro hkept
  obtain ⟨call, hrun, hget⟩ : ∃ call,
      runEvents (fetchStep sampleParse sampleUrls sampleSettings) (.start sampleRequest 9000)
        sampleEvents = some call ∧ ∃ handed ∈ call.handed, handed.request.method = "GET" :=
    ⟨_, rfl, _, List.mem_cons_of_mem _ List.mem_cons_self, rfl⟩
  have hwrite : Holds sampleParse sampleRequest RpcCall.IsWrite :=
    ⟨true, _, rfl, _, List.mem_cons_self, List.mem_singleton.mpr rfl⟩
  obtain ⟨handed, hhanded, hmethod⟩ := hget
  have hsame := (((hkept call (run_of_runEvents hrun)).1 hwrite).same handed hhanded).1
  exact absurd (hmethod.symm.trans hsame) (by decide)

end NoxSdk.Worker
