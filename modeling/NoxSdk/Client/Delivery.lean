import NoxSdk.Client.Exchange
import NoxSdk.Client.Packets
import NoxSdk.Client.ResendRuns

/-!
# Delivery of a request that may not be resent

One call with its copies, and for each copy the exchanges of its packets. Exchanges and the events
of the call come in any order; a copy fails on its upload with the error of one of its exchanges
(`Promise.all`), and with an error of another kind at any time.

`request_delivered_once`: for retry `none` a further copy is launched only when the copy before has
a packet whose exchange failed before its stream was open, so at most one copy is ever written in
full.
-/

namespace NoxSdk.Client

/-- What `_sendOnRoute` posts for a copy: the payload, cut and built into packets, to the entry with
the certificate hash. -/
structure Post where
  payloadBytes : Bytes
  messageId : UInt64
  buildSphinxPacket : Bytes → Except Thrown Bytes
  certhash : String

/-- The exchanges of a copy; there are none when the packets cannot be built. -/
def Post.upload (post : Post) : List Exchange :=
  match packetsFor post.buildSphinxPacket post.messageId post.payloadBytes with
  | .error _ => []
  | .ok packets => packets.map (startExchange post.certhash)

/-- A call and the exchanges of each of its copies. -/
structure Delivery where
  callState : Local
  uploads : List (List Exchange)

/-- What happens to a call and to its exchanges. -/
inductive DeliveryEvent
  /-- An event of the exchange of a packet of a copy. -/
  | exchange (copy packet : ℕ) (event : ExchangeEvent)
  /-- An event of the call, with what a copy launched at it posts. -/
  | call (moment : Moment) (event : CallEvent) (post : Post)
  /-- Other calls of the client change its hedges in flight. -/
  | others (hedgesInFlight : ℕ)

/-- A copy can fail with the error: its upload failed with one of its exchanges, the client
disconnected, or it failed otherwise (a timeout, an abort, an oversized reply, a packet that cannot
be built), which is no transport failure. -/
def copyFails (upload : List Exchange) (error : ErrorChain) : Bool :=
  (upload.filterMap Exchange.postError).any (fun cause =>
      error == ⟨some .transportFailed, none⟩ :: cause) ||
    error == errorOf .transportFailed || !isTransportFailure error

namespace Delivery

/-- The events of a call that its exchanges allow. -/
def allows (d : Delivery) : CallEvent → Bool
  | .failure copy error => d.uploads[copy]?.any fun upload => copyFails upload error
  | _ => true

/-- One event; `none` when it cannot happen. -/
def step (settings : Settings) (d : Delivery) : DeliveryEvent → Option Delivery
  | .exchange copy packet event => do
    let upload ← d.uploads[copy]?
    let exchange ← upload[packet]?
    let next ← exchange.step event
    return { d with uploads := d.uploads.set copy (upload.set packet next) }
  | .call moment event post =>
    if !(event.enabled d.callState.call && d.allows event) then none
    else
      let s := d.callState.handle settings moment event
      let launched := s.call.attempts.length > d.callState.call.attempts.length
      some ⟨s, d.uploads ++ if launched then [post.upload] else []⟩
  | .others hedgesInFlight =>
    some { d with callState := { d.callState with hedgesInFlight := hedgesInFlight } }

/-- The start of a call, with what its first copy posts. -/
def start (settings : Settings) (moment : Moment) (params : CallParams) (hedgesInFlight : ℕ)
    (post : Post) : Except Thrown Delivery := do
  let s ← startCall settings moment params hedgesInFlight
  return ⟨s, [post.upload]⟩

end Delivery

/-! ### The live copies of a call -/

namespace Call

/-- Which copies are live. -/
def lives (call : Call) : List Bool := call.attempts.map Attempt.live

theorem lives_finish (call : Call) (outcome : Outcome) :
    (call.finish outcome).lives = call.lives := by
  rw [finish]
  split_ifs with hsettled
  · rfl
  · rw [lives, lives, List.map_map]
    congr 1
    funext attempt
    rw [Function.comp_apply]
    split_ifs <;> rfl

end Call

section Lives

variable {settings : Settings} {moment : Moment} {event : CallEvent} {s s' : Local}

/-- A handler of a call with retry `none` launches a copy only after a failure before the request
was written. -/
theorem Effect.lives (heffect : Effect settings moment event s s') (hretry : s.call.retry = .none)
    (htimer : s.call.hedgeTimer = false) :
    s'.call.retry = .none ∧ s'.call.hedgeTimer = false ∧ (s'.call.lives = s.call.lives ∨
      ∃ copy error, event = .failure copy error ∧ isTransportFailure error = true ∧
        notSent error = true ∧ s'.call.lives = s.call.lives ++ [true]) := by
  have hfinish : ∀ outcome, s.call.settled = false →
      (s.call.finish outcome).retry = .none ∧ (s.call.finish outcome).hedgeTimer = false := by
    intro outcome hopen
    rw [Call.finish_of_open outcome hopen]
    exact ⟨hretry, rfl⟩
  cases heffect with
  | nothing _ _ => exact ⟨hretry, htimer, .inl rfl⟩
  | late _ => exact ⟨hretry, htimer, .inl rfl⟩
  | resolve copy _ hopen =>
    exact ⟨(hfinish _ hopen).1, (hfinish _ hopen).2, .inl (s.call.lives_finish _)⟩
  | rejectIdle copy error _ hopen _ =>
    exact ⟨(hfinish _ hopen).1, (hfinish _ hopen).2, .inl (s.call.lives_finish _)⟩
  | rejectAtOnce copy error _ hopen _ =>
    exact ⟨(hfinish _ hopen).1, (hfinish _ hopen).2, .inl (s.call.lives_finish _)⟩
  | transport copy error attempt planned call hevent _ _ herror hagain _ _ htake =>
    obtain ⟨hattempts, hcall_retry, hcall_timer⟩ : call.attempts = s.call.attempts ∧
        call.retry = s.call.retry ∧ call.hedgeTimer = s.call.hedgeTimer := by
      rw [Call.takeTransportResend] at htake
      split_ifs at htake <;> obtain rfl := Option.some.inj htake <;> exact ⟨rfl, rfl, rfl⟩
    refine ⟨hcall_retry.trans hretry, hcall_timer.trans htimer, .inr ⟨copy, error, hevent, herror,
      hagain.resolve_right fun hne => hne hretry, ?_⟩⟩
    rw [Call.lives, Local.launch, Local.withCall, List.map_append, hattempts]
    rfl
  | route copy attempt planned reason _ _ _ hnone _ _ => exact absurd hretry hnone

theorem lives_before (henabled : event.enabled s.call = true) :
    (s.before event).call.retry = s.call.retry ∧
      (s.call.hedgeTimer = false → (s.before event).call.hedgeTimer = false) ∧
      (s.before event).call.lives.length = s.call.lives.length ∧
      (∀ copy : ℕ, s.call.lives[copy]? = some false →
        (s.before event).call.lives[copy]? = some false) ∧
      ∀ (copy : ℕ) (error : ErrorChain), event = .failure copy error →
        s.call.lives[copy]? = some true ∧
          (s.before event).call.lives[copy]? = some false := by
  have hend : ∀ copy, s.call.attempts[copy]?.any Attempt.live = true →
      (s.endCopy copy).call.retry = s.call.retry ∧
        (s.call.hedgeTimer = false → (s.endCopy copy).call.hedgeTimer = false) ∧
        (s.endCopy copy).call.lives = s.call.lives.set copy false ∧
        s.call.lives[copy]? = some true := fun copy hcopy => by
    obtain ⟨attempt, hattempt, hlive⟩ := exists_live_of_enabled hcopy
    rw [endCopy_of_live hattempt hlive]
    refine ⟨rfl, id, List.map_set, ?_⟩
    rw [Call.lives, List.getElem?_map, hattempt, Option.map_some, hlive]
  -- a copy that ended stays so when another one ends
  have hset : ∀ copy other : ℕ, s.call.lives[other]? = some false →
      (s.call.lives.set copy false)[other]? = some false := by
    intro copy other hother
    by_cases heq : copy = other
    · subst heq
      exact List.getElem?_set_self (List.getElem?_eq_some_iff.mp hother).1
    · exact (List.getElem?_set_ne heq).trans hother
  cases event with
  | success copy =>
    obtain ⟨hretry, htimer, hlives, -⟩ := hend copy henabled
    refine ⟨hretry, htimer, ?_, ?_, nofun⟩
    · rw [Local.before, hlives, List.length_set]
    · intro other hother
      rw [Local.before, hlives]
      exact hset copy other hother
  | failure copy error =>
    obtain ⟨hretry, htimer, hlives, hlive⟩ := hend copy henabled
    refine ⟨hretry, htimer, ?_, ?_, ?_⟩
    · rw [Local.before, hlives, List.length_set]
    · intro other hother
      rw [Local.before, hlives]
      exact hset copy other hother
    · rintro _ _ ⟨⟩
      refine ⟨hlive, ?_⟩
      rw [Local.before, hlives]
      exact List.getElem?_set_self (List.getElem?_eq_some_iff.mp hlive).1
  | lost copy => exact ⟨rfl, id, rfl, fun _ h => h, nofun⟩
  | hedgeTimer => exact ⟨rfl, fun _ => rfl, rfl, fun _ h => h, nofun⟩
  | abort => exact ⟨rfl, id, rfl, fun _ h => h, nofun⟩

end Lives

/-! ### The invariant -/

/-- Some exchange of the copy failed before its stream was open. -/
def FailedUnsent (upload : List Exchange) : Prop := ∃ exchange ∈ upload, exchange.FailedUnsent

/-- All packets of the copy are written. -/
def AllSent (upload : List Exchange) : Prop := ∀ exchange ∈ upload, exchange.sent = true

namespace Delivery

variable {settings : Settings} {d next : Delivery} {event : DeliveryEvent}

/-- What holds of a call with retry `none` between two events. -/
structure Invariant (d : Delivery) : Prop where
  retry : d.callState.call.retry = .none
  timer : d.callState.call.hedgeTimer = false
  uploads : d.uploads.length = d.callState.call.lives.length
  consistent : ∀ upload ∈ d.uploads, ∀ exchange ∈ upload, exchange.Consistent
  earlier : ∀ copy, copy + 1 < d.callState.call.lives.length →
    d.callState.call.lives[copy]? = some false ∧
      ∀ upload, d.uploads[copy]? = some upload → FailedUnsent upload

theorem consistent_upload (post : Post) : ∀ exchange ∈ post.upload, exchange.Consistent := by
  intro exchange hmem
  rw [Post.upload] at hmem
  split at hmem
  · cases hmem
  · obtain ⟨packet, -, rfl⟩ := List.mem_map.mp hmem
    exact Exchange.consistent_startExchange _ _

/-- A copy that fails before it was written has an exchange that failed before its stream was
open. -/
theorem failedUnsent_of_copyFails {upload : List Exchange} {error : ErrorChain}
    (hconsistent : ∀ exchange ∈ upload, exchange.Consistent) (h : copyFails upload error = true)
    (herror : isTransportFailure error = true) (hunsent : notSent error = true) :
    FailedUnsent upload := by
  simp only [copyFails, Bool.or_eq_true, List.any_eq_true, List.mem_filterMap, beq_iff_eq,
    herror, Bool.not_true, Bool.false_eq_true, or_false] at h
  rcases h with ⟨cause, ⟨exchange, hexchange, hcause⟩, rfl⟩ | rfl
  · exact ⟨exchange, hexchange,
      Exchange.failedUnsent_of_notSent (hconsistent exchange hexchange) hcause hunsent⟩
  · exact absurd hunsent (by decide)

/-- An event of an exchange keeps the invariant: a failure is final. -/
theorem Invariant.exchange (h : d.Invariant) {copy packet : ℕ} {upload : List Exchange}
    {exchange after : Exchange} {event : ExchangeEvent} (hupload : d.uploads[copy]? = some upload)
    (hexchange : upload[packet]? = some exchange) (hstep : exchange.step event = some after) :
    Invariant { d with uploads := d.uploads.set copy (upload.set packet after) } := by
  have hconsistent := h.consistent upload (List.mem_of_getElem? hupload)
  refine ⟨h.retry, h.timer, (List.length_set).trans h.uploads, ?_, ?_⟩
  · intro other hother
    rcases List.mem_or_eq_of_mem_set hother with hmem | rfl
    · exact h.consistent other hmem
    · intro found hfound
      rcases List.mem_or_eq_of_mem_set hfound with hmem | rfl
      · exact hconsistent found hmem
      · exact (hconsistent exchange (List.mem_of_getElem? hexchange)).step hstep
  · intro other hlt
    obtain ⟨hidle, hunsent⟩ := h.earlier other hlt
    refine ⟨hidle, fun found hfound => ?_⟩
    by_cases heq : copy = other
    · subst heq
      have hupload_lt := (List.getElem?_eq_some_iff.mp hupload).1
      obtain rfl := Option.some.inj ((List.getElem?_set_self hupload_lt).symm.trans hfound)
      obtain ⟨failed, hfailed, hfailed_unsent⟩ := hunsent upload hupload
      obtain ⟨index, hindex⟩ := List.mem_iff_getElem?.mp hfailed
      by_cases hsame : packet = index
      · -- the exchange that failed is the one that steps
        subst hsame
        obtain rfl := Option.some.inj (hexchange.symm.trans hindex)
        have hpacket_lt := (List.getElem?_eq_some_iff.mp hexchange).1
        exact ⟨after, List.mem_set hpacket_lt _, hfailed_unsent.step hstep⟩
      · exact ⟨failed, List.mem_of_getElem? ((List.getElem?_set_ne hsame).trans hindex),
          hfailed_unsent⟩
    · exact hunsent found ((List.getElem?_set_ne heq).symm.trans hfound)

/-- An event of the call keeps the invariant: the copy before the one launched failed unsent. -/
theorem Invariant.call (h : d.Invariant) {moment : Moment} {event : CallEvent} {post : Post}
    (henabled : event.enabled d.callState.call = true) (hallows : d.allows event = true)
    {s' : Local} (hs' : s' = d.callState.handle settings moment event) :
    Invariant ⟨s', d.uploads ++
      if s'.call.attempts.length > d.callState.call.attempts.length then [post.upload]
      else []⟩ := by
  have hlength : ∀ call : Call, call.lives.length = call.attempts.length :=
    fun _ => List.length_map _
  have heffect : Effect settings moment event (d.callState.before event) s' :=
    hs' ▸ effect_handle henabled fun htimer => absurd htimer (by simp [h.timer])
  obtain ⟨hretry, htimer, hbefore_length, hidle, hfailure⟩ := lives_before henabled
  obtain ⟨hretry', htimer', hlives⟩ := heffect.lives (hretry.trans h.retry) (htimer h.timer)
  rcases hlives with hsame | ⟨copy, error, rfl, herror, hunsent, happend⟩
  · -- no copy is launched
    have hcount : s'.call.lives.length = d.callState.call.lives.length :=
      (congrArg List.length hsame).trans hbefore_length
    rw [if_neg (by rw [← hlength, ← hlength, hcount]; exact Nat.lt_irrefl _), List.append_nil]
    refine ⟨hretry', htimer', h.uploads.trans hcount.symm, h.consistent, fun other hlt => ?_⟩
    obtain ⟨hother, hother_unsent⟩ := h.earlier other (hcount ▸ hlt)
    exact ⟨hsame ▸ hidle other hother, hother_unsent⟩
  · -- the copy that failed was the last one
    obtain ⟨hlive, hended⟩ := hfailure copy error rfl
    have hcopy_lt := (List.getElem?_eq_some_iff.mp hlive).1
    have hlast : copy + 1 = d.callState.call.lives.length := by
      by_contra hne
      have hidle_copy := (h.earlier copy (by omega)).1
      rw [hlive] at hidle_copy
      cases hidle_copy
    have hcount : s'.call.lives.length = d.callState.call.lives.length + 1 := by
      rw [happend, List.length_append, hbefore_length, List.length_singleton]
    rw [if_pos (by rw [← hlength, ← hlength, hcount]; exact Nat.lt_succ_self _)]
    refine ⟨hretry', htimer', ?_, ?_, fun other hlt => ?_⟩
    · rw [List.length_append, List.length_singleton, h.uploads, hcount]
    · intro upload hupload
      rcases List.mem_append.mp hupload with hmem | hmem
      · exact h.consistent upload hmem
      · rw [List.mem_singleton.mp hmem]
        exact consistent_upload post
    · have hother_lt : other < d.callState.call.lives.length :=
        Nat.lt_of_succ_lt_succ (hlt.trans_eq hcount)
      rw [happend, List.getElem?_append_left (hbefore_length ▸ hother_lt),
        List.getElem?_append_left (h.uploads ▸ hother_lt)]
      rcases Nat.lt_or_ge (other + 1) d.callState.call.lives.length with hbefore | hge
      · obtain ⟨hother, hother_unsent⟩ := h.earlier other hbefore
        exact ⟨hidle other hother, hother_unsent⟩
      -- the copy that failed, which the host allows only unsent
      · obtain rfl : other = copy := by omega
        refine ⟨hended, fun upload hupload => ?_⟩
        rw [allows, hupload] at hallows
        exact failedUnsent_of_copyFails (h.consistent upload (List.mem_of_getElem? hupload)) hallows
          herror hunsent

theorem Invariant.step (h : d.Invariant) (hstep : d.step settings event = some next) :
    next.Invariant := by
  cases event with
  | exchange copy packet event =>
    obtain ⟨upload, hupload, hstep⟩ := Option.bind_eq_some_iff.mp hstep
    obtain ⟨exchange, hexchange, hstep⟩ := Option.bind_eq_some_iff.mp hstep
    obtain ⟨after, hafter, hstep⟩ := Option.bind_eq_some_iff.mp hstep
    obtain rfl := Option.some.inj hstep
    exact h.exchange hupload hexchange hafter
  | call moment event post =>
    rw [Delivery.step] at hstep
    split_ifs at hstep with hguard
    obtain rfl := Option.some.inj hstep
    obtain ⟨henabled, hallows⟩ : event.enabled d.callState.call = true ∧ d.allows event = true := by
      simpa using hguard
    exact h.call henabled hallows rfl
  | others hedgesInFlight =>
    obtain rfl := Option.some.inj hstep
    exact ⟨h.retry, h.timer, h.uploads, h.consistent, h.earlier⟩

theorem invariant_start {moment : Moment} {params : CallParams} {hedges : ℕ} {post : Post}
    (h : start settings moment params hedges post = .ok d) (hretry : params.retry = .none) :
    d.Invariant := by
  obtain ⟨s, hs, h⟩ := bind_eq_ok_iff.mp h
  obtain rfl := Except.ok.inj h
  obtain ⟨first, call, -, rfl, hattempts, -, -, -, -, -, hcall_retry, -, htimer⟩ := startCall_eq hs
  have hnone : call.retry = .none := hcall_retry.trans hretry
  have hlives : ((Local.mk call hedges).launch moment.state first .first).call.lives = [true] := by
    rw [Call.lives, Local.launch, hattempts]
    rfl
  refine ⟨hnone, Bool.eq_false_iff.mpr fun h => htimer h hnone, ?_, ?_, fun copy hlt => ?_⟩
  · rw [hlives]
    rfl
  · intro upload hupload
    rw [List.mem_singleton.mp hupload]
    exact consistent_upload post
  · rw [hlives] at hlt
    exact absurd hlt (by simp)

end Delivery

/-- A request that may not be resent is delivered at most once. In every run of a call with retry
`none`, whatever the order of the events of its exchanges and of the call: a copy that is followed
by another has a packet whose exchange failed in the phase `dial` or `open`; an exchange that failed
so has written nothing of its request; and at most one copy ever has all of its packets written.

The invariant (`Delivery.Invariant`) says that each copy but the last is dead with a packet that
failed before it was sent, as only such a failure lets `_planResend` start another copy. So of two
copies the earlier one does not have all of its packets written. -/
theorem request_delivered_once (settings : Settings) (moment : Moment) (params : CallParams)
    (hedges : ℕ) (post : Post) (initial d : Delivery)
    (hstart : Delivery.start settings moment params hedges post = .ok initial)
    (hretry : params.retry = .none) (hrun : Lib.Run (Delivery.step settings) initial d) :
    d.uploads.length = d.callState.call.attempts.length ∧
    (∀ copy upload, copy + 1 < d.callState.call.attempts.length → d.uploads[copy]? = some upload →
      FailedUnsent upload) ∧
    (∀ upload ∈ d.uploads, ∀ exchange ∈ upload, exchange.FailedUnsent → exchange.written = 0 ∧
      exchange.sent = false) ∧
    ∀ (i j : ℕ) (upload upload' : List Exchange), d.uploads[i]? = some upload →
      d.uploads[j]? = some upload' → AllSent upload → AllSent upload' → i = j := by
  have hinv : d.Invariant := Lib.Run.invariant hrun (Delivery.invariant_start hstart hretry)
    fun _ _ _ hinv hstep => hinv.step hstep
  have hlength : d.callState.call.lives.length = d.callState.call.attempts.length :=
    List.length_map _
  have hearlier : ∀ copy upload, copy + 1 < d.callState.call.attempts.length →
      d.uploads[copy]? = some upload → FailedUnsent upload := fun copy upload hlt hupload =>
    (hinv.earlier copy (hlength ▸ hlt)).2 upload hupload
  have hunsent : ∀ upload ∈ d.uploads, ∀ exchange ∈ upload, exchange.FailedUnsent →
      exchange.written = 0 ∧ exchange.sent = false :=
    fun upload hupload exchange hexchange hfailed =>
      hfailed.not_sent (hinv.consistent upload hupload exchange hexchange)
  -- of two copies the earlier one has a packet that is not written
  have hlt_false : ∀ (i j : ℕ) (upload upload' : List Exchange), d.uploads[i]? = some upload →
      d.uploads[j]? = some upload' → AllSent upload → ¬ i < j := by
    intro i j upload upload' hi hj hsent hlt
    have hj_lt := (List.getElem?_eq_some_iff.mp hj).1
    have hbound := hinv.uploads.trans hlength
    obtain ⟨exchange, hexchange, hfailed⟩ := hearlier i upload (by omega) hi
    have hnot := (hunsent upload (List.mem_of_getElem? hi) exchange hexchange hfailed).2
    rw [hsent exchange hexchange] at hnot
    cases hnot
  refine ⟨hinv.uploads.trans hlength, hearlier, hunsent, ?_⟩
  intro i j upload upload' hi hj hsent hsent'
  have hij := hlt_false i j upload upload' hi hj hsent
  have hji := hlt_false j i upload' upload hj hi hsent'
  omega

/-! ### A failed dial -/

/-- KPS mode. -/
def kpsSettings : Settings := ⟨.auto, true, true⟩

/-- The sample client in KPS mode, with a second entry. -/
def kpsMoment : Moment :=
  { sampleMoment with
    state :=
      { sampleMoment.state with
        entryRule := fun node => node.id == "entry" || node.id == "mix1"
        kps := some ⟨false, false, none, fun _ => false, fun _ => false, fun _ => none,
          fun _ => none, fun _ => 0⟩ } }

/-- A call that may not be resent. -/
def onceParams : CallParams := ⟨none, .none, ⟨0, 1, 2, false, false⟩, none⟩

/-- A small payload; every packet built is a block of zeros. -/
def samplePost : Post := ⟨[], 0, fun _ => .ok (List.replicate sphinxPacketSize 0), "hash"⟩

/-- The error of an upload whose dial failed. -/
def dialError : ErrorChain :=
  [⟨some .transportFailed, none⟩, ⟨some .transportFailed, none⟩, ⟨some .transportFailed, none⟩,
    ⟨none, some .dial⟩]

theorem exists_upload_samplePost :
    ∃ request, samplePost.upload = [⟨some request, .dial, 0, none⟩] := by
  obtain ⟨request, hrequest⟩ :=
    exists_packetRequest (List.replicate sphinxPacketSize 0) (show isToken "hash" = true by decide)
  refine ⟨request, ?_⟩
  have hsize : (List.replicate sphinxPacketSize (0 : UInt8)).length = sphinxPacketSize :=
    List.length_replicate
  have hexchange : startExchange "hash" (List.replicate sphinxPacketSize 0)
      = ⟨some request, .dial, 0, none⟩ := by
    rw [startExchange, if_neg (not_not.mpr hsize), hrequest]
  exact congrArg (fun exchange => [exchange]) hexchange

/-- The dial for the first copy fails, and the request is sent again. -/
theorem request_delivered_once_sample :
    ∃ d : Delivery, d.callState.call.attempts.length = 2 ∧
      ∀ upload, d.uploads[0]? = some upload → FailedUnsent upload := by
  obtain ⟨s, hstart, hview⟩ : ∃ s, startCall kpsSettings kpsMoment onceParams 0 = .ok s ∧
      ((CallEvent.failure 0 dialError).enabled s.call, s.call.attempts.length,
        (s.handle kpsSettings kpsMoment (.failure 0 dialError)).call.attempts.length)
      = (true, 1, 2) := by
    have h : (startCall kpsSettings kpsMoment onceParams 0).toOption.map (fun s =>
        ((CallEvent.failure 0 dialError).enabled s.call, s.call.attempts.length,
          (s.handle kpsSettings kpsMoment (.failure 0 dialError)).call.attempts.length))
        = some (true, 1, 2) := by
      decide +kernel
    obtain ⟨s, hs, hview⟩ := Option.map_eq_some_iff.mp h
    exact ⟨s, toOption_eq_some_iff.mp hs, hview⟩
  simp only [Prod.mk.injEq] at hview
  obtain ⟨henabled, hone, htwo⟩ := hview
  obtain ⟨request, hupload⟩ := exists_upload_samplePost
  have hinitial : Delivery.start kpsSettings kpsMoment onceParams 0 samplePost
      = .ok ⟨s, [samplePost.upload]⟩ := by
    rw [Delivery.start, hstart]
    rfl
  -- the copy was not written: its exchange fails in the dial
  let failed : Exchange :=
    ⟨some request, .dial, 0, some (.failed (phaseError .dial .networkError))⟩
  have hdial : Delivery.step kpsSettings ⟨s, [samplePost.upload]⟩
      (.exchange 0 0 (.fails .networkError)) = some ⟨s, [[failed]]⟩ := by
    rw [hupload]
    rfl
  have hallows : Delivery.allows ⟨s, [[failed]]⟩ (.failure 0 dialError) = true := by
    rw [Delivery.allows]
    rfl
  -- the failure starts a second attempt, with an upload of its own
  have hagain : Delivery.step kpsSettings ⟨s, [[failed]]⟩
      (.call kpsMoment (.failure 0 dialError) samplePost)
      = some ⟨s.handle kpsSettings kpsMoment (.failure 0 dialError),
        [[failed], samplePost.upload]⟩ := by
    rw [Delivery.step, henabled, hallows, if_neg (by simp), hone]
    dsimp only
    rw [htwo]
    rfl
  refine ⟨⟨s.handle kpsSettings kpsMoment (.failure 0 dialError),
    [[failed], samplePost.upload]⟩, htwo, fun upload hfirst => ?_⟩
  exact (request_delivered_once kpsSettings kpsMoment onceParams 0 samplePost _ _ hinitial rfl
    ((Lib.Run.refl.tail hdial).tail hagain)).2.1 0 upload (htwo ▸ Nat.one_lt_two) hfirst

end NoxSdk.Client
