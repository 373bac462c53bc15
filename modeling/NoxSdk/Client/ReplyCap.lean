import NoxSdk.Client.PendingRequests
import NoxSdk.Fragmentation.HonestReply

/-!
# The cap on replies

`_handleFragment` rejects a fragment that declares more than `maxResponseBytes` before it is added,
and a reply that is longer than that after it is assembled. The first check is sound for every
fragment of a reply that was split honestly, and the second one lets nothing through.
-/

namespace NoxSdk.Client

open Fragmentation (Fragment HonestReply clampedSub)

/-- The fragments that reach a request are fragments of the reply. -/
def FragmentsFrom (requestId : ℕ) (reply : HonestReply) (_client : Bookkeeping)
    (event : RequestEvent) : Prop :=
  ∀ fragment now createdAt storedAt, event = .fragment requestId fragment now createdAt storedAt →
    reply.Sends fragment

section Lemmas

variable {client mid after : Bookkeeping} {requestId id limit : ℕ} {reply : HonestReply}

/-! ### Turns that are not about a request -/

/-- A rejection that is not about the size of the reply. -/
def PromiseOutcome.OtherRejection (outcome : PromiseOutcome) : Prop :=
  ∃ message code, outcome = .rejected (.noxClientError message code) ∧ code ≠ .responseTooLarge

/-- The request keeps its entry or loses it, and is not settled but by another rejection. -/
structure Leaves (id : ℕ) (client after : Bookkeeping) : Prop where
  pending : ∀ req, after.pending.get? id = some req → client.pending.get? id = some req
  settled : ∀ outcome, (id, outcome) ∈ after.settled →
    (id, outcome) ∈ client.settled ∨ outcome.OtherRejection
  next : client.nextRequestId ≤ after.nextRequestId

/-- Steps in turn that leave a request leave it. -/
theorem Leaves.trans (h : Leaves id client mid) (h' : Leaves id mid after) :
    Leaves id client after where
  pending req hget := h.pending req (h'.pending req hget)
  settled outcome hmem := (h'.settled outcome hmem).elim (h.settled outcome) .inr
  next := h.next.trans h'.next

/-- What changes no request and no outcome leaves them. -/
theorem Leaves.of_same (hpending : after.pending = client.pending)
    (hsettled : after.settled = client.settled)
    (hnext : client.nextRequestId ≤ after.nextRequestId) : Leaves id client after where
  pending _ hget := hpending ▸ hget
  settled _ hmem := .inl (hsettled ▸ hmem)
  next := hnext

/-- Doing nothing leaves a request. -/
theorem Leaves.refl (client : Bookkeeping) : Leaves id client client := .of_same rfl rfl le_rfl

/-- Forgetting a request gives it no outcome. -/
theorem leaves_forget (client : Bookkeeping) (requestId : ℕ) :
    Leaves id client (client.forget requestId) where
  pending req hget := by
    by_cases hid : id = requestId
    · subst hid
      rw [Bookkeeping.forget, OrderedMap.get?_delete_self] at hget
      cases hget
    · rwa [Bookkeeping.forget, OrderedMap.get?_delete_of_ne _ hid] at hget
  settled _ hmem := .inl hmem
  next := le_rfl

/-- A settlement of another request, or another rejection. -/
theorem leaves_settle (client : Bookkeeping) {settlement : PromiseOutcome}
    (h : id ≠ requestId ∨ settlement.OtherRejection) :
    Leaves id client (client.settle requestId settlement) where
  pending _ hget := hget
  settled outcome hmem := by
    obtain hmem | hmem := List.mem_append.mp hmem
    · exact .inl hmem
    · obtain ⟨rfl, rfl⟩ := Prod.mk.inj (List.mem_singleton.mp hmem)
      exact .inr (h.resolve_left fun hne => hne rfl)
  next := le_rfl

/-- A request that settles leaves the others alone, or is rejected for another reason than its size.
-/
theorem leaves_forgetAll_settle (client : Bookkeeping) {settlement : PromiseOutcome}
    (h : id ≠ requestId ∨ settlement.OtherRejection) :
    Leaves id client ((client.forgetAll requestId).settle requestId settlement) := by
  have hgone : Leaves id client (client.forgetAll requestId) :=
    (leaves_forget client requestId).trans (.of_same rfl rfl le_rfl)
  exact hgone.trans (leaves_settle _ h)

/-- A failure leaves the other requests alone, or has another reason than the size. -/
theorem leaves_failPending (client : Bookkeeping) {error : Thrown}
    (h : id ≠ requestId ∨ (PromiseOutcome.rejected error).OtherRejection) :
    Leaves id client (client.failPending requestId error) := by
  rw [Bookkeeping.failPending]
  split
  · exact .refl client
  · exact leaves_forgetAll_settle client h

/-- An abort is no rejection for size. -/
theorem otherRejection_aborted :
    (PromiseOutcome.rejected Bookkeeping.abortedByCaller).OtherRejection :=
  ⟨_, _, rfl, by decide⟩

/-- A request that is sent leaves those before it alone. -/
theorem leaves_register_sendOnRoute (client : Bookkeeping) (request : SentRequest) :
    Leaves id (client.register request) (client.sendOnRoute request) := by
  rw [Bookkeeping.sendOnRoute]
  split_ifs
  · exact leaves_failPending _ (.inr otherRejection_aborted)
  · exact .of_same rfl rfl le_rfl

/-- A new request has another ID. -/
theorem leaves_sendOnRoute (hissued : id < client.nextRequestId) (request : SentRequest) :
    Leaves id client (client.sendOnRoute request) := by
  have hsent : Leaves id client (client.register request) := by
    refine ⟨fun req hget => ?_, fun _ hmem => .inl hmem, Nat.le_succ _⟩
    rwa [Bookkeeping.register, OrderedMap.get?_set_of_ne _ _ hissued.ne] at hget
  exact hsent.trans (leaves_register_sendOnRoute client request)

/-- A timeout rejects for time, not for size. -/
theorem leaves_responseTimeout (client : Bookkeeping) (requestId effectiveTimeout : ℕ) :
    Leaves id client (client.responseTimeout requestId effectiveTimeout) := by
  have hfired : Leaves id client { client with
      timers := client.timers.filter fun id => id != requestId } := .of_same rfl rfl le_rfl
  rw [Bookkeeping.responseTimeout]
  dsimp only
  split_ifs
  · exact hfired.trans (leaves_forgetAll_settle _ (.inr ⟨_, _, rfl, by decide⟩))
  · exact hfired

/-- A failed upload rejects for the upload, not for size. -/
theorem leaves_uploadFailed (client : Bookkeeping) (requestId : ℕ) (error : String) :
    Leaves id client (client.uploadFailed requestId error) := by
  have hended : Leaves id client { client with
      uploads := client.uploads.filter fun id => id != requestId } := .of_same rfl rfl le_rfl
  rw [Bookkeeping.uploadFailed]
  dsimp only
  split
  · exact hended
  · exact hended.trans (leaves_forgetAll_settle _ (.inr ⟨_, _, rfl, by decide⟩))

/-- A sign of life leaves the requests. -/
theorem leaves_noteActivity (client : Bookkeeping) (requestId : ℕ) (now : ℤ) :
    Leaves id client (client.noteActivity requestId now) := by
  rw [Bookkeeping.noteActivity]
  split
  · exact .refl client
  · exact .of_same rfl rfl le_rfl

/-- A fragment of another request. -/
theorem leaves_handleFragment (client : Bookkeeping) (hne : id ≠ requestId) (fragment : Fragment)
    (now createdAt storedAt : ℤ) :
    Leaves id client (client.handleFragment requestId fragment now createdAt storedAt) := by
  have hnoted : Leaves id client (client.noteActivity requestId now) :=
    leaves_noteActivity client requestId now
  have hstored : ∀ req, client.pending.get? requestId = some req →
      Leaves id client (client.storeFragment requestId req fragment now createdAt storedAt) := by
    refine fun req _ => hnoted.trans ⟨fun req' hget => ?_, fun _ hmem => .inl hmem, le_rfl⟩
    have hget : ((client.noteActivity requestId now).pending.set requestId _).get? id =
      some req' := hget
    rwa [OrderedMap.get?_set_of_ne _ _ hne] at hget
  refine Bookkeeping.handleFragment_cases (fun _ => .refl client)
    (fun _ _ _ => hnoted.trans (leaves_failPending _ (.inl hne))) hstored
    (fun req _ hget => (hstored req hget).trans (leaves_failPending _ (.inl hne))) ?_
  rintro req data settled hget rfl
  exact (((hstored req hget).trans (leaves_forget _ _)).trans (leaves_settle _ (.inl hne))).trans
    (.of_same rfl rfl le_rfl)

/-- A signal leaves the requests. -/
theorem leaves_handleNeedMoreSurbs (client : Bookkeeping) (requestId serverRequestId : ℕ)
    (now : ℤ) (surbs : List (String × SurbEntry)) :
    Leaves id client (client.handleNeedMoreSurbs requestId serverRequestId now surbs) := by
  rw [Bookkeeping.handleNeedMoreSurbs]
  dsimp only
  split_ifs
  · exact .refl client
  · exact .refl client
  · exact .of_same rfl rfl le_rfl

/-- A stall check leaves the requests. -/
theorem leaves_checkBurstStalls (client : Bookkeeping) (now : ℤ)
    (surbs : ℕ → List (String × SurbEntry)) :
    Leaves id client (client.checkBurstStalls now surbs) := by
  rw [Bookkeeping.checkBurstStalls]
  refine List.foldlRecOn _ _ (.refl client) ?_
  rintro after h ⟨requestId, bs⟩ -
  simp only [Bookkeeping.checkBurstStall]
  split_ifs
  · exact h
  · split
    · exact h
    · split_ifs
      · exact h
      · exact h.trans (leaves_handleNeedMoreSurbs _ _ _ _ _)
  · exact h

/-- A disconnect rejects every request, none of them for its size. -/
theorem leaves_disconnect (client : Bookkeeping) : Leaves id client client.disconnect := by
  have hloop : ∀ (ids : List ℕ) (client : Bookkeeping),
      Leaves id client (ids.foldl Bookkeeping.disconnectRequest client) := by
    intro ids
    induction ids with
    | nil => exact .refl
    | cons first ids ih =>
      intro client
      have hfirst : Leaves id client (client.disconnectRequest first) :=
        (leaves_settle client (.inr ⟨_, _, rfl, by decide⟩)).trans (.of_same rfl rfl le_rfl)
      exact hfirst.trans (ih _)
  obtain ⟨-, hsettled, hnext⟩ := hloop client.pending.keys { client with stallTimer := false }
  refine ⟨fun _ hget => ?_, hsettled, hnext⟩
  cases hget

/-- One turn that is no fragment of the request. -/
theorem leaves_step {event : RequestEvent} (hissued : id < client.nextRequestId)
    (hother : ∀ fragment now createdAt storedAt,
      event ≠ .fragment id fragment now createdAt storedAt)
    (hstep : client.step event = some after) : Leaves id client after := by
  cases event with
  | send request =>
    obtain rfl := eq_of_armed hstep
    exact leaves_sendOnRoute hissued request
  | sendFailed surbs =>
    obtain rfl := eq_of_armed hstep
    exact .of_same rfl rfl (Nat.le_succ _)
  | uploaded requestId =>
    obtain rfl := eq_of_armed hstep
    exact .of_same rfl rfl le_rfl
  | uploadFailed requestId error =>
    obtain rfl := eq_of_armed hstep
    exact leaves_uploadFailed client requestId error
  | timeout requestId effectiveTimeout =>
    obtain rfl := eq_of_armed hstep
    exact leaves_responseTimeout client requestId effectiveTimeout
  | abort requestId =>
    obtain rfl := eq_of_armed hstep
    have hheard : Leaves id client { client with
        listeners := client.listeners.filter fun id => id != requestId } := .of_same rfl rfl le_rfl
    exact hheard.trans (leaves_failPending _ (.inr otherRejection_aborted))
  | fragment requestId fragment now createdAt storedAt =>
    obtain rfl := Option.some.inj hstep
    -- a fragment of another request
    refine leaves_handleFragment client (fun hid => ?_) fragment now createdAt storedAt
    exact hother fragment now createdAt storedAt (hid ▸ rfl)
  | needMoreSurbs requestId serverRequestId now surbs =>
    obtain rfl := Option.some.inj hstep
    exact leaves_handleNeedMoreSurbs client requestId serverRequestId now surbs
  | stallCheck now surbs =>
    obtain rfl := eq_of_armed hstep
    exact leaves_checkBurstStalls client now surbs
  | burstDone requestId =>
    obtain rfl := eq_of_armed hstep
    exact .of_same rfl rfl le_rfl
  | burstFailed requestId =>
    obtain rfl := eq_of_armed hstep
    exact .of_same rfl rfl le_rfl
  | cleanup requestId =>
    obtain rfl := eq_of_armed hstep
    exact .of_same rfl rfl le_rfl
  | disconnect =>
    obtain rfl := Option.some.inj hstep
    exact leaves_disconnect client

/-! ### A fragment of the request -/

/-- No fragment of an honest reply declares more than its size. -/
theorem declaredSize_le {fragment : Fragment} (h : reply.Sends fragment) :
    Bookkeeping.declaredSize fragment ≤ reply.size := by
  rw [Bookkeeping.declaredSize, h.fec]
  cases hfec : reply.fec with
  | some info => exact Int.ofNat_le.mpr (reply.coded info hfec).le
  | none =>
    obtain ⟨heven, hsize⟩ := reply.even hfec
    have hpart : fragment.data ∈ reply.parts := List.mem_of_getElem? h.part
    have hpos : 1 ≤ reply.parts.length := List.length_pos_of_mem hpart
    dsimp only
    rw [h.total, ← hsize]
    calc ((reply.parts.length : ℤ) - 1) * fragment.data.length
        = (((reply.parts.length - 1) * fragment.data.length : ℕ) : ℤ) := by
          rw [Nat.cast_mul, Nat.cast_sub hpos, Nat.cast_one]
      _ ≤ reply.parts.flatten.length := Int.ofNat_le.mpr (heven.bound hpart)

/-- What a fragment makes of its request: the request stays with what the reassembler keeps, or is
resolved within its limit, or rejected because the fragment or the whole reply is over it. -/
structure AddsFragment (id : ℕ) (client : Bookkeeping) (req : PendingRequest) (fragment : Fragment)
    (createdAt storedAt : ℤ) (after : Bookkeeping) : Prop where
  pending : ∀ req', after.pending.get? id = some req' →
    req' = { req with
      reassembler := (req.reassembler.addFragment clampedSub createdAt storedAt fragment).2 }
  settled : ∀ outcome, (id, outcome) ∈ after.settled → (id, outcome) ∈ client.settled ∨
    (∃ data, outcome = .resolved data ∧ ∀ limit, req.maxResponseBytes = some limit →
      data.length ≤ limit) ∨
    (∃ limit error, outcome = .rejected error ∧ req.maxResponseBytes = some limit ∧
      ((limit : ℤ) < Bookkeeping.declaredSize fragment ∨ ∃ data : Bytes,
        (req.reassembler.addFragment clampedSub createdAt storedAt fragment).1 = .ok (some data) ∧
          limit < data.length))
  next : client.nextRequestId ≤ after.nextRequestId

/-- A failure settles with its own error only. -/
theorem mem_settled_failPending {error : Thrown} {outcome : PromiseOutcome}
    (h : (id, outcome) ∈ (client.failPending requestId error).settled) :
    (id, outcome) ∈ client.settled ∨ outcome = .rejected error := by
  rw [Bookkeeping.failPending] at h
  split at h
  · exact .inl h
  · refine (List.mem_append.mp h).imp_right fun hmem => ?_
    exact (Prod.mk.inj (List.mem_singleton.mp hmem)).2

/-- A request that fails is no longer pending. -/
theorem get?_failPending_self {error : Thrown} :
    (client.failPending id error).pending.get? id = none := by
  rw [Bookkeeping.failPending]
  split
  next hget => exact hget
  · exact OrderedMap.get?_delete_self _ _

/-- No id is given out twice. -/
theorem next_le_failPending (error : Thrown) :
    client.nextRequestId ≤ (client.failPending requestId error).nextRequestId := by
  rw [Bookkeeping.failPending]
  split <;> exact le_rfl

/-- A sign of life settles nothing. -/
theorem settled_noteActivity (now : ℤ) :
    (client.noteActivity requestId now).settled = client.settled := by
  rw [Bookkeeping.noteActivity]
  split <;> rfl

/-- The request is rejected for a size beyond its limit. -/
theorem AddsFragment.tooLarge {base : Bookkeeping} {req : PendingRequest} {fragment : Fragment}
    {createdAt storedAt : ℤ} {limit : ℕ} (hsettled : base.settled = client.settled)
    (hnext : client.nextRequestId ≤ base.nextRequestId) (hlimit : req.maxResponseBytes = some limit)
    (hover : (limit : ℤ) < Bookkeeping.declaredSize fragment ∨ ∃ data,
      (req.reassembler.addFragment clampedSub createdAt storedAt fragment).1 = .ok (some data) ∧
        limit < data.length) (size : String) :
    AddsFragment id client req fragment createdAt storedAt
      (base.failPending id (Bookkeeping.responseTooLarge size limit)) := by
  refine ⟨fun req' hreq' => ?_, fun outcome hmem => ?_, hnext.trans (next_le_failPending _)⟩
  · cases get?_failPending_self.symm.trans hreq'
  · obtain hmem | rfl := mem_settled_failPending hmem
    · exact .inl (hsettled ▸ hmem)
    · exact .inr (.inr ⟨limit, _, rfl, hlimit, hover⟩)

/-- A fragment of a pending request comes to one of the outcomes of `AddsFragment`. -/
theorem addsFragment {req : PendingRequest} (hget : client.pending.get? id = some req)
    (fragment : Fragment) (now createdAt storedAt : ℤ) :
    AddsFragment id client req fragment createdAt storedAt
      (client.handleFragment id fragment now createdAt storedAt) := by
  have hsettled := @settled_noteActivity client id now
  have hnext : client.nextRequestId ≤ (client.noteActivity id now).nextRequestId :=
    (leaves_noteActivity client id now : Leaves id client _).next
  rw [Bookkeeping.handleFragment, hget]
  dsimp only
  split
  next limit hlimit =>
    obtain ⟨hlimit, hover⟩ := Option.filter_eq_some_iff.mp hlimit
    -- the fragments already tell a size beyond the limit
    exact .tooLarge hsettled hnext hlimit (.inl (of_decide_eq_true hover)) _
  next hwithin =>
    -- the fragment is kept, and nothing is settled
    have hstored : AddsFragment id client req fragment createdAt storedAt
        { client.noteActivity id now with
          pending := (client.noteActivity id now).pending.set id { req with
            reassembler :=
              (req.reassembler.addFragment clampedSub createdAt storedAt fragment).2 } } := by
      refine ⟨fun req' hreq' => ?_, fun outcome hmem => .inl (hsettled ▸ hmem), hnext⟩
      dsimp only at hreq'
      rw [OrderedMap.get?_set_self] at hreq'
      exact (Option.some.inj hreq').symm
    cases hadd : (req.reassembler.addFragment clampedSub createdAt storedAt fragment).1 with
    | error thrown => exact hstored
    | ok result =>
      cases result with
      | none => exact hstored
      | some data =>
        dsimp only
        split
        next limit hlimit =>
          obtain ⟨hlimit, hover⟩ := Option.filter_eq_some_iff.mp hlimit
          -- only the whole reply turns out too large
          refine .tooLarge ?_ ?_ hlimit (.inr ⟨data, hadd, of_decide_eq_true hover⟩) _
          · exact hsettled
          · exact hnext
        next hlate =>
          refine ⟨fun req' hreq' => ?_, fun outcome hmem => ?_, hnext⟩
          · cases (OrderedMap.get?_delete_self _ _).symm.trans hreq'
          · obtain hmem | hmem := List.mem_append.mp hmem
            · exact .inl (hsettled ▸ hmem)
            · obtain ⟨-, rfl⟩ := Prod.mk.inj (List.mem_singleton.mp hmem)
              refine .inr (.inl ⟨data, rfl, fun limit hlimit => ?_⟩)
              rw [hlimit, Option.filter_some] at hlate
              simpa using hlate

/-! ### The cap along a run -/

/-- The request keeps its limit and is resolved within it. -/
structure Capped (id limit : ℕ) (client : Bookkeeping) : Prop where
  issued : id < client.nextRequestId
  keeps : ∀ req, client.pending.get? id = some req → req.maxResponseBytes = some limit
  resolved : ∀ data, (id, .resolved data) ∈ client.settled → data.length ≤ limit

/-- The request holds only fragments of the reply and is not rejected for its size. -/
structure Spared (id limit : ℕ) (reply : HonestReply) (client : Bookkeeping) : Prop where
  capped : Capped id limit client
  holds : ∀ req, client.pending.get? id = some req →
    Fragmentation.Reassembler.HoldsReply reply req.reassembler
  rejected : ∀ message,
    (id, .rejected (.noxClientError message .responseTooLarge)) ∉ client.settled

/-- A turn that leaves the request alone keeps its cap. -/
theorem Capped.leaves (h : Capped id limit client) (hleaves : Leaves id client after) :
    Capped id limit after where
  issued := lt_of_lt_of_le h.issued hleaves.next
  keeps req hget := h.keeps req (hleaves.pending req hget)
  resolved data hmem := by
    obtain hmem | ⟨message, code, heq, -⟩ := hleaves.settled _ hmem
    · exact h.resolved data hmem
    · cases heq

/-- A turn that leaves the request alone rejects it for nothing new. -/
theorem Spared.leaves (h : Spared id limit reply client) (hleaves : Leaves id client after) :
    Spared id limit reply after where
  capped := h.capped.leaves hleaves
  holds req hget := h.holds req (hleaves.pending req hget)
  rejected message hmem := by
    obtain hmem | ⟨message', code, heq, hcode⟩ := hleaves.settled _ hmem
    · exact h.rejected message hmem
    · cases heq
      exact hcode rfl

/-- A fragment that is stored keeps the collected bytes within the cap, or the request is rejected.
-/
theorem Capped.addsFragment (h : Capped id limit client) {req : PendingRequest}
    (hget : client.pending.get? id = some req) {fragment : Fragment} {createdAt storedAt : ℤ}
    (hadds : AddsFragment id client req fragment createdAt storedAt after) :
    Capped id limit after where
  issued := lt_of_lt_of_le h.issued hadds.next
  keeps req' hget' := by
    obtain rfl := hadds.pending req' hget'
    exact h.keeps req hget
  resolved data hmem := by
    obtain hmem | ⟨data', heq, hlimit⟩ | ⟨_, _, heq, -⟩ := hadds.settled _ hmem
    · exact h.resolved data hmem
    · cases heq
      exact hlimit limit (h.keeps req hget)
    · cases heq

/-- A fragment of an honest reply within the limit passes both checks. -/
theorem Spared.addsFragment (h : Spared id limit reply client) (hsize : reply.size ≤ limit)
    {req : PendingRequest} (hget : client.pending.get? id = some req) {fragment : Fragment}
    (hsends : reply.Sends fragment) {createdAt storedAt : ℤ}
    (hadds : AddsFragment id client req fragment createdAt storedAt after) :
    Spared id limit reply after := by
  obtain ⟨hholds, hlength⟩ := (h.holds req hget).addFragment hsends createdAt storedAt
  refine ⟨h.capped.addsFragment hget hadds, fun req' hget' => ?_, fun message hmem => ?_⟩
  · obtain rfl := hadds.pending req' hget'
    exact hholds
  · obtain hmem | ⟨_, heq, -⟩ | ⟨limit', error, -, hlimit, hover⟩ := hadds.settled _ hmem
    · exact h.rejected message hmem
    · cases heq
    · obtain rfl := Option.some.inj ((h.capped.keeps req hget).symm.trans hlimit)
      obtain hearly | ⟨data, hdata, hlate⟩ := hover
      · have hdeclared := declaredSize_le hsends
        omega
      · exact absurd (hlength data hdata) (by omega)

/-- One turn, whatever fragments it brings. -/
theorem Capped.step {event : RequestEvent} (h : Capped id limit client)
    (hstep : client.step event = some after) : Capped id limit after := by
  by_cases hother : ∀ fragment now createdAt storedAt,
      event ≠ .fragment id fragment now createdAt storedAt
  · exact h.leaves (leaves_step h.issued hother hstep)
  · push Not at hother
    obtain ⟨fragment, now, createdAt, storedAt, rfl⟩ := hother
    obtain rfl := Option.some.inj hstep
    cases hget : client.pending.get? id with
    | none =>
      rw [Bookkeeping.handleFragment, hget]
      exact h
    | some req => exact h.addsFragment hget (NoxSdk.Client.addsFragment hget _ _ _ _)

/-- One turn that brings the request nothing but fragments of the reply. -/
theorem Spared.step {event : RequestEvent} (h : Spared id limit reply client)
    (hsize : reply.size ≤ limit) (hfrom : FragmentsFrom id reply client event)
    (hstep : client.step event = some after) : Spared id limit reply after := by
  by_cases hother : ∀ fragment now createdAt storedAt,
      event ≠ .fragment id fragment now createdAt storedAt
  · exact h.leaves (leaves_step h.capped.issued hother hstep)
  · push Not at hother
    obtain ⟨fragment, now, createdAt, storedAt, rfl⟩ := hother
    have hsends := hfrom fragment now createdAt storedAt rfl
    obtain rfl := Option.some.inj hstep
    cases hget : client.pending.get? id with
    | none =>
      rw [Bookkeeping.handleFragment, hget]
      exact h
    | some req =>
      exact h.addsFragment hsize hget hsends (NoxSdk.Client.addsFragment hget _ _ _ _)

/-- No request was settled under the next ID. -/
theorem MapsAgree.not_settled_next (h : MapsAgree client) (outcome : PromiseOutcome) :
    (client.nextRequestId, outcome) ∉ client.settled :=
  fun hmem => absurd (h.settled_issued _ (List.mem_map_of_mem hmem)) (lt_irrefl _)

/-- A request that was just sent has collected nothing. -/
theorem capped_send (h : MapsAgree client) {request : SentRequest}
    (hlimit : request.maxResponseBytes = some limit) :
    Capped client.nextRequestId limit (client.sendOnRoute request) := by
  have hsent : Capped client.nextRequestId limit (client.register request) := by
    refine ⟨Nat.lt_succ_self _, fun req hreq => ?_,
      fun data hmem => absurd hmem (h.not_settled_next _)⟩
    obtain rfl := Option.some.inj ((OrderedMap.get?_set_self _ _ _).symm.trans hreq)
    exact hlimit
  exact hsent.leaves (leaves_register_sendOnRoute client request)

/-- A request that was just sent holds nothing. -/
theorem spared_send (h : MapsAgree client) {request : SentRequest}
    (hlimit : request.maxResponseBytes = some limit) (reply : HonestReply) :
    Spared client.nextRequestId limit reply (client.sendOnRoute request) := by
  have hleaves := @leaves_register_sendOnRoute client.nextRequestId client request
  refine ⟨capped_send h hlimit, fun req hreq => ?_, fun message hmem => ?_⟩
  · obtain rfl := Option.some.inj
      ((OrderedMap.get?_set_self _ _ _).symm.trans (hleaves.pending req hreq))
    exact Fragmentation.Reassembler.new_holdsReply _ reply
  · obtain hmem | ⟨_, code, heq, hcode⟩ := hleaves.settled _ hmem
    · exact h.not_settled_next _ hmem
    · cases heq
      exact hcode rfl

end Lemmas

/-- A request sent with `maxResponseBytes` is never resolved with more than these bytes, and never
rejected as too large while the fragments that reach it come from an honest reply within them.

Two invariants of the run behind the call: what is collected stays within the cap, so what resolves
the request does (`Capped`); and while every fragment is from an honest reply the collected bytes
are part of it, so no check of the cap fails (`Spared`). -/
theorem reply_cap_exact {hasWasm : Bool} {client sent : Bookkeeping} {request : SentRequest}
    {limit : ℕ} (hrun : Lib.Run Bookkeeping.step (.initial hasWasm) client)
    (hlimit : request.maxResponseBytes = some limit)
    (hsend : client.step (.send request) = some sent) :
    (∀ after, Lib.Run Bookkeeping.step sent after →
      ∀ data, (client.nextRequestId, .resolved data) ∈ after.settled → data.length ≤ limit) ∧
    ∀ reply : HonestReply, reply.size ≤ limit → ∀ after,
      Lib.RunWhen Bookkeeping.step (FragmentsFrom client.nextRequestId reply) sent after →
        ∀ message, (client.nextRequestId, .rejected (.noxClientError message .responseTooLarge)) ∉
          after.settled := by
  have hagree := mapsAgree_of_run hrun
  obtain rfl := eq_of_armed hsend
  refine ⟨fun after hafter => ?_, fun reply hsize after hafter => ?_⟩
  · have hcapped : Capped client.nextRequestId limit after :=
      hafter.invariant (capped_send hagree hlimit) fun _ _ _ h hstep => h.step hstep
    exact hcapped.resolved
  · have hspared : Spared client.nextRequestId limit reply after :=
      hafter.invariant (spared_send hagree hlimit reply)
        fun _ _ _ h hfrom hstep => h.step hsize hfrom hstep
    exact hspared.rejected

/-- Three bytes, split after the second one. -/
private def threeBytes : HonestReply where
  messageId := 7
  size := 3
  parts := [[1, 2], [3]]
  fec := none
  even _ := ⟨⟨2, by simp, by simp⟩, rfl⟩
  coded _ h := by cases h

/-- The short last part comes first. -/
private def lastFirst : List RequestEvent :=
  [.fragment 0 ⟨7, 2, 1, [3], none⟩ 0 0 0, .fragment 0 ⟨7, 2, 0, [1, 2], none⟩ 0 0 0]

/-- A reply of three bytes under a cap of three. -/
theorem reply_cap_exact_three_bytes :
    ∃ sent after, (Bookkeeping.initial true).step
        (.send { plainRequest with maxResponseBytes := some 3 }) = some sent ∧
      Lib.runEvents Bookkeeping.step sent lastFirst = some after ∧
      after.settled = [(0, .resolved [1, 2, 3])] ∧
      (∀ data, (0, .resolved data) ∈ after.settled → data.length ≤ 3) ∧
      ∀ message, (0, .rejected (.noxClientError message .responseTooLarge)) ∉ after.settled := by
  have hfrom : ∀ event ∈ lastFirst, ∀ client, FragmentsFrom 0 threeBytes client event := by
    rintro event hevent client fragment now createdAt storedAt rfl
    simp only [lastFirst, List.mem_cons, RequestEvent.fragment.injEq, true_and, List.not_mem_nil,
      or_false] at hevent
    obtain ⟨rfl, -⟩ | ⟨rfl, -⟩ := hevent
    · exact ⟨rfl, rfl, rfl, rfl⟩
    · exact ⟨rfl, rfl, rfl, rfl⟩
  have hcap := @reply_cap_exact true (.initial true) _
    { plainRequest with maxResponseBytes := some 3 } 3 Lib.Run.refl rfl rfl
  exact ⟨_, _, rfl, rfl, by decide, hcap.1 _ (@Lib.run_of_runEvents _ _ _ _ _ lastFirst rfl),
    hcap.2 threeBytes le_rfl _ (@Lib.runWhen_of_runEvents _ _ _ _ _ _ lastFirst hfrom rfl)⟩

end NoxSdk.Client
