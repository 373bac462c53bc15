import NoxSdk.Client.PendingRequests
import NoxSdk.Client.ResponseItems

/-!
# How long reply blocks live

The reply blocks of a request, of a tunnel copy and of a burst are registered in one pool, under
the ID of their request. Once a request is pending or a stream is live, whatever ends it deletes
the blocks or arms the timer that does; a burst registers only while its request is pending.

`_sendOnRoute` and `tunnelSend` register their blocks before the request is pending or the stream
live. A call that throws in between (while more blocks are made, when the socket subscribes, in an
encoder, in the packet build) leaves what it registered behind, as `leaked_of_throws` shows.
-/

namespace NoxSdk.Client

/-! ### Streams -/

/-- What `onReply` returns for a part, or that it throws. -/
inductive PartVerdict
  | more
  | done
  | throws
  deriving DecidableEq

/-- What the WASM module makes for one reply block: the ID it is registered under and the recovery
that opens its reply. -/
structure CreatedSurb where
  idHex : String
  recoveryJson : String

/-- The entries that `generate` registers. -/
def generated (requestId : ℕ) (version : SurbVersion) (created : List CreatedSurb) :
    List (String × SurbEntry) :=
  created.map fun surb => (surb.idHex, ⟨requestId, surb.recoveryJson, some version⟩)

/-- `versionFor`. -/
def ReplenishmentManager.versionFor (manager : ReplenishmentManager) (requestId : ℕ) :
    SurbVersion :=
  (manager.versions.get? requestId).getD .v1

/-- The client with its live tunnel streams, `_streams`. -/
structure TunnelClient where
  client : Bookkeeping
  streams : List ℕ

namespace TunnelClient

variable (state : TunnelClient) (requestId : ℕ)

/-- A client before its first request. -/
def initial (hasWasm : Bool) : TunnelClient := ⟨.initial hasWasm, []⟩

/-- What `_handleResponseItem` reads of it. -/
def replyState (wasm : Wasm) : ReplyState where
  wasm := if state.client.hasWasm then some wasm else none
  surbPool := state.client.surbPool
  pending := .empty
  streams := state.streams

/-- The ID of the next request is taken and reply blocks are registered for it. -/
def takeId (version : SurbVersion) (created : List CreatedSurb) : TunnelClient :=
  { state with client := { state.client with
      nextRequestId := state.client.nextRequestId + 1
      surbPool := state.client.surbPool.register
        (generated state.client.nextRequestId version created) } }

/-- `tunnelSend`, of a call that gets to its end: with `surbs = 0` there is nothing to listen
for. -/
def tunnelSend (surbs : ℤ) (version : SurbVersion) (created : List CreatedSurb) : TunnelClient :=
  let sent := state.takeId version created
  if surbs = 0 then sent
  else { sent with streams := sent.streams ++ [state.client.nextRequestId] }

/-- `finish` of a stream. -/
def finish : TunnelClient :=
  if requestId ∈ state.streams then
    { client := { state.client with cleanups := state.client.cleanups ++ [requestId] }
      streams := state.streams.filter fun id => id != requestId }
  else state

/-- `_deliverStream`. -/
def deliverStream (fragment : Bincode.FragmentWire) (verdict : PartVerdict) : TunnelClient :=
  if fragment.totalFragments ≠ 1 ∨ fragment.sequence ≠ 0 ∨ fragment.fec ≠ none then state
  else match verdict with
    | .more => state
    | .done | .throws => state.finish requestId

/-- `_handleNeedMoreSurbs` up to its `await`. -/
def handleNeedMoreSurbs (serverRequestId : ℕ) (now : ℤ) (created : List CreatedSurb) :
    TunnelClient :=
  let surbs := generated requestId (state.client.replenishment.versionFor requestId) created
  { state with
    client := state.client.handleNeedMoreSurbs requestId serverRequestId now surbs }

/-- `_handleResponseItem` with what it hands the reply to. -/
def handleItem (wasm : Wasm) (item : ClaimedItem) (verdict : PartVerdict)
    (now createdAt storedAt : ℤ) (created : List CreatedSurb) : TunnelClient :=
  let (reply, handed) := (state.replyState wasm).handleResponseItem item none
  let state := { state with client := { state.client with surbPool := reply.surbPool } }
  match handed with
  | none => state
  | some (.stream requestId fragment) => state.deliverStream requestId fragment verdict
  | some (.fragment requestId fragment) =>
    { state with client := state.client.handleFragment requestId fragment now createdAt storedAt }
  | some (.needMoreSurbs requestId serverRequestId _) =>
    state.handleNeedMoreSurbs requestId serverRequestId now created

/-- `disconnect`. -/
def disconnect : TunnelClient where
  client := { state.client.disconnect with
    cleanups := state.client.disconnect.cleanups ++ state.streams }
  streams := []

end TunnelClient

/-- A turn of the event loop. -/
inductive TunnelEvent
  | send (request : SentRequest) (created : List CreatedSurb)
  /-- A call of `_sendOnRoute` or `tunnelSend` that throws after it took an ID. -/
  | throws (version : SurbVersion) (created : List CreatedSurb)
  | tunnelSend (surbs : ℤ) (version : SurbVersion) (created : List CreatedSurb)
  /-- The timer, the signal or the upload of a live stream ends it. -/
  | streamEnds (requestId : ℕ)
  | item (item : ClaimedItem) (verdict : PartVerdict) (now createdAt storedAt : ℤ)
      (created : List CreatedSurb)
  | stallCheck (now : ℤ) (created : ℕ → List CreatedSurb)
  | uploaded (requestId : ℕ)
  | uploadFailed (requestId : ℕ) (error : String)
  | timeout (requestId effectiveTimeout : ℕ)
  | abort (requestId : ℕ)
  | burstDone (requestId : ℕ)
  | burstFailed (requestId : ℕ)
  | cleanup (requestId : ℕ)
  | disconnect

namespace TunnelClient

/-- A turn of the requests alone. -/
def stepClient (state : TunnelClient) (event : RequestEvent) : Option TunnelClient :=
  (state.client.step event).map fun client => { state with client := client }

/-- The client after an event; none when the event cannot happen. -/
def step (wasm : Wasm) (state : TunnelClient) : TunnelEvent → Option TunnelClient
  | .send request created => state.stepClient (.send { request with
      surbs := generated state.client.nextRequestId request.version created })
  | .throws version created =>
    -- `_requireWasm` throws before an ID is taken
    if state.client.hasWasm then some (state.takeId version created) else none
  | .tunnelSend surbs version created =>
    if state.client.hasWasm ∧ created.length = surbs.toNat then
      some (state.tunnelSend surbs version created)
    else none
  | .streamEnds requestId => some (state.finish requestId)
  | .item item verdict now createdAt storedAt created =>
    some (state.handleItem wasm item verdict now createdAt storedAt created)
  | .stallCheck now created => state.stepClient (.stallCheck now fun requestId =>
      generated requestId (state.client.replenishment.versionFor requestId) (created requestId))
  | .uploaded requestId => state.stepClient (.uploaded requestId)
  | .uploadFailed requestId error => state.stepClient (.uploadFailed requestId error)
  | .timeout requestId effectiveTimeout => state.stepClient (.timeout requestId effectiveTimeout)
  | .abort requestId => state.stepClient (.abort requestId)
  | .burstDone requestId => state.stepClient (.burstDone requestId)
  | .burstFailed requestId => state.stepClient (.burstFailed requestId)
  | .cleanup requestId => state.stepClient (.cleanup requestId)
  | .disconnect => some state.disconnect

end TunnelClient

/-! ### The pool -/

section Lemmas

variable {client mid after : Bookkeeping} {requestId : ℕ} {idHex : String} {entry : SurbEntry}
  {pool : SurbPool}

/-- A block that is left behind some deletions is none of those deleted. -/
theorem mem_foldl_delete {ids : List String}
    (h : (ids.foldl SurbPool.delete pool).registry.get? idHex = some entry) :
    idHex ∉ ids ∧ pool.registry.get? idHex = some entry := by
  induction ids generalizing pool with
  | nil => exact ⟨List.not_mem_nil, h⟩
  | cons first ids ih =>
    obtain ⟨hnot, hget⟩ := ih h
    by_cases hid : idHex = first
    · subst hid
      rw [SurbPool.delete, OrderedMap.get?_delete_self] at hget
      cases hget
    · rw [SurbPool.delete, OrderedMap.get?_delete_of_ne _ hid] at hget
      exact ⟨fun hmem => (List.mem_cons.mp hmem).elim hid hnot, hget⟩

/-- A cleanup leaves only blocks of other requests. -/
theorem get?_cleanup (h : (pool.cleanup requestId).registry.get? idHex = some entry) :
    pool.registry.get? idHex = some entry ∧ entry.requestId ≠ requestId := by
  obtain ⟨hnot, hget⟩ := mem_foldl_delete h
  exact ⟨hget, fun hid => hnot (SurbPool.mem_idsForRequest.mpr ⟨entry, hget, hid⟩)⟩

/-- What is registered is either new or was there. -/
theorem get?_register {surbs : List (String × SurbEntry)}
    (h : (pool.register surbs).registry.get? idHex = some entry) :
    pool.registry.get? idHex = some entry ∨ (idHex, entry) ∈ surbs := by
  have hfold : ∀ (surbs : List (String × SurbEntry)) (registry : OrderedMap String SurbEntry),
      (surbs.foldl (fun registry surb => registry.set surb.1 surb.2) registry).get? idHex =
        some entry → registry.get? idHex = some entry ∨ (idHex, entry) ∈ surbs := by
    intro surbs
    induction surbs with
    | nil => exact fun _ hget => .inl hget
    | cons first surbs ih =>
      intro registry hget
      obtain hget | hmem := ih _ hget
      · rw [OrderedMap.get?_set] at hget
        split_ifs at hget with hid
        · obtain rfl := Option.some.inj hget
          exact .inr (hid ▸ List.mem_cons_self)
        · exact .inl hget
      · exact .inr (List.mem_cons_of_mem _ hmem)
  exact hfold surbs pool.registry h

/-- The blocks made for a request belong to it. -/
theorem requestId_of_mem_generated {version : SurbVersion} {created : List CreatedSurb}
    (h : (idHex, entry) ∈ generated requestId version created) : entry.requestId = requestId := by
  obtain ⟨surb, -, heq⟩ := List.mem_map.mp h
  obtain ⟨-, rfl⟩ := Prod.mk.inj heq
  rfl

/-- The block an item opens leaves the pool, and no other. -/
theorem get?_handleResponseItem {reply : ReplyState} {item : ClaimedItem}
    (h : (reply.handleResponseItem item none).1.surbPool.registry.get? idHex = some entry) :
    reply.surbPool.registry.get? idHex = some entry := by
  rw [ReplyState.handleResponseItem] at h
  split at h
  · exact h
  next wasm _ =>
    split at h
    · exact h
    next pool found hmatch =>
      rw [ReplyState.receive, ReplyState.surbPool_noteClaim] at h
      obtain ⟨other, rfl⟩ : ∃ other, pool = reply.surbPool.delete other := by
        obtain hnamed | ⟨-, htried⟩ := Option.or_eq_some_iff.mp hmatch
        · obtain ⟨other, -, hdecrypt⟩ := Option.bind_eq_some_iff.mp hnamed
          obtain ⟨_, _, -, -, heq⟩ := SurbPool.decryptById_eq_some_iff.mp hdecrypt
          exact ⟨other, (Prod.mk.inj heq).1⟩
        · obtain ⟨other, _, _, -, -, -, heq⟩ := SurbPool.matchAndDecrypt_spec htried
          exact ⟨other, (Prod.mk.inj heq).1⟩
      exact (@mem_foldl_delete _ _ reply.surbPool [other] h).2

/-! ### What each turn leaves -/

/-- A request that still has its blocks cleaned up: it is pending or its timer is armed. -/
def Bookkeeping.Holds (client : Bookkeeping) (requestId : ℕ) : Prop :=
  client.pending.has requestId = true ∨ requestId ∈ client.cleanups

/-- Every block in the pool belongs to a request that is held, or was there before and belonged to
none. -/
def Tidy (client after : Bookkeeping) : Prop :=
  ∀ idHex entry, after.surbPool.registry.get? idHex = some entry →
    after.Holds entry.requestId ∨
      client.surbPool.registry.get? idHex = some entry ∧ ¬ client.Holds entry.requestId

/-- Tidy steps in turn are tidy. -/
theorem Tidy.trans (h : Tidy client mid) (h' : Tidy mid after) : Tidy client after := by
  intro idHex entry hget
  obtain hheld | ⟨hget, hfree⟩ := h' idHex entry hget
  · exact .inl hheld
  · obtain hheld | hbefore := h idHex entry hget
    · exact absurd hheld hfree
    · exact .inr hbefore

/-- A turn that adds blocks only for what it holds, and lets go of a request only with its
blocks. -/
theorem Tidy.of_kept
    (hpool : ∀ idHex entry, after.surbPool.registry.get? idHex = some entry →
      client.surbPool.registry.get? idHex = some entry ∨ after.Holds entry.requestId)
    (hholds : ∀ idHex entry, after.surbPool.registry.get? idHex = some entry →
      client.Holds entry.requestId → after.Holds entry.requestId) : Tidy client after := by
  intro idHex entry hget
  obtain hbefore | hheld := hpool idHex entry hget
  · by_cases hheld : client.Holds entry.requestId
    · exact .inl (hholds idHex entry hget hheld)
    · exact .inr ⟨hbefore, hheld⟩
  · exact .inl hheld

/-- A turn that leaves the pool, the pending requests and the armed cleanups alone. -/
theorem Tidy.of_same (hpool : after.surbPool = client.surbPool)
    (hpending : ∀ id, client.pending.has id = true → after.pending.has id = true)
    (hcleanups : after.cleanups = client.cleanups) : Tidy client after :=
  .of_kept (fun _ _ hget => .inl (hpool ▸ hget))
    fun _ _ _ hheld => hheld.imp (hpending _) fun hmem => hcleanups ▸ hmem

/-- Doing nothing is tidy. -/
theorem Tidy.refl (client : Bookkeeping) : Tidy client client := .of_same rfl (fun _ h => h) rfl

/-- A request that settles plans the release of its blocks. -/
theorem tidy_forgetAll_settle (client : Bookkeeping) (requestId : ℕ)
    (settlement : PromiseOutcome) :
    Tidy client ((client.forgetAll requestId).settle requestId settlement) := by
  refine .of_kept (fun idHex entry hget => .inl (get?_cleanup hget).1)
    fun idHex entry hget hheld => ?_
  have hne : entry.requestId ≠ requestId := (get?_cleanup hget).2
  exact hheld.imp_left fun hpending => has_delete_iff.mpr ⟨hne, hpending⟩

/-- A request that fails is gone with its blocks, or leaves them to its cleanup. -/
theorem tidy_failPending (client : Bookkeeping) (requestId : ℕ) (error : Thrown) :
    Tidy client (client.failPending requestId error) := by
  rw [Bookkeeping.failPending]
  split
  · exact .refl client
  · exact tidy_forgetAll_settle client requestId _

/-- A new request brings its own blocks. -/
theorem tidy_register (client : Bookkeeping) (request : SentRequest)
    (hsurbs : ∀ idHex entry, (idHex, entry) ∈ request.surbs →
      entry.requestId = client.nextRequestId) : Tidy client (client.register request) := by
  refine .of_kept (fun idHex entry hget => ?_) fun _ _ _ hheld =>
    hheld.imp_left fun hpending => has_set_iff.mpr (.inr hpending)
  refine (get?_register hget).imp_right fun hmem => ?_
  exact .inl (has_set_iff.mpr (.inl (hsurbs idHex entry hmem)))

/-- The blocks of a new request are its own. -/
theorem tidy_sendOnRoute (client : Bookkeeping) (request : SentRequest)
    (hsurbs : ∀ idHex entry, (idHex, entry) ∈ request.surbs →
      entry.requestId = client.nextRequestId) : Tidy client (client.sendOnRoute request) := by
  have hsent := tidy_register client request hsurbs
  rw [Bookkeeping.sendOnRoute]
  split_ifs
  · exact hsent.trans (tidy_failPending _ _ _)
  · exact hsent.trans (.of_same rfl (fun _ h => h) rfl)

/-- A timeout plans the release of the blocks. -/
theorem tidy_responseTimeout (client : Bookkeeping) (requestId effectiveTimeout : ℕ) :
    Tidy client (client.responseTimeout requestId effectiveTimeout) := by
  have hfired : Tidy client { client with
      timers := client.timers.filter fun id => id != requestId } :=
    .of_same rfl (fun _ h => h) rfl
  rw [Bookkeeping.responseTimeout]
  dsimp only
  split_ifs
  · exact hfired.trans (tidy_forgetAll_settle _ _ _)
  · exact hfired

/-- So does a failed upload. -/
theorem tidy_uploadFailed (client : Bookkeeping) (requestId : ℕ) (error : String) :
    Tidy client (client.uploadFailed requestId error) := by
  have hended : Tidy client { client with
      uploads := client.uploads.filter fun id => id != requestId } :=
    .of_same rfl (fun _ h => h) rfl
  rw [Bookkeeping.uploadFailed]
  dsimp only
  split
  · exact hended
  · exact hended.trans (tidy_forgetAll_settle _ _ _)

/-- A sign of life registers no block. -/
theorem tidy_noteActivity (client : Bookkeeping) (requestId : ℕ) (now : ℤ) :
    Tidy client (client.noteActivity requestId now) := by
  rw [Bookkeeping.noteActivity]
  split
  · exact .refl client
  · exact .of_same rfl (fun _ h => h) rfl

/-- A reply that is complete leaves its blocks to the timer. -/
theorem tidy_handleFragment (client : Bookkeeping) (requestId : ℕ)
    (fragment : Fragmentation.Fragment) (now createdAt storedAt : ℤ) :
    Tidy client (client.handleFragment requestId fragment now createdAt storedAt) := by
  have hnoted := tidy_noteActivity client requestId now
  have hstored : ∀ req, client.pending.get? requestId = some req →
      Tidy client (client.storeFragment requestId req fragment now createdAt storedAt) :=
    fun req _ => hnoted.trans (.of_same rfl (fun _ h => has_set_iff.mpr (.inr h)) rfl)
  refine Bookkeeping.handleFragment_cases (fun _ => .refl client)
    (fun _ _ _ => hnoted.trans (tidy_failPending _ _ _)) hstored
    (fun req _ hget => (hstored req hget).trans (tidy_failPending _ _ _)) ?_
  rintro req data settled hget rfl
  refine (hstored req hget).trans (.of_kept (fun _ _ hget => .inl hget) ?_)
  intro _ entry _ hheld
  by_cases hid : entry.requestId = requestId
  · exact .inr (List.mem_append.mpr (.inr (List.mem_singleton.mpr hid)))
  · obtain hpending | hmem := hheld
    · exact .inl (has_delete_iff.mpr ⟨hid, hpending⟩)
    · exact .inr (List.mem_append_left _ hmem)

/-- A burst registers for a request with a path, which is pending. -/
theorem tidy_handleNeedMoreSurbs (h : MapsAgree client) (serverRequestId : ℕ) (now : ℤ)
    {surbs : List (String × SurbEntry)}
    (hsurbs : ∀ idHex entry, (idHex, entry) ∈ surbs → entry.requestId = requestId) :
    Tidy client (client.handleNeedMoreSurbs requestId serverRequestId now surbs) := by
  rw [Bookkeeping.handleNeedMoreSurbs]
  dsimp only
  split_ifs with hstart hlimits
  · exact .refl client
  · exact .refl client
  · have hpending : client.pending.has requestId = true := by
      simp only [Bool.or_eq_true, Bool.not_eq_true', not_or, Bool.not_eq_false] at hstart
      exact (h.paths requestId).mp hstart.2
    refine .of_kept (fun idHex entry hget => ?_) fun _ _ _ hheld => hheld
    refine (get?_register hget).imp_right fun hmem => .inl ?_
    exact hsurbs idHex entry hmem ▸ hpending

/-- The stall check brings blocks of pending requests. -/
theorem tidy_checkBurstStalls (h : MapsAgree client) (now : ℤ)
    {surbs : ℕ → List (String × SurbEntry)}
    (hsurbs : ∀ id idHex entry, (idHex, entry) ∈ surbs id → entry.requestId = id) :
    Tidy client (client.checkBurstStalls now surbs) := by
  have hfold : MapsAgree (client.checkBurstStalls now surbs) ∧
      Tidy client (client.checkBurstStalls now surbs) := by
    rw [Bookkeeping.checkBurstStalls]
    refine List.foldlRecOn (motive := fun after => MapsAgree after ∧ Tidy client after) _ _
      ⟨h, .refl client⟩ ?_
    rintro after ⟨hagree, htidy⟩ ⟨requestId, bs⟩ -
    simp only [Bookkeeping.checkBurstStall]
    split_ifs
    · exact ⟨hagree, htidy⟩
    · split
      · exact ⟨hagree, htidy⟩
      · split_ifs
        · exact ⟨hagree, htidy⟩
        · exact ⟨hagree.handleNeedMoreSurbs _ _ _,
            htidy.trans (tidy_handleNeedMoreSurbs hagree _ _ (hsurbs requestId))⟩
    · exact ⟨hagree, htidy⟩
  exact hfold.2

/-- A release drops the blocks of its request, once. -/
theorem tidy_cleanup (client : Bookkeeping) (requestId : ℕ) :
    Tidy client { client with
      cleanups := client.cleanups.erase requestId
      surbPool := client.surbPool.cleanup requestId } := by
  refine .of_kept (fun _ _ hget => .inl (get?_cleanup hget).1) fun _ entry hget hheld => ?_
  have hne : entry.requestId ≠ requestId := (get?_cleanup hget).2
  exact hheld.imp_right fun hmem => (List.mem_erase_of_ne hne).mpr hmem

/-- The loop of `disconnect` leaves only blocks of requests it does not visit. -/
theorem get?_foldl_disconnectRequest {ids : List ℕ}
    (h : (ids.foldl Bookkeeping.disconnectRequest client).surbPool.registry.get? idHex =
      some entry) :
    client.surbPool.registry.get? idHex = some entry ∧ entry.requestId ∉ ids := by
  induction ids generalizing client with
  | nil => exact ⟨h, List.not_mem_nil⟩
  | cons first ids ih =>
    obtain ⟨hget, hnot⟩ := ih h
    obtain ⟨hget, hne⟩ := get?_cleanup hget
    exact ⟨hget, fun hmem => (List.mem_cons.mp hmem).elim hne hnot⟩

/-- The shutdown plans no release. -/
theorem cleanups_foldl_disconnectRequest (ids : List ℕ) :
    (ids.foldl Bookkeeping.disconnectRequest client).cleanups = client.cleanups := by
  induction ids generalizing client with
  | nil => rfl
  | cons first ids ih => exact ih

/-- A disconnect leaves no blocks behind. -/
theorem tidy_disconnect (client : Bookkeeping) : Tidy client client.disconnect := by
  refine .of_kept (fun _ _ hget => .inl (get?_foldl_disconnectRequest hget).1) ?_
  intro _ entry hget hheld
  have hnot := (get?_foldl_disconnectRequest hget).2
  obtain hpending | hmem := hheld
  · exact absurd (OrderedMap.has_iff.mp hpending) hnot
  · refine .inr ?_
    rw [Bookkeeping.disconnect, cleanups_foldl_disconnectRequest]
    exact hmem

/-! ### Every block has an owner -/

/-- A request that is pending, whose stream is live or whose cleanup is armed. -/
def TunnelClient.Owns (state : TunnelClient) (requestId : ℕ) : Prop :=
  state.client.pending.has requestId = true ∨ requestId ∈ state.streams ∨
    requestId ∈ state.client.cleanups

/-- Every block in the pool belongs to such a request. -/
structure BlocksOwned (state : TunnelClient) : Prop where
  agree : MapsAgree state.client
  owned : ∀ idHex entry, state.client.surbPool.registry.get? idHex = some entry →
    state.Owns entry.requestId

/-- No call throws after it registered a reply block. -/
def ThrowsWithoutBlocks (_state : TunnelClient) (event : TunnelEvent) : Prop :=
  ∀ version created, event = .throws version created → created = []

/-- The blocks that a call registered before it throws. -/
def thrownBlocks : TunnelEvent → List CreatedSurb
  | .throws _ created => created
  | _ => []

instance : DecidableRel ThrowsWithoutBlocks := fun _ event =>
  decidable_of_iff ((thrownBlocks event).isEmpty = true) <| by
    cases event <;> simp [thrownBlocks, ThrowsWithoutBlocks]

variable {state next : TunnelClient} {streams : List ℕ}

/-- A new client has no block. -/
theorem blocksOwned_initial (hasWasm : Bool) : BlocksOwned (.initial hasWasm) where
  agree := mapsAgree_initial hasWasm
  owned _ _ hget := by cases hget

/-- A request that the client holds is an owner. -/
theorem Bookkeeping.Holds.owns (h : client.Holds requestId) :
    TunnelClient.Owns ⟨client, streams⟩ requestId :=
  h.imp_right .inr

/-- A tidy turn keeps an owner for each block. -/
theorem BlocksOwned.tidy (h : BlocksOwned ⟨client, streams⟩) (hagree : MapsAgree after)
    (htidy : Tidy client after) : BlocksOwned ⟨after, streams⟩ where
  agree := hagree
  owned idHex entry hget := by
    obtain hheld | ⟨hget, hfree⟩ := htidy idHex entry hget
    · exact hheld.owns
    · obtain hpending | hstream | hcleanup := h.owned idHex entry hget
      · exact absurd (.inl hpending) hfree
      · exact .inr (.inl hstream)
      · exact absurd (.inr hcleanup) hfree

/-- A turn of the bookkeeping keeps an owner for each block when it is tidy. -/
theorem BlocksOwned.stepClient (h : BlocksOwned state) {event : RequestEvent}
    (hstep : state.stepClient event = some next)
    (htidy : ∀ after, state.client.step event = some after → Tidy state.client after) :
    BlocksOwned next := by
  obtain ⟨after, hafter, rfl⟩ := Option.map_eq_some_iff.mp hstep
  exact h.tidy (h.agree.step hafter) (htidy after hafter)

/-- A stream that ends leaves its blocks to the timer. -/
theorem BlocksOwned.finish (h : BlocksOwned state) (requestId : ℕ) :
    BlocksOwned (state.finish requestId) := by
  rw [TunnelClient.finish]
  split_ifs
  · refine ⟨h.agree.of_same rfl rfl rfl rfl le_rfl, fun idHex entry hget => ?_⟩
    by_cases hid : entry.requestId = requestId
    · exact .inr (.inr (List.mem_append.mpr (.inr (List.mem_singleton.mpr hid))))
    · obtain hpending | hstream | hcleanup := h.owned idHex entry hget
      · exact .inl hpending
      · exact .inr (.inl (List.mem_filter.mpr ⟨hstream, by simpa using hid⟩))
      · exact .inr (.inr (List.mem_append_left _ hcleanup))
  · exact h

/-- A part for a stream keeps its blocks, or ends it and arms their cleanup. -/
theorem BlocksOwned.deliverStream (h : BlocksOwned state) (requestId : ℕ)
    (fragment : Bincode.FragmentWire) (verdict : PartVerdict) :
    BlocksOwned (state.deliverStream requestId fragment verdict) := by
  unfold TunnelClient.deliverStream
  split_ifs
  · exact h
  · cases verdict with
    | more => exact h
    | done => exact h.finish requestId
    | throws => exact h.finish requestId

/-- A burst registers blocks of a pending request. -/
theorem BlocksOwned.handleNeedMoreSurbs (h : BlocksOwned state) (requestId serverRequestId : ℕ)
    (now : ℤ) (created : List CreatedSurb) :
    BlocksOwned (state.handleNeedMoreSurbs requestId serverRequestId now created) :=
  h.tidy (h.agree.handleNeedMoreSurbs _ _ _)
    (tidy_handleNeedMoreSurbs h.agree _ _ fun _ _ => requestId_of_mem_generated)

/-- An item consumes a block and is handled as a fragment, a part of a stream, or a request for
blocks. -/
theorem BlocksOwned.handleItem (h : BlocksOwned state) (wasm : Wasm) (item : ClaimedItem)
    (verdict : PartVerdict) (now createdAt storedAt : ℤ) (created : List CreatedSurb) :
    BlocksOwned (state.handleItem wasm item verdict now createdAt storedAt created) := by
  have hopened : BlocksOwned { state with client := { state.client with
      surbPool := ((state.replyState wasm).handleResponseItem item none).1.surbPool } } :=
    ⟨h.agree.of_same rfl rfl rfl rfl le_rfl,
      fun idHex entry hget => h.owned idHex entry (get?_handleResponseItem hget)⟩
  rw [TunnelClient.handleItem]
  dsimp only
  split
  · exact hopened
  · exact hopened.deliverStream _ _ _
  · exact hopened.tidy (hopened.agree.handleFragment _ _ _ _) (tidy_handleFragment _ _ _ _ _ _)
  · exact hopened.handleNeedMoreSurbs _ _ _ _

/-- Blocks of a tunnel copy are registered with its stream; without blocks there is none. -/
theorem BlocksOwned.tunnelSend (h : BlocksOwned state) {surbs : ℤ} (version : SurbVersion)
    {created : List CreatedSurb} (hcreated : created.length = surbs.toNat) :
    BlocksOwned (state.tunnelSend surbs version created) := by
  have hagree : MapsAgree (state.takeId version created).client :=
    h.agree.of_same rfl rfl rfl rfl (Nat.le_succ _)
  have hmem : ∀ idHex entry,
      (state.takeId version created).client.surbPool.registry.get? idHex = some entry →
        state.Owns entry.requestId ∨
          (idHex, entry) ∈ generated state.client.nextRequestId version created :=
    fun idHex entry hget => (get?_register hget).imp_left (h.owned idHex entry)
  rw [TunnelClient.tunnelSend]
  split_ifs with hsurbs
  · subst hsurbs
    obtain rfl := List.eq_nil_of_length_eq_zero hcreated
    exact ⟨hagree, fun idHex entry hget => (hmem idHex entry hget).resolve_right List.not_mem_nil⟩
  · refine ⟨hagree, fun idHex entry hget => ?_⟩
    obtain (hpending | hstream | hcleanup) | hnew := hmem idHex entry hget
    · exact .inl hpending
    · exact .inr (.inl (List.mem_append_left _ hstream))
    · exact .inr (.inr hcleanup)
    · refine .inr (.inl (List.mem_append_right _ (List.mem_singleton.mpr ?_)))
      exact requestId_of_mem_generated hnew

/-- A disconnect drops all blocks. -/
theorem BlocksOwned.disconnect (h : BlocksOwned state) : BlocksOwned state.disconnect := by
  refine ⟨h.agree.disconnect.of_same rfl rfl rfl rfl le_rfl, fun idHex entry hget => ?_⟩
  obtain hheld | ⟨hget, hfree⟩ := tidy_disconnect state.client idHex entry hget
  · obtain hpending | hcleanup := hheld
    · exact .inl hpending
    · exact .inr (.inr (List.mem_append_left _ hcleanup))
  · obtain hpending | hstream | hcleanup := h.owned idHex entry hget
    · exact absurd (.inl hpending) hfree
    · exact .inr (.inr (List.mem_append_right _ hstream))
    · exact absurd (.inr hcleanup) hfree

/-- One turn keeps the owners, unless a call throws after it registered a block. -/
theorem BlocksOwned.step {wasm : Wasm} {event : TunnelEvent} (h : BlocksOwned state)
    (hthrows : ThrowsWithoutBlocks state event) (hstep : state.step wasm event = some next) :
    BlocksOwned next := by
  cases event with
  | send request created =>
    refine h.stepClient hstep fun after hafter => ?_
    obtain rfl := eq_of_armed hafter
    exact tidy_sendOnRoute _ _ fun _ _ => requestId_of_mem_generated
  | throws version created =>
    -- a call that throws registered nothing, so its id alone is used up
    obtain rfl := hthrows version created rfl
    obtain ⟨-, hnext⟩ := Option.ite_none_right_eq_some.mp hstep
    obtain rfl := Option.some.inj hnext
    exact ⟨h.agree.of_same rfl rfl rfl rfl (Nat.le_succ _), h.owned⟩
  | tunnelSend surbs version created =>
    obtain ⟨⟨-, hcreated⟩, hnext⟩ := Option.ite_none_right_eq_some.mp hstep
    obtain rfl := Option.some.inj hnext
    exact h.tunnelSend version hcreated
  | streamEnds requestId =>
    obtain rfl := Option.some.inj hstep
    exact h.finish requestId
  | item item verdict now createdAt storedAt created =>
    obtain rfl := Option.some.inj hstep
    exact h.handleItem wasm item verdict now createdAt storedAt created
  | stallCheck now created =>
    refine h.stepClient hstep fun after hafter => ?_
    obtain rfl := eq_of_armed hafter
    exact tidy_checkBurstStalls h.agree now fun _ _ _ => requestId_of_mem_generated
  | uploaded requestId =>
    refine h.stepClient hstep fun after hafter => ?_
    obtain rfl := eq_of_armed hafter
    exact .of_same rfl (fun _ hid => hid) rfl
  | uploadFailed requestId error =>
    refine h.stepClient hstep fun after hafter => ?_
    obtain rfl := eq_of_armed hafter
    exact tidy_uploadFailed _ _ _
  | timeout requestId effectiveTimeout =>
    refine h.stepClient hstep fun after hafter => ?_
    obtain rfl := eq_of_armed hafter
    exact tidy_responseTimeout _ _ _
  | abort requestId =>
    refine h.stepClient hstep fun after hafter => ?_
    obtain rfl := eq_of_armed hafter
    -- the listener goes first, and then the request fails
    have hheard : Tidy state.client { state.client with
        listeners := state.client.listeners.filter fun id => id != requestId } :=
      .of_same rfl (fun _ hid => hid) rfl
    exact hheard.trans (tidy_failPending _ _ _)
  | burstDone requestId =>
    refine h.stepClient hstep fun after hafter => ?_
    obtain rfl := eq_of_armed hafter
    exact .of_same rfl (fun _ hid => hid) rfl
  | burstFailed requestId =>
    refine h.stepClient hstep fun after hafter => ?_
    obtain rfl := eq_of_armed hafter
    exact .of_same rfl (fun _ hid => hid) rfl
  | cleanup requestId =>
    refine h.stepClient hstep fun after hafter => ?_
    obtain rfl := eq_of_armed hafter
    exact tidy_cleanup _ _
  | disconnect =>
    obtain rfl := Option.some.inj hstep
    exact h.disconnect

/-- A call that throws after it registered a block leaves it to an ID that nothing owns. -/
theorem leaked_of_throws {wasm : Wasm} {version : SurbVersion} {surb : CreatedSurb}
    {created : List CreatedSurb} (hnew : ¬ state.Owns state.client.nextRequestId)
    (hstep : state.step wasm (.throws version (surb :: created)) = some next) :
    ∃ idHex entry, next.client.surbPool.registry.get? idHex = some entry ∧
      ¬ next.Owns entry.requestId := by
  obtain ⟨-, hnext⟩ := Option.ite_none_right_eq_some.mp hstep
  obtain rfl := Option.some.inj hnext
  -- the entry of the last block made is still there
  obtain ⟨front, last, hlast⟩ := List.eq_nil_or_concat (surb :: created) |>.resolve_left
    (List.cons_ne_nil _ _)
  refine ⟨last.idHex, ⟨state.client.nextRequestId, last.recoveryJson, some version⟩, ?_, hnew⟩
  rw [hlast]
  simp [TunnelClient.takeId, SurbPool.register, generated]

end Lemmas

/-- In every run in which no call throws after it registered a reply block, each entry of the pool
belongs to a pending request, to a live tunnel stream, or to a request whose cleanup is armed.

The invariant (`BlocksOwned`) says who each block belongs to. Only a call that throws registers a
block for a request that is never stored; the condition excludes it. -/
theorem no_block_outlives_its_request {wasm : Wasm} {hasWasm : Bool} {state : TunnelClient}
    (hrun : Lib.RunWhen (TunnelClient.step wasm) ThrowsWithoutBlocks (.initial hasWasm) state) :
    ∀ e ∈ state.client.surbPool.registry.entries,
      state.client.pending.has e.2.requestId = true ∨ e.2.requestId ∈ state.streams ∨
        e.2.requestId ∈ state.client.cleanups := by
  have h : BlocksOwned state := hrun.invariant (blocksOwned_initial hasWasm)
    fun _ _ _ h hthrows hstep => h.step hthrows hstep
  exact fun e he => h.owned e.1 e.2 (OrderedMap.get?_eq_some_iff.mpr he)

/-- A request, a call that throws before it registers a block, and a tunnel copy whose stream
ends. -/
private def endedStream : List TunnelEvent :=
  [.send plainRequest [⟨"00", "first"⟩], .throws .v1 [], .tunnelSend 1 .v2 [⟨"01", "second"⟩],
    .streamEnds 2]

/-- A stream that ends, and the release that takes its blocks away. -/
theorem no_block_outlives_its_request_ended :
    ∃ state, Lib.runEvents (Lib.checked (TunnelClient.step sampleWasm) ThrowsWithoutBlocks)
        (.initial true) endedStream = some state ∧
      state.client.surbPool.registry.keys = ["00", "01"] ∧
      ∀ e ∈ state.client.surbPool.registry.entries,
        state.client.pending.has e.2.requestId = true ∨ e.2.requestId ∈ state.streams ∨
          e.2.requestId ∈ state.client.cleanups := by
  have hkeys : (Lib.runEvents (Lib.checked (TunnelClient.step sampleWasm) ThrowsWithoutBlocks)
      (.initial true) endedStream).map (fun state => state.client.surbPool.registry.keys) =
        some ["00", "01"] := by decide +kernel
  obtain ⟨state, hstate, hregistered⟩ := Option.map_eq_some_iff.mp hkeys
  exact ⟨state, hstate, hregistered, no_block_outlives_its_request (Lib.runWhen_of_checked hstate)⟩

/-- A packet build that throws, and a disconnect after it. -/
private def failedBuild : List TunnelEvent := [.throws .v1 [⟨"00", "first"⟩], .disconnect]

/-- A call that throws behind its first block leaves it registered for ever. -/
theorem not_no_block_outlives_its_request :
    ∃ state, Lib.runEvents (TunnelClient.step sampleWasm) (.initial true) failedBuild =
        some state ∧
      ("00", ⟨0, "first", some .v1⟩) ∈ state.client.surbPool.registry.entries ∧
      state.client.pending.has 0 = false ∧ 0 ∉ state.streams ∧ 0 ∉ state.client.cleanups :=
  ⟨_, rfl, by decide, by decide, by decide, by decide⟩

end NoxSdk.Client
