import NoxSdk.Client.SurbPool
import NoxSdk.Fragmentation.Reassembler
import NoxSdk.Lib.Runs

/-!
# The bookkeeping of requests

A request sent by `_sendOnRoute` is kept in `pending` until it is settled, with the path of its
replenishment packets beside it and, once the exit asked for reply blocks, the state of the last
burst. Each exit from the pending state deletes from every one of these maps.

The system is the client between two turns of the event loop. An event is one turn: a call, a
timer, a signal, the end of an upload or of a burst, a reply part. What is armed (`timers`,
`listeners`, `uploads`, `bursts`, `cleanups`) says which events can happen; `settled` records the
calls that settle a promise.

`_handleNeedMoreSurbs` stops at one `await`, that of `burstReplenish`, which makes the reply blocks
of all its packets before the first packet is posted. Everything up to there is one turn, of which
these reply blocks are the only outside value, and what comes after it is a turn of its own for
each of the two ends (`burstDone`, `burstFailed`).

The claim scheduler, the socket and the log are told about requests but change none of these maps,
and are left out.
-/

namespace NoxSdk.Client

open Fragmentation (Fragment Reassembler clampedSub)

/-! ### The maps -/

/-- `PathHop`. -/
structure PathHop where
  pubKeyHex : String
  address : String
  deriving DecidableEq

/-- `PendingRequest`, without the functions that settle it. -/
structure PendingRequest where
  reassembler : Reassembler
  maxResponseBytes : Option ℕ

/-- An entry of `burstState`. -/
structure BurstState where
  round : ℕ
  sentAt : ℤ
  serverRequestId : ℕ
  lastFragmentAt : ℤ
  deriving DecidableEq

/-- `ReplenishmentManager`. -/
structure ReplenishmentManager where
  paths : OrderedMap ℕ (List PathHop)
  entries : OrderedMap ℕ String
  versions : OrderedMap ℕ SurbVersion

namespace ReplenishmentManager

variable (manager : ReplenishmentManager) (requestId : ℕ)

/-- `stashPath`, with a route. -/
def stashPath (path : List PathHop) (entryUrl : String) (version : SurbVersion) :
    ReplenishmentManager where
  paths := manager.paths.set requestId path
  entries := manager.entries.set requestId entryUrl
  versions := manager.versions.set requestId version

/-- `clearPath`. -/
def clearPath : ReplenishmentManager where
  paths := manager.paths.delete requestId
  entries := manager.entries.delete requestId
  versions := manager.versions.delete requestId

/-- `hasPendingPath`. -/
def hasPendingPath : Bool := manager.paths.has requestId

end ReplenishmentManager

namespace SurbPool

/-- `cleanup`. -/
def cleanup (pool : SurbPool) (requestId : ℕ) : SurbPool :=
  (pool.idsForRequest requestId).foldl SurbPool.delete pool

/-- The pool with generated reply blocks. -/
def register (pool : SurbPool) (surbs : List (String × SurbEntry)) : SurbPool :=
  ⟨surbs.foldl (fun registry surb => registry.set surb.1 surb.2) pool.registry⟩

end SurbPool

/-- How a promise of `_sendOnRoute` is settled. -/
inductive PromiseOutcome
  | resolved (data : Bytes)
  | rejected (error : Thrown)
  deriving DecidableEq

/-- What a client keeps about requests, and what is armed for them. -/
structure Bookkeeping where
  nextRequestId : ℕ
  hasWasm : Bool
  stallTimer : Bool
  pending : OrderedMap ℕ PendingRequest
  replenishment : ReplenishmentManager
  burstState : OrderedMap ℕ BurstState
  surbPool : SurbPool
  timers : List ℕ
  listeners : List ℕ
  uploads : List ℕ
  bursts : List ℕ
  cleanups : List ℕ
  settled : List (ℕ × PromiseOutcome)

/-- A client before its first request. -/
def Bookkeeping.initial (hasWasm : Bool) : Bookkeeping where
  nextRequestId := 0
  hasWasm := hasWasm
  stallTimer := true
  pending := .empty
  replenishment := ⟨.empty, .empty, .empty⟩
  burstState := .empty
  surbPool := ⟨.empty⟩
  timers := []
  listeners := []
  uploads := []
  bursts := []
  cleanups := []
  settled := []

/-- `MAX_BURST_ROUNDS`. -/
def maxBurstRounds : ℕ := 50

/-- `STALL_TIMEOUT_MS`. -/
def stallTimeoutMs : ℤ := 8000

/-- What `_sendOnRoute` is called with: the planned route, the reply blocks generated for it, and
the caller's settings. -/
structure SentRequest where
  forwardPath : List PathHop
  entryUrl : String
  version : SurbVersion
  surbs : List (String × SurbEntry)
  maxResponseBytes : Option ℕ
  hasSignal : Bool
  /-- The signal was aborted by what was called before the upload. -/
  aborted : Bool

namespace Bookkeeping

variable (client : Bookkeeping) (requestId : ℕ)

/-- A call of `pendingRequest.resolve` or `pendingRequest.reject`: the timer and the listener of
the request are gone after it. -/
def settle (settlement : PromiseOutcome) : Bookkeeping :=
  { client with
    timers := client.timers.filter fun id => id != requestId
    listeners := client.listeners.filter fun id => id != requestId
    settled := client.settled ++ [(requestId, settlement)] }

/-- The deletions of an exit from the pending state that keeps the reply blocks. -/
def forget : Bookkeeping :=
  { client with
    pending := client.pending.delete requestId
    burstState := client.burstState.delete requestId
    replenishment := client.replenishment.clearPath requestId }

/-- The deletions of every other exit. -/
def forgetAll : Bookkeeping :=
  { client.forget requestId with surbPool := client.surbPool.cleanup requestId }

/-- `_failPending`. -/
def failPending (error : Thrown) : Bookkeeping :=
  match client.pending.get? requestId with
  | none => client
  | some _ => (client.forgetAll requestId).settle requestId (.rejected error)

/-- The error of an aborted request. -/
def abortedByCaller : Thrown :=
  .noxClientError "Request aborted by the caller" .aborted

/-- What `_sendOnRoute` registers for a request before the upload. -/
def register (request : SentRequest) : Bookkeeping :=
  let requestId := client.nextRequestId
  { client with
    nextRequestId := requestId + 1
    surbPool := client.surbPool.register request.surbs
    pending := client.pending.set requestId ⟨.new ⟨none, none, none⟩, request.maxResponseBytes⟩
    replenishment := client.replenishment.stashPath requestId request.forwardPath request.entryUrl
      request.version
    timers := client.timers ++ [requestId]
    listeners := client.listeners ++ if request.hasSignal then [requestId] else [] }

/-- `_sendOnRoute` up to the start of the upload, of a call that gets so far. -/
def sendOnRoute (request : SentRequest) : Bookkeeping :=
  let sent := client.register request
  if request.hasSignal && request.aborted then
    sent.failPending client.nextRequestId abortedByCaller
  else { sent with uploads := sent.uploads ++ [client.nextRequestId] }

/-- The timer of the response. -/
def responseTimeout (effectiveTimeout : ℕ) : Bookkeeping :=
  let client := { client with timers := client.timers.filter fun id => id != requestId }
  if client.pending.has requestId then
    (client.forgetAll requestId).settle requestId (.rejected (.noxClientError
      s!"Request {requestId} timed out after {effectiveTimeout}ms" .responseTimeout))
  else client

/-- The end of an upload that failed. -/
def uploadFailed (error : String) : Bookkeeping :=
  let client := { client with uploads := client.uploads.filter fun id => id != requestId }
  match client.pending.get? requestId with
  | none => client
  | some _ => (client.forgetAll requestId).settle requestId
      (.rejected (.noxClientError s!"Packet transport failed: {error}" .transportFailed))

/-- The lower bound of the reply size that a fragment declares. -/
def declaredSize (fragment : Fragment) : ℤ :=
  match fragment.fec with
  | some fec => fec.originalDataLen
  | none => ((fragment.totalFragments : ℤ) - 1) * fragment.data.length

/-- The error of a reply over the limit. -/
def responseTooLarge (size : String) (limit : ℕ) : Thrown :=
  .noxClientError s!"Reply of {size} bytes exceeds maxResponseBytes {limit}" .responseTooLarge

/-- The note of a fragment in the state of the last burst. -/
def noteActivity (now : ℤ) : Bookkeeping :=
  match client.burstState.get? requestId with
  | none => client
  | some bs =>
    { client with burstState := client.burstState.set requestId { bs with lastFragmentAt := now } }

/-- `_handleFragment`; what the reassembler throws leaves the function. -/
def handleFragment (fragment : Fragment) (now createdAt storedAt : ℤ) : Bookkeeping :=
  match client.pending.get? requestId with
  | none => client
  | some req =>
    let client := client.noteActivity requestId now
    match req.maxResponseBytes.filter fun limit : ℕ => decide (declaredSize fragment > limit) with
    | some limit => client.failPending requestId
        (responseTooLarge s!"at least {declaredSize fragment}" limit)
    | none =>
      let (result, reassembler) :=
        req.reassembler.addFragment clampedSub createdAt storedAt fragment
      let client := { client with
        pending := client.pending.set requestId { req with reassembler := reassembler } }
      match result with
      | .error _ | .ok none => client
      | .ok (some data) =>
        match req.maxResponseBytes.filter fun limit => decide (data.length > limit) with
        | some limit => client.failPending requestId (responseTooLarge s!"{data.length}" limit)
        | none =>
          let client := (client.forget requestId).settle requestId (.resolved data)
          { client with cleanups := client.cleanups ++ [requestId] }

/-- `_handleNeedMoreSurbs` up to its `await`; `surbs` are the reply blocks of the burst. -/
def handleNeedMoreSurbs (serverRequestId : ℕ) (now : ℤ) (surbs : List (String × SurbEntry)) :
    Bookkeeping :=
  if !client.hasWasm || !client.replenishment.hasPendingPath requestId then client
  else
    let state := client.burstState.get? requestId
    if state.any fun bs => decide (now - bs.sentAt < stallTimeoutMs) || maxBurstRounds ≤ bs.round
    then client
    else { client with
      burstState := client.burstState.set requestId
        ⟨(state.map BurstState.round).getD 0 + 1, now, serverRequestId, now⟩
      surbPool := client.surbPool.register surbs
      bursts := client.bursts ++ [requestId] }

/-- What comes after the `await` when the burst was sent. -/
def burstDone : Bookkeeping := { client with bursts := client.bursts.erase requestId }

/-- What comes after the `await` when the burst failed. -/
def burstFailed : Bookkeeping :=
  { client with
    bursts := client.bursts.erase requestId
    burstState := client.burstState.delete requestId }

/-- `totalProgress`. -/
def totalProgress (reassembler : Reassembler) : ℕ × ℕ :=
  reassembler.buffers.values.foldl
    (fun progress buf => (progress.1 + buf.receivedCount, progress.2 + buf.expectedTotal)) (0, 0)

/-- The stall check of one burst. -/
def checkBurstStall (now : ℤ) (surbs : ℕ → List (String × SurbEntry)) (client : Bookkeeping)
    (entry : ℕ × BurstState) : Bookkeeping :=
  let (requestId, bs) := entry
  if maxBurstRounds ≤ bs.round then client
  else if now - bs.lastFragmentAt ≥ stallTimeoutMs ∧ now - bs.sentAt ≥ stallTimeoutMs then
    match client.pending.get? requestId with
    | none => client
    | some req =>
      let (received, total) := totalProgress req.reassembler
      if total = 0 ∨ total ≤ received then client
      else client.handleNeedMoreSurbs requestId bs.serverRequestId now (surbs requestId)
  else client

/-- `_checkBurstStalls`. A burst that it starts writes in place, so the entries it visits are those
it finds at its start. -/
def checkBurstStalls (now : ℤ) (surbs : ℕ → List (String × SurbEntry)) : Bookkeeping :=
  client.burstState.entries.foldl (checkBurstStall now surbs) client

/-- What `disconnect` does for one pending request. -/
def disconnectRequest (client : Bookkeeping) (requestId : ℕ) : Bookkeeping :=
  let client := client.settle requestId
    (.rejected (.noxClientError "NoxClient disconnected" .transportFailed))
  { client with
    surbPool := client.surbPool.cleanup requestId
    replenishment := client.replenishment.clearPath requestId }

/-- `disconnect`. -/
def disconnect : Bookkeeping :=
  let client := client.pending.keys.foldl disconnectRequest { client with stallTimer := false }
  { client with pending := .empty, burstState := .empty }

end Bookkeeping

/-! ### Events -/

/-- A turn of the event loop. -/
inductive RequestEvent
  | send (request : SentRequest)
  /-- A call of `_sendOnRoute` that throws after it took an ID. -/
  | sendFailed (surbs : List (String × SurbEntry))
  | uploaded (requestId : ℕ)
  | uploadFailed (requestId : ℕ) (error : String)
  | timeout (requestId effectiveTimeout : ℕ)
  | abort (requestId : ℕ)
  | fragment (requestId : ℕ) (fragment : Fragment) (now createdAt storedAt : ℤ)
  | needMoreSurbs (requestId serverRequestId : ℕ) (now : ℤ) (surbs : List (String × SurbEntry))
  | stallCheck (now : ℤ) (surbs : ℕ → List (String × SurbEntry))
  | burstDone (requestId : ℕ)
  | burstFailed (requestId : ℕ)
  | cleanup (requestId : ℕ)
  | disconnect

namespace Bookkeeping

/-- The client after an event; none when the event cannot happen. -/
def step (client : Bookkeeping) : RequestEvent → Option Bookkeeping
  | .send request =>
    -- `_requireWasm` throws first of all
    if client.hasWasm then some (client.sendOnRoute request) else none
  | .sendFailed surbs =>
    if client.hasWasm then some { client with
      nextRequestId := client.nextRequestId + 1
      surbPool := client.surbPool.register surbs }
    else none
  | .uploaded requestId =>
    if requestId ∈ client.uploads then
      some { client with uploads := client.uploads.filter fun id => id != requestId }
    else none
  | .uploadFailed requestId error =>
    if requestId ∈ client.uploads then some (client.uploadFailed requestId error) else none
  | .timeout requestId effectiveTimeout =>
    if requestId ∈ client.timers then some (client.responseTimeout requestId effectiveTimeout)
    else none
  | .abort requestId =>
    if requestId ∈ client.listeners then
      -- the listener is registered with `once`
      some ({ client with
        listeners := client.listeners.filter fun id => id != requestId }.failPending
          requestId abortedByCaller)
    else none
  | .fragment requestId fragment now createdAt storedAt =>
    some (client.handleFragment requestId fragment now createdAt storedAt)
  | .needMoreSurbs requestId serverRequestId now surbs =>
    some (client.handleNeedMoreSurbs requestId serverRequestId now surbs)
  | .stallCheck now surbs =>
    if client.stallTimer then some (client.checkBurstStalls now surbs) else none
  | .burstDone requestId =>
    if requestId ∈ client.bursts then some (client.burstDone requestId) else none
  | .burstFailed requestId =>
    if requestId ∈ client.bursts then some (client.burstFailed requestId) else none
  | .cleanup requestId =>
    if requestId ∈ client.cleanups then some { client with
      cleanups := client.cleanups.erase requestId
      surbPool := client.surbPool.cleanup requestId }
    else none
  | .disconnect => some client.disconnect

end Bookkeeping

/-! ### Consistency -/

/-- The maps agree on which requests are pending, and what was settled is not. -/
structure MapsAgree (client : Bookkeeping) : Prop where
  paths : ∀ id, client.replenishment.hasPendingPath id = true ↔ client.pending.has id = true
  bursts : ∀ id, client.burstState.has id = true → client.pending.has id = true
  issued : ∀ id, client.pending.has id = true → id < client.nextRequestId
  settled_issued : ∀ id ∈ client.settled.map Prod.fst, id < client.nextRequestId
  settled_gone : ∀ id ∈ client.settled.map Prod.fst, client.pending.has id = false
  once : (client.settled.map Prod.fst).Nodup

section Lemmas

variable {ν : Type} {map : OrderedMap ℕ ν} {id requestId : ℕ} {value : ν}
  {client after : Bookkeeping}

/-- A map with an entry more has its key and those that it had. -/
theorem has_set_iff :
    (map.set requestId value).has id = true ↔ id = requestId ∨ map.has id = true := by
  rw [OrderedMap.has, OrderedMap.has, OrderedMap.get?_set]
  split_ifs with h <;> simp [h]

/-- A map with an entry less has the other keys. -/
theorem has_delete_iff :
    (map.delete requestId).has id = true ↔ id ≠ requestId ∧ map.has id = true := by
  rw [OrderedMap.has, OrderedMap.has]
  by_cases h : id = requestId
  · subst h
    simp
  · rw [OrderedMap.get?_delete_of_ne map h]
    simp [h]

/-- A key with a value is there. -/
theorem has_of_get?_eq_some (h : map.get? requestId = some value) : map.has requestId = true := by
  rw [OrderedMap.has, h, Option.isSome_some]

/-- A new client has no request and no maps. -/
theorem mapsAgree_initial (hasWasm : Bool) : MapsAgree (.initial hasWasm) where
  paths _ := Iff.rfl
  bursts _ h := h
  issued _ h := by cases h
  settled_issued _ h := by cases h
  settled_gone _ h := by cases h
  once := List.nodup_nil

/-- A turn after which the same requests are pending and the bursts belong to them. -/
theorem MapsAgree.keep (h : MapsAgree client)
    (hpending : ∀ id, after.pending.has id = true ↔ client.pending.has id = true)
    (hpaths : ∀ id, after.replenishment.hasPendingPath id = true ↔
      client.replenishment.hasPendingPath id = true)
    (hbursts : ∀ id, after.burstState.has id = true → client.pending.has id = true)
    (hsettled : after.settled = client.settled)
    (hnext : client.nextRequestId ≤ after.nextRequestId) : MapsAgree after where
  paths id := by rw [hpaths, hpending, h.paths]
  bursts id hid := (hpending id).mpr (hbursts id hid)
  issued id hid := lt_of_lt_of_le (h.issued id ((hpending id).mp hid)) hnext
  settled_issued id hid := lt_of_lt_of_le (h.settled_issued id (hsettled ▸ hid)) hnext
  settled_gone id hid := by
    have hgone := h.settled_gone id (hsettled ▸ hid)
    rw [Bool.eq_false_iff] at hgone ⊢
    exact fun hid => hgone ((hpending id).mp hid)
  once := hsettled ▸ h.once

/-- A turn that leaves the maps alone. -/
theorem MapsAgree.of_same (h : MapsAgree client) (hpending : after.pending = client.pending)
    (hpaths : after.replenishment = client.replenishment)
    (hbursts : after.burstState = client.burstState) (hsettled : after.settled = client.settled)
    (hnext : client.nextRequestId ≤ after.nextRequestId) : MapsAgree after :=
  h.keep (fun _ => by rw [hpending]) (fun _ => by rw [hpaths])
    (fun id hid => h.bursts id (hbursts ▸ hid)) hsettled hnext

/-- The exit of one request: it is settled once and leaves every map. -/
theorem MapsAgree.forget_settle (h : MapsAgree client)
    (hpending : client.pending.has requestId = true) (settlement : PromiseOutcome) :
    MapsAgree ((client.forget requestId).settle requestId settlement) where
  paths id := by
    change (client.replenishment.paths.delete requestId).has id = true ↔
      (client.pending.delete requestId).has id = true
    rw [has_delete_iff, has_delete_iff]
    exact and_congr_right fun _ => h.paths id
  bursts id hid := by
    change (client.burstState.delete requestId).has id = true at hid
    change (client.pending.delete requestId).has id = true
    rw [has_delete_iff] at hid ⊢
    exact ⟨hid.1, h.bursts id hid.2⟩
  issued id hid := h.issued id (has_delete_iff.mp hid).2
  settled_issued id hid := by
    change id ∈ (client.settled ++ [(requestId, settlement)]).map Prod.fst at hid
    rw [List.map_append, List.mem_append] at hid
    obtain hid | hid := hid
    · exact h.settled_issued id hid
    · obtain rfl : id = requestId := by simpa using hid
      exact h.issued id hpending
  settled_gone id hid := by
    change id ∈ (client.settled ++ [(requestId, settlement)]).map Prod.fst at hid
    rw [List.map_append, List.mem_append] at hid
    rw [Bool.eq_false_iff]
    intro hhas
    obtain ⟨hne, hhas⟩ := has_delete_iff.mp hhas
    obtain hid | hid := hid
    · rw [h.settled_gone id hid] at hhas
      cases hhas
    · exact hne (by simpa using hid)
  once := by
    change ((client.settled ++ [(requestId, settlement)]).map Prod.fst).Nodup
    rw [List.map_append, List.map_singleton, List.nodup_append]
    refine ⟨h.once, List.nodup_singleton _, ?_⟩
    -- the request is pending, so that it was not settled before
    rintro id hid id' hid' rfl
    obtain rfl := List.mem_singleton.mp hid'
    rw [h.settled_gone _ hid] at hpending
    cases hpending

/-- A pending request that settles leaves all maps at once. -/
theorem MapsAgree.forgetAll_settle (h : MapsAgree client)
    (hpending : client.pending.has requestId = true) (settlement : PromiseOutcome) :
    MapsAgree ((client.forgetAll requestId).settle requestId settlement) :=
  (h.forget_settle hpending settlement).of_same rfl rfl rfl rfl le_rfl

/-- A request that fails leaves all maps, or had left them before. -/
theorem MapsAgree.failPending (h : MapsAgree client) (error : Thrown) :
    MapsAgree (client.failPending requestId error) := by
  rw [Bookkeeping.failPending]
  cases hget : client.pending.get? requestId with
  | none => exact h
  | some req => exact h.forgetAll_settle (has_of_get?_eq_some hget) _

/-! ### The turns -/

/-- A new request joins the maps, under an id that none of them has. -/
theorem MapsAgree.register (h : MapsAgree client) (request : SentRequest) :
    MapsAgree (client.register request) where
  paths id := by
    change (client.replenishment.paths.set client.nextRequestId request.forwardPath).has id = true ↔
      (client.pending.set client.nextRequestId _).has id = true
    rw [has_set_iff, has_set_iff]
    exact or_congr_right (h.paths id)
  bursts id hid := has_set_iff.mpr (.inr (h.bursts id hid))
  issued id hid := by
    obtain rfl | hid := has_set_iff.mp hid
    · exact Nat.lt_succ_self _
    · exact Nat.lt_succ_of_lt (h.issued id hid)
  settled_issued id hid := Nat.lt_succ_of_lt (h.settled_issued id hid)
  settled_gone id hid := by
    rw [Bool.eq_false_iff]
    intro hhas
    -- the ID is new, so that no settled request has it
    obtain rfl | hhas := has_set_iff.mp hhas
    · exact absurd (h.settled_issued _ hid) (lt_irrefl _)
    · rw [h.settled_gone id hid] at hhas
      cases hhas
  once := h.once

/-- A request that is sent has joined the maps together. -/
theorem MapsAgree.sendOnRoute (h : MapsAgree client) (request : SentRequest) :
    MapsAgree (client.sendOnRoute request) := by
  have hsent := h.register request
  rw [Bookkeeping.sendOnRoute]
  split_ifs with haborted
  · exact hsent.failPending _
  · exact hsent.of_same rfl rfl rfl rfl le_rfl

/-- A timeout fails a pending request, or comes too late. -/
theorem MapsAgree.responseTimeout (h : MapsAgree client) (effectiveTimeout : ℕ) :
    MapsAgree (client.responseTimeout requestId effectiveTimeout) := by
  have hfired : MapsAgree { client with
      timers := client.timers.filter fun id => id != requestId } :=
    h.of_same rfl rfl rfl rfl le_rfl
  rw [Bookkeeping.responseTimeout]
  dsimp only
  split_ifs with hpending
  · exact hfired.forgetAll_settle hpending _
  · exact hfired

/-- A failed upload fails a pending request, or comes too late. -/
theorem MapsAgree.uploadFailed (h : MapsAgree client) (error : String) :
    MapsAgree (client.uploadFailed requestId error) := by
  have hended : MapsAgree { client with
      uploads := client.uploads.filter fun id => id != requestId } :=
    h.of_same rfl rfl rfl rfl le_rfl
  rw [Bookkeeping.uploadFailed]
  dsimp only
  cases hget : client.pending.get? requestId with
  | none => exact hended
  | some req => exact hended.forgetAll_settle (has_of_get?_eq_some hget) _

/-- A sign of life changes the values of the maps, not their keys. -/
theorem MapsAgree.noteActivity (h : MapsAgree client) (now : ℤ) :
    MapsAgree (client.noteActivity requestId now) := by
  rw [Bookkeeping.noteActivity]
  cases hget : client.burstState.get? requestId with
  | none => exact h
  | some bs =>
    refine h.keep (fun _ => Iff.rfl) (fun _ => Iff.rfl) ?_ rfl le_rfl
    intro id hid
    obtain rfl | hid := has_set_iff.mp hid
    · exact h.bursts id (has_of_get?_eq_some hget)
    · exact h.bursts id hid

/-- A sign of life leaves the requests as they are. -/
theorem pending_noteActivity (now : ℤ) :
    (client.noteActivity requestId now).pending = client.pending := by
  rw [Bookkeeping.noteActivity]
  split <;> rfl

/-- Writing a pending request back keeps the keys. -/
theorem MapsAgree.setPending (h : MapsAgree client)
    (hpending : client.pending.has requestId = true) (req : PendingRequest) :
    MapsAgree { client with pending := client.pending.set requestId req } := by
  have hkeys : ∀ id, (client.pending.set requestId req).has id = true ↔
      client.pending.has id = true := by
    intro id
    rw [has_set_iff]
    refine ⟨fun hid => ?_, .inr⟩
    obtain rfl | hid := hid
    · exact hpending
    · exact hid
  exact h.keep hkeys (fun _ => Iff.rfl) h.bursts rfl le_rfl

/-- The pending request with the activity noted and the fragment in its reassembler, which belongs
to the request and is written back with it. -/
def Bookkeeping.storeFragment (client : Bookkeeping) (requestId : ℕ) (req : PendingRequest)
    (fragment : Fragment) (now createdAt storedAt : ℤ) : Bookkeeping :=
  { client.noteActivity requestId now with
    pending := (client.noteActivity requestId now).pending.set requestId { req with
      reassembler := (req.reassembler.addFragment clampedSub createdAt storedAt fragment).2 } }

/-- What a fragment can do: nothing for an unknown request; else the request is rejected before or
after the fragment is stored, goes on with it, or resolves. -/
theorem Bookkeeping.handleFragment_cases {P : Bookkeeping → Prop} {fragment : Fragment}
    {now createdAt storedAt : ℤ} (hunknown : client.pending.get? requestId = none → P client)
    (hrejected : ∀ req error, client.pending.get? requestId = some req →
      P ((client.noteActivity requestId now).failPending requestId error))
    (hstored : ∀ req, client.pending.get? requestId = some req →
      P (client.storeFragment requestId req fragment now createdAt storedAt))
    (hlarge : ∀ req error, client.pending.get? requestId = some req →
      P ((client.storeFragment requestId req fragment now createdAt storedAt).failPending
        requestId error))
    (hresolved : ∀ req data settled, client.pending.get? requestId = some req →
      settled = ((client.storeFragment requestId req fragment now createdAt storedAt).forget
        requestId).settle requestId (.resolved data) →
      P { settled with cleanups := settled.cleanups ++ [requestId] }) :
    P (client.handleFragment requestId fragment now createdAt storedAt) := by
  rw [Bookkeeping.handleFragment]
  cases hget : client.pending.get? requestId with
  | none => exact hunknown hget
  | some req =>
    dsimp only
    split
    · exact hrejected req _ hget
    · have hstored := hstored req hget
      rw [Bookkeeping.storeFragment] at hstored
      cases hresult : (req.reassembler.addFragment clampedSub createdAt storedAt fragment).1 with
      | error thrown => exact hstored
      | ok result =>
        cases result with
        | none => exact hstored
        | some data =>
          dsimp only
          split
          · exact hlarge req _ hget
          · exact hresolved req data _ hget rfl

/-- A fragment is stored, or settles its request. -/
theorem MapsAgree.handleFragment (h : MapsAgree client) (fragment : Fragment)
    (now createdAt storedAt : ℤ) :
    MapsAgree (client.handleFragment requestId fragment now createdAt storedAt) := by
  have hnoted : MapsAgree (client.noteActivity requestId now) := h.noteActivity now
  have hstored : ∀ req, client.pending.get? requestId = some req →
      MapsAgree (client.storeFragment requestId req fragment now createdAt storedAt) := by
    intro req hget
    refine hnoted.setPending ?_ _
    rw [pending_noteActivity]
    exact has_of_get?_eq_some hget
  refine Bookkeeping.handleFragment_cases (fun _ => h) (fun _ _ _ => hnoted.failPending _) hstored
    (fun req _ hget => (hstored req hget).failPending _) ?_
  rintro req data settled hget rfl
  have hsettled :=
    (hstored req hget).forget_settle (has_set_iff.mpr (.inl rfl)) (.resolved data)
  exact hsettled.of_same rfl rfl rfl rfl le_rfl

/-- The only turn that adds a burst asks for the path of its request first. -/
theorem MapsAgree.handleNeedMoreSurbs (h : MapsAgree client) (serverRequestId : ℕ) (now : ℤ)
    (surbs : List (String × SurbEntry)) :
    MapsAgree (client.handleNeedMoreSurbs requestId serverRequestId now surbs) := by
  rw [Bookkeeping.handleNeedMoreSurbs]
  dsimp only
  split_ifs with hstart hstate
  · exact h
  · exact h
  · have hpath : client.replenishment.hasPendingPath requestId = true := by
      simp only [Bool.or_eq_true, Bool.not_eq_true', not_or, Bool.not_eq_false] at hstart
      exact hstart.2
    refine h.keep (fun _ => Iff.rfl) (fun _ => Iff.rfl) ?_ rfl le_rfl
    intro id hid
    obtain rfl | hid := has_set_iff.mp hid
    · exact (h.paths id).mp hpath
    · exact h.bursts id hid

/-- A stall check starts bursts of pending requests and forgets none. -/
theorem MapsAgree.checkBurstStalls (h : MapsAgree client) (now : ℤ)
    (surbs : ℕ → List (String × SurbEntry)) : MapsAgree (client.checkBurstStalls now surbs) := by
  rw [Bookkeeping.checkBurstStalls]
  refine List.foldlRecOn _ _ h ?_
  rintro client h ⟨requestId, bs⟩ -
  simp only [Bookkeeping.checkBurstStall]
  split_ifs with hround hstalled
  · exact h
  · split
    · exact h
    · split_ifs with hprogress
      · exact h
      · exact h.handleNeedMoreSurbs _ _ _
  · exact h

/-- The turn after a failed burst only takes a burst away, even when the request is settled. -/
theorem MapsAgree.burstFailed (h : MapsAgree client) :
    MapsAgree (client.burstFailed requestId) :=
  h.keep (fun _ => Iff.rfl) (fun _ => Iff.rfl) (fun id hid => h.bursts id (has_delete_iff.mp hid).2)
    rfl le_rfl

/-- The loop of `disconnect` settles the requests it visits and clears their paths. -/
theorem foldl_disconnectRequest (ids : List ℕ) :
    (ids.foldl Bookkeeping.disconnectRequest client).nextRequestId = client.nextRequestId ∧
      (ids.foldl Bookkeeping.disconnectRequest client).settled.map Prod.fst =
        client.settled.map Prod.fst ++ ids ∧
      ∀ id, (ids.foldl Bookkeeping.disconnectRequest client).replenishment.hasPendingPath id =
        true → id ∉ ids ∧ client.replenishment.hasPendingPath id = true := by
  induction ids generalizing client with
  | nil => simp
  | cons first ids ih =>
    obtain ⟨hnext, hsettled, hpaths⟩ := @ih (client.disconnectRequest first)
    rw [List.foldl_cons]
    refine ⟨hnext, ?_, fun id hid => ?_⟩
    · rw [hsettled]
      simp [Bookkeeping.disconnectRequest, Bookkeeping.settle]
    · obtain ⟨hnot, hhas⟩ := hpaths id hid
      obtain ⟨hne, hhas⟩ := has_delete_iff.mp hhas
      exact ⟨fun hmem => (List.mem_cons.mp hmem).elim hne hnot, hhas⟩

/-- After the shutdown no request and no entry is left. -/
theorem MapsAgree.disconnect (h : MapsAgree client) : MapsAgree client.disconnect := by
  -- the loop visits the pending requests, which are those with a path
  obtain ⟨hnext, hsettled, hpaths⟩ := @foldl_disconnectRequest
    { client with stallTimer := false } client.pending.keys
  have hnone : ∀ id, client.disconnect.pending.has id = false := fun _ => rfl
  have hsettled' : client.disconnect.settled.map Prod.fst =
      client.settled.map Prod.fst ++ client.pending.keys := hsettled
  have hnext' : client.disconnect.nextRequestId = client.nextRequestId := hnext
  constructor
  · intro id
    rw [hnone]
    refine iff_of_false (fun hid => ?_) Bool.false_ne_true
    obtain ⟨hnot, hpath⟩ := hpaths id hid
    exact hnot (OrderedMap.has_iff.mp ((h.paths id).mp hpath))
  · intro id hid
    cases hid
  · intro id hid
    cases hid
  · intro id hid
    rw [hsettled', List.mem_append] at hid
    rw [hnext']
    obtain hid | hid := hid
    · exact h.settled_issued id hid
    · exact h.issued id (OrderedMap.has_iff.mpr hid)
  · intro id _
    exact hnone id
  · rw [hsettled', List.nodup_append]
    refine ⟨h.once, client.pending.nodup_keys, ?_⟩
    rintro id hid id' hid' rfl
    have hgone := h.settled_gone id hid
    rw [OrderedMap.has_iff.mpr hid'] at hgone
    cases hgone

/-- An event that can happen leaves the client of its turn. -/
theorem eq_of_armed {armed : Prop} [Decidable armed] {next : Bookkeeping}
    (h : (if armed then some next else none) = some after) : next = after := by
  obtain ⟨-, hnext⟩ := Option.ite_none_right_eq_some.mp h
  exact Option.some.inj hnext

/-- One turn keeps the maps consistent. -/
theorem MapsAgree.step {event : RequestEvent} (h : MapsAgree client)
    (hstep : client.step event = some after) : MapsAgree after := by
  cases event with
  | send request =>
    obtain rfl := eq_of_armed hstep
    exact h.sendOnRoute request
  | sendFailed surbs =>
    obtain rfl := eq_of_armed hstep
    exact h.of_same rfl rfl rfl rfl (Nat.le_succ _)
  | uploaded requestId =>
    obtain rfl := eq_of_armed hstep
    exact h.of_same rfl rfl rfl rfl le_rfl
  | uploadFailed requestId error =>
    obtain rfl := eq_of_armed hstep
    exact h.uploadFailed error
  | timeout requestId effectiveTimeout =>
    obtain rfl := eq_of_armed hstep
    exact h.responseTimeout effectiveTimeout
  | abort requestId =>
    obtain rfl := eq_of_armed hstep
    -- the listener is gone before the request is looked up
    have hheard : MapsAgree { client with
        listeners := client.listeners.filter fun id => id != requestId } :=
      h.of_same rfl rfl rfl rfl le_rfl
    exact hheard.failPending _
  | fragment requestId fragment now createdAt storedAt =>
    obtain rfl := Option.some.inj hstep
    exact h.handleFragment fragment now createdAt storedAt
  | needMoreSurbs requestId serverRequestId now surbs =>
    obtain rfl := Option.some.inj hstep
    exact h.handleNeedMoreSurbs serverRequestId now surbs
  | stallCheck now surbs =>
    obtain rfl := eq_of_armed hstep
    exact h.checkBurstStalls now surbs
  | burstDone requestId =>
    obtain rfl := eq_of_armed hstep
    exact h.of_same rfl rfl rfl rfl le_rfl
  | burstFailed requestId =>
    obtain rfl := eq_of_armed hstep
    exact h.burstFailed
  | cleanup requestId =>
    obtain rfl := eq_of_armed hstep
    exact h.of_same rfl rfl rfl rfl le_rfl
  | disconnect =>
    obtain rfl := Option.some.inj hstep
    exact h.disconnect

/-- The maps agree in every state of a run. -/
theorem mapsAgree_of_run {hasWasm : Bool}
    (hrun : Lib.Run Bookkeeping.step (.initial hasWasm) client) : MapsAgree client :=
  hrun.invariant (mapsAgree_initial hasWasm) fun _ _ _ h hstep => h.step hstep

end Lemmas

/-- After any turns the requests with a replenishment path are the pending ones, every burst
belongs to a pending request, and no request is settled twice or both settled and pending.

All of it is the invariant `MapsAgree`, which each turn keeps: wherever a request leaves the map of
the pending ones, its replenishment path goes with it. -/
theorem bookkeeping_consistent {hasWasm : Bool} {client : Bookkeeping}
    (hrun : Lib.Run Bookkeeping.step (.initial hasWasm) client) :
    (∀ id, client.replenishment.hasPendingPath id = true ↔ client.pending.has id = true) ∧
      (∀ id, client.burstState.has id = true → client.pending.has id = true) ∧
      (client.settled.map Prod.fst).Nodup ∧
      ∀ id ∈ client.settled.map Prod.fst, client.pending.has id = false := by
  have h := mapsAgree_of_run hrun
  exact ⟨h.paths, h.bursts, h.once, h.settled_gone⟩

/-- A request without limits and signal over an empty route. -/
def plainRequest : SentRequest := ⟨[], "https://entry", .v1, [], none, false, false⟩

/-- A request that times out while its burst is being sent; the burst fails after that. -/
def lateBurst : List RequestEvent :=
  [.send plainRequest, .needMoreSurbs 0 7 1000 [], .timeout 0 120000, .burstFailed 0]

/-- A burst that a request outlives, in a run that ends with its reply. -/
theorem bookkeeping_consistent_late_burst :
    ∃ client, Lib.runEvents Bookkeeping.step (.initial true) lateBurst = some client ∧
      (∀ id, client.replenishment.hasPendingPath id = true ↔ client.pending.has id = true) ∧
      (∀ id, client.burstState.has id = true → client.pending.has id = true) ∧
      (client.settled.map Prod.fst).Nodup ∧
      ∀ id ∈ client.settled.map Prod.fst, client.pending.has id = false :=
  ⟨_, rfl, @bookkeeping_consistent true _ (@Lib.run_of_runEvents _ _ _ _ _ lateBurst rfl)⟩

end NoxSdk.Client
