import NoxSdk.Client.ClaimSettings
import NoxSdk.Client.ResponseItems
import NoxSdk.Lib.Runs
import Mathlib.Data.Finset.Union

/-!
# The claim scheduler

`ReplyClaimScheduler` before `close`, as a step function: `track`, `noteFragment`, the pass `tick`
of the timer or of a microtask, the end of a claim and the end of a capability probe. A claim that
was answered delivers its replies before it queues their acks; the host may call the scheduler
meanwhile, so this is a step of its own. The calls of `onLost` are those of the host as well.

The host answers each pass as it likes (`HostView`). Its `fetchFor` and `probeWaitMaxMs` return.
The sums of a timeout are exact below `2 ^ 53`. `tracked` records the calls of `track`. A client
tracks each request once, and the IDs it names are of that request (`Fair`).
-/

namespace NoxSdk.Client

open NoxSdk.Bincode

/-! ### State -/

/-- A `Set<string>` in insertion order. -/
structure IdQueue where
  ids : List String
  nodup : ids.Nodup

namespace IdQueue

/-- The empty set. -/
def empty : IdQueue := ⟨[], List.nodup_nil⟩

/-- `set.size`. -/
def size (queue : IdQueue) : ℕ := queue.ids.length

/-- `set.add(id)`. -/
def add (queue : IdQueue) (id : String) : IdQueue :=
  if h : id ∈ queue.ids then queue
  else ⟨queue.ids ++ [id], List.nodup_append.mpr ⟨queue.nodup, List.nodup_singleton id,
    fun _ ha _ hb hab => h (List.mem_singleton.mp hb ▸ hab ▸ ha)⟩⟩

/-- The set without its first `n` elements. -/
def drop (queue : IdQueue) (n : ℕ) : IdQueue :=
  ⟨queue.ids.drop n, queue.nodup.sublist (List.drop_sublist n _)⟩

end IdQueue

/-- `Target`. -/
structure Target where
  requestId : ℕ
  entryUrl : String
  initialIds : List String
  sentAt : ℤ
  dataWanted : ℕ
  suspectSince : Option ℤ
  lostReported : Bool

/-- `EntryState`. -/
structure EntryState where
  inFlight : Finset String
  claims : ℕ
  waiting : ℕ
  cursor : ℕ
  longPoll : Option Bool
  v2 : Option Bool
  waitMaxMs : Option ℕ
  relayWaitMaxMs : Option ℕ
  probing : Bool
  probeFailures : ℕ
  probeRetryAt : ℤ
  acks : IdQueue

/-- The state of an entry that is seen first. -/
def EntryState.new : EntryState where
  inFlight := ∅
  claims := 0
  waiting := 0
  cursor := 0
  longPoll := none
  v2 := none
  waitMaxMs := none
  relayWaitMaxMs := none
  probing := false
  probeFailures := 0
  probeRetryAt := 0
  acks := .empty

/-- A claim in flight. -/
structure Claim where
  entryUrl : String
  ids : List String
  requests : List ℕ
  acks : List String
  waitMs : ℕ
  timeoutMs : ℕ

/-- `ClaimOutcome`. -/
structure ClaimOutcome where
  items : List ClaimedItem
  format : ClaimFormat
  bytes : ℕ
  v2 : Option Bool
  waitMaxMs : Option ℕ
  timing : ClaimTiming

/-- What is fixed of the host: the request of each ID, and whether it has `probeWaitMaxMs`. -/
structure ClaimHost where
  requestOf : String → ℕ
  probes : Bool

/-- What the host answers in one pass. -/
structure HostView (host : ClaimHost) where
  now : ℤ
  isPending : ℕ → Bool
  activeIds : ℕ → List String
  skipEntry : String → Bool

/-- The IDs of every request are different, and of this request. -/
structure HostView.Disjoint {host : ClaimHost} (view : HostView host) : Prop where
  nodup : ∀ requestId, (view.activeIds requestId).Nodup
  requestOf : ∀ requestId, ∀ id ∈ view.activeIds requestId, host.requestOf id = requestId

/-- `ReplyClaimScheduler`. -/
structure Scheduler where
  targets : OrderedMap ℕ Target
  entries : OrderedMap String EntryState
  timer : Bool
  kickQueued : Bool
  /-- The claims in flight, oldest first. -/
  claims : List Claim
  /-- The answered claims whose replies are delivered: the entry and the items. -/
  delivering : List (String × List ClaimedItem)
  /-- The entry that each request was tracked with. -/
  tracked : OrderedMap ℕ String

/-- `MAX_PENDING_ACKS`. -/
def maxPendingAcks : ℕ := 512

/-- `MAX_ACKS_PER_CLAIM`. -/
def maxAcksPerClaim : ℕ := 128

/-- `PROBE_RETRY_BASE_MS`. -/
def probeRetryBaseMs : ℕ := 5000

/-- `PROBE_RETRY_MAX_MS`. -/
def probeRetryMaxMs : ℕ := 60000

/-- `FIRST_ARRIVAL_BLOCKS`. -/
def firstArrivalBlocks : ℕ := 2

/-! ### Batches -/

/-- The IDs and the requests of a claim to be sent. -/
structure Batch where
  ids : List String
  requests : List ℕ

/-- The empty batch. -/
def Batch.empty : Batch := ⟨[], []⟩

/-- `current.ids.push(id)` and `current.requests.add(requestId)`. -/
def Batch.add (batch : Batch) (wanted : ℕ × String) : Batch :=
  ⟨batch.ids ++ [wanted.2],
    if wanted.1 ∈ batch.requests then batch.requests else batch.requests ++ [wanted.1]⟩

/-- The loop of `claimFrom` over the wanted IDs of its targets. -/
def fillBatches (maxIds free : ℕ) : List (ℕ × String) → Batch → List Batch → List Batch
  | [], current, batches =>
    if current.ids ≠ [] ∧ batches.length < free then batches ++ [current] else batches
  | wanted :: rest, current, batches =>
    if maxIds ≤ current.ids.length then
      if free ≤ batches.length + 1 then batches ++ [current]
      else fillBatches maxIds free rest (Batch.empty.add wanted) (batches ++ [current])
    else fillBatches maxIds free rest (current.add wanted) batches

/-! ### Entries -/

namespace EntryState

variable (settings : ReplyClaimSettings) (host : ClaimHost) (state : EntryState)

/-- The sizes of `limits`. -/
structure Limits where
  maxIds : ℕ
  maxClaims : ℕ

/-- `limits`. -/
def limits : Limits :=
  if state.v2 = some true then ⟨settings.maxIdsPerClaim, settings.maxClaimsInFlight⟩
  else ⟨settings.jsonMaxIdsPerClaim, settings.jsonMaxClaimsInFlight⟩

/-- `probe`, up to its answer. -/
def probe : EntryState :=
  if host.probes = false ∨ settings.waitMs = 0 ∨ settings.retain = false then state
  else { state with probing := true }

/-- `reprobe`. -/
def reprobe (now : ℤ) : EntryState :=
  if state.relayWaitMaxMs.isSome ∨ state.probing = true ∨ state.probeFailures = 0 ∨
      now < state.probeRetryAt then state
  else state.probe settings host

/-- What `probe` does with its answer; `none` is a failure. -/
def probed (answer : Option ℤ) (now : ℤ) : EntryState :=
  match answer with
  | some ms =>
    { state with
      probing := false
      relayWaitMaxMs := some (if 0 < ms ∧ ms < 2 ^ 53 then ms.toNat else 0)
      probeFailures := 0 }
  | none =>
    { state with
      probing := false
      probeFailures := state.probeFailures + 1
      probeRetryAt := now +
        (min (probeRetryBaseMs * 2 ^ min state.probeFailures 16) probeRetryMaxMs : ℕ) }

/-- `waitFor`. -/
def waitFor (ignoreSlots : Bool) : ℕ :=
  if settings.waitMs = 0 ∨ settings.retain = false then 0
  else if ignoreSlots = false ∧ max 1 ((state.limits settings).maxClaims - 1) ≤ state.waiting then 0
  else
    match if host.probes then state.relayWaitMaxMs else state.waitMaxMs with
    | none => 0
    | some relay => min settings.waitMs (min relay (state.waitMaxMs.getD relay))

/-- `firstArrivalFront`. -/
def firstArrivalFront : ℕ :=
  if settings.firstArrival = false ∨ state.v2 ≠ some true ∨ state.longPoll = some false then 1
  else if 0 < state.waitFor settings host true then firstArrivalBlocks
  else 1

/-- `queueAcks`. -/
def queueAcks (ids : List String) : EntryState :=
  if state.v2 ≠ some true ∨ settings.retain = false then state
  else
    { state with
      acks := ids.foldl (fun acks id =>
        let added := acks.add id
        if maxPendingAcks < added.size then added.drop 1 else added) state.acks }

/-- The claim of a batch, up to its request; `takeAcks` takes its acks. -/
def newClaim (entryUrl : String) (batch : Batch) : Claim :=
  let waitMs := if batch.ids = [] then 0 else state.waitFor settings host false
  { entryUrl
    ids := batch.ids
    requests := batch.requests
    acks := state.acks.ids.take maxAcksPerClaim
    waitMs
    timeoutMs := settings.claimTimeoutMs + waitMs +
      settings.claimTimeoutPerIdMs * (batch.ids.length - 1) }

/-- The state while a new claim is sent. -/
def launch (claim : Claim) : EntryState :=
  { state with
    inFlight := state.inFlight ∪ claim.ids.toFinset
    claims := state.claims + 1
    waiting := if 0 < claim.waitMs then state.waiting + 1 else state.waiting
    acks := state.acks.drop maxAcksPerClaim }

/-- The `finally` of a claim. -/
def release (claim : Claim) : EntryState :=
  { state with
    inFlight := state.inFlight \ claim.ids.toFinset
    claims := state.claims - 1
    waiting := if 0 < claim.waitMs then state.waiting - 1 else state.waiting }

/-- What an answer tells of the entry; `longPoll` as in `noteOutcome`. -/
def noteOutcome (claim : Claim) (outcome : ClaimOutcome) (ms : ℤ) : EntryState :=
  { state with
    v2 := outcome.v2.or state.v2
    waitMaxMs := outcome.waitMaxMs.or state.waitMaxMs
    longPoll :=
      if claim.ids ≠ [] ∧ outcome.format = .empty ∧ 0 < claim.waitMs ∧ state.longPoll = none then
        some (decide (3 * (claim.waitMs : ℤ) ≤ 4 * ms))
      else state.longPoll }

/-- The acks of a failed claim are queued again. -/
def requeue (acks : List String) : EntryState :=
  { state with acks := acks.foldl IdQueue.add state.acks }

end EntryState

/-! ### The scheduler -/

namespace Target

/-- What a fragment changes of its target. -/
def noteFragment (target : Target) (fragment : FragmentWire) : Target :=
  let dataShards := match fragment.fec with
    | some fec => fec.dataShardCount
    | none => fragment.totalFragments
  { target with
    suspectSince := none
    dataWanted :=
      if dataShards < 2 ^ 53 ∧ target.dataWanted < dataShards then dataShards
      else target.dataWanted }

/-- `checkLost`. -/
def checkLost (target : Target) (settings : ReplyClaimSettings) (now : ℤ) : Target :=
  match target.suspectSince with
  | none => target
  | some since =>
    if target.lostReported = true ∨ now - since < settings.lostReplyGraceMs then target
    else { target with lostReported := true }

/-- What `noteFailure` changes of a target. -/
def noteFailure (target : Target) (now : ℤ) : Target :=
  { target with suspectSince := target.suspectSince.or (some now) }

end Target

namespace Scheduler

variable (settings : ReplyClaimSettings) {host : ClaimHost} (view : HostView host) (s : Scheduler)

/-- The scheduler after its constructor. -/
def init : Scheduler := ⟨.empty, .empty, false, false, [], [], .empty⟩

/-- The state of an entry. -/
def entryAt (entryUrl : String) : EntryState := (s.entries.get? entryUrl).getD .new

/-- The scheduler with another state of an entry. -/
def setEntry (entryUrl : String) (state : EntryState) : Scheduler :=
  { s with entries := s.entries.set entryUrl state }

/-- The scheduler with another state of a target. -/
def setTarget (target : Target) : Scheduler :=
  { s with targets := s.targets.set target.requestId target }

/-- `track`. -/
def track (requestId : ℕ) (entryUrl : String) (initialIds : List String) (dataWanted : ℕ)
    (now : ℤ) : Scheduler :=
  { s with
    targets := s.targets.set requestId
      ⟨requestId, entryUrl, initialIds, now, dataWanted, none, false⟩
    timer := true
    kickQueued := true
    tracked := s.tracked.set requestId entryUrl }

/-- `noteFragment`. -/
def noteFragment (requestId : ℕ) (fragment : FragmentWire) : Scheduler :=
  match s.targets.get? requestId with
  | none => s
  | some target => s.setTarget (target.noteFragment fragment)

/-- `queueAcks`. -/
def queueAcks (entryUrl : String) (ids : List String) : Scheduler :=
  match s.entries.get? entryUrl with
  | none => s
  | some state => s.setEntry entryUrl (state.queueAcks settings ids)

/-- The start of `tick` on one target. -/
def sweepTarget (target : Target) : Scheduler :=
  if view.isPending target.requestId then s.setTarget (target.checkLost settings view.now)
  else { s with targets := s.targets.delete target.requestId }.queueAcks settings target.entryUrl
    target.initialIds

/-- The start of `tick` on every target. -/
def sweep : Scheduler := s.targets.values.foldl (sweepTarget settings view) s

/-- The targets that are claimed in this pass, by entry. -/
def byEntry : OrderedMap String (List Target) :=
  OrderedMap.groupBy Target.entryUrl
    (((s.targets.values.filter fun target => view.isPending target.requestId).map fun target =>
      target.checkLost settings view.now).filter fun target => !view.skipEntry target.entryUrl)

/-- `wantedIds`. -/
def wantedIds (state : EntryState) (target : Target) : List String :=
  let fallback := target.suspectSince.isSome ||
    decide ((settings.parityFallbackMs : ℤ) ≤ view.now - target.sentAt)
  let front := max target.dataWanted (state.firstArrivalFront settings host)
  let deferred := if fallback then [] else target.initialIds.drop front
  (view.activeIds target.requestId).filter fun id => id ∉ deferred ∧ id ∉ state.inFlight

/-- A claim is in flight. -/
def launch (claim : Claim) : Scheduler :=
  { s.setEntry claim.entryUrl ((s.entryAt claim.entryUrl).launch claim) with
    claims := s.claims ++ [claim] }

/-- The start of `claim`, up to the request. -/
def claim (host : ClaimHost) (entryUrl : String) (batch : Batch) : Scheduler :=
  s.launch ((s.entryAt entryUrl).newClaim settings host entryUrl batch)

/-- `entryState`, and `reprobe`. -/
def entryState (entryUrl : String) : EntryState :=
  ((s.entries.get? entryUrl).getD (EntryState.new.probe settings host)).reprobe settings host
    view.now

/-- The targets of an entry in the order in which they are claimed from a place on. -/
def rotate (cursor : ℕ) (targets : List Target) : List Target :=
  let sorted := targets.mergeSort fun left right => decide (left.sentAt ≤ right.sentAt)
  let start := cursor % targets.length
  sorted.drop start ++ sorted.take start

/-- `claimFrom`. -/
def claimFrom (group : String × List Target) : Scheduler :=
  let (entryUrl, targets) := group
  let state := s.entryState settings view entryUrl
  let limits := state.limits settings
  if limits.maxClaims ≤ state.claims then s.setEntry entryUrl state
  else
    let wanted := (rotate state.cursor targets).flatMap fun target =>
      (wantedIds settings view state target).map fun id => (target.requestId, id)
    let cursor := (state.cursor % targets.length + 1) % max 1 targets.length
    (fillBatches limits.maxIds (limits.maxClaims - state.claims) wanted .empty []).foldl
      (fun s batch => s.claim settings host entryUrl batch)
      (s.setEntry entryUrl { state with cursor })

/-- `flushAcks` for one entry. -/
def flushEntry (host : ClaimHost) (claimedThisTick : OrderedMap String (List Target))
    (entryUrl : String) : Scheduler :=
  let state := s.entryAt entryUrl
  if state.acks.size = 0 ∨ state.v2 ≠ some true ∨ claimedThisTick.has entryUrl then s
  else if (state.limits settings).maxClaims ≤ state.claims then s
  else s.claim settings host entryUrl .empty

/-- `flushAcks`. -/
def flushAcks (host : ClaimHost) (claimedThisTick : OrderedMap String (List Target)) : Scheduler :=
  s.entries.keys.foldl (fun s entryUrl => s.flushEntry settings host claimedThisTick entryUrl) s

/-- `tick` before it looks whether the timer is needed. -/
def pass : Scheduler :=
  let byEntry := s.byEntry settings view
  (byEntry.entries.foldl (claimFrom settings view) (s.sweep settings view)).flushAcks settings host
    byEntry

/-- There is no target, no entry with acks and none with claims in flight. -/
def Idle : Prop :=
  s.targets.size = 0 ∧ ∀ state ∈ s.entries.values, state.acks.size = 0 ∧ state.claims = 0

instance : Decidable s.Idle := inferInstanceAs (Decidable (_ ∧ _))

/-- `tick`. -/
def tick : Scheduler :=
  let s := s.pass settings view
  if s.Idle then { s with timer := false } else s

/-- The `finally` of the claim at a place, whose entry is in a state. -/
def release (index : ℕ) (claim : Claim) (state : EntryState) : Scheduler :=
  { s.setEntry claim.entryUrl (state.release claim) with claims := s.claims.eraseIdx index }

/-- The claim at a place was answered: up to the delivery of its items. -/
def answered (index : ℕ) (outcome : ClaimOutcome) (ms : ℤ) : Option Scheduler :=
  s.claims[index]?.map fun claim =>
    { s.release index claim ((s.entryAt claim.entryUrl).noteOutcome claim outcome ms) with
      delivering := s.delivering ++ [(claim.entryUrl, outcome.items)] }

/-- The items of an answered claim are delivered; the rest of `claim`. -/
def delivered : Option Scheduler :=
  match s.delivering with
  | [] => none
  | (entryUrl, items) :: rest =>
    let s := { s with delivering := rest }.queueAcks settings entryUrl
      (items.filterMap fun item : ClaimedItem => surbIdOfItem item.id)
    some (if 0 < (s.entryAt entryUrl).acks.size then { s with timer := true } else s)

/-- `noteFailure`. -/
def noteFailure (requests : List ℕ) (now : ℤ) : Scheduler :=
  requests.foldl (fun s requestId => match s.targets.get? requestId with
    | none => s
    | some target => s.setTarget (target.noteFailure now)) s

/-- The claim at a place failed. -/
def failed (index : ℕ) (now : ℤ) : Option Scheduler :=
  s.claims[index]?.map fun claim =>
    (s.release index claim ((s.entryAt claim.entryUrl).requeue claim.acks)).noteFailure
      claim.requests now

/-- The capability probe of an entry ended. -/
def probed (entryUrl : String) (answer : Option ℤ) (now : ℤ) : Option Scheduler :=
  match s.entries.get? entryUrl with
  | none => none
  | some state =>
    if state.probing then some (s.setEntry entryUrl (state.probed answer now)) else none

end Scheduler

/-- What happens to the scheduler. -/
inductive SchedulerEvent (host : ClaimHost)
  | track (requestId : ℕ) (entryUrl : String) (initialIds : List String) (dataWanted : ℕ)
      (now : ℤ)
  | noteFragment (requestId : ℕ) (fragment : FragmentWire)
  /-- The timer fires, or a test calls `tick`. -/
  | tick (view : HostView host)
  /-- The microtask of `kick`. -/
  | kick (view : HostView host)
  | answered (index : ℕ) (outcome : ClaimOutcome) (ms : ℤ)
  | delivered
  | failed (index : ℕ) (now : ℤ)
  | probed (entryUrl : String) (answer : Option ℤ) (now : ℤ)

/-- One event. -/
def Scheduler.step (settings : ReplyClaimSettings) (host : ClaimHost) (s : Scheduler) :
    SchedulerEvent host → Option Scheduler
  | .track requestId entryUrl initialIds dataWanted now =>
    some (s.track requestId entryUrl initialIds dataWanted now)
  | .noteFragment requestId fragment => some (s.noteFragment requestId fragment)
  | .tick view => some (s.tick settings view)
  | .kick view =>
    if s.kickQueued then some ({ s with kickQueued := false }.tick settings view) else none
  | .answered index outcome ms => s.answered index outcome ms
  | .delivered => s.delivered settings
  | .failed index now => s.failed index now
  | .probed entryUrl answer now => s.probed entryUrl answer now

/-- The event is no second call of `track` for a request, and no pass in which an ID is of two
requests. -/
def Scheduler.Fair (host : ClaimHost) (s : Scheduler) : SchedulerEvent host → Prop
  | .track requestId .. => s.tracked.get? requestId = none
  | .tick view | .kick view => view.Disjoint
  | _ => True

end NoxSdk.Client
