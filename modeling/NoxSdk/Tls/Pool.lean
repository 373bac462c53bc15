import Mathlib.Data.Rat.Defs
import Mathlib.Logic.Function.Basic
import NoxSdk.Lib.Runs

/-!
# The pool of TLS sessions

`TlsPool` as a step relation: the pool, the channels whose handshake succeeded, the spare opens in
flight and the calls, which step whenever something happens to them. A function between two
`await`s is one step. Channels, spare opens and calls are numbered. A map of lists by host is one
list whose entries know their host.

`owner`, `served`, `torn` and `handedTorn` are ghosts: who has a channel, to how many calls it was
handed, how often it was torn down, and the channels handed to a call when they were torn down.
-/

namespace NoxSdk.Tls

/-- `MAX_KEEP_ALIVE_SESSIONS`. -/
def maxKeepAliveSessions : ℕ := 4

/-- `MAX_SPARE_HOSTS`. -/
def maxSpareHosts : ℕ := 8

/-- `SPARE_REFILL_WINDOW_MS`. -/
def spareRefillWindowMs : ℤ := 60000

/-- `SPARE_REFILL_LEAD_MS`. -/
def spareRefillLeadMs : ℤ := 1500

/-- `TlsSessionSetting`. -/
inductive TlsSessionSetting
  | perCall
  | keepAlive
  deriving DecidableEq, Repr

/-- `PoolSettings`, as far as they decide what becomes of a session. -/
structure PoolSettings where
  tlsSession : TlsSessionSetting
  tlsSpares : ℕ
  tlsSpareTtlMs : ℤ
  tlsKeepAliveMs : ℤ
  tlsMaxCallsPerSession : ℕ

/-- `Spare`; its timers are in the pool's. -/
structure Spare where
  channel : ℕ
  host : String
  readyAt : ℤ
  superseded : Bool
  refreshable : Bool
  deriving DecidableEq, Repr

/-- `PendingOpen`. `result` is how the open ended: with a channel, or with an error. -/
structure PendingOpen where
  host : String
  startedAt : ℤ
  claimed : Bool
  result : Option (Option ℕ)
  readyAt : ℤ
  deriving DecidableEq, Repr

/-- `Pooled`. -/
structure Pooled where
  channel : ℕ
  idle : Bool
  deriving DecidableEq, Repr

/-- What a timer of the pool runs. -/
inductive PoolTimer
  | expire (channel : ℕ)
  | refresh (channel : ℕ)
  | start (host : String)
  | retire (channel : ℕ)
  deriving DecidableEq, Repr

/-- `Settled`. -/
inductive Settled
  | opened (channel : ℕ)
  | failed
  | aborted
  | deadline
  deriving DecidableEq, Repr

/-- Where a call is: in `waitFor`, with what `settleFirst` resolved to, in `open`, or between
`acquire` and `release`. -/
inductive CallPhase
  | fresh
  | waiting (host : String) (entry : ℕ) (outcome : Option Settled)
  | opening (host : String)
  | holding (channel : ℕ)
  | done
  deriving DecidableEq, Repr

/-- Who has a channel. A channel is loose while one step takes it from one owner to the next. -/
inductive Owner
  | unborn
  | loose
  | call (call : ℕ)
  | spare
  | idle
  | opening (entry : ℕ)
  | gone
  deriving DecidableEq, Repr

/-- A call has the channel. -/
def Owner.isCall : Owner → Bool
  | .call _ => true
  | _ => false

/-- What a channel says of itself: `reusable` but for `freed`, and `calls`. -/
structure ChannelView where
  reusable : Bool
  calls : ℕ

/-- `TlsPool`, its channels and its calls. -/
structure Pool where
  spares : List Spare
  spareHosts : List String
  opening : String → ℕ
  pending : List ℕ
  lastCallAt : List (String × ℤ)
  sessions : List Pooled
  timers : List PoolTimer
  deferredHosts : List String
  background : Bool
  closed : Bool
  opens : ℕ → Option PendingOpen
  starts : ℕ
  hostOf : ℕ → String
  openedAt : ℕ → ℤ
  opened : ℕ
  calls : ℕ → CallPhase
  owner : ℕ → Owner
  served : ℕ → ℕ
  torn : ℕ → ℕ
  handedTorn : List ℕ

namespace Pool

/-- A new pool. -/
def init : Pool where
  spares := []
  spareHosts := []
  opening _ := 0
  pending := []
  lastCallAt := []
  sessions := []
  timers := []
  deferredHosts := []
  background := false
  closed := false
  opens _ := none
  starts := 0
  hostOf _ := ""
  openedAt _ := 0
  opened := 0
  calls _ := .fresh
  owner _ := .unborn
  served _ := 0
  torn _ := 0
  handedTorn := []

variable (settings : PoolSettings) (s : Pool)

/-! ### Channels -/

/-- A handshake succeeded: `open` returns a new channel. -/
def newChannel (host : String) (now : ℤ) : Pool :=
  { s with
    hostOf := Function.update s.hostOf s.opened host
    openedAt := Function.update s.openedAt s.opened now
    owner := Function.update s.owner s.opened .loose
    opened := s.opened + 1 }

/-- A step takes a channel from its owner. -/
def loosen (channel : ℕ) : Pool :=
  { s with owner := Function.update s.owner channel .loose }

/-- `acquire` returns a channel to a call. -/
def hand (call channel : ℕ) : Pool :=
  { s with
    calls := Function.update s.calls call (.holding channel)
    owner := Function.update s.owner channel (.call call)
    served := Function.update s.served channel (s.served channel + 1)
    handedTorn := if s.torn channel = 0 then s.handedTorn else s.handedTorn ++ [channel] }

/-- `teardown` of channels. `TlsChannel.teardown` does nothing to one that is freed, and a call
keeps a channel that is torn down under it. -/
def teardownAll (channels : List ℕ) : Pool :=
  { s with
    torn := fun c => if c ∈ channels ∧ s.torn c = 0 then s.torn c + 1 else s.torn c
    owner := fun c =>
      if c ∈ channels then
        match s.owner c with
        | .call k => .call k
        | _ => .gone
      else s.owner c }

/-- `teardown`. -/
def teardown (channel : ℕ) : Pool := s.teardownAll [channel]

/-! ### Spares -/

/-- `lastCallAt.get(host)` is within the window. -/
def recentlyCalled (host : String) (now : ℤ) : Bool :=
  match s.lastCallAt.find? (·.1 == host) with
  | some (_, lastAt) => now - lastAt < spareRefillWindowMs
  | none => false

/-- `noteCall`. -/
def noteCall (host : String) (now : ℤ) : Pool :=
  let noted := s.lastCallAt.filter (·.1 != host) ++ [(host, now)]
  { s with lastCallAt := noted.drop (noted.length - maxSpareHosts) }

/-- `clearSpareTimers` of spares, by their channels. -/
def clearSpareTimers (channels : List ℕ) : Pool :=
  { s with
    timers := s.timers.filter fun
      | .expire c => c ∉ channels
      | .refresh c => c ∉ channels
      | _ => true }

/-- `takeSpare`. -/
def takeSpare (host : String) : Option (Spare × Pool) :=
  (s.spares.find? (·.host == host)).map fun spare =>
    let s := (s.clearSpareTimers [spare.channel]).loosen spare.channel
    (spare,
      { s with
        spares := s.spares.filter (·.channel != spare.channel)
        spareHosts := s.spareHosts.filter (· != host) ++ [host] })

/-- `spareCount`. -/
def spareCount (host : String) : ℕ :=
  (s.spares.countP fun spare => spare.host == host && !spare.superseded) + s.opening host

/-- `start` of `openSpare`. -/
def startOpen (host : String) (now : ℤ) : Pool :=
  { s with
    opens := Function.update s.opens s.starts
      (some { host, startedAt := now, claimed := false, result := none, readyAt := 0 })
    pending := s.pending ++ [s.starts]
    starts := s.starts + 1 }

/-- `openSpare`. -/
def openSpare (host : String) (delayMs now : ℤ) : Pool :=
  let s := { s with opening := Function.update s.opening host (s.opening host + 1) }
  if delayMs ≤ 0 then s.startOpen host now else { s with timers := s.timers ++ [.start host] }

/-- `replenish`. -/
def replenish (host : String) (delayMs now : ℤ) : Pool :=
  if settings.tlsSession ≠ .perCall ∨ settings.tlsSpares = 0 ∨ s.closed then s
  else if !s.background then
    if s.deferredHosts.length < maxSpareHosts ∧ host ∉ s.deferredHosts then
      { s with deferredHosts := s.deferredHosts ++ [host] }
    else s
  else if settings.tlsSpares ≤ s.spareCount host then s
  else s.openSpare host delayMs now

/-- Spares leave their lists and are torn down. -/
def dropSpares (dropped : Spare → Bool) : Pool :=
  let channels := (s.spares.filter dropped).map Spare.channel
  teardownAll
    { s.clearSpareTimers channels with spares := s.spares.filter fun spare => !dropped spare }
    channels

/-- The loop of `keepSpare` over the hosts that are too many. -/
def evict : Pool :=
  let surplus := s.spareHosts.length - maxSpareHosts
  { s.dropSpares fun spare => spare.host ∈ s.spareHosts.take surplus with
    spareHosts := s.spareHosts.drop surplus }

/-- `keepSpare`, with the jitter drawn. -/
def keepSpare (host : String) (channel : ℕ) (readyAt now : ℤ) (jitterMs : ℚ) : Pool :=
  if s.closed then s.teardown channel
  else
    let ageMs := now - readyAt
    let refreshable : Bool :=
      0 < ((settings.tlsSpareTtlMs - spareRefillLeadMs - ageMs : ℤ) : ℚ) - jitterMs
    evict
      { s with
        spares := s.spares ++ [{ channel, host, readyAt, superseded := false, refreshable }]
        spareHosts := s.spareHosts.filter (· != host) ++ [host]
        timers := s.timers ++ .expire channel :: if refreshable then [.refresh channel] else []
        owner := Function.update s.owner channel .spare }

/-- `refresh`. -/
def refresh (channel : ℕ) (now : ℤ) : Pool :=
  match s.spares.find? (·.channel == channel) with
  | none => s
  | some spare =>
    if s.closed ∨ s.background = false ∨ s.recentlyCalled spare.host now = false ∨
        s.spares.any (fun other => other.host == spare.host && other.superseded) then s
    else
      openSpare
        { s with
          spares := s.spares.map fun other =>
            if other.channel = channel then { other with superseded := true } else other }
        spare.host 0 now

/-- `expire`. -/
def expire (channel : ℕ) (now : ℤ) : Pool :=
  match s.spares.find? (·.channel == channel) with
  | none => s
  | some spare =>
    let s := s.dropSpares (·.channel == channel)
    let s :=
      if s.spares.any (·.host == spare.host) then s
      else { s with spareHosts := s.spareHosts.filter (· != spare.host) }
    if spare.refreshable = false ∨ s.closed ∨ s.background = false ∨
        s.recentlyCalled spare.host now = false then s
    else if s.spareCount spare.host < settings.tlsSpares then s.openSpare spare.host 0 now
    else s

/-- The oldest open for a host that a call may wait for; `ages` are half the handshake median and
the p95, if there are enough samples. -/
def waitableOpen (host : String) (ages : ℚ × Option ℚ) (now : ℤ) : Option (ℕ × PendingOpen) :=
  s.pending.findSome? fun id =>
    (s.opens id).bind fun entry =>
      let ageMs : ℚ := (now - entry.startedAt : ℤ)
      if entry.host = host ∧ entry.claimed = false ∧ ages.1 ≤ ageMs ∧ ages.2.all (ageMs ≤ ·) then
        some (id, entry)
      else none

/-- `settled` of `openSpare`. -/
def settleOpen (id : ℕ) (entry : PendingOpen) (result : Option ℕ) (now : ℤ) : Pool :=
  { s with
    opening := Function.update s.opening entry.host (s.opening entry.host - 1)
    pending := s.pending.filter (· != id)
    opens := Function.update s.opens id
      (some { entry with result := some result, readyAt := now }) }

/-! ### Shared sessions -/

/-- `keepAliveUsable`. -/
def keepAliveUsable (view : ℕ → ChannelView) (channel : ℕ) (now : ℤ) : Bool :=
  s.torn channel = 0 ∧ (view channel).reusable ∧
    (view channel).calls < settings.tlsMaxCallsPerSession ∧
    now - s.openedAt channel < settings.tlsKeepAliveMs

/-- `retire`. -/
def retire (channel : ℕ) : Pool :=
  teardown { s with sessions := s.sessions.filter (·.channel != channel) } channel

/-- An entry is idle, or not. -/
def setIdle (channel : ℕ) (idle : Bool) : Pool :=
  { s with
    sessions := s.sessions.map fun entry =>
      if entry.channel = channel then { entry with idle } else entry }

end Pool

/-! ### Steps -/

/-- What can happen to the pool, with what is read or drawn on the way: the clock, random numbers
and what the channels say of themselves. -/
inductive PoolEvent
  /-- A call enters `acquire`. -/
  | acquire (call : ℕ) (host : String) (ages : ℚ × Option ℚ) (view : ℕ → ChannelView)
    (delayMs now : ℤ)
  /-- The `open` of a call succeeds, or fails. -/
  | callOpened (call : ℕ) (delayMs now : ℤ)
  | callFailed (call : ℕ)
  /-- The `open` of a spare succeeds, or fails. -/
  | spareOpened (entry : ℕ) (jitterMs : ℚ) (now : ℤ)
  | spareFailed (entry : ℕ) (now : ℤ)
  /-- `settleFirst` sees the open settled, the abort, or the deadline. -/
  | waiterSees (call : ℕ)
  | waiterAborts (call : ℕ)
  | waiterTimesOut (call : ℕ)
  /-- `waitFor` goes on after `settleFirst`. -/
  | resume (call : ℕ) (jitterMs : ℚ) (delayMs now : ℤ)
  | release (call : ℕ) (ok : Bool) (view : ℕ → ChannelView) (now : ℤ)
  | fire (timer : PoolTimer) (now : ℤ)
  | enableBackground (delaysMs : String → ℤ) (now : ℤ)
  | close

namespace Pool

variable (settings : PoolSettings) (s : Pool)

/-- `acquire`, up to its first `await`. -/
def acquire (call : ℕ) (host : String) (ages : ℚ × Option ℚ) (view : ℕ → ChannelView)
    (delayMs now : ℤ) : Pool :=
  match settings.tlsSession with
  | .perCall =>
    let s := s.noteCall host now
    match s.takeSpare host with
    | some (spare, s) => (s.hand call spare.channel).replenish settings host delayMs now
    | none =>
      match s.waitableOpen host ages now with
      | some (id, entry) =>
        { s with
          opens := Function.update s.opens id (some { entry with claimed := true })
          calls := Function.update s.calls call (.waiting host id none) }
      | none => { s with calls := Function.update s.calls call (.opening host) }
  | .keepAlive =>
    let ready := s.sessions.find? fun entry =>
      s.hostOf entry.channel == host && entry.idle &&
        s.keepAliveUsable settings view entry.channel now
    match ready with
    | some entry => ((s.setIdle entry.channel false).loosen entry.channel).hand call entry.channel
    | none => { s with calls := Function.update s.calls call (.opening host) }

/-- `acquire` after its own `open`. -/
def callOpened (call : ℕ) (host : String) (delayMs now : ℤ) : Pool :=
  let channel := s.opened
  let s := (s.newChannel host now).hand call channel
  match settings.tlsSession with
  | .perCall => s.replenish settings host delayMs now
  | .keepAlive =>
    if s.sessions.countP (fun entry => s.hostOf entry.channel == host) < maxKeepAliveSessions then
      { s with sessions := s.sessions ++ [⟨channel, false⟩] }
    else s

/-- The handler of a spare open that succeeded. -/
def spareOpened (id : ℕ) (entry : PendingOpen) (jitterMs : ℚ) (now : ℤ) : Pool :=
  let channel := s.opened
  let s := (s.newChannel entry.host now).settleOpen id entry (some channel) now
  if entry.claimed then { s with owner := Function.update s.owner channel (.opening id) }
  else s.keepSpare settings entry.host channel now now jitterMs

/-- `settleFirst` resolves, if it has not. -/
def settleFirst (call : ℕ) (outcome : Settled) : Option Pool :=
  match s.calls call with
  | .waiting host id none =>
    some { s with calls := Function.update s.calls call (.waiting host id (some outcome)) }
  | _ => none

/-- What `settleFirst` resolves to when the open has settled. -/
def openOutcome (call : ℕ) : Option Settled :=
  match s.calls call with
  | .waiting _ id _ =>
    ((s.opens id).bind PendingOpen.result).map fun
      | some channel => .opened channel
      | none => .failed
  | _ => none

/-- `waitFor` gives the open up, and `acquire` goes on. -/
def giveUp (call : ℕ) (host : String) (id : ℕ) (next : CallPhase) (jitterMs : ℚ) (now : ℤ) :
    Option Pool :=
  (s.opens id).map fun entry =>
    let s :=
      { s with
        opens := Function.update s.opens id (some { entry with claimed := false })
        calls := Function.update s.calls call next }
    match entry.result with
    | some (some channel) =>
      (s.loosen channel).keepSpare settings host channel entry.readyAt now jitterMs
    | _ => s

/-- `waitFor` and `acquire` after `settleFirst`. -/
def resume (call : ℕ) (jitterMs : ℚ) (delayMs now : ℤ) : Option Pool :=
  match s.calls call with
  | .waiting host _ (some (.opened channel)) =>
    some (((s.loosen channel).hand call channel).replenish settings host delayMs now)
  | .waiting host _ (some .failed) =>
    some { s with calls := Function.update s.calls call (.opening host) }
  | .waiting host id (some .aborted) => s.giveUp settings call host id .done jitterMs now
  | .waiting host id (some .deadline) =>
    s.giveUp settings call host id (.opening host) jitterMs now
  | _ => none

/-- `release`. -/
def release (call channel : ℕ) (ok : Bool) (view : ℕ → ChannelView) (now : ℤ) : Pool :=
  let usable := s.keepAliveUsable settings view channel now
  let s : Pool := { s.loosen channel with calls := Function.update s.calls call .done }
  match settings.tlsSession with
  | .perCall => s.teardown channel
  | .keepAlive =>
    if ok ∧ s.sessions.any (·.channel == channel) ∧ usable then
      let s := s.setIdle channel true
      { s with
        timers := s.timers ++ [.retire channel]
        owner := Function.update s.owner channel .idle }
    else s.retire channel

/-- A timer of the pool fires. -/
def fire (timer : PoolTimer) (now : ℤ) : Pool :=
  let s := { s with timers := s.timers.erase timer }
  match timer with
  | .expire channel => s.expire settings channel now
  | .refresh channel => s.refresh channel now
  | .start host => s.startOpen host now
  | .retire channel =>
    if s.sessions.any (fun entry => entry.channel == channel && entry.idle) then s.retire channel
    else s

/-- `enableBackground`. -/
def enableBackground (delaysMs : String → ℤ) (now : ℤ) : Pool :=
  if s.background then s
  else
    { s.deferredHosts.foldl (fun s host => s.replenish settings host (delaysMs host) now)
        { s with background := true } with deferredHosts := [] }

/-- `close`. -/
def close : Pool :=
  let s := dropSpares { s with closed := true, timers := [] } fun _ => true
  let s := s.teardownAll (s.sessions.map Pooled.channel)
  { s with spareHosts := [], sessions := [] }

/-- One step of the pool and its calls; `none` where the event cannot happen. -/
def step : PoolEvent → Option Pool
  | .acquire call host ages view delayMs now =>
    if s.calls call = .fresh then some (s.acquire settings call host ages view delayMs now)
    else none
  | .callOpened call delayMs now =>
    match s.calls call with
    | .opening host => some (s.callOpened settings call host delayMs now)
    | _ => none
  | .callFailed call =>
    match s.calls call with
    | .opening _ => some { s with calls := Function.update s.calls call .done }
    | _ => none
  | .spareOpened id jitterMs now =>
    if id ∈ s.pending then
      (s.opens id).map fun entry => s.spareOpened settings id entry jitterMs now
    else none
  | .spareFailed id now =>
    if id ∈ s.pending then (s.opens id).map fun entry => s.settleOpen id entry none now else none
  | .waiterSees call => (s.openOutcome call).bind (s.settleFirst call)
  | .waiterAborts call => s.settleFirst call .aborted
  | .waiterTimesOut call => s.settleFirst call .deadline
  | .resume call jitterMs delayMs now => s.resume settings call jitterMs delayMs now
  | .release call ok view now =>
    match s.calls call with
    | .holding channel => some (s.release settings call channel ok view now)
    | _ => none
  | .fire timer now => if timer ∈ s.timers then some (s.fire settings timer now) else none
  | .enableBackground delaysMs now => some (s.enableBackground settings delaysMs now)
  | .close => some s.close

end Pool

end NoxSdk.Tls
