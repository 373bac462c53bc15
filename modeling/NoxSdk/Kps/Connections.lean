import NoxSdk.Client.Latency
import NoxSdk.Lib.Runs

/-!
# The connection of a pool entry

A pool entry of the KPS transport dials its address, shares the connection among the exchanges, and
gives it up when it closes, when a stream cannot be opened on it, when it is idle, or with the
transport. Dials race a timer, and a dial can still come up after it lost. One entry is followed
through every order of these events.

* `Lane.step`: the events, each with the time at which it happens.
* `Lane.Change`: what one of them can do.
* `Lane.Reachable`: an entry as it may be at some time.
-/

namespace NoxSdk.Kps

open NoxSdk.Lib NoxSdk.Client

/-- `KpsTransportSettings`, as far as connections go. -/
structure ConnectionSettings where
  redialBaseMs : ℕ
  redialMaxMs : ℕ
  keepaliveMs : ℕ
  idleConnectionsKept : ℕ
  claimLaneConnectionsKept : ℕ
  idleCloseMs : ℕ
  redialMaxMs_pos : 0 < redialMaxMs

/-- The longest cooldown after so many failed dials in a row. -/
def ConnectionSettings.ceiling (settings : ConnectionSettings) (failures : ℕ) : ℕ :=
  min (settings.redialBaseMs * 2 ^ min (failures - 1) 30) settings.redialMaxMs

/-- The cooldown, for a random number of the unit interval. -/
def ConnectionSettings.backoff (settings : ConnectionSettings) (failures : ℕ) (random : ℚ) : ℕ :=
  (max 1 (LatencyTracker.mathRound
    (settings.ceiling failures * (1 / 2 + 1 / 2 * random)))).toNat

/-- The shortest cooldown after so many failed dials in a row. -/
def ConnectionSettings.leastBackoff (settings : ConnectionSettings) (failures : ℕ) : ℕ :=
  max 1 ((settings.ceiling failures + 1) / 2)

/-- Where a dial stands. -/
inductive DialPhase
  /-- Its promise is pending and its timer runs. -/
  | pending
  /-- Its promise resolved in time; `startDial` has not heard of it. -/
  | resolved
  /-- It lost the race, and `startDial` has not heard of it; the promise may still be open. -/
  | failed (isOpen : Bool)
  /-- Its connection went to the entry. -/
  | pooled
  /-- It came up in time, and `startDial` threw: the transport was closed, or what came is no
  connection. -/
  | refused
  /-- Its failure was counted; the promise may still be open. -/
  | counted (isOpen : Bool)
  deriving DecidableEq, Repr

/-- `startDial` has not heard of the dial yet. -/
def DialPhase.unheard : DialPhase → Bool
  | pending | resolved | failed _ => true
  | pooled | refused | counted _ => false

/-- A dial and its connection. -/
structure Dial where
  startedAt : ℕ
  phase : DialPhase := .pending
  /-- Its promise resolved with a connection. -/
  connected : Bool := false
  /-- How often the connection was told to close. -/
  closes : ℕ := 0
  /-- The connection reported that it is closed. -/
  closed : Bool := false
  /-- When its failure was counted, and as which one in a row. -/
  failure : Option (ℕ × ℕ) := none
  deriving DecidableEq, Repr

/-- `PoolEntry`, as far as its connection goes. -/
structure Lane where
  /-- `closed` of the transport. -/
  closed : Bool := false
  /-- Every dial of the entry, the first one first. -/
  dials : List Dial := []
  /-- The dial whose promise is shared. -/
  dial : Option ℕ := none
  /-- The dial whose connection is shared. -/
  conn : Option ℕ := none
  failures : ℕ := 0
  coolUntil : ℕ := 0
  lastActivity : ℕ
  active : ℕ := 0
  waiters : ℕ := 0
  keepaliveInFlight : Bool := false
  /-- The exchanges to fail with the connection, and the connection each of them is on. -/
  teardowns : List (ℕ × ℕ) := []
  /-- The exchanges that were failed with a connection. -/
  torn : List ℕ := []
  /-- The connections whose end was reported to the listeners. -/
  reported : List ℕ := []
  deriving DecidableEq, Repr

/-- What happens to a pool entry. -/
inductive LaneEvent
  /-- `connection`. -/
  | connect
  /-- The promise of a dial resolves, with a connection or with something else. -/
  | resolved (dial : ℕ) (isConnection : Bool)
  | rejected (dial : ℕ)
  /-- The timer of a dial. -/
  | timeout (dial : ℕ)
  /-- `startDial` hears of a dial. -/
  | heard (dial : ℕ) (random : ℚ)
  /-- `acquire` and `release`. -/
  | exchanges (active waiters : ℕ)
  /-- `addTeardown`. -/
  | addTeardown (exchange conn : ℕ)
  | removeTeardown (exchange : ℕ)
  /-- `openStream` on a connection timed out. -/
  | openTimeout (conn : ℕ)
  /-- `onClosed` of a connection. -/
  | closed (conn : ℕ)
  /-- `maintain` gives the connection up. -/
  | idleClose
  /-- `maintain` sends a keepalive. -/
  | keepalive
  | keepaliveSettled
  /-- `close` of the transport. -/
  | close

namespace Lane

/-- A new entry. -/
def new (isClosed : Bool) (now : ℕ) : Lane where
  closed := isClosed
  lastActivity := now

def setDial (lane : Lane) (id : ℕ) (dial : Dial) : Lane :=
  { lane with dials := lane.dials.set id dial }

/-- `startDial`, up to the race. -/
def startDial (lane : Lane) (now : ℕ) : Lane :=
  { lane with
    dials := lane.dials ++ [{ startedAt := now }]
    dial := some lane.dials.length }

/-- `connection`. -/
def connection (lane : Lane) (now : ℕ) : Lane :=
  if lane.closed || lane.conn.isSome || lane.dial.isSome || decide (now < lane.coolUntil) then lane
  else lane.startDial now

/-- What comes of a promise that resolves: a connection that is late, or comes to a closed
transport, is closed. -/
def onResolved (lane : Lane) (dial : Dial) (isConnection : Bool) : Option Dial :=
  match dial.phase with
  | .pending => some { dial with
      phase := .resolved
      connected := isConnection
      closes := if lane.closed then 1 else 0 }
  | .failed true => some { dial with
      phase := .failed false
      connected := isConnection
      closes := 1 }
  | .counted true => some { dial with
      phase := .counted false
      connected := isConnection
      closes := 1 }
  | _ => none

def onRejected (dial : Dial) : Option Dial :=
  match dial.phase with
  | .pending | .failed true => some { dial with phase := .failed false }
  | .counted true => some { dial with phase := .counted false }
  | _ => none

def onTimeout (dial : Dial) : Option Dial :=
  match dial.phase with
  | .pending => some { dial with phase := .failed true }
  | _ => none

/-- `startDial` with a connection in time. -/
def onDialled (lane : Lane) (id : ℕ) (dial : Dial) (now : ℕ) : Lane :=
  if lane.closed then
    lane.setDial id { dial with phase := .refused, closes := dial.closes + 1 }
  else if dial.connected then
    { lane.setDial id { dial with phase := .pooled } with
      dial := none
      conn := some id
      failures := 0
      coolUntil := 0
      lastActivity := now }
  else lane.setDial id { dial with phase := .refused }

/-- `startDial` with a failure. With the transport closed, the entry is out of the pool. -/
def onDialFailed (settings : ConnectionSettings) (lane : Lane) (id : ℕ) (dial : Dial)
    (isOpen : Bool) (now : ℕ) (random : ℚ) : Lane :=
  if lane.closed then lane.setDial id { dial with phase := .counted isOpen }
  else
    let failures := lane.failures + 1
    { lane.setDial id { dial with phase := .counted isOpen, failure := some (now, failures) } with
      dial := none
      failures
      coolUntil := now + settings.backoff failures random }

/-- The connection leaves the entry and is told to close. -/
def giveUp (lane : Lane) (id : ℕ) (dial : Dial) : Lane :=
  { lane.setDial id { dial with closes := dial.closes + 1 } with conn := none }

/-- `onClosed`. -/
def onClosed (lane : Lane) (id : ℕ) (dial : Dial) : Lane :=
  { lane.setDial id { dial with closed := true } with
    conn := if lane.conn = some id then none else lane.conn
    torn := lane.torn ++ lane.teardowns.map Prod.fst
    teardowns := []
    reported :=
      if lane.conn = some id ∧ lane.closed = false then lane.reported ++ [id] else lane.reported }

/-- `close`, of one entry. -/
def close (lane : Lane) : Lane :=
  let lane := { lane with
    closed := true
    waiters := 0
    torn := lane.torn ++ lane.teardowns.map Prod.fst
    teardowns := [] }
  match lane.conn.bind fun id => (lane.dials[id]?).map (id, ·) with
  | none => lane
  | some (id, dial) => lane.giveUp id dial

/-- One event at a time. -/
def step (settings : ConnectionSettings) (lane : Lane) : ℕ × LaneEvent → Option Lane
  | (now, .connect) => some (lane.connection now)
  | (_, .resolved id isConnection) =>
    (lane.dials[id]?.bind (lane.onResolved · isConnection)).map (lane.setDial id)
  | (_, .rejected id) => (lane.dials[id]?.bind onRejected).map (lane.setDial id)
  | (_, .timeout id) => (lane.dials[id]?.bind onTimeout).map (lane.setDial id)
  | (now, .heard id random) => lane.dials[id]?.bind fun dial =>
    match dial.phase with
    | .resolved => some (lane.onDialled id dial now)
    | .failed isOpen =>
      if 0 ≤ random ∧ random ≤ 1 then
        some (lane.onDialFailed settings id dial isOpen now random)
      else none
    | _ => none
  | (now, .exchanges active waiters) => some { lane with active, waiters, lastActivity := now }
  | (_, .addTeardown exchange id) => lane.dials[id]?.bind fun dial =>
    if dial.phase = .pooled then
      if lane.conn = some id then
        some { lane with teardowns := lane.teardowns ++ [(exchange, id)] }
      else some { lane with torn := lane.torn ++ [exchange] }
    else none
  | (_, .removeTeardown exchange) =>
    some { lane with teardowns := lane.teardowns.filter fun teardown => teardown.1 ≠ exchange }
  | (_, .openTimeout id) => lane.dials[id]?.bind fun dial =>
    if lane.conn = some id then some (lane.giveUp id dial)
    else if dial.phase = .pooled then some lane else none
  | (_, .closed id) => lane.dials[id]?.bind fun dial =>
    if dial.phase = .pooled ∧ dial.closed = false then some (lane.onClosed id dial) else none
  | (_, .idleClose) => lane.conn.bind fun id => lane.dials[id]?.map (lane.giveUp id)
  | (_, .keepalive) =>
    if lane.conn.isSome ∧ lane.keepaliveInFlight = false then
      some { lane with keepaliveInFlight := true }
    else none
  | (_, .keepaliveSettled) => some { lane with keepaliveInFlight := false }
  | (_, .close) => if lane.closed then none else some lane.close

/-! ### What one event can do -/

/-- What one event makes of an entry. -/
inductive Change (settings : ConnectionSettings) (lane : Lane) : Lane → Prop
  /-- Neither the dials change nor which of them are shared. -/
  | same {lane' : Lane} (dials : lane'.dials = lane.dials) (closed : lane'.closed = lane.closed)
      (dial : lane'.dial = lane.dial) (conn : lane'.conn = lane.conn)
      (reported : lane'.reported = lane.reported) (failures : lane'.failures = lane.failures)
      (coolUntil : lane'.coolUntil = lane.coolUntil)
      (teardowns : ∀ teardown ∈ lane'.teardowns,
        teardown ∈ lane.teardowns ∨ lane.conn = some teardown.2) : Change settings lane lane'
  | startDial {now : ℕ} (isOpen : lane.closed = false) (conn : lane.conn = none)
      (dial : lane.dial = none) (cool : lane.coolUntil ≤ now) :
      Change settings lane (lane.startDial now)
  | promise {n : ℕ} {dial dial' : Dial} (get : lane.dials[n]? = some dial)
      (settles : (∃ isConnection, lane.onResolved dial isConnection = some dial') ∨
        onRejected dial = some dial' ∨ onTimeout dial = some dial') :
      Change settings lane (lane.setDial n dial')
  | onDialled {n now : ℕ} {dial : Dial} (get : lane.dials[n]? = some dial)
      (resolved : dial.phase = .resolved) : Change settings lane (lane.onDialled n dial now)
  | onDialFailed {n now : ℕ} {dial : Dial} {isOpen : Bool} {random : ℚ}
      (get : lane.dials[n]? = some dial) (failed : dial.phase = .failed isOpen)
      (unit : 0 ≤ random ∧ random ≤ 1) :
      Change settings lane (lane.onDialFailed settings n dial isOpen now random)
  | giveUp {n : ℕ} {dial : Dial} (get : lane.dials[n]? = some dial) (conn : lane.conn = some n) :
      Change settings lane (lane.giveUp n dial)
  | onClosed {n : ℕ} {dial : Dial} (get : lane.dials[n]? = some dial)
      (pooled : dial.phase = .pooled) (unclosed : dial.closed = false) :
      Change settings lane (lane.onClosed n dial)
  | close (isOpen : lane.closed = false) : Change settings lane lane.close

theorem change_of_step {settings : ConnectionSettings} {lane lane' : Lane}
    {event : ℕ × LaneEvent} (hstep : lane.step settings event = some lane') :
    Change settings lane lane' := by
  obtain ⟨now, event⟩ := event
  cases event with
  | connect =>
    obtain rfl := Option.some.inj hstep
    rw [Lane.connection]
    split_ifs with hrefused
    · exact .same rfl rfl rfl rfl rfl rfl rfl fun _ => .inl
    · simp only [Bool.or_eq_true, not_or, Bool.not_eq_true, Option.isSome_eq_false_iff,
        Option.isNone_iff_eq_none, decide_eq_true_eq, not_lt] at hrefused
      exact .startDial hrefused.1.1.1 hrefused.1.1.2 hrefused.1.2 hrefused.2
  | resolved n isConnection =>
    obtain ⟨dial', hdial, rfl⟩ := Option.map_eq_some_iff.mp hstep
    obtain ⟨dial, hget, hdial⟩ := Option.bind_eq_some_iff.mp hdial
    exact .promise hget (.inl ⟨isConnection, hdial⟩)
  | rejected n =>
    obtain ⟨dial', hdial, rfl⟩ := Option.map_eq_some_iff.mp hstep
    obtain ⟨dial, hget, hdial⟩ := Option.bind_eq_some_iff.mp hdial
    exact .promise hget (.inr (.inl hdial))
  | timeout n =>
    obtain ⟨dial', hdial, rfl⟩ := Option.map_eq_some_iff.mp hstep
    obtain ⟨dial, hget, hdial⟩ := Option.bind_eq_some_iff.mp hdial
    exact .promise hget (.inr (.inr hdial))
  | heard n random =>
    obtain ⟨dial, hget, hheard⟩ := Option.bind_eq_some_iff.mp hstep
    split at hheard
    -- the dial brought a connection
    · rename_i hphase
      obtain rfl := Option.some.inj hheard
      exact .onDialled hget hphase
    -- the dial failed; only a delay drawn from the unit interval counts as a jitter
    · rename_i isOpen hphase
      split_ifs at hheard with hunit
      obtain rfl := Option.some.inj hheard
      exact .onDialFailed hget hphase hunit
    · cases hheard
  | exchanges active waiters =>
    obtain rfl := Option.some.inj hstep
    -- `connection` throws, so nothing has changed
    exact .same rfl rfl rfl rfl rfl rfl rfl fun _ => .inl
  | addTeardown exchange n =>
    obtain ⟨dial, hget, hadd⟩ := Option.bind_eq_some_iff.mp hstep
    -- a stream that opens on the shared connection may later tear it down
    split_ifs at hadd with _ hconn
    · obtain rfl := Option.some.inj hadd
      refine .same rfl rfl rfl rfl rfl rfl rfl fun teardown hmem => ?_
      rcases List.mem_append.mp hmem with hmem | hmem
      · exact .inl hmem
      · obtain rfl := List.mem_singleton.mp hmem
        exact .inr hconn
    · obtain rfl := Option.some.inj hadd
      exact .same rfl rfl rfl rfl rfl rfl rfl fun _ => .inl
  | removeTeardown exchange =>
    obtain rfl := Option.some.inj hstep
    exact .same rfl rfl rfl rfl rfl rfl rfl fun _ hmem => .inl (List.mem_filter.mp hmem).1
  | openTimeout n =>
    obtain ⟨dial, hget, hopen⟩ := Option.bind_eq_some_iff.mp hstep
    -- only the shared connection is given up
    split_ifs at hopen with hconn
    · obtain rfl := Option.some.inj hopen
      exact .giveUp hget hconn
    · obtain rfl := Option.some.inj hopen
      exact .same rfl rfl rfl rfl rfl rfl rfl fun _ => .inl
  | closed n =>
    obtain ⟨dial, hget, hclosed⟩ := Option.bind_eq_some_iff.mp hstep
    split_ifs at hclosed with hphase
    obtain rfl := Option.some.inj hclosed
    exact .onClosed hget hphase.1 hphase.2
  | idleClose =>
    obtain ⟨n, hconn, hidle⟩ := Option.bind_eq_some_iff.mp hstep
    obtain ⟨dial, hget, rfl⟩ := Option.map_eq_some_iff.mp hidle
    exact .giveUp hget hconn
  | keepalive =>
    rw [Lane.step] at hstep
    split_ifs at hstep
    obtain rfl := Option.some.inj hstep
    exact .same rfl rfl rfl rfl rfl rfl rfl fun _ => .inl
  | keepaliveSettled =>
    obtain rfl := Option.some.inj hstep
    exact .same rfl rfl rfl rfl rfl rfl rfl fun _ => .inl
  | close =>
    rw [Lane.step] at hstep
    split_ifs at hstep with hclosed
    obtain rfl := Option.some.inj hstep
    exact .close (by simpa using hclosed)

/-! ### Entries over a run -/

/-- The entry of an address and lane, as it may be at some time. -/
def Reachable (settings : ConnectionSettings) (lane : Lane) : Prop :=
  ∃ isClosed now, Run (Lane.step settings) (.new isClosed now) lane

section Dials

variable {lane : Lane} {n m : ℕ} {dial dial' : Dial}

theorem getElem?_setDial (hget : lane.dials[n]? = some dial) :
    (lane.dials.set n dial')[m]? = if m = n then some dial' else lane.dials[m]? := by
  have hlt : n < lane.dials.length := (List.getElem?_eq_some_iff.mp hget).1
  rw [List.getElem?_set]
  by_cases h : n = m
  · rw [if_pos h, if_pos h.symm, if_pos hlt]
  · rw [if_neg h, if_neg (Ne.symm h)]

end Dials

end Lane

end NoxSdk.Kps
