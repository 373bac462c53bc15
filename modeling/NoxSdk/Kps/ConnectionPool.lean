import NoxSdk.Kps.ConnectionFate
import NoxSdk.Lib.OrderedMap

/-!
# The connection pool

The transport keeps an entry for each address and lane. An exchange on the `claims` lane goes over
the primary connection until its own one is up. A sweep gives up the connections of a lane that
were idle for too long, but for the retained ones and those used last.

* `reachable_lanes`: each entry of the pool goes through a run of its own.
* `Timed`: the timer of the sweeps.
* `nothing_open_behind_close`: what becomes of the connections of a closed transport.
-/

namespace NoxSdk.Kps

open NoxSdk.Lib

/-- `KpsLane`. -/
inductive KpsLane
  | primary
  | claims
  deriving DecidableEq, Repr

/-- `poolKey`. -/
structure PoolKey where
  address : String
  lane : KpsLane
  deriving DecidableEq, Repr

/-- `KpsHttpTransport`, as far as its connections go. The entries of a closed transport stay, for
the dials that refer to them. -/
structure ConnectionPool where
  closed : Bool := false
  pool : OrderedMap PoolKey Lane := .empty
  retained : List String := []
  /-- Whether the timer of `maintain` is set. -/
  maintenance : Bool := false

/-- What the network, the timers and the exchanges do to an entry. -/
def LaneEvent.isOutside : LaneEvent → Bool
  | resolved .. | rejected _ | timeout _ | heard .. | exchanges .. | addTeardown .. |
    removeTeardown _ | openTimeout _ | closed _ | keepaliveSettled => true
  | connect | idleClose | keepalive | close => false

/-- `startDial` hears of a dial. -/
def LaneEvent.isHeard : LaneEvent → Bool
  | heard .. => true
  | _ => false

/-- What happens to the transport. -/
inductive ConnectionPoolEvent
  | prewarm (key : PoolKey)
  | warm (address : String)
  /-- `request`; the request is refused before `connection` when it cannot be encoded. -/
  | request (address : String) (lane : KpsLane) (isEncoded : Bool)
  | onEntry (key : PoolKey) (event : LaneEvent)
  | retain (addresses : List String)
  | maintain
  | close

namespace ConnectionPool

variable (settings : ConnectionSettings)

/-- An event of one entry. -/
def onLane (pool : ConnectionPool) (key : PoolKey) (event : ℕ × LaneEvent) :
    Option ConnectionPool :=
  (pool.pool.get? key).bind fun lane => (lane.step settings event).map fun lane =>
    { pool with pool := pool.pool.set key lane }

/-- `entry`. -/
def entry (pool : ConnectionPool) (key : PoolKey) (now : ℕ) : ConnectionPool :=
  if pool.pool.has key then pool
  else { pool with pool := pool.pool.set key (.new pool.closed now) }

/-- `connection`, of an entry that is there. -/
def connect (pool : ConnectionPool) (key : PoolKey) (now : ℕ) : ConnectionPool :=
  (pool.onLane settings key (now, .connect)).getD pool

/-- Whether the entry has a connection. -/
def hasConn (pool : ConnectionPool) (key : PoolKey) : Bool :=
  (pool.pool.get? key).any fun lane => lane.conn.isSome

/-- `laneEntry`: the pool behind it, and the entry. -/
def laneEntry (pool : ConnectionPool) (address : String) (lane : KpsLane) (now : ℕ) :
    ConnectionPool × PoolKey :=
  let primary : PoolKey := ⟨address, .primary⟩
  let pool := pool.entry primary now
  match lane with
  | .primary => (pool, primary)
  | .claims =>
    let own : PoolKey := ⟨address, .claims⟩
    let pool := pool.entry own now
    if pool.hasConn own then (pool, own)
    else if pool.hasConn primary then (pool.connect settings own now, primary)
    else (pool, primary)

/-- `request`, up to its connection. -/
def request (pool : ConnectionPool) (address : String) (lane : KpsLane) (isEncoded : Bool)
    (now : ℕ) : ConnectionPool :=
  if pool.closed then pool
  else
    let (pool, key) := pool.laneEntry settings address lane now
    if isEncoded then pool.connect settings key now else pool

/-- The connections of a lane without an exchange. -/
def idle (pool : ConnectionPool) (lane : KpsLane) : List (PoolKey × Lane) :=
  pool.pool.entries.filter fun entry => decide (entry.1.lane = lane) && entry.2.conn.isSome &&
    decide (entry.2.active = 0) && decide (entry.2.waiters = 0)

/-- The order of a sweep: the retained addresses, and then what was used last. -/
def ranksBefore (retained : List String) (left right : PoolKey × Lane) : Bool :=
  let l := retained.contains left.1.address
  let r := retained.contains right.1.address
  if l = r then decide (right.2.lastActivity ≤ left.2.lastActivity) else l

/-- The connections of a lane without an exchange, as a sweep goes through them. -/
def ranked (pool : ConnectionPool) (lane : KpsLane) : List (PoolKey × Lane) :=
  (pool.idle lane).mergeSort (ranksBefore pool.retained)

/-- How many connections of a lane a sweep keeps. -/
def keptOn (settings : ConnectionSettings) : KpsLane → ℕ
  | .primary => settings.idleConnectionsKept
  | .claims => settings.claimLaneConnectionsKept

/-- `keep` of `maintain`. -/
def keeps (retained : List String) (entry : PoolKey × Lane) (index : ℕ) : Bool :=
  (decide (entry.1.lane = .primary) && retained.contains entry.1.address) ||
    decide (index < keptOn settings entry.1.lane)

/-- What a sweep does with a connection. -/
def verdict (retained : List String) (now : ℕ) (entry : PoolKey × Lane) (index : ℕ) :
    Option LaneEvent :=
  if keeps settings retained entry index then
    if entry.2.lastActivity + settings.keepaliveMs ≤ now ∧ entry.2.keepaliveInFlight = false then
      some .keepalive
    else none
  else if entry.2.lastActivity + settings.idleCloseMs ≤ now then some .idleClose
  else none

/-- A turn of the loop of `maintain`; a keepalive is a request of its own. -/
def sweepOne (now : ℕ) (pool : ConnectionPool) (entry : (PoolKey × Lane) × ℕ) : ConnectionPool :=
  match verdict settings pool.retained now entry.1 entry.2 with
  | some .keepalive =>
    ((pool.onLane settings entry.1.1 (now, .keepalive)).getD pool).request settings
      entry.1.1.address entry.1.1.lane true now
  | some event => (pool.onLane settings entry.1.1 (now, event)).getD pool
  | none => pool

/-- `maintain`, on one lane. -/
def sweep (pool : ConnectionPool) (lane : KpsLane) (now : ℕ) : ConnectionPool :=
  (pool.ranked lane).zipIdx.foldl (sweepOne settings now) pool

/-- `maintain`. -/
def maintain (pool : ConnectionPool) (now : ℕ) : ConnectionPool :=
  let pool := (pool.sweep settings .primary now).sweep settings .claims now
  { pool with maintenance := pool.pool.entries.any fun entry => entry.2.conn.isSome }

/-- `close`. -/
def close (pool : ConnectionPool) (now : ℕ) : ConnectionPool :=
  let behind := pool.pool.keys.foldl
    (fun pool key => (pool.onLane settings key (now, .close)).getD pool) pool
  { behind with closed := true, maintenance := false }

/-- One event at a time. -/
def step (pool : ConnectionPool) : ℕ × ConnectionPoolEvent → Option ConnectionPool
  | (now, .prewarm key) =>
    some (if pool.closed then pool else (pool.entry key now).connect settings key now)
  | (now, .warm address) =>
    let key : PoolKey := ⟨address, .primary⟩
    some ((pool.entry key now).connect settings key now)
  | (now, .request address lane isEncoded) =>
    some (pool.request settings address lane isEncoded now)
  | (now, .onEntry key event) =>
    if event.isOutside then (pool.onLane settings key (now, event)).map fun pool =>
      if event.isHeard && !pool.closed && pool.hasConn key then { pool with maintenance := true }
      else pool
    else none
  | (_, .retain addresses) => some { pool with retained := addresses }
  | (now, .maintain) => if pool.maintenance then some (pool.maintain settings now) else none
  | (now, .close) => if pool.closed then none else some (pool.close settings now)

section Lemmas

variable {settings} {pool pool' : ConnectionPool} {key key' : PoolKey} {lane lane' : Lane}
  {now : ℕ}

/-! ### Each entry has a run of its own -/

/-- Every entry is one that the events of an entry lead to, and a closed transport closed them
all. -/
structure Coherent (settings : ConnectionSettings) (pool : ConnectionPool) : Prop where
  reachable : ∀ {key : PoolKey} {lane : Lane}, pool.pool.get? key = some lane →
    lane.Reachable settings
  closed : pool.closed = true → ∀ {key : PoolKey} {lane : Lane}, pool.pool.get? key = some lane →
    lane.closed = true

/-- An event of an entry is a step of its lane. -/
theorem onLane_eq_some_iff {event : ℕ × LaneEvent} :
    pool.onLane settings key event = some pool' ↔ ∃ lane lane', pool.pool.get? key = some lane ∧
      lane.step settings event = some lane' ∧
        { pool with pool := pool.pool.set key lane' } = pool' := by
  rw [onLane, Option.bind_eq_some_iff]
  simp only [Option.map_eq_some_iff, exists_and_left]

/-- A closed entry stays closed. -/
theorem closed_of_step {event : ℕ × LaneEvent} (hstep : lane.step settings event = some lane')
    (hclosed : lane.closed = true) : lane'.closed = true := by
  cases Lane.change_of_step hstep with
  | same _ hsame => exact hsame.trans hclosed
  | startDial hopen => cases hclosed.symm.trans hopen
  | promise => exact hclosed
  | onDialled =>
    rw [Lane.onDialled, if_pos hclosed]
    exact hclosed
  | onDialFailed =>
    rw [Lane.onDialFailed, if_pos hclosed]
    exact hclosed
  | giveUp => exact hclosed
  | onClosed => exact hclosed
  | close hopen => cases hclosed.symm.trans hopen

/-- An entry may become any reachable lane, closed if the pool is. -/
theorem Coherent.set (h : Coherent settings pool) (hreach : lane.Reachable settings)
    (hclosed : pool.closed = true → lane.closed = true) :
    Coherent settings { pool with pool := pool.pool.set key lane } where
  reachable := by
    intro key' found hfound
    rw [OrderedMap.get?_set] at hfound
    split at hfound
    · exact Option.some.inj hfound ▸ hreach
    · exact h.reachable hfound
  closed := by
    intro hpool key' found hfound
    rw [OrderedMap.get?_set] at hfound
    split at hfound
    · exact Option.some.inj hfound ▸ hclosed hpool
    · exact h.closed hpool hfound

/-- An event of an entry keeps its lane reachable. -/
theorem Coherent.onLane (h : Coherent settings pool) {event : ℕ × LaneEvent}
    (hstep : pool.onLane settings key event = some pool') : Coherent settings pool' := by
  obtain ⟨lane, lane', hget, hlane, rfl⟩ := onLane_eq_some_iff.mp hstep
  refine h.set ?_ fun hpool => closed_of_step hlane (h.closed hpool hget)
  obtain ⟨isClosed, start, hrun⟩ := h.reachable hget
  exact ⟨isClosed, start, hrun.tail hlane⟩

/-- So does an event that may not happen. -/
theorem Coherent.onLaneD (h : Coherent settings pool) (event : ℕ × LaneEvent) :
    Coherent settings ((pool.onLane settings key event).getD pool) := by
  cases hstep : pool.onLane settings key event with
  | none => exact h
  | some pool' => exact h.onLane hstep

/-- A new entry has a new lane. -/
theorem Coherent.entry (h : Coherent settings pool) : Coherent settings (pool.entry key now) := by
  rw [ConnectionPool.entry]
  split_ifs
  · exact h
  · exact h.set ⟨pool.closed, now, .refl⟩ id

/-- Finding the entry of a request makes one at most. -/
theorem Coherent.laneEntry (h : Coherent settings pool) (address : String) (lane : KpsLane) :
    Coherent settings (pool.laneEntry settings address lane now).1 := by
  cases lane with
  | primary => exact h.entry
  | claims =>
    rw [ConnectionPool.laneEntry]
    split_ifs
    · exact h.entry.entry
    · exact h.entry.entry.onLaneD _
    · exact h.entry.entry

/-- A request dials on its own lane only. -/
theorem Coherent.request (h : Coherent settings pool) (address : String) (lane : KpsLane)
    (isEncoded : Bool) : Coherent settings (pool.request settings address lane isEncoded now) := by
  rw [ConnectionPool.request]
  split_ifs
  · exact h
  · exact (h.laneEntry address lane).onLaneD _
  · exact h.laneEntry address lane

/-- A sweep closes an idle connection by an event of its lane. -/
theorem Coherent.sweepOne (h : Coherent settings pool) (entry : (PoolKey × Lane) × ℕ) :
    Coherent settings (pool.sweepOne settings now entry) := by
  rw [ConnectionPool.sweepOne]
  split
  · exact (h.onLaneD _).request _ _ _
  · exact h.onLaneD _
  · exact h

/-- A sweep goes through the entries one by one. -/
theorem Coherent.sweep (h : Coherent settings pool) (lane : KpsLane) (now : ℕ) :
    Coherent settings (pool.sweep settings lane now) := by
  rw [ConnectionPool.sweep]
  generalize (pool.ranked lane).zipIdx = entries
  induction entries generalizing pool with
  | nil => exact h
  | cons entry entries ih => exact ih (h.sweepOne entry)

/-- What is left of an entry behind `close` is closed. -/
theorem closed_foldl (keys : List PoolKey) (hget : (keys.foldl
    (fun pool key => (pool.onLane settings key (now, .close)).getD pool) pool).pool.get? key' =
      some lane) : lane.closed = true ∨ (key' ∉ keys ∧ pool.pool.get? key' = some lane) := by
  induction keys generalizing pool with
  | nil => exact .inr ⟨List.not_mem_nil, hget⟩
  | cons key keys ih =>
    rcases ih hget with hclosed | ⟨hnot, hbefore⟩
    · exact .inl hclosed
    dsimp only at hbefore
    cases hstep : pool.onLane settings key (now, .close) with
    | none =>
      rw [hstep, Option.getD_none] at hbefore
      by_cases hkey : key' = key
      · -- an entry that refuses to close is closed
        subst hkey
        rw [onLane, hbefore, Option.bind_some, Lane.step] at hstep
        by_cases hclosed : lane.closed = true
        · exact .inl hclosed
        · rw [if_neg hclosed] at hstep
          cases hstep
      · exact .inr ⟨by simp [hkey, hnot], hbefore⟩
    | some pool' =>
      rw [hstep, Option.getD_some] at hbefore
      -- the entry of the key is closed, every other one is as before
      obtain ⟨found, found', -, hfound, rfl⟩ := onLane_eq_some_iff.mp hstep
      change (pool.pool.set key found').get? key' = some lane at hbefore
      rw [OrderedMap.get?_set] at hbefore
      split at hbefore
      · obtain rfl := Option.some.inj hbefore
        rw [Lane.step] at hfound
        split_ifs at hfound
        obtain rfl := Option.some.inj hfound
        rw [Lane.close]
        dsimp only
        split <;> exact .inl rfl
      · rename_i hkey
        exact .inr ⟨by simp [hkey, hnot], hbefore⟩

/-- Behind the close every lane is closed. -/
theorem Coherent.close (h : Coherent settings pool) :
    Coherent settings (pool.close settings now) := by
  have hfold : Coherent settings (pool.pool.keys.foldl
      (fun pool key => (pool.onLane settings key (now, .close)).getD pool) pool) := by
    generalize pool.pool.keys = keys
    induction keys generalizing pool with
    | nil => exact h
    | cons key keys ih => exact ih (h.onLaneD _)
  refine ⟨hfold.reachable, fun _ key' lane hget => ?_⟩
  rcases closed_foldl _ hget with hclosed | ⟨hnot, hbefore⟩
  · exact hclosed
  · refine absurd (OrderedMap.has_iff.mp ?_) hnot
    rw [OrderedMap.has, hbefore]
    rfl

/-- Every event keeps the lanes reachable. -/
theorem Coherent.step (h : Coherent settings pool) {event : ℕ × ConnectionPoolEvent}
    (hstep : pool.step settings event = some pool') : Coherent settings pool' := by
  obtain ⟨now, event⟩ := event
  cases event with
  | prewarm key =>
    obtain rfl := Option.some.inj hstep
    split_ifs
    · exact h
    · exact h.entry.onLaneD _
  | warm address =>
    obtain rfl := Option.some.inj hstep
    exact h.entry.onLaneD _
  | request address lane isEncoded =>
    obtain rfl := Option.some.inj hstep
    exact h.request address lane isEncoded
  | onEntry key event =>
    rw [ConnectionPool.step] at hstep
    split_ifs at hstep
    obtain ⟨behind, hlane, rfl⟩ := Option.map_eq_some_iff.mp hstep
    have hbehind := h.onLane hlane
    split_ifs
    · exact ⟨hbehind.reachable, hbehind.closed⟩
    · exact hbehind
  | retain addresses =>
    obtain rfl := Option.some.inj hstep
    exact ⟨h.reachable, h.closed⟩
  | maintain =>
    rw [ConnectionPool.step] at hstep
    split_ifs at hstep
    obtain rfl := Option.some.inj hstep
    -- each lane is swept on its own
    have hswept := (h.sweep .primary now).sweep .claims now
    exact ⟨hswept.reachable, hswept.closed⟩
  | close =>
    rw [ConnectionPool.step] at hstep
    split_ifs at hstep
    obtain rfl := Option.some.inj hstep
    exact h.close

/-- **Entries are independent.** In every run of the transport each of its entries is one that a
run of a single entry leads to, whatever happens to the others. -/
theorem reachable_lanes (hrun : Run (step settings) {} pool) : Coherent settings pool := by
  have hempty : Coherent settings {} :=
    ⟨by rintro key lane ⟨⟩, by rintro _ key lane ⟨⟩⟩
  exact hrun.invariant hempty fun _ _ _ hbefore hstep => hbefore.step hstep

/-! ### The timer of the sweeps -/

/-- Only a dial that is heard of brings a connection. -/
theorem conn_of_step {event : ℕ × LaneEvent} (hstep : lane.step settings event = some lane')
    (hheard : event.2.isHeard = false) (hconn : lane'.conn.isSome = true) :
    lane.conn.isSome = true := by
  obtain ⟨time, event⟩ := event
  cases event with
  | connect =>
    obtain rfl := Option.some.inj hstep
    rw [Lane.connection] at hconn
    split_ifs at hconn <;> exact hconn
  | resolved n isConnection =>
    obtain ⟨dial', -, rfl⟩ := Option.map_eq_some_iff.mp hstep
    exact hconn
  | rejected n =>
    obtain ⟨dial', -, rfl⟩ := Option.map_eq_some_iff.mp hstep
    exact hconn
  | timeout n =>
    obtain ⟨dial', -, rfl⟩ := Option.map_eq_some_iff.mp hstep
    exact hconn
  | heard n random => cases hheard
  | exchanges active waiters =>
    obtain rfl := Option.some.inj hstep
    exact hconn
  | addTeardown exchange n =>
    obtain ⟨dial, -, hadd⟩ := Option.bind_eq_some_iff.mp hstep
    split_ifs at hadd <;> obtain rfl := Option.some.inj hadd <;> exact hconn
  | removeTeardown exchange =>
    obtain rfl := Option.some.inj hstep
    exact hconn
  | openTimeout n =>
    obtain ⟨dial, -, hopen⟩ := Option.bind_eq_some_iff.mp hstep
    split_ifs at hopen with hshared
    -- only the shared connection is given up, so there was one
    · rw [hshared]
      rfl
    · exact Option.some.inj hopen ▸ hconn
  | closed n =>
    obtain ⟨dial, -, hclosed⟩ := Option.bind_eq_some_iff.mp hstep
    split_ifs at hclosed
    obtain rfl := Option.some.inj hclosed
    rw [Lane.onClosed] at hconn
    by_cases hshared : lane.conn = some n
    · rw [hshared]
      rfl
    · rwa [if_neg hshared] at hconn
  | idleClose =>
    -- the entry that is closed as idle has a connection
    obtain ⟨n, hshared, -⟩ := Option.bind_eq_some_iff.mp hstep
    rw [hshared]
    rfl
  | keepalive =>
    rw [Lane.step] at hstep
    split_ifs at hstep with hkeep
    exact hkeep.1
  | keepaliveSettled =>
    obtain rfl := Option.some.inj hstep
    exact hconn
  | close =>
    rw [Lane.step] at hstep
    split_ifs at hstep
    obtain rfl := Option.some.inj hstep
    rw [Lane.close] at hconn
    dsimp only at hconn
    split at hconn
    · exact hconn
    · cases hconn

/-- The timer of the sweeps is set while a connection is shared. -/
def Timed (pool : ConnectionPool) : Prop :=
  pool.closed = false → ∀ key, pool.hasConn key = true → pool.maintenance = true

/-- What brings no connection and leaves the timer as it is. -/
theorem Timed.mono (h : pool.Timed) (hclosed : pool'.closed = pool.closed)
    (hmaintenance : pool'.maintenance = pool.maintenance)
    (hconn : ∀ key, pool'.hasConn key = true → pool.hasConn key = true) : pool'.Timed :=
  fun hopen key hkey => hmaintenance.trans (h (hclosed ▸ hopen) key (hconn key hkey))

/-- An event that is no dial heard of brings no connection, so no timer is due for it. -/
theorem Timed.onLane (h : pool.Timed) {event : ℕ × LaneEvent} (hheard : event.2.isHeard = false)
    (hstep : pool.onLane settings key event = some pool') : pool'.Timed := by
  obtain ⟨lane, lane', hget, hlane, rfl⟩ := onLane_eq_some_iff.mp hstep
  refine h.mono rfl rfl fun key' hkey => ?_
  rw [hasConn, OrderedMap.get?_set] at hkey
  split at hkey
  · rename_i heq
    rw [hasConn, heq, hget]
    exact conn_of_step hlane hheard hkey
  · exact hkey

/-- So does an event that may not happen. -/
theorem Timed.onLaneD (h : pool.Timed) {event : ℕ × LaneEvent} (hheard : event.2.isHeard = false) :
    ((pool.onLane settings key event).getD pool).Timed := by
  cases hstep : pool.onLane settings key event with
  | none => exact h
  | some pool' => exact h.onLane hheard hstep

/-- A new entry has no connection. -/
theorem Timed.entry (h : pool.Timed) : (pool.entry key now).Timed := by
  rw [ConnectionPool.entry]
  split_ifs with hhas
  · exact h
  · refine h.mono rfl rfl fun key' hkey => ?_
    rw [hasConn, OrderedMap.get?_set] at hkey
    split at hkey
    · cases hkey
    · exact hkey

/-- A request brings no connection by itself. -/
theorem Timed.request (h : pool.Timed) (address : String) (lane : KpsLane) (isEncoded : Bool) :
    (pool.request settings address lane isEncoded now).Timed := by
  have hentry : (pool.laneEntry settings address lane now).1.Timed := by
    cases lane with
    | primary => exact h.entry
    | claims =>
      rw [ConnectionPool.laneEntry]
      split_ifs
      · exact h.entry.entry
      · exact h.entry.entry.onLaneD rfl
      · exact h.entry.entry
  rw [ConnectionPool.request]
  split_ifs
  · exact h
  · exact hentry.onLaneD rfl
  · exact hentry

/-- Every event leaves the timer set while there is a connection. -/
theorem Timed.step (h : pool.Timed) {event : ℕ × ConnectionPoolEvent}
    (hstep : pool.step settings event = some pool') : pool'.Timed := by
  obtain ⟨now, event⟩ := event
  cases event with
  | prewarm key =>
    obtain rfl := Option.some.inj hstep
    split_ifs
    · exact h
    · exact h.entry.onLaneD rfl
  | warm address =>
    obtain rfl := Option.some.inj hstep
    exact h.entry.onLaneD rfl
  | request address lane isEncoded =>
    obtain rfl := Option.some.inj hstep
    exact h.request address lane isEncoded
  | onEntry key event =>
    rw [ConnectionPool.step] at hstep
    split_ifs at hstep
    obtain ⟨behind, hlane, rfl⟩ := Option.map_eq_some_iff.mp hstep
    -- the timer is set when an entry without a connection has one, and it is set already otherwise
    split_ifs with hset
    · exact fun _ _ _ => rfl
    · by_cases hheard : event.isHeard = true
      · -- what was heard of brought no connection to this entry
        obtain ⟨lane, lane', hget, -, rfl⟩ := onLane_eq_some_iff.mp hlane
        intro hopen key' hkey
        refine h hopen key' ?_
        rw [hasConn, OrderedMap.get?_set] at hkey
        split at hkey
        · rename_i heq
          refine absurd ?_ hset
          rw [hheard, hopen, hasConn, OrderedMap.get?_set_self]
          exact hkey
        · exact hkey
      · exact h.onLane (by simpa using hheard) hlane
  | retain addresses =>
    obtain rfl := Option.some.inj hstep
    exact h
  | maintain =>
    rw [ConnectionPool.step] at hstep
    split_ifs at hstep
    obtain rfl := Option.some.inj hstep
    -- the timer is set again as long as any entry has a connection
    intro _ key hkey
    obtain ⟨lane, hget, hconn⟩ := (Option.any_eq_true _ _).mp hkey
    exact List.any_eq_true.mpr ⟨(key, lane), OrderedMap.get?_eq_some_iff.mp hget, hconn⟩
  | close =>
    rw [ConnectionPool.step] at hstep
    split_ifs at hstep
    obtain rfl := Option.some.inj hstep
    rintro ⟨⟩

/-- **`close` leaves nothing open.** In every run of the transport, once it is closed no entry has
a connection, and every connection that a dial came up with, before or after, was told to close or
closed by itself, but for one that its entry is about to hear of and then closes.

A closed transport has closed every entry, and each entry has a run of its own (`Coherent`). So each
connection has the fate that it has in the run of its entry (`connection_fate`), and a closed entry
shares none. -/
theorem nothing_open_behind_close (hrun : Run (step settings) {} pool)
    (hclosed : pool.closed = true) (hget : pool.pool.get? key = some lane) :
    lane.conn = none ∧ ∀ n dial, lane.dials[n]? = some dial → dial.connected = true →
      0 < dial.closes ∨ dial.closed = true ∨
        ∀ now, (lane.step settings (now, .heard n 0)) =
          some (lane.setDial n { dial with phase := .refused, closes := dial.closes + 1 }) := by
  have hcoherent := reachable_lanes hrun
  have hlane := hcoherent.closed hclosed hget
  have hreach := hcoherent.reachable hget
  obtain ⟨hfate, -, hshared, -⟩ := Lane.connection_fate hreach
  have hnone : lane.conn = none := by
    cases hconn : lane.conn with
    | none => rfl
    | some n => cases hlane.symm.trans (hshared n hconn).1
  refine ⟨hnone, fun n dial hdial hconnected => ?_⟩
  rcases (hfate n dial hdial hconnected).1 with hresolved | hconn | hcloses | hreported
  · refine .inr (.inr fun now => ?_)
    rw [Lane.step, hdial, Option.bind_some, hresolved]
    exact congrArg some (if_pos hlane)
  · cases hnone.symm.trans hconn
  · exact .inl hcloses
  · exact .inr (.inl ((hfate n dial hdial hconnected).2.mp hreported).1)

end Lemmas

/-! ### Two connections and a close -/

/-- Settings that keep one idle connection of a lane. -/
def sampleSettings : ConnectionSettings := ⟨500, 17500, 60000, 1, 1, 30000, by decide +kernel⟩

/-- An address that is dialled. -/
def firstKey : PoolKey := ⟨"first", .primary⟩

/-- Another one. -/
def secondKey : PoolKey := ⟨"second", .primary⟩

/-- Both addresses are dialled and come up; the second one is used last. -/
def sampleEvents : List (ℕ × ConnectionPoolEvent) :=
  [(0, .prewarm firstKey), (0, .prewarm secondKey), (100, .onEntry firstKey (.resolved 0 true)),
    (100, .onEntry firstKey (.heard 0 0)), (200, .onEntry secondKey (.resolved 0 true)),
    (200, .onEntry secondKey (.heard 0 0))]

/-- A connection of the primary lane that the close has closed. -/
theorem nothing_open_behind_close_sample : ∃ pool lane,
    runEvents (step sampleSettings) {} (sampleEvents ++ [(300, .close)]) = some pool ∧
      pool.pool.get? firstKey = some lane ∧ lane.conn = none := by
  have hrun : (runEvents (step sampleSettings) {} (sampleEvents ++ [(300, .close)])).map
      (fun pool => ((pool.pool.get? firstKey).isSome, pool.closed)) = some (true, true) := by
    decide +kernel
  obtain ⟨pool, hpool, hfacts⟩ := Option.map_eq_some_iff.mp hrun
  obtain ⟨lane, hget⟩ := Option.isSome_iff_exists.mp (congrArg Prod.fst hfacts)
  exact ⟨pool, lane, hpool, hget, (nothing_open_behind_close (run_of_runEvents hpool)
    (congrArg Prod.snd hfacts) hget).1⟩

end ConnectionPool

end NoxSdk.Kps
