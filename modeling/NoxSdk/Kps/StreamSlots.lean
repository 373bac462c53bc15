import NoxSdk.Lib.OrderedMap
import NoxSdk.Lib.Runs

/-!
# The stream slots of a pooled connection

An exchange of the KPS transport awaits its connection, a stream slot of the pool entry, its
stream, and then each half of the exchange. One pool entry is followed through every order of
these steps. A slot is held from its grant to the end of the exchange, and a waiter is queued only
while every slot is held.

A signal calls the listeners it has when it aborts. The awaits on the dial, on a queued slot, on
the stream and on the exchange each add one and take it off when they settle. Between two of them
no listener is there, and the next one is added without a look at `signal.aborted`: an exchange
aborted between its dial and its slot is queued, and one aborted before its stream is asked for
opens the stream and writes the request.
-/

namespace NoxSdk.Kps

/-- What `request` is at, between the turns of its promises. -/
inductive ExchangePhase
  /-- It awaits `connection(entry, exchange.signal)` on a dial. -/
  | dialling
  /-- The connection is there, `acquire` was not called yet. -/
  | connected
  /-- Its waiter was pushed to `entry.waiters`. -/
  | queued
  /-- `acquire` is resolved, `openStream` was not called yet. -/
  | granted
  /-- It awaits `raceSignal(pending, controller.signal)` in `openStream`. -/
  | opening
  /-- Its stream is open, its writer was not asked for yet. -/
  | opened
  /-- It awaits its writes and reads under `raceSignal`. -/
  | exchanging
  /-- It returned or threw with `acquired` set, `finally` was not run yet. -/
  | leaving
  /-- It is over. -/
  | done
deriving DecidableEq, Repr

namespace ExchangePhase

/-- The exchange acquired a slot and has not released it. -/
def holdsSlot : ExchangePhase → Bool
  | granted | opening | opened | exchanging | leaving => true
  | dialling | connected | queued | done => false

/-- The stream of the exchange was not opened yet. -/
def beforeStream : ExchangePhase → Bool
  | dialling | connected | queued | granted | opening => true
  | opened | exchanging | leaving | done => false

/-- Nothing is left but to give the slot back. -/
def isOver : ExchangePhase → Bool
  | leaving | done => true
  | dialling | connected | queued | granted | opening | opened | exchanging => false

/-- Where an abort of the signal leads: the listener of the await rejects it. Without a listener
nothing happens. -/
def onAbort : ExchangePhase → ExchangePhase
  | dialling | queued => done
  | opening | exchanging => leaving
  | connected => connected
  | granted => granted
  | opened => opened
  | leaving => leaving
  | done => done

end ExchangePhase

/-- One exchange of a pool entry. -/
structure PooledExchange where
  phase : ExchangePhase
  /-- `exchange.signal.aborted`. -/
  aborted : Bool := false
  /-- The signal was aborted before the stream was open. -/
  abortedEarly : Bool := false
  /-- `writeChunked` was called: the bytes of the request are with the writer of the stream. -/
  written : Bool := false
deriving DecidableEq, Repr

/-- `PoolEntry`, and the exchanges that were started on it. -/
structure PoolEntry where
  /-- Whether `conn` is a connection. -/
  conn : Bool := false
  /-- `closed` of the transport. -/
  closed : Bool := false
  active : ℕ := 0
  /-- The exchanges whose waiters are in the queue. -/
  waiters : List ℕ := []
  exchanges : OrderedMap ℕ PooledExchange := .empty

/-- What happens to a pool entry between two turns of the event loop. -/
inductive PoolEvent
  /-- A dial of the entry succeeded. -/
  | dialled
  /-- The connection is closed, evicted or given up as idle. -/
  | connectionLost
  /-- `request` chooses the entry and calls `connection`. -/
  | request (id : ℕ)
  /-- The dial an exchange awaits has settled, or is refused while the entry cools down. -/
  | dialSettled (id : ℕ) (ok : Bool)
  /-- An exchange with a connection calls `acquire`. -/
  | acquire (id : ℕ)
  /-- An exchange with a slot calls `openStream`. -/
  | openStream (id : ℕ)
  /-- The stream is open, or it is refused or timed out. -/
  | streamSettled (id : ℕ) (ok : Bool)
  /-- An exchange with a stream calls `writeChunked`. -/
  | write (id : ℕ)
  /-- An exchange with a stream has its response or an error. -/
  | settled (id : ℕ)
  /-- `finally` of `request`. -/
  | release (id : ℕ)
  /-- `fail`: the caller aborted, the exchange timed out or its connection was closed. -/
  | abort (id : ℕ)
  /-- `close` of the transport. -/
  | close
deriving DecidableEq, Repr

namespace PoolEntry

/-- The number of exchanges that acquired a slot and have not released it. -/
def slotsHeld (entry : PoolEntry) : ℕ :=
  entry.exchanges.sum fun _ exchange => if exchange.phase.holdsSlot then 1 else 0

/-- An exchange in a phase. -/
def inPhase (entry : PoolEntry) (id : ℕ) (phase : ExchangePhase) : Option PooledExchange :=
  (entry.exchanges.get? id).filter fun exchange => exchange.phase = phase

def setExchange (entry : PoolEntry) (id : ℕ) (exchange : PooledExchange) : PoolEntry :=
  { entry with exchanges := entry.exchanges.set id exchange }

/-- An exchange gets to another phase. -/
def setPhase (entry : PoolEntry) (id : ℕ) (phase : ExchangePhase) : PoolEntry :=
  match entry.exchanges.get? id with
  | none => entry
  | some exchange => entry.setExchange id { exchange with phase }

/-- An exchange goes from one phase to another. -/
def move (entry : PoolEntry) (id : ℕ) (source target : ExchangePhase) : Option PoolEntry :=
  (entry.inPhase id source).map fun exchange =>
    entry.setExchange id { exchange with phase := target }

/-- `acquire`. -/
def acquire (maxStreamsPerConnection : ℕ) (entry : PoolEntry) (id : ℕ) : PoolEntry :=
  if entry.active < maxStreamsPerConnection then
    { entry.setPhase id .granted with active := entry.active + 1 }
  else
    { entry.setPhase id .queued with waiters := entry.waiters ++ [id] }

/-- `release`: the slot is given back, and the first waiter is granted one. -/
def release (entry : PoolEntry) : PoolEntry :=
  let active := entry.active - 1
  match entry.waiters with
  | [] => { entry with active }
  | next :: waiters => { entry.setPhase next .granted with active := active + 1, waiters }

/-- The waiter of an exchange leaves the queue, and its `acquire` is rejected. -/
def dropWaiter (entry : PoolEntry) (id : ℕ) : PoolEntry :=
  { entry.setPhase id .done with waiters := entry.waiters.erase id }

/-- `fail` of an exchange whose signal is not aborted yet. -/
def abort (entry : PoolEntry) (id : ℕ) (exchange : PooledExchange) : PoolEntry :=
  { entry with
    exchanges := entry.exchanges.set id { exchange with
      phase := exchange.phase.onAbort
      aborted := true
      abortedEarly := exchange.phase.beforeStream }
    waiters :=
      if exchange.phase = .queued then entry.waiters.erase id else entry.waiters }

/-- `close`. -/
def close (entry : PoolEntry) : PoolEntry :=
  { entry.waiters.foldl dropWaiter entry with conn := false, closed := true }

/-- One event of a pool entry. -/
def step (maxStreamsPerConnection : ℕ) (entry : PoolEntry) : PoolEvent → Option PoolEntry
  | .dialled => if entry.closed then none else some { entry with conn := true }
  | .connectionLost => some { entry with conn := false }
  | .request id =>
    if entry.closed || entry.exchanges.has id then none
    else some (entry.setExchange id { phase := if entry.conn then .connected else .dialling })
  | .dialSettled id ok => entry.move id .dialling (if ok then .connected else .done)
  | .acquire id =>
    (entry.inPhase id .connected).map fun _ => entry.acquire maxStreamsPerConnection id
  | .openStream id => entry.move id .granted .opening
  | .streamSettled id ok => entry.move id .opening (if ok then .opened else .leaving)
  | .write id =>
    (entry.inPhase id .opened).map fun exchange =>
      entry.setExchange id { exchange with phase := .exchanging, written := true }
  | .settled id =>
    (entry.move id .opened .leaving).or (entry.move id .exchanging .leaving)
  | .release id => (entry.move id .leaving .done).map release
  | .abort id =>
    ((entry.exchanges.get? id).filter fun exchange => !exchange.aborted).map (entry.abort id)
  | .close => some entry.close

end PoolEntry

section Lemmas

variable {maxStreamsPerConnection : ℕ} {entry after : PoolEntry} {id : ℕ}
  {exchange exchange' : PooledExchange} {source target : ExchangePhase}

open PoolEntry

/-- An exchange is found in a phase exactly when it is in it. -/
theorem inPhase_eq_some_iff :
    entry.inPhase id source = some exchange ↔
      entry.exchanges.get? id = some exchange ∧ exchange.phase = source := by
  rw [inPhase, Option.filter_eq_some_iff, decide_eq_true_iff]

/-- A move changes the phase of an exchange that is in the phase before. -/
theorem move_eq_some_iff :
    entry.move id source target = some after ↔
      ∃ exchange, entry.exchanges.get? id = some exchange ∧ exchange.phase = source ∧
        entry.setExchange id { exchange with phase := target } = after := by
  rw [move, Option.map_eq_some_iff]
  simp only [inPhase_eq_some_iff, and_assoc]

/-- Setting the phase of an exchange that is there. -/
theorem setPhase_of_get? (hget : entry.exchanges.get? id = some exchange) (phase : ExchangePhase) :
    entry.setPhase id phase = entry.setExchange id { exchange with phase } := by
  rw [setPhase, hget]

/-! ### Slots and the queue -/

/-- The counter is the number of slots held, and the queue holds the queued exchanges once. -/
structure Tallied (entry : PoolEntry) : Prop where
  counted : entry.active = entry.slotsHeld
  nodup : entry.waiters.Nodup
  queued : ∀ id, id ∈ entry.waiters ↔
    ∃ exchange, entry.exchanges.get? id = some exchange ∧ exchange.phase = .queued

/-- The slots are counted and within their bound, and no slot is free while a waiter is queued. -/
structure SlotsCounted (maxStreamsPerConnection : ℕ) (entry : PoolEntry) : Prop
    extends Tallied entry where
  within : entry.active ≤ maxStreamsPerConnection
  full : entry.waiters ≠ [] → entry.active = maxStreamsPerConnection

/-- The slots one exchange holds. -/
def ExchangePhase.slots (phase : ExchangePhase) : ℕ := if phase.holdsSlot then 1 else 0

/-- A changed exchange changes the slots that are held by its own. -/
theorem slotsHeld_set (hget : entry.exchanges.get? id = some exchange)
    (exchange' : PooledExchange) :
    (entry.setExchange id exchange').slotsHeld + exchange.phase.slots =
      entry.slotsHeld + exchange'.phase.slots :=
  OrderedMap.sum_set_of_get? (fun _ exchange => exchange.phase.slots) hget

/-- An exchange that changes keeps the tally when slot count and queue change with it. -/
theorem Tallied.set (h : Tallied entry) (hget : entry.exchanges.get? id = some exchange)
    {active : ℕ} {waiters : List ℕ}
    (hactive : active + exchange.phase.slots = entry.active + exchange'.phase.slots)
    (hnodup : waiters.Nodup) (hself : id ∈ waiters ↔ exchange'.phase = .queued)
    (hothers : ∀ other, other ≠ id → (other ∈ waiters ↔ other ∈ entry.waiters)) :
    Tallied { entry with active, waiters, exchanges := entry.exchanges.set id exchange' } where
  counted := by
    have hsum := slotsHeld_set hget exchange'
    have hcounted := h.counted
    change active = (entry.setExchange id exchange').slotsHeld
    omega
  nodup := hnodup
  queued other := by
    dsimp only
    rw [OrderedMap.get?_set]
    split
    · rename_i hother
      rw [hother, hself]
      constructor
      · exact fun hphase => ⟨exchange', rfl, hphase⟩
      · rintro ⟨found, hsome, hphase⟩
        exact Option.some.inj hsome ▸ hphase
    · rename_i hother
      rw [hothers other hother, h.queued]

/-- A change of an exchange that is neither queued nor gets or gives a slot. -/
theorem SlotsCounted.set (h : SlotsCounted maxStreamsPerConnection entry)
    (hget : entry.exchanges.get? id = some exchange)
    (hslots : exchange'.phase.slots = exchange.phase.slots)
    (hqueued : exchange.phase ≠ .queued) (hqueued' : exchange'.phase ≠ .queued) :
    SlotsCounted maxStreamsPerConnection (entry.setExchange id exchange') where
  toTallied := by
    refine h.toTallied.set hget (by rw [hslots]) h.nodup ?_ fun _ _ => .rfl
    rw [h.queued, hget]
    simp [hqueued, hqueued']
  within := h.within
  full := h.full

/-- A new exchange holds no slot and waits for none. -/
theorem SlotsCounted.request (h : SlotsCounted maxStreamsPerConnection entry)
    (hnone : entry.exchanges.get? id = none) (hslots : exchange.phase.slots = 0)
    (hqueued : exchange.phase ≠ .queued) :
    SlotsCounted maxStreamsPerConnection (entry.setExchange id exchange) where
  counted := by
    refine h.counted.trans (Eq.symm ?_)
    calc (entry.setExchange id exchange).slotsHeld
        = entry.slotsHeld + exchange.phase.slots :=
          OrderedMap.sum_set_of_not_has (fun _ e => ExchangePhase.slots (PooledExchange.phase e))
            hnone
      _ = entry.slotsHeld := by rw [hslots, add_zero]
  nodup := h.nodup
  queued other := by
    refine (h.queued other).trans ?_
    change _ ↔ ∃ e, (entry.exchanges.set id exchange).get? other = some e ∧ _
    rw [OrderedMap.get?_set]
    split
    · rename_i hother
      rw [hother, hnone]
      simp [hqueued]
    · exact .rfl
  within := h.within
  full := h.full

/-- An exchange that moves with its slot, or without one, leaves the rest as it is. -/
theorem SlotsCounted.move (h : SlotsCounted maxStreamsPerConnection entry)
    (hmove : entry.move id source target = some after) (hslots : target.slots = source.slots)
    (hqueued : source ≠ .queued) (hqueued' : target ≠ .queued) :
    SlotsCounted maxStreamsPerConnection after := by
  obtain ⟨exchange, hget, rfl, rfl⟩ := move_eq_some_iff.mp hmove
  exact h.set hget hslots hqueued hqueued'

/-- `acquire` takes a slot that is free, or queues the exchange while every slot is held. -/
theorem SlotsCounted.acquire (h : SlotsCounted maxStreamsPerConnection entry)
    (hget : entry.exchanges.get? id = some exchange) (hphase : exchange.phase = .connected) :
    SlotsCounted maxStreamsPerConnection (entry.acquire maxStreamsPerConnection id) := by
  have hnot : id ∉ entry.waiters := by
    rw [h.queued, hget]
    simp [hphase]
  rw [PoolEntry.acquire, setPhase_of_get? hget, setPhase_of_get? hget]
  split
  · rename_i hroom
    refine ⟨h.toTallied.set hget ?_ h.nodup ?_ fun _ _ => .rfl, hroom, fun hwaiters => ?_⟩
    · rw [hphase]
      rfl
    · simp [PoolEntry.setExchange, hnot]
    · exact absurd (h.full hwaiters) hroom.ne
  · rename_i hroom
    have hfull : entry.active = maxStreamsPerConnection := le_antisymm h.within (not_lt.mp hroom)
    refine ⟨h.toTallied.set hget ?_ ?_ ?_ fun other hother => ?_, h.within, fun _ => hfull⟩
    · rw [hphase]
      rfl
    · exact List.concat_eq_append ▸ h.nodup.concat hnot
    · simp
    · simp [hother]

/-- The waiter that leaves the queue was not granted a slot. -/
theorem SlotsCounted.erase (h : SlotsCounted maxStreamsPerConnection entry)
    (hget : entry.exchanges.get? id = some exchange) (hphase : exchange.phase = .queued)
    (hslots : exchange'.phase.slots = 0) (hqueued' : exchange'.phase ≠ .queued) :
    SlotsCounted maxStreamsPerConnection { entry with
      waiters := entry.waiters.erase id, exchanges := entry.exchanges.set id exchange' } where
  toTallied := by
    refine h.toTallied.set hget ?_ (h.nodup.erase id) ?_ fun other hother => ?_
    · rw [hphase, hslots]
      rfl
    · simp [h.nodup.mem_erase_iff, hqueued']
    · simp [h.nodup.mem_erase_iff, hother]
  within := h.within
  full hwaiters := h.full fun hnil => hwaiters (by rw [hnil]; rfl)

/-- A waiter that is taken out of the queue leaves the slots as they are. -/
theorem SlotsCounted.dropWaiter (h : SlotsCounted maxStreamsPerConnection entry)
    (hmem : id ∈ entry.waiters) : SlotsCounted maxStreamsPerConnection (entry.dropWaiter id) := by
  obtain ⟨exchange, hget, hphase⟩ := (h.queued id).mp hmem
  rw [PoolEntry.dropWaiter, setPhase_of_get? hget]
  exact h.erase hget hphase rfl nofun

/-- An exchange that stops waiting leaves the queue. -/
theorem waiters_dropWaiter : (entry.dropWaiter id).waiters = entry.waiters.erase id := rfl

/-- The end of the connection ends what waits for it and gives no slot back twice. -/
theorem SlotsCounted.close (h : SlotsCounted maxStreamsPerConnection entry) :
    SlotsCounted maxStreamsPerConnection entry.close := by
  have hfold : ∀ (waiters : List ℕ) (entry : PoolEntry), entry.waiters = waiters →
      SlotsCounted maxStreamsPerConnection entry →
      SlotsCounted maxStreamsPerConnection (waiters.foldl PoolEntry.dropWaiter entry) := by
    intro waiters
    induction waiters with
    | nil => exact fun _ _ h => h
    | cons next waiters ih =>
      intro entry hwaiters h
      refine ih _ ?_ (h.dropWaiter (hwaiters ▸ List.mem_cons_self))
      rw [waiters_dropWaiter, hwaiters, List.erase_cons_head]
  obtain ⟨⟨hcounted, hnodup, hqueued⟩, hwithin, hfull⟩ := hfold entry.waiters entry rfl h
  exact ⟨⟨hcounted, hnodup, hqueued⟩, hwithin, hfull⟩

/-- Without a waiter the slot is free. -/
theorem release_of_nil (h : entry.waiters = []) :
    entry.release = { entry with active := entry.active - 1 } := by
  rw [release, h]

/-- The slot goes to the first waiter. -/
theorem release_of_cons {next : ℕ} {waiters : List ℕ} (h : entry.waiters = next :: waiters) :
    entry.release =
      { entry.setPhase next .granted with active := entry.active - 1 + 1, waiters } := by
  rw [release, h]

/-- The slot that is given back goes to the first waiter, when there is one. -/
theorem SlotsCounted.release (h : SlotsCounted maxStreamsPerConnection entry)
    (hmove : entry.move id .leaving .done = some after) :
    SlotsCounted maxStreamsPerConnection after.release := by
  obtain ⟨exchange, hget, hphase, rfl⟩ := move_eq_some_iff.mp hmove
  -- the exchange that leaves had a slot, so the count can go down
  have hheld : 1 ≤ entry.active := by
    have hgives := slotsHeld_set hget { exchange with phase := .done }
    rw [hphase] at hgives
    have hgives : (entry.setExchange id { exchange with phase := .done }).slotsHeld + 1 =
      entry.slotsHeld := hgives
    have hcounted := h.counted
    omega
  have hdone : Tallied { entry with
      active := entry.active - 1
      exchanges := entry.exchanges.set id { exchange with phase := .done } } := by
    refine h.toTallied.set hget ?_ h.nodup ?_ fun _ _ => .rfl
    · rw [hphase]
      change entry.active - 1 + 1 = entry.active + 0
      omega
    · rw [h.queued, hget]
      simp [hphase]
  have hwithin := h.within
  rcases hwaiters : entry.waiters with _ | ⟨next, waiters⟩
  · have hrest : (entry.setExchange id { exchange with phase := .done }).waiters = [] := hwaiters
    rw [release_of_nil hrest]
    exact ⟨hdone, (Nat.sub_le _ _).trans hwithin, fun hne => absurd hwaiters hne⟩
  · have hnext : next ∈ entry.waiters := hwaiters ▸ List.mem_cons_self
    have hnodup := hwaiters ▸ h.nodup
    obtain ⟨waiter, hwaiter, hqueued⟩ := (hdone.queued next).mp hnext
    -- while others waited all slots were taken, so this one goes to the next in line
    have hfull : entry.active = maxStreamsPerConnection := h.full (List.ne_nil_of_mem hnext)
    have hrest : (entry.setExchange id { exchange with phase := .done }).waiters =
      next :: waiters := hwaiters
    have hwaiter' : (entry.setExchange id { exchange with phase := .done }).exchanges.get? next =
      some waiter := hwaiter
    rw [release_of_cons hrest, setPhase_of_get? hwaiter']
    refine ⟨hdone.set hwaiter ?_ (List.nodup_cons.mp hnodup).2 ?_ fun other hother => ?_, ?_,
      fun _ => ?_⟩
    · rw [hqueued]
      rfl
    · simp [(List.nodup_cons.mp hnodup).1]
    · simp [hwaiters, hother]
    · change entry.active - 1 + 1 ≤ _
      omega
    · change entry.active - 1 + 1 = _
      omega

/-- An abort neither takes nor frees a slot. -/
theorem ExchangePhase.slots_onAbort (phase : ExchangePhase) :
    phase.onAbort.slots = phase.slots := by
  cases phase <;> rfl

/-- An aborted exchange does not wait for a slot. -/
theorem ExchangePhase.onAbort_ne_queued (phase : ExchangePhase) : phase.onAbort ≠ .queued := by
  cases phase <;> decide

/-- An abort takes no slot, and a queued waiter leaves the queue with it. -/
theorem SlotsCounted.abort (h : SlotsCounted maxStreamsPerConnection entry)
    (hget : entry.exchanges.get? id = some exchange) :
    SlotsCounted maxStreamsPerConnection (entry.abort id exchange) := by
  rw [PoolEntry.abort]
  split
  · rename_i hqueued
    refine h.erase hget hqueued ?_ (ExchangePhase.onAbort_ne_queued exchange.phase)
    exact (ExchangePhase.slots_onAbort exchange.phase).trans (by rw [hqueued]; rfl)
  · rename_i hqueued
    exact h.set hget (ExchangePhase.slots_onAbort exchange.phase) hqueued
      (ExchangePhase.onAbort_ne_queued exchange.phase)

/-- Each event keeps the slots counted. -/
theorem SlotsCounted.step {event : PoolEvent} (h : SlotsCounted maxStreamsPerConnection entry)
    (hstep : step maxStreamsPerConnection entry event = some after) :
    SlotsCounted maxStreamsPerConnection after := by
  cases event with
  | dialled =>
    rw [PoolEntry.step, Option.ite_none_left_eq_some] at hstep
    obtain ⟨-, hstep⟩ := hstep
    obtain rfl := Option.some.inj hstep
    exact ⟨⟨h.counted, h.nodup, h.queued⟩, h.within, h.full⟩
  | connectionLost =>
    obtain rfl := Option.some.inj hstep
    exact ⟨⟨h.counted, h.nodup, h.queued⟩, h.within, h.full⟩
  | request id =>
    rw [PoolEntry.step, Option.ite_none_left_eq_some] at hstep
    obtain ⟨hfresh, hstep⟩ := hstep
    obtain rfl := Option.some.inj hstep
    rw [Bool.or_eq_true, not_or, Bool.not_eq_true, Bool.not_eq_true] at hfresh
    -- a new exchange dials or waits, and has no slot in either phase
    refine h.request (OrderedMap.not_has_iff.mp hfresh.2) ?_ ?_ <;> cases entry.conn <;> decide
  | dialSettled id ok =>
    refine h.move hstep ?_ ?_ ?_ <;> cases ok <;> decide
  | acquire id =>
    obtain ⟨exchange, hphase, rfl⟩ := Option.map_eq_some_iff.mp hstep
    obtain ⟨hget, hphase⟩ := inPhase_eq_some_iff.mp hphase
    exact h.acquire hget hphase
  | openStream id => exact h.move hstep rfl (by decide) (by decide)
  | streamSettled id ok =>
    refine h.move hstep ?_ ?_ ?_ <;> cases ok <;> decide
  | write id =>
    obtain ⟨exchange, hphase, rfl⟩ := Option.map_eq_some_iff.mp hstep
    obtain ⟨hget, hphase⟩ := inPhase_eq_some_iff.mp hphase
    refine h.set hget ?_ ?_ ?_
    · rw [hphase]
      rfl
    · rw [hphase]
      decide
    · exact ExchangePhase.noConfusion
  | settled id =>
    -- the slot is kept until the release, whatever the exchange did with it
    obtain hopened | ⟨-, hexchanging⟩ := Option.or_eq_some_iff.mp hstep
    · exact h.move hopened rfl (by decide) (by decide)
    · exact h.move hexchanging rfl (by decide) (by decide)
  | release id =>
    obtain ⟨between, hmove, rfl⟩ := Option.map_eq_some_iff.mp hstep
    exact h.release hmove
  | abort id =>
    obtain ⟨exchange, hget, rfl⟩ := Option.map_eq_some_iff.mp hstep
    -- an abort alone frees no slot
    exact h.abort (Option.filter_eq_some_iff.mp hget).1
  | close =>
    obtain rfl := Option.some.inj hstep
    exact h.close

/-- A new entry has no stream. -/
theorem slotsCounted_initial : SlotsCounted maxStreamsPerConnection {} where
  counted := rfl
  nodup := List.nodup_nil
  queued id := by
    refine ⟨fun hid => absurd hid List.not_mem_nil, ?_⟩
    rintro ⟨exchange, hget, -⟩
    cases hget
  within := Nat.zero_le _
  full h := absurd rfl h

/-! ### Aborts -/

/-- An exchange that was aborted before its stream was open is over or about to be, and wrote
nothing; one whose stream is not open was not aborted. -/
structure Heard (exchange : PooledExchange) : Prop where
  unaborted : exchange.phase.beforeStream = true →
    exchange.aborted = false ∧ exchange.written = false
  silent : exchange.abortedEarly = true →
    exchange.written = false ∧ exchange.phase.isOver = true

/-- A phase that is not before the stream again keeps what is known of the abort. -/
theorem Heard.move (h : Heard exchange)
    (hbefore : target.beforeStream = true → exchange.phase.beforeStream = true)
    (hover : exchange.phase.isOver = true → target.isOver = true) :
    Heard { exchange with phase := target } where
  unaborted htarget := h.unaborted (hbefore htarget)
  silent hearly := ⟨(h.silent hearly).1, hover (h.silent hearly).2⟩

/-- The stream is open when the request is written, so that the abort came later or never. -/
theorem Heard.write (h : Heard exchange) (hphase : exchange.phase = .opened) :
    Heard { exchange with phase := .exchanging, written := true } where
  unaborted htarget := Bool.noConfusion htarget
  silent hearly := by
    have hover := (h.silent hearly).2
    rw [hphase] at hover
    cases hover

/-- An abort that falls into an await ends the exchange, unless its stream is open. -/
theorem ExchangePhase.onAbort_of_heard {phase : ExchangePhase} (hconnected : phase ≠ .connected)
    (hgranted : phase ≠ .granted) :
    phase.onAbort.beforeStream = false ∧
      (phase.beforeStream = true → phase.onAbort.isOver = true) := by
  revert hconnected hgranted
  cases phase <;> decide

/-- An abort is heard in every phase but the two between an await and the turn after it. -/
theorem Heard.abort (h : Heard exchange) (hconnected : exchange.phase ≠ .connected)
    (hgranted : exchange.phase ≠ .granted) :
    Heard { exchange with
      phase := exchange.phase.onAbort
      aborted := true
      abortedEarly := exchange.phase.beforeStream } where
  unaborted hbefore := by
    rw [(ExchangePhase.onAbort_of_heard hconnected hgranted).1] at hbefore
    cases hbefore
  silent hearly :=
    ⟨(h.unaborted hearly).2, (ExchangePhase.onAbort_of_heard hconnected hgranted).2 hearly⟩

/-- Every exchange of the entry. -/
def AllHeard (entry : PoolEntry) : Prop :=
  ∀ id exchange, entry.exchanges.get? id = some exchange → Heard exchange

/-- An exchange may become another one of which the same is known. -/
theorem AllHeard.set (h : AllHeard entry) (hexchange : Heard exchange) :
    AllHeard (entry.setExchange id exchange) := by
  intro other found hget
  have hget : (entry.exchanges.set id exchange).get? other = some found := hget
  rw [OrderedMap.get?_set] at hget
  split at hget
  · exact Option.some.inj hget ▸ hexchange
  · exact h other found hget

/-- So may its phase. -/
theorem AllHeard.setPhase (h : AllHeard entry) (hbefore : target.beforeStream = true →
      ∀ exchange, entry.exchanges.get? id = some exchange → exchange.phase.beforeStream = true)
    (hover : ∀ exchange, entry.exchanges.get? id = some exchange →
      exchange.phase.isOver = true → target.isOver = true) :
    AllHeard (entry.setPhase id target) := by
  rw [PoolEntry.setPhase]
  split
  · exact h
  · rename_i exchange hget
    exact h.set ((h id exchange hget).move (fun htarget => hbefore htarget exchange hget)
      (hover exchange hget))

/-- A move keeps it under what is asked of the two phases. -/
theorem AllHeard.move (h : AllHeard entry) (hmove : entry.move id source target = some after)
    (hbefore : target.beforeStream = true → source.beforeStream = true)
    (hover : source.isOver = true → target.isOver = true) : AllHeard after := by
  obtain ⟨exchange, hget, rfl, rfl⟩ := move_eq_some_iff.mp hmove
  exact h.set ((h id exchange hget).move hbefore hover)

/-- Behind the close all exchanges are over. -/
theorem AllHeard.close (h : AllHeard entry) : AllHeard entry.close := by
  have hfold : ∀ (waiters : List ℕ) (entry : PoolEntry), AllHeard entry →
      AllHeard (waiters.foldl PoolEntry.dropWaiter entry) := by
    intro waiters
    induction waiters with
    | nil => exact fun _ h => h
    | cons next waiters ih =>
      exact fun entry h => ih _ (h.setPhase (fun htarget => Bool.noConfusion htarget)
        fun _ _ _ => rfl)
  exact hfold entry.waiters entry h

/-- The waiter that is granted the slot is queued. -/
theorem AllHeard.release (h : AllHeard entry) (hqueued : ∀ id ∈ entry.waiters,
      ∃ exchange, entry.exchanges.get? id = some exchange ∧ exchange.phase = .queued) :
    AllHeard entry.release := by
  rcases hwaiters : entry.waiters with _ | ⟨next, waiters⟩
  · rw [release_of_nil hwaiters]
    exact h
  · rw [release_of_cons hwaiters]
    obtain ⟨waiter, hwaiter, hphase⟩ := hqueued next (hwaiters ▸ List.mem_cons_self)
    refine AllHeard.setPhase h (fun _ exchange hget => ?_) fun exchange hget hover => ?_
    · obtain rfl := Option.some.inj (hwaiter.symm.trans hget)
      rw [hphase]
      rfl
    · obtain rfl := Option.some.inj (hwaiter.symm.trans hget)
      rw [hphase] at hover
      cases hover

/-- No exchange is aborted between the settlement of the await on its connection or its slot and
the turn that follows it. -/
def AbortsAreHeard (entry : PoolEntry) (event : PoolEvent) : Prop :=
  ∀ id exchange, event = .abort id → entry.exchanges.get? id = some exchange →
    exchange.phase ≠ .connected ∧ exchange.phase ≠ .granted

/-- Each event that meets the condition keeps aborted exchanges over and silent. -/
theorem AllHeard.step {event : PoolEvent} (hslots : SlotsCounted maxStreamsPerConnection entry)
    (h : AllHeard entry) (hheard : AbortsAreHeard entry event)
    (hstep : step maxStreamsPerConnection entry event = some after) : AllHeard after := by
  cases event with
  | dialled =>
    rw [PoolEntry.step, Option.ite_none_left_eq_some] at hstep
    obtain ⟨-, hstep⟩ := hstep
    obtain rfl := Option.some.inj hstep
    exact h
  | connectionLost =>
    obtain rfl := Option.some.inj hstep
    exact h
  | request id =>
    rw [PoolEntry.step, Option.ite_none_left_eq_some] at hstep
    obtain ⟨-, hstep⟩ := hstep
    obtain rfl := Option.some.inj hstep
    exact h.set ⟨fun _ => ⟨rfl, rfl⟩, fun hearly => Bool.noConfusion hearly⟩
  | dialSettled id ok => exact h.move hstep (fun _ => rfl) fun hover => Bool.noConfusion hover
  | acquire id =>
    obtain ⟨exchange, hphase, rfl⟩ := Option.map_eq_some_iff.mp hstep
    obtain ⟨hget, hphase⟩ := inPhase_eq_some_iff.mp hphase
    have hbefore : exchange.phase.beforeStream = true := by rw [hphase]; rfl
    have hover : exchange.phase.isOver = true → False := by rw [hphase]; exact Bool.noConfusion
    rw [PoolEntry.acquire, setPhase_of_get? hget, setPhase_of_get? hget]
    split
    · exact h.set ((h id exchange hget).move (fun _ => hbefore) fun hexchange =>
        (hover hexchange).elim)
    · exact h.set ((h id exchange hget).move (fun _ => hbefore) fun hexchange =>
        (hover hexchange).elim)
  | openStream id => exact h.move hstep (fun _ => rfl) fun hover => Bool.noConfusion hover
  | streamSettled id ok => exact h.move hstep (fun _ => rfl) fun hover => Bool.noConfusion hover
  | write id =>
    obtain ⟨exchange, hphase, rfl⟩ := Option.map_eq_some_iff.mp hstep
    obtain ⟨hget, hphase⟩ := inPhase_eq_some_iff.mp hphase
    exact h.set ((h id exchange hget).write hphase)
  | settled id =>
    -- an exchange settles while its stream opens or while it exchanges
    obtain hopened | ⟨-, hexchanging⟩ := Option.or_eq_some_iff.mp hstep
    · exact h.move hopened (fun htarget => htarget) fun _ => rfl
    · exact h.move hexchanging (fun htarget => htarget) fun _ => rfl
  | release id =>
    obtain ⟨between, hmove, rfl⟩ := Option.map_eq_some_iff.mp hstep
    -- the slot goes to the first waiter, which is another exchange than the one that frees it
    refine (h.move hmove (fun htarget => htarget) fun _ => rfl).release fun waiter hwaiter => ?_
    obtain ⟨exchange, hget, hphase, rfl⟩ := move_eq_some_iff.mp hmove
    obtain ⟨queued, hqueued, hwaits⟩ := (hslots.queued waiter).mp hwaiter
    refine ⟨queued, (OrderedMap.get?_set_of_ne _ _ ?_).trans hqueued, hwaits⟩
    rintro rfl
    obtain rfl := Option.some.inj (hget.symm.trans hqueued)
    cases hphase.symm.trans hwaits
  | abort id =>
    obtain ⟨exchange, hget, rfl⟩ := Option.map_eq_some_iff.mp hstep
    obtain ⟨hget, -⟩ := Option.filter_eq_some_iff.mp hget
    obtain ⟨hconnected, hgranted⟩ := hheard id exchange rfl hget
    exact AllHeard.set h ((h id exchange hget).abort hconnected hgranted)
  | close =>
    obtain rfl := Option.some.inj hstep
    exact h.close

/-- Whatever the order of events, the slots are counted. -/
theorem slotsCounted_of_run (hrun : Lib.Run (step maxStreamsPerConnection) {} entry) :
    SlotsCounted maxStreamsPerConnection entry :=
  hrun.invariant slotsCounted_initial fun _ _ _ h hstep => h.step hstep

/-- An exchange that was not aborted can be, in every phase. -/
theorem step_abort (hget : entry.exchanges.get? id = some exchange)
    (haborted : exchange.aborted = false) :
    step maxStreamsPerConnection entry (.abort id) = some (entry.abort id exchange) :=
  Option.map_eq_some_iff.mpr ⟨exchange,
    Option.filter_eq_some_iff.mpr ⟨hget, by rw [haborted]; rfl⟩, rfl⟩

/-- An exchange that has a slot and is aborted before it asks for its stream opens the stream and
writes its request. -/
theorem written_of_granted_abort (hget : entry.exchanges.get? id = some exchange)
    (hphase : exchange.phase = .granted) (haborted : exchange.aborted = false) :
    ∃ after late, Lib.runEvents (step maxStreamsPerConnection) entry
        [.abort id, .openStream id, .streamSettled id true, .write id] = some after ∧
      after.exchanges.get? id = some late ∧ late.abortedEarly = true ∧ late.written = true := by
  obtain ⟨phase, aborted, abortedEarly, written⟩ := exchange
  obtain rfl : phase = .granted := hphase
  obtain rfl : aborted = false := haborted
  have habort := @step_abort maxStreamsPerConnection _ _ _ hget rfl
  refine ⟨_, ⟨.exchanging, true, true, true⟩, Lib.runEvents_cons.mpr ⟨_, habort,
    Lib.runEvents_cons.mpr ⟨_, move_eq_some_iff.mpr ⟨_, OrderedMap.get?_set_self _ _ _, rfl, rfl⟩,
    Lib.runEvents_cons.mpr ⟨_, move_eq_some_iff.mpr ⟨_, OrderedMap.get?_set_self _ _ _, rfl, rfl⟩,
    Lib.runEvents_cons.mpr ⟨_, Option.map_eq_some_iff.mpr ⟨_, inPhase_eq_some_iff.mpr
      ⟨OrderedMap.get?_set_self _ _ _, rfl⟩, rfl⟩, Lib.runEvents_nil.mpr rfl⟩⟩⟩⟩, ?_, rfl, rfl⟩
  exact OrderedMap.get?_set_self _ _ _

/-- An exchange that is aborted before it asks for a slot, while every slot is held, is queued. -/
theorem queued_of_connected_abort (hget : entry.exchanges.get? id = some exchange)
    (hphase : exchange.phase = .connected) (haborted : exchange.aborted = false)
    (hfull : entry.active = maxStreamsPerConnection) :
    ∃ after late, Lib.runEvents (step maxStreamsPerConnection) entry [.abort id, .acquire id] =
        some after ∧
      id ∈ after.waiters ∧ after.exchanges.get? id = some late ∧ late.aborted = true := by
  obtain ⟨phase, aborted, abortedEarly, written⟩ := exchange
  obtain rfl : phase = .connected := hphase
  obtain rfl : aborted = false := haborted
  have habort := @step_abort maxStreamsPerConnection _ _ _ hget rfl
  have hself : (entry.abort id ⟨.connected, false, abortedEarly, written⟩).exchanges.get? id =
      some ⟨.connected, true, true, written⟩ := OrderedMap.get?_set_self _ _ _
  refine ⟨_, ⟨.queued, true, true, written⟩, Lib.runEvents_cons.mpr ⟨_, habort,
    Lib.runEvents_cons.mpr ⟨_, Option.map_eq_some_iff.mpr ⟨_, inPhase_eq_some_iff.mpr ⟨hself, rfl⟩,
      rfl⟩, Lib.runEvents_nil.mpr rfl⟩⟩, ?_⟩
  have hroom : ¬ (entry.abort id ⟨.connected, false, abortedEarly, written⟩).active <
      maxStreamsPerConnection := hfull.not_lt
  rw [PoolEntry.acquire, if_neg hroom, setPhase_of_get? hself]
  exact ⟨List.mem_append_right _ List.mem_cons_self, OrderedMap.get?_set_self _ _ _, rfl⟩

end Lemmas

/-- In a run in which no abort falls between an await and the turn after it, the slots are
counted, a waiter is queued only while every slot is held, no queued exchange is aborted, and an
exchange aborted before its stream was open writes nothing.

The slots in use are counted over the exchanges that hold one (`SlotsCounted`), whatever happens.
That an aborted exchange is over and has written nothing (`AllHeard`) needs the condition, as each
await adds its listener without a look at `signal.aborted`. -/
theorem stream_slots_and_aborts {maxStreamsPerConnection : ℕ} {entry : PoolEntry}
    (hrun : Lib.RunWhen (PoolEntry.step maxStreamsPerConnection) AbortsAreHeard {} entry) :
    entry.active = entry.slotsHeld ∧ entry.active ≤ maxStreamsPerConnection ∧
      (entry.waiters ≠ [] → entry.active = maxStreamsPerConnection) ∧
      (∀ id ∈ entry.waiters, ∃ exchange,
        entry.exchanges.get? id = some exchange ∧ exchange.aborted = false) ∧
      ∀ id exchange, entry.exchanges.get? id = some exchange →
        exchange.abortedEarly = true → exchange.written = false := by
  have h : SlotsCounted maxStreamsPerConnection entry ∧ AllHeard entry :=
    hrun.invariant ⟨slotsCounted_initial, nofun⟩ fun _ _ _ h hheard hstep =>
      ⟨h.1.step hstep, h.2.step h.1 hheard hstep⟩
  obtain ⟨hslots, hheard⟩ := h
  refine ⟨hslots.counted, hslots.within, hslots.full, fun id hid => ?_, fun id exchange hget =>
    fun hearly => ((hheard id exchange hget).silent hearly).1⟩
  obtain ⟨exchange, hget, hphase⟩ := (hslots.queued id).mp hid
  refine ⟨exchange, hget, ((hheard id exchange hget).unaborted ?_).1⟩
  rw [hphase]
  rfl

/-- The first exchange has the slot, and the two after it wait for it. -/
private def queuedBehindFirst : List PoolEvent :=
  [.dialled, .request 0, .acquire 0, .request 1, .acquire 1, .request 2, .acquire 2]

/-- An exchange that waits for its slot is aborted, and the one behind it stays in the queue. -/
theorem stream_slots_and_aborts_in_queue :
    ∃ before entry, Lib.runEvents (PoolEntry.step 1) {} queuedBehindFirst = some before ∧
      PoolEntry.step 1 before (.abort 1) = some entry ∧ entry.waiters = [2] ∧
      entry.active = entry.slotsHeld ∧ entry.active ≤ 1 ∧
      (entry.waiters ≠ [] → entry.active = 1) ∧
      (∀ id ∈ entry.waiters, ∃ exchange,
        entry.exchanges.get? id = some exchange ∧ exchange.aborted = false) ∧
      ∀ id exchange, entry.exchanges.get? id = some exchange →
        exchange.abortedEarly = true → exchange.written = false := by
  have hnone : ∀ event ∈ queuedBehindFirst, ∀ entry, AbortsAreHeard entry event := by
    rintro event hevent entry id exchange rfl
    simp [queuedBehindFirst] at hevent
  have hbefore : ∃ before, Lib.runEvents (PoolEntry.step 1) {} queuedBehindFirst = some before ∧
      before.exchanges.get? 1 = some { phase := .queued } ∧
      ∃ entry, PoolEntry.step 1 before (.abort 1) = some entry ∧ entry.waiters = [2] :=
    ⟨_, rfl, rfl, _, rfl, rfl⟩
  obtain ⟨before, hrun, hqueued, entry, habort, hwaiters⟩ := hbefore
  have hheard : AbortsAreHeard before (.abort 1) := by
    rintro _ exchange ⟨⟩ hget
    obtain rfl := Option.some.inj (hqueued.symm.trans hget)
    exact ⟨by decide, by decide⟩
  exact ⟨before, entry, hrun, habort, hwaiters, stream_slots_and_aborts
    ((Lib.runWhen_of_runEvents hnone hrun).tail ⟨_, hheard, habort⟩)⟩

/-- Both exchanges are aborted in the turn they are started in, with the connection up: the first
opens its stream and writes, and the second is queued for its slot. -/
private def abortedUnheard : List PoolEvent :=
  [.dialled, .request 0, .abort 0, .acquire 0, .openStream 0, .streamSettled 0 true, .write 0,
    .request 1, .abort 1, .acquire 1]

/-- An abort that nobody heard leaves its exchange in the queue. -/
theorem not_stream_slots_and_aborts :
    ∃ entry, Lib.runEvents (PoolEntry.step 1) {} abortedUnheard = some entry ∧
      entry.waiters = [1] ∧ (entry.exchanges.get? 1).map (·.aborted) = some true ∧
      (entry.exchanges.get? 0).map (fun exchange => (exchange.abortedEarly, exchange.written)) =
        some (true, true) :=
  ⟨_, rfl, by decide, by decide, by decide⟩

end NoxSdk.Kps
