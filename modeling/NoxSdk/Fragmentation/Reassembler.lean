import NoxSdk.Fragmentation.DecodeShards
import NoxSdk.Lib.OrderedMap
import Mathlib.Algebra.Order.Floor.Ring
import Mathlib.Data.Rat.Floor

/-!
# The reassembler

Fragments and the class `Reassembler`. The counters of the wire (`u32`, `u64`) are natural numbers
and the clock is an integer. A limit of the configuration is any value of the type `number`
(`Limit`): the constructor checks none, so it may have a fraction, be infinite or be `NaN`. The
clock is read where the code reads it, so the readings are arguments.

A call that throws leaves the buffers as they are at that point, hence the pair of a result and
a state. `addFragment` is cut where the code stores the fragment: `receive` is everything before,
`store` and `finish` the rest.

The bytes of a message that is dropped are taken off the total by `clampedSub`, as in the code.
The operations are stated for any subtraction `sub`, so that the clamped one can be compared with
the exact one.
-/

namespace NoxSdk.Fragmentation

/-! ### Fragments -/

/-- `FecInfo`. -/
structure FecInfo where
  dataShardCount : ℕ
  originalDataLen : ℕ
  deriving DecidableEq, Repr

/-- `Fragment`. -/
structure Fragment where
  messageId : ℕ
  totalFragments : ℕ
  sequence : ℕ
  data : Bytes
  fec : Option FecInfo
  deriving DecidableEq, Repr

/-- `MAX_FRAGMENTS_PER_MESSAGE`. -/
def maxFragmentsPerMessage : ℕ := 9500

/-- `estimateFragmentSize`. -/
def estimateFragmentSize (f : Fragment) : ℕ := 21 + f.data.length + if f.fec.isSome then 13 else 1

/-- `validateFragment`. -/
def validateFragment (f : Fragment) : Except Thrown Unit :=
  if f.totalFragments > maxFragmentsPerMessage then
    .error (.noxClientError
      s!"Fragment totalFragments={f.totalFragments} exceeds max {maxFragmentsPerMessage}"
      .decryptionFailed)
  else if f.sequence ≥ f.totalFragments then
    .error (.noxClientError
      s!"Fragment sequence={f.sequence} >= totalFragments={f.totalFragments}" .decryptionFailed)
  else match f.fec with
    | none => .ok ()
    | some fec =>
      if fec.dataShardCount = 0 ∨ fec.dataShardCount > f.totalFragments then
        .error (.noxClientError
          s!"Fragment FEC dataShardCount={fec.dataShardCount} must be in 1..={f.totalFragments}"
          .decryptionFailed)
      else .ok ()

/-! ### Buffers -/

/-- `ReassemblyBuffer`. -/
structure ReassemblyBuffer where
  fragments : OrderedMap ℕ Fragment
  expectedTotal : ℕ
  receivedCount : ℕ
  bufferedBytes : ℕ
  createdAt : ℤ
  lastActivity : ℤ
  fecInfo : Option FecInfo

/-- `newBuffer`. -/
def newBuffer (now : ℤ) (first : Fragment) : ReassemblyBuffer where
  fragments := .empty
  expectedTotal := first.totalFragments
  receivedCount := 0
  bufferedBytes := 0
  createdAt := now
  lastActivity := now
  fecInfo := first.fec

/-- `bufferIsComplete`. -/
def bufferIsComplete (buf : ReassemblyBuffer) : Bool :=
  match buf.fecInfo with
  | some fec => decide (buf.receivedCount ≥ fec.dataShardCount)
  | none => decide (buf.receivedCount = buf.expectedTotal)

/-- `assemble`. -/
def assemble (buf : ReassemblyBuffer) : Except Thrown Bytes :=
  match buf.fecInfo with
  | none =>
    .ok ((List.range buf.expectedTotal).filterMap fun seq =>
      (buf.fragments.get? seq).map Fragment.data).flatten
  | some fec =>
    let shards := (List.range buf.expectedTotal).map fun seq =>
      (buf.fragments.get? seq).map Fragment.data
    decodeShards shards fec.dataShardCount fec.originalDataLen

/-- Storing a fragment in its buffer: activity, fragment, count and bytes. -/
def ReassemblyBuffer.store (buf : ReassemblyBuffer) (now : ℤ) (fragment : Fragment) :
    ReassemblyBuffer :=
  { buf with
    lastActivity := now
    fragments := buf.fragments.set fragment.sequence fragment
    receivedCount := buf.receivedCount + 1
    bufferedBytes := buf.bufferedBytes + estimateFragmentSize fragment }

/-! ### The class -/

/-- A number of the configuration. -/
inductive Limit
  | finite (value : ℚ)
  | infinity
  | negInfinity
  | nan
  deriving DecidableEq

namespace Limit

/-- `n > limit`. -/
def exceeded (limit : Limit) (n : ℤ) : Bool :=
  match limit with
  | finite m => decide (m < n)
  | negInfinity => true
  | _ => false

/-- `n >= limit`. -/
def reached (limit : Limit) (n : ℤ) : Bool :=
  match limit with
  | finite m => decide (m ≤ n)
  | negInfinity => true
  | _ => false

/-- `n <= limit`. -/
def allows (limit : Limit) (n : ℤ) : Bool :=
  match limit with
  | finite m => decide ((n : ℚ) ≤ m)
  | infinity => true
  | _ => false

/-- `createdAt < now - timeout`. -/
def expired (timeout : Limit) (now createdAt : ℤ) : Bool :=
  match timeout with
  | finite m => decide ((createdAt : ℚ) < now - m)
  | negInfinity => true
  | _ => false

variable {limit : Limit} {n n' : ℤ}

@[simp] theorem exceeded_intCast (m : ℤ) : (finite m).exceeded n = decide (m < n) := by
  simp [exceeded]

@[simp] theorem reached_intCast (m : ℤ) : (finite m).reached n = decide (m ≤ n) := by
  simp [reached]

/-- Less does not exceed a limit that more does not. -/
theorem exceeded_mono (hle : n ≤ n') (h : limit.exceeded n' = false) :
    limit.exceeded n = false := by
  cases limit with
  | finite m =>
    have hm : (n' : ℚ) ≤ m := by simpa [exceeded] using h
    have hn : (n : ℚ) ≤ n' := Int.cast_le.mpr hle
    simpa [exceeded] using hn.trans hm
  | negInfinity => cases h
  | infinity => rfl
  | nan => rfl

theorem reached_mono (hle : n ≤ n') (h : limit.reached n' = false) : limit.reached n = false := by
  cases limit with
  | finite m =>
    have hm : (n' : ℚ) < m := by simpa [reached] using h
    have hn : (n : ℚ) ≤ n' := Int.cast_le.mpr hle
    simpa [reached] using hn.trans_lt hm
  | negInfinity => cases h
  | infinity => rfl
  | nan => rfl

/-- A limit of at least one is not reached by nothing. -/
theorem reached_zero_of_allows_one (h : limit.allows 1 = true) : limit.reached 0 = false := by
  cases limit with
  | finite m =>
    have hm : (1 : ℚ) ≤ m := by simpa [allows] using h
    simpa [reached] using zero_lt_one.trans_le hm
  | negInfinity => cases h
  | infinity => rfl
  | nan => rfl

end Limit

/-- `Reassembler`. -/
structure Reassembler where
  buffers : OrderedMap ℕ ReassemblyBuffer
  totalBufferedBytes : ℤ
  maxBufferBytes : Limit
  maxConcurrentMessages : Limit
  staleTimeoutMs : Limit

/-- `ReassemblerConfig`. -/
structure ReassemblerConfig where
  maxBufferBytes : Option Limit
  maxConcurrentMessages : Option Limit
  staleTimeoutMs : Option Limit

/-- `DEFAULT_MAX_BUFFER_BYTES`. -/
def defaultMaxBufferBytes : ℤ := 300 * 1024 * 1024

/-- `DEFAULT_MAX_CONCURRENT`. -/
def defaultMaxConcurrent : ℤ := 50

/-- `DEFAULT_STALE_MS`. -/
def defaultStaleMs : ℤ := 120000

/-- `Math.max(0, a - b)`. -/
def clampedSub (a b : ℤ) : ℤ := max 0 (a - b)

/-- What the part of `addFragment` before the fragment is stored comes to. -/
inductive Admission
  /-- The call throws. -/
  | refused (e : Thrown)
  /-- The fragment is stored already. -/
  | duplicate
  /-- The fragment goes into this buffer. -/
  | admitted (buf : ReassemblyBuffer)

namespace Reassembler

/-- The constructor. -/
def new (config : ReassemblerConfig) : Reassembler where
  buffers := .empty
  totalBufferedBytes := 0
  maxBufferBytes := config.maxBufferBytes.getD (.finite defaultMaxBufferBytes)
  maxConcurrentMessages := config.maxConcurrentMessages.getD (.finite defaultMaxConcurrent)
  staleTimeoutMs := config.staleTimeoutMs.getD (.finite defaultStaleMs)

/-- `bufferedBytes`. -/
def bufferedBytes (r : Reassembler) : ℤ := r.totalBufferedBytes

/-- `pendingCount`. -/
def pendingCount (r : Reassembler) : ℕ := r.buffers.size

variable (sub : ℤ → ℤ → ℤ)

/-- Forget a message and take its bytes off the total. -/
def dropBuffer (r : Reassembler) (id : ℕ) : Reassembler :=
  match r.buffers.get? id with
  | none => r
  | some buf =>
    { r with
      totalBufferedBytes := sub r.totalBufferedBytes buf.bufferedBytes
      buffers := r.buffers.delete id }

/-- One round of the search of `evictOldest`: an earlier entry wins a tie. -/
def olderEntry (oldest : Option (ℕ × ℤ)) (entry : ℕ × ReassemblyBuffer) : Option (ℕ × ℤ) :=
  match oldest with
  | none => some (entry.1, entry.2.lastActivity)
  | some (id, time) =>
    if entry.2.lastActivity < time then some (entry.1, entry.2.lastActivity) else some (id, time)

/-- `evictOldest`. -/
def evictOldest (r : Reassembler) : Reassembler :=
  match r.buffers.entries.foldl olderEntry none with
  | none => r
  | some (id, _) => r.dropBuffer sub id

/-- The condition under which `ensureCapacity` evicts. -/
def overCapacity (r : Reassembler) (neededBytes : ℕ) : Prop :=
  (Limit.exceeded r.maxBufferBytes (r.totalBufferedBytes + neededBytes) ∨
    Limit.reached r.maxConcurrentMessages r.buffers.size) ∧ 0 < r.buffers.size

instance (r : Reassembler) (neededBytes : ℕ) : Decidable (r.overCapacity neededBytes) :=
  inferInstanceAs (Decidable ((_ ∨ _) ∧ _))

/-- The loop of `ensureCapacity`. -/
def ensureCapacityLoop (neededBytes : ℕ) : ℕ → Reassembler → Reassembler
  | 0, r => r
  | fuel + 1, r =>
    if r.overCapacity neededBytes then ensureCapacityLoop neededBytes fuel (r.evictOldest sub)
    else r

/-- `ensureCapacity`: every round evicts one buffer, so as many rounds as there are buffers
suffice. -/
def ensureCapacity (r : Reassembler) (neededBytes : ℕ) : Reassembler :=
  ensureCapacityLoop sub neededBytes r.buffers.size r

/-- The buffer of the fragment's message, created if there is none. -/
def bufferFor (r : Reassembler) (now : ℤ) (fragment : Fragment) :
    ReassemblyBuffer × Reassembler :=
  match r.buffers.get? fragment.messageId with
  | some buf => (buf, r)
  | none =>
    let buf := newBuffer now fragment
    (buf, { r with buffers := r.buffers.set fragment.messageId buf })

/-- The checks of a fragment against its buffer, and the buffer with the fragment's FEC info
when it had none. -/
def checkFragment (buf : ReassemblyBuffer) (fragment : Fragment) :
    Except Thrown ReassemblyBuffer :=
  if fragment.totalFragments ≠ buf.expectedTotal then
    .error (.noxClientError
      (s!"Inconsistent totalFragments for message {fragment.messageId}: " ++
        s!"expected {buf.expectedTotal}, got {fragment.totalFragments}")
      .decryptionFailed)
  else match fragment.fec with
    | none => .ok buf
    | some fec =>
      match buf.fecInfo with
      | none => .ok { buf with fecInfo := some fec }
      | some known =>
        if known.dataShardCount ≠ fec.dataShardCount ∨
            known.originalDataLen ≠ fec.originalDataLen then
          .error (.noxClientError
            (s!"FEC mismatch for message {fragment.messageId}: buffer has " ++
              s!"D={known.dataShardCount}, fragment has D={fec.dataShardCount}")
            .decryptionFailed)
        else .ok buf

/-- The fragment stored under the same message and sequence. -/
def stored? (r : Reassembler) (fragment : Fragment) : Option Fragment :=
  (r.buffers.get? fragment.messageId).bind (·.fragments.get? fragment.sequence)

/-- `addFragment` up to the point where the fragment is stored. -/
def receive (r : Reassembler) (createdAt : ℤ) (fragment : Fragment) : Admission × Reassembler :=
  match validateFragment fragment with
  | .error e => (.refused e, r)
  | .ok () =>
    match r.stored? fragment with
    | some stored =>
      if stored.data ≠ fragment.data then
        (.refused (.noxClientError
          (s!"Duplicate fragment seq={fragment.sequence} for message {fragment.messageId} has " ++
            "different data")
          .decryptionFailed), r)
      else (.duplicate, r)
    | none =>
      let (buf, r) :=
        (r.ensureCapacity sub (estimateFragmentSize fragment)).bufferFor createdAt fragment
      match checkFragment buf fragment with
      | .error e => (.refused e, r)
      | .ok buf => (.admitted buf, r)

/-- Storing an admitted fragment. -/
def store (r : Reassembler) (now : ℤ) (fragment : Fragment) (buf : ReassemblyBuffer) :
    Reassembler :=
  { r with
    buffers := r.buffers.set fragment.messageId (buf.store now fragment)
    totalBufferedBytes := r.totalBufferedBytes + estimateFragmentSize fragment }

/-- The end of `addFragment`: a complete message is dropped and assembled. -/
def finish (r : Reassembler) (id : ℕ) (buf : ReassemblyBuffer) :
    Except Thrown (Option Bytes) × Reassembler :=
  if bufferIsComplete buf then ((assemble buf).map some, r.dropBuffer sub id) else (.ok none, r)

/-- `addFragment`, with the clock readings of a new buffer and of the activity. -/
def addFragment (r : Reassembler) (createdAt now : ℤ) (fragment : Fragment) :
    Except Thrown (Option Bytes) × Reassembler :=
  match r.receive sub createdAt fragment with
  | (.refused e, r) => (.error e, r)
  | (.duplicate, r) => (.ok none, r)
  | (.admitted buf, r) =>
    (r.store now fragment buf).finish sub fragment.messageId (buf.store now fragment)

/-- The messages `pruneStale` drops. -/
def staleIds (r : Reassembler) (now : ℤ) (timeout : Limit) : List ℕ :=
  (r.buffers.entries.filter fun entry => timeout.expired now entry.2.createdAt).map Prod.fst

/-- `pruneStale`. -/
def pruneStale (r : Reassembler) (now : ℤ) (timeoutMs : Option Limit) : ℕ × Reassembler :=
  let stale := r.staleIds now (timeoutMs.getD r.staleTimeoutMs)
  (stale.length, stale.foldl (dropBuffer sub) r)

end Reassembler

/-! ### Runs -/

/-- A call of the class, with the clock readings it makes. -/
inductive ReassemblerCall
  | addFragment (createdAt now : ℤ) (fragment : Fragment)
  | pruneStale (now : ℤ) (timeoutMs : Option Limit)

/-- The state after a call, whether it returns or throws. -/
def ReassemblerCall.apply (sub : ℤ → ℤ → ℤ) (r : Reassembler) : ReassemblerCall → Reassembler
  | .addFragment createdAt now fragment => (r.addFragment sub createdAt now fragment).2
  | .pruneStale now timeoutMs => (r.pruneStale sub now timeoutMs).2

/-- The state after a sequence of calls. -/
def Reassembler.run (sub : ℤ → ℤ → ℤ) (r : Reassembler) (calls : List ReassemblerCall) :
    Reassembler :=
  calls.foldl (ReassemblerCall.apply sub) r

end NoxSdk.Fragmentation
