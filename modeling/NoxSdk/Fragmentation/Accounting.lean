import NoxSdk.Fragmentation.Reassembler
import Mathlib.Algebra.Order.BigOperators.Group.List

/-!
# The accounting of the reassembler

The counters of a `Reassembler` say what is stored, after any sequence of calls:
`Reassembler.Invariant`. Everything that leaves the reassembler leaves it through `dropBuffer`,
so eviction and pruning are sequences of drops (`ensureCapacity_eq_foldl`) and one induction
over such a sequence serves both; what enters it enters through `store`, after `receive` has
made room (`Admitted`).

While the counters are right a drop takes off no more than the total, so the clamp of the code
never acts: the run with the clamped subtraction is the run with the exact one
(`run_clampedSub`).
-/

namespace NoxSdk.Fragmentation

/-! ### Counters of a buffer -/

/-- The estimated size of the stored fragments. -/
def ReassemblyBuffer.storedBytes (buf : ReassemblyBuffer) : ℕ :=
  buf.fragments.sum fun _ f => estimateFragmentSize f

/-- The counters of a buffer say what it stores. -/
structure ReassemblyBuffer.Accounted (buf : ReassemblyBuffer) : Prop where
  bytes : buf.bufferedBytes = buf.storedBytes
  count : buf.receivedCount = buf.fragments.size
  below : ∀ seq f, buf.fragments.get? seq = some f → seq < buf.expectedTotal

/-- A new buffer holds nothing and counts nothing. -/
theorem newBuffer_accounted (now : ℤ) (f : Fragment) : (newBuffer now f).Accounted where
  bytes := rfl
  count := rfl
  below := by simp [newBuffer]

/-- A buffer with another FEC info. -/
theorem ReassemblyBuffer.Accounted.setFec {buf : ReassemblyBuffer} (h : buf.Accounted)
    (fec : Option FecInfo) : { buf with fecInfo := fec }.Accounted :=
  ⟨h.bytes, h.count, h.below⟩

/-- A fragment in a free place is counted once. -/
theorem ReassemblyBuffer.Accounted.store {buf : ReassemblyBuffer} (h : buf.Accounted)
    {f : Fragment} (hnew : buf.fragments.get? f.sequence = none)
    (hbelow : f.sequence < buf.expectedTotal) (now : ℤ) : (buf.store now f).Accounted where
  bytes := by
    rw [storedBytes, ReassemblyBuffer.store, OrderedMap.sum_set_of_not_has _ hnew, h.bytes]
    rfl
  count := by
    rw [ReassemblyBuffer.store, OrderedMap.size_set_of_not_has hnew, h.count]
  below := by
    intro seq g hg
    simp only [ReassemblyBuffer.store, OrderedMap.get?_set] at hg
    by_cases hseq : seq = f.sequence
    · rw [hseq]
      exact hbelow
    · rw [if_neg hseq] at hg
      exact h.below seq g hg

/-! ### Subtractions -/

/-- A subtraction that is exact where the result is not negative. -/
def ExactSub (sub : ℤ → ℤ → ℤ) : Prop := ∀ a b, b ≤ a → sub a b = a - b

/-- A clamped subtraction is exact where it does not clamp. -/
theorem exactSub_clampedSub : ExactSub clampedSub := fun a b h => by
  rw [clampedSub, max_eq_right (by omega)]

theorem exactSub_sub : ExactSub (· - ·) := fun _ _ _ => rfl

namespace Reassembler

/-! ### Dropping messages -/

/-- The counters of a reassembler say what its buffers hold. -/
structure Accounted (r : Reassembler) : Prop where
  buffers : ∀ id buf, r.buffers.get? id = some buf → buf.Accounted
  total : r.totalBufferedBytes = r.buffers.sum fun _ buf => (buf.bufferedBytes : ℤ)

variable {sub : ℤ → ℤ → ℤ} {r : Reassembler}

/-- No buffered message takes more bytes than the total. -/
theorem Accounted.bufferedBytes_le (h : r.Accounted) {id : ℕ} {buf : ReassemblyBuffer}
    (hget : r.buffers.get? id = some buf) : (buf.bufferedBytes : ℤ) ≤ r.totalBufferedBytes := by
  have hsplit := OrderedMap.sum_delete_of_get? (fun _ buf => (buf.bufferedBytes : ℤ)) hget
  have hnonneg : 0 ≤ (r.buffers.delete id).sum fun _ buf => (buf.bufferedBytes : ℤ) :=
    List.sum_nonneg fun x hx => by
      obtain ⟨e, _, rfl⟩ := List.mem_map.mp hx
      exact Int.natCast_nonneg _
  rw [h.total]
  omega

/-- Dropping a message takes off what is counted for it. -/
theorem dropBuffer_of_get? (hsub : ExactSub sub) (h : r.Accounted) {id : ℕ}
    {buf : ReassemblyBuffer} (hget : r.buffers.get? id = some buf) :
    r.dropBuffer sub id =
      { r with
        totalBufferedBytes := r.totalBufferedBytes - buf.bufferedBytes
        buffers := r.buffers.delete id } := by
  rw [dropBuffer, hget]
  simp only [hsub _ _ (h.bufferedBytes_le hget)]

/-- The limits of the configuration are the same. -/
structure SameLimits (r r' : Reassembler) : Prop where
  maxBufferBytes : r'.maxBufferBytes = r.maxBufferBytes
  maxConcurrentMessages : r'.maxConcurrentMessages = r.maxConcurrentMessages

theorem SameLimits.trans {r r' r'' : Reassembler} (h : SameLimits r r')
    (h' : SameLimits r' r'') : SameLimits r r'' :=
  ⟨h'.1.trans h.1, h'.2.trans h.2⟩

/-- What a sequence of drops leaves: correct counters, and of the rest of the state only fewer
buffers and bytes. -/
structure Shrunk (r r' : Reassembler) : Prop where
  accounted : r'.Accounted
  limits : SameLimits r r'
  buffers : ∀ id buf, r'.buffers.get? id = some buf → r.buffers.get? id = some buf
  size_le : r'.buffers.size ≤ r.buffers.size
  total_le : r'.totalBufferedBytes ≤ r.totalBufferedBytes

theorem Accounted.shrunk (h : r.Accounted) : Shrunk r r :=
  ⟨h, ⟨rfl, rfl⟩, fun _ _ => id, le_rfl, le_rfl⟩

theorem Shrunk.trans {r' r'' : Reassembler} (h : Shrunk r r') (h' : Shrunk r' r'') :
    Shrunk r r'' where
  accounted := h'.accounted
  limits := h.limits.trans h'.limits
  buffers id buf hget := h.buffers id buf (h'.buffers id buf hget)
  size_le := h'.size_le.trans h.size_le
  total_le := h'.total_le.trans h.total_le

/-- Dropping a message keeps the counts of the others. -/
theorem dropBuffer_shrunk (hsub : ExactSub sub) (h : r.Accounted) (id : ℕ) :
    Shrunk r (r.dropBuffer sub id) := by
  cases hget : r.buffers.get? id with
  | none =>
    rw [dropBuffer, hget]
    exact h.shrunk
  | some buf =>
    have hsplit := OrderedMap.sum_delete_of_get? (fun _ buf => (buf.bufferedBytes : ℤ)) hget
    have hsub' : ∀ id' buf', (r.buffers.delete id).get? id' = some buf' →
        r.buffers.get? id' = some buf' := by
      intro id' buf' hget'
      rw [OrderedMap.get?_eq_some_iff, OrderedMap.mem_entries_delete] at hget'
      exact OrderedMap.get?_eq_some_iff.mpr hget'.2
    rw [dropBuffer_of_get? hsub h hget]
    exact
      { accounted := ⟨fun id' buf' hget' => h.buffers id' buf' (hsub' id' buf' hget'), by
          rw [eq_sub_of_add_eq hsplit, ← h.total]⟩
        limits := ⟨rfl, rfl⟩
        buffers := hsub'
        size_le := OrderedMap.size_delete_le _ _
        total_le := by simp }

/-- What is taken off was counted, so nothing is clamped. -/
theorem dropBuffer_clampedSub (h : r.Accounted) (id : ℕ) :
    r.dropBuffer clampedSub id = r.dropBuffer (· - ·) id := by
  cases hget : r.buffers.get? id with
  | none => rw [dropBuffer, dropBuffer, hget]
  | some buf =>
    rw [dropBuffer_of_get? exactSub_clampedSub h hget, dropBuffer_of_get? exactSub_sub h hget]

/-- One induction for every sequence of drops. -/
theorem foldl_dropBuffer_shrunk (hsub : ExactSub sub) (ids : List ℕ) (h : r.Accounted) :
    Shrunk r (ids.foldl (dropBuffer sub) r) := by
  induction ids generalizing r with
  | nil => exact h.shrunk
  | cons id ids ih =>
    have hstep := dropBuffer_shrunk hsub h id
    exact hstep.trans (ih hstep.accounted)

theorem foldl_dropBuffer_clampedSub (ids : List ℕ) (h : r.Accounted) :
    ids.foldl (dropBuffer clampedSub) r = ids.foldl (dropBuffer (· - ·)) r := by
  induction ids generalizing r with
  | nil => rfl
  | cons id ids ih =>
    rw [List.foldl_cons, List.foldl_cons, dropBuffer_clampedSub h,
      ih (dropBuffer_shrunk exactSub_sub h id).accounted]

/-! ### Eviction -/

/-- The oldest message is one of the messages. -/
private theorem foldl_olderEntry {entries : List (ℕ × ReassemblyBuffer)}
    {o : Option (ℕ × ℤ)} {P : ℕ → Prop} (hP : ∀ e ∈ entries, P e.1)
    (ho : ∀ id time, o = some (id, time) → P id)
    (hsome : o.isSome ∨ entries ≠ []) :
    ∃ id time, entries.foldl olderEntry o = some (id, time) ∧ P id := by
  induction entries generalizing o with
  | nil =>
    obtain ⟨⟨id, time⟩, rfl⟩ := Option.isSome_iff_exists.mp (hsome.resolve_right (by simp))
    exact ⟨id, time, rfl, ho id time rfl⟩
  | cons e entries ih =>
    have hhead : P e.1 := hP e List.mem_cons_self
    refine ih (fun e' he' => hP e' (List.mem_cons_of_mem _ he')) ?_ ?_
    · intro id time heq
      match o, ho, heq with
      | none, _, heq =>
        obtain ⟨rfl, -⟩ := Prod.mk.inj (Option.some.inj heq)
        exact hhead
      | some (id', time'), ho, heq =>
        simp only [olderEntry] at heq
        split_ifs at heq
        · obtain ⟨rfl, -⟩ := Prod.mk.inj (Option.some.inj heq)
          exact hhead
        · obtain ⟨rfl, -⟩ := Prod.mk.inj (Option.some.inj heq)
          exact ho _ _ rfl
    · refine .inl ?_
      rcases o with _ | ⟨id', time'⟩
      · rfl
      · simp only [olderEntry]
        split_ifs <;> rfl

/-- As long as there is a buffer, `evictOldest` drops a stored one. -/
theorem evictOldest_eq (hsize : 0 < r.buffers.size) :
    ∃ id buf, r.buffers.get? id = some buf ∧
      ∀ sub, r.evictOldest sub = r.dropBuffer sub id := by
  obtain ⟨id, time, hfold, buf, hget⟩ := foldl_olderEntry (o := none)
    (P := fun id => ∃ buf, r.buffers.get? id = some buf)
    (fun e he => ⟨e.2, OrderedMap.get?_eq_some_iff.mpr he⟩) (by simp)
    (.inr (List.ne_nil_of_length_pos hsize))
  exact ⟨id, buf, hget, fun sub => by rw [evictOldest, hfold]⟩

/-- Dropping a message leaves fewer of them. -/
theorem size_dropBuffer_lt {id : ℕ} {buf : ReassemblyBuffer}
    (hget : r.buffers.get? id = some buf) :
    (r.dropBuffer sub id).buffers.size < r.buffers.size := by
  rw [dropBuffer, hget]
  refine List.length_filter_lt_length_iff_exists.mpr
    ⟨(id, buf), OrderedMap.get?_eq_some_iff.mp hget, by simp⟩

/-- Eviction is a sequence of drops, and ends with room for the bytes or with no buffer left. -/
theorem ensureCapacityLoop_spec (hsub : ExactSub sub) (neededBytes fuel : ℕ) (h : r.Accounted)
    (hfuel : r.buffers.size ≤ fuel) :
    Shrunk r (ensureCapacityLoop sub neededBytes fuel r) ∧
      ¬ (ensureCapacityLoop sub neededBytes fuel r).overCapacity neededBytes := by
  induction fuel generalizing r with
  | zero => exact ⟨h.shrunk, fun hover => absurd (show 0 < r.buffers.size from hover.2) (by omega)⟩
  | succ fuel ih =>
    rw [ensureCapacityLoop]
    by_cases hover : r.overCapacity neededBytes
    · obtain ⟨id, buf, hget, hevict⟩ := evictOldest_eq hover.2
      have hdrop := dropBuffer_shrunk hsub h id
      have hlt := @size_dropBuffer_lt sub r id buf hget
      rw [if_pos hover, hevict]
      obtain ⟨hshrunk, hroom⟩ := ih hdrop.accounted (by omega)
      exact ⟨hdrop.trans hshrunk, hroom⟩
    · rw [if_neg hover]
      exact ⟨h.shrunk, hover⟩

/-- Making room clamps nothing. -/
theorem ensureCapacity_clampedSub (neededBytes : ℕ) (h : r.Accounted) :
    r.ensureCapacity clampedSub neededBytes = r.ensureCapacity (· - ·) neededBytes := by
  have hloop : ∀ fuel (r : Reassembler), r.Accounted →
      ensureCapacityLoop clampedSub neededBytes fuel r
        = ensureCapacityLoop (· - ·) neededBytes fuel r := by
    intro fuel
    induction fuel with
    | zero => exact fun _ _ => rfl
    | succ fuel ih =>
      intro r h
      rw [ensureCapacityLoop, ensureCapacityLoop]
      by_cases hover : r.overCapacity neededBytes
      · obtain ⟨id, buf, hget, hevict⟩ := evictOldest_eq hover.2
        rw [if_pos hover, if_pos hover, hevict, hevict, dropBuffer_clampedSub h,
          ih _ (dropBuffer_shrunk exactSub_sub h id).accounted]
      · rw [if_neg hover, if_neg hover]
  exact hloop _ r h

/-! ### Admission -/

/-- What the admission of a fragment establishes, relative to the state `r₁` after eviction:
the fragment's buffer `buf`, to be stored into the state `r'`. -/
structure Admitted (r₁ : Reassembler) (f : Fragment) (buf : ReassemblyBuffer) (r' : Reassembler) :
    Prop where
  accounted : buf.Accounted
  fresh : buf.fragments.get? f.sequence = none
  below : f.sequence < buf.expectedTotal
  bytes : ∀ now, (r₁.buffers.set f.messageId (buf.store now f)).sum
      (fun _ b => (b.bufferedBytes : ℤ))
    = r₁.buffers.sum (fun _ b => (b.bufferedBytes : ℤ)) + estimateFragmentSize f
  state : ∀ b, { r' with buffers := r'.buffers.set f.messageId b }
    = { r₁ with buffers := r₁.buffers.set f.messageId b }

/-- A fragment that passes the checks has the total of its message and may set the FEC data. -/
theorem checkFragment_ok {buf buf' : ReassemblyBuffer} {f : Fragment}
    (h : checkFragment buf f = .ok buf') :
    f.totalFragments = buf.expectedTotal ∧ ∃ fec, buf' = { buf with fecInfo := fec } := by
  rw [checkFragment] at h
  split at h
  · cases h
  · rename_i htotal
    refine ⟨not_not.mp htotal, ?_⟩
    split at h
    · exact ⟨buf.fecInfo, (Except.ok.inj h).symm⟩
    · split at h
      · exact ⟨_, (Except.ok.inj h).symm⟩
      · split at h
        · cases h
        · exact ⟨buf.fecInfo, (Except.ok.inj h).symm⟩

/-- A new buffer passes the checks of its first fragment. -/
theorem checkFragment_newBuffer (now : ℤ) (f : Fragment) :
    ∃ buf, checkFragment (newBuffer now f) f = .ok buf := by
  rw [checkFragment, if_neg (by simp [newBuffer])]
  cases hfec : f.fec with
  | none => exact ⟨_, rfl⟩
  | some fec =>
    simp only [newBuffer, hfec]
    exact ⟨_, if_neg (by simp)⟩

/-- A valid fragment has its place below the total. -/
theorem validateFragment_ok {f : Fragment} (h : validateFragment f = .ok ()) :
    f.sequence < f.totalFragments := by
  rw [validateFragment] at h
  split_ifs at h
  omega

/-- The three outcomes of `receive`. -/
inductive ReceiveCase (sub : ℤ → ℤ → ℤ) (r : Reassembler) (f : Fragment) :
    Admission × Reassembler → Prop
  /-- Refused before anything is evicted. -/
  | refused (e : Thrown) : ReceiveCase sub r f (.refused e, r)
  /-- Refused by a check against the buffer it would go into. -/
  | inconsistent (e : Thrown) :
    ReceiveCase sub r f (.refused e, r.ensureCapacity sub (estimateFragmentSize f))
  | duplicate : ReceiveCase sub r f (.duplicate, r)
  | admitted (buf : ReassemblyBuffer) (r' : Reassembler) :
    Admitted (r.ensureCapacity sub (estimateFragmentSize f)) f buf r' →
    ReceiveCase sub r f (.admitted buf, r')

/-- The buffer of a fragment that passes the checks is ready to store it. -/
theorem admitted_of_check {r₁ : Reassembler} (h : r₁.Accounted) {f : Fragment}
    (hvalid : f.sequence < f.totalFragments)
    (hfresh : ∀ buf, r₁.buffers.get? f.messageId = some buf →
      buf.fragments.get? f.sequence = none)
    {createdAt : ℤ} {buf : ReassemblyBuffer}
    (hcheck : checkFragment (r₁.bufferFor createdAt f).1 f = .ok buf) :
    Admitted r₁ f buf (r₁.bufferFor createdAt f).2 := by
  obtain ⟨htotal, fec, rfl⟩ := checkFragment_ok hcheck
  cases hget : r₁.buffers.get? f.messageId with
  | some buf₁ =>
    simp only [bufferFor, hget] at htotal ⊢
    have hacc := h.buffers _ _ hget
    refine ⟨hacc.setFec fec, hfresh buf₁ hget, htotal ▸ hvalid, fun now => ?_, fun _ => rfl⟩
    have hsum := OrderedMap.sum_set_of_get? (v := ({ buf₁ with fecInfo := fec } :
      ReassemblyBuffer).store now f) (fun _ b => (b.bufferedBytes : ℤ)) hget
    simp only [ReassemblyBuffer.store, Nat.cast_add] at hsum ⊢
    omega
  | none =>
    simp only [bufferFor, hget] at htotal ⊢
    refine ⟨(newBuffer_accounted createdAt f).setFec fec, by simp [newBuffer], hvalid,
      fun now => ?_, fun b => by rw [OrderedMap.set_set]⟩
    rw [OrderedMap.sum_set_of_not_has _ hget]
    simp [ReassemblyBuffer.store, newBuffer]

/-- What `receive` comes to: a refusal, a duplicate, or a fragment to be stored behind the eviction.
-/
theorem receive_cases (hsub : ExactSub sub) (h : r.Accounted) (createdAt : ℤ) (f : Fragment) :
    ReceiveCase sub r f (r.receive sub createdAt f) := by
  rw [receive]
  cases hvalid : validateFragment f with
  | error e => exact .refused e
  | ok _ =>
    cases hstored : r.stored? f with
    | some stored =>
      by_cases hdata : stored.data ≠ f.data
      · simp only [if_pos hdata]
        exact .refused _
      · simp only [if_neg hdata]
        exact .duplicate
    | none =>
      obtain ⟨hshrunk, -⟩ := ensureCapacityLoop_spec hsub (estimateFragmentSize f) _ h le_rfl
      set r₁ := r.ensureCapacity sub (estimateFragmentSize f) with hr₁
      have hfresh : ∀ buf, r₁.buffers.get? f.messageId = some buf →
          buf.fragments.get? f.sequence = none := fun buf hget => by
        rw [stored?, hshrunk.buffers _ _ hget] at hstored
        exact hstored
      cases hcheck : checkFragment (r₁.bufferFor createdAt f).1 f with
      | ok buf =>
        simp only [hcheck]
        exact .admitted buf _
          (admitted_of_check hshrunk.accounted (validateFragment_ok hvalid) hfresh hcheck)
      | error e =>
        -- only a buffer that was there before can refuse the fragment
        cases hget : r₁.buffers.get? f.messageId with
        | some buf₁ =>
          have hsame : (r₁.bufferFor createdAt f).2 = r₁ := by rw [bufferFor, hget]
          simp only [hcheck, hsame]
          exact .inconsistent e
        | none =>
          obtain ⟨buf, hok⟩ := checkFragment_newBuffer createdAt f
          rw [bufferFor, hget] at hcheck
          simp [hok] at hcheck

/-! ### The invariant -/

/-- The accounting invariant; `lastStored` is the size of the fragment stored last. A message is
added while the limit is above the number of messages, so it is above one less than this number. -/
structure Invariant (r : Reassembler) (lastStored : ℕ) : Prop where
  accounted : r.Accounted
  incomplete : ∀ id buf, r.buffers.get? id = some buf → bufferIsComplete buf = false
  pending : r.maxConcurrentMessages.reached (r.buffers.size - 1) = false
  bytes : r.maxBufferBytes.exceeded r.totalBufferedBytes = false ∨ r.totalBufferedBytes ≤ lastStored

/-- Dropping messages keeps the invariant. -/
theorem Invariant.shrunk {r' : Reassembler} {last : ℕ} (h : Invariant r last)
    (hshrunk : Shrunk r r') : Invariant r' last where
  accounted := hshrunk.accounted
  incomplete id buf hget := h.incomplete id buf (hshrunk.buffers id buf hget)
  pending := by
    have hsize := hshrunk.size_le
    rw [hshrunk.limits.maxConcurrentMessages]
    exact Limit.reached_mono (by omega) h.pending
  bytes := by
    rw [hshrunk.limits.maxBufferBytes]
    exact h.bytes.imp (Limit.exceeded_mono hshrunk.total_le) hshrunk.total_le.trans

/-- What the exit of the eviction loop says while buffers are left. -/
theorem room_of_not_overCapacity {neededBytes : ℕ} (h : ¬ r.overCapacity neededBytes)
    (hpos : 0 < r.buffers.size) :
    r.maxBufferBytes.exceeded (r.totalBufferedBytes + neededBytes) = false ∧
      r.maxConcurrentMessages.reached r.buffers.size = false := by
  have hor := not_or.mp fun hor => h ⟨hor, hpos⟩
  exact ⟨Bool.eq_false_iff.mpr hor.1, Bool.eq_false_iff.mpr hor.2⟩

theorem Admitted.store_eq {r₁ r' : Reassembler} {f : Fragment} {buf : ReassemblyBuffer}
    (h : Admitted r₁ f buf r') (now : ℤ) :
    r'.store now f buf =
      { r₁ with
        buffers := r₁.buffers.set f.messageId (buf.store now f)
        totalBufferedBytes := r₁.totalBufferedBytes + estimateFragmentSize f } :=
  congrArg (fun r : Reassembler => { r with
    totalBufferedBytes := r.totalBufferedBytes + estimateFragmentSize f })
    (h.state (buf.store now f))

/-- A fragment that is stored is counted in its message and in all. -/
theorem Admitted.store_accounted {r₁ r' : Reassembler} {f : Fragment} {buf : ReassemblyBuffer}
    (h : Admitted r₁ f buf r') (hr : r₁.Accounted) (now : ℤ) :
    (r'.store now f buf).Accounted := by
  rw [h.store_eq]
  refine ⟨fun id b hget => ?_, ?_⟩
  · simp only [OrderedMap.get?_set] at hget
    split_ifs at hget
    · exact Option.some.inj hget ▸ h.accounted.store h.fresh h.below now
    · exact hr.buffers id b hget
  · rw [h.bytes now, hr.total]

/-- The state in which a fragment was just stored: only its own message may be complete. -/
structure JustStored (r : Reassembler) (f : Fragment) (buf : ReassemblyBuffer) : Prop where
  accounted : r.Accounted
  get? : r.buffers.get? f.messageId = some buf
  incomplete : ∀ id b, id ≠ f.messageId → r.buffers.get? id = some b → bufferIsComplete b = false
  pending : r.maxConcurrentMessages.reached (r.buffers.size - 1) = false
  bytes : r.maxBufferBytes.exceeded r.totalBufferedBytes = false ∨
    r.totalBufferedBytes ≤ estimateFragmentSize f

/-- The limit on the messages is at least one. -/
def AllowsOne (r : Reassembler) : Prop := r.maxConcurrentMessages.allows 1 = true

instance : DecidablePred AllowsOne := fun r =>
  inferInstanceAs (Decidable (r.maxConcurrentMessages.allows 1 = true))

/-- Behind the eviction there is room, so what is stored keeps the limits or is all there is. -/
theorem Admitted.store_justStored {r₁ r' : Reassembler} {f : Fragment} {buf : ReassemblyBuffer}
    {last : ℕ} (h : Admitted r₁ f buf r') (hr : Invariant r₁ last)
    (hroom : ¬ r₁.overCapacity (estimateFragmentSize f)) (hone : r₁.AllowsOne)
    (now : ℤ) : JustStored (r'.store now f buf) f (buf.store now f) := by
  have hsize : (r₁.buffers.set f.messageId (buf.store now f)).size ≤ r₁.buffers.size + 1 := by
    cases hget : r₁.buffers.get? f.messageId with
    | none => rw [OrderedMap.size_set_of_not_has hget]
    | some b => rw [OrderedMap.size_set_of_get? hget]; omega
  refine ⟨h.store_accounted hr.accounted now, ?_, ?_, ?_, ?_⟩ <;> rw [h.store_eq]
  · exact OrderedMap.get?_set_self _ _ _
  · intro id b hne hget
    simp only [OrderedMap.get?_set_of_ne _ _ hne] at hget
    exact hr.incomplete id b hget
  · -- the limit is above the number of messages before, also when there was none
    have hreached : r₁.maxConcurrentMessages.reached r₁.buffers.size = false := by
      rcases Nat.eq_zero_or_pos r₁.buffers.size with hzero | hpos
      · rw [hzero]
        exact Limit.reached_zero_of_allows_one hone
      · exact (room_of_not_overCapacity hroom hpos).2
    exact Limit.reached_mono (by dsimp only; omega) hreached
  · dsimp only
    rcases Nat.eq_zero_or_pos r₁.buffers.size with hzero | hpos
    · -- nothing is left: the fragment's own bytes are all there is
      have htotal : r₁.totalBufferedBytes = 0 := by
        rw [hr.accounted.total, OrderedMap.size_eq_zero_iff.mp hzero]
        rfl
      exact .inr (by omega)
    · exact .inl (room_of_not_overCapacity hroom hpos).1

/-- A message that is complete is dropped, one that is not stays. -/
theorem JustStored.finish {f : Fragment} {buf : ReassemblyBuffer} (hsub : ExactSub sub)
    (h : JustStored r f buf) :
    Invariant (r.finish sub f.messageId buf).2 (estimateFragmentSize f) := by
  rw [Reassembler.finish]
  by_cases hcomplete : bufferIsComplete buf = true
  · have hdrop := dropBuffer_shrunk hsub h.accounted f.messageId
    rw [if_pos hcomplete]
    refine ⟨hdrop.accounted, fun id b hget => h.incomplete id b ?_ (hdrop.buffers id b hget),
      ?_, ?_⟩
    · rintro rfl
      rw [dropBuffer_of_get? hsub h.accounted h.get?] at hget
      simp at hget
    · have hsize := hdrop.size_le
      rw [hdrop.limits.maxConcurrentMessages]
      exact Limit.reached_mono (by dsimp only; omega) h.pending
    · rw [hdrop.limits.maxBufferBytes]
      exact h.bytes.imp (Limit.exceeded_mono hdrop.total_le) hdrop.total_le.trans
  · rw [if_neg hcomplete]
    refine ⟨h.accounted, fun id b hget => ?_, h.pending, h.bytes⟩
    by_cases hid : id = f.messageId
    · rw [hid, h.get?, Option.some_inj] at hget
      exact hget ▸ Bool.eq_false_iff.mpr hcomplete
    · exact h.incomplete id b hid hget

end Reassembler

/-! ### Runs -/

/-- The size of the fragment stored last, after a call: `receive` decides whether the call stores
its fragment. -/
def ReassemblerCall.lastStored (r : Reassembler) (last : ℕ) : ReassemblerCall → ℕ
  | .addFragment createdAt _ fragment =>
    match r.receive clampedSub createdAt fragment with
    | (.admitted _, _) => estimateFragmentSize fragment
    | _ => last
  | .pruneStale _ _ => last

/-- The size of the fragment stored last after a sequence of calls, `last` before it. -/
def Reassembler.lastStored (r : Reassembler) (last : ℕ) : List ReassemblerCall → ℕ
  | [] => last
  | call :: calls => (call.apply clampedSub r).lastStored (call.lastStored r last) calls

namespace Reassembler

variable {r : Reassembler}

/-- The end of a call leaves the limits of the reassembler as they are. -/
theorem finish_limits (hsub : ExactSub sub) (h : r.Accounted) (id : ℕ) (buf : ReassemblyBuffer) :
    SameLimits r (r.finish sub id buf).2 := by
  rw [finish]
  split_ifs
  · exact (dropBuffer_shrunk hsub h id).limits
  · exact ⟨rfl, rfl⟩

theorem AllowsOne.of_limits {r' : Reassembler} (h : r.AllowsOne) (hlimits : SameLimits r r') :
    r'.AllowsOne := by
  rw [AllowsOne, hlimits.maxConcurrentMessages]
  exact h

/-- One call keeps the invariant and the limits. -/
theorem Invariant.apply {last : ℕ} (h : Invariant r last) (hone : r.AllowsOne)
    (call : ReassemblerCall) :
    Invariant (call.apply clampedSub r) (call.lastStored r last) ∧
      SameLimits r (call.apply clampedSub r) := by
  cases call with
  | pruneStale now timeoutMs =>
    have hshrunk := foldl_dropBuffer_shrunk exactSub_clampedSub
      (r.staleIds now (timeoutMs.getD r.staleTimeoutMs)) h.accounted
    exact ⟨h.shrunk hshrunk, hshrunk.limits⟩
  | addFragment createdAt now f =>
    obtain ⟨hshrunk, hroom⟩ := ensureCapacityLoop_spec exactSub_clampedSub
      (estimateFragmentSize f) _ h.accounted le_rfl
    have hcase := receive_cases exactSub_clampedSub h.accounted createdAt f
    simp only [ReassemblerCall.apply, ReassemblerCall.lastStored, addFragment]
    generalize r.receive clampedSub createdAt f = outcome at hcase ⊢
    cases hcase with
    | refused e => exact ⟨h, rfl, rfl⟩
    | inconsistent e => exact ⟨h.shrunk hshrunk, hshrunk.limits⟩
    | duplicate => exact ⟨h, rfl, rfl⟩
    | admitted buf r' hadm =>
      have hstored := hadm.store_justStored (h.shrunk hshrunk) hroom
        (hone.of_limits hshrunk.limits) now
      have hlimits : SameLimits r (r'.store now f buf) := by
        rw [hadm.store_eq]
        exact ⟨hshrunk.limits.maxBufferBytes, hshrunk.limits.maxConcurrentMessages⟩
      exact ⟨hstored.finish exactSub_clampedSub,
        hlimits.trans (finish_limits exactSub_clampedSub hstored.accounted _ _)⟩

/-- A new reassembler is empty. -/
theorem new_invariant (config : ReassemblerConfig) (hone : (new config).AllowsOne) :
    Invariant (new config) 0 where
  accounted := ⟨by simp [new], rfl⟩
  incomplete := by simp [new]
  pending := Limit.reached_mono (by simp [new]) (Limit.reached_zero_of_allows_one hone)
  bytes := .inr le_rfl

/-- A sequence of calls keeps the invariant and the limits. -/
theorem Invariant.run {last : ℕ} (h : Invariant r last) (hone : r.AllowsOne)
    (calls : List ReassemblerCall) :
    Invariant (r.run clampedSub calls) (r.lastStored last calls) ∧
      SameLimits r (r.run clampedSub calls) := by
  induction calls generalizing r last with
  | nil => exact ⟨h, rfl, rfl⟩
  | cons call calls ih =>
    obtain ⟨hstep, hlimits⟩ := h.apply hone call
    obtain ⟨hrun, hlimits'⟩ := ih hstep (hone.of_limits hlimits)
    exact ⟨hrun, hlimits.trans hlimits'⟩

/-- No subtraction of a call is clamped. -/
theorem apply_clampedSub {last : ℕ} (h : Invariant r last) (call : ReassemblerCall) :
    call.apply clampedSub r = call.apply (· - ·) r := by
  cases call with
  | pruneStale now timeoutMs => exact foldl_dropBuffer_clampedSub _ h.accounted
  | addFragment createdAt now f =>
    obtain ⟨hshrunk, hroom⟩ := ensureCapacityLoop_spec exactSub_clampedSub
      (estimateFragmentSize f) _ h.accounted le_rfl
    have hreceive : r.receive (· - ·) createdAt f = r.receive clampedSub createdAt f := by
      rw [receive, receive, ensureCapacity_clampedSub _ h.accounted]
    have hcase := receive_cases exactSub_clampedSub h.accounted createdAt f
    simp only [ReassemblerCall.apply, addFragment, hreceive]
    generalize r.receive clampedSub createdAt f = outcome at hcase ⊢
    cases hcase with
    | refused e => rfl
    | inconsistent e => rfl
    | duplicate => rfl
    | admitted buf r' hadm =>
      have hacc := hadm.store_accounted hshrunk.accounted now
      simp only [finish, dropBuffer_clampedSub hacc]

/-- No call of a run clamps. -/
theorem run_clampedSub {last : ℕ} (h : Invariant r last) (hone : r.AllowsOne)
    (calls : List ReassemblerCall) : r.run clampedSub calls = r.run (· - ·) calls := by
  induction calls generalizing r last with
  | nil => rfl
  | cons call calls ih =>
    obtain ⟨hstep, hlimits⟩ := h.apply hone call
    have hrest := ih hstep (hone.of_limits hlimits)
    rw [apply_clampedSub h] at hrest
    simp only [run, List.foldl_cons, apply_clampedSub h]
    exact hrest

/-- The bytes that are counted are those that are stored. -/
theorem Accounted.bufferedBytes_eq (h : r.Accounted) :
    r.bufferedBytes = r.buffers.sum fun _ buf => (buf.storedBytes : ℤ) := by
  rw [bufferedBytes, h.total, OrderedMap.sum, OrderedMap.sum]
  refine congrArg List.sum (List.map_congr_left fun e he => ?_)
  rw [(h.buffers e.1 e.2 (OrderedMap.get?_eq_some_iff.mpr he)).bytes]

/-- Below a limit that may have a fraction there are as many messages as the limit rounded up. -/
theorem le_ceil_of_reached {m : ℚ} {n : ℤ} (h : (Limit.finite m).reached (n - 1) = false) :
    n ≤ ⌈m⌉ := by
  have hlt : ((n - 1 : ℤ) : ℚ) < m := by simpa [Limit.reached] using h
  exact Int.le_of_sub_one_lt (Int.lt_ceil.mpr hlt)

/-- **The accounting of the reassembler.** For every configuration that allows one message and every
sequence of calls, whether they return or throw, the counters say what is stored and no subtraction
is clamped; there are at most as many messages as the limit rounded up, and the bytes do not exceed
their limit, or are those of the fragment stored last.

One call keeps the invariant (`Invariant.apply`): before a fragment is stored, `ensureCapacity`
evicts until the limits leave room or nothing is left, and only then does the fragment come in. So
the limit on the messages is compared with their number before the last one came. -/
theorem run_accounting (config : ReassemblerConfig) (hone : (new config).AllowsOne)
    (calls : List ReassemblerCall) :
    let r := (new config).run clampedSub calls
    r.bufferedBytes = r.buffers.sum (fun _ buf => (buf.storedBytes : ℤ)) ∧
      r = (new config).run (· - ·) calls ∧
      (∀ id buf, r.buffers.get? id = some buf →
        buf.receivedCount = buf.fragments.size ∧
        (∀ seq f, buf.fragments.get? seq = some f → seq < buf.expectedTotal) ∧
        bufferIsComplete buf = false) ∧
      (∀ m, (new config).maxConcurrentMessages = .finite m → (r.pendingCount : ℤ) ≤ ⌈m⌉) ∧
      ((new config).maxBufferBytes.exceeded r.bufferedBytes = false ∨
        r.bufferedBytes ≤ (new config).lastStored 0 calls) := by
  obtain ⟨hinv, hlimits⟩ := (new_invariant config hone).run hone calls
  refine ⟨hinv.accounted.bufferedBytes_eq, run_clampedSub (new_invariant config hone) hone calls,
    fun id buf hget => ?_, fun m hm => ?_, hlimits.maxBufferBytes ▸ hinv.bytes⟩
  · have hbuf := hinv.accounted.buffers id buf hget
    exact ⟨hbuf.count, hbuf.below, hinv.incomplete id buf hget⟩
  · have hpending := hinv.pending
    rw [hlimits.maxConcurrentMessages, hm] at hpending
    exact le_ceil_of_reached hpending

/-- A limit of one and a half messages. -/
def sampleConfig : ReassemblerConfig := ⟨none, some (.finite (3 / 2)), none⟩

/-- A part of message 7, all of message 8 and a part of message 9. -/
def sampleCalls : List ReassemblerCall :=
  [.addFragment 0 1 ⟨7, 2, 0, [1, 2], none⟩, .addFragment 2 3 ⟨8, 1, 0, [3], none⟩,
    .addFragment 4 5 ⟨9, 3, 2, [4, 5, 6], none⟩]

/-- Two of the messages stay, which is the limit rounded up. -/
theorem run_accounting_two_messages :
    let r := (new sampleConfig).run clampedSub sampleCalls
    r.bufferedBytes = r.buffers.sum (fun _ buf => (buf.storedBytes : ℤ)) ∧
      r = (new sampleConfig).run (· - ·) sampleCalls ∧
      (∀ id buf, r.buffers.get? id = some buf →
        buf.receivedCount = buf.fragments.size ∧
        (∀ seq f, buf.fragments.get? seq = some f → seq < buf.expectedTotal) ∧
        bufferIsComplete buf = false) ∧
      (∀ m, (new sampleConfig).maxConcurrentMessages = .finite m → (r.pendingCount : ℤ) ≤ ⌈m⌉) ∧
      ((new sampleConfig).maxBufferBytes.exceeded r.bufferedBytes = false ∨
        r.bufferedBytes ≤ (new sampleConfig).lastStored 0 sampleCalls) :=
  run_accounting sampleConfig (by decide +kernel) sampleCalls

/-- The number of messages exceeds a limit with a fraction. -/
theorem not_run_accounting :
    ¬ ∀ (config : ReassemblerConfig) (calls : List ReassemblerCall), (new config).AllowsOne →
      (new config).maxConcurrentMessages.allows ((new config).run clampedSub calls).pendingCount =
        true := by
  intro h
  have hallows := h sampleConfig sampleCalls (by decide +kernel)
  exact absurd hallows (by decide +kernel)

end Reassembler

end NoxSdk.Fragmentation
