import NoxSdk.Fragmentation.Accounting

/-!
# What a fragment of a buffered message evicts

`ensureCapacity` runs before the buffer of the fragment's message is looked up, so its count test
asks for room for one more message also where the fragment opens none. A fragment of a message
that is already buffered leaves the other messages and the fragments of its own alone exactly
below the limit on the number of messages (`buffered_fragment_keeps_iff`); at the limit the
message that was active least recently goes, be it the fragment's own.
-/

namespace NoxSdk.Fragmentation

namespace Reassembler

variable {r : Reassembler} {f : Fragment} {buf : ReassemblyBuffer} {createdAt now : ℤ}

/-! ### Buffers hold a fragment -/

/-- The counters say what is stored, and no message is buffered without a fragment. -/
structure Populated (r : Reassembler) : Prop where
  accounted : r.Accounted
  holds : ∀ id buf, r.buffers.get? id = some buf → ∃ seq g, buf.fragments.get? seq = some g

/-- A new reassembler has no buffer. -/
theorem new_populated (config : ReassemblerConfig) : (new config).Populated :=
  ⟨⟨by simp [new], rfl⟩, by simp [new]⟩

/-- Buffers that are left were there before. -/
theorem Populated.shrunk {r' : Reassembler} (h : r.Populated) (hshrunk : Shrunk r r') :
    r'.Populated :=
  ⟨hshrunk.accounted, fun id buf hget => h.holds id buf (hshrunk.buffers id buf hget)⟩

/-- A buffer that is stored has the fragment that it was stored with. -/
theorem Populated.store {r' : Reassembler} (h : r.Populated) (hadm : Admitted r f buf r')
    (now : ℤ) : (r'.store now f buf).Populated := by
  refine ⟨hadm.store_accounted h.accounted now, fun id b hget => ?_⟩
  rw [hadm.store_eq] at hget
  simp only [OrderedMap.get?_set] at hget
  split_ifs at hget
  · obtain rfl := Option.some.inj hget
    exact ⟨f.sequence, f, OrderedMap.get?_set_self _ _ _⟩
  · exact h.holds id b hget

/-- A message that is finished leaves the others. -/
theorem Populated.finish (h : r.Populated) (id : ℕ) (buf : ReassemblyBuffer) :
    (r.finish clampedSub id buf).2.Populated := by
  rw [Reassembler.finish]
  split_ifs
  · exact h.shrunk (dropBuffer_shrunk exactSub_clampedSub h.accounted id)
  · exact h

/-- One call keeps the buffers populated. -/
theorem Populated.apply (h : r.Populated) (call : ReassemblerCall) :
    (call.apply clampedSub r).Populated := by
  cases call with
  | pruneStale now timeoutMs =>
    exact h.shrunk (foldl_dropBuffer_shrunk exactSub_clampedSub
      (r.staleIds now (timeoutMs.getD r.staleTimeoutMs)) h.accounted)
  | addFragment createdAt now f =>
    obtain ⟨hshrunk, -⟩ := ensureCapacityLoop_spec exactSub_clampedSub
      (estimateFragmentSize f) _ h.accounted le_rfl
    have hcase := receive_cases exactSub_clampedSub h.accounted createdAt f
    simp only [ReassemblerCall.apply, addFragment]
    generalize r.receive clampedSub createdAt f = outcome at hcase ⊢
    cases hcase with
    | refused e => exact h
    | inconsistent e => exact h.shrunk hshrunk
    | duplicate => exact h
    | admitted buf r' hadm => exact ((h.shrunk hshrunk).store hadm now).finish _ _

/-- The states of a reassembler: what a sequence of calls leaves of a new one. -/
def Reachable (r : Reassembler) : Prop :=
  ∃ config calls, r = (new config).run clampedSub calls

/-- Calls in turn leave no empty buffer. -/
theorem Populated.run (h : r.Populated) (calls : List ReassemblerCall) :
    (r.run clampedSub calls).Populated := by
  induction calls generalizing r with
  | nil => exact h
  | cons call calls ih => exact ih (h.apply call)

/-- A reachable reassembler has no empty buffer. -/
theorem Reachable.populated (h : r.Reachable) : r.Populated := by
  obtain ⟨config, calls, rfl⟩ := h
  exact (new_populated config).run calls

/-! ### A fragment that is not yet stored -/

/-- The state in which `addFragment` has stored the fragment, before a complete message is
assembled. -/
def withFragment (r : Reassembler) (createdAt now : ℤ) (f : Fragment) : Reassembler :=
  match r.receive clampedSub createdAt f with
  | (.admitted buf, r) => r.store now f buf
  | (_, r) => r

/-- A fragment to be stored: it is valid, and its message is buffered without it. -/
structure Fresh (r : Reassembler) (f : Fragment) (buf : ReassemblyBuffer) : Prop where
  valid : validateFragment f = .ok ()
  buffered : r.buffers.get? f.messageId = some buf
  missing : buf.fragments.get? f.sequence = none

/-- The fragments of the message are others. -/
theorem Fresh.ne_of_get? (h : Fresh r f buf) {seq : ℕ} {g : Fragment}
    (hg : buf.fragments.get? seq = some g) : seq ≠ f.sequence := by
  rintro rfl
  rw [h.missing] at hg
  cases hg

/-- The call goes on with the buffer of the message after eviction. -/
theorem Fresh.receive_eq (h : Fresh r f buf) (createdAt : ℤ) :
    r.receive clampedSub createdAt f =
      match checkFragment ((r.ensureCapacity clampedSub (estimateFragmentSize f)).bufferFor
          createdAt f).1 f with
      | .error e => (.refused e,
          ((r.ensureCapacity clampedSub (estimateFragmentSize f)).bufferFor createdAt f).2)
      | .ok buf => (.admitted buf,
          ((r.ensureCapacity clampedSub (estimateFragmentSize f)).bufferFor createdAt f).2) := by
  have hstored : r.stored? f = none := by rw [stored?, h.buffered, Option.bind_some, h.missing]
  rewrite [receive, h.valid, hstored]
  rfl

/-- Dropping a message leaves the others. -/
theorem get?_dropBuffer_of_ne (sub : ℤ → ℤ → ℤ) {id id' : ℕ} (hne : id ≠ id') :
    (r.dropBuffer sub id').buffers.get? id = r.buffers.get? id := by
  rw [dropBuffer]
  split
  · rfl
  · exact OrderedMap.get?_delete_of_ne _ hne

/-- Finishing a message leaves the others. -/
theorem get?_finish_of_ne (sub : ℤ → ℤ → ℤ) {id id' : ℕ} (hne : id ≠ id')
    (buf : ReassemblyBuffer) :
    (r.finish sub id' buf).2.buffers.get? id = r.buffers.get? id := by
  rw [finish]
  split_ifs
  · exact get?_dropBuffer_of_ne sub hne
  · rfl

/-- Making room for a message leaves the others. -/
theorem get?_bufferFor_of_ne {id : ℕ} (hne : id ≠ f.messageId) :
    (r.bufferFor createdAt f).2.buffers.get? id = r.buffers.get? id := by
  rw [bufferFor]
  split
  · rfl
  · exact OrderedMap.get?_set_of_ne _ _ hne

/-- The buffer of the fragment is the one that is returned. -/
theorem get?_bufferFor_self :
    (r.bufferFor createdAt f).2.buffers.get? f.messageId = some (r.bufferFor createdAt f).1 := by
  rw [bufferFor]
  split
  · rename_i hget
    exact hget
  · exact OrderedMap.get?_set_self _ _ _

/-- The other messages are those that eviction leaves. -/
theorem Fresh.get?_addFragment_of_ne (h : Fresh r f buf) {id : ℕ} (hne : id ≠ f.messageId) :
    (r.addFragment clampedSub createdAt now f).2.buffers.get? id
      = (r.ensureCapacity clampedSub (estimateFragmentSize f)).buffers.get? id := by
  rw [addFragment, h.receive_eq]
  cases hcheck : checkFragment
    ((r.ensureCapacity clampedSub (estimateFragmentSize f)).bufferFor createdAt f).1 f with
  | error e =>
    simp only
    exact get?_bufferFor_of_ne hne
  | ok buf =>
    simp only
    rw [get?_finish_of_ne clampedSub hne, store, OrderedMap.get?_set_of_ne _ _ hne]
    exact get?_bufferFor_of_ne hne

/-- Next to its own fragment, the message holds those it holds after eviction. -/
theorem Fresh.get?_withFragment (h : Fresh r f buf) (createdAt now : ℤ) :
    ∃ b, (r.withFragment createdAt now f).buffers.get? f.messageId = some b ∧
      ∀ seq, seq ≠ f.sequence → b.fragments.get? seq =
        ((r.ensureCapacity clampedSub (estimateFragmentSize f)).bufferFor
          createdAt f).1.fragments.get? seq := by
  rw [withFragment, h.receive_eq]
  cases hcheck : checkFragment
    ((r.ensureCapacity clampedSub (estimateFragmentSize f)).bufferFor createdAt f).1 f with
  | error e =>
    simp only
    exact ⟨_, get?_bufferFor_self, fun _ _ => rfl⟩
  | ok buf =>
    simp only
    obtain ⟨-, fec, rfl⟩ := checkFragment_ok hcheck
    refine ⟨_, OrderedMap.get?_set_self _ _ _, fun seq hne => ?_⟩
    rw [ReassemblyBuffer.store, OrderedMap.get?_set_of_ne _ _ hne]

/-! ### Eviction -/

/-- At the limit on the number of messages a buffered message is evicted. -/
theorem exists_evicted (h : r.Accounted) {neededBytes : ℕ} (hover : r.overCapacity neededBytes) :
    ∃ id buf, r.buffers.get? id = some buf ∧
      (r.ensureCapacity clampedSub neededBytes).buffers.get? id = none := by
  obtain ⟨id, buf, hget, hevict⟩ := evictOldest_eq hover.2
  obtain ⟨fuel, hfuel⟩ := Nat.exists_eq_succ_of_ne_zero hover.2.ne'
  have hlt := @size_dropBuffer_lt clampedSub r id buf hget
  obtain ⟨hshrunk, -⟩ := ensureCapacityLoop_spec exactSub_clampedSub neededBytes fuel
    (dropBuffer_shrunk exactSub_clampedSub h id).accounted (by omega)
  refine ⟨id, buf, hget, ?_⟩
  rw [ensureCapacity, hfuel, ensureCapacityLoop, if_pos hover, hevict]
  -- what the later rounds leave was there after the first, and the first dropped this message
  rw [Option.eq_none_iff_forall_ne_some]
  intro b hb
  have hdropped := hshrunk.buffers id b hb
  rw [dropBuffer_of_get? exactSub_clampedSub h hget] at hdropped
  simp at hdropped

/-- Nothing is evicted while there is room. -/
theorem ensureCapacity_of_not_overCapacity {neededBytes : ℕ}
    (h : ¬ r.overCapacity neededBytes) : r.ensureCapacity clampedSub neededBytes = r := by
  rw [ensureCapacity]
  cases r.buffers.size with
  | zero => rfl
  | succ fuel => rw [ensureCapacityLoop, if_neg h]

/-- The call removes no other message and no fragment of the fragment's own. -/
structure Keeps (r : Reassembler) (createdAt now : ℤ) (f : Fragment) (buf : ReassemblyBuffer) :
    Prop where
  others : ∀ id, id ≠ f.messageId →
    (r.addFragment clampedSub createdAt now f).2.buffers.get? id = r.buffers.get? id
  own : ∃ b, (r.withFragment createdAt now f).buffers.get? f.messageId = some b ∧
    ∀ seq g, buf.fragments.get? seq = some g → b.fragments.get? seq = some g

/-- Where there is room, the fragment joins its message. -/
theorem Fresh.keeps_of_not_overCapacity (h : Fresh r f buf)
    (hroom : ¬ r.overCapacity (estimateFragmentSize f)) : Keeps r createdAt now f buf := by
  have hsame := ensureCapacity_of_not_overCapacity hroom
  refine ⟨fun id hne => ?_, ?_⟩
  · rw [h.get?_addFragment_of_ne hne, hsame]
  · obtain ⟨b, hb, hkept⟩ := h.get?_withFragment createdAt now
    refine ⟨b, hb, fun seq g hg => ?_⟩
    have hown : (r.bufferFor createdAt f).1 = buf := by rw [bufferFor, h.buffered]
    rw [hkept seq (h.ne_of_get? hg), hsame, hown, hg]

/-- Where there is none, some message goes to make it. -/
theorem Fresh.not_keeps_of_overCapacity (h : Fresh r f buf) (hr : r.Populated)
    (hover : r.overCapacity (estimateFragmentSize f)) : ¬ Keeps r createdAt now f buf := by
  rintro ⟨hothers, b, hb, hkeep⟩
  obtain ⟨id, old, hget, hgone⟩ := exists_evicted hr.accounted hover
  by_cases hid : id = f.messageId
  · -- its own message: it starts again from an empty buffer
    subst hid
    obtain ⟨b', hb', hkept⟩ := h.get?_withFragment createdAt now
    obtain rfl := Option.some.inj (hb'.symm.trans hb)
    obtain ⟨seq, g, hg⟩ := hr.holds _ _ h.buffered
    have hlost := hkept seq (h.ne_of_get? hg)
    rw [hkeep seq g hg, bufferFor, hgone] at hlost
    simp [newBuffer] at hlost
  · have hsame := hothers id hid
    rw [h.get?_addFragment_of_ne hid, hgone, hget] at hsame
    cases hsame

/-- Within the bytes it is the number of messages alone that decides. -/
theorem Fresh.keeps_iff (h : Fresh r f buf) (hr : r.Populated)
    (hfits : Limit.exceeded r.maxBufferBytes (r.bufferedBytes + estimateFragmentSize f) = false) :
    Keeps r createdAt now f buf ↔ Limit.reached r.maxConcurrentMessages r.pendingCount = false := by
  have hpos : 0 < r.buffers.size := by
    rw [Nat.pos_iff_ne_zero]
    intro hzero
    have hbuffered := h.buffered
    rw [OrderedMap.size_eq_zero_iff.mp hzero] at hbuffered
    cases hbuffered
  have hover : r.overCapacity (estimateFragmentSize f) ↔
      Limit.reached r.maxConcurrentMessages r.pendingCount = true := by
    rw [bufferedBytes] at hfits
    rw [overCapacity, hfits, pendingCount]
    simp [hpos]
  rw [← Bool.not_eq_true, ← hover]
  constructor
  · exact fun hkeeps hover => h.not_keeps_of_overCapacity hr hover hkeeps
  · exact h.keeps_of_not_overCapacity

/-- A fragment of a buffered message whose bytes fit evicts nothing exactly while fewer than
`maxConcurrentMessages` messages are buffered.

`ensureCapacity` comes before the code looks whether the message is known, so it makes room for a
message that needs none. -/
theorem buffered_fragment_keeps_iff (hr : r.Reachable) (h : Fresh r f buf)
    (hfits : Limit.exceeded r.maxBufferBytes (r.bufferedBytes + estimateFragmentSize f) = false)
    (createdAt now : ℤ) :
    Keeps r createdAt now f buf ↔ Limit.reached r.maxConcurrentMessages r.pendingCount = false :=
  h.keeps_iff hr.populated hfits

/-- The state after the first fragments of messages 7 and 8, with a limit on the number of
messages. -/
def sampleInterleaved (maxConcurrentMessages : Limit) : Reassembler :=
  (new ⟨none, some maxConcurrentMessages, none⟩).run clampedSub
    [.addFragment 0 1 ⟨7, 2, 0, [1], none⟩, .addFragment 2 3 ⟨8, 2, 0, [2], none⟩]

/-- The reassembler of the sample is reached by two calls. -/
theorem sampleInterleaved_reachable (limit : Limit) : (sampleInterleaved limit).Reachable :=
  ⟨_, _, rfl⟩

/-- The buffer of message 7 in these states. -/
def sampleBuffer : ReassemblyBuffer :=
  (newBuffer 0 ⟨7, 2, 0, [1], none⟩).store 1 ⟨7, 2, 0, [1], none⟩

/-- The second fragment of message 7 is new to them, and its bytes fit. -/
theorem fresh_sample {limit : Limit} (h : limit = .finite 2 ∨ limit = .finite 3) :
    Fresh (sampleInterleaved limit) ⟨7, 2, 1, [3], none⟩ sampleBuffer ∧
      Limit.exceeded (sampleInterleaved limit).maxBufferBytes
        ((sampleInterleaved limit).bufferedBytes +
          estimateFragmentSize ⟨7, 2, 1, [3], none⟩) = false := by
  obtain rfl | rfl := h
  · exact ⟨⟨by decide +kernel, rfl, by decide +kernel⟩, by decide +kernel⟩
  · exact ⟨⟨by decide +kernel, rfl, by decide +kernel⟩, by decide +kernel⟩

/-- With room for three messages both of the sample stay. -/
theorem buffered_fragment_keeps_iff_three_messages :
    Keeps (sampleInterleaved (.finite 3)) 4 5 ⟨7, 2, 1, [3], none⟩ sampleBuffer :=
  (buffered_fragment_keeps_iff (sampleInterleaved_reachable _) (fresh_sample (.inr rfl)).1
    (fresh_sample (.inr rfl)).2 4 5).mpr (by decide +kernel)

/-- At a limit of two messages, the second fragment of message 7 evicts the first one: message 7
does not complete. -/
theorem not_buffered_fragment_keeps :
    (¬ ∀ (r : Reassembler) (createdAt now : ℤ) (f : Fragment) (buf : ReassemblyBuffer),
      r.Reachable → Fresh r f buf →
      Limit.exceeded r.maxBufferBytes (r.bufferedBytes + estimateFragmentSize f) = false →
      Keeps r createdAt now f buf) ∧
    ((sampleInterleaved (.finite 2)).addFragment clampedSub 4 5
      ⟨7, 2, 1, [3], none⟩).1 = .ok none := by
  refine ⟨fun hall => ?_, by decide +kernel⟩
  obtain ⟨hfresh, hfits⟩ := fresh_sample (.inl rfl)
  have hkeeps := hall _ 4 5 _ _ (sampleInterleaved_reachable _) hfresh hfits
  exact absurd ((hfresh.keeps_iff (sampleInterleaved_reachable _).populated hfits).mp hkeeps)
    (by decide +kernel)

end Reassembler

end NoxSdk.Fragmentation
