import NoxSdk.Bincode.RoundTrip
import NoxSdk.Fragmentation.Accounting

/-!
# Oversized requests

`packetsFor` cuts a payload that does not fit one packet into `Fragment` payloads, and
`packetsFor_reassembles` follows them to the other end: decoded and fed to a fresh reassembler
in any order and with any repetitions, they give the payload back with the last of them that
was missing, and nothing before.

`Collecting` is the state of that reassembler in between: the one message it knows, with
exactly the fragments seen so far. Its limits are never reached, since all the fragments of
one message fit into the default buffer (`Collecting.room`).
-/

namespace NoxSdk.Client

open Bincode Fragmentation

/-! ### Cutting a payload -/

/-- `MAX_PAYLOAD_SIZE`. -/
def maxPayloadSize : ℕ := 31716

/-- `FRAG_OVERHEAD`. -/
def fragOverhead : ℕ := 32

/-- `chunkSize`. -/
def chunkSize : ℕ := maxPayloadSize - fragOverhead

/-- `Math.ceil(payloadBytes.length / chunkSize)`. -/
def totalFragmentsOf (payload : Bytes) : ℕ := (payload.length + chunkSize - 1) / chunkSize

/-- `payloadBytes.slice(start, Math.min(start + chunkSize, payloadBytes.length))`. -/
def chunk (payload : Bytes) (seq : ℕ) : Bytes :=
  let start := seq * chunkSize
  (payload.drop start).take (min (start + chunkSize) payload.length - start)

/-- The fragment with sequence number `seq`. -/
def fragmentOf (messageId : UInt64) (payload : Bytes) (seq : ℕ) : Fragment where
  messageId := messageId.toNat
  totalFragments := totalFragmentsOf payload
  sequence := seq
  data := chunk payload seq
  fec := none

/-- `_packetsFor`, with the packet builder of the route and the random message ID. -/
def packetsFor {β : Type} (buildSphinxPacket : Bytes → Except Thrown β) (messageId : UInt64)
    (payload : Bytes) : Except Thrown (List β) :=
  if payload.length ≤ maxPayloadSize then do
    let packet ← buildSphinxPacket payload
    return [packet]
  else
    (List.range (totalFragmentsOf payload)).mapM fun seq => do
      let fragBytes ← encodeRelayerPayload (.fragment (fragmentOf messageId payload seq))
      buildSphinxPacket fragBytes

/-! ### Feeding a reassembler -/

/-- A fragment arriving, with the clock readings of its `addFragment`. -/
structure Arrival where
  fragment : Fragment
  createdAt : ℤ
  now : ℤ

/-- The results of feeding fragments one after the other. -/
def feed (r : Reassembler) : List Arrival → List (Except Thrown (Option Bytes))
  | [] => []
  | a :: rest =>
    let outcome := r.addFragment clampedSub a.createdAt a.now a.fragment
    outcome.1 :: feed outcome.2 rest

/-- `new Reassembler()`. -/
def defaultReassembler : Reassembler := .new ⟨none, none, none⟩

/-- In any order and with any repetitions, the fragments give `null` until the last one that was
missing, and then the payload. -/
def Restores (fragments : List Fragment) (payload : Bytes) : Prop :=
  ∀ (arrivals : List Arrival) (last : Arrival),
    (∀ a ∈ arrivals, a.fragment ∈ fragments) → last.fragment ∈ fragments →
    last.fragment ∉ arrivals.map Arrival.fragment →
    (∀ f ∈ fragments, f = last.fragment ∨ f ∈ arrivals.map Arrival.fragment) →
    feed defaultReassembler (arrivals ++ [last])
      = List.replicate arrivals.length (.ok none) ++ [.ok (some payload)]

/-! ### The fragments of a payload -/

section Fragments

variable {messageId : UInt64} {payload : Bytes}

theorem chunk_eq (payload : Bytes) (seq : ℕ) :
    chunk payload seq = (payload.drop (seq * chunkSize)).take chunkSize := by
  rw [chunk, List.take_eq_take_iff, List.length_drop]
  omega

theorem length_chunk_le (payload : Bytes) (seq : ℕ) : (chunk payload seq).length ≤ chunkSize := by
  rw [chunk_eq, List.length_take]
  exact min_le_left _ _

/-- The chunks concatenated are the payload. -/
theorem flatten_chunks (payload : Bytes) :
    ((List.range (totalFragmentsOf payload)).map (chunk payload)).flatten = payload := by
  have hsteps : ∀ n, ((List.range n).map (chunk payload)).flatten
      = payload.take (n * chunkSize) := by
    intro n
    induction n with
    | zero => simp
    | succ n ih =>
      rw [List.range_succ, List.map_append, List.flatten_append, ih, List.map_singleton,
        List.flatten_singleton, chunk_eq, Nat.succ_mul, List.take_add]
  rw [hsteps, List.take_of_length_le]
  simp only [totalFragmentsOf, chunkSize, maxPayloadSize, fragOverhead]
  omega

theorem fragmentValid_fragmentOf {seq : ℕ} (hseq : seq < totalFragmentsOf payload)
    (hmax : totalFragmentsOf payload ≤ maxFragmentsPerMessage) :
    FragmentValid (fragmentOf messageId payload seq) where
  messageId := messageId.toNat_lt
  totalFragments := lt_of_le_of_lt hmax (by decide)
  sequence := lt_of_lt_of_le hseq (hmax.trans (by decide))
  data := lt_of_le_of_lt (length_chunk_le payload seq) (by decide)
  fec := by simp [fragmentOf]

/-- The encoded fragment with sequence number `seq`. -/
def fragBytes (messageId : UInt64) (payload : Bytes) (seq : ℕ) : Bytes :=
  Writer.u8 payloadVersion ++ (Writer.u32 3 ++ writeFragmentWire (fragmentOf messageId payload seq))

theorem encode_fragmentOf (seq : ℕ) :
    encodeRelayerPayload (.fragment (fragmentOf messageId payload seq))
      = .ok (fragBytes messageId payload seq) := rfl

/-- The encoding puts `30` bytes around the data. -/
theorem length_fragBytes (seq : ℕ) :
    (fragBytes messageId payload seq).length = 30 + (chunk payload seq).length := by
  simp only [fragBytes, writeFragmentWire, fragmentOf, Writer.u8, Writer.u32, Writer.u64,
    Writer.bytes, List.length_append, length_leBytes]
  omega

theorem decode_fragBytes {seq : ℕ} (hseq : seq < totalFragmentsOf payload)
    (hmax : totalFragmentsOf payload ≤ maxFragmentsPerMessage) :
    decodeRelayerPayload (fragBytes messageId payload seq)
      = .ok (.fragment (fragmentOf messageId payload seq)) := by
  obtain ⟨bytes, hencode, hdecode⟩ := decodeRelayerPayload_encodeRelayerPayload
    (p := .fragment (fragmentOf messageId payload seq)) (fragmentValid_fragmentOf hseq hmax)
  rw [encode_fragmentOf] at hencode
  rwa [Except.ok.inj hencode]

end Fragments

/-! ### Collecting the fragments -/

section Collecting

variable {messageId : UInt64} {payload : Bytes} {seen : Finset ℕ} {r : Reassembler}

/-- What is stored of a message of which the fragments `seen` have arrived. -/
def StoredOf (messageId : UInt64) (payload : Bytes) (seen : Finset ℕ) (buf : ReassemblyBuffer) :
    Prop :=
  buf.expectedTotal = totalFragmentsOf payload ∧ buf.fecInfo = none ∧
    ∀ seq, buf.fragments.get? seq
      = if seq ∈ seen then some (fragmentOf messageId payload seq) else none

/-- The state of a default reassembler that has seen exactly the fragments `seen` of one
message. -/
structure Collecting (messageId : UInt64) (payload : Bytes) (seen : Finset ℕ) (r : Reassembler) :
    Prop where
  accounted : r.Accounted
  maxBufferBytes : r.maxBufferBytes = .finite defaultMaxBufferBytes
  maxConcurrentMessages : r.maxConcurrentMessages = .finite defaultMaxConcurrent
  alone : ∀ id, id ≠ messageId.toNat → r.buffers.get? id = none
  absent : r.buffers.get? messageId.toNat = none → seen = ∅
  present : ∀ buf, r.buffers.get? messageId.toNat = some buf → StoredOf messageId payload seen buf

theorem collecting_default : Collecting messageId payload ∅ defaultReassembler where
  accounted := ⟨by simp [defaultReassembler, Reassembler.new], rfl⟩
  maxBufferBytes := rfl
  maxConcurrentMessages := rfl
  alone _ _ := rfl
  absent _ := rfl
  present := by simp [defaultReassembler, Reassembler.new]

theorem estimateFragmentSize_fragmentOf_le (seq : ℕ) :
    estimateFragmentSize (fragmentOf messageId payload seq) ≤ 22 + chunkSize := by
  have hle := length_chunk_le payload seq
  simp only [estimateFragmentSize, fragmentOf, Option.isSome_none, Bool.false_eq_true, if_false]
  omega

theorem StoredOf.size_eq {buf : ReassemblyBuffer} (h : StoredOf messageId payload seen buf) :
    buf.fragments.size = seen.card :=
  OrderedMap.size_eq_card fun seq => by rw [h.2.2 seq]; split_ifs <;> simp [*]

theorem StoredOf.storedBytes_le {buf : ReassemblyBuffer}
    (h : StoredOf messageId payload seen buf) :
    buf.storedBytes ≤ seen.card * (22 + chunkSize) := by
  rw [← h.size_eq]
  refine OrderedMap.sum_le fun e he => ?_
  have hget := OrderedMap.get?_eq_some_iff.mpr he
  rw [h.2.2] at hget
  split_ifs at hget
  exact Option.some.inj hget ▸ estimateFragmentSize_fragmentOf_le _

/-- The fragments of one message never reach a limit of the default configuration. -/
theorem Collecting.room (h : Collecting messageId payload seen r)
    (hseen : seen.card ≤ maxFragmentsPerMessage) (seq : ℕ) :
    ¬ r.overCapacity (estimateFragmentSize (fragmentOf messageId payload seq)) := by
  have hsize := @estimateFragmentSize_fragmentOf_le messageId payload seq
  have hentries := OrderedMap.entries_of_alone h.alone
  have htotal : r.totalBufferedBytes ≤ maxFragmentsPerMessage * (22 + chunkSize) := by
    rw [h.accounted.total, OrderedMap.sum, hentries]
    cases hget : r.buffers.get? messageId.toNat with
    | none => exact Int.natCast_nonneg _
    | some buf =>
      have hle := (h.present buf hget).storedBytes_le
      have hmul := Nat.mul_le_mul_right (22 + chunkSize) hseen
      simp only [Option.map_some, Option.toList_some, List.map_singleton, List.sum_singleton,
        (h.accounted.buffers _ _ hget).bytes]
      exact_mod_cast hle.trans hmul
  have hcount : r.buffers.size ≤ 1 := by
    rw [OrderedMap.size, hentries]
    cases r.buffers.get? messageId.toNat <;> simp
  rintro ⟨hover | hover, -⟩
  · rw [h.maxBufferBytes] at hover
    simp only [Limit.exceeded_intCast, decide_eq_true_eq, defaultMaxBufferBytes] at hover
    simp only [chunkSize, maxPayloadSize, fragOverhead, maxFragmentsPerMessage] at hsize htotal
    omega
  · rw [h.maxConcurrentMessages] at hover
    simp only [Limit.reached_intCast, decide_eq_true_eq, defaultMaxConcurrent] at hover
    omega

theorem validateFragment_fragmentOf {seq : ℕ} (hseq : seq < totalFragmentsOf payload)
    (hmax : totalFragmentsOf payload ≤ maxFragmentsPerMessage) :
    validateFragment (fragmentOf messageId payload seq) = .ok () := by
  rw [validateFragment]
  exact (if_neg (not_lt.mpr hmax)).trans (if_neg (not_le.mpr hseq))

theorem ensureCapacity_of_room {sub : ℤ → ℤ → ℤ} {neededBytes : ℕ}
    (h : ¬ r.overCapacity neededBytes) : r.ensureCapacity sub neededBytes = r := by
  rw [Reassembler.ensureCapacity]
  cases r.buffers.size with
  | zero => rfl
  | succ fuel => exact if_neg h

/-- A fragment seen before changes nothing. -/
theorem Collecting.addFragment_seen (h : Collecting messageId payload seen r) {seq : ℕ}
    (hseq : seq < totalFragmentsOf payload)
    (hmax : totalFragmentsOf payload ≤ maxFragmentsPerMessage) (hmem : seq ∈ seen)
    (createdAt now : ℤ) :
    r.addFragment clampedSub createdAt now (fragmentOf messageId payload seq) = (.ok none, r) := by
  have hstored : r.stored? (fragmentOf messageId payload seq)
      = some (fragmentOf messageId payload seq) := by
    rw [Reassembler.stored?]
    cases hget : r.buffers.get? messageId.toNat with
    | none => exact absurd hmem (by simp [h.absent hget])
    | some buf =>
      show (r.buffers.get? messageId.toNat).bind _ = _
      rw [hget, Option.bind_some]
      exact ((h.present buf hget).2.2 seq).trans (if_pos hmem)
  rw [Reassembler.addFragment, Reassembler.receive, validateFragment_fragmentOf hseq hmax]
  simp only [hstored, ne_eq, not_true_eq_false, if_false]

/-- The buffer a new fragment goes into. -/
theorem Collecting.bufferFor (h : Collecting messageId payload seen r) (createdAt : ℤ) (seq : ℕ) :
    StoredOf messageId payload seen
      (r.bufferFor createdAt (fragmentOf messageId payload seq)).1 := by
  cases hget : r.buffers.get? messageId.toNat with
  | none =>
    have hbuf : (r.bufferFor createdAt (fragmentOf messageId payload seq)).1
        = newBuffer createdAt (fragmentOf messageId payload seq) := by
      rw [Reassembler.bufferFor, show (fragmentOf messageId payload seq).messageId
        = messageId.toNat from rfl, hget]
    rw [hbuf, h.absent hget]
    exact ⟨rfl, rfl, fun _ => rfl⟩
  | some buf =>
    have hbuf : (r.bufferFor createdAt (fragmentOf messageId payload seq)).1 = buf := by
      rw [Reassembler.bufferFor, show (fragmentOf messageId payload seq).messageId
        = messageId.toNat from rfl, hget]
    rw [hbuf]
    exact h.present buf hget

theorem StoredOf.store {buf : ReassemblyBuffer} (h : StoredOf messageId payload seen buf)
    (seq : ℕ) (now : ℤ) :
    StoredOf messageId payload (insert seq seen)
      (buf.store now (fragmentOf messageId payload seq)) := by
  refine ⟨h.1, h.2.1, fun s => ?_⟩
  simp only [ReassemblyBuffer.store, OrderedMap.get?_set, h.2.2, Finset.mem_insert]
  by_cases hs : s = seq
  · simp [hs, fragmentOf]
  · simp [hs, show (fragmentOf messageId payload seq).sequence = seq from rfl]

/-- The message is assembled from all its chunks. -/
theorem StoredOf.assemble {buf : ReassemblyBuffer} (h : StoredOf messageId payload seen buf)
    (hall : ∀ seq < totalFragmentsOf payload, seq ∈ seen) :
    Fragmentation.assemble buf = .ok payload := by
  have hparts : ((List.range buf.expectedTotal).filterMap fun seq =>
      (buf.fragments.get? seq).map Fragment.data)
      = (List.range (totalFragmentsOf payload)).map (chunk payload) := by
    rw [h.1, ← List.filterMap_eq_map]
    refine List.filterMap_congr fun seq hseq => ?_
    rw [h.2.2, if_pos (hall seq (List.mem_range.mp hseq))]
    rfl
  rw [Fragmentation.assemble, h.2.1]
  simp only [hparts, flatten_chunks]

/-- Storing a fragment not seen before. -/
theorem Collecting.store (h : Collecting messageId payload seen r) {seq : ℕ}
    {buf : ReassemblyBuffer} {r' : Reassembler}
    (hadm : Reassembler.Admitted r (fragmentOf messageId payload seq) buf r')
    (hbuf : StoredOf messageId payload seen buf) (now : ℤ) :
    Collecting messageId payload (insert seq seen)
      (r'.store now (fragmentOf messageId payload seq) buf) := by
  have hacc := hadm.store_accounted h.accounted now
  rw [hadm.store_eq] at hacc ⊢
  refine ⟨hacc, h.maxBufferBytes, h.maxConcurrentMessages, fun id hid => ?_, fun hnone => ?_,
    fun b hb => ?_⟩
  · exact (OrderedMap.get?_set_of_ne _ _ hid).trans (h.alone id hid)
  · exact absurd ((OrderedMap.get?_set_self _ _ _).symm.trans hnone) (by simp)
  · have hsame := (OrderedMap.get?_set_self r.buffers messageId.toNat
      (buf.store now (fragmentOf messageId payload seq))).symm.trans hb
    exact Option.some.inj hsame ▸ hbuf.store seq now

/-- A new fragment is admitted into the buffer of its message. -/
theorem Collecting.receive (h : Collecting messageId payload seen r) {seq : ℕ}
    (hseq : seq < totalFragmentsOf payload)
    (hmax : totalFragmentsOf payload ≤ maxFragmentsPerMessage)
    (hseen : seen.card ≤ maxFragmentsPerMessage) (hnew : seq ∉ seen) (createdAt : ℤ) :
    ∃ buf r', r.receive clampedSub createdAt (fragmentOf messageId payload seq)
        = (.admitted buf, r') ∧
      Reassembler.Admitted r (fragmentOf messageId payload seq) buf r' ∧
      StoredOf messageId payload seen buf := by
  have hbuf := h.bufferFor createdAt seq
  have hcheck : Reassembler.checkFragment
      (r.bufferFor createdAt (fragmentOf messageId payload seq)).1
      (fragmentOf messageId payload seq)
      = .ok (r.bufferFor createdAt (fragmentOf messageId payload seq)).1 := by
    rw [Reassembler.checkFragment]
    exact if_neg (not_not.mpr hbuf.1.symm)
  have hfresh : ∀ b, r.buffers.get? messageId.toNat = some b → b.fragments.get? seq = none :=
    fun b hb => ((h.present b hb).2.2 seq).trans (if_neg hnew)
  have hstored : r.stored? (fragmentOf messageId payload seq) = none := by
    show (r.buffers.get? messageId.toNat).bind _ = none
    cases hget : r.buffers.get? messageId.toNat with
    | none => rfl
    | some b => exact hfresh b hget
  refine ⟨_, _, ?_, Reassembler.admitted_of_check h.accounted hseq hfresh hcheck, hbuf⟩
  rw [Reassembler.receive, validateFragment_fragmentOf hseq hmax]
  simp only [hstored, ensureCapacity_of_room (h.room hseen seq), hcheck]

/-- What a fragment not seen before does: while another one is missing it is stored, and the last
one missing returns the message. -/
theorem Collecting.addFragment_new (h : Collecting messageId payload seen r) {seq : ℕ}
    (hseq : seq < totalFragmentsOf payload)
    (hmax : totalFragmentsOf payload ≤ maxFragmentsPerMessage)
    (hsub : seen ⊆ Finset.range (totalFragmentsOf payload)) (hnew : seq ∉ seen)
    (createdAt now : ℤ) :
    (insert seq seen ≠ Finset.range (totalFragmentsOf payload) →
      ∃ r', Collecting messageId payload (insert seq seen) r' ∧
        r.addFragment clampedSub createdAt now (fragmentOf messageId payload seq)
          = (.ok none, r')) ∧
    (insert seq seen = Finset.range (totalFragmentsOf payload) →
      (r.addFragment clampedSub createdAt now (fragmentOf messageId payload seq)).1
        = .ok (some payload)) := by
  have hcard : seen.card ≤ maxFragmentsPerMessage := by
    have hle := Finset.card_le_card hsub
    rw [Finset.card_range] at hle
    exact hle.trans hmax
  obtain ⟨buf, r', hreceive, hadm, hbuf⟩ := h.receive hseq hmax hcard hnew createdAt
  have hstored := hbuf.store seq now
  have hcount := (hadm.accounted.store hadm.fresh hadm.below now).count
  rw [hstored.size_eq] at hcount
  have hcomplete : bufferIsComplete (buf.store now (fragmentOf messageId payload seq))
      = decide ((insert seq seen).card = totalFragmentsOf payload) := by
    rw [bufferIsComplete, hstored.2.1, hcount, hstored.1]
  have hadd : r.addFragment clampedSub createdAt now (fragmentOf messageId payload seq)
      = (r'.store now (fragmentOf messageId payload seq) buf).finish clampedSub messageId.toNat
          (buf.store now (fragmentOf messageId payload seq)) := by
    rw [Reassembler.addFragment, hreceive]
    rfl
  refine ⟨fun hmissing => ⟨_, h.store hadm hbuf now, ?_⟩, fun hall => ?_⟩
  · have hinsert : insert seq seen ⊆ Finset.range (totalFragmentsOf payload) :=
      Finset.insert_subset (Finset.mem_range.mpr hseq) hsub
    have hlt : (insert seq seen).card ≠ totalFragmentsOf payload := fun heq =>
      hmissing (Finset.eq_of_subset_of_card_le hinsert (by rw [Finset.card_range, heq]))
    rw [hadd, Reassembler.finish, hcomplete, if_neg (by simpa using hlt)]
  · have hassemble := hstored.assemble fun s hs => hall ▸ Finset.mem_range.mpr hs
    rw [hadd, Reassembler.finish, hcomplete, hall, Finset.card_range, if_pos (by simp), hassemble]
    rfl

end Collecting

/-! ### Any order, any repetitions -/

section Arrivals

variable {messageId : UInt64} {payload : Bytes}

/-- As long as a fragment is missing nothing is returned, and the reassembler goes on collecting. -/
theorem Collecting.feed (hmax : totalFragmentsOf payload ≤ maxFragmentsPerMessage)
    {missing : ℕ} (hmissing : missing < totalFragmentsOf payload) (arrivals rest : List Arrival)
    (harrivals : ∀ a ∈ arrivals, ∃ seq < totalFragmentsOf payload, seq ≠ missing ∧
      a.fragment = fragmentOf messageId payload seq)
    {seen : Finset ℕ} {r : Reassembler} (h : Collecting messageId payload seen r)
    (hsub : seen ⊆ Finset.range (totalFragmentsOf payload)) (hnot : missing ∉ seen) :
    ∃ seen' r', Collecting messageId payload seen' r' ∧
      seen' ⊆ Finset.range (totalFragmentsOf payload) ∧ missing ∉ seen' ∧ seen ⊆ seen' ∧
      (∀ a ∈ arrivals, a.fragment.sequence ∈ seen') ∧
      Client.feed r (arrivals ++ rest)
        = List.replicate arrivals.length (.ok none) ++ Client.feed r' rest := by
  induction arrivals generalizing seen r with
  | nil => exact ⟨seen, r, h, hsub, hnot, subset_rfl, by simp, rfl⟩
  | cons a arrivals ih =>
    obtain ⟨seq, hseq, hne, hfrag⟩ := harrivals a List.mem_cons_self
    have hrest := fun b hb => harrivals b (List.mem_cons_of_mem a hb)
    -- one arrival: seen before or not, the missing fragment is still missing
    obtain ⟨r', hcollecting, hadd⟩ : ∃ r', Collecting messageId payload (insert seq seen) r' ∧
        r.addFragment clampedSub a.createdAt a.now a.fragment = (.ok none, r') := by
      rw [hfrag]
      by_cases hmem : seq ∈ seen
      · rw [Finset.insert_eq_of_mem hmem]
        exact ⟨r, h, h.addFragment_seen hseq hmax hmem _ _⟩
      · refine (h.addFragment_new hseq hmax hsub hmem _ _).1 fun hall => ?_
        have hin : missing ∈ insert seq seen := hall ▸ Finset.mem_range.mpr hmissing
        exact (Finset.mem_insert.mp hin).elim (fun heq => hne heq.symm) hnot
    have hnot' : missing ∉ insert seq seen := fun hin =>
      (Finset.mem_insert.mp hin).elim (fun heq => hne heq.symm) hnot
    obtain ⟨seen', r'', hcollecting', hsub', hnot'', hmono, hall, hfeed⟩ := ih hrest hcollecting
      (Finset.insert_subset (Finset.mem_range.mpr hseq) hsub) hnot'
    refine ⟨seen', r'', hcollecting', hsub', hnot'',
      (Finset.subset_insert _ _).trans hmono, fun b hb => ?_, ?_⟩
    · rcases List.mem_cons.mp hb with rfl | hb
      · rw [hfrag]
        exact hmono (Finset.mem_insert_self _ _)
      · exact hall b hb
    · rw [List.cons_append, Client.feed, hadd]
      simp only [hfeed]
      rfl

/-- The last fragment missing returns the payload. -/
theorem feed_fragments (hmax : totalFragmentsOf payload ≤ maxFragmentsPerMessage)
    {arrivals : List Arrival} {last : Arrival} {missing : ℕ}
    (hmissing : missing < totalFragmentsOf payload)
    (hlast : last.fragment = fragmentOf messageId payload missing)
    (harrivals : ∀ a ∈ arrivals, ∃ seq < totalFragmentsOf payload, seq ≠ missing ∧
      a.fragment = fragmentOf messageId payload seq)
    (hall : ∀ seq < totalFragmentsOf payload, seq ≠ missing →
      ∃ a ∈ arrivals, a.fragment.sequence = seq) :
    feed defaultReassembler (arrivals ++ [last])
      = List.replicate arrivals.length (.ok none) ++ [.ok (some payload)] := by
  obtain ⟨seen, r, hcollecting, hsub, hnot, -, hmem, hfeed⟩ := collecting_default.feed hmax hmissing
    arrivals [last] harrivals (Finset.empty_subset _) (Finset.notMem_empty _)
  have hseen : insert missing seen = Finset.range (totalFragmentsOf payload) := by
    refine Finset.Subset.antisymm
      (Finset.insert_subset (Finset.mem_range.mpr hmissing) hsub) fun seq hseq => ?_
    by_cases hne : seq = missing
    · exact hne ▸ Finset.mem_insert_self _ _
    · obtain ⟨a, ha, rfl⟩ := hall seq (Finset.mem_range.mp hseq) hne
      exact Finset.mem_insert_of_mem (hmem a ha)
  have hdone :=
    (hcollecting.addFragment_new hmissing hmax hsub hnot last.createdAt last.now).2 hseen
  rw [hfeed, feed, hlast, hdone]
  rfl

/-- The payloads handed to the packet builder, whatever it does with them. -/
theorem packetsFor_eq_mapM {β : Type} (build : Bytes → Except Thrown β) :
    packetsFor build messageId payload
      = (if payload.length ≤ maxPayloadSize then [payload]
          else (List.range (totalFragmentsOf payload)).map (fragBytes messageId payload)).mapM
        build := by
  rw [packetsFor]
  by_cases hsmall : payload.length ≤ maxPayloadSize
  · rw [if_pos hsmall, if_pos hsmall, List.mapM_cons]
    rfl
  · rw [if_neg hsmall, if_neg hsmall, List.mapM_map]
    rfl

end Arrivals

/-- Oversized requests survive fragmentation. Every payload handed to the packet builder fits;
a payload that fits is sent as it is; and the packets of any other one decode to fragments
which, in any order and with any repetitions, a fresh default reassembler answers with
nothing until the last one that was missing, and then with the payload.

A packet is its chunk and a fixed overhead, so its length is bounded by that of a chunk, and it
decodes to the fragment that it was made of (`decode_fragBytes`). A reassembler that was fed all
fragments but one is complete with that one (`feed_fragments`). -/
theorem packetsFor_reassembles (messageId : UInt64) (payload : Bytes)
    (hmax : totalFragmentsOf payload ≤ maxFragmentsPerMessage) :
    ∃ payloads : List Bytes,
      (∀ (β : Type) (build : Bytes → Except Thrown β),
        packetsFor build messageId payload = payloads.mapM build) ∧
      (∀ p ∈ payloads, p.length ≤ maxPayloadSize) ∧
      (payload.length ≤ maxPayloadSize → payloads = [payload]) ∧
      (maxPayloadSize < payload.length → ∃ fragments : List Fragment,
        payloads.map decodeRelayerPayload = fragments.map (fun f => .ok (.fragment f)) ∧
        Restores fragments payload) := by
  refine ⟨_, fun β build => packetsFor_eq_mapM build, fun p hp => ?_, fun hsmall => if_pos hsmall,
    fun hlarge => ?_⟩
  · split_ifs at hp with hsmall
    · rwa [List.mem_singleton.mp hp]
    · obtain ⟨seq, -, rfl⟩ := List.mem_map.mp hp
      have hlen := length_chunk_le payload seq
      rw [length_fragBytes]
      simp only [chunkSize, maxPayloadSize, fragOverhead] at hlen ⊢
      omega
  · rw [if_neg (not_le.mpr hlarge)]
    refine ⟨(List.range (totalFragmentsOf payload)).map (fragmentOf messageId payload), ?_,
      fun arrivals last harrivals hlast hfresh hall => ?_⟩
    · rw [List.map_map, List.map_map]
      exact List.map_congr_left fun seq hseq => decode_fragBytes (List.mem_range.mp hseq) hmax
    · obtain ⟨missing, hmissing, hlast⟩ := List.mem_map.mp hlast
      refine feed_fragments hmax (List.mem_range.mp hmissing) hlast.symm (fun a ha => ?_)
        fun seq hseq hne => ?_
      · obtain ⟨seq, hseq, hfrag⟩ := List.mem_map.mp (harrivals a ha)
        refine ⟨seq, List.mem_range.mp hseq, ?_, hfrag.symm⟩
        rintro rfl
        exact hfresh (List.mem_map.mpr ⟨a, ha, hfrag.symm.trans hlast⟩)
      · have hmem := hall (fragmentOf messageId payload seq)
          (List.mem_map.mpr ⟨seq, List.mem_range.mpr hseq, rfl⟩)
        rcases hmem with heq | hmem
        · exact absurd (congrArg Fragment.sequence (heq.trans hlast.symm)) hne
        · obtain ⟨a, ha, hfrag⟩ := List.mem_map.mp hmem
          exact ⟨a, ha, congrArg Fragment.sequence hfrag⟩

/-- A payload of 40 000 bytes takes two packets. -/
theorem packetsFor_reassembles_two :
    ∃ payloads : List Bytes,
      (∀ (β : Type) (build : Bytes → Except Thrown β),
        packetsFor build 7 (List.replicate 40000 1) = payloads.mapM build) ∧
      (∀ p ∈ payloads, p.length ≤ maxPayloadSize) ∧
      ((List.replicate 40000 (1 : UInt8)).length ≤ maxPayloadSize →
        payloads = [List.replicate 40000 1]) ∧
      (maxPayloadSize < (List.replicate 40000 (1 : UInt8)).length → ∃ fragments : List Fragment,
        payloads.map decodeRelayerPayload = fragments.map (fun f => .ok (.fragment f)) ∧
        Restores fragments (List.replicate 40000 1)) :=
  packetsFor_reassembles 7 (List.replicate 40000 1) (by
    rw [totalFragmentsOf, List.length_replicate]
    decide)

end NoxSdk.Client
