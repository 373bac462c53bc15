import NoxSdk.Fragmentation.Eviction

/-!
# How often a message is returned

The reassembler forgets a message when it returns it. A message without parity is complete only
once all its fragments have arrived, so none is left to come (`returned_once`). With parity any
`dataShardCount` fragments complete the message, and the ones that arrive later open a buffer of
their own, which may complete the message again (`not_returned_once`).

What a buffer of the message holds is tracked along the run by `Tracks`: fragments that have
arrived, under the totals and the FEC info of the message.
-/

namespace NoxSdk.Fragmentation

/-- The fragment of the message that a call adds. -/
def ReassemblerCall.fragmentOf (id : ℕ) : ReassemblerCall → Option Fragment
  | .addFragment _ _ f => if f.messageId = id then some f else none
  | .pruneStale _ _ => none

/-- The fragments of a message that a sequence of calls adds. -/
def added (id : ℕ) (calls : List ReassemblerCall) : List Fragment :=
  calls.filterMap (ReassemblerCall.fragmentOf id)

@[simp] theorem added_append (id : ℕ) (calls calls' : List ReassemblerCall) :
    added id (calls ++ calls') = added id calls ++ added id calls' := List.filterMap_append ..

/-- A fragment of a message of `total` fragments with this FEC info. -/
structure IsFragmentOf (total : ℕ) (fec : Option FecInfo) (f : Fragment) : Prop where
  valid : validateFragment f = .ok ()
  total : f.totalFragments = total
  fec : f.fec = fec

/-- Fragments of one message, none of them twice. -/
structure FragmentsOnce (total : ℕ) (fec : Option FecInfo) (fs : List Fragment) : Prop where
  fragments : ∀ f ∈ fs, IsFragmentOf total fec f
  nodup : (fs.map Fragment.sequence).Nodup

/-- How many fragments make the message complete. -/
def neededFragments (total : ℕ) : Option FecInfo → ℕ
  | none => total
  | some fec => fec.dataShardCount

namespace Reassembler

/-- The call returns the message. -/
def Returns (r : Reassembler) (id : ℕ) (call : ReassemblerCall) : Prop :=
  ∃ createdAt now f bytes, call = .addFragment createdAt now f ∧ f.messageId = id ∧
    (r.addFragment clampedSub createdAt now f).1 = .ok (some bytes)

/-- Once it has been returned, the message is not returned again and has no buffer. -/
def ReturnedOnce (id : ℕ) (r : Reassembler) (calls : List ReassemblerCall) : Prop :=
  ∀ before call after, calls = before ++ call :: after →
    (r.run clampedSub before).Returns id call → ∀ between rest, after = between ++ rest →
      (r.run clampedSub (before ++ call :: between)).buffers.get? id = none ∧
        ∀ call' rest', rest = call' :: rest' →
          ¬ (r.run clampedSub (before ++ call :: between)).Returns id call'

/-- How many fragments of a message are stored. -/
def storedCount (r : Reassembler) (id : ℕ) : ℕ :=
  (r.buffers.get? id).elim 0 fun buf => buf.fragments.size

/-- A fragment that arrives where all but one of the needed ones are stored, once room is made for
it, is the last of its message. -/
def LastCompletes (id needed : ℕ) (r : Reassembler) (calls : List ReassemblerCall) : Prop :=
  ∀ before createdAt now f after, calls = before ++ .addFragment createdAt now f :: after →
    f.messageId = id →
    needed ≤ ((r.run clampedSub before).ensureCapacity clampedSub
      (estimateFragmentSize f)).storedCount id + 1 →
    added id after = []

variable {r : Reassembler} {id total : ℕ} {fec : Option FecInfo}

/-! ### One call -/

theorem run_append (r : Reassembler) (calls calls' : List ReassemblerCall) :
    r.run clampedSub (calls ++ calls') = (r.run clampedSub calls).run clampedSub calls' :=
  List.foldl_append ..

theorem get?_dropBuffer_self (sub : ℤ → ℤ → ℤ) (r : Reassembler) (id : ℕ) :
    (r.dropBuffer sub id).buffers.get? id = none := by
  rw [dropBuffer]
  split
  · assumption
  · exact OrderedMap.get?_delete_self _ _

/-- The buffer of an admitted fragment is the one of its message after eviction, checked. -/
theorem checkFragment_of_admitted {createdAt : ℤ} {f : Fragment} {buf : ReassemblyBuffer}
    {r' : Reassembler} (h : r.receive clampedSub createdAt f = (.admitted buf, r')) :
    checkFragment ((r.ensureCapacity clampedSub (estimateFragmentSize f)).bufferFor
      createdAt f).1 f = .ok buf := by
  rw [receive] at h
  cases hvalid : validateFragment f with
  | error e =>
    rw [hvalid] at h
    cases h
  | ok _ =>
    rw [hvalid] at h
    cases hstored : r.stored? f with
    | some stored =>
      rw [hstored] at h
      simp only at h
      split_ifs at h <;> cases h
    | none =>
      rw [hstored] at h
      simp only at h
      cases hcheck : checkFragment ((r.ensureCapacity clampedSub
          (estimateFragmentSize f)).bufferFor createdAt f).1 f with
      | error e =>
        rw [hcheck] at h
        cases h
      | ok buf' =>
        rw [hcheck] at h
        obtain ⟨hbuf, -⟩ := Prod.mk.inj h
        rw [Admission.admitted.inj hbuf]

/-- A call that adds no fragment of the message opens no buffer for it. -/
theorem get?_apply_of_other (hr : r.Accounted) {call : ReassemblerCall}
    (hother : call.fragmentOf id = none) {buf : ReassemblyBuffer}
    (hget : (call.apply clampedSub r).buffers.get? id = some buf) :
    r.buffers.get? id = some buf := by
  cases call with
  | pruneStale now timeoutMs =>
    exact (foldl_dropBuffer_shrunk exactSub_clampedSub
      (r.staleIds now (timeoutMs.getD r.staleTimeoutMs)) hr).buffers id buf hget
  | addFragment createdAt now f =>
    have hne : id ≠ f.messageId := by
      rintro rfl
      simp [ReassemblerCall.fragmentOf] at hother
    obtain ⟨hshrunk, -⟩ := ensureCapacityLoop_spec exactSub_clampedSub
      (estimateFragmentSize f) _ hr le_rfl
    have hcase := receive_cases exactSub_clampedSub hr createdAt f
    simp only [ReassemblerCall.apply, addFragment] at hget
    generalize r.receive clampedSub createdAt f = outcome at hcase hget
    cases hcase with
    | refused e => exact hget
    | inconsistent e => exact hshrunk.buffers id buf hget
    | duplicate => exact hget
    | admitted b r' hadm =>
      simp only [get?_finish_of_ne clampedSub hne, hadm.store_eq,
        OrderedMap.get?_set_of_ne _ _ hne] at hget
      exact hshrunk.buffers id buf hget

/-! ### What the buffer of the message holds -/

/-- A buffer of the message: its total, its FEC info and only fragments that have arrived. -/
structure HoldsArrived (total : ℕ) (fec : Option FecInfo) (arrived : List ℕ)
    (buf : ReassemblyBuffer) : Prop where
  total : buf.expectedTotal = total
  fec : buf.fecInfo = fec
  arrived : ∀ seq f, buf.fragments.get? seq = some f → seq ∈ arrived

/-- What holds of the message `id` after its fragments `arrived` have been added. -/
structure Tracks (id total : ℕ) (fec : Option FecInfo) (arrived : List ℕ) (r : Reassembler) :
    Prop where
  populated : r.Populated
  buffer : ∀ buf, r.buffers.get? id = some buf → HoldsArrived total fec arrived buf

theorem new_tracks (config : ReassemblerConfig) (id total : ℕ) (fec : Option FecInfo) :
    Tracks id total fec [] (new config) :=
  ⟨new_populated config, by simp [new]⟩

/-- The buffer a fragment of the message is checked against, which the checks leave as it is. -/
theorem Tracks.checkFragment_eq {arrived : List ℕ} (h : Tracks id total fec arrived r)
    {f : Fragment} (hid : f.messageId = id) (hf : IsFragmentOf total fec f) (createdAt : ℤ)
    {buf : ReassemblyBuffer} (hcheck : checkFragment (r.bufferFor createdAt f).1 f = .ok buf) :
    HoldsArrived total fec arrived buf ∧ buf.fragments.size = r.storedCount id := by
  have hheld : HoldsArrived total fec arrived (r.bufferFor createdAt f).1 ∧
      (r.bufferFor createdAt f).1.fragments.size = r.storedCount id := by
    rw [bufferFor, storedCount, hid]
    cases hget : r.buffers.get? id with
    | some b => exact ⟨h.buffer b hget, rfl⟩
    | none => exact ⟨⟨hf.total, hf.fec, by simp [newBuffer]⟩, rfl⟩
  -- the FEC info of the buffer is that of the fragment, so nothing is written into it
  have hsame : buf = (r.bufferFor createdAt f).1 := by
    rw [checkFragment, if_neg (by rw [hf.total, hheld.1.total]; simp), hf.fec] at hcheck
    cases fec with
    | none => exact (Except.ok.inj hcheck).symm
    | some info =>
      rw [hheld.1.fec] at hcheck
      simp only [ne_eq, not_true_eq_false, or_self, if_false] at hcheck
      exact (Except.ok.inj hcheck).symm
  rw [hsame]
  exact hheld

theorem Tracks.shrunk {arrived : List ℕ} (h : Tracks id total fec arrived r) {r' : Reassembler}
    (hshrunk : Shrunk r r') : Tracks id total fec arrived r' :=
  ⟨h.populated.shrunk hshrunk, fun buf hget => h.buffer buf (hshrunk.buffers id buf hget)⟩

theorem HoldsArrived.mono {arrived arrived' : List ℕ} {buf : ReassemblyBuffer}
    (h : HoldsArrived total fec arrived buf) (hsub : arrived ⊆ arrived') :
    HoldsArrived total fec arrived' buf :=
  ⟨h.total, h.fec, fun seq f hget => hsub (h.arrived seq f hget)⟩

theorem HoldsArrived.store {arrived : List ℕ} {buf : ReassemblyBuffer}
    (h : HoldsArrived total fec arrived buf) (now : ℤ) (f : Fragment) :
    HoldsArrived total fec (arrived ++ [f.sequence]) (buf.store now f) := by
  refine ⟨h.total, h.fec, fun seq g hget => ?_⟩
  simp only [ReassemblyBuffer.store, OrderedMap.get?_set] at hget
  by_cases hseq : seq = f.sequence
  · simp [hseq]
  · rw [if_neg hseq] at hget
    exact List.mem_append_left _ (h.arrived seq g hget)

/-- One call keeps track of the message. -/
theorem Tracks.apply {arrived : List ℕ} (h : Tracks id total fec arrived r)
    (call : ReassemblerCall) (hcall : ∀ f, call.fragmentOf id = some f → IsFragmentOf total fec f) :
    Tracks id total fec (arrived ++ (added id [call]).map Fragment.sequence)
      (call.apply clampedSub r) := by
  refine ⟨h.populated.apply call, fun b hget => ?_⟩
  cases hother : call.fragmentOf id with
  | none =>
    exact (h.buffer b (get?_apply_of_other h.populated.accounted hother hget)).mono
      (List.subset_append_left _ _)
  | some f =>
    have hf := hcall f hother
    simp only [added, List.filterMap_cons, List.filterMap_nil, hother, List.map_cons,
      List.map_nil]
    cases call with
    | pruneStale now timeoutMs => cases hother
    | addFragment createdAt now g =>
      rw [ReassemblerCall.fragmentOf, Option.ite_none_right_eq_some, Option.some_inj] at hother
      obtain ⟨hid, rfl⟩ := hother
      obtain ⟨hshrunk, -⟩ := ensureCapacityLoop_spec exactSub_clampedSub
        (estimateFragmentSize g) _ h.populated.accounted le_rfl
      have hcase := receive_cases exactSub_clampedSub h.populated.accounted createdAt g
      have hadmitted := @checkFragment_of_admitted r createdAt g
      simp only [ReassemblerCall.apply, addFragment] at hget
      generalize r.receive clampedSub createdAt g = outcome at hcase hget hadmitted
      -- only an admitted fragment is stored; the other outcomes drop buffers at most
      cases hcase with
      | refused e => exact (h.buffer b hget).mono (List.subset_append_left _ _)
      | inconsistent e =>
        exact (h.buffer b (hshrunk.buffers id b hget)).mono (List.subset_append_left _ _)
      | duplicate => exact (h.buffer b hget).mono (List.subset_append_left _ _)
      | admitted buf r' hadm =>
        obtain ⟨hheld, -⟩ := (h.shrunk hshrunk).checkFragment_eq hid hf createdAt
          (hadmitted rfl)
        simp only [finish] at hget
        split_ifs at hget
        · rw [hid, get?_dropBuffer_self] at hget
          cases hget
        · rw [hadm.store_eq] at hget
          simp only [hid, OrderedMap.get?_set_self, Option.some_inj] at hget
          exact hget ▸ hheld.store now g

/-- A sequence of calls keeps track of the message. -/
theorem Tracks.run {arrived : List ℕ} (h : Tracks id total fec arrived r)
    (calls : List ReassemblerCall) (hcalls : ∀ f ∈ added id calls, IsFragmentOf total fec f) :
    Tracks id total fec (arrived ++ (added id calls).map Fragment.sequence)
      (r.run clampedSub calls) := by
  induction calls generalizing r arrived with
  | nil => simpa [added, Reassembler.run] using h
  | cons call calls ih =>
    have hsplit : added id (call :: calls) = added id [call] ++ added id calls :=
      added_append id [call] calls
    have hstep := h.apply call fun f hf => hcalls f
      (by rw [hsplit]; exact List.mem_append_left _ (by simp [added, hf]))
    have hrest := ih hstep fun f hf => hcalls f (by rw [hsplit]; exact List.mem_append_right _ hf)
    rw [hsplit, List.map_append, ← List.append_assoc]
    exact hrest

/-! ### The call that returns the message -/

/-- What a call that returns the message was given: a fragment that completes it. -/
theorem Tracks.of_returns {arrived : List ℕ} (h : Tracks id total fec arrived r)
    {call : ReassemblerCall} (hcall : ∀ f, call.fragmentOf id = some f → IsFragmentOf total fec f)
    (hreturns : r.Returns id call) :
    ∃ createdAt now f, call = .addFragment createdAt now f ∧ f.messageId = id ∧
      (call.apply clampedSub r).buffers.get? id = none ∧
      neededFragments total fec ≤
        (r.ensureCapacity clampedSub (estimateFragmentSize f)).storedCount id + 1 ∧
      ∃ buf : ReassemblyBuffer, buf.Accounted ∧ buf.fragments.size =
          (r.ensureCapacity clampedSub (estimateFragmentSize f)).storedCount id + 1 ∧
        HoldsArrived total fec (arrived ++ [f.sequence]) buf := by
  obtain ⟨createdAt, now, f, bytes, rfl, hid, hbytes⟩ := hreturns
  have hf := hcall f (by simp [ReassemblerCall.fragmentOf, hid])
  obtain ⟨hshrunk, -⟩ := ensureCapacityLoop_spec exactSub_clampedSub
    (estimateFragmentSize f) _ h.populated.accounted le_rfl
  have hcase := receive_cases exactSub_clampedSub h.populated.accounted createdAt f
  have hadmitted := @checkFragment_of_admitted r createdAt f
  refine ⟨createdAt, now, f, rfl, hid, ?_⟩
  simp only [ReassemblerCall.apply]
  rw [addFragment] at hbytes ⊢
  generalize r.receive clampedSub createdAt f = outcome at hcase hbytes hadmitted ⊢
  -- only a fragment that was stored completes a message
  cases hcase with
  | refused e => cases hbytes
  | inconsistent e => cases hbytes
  | duplicate => cases hbytes
  | admitted buf r' hadm =>
    obtain ⟨hheld, hcount⟩ := (h.shrunk hshrunk).checkFragment_eq hid hf createdAt (hadmitted rfl)
    have hstored := hadm.accounted.store hadm.fresh hadm.below now
    have hsize : (buf.store now f).fragments.size =
        (r.ensureCapacity clampedSub (estimateFragmentSize f)).storedCount id + 1 := by
      rw [ReassemblyBuffer.store, OrderedMap.size_set_of_not_has hadm.fresh, hcount]
      rfl
    simp only [finish] at hbytes ⊢
    split_ifs at hbytes ⊢ with hcomplete
    · refine ⟨by rw [hid, get?_dropBuffer_self], ?_, buf.store now f, hstored, hsize,
        hheld.store now f⟩
      rw [← hsize, ← hstored.count]
      simp only [bufferIsComplete, (hheld.store now f).fec, (hheld.store now f).total]
        at hcomplete
      cases fec with
      | none => exact (of_decide_eq_true hcomplete).ge
      | some info => exact of_decide_eq_true hcomplete
    · cases hbytes

/-- As many different fragments of a message as it has are all its fragments. -/
theorem HoldsArrived.all_arrived {arrived : List ℕ} {buf : ReassemblyBuffer}
    (h : HoldsArrived total fec arrived buf) (hacc : buf.Accounted)
    (hsize : total ≤ buf.fragments.size) {seq : ℕ} (hseq : seq < total) : seq ∈ arrived := by
  have hkeys : buf.fragments.keys.toFinset ⊆ Finset.range total := by
    intro k hk
    obtain ⟨f, hf⟩ := Option.isSome_iff_exists.mp
      (OrderedMap.has_iff.mpr (List.mem_toFinset.mp hk))
    exact Finset.mem_range.mpr (h.total ▸ hacc.below k f hf)
  have hcard : buf.fragments.keys.toFinset.card = buf.fragments.size := by
    rw [OrderedMap.keys, List.toFinset_card_of_nodup buf.fragments.nodup_keys, List.length_map,
      OrderedMap.size]
  have hall := Finset.eq_of_subset_of_card_le hkeys (by rw [hcard, Finset.card_range]; exact hsize)
  have hmem : seq ∈ buf.fragments.keys.toFinset := by
    rw [hall]
    exact Finset.mem_range.mpr hseq
  obtain ⟨f, hf⟩ := Option.isSome_iff_exists.mp
    (OrderedMap.has_iff.mpr (List.mem_toFinset.mp hmem))
  exact h.arrived seq f hf

/-- No call of a sequence without fragments of the message opens a buffer for it. -/
theorem get?_run_of_other (hr : r.Populated) (hget : r.buffers.get? id = none)
    {calls : List ReassemblerCall} (hother : added id calls = []) :
    (r.run clampedSub calls).buffers.get? id = none := by
  induction calls generalizing r with
  | nil => exact hget
  | cons call calls ih =>
    have hsplit : added id (call :: calls) = added id [call] ++ added id calls :=
      added_append id [call] calls
    rw [hsplit, List.append_eq_nil_iff] at hother
    have hcall : call.fragmentOf id = none := by
      cases hfragment : call.fragmentOf id with
      | none => rfl
      | some f => simp [added, hfragment] at hother
    refine ih (hr.apply call) ?_ hother.2
    rw [Option.eq_none_iff_forall_ne_some]
    intro buf hbuf
    rw [get?_apply_of_other hr.accounted hcall hbuf] at hget
    cases hget

/-- For every sequence of calls in which the fragments of a message are added once each, among
those of other messages: if the message has no parity, or the fragment that completes it is always
its last, then it is returned at most once and no buffer is left for it afterwards.

Up to the return the buffer of the message holds the fragments that were added (`new_tracks`). The
condition says that none is left to come: without parity all of them had to be there, and otherwise
it says so itself. So the buffer that the return dropped is not built again. -/
theorem returned_once (config : ReassemblerConfig) (calls : List ReassemblerCall) (id total : ℕ)
    (fec : Option FecInfo) (h : FragmentsOnce total fec (added id calls))
    (hcond : neededFragments total fec = total ∨
      LastCompletes id (neededFragments total fec) (new config) calls) :
    ReturnedOnce id (new config) calls := by
  intro before call after hcalls hreturns between rest hafter
  have hadded : added id calls = added id before ++ (added id [call] ++ added id after) := by
    rw [hcalls, added_append, ← added_append id [call] after]
    rfl
  have htracks := (new_tracks config id total fec).run before fun f hf =>
    h.fragments f (by rw [hadded]; exact List.mem_append_left _ hf)
  have hcall : ∀ f, call.fragmentOf id = some f → IsFragmentOf total fec f := fun f hf =>
    h.fragments f (by
      rw [hadded]
      exact List.mem_append_right _ (List.mem_append_left _ (by simp [added, hf])))
  obtain ⟨createdAt, now, f, rfl, hid, hnone, hneeded, buf, hacc, hsize, hheld⟩ :=
    htracks.of_returns hcall hreturns
  have hcallAdded : added id [.addFragment createdAt now f] = [f] := by
    simp [added, ReassemblerCall.fragmentOf, hid]
  -- no fragment of the message is left to come
  have hlast : added id after = [] := by
    rcases hcond with hall | hlast
    · -- without parity the buffer holds every fragment, and none is added twice
      rw [hall, ← hsize] at hneeded
      refine List.eq_nil_iff_forall_not_mem.mpr fun g hg => ?_
      have hg' : IsFragmentOf total fec g := h.fragments g (by
        rw [hadded]
        exact List.mem_append_right _ (List.mem_append_right _ hg))
      have hbelow : g.sequence < total := hg'.total ▸ validateFragment_ok hg'.valid
      have harrived := hheld.all_arrived hacc hneeded hbelow
      have hnodup := h.nodup
      rw [hadded, hcallAdded, ← List.append_assoc, List.map_append, List.nodup_append] at hnodup
      exact hnodup.2.2 g.sequence (by simpa using harrived) g.sequence
        (List.mem_map_of_mem hg) rfl
    · exact hlast before createdAt now f after hcalls hid hneeded
  rw [hafter, added_append, List.append_eq_nil_iff] at hlast
  have hpopulated := (htracks.apply _ hcall).populated
  have hgone := get?_run_of_other hpopulated hnone hlast.1
  rw [run_append]
  refine ⟨hgone, ?_⟩
  rintro call' rest' rfl ⟨createdAt', now', f', bytes', rfl, hid', -⟩
  simp [added, ReassemblerCall.fragmentOf, hid'] at hlast

/-- Two plain fragments of message 7 around one of message 8. -/
theorem returned_once_two_fragments :
    ReturnedOnce 7 (new ⟨none, none, none⟩)
      [.addFragment 0 1 ⟨7, 2, 1, [2], none⟩, .addFragment 2 3 ⟨8, 1, 0, [9], none⟩,
        .addFragment 4 5 ⟨7, 2, 0, [1], none⟩] :=
  returned_once ⟨none, none, none⟩ _ 7 2 none
    ⟨by rintro f hf
        have hcases : f = ⟨7, 2, 1, [2], none⟩ ∨ f = ⟨7, 2, 0, [1], none⟩ := by
          simpa [added, ReassemblerCall.fragmentOf] using hf
        rcases hcases with rfl | rfl <;> exact ⟨rfl, rfl, rfl⟩, by decide⟩ (.inl rfl)

/-- Two data fragments of message 7 and one of parity, in order. -/
def sampleParityCalls : List ReassemblerCall :=
  [.addFragment 0 1 ⟨7, 3, 0, [5], some ⟨2, 2⟩⟩, .addFragment 2 3 ⟨7, 3, 1, [6], some ⟨2, 2⟩⟩,
    .addFragment 4 5 ⟨7, 3, 2, [4], some ⟨2, 2⟩⟩]

theorem sampleParityCalls_fragmentsOnce :
    FragmentsOnce 3 (some ⟨2, 2⟩) (added 7 sampleParityCalls) := by
  refine ⟨fun f hf => ?_, by decide⟩
  have hcases : f = ⟨7, 3, 0, [5], some ⟨2, 2⟩⟩ ∨ f = ⟨7, 3, 1, [6], some ⟨2, 2⟩⟩ ∨
      f = ⟨7, 3, 2, [4], some ⟨2, 2⟩⟩ := by
    simpa [added, ReassemblerCall.fragmentOf, sampleParityCalls] using hf
  rcases hcases with rfl | rfl | rfl <;> exact ⟨rfl, rfl, rfl⟩

/-- The parity fragment of that message leaves a buffer behind. Where a message has one data
fragment, the parity fragment returns it a second time. -/
theorem not_returned_once :
    (¬ ∀ (config : ReassemblerConfig) (calls : List ReassemblerCall) (id total : ℕ)
      (fec : Option FecInfo), FragmentsOnce total fec (added id calls) →
      (∀ seq < total, seq ∈ (added id calls).map Fragment.sequence) →
      ReturnedOnce id (new config) calls) ∧
    ((new ⟨none, none, none⟩).run clampedSub sampleParityCalls).storedCount 7 = 1 ∧
    ((new ⟨none, none, none⟩).addFragment clampedSub 0 1
      ⟨7, 2, 0, [6], some ⟨1, 1⟩⟩).1 = .ok (some [6]) ∧
    (((new ⟨none, none, none⟩).addFragment clampedSub 0 1
      ⟨7, 2, 0, [6], some ⟨1, 1⟩⟩).2.addFragment clampedSub 2 3
        ⟨7, 2, 1, [6], some ⟨1, 1⟩⟩).1 = .ok (some [6]) := by
  refine ⟨fun hall => ?_, rfl, rfl, by decide +kernel⟩
  have honce := hall ⟨none, none, none⟩ sampleParityCalls 7 3 (some ⟨2, 2⟩)
    sampleParityCalls_fragmentsOnce (by decide)
  -- the second call returns the message, the third stores its fragment in a new buffer
  have hgone := (honce (sampleParityCalls.take 1) _ (sampleParityCalls.drop 2) rfl
    ⟨2, 3, ⟨7, 3, 1, [6], some ⟨2, 2⟩⟩, [5, 6], rfl, rfl, rfl⟩
    [.addFragment 4 5 ⟨7, 3, 2, [4], some ⟨2, 2⟩⟩] [] rfl).1
  cases hgone

end Reassembler

end NoxSdk.Fragmentation
