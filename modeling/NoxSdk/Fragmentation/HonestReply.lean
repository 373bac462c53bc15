import NoxSdk.Fragmentation.Once
import NoxSdk.Fragmentation.Reconstruct

/-!
# Replies that are split honestly

A reply is split into parts of one size, the last of which may be smaller, or into the shards of a
code that names its length. Every part bounds the size of an even split from below
(`EvenSplit.bound`), the last one too, and a reassembler that was given nothing but fragments of
the reply returns no more than its size (`HoldsReply.addFragment`).
-/

namespace NoxSdk.Fragmentation

/-- All parts but the last are of one size and the last is not larger. -/
def EvenSplit (parts : List Bytes) : Prop :=
  ∃ size, (∀ part ∈ parts.dropLast, part.length = size) ∧
    ∀ part ∈ parts.getLast?, part.length ≤ size

/-- A reply as the exit splits it. -/
structure HonestReply where
  messageId : ℕ
  size : ℕ
  parts : List Bytes
  fec : Option FecInfo
  even : fec = none → EvenSplit parts ∧ parts.flatten.length = size
  coded : ∀ info, fec = some info → info.originalDataLen = size

/-- A fragment of the reply. -/
structure HonestReply.Sends (reply : HonestReply) (f : Fragment) : Prop where
  messageId : f.messageId = reply.messageId
  total : f.totalFragments = reply.parts.length
  fec : f.fec = reply.fec
  part : reply.parts[f.sequence]? = some f.data

/-! ### The early bound -/

section Bounds

variable {reply : HonestReply} {f : Fragment} {parts : List Bytes}

/-- Every part but the last as often as there are parts before the last is within the reply. -/
theorem EvenSplit.bound (h : EvenSplit parts) {part : Bytes} (hpart : part ∈ parts) :
    (parts.length - 1) * part.length ≤ parts.flatten.length := by
  obtain ⟨size, hfront, hlast⟩ := h
  obtain rfl | ⟨front, last, rfl⟩ := parts.eq_nil_or_concat'
  · cases hpart
  rw [List.dropLast_concat] at hfront
  have hsize : part.length ≤ size := by
    obtain hmem | hmem := List.mem_append.mp hpart
    · exact (hfront part hmem).le
    · obtain rfl := List.mem_singleton.mp hmem
      exact hlast part (by rw [List.getLast?_concat]; rfl)
  calc ((front ++ [last]).length - 1) * part.length
      = front.length * part.length := by rw [List.length_append, List.length_singleton,
        Nat.add_sub_cancel]
    _ ≤ front.length * size := Nat.mul_le_mul_left _ hsize
    _ = front.flatten.length := (length_flatten_uniform hfront).symm
    _ ≤ (front ++ [last]).flatten.length := by
      rw [List.flatten_append, List.length_append]
      exact Nat.le_add_right _ _

end Bounds

/-! ### What comes out -/

/-- The decoder returns at most the original length. -/
theorem length_decodeShards_le {shards : Shards} {dataShardCount originalDataLen : ℕ}
    {data : Bytes} (h : decodeShards shards dataShardCount originalDataLen = .ok data) :
    data.length ≤ originalDataLen := by
  simp only [decodeShards, throw_eq_error, error_bind, pure_eq_ok] at h
  split_ifs at h
  · obtain rfl := Except.ok.inj h
    rw [copyShards_eq, List.length_take]
    exact min_le_left _ _
  · obtain ⟨reconstructed, -, h⟩ := bind_eq_ok_iff.mp h
    obtain rfl := Except.ok.inj h
    rw [List.length_append, List.length_replicate, copyShards_eq, List.length_take]
    omega

/-- Fewer hits of a partial function give a part of the list. -/
theorem filterMap_sublist {α β : Type*} {l : List α} {g g' : α → Option β}
    (h : ∀ x ∈ l, ∀ y, g x = some y → g' x = some y) :
    (l.filterMap g).Sublist (l.filterMap g') := by
  induction l with
  | nil => exact .slnil
  | cons x l ih =>
    have hrest := ih fun x hx => h x (List.mem_cons_of_mem _ hx)
    cases hx : g x with
    | none =>
      rw [List.filterMap_cons_none hx]
      exact hrest.trans ((List.sublist_cons_self x l).filterMap g')
    | some y =>
      rw [List.filterMap_cons_some hx, List.filterMap_cons_some (h x List.mem_cons_self y hx)]
      exact hrest.cons_cons y

theorem filterMap_range_getElem? {α : Type*} (l : List α) :
    (List.range l.length).filterMap (fun i => l[i]?) = l := by
  induction l with
  | nil => rfl
  | cons x l ih =>
    have hfirst : (x :: l)[0]? = some x := rfl
    rw [List.length_cons, List.range_succ_eq_map, List.filterMap_cons_some hfirst,
      List.filterMap_map]
    exact congrArg (x :: ·) ih

namespace Reassembler

variable {reply : HonestReply} {f : Fragment} {buf : ReassemblyBuffer} {r r' : Reassembler}
  {createdAt now : ℤ}

/-- A buffer that holds parts of the reply. -/
structure HoldsParts (reply : HonestReply) (buf : ReassemblyBuffer) : Prop where
  total : buf.expectedTotal = reply.parts.length
  fec : buf.fecInfo = reply.fec
  parts : ∀ seq g, buf.fragments.get? seq = some g → reply.parts[seq]? = some g.data

/-- A reassembler whose buffer of the reply holds parts of it. -/
structure HoldsReply (reply : HonestReply) (r : Reassembler) : Prop where
  accounted : r.Accounted
  buffer : ∀ buf, r.buffers.get? reply.messageId = some buf → HoldsParts reply buf

theorem new_holdsReply (config : ReassemblerConfig) (reply : HonestReply) :
    HoldsReply reply (new config) :=
  ⟨⟨by simp [new], rfl⟩, by simp [new]⟩

theorem HoldsReply.shrunk (h : HoldsReply reply r) (hshrunk : Shrunk r r') :
    HoldsReply reply r' :=
  ⟨hshrunk.accounted, fun buf hget => h.buffer buf (hshrunk.buffers _ buf hget)⟩

theorem HoldsParts.store (h : HoldsParts reply buf) (hf : reply.Sends f) (now : ℤ) :
    HoldsParts reply (buf.store now f) := by
  refine ⟨h.total, h.fec, fun seq g hget => ?_⟩
  simp only [ReassemblyBuffer.store, OrderedMap.get?_set] at hget
  split_ifs at hget with hseq
  · obtain rfl := Option.some.inj hget
    exact hseq ▸ hf.part
  · exact h.parts seq g hget

/-- The parts found are a sublist of the reply. -/
theorem HoldsParts.length_assemble_le (h : HoldsParts reply buf) {data : Bytes}
    (hassemble : assemble buf = .ok data) : data.length ≤ reply.size := by
  rw [assemble, h.fec] at hassemble
  cases hfec : reply.fec with
  | some info =>
    rw [hfec] at hassemble
    exact (length_decodeShards_le hassemble).trans (reply.coded info hfec).le
  | none =>
    rw [hfec] at hassemble
    obtain rfl := Except.ok.inj hassemble
    rw [← (reply.even hfec).2, h.total]
    have hparts : ((List.range reply.parts.length).filterMap fun seq =>
        (buf.fragments.get? seq).map Fragment.data).Sublist reply.parts := by
      conv_rhs => rw [← filterMap_range_getElem? reply.parts]
      refine filterMap_sublist fun seq _ data hdata => ?_
      obtain ⟨g, hget, rfl⟩ := Option.map_eq_some_iff.mp hdata
      exact h.parts seq g hget
    exact hparts.flatten.length_le

/-- The buffer that a fragment of the reply is checked against, which the checks leave as it is. -/
theorem HoldsReply.checkFragment_eq (h : HoldsReply reply r) (hf : reply.Sends f)
    (hcheck : checkFragment (r.bufferFor createdAt f).1 f = .ok buf) : HoldsParts reply buf := by
  have hheld : HoldsParts reply (r.bufferFor createdAt f).1 := by
    rw [bufferFor, hf.messageId]
    cases hget : r.buffers.get? reply.messageId with
    | some b => exact h.buffer b hget
    | none => exact ⟨hf.total, hf.fec, by simp [newBuffer]⟩
  rw [checkFragment, if_neg (by rw [hf.total, hheld.total]; simp),
    hf.fec] at hcheck
  cases hfec : reply.fec with
  | none =>
    rw [hfec] at hcheck
    exact Except.ok.inj hcheck ▸ hheld
  | some info =>
    rw [hfec, hheld.fec, hfec] at hcheck
    simp only [ne_eq, not_true_eq_false, or_self, if_false] at hcheck
    exact Except.ok.inj hcheck ▸ hheld

/-- A fragment of the reply leaves parts of it, and what it completes is no longer than it. -/
theorem HoldsReply.addFragment (h : HoldsReply reply r) (hf : reply.Sends f)
    (createdAt now : ℤ) :
    HoldsReply reply (r.addFragment clampedSub createdAt now f).2 ∧
      ∀ data, (r.addFragment clampedSub createdAt now f).1 = .ok (some data) →
        data.length ≤ reply.size := by
  obtain ⟨hshrunk, -⟩ := ensureCapacityLoop_spec exactSub_clampedSub
    (estimateFragmentSize f) _ h.accounted le_rfl
  have hcase := receive_cases exactSub_clampedSub h.accounted createdAt f
  have hadmitted := @checkFragment_of_admitted r createdAt f
  simp only [Reassembler.addFragment]
  generalize r.receive clampedSub createdAt f = outcome at hcase hadmitted
  cases hcase with
  | refused e => exact ⟨h, by simp⟩
  | inconsistent e => exact ⟨h.shrunk hshrunk, by simp⟩
  | duplicate => exact ⟨h, by simp⟩
  | admitted buf r' hadm =>
    have hheld : HoldsParts reply (buf.store now f) :=
      ((h.shrunk hshrunk).checkFragment_eq hf (hadmitted rfl)).store hf now
    have hstored : HoldsReply reply (r'.store now f buf) := by
      refine ⟨hadm.store_accounted hshrunk.accounted now, fun b hget => ?_⟩
      rw [hadm.store_eq, hf.messageId] at hget
      simp only [OrderedMap.get?_set_self, Option.some_inj] at hget
      exact hget ▸ hheld
    simp only [finish]
    split_ifs
    · refine ⟨hstored.shrunk (dropBuffer_shrunk exactSub_clampedSub hstored.accounted _), ?_⟩
      intro data hdata
      cases hassemble : assemble (buf.store now f) with
      | error thrown =>
        rw [hassemble] at hdata
        cases hdata
      | ok found =>
        rw [hassemble] at hdata
        obtain rfl := Option.some.inj (Except.ok.inj hdata)
        exact hheld.length_assemble_le hassemble
    · exact ⟨hstored, by simp⟩

end Reassembler

end NoxSdk.Fragmentation
