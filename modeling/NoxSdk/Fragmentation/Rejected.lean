import NoxSdk.Fragmentation.Eviction

/-!
# What a rejected fragment leaves

`addFragment` checks a fragment in two places. The bounds of its fields and the bytes of a stored
duplicate are compared before anything else happens; `totalFragments` and the FEC info are
compared with the buffer of the message, which the code looks up after `ensureCapacity` has made
room for the fragment. A fragment refused in the second place has evicted other messages by then,
unless there was room (`rejected_fragment_unchanged_iff`).
-/

namespace NoxSdk.Fragmentation

namespace Reassembler

variable {r : Reassembler} {f : Fragment} {createdAt now : ℤ} {e : Thrown}

/-- The fragment is decided before room is made: its fields are invalid, or a fragment is stored
under its message and sequence. -/
def DecidedFirst (r : Reassembler) (f : Fragment) : Prop :=
  validateFragment f ≠ .ok () ∨ (r.stored? f).isSome

theorem DecidedFirst.receive_eq (h : DecidedFirst r f) :
    (r.receive clampedSub createdAt f).2 = r := by
  rw [receive]
  cases hvalid : validateFragment f with
  | error e => rfl
  | ok _ =>
    obtain ⟨stored, hstored⟩ := Option.isSome_iff_exists.mp (h.resolve_left (not_not.mpr hvalid))
    simp only [hstored]
    split_ifs <;> rfl

/-- A fragment that is refused later has made room by then, and nothing else. -/
theorem receive_of_not_decidedFirst (h : ¬ DecidedFirst r f)
    (hrefused : (r.receive clampedSub createdAt f).1 = .refused e) :
    (r.receive clampedSub createdAt f).2 =
      r.ensureCapacity clampedSub (estimateFragmentSize f) := by
  obtain ⟨hvalid, hstored⟩ := not_or.mp h
  rw [not_not] at hvalid
  rw [Bool.not_eq_true, Option.isSome_eq_false_iff, Option.isNone_iff_eq_none] at hstored
  rw [receive, hvalid, hstored] at hrefused ⊢
  simp only at hrefused ⊢
  cases hcheck : checkFragment
    ((r.ensureCapacity clampedSub (estimateFragmentSize f)).bufferFor createdAt f).1 f with
  | ok buf =>
    rw [hcheck] at hrefused
    cases hrefused
  | error e' =>
    -- a new buffer passes the checks, so the message was buffered after room was made
    simp only
    rw [bufferFor]
    split
    · rfl
    · rename_i hnone
      obtain ⟨buf, hok⟩ := checkFragment_newBuffer createdAt f
      rw [bufferFor, hnone] at hcheck
      simp [hok] at hcheck

/-- A refused call ends in the state of `receive`. -/
theorem addFragment_of_refused (h : (r.receive clampedSub createdAt f).1 = .refused e) :
    r.addFragment clampedSub createdAt now f =
      (.error e, (r.receive clampedSub createdAt f).2) := by
  rw [addFragment]
  generalize r.receive clampedSub createdAt f = outcome at h
  obtain ⟨admission, r'⟩ := outcome
  obtain rfl : admission = .refused e := h
  rfl

/-- A fragment that `addFragment` rejects before its message is complete leaves the reassembler as
it was exactly if its fields are invalid, a fragment is stored in its place, or nothing has to be
evicted for it; else a buffered message is gone.

Of the refusals only those that are decided before `ensureCapacity` come in time; behind it a
message is evicted whenever there is no room, and the fragment is refused all the same
(`exists_evicted`). -/
theorem rejected_fragment_unchanged_iff (hr : r.Reachable) (createdAt now : ℤ) (f : Fragment)
    (hrefused : (r.receive clampedSub createdAt f).1 = .refused e) :
    (r.addFragment clampedSub createdAt now f).1 = .error e ∧
      ((r.addFragment clampedSub createdAt now f).2 = r ↔
        DecidedFirst r f ∨ ¬ r.overCapacity (estimateFragmentSize f)) ∧
      (¬ (DecidedFirst r f ∨ ¬ r.overCapacity (estimateFragmentSize f)) →
        ∃ id buf, r.buffers.get? id = some buf ∧
          (r.addFragment clampedSub createdAt now f).2.buffers.get? id = none) := by
  have hacc := hr.populated.accounted
  -- without the condition a message is evicted before the fragment is refused
  have hgone : ¬ (DecidedFirst r f ∨ ¬ r.overCapacity (estimateFragmentSize f)) →
      ∃ id buf, r.buffers.get? id = some buf ∧
        (r.addFragment clampedSub createdAt now f).2.buffers.get? id = none := by
    intro hcond
    obtain ⟨hlate, hover⟩ := not_or.mp hcond
    rw [addFragment_of_refused hrefused, receive_of_not_decidedFirst hlate hrefused]
    exact exists_evicted hacc (not_not.mp hover)
  refine ⟨by rw [addFragment_of_refused hrefused], ⟨fun hsame => ?_, fun hcond => ?_⟩, hgone⟩
  · by_contra hcond
    obtain ⟨id, buf, hget, hnone⟩ := hgone hcond
    rw [hsame, hget] at hnone
    cases hnone
  · rw [addFragment_of_refused hrefused]
    by_cases hfirst : DecidedFirst r f
    · exact hfirst.receive_eq
    · rw [receive_of_not_decidedFirst hfirst hrefused]
      exact ensureCapacity_of_not_overCapacity (hcond.resolve_left hfirst)

/-- The call was refused, as a test. -/
def isRefused : Admission → Bool
  | .refused _ => true
  | _ => false

theorem exists_of_isRefused {a : Admission} (h : isRefused a = true) : ∃ e, a = .refused e := by
  cases a with
  | refused e => exact ⟨e, rfl⟩
  | _ => cases h

/-- A fragment of message 8 with another total is refused at every limit tried here. -/
theorem sampleInterleaved_refused (limit : Limit) (h : limit = .finite 2 ∨ limit = .finite 3) :
    ∃ e, ((sampleInterleaved limit).receive clampedSub 4 ⟨8, 3, 1, [3], none⟩).1 =
      .refused e := by
  apply exists_of_isRefused
  obtain rfl | rfl := h <;> decide +kernel

/-- A fragment of message 8 with another total, while there is room. -/
theorem rejected_fragment_unchanged_three_messages :
    ((sampleInterleaved (.finite 3)).addFragment clampedSub 4 5 ⟨8, 3, 1, [3], none⟩).2 =
      sampleInterleaved (.finite 3) := by
  obtain ⟨e, he⟩ := sampleInterleaved_refused (.finite 3) (.inr rfl)
  have hiff := (rejected_fragment_unchanged_iff (sampleInterleaved_reachable _) 4 5
    ⟨8, 3, 1, [3], none⟩ he).2.1
  exact hiff.mpr (.inr (by decide +kernel))

/-- At a limit of two messages, that fragment is rejected after message 7 has been evicted. -/
theorem not_rejected_fragment_unchanged :
    (¬ ∀ (r : Reassembler) (createdAt now : ℤ) (f : Fragment) (e : Thrown), r.Reachable →
      (r.receive clampedSub createdAt f).1 = .refused e →
      (r.addFragment clampedSub createdAt now f).2 = r) ∧
    ((sampleInterleaved (.finite 2)).buffers.get? 7).isSome = true ∧
    ((sampleInterleaved (.finite 2)).addFragment clampedSub 4 5
      ⟨8, 3, 1, [3], none⟩).2.buffers.get? 7 = none := by
  have hgone : ((sampleInterleaved (.finite 2)).addFragment clampedSub 4 5
      ⟨8, 3, 1, [3], none⟩).2.buffers.get? 7 = none := by decide +kernel
  refine ⟨fun hall => ?_, by decide +kernel, hgone⟩
  obtain ⟨e, he⟩ := sampleInterleaved_refused (.finite 2) (.inl rfl)
  have hsame := hall (sampleInterleaved (.finite 2)) 4 5 ⟨8, 3, 1, [3], none⟩ e
    (sampleInterleaved_reachable _) he
  rw [hsame] at hgone
  cases hgone

end Reassembler

end NoxSdk.Fragmentation
