import NoxSdk.Lib.Slices
import NoxSdk.Tls.Tunnel

/-!
# Tunnel bytes in order

Whatever parts of a downstream stream come, in whatever order, `deliver` is handed the stream once
and in order, up to the point to which the parts cover it: `receiveAll_delivers`. The loop over the
held parts takes parts out while it goes over them, and ends when each that is left lies beyond a
gap; a part that is shorter than another at its offset may be dropped, since it covers no more.
-/

namespace NoxSdk.Tls

open NoxSdk.Lib NoxSdk.Bincode

/-- The piece of the stream that a part carries. -/
def pieceOf (part : TunnelPartV1) : ℕ × Bytes := (part.offset, part.data)

namespace Downstream

variable {S : ℕ → UInt8} {deliver : Deliver} {stream stream' : Downstream}
  {pieces : List (ℕ × Bytes)}

/-! ### What the loop keeps -/

/-- What was delivered is the stream up to the contiguous point, and the pieces cover it. -/
structure Delivers (S : ℕ → UInt8) (pieces : List (ℕ × Bytes)) (stream : Downstream) : Prop where
  prefix_eq : stream.delivered.flatten = slice S 0 stream.contiguous
  covered : Covered pieces stream.contiguous

/-- No piece is lost: it was delivered up to its end, or a part at its offset that is no shorter is
held. -/
structure Tracks (S : ℕ → UInt8) (pieces : List (ℕ × Bytes)) (stream : Downstream) : Prop
    extends Delivers S pieces stream where
  held : stream.held.entries ⊆ pieces
  kept : ∀ piece ∈ pieces, piece.1 + piece.2.length ≤ stream.contiguous ∨
    ∃ data, stream.held.get? piece.1 = some data ∧ piece.2.length ≤ data.length

/-- Every held part lies beyond a gap. -/
def Gaps (stream : Downstream) : Prop :=
  ∀ entry ∈ stream.held.entries, stream.contiguous < entry.1

/-- The stream goes forward; its end is left as it is. -/
structure Advances (stream stream' : Downstream) : Prop where
  contiguous_le : stream.contiguous ≤ stream'.contiguous
  eofAt_eq : stream'.eofAt = stream.eofAt
  ended_eq : stream'.ended = stream.ended

theorem Advances.refl : Advances stream stream := ⟨le_rfl, rfl, rfl⟩

theorem Advances.trans {stream'' : Downstream} (h : Advances stream stream')
    (h' : Advances stream' stream'') : Advances stream stream'' :=
  ⟨h.contiguous_le.trans h'.contiguous_le, h'.eofAt_eq.trans h.eofAt_eq,
    h'.ended_eq.trans h.ended_eq⟩

theorem advances_push {bytes : Bytes} (h : stream.push deliver bytes = .ok stream') :
    Advances stream stream' := by
  rw [Downstream.push] at h
  split_ifs at h
  · obtain rfl := Except.ok.inj h
    exact .refl
  · obtain ⟨_, -, h⟩ := bind_eq_ok_iff.mp h
    obtain rfl := Except.ok.inj h
    exact ⟨Nat.le_add_right _ _, rfl, rfl⟩

theorem advances_takeHeld {heldOffset : ℕ} {heldData : Bytes}
    (h : stream.takeHeld deliver heldOffset heldData = .ok stream') : Advances stream stream' := by
  rw [Downstream.takeHeld] at h
  dsimp only at h
  split_ifs at h
  · have hpush := advances_push h
    exact ⟨hpush.contiguous_le, hpush.eofAt_eq, hpush.ended_eq⟩
  · obtain rfl := Except.ok.inj h
    exact ⟨le_rfl, rfl, rfl⟩

theorem tracks_start : Tracks S [] .start where
  prefix_eq := rfl
  covered _ hi := absurd hi (Nat.not_lt_zero _)
  held := List.nil_subset _
  kept _ hpiece := absurd hpiece List.not_mem_nil

/-- The rest of a piece over the contiguous point is delivered. -/
theorem Delivers.push (h : Delivers S pieces stream)
    (hslices : ∀ piece ∈ pieces, IsSlice S piece.1 piece.2) {piece : ℕ × Bytes}
    (hpiece : piece ∈ pieces) (hstart : piece.1 ≤ stream.contiguous)
    (hend : stream.contiguous < piece.1 + piece.2.length)
    (hpush : stream.push deliver (piece.2.drop (stream.contiguous - piece.1)) = .ok stream') :
    Delivers S pieces stream' ∧ stream'.contiguous = piece.1 + piece.2.length ∧
      stream'.held = stream.held := by
  have hlength : (piece.2.drop (stream.contiguous - piece.1)).length ≠ 0 := by
    rw [List.length_drop]
    omega
  rw [Downstream.push, if_neg hlength] at hpush
  obtain ⟨_, -, hpush⟩ := bind_eq_ok_iff.mp hpush
  obtain rfl := Except.ok.inj hpush
  have hpoint : stream.contiguous + (piece.2.drop (stream.contiguous - piece.1)).length =
      piece.1 + piece.2.length := by
    rw [List.length_drop]
    omega
  refine ⟨⟨?_, ?_⟩, hpoint, rfl⟩
  · rw [hpoint, List.flatten_append, h.prefix_eq, List.flatten_singleton]
    exact (hslices piece hpiece).extend hstart hend.le
  · rw [hpoint]
    exact h.covered.extend hpiece hstart

/-- A held part is taken out. -/
theorem Tracks.takeHeld (h : Tracks S pieces stream)
    (hslices : ∀ piece ∈ pieces, IsSlice S piece.1 piece.2) {entry : ℕ × Bytes}
    (hentry : entry ∈ stream.held.entries) (hstart : entry.1 ≤ stream.contiguous)
    (htake : stream.takeHeld deliver entry.1 entry.2 = .ok stream') :
    Tracks S pieces stream' ∧ stream'.held = stream.held.delete entry.1 := by
  have hdeleted : (stream.held.delete entry.1).entries ⊆ pieces := fun other hother =>
    h.held (OrderedMap.mem_entries_delete.mp hother).2
  have hkept : ∀ point, stream.contiguous ≤ point → entry.1 + entry.2.length ≤ point →
      ∀ piece ∈ pieces, piece.1 + piece.2.length ≤ point ∨ ∃ data,
        (stream.held.delete entry.1).get? piece.1 = some data ∧ piece.2.length ≤ data.length := by
    intro point hpoint hend piece hpiece
    rcases h.kept piece hpiece with hbefore | ⟨data, hdata, hle⟩
    · exact .inl (hbefore.trans hpoint)
    · by_cases hkey : piece.1 = entry.1
      · have hsame : data = entry.2 := by
          rw [hkey, OrderedMap.get?_eq_some_iff.mpr hentry] at hdata
          exact (Option.some.inj hdata).symm
        left
        rw [hkey]
        rw [hsame] at hle
        omega
      · exact .inr ⟨data, (OrderedMap.get?_delete_of_ne _ hkey).trans hdata, hle⟩
  rw [Downstream.takeHeld] at htake
  dsimp only at htake
  split_ifs at htake with hend
  · have hwithout : Delivers S pieces { stream with held := stream.held.delete entry.1 } :=
      ⟨h.prefix_eq, h.covered⟩
    obtain ⟨hdelivers, hpoint, hheld⟩ := hwithout.push hslices (h.held hentry) hstart hend htake
    refine ⟨⟨hdelivers, hheld ▸ hdeleted, ?_⟩, hheld⟩
    rw [hheld]
    exact hkept _ (hpoint ▸ hend.le) hpoint.ge
  · obtain rfl := Except.ok.inj htake
    exact ⟨⟨⟨h.prefix_eq, h.covered⟩, hdeleted, hkept _ le_rfl (not_lt.mp hend)⟩, rfl⟩

/-- A pass that takes nothing leaves the stream as it is, with each part of it beyond a gap. -/
theorem Tracks.drainPass (hslices : ∀ piece ∈ pieces, IsSlice S piece.1 piece.2)
    {todo : List (ℕ × Bytes)} {advanced taken : Bool} (h : Tracks S pieces stream)
    (hkeys : (todo.map Prod.fst).Nodup) (htodo : todo ⊆ stream.held.entries)
    (hpass : drainPass deliver todo stream advanced = .ok (stream', taken)) :
    Tracks S pieces stream' ∧ Advances stream stream' ∧
      ((taken = advanced ∧ stream' = stream ∧ ∀ entry ∈ todo, stream.contiguous < entry.1) ∨
        taken = true ∧ stream'.held.size < stream.held.size) := by
  induction todo generalizing stream advanced with
  | nil =>
    obtain ⟨rfl, rfl⟩ := Prod.mk.inj (Except.ok.inj hpass)
    exact ⟨h, .refl, .inl ⟨rfl, rfl, fun _ hmem => absurd hmem List.not_mem_nil⟩⟩
  | cons entry rest ih =>
    obtain ⟨hentry, hrest⟩ := List.cons_subset.mp htodo
    obtain ⟨hnew, hkeys⟩ := List.nodup_cons.mp hkeys
    rw [Downstream.drainPass] at hpass
    split_ifs at hpass with hbeyond
    · obtain ⟨htracks, hadvances, hcase⟩ := ih h hkeys hrest hpass
      refine ⟨htracks, hadvances, hcase.imp_left fun ⟨htaken, hsame, hgaps⟩ => ?_⟩
      exact ⟨htaken, hsame, List.forall_mem_cons.mpr ⟨hbeyond, hgaps⟩⟩
    · obtain ⟨next, htake, hpass⟩ := bind_eq_ok_iff.mp hpass
      obtain ⟨htracks, hheld⟩ := h.takeHeld hslices hentry (not_lt.mp hbeyond) htake
      -- the keys are distinct, so the rest of the pass is still held
      have hstill : rest ⊆ next.held.entries := by
        intro other hother
        rw [hheld]
        refine OrderedMap.mem_entries_delete.mpr ⟨fun hkey => hnew ?_, hrest hother⟩
        exact hkey ▸ List.mem_map_of_mem hother
      have hsmaller : next.held.size < stream.held.size :=
        hheld ▸ OrderedMap.size_delete_lt hentry
      obtain ⟨htracks, hadvances, hcase⟩ := ih htracks hkeys hstill hpass
      refine ⟨htracks, (advances_takeHeld htake).trans hadvances, .inr ?_⟩
      rcases hcase with ⟨htaken, rfl, -⟩ | ⟨htaken, hsize⟩
      · exact ⟨htaken, hsmaller⟩
      · exact ⟨htaken, hsize.trans hsmaller⟩

/-- The loop ends with each held part beyond a gap: each pass but the last takes one out. -/
theorem Tracks.drain (hslices : ∀ piece ∈ pieces, IsSlice S piece.1 piece.2) {passes : ℕ}
    (h : Tracks S pieces stream) (hpasses : stream.held.size < passes)
    (hdrain : drain deliver passes stream = .ok stream') :
    Tracks S pieces stream' ∧ Gaps stream' ∧ Advances stream stream' := by
  induction passes generalizing stream with
  | zero => exact absurd hpasses (Nat.not_lt_zero _)
  | succ passes ih =>
    rw [Downstream.drain] at hdrain
    obtain ⟨⟨next, advanced⟩, hpass, hnext⟩ := bind_eq_ok_iff.mp hdrain
    obtain ⟨htracks, hadvances, hcase⟩ :=
      h.drainPass hslices stream.held.nodup_keys (List.Subset.refl _) hpass
    rcases hcase with ⟨rfl, rfl, hgaps⟩ | ⟨rfl, hsize⟩
    · obtain rfl := Except.ok.inj hnext
      exact ⟨h, hgaps, .refl⟩
    · obtain ⟨hfinal, hgaps, hrest⟩ := ih htracks (by omega) hnext
      exact ⟨hfinal, hgaps, hadvances.trans hrest⟩

/-! ### A part -/

/-- Between two parts: nothing is lost, and what is held lies beyond a gap. -/
structure InOrder (S : ℕ → UInt8) (pieces : List (ℕ × Bytes)) (stream : Downstream) : Prop
    extends Tracks S pieces stream where
  gaps : Gaps stream

theorem Tracks.hold (h : Tracks S pieces stream) {offset : ℕ} {data : Bytes} :
    Tracks S (pieces ++ [(offset, data)]) (stream.hold offset data) := by
  have hpieces : pieces ⊆ pieces ++ [(offset, data)] := List.subset_append_left _ _
  -- a piece that is stored is longer than the one it replaces, so what was kept is still covered
  have hset : (∀ existing, stream.held.get? offset = some existing →
      existing.length < data.length) →
      Tracks S (pieces ++ [(offset, data)])
        { stream with held := stream.held.set offset data } := by
    intro hlonger
    refine ⟨⟨h.prefix_eq, h.covered.mono hpieces⟩, ?_, ?_⟩
    · rintro ⟨key, value⟩ hentry
      rcases OrderedMap.mem_entries_set.mp hentry with ⟨rfl, rfl⟩ | ⟨-, hentry⟩
      · exact List.mem_concat_self
      · exact hpieces (h.held hentry)
    · intro piece hpiece
      by_cases hkey : piece.1 = offset
      · refine (List.mem_append.mp hpiece).elim (fun hold => ?_) fun hnew => .inr ?_
        · refine (h.kept piece hold).imp_right fun ⟨existing, hexisting, hle⟩ => ?_
          rw [hkey] at hexisting ⊢
          exact ⟨data, OrderedMap.get?_set_self _ _ _, hle.trans (hlonger _ hexisting).le⟩
        · obtain rfl := List.mem_singleton.mp hnew
          exact ⟨data, OrderedMap.get?_set_self _ _ _, le_rfl⟩
      · have hold : piece ∈ pieces := (List.mem_append.mp hpiece).resolve_right fun hnew =>
          hkey (congrArg Prod.fst (List.mem_singleton.mp hnew))
        rw [OrderedMap.get?_set_of_ne _ _ hkey]
        exact h.kept piece hold
  rw [Downstream.hold]
  rcases hget : stream.held.get? offset with _ | existing
  · exact hset fun _ hexisting => absurd (hget.symm.trans hexisting) nofun
  · dsimp only
    split_ifs with hlonger
    · refine hset fun other hother => ?_
      obtain rfl := Option.some.inj (hget.symm.trans hother)
      exact hlonger
    -- the piece is dropped, as one at its offset is as long
    · refine ⟨⟨h.prefix_eq, h.covered.mono hpieces⟩, fun _ hentry => hpieces (h.held hentry), ?_⟩
      refine List.forall_mem_append.mpr ⟨h.kept, List.forall_mem_singleton.mpr (.inr ?_)⟩
      exact ⟨existing, hget, not_lt.mp hlonger⟩

theorem advances_hold {offset : ℕ} {data : Bytes} :
    Advances stream (stream.hold offset data) := by
  rw [Downstream.hold]
  split
  · exact ⟨le_rfl, rfl, rfl⟩
  · split_ifs
    · exact ⟨le_rfl, rfl, rfl⟩
    · exact .refl

theorem Gaps.hold (h : Gaps stream) {offset : ℕ} {data : Bytes}
    (hbeyond : stream.contiguous < offset) : Gaps (stream.hold offset data) := by
  have hset : Gaps { stream with held := stream.held.set offset data } := by
    rintro ⟨key, value⟩ hentry
    rcases OrderedMap.mem_entries_set.mp hentry with ⟨rfl, -⟩ | ⟨-, hentry⟩
    · exact hbeyond
    · exact h _ hentry
  rw [Downstream.hold]
  split
  · exact hset
  · split_ifs
    · exact hset
    · exact h

theorem InOrder.accept (h : InOrder S pieces stream)
    (hslices : ∀ piece ∈ pieces, IsSlice S piece.1 piece.2) {offset : ℕ} {data : Bytes}
    (hslice : IsSlice S offset data) (haccept : stream.accept deliver offset data = .ok stream') :
    InOrder S (pieces ++ [(offset, data)]) stream' ∧ Advances stream stream' := by
  have hpieces : pieces ⊆ pieces ++ [(offset, data)] := List.subset_append_left _ _
  have hallslices : ∀ piece ∈ pieces ++ [(offset, data)], IsSlice S piece.1 piece.2 :=
    List.forall_mem_append.mpr ⟨hslices, List.forall_mem_singleton.mpr hslice⟩
  have hdelivers : Delivers S (pieces ++ [(offset, data)]) stream :=
    ⟨h.prefix_eq, h.covered.mono hpieces⟩
  rw [Downstream.accept] at haccept
  split_ifs at haccept with hold hbeyond
  · obtain rfl := Except.ok.inj haccept
    refine ⟨⟨⟨hdelivers, fun _ hentry => hpieces (h.held hentry), ?_⟩, h.gaps⟩, .refl⟩
    exact List.forall_mem_append.mpr ⟨h.kept, List.forall_mem_singleton.mpr (.inl hold)⟩
  · obtain rfl := Except.ok.inj haccept
    exact ⟨⟨h.toTracks.hold, h.gaps.hold hbeyond⟩, advances_hold⟩
  · obtain ⟨next, hpush, hdrain⟩ := bind_eq_ok_iff.mp haccept
    have hpiece : (offset, data) ∈ pieces ++ [(offset, data)] := List.mem_concat_self
    obtain ⟨hdelivers, hpoint, hheld⟩ :=
      hdelivers.push hallslices hpiece (not_lt.mp hbeyond) (not_le.mp hold) hpush
    have hadvances := advances_push hpush
    have htracks : Tracks S (pieces ++ [(offset, data)]) next := by
      refine ⟨hdelivers, fun _ hentry => hpieces (h.held (hheld ▸ hentry)), ?_⟩
      refine List.forall_mem_append.mpr ⟨fun piece hpiece => ?_, ?_⟩
      · rw [hheld]
        exact (h.kept piece hpiece).imp_left fun hbefore =>
          hbefore.trans hadvances.contiguous_le
      · exact List.forall_mem_singleton.mpr (.inl hpoint.ge)
    obtain ⟨hfinal, hgaps, hrest⟩ := htracks.drain hallslices (Nat.lt_succ_self _) hdrain
    exact ⟨⟨hfinal, hgaps⟩, hadvances.trans hrest⟩

/-! ### A run -/

/-- After the parts: the stream in order, its end given by a part with `fin` set to `eof`. -/
structure Received (S : ℕ → UInt8) (parts : List TunnelPartV1) (stream : Downstream) : Prop
    extends InOrder S (parts.map pieceOf) stream where
  eofAt_part : ∀ eof, stream.eofAt = some eof →
    ∃ part ∈ parts, part.fin = some .eof ∧ part.offset + part.data.length = eof
  ended_eof : stream.ended = true → ∃ eof, stream.eofAt = some eof ∧ eof ≤ stream.contiguous

theorem received_start : Received S [] .start where
  toTracks := tracks_start
  gaps _ hentry := absurd hentry List.not_mem_nil
  eofAt_part _ heof := absurd heof nofun
  ended_eof hended := absurd hended nofun

variable {parts : List TunnelPartV1} {part : TunnelPartV1}

theorem Received.receive (h : Received S parts stream)
    (hslices : ∀ part ∈ parts, IsSlice S part.offset part.data)
    (hslice : IsSlice S part.offset part.data)
    (hreceive : stream.receive deliver part = .ok stream') :
    Received S (parts ++ [part]) stream' ∧ stream.contiguous ≤ stream'.contiguous := by
  obtain ⟨next, haccept, hnext⟩ := bind_eq_ok_iff.mp hreceive
  obtain rfl := Except.ok.inj hnext
  have hpieces : ∀ piece ∈ parts.map pieceOf, IsSlice S piece.1 piece.2 :=
    List.forall_mem_map.mpr hslices
  obtain ⟨horder, hadvances⟩ := h.toInOrder.accept hpieces hslice haccept
  have hmap : parts.map pieceOf ++ [(part.offset, part.data)] =
      (parts ++ [part]).map pieceOf := by
    rw [List.map_append]
    rfl
  rw [hmap] at horder
  refine ⟨⟨⟨⟨⟨horder.prefix_eq, horder.covered⟩, horder.held, horder.kept⟩, horder.gaps⟩, ?_, ?_⟩,
    hadvances.contiguous_le⟩
  · intro eof heof
    dsimp only at heof
    rw [hadvances.eofAt_eq] at heof
    rcases Option.or_eq_some_iff.mp heof with hbefore | ⟨-, hnow⟩
    · obtain ⟨other, hother, hfin⟩ := h.eofAt_part eof hbefore
      exact ⟨other, List.mem_append_left _ hother, hfin⟩
    · rw [eofOf] at hnow
      split_ifs at hnow with hfin
      exact ⟨part, List.mem_concat_self, hfin, Option.some.inj hnow⟩
  · intro hended
    rcases Bool.or_eq_true_iff.mp hended with hbefore | hnow
    · obtain ⟨eof, heof, hle⟩ := h.ended_eof (hadvances.ended_eq ▸ hbefore)
      refine ⟨eof, ?_, hle.trans hadvances.contiguous_le⟩
      rw [hadvances.eofAt_eq, heof]
      rfl
    · obtain ⟨heof, hle⟩ := (Option.any_eq_true_iff_get _ _).mp hnow
      exact ⟨_, (Option.some_get _).symm, of_decide_eq_true hle⟩

theorem Received.receiveAll {later : List TunnelPartV1} (h : Received S parts stream)
    (hslices : ∀ part ∈ parts ++ later, IsSlice S part.offset part.data)
    (hreceive : later.foldlM (Downstream.receive deliver) stream = .ok stream') :
    Received S (parts ++ later) stream' ∧ stream.contiguous ≤ stream'.contiguous := by
  induction later generalizing parts stream with
  | nil =>
    obtain rfl := Except.ok.inj hreceive
    exact ⟨(List.append_nil parts).symm ▸ h, le_rfl⟩
  | cons part later ih =>
    rw [List.foldlM_cons] at hreceive
    obtain ⟨next, hpart, hlater⟩ := bind_eq_ok_iff.mp hreceive
    obtain ⟨hreceived, hle⟩ := h.receive
      (fun other hother => hslices other (List.mem_append_left _ hother))
      (hslices part (List.mem_append_right _ List.mem_cons_self)) hpart
    rw [List.append_cons] at hslices ⊢
    obtain ⟨hfinal, hle'⟩ := ih hreceived hslices hlater
    exact ⟨hfinal, hle.trans hle'⟩

/-- **Tunnel bytes are delivered once and in order.** Of a stream `S`, whatever parts of it came,
in whatever order: `deliver` was handed the first bytes of `S` up to the contiguous point, the
parts cover `S` to that point and no further, no part held starts at or before it, it never goes
back, and the stream counts as ended only when it has reached the end of a part flagged `Eof`.

`Received` is the invariant over the parts that came: delivered is the front of `S`, what is held
starts behind the contiguous point, and every part is within what was delivered or is held. The
later parts go on from where the earlier ones led, so the point never goes back. -/
theorem receiveAll_delivers (hslices : ∀ part ∈ parts, IsSlice S part.offset part.data)
    (hreceive : receiveAll deliver parts = .ok stream) :
    stream.delivered.flatten = slice S 0 stream.contiguous ∧
    (∀ point, Covered (parts.map pieceOf) point ↔ point ≤ stream.contiguous) ∧
    (∀ heldOffset heldData, stream.held.get? heldOffset = some heldData →
      stream.contiguous < heldOffset) ∧
    (∀ earlier later before, parts = earlier ++ later → receiveAll deliver earlier = .ok before →
      before.contiguous ≤ stream.contiguous) ∧
    (stream.ended = true → ∃ part ∈ parts, part.fin = some .eof ∧
      part.offset + part.data.length ≤ stream.contiguous) := by
  have hreceived : Received S parts stream := (received_start.receiveAll hslices hreceive).1
  have hlimit : ∀ piece ∈ parts.map pieceOf,
      piece.1 + piece.2.length ≤ stream.contiguous ∨ stream.contiguous < piece.1 := by
    intro piece hpiece
    refine (hreceived.kept piece hpiece).imp_right fun ⟨data, hdata, _⟩ => ?_
    exact hreceived.gaps (piece.1, data) (OrderedMap.get?_eq_some_iff.mp hdata)
  refine ⟨hreceived.prefix_eq, fun point => ⟨fun hcovered => hcovered.le hlimit, fun hle => ?_⟩,
    fun _ _ hheld => hreceived.gaps _ (OrderedMap.get?_eq_some_iff.mp hheld), ?_, ?_⟩
  · exact fun i hi => hreceived.covered i (hi.trans_le hle)
  · rintro earlier later before rfl hbefore
    rw [Downstream.receiveAll, List.foldlM_append] at hreceive
    obtain ⟨middle, hearlier, hlater⟩ := bind_eq_ok_iff.mp hreceive
    obtain rfl := Except.ok.inj (hbefore.symm.trans hearlier)
    have hfirst : ∀ part ∈ earlier, IsSlice S part.offset part.data :=
      fun part hpart => hslices part (List.mem_append_left _ hpart)
    exact ((received_start.receiveAll hfirst hbefore).1.receiveAll hslices hlater).2
  · intro hended
    obtain ⟨eof, heof, hle⟩ := hreceived.ended_eof hended
    obtain ⟨part, hpart, hfin, hend⟩ := hreceived.eofAt_part eof heof
    exact ⟨part, hpart, hfin, hend.trans_le hle⟩

/-- Parts beyond a gap, overlapping ones, an empty one and a repeated one. -/
private def sampleParts : List TunnelPartV1 :=
  [⟨4, [4, 5], some .eof⟩, ⟨1, [1, 2], none⟩, ⟨1, [1], none⟩, ⟨0, [], none⟩, ⟨0, [0, 1], none⟩,
    ⟨2, [2, 3, 4], none⟩, ⟨0, [0, 1], none⟩]

theorem receiveAll_delivers_sample : ∃ stream,
    receiveAll (fun _ _ => .ok ()) sampleParts = .ok stream ∧ stream.contiguous = 6 ∧
      stream.ended = true ∧ stream.delivered.flatten = slice UInt8.ofNat 0 6 := by
  have hslices : ∀ part ∈ sampleParts, IsSlice UInt8.ofNat part.offset part.data := by decide
  obtain ⟨stream, hstream, hpoint, hended⟩ : ∃ stream,
      receiveAll (fun _ _ => .ok ()) sampleParts = .ok stream ∧ stream.contiguous = 6 ∧
        stream.ended = true := ⟨_, rfl, rfl, rfl⟩
  refine ⟨stream, hstream, hpoint, hended, ?_⟩
  rw [← hpoint]
  exact (receiveAll_delivers hslices hstream).1

end Downstream

end NoxSdk.Tls
