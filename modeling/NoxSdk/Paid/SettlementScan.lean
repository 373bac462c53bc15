import NoxSdk.Kps.LogChunks
import NoxSdk.Paid.EvidenceFacts

/-!
# Scans over ranges of blocks

`findSettlement` goes down from the newest block in ranges that the exits serve, until one has the
settlement. The ranges it has asked for tile the blocks from the first of the last one on
(`NewestFirst`), so a settlement at any block of the range is found, when the query is exact. The
scan of the registration logs goes up, and asks for all its chunks at once.
-/

namespace NoxSdk.Paid

open NoxSdk.Kps
open NoxSdk.Lib
open NoxSdk.Lib.Prog

section Scan

variable (query : ℤ → ℤ → Async (Option PaidSettlement))

/-- The query went through these ranges, one after the other, and found nothing in them. -/
def Exhausted : List (Span ℤ) → List Event → Prop
  | [], events => events = []
  | range :: rest, events =>
    ∃ part later, (query range.first range.last).run.Yields part (.ok none) ∧
      Exhausted rest later ∧ events = part ++ later

/-- The ranges go down from the last block to the first one, and the exits serve each. -/
structure NewestFirst (fromBlock toBlock : ℤ) (ranges : List (Span ℤ)) : Prop where
  tiles : Tiles fromBlock toBlock ranges.reverse
  served : ∀ range ∈ ranges, range.last + 1 - range.first ≤ defaults.logRangeBlocks

/-- A scan that goes on down to `fromBlock` while nothing is found: it ends with nothing after the
ranges of all the blocks, or with what the query of a range ends with, be it a settlement or a
failure. -/
def Scans (fromBlock toBlock : ℤ) (events : List Event)
    (result : Except Failure (Option PaidSettlement)) : Prop :=
  (∃ ranges, NewestFirst fromBlock toBlock ranges ∧ Exhausted query ranges events ∧
    result = .ok none) ∨
  ∃ ranges range before part, fromBlock ≤ range.first ∧
    NewestFirst range.first toBlock (ranges ++ [range]) ∧ Exhausted query ranges before ∧
    (query range.first range.last).run.Yields part result ∧ result ≠ .ok none ∧
    events = before ++ part

/-- A query that returns a settlement of its range, and nothing only when there is none. -/
def Exact (Settled : ℤ → PaidSettlement → Prop) : Prop :=
  ∀ first last events found, (query first last).run.Yields events (.ok found) →
    (∀ settlement ∈ found, ∃ block, first ≤ block ∧ block ≤ last ∧ Settled block settlement) ∧
    (found = none → ∀ block settlement, first ≤ block → block ≤ last → ¬ Settled block settlement)

variable {query} {fromBlock toBlock mid : ℤ} {events later : List Event} {range : Span ℤ}
  {ranges : List (Span ℤ)} {result : Except Failure (Option PaidSettlement)}

theorem NewestFirst.nil (h : fromBlock = toBlock + 1) : NewestFirst fromBlock toBlock [] :=
  ⟨h, fun _ h => absurd h List.not_mem_nil⟩

/-- One range above those below it. -/
theorem NewestFirst.cons {first last : ℤ} (h : NewestFirst fromBlock (first - 1) ranges)
    (hrange : first ≤ last) (hserved : last + 1 - first ≤ defaults.logRangeBlocks) :
    NewestFirst fromBlock last (⟨first, last⟩ :: ranges) where
  tiles := by
    rw [List.reverse_cons]
    refine h.tiles.append ?_
    rw [sub_add_cancel]
    exact .cons hrange rfl
  served := List.forall_mem_cons.mpr ⟨hserved, h.served⟩

/-- A range in which nothing is found, before a scan of those below it. -/
theorem Scans.cons {first last : ℤ} (h : Scans query fromBlock (first - 1) later result)
    (hrange : first ≤ last) (hserved : last + 1 - first ≤ defaults.logRangeBlocks)
    (hpart : (query first last).run.Yields events (.ok none)) :
    Scans query fromBlock last (events ++ later) result := by
  rcases h with ⟨ranges, hranges, hasked, rfl⟩ |
    ⟨ranges, lowest, before, part, hfirst, hranges, hasked, hlast, hresult, rfl⟩
  · exact .inl ⟨⟨first, last⟩ :: ranges, hranges.cons hrange hserved,
      ⟨_, _, hpart, hasked, rfl⟩, rfl⟩
  · exact .inr ⟨⟨first, last⟩ :: ranges, lowest, events ++ before, part, hfirst,
      hranges.cons hrange hserved, ⟨_, _, hpart, hasked, rfl⟩, hlast, hresult,
      (List.append_assoc ..).symm⟩

/-- What the scan does from one of its ranges on: the blocks that are left are those up to `mid`,
which is the end of the next range unless there is none. -/
theorem scans_of_yields {left : ℕ} (hleft : toBlock - fromBlock < left * defaults.logRangeBlocks)
    (hmid : mid = max toBlock (fromBlock - 1))
    (h : (findSettlementIn query fromBlock left toBlock).run.Yields events result) :
    Scans query fromBlock mid events result := by
  induction left generalizing toBlock mid events with
  | zero =>
    obtain ⟨rfl, rfl⟩ := h
    exact .inl ⟨[], .nil (by omega), rfl, rfl⟩
  | succ left ih =>
    rw [findSettlementIn] at h
    split_ifs at h with hend
    · obtain ⟨rfl, rfl⟩ := h
      exact .inl ⟨[], .nil (by omega), rfl, rfl⟩
    · have hlogs : defaults.logRangeBlocks = 2000 := rfl
      dsimp only at h
      generalize hfirst : (if fromBlock < toBlock - defaults.logRangeBlocks + 1 then
        toBlock - defaults.logRangeBlocks + 1 else fromBlock) = first at h
      obtain rfl : mid = toBlock := by omega
      have hrange : first ≤ mid := by split_ifs at hfirst <;> omega
      have hserved : mid + 1 - first ≤ defaults.logRangeBlocks := by
        split_ifs at hfirst <;> omega
      have hbegin : fromBlock ≤ first := by split_ifs at hfirst <;> omega
      have hnext : first - 1 = max (mid - defaults.logRangeBlocks) (fromBlock - 1) := by
        split_ifs at hfirst <;> omega
      -- the range ends the scan, unless nothing is found in it
      have answered : ∀ {part r}, (query first mid).run.Yields part r → r ≠ .ok none →
          Scans query fromBlock mid part r := fun hpart hr =>
        .inr ⟨[], ⟨first, mid⟩, [], _, hbegin,
          (NewestFirst.nil (by rw [sub_add_cancel])).cons hrange hserved, rfl, hpart, hr, rfl⟩
      rcases yields_run_bind.mp h with ⟨failure, hpart, rfl⟩ |
        ⟨part, found, later, hpart, hlater, rfl⟩
      · exact answered hpart (by simp)
      · cases found with
        | none =>
          have hbelow : Scans query fromBlock (first - 1) later result := by
            refine ih ?_ hnext hlater
            rw [hlogs] at hleft ⊢
            push_cast at hleft
            omega
          exact Scans.cons hbelow hrange hserved hpart
        | some settlement =>
          obtain ⟨rfl, rfl⟩ := hlater
          rw [List.append_nil]
          exact answered hpart (by simp)

/-- Enough ranges for all the blocks. -/
theorem lt_rangeCount_mul (fromBlock toBlock : ℤ) :
    toBlock - fromBlock < rangeCount fromBlock toBlock * defaults.logRangeBlocks := by
  have hlogs : defaults.logRangeBlocks = 2000 := rfl
  rw [rangeCount, hlogs]
  omega

/-- The loop ends by itself: it is the same with more ranges than there are. -/
theorem findSettlementIn_eq {left : ℕ}
    (hleft : toBlock - fromBlock < left * defaults.logRangeBlocks) (more : ℕ) :
    findSettlementIn query fromBlock (left + more) toBlock =
      findSettlementIn query fromBlock left toBlock := by
  have hlogs : defaults.logRangeBlocks = 2000 := rfl
  induction left generalizing toBlock with
  | zero =>
    cases more with
    | zero => rfl
    | succ more =>
      rw [findSettlementIn, Nat.zero_add, findSettlementIn, if_pos (by omega)]
  | succ left ih =>
    rw [Nat.add_right_comm, findSettlementIn, findSettlementIn]
    split_ifs with hend
    · rfl
    · rw [ih]
      rw [hlogs] at hleft ⊢
      push_cast at hleft
      omega

theorem Exhausted.of_mem (h : Exhausted query ranges events) (hrange : range ∈ ranges) :
    ∃ part, (query range.first range.last).run.Yields part (.ok none) := by
  induction ranges generalizing events with
  | nil => cases hrange
  | cons first rest ih =>
    obtain ⟨part, later, hpart, hlater, rfl⟩ := h
    rcases List.mem_cons.mp hrange with rfl | hrange
    · exact ⟨part, hpart⟩
    · exact ih hlater hrange

/-- In a scan with an exact query the settlement is one of the range, and there is none when
nothing is found. -/
theorem Scans.exact {Settled : ℤ → PaidSettlement → Prop} {found : Option PaidSettlement}
    (h : Scans query fromBlock toBlock events (.ok found)) (hexact : Exact query Settled) :
    (∀ settlement ∈ found,
      ∃ block, fromBlock ≤ block ∧ block ≤ toBlock ∧ Settled block settlement) ∧
    (found = none →
      ∀ block settlement, fromBlock ≤ block → block ≤ toBlock → ¬ Settled block settlement) := by
  rcases h with ⟨ranges, hranges, hasked, hfound⟩ |
    ⟨ranges, range, before, part, hfirst, hranges, hasked, hpart, hresult, rfl⟩
  · obtain rfl : found = none := Except.ok.inj hfound
    refine ⟨fun _ h => absurd h (Option.not_mem_none _), fun _ block settlement hfrom hto => ?_⟩
    obtain ⟨range, hrange, hblock⟩ := hranges.tiles.exists_mem_iff.mpr ⟨hfrom, hto⟩
    obtain ⟨part, hpart⟩ := hasked.of_mem (List.mem_reverse.mp hrange)
    exact (hexact _ _ _ _ hpart).2 rfl block settlement hblock.1 hblock.2
  · refine ⟨fun settlement hfound => ?_, fun hfound => absurd (congrArg Except.ok hfound) hresult⟩
    obtain ⟨block, hblock, hlast, hsettled⟩ := (hexact _ _ _ _ hpart).1 settlement hfound
    have hmem := (hranges.tiles.exists_mem_iff (n := block)).mp
      ⟨range, List.mem_reverse.mpr (List.mem_append_right _ (List.mem_singleton_self range)),
        hblock, hlast⟩
    exact ⟨block, hfirst.trans hmem.1, hmem.2, hsettled⟩

end Scan

/-- The ranges that `findSettlement` asks for go down from the newest block without a gap or an
overlap until one answers, and with an exact query it returns a settlement exactly when there is
one at a block of the range; more rounds of its loop change nothing. The chunks of
`registrationLogsBody` tile its range, and it throws when they are too many.

The ranges tile the blocks by induction over the rounds, and as each takes `logRangeBlocks` blocks
the count of rounds suffices (`lt_rangeCount_mul`). A settlement of the whole range then lies in one
of the ranges, whose query has to find it. -/
theorem blockScans_cover :
    (∀ (query : ℤ → ℤ → Async (Option PaidSettlement)) (fromBlock toBlock : ℤ),
      fromBlock ≤ toBlock →
      (∀ more, findSettlementIn query fromBlock (rangeCount fromBlock toBlock + more) toBlock =
        findSettlement fromBlock toBlock query) ∧
      ∀ events result, (findSettlement fromBlock toBlock query).run.Yields events result →
        Scans query fromBlock toBlock events result ∧
        ∀ Settled found, Exact query Settled → result = .ok found →
          (∀ settlement ∈ found,
            ∃ block, fromBlock ≤ block ∧ block ≤ toBlock ∧ Settled block settlement) ∧
          (found.isSome ↔
            ∃ block settlement, fromBlock ≤ block ∧ block ≤ toBlock ∧ Settled block settlement)) ∧
    ∀ (abi : RegistryInterface) (registry : String) (fromBlock toBlock : ℕ),
      fromBlock ≤ toBlock →
      Tiles fromBlock toBlock (logChunksFrom toBlock fromBlock) ∧
      (∀ chunk ∈ logChunksFrom toBlock fromBlock,
        chunk.last + 1 - chunk.first ≤ logScanChunkBlocks) ∧
      if (logChunksFrom toBlock fromBlock).length ≤ logScanMaxChunks then
        registrationLogsBody abi registry fromBlock toBlock =
          .ok (.array ((logChunksFrom toBlock fromBlock).mapIdx fun index chunk =>
            chunkRequest abi registry (index + 1) chunk), (logChunksFrom toBlock fromBlock).length)
      else ∃ error, registrationLogsBody abi registry fromBlock toBlock = .error error := by
  refine ⟨fun query fromBlock toBlock hle => ⟨fun more => ?_, fun events result h => ?_⟩,
    fun abi registry fromBlock toBlock hle => ⟨?_, ?_, ?_⟩⟩
  · exact findSettlementIn_eq (lt_rangeCount_mul fromBlock toBlock) more
  · have hscan := scans_of_yields (lt_rangeCount_mul fromBlock toBlock)
      (max_eq_left (by omega : fromBlock - 1 ≤ toBlock)).symm h
    refine ⟨hscan, fun Settled found hexact hresult => ?_⟩
    subst hresult
    obtain ⟨hfound, hnone⟩ := hscan.exact hexact
    refine ⟨hfound, fun hsome => ?_, fun ⟨block, settlement, hfrom, hto, hsettled⟩ => ?_⟩
    · obtain ⟨settlement, rfl⟩ := Option.isSome_iff_exists.mp hsome
      obtain ⟨block, hblock⟩ := hfound settlement rfl
      exact ⟨block, settlement, hblock⟩
    · cases found with
      | none => exact absurd hsettled (hnone rfl block settlement hfrom hto)
      | some settlement => rfl
  · exact tiles_logChunksFrom toBlock fromBlock (Nat.le_succ_of_le hle)
  · exact fun chunk hchunk => size_of_mem_logChunksFrom hchunk
  · rw [registrationLogsBody_eq]
    split_ifs with hcount hover hover
    · exact absurd hover (not_lt.mpr hcount)
    · rfl
    · exact ⟨_, rfl⟩
    · exact absurd (not_le.mp hcount) hover

/-! ### A settlement in the second range -/

/-- A settlement at block 5. -/
private def fifthSettlement : PaidSettlement :=
  { executionId := "0x01", paymentId := "0x02", exit := "0x03", feeAsset := "0x04"
    exitFee := 1, networkFee := 1, actionTarget := "0x05", actionSuccess := true
    returnDataLength := 0, returnPrefixHash := "0x", transactionHash := "0x06", blockNumber := 5 }

/-- A query that reads the clock and finds the settlement in the ranges of its block. -/
private def fifthQuery (first last : ℤ) : Async (Option PaidSettlement) := do
  let _ ← (liftM dateNow : Async ℤ)
  pure (if first ≤ 5 ∧ 5 ≤ last then some fifthSettlement else none)

private theorem exact_fifthQuery :
    Exact fifthQuery fun block settlement => block = 5 ∧ settlement = fifthSettlement := by
  rintro first last events found ⟨now, rest, -, -, hfound⟩
  obtain rfl := Except.ok.inj hfound
  split_ifs with hblock
  · exact ⟨fun settlement hmem => ⟨5, hblock.1, hblock.2, rfl, (Option.some.inj hmem).symm⟩, nofun⟩
  · refine ⟨nofun, fun _ block settlement hfirst hlast hsettled => hblock ?_⟩
    obtain ⟨rfl, -⟩ := hsettled
    exact ⟨hfirst, hlast⟩

/-- The newer range has nothing, the one below it the settlement. -/
theorem blockScans_cover_sample :
    ∃ events, (findSettlement 0 3000 fifthQuery).run.Yields events (.ok (some fifthSettlement)) ∧
      events.length = 2 ∧ Scans fifthQuery 0 3000 events (.ok (some fifthSettlement)) ∧
      ∃ block : ℤ, 0 ≤ block ∧ block ≤ 3000 ∧ block = 5 := by
  have hyields : (findSettlement 0 3000 fifthQuery).run.Yields
      [⟨.now, 1⟩, ⟨.now, 2⟩] (.ok (some fifthSettlement)) :=
    ⟨1, _, rfl, 2, _, rfl, rfl, rfl⟩
  obtain ⟨hscans, hexact⟩ := (blockScans_cover.1 fifthQuery 0 3000 (by decide)).2 _ _ hyields
  obtain ⟨hfound, -⟩ := hexact _ _ exact_fifthQuery rfl
  obtain ⟨block, hfirst, hlast, hblock, -⟩ := hfound fifthSettlement rfl
  exact ⟨_, hyields, rfl, hscans, block, hfirst, hlast, hblock⟩

end NoxSdk.Paid
