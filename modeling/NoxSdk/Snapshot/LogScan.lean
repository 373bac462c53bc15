import NoxSdk.Js
import NoxSdk.Types
import NoxSdk.Lib.Effects
import NoxSdk.Lib.Spans

/-!
# The adaptive log scan

`scanLogs` of the snapshot scripts reads the logs of a range span by span. A span that the endpoint
refuses is halved, down to a floor, and asked for again from the same block; the smaller span is
kept for the rest of the scan. The endpoint is an environment that answers every request as it
likes, so what is proved of the traces of the scan holds whatever it refuses.

Block numbers are safe integers, and the arithmetic on them is exact.
-/

namespace NoxSdk.Snapshot

open Js (Json toLowerCase safeBound)
open NoxSdk.Lib
open NoxSdk.Lib.Prog (perform yields_perform yields_run_lift_bind yields_run_bind)

/-- The codes of `SnapshotError` that the scan and the validation of a document use. -/
inductive SnapshotErrorCode
  | config
  | scanFailed
  | invalidDocument
  | sdkRejected
  deriving DecidableEq

/-- `SnapshotError`. -/
structure SnapshotError where
  message : String
  code : SnapshotErrorCode
  deriving DecidableEq

/-- What a call rejects with: its code, if it has one, and its text. -/
structure CallError where
  code : Option String
  text : String

/-- `rejected` of `scanLogs`: the endpoint answered with an error. -/
def CallError.rejected (error : CallError) : Bool := error.code == some "rpc"

/-- The address and the topic of a scan. -/
structure LogFilter where
  address : String
  topic : Option String

/-- An `eth_getLogs` request. -/
structure GetLogs where
  filter : LogFilter
  span : Span ℕ

/-- A scan: what it computes, with its requests. -/
abbrev LogScan := ExceptT SnapshotError (Prog GetLogs fun _ => Except CallError Json)

/-- A result that is there at once. -/
def LogScan.ofExcept {α : Type} (result : Except SnapshotError α) : LogScan α :=
  ExceptT.mk (pure result)

/-- A request with its reply. -/
abbrev LogEvent := Prog.Event GetLogs fun _ => Except CallError Json

/-- `scan-failed`, about a span. -/
def scanFailed (span : Span ℕ) (what : String) : SnapshotError :=
  ⟨s!"eth_getLogs for blocks {span.first}-{span.last} {what}", .scanFailed⟩

/-- The log is one of a removed block. -/
def isRemoved (entry : Json) : Bool :=
  match entry.field "removed" with
  | some (.bool removed) => removed
  | _ => false

/-- The check of one log against the filter. -/
def LogFilter.Matches (filter : LogFilter) (entry : Json) : Bool :=
  match entry.field "address", entry.field "topics" with
  | some (.string address), some (.array topics) =>
    toLowerCase address == filter.address &&
      match filter.topic with
      | none => true
      | some topic =>
        match topics with
        | .string first :: _ => toLowerCase first == topic
        | _ => false
  | _, _ => false

/-- The logs of one answer, without those of removed blocks. -/
def readEntries (filter : LogFilter) (span : Span ℕ) : List Json → Except SnapshotError (List Json)
  | [] => .ok []
  | .object fields :: rest =>
    if isRemoved (.object fields) then readEntries filter span rest
    else if filter.Matches (.object fields) then do
      return .object fields :: (← readEntries filter span rest)
    else .error (scanFailed span "returned a log that does not match the filter")
  | _ :: _ => .error (scanFailed span "returned a non-object log")

/-- The logs of one reply. -/
def readLogs (filter : LogFilter) (span : Span ℕ) : Json → Except SnapshotError (List Json)
  | .array entries => readEntries filter span entries
  | _ => .error (scanFailed span "did not return an array")

section Scan

variable (filter : LogFilter) (minLogChunkBlocks : ℕ) (toBlock : ℕ)

/-- The span of a request from `start` on. -/
def nextSpan (start span : ℕ) : Span ℕ := ⟨start, min toBlock (start + span - 1)⟩

/-- The length of a refused span that is not the shortest. -/
def halved (refused : Span ℕ) : ℕ :=
  max minLogChunkBlocks ((refused.last - refused.first + 1) / 2)

/-- The request for a span. -/
def getLogs (span : Span ℕ) : LogScan (Except CallError Json) := 
  liftM (perform (GetLogs.mk filter span) : Prog GetLogs (fun _ => Except CallError Json) _)

/-- The span of a request is not empty, ends in the range and is no longer than it may be. -/
theorem nextSpan_bounds {start span : ℕ} (hstart : start ≤ toBlock) (hspan : 0 < span) :
    start ≤ (nextSpan toBlock start span).last ∧ (nextSpan toBlock start span).last ≤ toBlock ∧
      (nextSpan toBlock start span).last - start + 1 ≤ span := by
  change start ≤ min toBlock (start + span - 1) ∧ min toBlock (start + span - 1) ≤ toBlock ∧
    min toBlock (start + span - 1) - start + 1 ≤ span
  omega

/-- A refused span that is not the shortest gets shorter. -/
theorem halved_lt {refused : Span ℕ}
    (h : minLogChunkBlocks < refused.last - refused.first + 1) (hmin : 0 < minLogChunkBlocks) :
    halved minLogChunkBlocks refused < refused.last - refused.first + 1 := by
  rw [halved]
  omega

/-- The loop of `scanLogs`. -/
def scanFrom (hmin : 0 < minLogChunkBlocks) (start span : ℕ) (hspan : 0 < span) :
    LogScan (List Json) :=
  if _hstart : start ≤ toBlock then
    getLogs filter (nextSpan toBlock start span) >>= fun
      | .error error =>
        if _hlong : error.rejected = true ∧ minLogChunkBlocks <
            (nextSpan toBlock start span).last - (nextSpan toBlock start span).first + 1 then
          scanFrom hmin start (halved minLogChunkBlocks (nextSpan toBlock start span))
            (hmin.trans_le (Nat.le_max_left _ _))
        else throw (scanFailed (nextSpan toBlock start span) s!"failed: {error.text}")
      | .ok raw => do
        let logs ← .ofExcept (readLogs filter (nextSpan toBlock start span) raw)
        let later ← scanFrom hmin ((nextSpan toBlock start span).last + 1) span hspan
        return logs ++ later
  else return []
termination_by toBlock + 1 - start + span
decreasing_by
  · exact Nat.add_lt_add_left
      ((halved_lt _ _hlong.2 hmin).trans_le (nextSpan_bounds _ _hstart hspan).2.2) _
  · have hbounds := nextSpan_bounds _ _hstart hspan
    omega

end Scan

/-- The length of the first span. -/
def firstLength (fromBlock toBlock : ℕ) (logChunkBlocks : ℤ) : ℕ :=
  if logChunkBlocks = 0 then toBlock - fromBlock + 1 else logChunkBlocks.toNat

/-- `scanLogs`. -/
def scanLogs (filter : LogFilter) (fromBlock toBlock : ℕ)
    (logChunkBlocks minLogChunkBlocks : ℤ) : LogScan (List Json) :=
  if hchunk : logChunkBlocks < 0 ∨ safeBound ≤ logChunkBlocks then
    throw ⟨"logChunkBlocks must be a non-negative integer", .config⟩
  else if hmin : ¬ 0 < minLogChunkBlocks.toNat ∨ safeBound ≤ minLogChunkBlocks then
    throw ⟨"minLogChunkBlocks must be a positive integer", .config⟩
  else if hrange : fromBlock ≤ toBlock then
    scanFrom filter minLogChunkBlocks.toNat toBlock (not_not.mp (not_or.mp hmin).1) fromBlock
      (firstLength fromBlock toBlock logChunkBlocks) (by rw [firstLength]; split_ifs <;> omega)
  else return []

/-! ### What a scan does -/

/-- The spans that were answered, with the answers. -/
def answers (events : List LogEvent) : List (Span ℕ × Json) :=
  events.filterMap fun event => event.2.toOption.map fun raw => (event.1.span, raw)

/-- The logs of an answer that are kept. -/
def kept : Json → List Json
  | .array entries => entries.filter fun entry => !isRemoved entry
  | _ => []

/-- The reply for which a scan throws: an error that is no refusal, a refusal of a span that cannot
be shorter, or an answer that is malformed or does not match the filter. -/
def Fails (filter : LogFilter) (minLogChunkBlocks : ℕ) (span : Span ℕ) :
    Except CallError Json → Prop
  | .error error =>
    error.rejected = false ∨ span.last - span.first + 1 ≤ minLogChunkBlocks
  | .ok raw => ∀ entries, raw = .array entries →
    ∃ entry ∈ entries, (∀ fields, entry ≠ .object fields) ∨
      isRemoved entry = false ∧ filter.Matches entry = false

variable {filter : LogFilter} {span : Span ℕ}

theorem readEntries_ok {entries logs : List Json} (h : readEntries filter span entries = .ok logs) :
    logs = entries.filter fun entry => !isRemoved entry := by
  induction entries generalizing logs with
  | nil => exact (Except.ok.inj h).symm
  | cons entry rest ih =>
    cases entry with
    | object fields =>
      rw [readEntries] at h
      split_ifs at h with hremoved hmatches
      · rw [List.filter_cons_of_neg (by rw [hremoved]; decide)]
        exact ih h
      · obtain ⟨later, hlater, hlogs⟩ := bind_eq_ok_iff.mp h
        rw [List.filter_cons_of_pos (by rw [eq_false_of_ne_true hremoved]; rfl), ← ih hlater]
        exact (Except.ok.inj hlogs).symm
    | _ => cases h

theorem readLogs_ok {raw : Json} {logs : List Json} (h : readLogs filter span raw = .ok logs) :
    logs = kept raw := by
  cases raw with
  | array entries => exact readEntries_ok h
  | _ => cases h

theorem readEntries_error {entries : List Json} {error : SnapshotError}
    (h : readEntries filter span entries = .error error) :
    ∃ entry ∈ entries, (∀ fields, entry ≠ .object fields) ∨
      isRemoved entry = false ∧ filter.Matches entry = false := by
  induction entries with
  | nil => cases h
  | cons entry rest ih =>
    cases entry with
    | object fields =>
      rw [readEntries] at h
      split_ifs at h with hremoved hmatches
      · obtain ⟨entry, hentry, hbad⟩ := ih h
        exact ⟨entry, List.mem_cons_of_mem _ hentry, hbad⟩
      · cases hlater : readEntries filter span rest with
        | ok later =>
          rw [hlater] at h
          cases h
        | error later =>
          obtain ⟨entry, hentry, hbad⟩ := ih (hlater.trans (by rw [hlater] at h; exact h))
          exact ⟨entry, List.mem_cons_of_mem _ hentry, hbad⟩
      · exact ⟨_, List.mem_cons_self,
          .inr ⟨eq_false_of_ne_true hremoved, eq_false_of_ne_true hmatches⟩⟩
    | _ => exact ⟨_, List.mem_cons_self, .inl fun fields h => by cases h⟩

theorem readLogs_error {raw : Json} {error : SnapshotError} {minLogChunkBlocks : ℕ}
    (h : readLogs filter span raw = .error error) :
    Fails filter minLogChunkBlocks span (.ok raw) := by
  rintro entries rfl
  exact readEntries_error h

/-- What the trace of a scan and its end say. -/
def Outcome (filter : LogFilter) (minLogChunkBlocks start toBlock : ℕ) (events : List LogEvent) :
    Except SnapshotError (List Json) → Prop
  | .ok logs =>
    Tiles start toBlock ((answers events).map Prod.fst) ∧
      logs = (answers events).flatMap fun answer => kept answer.2
  | .error _ =>
    ∃ before request reply, events = before ++ [⟨request, reply⟩] ∧
      Fails filter minLogChunkBlocks request.span reply

section Outcome

variable {minLogChunkBlocks toBlock start length : ℕ} {events later : List LogEvent}
  {r : Except SnapshotError (List Json)}

theorem Outcome.error {error : SnapshotError} {request : GetLogs} {reply : Except CallError Json}
    (h : Fails filter minLogChunkBlocks request.span reply) :
    Outcome filter minLogChunkBlocks start toBlock [⟨request, reply⟩] (.error error) :=
  ⟨[], request, reply, rfl, h⟩

/-- A refusal before the rest of a scan. -/
theorem Outcome.refused (h : Outcome filter minLogChunkBlocks start toBlock later r)
    (request : GetLogs) (error : CallError) :
    Outcome filter minLogChunkBlocks start toBlock (⟨request, .error error⟩ :: later) r := by
  cases r with
  | ok logs => exact h
  | error _ =>
    obtain ⟨before, request', reply, rfl, hfails⟩ := h
    exact ⟨_ :: before, request', reply, rfl, hfails⟩

/-- An answer before the rest of a scan, which goes on after its span. -/
theorem Outcome.answered (h : Outcome filter minLogChunkBlocks (span.last + 1) toBlock later r)
    (hspan : span.first ≤ span.last) (raw : Json) :
    Outcome filter minLogChunkBlocks span.first toBlock (⟨⟨filter, span⟩, .ok raw⟩ :: later)
      (r.map (kept raw ++ ·)) := by
  cases r with
  | ok logs =>
    obtain ⟨htiles, rfl⟩ := h
    exact ⟨.cons hspan htiles, rfl⟩
  | error _ =>
    obtain ⟨before, request', reply, rfl, hfails⟩ := h
    exact ⟨_ :: before, request', reply, rfl, hfails⟩

/-- The loop goes through its range, with at most as many requests as there are blocks left and
steps left to shorten the span. -/
theorem scanFrom_yields {hmin : 0 < minLogChunkBlocks} {hspan : 0 < length}
    (hstart : start ≤ toBlock + 1)
    (h : (scanFrom filter minLogChunkBlocks toBlock hmin start length hspan).run.Yields events r) :
    events.length ≤ toBlock + 1 - start + length ∧
      Outcome filter minLogChunkBlocks start toBlock events r := by
  induction hmeasure : toBlock + 1 - start + length using Nat.strong_induction_on
    generalizing start length events r with
  | _ measure ih =>
    subst hmeasure
    rw [scanFrom] at h
    split_ifs at h with hle
    · obtain ⟨hfirst, hlast, hlength⟩ := nextSpan_bounds toBlock hle hspan
      obtain ⟨before, reply, after, hbefore, hafter, rfl⟩ := yields_run_lift_bind.mp h
      obtain rfl := yields_perform.mp hbefore
      rw [List.singleton_append, List.length_cons]
      cases reply with
      | error error =>
        dsimp only at hafter
        split_ifs at hafter with hlong
        -- refused for its length: the same blocks again, in a span of half the length
        · have hlt := (halved_lt minLogChunkBlocks hlong.2 hmin).trans_le hlength
          obtain ⟨hcount, hrest⟩ := ih _ (Nat.add_lt_add_left hlt _) hstart hafter rfl
          exact ⟨by omega, hrest.refused _ _⟩
        -- refused for good
        · obtain ⟨rfl, rfl⟩ := hafter
          refine ⟨by rw [List.length_nil]; omega, .error ?_⟩
          rcases not_and_or.mp hlong with hrejected | hshort
          · exact .inl (eq_false_of_ne_true hrejected)
          · exact .inr (not_lt.mp hshort)
      | ok raw =>
        dsimp only at hafter
        rcases yields_run_bind.mp hafter with ⟨error, hread, rfl⟩ |
          ⟨none', logs, rest, hread, hrest, rfl⟩
        · obtain ⟨rfl, hread⟩ := hread
          exact ⟨by rw [List.length_nil]; omega, .error (readLogs_error hread.symm)⟩
        · obtain ⟨rfl, hread⟩ := hread
          obtain rfl := readLogs_ok hread.symm
          -- answered: the rest of the range follows, whatever comes of it
          have goes : ∀ {events r'}, (scanFrom filter minLogChunkBlocks toBlock hmin
              ((nextSpan toBlock start length).last + 1) length hspan).run.Yields events r' →
              events.length + 1 ≤ toBlock + 1 - start + length ∧
                Outcome filter minLogChunkBlocks start toBlock
                  (⟨⟨filter, nextSpan toBlock start length⟩, .ok raw⟩ :: events)
                  (r'.map (kept raw ++ ·)) := fun hlater => by
            obtain ⟨hcount, houtcome⟩ := ih _ (by omega) (Nat.add_le_add_right hlast 1) hlater rfl
            exact ⟨by omega, houtcome.answered hfirst raw⟩
          rcases yields_run_bind.mp hrest with ⟨error, hlater, rfl⟩ |
            ⟨later, logs, last, hlater, ⟨rfl, rfl⟩, rfl⟩
          · exact goes hlater
          · rw [List.append_nil]
            exact goes hlater
    · obtain ⟨rfl, rfl⟩ := h
      exact ⟨Nat.zero_le _, Nat.le_antisymm hstart (Nat.lt_of_not_le hle), rfl⟩

end Outcome

/-! ### An exact endpoint -/

/-- The logs of a chain that match the filter at the blocks of a set. -/
def matching (filter : LogFilter) (chain : List (ℕ × Json)) (blocks : ℕ → Bool) : List Json :=
  (chain.filter fun log => blocks log.1 && filter.Matches log.2).map Prod.snd

/-- The endpoint answers with the matching logs of the span, in some order, or with an error. -/
def AnswersExactly (filter : LogFilter) (chain : List (ℕ × Json)) (event : LogEvent) : Prop :=
  ∀ raw, event.2 = .ok raw →
    ∃ entries, raw = .array entries ∧
      entries.Perm (matching filter chain fun block => event.1.span.Has block)

variable {chain : List (ℕ × Json)} {events : List LogEvent}

/-- What is kept of exact answers, answer by answer, is the matching logs of the spans. -/
theorem kept_perm_of_exact (h : ∀ event ∈ events, AnswersExactly filter chain event) :
    ((answers events).flatMap fun answer => kept answer.2).Perm
      (((answers events).map Prod.fst).flatMap fun span =>
        (matching filter chain fun block => span.Has block).filter fun entry =>
          !isRemoved entry) := by
  induction events with
  | nil => exact .refl _
  | cons event events ih =>
    obtain ⟨hevent, hevents⟩ := List.forall_mem_cons.mp h
    obtain ⟨request, error | raw⟩ := event
    · exact ih hevents
    · obtain ⟨entries, rfl, hentries⟩ := hevent raw rfl
      exact (hentries.filter _).append (ih hevents)

/-- The kept matching logs, with the blocks tested last. -/
theorem filter_matching (blocks : ℕ → Bool) :
    ((matching filter chain blocks).filter fun entry => !isRemoved entry) =
      ((chain.filter fun log => filter.Matches log.2 && !isRemoved log.2).filter
        fun log => blocks log.1).map Prod.snd := by
  rw [matching, List.filter_map, List.filter_filter, List.filter_filter]
  refine congrArg _ (List.filter_congr fun log _ => ?_)
  rw [Function.comp_apply, Bool.and_left_comm, Bool.and_comm (!isRemoved log.2)]

/-- The matching logs of the spans that tile a range are those of the range. -/
theorem matching_perm_of_tiles {fromBlock toBlock : ℕ} {spans : List (Span ℕ)}
    (h : Tiles fromBlock toBlock spans) :
    (spans.flatMap fun span => (matching filter chain fun block => span.Has block).filter
        fun entry => !isRemoved entry).Perm
      ((matching filter chain fun block => fromBlock ≤ block ∧ block ≤ toBlock).filter
        fun entry => !isRemoved entry) := by
  simp only [filter_matching, ← List.map_flatMap]
  exact (h.perm _ Prod.fst).map Prod.snd

/-- For settings in their range and any endpoint the scan ends. When it returns, the spans that
were answered tile the range and it returns what is kept of the answers in their order; with an
exact endpoint these are the matching logs of the range that are not removed, each once. When it
throws, its last reply is one for which it has to.

Each request either answers the next blocks, so that the spans answered stay a tiling, or shortens
the span. Their number is bounded by the blocks and the steps that are left, on which the induction
is (`scanFrom_yields`). -/
theorem scanLogs_exact {fromBlock toBlock : ℕ} {logChunkBlocks minLogChunkBlocks : ℤ}
    {r : Except SnapshotError (List Json)}
    (hchunk : 0 ≤ logChunkBlocks ∧ logChunkBlocks < safeBound)
    (hmin : 1 ≤ minLogChunkBlocks ∧ minLogChunkBlocks < safeBound)
    (h : (scanLogs filter fromBlock toBlock logChunkBlocks minLogChunkBlocks).run.Yields events r) :
    events.length ≤ toBlock + 1 - fromBlock + firstLength fromBlock toBlock logChunkBlocks ∧
      match r with
      | .ok logs =>
        (toBlock < fromBlock ∧ events = [] ∨
          Tiles fromBlock toBlock ((answers events).map Prod.fst)) ∧
        (logs = (answers events).flatMap fun answer => kept answer.2) ∧
        ∀ chain, (∀ event ∈ events, AnswersExactly filter chain event) →
          logs.Perm ((matching filter chain fun block => fromBlock ≤ block ∧ block ≤ toBlock).filter
            fun entry => !isRemoved entry)
      | .error _ =>
        ∃ before request reply, events = before ++ [⟨request, reply⟩] ∧
          Fails filter minLogChunkBlocks.toNat request.span reply := by
  rw [scanLogs, dif_neg (by omega), dif_neg (by omega)] at h
  split_ifs at h with hrange
  · obtain ⟨hcount, houtcome⟩ := scanFrom_yields (Nat.le_succ_of_le hrange) h
    refine ⟨hcount, ?_⟩
    cases r with
    | ok logs =>
      obtain ⟨htiles, hlogs⟩ := houtcome
      refine ⟨.inr htiles, hlogs, fun chain hexact => ?_⟩
      rw [hlogs]
      exact (kept_perm_of_exact hexact).trans (matching_perm_of_tiles htiles)
    | error _ => exact houtcome
  · obtain ⟨rfl, rfl⟩ := h
    refine ⟨Nat.zero_le _, .inl ⟨not_le.mp hrange, rfl⟩, rfl, fun chain _ => ?_⟩
    have hnone : (matching filter chain fun block => fromBlock ≤ block ∧ block ≤ toBlock) = [] := by
      rw [matching, List.filter_eq_nil_iff.mpr, List.map_nil]
      intro log _ hlog
      rw [Bool.and_eq_true, decide_eq_true_eq] at hlog
      exact hrange (hlog.1.1.trans hlog.1.2)
    rw [hnone]
    exact .refl _

/-! ### A scan of two blocks, whose first span is refused -/

/-- A filter without a topic. -/
def sampleFilter : LogFilter := ⟨"0xregistry", none⟩

/-- A log of the filter's address. -/
def sampleLog (removed : Bool) : Json :=
  .object [("address", .string "0xregistry"), ("topics", .array []), ("removed", .bool removed)]

/-- A log in the first block, and one in the second that was removed. -/
def sampleChain : List (ℕ × Json) := [(0, sampleLog false), (1, sampleLog true)]

/-- Both blocks at once are refused, and then each is answered. -/
def sampleEvents : List LogEvent :=
  [⟨⟨sampleFilter, ⟨0, 1⟩⟩, .error ⟨some "rpc", "too many results"⟩⟩,
    ⟨⟨sampleFilter, ⟨0, 0⟩⟩, .ok (.array [sampleLog false])⟩,
    ⟨⟨sampleFilter, ⟨1, 1⟩⟩, .ok (.array [sampleLog true])⟩]

theorem matches_sampleLog (removed : Bool) : sampleFilter.Matches (sampleLog removed) = true := by
  cases removed <;> decide

theorem readLogs_sample (span : Span ℕ) :
    readLogs sampleFilter span (.array [sampleLog false]) = .ok [sampleLog false] ∧
      readLogs sampleFilter span (.array [sampleLog true]) = .ok [] := by
  have hmatches := matches_sampleLog false
  rw [sampleLog] at hmatches
  constructor
  · simp [readLogs, readEntries, sampleLog, hmatches, isRemoved, Json.field, List.lookup_cons]
  · simp [readLogs, readEntries, sampleLog, isRemoved, Json.field, List.lookup_cons]

theorem yields_scanLogs_sample :
    (scanLogs sampleFilter 0 1 0 1).run.Yields sampleEvents (.ok [sampleLog false]) := by
  rw [scanLogs, dif_neg (by decide), dif_neg (by decide), dif_pos (by decide), scanFrom,
    dif_pos (by decide)]
  refine yields_run_lift_bind.mpr ⟨_, _, _, yields_perform.mpr rfl, ?_, rfl⟩
  dsimp only
  rw [dif_pos ⟨rfl, by decide⟩, scanFrom, dif_pos (by decide)]
  -- the first block is answered, and then the second
  refine yields_run_lift_bind.mpr ⟨_, _, _, yields_perform.mpr rfl, ?_, rfl⟩
  refine yields_run_bind.mpr (.inr ⟨[], [sampleLog false], _,
    ⟨rfl, (readLogs_sample _).1.symm⟩, ?_, rfl⟩)
  refine yields_run_bind.mpr (.inr ⟨[⟨⟨sampleFilter, ⟨1, 1⟩⟩, .ok (.array [sampleLog true])⟩], [],
    [], ?_, ⟨rfl, rfl⟩, rfl⟩)
  rw [scanFrom, dif_pos (by decide)]
  refine yields_run_lift_bind.mpr ⟨_, _, _, yields_perform.mpr rfl, ?_, rfl⟩
  refine yields_run_bind.mpr (.inr ⟨[], [], [], ⟨rfl, (readLogs_sample _).2.symm⟩, ?_, rfl⟩)
  refine yields_run_bind.mpr (.inr ⟨[], [], [], ?_, ⟨rfl, rfl⟩, rfl⟩)
  rw [scanFrom, dif_neg (by decide)]
  exact ⟨rfl, rfl⟩

/-- The endpoint is exact, and the scan returns the log that was not removed. -/
theorem scanLogs_exact_sample :
    sampleEvents.length ≤ 4 ∧ Tiles 0 1 [⟨0, 0⟩, ⟨1, 1⟩] ∧
      [sampleLog false].Perm ((matching sampleFilter sampleChain fun block =>
        0 ≤ block ∧ block ≤ 1).filter fun entry => !isRemoved entry) := by
  obtain ⟨hcount, htiles, -, hexact⟩ :=
    scanLogs_exact ⟨by decide, by decide⟩ ⟨by decide, by decide⟩ yields_scanLogs_sample
  refine ⟨hcount, htiles.resolve_left fun h => absurd h.1 (by decide), hexact sampleChain ?_⟩
  have hanswer : ∀ span : Span ℕ, ∀ entries : List Json,
      (matching sampleFilter sampleChain fun block => span.Has block) = entries →
        AnswersExactly sampleFilter sampleChain ⟨⟨sampleFilter, span⟩, .ok (.array entries)⟩ := by
    rintro span entries rfl raw hraw
    exact ⟨_, (Except.ok.inj hraw).symm, .refl _⟩
  intro event hevent
  simp only [sampleEvents, List.mem_cons, List.not_mem_nil, or_false] at hevent
  rcases hevent with rfl | rfl | rfl
  · exact fun raw hraw => absurd hraw nofun
  · exact hanswer ⟨0, 0⟩ _ (by simp [matching, sampleChain, matches_sampleLog, Span.Has])
  · exact hanswer ⟨1, 1⟩ _ (by simp [matching, sampleChain, matches_sampleLog, Span.Has])

end NoxSdk.Snapshot
