import NoxSdk.Client.PendingRequests
import Mathlib.Data.List.Chain

/-!
# How often bursts start

The round and the time of the last burst of a request are one entry of `burstState`. While the
entry stays, a burst starts only after `STALL_TIMEOUT_MS` and in a round up to `MAX_BURST_ROUNDS`.
A burst that fails deletes it, its own or that of a later burst, and the next signal starts over.
As long as no burst of a pending request fails, both limits hold in every run.
-/

namespace NoxSdk.Client

/-! ### Starts of bursts -/

/-- The bursts a turn starts, with the time it reads: those it appends to `bursts`. -/
def startedBursts (client : Bookkeeping) (event : RequestEvent) (after : Bookkeeping) :
    List (ℕ × ℤ) :=
  match event with
  | .needMoreSurbs _ _ now _ | .stallCheck now _ =>
    (after.bursts.drop client.bursts.length).map fun id => (id, now)
  | _ => []

/-- A client and the bursts it started. -/
structure BurstLog where
  client : Bookkeeping
  starts : List (ℕ × ℤ)

namespace BurstLog

/-- A client before its first request. -/
def initial (hasWasm : Bool) : BurstLog := ⟨.initial hasWasm, []⟩

/-- One turn. -/
def step (log : BurstLog) (event : RequestEvent) : Option BurstLog :=
  (log.client.step event).map fun after =>
    ⟨after, log.starts ++ startedBursts log.client event after⟩

/-- When the bursts of a request started. -/
def startTimes (log : BurstLog) (requestId : ℕ) : List ℤ :=
  (log.starts.filter fun start => start.1 == requestId).map Prod.snd

end BurstLog

/-- The request whose burst fails in this turn. -/
def endsInFailure : RequestEvent → Option ℕ
  | .burstFailed requestId => some requestId
  | _ => none

/-- No burst of a pending request fails in this turn. -/
def NoPendingBurstFails (log : BurstLog) (event : RequestEvent) : Prop :=
  ∀ requestId, event = .burstFailed requestId → log.client.pending.has requestId = false

instance : DecidableRel NoPendingBurstFails := fun log event =>
  decidable_of_iff
    (∀ requestId ∈ endsInFailure event, log.client.pending.has requestId = false) <| by
    cases event <;> simp [endsInFailure, NoPendingBurstFails]

/-- Starts that are far enough apart. -/
def Spaced (times : List ℤ) : Prop := times.IsChain fun a b => stallTimeoutMs ≤ b - a

/-! ### Turns that start no burst -/

section Lemmas

variable {client mid after : Bookkeeping} {requestId : ℕ}

/-- What other turns do to the state of the bursts: entries keep their round and time, and those
of requests that stay pending stay. -/
structure Quiet (client after : Bookkeeping) : Prop where
  kept : ∀ id bs', after.burstState.get? id = some bs' → ∃ bs,
    client.burstState.get? id = some bs ∧ bs'.round = bs.round ∧ bs'.sentAt = bs.sentAt
  fresh : ∀ id, after.burstState.get? id = none → after.pending.has id = true →
    client.burstState.get? id = none ∧ client.pending.has id = true ∨ client.nextRequestId ≤ id
  next : client.nextRequestId ≤ after.nextRequestId

/-- Quiet steps in turn are quiet. -/
theorem Quiet.trans (h : Quiet client mid) (h' : Quiet mid after) : Quiet client after where
  kept id bs' hget := by
    obtain ⟨bs, hbs, hround, hsent⟩ := h'.kept id bs' hget
    obtain ⟨bs₀, hbs₀, hround₀, hsent₀⟩ := h.kept id bs hbs
    exact ⟨bs₀, hbs₀, hround.trans hround₀, hsent.trans hsent₀⟩
  fresh id hnone hpending := by
    obtain ⟨hnone, hpending⟩ | hnew := h'.fresh id hnone hpending
    · exact h.fresh id hnone hpending
    · exact .inr (h.next.trans hnew)
  next := h.next.trans h'.next

/-- A turn that leaves the entries alone and adds no pending request but new ones. -/
theorem Quiet.of_same (hbursts : after.burstState = client.burstState)
    (hpending : ∀ id, after.pending.has id = true →
      client.pending.has id = true ∨ client.nextRequestId ≤ id)
    (hnext : client.nextRequestId ≤ after.nextRequestId) : Quiet client after where
  kept _ bs' hget := ⟨bs', hbursts ▸ hget, rfl, rfl⟩
  fresh _ hnone hhas := (hpending _ hhas).imp_left fun h => ⟨hbursts ▸ hnone, h⟩
  next := hnext

/-- Doing nothing is quiet. -/
theorem Quiet.refl (client : Bookkeeping) : Quiet client client :=
  .of_same rfl (fun _ h => .inl h) le_rfl

/-- An entry is deleted with its request, or after it. -/
theorem Quiet.of_delete (hbursts : after.burstState = client.burstState.delete requestId)
    (hpending : ∀ id, after.pending.has id = true →
      id ≠ requestId ∧ client.pending.has id = true)
    (hnext : client.nextRequestId ≤ after.nextRequestId) : Quiet client after where
  kept id bs' hget := by
    rw [hbursts] at hget
    by_cases hid : id = requestId
    · subst hid
      rw [OrderedMap.get?_delete_self] at hget
      cases hget
    · rw [OrderedMap.get?_delete_of_ne _ hid] at hget
      exact ⟨bs', hget, rfl, rfl⟩
  fresh id hnone hhas := by
    obtain ⟨hid, hhas⟩ := hpending id hhas
    rw [hbursts, OrderedMap.get?_delete_of_ne _ hid] at hnone
    exact .inl ⟨hnone, hhas⟩
  next := hnext

/-- The exit of a request takes its entry with it. -/
theorem quiet_forget (client : Bookkeeping) (requestId : ℕ) :
    Quiet client (client.forget requestId) :=
  .of_delete rfl (fun _ hhas => has_delete_iff.mp hhas) le_rfl

/-- Settling a request starts no burst. -/
theorem quiet_forgetAll_settle (client : Bookkeeping) (requestId : ℕ)
    (settlement : PromiseOutcome) :
    Quiet client ((client.forgetAll requestId).settle requestId settlement) :=
  (quiet_forget client requestId).trans (.of_same rfl (fun _ h => .inl h) le_rfl)

/-- Failing a request starts no burst. -/
theorem quiet_failPending (client : Bookkeeping) (requestId : ℕ) (error : Thrown) :
    Quiet client (client.failPending requestId error) := by
  rw [Bookkeeping.failPending]
  split
  · exact .refl client
  · exact quiet_forgetAll_settle client requestId _

/-- A new request starts no burst. -/
theorem quiet_register (client : Bookkeeping) (request : SentRequest) :
    Quiet client (client.register request) := by
  refine .of_same rfl (fun id hid => ?_) (Nat.le_succ _)
  obtain rfl | hid := has_set_iff.mp hid
  · exact .inr le_rfl
  · exact .inl hid

/-- Sending a request starts no burst. -/
theorem quiet_sendOnRoute (client : Bookkeeping) (request : SentRequest) :
    Quiet client (client.sendOnRoute request) := by
  rw [Bookkeeping.sendOnRoute]
  split_ifs
  · exact (quiet_register client request).trans (quiet_failPending _ _ _)
  · exact (quiet_register client request).trans (.of_same rfl (fun _ h => .inl h) le_rfl)

/-- A timeout starts no burst. -/
theorem quiet_responseTimeout (client : Bookkeeping) (requestId effectiveTimeout : ℕ) :
    Quiet client (client.responseTimeout requestId effectiveTimeout) := by
  have hfired : Quiet client { client with
      timers := client.timers.filter fun id => id != requestId } :=
    .of_same rfl (fun _ h => .inl h) le_rfl
  rw [Bookkeeping.responseTimeout]
  dsimp only
  split_ifs
  · exact hfired.trans (quiet_forgetAll_settle _ _ _)
  · exact hfired

/-- A failed upload starts no burst. -/
theorem quiet_uploadFailed (client : Bookkeeping) (requestId : ℕ) (error : String) :
    Quiet client (client.uploadFailed requestId error) := by
  have hended : Quiet client { client with
      uploads := client.uploads.filter fun id => id != requestId } :=
    .of_same rfl (fun _ h => .inl h) le_rfl
  rw [Bookkeeping.uploadFailed]
  dsimp only
  split
  · exact hended
  · exact hended.trans (quiet_forgetAll_settle _ _ _)

/-- A fragment is noted in the entry without its round and its time. -/
theorem quiet_noteActivity (client : Bookkeeping) (requestId : ℕ) (now : ℤ) :
    Quiet client (client.noteActivity requestId now) := by
  rw [Bookkeeping.noteActivity]
  cases hget : client.burstState.get? requestId with
  | none => exact .refl client
  | some bs =>
    refine ⟨fun id bs' hbs' => ?_, fun id hnone hpending => ?_, le_rfl⟩
    · dsimp only at hbs'
      rw [OrderedMap.get?_set] at hbs'
      split_ifs at hbs' with hid
      · obtain rfl := Option.some.inj hbs'
        exact ⟨bs, hid ▸ hget, rfl, rfl⟩
      · exact ⟨bs', hbs', rfl, rfl⟩
    · dsimp only at hnone
      rw [OrderedMap.get?_set] at hnone
      split_ifs at hnone with hid
      exact .inl ⟨hnone, hpending⟩

/-- Changing a pending request starts no burst. -/
theorem quiet_setPending (hpending : client.pending.has requestId = true) (req : PendingRequest) :
    Quiet client { client with pending := client.pending.set requestId req } := by
  refine .of_same rfl (fun id hid => ?_) le_rfl
  obtain rfl | hid := has_set_iff.mp hid
  · exact .inl hpending
  · exact .inl hid

/-- A fragment starts no burst. -/
theorem quiet_handleFragment (client : Bookkeeping) (requestId : ℕ)
    (fragment : Fragmentation.Fragment) (now createdAt storedAt : ℤ) :
    Quiet client (client.handleFragment requestId fragment now createdAt storedAt) := by
  have hnoted := quiet_noteActivity client requestId now
  have hstored : ∀ req, client.pending.get? requestId = some req →
      Quiet client (client.storeFragment requestId req fragment now createdAt storedAt) := by
    intro req hget
    refine hnoted.trans (quiet_setPending ?_ _)
    rw [pending_noteActivity]
    exact has_of_get?_eq_some hget
  refine Bookkeeping.handleFragment_cases (fun _ => .refl client)
    (fun _ _ _ => hnoted.trans (quiet_failPending _ _ _)) hstored
    (fun req _ hget => (hstored req hget).trans (quiet_failPending _ _ _)) ?_
  rintro req data settled hget rfl
  exact ((hstored req hget).trans (quiet_forget _ _)).trans
    (.of_same rfl (fun _ h => .inl h) le_rfl)

/-- A burst that fails after its request is no longer pending finds no entry. -/
theorem quiet_burstFailed (hgone : client.pending.has requestId = false) :
    Quiet client (client.burstFailed requestId) := by
  refine .of_delete rfl (fun id hhas => ⟨?_, hhas⟩) le_rfl
  rintro rfl
  cases hgone.symm.trans hhas

/-! ### The limits -/

/-- The entry of a request counts its bursts and holds the time of the last one; a pending request
without an entry started none. -/
structure RateLimited (log : BurstLog) : Prop where
  agree : MapsAgree log.client
  spaced : ∀ id, Spaced (log.startTimes id)
  count : ∀ id, (log.startTimes id).length ≤ maxBurstRounds
  entry : ∀ id bs, log.client.burstState.get? id = some bs →
    bs.round = (log.startTimes id).length ∧ (log.startTimes id).getLast? = some bs.sentAt
  none : ∀ id, log.client.burstState.get? id = none → log.client.pending.has id = true →
    log.startTimes id = []
  issued : ∀ id, log.startTimes id ≠ [] → id < log.client.nextRequestId

variable {starts : List (ℕ × ℤ)}

/-- No burst has started. -/
theorem rateLimited_initial (hasWasm : Bool) : RateLimited (.initial hasWasm) where
  agree := mapsAgree_initial hasWasm
  spaced _ := .nil
  count _ := Nat.zero_le _
  entry _ _ hget := by cases hget
  none _ _ _ := rfl
  issued _ hne := absurd rfl hne

/-- A quiet step keeps the limits. -/
theorem RateLimited.quiet (h : RateLimited ⟨client, starts⟩) (hquiet : Quiet client after)
    (hagree : MapsAgree after) : RateLimited ⟨after, starts⟩ where
  agree := hagree
  spaced := h.spaced
  count := h.count
  entry id bs' hget := by
    obtain ⟨bs, hbs, hround, hsent⟩ := hquiet.kept id bs' hget
    rw [hround, hsent]
    exact h.entry id bs hbs
  none id hnone hpending := by
    obtain ⟨hnone, hpending⟩ | hnew := hquiet.fresh id hnone hpending
    · exact h.none id hnone hpending
    · by_contra hne
      exact absurd (h.issued id hne) (not_lt.mpr hnew)
  issued id hne := lt_of_lt_of_le (h.issued id hne) hquiet.next

/-- A start is one of its own request. -/
theorem startTimes_append_self (client : Bookkeeping) (requestId : ℕ) (now : ℤ) :
    BurstLog.startTimes ⟨client, starts ++ [(requestId, now)]⟩ requestId =
      BurstLog.startTimes ⟨client, starts⟩ requestId ++ [now] := by
  simp [BurstLog.startTimes]

/-- A start is none of another request. -/
theorem startTimes_append_of_ne (client : Bookkeeping) {id : ℕ} (hid : id ≠ requestId)
    (now : ℤ) :
    BurstLog.startTimes ⟨client, starts ++ [(requestId, now)]⟩ id =
      BurstLog.startTimes ⟨client, starts⟩ id := by
  simp [BurstLog.startTimes, Ne.symm hid]

/-- Where the entry lets a burst start, the burst is neither too soon nor one too many. -/
theorem RateLimited.room (h : RateLimited ⟨client, starts⟩)
    (hpending : client.pending.has requestId = true) {now : ℤ}
    (hlimits : ¬ ((client.burstState.get? requestId).any fun bs =>
      decide (now - bs.sentAt < stallTimeoutMs) || maxBurstRounds ≤ bs.round) = true) :
    ((client.burstState.get? requestId).map BurstState.round).getD 0 =
        (BurstLog.startTimes ⟨client, starts⟩ requestId).length ∧
      (BurstLog.startTimes ⟨client, starts⟩ requestId).length < maxBurstRounds ∧
      ∀ last ∈ (BurstLog.startTimes ⟨client, starts⟩ requestId).getLast?,
        stallTimeoutMs ≤ now - last := by
  cases hget : client.burstState.get? requestId with
  | none =>
    rw [h.none requestId hget hpending]
    exact ⟨rfl, by decide, by simp⟩
  | some bs =>
    obtain ⟨hround, hlast⟩ := h.entry requestId bs hget
    rw [hget, Option.any_some, Bool.or_eq_true, decide_eq_true_iff, decide_eq_true_iff, not_or,
      not_lt, not_le] at hlimits
    rw [hlast, ← hround]
    exact ⟨rfl, hlimits.2, by simpa using hlimits.1⟩

/-- A signal starts no burst, or one that keeps both limits. -/
theorem RateLimited.handleNeedMoreSurbs (h : RateLimited ⟨client, starts⟩)
    (requestId serverRequestId : ℕ) (now : ℤ) (surbs : List (String × SurbEntry)) :
    ∃ ids, (client.handleNeedMoreSurbs requestId serverRequestId now surbs).bursts =
        client.bursts ++ ids ∧
      RateLimited ⟨client.handleNeedMoreSurbs requestId serverRequestId now surbs,
        starts ++ ids.map fun id => (id, now)⟩ := by
  have hagree : MapsAgree (client.handleNeedMoreSurbs requestId serverRequestId now surbs) :=
    h.agree.handleNeedMoreSurbs serverRequestId now surbs
  rw [Bookkeeping.handleNeedMoreSurbs] at hagree ⊢
  dsimp only at hagree ⊢
  split_ifs at hagree ⊢ with hstart hlimits
  · exact ⟨[], by simp, by simpa using h⟩
  · exact ⟨[], by simp, by simpa using h⟩
  · refine ⟨[requestId], rfl, ?_⟩
    have hpending : client.pending.has requestId = true := by
      simp only [Bool.or_eq_true, Bool.not_eq_true', not_or, Bool.not_eq_false] at hstart
      exact (h.agree.paths requestId).mp hstart.2
    -- both limits leave room for one more start
    obtain ⟨hround, hcount, hgap⟩ := h.room hpending hlimits
    simp only [List.map_cons, List.map_nil]
    refine ⟨hagree, fun id => ?_, fun id => ?_, fun id bs hget => ?_, fun id hnone hid => ?_,
      fun id hne => ?_⟩
    -- the new start is last in the times of its request, and in no others
    · by_cases hid : id = requestId
      · subst hid
        rw [startTimes_append_self]
        exact (h.spaced id).append (.singleton _) (by simpa using hgap)
      · rw [startTimes_append_of_ne _ hid]
        exact h.spaced id
    · by_cases hid : id = requestId
      · subst hid
        rw [startTimes_append_self, List.length_append]
        exact hcount
      · rw [startTimes_append_of_ne _ hid]
        exact h.count id
    · dsimp only at hget
      rw [OrderedMap.get?_set] at hget
      split_ifs at hget with hid
      · subst hid
        obtain rfl := Option.some.inj hget
        rw [startTimes_append_self]
        exact ⟨by rw [hround, List.length_append]; rfl, List.getLast?_concat⟩
      · rw [startTimes_append_of_ne _ hid]
        exact h.entry id bs hget
    · dsimp only at hnone
      rw [OrderedMap.get?_set] at hnone
      split_ifs at hnone with heq
      rw [startTimes_append_of_ne _ heq]
      exact h.none id hnone hid
    · by_cases hid : id = requestId
      · subst hid
        exact h.agree.issued id hpending
      · rw [startTimes_append_of_ne _ hid] at hne
        exact h.issued id hne

/-- So does a stall check, whatever entries it visits. -/
theorem RateLimited.foldl_checkBurstStall (now : ℤ) (surbs : ℕ → List (String × SurbEntry))
    (entries : List (ℕ × BurstState)) (h : RateLimited ⟨client, starts⟩) :
    ∃ ids, (entries.foldl (Bookkeeping.checkBurstStall now surbs) client).bursts =
        client.bursts ++ ids ∧
      RateLimited ⟨entries.foldl (Bookkeeping.checkBurstStall now surbs) client,
        starts ++ ids.map fun id => (id, now)⟩ := by
  induction entries generalizing client starts with
  | nil => exact ⟨[], by simp, by simpa using h⟩
  | cons entry entries ih =>
    rw [List.foldl_cons]
    have hfirst : ∃ ids, (Bookkeeping.checkBurstStall now surbs client entry).bursts =
          client.bursts ++ ids ∧
        RateLimited ⟨Bookkeeping.checkBurstStall now surbs client entry,
          starts ++ ids.map fun id => (id, now)⟩ := by
      have hstay : ∃ ids, client.bursts = client.bursts ++ ids ∧
          RateLimited ⟨client, starts ++ ids.map fun id => (id, now)⟩ :=
        ⟨[], by simp, by simpa using h⟩
      obtain ⟨requestId, bs⟩ := entry
      simp only [Bookkeeping.checkBurstStall]
      split_ifs
      · exact hstay
      · split
        · exact hstay
        · split_ifs
          · exact hstay
          · exact h.handleNeedMoreSurbs _ _ _ _
      · exact hstay
    obtain ⟨first, hbursts, hlimited⟩ := hfirst
    obtain ⟨rest, hrest, hall⟩ := ih hlimited
    refine ⟨first ++ rest, by rw [hrest, hbursts, List.append_assoc], ?_⟩
    rw [List.map_append, ← List.append_assoc]
    exact hall

/-- One turn in which no burst of a pending request fails keeps the limits. -/
theorem RateLimited.step {log next : BurstLog} {event : RequestEvent} (h : RateLimited log)
    (hfails : NoPendingBurstFails log event) (hstep : log.step event = some next) :
    RateLimited next := by
  obtain ⟨client, starts⟩ := log
  obtain ⟨after, hafter, rfl⟩ := Option.map_eq_some_iff.mp hstep
  have hagree : MapsAgree after := h.agree.step hafter
  -- most turns start nothing
  have hquiet : ∀ (hnone : startedBursts client event after = []), Quiet client after →
      RateLimited ⟨after, starts ++ startedBursts client event after⟩ := by
    intro hnone hquiet
    rw [hnone, List.append_nil]
    exact h.quiet hquiet hagree
  cases event with
  | send request =>
    obtain rfl := eq_of_armed hafter
    exact hquiet rfl (quiet_sendOnRoute client request)
  | sendFailed surbs =>
    obtain rfl := eq_of_armed hafter
    exact hquiet rfl (.of_same rfl (fun _ hid => .inl hid) (Nat.le_succ _))
  | uploaded requestId =>
    obtain rfl := eq_of_armed hafter
    exact hquiet rfl (.of_same rfl (fun _ hid => .inl hid) le_rfl)
  | uploadFailed requestId error =>
    obtain rfl := eq_of_armed hafter
    exact hquiet rfl (quiet_uploadFailed client requestId error)
  | timeout requestId effectiveTimeout =>
    obtain rfl := eq_of_armed hafter
    exact hquiet rfl (quiet_responseTimeout client requestId effectiveTimeout)
  | abort requestId =>
    obtain rfl := eq_of_armed hafter
    have hheard : Quiet client { client with
        listeners := client.listeners.filter fun id => id != requestId } :=
      .of_same rfl (fun _ hid => .inl hid) le_rfl
    exact hquiet rfl (hheard.trans (quiet_failPending _ _ _))
  | fragment requestId fragment now createdAt storedAt =>
    obtain rfl := Option.some.inj hafter
    exact hquiet rfl (quiet_handleFragment client requestId fragment now createdAt storedAt)
  | needMoreSurbs requestId serverRequestId now surbs =>
    obtain rfl := Option.some.inj hafter
    obtain ⟨ids, hbursts, hlimited⟩ := h.handleNeedMoreSurbs requestId serverRequestId now surbs
    simpa only [startedBursts, hbursts, List.drop_left] using hlimited
  | stallCheck now surbs =>
    obtain rfl := eq_of_armed hafter
    obtain ⟨ids, hbursts, hlimited⟩ :=
      h.foldl_checkBurstStall now surbs client.burstState.entries
    rw [startedBursts, Bookkeeping.checkBurstStalls, hbursts, List.drop_left]
    exact hlimited
  | burstDone requestId =>
    obtain rfl := eq_of_armed hafter
    exact hquiet rfl (.of_same rfl (fun _ hid => .inl hid) le_rfl)
  | burstFailed requestId =>
    obtain rfl := eq_of_armed hafter
    exact hquiet rfl (quiet_burstFailed (hfails requestId rfl))
  | cleanup requestId =>
    obtain rfl := eq_of_armed hafter
    exact hquiet rfl (.of_same rfl (fun _ hid => .inl hid) le_rfl)
  | disconnect =>
    obtain rfl := Option.some.inj hafter
    refine hquiet rfl ⟨fun id bs' hget => ?_, fun id _ hid => ?_, ?_⟩
    · cases hget
    · cases hid
    · have hnext : client.disconnect.nextRequestId = client.nextRequestId :=
        (@foldl_disconnectRequest { client with stallTimer := false } client.pending.keys).1
      exact hnext.ge

end Lemmas

/-- In a run in which no burst of a pending request fails, each request starts at most
`MAX_BURST_ROUNDS` bursts, each at least `STALL_TIMEOUT_MS` after the one before it.

The invariant (`RateLimited`) says that the entry of a request counts its starts and has the time of
the last one, and that a pending request without an entry started none. A burst that fails deletes
the entry, which breaks this only while the request is pending. -/
theorem replenishment_rate_limited {hasWasm : Bool} {log : BurstLog}
    (hrun : Lib.RunWhen BurstLog.step NoPendingBurstFails (.initial hasWasm) log)
    (requestId : ℕ) :
    (log.startTimes requestId).length ≤ maxBurstRounds ∧ Spaced (log.startTimes requestId) := by
  have h : RateLimited log := hrun.invariant (rateLimited_initial hasWasm)
    fun _ _ _ h hfails hstep => h.step hfails hstep
  exact ⟨h.count requestId, h.spaced requestId⟩

/-- The burst of a request fails after its timeout; another request gets two signals, nine seconds
apart. -/
private def twoSignals : List RequestEvent :=
  lateBurst ++ [.send plainRequest, .needMoreSurbs 1 8 1000 [], .needMoreSurbs 1 8 10000 []]

/-- Two requests burst, one of them twice, and no burst of a pending request fails. -/
theorem replenishment_rate_limited_two :
    ∃ log, Lib.runEvents (Lib.checked BurstLog.step NoPendingBurstFails) (.initial true)
        twoSignals = some log ∧
      log.startTimes 0 = [1000] ∧ log.startTimes 1 = [1000, 10000] ∧
      (log.startTimes 1).length ≤ maxBurstRounds ∧ Spaced (log.startTimes 1) := by
  have hstarts : (Lib.runEvents (Lib.checked BurstLog.step NoPendingBurstFails) (.initial true)
      twoSignals).map (fun log => (log.startTimes 0, log.startTimes 1)) =
        some ([1000], [1000, 10000]) := by decide +kernel
  obtain ⟨log, hlog, htimes⟩ := Option.map_eq_some_iff.mp hstarts
  obtain ⟨hfirst, hsecond⟩ := Prod.mk.inj htimes
  exact ⟨log, hlog, hfirst, hsecond, replenishment_rate_limited (Lib.runWhen_of_checked hlog) 1⟩

/-- After a burst of a pending request failed, a signal starts another at any time. -/
theorem starts_after_failure {client : Bookkeeping} {requestId : ℕ} (h : MapsAgree client)
    (hwasm : client.hasWasm = true) (hpending : client.pending.has requestId = true)
    (serverRequestId : ℕ) (now : ℤ) (surbs : List (String × SurbEntry)) :
    ((client.burstFailed requestId).handleNeedMoreSurbs requestId serverRequestId now surbs).bursts
      = (client.burstFailed requestId).bursts ++ [requestId] := by
  have hpath : (client.burstFailed requestId).replenishment.hasPendingPath requestId = true :=
    (h.paths requestId).mpr hpending
  have hnone : (client.burstFailed requestId).burstState.get? requestId = none :=
    OrderedMap.get?_delete_self _ _
  have hwasm : (client.burstFailed requestId).hasWasm = true := hwasm
  rw [Bookkeeping.handleNeedMoreSurbs, hpath, hwasm, hnone]
  rfl

/-- The first burst fails, and the next signal comes a millisecond after the one before. -/
private def failedBurst : List RequestEvent :=
  [.send plainRequest, .needMoreSurbs 0 7 1000 [], .burstFailed 0, .needMoreSurbs 0 7 1001 []]

/-- A burst that fails lets the next one start a millisecond later. -/
theorem not_replenishment_rate_limited :
    ∃ log, Lib.runEvents BurstLog.step (.initial true) failedBurst = some log ∧
      log.startTimes 0 = [1000, 1001] ∧ ¬ Spaced (log.startTimes 0) := by
  have htimes : ∃ log, Lib.runEvents BurstLog.step (.initial true) failedBurst = some log ∧
      log.startTimes 0 = [1000, 1001] := ⟨_, rfl, by decide⟩
  obtain ⟨log, hrun, htimes⟩ := htimes
  refine ⟨log, hrun, htimes, ?_⟩
  rw [htimes, Spaced, List.isChain_cons_cons]
  exact fun h => absurd h.1 (by decide)

end NoxSdk.Client
