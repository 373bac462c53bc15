import NoxSdk.Client.ClaimRuns

/-!
# Queued acks

`queueAcks` keeps the acks of an entry at 512, and a claim takes at most 128 of them. A failed claim
queues its acks again without that bound, so there are more than 512 exactly where a claim fails
while the queued acks and its own are more together (`acks_bounded`).
-/

namespace NoxSdk.Client

open NoxSdk.Lib

namespace IdQueue

variable (queue : IdQueue) (id : String)

/-- Adding an ack makes the queue longer by one at most. -/
theorem size_add_le : (queue.add id).size ≤ queue.size + 1 := by
  rw [add]
  split_ifs
  · exact Nat.le_succ _
  · exact (List.length_append.trans (by rw [List.length_singleton, size])).le

/-- The set of the acks, with one more. -/
theorem toFinset_add : (queue.add id).ids.toFinset = insert id queue.ids.toFinset := by
  rw [add]
  split_ifs with hmem
  · rw [Finset.insert_eq_of_mem (List.mem_toFinset.mpr hmem)]
  · rw [List.toFinset_append, Finset.union_comm]
    rfl

/-- The queue holds an ack once, so its size is that of its set. -/
theorem size_eq_card : queue.size = queue.ids.toFinset.card :=
  (List.toFinset_card_of_nodup queue.nodup).symm

/-- The set of the acks, with those of a list. -/
theorem toFinset_addAll (ids : List String) :
    (ids.foldl add queue).ids.toFinset = queue.ids.toFinset ∪ ids.toFinset := by
  induction ids generalizing queue with
  | nil => simp
  | cons id ids ih =>
    rw [List.foldl_cons, ih, toFinset_add, List.toFinset_cons, Finset.insert_union,
      Finset.union_insert]

/-- A new ID goes to the end. -/
theorem ids_add_of_notMem {queue : IdQueue} {id : String} (h : id ∉ queue.ids) :
    (queue.add id).ids = queue.ids ++ [id] := by
  rw [add, dif_neg h]

end IdQueue

namespace Scheduler

variable {fair : Prop} {settings : ReplyClaimSettings} {host : ClaimHost} {s s' : Scheduler}
  {entryUrl : String}

/-- No entry has more than 512 acks queued. -/
def AcksBounded (s : Scheduler) : Prop :=
  ∀ entryUrl, (s.entryAt entryUrl).acks.size ≤ maxPendingAcks

/-- No claim carries more than 128 acks. -/
def AcksCarried (s : Scheduler) : Prop := ∀ claim ∈ s.claims, claim.acks.length ≤ maxAcksPerClaim

/-- The event is no failure of a claim whose acks and the queued ones are more than 512. -/
def AcksFit (host : ClaimHost) (s : Scheduler) : SchedulerEvent host → Prop
  | .failed index _ => ∀ claim, s.claims[index]? = some claim →
    ((s.entryAt claim.entryUrl).acks.ids.toFinset ∪ claim.acks.toFinset).card ≤ maxPendingAcks
  | _ => True

instance : DecidableRel (AcksFit host) := fun s event =>
  match event with
  | .failed index _ => inferInstanceAs (Decidable (∀ claim ∈ s.claims[index]?,
      ((s.entryAt claim.entryUrl).acks.ids.toFinset ∪ claim.acks.toFinset).card ≤ maxPendingAcks))
  | .track .. | .noteFragment .. | .tick _ | .kick _ | .answered .. | .delivered | .probed .. =>
    isTrue trivial

/-- Queueing acks drops the oldest ones beyond the cap. -/
theorem size_queueAcks_le {state : EntryState} (h : state.acks.size ≤ maxPendingAcks)
    (ids : List String) : (state.queueAcks settings ids).acks.size ≤ maxPendingAcks := by
  rw [EntryState.queueAcks]
  split_ifs
  · exact h
  refine List.foldlRecOn (motive := fun acks : IdQueue => acks.size ≤ maxPendingAcks) _ _ h ?_
  intro acks hacks id _
  dsimp only
  have hadded := acks.size_add_le id
  split_ifs with hfull
  · -- the ack that is one too many takes the place of the oldest
    rw [IdQueue.drop, IdQueue.size, List.length_drop]
    rw [IdQueue.size] at hadded
    omega
  · exact not_lt.mp hfull

/-- An entry within the cap may replace any other. -/
theorem AcksBounded.setEntry (h : s.AcksBounded) {state : EntryState}
    (hstate : state.acks.size ≤ maxPendingAcks) : (s.setEntry entryUrl state).AcksBounded :=
  forall_entryAt_setEntry (P := fun state => state.acks.size ≤ maxPendingAcks) h hstate

/-- A change that is no failed claim keeps the cap. -/
theorem AcksBounded.change (h : s.AcksBounded) (hchange : Change fair settings host s s') :
    s'.AcksBounded := by
  cases hchange with
  | acks entryUrl ids =>
    rcases queueAcks_cases settings s entryUrl ids with heq | heq
    · rwa [heq]
    · rw [heq]
      exact h.setEntry (size_queueAcks_le (h entryUrl) ids)
  | entry entryUrl state hbooks =>
    refine h.setEntry ?_
    rw [hbooks.acks]
    exact h entryUrl
  | claim entryUrl batch _ =>
    have hdrop := (List.drop_sublist maxAcksPerClaim (s.entryAt entryUrl).acks.ids).length_le
    have hlaunched : (s.setEntry entryUrl ((s.entryAt entryUrl).launch
        ((s.entryAt entryUrl).newClaim settings host entryUrl batch))).AcksBounded :=
      h.setEntry (hdrop.trans (h entryUrl))
    exact hlaunched
  | _ => exact h

/-- So do changes in turn. -/
theorem AcksBounded.changes (h : s.AcksBounded) (hchanges : Changes fair settings host s s') :
    s'.AcksBounded :=
  hchanges.keeps h fun _ _ ht hchange => ht.change hchange

/-- A claim that ends keeps the cap, if the queue that it leaves does. -/
theorem AcksBounded.release (h : s.AcksBounded) (index : ℕ) {claim : Claim} {state : EntryState}
    (hstate : state.acks.size ≤ maxPendingAcks) : (s.release index claim state).AcksBounded := by
  have hreleased : (s.setEntry claim.entryUrl (state.release claim)).AcksBounded :=
    h.setEntry hstate
  exact hreleased

/-- A failed claim queues as many acks as are in the queue or in the claim. -/
theorem size_requeue (state : EntryState) (acks : List String) :
    (state.requeue acks).acks.size = (state.acks.ids.toFinset ∪ acks.toFinset).card := by
  rw [EntryState.requeue, IdQueue.size_eq_card, IdQueue.toFinset_addAll]

/-- Each event that meets the condition keeps the cap. -/
theorem AcksBounded.step (h : s.AcksBounded) {event : SchedulerEvent host}
    (hfit : AcksFit host s event)
    (hstep : s.step settings host event = some s') : s'.AcksBounded := by
  cases effect_of_any_step hstep with
  | track htrack =>
    rw [htrack]
    exact h
  | changes hchanges => exact h.changes hchanges
  | answered claim _ hchanges =>
    refine (h.release _ ?_).changes hchanges
    exact h claim.entryUrl
  | failed claim hclaim hchanges =>
    refine (h.release _ ?_).changes hchanges
    rw [size_requeue]
    exact hfit claim hclaim

/-- A change does not touch the acks of claims in flight, and starts a claim with few enough. -/
theorem AcksCarried.change (h : s.AcksCarried) (hchange : Change fair settings host s s') :
    s'.AcksCarried := by
  cases hchange with
  | acks entryUrl ids =>
    rw [AcksCarried, claims_queueAcks]
    exact h
  | claim entryUrl batch _ =>
    exact List.forall_mem_append.mpr ⟨h, List.forall_mem_singleton.mpr (List.length_take_le _ _)⟩
  | _ => exact h

/-- So do changes in turn. -/
theorem AcksCarried.changes (h : s.AcksCarried) (hchanges : Changes fair settings host s s') :
    s'.AcksCarried :=
  hchanges.keeps h fun _ _ ht hchange => ht.change hchange

/-- The other claims carry what they carried. -/
theorem AcksCarried.release (h : s.AcksCarried) (index : ℕ) (claim : Claim) (state : EntryState) :
    (s.release index claim state).AcksCarried :=
  fun other hother => h other (List.mem_of_mem_eraseIdx hother)

/-- Each event leaves claims with few enough acks. -/
theorem AcksCarried.step (h : s.AcksCarried) {event : SchedulerEvent host}
    (hstep : s.step settings host event = some s') :
    s'.AcksCarried := by
  cases effect_of_any_step hstep with
  | track htrack =>
    rw [htrack]
    exact h
  | changes hchanges => exact h.changes hchanges
  | answered claim _ hchanges => exact (h.release _ claim _).changes hchanges
  | failed claim _ hchanges => exact (h.release _ claim _).changes hchanges

/-- In every run a claim carries at most 128 acks. In a run where no claim fails while the queued
acks of its entry and its own are more than 512 together, no entry ever has more than 512.

A claim takes at most 128 acks from the queue, and nothing adds to a claim in flight. The queue is
capped wherever acks are queued, but not where a failed claim gives its acks back; there the
condition is what bounds it. -/
theorem acks_bounded (settings : ReplyClaimSettings) (host : ClaimHost) (s : Scheduler) :
    (Run (step settings host) init s →
      ∀ claim ∈ s.claims, claim.acks.length ≤ maxAcksPerClaim) ∧
    (RunWhen (step settings host) (AcksFit host) init s →
      ∀ entryUrl state, s.entries.get? entryUrl = some state →
        state.acks.size ≤ maxPendingAcks) := by
  constructor
  · intro hrun
    have hcarried : s.AcksCarried :=
      hrun.invariant nofun fun _ _ _ hcarried hstep => hcarried.step hstep
    exact hcarried
  · intro hrun entryUrl state hget
    have hbounded : s.AcksBounded := by
      refine hrun.invariant (fun _ => Nat.zero_le _) ?_
      exact fun t event t' hbounded hfit hstep => hbounded.step hfit hstep
    rw [← entryAt_of_get? hget]
    exact hbounded entryUrl

/-! ### A failure with a full queue -/

/-- Settings with one claim at a time. -/
def oneClaim : ReplyClaimSettings := { replyClaimDefaults with maxClaimsInFlight := 1 }

/-- A pass in which no request waits any more. -/
def settledView : HostView sampleHost where
  now := 0
  isPending _ := false
  activeIds _ := []
  skipEntry _ := false

/-- The first claim of a request finds out that the entry speaks version 2. -/
def firstEvents : List (SchedulerEvent sampleHost) :=
  [.track 1 "entry" ["a"] 1 0, .kick (sampleView 0 ["a"]),
    .answered 0 ⟨[], .empty, 0, some true, none, ⟨0, 0, 0⟩⟩ 1, .delivered]

/-- The ack is claimed, and the claim fails. -/
def failedEvents : List (SchedulerEvent sampleHost) :=
  firstEvents ++ [.tick settledView, .failed 0 2]

/-- A run in which a claim fails and gives its ack back. -/
theorem acks_bounded_sample :
    ∃ s : Scheduler, runEvents (checked (step oneClaim sampleHost) (AcksFit sampleHost)) init
        failedEvents = some s ∧
      (s.entryAt "entry").acks.ids = ["a"] ∧
      ∀ entryUrl state, s.entries.get? entryUrl = some state →
        state.acks.size ≤ maxPendingAcks := by
  have hrun : (runEvents (checked (step oneClaim sampleHost) (AcksFit sampleHost)) init
      failedEvents).map (fun s : Scheduler => (s.entryAt "entry").acks.ids) =
        some ["a"] := by decide +kernel
  obtain ⟨s, hs, hacks⟩ := Option.map_eq_some_iff.mp hrun
  exact ⟨s, hs, hacks, (acks_bounded oneClaim sampleHost s).2 (runWhen_of_checked hs)⟩

/-- The scheduler has seen one entry, which speaks version 2, and has no targets. -/
structure Ready (s : Scheduler) (queued : List String) (carried : List (List String)) : Prop where
  targets : s.targets = .empty
  keys : s.entries.keys = ["entry"]
  v2 : (s.entryAt "entry").v2 = some true
  queued : (s.entryAt "entry").acks.ids = queued
  carried : s.claims.map Claim.acks = carried
  count : (s.entryAt "entry").claims = s.claims.length
  entryUrl : ∀ claim ∈ s.claims, claim.entryUrl = "entry"

/-- New IDs are queued in order while they are not too many. -/
theorem ids_queueAcks {state : EntryState} (hv2 : state.v2 = some true)
    (hretain : settings.retain = true) {ids : List String} (hnodup : (state.acks.ids ++ ids).Nodup)
    (hlength : (state.acks.ids ++ ids).length ≤ maxPendingAcks) :
    (state.queueAcks settings ids).acks.ids = state.acks.ids ++ ids := by
  rw [EntryState.queueAcks, if_neg (by simp [hv2, hretain])]
  generalize state.acks = queue at hnodup hlength ⊢
  induction ids generalizing queue with
  | nil => exact (List.append_nil _).symm
  | cons id ids ih =>
    have hnew : id ∉ queue.ids := fun hmem =>
      (List.nodup_append.mp hnodup).2.2 id hmem id List.mem_cons_self rfl
    have hadded := IdQueue.ids_add_of_notMem hnew
    have hsize : (queue.add id).size ≤ maxPendingAcks := by
      rw [IdQueue.size, hadded]
      rw [List.length_append, List.length_cons] at hlength
      rw [List.length_append, List.length_singleton]
      omega
    rw [List.foldl_cons]
    dsimp only
    rw [if_neg (not_lt.mpr hsize), List.append_cons, ← hadded]
    rw [List.append_cons, ← hadded] at hnodup hlength
    exact ih _ hnodup hlength

variable {queued : List String} {carried : List (List String)}

/-- Changing the only entry adds no other. -/
theorem keys_setEntry (hkeys : s.entries.keys = ["entry"]) (state : EntryState) :
    (s.setEntry "entry" state).entries.keys = ["entry"] := by
  have hhas : s.entries.has "entry" = true :=
    OrderedMap.has_iff.mpr (hkeys ▸ List.mem_singleton_self _)
  obtain ⟨before, hget⟩ := Option.isSome_iff_exists.mp hhas
  rw [← hkeys, OrderedMap.keys, setEntry, OrderedMap.entries_set_of_has hget, List.map_map]
  refine List.map_congr_left fun e _ => ?_
  by_cases he : e.1 = "entry" <;> simp [he]

/-- A request is tracked and settles before it was claimed. -/
theorem pass_settled (h : s.Ready queued carried) (requestId : ℕ) (ids : List String) :
    ∃ t : Scheduler, s.track requestId "entry" ids 1 0 = t ∧ t.entries = s.entries ∧
      t.claims = s.claims ∧ t.pass oneClaim settledView =
        ({ t with targets := .empty }.setEntry "entry"
          ((s.entryAt "entry").queueAcks oneClaim ids)).flushEntry oneClaim sampleHost .empty
            "entry" := by
  have hhas : s.entries.has "entry" = true :=
    OrderedMap.has_iff.mpr (h.keys ▸ List.mem_singleton_self _)
  obtain ⟨state, hget⟩ := Option.isSome_iff_exists.mp hhas
  refine ⟨_, rfl, rfl, rfl, ?_⟩
  rw [track, h.targets]
  set target : Target := ⟨requestId, "entry", ids, 0, 1, none, false⟩
  have hvalues : ((OrderedMap.empty : OrderedMap ℕ Target).set requestId target).values =
      [target] := rfl
  have hdelete : ((OrderedMap.empty : OrderedMap ℕ Target).set requestId target).delete
      requestId = .empty := by
    rw [OrderedMap.delete_set]
    rfl
  set t : Scheduler := { s with
    targets := OrderedMap.empty.set requestId target
    timer := true
    kickQueued := true
    tracked := s.tracked.set requestId "entry" } with ht
  have hgroups : t.byEntry oneClaim settledView = .empty := by
    rw [byEntry, ht, hvalues]
    rfl
  have hsweep : t.sweep oneClaim settledView =
      { t with targets := .empty }.setEntry "entry"
        ((s.entryAt "entry").queueAcks oneClaim ids) := by
    rw [sweep, ht, hvalues, List.foldl_cons, List.foldl_nil, sweepTarget,
      if_neg (by simp [settledView]), queueAcks]
    dsimp only
    rw [hget, hdelete, entryAt_of_get? hget]
  have hkeys := keys_setEntry (s := { t with targets := .empty }) h.keys
    ((s.entryAt "entry").queueAcks oneClaim ids)
  rw [pass, hgroups, OrderedMap.entries_empty, List.foldl_nil, hsweep, flushAcks, hkeys,
    List.foldl_cons, List.foldl_nil]

/-- The acks of the request are queued, and taken by a claim of their own when there is none in
flight. -/
theorem ready_settled (h : s.Ready queued carried) (requestId : ℕ) {ids : List String}
    (hne : queued ++ ids ≠ [])
    (hnodup : (queued ++ ids).Nodup) (hlength : (queued ++ ids).length ≤ maxPendingAcks) :
    ∃ t, runEvents (step oneClaim sampleHost) s
        [.track requestId "entry" ids 1 0, .tick settledView] = some t ∧
      if carried = [] then
        t.Ready ((queued ++ ids).drop maxAcksPerClaim) [(queued ++ ids).take maxAcksPerClaim]
      else t.Ready (queued ++ ids) carried := by
  obtain ⟨t, htrack, hentries, hclaims, hpass⟩ := pass_settled h requestId ids
  have hids : ((s.entryAt "entry").queueAcks oneClaim ids).acks.ids = queued ++ ids := by
    rw [ids_queueAcks h.v2 rfl (h.queued ▸ hnodup) (h.queued ▸ hlength), h.queued]
  have hstate : ((s.entryAt "entry").queueAcks oneClaim ids).v2 = some true ∧
      ((s.entryAt "entry").queueAcks oneClaim ids).claims = s.claims.length := by
    rw [EntryState.queueAcks]
    split_ifs <;> exact ⟨h.v2, h.count⟩
  set state := (s.entryAt "entry").queueAcks oneClaim ids
  set u := { t with targets := .empty }.setEntry "entry" state with hu
  have hentry : u.entryAt "entry" = state := entryAt_setEntry_self _
  have hkeys : u.entries.keys = ["entry"] :=
    keys_setEntry (s := { t with targets := .empty }) (hentries ▸ h.keys) state
  have hcarried : u.claims.map Claim.acks = carried := by rw [← h.carried, ← hclaims]; rfl
  have hlimit : (state.limits oneClaim).maxClaims = 1 := by rw [EntryState.limits, hstate.1]; rfl
  have hsize : state.acks.size ≠ 0 := by
    rw [IdQueue.size, hids]
    exact fun hzero => hne (List.eq_nil_of_length_eq_zero hzero)
  have hguard : ¬(state.acks.size = 0 ∨ state.v2 ≠ some true ∨
      (OrderedMap.empty : OrderedMap String (List Target)).has "entry" = true) := by
    simp [hsize, hstate.1, OrderedMap.has]
  -- the flush claims the first acks when no claim is in flight, and queues them all otherwise
  have hready : if carried = [] then
      (u.flushEntry oneClaim sampleHost .empty "entry").Ready
        ((queued ++ ids).drop maxAcksPerClaim) [(queued ++ ids).take maxAcksPerClaim]
      else (u.flushEntry oneClaim sampleHost .empty "entry").Ready (queued ++ ids) carried := by
    rw [flushEntry, hentry, if_neg hguard, hlimit, hstate.2]
    have hlength : s.claims.length = carried.length := by rw [← h.carried, List.length_map]
    rw [hlength]
    split_ifs with hnone hfull hfull
    · simp [hnone] at hfull
    · have hclaimed : (u.claim oneClaim sampleHost "entry" .empty).entryAt "entry" =
          (u.entryAt "entry").launch
            ((u.entryAt "entry").newClaim oneClaim sampleHost "entry" .empty) :=
        entryAt_launch_self _
      have hnil : u.claims = [] := List.map_eq_nil_iff.mp (hcarried.trans hnone)
      have hzero : state.claims = 0 := by rw [hstate.2, hlength, hnone, List.length_nil]
      rw [hentry] at hclaimed
      refine ⟨rfl, keys_setEntry hkeys _, ?_, ?_, ?_, ?_, ?_⟩
      · rw [hclaimed]
        exact hstate.1
      · rw [hclaimed, ← hids]
        rfl
      · rw [Scheduler.claim, hentry, Scheduler.launch, hnil, ← hids]
        rfl
      · rw [hclaimed, Scheduler.claim, Scheduler.launch, hnil, EntryState.launch, hzero]
        rfl
      · rw [Scheduler.claim, Scheduler.launch, hnil]
        exact List.forall_mem_singleton.mpr rfl
    · refine ⟨rfl, hkeys, hentry ▸ hstate.1, hentry ▸ hids, hcarried, ?_, ?_⟩
      · rw [hentry, hstate.2, hu, ← hclaims]
        rfl
      · exact fun claim hclaim => h.entryUrl claim (hclaims ▸ hclaim)
    · exact absurd (List.length_pos_iff.mpr hnone) hfull
  -- the tick may stop the timer after the pass, which `Ready` does not read
  have htick : ∀ {q c}, (t.pass oneClaim settledView).Ready q c →
      (t.tick oneClaim settledView).Ready q c := by
    intro q c hpassed
    rw [tick]
    split_ifs
    · exact ⟨hpassed.targets, hpassed.keys, hpassed.v2, hpassed.queued, hpassed.carried,
        hpassed.count, hpassed.entryUrl⟩
    · exact hpassed
  refine ⟨t.tick oneClaim settledView, ?_, ?_⟩
  · exact runEvents_cons.mpr
      ⟨t, congrArg some htrack, runEvents_cons.mpr ⟨_, rfl, runEvents_nil.mpr rfl⟩⟩
  · split_ifs at hready ⊢
    · exact htick (hpass ▸ hready)
    · exact htick (hpass ▸ hready)

/-- A failed claim of the one entry queues its acks again. -/
theorem exists_failed {acks : List String} (h : s.Ready queued [acks]) :
    ∃ t state, s.step oneClaim sampleHost (.failed 0 0) = some t ∧
      t.entries.get? "entry" = some state ∧
        state.acks.size = (queued.toFinset ∪ acks.toFinset).card := by
  obtain ⟨claim, hclaims, rfl⟩ := List.map_eq_singleton_iff.mp h.carried
  have hurl : claim.entryUrl = "entry" :=
    h.entryUrl claim (hclaims ▸ List.mem_singleton_self claim)
  have hentries : ∀ (t : Scheduler) (requests : List ℕ),
      (t.noteFailure requests 0).entries = t.entries := by
    intro t requests
    refine List.foldlRecOn (motive := fun u : Scheduler => u.entries = t.entries) _ _ rfl ?_
    intro u hu requestId _
    split <;> exact hu
  refine ⟨(s.release 0 claim ((s.entryAt claim.entryUrl).requeue claim.acks)).noteFailure
    claim.requests 0, ((s.entryAt "entry").requeue claim.acks).release claim, ?_, ?_, ?_⟩
  · rw [step, failed, hclaims]
    rfl
  · rw [hentries, Scheduler.release, hurl]
    exact OrderedMap.get?_set_self _ _ _
  · rw [← h.queued]
    exact size_requeue _ _

/-- A hexadecimal ID made of the bits of a number. -/
def sampleId (n : ℕ) : String :=
  String.ofList ((List.range 32).map fun i => if n.testBit i then '1' else '0')

/-- The ids of the sample are different as long as their numbers fit 32 bits. -/
theorem sampleId_inj {m n : ℕ} (hm : m < 2 ^ 32) (hn : n < 2 ^ 32) (h : sampleId m = sampleId n) :
    m = n := by
  refine Nat.eq_of_testBit_eq fun i => ?_
  by_cases hi : i < 32
  · have hbit := List.map_inj_left.mp (String.ofList_injective h) i (List.mem_range.mpr hi)
    cases hmi : m.testBit i <;> cases hni : n.testBit i <;> simp_all
  · have hpow : (2 : ℕ) ^ 32 ≤ 2 ^ i := Nat.pow_le_pow_right (by decide) (not_lt.mp hi)
    rw [Nat.testBit_lt_two_pow (hm.trans_le hpow), Nat.testBit_lt_two_pow (hn.trans_le hpow)]

/-- The 640 ids of the sample are different. -/
theorem nodup_sampleIds : ((List.range 640).map sampleId).Nodup := by
  refine List.Nodup.map_on (fun m hm n hn => sampleId_inj ?_ ?_) List.nodup_range
  · exact (List.mem_range.mp hm).trans (by decide)
  · exact (List.mem_range.mp hn).trans (by decide)

/-- The acks of the first request were sent, and the entry has none queued. -/
theorem exists_ready : ∃ s, Run (step oneClaim sampleHost) init s ∧ s.Ready [] [] := by
  have hrun : (runEvents (step oneClaim sampleHost) init (firstEvents ++ [.tick settledView,
      .answered 0 ⟨[], .empty, 0, some true, none, ⟨0, 0, 0⟩⟩ 1, .delivered])).map
        (fun s : Scheduler => ([s.targets.size, (s.entryAt "entry").acks.size, s.claims.length,
          (s.entryAt "entry").claims], s.entries.keys, (s.entryAt "entry").v2)) =
          some ([0, 0, 0, 0], ["entry"], some true) := by decide +kernel
  obtain ⟨s, hs, hview⟩ := Option.map_eq_some_iff.mp hrun
  simp only [Prod.mk.injEq, List.cons.injEq] at hview
  obtain ⟨⟨htargets, hacks, hclaims, hcount, -⟩, hkeys, hv2⟩ := hview
  have hnil : s.claims = [] := List.eq_nil_of_length_eq_zero hclaims
  refine ⟨s, run_of_runEvents hs, ⟨OrderedMap.size_eq_zero_iff.mp htargets, hkeys, hv2,
    List.eq_nil_of_length_eq_zero hacks, ?_, ?_, ?_⟩⟩
  · rw [hnil, List.map_nil]
  · rw [hcount, hclaims]
  · rw [hnil]
    exact nofun

/-- The 128 acks of a settled request are in a claim, 512 acks of another are queued, and the claim
fails: 640 acks are queued. -/
theorem not_acks_bounded :
    resolveReplyClaimSettings [("maxClaimsInFlight", .integer 1)] replyClaimDefaults =
        .ok oneClaim ∧
      ∃ s state, Run (step oneClaim sampleHost) init s ∧ s.entries.get? "entry" = some state ∧
        state.acks.size = 640 := by
  refine ⟨rfl, ?_⟩
  set ids := (List.range 640).map sampleId with hids
  have hnodup : (ids.take 128 ++ ids.drop 128).Nodup := by
    rw [List.take_append_drop]
    exact nodup_sampleIds
  have htake : (ids.take 128).length = 128 := by simp [hids]
  have hdrop : (ids.drop 128).length = 512 := by simp [hids]
  obtain ⟨s₀, hrun₀, hready₀⟩ := exists_ready
  -- the first acks are few enough for one claim
  obtain ⟨s₁, hevents₁, hready₁⟩ := ready_settled hready₀ 2
    (List.ne_nil_of_length_pos (by rw [List.nil_append, htake]; decide))
    (by rw [List.nil_append]; exact (List.nodup_append.mp hnodup).1)
    (by rw [List.nil_append, htake]; decide)
  have hfits : (ids.take 128).length ≤ maxAcksPerClaim := htake.le
  rw [if_pos rfl, List.nil_append, List.drop_of_length_le hfits,
    List.take_of_length_le hfits] at hready₁
  obtain ⟨s₂, hevents₂, hready₂⟩ := ready_settled hready₁ 3
    (List.ne_nil_of_length_pos (by rw [List.nil_append, hdrop]; decide))
    (by rw [List.nil_append]; exact (List.nodup_append.mp hnodup).2.1)
    (by rw [List.nil_append, hdrop]; decide)
  rw [if_neg (List.cons_ne_nil _ _), List.nil_append] at hready₂
  obtain ⟨s₃, state, hstep, hget, hsize⟩ := exists_failed hready₂
  have hrun₂ : Run (step oneClaim sampleHost) init s₂ :=
    (hrun₀.trans (run_of_runEvents hevents₁)).trans (run_of_runEvents hevents₂)
  have hrun₃ : Run (step oneClaim sampleHost) init s₃ := Run.tail hrun₂ hstep
  refine ⟨s₃, state, hrun₃, hget, ?_⟩
  rw [hsize, Finset.union_comm, ← List.toFinset_append, List.toFinset_card_of_nodup hnodup,
    List.length_append, htake, hdrop]

end Scheduler
end NoxSdk.Client
