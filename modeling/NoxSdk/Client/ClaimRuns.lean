import NoxSdk.Client.ClaimPasses

/-!
# Claims over runs

In every run before `close` no ID is in two claims in flight, the books of an entry are exactly its
claims in flight, and both are within the limits (`claims_exclusive`). The timer runs while there is
a target, a queued ack or a claim in flight (`timer_armed`): where only a claim is left, no ack is
queued, and the acks that its failure queues again find the timer running.
-/

namespace NoxSdk.Client.Scheduler

open NoxSdk.Lib EntryState

variable {fair : Prop} {settings : ReplyClaimSettings} {host : ClaimHost} {view : HostView host}
  {s s' : Scheduler} {entryUrl : String}

/-! ### The books of the entries -/

/-- The entries count their claims in flight. -/
structure Counted (s : Scheduler) : Prop where
  count : ∀ entryUrl,
    (s.entryAt entryUrl).claims = s.claims.countP fun claim => claim.entryUrl = entryUrl
  waiting : ∀ entryUrl, (s.entryAt entryUrl).waiting =
    s.claims.countP fun claim => claim.entryUrl = entryUrl ∧ 0 < claim.waitMs

theorem counted_init : init.Counted := ⟨fun _ => rfl, fun _ => rfl⟩

/-- Changes that leave the claims in flight. -/
theorem Counted.of_sameClaims (h : s.Counted) (hclaims : s'.claims = s.claims)
    (hentries : ∀ entryUrl, (s.entryAt entryUrl).SameClaims (s'.entryAt entryUrl)) :
    s'.Counted where
  count entryUrl := by rw [(hentries entryUrl).claims, hclaims, h.count]
  waiting entryUrl := by rw [(hentries entryUrl).waiting, hclaims, h.waiting]

/-- An entry that is set to one with the same books has the same books. -/
theorem sameClaims_setEntry {state : EntryState}
    (h : (s.entryAt entryUrl).SameClaims state) (other : String) :
    (s.entryAt other).SameClaims ((s.setEntry entryUrl state).entryAt other) := by
  by_cases hother : other = entryUrl
  · subst hother
    rwa [entryAt_setEntry_self]
  · rw [entryAt_setEntry_of_ne _ hother]
    exact .refl _

/-- Queueing acks starts and ends no claim. -/
theorem claims_queueAcks (ids : List String) :
    (s.queueAcks settings entryUrl ids).claims = s.claims := by
  rcases queueAcks_cases settings s entryUrl ids with h | h
  · rw [h]
  · rw [h]
    rfl

/-- Queued acks change nothing in the books of any entry. -/
theorem sameClaims_queueAcks (ids : List String) (other : String) :
    (s.entryAt other).SameClaims ((s.queueAcks settings entryUrl ids).entryAt other) := by
  rcases queueAcks_cases settings s entryUrl ids with h | h
  · rw [h]
    exact .refl _
  · rw [h]
    refine sameClaims_setEntry ?_ other
    rw [EntryState.queueAcks]
    split_ifs
    · exact .refl _
    · exact ⟨rfl, rfl, rfl⟩

/-- Noting an outcome leaves the counts of the claims. -/
theorem sameClaims_noteOutcome (state : EntryState) (claim : Claim) (outcome : ClaimOutcome)
    (ms : ℤ) : state.SameClaims (state.noteOutcome claim outcome ms) := ⟨rfl, rfl, rfl⟩

/-- Giving acks back leaves the counts of the claims. -/
theorem sameClaims_requeue (state : EntryState) (acks : List String) :
    state.SameClaims (state.requeue acks) := ⟨rfl, rfl, rfl⟩

/-- A new claim. -/
theorem Counted.launch (h : s.Counted) (claim : Claim) : (s.launch claim).Counted where
  count entryUrl := by
    rw [show (s.launch claim).claims = s.claims ++ [claim] from rfl, List.countP_append]
    by_cases hentry : entryUrl = claim.entryUrl
    · subst hentry
      rw [entryAt_launch_self, EntryState.launch, h.count]
      simp
    · rw [entryAt_launch_of_ne hentry, h.count]
      simp [Ne.symm hentry]
  waiting entryUrl := by
    rw [show (s.launch claim).claims = s.claims ++ [claim] from rfl, List.countP_append]
    by_cases hentry : entryUrl = claim.entryUrl
    · subst hentry
      rw [entryAt_launch_self, EntryState.launch, h.waiting]
      by_cases hwait : 0 < claim.waitMs <;> simp [hwait]
    · rw [entryAt_launch_of_ne hentry, h.waiting]
      simp [Ne.symm hentry]

/-- The entry of a claim that ends has given the claim up. -/
theorem entryAt_release_self (index : ℕ) (claim : Claim) (state : EntryState) :
    (s.release index claim state).entryAt claim.entryUrl = state.release claim :=
  entryAt_setEntry_self _

/-- A claim that ends changes its own entry only. -/
theorem entryAt_release_of_ne {index : ℕ} {claim : Claim} {state : EntryState}
    (h : entryUrl ≠ claim.entryUrl) :
    (s.release index claim state).entryAt entryUrl = s.entryAt entryUrl :=
  entryAt_setEntry_of_ne _ h

/-- A claim in flight and the others. -/
theorem claims_perm {index : ℕ} {claim : Claim} (hclaim : s.claims[index]? = some claim) :
    s.claims.Perm (claim :: s.claims.eraseIdx index) := by
  obtain ⟨hindex, rfl⟩ := List.getElem?_eq_some_iff.mp hclaim
  exact (List.getElem_cons_eraseIdx_perm hindex).symm

/-- The end of a claim. -/
theorem Counted.release (h : s.Counted) {index : ℕ} {claim : Claim} {state : EntryState}
    (hclaim : s.claims[index]? = some claim)
    (hstate : (s.entryAt claim.entryUrl).SameClaims state) :
    (s.release index claim state).Counted := by
  have hperm := claims_perm hclaim
  have hclaims : (s.release index claim state).claims = s.claims.eraseIdx index := rfl
  constructor
  · intro entryUrl
    have hbefore := h.count entryUrl
    rw [hperm.countP_eq, List.countP_cons] at hbefore
    rw [hclaims]
    by_cases hentry : entryUrl = claim.entryUrl
    · subst hentry
      rw [entryAt_release_self, EntryState.release, hstate.claims, hbefore]
      simp
    · rw [entryAt_release_of_ne hentry, hbefore]
      simp [Ne.symm hentry]
  · intro entryUrl
    have hbefore := h.waiting entryUrl
    rw [hperm.countP_eq, List.countP_cons] at hbefore
    rw [hclaims]
    by_cases hentry : entryUrl = claim.entryUrl
    · subst hentry
      rw [entryAt_release_self, EntryState.release, hstate.waiting, hbefore]
      by_cases hwait : 0 < claim.waitMs <;> simp [hwait]
    · rw [entryAt_release_of_ne hentry, hbefore]
      simp [Ne.symm hentry]

/-- Each change keeps the count: a claim that starts is added to the books of its entry. -/
theorem Counted.change (h : s.Counted) (hchange : Change fair settings host s s') :
    s'.Counted := by
  cases hchange with
  | acks entryUrl ids => exact h.of_sameClaims (claims_queueAcks ids) (sameClaims_queueAcks ids)
  | entry entryUrl state hbooks =>
    exact h.of_sameClaims rfl (sameClaims_setEntry hbooks.toSameClaims)
  | claim entryUrl batch _ => exact h.launch _
  | _ => exact h.of_sameClaims rfl fun _ => .refl _

/-- Changes in turn keep the books. -/
theorem Counted.changes (h : s.Counted) (hchanges : Changes fair settings host s s') :
    s'.Counted :=
  hchanges.keeps h fun _ _ ht hchange => ht.change hchange

/-- What an event does, whether the host is fair or not. -/
theorem effect_of_any_step {event : SchedulerEvent host}
    (hstep : s.step settings host event = some s') : Effect False settings host s s' event :=
  effect_of_step False.elim False.elim hstep

/-- Each event keeps the count: a claim that ends is taken out of the books of its entry. -/
theorem Counted.step (h : s.Counted) {event : SchedulerEvent host}
    (hstep : s.step settings host event = some s') : s'.Counted := by
  cases effect_of_any_step hstep with
  | track htrack =>
    rw [htrack]
    exact h.of_sameClaims rfl fun _ => .refl _
  | changes hchanges => exact h.changes hchanges
  | answered claim hclaim hchanges =>
    exact (h.release hclaim (sameClaims_noteOutcome _ _ _ _)).changes hchanges
  | failed claim hclaim hchanges =>
    exact (h.release hclaim (sameClaims_requeue _ _)).changes hchanges

/-- The entries count their claims in every run. -/
theorem counted_of_run (hrun : Run (step settings host) init s) : s.Counted :=
  hrun.invariant counted_init fun _ _ _ h hstep => h.step hstep

/-! ### Exclusive claims -/

/-- The claims in flight have different IDs, of requests tracked with their entries, and the entries
know them. -/
structure Consistent (host : ClaimHost) (s : Scheduler) : Prop where
  targets : s.TargetsTracked
  tracked : ∀ claim ∈ s.claims, ∀ id ∈ claim.ids,
    s.tracked.get? (host.requestOf id) = some claim.entryUrl
  nodup : (s.claims.flatMap Claim.ids).Nodup
  inFlight : ∀ entryUrl id, id ∈ (s.entryAt entryUrl).inFlight ↔
    ∃ claim ∈ s.claims, claim.entryUrl = entryUrl ∧ id ∈ claim.ids

/-- Nothing is in flight at the start. -/
theorem consistent_init : init.Consistent host where
  targets := nofun
  tracked := nofun
  nodup := List.nodup_nil
  inFlight _ _ := iff_of_false (Finset.notMem_empty _) nofun

/-- Changes that leave the claims in flight. -/
theorem Consistent.of_sameClaims (h : s.Consistent host) (htargets : s'.TargetsTracked)
    (htracked : ∀ requestId entryUrl, s.tracked.get? requestId = some entryUrl →
      s'.tracked.get? requestId = some entryUrl)
    (hclaims : s'.claims = s.claims)
    (hentries : ∀ entryUrl, (s.entryAt entryUrl).SameClaims (s'.entryAt entryUrl)) :
    s'.Consistent host where
  targets := htargets
  tracked := by
    rw [hclaims]
    exact fun claim hclaim id hid => htracked _ _ (h.tracked claim hclaim id hid)
  nodup := hclaims ▸ h.nodup
  inFlight entryUrl id := by rw [(hentries entryUrl).inFlight, hclaims, h.inFlight]

/-- A new claim. -/
theorem Consistent.launch (h : s.Consistent host) {claim : Claim} (hnodup : claim.ids.Nodup)
    (hfresh : ∀ id ∈ claim.ids, id ∉ (s.entryAt claim.entryUrl).inFlight)
    (htracked : ∀ id ∈ claim.ids, s.tracked.get? (host.requestOf id) = some claim.entryUrl) :
    (s.launch claim).Consistent host where
  targets := h.targets
  tracked := by
    rw [Scheduler.launch, List.forall_mem_append]
    exact ⟨h.tracked, List.forall_mem_singleton.mpr htracked⟩
  nodup := by
    rw [Scheduler.launch, List.flatMap_append, List.flatMap_singleton]
    refine h.nodup.append hnodup fun id hid hnew => ?_
    -- a claim with the same ID is at the same entry, as both are that of the request
    obtain ⟨other, hother, hid⟩ := List.mem_flatMap.mp hid
    have hentry : claim.entryUrl = other.entryUrl :=
      Option.some_inj.mp ((htracked id hnew).symm.trans (h.tracked other hother id hid))
    exact hfresh id hnew ((h.inFlight _ id).mpr ⟨other, hother, hentry.symm, hid⟩)
  inFlight entryUrl id := by
    rw [show (s.launch claim).claims = s.claims ++ [claim] from rfl]
    simp only [List.mem_append, List.mem_singleton, or_and_right, exists_or, exists_eq_left]
    by_cases hentry : entryUrl = claim.entryUrl
    · subst hentry
      rw [entryAt_launch_self, EntryState.launch, Finset.mem_union, List.mem_toFinset, h.inFlight]
      simp
    · rw [entryAt_launch_of_ne hentry, h.inFlight]
      simp [Ne.symm hentry]

/-- The end of a claim. -/
theorem Consistent.release (h : s.Consistent host) {index : ℕ} {claim : Claim} {state : EntryState}
    (hclaim : s.claims[index]? = some claim)
    (hstate : (s.entryAt claim.entryUrl).SameClaims state) :
    (s.release index claim state).Consistent host := by
  have hperm := claims_perm hclaim
  have hnodup := (hperm.flatMap_right Claim.ids).nodup_iff.mp h.nodup
  rw [List.flatMap_cons, List.nodup_append] at hnodup
  refine ⟨h.targets, ?_, hnodup.2.1, ?_⟩
  · exact fun other hmem => h.tracked other (List.mem_of_mem_eraseIdx hmem)
  · intro entryUrl id
    have hbefore := h.inFlight entryUrl id
    simp only [hperm.mem_iff, List.mem_cons, or_and_right, exists_or, exists_eq_left] at hbefore
    rw [show (s.release index claim state).claims = s.claims.eraseIdx index from rfl]
    by_cases hentry : entryUrl = claim.entryUrl
    · subst hentry
      rw [entryAt_release_self, EntryState.release, Finset.mem_sdiff, List.mem_toFinset,
        hstate.inFlight, hbefore]
      constructor
      · rintro ⟨⟨-, hid⟩ | hrest, hnot⟩
        · exact absurd hid hnot
        · exact hrest
      · intro hrest
        refine ⟨.inr hrest, fun hid => ?_⟩
        obtain ⟨other, hmem, -, hid'⟩ := hrest
        exact hnodup.2.2 id hid id (List.mem_flatMap.mpr ⟨other, hmem, hid'⟩) rfl
    · rw [entryAt_release_of_ne hentry, hbefore]
      simp [Ne.symm hentry]

/-- Each change keeps the IDs in flight distinct: a new claim takes only IDs that its entry does not
hold. -/
theorem Consistent.change (h : s.Consistent host) (hchange : Change True settings host s s') :
    s'.Consistent host := by
  have htargets : s'.TargetsTracked := h.targets.change trivial hchange
  cases hchange with
  | acks entryUrl ids =>
    refine h.of_sameClaims htargets ?_ ?_ (sameClaims_queueAcks ids)
    · intro requestId entryUrl hget
      rwa [tracked_queueAcks]
    · exact claims_queueAcks ids
  | entry entryUrl state hbooks =>
    exact h.of_sameClaims htargets (fun _ _ hget => hget) rfl
      (sameClaims_setEntry hbooks.toSameClaims)
  | claim entryUrl batch hclaimable =>
    exact h.launch (hclaimable.nodup trivial) (hclaimable.fresh trivial)
      (hclaimable.tracked trivial)
  | _ => exact h.of_sameClaims htargets (fun _ _ hget => hget) rfl fun _ => .refl _

/-- Changes in turn keep the IDs in flight distinct. -/
theorem Consistent.changes (h : s.Consistent host) (hchanges : Changes True settings host s s') :
    s'.Consistent host :=
  hchanges.keeps h fun _ _ ht hchange => ht.change hchange

/-- A request that is tracked for the first time has no ID in flight. -/
theorem Consistent.track (h : s.Consistent host) {requestId dataWanted : ℕ}
    {initialIds : List String} {now : ℤ} (hnew : s.tracked.get? requestId = none) :
    (s.track requestId entryUrl initialIds dataWanted now).Consistent host := by
  have hkeep : ∀ other url, s.tracked.get? other = some url →
      (s.tracked.set requestId entryUrl).get? other = some url := by
    intro other url hget
    have hne : other ≠ requestId := by
      rintro rfl
      cases hnew.symm.trans hget
    rwa [OrderedMap.get?_set_of_ne _ _ hne]
  refine h.of_sameClaims (fun other target hget => ?_) hkeep rfl fun _ => .refl _
  rw [Scheduler.track] at hget ⊢
  dsimp only at hget ⊢
  rw [OrderedMap.get?_set] at hget
  split_ifs at hget with heq
  · cases hget
    subst heq
    exact ⟨rfl, OrderedMap.get?_set_self _ _ _⟩
  · obtain ⟨hrequest, htracked⟩ := h.targets other target hget
    exact ⟨hrequest, hkeep _ _ htracked⟩

/-- Each event of a fair host keeps the IDs in flight distinct. -/
theorem Consistent.step (h : s.Consistent host) {event : SchedulerEvent host}
    (hfair : s.Fair host event) (hstep : s.step settings host event = some s') :
    s'.Consistent host := by
  have heffect : Effect True settings host s s' event :=
    effect_of_step (fun _ => h.targets) (fun _ => hfair) hstep
  cases heffect with
  | track htrack =>
    rw [htrack]
    exact h.track hfair
  | changes hchanges => exact h.changes hchanges
  | answered claim hclaim hchanges =>
    exact (h.release hclaim (sameClaims_noteOutcome _ _ _ _)).changes hchanges
  | failed claim hclaim hchanges =>
    exact (h.release hclaim (sameClaims_requeue _ _)).changes hchanges

/-- The claims are exclusive in every run with a fair host. -/
theorem consistent_of_run (hrun : RunWhen (step settings host) (Fair host) init s) :
    s.Consistent host :=
  hrun.invariant consistent_init fun _ _ _ h hfair hstep => h.step hfair hstep

/-! ### Limits -/

/-- The entries count no more claims than their limits, and no claim has more IDs. -/
structure Limited (settings : ReplyClaimSettings) (s : Scheduler) : Prop where
  count : ∀ entryUrl, (s.entryAt entryUrl).claims ≤
    max settings.maxClaimsInFlight settings.jsonMaxClaimsInFlight
  ids : ∀ claim ∈ s.claims,
    claim.ids.length ≤ max settings.maxIdsPerClaim settings.jsonMaxIdsPerClaim

/-- The limits of an entry are within the larger ones of the two versions. -/
theorem limits_le (state : EntryState) :
    (state.limits settings).maxIds ≤ max settings.maxIdsPerClaim settings.jsonMaxIdsPerClaim ∧
      (state.limits settings).maxClaims ≤
        max settings.maxClaimsInFlight settings.jsonMaxClaimsInFlight := by
  rw [EntryState.limits]
  split_ifs
  · exact ⟨le_max_left _ _, le_max_left _ _⟩
  · exact ⟨le_max_right _ _, le_max_right _ _⟩

/-- Changes that send no claim. -/
theorem Limited.of_le (h : s.Limited settings)
    (hentries : ∀ entryUrl, (s'.entryAt entryUrl).claims ≤ (s.entryAt entryUrl).claims)
    (hclaims : ∀ claim ∈ s'.claims, claim ∈ s.claims) : s'.Limited settings :=
  ⟨fun entryUrl => (hentries entryUrl).trans (h.count entryUrl),
    fun claim hclaim => h.ids claim (hclaims claim hclaim)⟩

/-- Each change keeps the limits: a claim starts only below them. -/
theorem Limited.change (hsettings : settings.Valid) (h : s.Limited settings)
    (hchange : Change fair settings host s s') :
    s'.Limited settings := by
  cases hchange with
  | acks entryUrl ids =>
    refine h.of_le (fun other => (sameClaims_queueAcks ids other).claims.le) ?_
    rw [claims_queueAcks]
    exact fun _ hclaim => hclaim
  | entry entryUrl state hbooks =>
    exact h.of_le (fun other => (sameClaims_setEntry hbooks.toSameClaims other).claims.le)
      fun _ hclaim => hclaim
  | claim entryUrl batch hclaimable =>
    refine ⟨fun other => ?_, ?_⟩
    · by_cases hother : other = entryUrl
      · subst hother
        have hcount : ((s.claim settings host other batch).entryAt other).claims =
            (s.entryAt other).claims + 1 := congrArg EntryState.claims (entryAt_launch_self _)
        rw [hcount]
        exact hclaimable.free.trans_le (limits_le _).2
      · have hsame : (s.claim settings host entryUrl batch).entryAt other = s.entryAt other :=
          entryAt_launch_of_ne hother
        rw [hsame]
        exact h.count other
    · rw [Scheduler.claim, Scheduler.launch, List.forall_mem_append]
      have hids := (hclaimable.length_le hsettings).trans (limits_le (s.entryAt entryUrl)).1
      exact ⟨h.ids, List.forall_mem_singleton.mpr hids⟩
  | _ => exact h.of_le (fun _ => le_rfl) fun _ hclaim => hclaim

/-- A claim that ends keeps the limits. -/
theorem Limited.release (h : s.Limited settings) (index : ℕ) (claim : Claim) {state : EntryState}
    (hstate : (s.entryAt claim.entryUrl).SameClaims state) :
    (s.release index claim state).Limited settings := by
  refine h.of_le (fun other => ?_) fun _ hclaim => List.mem_of_mem_eraseIdx hclaim
  by_cases hother : other = claim.entryUrl
  · subst hother
    rw [entryAt_release_self, EntryState.release, hstate.claims]
    exact Nat.sub_le _ _
  · exact (congrArg EntryState.claims (entryAt_release_of_ne hother)).le

/-- Each event keeps the limits. -/
theorem Limited.step (hsettings : settings.Valid) (h : s.Limited settings)
    {event : SchedulerEvent host} (hstep : s.step settings host event = some s') :
    s'.Limited settings := by
  have hchanges : ∀ {t}, t.Limited settings → Changes False settings host t s' →
      s'.Limited settings :=
    fun ht hchanges => hchanges.keeps ht fun _ _ ht hchange => ht.change hsettings hchange
  cases effect_of_any_step hstep with
  | track htrack =>
    rw [htrack]
    exact h.of_le (fun _ => le_rfl) fun _ hclaim => hclaim
  | changes h' => exact hchanges h h'
  | answered claim _ h' => exact hchanges (h.release _ claim (sameClaims_noteOutcome _ _ _ _)) h'
  | failed claim _ h' => exact hchanges (h.release _ claim (sameClaims_requeue _ _)) h'

/-- In every state of a run the claims are within their limits. -/
theorem limited_of_run (hsettings : settings.Valid)
    (hrun : Run (step settings host) init s) : s.Limited settings :=
  hrun.invariant ⟨fun _ => Nat.zero_le _, nofun⟩
    fun _ _ _ hlimited hstep => hlimited.step hsettings hstep

/-- In every state that a run before `close` with a fair host reaches, no ID is in two claims in
flight, the books of every entry are exactly its claims in flight, and the claims are within the
limits.

Three invariants of the run: the IDs in flight are distinct and are those that the entries hold
(`consistent_of_run`), the books count the claims (`counted_of_run`), and a claim is only started
within the limits (`limited_of_run`). The first of them needs the host to be fair. -/
theorem claims_exclusive (overrides : List (String × SettingValue)) (base : ReplyClaimSettings)
    (settings : ReplyClaimSettings) (hbase : base.Valid)
    (hsettings : resolveReplyClaimSettings overrides base = .ok settings) (host : ClaimHost)
    (s : Scheduler) (hrun : RunWhen (step settings host) (Fair host) init s) :
    (s.claims.flatMap Claim.ids).Nodup ∧
      (∀ entryUrl state, s.entries.get? entryUrl = some state →
        (∀ id, id ∈ state.inFlight ↔
          ∃ claim ∈ s.claims, claim.entryUrl = entryUrl ∧ id ∈ claim.ids) ∧
        state.claims = (s.claims.filter fun claim => claim.entryUrl = entryUrl).length ∧
        state.claims ≤ max settings.maxClaimsInFlight settings.jsonMaxClaimsInFlight) ∧
      ∀ claim ∈ s.claims, (s.entries.get? claim.entryUrl).isSome ∧
        claim.ids.length ≤ max settings.maxIdsPerClaim settings.jsonMaxIdsPerClaim := by
  have hvalid := valid_of_resolveReplyClaimSettings hbase hsettings
  have hconsistent := consistent_of_run hrun
  have hcounted := counted_of_run hrun.run
  have hlimited := limited_of_run hvalid hrun.run
  refine ⟨hconsistent.nodup, fun entryUrl state hget => ?_, fun claim hclaim => ⟨?_, ?_⟩⟩
  · obtain rfl := entryAt_of_get? hget
    refine ⟨hconsistent.inFlight entryUrl, ?_, hlimited.count entryUrl⟩
    rw [hcounted.count, List.countP_eq_length_filter]
  · by_contra hnone
    have hnew : s.entryAt claim.entryUrl = .new := by
      rw [entryAt, Option.not_isSome_iff_eq_none.mp hnone, Option.getD_none]
    have hcount := hcounted.count claim.entryUrl
    rw [hnew, eq_comm, EntryState.new, List.countP_eq_zero] at hcount
    exact hcount claim hclaim (decide_eq_true rfl)
  · exact hlimited.ids claim hclaim

/-- A host whose pending requests have the IDs `a` and `b` of one request. -/
def sampleHost : ClaimHost := ⟨fun _ => 1, false⟩

/-- What it answers while the request waits for its reply. -/
def sampleView (now : ℤ) (ids : List String) : HostView sampleHost where
  now
  isPending _ := true
  activeIds requestId := if requestId = 1 then ids else []
  skipEntry _ := false

/-- The groups of the sample share no ID. -/
theorem disjoint_sampleView (now : ℤ) {ids : List String} (hnodup : ids.Nodup) :
    (sampleView now ids).Disjoint where
  nodup requestId := by
    rw [sampleView]
    dsimp only
    split_ifs
    · exact hnodup
    · exact List.nodup_nil
  requestOf requestId id hid := by
    rw [sampleView] at hid
    dsimp only at hid
    split_ifs at hid with heq
    · exact heq.symm
    · cases hid

/-- Two claims in flight, with different IDs. -/
theorem claims_exclusive_sample :
    ∃ s : Scheduler, s.claims.map Claim.ids = [["a"], ["b"]] ∧
      (s.claims.flatMap Claim.ids).Nodup := by
  have hrun : (step replyClaimDefaults sampleHost (init.track 1 "entry" ["a", "b"] 2 0)
      (.kick (sampleView 0 ["a", "b"]))).map
        (fun s : Scheduler => s.claims.map Claim.ids) = some [["a"], ["b"]] := by decide +kernel
  obtain ⟨s, hs, hids⟩ := Option.map_eq_some_iff.mp hrun
  have hfair : RunWhen (step replyClaimDefaults sampleHost) (Fair sampleHost) init s :=
    .tail (.single ⟨.track 1 "entry" ["a", "b"] 2 0, rfl, rfl⟩)
      ⟨.kick (sampleView 0 ["a", "b"]), disjoint_sampleView 0 (by decide), hs⟩
  exact ⟨s, hids, (claims_exclusive [] replyClaimDefaults replyClaimDefaults
    valid_replyClaimDefaults rfl sampleHost s hfair).1⟩

/-! ### The timer -/

/-- While the timer is stopped there is nothing to do. -/
def Armed (s : Scheduler) : Prop :=
  s.timer = false → s.targets.size = 0 ∧ (∀ entryUrl, (s.entryAt entryUrl).acks.size = 0) ∧
    s.claims = []

/-- Queueing acks does not touch the timer. -/
theorem timer_queueAcks (ids : List String) :
    (s.queueAcks settings entryUrl ids).timer = s.timer := by
  rcases queueAcks_cases settings s entryUrl ids with h | h
  · rw [h]
  · rw [h]
    rfl

/-- A sweep does not touch the timer. -/
theorem timer_sweep : (s.sweep settings view).timer = s.timer := by
  refine List.foldlRecOn (motive := fun t : Scheduler => t.timer = s.timer) _ _ rfl ?_
  intro t ht target _
  rw [sweepTarget]
  split_ifs
  · exact ht
  · exact (timer_queueAcks _).trans ht

/-- Starting claims does not touch the timer. -/
theorem timer_claimFrom (group : String × List Target) :
    (s.claimFrom settings view group).timer = s.timer := by
  rw [claimFrom]
  split_ifs
  · rfl
  · exact List.foldlRecOn (motive := fun t : Scheduler => t.timer = s.timer) _ _ rfl
      fun t ht _ _ => ht

/-- Flushing the acks of an entry does not touch the timer. -/
theorem timer_flushEntry (claimedThisTick : OrderedMap String (List Target)) :
    (s.flushEntry settings host claimedThisTick entryUrl).timer = s.timer := by
  rw [flushEntry]
  split_ifs <;> rfl

/-- Only the end of `tick` stops the timer. -/
theorem timer_pass : (s.pass settings view).timer = s.timer := by
  have hclaims : ((s.byEntry settings view).entries.foldl (claimFrom settings view)
      (s.sweep settings view)).timer = s.timer :=
    List.foldlRecOn (motive := fun t : Scheduler => t.timer = s.timer) _ _ timer_sweep
      fun t ht group _ => (timer_claimFrom group).trans ht
  exact List.foldlRecOn (motive := fun t : Scheduler => t.timer = s.timer) _ _ hclaims
    fun t ht _ _ => (timer_flushEntry _).trans ht

/-- A pass without targets and acks does nothing. -/
theorem pass_eq_self (htargets : s.targets.size = 0)
    (hacks : ∀ entryUrl, (s.entryAt entryUrl).acks.size = 0) : s.pass settings view = s := by
  have hvalues : s.targets.values = [] := by
    rw [OrderedMap.size_eq_zero_iff.mp htargets]
    rfl
  have hgroups : (s.byEntry settings view).entries = [] := by
    rw [byEntry, hvalues]
    rfl
  rw [pass, hgroups, List.foldl_nil, sweep, hvalues, List.foldl_nil]
  refine List.foldlRecOn (motive := fun t => t = s) _ _ rfl fun t ht entryUrl _ => ?_
  rw [ht, flushEntry, if_pos (.inl (hacks entryUrl))]

/-- An entry that is found is one of the entries. -/
theorem mem_values {state : EntryState} (hget : s.entries.get? entryUrl = some state) :
    state ∈ s.entries.values :=
  List.mem_map.mpr ⟨(entryUrl, state), OrderedMap.get?_eq_some_iff.mp hget, rfl⟩

/-- Where the entries count no claims, none is in flight. -/
theorem claims_eq_nil (h : s.Counted) (hidle : s.Idle) : s.claims = [] := by
  refine List.eq_nil_iff_forall_not_mem.mpr fun claim hclaim => ?_
  have hcount := h.count claim.entryUrl
  have hzero : (s.entryAt claim.entryUrl).claims = 0 := by
    rw [entryAt]
    rcases hget : s.entries.get? claim.entryUrl with _ | state
    · rfl
    · exact (hidle.2 state (mem_values hget)).2
  rw [hzero, eq_comm, List.countP_eq_zero] at hcount
  exact hcount claim hclaim (decide_eq_true rfl)

/-- A tick sets the timer again unless it leaves nothing to do. -/
theorem Armed.tick (h : s.Armed) (hcounted : s.Counted) : (s.tick settings view).Armed := by
  have hpass : Changes False settings host s (s.pass settings view) :=
    changes_pass False.elim False.elim
  have hafter : (s.pass settings view).Counted := hcounted.changes hpass
  cases htimer : s.timer with
  | false =>
    -- a pass after the timer was stopped finds nothing to do
    obtain ⟨htargets, hacks, hclaims⟩ := h htimer
    rw [Scheduler.tick, pass_eq_self htargets hacks]
    split_ifs <;> exact fun _ => ⟨htargets, hacks, hclaims⟩
  | true =>
    rw [Scheduler.tick]
    split_ifs with hidle
    · -- the timer is stopped only where no entry counts a claim, and the entries count them all
      have hclaims : (s.pass settings view).claims = [] := claims_eq_nil hafter hidle
      refine fun _ => ⟨hidle.1, fun entryUrl => ?_, hclaims⟩
      change ((s.pass settings view).entryAt entryUrl).acks.size = 0
      rw [entryAt]
      rcases hget : (s.pass settings view).entries.get? entryUrl with _ | state
      · rfl
      · exact (hidle.2 state (mem_values hget)).1
    · intro hstopped
      rw [timer_pass, htimer] at hstopped
      cases hstopped

/-- Noting a failure does not touch the timer. -/
theorem timer_noteFailure (requests : List ℕ) (now : ℤ) :
    (s.noteFailure requests now).timer = s.timer := by
  refine List.foldlRecOn (motive := fun t : Scheduler => t.timer = s.timer) _ _ rfl ?_
  intro t ht requestId _
  split <;> exact ht

/-- While a claim is in flight the timer runs. -/
theorem Armed.timer_of_claim (h : s.Armed) {index : ℕ} {claim : Claim}
    (hclaim : s.claims[index]? = some claim) : s.timer = true := by
  by_contra hstopped
  rw [(h (Bool.not_eq_true _ ▸ hstopped)).2.2] at hclaim
  cases hclaim

/-- A running timer is armed. -/
theorem armed_of_timer (h : s.timer = true) : s.Armed := fun hstopped => by
  rw [h] at hstopped
  cases hstopped

/-- Items that are delivered queue acks or nothing, and with acks the timer is set. -/
theorem Armed.delivered (h : s.Armed) (hstep : s.delivered settings = some s') : s'.Armed := by
  rw [Scheduler.delivered] at hstep
  split at hstep
  · cases hstep
  · next entryUrl items rest _ =>
    cases hstep
    split_ifs with hacks
    · exact armed_of_timer rfl
    · intro hstopped
      rw [timer_queueAcks] at hstopped
      obtain ⟨htargets, hnone, hclaims⟩ := h hstopped
      rcases queueAcks_cases settings { s with delivering := rest } entryUrl
        (items.filterMap fun item : ClaimedItem => surbIdOfItem item.id) with heq | heq
      · rw [heq]
        exact ⟨htargets, hnone, hclaims⟩
      · rw [heq] at hacks ⊢
        rw [entryAt_setEntry_self] at hacks
        exact ⟨htargets, forall_entryAt_setEntry (P := fun state => state.acks.size = 0) hnone
          (Nat.eq_zero_of_not_pos hacks), hclaims⟩

/-- Each event leaves the timer set or nothing to do. -/
theorem Armed.step (h : s.Armed) (hcounted : s.Counted) {event : SchedulerEvent host}
    (hstep : s.step settings host event = some s') : s'.Armed := by
  cases event with
  | track =>
    cases hstep
    exact armed_of_timer rfl
  | noteFragment requestId fragment =>
    cases hstep
    intro hstopped
    rw [Scheduler.noteFragment] at hstopped ⊢
    rcases hget : s.targets.get? requestId with _ | target
    · rw [hget] at hstopped
      exact h hstopped
    · rw [hget] at hstopped
      obtain ⟨htargets, -, -⟩ := h hstopped
      rw [OrderedMap.size_eq_zero_iff.mp htargets] at hget
      cases hget
  | tick view =>
    cases hstep
    exact h.tick hcounted
  | kick view =>
    rw [Scheduler.step] at hstep
    split_ifs at hstep
    cases hstep
    exact Armed.tick h (hcounted.of_sameClaims rfl fun _ => .refl _)
  | answered index outcome ms =>
    obtain ⟨claim, hclaim, rfl⟩ := Option.map_eq_some_iff.mp hstep
    exact armed_of_timer (h.timer_of_claim hclaim)
  | delivered => exact h.delivered hstep
  | failed index now =>
    obtain ⟨claim, hclaim, rfl⟩ := Option.map_eq_some_iff.mp hstep
    exact armed_of_timer ((timer_noteFailure _ now).trans (h.timer_of_claim hclaim))
  | probed entryUrl answer now =>
    rw [Scheduler.step, Scheduler.probed] at hstep
    split at hstep
    · cases hstep
    · next state hget =>
      split_ifs at hstep
      cases hstep
      intro hstopped
      obtain ⟨htargets, hacks, hclaims⟩ := h hstopped
      -- a probe learns the version of the entry and leaves its acks alone
      have hsame : (state.probed answer now).acks = state.acks := by
        unfold EntryState.probed
        split <;> rfl
      have hprobed : (state.probed answer now).acks.size = 0 := by
        rw [hsame, ← entryAt_of_get? hget]
        exact hacks entryUrl
      exact ⟨htargets, forall_entryAt_setEntry (P := fun state => state.acks.size = 0) hacks
        hprobed, hclaims⟩

/-- While there is a target or a queued ack the timer runs, and while it is stopped there is no
target, no queued ack and no claim in flight.

A stopped timer means that nothing is left to do; that every event keeps this needs the books to
count the claims, so both are carried together. -/
theorem timer_armed (settings : ReplyClaimSettings) (host : ClaimHost) (s : Scheduler)
    (hrun : Run (step settings host) init s) :
    (0 < s.targets.size ∨ (∃ entryUrl state, s.entries.get? entryUrl = some state ∧
      0 < state.acks.size) → s.timer = true) ∧
    (s.timer = false → s.targets.size = 0 ∧
      (∀ entryUrl state, s.entries.get? entryUrl = some state → state.acks.size = 0) ∧
        s.claims = []) := by
  have hboth : s.Counted ∧ s.Armed := by
    refine hrun.invariant ⟨counted_init, fun _ => ⟨rfl, fun _ => rfl, rfl⟩⟩ ?_
    rintro t event t' ⟨hcounted, harmed⟩ hstep
    exact ⟨hcounted.step hstep, harmed.step hcounted hstep⟩
  have hstopped : s.timer = false → s.targets.size = 0 ∧
      (∀ entryUrl state, s.entries.get? entryUrl = some state → state.acks.size = 0) ∧
        s.claims = [] := by
    intro htimer
    obtain ⟨htargets, hacks, hclaims⟩ := hboth.2 htimer
    refine ⟨htargets, fun entryUrl state hget => ?_, hclaims⟩
    rw [← entryAt_of_get? hget]
    exact hacks entryUrl
  refine ⟨fun hwork => ?_, hstopped⟩
  by_contra htimer
  obtain ⟨htargets, hacks, -⟩ := hstopped (Bool.not_eq_true _ ▸ htimer)
  rcases hwork with hwork | ⟨entryUrl, state, hget, hwork⟩
  · omega
  · exact absurd (hacks entryUrl state hget) hwork.ne'

/-- Work is left, and the timer runs. -/
theorem timer_armed_sample :
    ∃ s : Scheduler, s.claims.map Claim.ids = [["a"], ["b"]] ∧ s.timer = true := by
  have hrun : (runEvents (step replyClaimDefaults sampleHost) init
      [.track 1 "entry" ["a", "b"] 2 0, .kick (sampleView 0 ["a", "b"])]).map
        (fun s : Scheduler => (s.claims.map Claim.ids, s.targets.size)) =
          some ([["a"], ["b"]], 1) := by decide +kernel
  obtain ⟨s, hs, hview⟩ := Option.map_eq_some_iff.mp hrun
  obtain ⟨hids, hsize⟩ := Prod.mk.inj hview
  exact ⟨s, hids, (timer_armed replyClaimDefaults sampleHost s (run_of_runEvents hs)).1
    (.inl (hsize ▸ Nat.one_pos))⟩

end NoxSdk.Client.Scheduler
