import NoxSdk.Client.ReplyClaims

/-!
# What an event does

A pass of the scheduler is made of small changes (`Change`): a target is updated or dropped, acks
are queued, an entry changes apart from its claims, a claim is sent. `changes_pass` says so, with
what holds of the claims that are sent: they are within the limits, and while the host is fair
their IDs are new ones of the entry.
Every event is made of such changes, after the end of a claim where it answers or fails one
(`effect_of_step`).
-/

namespace NoxSdk.Client

/-- The states agree on the claims in flight. -/
structure EntryState.SameClaims (state state' : EntryState) : Prop where
  inFlight : state'.inFlight = state.inFlight
  claims : state'.claims = state.claims
  waiting : state'.waiting = state.waiting

/-- The states agree on the claims in flight, the version and the acks. -/
structure EntryState.SameBooks (state state' : EntryState) : Prop
    extends SameClaims state state' where
  v2 : state'.v2 = state.v2
  acks : state'.acks = state.acks

theorem EntryState.SameClaims.refl (state : EntryState) : SameClaims state state := ⟨rfl, rfl, rfl⟩

theorem EntryState.SameBooks.refl (state : EntryState) : SameBooks state state :=
  ⟨.refl state, rfl, rfl⟩

theorem EntryState.SameBooks.trans {state state' state'' : EntryState} (h : SameBooks state state')
    (h' : SameBooks state' state'') : SameBooks state state'' :=
  ⟨⟨h'.inFlight.trans h.inFlight, h'.claims.trans h.claims, h'.waiting.trans h.waiting⟩,
    h'.v2.trans h.v2, h'.acks.trans h.acks⟩

namespace Scheduler

variable {fair : Prop} {settings : ReplyClaimSettings} {host : ClaimHost} {view : HostView host}
  {s s' : Scheduler} {entryUrl : String}

@[simp]
theorem entryAt_setEntry_self (state : EntryState) :
    (s.setEntry entryUrl state).entryAt entryUrl = state := by
  rw [entryAt, setEntry, OrderedMap.get?_set_self, Option.getD_some]

theorem entryAt_setEntry_of_ne {other : String} (state : EntryState) (h : other ≠ entryUrl) :
    (s.setEntry entryUrl state).entryAt other = s.entryAt other := by
  rw [entryAt, setEntry, OrderedMap.get?_set_of_ne _ _ h, entryAt]

/-- What holds of every entry holds still after one of them is replaced by such an entry. -/
theorem forall_entryAt_setEntry {P : EntryState → Prop} (h : ∀ other, P (s.entryAt other))
    {state : EntryState} (hstate : P state) (other : String) :
    P ((s.setEntry entryUrl state).entryAt other) := by
  by_cases hother : other = entryUrl
  · subst hother
    rwa [entryAt_setEntry_self]
  · rw [entryAt_setEntry_of_ne _ hother]
    exact h other

@[simp]
theorem entryAt_launch_self (claim : Claim) :
    (s.launch claim).entryAt claim.entryUrl = (s.entryAt claim.entryUrl).launch claim :=
  entryAt_setEntry_self _

/-- A claim that starts changes its own entry only. -/
theorem entryAt_launch_of_ne {claim : Claim} (h : entryUrl ≠ claim.entryUrl) :
    (s.launch claim).entryAt entryUrl = s.entryAt entryUrl :=
  entryAt_setEntry_of_ne _ h

@[simp] theorem tracked_setEntry (state : EntryState) :
    (s.setEntry entryUrl state).tracked = s.tracked := rfl

theorem entryAt_of_get? {state : EntryState} (h : s.entries.get? entryUrl = some state) :
    s.entryAt entryUrl = state := by
  rw [entryAt, h, Option.getD_some]

/-- A batch that may be claimed from an entry; `fair` says whether the host was. -/
structure Claimable (fair : Prop) (settings : ReplyClaimSettings) (host : ClaimHost) (s : Scheduler)
    (entryUrl : String) (batch : Batch) : Prop where
  nodup : fair → batch.ids.Nodup
  fresh : fair → ∀ id ∈ batch.ids, id ∉ (s.entryAt entryUrl).inFlight
  tracked : fair → ∀ id ∈ batch.ids, s.tracked.get? (host.requestOf id) = some entryUrl
  length_le : settings.Valid →
    batch.ids.length ≤ ((s.entryAt entryUrl).limits settings).maxIds
  free : (s.entryAt entryUrl).claims < ((s.entryAt entryUrl).limits settings).maxClaims

/-- A small change. What it takes from the host is true while this is fair. -/
inductive Change (fair : Prop) (settings : ReplyClaimSettings) (host : ClaimHost) (s : Scheduler) :
    Scheduler → Prop
  | target (target : Target)
    (h : fair → s.tracked.get? target.requestId = some target.entryUrl) :
    Change fair settings host s (s.setTarget target)
  | settled (requestId : ℕ) :
    Change fair settings host s { s with targets := s.targets.delete requestId }
  | acks (entryUrl : String) (ids : List String) :
    Change fair settings host s (s.queueAcks settings entryUrl ids)
  | entry (entryUrl : String) (state : EntryState) (h : (s.entryAt entryUrl).SameBooks state) :
    Change fair settings host s (s.setEntry entryUrl state)
  | claim (entryUrl : String) (batch : Batch)
    (h : Claimable fair settings host s entryUrl batch) :
    Change fair settings host s (s.claim settings host entryUrl batch)
  | flags (timer kickQueued : Bool) (delivering : List (String × List ClaimedItem)) :
    Change fair settings host s { s with timer, kickQueued, delivering }

/-- Any number of small changes. -/
abbrev Changes (fair : Prop) (settings : ReplyClaimSettings) (host : ClaimHost) :
    Scheduler → Scheduler → Prop :=
  Relation.ReflTransGen (Change fair settings host)

/-- What every small change keeps. -/
theorem Changes.keeps {Inv : Scheduler → Prop} (h : Changes fair settings host s s') (hs : Inv s)
    (hchange : ∀ s s', Inv s → Change fair settings host s s' → Inv s') : Inv s' := by
  induction h with
  | refl => exact hs
  | tail _ hnext ih => exact hchange _ _ ih hnext

/-- What `queueAcks` changes is the acks of one entry. -/
theorem queueAcks_cases (settings : ReplyClaimSettings) (s : Scheduler) (entryUrl : String)
    (ids : List String) :
    s.queueAcks settings entryUrl ids = s ∨
      s.queueAcks settings entryUrl ids =
        s.setEntry entryUrl ((s.entryAt entryUrl).queueAcks settings ids) := by
  rw [queueAcks]
  rcases hget : s.entries.get? entryUrl with _ | state
  · exact .inl rfl
  · exact .inr (by rw [entryAt_of_get? hget])

/-- Queued acks do not touch what is tracked. -/
theorem tracked_queueAcks (ids : List String) :
    (s.queueAcks settings entryUrl ids).tracked = s.tracked := by
  rcases queueAcks_cases settings s entryUrl ids with h | h
  · rw [h]
  · rw [h]
    rfl

/-- No change of a pass touches what is tracked. -/
theorem Change.tracked (h : Change fair settings host s s') : s'.tracked = s.tracked := by
  cases h with
  | acks => exact tracked_queueAcks _
  | _ => rfl

theorem Changes.tracked (h : Changes fair settings host s s') : s'.tracked = s.tracked := by
  induction h with
  | refl => rfl
  | tail _ hchange ih => exact hchange.tracked.trans ih

/-! ### The targets -/

/-- Every target is kept under its request, with the entry it was tracked with. -/
def TargetsTracked (s : Scheduler) : Prop :=
  ∀ requestId target, s.targets.get? requestId = some target →
    target.requestId = requestId ∧ s.tracked.get? requestId = some target.entryUrl

/-- A target is tracked at its entry. -/
theorem TargetsTracked.tracked_of_mem (h : s.TargetsTracked) {target : Target}
    (hmem : target ∈ s.targets.values) :
    s.tracked.get? target.requestId = some target.entryUrl := by
  obtain ⟨⟨requestId, target⟩, hentry, rfl⟩ := List.mem_map.mp hmem
  obtain ⟨rfl, htracked⟩ := h requestId target (OrderedMap.get?_eq_some_iff.mpr hentry)
  exact htracked

/-- Each request has one target at most. -/
theorem TargetsTracked.nodup (h : s.TargetsTracked) :
    (s.targets.values.map Target.requestId).Nodup := by
  have hkeys : s.targets.values.map Target.requestId = s.targets.keys := by
    rw [OrderedMap.values, OrderedMap.keys, List.map_map]
    refine List.map_congr_left fun e he => ?_
    exact (h e.1 e.2 (OrderedMap.get?_eq_some_iff.mpr he)).1
  exact hkeys ▸ s.targets.nodup_keys

theorem checkLost_fixed (settings : ReplyClaimSettings) (target : Target) (now : ℤ) :
    (target.checkLost settings now).requestId = target.requestId ∧
      (target.checkLost settings now).entryUrl = target.entryUrl := by
  unfold Target.checkLost
  split
  · exact ⟨rfl, rfl⟩
  · split_ifs <;> exact ⟨rfl, rfl⟩

/-- The sweep of a target drops it, queues its acks, or notes that it is lost. -/
theorem changes_sweepTarget {target : Target}
    (h : fair → s.tracked.get? target.requestId = some target.entryUrl) :
    Changes fair settings host s (s.sweepTarget settings view target) := by
  rw [sweepTarget]
  split_ifs
  · have hfixed := checkLost_fixed settings target view.now
    exact .single (.target _ (by rw [hfixed.1, hfixed.2]; exact h))
  · exact .tail (.single (.settled target.requestId)) (.acks _ _)

/-- The sweep goes over the targets one by one. -/
theorem changes_sweep (h : fair → s.TargetsTracked) :
    Changes fair settings host s (s.sweep settings view) := by
  refine List.foldlRecOn (motive := Changes fair settings host s) _ _ .refl ?_
  intro t hchanges target hmem
  refine hchanges.trans (changes_sweepTarget fun hfair => ?_)
  rw [hchanges.tracked]
  exact (h hfair).tracked_of_mem hmem

/-- The targets of a group are tracked at its entry, each once. -/
theorem group_spec (h : s.TargetsTracked) {group : List Target}
    (hgroup : (s.byEntry settings view).get? entryUrl = some group) :
    (group.map Target.requestId).Nodup ∧
      ∀ target ∈ group, s.tracked.get? target.requestId = some entryUrl := by
  have hgroup := OrderedMap.eq_filter_of_get?_groupBy hgroup
  constructor
  · have hsub : (group.map Target.requestId).Sublist (s.targets.values.map Target.requestId) := by
      rw [hgroup]
      refine ((List.filter_sublist.trans List.filter_sublist).map _).trans ?_
      rw [List.map_map]
      have hcomp : (Target.requestId ∘ fun target => target.checkLost settings view.now) =
          Target.requestId := funext fun target => (checkLost_fixed settings target view.now).1
      rw [hcomp]
      exact List.filter_sublist.map _
    exact h.nodup.sublist hsub
  · intro target hmem
    rw [hgroup, List.mem_filter, List.mem_filter, List.mem_map] at hmem
    obtain ⟨⟨⟨target, hmem, rfl⟩, -⟩, hentry⟩ := hmem
    have hfixed := checkLost_fixed settings target view.now
    rw [hfixed.1, h.tracked_of_mem (List.mem_of_mem_filter hmem), ← hfixed.2,
      of_decide_eq_true hentry]

/-! ### The claims -/

/-- There are no more batches than are free, and their IDs are wanted ones in order. -/
theorem fillBatches_spec {free : ℕ} (maxIds : ℕ) (wanted : List (ℕ × String)) :
    ∀ (current : Batch) {batches : List Batch}, batches.length < free →
      (fillBatches maxIds free wanted current batches).length ≤ free ∧
        (fillBatches maxIds free wanted current batches).flatMap Batch.ids <+:
          batches.flatMap Batch.ids ++ (current.ids ++ wanted.map Prod.snd) := by
  -- `current` is the batch being filled, `batches` are the full ones
  induction wanted with
  | nil =>
    intro current batches hfree
    rw [fillBatches]
    split_ifs
    · exact ⟨by simpa using Nat.succ_le_of_lt hfree, by simp⟩
    · exact ⟨hfree.le, List.prefix_append _ _⟩
  | cons wanted rest ih =>
    intro current batches hfree
    rw [fillBatches]
    split_ifs with hfull hlast
    · refine ⟨by simpa using Nat.succ_le_of_lt hfree, ?_⟩
      rw [List.flatMap_append, List.flatMap_singleton, ← List.append_assoc]
      exact List.prefix_append _ _
    · obtain ⟨hlength, hprefix⟩ := @ih (Batch.empty.add wanted) (batches ++ [current])
        (by simpa using not_le.mp hlast)
      rw [List.flatMap_append, List.flatMap_singleton, List.append_assoc] at hprefix
      exact ⟨hlength, hprefix⟩
    · obtain ⟨hlength, hprefix⟩ := ih (current.add wanted) hfree
      rw [Batch.add, List.append_assoc] at hprefix
      exact ⟨hlength, hprefix⟩

/-- The batches are within the limit. -/
theorem fillBatches_short {maxIds free : ℕ} (hmax : 1 ≤ maxIds) {wanted : List (ℕ × String)} :
    ∀ (current : Batch) {batches : List Batch}, current.ids.length ≤ maxIds →
      (∀ batch ∈ batches, batch.ids.length ≤ maxIds) →
        ∀ batch ∈ fillBatches maxIds free wanted current batches, batch.ids.length ≤ maxIds := by
  induction wanted with
  | nil =>
    intro current batches hcurrent hbatches
    rw [fillBatches]
    split_ifs
    · rw [List.forall_mem_append]
      exact ⟨hbatches, List.forall_mem_singleton.mpr hcurrent⟩
    · exact hbatches
  | cons wanted rest ih =>
    intro current batches hcurrent hbatches
    have hadded : ∀ batch ∈ batches ++ [current], batch.ids.length ≤ maxIds := by
      rw [List.forall_mem_append]
      exact ⟨hbatches, List.forall_mem_singleton.mpr hcurrent⟩
    rw [fillBatches]
    split_ifs with hfull hlast
    · exact hadded
    · exact ih (Batch.empty.add wanted) hmax hadded
    · exact ih (current.add wanted)
        (by simpa [Batch.add] using Nat.succ_le_of_lt (not_le.mp hfull)) hbatches

/-- Batches of different new IDs are claimed one after the other. -/
theorem changes_claims {batches : List Batch}
    (hnodup : fair → (batches.flatMap Batch.ids).Nodup)
    (hfresh : fair → ∀ id ∈ batches.flatMap Batch.ids, id ∉ (s.entryAt entryUrl).inFlight)
    (htracked : fair → ∀ id ∈ batches.flatMap Batch.ids,
      s.tracked.get? (host.requestOf id) = some entryUrl)
    (hlength : settings.Valid → ∀ batch ∈ batches,
      batch.ids.length ≤ ((s.entryAt entryUrl).limits settings).maxIds)
    (hfree : (s.entryAt entryUrl).claims + batches.length ≤
      ((s.entryAt entryUrl).limits settings).maxClaims) :
    Changes fair settings host s
      (batches.foldl (fun s batch => s.claim settings host entryUrl batch) s) := by
  induction batches generalizing s with
  | nil => exact .refl
  | cons batch rest ih =>
    rw [List.flatMap_cons, List.nodup_append] at hnodup
    rw [List.flatMap_cons] at hfresh htracked
    simp only [List.forall_mem_append] at hfresh htracked
    have hclaimable : Claimable fair settings host s entryUrl batch :=
      ⟨fun hfair => (hnodup hfair).1, fun hfair => (hfresh hfair).1,
        fun hfair => (htracked hfair).1,
        fun hsettings => hlength hsettings batch List.mem_cons_self,
        by rw [List.length_cons] at hfree; omega⟩
    have hentry : (s.claim settings host entryUrl batch).entryAt entryUrl =
        (s.entryAt entryUrl).launch
          ((s.entryAt entryUrl).newClaim settings host entryUrl batch) :=
      entryAt_launch_self _
    have hlimits : (((s.claim settings host entryUrl batch).entryAt entryUrl).limits settings) =
        (s.entryAt entryUrl).limits settings := by
      rw [hentry]
      rfl
    -- the IDs of this batch are in flight now, and the rest has none of them
    refine .head (.claim entryUrl batch hclaimable)
      (ih (fun hfair => (hnodup hfair).2.1) ?_ (fun hfair => (htracked hfair).2) ?_ ?_)
    · intro hfair id hid
      rw [hentry, EntryState.launch, EntryState.newClaim, Finset.mem_union, List.mem_toFinset,
        not_or]
      exact ⟨(hfresh hfair).2 id hid, fun hmem => (hnodup hfair).2.2 id hmem id hid rfl⟩
    · rw [hlimits]
      exact fun hsettings other hother => hlength hsettings other (List.mem_cons_of_mem _ hother)
    · have hcount : ((s.claim settings host entryUrl batch).entryAt entryUrl).claims =
          (s.entryAt entryUrl).claims + 1 := congrArg EntryState.claims hentry
      rw [hlimits, hcount]
      rw [List.length_cons] at hfree
      omega

/-- An ID that is wanted is active and in no claim. -/
theorem mem_wantedIds {state : EntryState} {target : Target} {id : String}
    (h : id ∈ wantedIds settings view state target) :
    id ∉ state.inFlight ∧ id ∈ view.activeIds target.requestId := by
  rw [wantedIds, List.mem_filter, decide_eq_true_iff] at h
  exact ⟨h.2.2, h.1⟩

/-- The wanted IDs of different targets are different. -/
theorem nodup_wanted (hview : view.Disjoint) {state : EntryState} {targets : List Target}
    (h : (targets.map Target.requestId).Nodup) :
    (targets.flatMap (wantedIds settings view state)).Nodup := by
  rw [List.nodup_flatMap]
  refine ⟨fun target _ => (hview.nodup _).filter _, ?_⟩
  refine (List.pairwise_map.mp h).imp fun hne => ?_
  intro id hid hid'
  exact hne ((hview.requestOf _ id (mem_wantedIds hid).2).symm.trans
    (hview.requestOf _ id (mem_wantedIds hid').2))

/-- A rotation of the targets leaves out none. -/
theorem rotate_perm (cursor : ℕ) (targets : List Target) :
    (rotate cursor targets).Perm targets := by
  rw [rotate]
  refine List.perm_append_comm.trans ?_
  rw [List.take_append_drop]
  exact List.mergeSort_perm _ _

theorem sameBooks_entryState :
    (s.entryAt entryUrl).SameBooks (s.entryState settings view entryUrl) := by
  have hprobe : ∀ state : EntryState, state.SameBooks (state.probe settings host) := by
    intro state
    rw [EntryState.probe]
    split_ifs
    · exact .refl state
    · exact ⟨⟨rfl, rfl, rfl⟩, rfl, rfl⟩
  have hreprobe : ∀ state : EntryState,
      state.SameBooks (state.reprobe settings host view.now) := by
    intro state
    rw [EntryState.reprobe]
    split_ifs
    · exact .refl state
    · exact hprobe state
  rw [entryState, entryAt]
  rcases s.entries.get? entryUrl with _ | state
  · exact (hprobe .new).trans (hreprobe _)
  · exact hreprobe state

/-- A group of targets gets claims for what it wants while there is room. -/
theorem changes_claimFrom {targets : List Target} (hview : fair → view.Disjoint)
    (hnodup : fair → (targets.map Target.requestId).Nodup)
    (htracked : fair → ∀ target ∈ targets, s.tracked.get? target.requestId = some entryUrl) :
    Changes fair settings host s (s.claimFrom settings view (entryUrl, targets)) := by
  have hbooks : (s.entryAt entryUrl).SameBooks (s.entryState settings view entryUrl) :=
    sameBooks_entryState
  rw [claimFrom]
  dsimp only
  split_ifs with hfull
  · -- no claim is free: the entry is read and nothing is claimed
    exact .single (.entry entryUrl _ hbooks)
  · set state := s.entryState settings view entryUrl with hstate
    set cursor := (state.cursor % targets.length + 1) % max 1 targets.length
    have hcursor : (s.entryAt entryUrl).SameBooks { state with cursor } :=
      ⟨⟨hbooks.inFlight, hbooks.claims, hbooks.waiting⟩, hbooks.v2, hbooks.acks⟩
    refine .head (.entry entryUrl _ hcursor) ?_
    set wanted := (rotate state.cursor targets).flatMap fun target =>
      (wantedIds settings view state target).map fun id => (target.requestId, id) with hwanted
    have hids : wanted.map Prod.snd =
        (rotate state.cursor targets).flatMap (wantedIds settings view state) := by
      rw [hwanted, List.map_flatMap]
      refine List.flatMap_congr fun target _ => ?_
      rw [List.map_map]
      exact List.map_id _
    have hfree : ([] : List Batch).length < (state.limits settings).maxClaims - state.claims :=
      Nat.sub_pos_of_lt (not_le.mp hfull)
    -- the batches hold a prefix of the wanted IDs and are no more than the free claims
    obtain ⟨hlength, hprefix⟩ := fillBatches_spec (state.limits settings).maxIds wanted
      .empty hfree
    rw [List.flatMap_nil, List.nil_append, Batch.empty, List.nil_append, hids] at hprefix
    have hsub := hprefix.subset
    have hmem : ∀ id ∈ (fillBatches (state.limits settings).maxIds
        ((state.limits settings).maxClaims - state.claims) wanted .empty []).flatMap Batch.ids,
        id ∉ state.inFlight ∧
          (fair → s.tracked.get? (host.requestOf id) = some entryUrl) := by
      intro id hid
      obtain ⟨target, htarget, hid⟩ := List.mem_flatMap.mp (hsub hid)
      obtain ⟨hfresh, hactive⟩ := mem_wantedIds hid
      refine ⟨hfresh, fun hfair => ?_⟩
      rw [(hview hfair).requestOf _ id hactive]
      exact htracked hfair target ((rotate_perm _ _).mem_iff.mp htarget)
    apply changes_claims
    · intro hfair
      have hrotated := ((rotate_perm state.cursor targets).map Target.requestId).nodup_iff.mpr
        (hnodup hfair)
      exact (nodup_wanted (hview hfair) hrotated).sublist hprefix.sublist
    · intro _ id hid
      rw [entryAt_setEntry_self]
      exact (hmem id hid).1
    · exact fun hfair id hid => (hmem id hid).2 hfair
    · intro hsettings
      rw [entryAt_setEntry_self]
      have hmax : 1 ≤ (state.limits settings).maxIds := by
        rw [EntryState.limits]
        split_ifs <;> exact hsettings _ (by simp [ReplyClaimSettings.positives])
      exact fillBatches_short hmax .empty (Nat.zero_le _) (by simp)
    · rw [entryAt_setEntry_self]
      exact Nat.add_le_of_le_sub' (not_le.mp hfull).le hlength

/-- An entry that got no claim in this pass gets one for its acks. -/
theorem changes_flushEntry {claimedThisTick : OrderedMap String (List Target)} :
    Changes fair settings host s (s.flushEntry settings host claimedThisTick entryUrl) := by
  rw [flushEntry]
  split_ifs with hacks hfull
  · exact .refl
  · exact .refl
  · refine .single (.claim entryUrl .empty ?_)
    exact ⟨fun _ => List.nodup_nil, fun _ _ h => absurd h List.not_mem_nil,
      fun _ _ h => absurd h List.not_mem_nil, fun _ => Nat.zero_le _, not_le.mp hfull⟩

/-- A pass is made of small changes. -/
theorem changes_pass (h : fair → s.TargetsTracked) (hview : fair → view.Disjoint) :
    Changes fair settings host s (s.pass settings view) := by
  have hsweep : Changes fair settings host s (s.sweep settings view) := changes_sweep h
  rw [pass]
  have hclaims : Changes fair settings host s
      ((s.byEntry settings view).entries.foldl (claimFrom settings view)
        (s.sweep settings view)) := by
    refine List.foldlRecOn (motive := Changes fair settings host s) _ _ hsweep ?_
    rintro t hchanges ⟨entryUrl, targets⟩ hmem
    have hgroup := fun hfair => group_spec (h hfair) (OrderedMap.get?_eq_some_iff.mpr hmem)
    refine hchanges.trans (changes_claimFrom hview (fun hfair => (hgroup hfair).1) ?_)
    rw [hchanges.tracked]
    exact fun hfair => (hgroup hfair).2
  refine List.foldlRecOn (motive := Changes fair settings host s) _ _ hclaims ?_
  exact fun t hchanges entryUrl _ => hchanges.trans changes_flushEntry

/-! ### Events -/

/-- Each change leaves the targets tracked. -/
theorem TargetsTracked.change (h : s.TargetsTracked) (hfair : fair)
    (hchange : Change fair settings host s s') : s'.TargetsTracked := by
  cases hchange with
  | target target htracked =>
    intro requestId other hget
    rw [setTarget, OrderedMap.get?_set] at hget
    split_ifs at hget with heq
    · cases hget
      exact ⟨heq.symm, heq ▸ htracked hfair⟩
    · exact h requestId other hget
  | settled requestId =>
    intro other target hget
    have hmem := OrderedMap.mem_entries_delete.mp (OrderedMap.get?_eq_some_iff.mp hget)
    exact h other target (OrderedMap.get?_eq_some_iff.mpr hmem.2)
  | acks entryUrl ids =>
    rcases queueAcks_cases settings s entryUrl ids with heq | heq
    · rwa [heq]
    · rw [heq]
      exact h
  | _ => exact h

/-- A target is updated, if there is one. -/
theorem changes_update (h : fair → s.TargetsTracked) (requestId : ℕ) (update : Target → Target)
    (hupdate : ∀ target, (update target).requestId = target.requestId ∧
      (update target).entryUrl = target.entryUrl) :
    Changes fair settings host s (match s.targets.get? requestId with
      | none => s
      | some target => s.setTarget (update target)) := by
  split
  · exact .refl
  · next target hget =>
    obtain ⟨hrequest, hentry⟩ := hupdate target
    refine .single (.target _ fun hfair => ?_)
    obtain ⟨rfl, htracked⟩ := h hfair requestId target hget
    rw [hrequest, hentry, htracked]

theorem Changes.targetsTracked (h : Changes fair settings host s s') (hfair : fair)
    (htargets : s.TargetsTracked) : s'.TargetsTracked :=
  h.keeps htargets fun _ _ ht hchange => ht.change hfair hchange

/-- A failed claim makes its targets wait. -/
theorem changes_noteFailure (h : fair → s.TargetsTracked) (requests : List ℕ) (now : ℤ) :
    Changes fair settings host s (s.noteFailure requests now) := by
  refine List.foldlRecOn (motive := Changes fair settings host s) _ _ .refl ?_
  intro t hchanges requestId _
  exact hchanges.trans
    (changes_update (fun hfair => hchanges.targetsTracked hfair (h hfair)) requestId
      (fun target => target.noteFailure now) fun target => ⟨rfl, rfl⟩)

/-- A pass is a list of changes: the sweep, the claims of each entry, the acks. -/
theorem changes_tick (h : fair → s.TargetsTracked) (hview : fair → view.Disjoint) :
    Changes fair settings host s (s.tick settings view) := by
  have hpass : Changes fair settings host s (s.pass settings view) := changes_pass h hview
  rw [tick]
  split_ifs
  · exact hpass.tail (.flags false _ _)
  · exact hpass

/-- What an event does. -/
inductive Effect (fair : Prop) (settings : ReplyClaimSettings) (host : ClaimHost)
    (s s' : Scheduler) : SchedulerEvent host → Prop
  | track {requestId : ℕ} {entryUrl : String} {initialIds : List String} {dataWanted : ℕ} {now : ℤ}
    (h : s' = s.track requestId entryUrl initialIds dataWanted now) :
    Effect fair settings host s s' (.track requestId entryUrl initialIds dataWanted now)
  | changes {event : SchedulerEvent host} (h : Changes fair settings host s s') :
    Effect fair settings host s s' event
  | answered {index : ℕ} {outcome : ClaimOutcome} {ms : ℤ} (claim : Claim)
    (hclaim : s.claims[index]? = some claim)
    (h : Changes fair settings host
      (s.release index claim ((s.entryAt claim.entryUrl).noteOutcome claim outcome ms)) s') :
    Effect fair settings host s s' (.answered index outcome ms)
  | failed {index : ℕ} {now : ℤ} (claim : Claim) (hclaim : s.claims[index]? = some claim)
    (h : Changes fair settings host
      (s.release index claim ((s.entryAt claim.entryUrl).requeue claim.acks)) s') :
    Effect fair settings host s s' (.failed index now)

/-- Each event is one of four kinds: a new target, changes, or a claim that ends with changes behind
it. -/
theorem effect_of_step {event : SchedulerEvent host} (h : fair → s.TargetsTracked)
    (hfairEvent : fair → s.Fair host event) (hstep : s.step settings host event = some s') :
    Effect fair settings host s s' event := by
  cases event with
  | track => exact .track (Option.some.inj hstep).symm
  | noteFragment requestId fragment =>
    cases hstep
    exact .changes (changes_update h requestId (fun target => target.noteFragment fragment)
      fun target => ⟨rfl, rfl⟩)
  | tick view =>
    cases hstep
    exact .changes (changes_tick h hfairEvent)
  | kick view =>
    rw [step] at hstep
    split_ifs at hstep
    cases hstep
    -- the flag goes first, and then the pass is that of a tick
    have hflags : Change fair settings host s { s with kickQueued := false } := .flags _ false _
    exact .changes (.head hflags
      (changes_tick (fun hfair => (h hfair).change hfair hflags) hfairEvent))
  | answered index outcome ms =>
    obtain ⟨claim, hclaim, rfl⟩ := Option.map_eq_some_iff.mp hstep
    exact .answered claim hclaim (.single (.flags _ _ _))
  | delivered =>
    rw [step, delivered] at hstep
    split at hstep
    · cases hstep
    · next entryUrl items rest _ =>
      have hflags : Change fair settings host s { s with delivering := rest } := .flags _ _ rest
      cases hstep
      -- the acks of all items are queued, and their arrival may ask for a pass
      have hacks := Relation.ReflTransGen.tail (.single hflags) (Change.acks entryUrl
        (items.filterMap fun item : ClaimedItem => surbIdOfItem item.id))
      split_ifs
      · exact .changes (hacks.tail (.flags true _ _))
      · exact .changes hacks
  | failed index now =>
    obtain ⟨claim, hclaim, rfl⟩ := Option.map_eq_some_iff.mp hstep
    exact .failed claim hclaim (changes_noteFailure (s := s.release index claim _) h _ now)
  | probed entryUrl answer now =>
    rw [step, probed] at hstep
    split at hstep
    · cases hstep
    · next state hget =>
      split_ifs at hstep
      cases hstep
      refine .changes (.single (.entry entryUrl _ ?_))
      rw [entryAt_of_get? hget]
      unfold EntryState.probed
      split <;> exact ⟨⟨rfl, rfl, rfl⟩, rfl, rfl⟩

end Scheduler
end NoxSdk.Client
