import NoxSdk.Tls.PoolRuns

/-!
# How many spares a host has

`opening` counts the spare opens of a host that are scheduled or in flight, and `openSpare` runs
only where it leaves room: `Counted` is what every function of the pool keeps. One step does
not ask for room. A call that waits for an open keeps its session as a spare when it gives up, and
by then the open is no longer counted, so that another one may have started in its place.
-/

namespace NoxSdk.Tls

open NoxSdk.Lib

namespace Pool

variable (settings : PoolSettings) (s : Pool)

/-- The spares of a host that count against `tlsSpares`. -/
def liveSpares (host : String) : ℕ :=
  s.spares.countP fun spare => spare.host == host && !spare.superseded

/-- The spares of a host that are being replaced. -/
def supersededSpares (host : String) : ℕ :=
  s.spares.countP fun spare => spare.host == host && spare.superseded

/-- The spare opens of a host that wait for their timer. -/
def scheduledOpens (host : String) : ℕ := s.timers.count (.start host)

/-- The host of a spare open. -/
def hostOfOpen (id : ℕ) : Option String := (s.opens id).map PendingOpen.host

/-- The spare opens of a host in flight. -/
def inFlightOpens (host : String) : ℕ := s.pending.countP fun id => s.hostOfOpen id == some host

/-- A call that gives an open up, after its session is there, finds room for one more spare; and
the pool is not closed. -/
def LeavesRoom : PoolEvent → Prop
  | .resume call _ _ _ => ∀ host id outcome entry channel,
      s.calls call = .waiting host id (some outcome) →
      outcome = .aborted ∨ outcome = .deadline →
      s.opens id = some entry → entry.result = some (some channel) →
      s.spareCount host < settings.tlsSpares
  | .close => False
  | _ => True

/-- The host of an open that a call gave up, when the open has a session by now. -/
def leftHost (call : ℕ) : Option String :=
  match s.calls call with
  | .waiting host id (some outcome) =>
    if outcome = .aborted ∨ outcome = .deadline then
      ((s.opens id).bind PendingOpen.result).join.map fun _ => host
    else none
  | _ => none

/-- A session is left behind only by a call that gave up its open. -/
theorem leftHost_eq_some_iff {call : ℕ} {host : String} : s.leftHost call = some host ↔
    ∃ id outcome entry channel, s.calls call = .waiting host id (some outcome) ∧
      (outcome = .aborted ∨ outcome = .deadline) ∧ s.opens id = some entry ∧
      entry.result = some (some channel) := by
  constructor
  · intro hleft
    rw [leftHost] at hleft
    split at hleft
    · rename_i host' id outcome hcall
      split_ifs at hleft with houtcome
      obtain ⟨channel, hjoin, rfl⟩ := Option.map_eq_some_iff.mp hleft
      obtain ⟨entry, hentry, hresult⟩ :=
        Option.bind_eq_some_iff.mp (Option.join_eq_some_iff.mp hjoin)
      exact ⟨id, outcome, entry, channel, hcall, houtcome, hentry, hresult⟩
    · cases hleft
  · rintro ⟨id, outcome, entry, channel, hcall, houtcome, hentry, hresult⟩
    rw [leftHost, hcall]
    simp [houtcome, hentry, hresult]

instance : DecidableRel (LeavesRoom settings) := fun s event =>
  match event with
  | .resume call _ _ _ =>
    decidable_of_iff (∀ host ∈ s.leftHost call, s.spareCount host < settings.tlsSpares) <| by
      simp only [LeavesRoom, Option.mem_def, leftHost_eq_some_iff]
      grind
  | .close => isFalse not_false
  | .acquire .. | .callOpened .. | .callFailed _ | .spareOpened .. | .spareFailed .. |
    .waiterSees _ | .waiterAborts _ | .waiterTimesOut _ | .release .. | .fire .. |
    .enableBackground .. => isTrue trivial

end Pool

/-- What every function of the pool keeps of its spares and spare opens. -/
structure Counted (settings : PoolSettings) (s : Pool) : Prop where
  opening : ∀ host, s.opening host = s.scheduledOpens host + s.inFlightOpens host
  room : ∀ host, s.liveSpares host + s.opening host ≤ settings.tlsSpares
  superseded : ∀ host, s.supersededSpares host ≤ 1
  nodup : s.pending.Nodup
  started : ∀ id ∈ s.pending, id < s.starts

variable {settings : PoolSettings} {s s' : Pool}

namespace Counted

/-- Spares go, and the opens stay as they are. -/
theorem shrink (h : Counted settings s) (hspares : s'.spares.Sublist s.spares)
    (hopening : s'.opening = s.opening) (hpending : s'.pending = s.pending)
    (hstarts : s'.starts = s.starts)
    (htimers : ∀ host, s'.timers.count (.start host) = s.timers.count (.start host))
    (hopens : ∀ id, s'.hostOfOpen id = s.hostOfOpen id) : Counted settings s' where
  opening host := by
    simp only [Pool.scheduledOpens, Pool.inFlightOpens, hopening, hpending, htimers, hopens]
    exact h.opening host
  room host := by
    rw [hopening]
    exact (Nat.add_le_add_right hspares.countP_le _).trans (h.room host)
  superseded host := hspares.countP_le.trans (h.superseded host)
  nodup := hpending ▸ h.nodup
  started := by
    rw [hpending, hstarts]
    exact h.started

/-- The fields the count does not look at. -/
theorem frame (h : Counted settings s) (hspares : s'.spares = s.spares)
    (hopening : s'.opening = s.opening) (hpending : s'.pending = s.pending)
    (hstarts : s'.starts = s.starts) (htimers : s'.timers = s.timers)
    (hopens : s'.opens = s.opens) : Counted settings s' :=
  h.shrink (hspares ▸ List.Sublist.refl _) hopening hpending hstarts (fun _ => by rw [htimers])
    fun _ => by rw [Pool.hostOfOpen, Pool.hostOfOpen, hopens]

/-- Taking a channel from its owner does not count. -/
theorem loosen (h : Counted settings s) (channel : ℕ) : Counted settings (s.loosen channel) :=
  h.frame rfl rfl rfl rfl rfl rfl

/-- Handing a channel out does not count. -/
theorem hand (h : Counted settings s) (call channel : ℕ) :
    Counted settings (s.hand call channel) :=
  h.frame rfl rfl rfl rfl rfl rfl

/-! ### Opens -/

/-- An open starts that was counted as scheduled, or that there is room for. -/
theorem startOpen {host : String} {now : ℤ}
    (hopening : ∀ other, s.opening other =
      s.scheduledOpens other + s.inFlightOpens other + if other = host then 1 else 0)
    (hroom : ∀ other, s.liveSpares other + s.opening other ≤ settings.tlsSpares)
    (hsuperseded : ∀ other, s.supersededSpares other ≤ 1) (hnodup : s.pending.Nodup)
    (hstarted : ∀ id ∈ s.pending, id < s.starts) : Counted settings (s.startOpen host now) where
  opening other := by
    have hnew : (s.startOpen host now).hostOfOpen s.starts = some host := by
      simp [Pool.hostOfOpen, Pool.startOpen]
    have hold : ∀ id ∈ s.pending,
        (s.startOpen host now).hostOfOpen id = s.hostOfOpen id := fun id hid => by
      simp [Pool.hostOfOpen, Pool.startOpen, (hstarted id hid).ne]
    have hcount : (s.startOpen host now).inFlightOpens other =
        s.inFlightOpens other + if other = host then 1 else 0 := by
      have hpending : (s.startOpen host now).pending = s.pending ++ [s.starts] := rfl
      rw [Pool.inFlightOpens, hpending, List.countP_append, List.countP_singleton, hnew,
        List.countP_congr fun id hid => by rw [hold id hid]]
      rcases eq_or_ne other host with rfl | hother
      · simp [Pool.inFlightOpens]
      · simp [Pool.inFlightOpens, hother, hother.symm]
    rw [hcount, ← Nat.add_assoc]
    exact hopening other
  room := hroom
  superseded := hsuperseded
  nodup := List.nodup_append.mpr ⟨hnodup, List.nodup_singleton _, fun id hid other hother => by
    rw [List.mem_singleton.mp hother]
    exact (hstarted id hid).ne⟩
  started id hid := by
    rcases List.mem_append.mp hid with hold | hnew
    · exact (hstarted id hold).trans (Nat.lt_succ_self _)
    · rw [List.mem_singleton.mp hnew]
      exact Nat.lt_succ_self _

/-- One more open is counted, where there is room for it. -/
theorem openSpare (h : Counted settings s) {host : String} (delayMs now : ℤ)
    (hroom : s.liveSpares host + s.opening host < settings.tlsSpares) :
    Counted settings (s.openSpare host delayMs now) := by
  have hopening : ∀ other, Function.update s.opening host (s.opening host + 1) other =
      s.opening other + if other = host then 1 else 0 := fun other => by
    rw [Function.update_apply]
    split_ifs with hother
    · rw [hother]
    · rfl
  have hroom_all : ∀ other, s.liveSpares other +
      Function.update s.opening host (s.opening host + 1) other ≤ settings.tlsSpares := by
    intro other
    rw [hopening]
    split_ifs with hother
    · subst hother
      exact hroom
    · exact h.room other
  rw [Pool.openSpare]
  split_ifs
  · refine startOpen (fun other => ?_) hroom_all h.superseded h.nodup h.started
    refine (hopening other).trans ?_
    rw [h.opening other]
    rfl
  · refine ⟨fun other => ?_, hroom_all, h.superseded, h.nodup, h.started⟩
    have htimers : (s.timers ++ [PoolTimer.start host]).count (.start other) =
        s.scheduledOpens other + if other = host then 1 else 0 := by
      rw [List.count_append, Pool.scheduledOpens]
      rcases eq_or_ne other host with rfl | hother
      · simp
      · simp [hother, hother.symm]
    refine (hopening other).trans ?_
    rw [h.opening other, Nat.add_right_comm, ← htimers]
    rfl

/-- An open is started only while the host has fewer spares than it may. -/
theorem replenish (h : Counted settings s) (host : String) (delayMs now : ℤ) :
    Counted settings (s.replenish settings host delayMs now) := by
  rw [Pool.replenish]
  split_ifs with hmode hbackground hdeferred hfull
  · exact h
  · exact h.frame rfl rfl rfl rfl rfl rfl
  · exact h
  · exact h
  · exact h.openSpare delayMs now (not_le.mp hfull)

/-- A settled open leaves room for the spare it may become. -/
theorem settleOpen (h : Counted settings s) {id : ℕ} {entry : PendingOpen} (hid : id ∈ s.pending)
    (hentry : s.opens id = some entry) (result : Option ℕ) (now : ℤ) :
    Counted settings (s.settleOpen id entry result now) ∧
      (s.settleOpen id entry result now).liveSpares entry.host +
        (s.settleOpen id entry result now).opening entry.host < settings.tlsSpares := by
  have hhost : s.hostOfOpen id = some entry.host := by rw [Pool.hostOfOpen, hentry, Option.map_some]
  -- the settled open is still known, with the host it had
  have hsame : ∀ other,
      (s.settleOpen id entry result now).hostOfOpen other = s.hostOfOpen other := by
    intro other
    simp only [Pool.hostOfOpen, Pool.settleOpen, Function.update_apply]
    split_ifs with hother
    · rw [hother, hentry]
      rfl
    · rfl
  have herase : (s.settleOpen id entry result now).pending = s.pending.erase id := by
    rw [h.nodup.erase_eq_filter]
    rfl
  -- one open less is in flight, at its own host only
  have hcount : ∀ host, s.inFlightOpens host =
      (s.settleOpen id entry result now).inFlightOpens host +
        if host = entry.host then 1 else 0 := by
    intro host
    have hafter : (s.settleOpen id entry result now).inFlightOpens host =
        (s.pending.erase id).countP fun other => s.hostOfOpen other == some host := by
      simp only [Pool.inFlightOpens, herase, hsame]
    rw [Pool.inFlightOpens, (List.perm_cons_erase hid).countP_eq, List.countP_cons, hhost, hafter]
    rcases eq_or_ne host entry.host with rfl | hother
    · simp
    · simp [hother, hother.symm]
  have hopen : 0 < s.opening entry.host := by
    rw [h.opening, hcount, if_pos rfl]
    exact Nat.succ_pos _
  -- the counter goes down by the same one
  have hopening : ∀ host, s.opening host =
      (s.settleOpen id entry result now).opening host + if host = entry.host then 1 else 0 := by
    intro host
    simp only [Pool.settleOpen, Function.update_apply]
    split_ifs with heq
    · rw [heq, Nat.sub_add_cancel hopen]
    · rfl
  refine ⟨⟨fun host => ?_, fun host => ?_, h.superseded, ?_, fun other hother => ?_⟩, ?_⟩
  · have hbefore := h.opening host
    rw [hopening, hcount, ← Nat.add_assoc] at hbefore
    exact Nat.add_right_cancel hbefore
  · refine le_trans (Nat.add_le_add_left ?_ _) (h.room host)
    rw [hopening host]
    exact Nat.le_add_right _ _
  · exact herase ▸ h.nodup.erase id
  · exact h.started other (List.mem_of_mem_filter hother)
  · have hbefore := h.room entry.host
    rw [hopening, if_pos rfl, ← Nat.add_assoc] at hbefore
    exact hbefore

/-! ### Spares -/

/-- Clearing the timers of spares leaves those that start an open. -/
theorem clearTimers (channels : List ℕ) (host : String) :
    (s.clearSpareTimers channels).timers.count (.start host) = s.timers.count (.start host) := by
  rw [Pool.clearSpareTimers]
  exact List.count_filter rfl

/-- Fewer spares are within the limits too. -/
theorem dropSpares (h : Counted settings s) (dropped : Spare → Bool) :
    Counted settings (s.dropSpares dropped) :=
  h.shrink List.filter_sublist rfl rfl rfl (clearTimers _) fun _ => rfl

/-- A spare that is taken leaves room for another. -/
theorem takeSpare (h : Counted settings s) {host : String} {spare : Spare}
    (htake : s.takeSpare host = some (spare, s')) : Counted settings s' := by
  obtain ⟨_, -, heq⟩ := Option.map_eq_some_iff.mp htake
  obtain ⟨rfl, rfl⟩ := Prod.mk.inj heq
  exact h.shrink List.filter_sublist rfl rfl rfl (clearTimers _) fun _ => rfl

/-- A channel becomes a spare where there was room for it, or is torn down. -/
theorem keepSpare (h : Counted settings s) {host : String} (channel : ℕ) (readyAt now : ℤ)
    (jitterMs : ℚ) (hroom : s.liveSpares host + s.opening host < settings.tlsSpares) :
    Counted settings (s.keepSpare settings host channel readyAt now jitterMs) := by
  rw [Pool.keepSpare]
  split_ifs with hclosed
  · exact h.frame rfl rfl rfl rfl rfl rfl
  dsimp only
  generalize decide (0 < ((settings.tlsSpareTtlMs - spareRefillLeadMs - (now - readyAt) : ℤ) : ℚ)
    - jitterMs) = refreshable
  refine (dropSpares (s := { s with
    spares := s.spares ++ [⟨channel, host, readyAt, false, refreshable⟩]
    spareHosts := s.spareHosts.filter (· != host) ++ [host]
    timers := s.timers ++ .expire channel :: if refreshable then [.refresh channel] else []
    owner := Function.update s.owner channel .spare }) ?_ _).frame rfl rfl rfl rfl rfl rfl
  refine ⟨fun other => ?_, fun other => ?_, fun other => ?_, h.nodup, h.started⟩
  · have htimers : (s.timers ++ PoolTimer.expire channel ::
        if refreshable then [PoolTimer.refresh channel] else []).count (.start other) =
          s.timers.count (.start other) := by
      cases refreshable <;> simp
    rw [Pool.scheduledOpens, htimers]
    exact h.opening other
  · rw [Pool.liveSpares, List.countP_append, List.countP_singleton]
    simp only [Bool.not_false, Bool.and_true, beq_iff_eq]
    split_ifs with hother
    · subst hother
      rw [Nat.add_right_comm]
      exact hroom
    · exact h.room other
  · rw [Pool.supersededSpares, List.countP_append, List.countP_singleton]
    simp only [Bool.and_false, Bool.false_eq_true, if_false, Nat.add_zero]
    exact h.superseded other

/-- A spare of a host without a superseded one is superseded, and its replacement opens. -/
theorem refresh (h : Counted settings s) (hchannels : (s.spares.map Spare.channel).Nodup)
    (channel : ℕ) (now : ℤ) : Counted settings (s.refresh channel now) := by
  rw [Pool.refresh]
  split
  · exact h
  next spare hfound =>
    split_ifs with hguard
    · exact h
    have hmem : spare ∈ s.spares := List.mem_of_find?_eq_some hfound
    have hchannel : spare.channel = channel := by simpa using List.find?_some hfound
    have hnone : ∀ other ∈ s.spares, other.host = spare.host → other.superseded = false := by
      have hany := (not_or.mp (not_or.mp (not_or.mp hguard).2).2).2
      simpa using hany
    -- what `refresh` does to one spare; the others have other channels
    let mark (other : Spare) : Spare :=
      if other.channel = channel then { other with superseded := true } else other
    have hsame : ∀ other ∈ s.spares, other ≠ spare → mark other = other := fun other hother hne =>
      if_neg fun heq =>
        hne (List.inj_on_of_nodup_map hchannels hother hmem (heq.trans hchannel.symm))
    have hmark : mark spare = { spare with superseded := true } := if_pos hchannel
    have hperm : s.spares.Perm (spare :: s.spares.erase spare) := List.perm_cons_erase hmem
    have hrest : (s.spares.erase spare).map mark = s.spares.erase spare := by
      refine (List.map_congr_left fun other hother => ?_).trans (List.map_id _)
      have hnodup : s.spares.Nodup := hchannels.of_map _
      exact hsame other (List.mem_of_mem_erase hother)
        fun heq => (hnodup.mem_erase_iff.mp hother).1 heq
    have hmarked : (s.spares.map mark).Perm
        ({ spare with superseded := true } :: s.spares.erase spare) := by
      refine (hperm.map mark).trans ?_
      rw [List.map_cons, hmark, hrest]
    -- one live spare less for its host, and as many for the others
    have hlive : ∀ host, (s.spares.map mark).countP
        (fun other => other.host == host && !other.superseded) +
          (if host = spare.host then 1 else 0) = s.liveSpares host := fun host => by
      rw [Pool.liveSpares, hmarked.countP_eq, hperm.countP_eq, List.countP_cons, List.countP_cons,
        hnone spare hmem rfl]
      rcases eq_or_ne host spare.host with rfl | hother
      · simp
      · simp [hother, hother.symm]
    refine (openSpare (s := { s with spares := s.spares.map mark }) ?_ 0 now ?_)
    · refine ⟨h.opening, fun host => ?_, fun host => ?_, h.nodup, h.started⟩
      · refine le_trans (Nat.add_le_add_right ?_ _) (h.room host)
        rw [← hlive]
        exact Nat.le_add_right _ _
      · have hbefore := h.superseded host
        rw [Pool.supersededSpares, hperm.countP_eq, List.countP_cons] at hbefore
        rw [Pool.supersededSpares, hmarked.countP_eq, List.countP_cons]
        rcases eq_or_ne host spare.host with rfl | hother
        · -- no other spare of the host is superseded
          have hzero : (s.spares.erase spare).countP
              (fun other => other.host == spare.host && other.superseded) = 0 := by
            rw [List.countP_eq_zero]
            intro other hother hboth
            rw [Bool.and_eq_true, beq_iff_eq] at hboth
            have hfalse := hnone other (List.mem_of_mem_erase hother) hboth.1
            rw [hboth.2] at hfalse
            cases hfalse
          simp [hzero]
        · simpa [hother.symm] using (Nat.le_add_right _ _).trans hbefore
    -- the place of the superseded spare is there for its replacement
    · have hbefore := h.room spare.host
      rw [← hlive, if_pos rfl, Nat.add_right_comm] at hbefore
      exact hbefore

/-- A spare that expires is dropped, and its replacement is counted in its place. -/
theorem expire (h : Counted settings s) (channel : ℕ) (now : ℤ) :
    Counted settings (s.expire settings channel now) := by
  rw [Pool.expire]
  split
  · exact h
  next spare hfound =>
    have hdropped := h.dropSpares (·.channel == channel)
    generalize s.dropSpares (·.channel == channel) = s at hdropped
    have hhosts : Counted settings (if s.spares.any (·.host == spare.host) then s
        else { s with spareHosts := s.spareHosts.filter (· != spare.host) }) := by
      split_ifs
      · exact hdropped
      · exact hdropped.frame rfl rfl rfl rfl rfl rfl
    dsimp only
    generalize (if s.spares.any (·.host == spare.host) then s
        else { s with spareHosts := s.spareHosts.filter (· != spare.host) }) = s at hhosts ⊢
    split_ifs with hguard hroom
    · exact hhosts
    · exact hhosts.openSpare _ _ hroom
    · exact hhosts

/-! ### Steps -/

/-- A new pool has no spare and no open. -/
theorem init : Counted settings Pool.init where
  opening _ := rfl
  room _ := Nat.zero_le _
  superseded _ := Nat.zero_le _
  nodup := List.nodup_nil
  started id hid := by cases hid

/-- A call takes a spare, waits for an open or opens on its own, and replenishes what it took. -/
theorem acquire (h : Counted settings s) (call : ℕ) (host : String) (ages : ℚ × Option ℚ)
    (view : ℕ → ChannelView) (delayMs now : ℤ) :
    Counted settings (s.acquire settings call host ages view delayMs now) := by
  rw [Pool.acquire]
  have hnoted : Counted settings (s.noteCall host now) := h.frame rfl rfl rfl rfl rfl rfl
  split
  · dsimp only
    split
    next spare taken htake =>
      exact ((hnoted.takeSpare htake).hand call spare.channel).replenish _ _ _
    next =>
      split
      next id entry hwait =>
        -- the open is claimed, and stays one of its host
        obtain ⟨other, -, hentry⟩ := List.exists_of_findSome?_eq_some hwait
        obtain ⟨found, hfound, hother⟩ := Option.bind_eq_some_iff.mp hentry
        dsimp only at hother
        split_ifs at hother
        obtain ⟨rfl, rfl⟩ := Prod.mk.inj (Option.some.inj hother)
        refine hnoted.shrink (List.Sublist.refl _) rfl rfl rfl (fun _ => rfl) fun next => ?_
        simp only [Pool.hostOfOpen, Function.update_apply]
        split_ifs with hnext
        · rw [hnext, hfound]
          rfl
        · rfl
      next => exact hnoted.frame rfl rfl rfl rfl rfl rfl
  · dsimp only
    split
    · exact h.frame rfl rfl rfl rfl rfl rfl
    · exact h.frame rfl rfl rfl rfl rfl rfl

/-- The channel of a call is no spare; what it replenishes is counted. -/
theorem callOpened (h : Counted settings s) (call : ℕ) (host : String) (delayMs now : ℤ) :
    Counted settings (s.callOpened settings call host delayMs now) := by
  rw [Pool.callOpened]
  have hnew : Counted settings (s.newChannel host now) := h.frame rfl rfl rfl rfl rfl rfl
  have hhanded := hnew.hand call s.opened
  split
  · exact hhanded.replenish _ _ _
  · split_ifs
    · exact hhanded.frame rfl rfl rfl rfl rfl rfl
    · exact hhanded

/-- An open that settles is a spare in its own place. -/
theorem spareOpened (h : Counted settings s) {id : ℕ} {entry : PendingOpen} (hid : id ∈ s.pending)
    (hentry : s.opens id = some entry) (jitterMs : ℚ) (now : ℤ) :
    Counted settings (s.spareOpened settings id entry jitterMs now) := by
  rw [Pool.spareOpened]
  have hnew : Counted settings (s.newChannel entry.host now) := h.frame rfl rfl rfl rfl rfl rfl
  obtain ⟨hsettled, hroom⟩ := hnew.settleOpen hid hentry (some s.opened) now
  split_ifs
  · exact hsettled.frame rfl rfl rfl rfl rfl rfl
  · exact hsettled.keepSpare _ _ _ _ hroom

/-- A call that gives its open up leaves the channel to the spares, where there is room. -/
theorem giveUp (h : Counted settings s) {call : ℕ} {host : String} {id : ℕ} {next : CallPhase}
    {jitterMs : ℚ} {now : ℤ}
    (hroom : ∀ entry channel, s.opens id = some entry → entry.result = some (some channel) →
      s.spareCount host < settings.tlsSpares)
    (hstep : s.giveUp settings call host id next jitterMs now = some s') : Counted settings s' := by
  obtain ⟨entry, hentry, rfl⟩ := Option.map_eq_some_iff.mp hstep
  have hleft : Counted settings { s with
      opens := Function.update s.opens id (some { entry with claimed := false })
      calls := Function.update s.calls call next } := by
    refine h.shrink (List.Sublist.refl _) rfl rfl rfl (fun _ => rfl) fun other => ?_
    simp only [Pool.hostOfOpen, Function.update_apply]
    split_ifs with hother
    · rw [hother, hentry]
      rfl
    · rfl
  dsimp only
  split
  next channel hresult =>
    exact (hleft.loosen channel).keepSpare channel _ _ _ (hroom entry channel hentry hresult)
  next => exact hleft

/-- A call goes on after its wait, under the condition when it gives up. -/
theorem resume (h : Counted settings s) {call : ℕ} {jitterMs : ℚ} {delayMs now : ℤ}
    (hroom : s.LeavesRoom settings (.resume call jitterMs delayMs now))
    (hstep : s.resume settings call jitterMs delayMs now = some s') : Counted settings s' := by
  rw [Pool.resume] at hstep
  split at hstep
  next host _ channel _ =>
    obtain rfl := Option.some.inj hstep
    exact ((h.loosen channel).hand call channel).replenish _ _ _
  next =>
    obtain rfl := Option.some.inj hstep
    exact h.frame rfl rfl rfl rfl rfl rfl
  next host id hcall =>
    exact h.giveUp (fun entry channel hentry hresult =>
      hroom host id _ entry channel hcall (.inl rfl) hentry hresult) hstep
  next host id hcall =>
    exact h.giveUp (fun entry channel hentry hresult =>
      hroom host id _ entry channel hcall (.inr rfl) hentry hresult) hstep
  next => cases hstep

/-- What the wait resolves to does not count. -/
theorem settleFirst (h : Counted settings s) {call : ℕ} {outcome : Settled}
    (hstep : s.settleFirst call outcome = some s') : Counted settings s' := by
  rw [Pool.settleFirst] at hstep
  split at hstep
  · obtain rfl := Option.some.inj hstep
    exact h.frame rfl rfl rfl rfl rfl rfl
  · cases hstep

/-- A released channel is no spare. -/
theorem release (h : Counted settings s) (call channel : ℕ) (ok : Bool) (view : ℕ → ChannelView)
    (now : ℤ) : Counted settings (s.release settings call channel ok view now) := by
  rw [Pool.release]
  dsimp only
  split
  · exact h.frame rfl rfl rfl rfl rfl rfl
  · split_ifs
    · refine h.shrink (List.Sublist.refl _) rfl rfl rfl (fun host => ?_) fun _ => rfl
      exact (List.count_append ..).trans (by simp [Pool.setIdle, Pool.loosen])
    · exact h.frame rfl rfl rfl rfl rfl rfl

/-- A timer that is not that of an open leaves the count alone. -/
private theorem eraseTimer (h : Counted settings s) {timer : PoolTimer}
    (htimer : ∀ host, timer ≠ .start host) :
    Counted settings { s with timers := s.timers.erase timer } :=
  h.shrink (List.Sublist.refl _) rfl rfl rfl
    (fun host => List.count_erase_of_ne (htimer host).symm) fun _ => rfl

/-- Each timer keeps the limits. -/
theorem fire (h : Counted settings s) (hchannels : (s.spares.map Spare.channel).Nodup)
    {timer : PoolTimer} (htimer : timer ∈ s.timers) (now : ℤ) :
    Counted settings (s.fire settings timer now) := by
  cases timer with
  | expire channel => exact (h.eraseTimer (by simp)).expire channel now
  | refresh channel => exact (h.eraseTimer (by simp)).refresh hchannels channel now
  | start host =>
    refine startOpen (fun other => (h.opening other).trans ?_) h.room h.superseded h.nodup h.started
    have hcount : s.timers.count (.start other) =
        (s.timers.erase (.start host)).count (.start other)
        + if other = host then 1 else 0 := by
      rw [(List.perm_cons_erase htimer).count_eq, List.count_cons]
      rcases eq_or_ne other host with rfl | hother
      · simp
      · simp [hother, hother.symm]
    rw [Pool.scheduledOpens, hcount, Nat.add_right_comm]
    rfl
  | retire channel =>
    have herased : Counted settings { s with timers := s.timers.erase (.retire channel) } :=
      h.eraseTimer (by simp)
    rw [Pool.fire]
    dsimp only
    split_ifs
    · exact herased.frame rfl rfl rfl rfl rfl rfl
    · exact herased

/-- The hosts that were deferred are replenished one by one, each within its limit. -/
theorem enableBackground (h : Counted settings s) (delaysMs : String → ℤ) (now : ℤ) :
    Counted settings (s.enableBackground settings delaysMs now) := by
  rw [Pool.enableBackground]
  split_ifs
  · exact h
  · have hstart : Counted settings { s with background := true } :=
      h.frame rfl rfl rfl rfl rfl rfl
    have hfold : ∀ (hosts : List String) (s : Pool), Counted settings s →
        Counted settings
          (hosts.foldl (fun s host => s.replenish settings host (delaysMs host) now) s) := by
      intro hosts
      induction hosts with
      | nil => exact fun _ h => h
      | cons host hosts ih => exact fun s h => ih _ (h.replenish _ _ _)
    exact (hfold _ _ hstart).frame rfl rfl rfl rfl rfl rfl

/-- Every step that leaves room keeps the count. -/
theorem step (h : Counted settings s) (howned : Owned settings none s) {event : PoolEvent}
    (hroom : s.LeavesRoom settings event) (hstep : s.step settings event = some s') :
    Counted settings s' := by
  cases event with
  | acquire call host ages view delayMs now =>
    simp only [Pool.step] at hstep
    split_ifs at hstep
    obtain rfl := Option.some.inj hstep
    exact h.acquire call host ages view delayMs now
  | callOpened call delayMs now =>
    simp only [Pool.step] at hstep
    split at hstep
    · obtain rfl := Option.some.inj hstep
      exact h.callOpened call _ delayMs now
    · cases hstep
  | callFailed call =>
    simp only [Pool.step] at hstep
    split at hstep
    · obtain rfl := Option.some.inj hstep
      exact h.frame rfl rfl rfl rfl rfl rfl
    · cases hstep
  | spareOpened id jitterMs now =>
    simp only [Pool.step] at hstep
    split_ifs at hstep with hid
    obtain ⟨entry, hentry, rfl⟩ := Option.map_eq_some_iff.mp hstep
    exact h.spareOpened hid hentry jitterMs now
  | spareFailed id now =>
    simp only [Pool.step] at hstep
    split_ifs at hstep with hid
    obtain ⟨entry, hentry, rfl⟩ := Option.map_eq_some_iff.mp hstep
    -- a failed open leaves room, which is not needed
    exact (h.settleOpen hid hentry none now).1
  | waiterSees call =>
    obtain ⟨outcome, -, hstep⟩ := Option.bind_eq_some_iff.mp hstep
    exact h.settleFirst hstep
  | waiterAborts call => exact h.settleFirst hstep
  | waiterTimesOut call => exact h.settleFirst hstep
  | resume call jitterMs delayMs now => exact h.resume hroom hstep
  | release call ok view now =>
    simp only [Pool.step] at hstep
    split at hstep
    · obtain rfl := Option.some.inj hstep
      exact h.release call _ ok view now
    · cases hstep
  | fire timer now =>
    simp only [Pool.step] at hstep
    split_ifs at hstep with htimer
    obtain rfl := Option.some.inj hstep
    exact h.fire howned.nodup htimer now
  | enableBackground delaysMs now =>
    obtain rfl := Option.some.inj hstep
    exact h.enableBackground delaysMs now
  -- `LeavesRoom` excludes a close
  | close => exact absurd hroom not_false

end Counted

/-! ### Runs -/

/-- The bounds on the spares of a host. -/
structure Pool.SparesBounded (settings : PoolSettings) (s : Pool) (host : String) : Prop where
  counted : s.opening host = s.scheduledOpens host + s.inFlightOpens host
  room : s.liveSpares host + (s.scheduledOpens host + s.inFlightOpens host) ≤ settings.tlsSpares
  superseded : s.supersededSpares host ≤ 1
  held : s.spares.countP (·.host == host) ≤ settings.tlsSpares + 1

/-- A spare is live or superseded. -/
theorem countP_host (s : Pool) (host : String) :
    s.spares.countP (·.host == host) = s.liveSpares host + s.supersededSpares host := by
  rw [Pool.liveSpares, Pool.supersededSpares]
  induction s.spares with
  | nil => rfl
  | cons spare spares ih =>
    simp only [List.countP_cons, ih]
    cases spare.host == host <;> cases spare.superseded <;> simp <;> omega

/-- What is counted gives the four bounds. -/
theorem Counted.bounded (h : Counted settings s) (host : String) :
    s.SparesBounded settings host where
  counted := h.opening host
  room := h.opening host ▸ h.room host
  superseded := h.superseded host
  held := by
    rw [countP_host]
    exact Nat.add_le_add ((Nat.le_add_right _ _).trans (h.room host)) (h.superseded host)

/-- While every call that gives up an open leaves room for its session, a host never has more
than `tlsSpares` spares and opens, and one spare more while it is replaced.

The counts (`Counted`) need that a session has one owner (`Owned`), so both are carried along the
run. An open that is given up ends as a spare, and only there the count may go over the limit. -/
theorem spares_bounded_while_room (settings : PoolSettings) (s : Pool)
    (hrun : RunWhen (Pool.step settings) (Pool.LeavesRoom settings) Pool.init s) (host : String) :
    s.SparesBounded settings host := by
  have hboth : Owned settings none s ∧ Counted settings s :=
    hrun.invariant ⟨Owned.init, Counted.init⟩ fun s event s' hinv hroom hstep =>
      ⟨hinv.1.step hstep, hinv.2.step hinv.1 hroom hstep⟩
  exact hboth.2.bounded host

/-- The settings of the samples allow one spare. A call waits for an open of its host and is aborted
before the open succeeds; it leaves the session, for which there is room. -/
def abortedPoolEvents : List PoolEvent :=
  [.enableBackground (fun _ => 0) 0,
    .acquire 0 "rpc.example" (0, none) (fun _ => ⟨true, 0⟩) 0 0,
    .callOpened 0 0 100,
    .acquire 1 "rpc.example" (0, none) (fun _ => ⟨true, 0⟩) 0 200,
    .waiterAborts 1,
    .spareOpened 0 0 400,
    .resume 1 0 0 400]

/-- A run in which a call gives its open up, with room for the channel. -/
theorem spares_bounded_while_room_sample :
    ∃ s, runEvents (checked (Pool.step samplePoolSettings) (Pool.LeavesRoom samplePoolSettings))
        Pool.init abortedPoolEvents = some s ∧
      s.liveSpares "rpc.example" = 1 ∧ s.SparesBounded samplePoolSettings "rpc.example" := by
  have hsome : ((runEvents (checked (Pool.step samplePoolSettings)
      (Pool.LeavesRoom samplePoolSettings)) Pool.init abortedPoolEvents).map
        fun s => s.liveSpares "rpc.example") = some 1 := by decide +kernel
  obtain ⟨s, hs, hlive⟩ := Option.map_eq_some_iff.mp hsome
  exact ⟨s, hs, hlive, spares_bounded_while_room samplePoolSettings s (runWhen_of_checked hs)
    "rpc.example"⟩

/-- A call waits for the only open of its host and is aborted when the open succeeds; before it
goes on, another call gets its session and has a spare opened. The first session then becomes a
spare too. -/
def crowdedPoolEvents : List PoolEvent :=
  [.enableBackground (fun _ => 0) 0,
    .acquire 0 "rpc.example" (0, none) (fun _ => ⟨true, 0⟩) 0 0,
    .callOpened 0 0 100,
    .acquire 1 "rpc.example" (0, none) (fun _ => ⟨true, 0⟩) 0 200,
    .acquire 2 "rpc.example" (0, none) (fun _ => ⟨true, 0⟩) 0 300,
    .waiterAborts 1,
    .spareOpened 0 0 400,
    .callOpened 2 0 400,
    .resume 1 0 0 400]

/-- One spare and one open in flight, where one of either is allowed. -/
theorem spares_crowded : ∃ s,
    runEvents (Pool.step samplePoolSettings) Pool.init crowdedPoolEvents = some s ∧
      samplePoolSettings.tlsSession = .perCall ∧ samplePoolSettings.tlsSpares = 1 ∧
      s.liveSpares "rpc.example" = 1 ∧ s.inFlightOpens "rpc.example" = 1 ∧
      ¬ s.SparesBounded samplePoolSettings "rpc.example" := by
  have hsome : ((runEvents (Pool.step samplePoolSettings) Pool.init crowdedPoolEvents).map
      fun s => (s.liveSpares "rpc.example", s.scheduledOpens "rpc.example",
        s.inFlightOpens "rpc.example")) = some (1, 0, 1) := by decide +kernel
  obtain ⟨s, hs, hcounts⟩ := Option.map_eq_some_iff.mp hsome
  simp only [Prod.mk.injEq] at hcounts
  obtain ⟨hlive, hscheduled, hflight⟩ := hcounts
  refine ⟨s, hs, rfl, rfl, hlive, hflight, fun hbounded => ?_⟩
  have hroom := hbounded.room
  rw [hlive, hscheduled, hflight] at hroom
  exact absurd hroom (by decide)

end NoxSdk.Tls
