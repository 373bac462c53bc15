import NoxSdk.Kps.ConnectionPool

/-!
# The idle connections of the pool

A sweep goes through the connections of a lane without an exchange, the retained ones first and
then the ones used last. What it gives up ranks behind as many others as are to be kept
(`sweep_keeps`), and what it leaves open beyond its time is bounded (`idle_bounded`).
-/

namespace NoxSdk.Kps

open NoxSdk.Lib

namespace ConnectionPool

section Sweeps

variable {settings : ConnectionSettings} {pool : ConnectionPool} {key key' : PoolKey}
  {lane : Lane} {now : ℕ}

/-- What a sweep makes of an entry. -/
def swept (settings : ConnectionSettings) (retained : List String) (now : ℕ)
    (entry : (PoolKey × Lane) × ℕ) : Lane :=
  ((verdict settings retained now entry.1 entry.2).bind fun event =>
    entry.1.2.step settings (now, event)).getD entry.1.2

/-- A new entry leaves the others. -/
theorem get?_entry (hget : pool.pool.get? key = some lane) (key' : PoolKey) (now : ℕ) :
    (pool.entry key' now).pool.get? key = some lane := by
  rw [entry]
  split_ifs with hhas
  · exact hget
  · refine (OrderedMap.get?_set_of_ne _ _ fun heq => ?_).trans hget
    rw [OrderedMap.has, ← heq, hget] at hhas
    exact hhas rfl

/-- A connected entry has nothing to connect. -/
theorem connect_eq_self (hget : pool.pool.get? key = some lane) (hconn : lane.conn.isSome = true) :
    (pool.connect settings key now).pool.get? key' = pool.pool.get? key' := by
  have hsame : lane.connection now = lane := if_pos (by simp [hconn])
  rw [connect, onLane, hget, Option.bind_some, Lane.step, Option.map_some, Option.getD_some, hsame,
    OrderedMap.get?_set]
  split
  · rename_i heq
    rw [heq, hget]
  · rfl

/-- A keepalive goes over the connection it is for. -/
theorem get?_request (hget : pool.pool.get? key = some lane) (hconn : lane.conn.isSome = true)
    {lane' : Lane} (hother : pool.pool.get? key' = some lane') :
    (pool.request settings key.address key.lane true now).pool.get? key' = some lane' := by
  have hentry : ∀ key'', ((pool.entry key'' now).pool.get? key = some lane) ∧
      (pool.entry key'' now).pool.get? key' = some lane' := fun key'' =>
    ⟨get?_entry hget key'' now, get?_entry hother key'' now⟩
  obtain ⟨address, laneOf⟩ := key
  rw [request]
  split_ifs
  · exact hother
  · cases laneOf with
    | primary =>
      obtain ⟨hget, hother⟩ := hentry ⟨address, .primary⟩
      exact (connect_eq_self hget hconn).trans hother
    | claims =>
      obtain ⟨hget, hother⟩ := hentry ⟨address, .primary⟩
      have hget' := get?_entry hget ⟨address, .claims⟩ now
      have hother' := get?_entry hother ⟨address, .claims⟩ now
      have hown : ((pool.entry ⟨address, .primary⟩ now).entry ⟨address, .claims⟩ now).hasConn
          ⟨address, .claims⟩ = true := by
        rw [hasConn, hget']
        exact hconn
      dsimp only [laneEntry]
      rw [if_pos hown]
      exact (connect_eq_self hget' hconn).trans hother'
  · rename_i hnot
    exact absurd rfl hnot

/-- An event of an entry is a step of its lane, or none. -/
theorem get?_onLaneD (settings : ConnectionSettings) (hget : pool.pool.get? key = some lane)
    (event : ℕ × LaneEvent) :
    ((pool.onLane settings key event).getD pool).pool.get? key =
        some ((lane.step settings event).getD lane) ∧
      ∀ key', key' ≠ key → ((pool.onLane settings key event).getD pool).pool.get? key' =
        pool.pool.get? key' := by
  rw [onLane, hget, Option.bind_some]
  cases lane.step settings event with
  | none => exact ⟨hget, fun _ _ => rfl⟩
  | some lane' =>
    exact ⟨OrderedMap.get?_set_self .., fun _ hne => OrderedMap.get?_set_of_ne _ _ hne⟩

/-- A turn of a sweep changes its own entry alone. -/
theorem get?_sweepOne (settings : ConnectionSettings) (now : ℕ)
    (hget : pool.pool.get? key = some lane) (hconn : lane.conn.isSome = true) (index : ℕ) :
    (pool.sweepOne settings now ((key, lane), index)).pool.get? key =
        some (swept settings pool.retained now ((key, lane), index)) ∧
      ∀ key' lane', key' ≠ key → pool.pool.get? key' = some lane' →
        (pool.sweepOne settings now ((key, lane), index)).pool.get? key' = some lane' := by
  rw [sweepOne, swept]
  dsimp only
  cases verdict settings pool.retained now (key, lane) index with
  | none => exact ⟨hget, fun _ _ _ hother => hother⟩
  | some event =>
    obtain ⟨hself, hothers⟩ := get?_onLaneD settings hget (now, event)
    rw [Option.bind_some]
    cases event with
    | keepalive =>
      have hconn' : ((lane.step settings (now, .keepalive)).getD lane).conn.isSome = true := by
        rw [Lane.step]
        split_ifs
        · exact hconn
        · exact hconn
      refine ⟨get?_request hself hconn' hself, fun key' lane' hne hother => ?_⟩
      exact get?_request hself hconn' ((hothers key' hne).trans hother)
    | _ => exact ⟨hself, fun key' _ hne hother => (hothers key' hne).trans hother⟩

@[simp] theorem retained_onLaneD (event : ℕ × LaneEvent) :
    ((pool.onLane settings key event).getD pool).retained = pool.retained := by
  cases hstep : pool.onLane settings key event with
  | none => rfl
  | some pool' =>
    obtain ⟨_, _, -, -, rfl⟩ := onLane_eq_some_iff.mp hstep
    rfl

@[simp] theorem retained_entry : (pool.entry key now).retained = pool.retained := by
  rw [entry]
  split_ifs <;> rfl

@[simp] theorem retained_laneEntry (address : String) (lane : KpsLane) :
    (pool.laneEntry settings address lane now).1.retained = pool.retained := by
  cases lane with
  | primary => exact retained_entry
  | claims =>
    rw [laneEntry]
    split_ifs <;> simp [connect]

@[simp] theorem retained_request (address : String) (lane : KpsLane) (isEncoded : Bool) :
    (pool.request settings address lane isEncoded now).retained = pool.retained := by
  rw [request]
  split_ifs <;> simp [connect]

@[simp] theorem retained_sweepOne (entry : (PoolKey × Lane) × ℕ) :
    (pool.sweepOne settings now entry).retained = pool.retained := by
  rw [sweepOne]
  split
  · rw [retained_request, retained_onLaneD]
  · exact retained_onLaneD _
  · rfl

/-- A sweep leaves what is retained. -/
theorem retained_sweep (laneOf : KpsLane) :
    (pool.sweep settings laneOf now).retained = pool.retained := by
  rw [sweep]
  generalize (pool.ranked laneOf).zipIdx = entries
  induction entries generalizing pool with
  | nil => rfl
  | cons entry entries ih => rw [List.foldl_cons, ih, retained_sweepOne]

/-- Each entry that a sweep goes through is swept once, and no other one changes. -/
theorem get?_foldl_sweepOne {entries : List ((PoolKey × Lane) × ℕ)}
    (hnodup : (entries.map fun entry => entry.1.1).Nodup)
    (hget : ∀ entry ∈ entries, pool.pool.get? entry.1.1 = some entry.1.2 ∧
      entry.1.2.conn.isSome = true) :
    (∀ entry ∈ entries, (entries.foldl (sweepOne settings now) pool).pool.get? entry.1.1 =
        some (swept settings pool.retained now entry)) ∧
      ∀ key lane, key ∉ entries.map (fun entry => entry.1.1) → pool.pool.get? key = some lane →
        (entries.foldl (sweepOne settings now) pool).pool.get? key = some lane := by
  induction entries generalizing pool with
  | nil => exact ⟨by rintro _ ⟨⟩, fun _ _ _ hother => hother⟩
  | cons first entries ih =>
    obtain ⟨hfirst, hconn⟩ := hget first (List.mem_cons_self ..)
    obtain ⟨hself, hothers⟩ :=
      get?_sweepOne settings now hfirst hconn first.2
    rw [List.map_cons, List.nodup_cons] at hnodup
    have hget' : ∀ entry ∈ entries, (pool.sweepOne settings now first).pool.get? entry.1.1 =
        some entry.1.2 ∧ entry.1.2.conn.isSome = true := by
      intro entry hentry
      obtain ⟨hbefore, hconn'⟩ := hget entry (List.mem_cons_of_mem _ hentry)
      refine ⟨hothers _ _ (fun heq => hnodup.1 ?_) hbefore, hconn'⟩
      exact heq ▸ List.mem_map_of_mem hentry
    obtain ⟨hswept, hkept⟩ := ih hnodup.2 hget'
    refine ⟨fun entry hentry => ?_, fun key lane hnot hother => ?_⟩
    · rcases List.mem_cons.mp hentry with rfl | hentry
      · exact hkept _ _ hnodup.1 hself
      · rw [List.foldl_cons, hswept entry hentry, retained_sweepOne]
    · rw [List.map_cons, List.mem_cons, not_or] at hnot
      exact hkept key lane hnot.2 (hothers key lane hnot.1 hother)

/-- The idle entries of a lane are connected, with no exchange and no waiter. -/
theorem mem_idle {laneOf : KpsLane} : (key, lane) ∈ pool.idle laneOf ↔
    pool.pool.get? key = some lane ∧ key.lane = laneOf ∧ lane.conn.isSome = true ∧
      lane.active = 0 ∧ lane.waiters = 0 := by
  rw [idle, List.mem_filter, ← OrderedMap.get?_eq_some_iff]
  simp only [Bool.and_eq_true, decide_eq_true_eq, and_assoc]

/-- The ranking has the idle entries. -/
theorem ranked_perm (laneOf : KpsLane) : (pool.ranked laneOf).Perm (pool.idle laneOf) :=
  List.mergeSort_perm _ _

/-- No entry is ranked twice. -/
theorem nodup_keys_ranked (laneOf : KpsLane) : ((pool.ranked laneOf).map Prod.fst).Nodup := by
  refine ((ranked_perm laneOf).map Prod.fst).nodup_iff.mpr ?_
  exact pool.pool.nodup_keys.sublist (List.filter_sublist.map Prod.fst)

/-- No entry is ranked twice, with its place. -/
theorem nodup_ranked (laneOf : KpsLane) :
    ((pool.ranked laneOf).zipIdx.map fun entry => entry.1.1).Nodup := by
  have hmap : ((pool.ranked laneOf).zipIdx.map fun entry => entry.1.1) =
      (pool.ranked laneOf).map Prod.fst := by
    have hfst := congrArg (List.map Prod.fst) (List.zipIdx_map_fst 0 (pool.ranked laneOf))
    rw [List.map_map] at hfst
    exact hfst
  rw [hmap]
  exact nodup_keys_ranked laneOf

/-- The ranking is sorted: retained ones first, then by their last use. -/
theorem pairwise_ranked (pool : ConnectionPool) (laneOf : KpsLane) :
    (pool.ranked laneOf).Pairwise fun left right =>
      ranksBefore pool.retained left right = true := by
  refine List.pairwise_mergeSort (fun a b c => ?_) (fun a b => ?_) _
  · simp only [ranksBefore]
    cases pool.retained.contains a.1.address <;> cases pool.retained.contains b.1.address <;>
      cases pool.retained.contains c.1.address <;> simp <;> omega
  · simp only [ranksBefore]
    cases pool.retained.contains a.1.address <;> cases pool.retained.contains b.1.address <;>
      simp <;> omega

/-- The sweep of an entry at its rank. -/
theorem get?_sweep (settings : ConnectionSettings) (now : ℕ) {laneOf : KpsLane} {index : ℕ}
    (hrank : (pool.ranked laneOf)[index]? = some (key, lane)) :
    (pool.sweep settings laneOf now).pool.get? key =
      some (swept settings pool.retained now ((key, lane), index)) := by
  have hmem : ((key, lane), index) ∈ (pool.ranked laneOf).zipIdx :=
    List.mem_zipIdx_iff_getElem?.mpr hrank
  refine (get?_foldl_sweepOne (nodup_ranked laneOf) fun entry hentry => ?_).1 _ hmem
  have hidle := (ranked_perm laneOf).mem_iff.mp (List.fst_mem_of_mem_zipIdx hentry)
  obtain ⟨hget, -, hconn, -⟩ := mem_idle.mp hidle
  exact ⟨hget, hconn⟩

/-- What a sweep does not go through stays. -/
theorem get?_sweep_of_not_mem (settings : ConnectionSettings) (now : ℕ) {laneOf : KpsLane}
    (hget : pool.pool.get? key = some lane) (hmem : (key, lane) ∉ pool.ranked laneOf) :
    (pool.sweep settings laneOf now).pool.get? key = some lane := by
  refine (get?_foldl_sweepOne (nodup_ranked laneOf) fun entry hentry => ?_).2 key lane ?_ hget
  · have hidle := (ranked_perm laneOf).mem_iff.mp (List.fst_mem_of_mem_zipIdx hentry)
    obtain ⟨hfound, -, hconn, -⟩ := mem_idle.mp hidle
    exact ⟨hfound, hconn⟩
  · rintro hkey
    obtain ⟨⟨⟨key', lane'⟩, index⟩, hentry, rfl⟩ := List.mem_map.mp hkey
    have hranked := List.fst_mem_of_mem_zipIdx hentry
    obtain ⟨hfound, -⟩ := mem_idle.mp ((ranked_perm laneOf).mem_iff.mp hranked)
    obtain rfl := Option.some.inj (hget.symm.trans hfound)
    exact hmem hranked

/-- A sweep leaves the connection of an entry that it keeps. -/
theorem conn_swept_of_keeps {retained : List String} {index : ℕ}
    (hkeeps : keeps settings retained (key, lane) index = true) :
    (swept settings retained now ((key, lane), index)).conn = lane.conn := by
  rw [swept, verdict, if_pos hkeeps]
  split_ifs
  · rw [Option.bind_some, Lane.step]
    split_ifs <;> rfl
  · rfl

/-- What a sweep gives up was idle for long, and is neither retained nor of a low rank. -/
theorem conn_swept (settings : ConnectionSettings) (retained : List String) (now : ℕ)
    (key : PoolKey) (lane : Lane) (index : ℕ) :
    (swept settings retained now ((key, lane), index)).conn = lane.conn ∨
      ((swept settings retained now ((key, lane), index)).conn = none ∧
        lane.lastActivity + settings.idleCloseMs ≤ now ∧
        keeps settings retained (key, lane) index = false) := by
  by_cases hkeeps : keeps settings retained (key, lane) index = true
  · exact .inl (conn_swept_of_keeps hkeeps)
  · rw [swept, verdict, if_neg hkeeps]
    split_ifs with hidle
    · rw [Option.bind_some, Lane.step]
      cases hconn : lane.conn with
      | none => exact .inl hconn
      | some n =>
        rw [Option.bind_some]
        cases lane.dials[n]? with
        | none => exact .inl hconn
        | some dial => exact .inr ⟨rfl, hidle, by simpa using hkeeps⟩
    · exact .inl rfl

/-- An entry is connected exactly when its lane has a connection. -/
theorem hasConn_iff : pool.hasConn key = true ↔
    ∃ lane, pool.pool.get? key = some lane ∧ lane.conn.isSome = true := by
  rw [hasConn]
  cases pool.pool.get? key with
  | none => simp
  | some lane => simp

/-- A sweep keeps the retained primary connections. -/
theorem hasConn_sweep_of_retained (settings : ConnectionSettings) (now : ℕ) (laneOf : KpsLane)
    {address : String} (hretained : address ∈ pool.retained)
    (hconn : pool.hasConn ⟨address, .primary⟩ = true) :
    (pool.sweep settings laneOf now).hasConn ⟨address, .primary⟩ = true := by
  obtain ⟨lane, hget, hsome⟩ := hasConn_iff.mp hconn
  by_cases hmem : ((⟨address, .primary⟩ : PoolKey), lane) ∈ pool.ranked laneOf
  · obtain ⟨index, hlt, hrank⟩ := List.getElem_of_mem hmem
    refine hasConn_iff.mpr
      ⟨_, get?_sweep settings now (List.getElem?_eq_some_iff.mpr ⟨hlt, hrank⟩), ?_⟩
    rw [conn_swept_of_keeps]
    · exact hsome
    · simp [keeps, hretained]
  · exact hasConn_iff.mpr ⟨lane, get?_sweep_of_not_mem settings now hget hmem, hsome⟩

/-- A retained primary connection stays through the sweeps. -/
theorem hasConn_maintain_of_retained (settings : ConnectionSettings) (now : ℕ) {address : String}
    (hretained : address ∈ pool.retained) (hconn : pool.hasConn ⟨address, .primary⟩ = true) :
    (pool.maintain settings now).hasConn ⟨address, .primary⟩ = true :=
  hasConn_sweep_of_retained settings now .claims ((retained_sweep .primary).symm ▸ hretained)
    (hasConn_sweep_of_retained settings now .primary hretained hconn)

/-- **A sweep gives up what was used least.** Whatever state the pool is in, an entry loses its
connection to a sweep of its lane only when no exchange is on it or waits for it, when it was idle
for `idleCloseMs`, and when it is not a retained primary one. As many connections of the lane as
are to be kept rank before it, and they stay.

The sweep treats each entry by its place in the ranking and by nothing else (`get?_sweep`), so what
it makes of an entry is read off its verdict. Retained entries rank before the others. -/
theorem sweep_keeps (settings : ConnectionSettings) (pool : ConnectionPool) (laneOf : KpsLane)
    (now : ℕ) (key : PoolKey) (lane : Lane) (hget : pool.pool.get? key = some lane) :
    ∃ lane', (pool.sweep settings laneOf now).pool.get? key = some lane' ∧
      (lane'.conn = lane.conn ∨
        (lane'.conn = none ∧ key.lane = laneOf ∧ lane.active = 0 ∧ lane.waiters = 0 ∧
          lane.lastActivity + settings.idleCloseMs ≤ now ∧
          ¬(laneOf = .primary ∧ key.address ∈ pool.retained) ∧
          ∃ kept : List (PoolKey × Lane), (kept.map Prod.fst).Nodup ∧
            kept.length = keptOn settings laneOf ∧ ∀ entry ∈ kept,
              pool.pool.get? entry.1 = some entry.2 ∧ entry.1.lane = laneOf ∧ entry.2.conn.isSome ∧
              ranksBefore pool.retained entry (key, lane) = true ∧
              ∃ entry', (pool.sweep settings laneOf now).pool.get? entry.1 = some entry' ∧
                entry'.conn = entry.2.conn)) := by
  by_cases hmem : (key, lane) ∈ pool.ranked laneOf
  · obtain ⟨index, hlt, hrank⟩ := List.getElem_of_mem hmem
    refine ⟨_, get?_sweep settings now (List.getElem?_eq_some_iff.mpr ⟨hlt, hrank⟩), ?_⟩
    rcases conn_swept settings pool.retained now key lane index with
      hsame | ⟨hnone, hlong, hkeeps⟩
    · exact .inl hsame
    obtain ⟨-, hlane, -, hactive, hwaiters⟩ := mem_idle.mp ((ranked_perm laneOf).mem_iff.mp hmem)
    simp only [keeps, Bool.or_eq_false_iff, Bool.and_eq_false_iff, decide_eq_false_iff_not,
      hlane] at hkeeps
    refine .inr ⟨hnone, hlane, hactive, hwaiters, hlong, ?_, ?_⟩
    · rintro ⟨hprimary, hretained⟩
      rcases hkeeps.1 with hnot | hnot
      · exact hnot hprimary
      · cases hnot.symm.trans (List.contains_iff_mem.mpr hretained)
    · have hle : keptOn settings laneOf ≤ index := not_lt.mp hkeeps.2
      refine ⟨(pool.ranked laneOf).take (keptOn settings laneOf), ?_, ?_, fun entry hentry => ?_⟩
      · exact (nodup_keys_ranked laneOf).sublist ((List.take_sublist _ _).map Prod.fst)
      · rw [List.length_take, min_eq_left (hle.trans hlt.le)]
      · obtain ⟨rank, hrank', rfl⟩ := List.mem_take_iff_getElem.mp hentry
        have hbefore : rank < keptOn settings laneOf ∧ rank < (pool.ranked laneOf).length :=
          lt_min_iff.mp hrank'
        obtain ⟨hfound, hsame, hconn, -⟩ :=
          mem_idle.mp ((ranked_perm laneOf).mem_iff.mp (List.getElem_mem hbefore.2))
        refine ⟨hfound, hsame, hconn, ?_, _,
          get?_sweep settings now (List.getElem?_eq_getElem hbefore.2), ?_⟩
        · have hpairwise := List.pairwise_iff_getElem.mp (pairwise_ranked pool laneOf)
          rw [← hrank]
          exact hpairwise rank index hbefore.2 hlt (hbefore.1.trans_le hle)
        · refine conn_swept_of_keeps (Bool.or_eq_true_iff.mpr (.inr (decide_eq_true ?_)))
          change rank < keptOn settings ((pool.ranked laneOf).get ⟨rank, hbefore.2⟩).1.lane
          rw [hsame]
          exact hbefore.1
  · exact ⟨lane, get?_sweep_of_not_mem settings now hget hmem, .inl rfl⟩

/-- The retained entries are those of the first ranks. -/
theorem rank_lt_of_retained {laneOf : KpsLane} {index : ℕ} {entry : PoolKey × Lane}
    (hrank : (pool.ranked laneOf)[index]? = some entry)
    (hretained : entry.1.address ∈ pool.retained) :
    index < (pool.idle laneOf).countP fun entry => pool.retained.contains entry.1.address := by
  obtain ⟨hlt, rfl⟩ := List.getElem?_eq_some_iff.mp hrank
  have hfirst : ∀ other ∈ (pool.ranked laneOf).take (index + 1),
      pool.retained.contains other.1.address = true := by
    intro other hother
    obtain ⟨rank, hrank', rfl⟩ := List.mem_take_iff_getElem.mp hother
    rcases Nat.lt_succ_iff_lt_or_eq.mp (lt_min_iff.mp hrank').1 with hbefore | rfl
    · have hpairwise := List.pairwise_iff_getElem.mp (pairwise_ranked pool laneOf)
      have hranks := hpairwise rank index (hbefore.trans hlt) hlt hbefore
      rw [ranksBefore, List.contains_iff_mem.mpr hretained] at hranks
      split_ifs at hranks with heq
      · exact heq
      · exact hranks
    · exact List.contains_iff_mem.mpr hretained
  rw [← (ranked_perm laneOf).countP_eq]
  calc index < ((pool.ranked laneOf).take (index + 1)).length := by
        rw [List.length_take]
        omega
    _ = ((pool.ranked laneOf).take (index + 1)).countP fun entry =>
          pool.retained.contains entry.1.address := (List.countP_eq_length.mpr hfirst).symm
    _ ≤ _ := (List.take_sublist _ _).countP_le

/-- An entry that is idle for long and not kept loses its connection. -/
theorem conn_swept_eq_none {index : ℕ} (hreach : lane.Reachable settings)
    (hlong : lane.lastActivity + settings.idleCloseMs ≤ now)
    (hkeeps : keeps settings pool.retained (key, lane) index = false) :
    (swept settings pool.retained now ((key, lane), index)).conn = none := by
  rw [swept, verdict, if_neg (by simp [hkeeps]), if_pos hlong, Option.bind_some, Lane.step]
  cases hconn : lane.conn with
  | none => exact hconn
  | some n =>
    obtain ⟨-, dial, hget, -⟩ := hreach.tracked.conn hconn
    rw [Option.bind_some, hget]
    rfl

/-- The connections of a lane that nobody uses, that were idle for `idleCloseMs` and that a sweep
of the lane leaves open. -/
def leftOpen (settings : ConnectionSettings) (pool : ConnectionPool) (laneOf : KpsLane) (now : ℕ) :
    List (PoolKey × Lane) :=
  (pool.idle laneOf).filter fun entry =>
    decide (entry.2.lastActivity + settings.idleCloseMs ≤ now) &&
      (pool.sweep settings laneOf now).hasConn entry.1

/-- What a sweep leaves open is within the number that is kept, or retained. -/
theorem length_leftOpen_le (h : Coherent settings pool) (laneOf : KpsLane) (now : ℕ) :
    (pool.leftOpen settings laneOf now).length ≤ max (keptOn settings laneOf)
      ((pool.idle laneOf).countP fun entry => pool.retained.contains entry.1.address) := by
  rw [leftOpen]
  set bound := max (keptOn settings laneOf)
    ((pool.idle laneOf).countP fun entry => pool.retained.contains entry.1.address) with hbound
  have hrest : ((pool.ranked laneOf).drop bound).filter (fun entry =>
      decide (entry.2.lastActivity + settings.idleCloseMs ≤ now) &&
        (pool.sweep settings laneOf now).hasConn entry.1) = [] := by
    refine List.filter_eq_nil_iff.mpr fun entry hentry => ?_
    obtain ⟨rank, hlt, rfl⟩ := List.getElem_of_mem hentry
    rw [List.length_drop] at hlt
    obtain ⟨⟨key, lane⟩, hrank⟩ : ∃ entry, (pool.ranked laneOf)[bound + rank]? = some entry :=
      ⟨_, List.getElem?_eq_getElem (by omega)⟩
    rw [List.getElem_drop, (List.getElem?_eq_some_iff.mp hrank).2, Bool.and_eq_true,
      decide_eq_true_eq]
    rintro ⟨hlong, hconn⟩
    obtain ⟨hget, hlane, -⟩ := mem_idle.mp
      ((ranked_perm laneOf).mem_iff.mp (List.mem_of_getElem? hrank))
    have hkeeps : keeps settings pool.retained (key, lane) (bound + rank) = false := by
      rw [keeps, Bool.or_eq_false_iff, Bool.and_eq_false_iff]
      refine ⟨.inr (Bool.eq_false_iff.mpr fun hretained => ?_), decide_eq_false ?_⟩
      · have hbefore := rank_lt_of_retained hrank (List.contains_iff_mem.mp hretained)
        omega
      · rw [hlane]
        omega
    rw [hasConn, get?_sweep settings now hrank, Option.any_some,
      conn_swept_eq_none (h.reachable hget) hlong hkeeps] at hconn
    cases hconn
  rw [← ((ranked_perm laneOf).filter _).length_eq, ← List.take_append_drop bound
    (pool.ranked laneOf), List.filter_append, hrest, List.append_nil]
  calc _ ≤ ((pool.ranked laneOf).take bound).length := List.length_filter_le _ _
    _ ≤ bound := by
      rw [List.length_take]
      exact min_le_left _ _

/-- **Few connections stay idle.** In every run of the transport, the timer of `maintain` is set
while some entry has a connection. Each sweep of a lane leaves no more connections open that nobody
uses and that were idle for `idleCloseMs` than are to be kept or are retained.

The timer is an invariant (`Timed`): whatever gives an entry a connection also sets it. An entry
that stays open behind the limit is retained (`length_leftOpen_le`), and a sweep of one lane leaves
the other alone. -/
theorem idle_bounded (hrun : Run (step settings) {} pool) :
    (pool.closed = false → ∀ key, pool.hasConn key = true → pool.maintenance = true) ∧
    ∀ now, (pool.leftOpen settings .primary now).length ≤ max settings.idleConnectionsKept
        ((pool.idle .primary).countP fun entry => pool.retained.contains entry.1.address) ∧
      ((pool.sweep settings .primary now).leftOpen settings .claims now).length ≤
        max settings.claimLaneConnectionsKept (((pool.sweep settings .primary now).idle
          .claims).countP fun entry => pool.retained.contains entry.1.address) := by
  have htimed : pool.Timed := by
    have hempty : Timed {} := by rintro - key ⟨⟩
    exact hrun.invariant hempty fun _ _ _ hbefore hstep => hbefore.step hstep
  have hcoherent := reachable_lanes hrun
  refine ⟨htimed, fun now => ⟨length_leftOpen_le hcoherent .primary now, ?_⟩⟩
  have hclaims := length_leftOpen_le (hcoherent.sweep .primary now) .claims now
  rwa [retained_sweep] at hclaims

end Sweeps

/-! ### Two connections and a sweep -/

private def poolLane (at' : ℕ) : Lane where
  dials := [⟨0, .pooled, true, 0, false, none⟩]
  conn := some 0
  lastActivity := at'

private def connectedPool : ConnectionPool where
  pool := ⟨[(firstKey, poolLane 100), (secondKey, poolLane 200)], by decide +kernel⟩
  maintenance := true

/-- The pool of the sample is reached, with two connections. -/
private theorem exists_connectedPool : ∃ pool,
    runEvents (step sampleSettings) {} sampleEvents = some pool ∧
      pool.pool = connectedPool.pool ∧ pool.closed = false ∧ pool.retained = [] := by
  have hrun : (runEvents (step sampleSettings) {} sampleEvents).map
      (fun pool => (pool.pool.entries, pool.closed, pool.retained)) =
        some (connectedPool.pool.entries, false, []) := by decide +kernel
  obtain ⟨pool, hpool, heq⟩ := Option.map_eq_some_iff.mp hrun
  obtain ⟨hentries, hrest⟩ := Prod.mk.inj heq
  obtain ⟨hopen, hretained⟩ := Prod.mk.inj hrest
  exact ⟨pool, hpool, OrderedMap.ext hentries, hopen, hretained⟩

/-- Two connections are idle for long enough, and the sweep leaves one of them. -/
theorem idle_bounded_sample : ∃ pool,
    runEvents (step sampleSettings) {} sampleEvents = some pool ∧ pool.maintenance = true ∧
      ((pool.idle .primary).map fun entry => entry.2.lastActivity) = [100, 200] ∧
      (pool.leftOpen sampleSettings .primary 40000).length ≤ 1 := by
  obtain ⟨pool, hrun, hentries, hopen, hretained⟩ := exists_connectedPool
  obtain ⟨htimer, hsweeps⟩ := idle_bounded (run_of_runEvents hrun)
  have hconnected : pool.hasConn firstKey = true := by
    rw [hasConn, hentries]
    decide +kernel
  have hidle : ((pool.idle .primary).map fun entry => entry.2.lastActivity) = [100, 200] := by
    rw [idle, hentries]
    decide +kernel
  refine ⟨pool, hrun, htimer hopen firstKey hconnected, hidle, (hsweeps 40000).1.trans ?_⟩
  simp [hretained, sampleSettings]

/-- The later use comes first. -/
private theorem ranked_connectedPool : connectedPool.ranked .primary =
    [(secondKey, poolLane 200), (firstKey, poolLane 100)] := by
  have hidle : connectedPool.idle .primary =
      [(firstKey, poolLane 100), (secondKey, poolLane 200)] := by decide +kernel
  rw [ranked, hidle]
  simp [List.mergeSort, List.MergeSort.Internal.splitInTwo, ranksBefore, connectedPool,
    poolLane]

/-- The first connection, which was used less, is given up, and the second one stays. -/
theorem sweep_keeps_sample : ∃ lane',
    (connectedPool.sweep sampleSettings .primary 40000).pool.get? firstKey = some lane' ∧
      lane'.conn = none ∧ ¬(KpsLane.primary = .primary ∧ "first" ∈ ([] : List String)) := by
  obtain ⟨lane', hget, hconn⟩ := sweep_keeps sampleSettings connectedPool .primary 40000 firstKey
    (poolLane 100) (by decide +kernel)
  have hrank : (connectedPool.ranked .primary)[1]? = some (firstKey, poolLane 100) := by
    rw [ranked_connectedPool]
    rfl
  have hswept := get?_sweep sampleSettings 40000 hrank
  obtain rfl := Option.some.inj (hget.symm.trans hswept)
  have hgone : (swept sampleSettings connectedPool.retained 40000
      ((firstKey, poolLane 100), 1)).conn = none := by decide +kernel
  rcases hconn with hsame | ⟨hnone, -, -, -, -, hretained, -⟩
  · cases hgone.symm.trans hsame
  · exact ⟨_, hget, hnone, hretained⟩

end ConnectionPool

end NoxSdk.Kps
