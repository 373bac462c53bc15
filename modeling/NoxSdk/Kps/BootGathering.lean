import Mathlib.Data.List.Nodup
import Mathlib.Data.List.Perm.Basic
import NoxSdk.Lib.OrderedMap
import NoxSdk.Lib.Runs

/-!
# Gathering the first topologies

At boot `gatherServedTopologies` goes through the candidate anchors: a ramp of timers and the end of
every attempt launch the next one, at most `anchorParallelism` at a time, until there are enough
documents, the wait for a second one is over, or every candidate has been tried. Attempts end in any
order, with whatever the anchor answered; the handler of an attempt and its `finally` are two
events.

The invariant (`Gathering`) says that something is in progress until it is done. Each candidate is
tried once, so each anchor is, when the candidates have different addresses. With discovery they
have (`nodup_bootAnchors`); the pinned members alone may share an address.
-/

namespace NoxSdk.Kps.Boot

open NoxSdk.Lib

/-- `BootAnchor`. -/
structure BootAnchor where
  address : String
  member : Option String
  hint : Option String
  deriving DecidableEq

/-- What boot reads of the discovery options. -/
structure BootDiscovery where
  anchorClasses : List (List String)
  exclusive : Bool
  learned : List (String × String)

/-- What boot reads of `ResolvedKpsOptions`; the eligible pinned members are in pinned order, each
with the KPS address it publishes. -/
structure BootOptions where
  eligible : List (String × Option String)
  entries : Option (List String)
  deprioritize : List String
  discovery : Option BootDiscovery
  anchorParallelism : ℕ
  topologySources : ℕ
  parallelism_pos : 0 < anchorParallelism

/-- `pinnedAnchors`: members with their addresses. -/
def pinnedAnchors (options : BootOptions) : List (String × String) :=
  options.eligible.filterMap fun entry =>
    entry.2.bind fun address =>
      if options.entries.all (address ∈ ·) then some (entry.1, address) else none

section BootAnchors

variable (options : BootOptions) (shuffle : ℕ → List BootAnchor → List BootAnchor)

/-- The member is one of the deprioritised. -/
def isLast (entry : BootAnchor) : Bool := entry.member.any (· ∈ options.deprioritize)

/-- `order`; the class says which shuffle it is. -/
def order (cls : ℕ) (list : List BootAnchor) : List BootAnchor :=
  (shuffle cls list).filter (fun entry => !isLast options entry) ++
    (shuffle cls list).filter (isLast options)

/-- `describe`: a later pinned member of an address takes the place of an earlier one. -/
def describe (learned : List (String × String)) (address : String) : BootAnchor :=
  match (pinnedAnchors options).reverse.find? (fun entry => entry.2 == address) with
  | some entry => ⟨address, some entry.1, none⟩
  | none => ⟨address, none, learned.lookup address⟩

/-- The pinned anchors as candidates. -/
def pinnedCandidates : List BootAnchor :=
  (pinnedAnchors options).map fun entry => ⟨entry.2, some entry.1, none⟩

/-- The candidates without those of an address that came before. -/
def distinctAddresses (seen : List String) : List BootAnchor → List BootAnchor
  | [] => []
  | entry :: rest =>
    if entry.address ∈ seen then distinctAddresses seen rest
    else entry :: distinctAddresses (entry.address :: seen) rest

/-- `bootAnchors`. -/
def bootAnchors : List BootAnchor :=
  match options.discovery with
  | none => order options shuffle 0 (pinnedCandidates options)
  | some discovery =>
    let classes := (discovery.anchorClasses.map fun list =>
        list.map (describe options discovery.learned)) ++
      if discovery.exclusive then [] else [pinnedCandidates options]
    distinctAddresses [] (classes.mapIdx (order options shuffle)).flatten

end BootAnchors

theorem nodup_distinctAddresses (seen : List String) (list : List BootAnchor) :
    ((distinctAddresses seen list).map BootAnchor.address).Nodup ∧
      ∀ address ∈ (distinctAddresses seen list).map BootAnchor.address, address ∉ seen := by
  induction list generalizing seen with
  | nil => exact ⟨List.nodup_nil, fun address h => absurd h List.not_mem_nil⟩
  | cons entry rest ih =>
    rw [distinctAddresses]
    split_ifs with hseen
    · exact ih seen
    · obtain ⟨hnodup, hnew⟩ := ih (entry.address :: seen)
      refine ⟨List.nodup_cons.mpr ⟨fun h => hnew _ h List.mem_cons_self, hnodup⟩, ?_⟩
      rintro address (_ | ⟨_, h⟩)
      · exact hseen
      · exact fun hmem => hnew address h (List.mem_cons_of_mem _ hmem)

/-- With discovery the candidates have different addresses, and without it when the pinned anchors
have. -/
theorem nodup_bootAnchors {options : BootOptions}
    {shuffle : ℕ → List BootAnchor → List BootAnchor}
    (hshuffle : ∀ cls list, (shuffle cls list).Perm list)
    (h : options.discovery = none → ((pinnedAnchors options).map Prod.snd).Nodup) :
    ((bootAnchors options shuffle).map BootAnchor.address).Nodup := by
  rw [bootAnchors]
  cases hdiscovery : options.discovery with
  | some discovery => exact (nodup_distinctAddresses _ _).1
  | none =>
    have hperm : (order options shuffle 0 (pinnedCandidates options)).Perm
        (pinnedCandidates options) := by
      rw [order]
      refine (List.perm_append_comm.trans ?_).trans (hshuffle 0 _)
      exact List.filter_append_perm _ _
    refine (hperm.map BootAnchor.address).nodup_iff.mpr ?_
    rw [pinnedCandidates, List.map_map]
    exact h hdiscovery

/-! ### The gathering -/

/-- A served document, with the attempt that brought it. -/
structure ServedTopology (Snapshot : Type) where
  attempt : ℕ
  anchor : String
  snapshot : Snapshot

/-- The state of `gatherServedTopologies`. -/
structure Gather (Snapshot : Type) where
  next : ℕ
  /-- The attempts that have not ended. -/
  inProgress : List ℕ
  /-- The attempts that have ended, before their `finally`. -/
  ending : List ℕ
  sources : List (ServedTopology Snapshot)
  failures : List (String × String)
  anchorMembers : OrderedMap String String
  ramp : List ℕ
  waiting : Bool
  /-- `KPS_SECOND_SOURCE_WAIT_MS` has passed since the first document. -/
  waited : Bool
  done : Bool
  /-- How often the promise was resolved. -/
  settled : ℕ

variable {Snapshot : Type}

/-- `finish`. -/
def finish (s : Gather Snapshot) : Gather Snapshot :=
  if s.done then s
  else { s with done := true, ramp := [], waiting := false, settled := s.settled + 1 }

section Machine

variable (options : BootOptions) (candidates : List BootAnchor)

/-- `launch`; `running` is the number of attempts before their `finally`. -/
def launch (s : Gather Snapshot) : Gather Snapshot :=
  if s.done ∨ options.anchorParallelism ≤ s.inProgress.length + s.ending.length then s
  else if candidates.length ≤ s.next then
    if s.inProgress.length + s.ending.length = 0 then finish s else s
  else { s with next := s.next + 1, inProgress := s.next :: s.inProgress }

/-- The first launch, and the ramp of timers. -/
def startGathering : Gather Snapshot :=
  { launch options candidates ⟨0, [], [], [], [], .empty, [], false, false, false, 0⟩ with
    ramp := List.range' 1 (min options.anchorParallelism candidates.length - 1) }

/-- `resolveMember`, when `/metadata.json` was answered with a node or an error code. -/
def resolveMember (candidate : BootAnchor) (metadata : Except String String) :
    Except String String :=
  match candidate.member with
  | some member => .ok member
  | none => do
    let node ← metadata
    if candidate.hint.any (· ≠ node) then .error "TOPOLOGY_VERIFICATION_FAILED"
    else if node ∉ options.eligible.map Prod.fst then .error "TOPOLOGY_VERIFICATION_FAILED"
    else .ok node

/-- The handlers of an attempt that ended. -/
def attemptEnded (s : Gather Snapshot) (attempt : ℕ) (candidate : BootAnchor)
    (outcome : Except String (String × Snapshot)) : Gather Snapshot :=
  let s := { s with inProgress := s.inProgress.erase attempt, ending := attempt :: s.ending }
  if s.done then s
  else match outcome with
  | .ok (member, snapshot) =>
    let s := { s with
      anchorMembers := s.anchorMembers.set candidate.address member
      sources := s.sources ++ [⟨attempt, candidate.address, snapshot⟩] }
    if options.topologySources ≤ s.sources.length then finish s
    else if s.sources.length = 1 then { s with waiting := true }
    else s
  | .error code => { s with failures := s.failures ++ [(candidate.address, code)] }

/-- What happens: a timer of the ramp or of the wait expires, an attempt ends, or its `finally`
runs. -/
inductive GatherEvent (Snapshot : Type)
  | ramp (timer : ℕ)
  | secondSourceWait
  | ended (attempt : ℕ) (metadata : Except String String) (topology : Except String Snapshot)
  | left (attempt : ℕ)

/-- One event. -/
def gatherStep (s : Gather Snapshot) : GatherEvent Snapshot → Option (Gather Snapshot)
  | .ramp timer =>
    if timer ∈ s.ramp then
      some (launch options candidates { s with ramp := s.ramp.erase timer })
    else none
  | .secondSourceWait =>
    if s.waiting then some (finish { s with waiting := false, waited := true }) else none
  | .ended attempt metadata topology =>
    match candidates[attempt]? with
    | none => none
    | some candidate =>
      if attempt ∈ s.inProgress then
        some (attemptEnded options s attempt candidate do
          let member ← resolveMember options candidate metadata
          return (member, ← topology))
      else none
  | .left attempt =>
    if attempt ∈ s.ending then
      some (launch options candidates { s with ending := s.ending.erase attempt })
    else none

/-- What is kept by every event, but for what is in progress. -/
structure Kept (s : Gather Snapshot) : Prop where
  bound : s.next ≤ candidates.length
  fits : s.inProgress.length + s.ending.length ≤ options.anchorParallelism
  before : ∀ attempt ∈ s.inProgress, attempt < s.next
  distinct : (s.sources.map ServedTopology.attempt ++ s.inProgress).Nodup
  served : ∀ source ∈ s.sources, source.attempt < s.next ∧
    candidates[source.attempt]?.map BootAnchor.address = some source.anchor
  once : s.settled = if s.done then 1 else 0
  first : s.waiting = true ∨ s.waited = true → s.sources ≠ []
  enough : s.done = true → options.topologySources ≤ s.sources.length ∨
    (s.next = candidates.length ∧ s.inProgress.length + s.ending.length = 0) ∨ s.waited = true

/-- Something is in progress until it is done. -/
structure Gathering (s : Gather Snapshot) : Prop extends Kept options candidates s where
  busy : s.done = false → 0 < s.inProgress.length + s.ending.length

/-- The ends of attempts that are still to come, at most. -/
def work (s : Gather Snapshot) : ℕ :=
  2 * (candidates.length - s.next) + 2 * s.inProgress.length + s.ending.length

/-- The event is the end of an attempt, or its `finally`. -/
def GatherEvent.cost : GatherEvent Snapshot → ℕ
  | .ended .. | .left _ => 1
  | _ => 0

end Machine

section Invariant

variable {options : BootOptions} {candidates : List BootAnchor} {s s' : Gather Snapshot}

/-- It may be done when there are enough documents, everything has ended, or the wait is over. -/
theorem gathering_finish (h : Kept options candidates s)
    (henough : options.topologySources ≤ s.sources.length ∨
      (s.next = candidates.length ∧ s.inProgress.length + s.ending.length = 0) ∨
        s.waited = true) : Gathering options candidates (finish s) := by
  have honce := h.once
  rw [finish]
  split_ifs with hdone
  · exact ⟨h, fun hnot => absurd hdone (ne_true_of_eq_false hnot)⟩
  · rw [if_neg hdone] at honce
    exact
      { bound := h.bound, fits := h.fits, before := h.before, distinct := h.distinct
        served := h.served
        once := congrArg (· + 1) honce
        first := fun hfirst => h.first (.inr (hfirst.resolve_left Bool.false_ne_true))
        enough := fun _ => henough
        busy := fun hnot => by cases hnot }

/-- `launch` starts an attempt, or finds enough in progress, or is done. -/
theorem gathering_launch (h : Kept options candidates s) :
    Gathering options candidates (launch options candidates s) := by
  have hpos := options.parallelism_pos
  rw [launch]
  split_ifs with hfull hend hidle
  · refine ⟨h, fun hnot => ?_⟩
    have hmany := hfull.resolve_left (ne_true_of_eq_false hnot)
    omega
  · exact gathering_finish h (.inr (.inl ⟨le_antisymm h.bound hend, hidle⟩))
  · exact ⟨h, fun _ => Nat.pos_of_ne_zero hidle⟩
  · obtain ⟨hdone, hroom⟩ := not_or.mp hfull
    have hnew : s.next ∉ s.sources.map ServedTopology.attempt ++ s.inProgress := by
      intro hmem
      rcases List.mem_append.mp hmem with hsource | hprogress
      · obtain ⟨source, hsource, heq⟩ := List.mem_map.mp hsource
        exact absurd (h.served source hsource).1 (heq ▸ lt_irrefl _)
      · exact absurd (h.before _ hprogress) (lt_irrefl _)
    exact
      { bound := not_le.mp hend
        fits := by
          change (s.next :: s.inProgress).length + s.ending.length ≤ _
          rw [List.length_cons]
          omega
        before := List.forall_mem_cons.mpr ⟨Nat.lt_succ_self _,
          fun attempt hattempt => Nat.lt_succ_of_lt (h.before attempt hattempt)⟩
        distinct := (List.perm_middle.nodup_iff).mpr (List.nodup_cons.mpr ⟨hnew, h.distinct⟩)
        served := fun source hsource =>
          ⟨Nat.lt_succ_of_lt (h.served source hsource).1, (h.served source hsource).2⟩
        once := h.once
        first := h.first
        enough := fun hnow => absurd hnow hdone
        busy := fun _ => Nat.lt_add_right _ (Nat.succ_pos _) }

/-- An attempt that ends counts until its `finally`. -/
theorem gathering_ended (h : Gathering options candidates s) {attempt : ℕ}
    (hattempt : attempt ∈ s.inProgress) {candidate : BootAnchor}
    (hcandidate : candidates[attempt]? = some candidate)
    (outcome : Except String (String × Snapshot)) :
    Gathering options candidates (attemptEnded options s attempt candidate outcome) := by
  have hlength : (s.inProgress.erase attempt).length + 1 = s.inProgress.length := by
    rw [List.length_erase_of_mem hattempt]
    exact Nat.sub_add_cancel (List.length_pos_of_mem hattempt)
  -- the attempt is the same one, whichever of the two lists has it
  have hperm : (s.sources.map ServedTopology.attempt ++ s.inProgress).Perm
      (attempt :: (s.sources.map ServedTopology.attempt ++ s.inProgress.erase attempt)) :=
    ((List.perm_cons_erase hattempt).append_left _).trans List.perm_middle
  have hdistinct := hperm.nodup_iff.mp h.distinct
  have hfits := h.fits
  -- with no document the attempt goes from the running ones to the ending ones
  have hmoved : Gathering options candidates
      { s with inProgress := s.inProgress.erase attempt, ending := attempt :: s.ending } :=
    { bound := h.bound
      fits := by
        change (s.inProgress.erase attempt).length + (attempt :: s.ending).length ≤ _
        rw [List.length_cons]
        omega
      before := fun other hother => h.before other (List.mem_of_mem_erase hother)
      distinct := (List.nodup_cons.mp hdistinct).2
      served := h.served, once := h.once, first := h.first
      enough := fun hdone => (h.enough hdone).imp_right (Or.imp_left fun hall =>
        absurd hall.2 (Nat.ne_of_gt (Nat.lt_add_right _ (List.length_pos_of_mem hattempt))))
      busy := fun _ => Nat.lt_add_left _ (Nat.succ_pos _) }
  unfold attemptEnded
  dsimp only
  split_ifs with hdone
  · exact hmoved
  · cases outcome with
    | error code =>
      exact ⟨⟨hmoved.bound, hmoved.fits, hmoved.before, hmoved.distinct, hmoved.served, hmoved.once,
        hmoved.first, hmoved.enough⟩, hmoved.busy⟩
    | ok pair =>
      obtain ⟨member, snapshot⟩ := pair
      have hsources : s.sources ++ [ServedTopology.mk attempt candidate.address snapshot] ≠ [] := by
        simp
      have hnodup : ((s.sources ++ [ServedTopology.mk attempt candidate.address snapshot]).map
          ServedTopology.attempt ++ s.inProgress.erase attempt).Nodup := by
        rw [List.map_append, List.append_assoc]
        exact List.perm_middle.nodup_iff.mpr hdistinct
      have hserved : ∀ source ∈ s.sources ++
            [ServedTopology.mk attempt candidate.address snapshot],
          source.attempt < s.next ∧
            candidates[source.attempt]?.map BootAnchor.address = some source.anchor := by
        intro source hsource
        rcases List.mem_append.mp hsource with hsource | hsource
        · exact h.served source hsource
        · obtain rfl := List.mem_singleton.mp hsource
          exact ⟨h.before attempt hattempt, by rw [hcandidate]; rfl⟩
      -- with a document it joins the sources, and its member is remembered
      have hkept : Gathering options candidates
          { s with
            inProgress := s.inProgress.erase attempt
            ending := attempt :: s.ending
            anchorMembers := s.anchorMembers.set candidate.address member
            sources := s.sources ++ [⟨attempt, candidate.address, snapshot⟩] } :=
        { bound := hmoved.bound, fits := hmoved.fits, before := hmoved.before
          distinct := hnodup, served := hserved, once := hmoved.once
          first := fun _ => hsources
          enough := fun hnow => absurd hnow hdone
          busy := hmoved.busy }
      dsimp only
      -- enough sources, the first of them, or one more
      split_ifs with henough hone
      · exact gathering_finish hkept.toKept (.inl henough)
      · exact ⟨⟨hkept.bound, hkept.fits, hkept.before, hkept.distinct, hkept.served, hkept.once,
          fun _ => hsources, hkept.enough⟩, hkept.busy⟩
      · exact hkept

theorem gathering_step {event : GatherEvent Snapshot} (h : Gathering options candidates s)
    (hstep : gatherStep options candidates s event = some s') :
    Gathering options candidates s' := by
  cases event with
  | ramp timer =>
    obtain ⟨-, hlaunch⟩ := Option.ite_none_right_eq_some.mp hstep
    rw [← Option.some.inj hlaunch]
    exact gathering_launch ⟨h.bound, h.fits, h.before, h.distinct, h.served, h.once, h.first,
      h.enough⟩
  | secondSourceWait =>
    obtain ⟨hwaiting, hfinish⟩ := Option.ite_none_right_eq_some.mp hstep
    rw [← Option.some.inj hfinish]
    exact gathering_finish ⟨h.bound, h.fits, h.before, h.distinct, h.served, h.once,
      fun _ => h.first (.inl hwaiting), fun _ => .inr (.inr rfl)⟩ (.inr (.inr rfl))
  | ended attempt metadata topology =>
    rw [gatherStep] at hstep
    split at hstep
    · cases hstep
    · next candidate hcandidate =>
      obtain ⟨hattempt, hended⟩ := Option.ite_none_right_eq_some.mp hstep
      rw [← Option.some.inj hended]
      exact gathering_ended h hattempt hcandidate _
  | left attempt =>
    obtain ⟨hattempt, hlaunch⟩ := Option.ite_none_right_eq_some.mp hstep
    -- an attempt that has ended leaves its place to the next one
    have hlength : (s.ending.erase attempt).length + 1 = s.ending.length := by
      rw [List.length_erase_of_mem hattempt]
      exact Nat.sub_add_cancel (List.length_pos_of_mem hattempt)
    have hfits := h.fits
    rw [← Option.some.inj hlaunch]
    refine gathering_launch ⟨h.bound, ?_, h.before, h.distinct, h.served, h.once, h.first,
      fun hdone => (h.enough hdone).imp_right (Or.imp_left fun hall => ⟨hall.1, ?_⟩)⟩
    · change s.inProgress.length + (s.ending.erase attempt).length ≤ _
      omega
    · have hzero := hall.2
      change s.inProgress.length + (s.ending.erase attempt).length = 0
      omega

theorem gathering_start :
    Gathering options candidates (startGathering options candidates : Gather Snapshot) := by
  have hkept : Kept options candidates
      (⟨0, [], [], [], [], .empty, [], false, false, false, 0⟩ : Gather Snapshot) :=
    { bound := Nat.zero_le _
      fits := Nat.zero_le _
      before := fun attempt hattempt => absurd hattempt List.not_mem_nil
      distinct := List.nodup_nil
      served := fun source hsource => absurd hsource List.not_mem_nil
      once := rfl
      first := fun hfirst => by simp at hfirst
      enough := fun hdone => by cases hdone }
  have hlaunch := gathering_launch hkept
  exact ⟨⟨hlaunch.bound, hlaunch.fits, hlaunch.before, hlaunch.distinct, hlaunch.served,
    hlaunch.once, hlaunch.first, hlaunch.enough⟩, hlaunch.busy⟩

/-! ### The work that is left -/

theorem work_finish : work candidates (finish s) = work candidates s := by
  rw [finish]
  split_ifs <;> rfl

theorem work_launch_le : work candidates (launch options candidates s) ≤ work candidates s := by
  rw [launch]
  split_ifs with hfull hend hidle
  · exact le_rfl
  · exact work_finish.le
  · exact le_rfl
  · change 2 * (candidates.length - (s.next + 1)) + 2 * (s.next :: s.inProgress).length +
      s.ending.length ≤ 2 * (candidates.length - s.next) + 2 * s.inProgress.length + s.ending.length
    rw [List.length_cons]
    omega

theorem work_attemptEnded {attempt : ℕ} (hattempt : attempt ∈ s.inProgress)
    (candidate : BootAnchor) (outcome : Except String (String × Snapshot)) :
    work candidates (attemptEnded options s attempt candidate outcome) + 1 = work candidates s := by
  have hlength : (s.inProgress.erase attempt).length + 1 = s.inProgress.length := by
    rw [List.length_erase_of_mem hattempt]
    exact Nat.sub_add_cancel (List.length_pos_of_mem hattempt)
  have hmoved : ∀ moved : Gather Snapshot, moved.next = s.next →
      moved.inProgress = s.inProgress.erase attempt → moved.ending = attempt :: s.ending →
      work candidates moved + 1 = work candidates s := by
    intro moved hnext hprogress hending
    rw [work, work, hnext, hprogress, hending, List.length_cons]
    omega
  unfold attemptEnded
  dsimp only
  split_ifs
  · exact hmoved _ rfl rfl rfl
  · cases outcome with
    | error code => exact hmoved _ rfl rfl rfl
    | ok pair =>
      dsimp only
      split_ifs
      · rw [work_finish]
        exact hmoved _ rfl rfl rfl
      · exact hmoved _ rfl rfl rfl
      · exact hmoved _ rfl rfl rfl

/-- The ends of attempts are bounded: each takes one of those that are left. -/
theorem work_step {event : GatherEvent Snapshot}
    (hstep : gatherStep options candidates s event = some s') :
    work candidates s' + event.cost ≤ work candidates s := by
  cases event with
  | ramp timer =>
    obtain ⟨-, hlaunch⟩ := Option.ite_none_right_eq_some.mp hstep
    rw [← Option.some.inj hlaunch]
    exact work_launch_le
  | secondSourceWait =>
    obtain ⟨-, hfinish⟩ := Option.ite_none_right_eq_some.mp hstep
    rw [← Option.some.inj hfinish]
    exact work_finish.le
  | ended attempt metadata topology =>
    rw [gatherStep] at hstep
    split at hstep
    · cases hstep
    · next candidate _ =>
      obtain ⟨hattempt, hended⟩ := Option.ite_none_right_eq_some.mp hstep
      rw [← Option.some.inj hended]
      exact (work_attemptEnded hattempt candidate _).le
  | left attempt =>
    obtain ⟨hattempt, hlaunch⟩ := Option.ite_none_right_eq_some.mp hstep
    have hlength : (s.ending.erase attempt).length + 1 = s.ending.length := by
      rw [List.length_erase_of_mem hattempt]
      exact Nat.sub_add_cancel (List.length_pos_of_mem hattempt)
    have hlaunched : work candidates
        (launch options candidates { s with ending := s.ending.erase attempt }) ≤
          2 * (candidates.length - s.next) + 2 * s.inProgress.length +
            (s.ending.erase attempt).length := work_launch_le
    rw [← Option.some.inj hlaunch]
    change _ + 1 ≤ 2 * (candidates.length - s.next) + 2 * s.inProgress.length + s.ending.length
    omega

/-! ### What a run does -/

/-- The documents are of different anchors, when the candidates have different addresses. -/
theorem Kept.nodup_anchors (h : Kept options candidates s)
    (hcandidates : (candidates.map BootAnchor.address).Nodup) :
    (s.sources.map ServedTopology.anchor).Nodup := by
  have hattempts : (s.sources.map ServedTopology.attempt).Nodup :=
    (List.nodup_append.mp h.distinct).1
  refine hattempts.of_map.map_on fun x hx y hy heq => ?_
  refine List.inj_on_of_nodup_map hattempts hx hy ?_
  have hxy : (candidates.map BootAnchor.address)[x.attempt]? =
      (candidates.map BootAnchor.address)[y.attempt]? := by
    rw [List.getElem?_map, List.getElem?_map, (h.served x hx).2, (h.served y hy).2, heq]
  have hlt : x.attempt < (candidates.map BootAnchor.address).length := by
    rw [List.length_map]
    exact (h.served x hx).1.trans_le h.bound
  exact (List.getElem?_inj hlt hcandidates).mp hxy

end Invariant

/-- `gatherServedTopologies`: it rejects at once without a candidate. -/
def gatherServedTopologies (options : BootOptions)
    (shuffle : ℕ → List BootAnchor → List BootAnchor) : Except String (Gather Snapshot) :=
  if bootAnchors options shuffle = [] then .error "KPS_UNAVAILABLE"
  else .ok (startGathering options (bootAnchors options shuffle))

/-- What is asked of the gathering in a state: it is settled once if it is done, no more attempts
are in progress than it may have, no anchor is tried twice or has two documents, it is done with
fewer documents than it wants only when every candidate was tried and has ended or the wait since
the first document is over, and until it is done an attempt is still to end. -/
structure GathersWell (options : BootOptions) (candidates : List BootAnchor)
    (s : Gather Snapshot) : Prop where
  once : s.settled = if s.done then 1 else 0
  parallel : s.inProgress.length + s.ending.length ≤ options.anchorParallelism
  tried : ((candidates.take s.next).map BootAnchor.address).Nodup
  different : (s.sources.map ServedTopology.anchor).Nodup
  enough : s.done = true → options.topologySources ≤ s.sources.length ∨
    (s.next = candidates.length ∧ s.inProgress = [] ∧ s.ending = []) ∨
      (s.waited = true ∧ s.sources ≠ [])
  goesOn : s.done = false → s.inProgress ≠ [] ∨ s.ending ≠ []

/-- With discovery, or when the pinned anchors have different addresses, the gathering is as asked
in every state of every run, and each end of an attempt leaves fewer of them to come.

The invariant (`Gathering`) has the attempts in flight and those to come, and every end of an
attempt takes one of them (`work_step`). With discovery the candidates are made distinct by their
addresses; the pinned ones are taken as they are (`nodup_bootAnchors`). -/
theorem gathersWell_of_run {options : BootOptions}
    {shuffle : ℕ → List BootAnchor → List BootAnchor} {start s : Gather Snapshot}
    (hshuffle : ∀ cls list, (shuffle cls list).Perm list)
    (hdifferent : options.discovery = none → ((pinnedAnchors options).map Prod.snd).Nodup)
    (hstart : gatherServedTopologies options shuffle = .ok start)
    (hrun : Run (gatherStep options (bootAnchors options shuffle)) start s) :
    GathersWell options (bootAnchors options shuffle) s ∧
      ∀ event s', gatherStep options (bootAnchors options shuffle) s event = some s' →
        work (bootAnchors options shuffle) s' + event.cost ≤
          work (bootAnchors options shuffle) s := by
  refine ⟨?_, fun event s' hstep => work_step hstep⟩
  rw [gatherServedTopologies] at hstart
  split_ifs at hstart with hempty
  obtain rfl := Except.ok.inj hstart
  have hnodup := nodup_bootAnchors hshuffle hdifferent
  have hgathering : Gathering options (bootAnchors options shuffle) s :=
    hrun.invariant gathering_start fun _ _ _ hbefore hstep => gathering_step hbefore hstep
  exact
    { once := hgathering.once
      parallel := hgathering.fits
      tried := by
        rw [List.map_take]
        exact hnodup.sublist (List.take_sublist _ _)
      different := hgathering.nodup_anchors hnodup
      enough := fun hdone => by
        rcases hgathering.enough hdone with henough | ⟨hnext, hnone⟩ | hwaited
        · exact .inl henough
        · obtain ⟨hprogress, hending⟩ := Nat.add_eq_zero_iff.mp hnone
          exact .inr (.inl ⟨hnext, List.length_eq_zero_iff.mp hprogress,
            List.length_eq_zero_iff.mp hending⟩)
        · exact .inr (.inr ⟨hwaited, hgathering.first (.inr hwaited)⟩)
      goesOn := fun hdone => by
        rcases Nat.add_pos_iff_pos_or_pos.mp (hgathering.busy hdone) with hprogress | hending
        · exact .inl (List.length_pos_iff.mp hprogress)
        · exact .inr (List.length_pos_iff.mp hending) }

/-! ### Two members at one address -/

/-- Two pinned members publish one address. -/
def sharedAddress : BootOptions where
  eligible := [("0xa", some "kps:a"), ("0xb", some "kps:a")]
  entries := none
  deprioritize := []
  discovery := none
  anchorParallelism := 1
  topologySources := 2
  parallelism_pos := Nat.one_pos

/-- A list stays as it is. -/
def sameOrder (_ : ℕ) (list : List BootAnchor) : List BootAnchor := list

/-- The anchor answers both attempts. -/
def sharedEvents : List (GatherEvent String) :=
  [.ended 0 (.error "") (.ok "topology"), .left 0, .ended 1 (.error "") (.ok "topology")]

/-- The same anchor is tried twice and counts as two sources. -/
theorem not_gathersWell_of_sharedAddress :
    ¬ ∀ (start s : Gather String), gatherServedTopologies sharedAddress sameOrder = .ok start →
      Run (gatherStep sharedAddress (bootAnchors sharedAddress sameOrder)) start s →
        GathersWell sharedAddress (bootAnchors sharedAddress sameOrder) s := by
  intro h
  have hrun : ∃ s, runEvents (gatherStep sharedAddress (bootAnchors sharedAddress sameOrder))
      (startGathering sharedAddress (bootAnchors sharedAddress sameOrder)) sharedEvents = some s ∧
      s.sources.map ServedTopology.anchor = ["kps:a", "kps:a"] := ⟨_, rfl, rfl⟩
  obtain ⟨s, hevents, hanchors⟩ := hrun
  have hwell := (h _ s rfl (run_of_runEvents hevents)).different
  rw [hanchors] at hwell
  exact absurd hwell (by decide)

/-- Three anchors, two of them at a time. -/
def threeAnchors : BootOptions where
  eligible := [("0xa", some "kps:a"), ("0xb", some "kps:b"), ("0xc", some "kps:c")]
  entries := none
  deprioritize := []
  discovery := none
  anchorParallelism := 2
  topologySources := 2
  parallelism_pos := Nat.two_pos

/-- The second anchor fails, and its end launches the third, which is the second source. -/
def threeEvents : List (GatherEvent String) :=
  [.ramp 1, .ended 1 (.error "") (.error "TRANSPORT_FAILED"), .left 1,
    .ended 0 (.error "") (.ok "topology"), .left 0, .ended 2 (.error "") (.ok "topology")]

/-- Two attempts are in progress at first, and the two documents are of different anchors. -/
theorem gathersWell_of_run_sample :
    (∃ s, runEvents (gatherStep threeAnchors (bootAnchors threeAnchors sameOrder))
        (startGathering threeAnchors (bootAnchors threeAnchors sameOrder))
        (threeEvents.take 1) = some s ∧
      s.inProgress = [1, 0] ∧
      GathersWell threeAnchors (bootAnchors threeAnchors sameOrder) s) ∧
    ∃ s, runEvents (gatherStep threeAnchors (bootAnchors threeAnchors sameOrder))
        (startGathering threeAnchors (bootAnchors threeAnchors sameOrder)) threeEvents = some s ∧
      s.done = true ∧ s.sources.map ServedTopology.anchor = ["kps:a", "kps:c"] ∧
      GathersWell threeAnchors (bootAnchors threeAnchors sameOrder) s := by
  have hwell : ∀ (events : List (GatherEvent String)) (s : Gather String),
      runEvents (gatherStep threeAnchors (bootAnchors threeAnchors sameOrder))
        (startGathering threeAnchors (bootAnchors threeAnchors sameOrder)) events = some s →
      GathersWell threeAnchors (bootAnchors threeAnchors sameOrder) s :=
    fun _ _ hevents => (gathersWell_of_run (fun _ list => List.Perm.refl list)
      (fun _ => by decide) rfl (run_of_runEvents hevents)).1
  exact ⟨⟨_, rfl, rfl, hwell (threeEvents.take 1) _ rfl⟩,
    ⟨_, rfl, rfl, rfl, hwell threeEvents _ rfl⟩⟩

end NoxSdk.Kps.Boot
