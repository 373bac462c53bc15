import NoxSdk.Js
import NoxSdk.Kps.Pinned
import Mathlib.Data.List.Sort
import Mathlib.Data.Finset.Card
import Mathlib.Data.String.Basic

/-!
# Candidates of the chain check

`rankChainCandidates` bounds the addresses a chain check reads: the core set first, then what
several anchors list, then what one anchor lists. A tier that does not fit is cut at random.

A random index is the answer to the numbered call of `randomIndex`, reduced to the length it was
asked for. The tiers above the last one are served before any draw for the last one, so what an
anchor lists alone leaves their share as it is.
-/

namespace NoxSdk.Kps

open Js (toLowerCase)
open NoxSdk.Topology

/-- `CandidateSources`; `randomIndex` is given the number of its call. -/
structure CandidateSources where
  core : List String
  served : List ServedTopology
  minSources : ℤ
  max : ℤ
  randomIndex : ℕ → ℕ → ℕ

/-- One node of the loop over the served documents. -/
def addListing (core : List String) (anchor : String)
    (listedBy : OrderedMap String (Finset String)) (node : RelayerNode) :
    OrderedMap String (Finset String) :=
  let address := toLowerCase node.address
  if address ∈ core then listedBy
  else listedBy.set address (insert anchor ((listedBy.get? address).getD ∅))

/-- `listedBy` of `rankChainCandidates`. -/
def listedBy (core : List String) (served : List ServedTopology) :
    OrderedMap String (Finset String) :=
  served.foldl (fun map source =>
    source.snapshot.nodes.foldl (addListing core source.anchor) map) .empty

/-- `room` calls of `pool.splice(sources.randomIndex(pool.length), 1)[0]`. -/
def spliceRandom (randomIndex : ℕ → ℕ → ℕ) : ℕ → ℕ → List String → List String
  | 0, _, _ => []
  | room + 1, call, pool =>
    let index := randomIndex call pool.length % pool.length
    pool[index]?.toList ++ spliceRandom randomIndex room (call + 1) (pool.eraseIdx index)

/-- The loop over the tiers, after `call` random indices. -/
def fillTiers (randomIndex : ℕ → ℕ → ℕ) (max : ℤ) (out : List String) (call : ℕ) :
    List (List String) → List String
  | [] => out
  | tier :: tiers =>
    let room := max - out.length
    if room ≤ 0 then out
    else if tier.length ≤ room then fillTiers randomIndex max (out ++ tier) call tiers
    else fillTiers randomIndex max (out ++ spliceRandom randomIndex room.toNat call tier)
      (call + room.toNat) tiers

namespace CandidateSources

variable (sources : CandidateSources)

/-- The set `core` of `rankChainCandidates`. -/
def coreSet : List String := Js.unique (sources.core.map toLowerCase)

/-- The entries of `listedBy` by address. -/
def sortedListings : List (String × Finset String) :=
  (listedBy sources.coreSet sources.served).entries.mergeSort fun a b => decide (a.1 ≤ b.1)

/-- `multi`. -/
def multi : List String :=
  (sources.sortedListings.filter fun entry => sources.minSources ≤ entry.2.card).map Prod.fst

/-- `single`. -/
def single : List String :=
  (sources.sortedListings.filter fun entry => !decide (sources.minSources ≤ entry.2.card)).map
    Prod.fst

end CandidateSources

/-- `rankChainCandidates`. -/
def rankChainCandidates (sources : CandidateSources) : List String :=
  fillTiers sources.randomIndex sources.max [] 0
    [sources.coreSet.mergeSort fun a b => decide (a ≤ b), sources.multi, sources.single]

/-! ### Cutting a tier -/

section Tiers

variable (randomIndex : ℕ → ℕ → ℕ) (max : ℤ) {room : ℕ} {pool : List String}

/-- A cut takes as many different entries of the tier as there is room. -/
theorem spliceRandom_spec (call : ℕ) (h : room ≤ pool.length) :
    (spliceRandom randomIndex room call pool).length = room ∧
      (spliceRandom randomIndex room call pool).Subperm pool := by
  induction room generalizing call pool with
  | zero => exact ⟨rfl, List.nil_subperm⟩
  | succ room ih =>
    have hpos : 0 < pool.length := by omega
    have hindex : randomIndex call pool.length % pool.length < pool.length := Nat.mod_lt _ hpos
    simp only [spliceRandom]
    set index := randomIndex call pool.length % pool.length
    rw [List.getElem?_eq_getElem hindex, Option.toList_some, List.singleton_append]
    have hrest : room ≤ (pool.eraseIdx index).length := by
      rw [List.length_eraseIdx_of_lt hindex]
      omega
    obtain ⟨hlength, hsubperm⟩ := ih (call + 1) hrest
    refine ⟨by rw [List.length_cons, hlength], ?_⟩
    exact ((List.subperm_cons _).mpr hsubperm).trans
      (List.getElem_cons_eraseIdx_perm hindex).subperm

/-- What one tier adds. -/
theorem exists_added_of_room (out : List String) (call : ℕ) (tier : List String)
    (tiers : List (List String)) (hroom : 0 < max - out.length) :
    ∃ added call', fillTiers randomIndex max out call (tier :: tiers) =
        fillTiers randomIndex max (out ++ added) call' tiers ∧ added.Subperm tier ∧
      ((out ++ added).length : ℤ) ≤ max ∧ (tier.length ≤ max - out.length → added = tier) := by
  rw [fillTiers]
  simp only [if_neg (not_le.mpr hroom)]
  split_ifs with hfits
  · refine ⟨tier, call, rfl, List.Subperm.refl _, ?_, fun _ => rfl⟩
    rw [List.length_append]
    omega
  · obtain ⟨hlength, hsubperm⟩ := spliceRandom_spec randomIndex call
      (show (max - out.length).toNat ≤ tier.length by omega)
    refine ⟨_, _, rfl, hsubperm, ?_, fun h => absurd h hfits⟩
    rw [List.length_append, hlength]
    omega

/-- When the places are taken, the later tiers add nothing. -/
theorem fillTiers_full {out : List String} (call : ℕ) (tiers : List (List String))
    (hfull : max - out.length ≤ 0) : fillTiers randomIndex max out call tiers = out := by
  cases tiers with
  | nil => rfl
  | cons tier tiers =>
    rw [fillTiers]
    exact if_pos hfull

/-- The tiers together add different entries of theirs, up to the bound. -/
theorem fillTiers_spec (out : List String) (call : ℕ) (tiers : List (List String)) :
    ∃ added, fillTiers randomIndex max out call tiers = out ++ added ∧
      added.Subperm tiers.flatten ∧
      ((out.length : ℤ) ≤ max → ((out ++ added).length : ℤ) ≤ max) := by
  induction tiers generalizing out call with
  | nil => exact ⟨[], by simp [fillTiers], List.nil_subperm, by simp⟩
  | cons tier tiers ih =>
    rcases le_or_gt (max - out.length) 0 with hfull | hroom
    · exact ⟨[], by simp [fillTiers_full randomIndex max call _ hfull], List.nil_subperm, by simp⟩
    · obtain ⟨first, call', hfirst, hsubperm, hbound, -⟩ :=
        exists_added_of_room randomIndex max out call tier tiers hroom
      obtain ⟨rest, hrest, hrestSubperm, hrestBound⟩ := ih (out ++ first) call'
      refine ⟨first ++ rest, by rw [hfirst, hrest, List.append_assoc], ?_, fun _ => ?_⟩
      · exact List.flatten_cons ▸ hsubperm.append hrestSubperm
      · rw [← List.append_assoc]
        exact hrestBound hbound

/-- A last tier only adds to what the tiers before it give. -/
theorem fillTiers_concat (out : List String) (call : ℕ) (tiers : List (List String))
    (last : List String) :
    ∃ added, fillTiers randomIndex max out call (tiers ++ [last]) =
        fillTiers randomIndex max out call tiers ++ added ∧ added.Subperm last := by
  induction tiers generalizing out call with
  | nil =>
    obtain ⟨added, hadded, hsubperm, -⟩ := fillTiers_spec randomIndex max out call [last]
    exact ⟨added, hadded, by simpa using hsubperm⟩
  | cons tier tiers ih =>
    rw [List.cons_append, fillTiers, fillTiers]
    split_ifs
    · exact ⟨[], by simp, List.nil_subperm⟩
    · exact ih _ _
    · exact ih _ _

end Tiers

/-! ### Who lists an address -/

section Listings

variable {core : List String} {served : List ServedTopology} {address anchor : String}

/-- A document lists the address. -/
def Lists (address : String) (source : ServedTopology) : Prop :=
  ∃ node ∈ source.snapshot.nodes, toLowerCase node.address = address

instance (address : String) (source : ServedTopology) : Decidable (Lists address source) :=
  inferInstanceAs (Decidable (∃ node ∈ source.snapshot.nodes, toLowerCase node.address = address))

/-- The anchors whose documents list the address. -/
def anchorsListing (served : List ServedTopology) (address : String) : Finset String :=
  ((served.filter fun source => Lists address source).map (·.anchor)).toFinset

/-- The loop over the nodes of one document. -/
theorem get?_foldl_addListing (haddress : address ∉ core) (anchor : String)
    (nodes : List RelayerNode) (map : OrderedMap String (Finset String)) :
    (nodes.foldl (addListing core anchor) map).get? address =
      if ∃ node ∈ nodes, toLowerCase node.address = address then
        some (insert anchor ((map.get? address).getD ∅))
      else map.get? address := by
  induction nodes generalizing map with
  | nil => simp
  | cons node nodes ih =>
    rw [List.foldl_cons, ih]
    by_cases hnode : toLowerCase node.address = address
    · simp only [addListing, hnode, if_neg haddress, OrderedMap.get?_set_self, List.mem_cons,
        exists_eq_or_imp, true_or, if_true, Option.getD_some, Finset.insert_idem, ite_self]
    · have hsame : (addListing core anchor map node).get? address = map.get? address := by
        rw [addListing]
        split_ifs
        · rfl
        · exact OrderedMap.get?_set_of_ne _ _ (Ne.symm hnode)
      simp only [hsame, List.mem_cons, exists_eq_or_imp, hnode, false_or]

/-- One more document adds its anchor, if it lists the address. -/
theorem anchorsListing_concat (served : List ServedTopology) (source : ServedTopology)
    (address : String) :
    anchorsListing (served ++ [source]) address =
      if Lists address source then insert source.anchor (anchorsListing served address)
      else anchorsListing served address := by
  rw [anchorsListing, List.filter_append, List.map_append, List.toFinset_append]
  split_ifs with hlists
  · simp [hlists, anchorsListing, Finset.union_comm]
  · simp [hlists, anchorsListing]

/-- An address outside the core is held with the anchors that list it. -/
theorem get?_listedBy (served : List ServedTopology) (haddress : address ∉ core) :
    (listedBy core served).get? address =
      if anchorsListing served address = ∅ then none
      else some (anchorsListing served address) := by
  induction served using List.reverseRecOn with
  | nil => rfl
  | append_singleton served source ih =>
    rw [listedBy, List.foldl_concat, get?_foldl_addListing haddress, anchorsListing_concat]
    rw [listedBy] at ih
    by_cases hlists : Lists address source
    · rw [if_pos hlists, if_pos (show ∃ node ∈ source.snapshot.nodes, _ from hlists), ih,
        if_neg (Finset.insert_ne_empty _ _)]
      split_ifs with hnone
      · rw [hnone, Option.getD_none]
      · rw [Option.getD_some]
    · rw [if_neg hlists, if_neg (show ¬ ∃ node ∈ source.snapshot.nodes, _ from hlists), ih]

/-- An address of the core is not counted among the listed ones. -/
theorem get?_foldl_addListing_of_mem (haddress : address ∈ core) (anchor : String)
    (nodes : List RelayerNode) (map : OrderedMap String (Finset String)) :
    (nodes.foldl (addListing core anchor) map).get? address = map.get? address := by
  induction nodes generalizing map with
  | nil => rfl
  | cons node nodes ih =>
    rw [List.foldl_cons, ih, addListing]
    split_ifs with hcore
    · rfl
    · exact OrderedMap.get?_set_of_ne _ _ fun heq => hcore (heq ▸ haddress)

/-- An address of the core is in no other tier. -/
theorem get?_listedBy_of_mem (served : List ServedTopology) (haddress : address ∈ core) :
    (listedBy core served).get? address = none := by
  induction served using List.reverseRecOn with
  | nil => rfl
  | append_singleton served source ih =>
    rw [listedBy, List.foldl_concat, get?_foldl_addListing_of_mem haddress]
    exact ih

end Listings

/-! ### The tiers -/

namespace CandidateSources

variable {sources : CandidateSources} {address : String}

/-- The listings are the addresses outside the core with all anchors that list them. -/
theorem mem_sortedListings {entry : String × Finset String} :
    entry ∈ sources.sortedListings ↔ entry.1 ∉ sources.coreSet ∧
      (anchorsListing sources.served entry.1).Nonempty ∧
      entry.2 = anchorsListing sources.served entry.1 := by
  obtain ⟨address, anchors⟩ := entry
  rw [sortedListings, List.mem_mergeSort, ← OrderedMap.get?_eq_some_iff]
  by_cases hcore : address ∈ sources.coreSet
  · simp [get?_listedBy_of_mem _ hcore, hcore]
  · rw [get?_listedBy _ hcore]
    split_ifs with hnone
    · simp [hcore, hnone]
    · simp [hcore, Finset.nonempty_iff_ne_empty, hnone, eq_comm]

/-- The listings are sorted by address, so none stands twice. -/
theorem pairwise_sortedListings :
    (sources.sortedListings.map Prod.fst).Pairwise (· < ·) := by
  have hnodup : (sources.sortedListings.map Prod.fst).Nodup :=
    ((List.mergeSort_perm _ _).map Prod.fst).nodup_iff.mpr (OrderedMap.nodup_keys _)
  have hle : (sources.sortedListings.map Prod.fst).Pairwise (· ≤ ·) := by
    rw [List.pairwise_map]
    refine (List.pairwise_mergeSort ?_ ?_ _).imp fun h => of_decide_eq_true h
    · exact fun a b c hab hbc =>
        decide_eq_true ((of_decide_eq_true hab).trans (of_decide_eq_true hbc))
    · exact fun a b => by simpa using le_total a.1 b.1
  exact (hle.and hnodup).imp fun h => lt_of_le_of_ne h.1 h.2

/-- Enough anchors list the address. -/
def ListedByEnough (sources : CandidateSources) (address : String) : Prop :=
  sources.minSources ≤ (anchorsListing sources.served address).card

/-- The middle tier: addresses outside the core that enough anchors list. -/
theorem mem_multi : address ∈ sources.multi ↔ address ∉ sources.coreSet ∧
    (anchorsListing sources.served address).Nonempty ∧ sources.ListedByEnough address := by
  simp only [multi, List.mem_map, List.mem_filter, mem_sortedListings, decide_eq_true_eq,
    Prod.exists, ListedByEnough]
  constructor
  · rintro ⟨_, _, ⟨⟨hcore, hlisted, rfl⟩, henough⟩, rfl⟩
    exact ⟨hcore, hlisted, henough⟩
  · rintro ⟨hcore, hlisted, henough⟩
    exact ⟨_, _, ⟨⟨hcore, hlisted, rfl⟩, henough⟩, rfl⟩

/-- The last tier: the listed addresses that are left. -/
theorem mem_single : address ∈ sources.single ↔ address ∉ sources.coreSet ∧
    (anchorsListing sources.served address).Nonempty ∧ ¬ sources.ListedByEnough address := by
  simp only [single, List.mem_map, List.mem_filter, mem_sortedListings, Bool.not_eq_true',
    decide_eq_false_iff_not, Prod.exists, ListedByEnough]
  constructor
  · rintro ⟨_, _, ⟨⟨hcore, hlisted, rfl⟩, henough⟩, rfl⟩
    exact ⟨hcore, hlisted, henough⟩
  · rintro ⟨hcore, hlisted, henough⟩
    exact ⟨_, _, ⟨⟨hcore, hlisted, rfl⟩, henough⟩, rfl⟩

/-- The middle tier is sorted. -/
theorem pairwise_multi : sources.multi.Pairwise (· < ·) :=
  pairwise_sortedListings.sublist (List.filter_sublist.map Prod.fst)

/-- The last tier is sorted. -/
theorem pairwise_single : sources.single.Pairwise (· < ·) :=
  pairwise_sortedListings.sublist (List.filter_sublist.map Prod.fst)

/-- The set `core` in order. -/
abbrev sortedCore (sources : CandidateSources) : List String :=
  sources.coreSet.mergeSort fun a b => decide (a ≤ b)

/-- The first tier is the core. -/
theorem mem_sortedCore : address ∈ sources.sortedCore ↔ address ∈ sources.coreSet :=
  List.mem_mergeSort

/-- No address is in two tiers, or in one twice. -/
theorem nodup_tiers :
    [sources.sortedCore, sources.multi, sources.single].flatten.Nodup := by
  have hcore : sources.sortedCore.Nodup :=
    (List.mergeSort_perm _ _).nodup_iff.mpr (Js.nodup_unique _)
  have hmulti : sources.multi.Nodup := pairwise_multi.imp fun h => h.ne
  have hsingle : sources.single.Nodup := pairwise_single.imp fun h => h.ne
  simp only [List.flatten_cons, List.flatten_nil, List.append_nil, List.nodup_append]
  refine ⟨hcore, ⟨hmulti, hsingle, ?_⟩, ?_⟩
  · rintro a ha _ hb rfl
    exact (mem_single.mp hb).2.2 (mem_multi.mp ha).2.2
  · rintro a ha _ hb rfl
    have ha := mem_sortedCore.mp ha
    rcases List.mem_append.mp hb with hb | hb
    · exact (mem_multi.mp hb).1 ha
    · exact (mem_single.mp hb).1 ha

end CandidateSources

/-! ### What is returned -/

section Ranked

open CandidateSources

variable (sources : CandidateSources)

/-- The candidates are drawn from the three tiers, none twice. -/
theorem rankChainCandidates_subperm :
    (rankChainCandidates sources).Subperm
      [sources.sortedCore, sources.multi, sources.single].flatten := by
  obtain ⟨added, hadded, hsubperm, -⟩ := fillTiers_spec sources.randomIndex sources.max [] 0
    [sources.sortedCore, sources.multi, sources.single]
  rw [rankChainCandidates, hadded]
  exact hsubperm

/-- There are at most as many candidates as the plan allows. -/
theorem length_rankChainCandidates_le :
    (rankChainCandidates sources).length ≤ sources.max.toNat := by
  obtain ⟨added, hadded, -, hbound⟩ := fillTiers_spec sources.randomIndex sources.max [] 0
    [sources.sortedCore, sources.multi, sources.single]
  rcases le_or_gt sources.max 0 with hmax | hmax
  · rw [rankChainCandidates,
      fillTiers_full sources.randomIndex sources.max 0 _ (by simpa using hmax)]
    exact Nat.zero_le _
  · rw [rankChainCandidates, hadded]
    have := hbound (by simpa using hmax.le)
    omega

/-- No candidate stands twice. -/
theorem nodup_rankChainCandidates : (rankChainCandidates sources).Nodup := by
  obtain ⟨l, hperm, hsublist⟩ := rankChainCandidates_subperm sources
  exact hperm.nodup_iff.mp (nodup_tiers.sublist hsublist)

/-- An address that some anchor lists is listed by a document. -/
theorem anchorsListing_nonempty {served : List ServedTopology} {address : String}
    (h : (anchorsListing served address).Nonempty) : ∃ source ∈ served, Lists address source := by
  obtain ⟨anchor, hanchor⟩ := h
  rw [anchorsListing, List.mem_toFinset] at hanchor
  obtain ⟨source, hsource, -⟩ := List.mem_map.mp hanchor
  rw [List.mem_filter, decide_eq_true_iff] at hsource
  exact ⟨source, hsource⟩

/-- Each candidate is of the core or listed by a served document. -/
theorem mem_rankChainCandidates {address : String} (h : address ∈ rankChainCandidates sources) :
    address ∈ sources.coreSet ∨ ∃ source ∈ sources.served, Lists address source := by
  have hmem := (rankChainCandidates_subperm sources).subset h
  simp only [List.flatten_cons, List.flatten_nil, List.append_nil, List.mem_append,
    mem_sortedCore] at hmem
  rcases hmem with hcore | hmulti | hsingle
  · exact .inl hcore
  · exact .inr (anchorsListing_nonempty (mem_multi.mp hmulti).2.1)
  · exact .inr (anchorsListing_nonempty (mem_single.mp hsingle).2.1)

/-- All of the core are candidates, where there are places for them. -/
theorem core_subset_rankChainCandidates (hfits : (sources.coreSet.length : ℤ) ≤ sources.max)
    {address : String} (h : address ∈ sources.coreSet) :
    address ∈ rankChainCandidates sources := by
  have hlength : sources.sortedCore.length = sources.coreSet.length := List.length_mergeSort _
  have hpos : 0 < sources.max := by
    have := List.length_pos_of_mem h
    omega
  obtain ⟨added, call, hadded, -, -, htier⟩ := exists_added_of_room sources.randomIndex sources.max
    [] 0 sources.sortedCore [sources.multi, sources.single] (by simpa using hpos)
  obtain ⟨rest, hrest, -⟩ := fillTiers_spec sources.randomIndex sources.max ([] ++ added) call
    [sources.multi, sources.single]
  rw [rankChainCandidates, hadded, hrest, htier (by simpa [hlength] using hfits)]
  exact List.mem_append_left _ (mem_sortedCore.mpr h)

/-- What is returned of the tiers above the last one. -/
def ranked : List String :=
  fillTiers sources.randomIndex sources.max [] 0 [sources.sortedCore, sources.multi]

/-- An address of the core, or one that enough anchors list, is returned through the tiers above
the last one. -/
theorem mem_rankChainCandidates_iff {address : String}
    (h : address ∈ sources.coreSet ∨ sources.ListedByEnough address) :
    address ∈ rankChainCandidates sources ↔ address ∈ ranked sources := by
  obtain ⟨added, hadded, hsubperm⟩ := fillTiers_concat sources.randomIndex sources.max [] 0
    [sources.sortedCore, sources.multi] sources.single
  change rankChainCandidates sources = ranked sources ++ added at hadded
  rw [hadded, List.mem_append, or_iff_left]
  intro hmem
  obtain ⟨hcore, -, henough⟩ := mem_single.mp (hsubperm.subset hmem)
  exact h.elim hcore henough

/-- The documents list each address with the same anchors, or both with one anchor at most. -/
def SameBeyondOne (served served' : List ServedTopology) : Prop :=
  ∀ address, anchorsListing served' address = anchorsListing served address ∨
    (anchorsListing served address).card ≤ 1 ∧ (anchorsListing served' address).card ≤ 1

variable {sources} {served' : List ServedTopology}

/-- One document more or less does not make enough of too few, when at least two are asked for. -/
theorem SameBeyondOne.listedByEnough_iff (h : SameBeyondOne sources.served served')
    (hmin : 2 ≤ sources.minSources) (address : String) :
    ListedByEnough { sources with served := served' } address ↔
      sources.ListedByEnough address := by
  rw [ListedByEnough, ListedByEnough]
  rcases h address with heq | ⟨hone, hone'⟩
  · rw [heq]
  · dsimp only
    constructor
    · intro henough
      omega
    · intro henough
      omega

/-- What one anchor alone lists does not change the addresses that several list. -/
theorem SameBeyondOne.multi_eq (h : SameBeyondOne sources.served served')
    (hmin : 2 ≤ sources.minSources) :
    CandidateSources.multi { sources with served := served' } = sources.multi := by
  refine List.Pairwise.eq_of_mem_iff pairwise_multi pairwise_multi fun address => ?_
  rw [mem_multi, mem_multi, h.listedByEnough_iff hmin]
  refine and_congr_right fun _ => and_congr_left fun henough => ?_
  rw [ListedByEnough] at henough
  dsimp only
  rcases h address with heq | ⟨hone, -⟩
  · rw [heq]
  · omega

/-- Documents of one anchor add to the others only addresses that this anchor alone lists. -/
theorem sameBeyondOne_append {served more : List ServedTopology} (anchor : String)
    (hanchor : ∀ source ∈ more, source.anchor = anchor)
    (halone : ∀ source ∈ more, ∀ address, Lists address source →
      anchorsListing served address ⊆ {anchor}) : SameBeyondOne served (served ++ more) := by
  intro address
  have hunion : anchorsListing (served ++ more) address =
      anchorsListing served address ∪ anchorsListing more address := by
    rw [anchorsListing, List.filter_append, List.map_append, List.toFinset_append]
    rfl
  have hmore : anchorsListing more address ⊆ {anchor} := by
    intro other hother
    rw [anchorsListing, List.mem_toFinset] at hother
    obtain ⟨source, hsource, rfl⟩ := List.mem_map.mp hother
    exact Finset.mem_singleton.mpr (hanchor source (List.mem_filter.mp hsource).1)
  by_cases hlisted : ∃ source ∈ more, Lists address source
  · obtain ⟨source, hsource, hlists⟩ := hlisted
    have hserved := halone source hsource address hlists
    rw [hunion]
    exact .inr ⟨Finset.card_le_card hserved,
      Finset.card_le_card (Finset.union_subset hserved hmore)⟩
  · have hnone : anchorsListing more address = ∅ := by
      by_contra hne
      exact hlisted (anchorsListing_nonempty (Finset.nonempty_iff_ne_empty.mpr hne))
    exact .inl (by rw [hunion, hnone, Finset.union_empty])

/-- The candidates: no more than `max`, each once, all of the core or of a document; the whole
core where it fits; and whatever one anchor alone lists, an address of the core or one that enough
anchors list is returned as it would be without.

The tiers are the core, the addresses that enough anchors list and those that one lists, and each is
filled before the next one. What one anchor alone lists changes nothing but the last tier, and what
is returned of the others does not depend on it. -/
theorem rankChainCandidates_not_flooded (sources : CandidateSources) :
    (rankChainCandidates sources).length ≤ sources.max.toNat ∧
    (rankChainCandidates sources).Nodup ∧
    (∀ address ∈ rankChainCandidates sources, address ∈ sources.coreSet ∨
      ∃ source ∈ sources.served, Lists address source) ∧
    ((sources.coreSet.length : ℤ) ≤ sources.max →
      ∀ address ∈ sources.coreSet, address ∈ rankChainCandidates sources) ∧
    (2 ≤ sources.minSources → ∀ served', SameBeyondOne sources.served served' →
      ∀ address, address ∈ sources.coreSet ∨ sources.ListedByEnough address →
        (address ∈ rankChainCandidates { sources with served := served' } ↔
          address ∈ rankChainCandidates sources)) := by
  refine ⟨length_rankChainCandidates_le sources, nodup_rankChainCandidates sources,
    fun _ => mem_rankChainCandidates sources,
    fun hfits _ => core_subset_rankChainCandidates sources hfits, ?_⟩
  intro hmin served' hsame address haddress
  have hranked : ranked { sources with served := served' } = ranked sources := by
    rw [ranked, ranked, hsame.multi_eq hmin]
    rfl
  rw [mem_rankChainCandidates_iff sources haddress, ← hranked]
  refine mem_rankChainCandidates_iff _ (haddress.imp id fun henough => ?_)
  exact (hsame.listedByEnough_iff hmin address).mpr henough

/-- A document that lists the given addresses. -/
private def documentOf (anchor : String) (addresses : List String) : ServedTopology where
  anchor := anchor
  snapshot :=
    { nodes := addresses.map fun address =>
        { address, sphinxKey := "", url := "", stake := "", lastSeen := 0, isPrivileged := false,
          layer := 0, role := 1, ingressUrl := none, metadataUrl := none }
      fingerprint := "", schemaVersion := none, liveness := none, timestamp := none
      blockNumber := none }

/-- Two anchors list one address; room is left for one of the others. -/
private def fewSources : CandidateSources where
  core := ["0xC0", "0xc0"]
  served := [documentOf "a" ["0x01", "0x02"], documentOf "b" ["0x01"]]
  minSources := 2
  max := 3
  randomIndex call length := call + length

/-- One anchor lists more than fits; the core stays, and so does the shared address. -/
theorem rankChainCandidates_not_flooded_few :
    (rankChainCandidates fewSources).length ≤ 3 ∧ "0xc0" ∈ rankChainCandidates fewSources ∧
      ("0x01" ∈ rankChainCandidates { fewSources with
          served := fewSources.served ++ [documentOf "a" ["0x03", "0x04", "0x05"]] } ↔
        "0x01" ∈ rankChainCandidates fewSources) := by
  obtain ⟨hlength, -, -, hcore, hsame⟩ := rankChainCandidates_not_flooded fewSources
  refine ⟨hlength, hcore (by decide) _ (by decide), ?_⟩
  have halone : SameBeyondOne fewSources.served
      (fewSources.served ++ [documentOf "a" ["0x03", "0x04", "0x05"]]) := by
    refine sameBeyondOne_append "a" (fun source hsource => ?_)
      fun source hsource address hlists => ?_
    · rw [List.mem_singleton.mp hsource]
      rfl
    · obtain rfl := List.mem_singleton.mp hsource
      obtain ⟨node, hnode, rfl⟩ := hlists
      obtain ⟨text, htext, rfl⟩ := List.mem_map.mp hnode
      simp only [List.mem_cons, List.not_mem_nil, or_false] at htext
      rcases htext with rfl | rfl | rfl <;> decide +kernel
  have henough : fewSources.ListedByEnough "0x01" := by
    rw [ListedByEnough]
    decide +kernel
  exact hsame (by decide) _ halone "0x01" (.inr henough)

end Ranked

end NoxSdk.Kps
