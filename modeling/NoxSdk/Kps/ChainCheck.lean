import NoxSdk.Kps.RegistryState

/-!
# A verified chain check is the registry

`runChainCheck_verified`: a check that ends as verified read the same canonical text through
`quorum` pairs with different exits and different providers, at a block inside the window; and if
one of these pairs told the truth, the membership is the set of registered relayers.

The canonical text carries the two replies of every candidate, so equal texts mean equal members.
A truthful pair also gives the number of registered relayers, and the set closes only when as
many candidates are registered: then no relayer is missing among the candidates, whoever chose
them.
-/

namespace NoxSdk.Kps

open Js (Json JsonNumber toLowerCase)
open NoxSdk.Topology

/-! ### Different exits, different providers -/

section Pairs

variable {α : Type} {context : ChainCheckContext} {avoid : Avoid} {attempt : ℕ}

theorem swapAt_perm (list : List α) (i j : ℕ) : (swapAt list i j).Perm list := by
  rw [swapAt, Array.swapIfInBounds]
  split_ifs with hi hj
  · exact Array.perm_iff_toList_perm.mp (Array.swap_perm hi hj)
  · exact List.Perm.refl _
  · exact List.Perm.refl _

/-- A shuffle leaves out none and adds none. -/
theorem shuffle_perm (draw : ℕ → ℕ) (list : List α) : (shuffle draw list).Perm list := by
  have hfrom : ∀ (n : ℕ) (l : List α), (shuffleFrom draw n l).Perm l := by
    intro n
    induction n with
    | zero => exact fun l => List.Perm.refl l
    | succ n ih => exact fun l => (ih _).trans (swapAt_perm l _ _)
  exact hfrom _ list

/-- Those that are avoided come last, and none is left out. -/
theorem orderPreferred_perm (items : List String) (avoided : String → Bool)
    (draw : Bool → ℕ → ℕ) : (orderPreferred items avoided draw).Perm items := by
  refine ((shuffle_perm _ _).append (shuffle_perm _ _)).trans ?_
  exact List.perm_append_comm.trans (List.filter_append_perm avoided items)

/-- A provider key stands for URLs of that provider, at least one. -/
theorem providersByKey_spec (providers : List String) {key : String} {urls : List String}
    (h : (providersByKey providers).get? key = some urls) :
    urls ≠ [] ∧ ∀ url ∈ urls, rpcProviderKey url = key := by
  induction providers using List.reverseRecOn generalizing urls with
  | nil => cases h
  | append_singleton providers url ih =>
    rw [providersByKey, List.foldl_concat, ← providersByKey, addProvider, OrderedMap.get?_set] at h
    split_ifs at h with hkey
    · obtain rfl := Option.some.inj h
      refine ⟨List.append_ne_nil_of_right_ne_nil _ (List.cons_ne_nil _ _), fun other hother => ?_⟩
      rcases List.mem_append.mp hother with hbefore | hlast
      · cases hget : (providersByKey providers).get? (rpcProviderKey url) with
        | none => simp [hget] at hbefore
        | some before =>
          rw [hget] at hbefore
          exact (ih (hkey ▸ hget)).2 other hbefore
      · rw [List.mem_singleton.mp hlast, hkey]
    · exact ih h

/-- The provider that is chosen for a key has this key. -/
theorem rpcProviderKey_chooseProvider {key : String} {index : ℕ}
    (h : key ∈ (providersByKey context.providers).keys) :
    rpcProviderKey (chooseProvider context attempt (providersByKey context.providers) key index)
      = key := by
  obtain ⟨urls, hurls⟩ := Option.isSome_iff_exists.mp (OrderedMap.has_iff.mpr h)
  obtain ⟨hne, hkeys⟩ := providersByKey_spec context.providers hurls
  have hlt := Nat.mod_lt (context.randomIndex ⟨attempt, .url, index⟩) (List.length_pos_iff.mpr hne)
  simp only [chooseProvider, hurls, Option.getD_some, List.getElem?_eq_getElem hlt]
  exact hkeys _ (List.getElem_mem hlt)

private theorem map_fst_zipIdx {β γ : Type} (f : β → γ) (l : List β) :
    (l.zipIdx.map fun entry => f entry.1) = l.map f := by
  change l.zipIdx.map (f ∘ Prod.fst) = l.map f
  rw [← List.map_map, List.zipIdx_map_fst]

/-- Pairs with different exits and different providers, as many as the quorum. -/
structure Distinct (quorum : ℕ) (pairs : List ReadPair) : Prop where
  length : pairs.length = quorum
  exits : (pairs.map (·.exit)).Nodup
  providers : (pairs.map fun pair => rpcProviderKey pair.provider).Nodup

/-- Pairs are chosen with different exits and different provider keys, as many as the quorum. -/
theorem distinct_choosePairs {pairs : List ReadPair}
    (h : choosePairs context avoid attempt = some pairs) : Distinct context.quorum pairs := by
  rw [choosePairs] at h
  set exits := orderPreferred (Js.unique context.exits) (fun exit => decide (exit ∈ avoid.exits))
    fun avoided index => context.randomIndex ⟨attempt, .exits avoided, index⟩ with hexits
  set keys := orderPreferred (providersByKey context.providers).keys
    (fun key => decide (key ∈ avoid.providers))
    fun avoided index => context.randomIndex ⟨attempt, .providers avoided, index⟩ with hkeys
  split_ifs at h with hfew
  obtain rfl := Option.some.inj h
  rw [not_or, not_lt, not_lt] at hfew
  have hexits_nodup : exits.Nodup :=
    (orderPreferred_perm _ _ _).nodup_iff.mpr (Js.nodup_unique context.exits)
  have hkeys_perm : keys.Perm (providersByKey context.providers).keys := orderPreferred_perm _ _ _
  have hkeys_nodup : keys.Nodup := hkeys_perm.nodup_iff.mpr (OrderedMap.nodup_keys _)
  have hzip : (exits.zip keys).take context.quorum
      = (exits.take context.quorum).zip (keys.take context.quorum) := List.take_zipWith
  refine ⟨?_, ?_, ?_⟩
  · simp only [List.length_map, List.length_zipIdx, List.length_take, List.length_zip]
    omega
  · rw [List.map_map]
    refine (map_fst_zipIdx (fun entry : String × String => entry.1) _).symm ▸ ?_
    rw [hzip, List.map_fst_zip (by simp only [List.length_take]; omega)]
    exact hexits_nodup.sublist (List.take_sublist _ _)
  · have hproviders : ∀ entry ∈ ((exits.zip keys).take context.quorum).zipIdx,
        rpcProviderKey (chooseProvider context attempt (providersByKey context.providers)
          entry.1.2 entry.2) = entry.1.2 := fun entry hentry => by
      refine rpcProviderKey_chooseProvider (hkeys_perm.subset ?_)
      exact (List.of_mem_zip (List.mem_of_mem_take (List.fst_mem_of_mem_zipIdx hentry))).2
    rw [List.map_map]
    refine (List.map_congr_left hproviders).symm ▸ ?_
    refine (map_fst_zipIdx (fun entry : String × String => entry.2) _).symm ▸ ?_
    rw [hzip, List.map_snd_zip (by simp only [List.length_take]; omega)]
    exact hkeys_nodup.sublist (List.take_sublist _ _)

end Pairs

/-! ### Reading through every pair -/

section Reading

variable {α : Type}

private theorem exists_of_forall₂ {β γ : Type} {R : β → γ → Prop} {l : List β} {l' : List γ}
    (h : List.Forall₂ R l l') {b : β} (hb : b ∈ l) : ∃ c ∈ l', R b c := by
  obtain ⟨index, hindex, rfl⟩ := List.getElem_of_mem hb
  exact ⟨_, List.getElem_mem (h.length_eq ▸ hindex), h.get hindex (h.length_eq ▸ hindex)⟩

/-- Without a rejection every pair has its value. -/
private theorem forall₂_fulfilled (settled : List (ReadPair × Check α))
    (h : rejections settled = []) :
    List.Forall₂ (fun entry value => entry.2 = .ok value) settled (fulfilled settled) := by
  induction settled with
  | nil => exact .nil
  | cons entry rest ih =>
    obtain ⟨pair, result⟩ := entry
    cases result with
    | ok value => exact .cons rfl (ih h)
    | error error => cases h

/-- When no pair failed, the values are what the pairs read. -/
theorem readAll_ok {context : ChainCheckContext} {site : ℕ → ℕ → SendSite} {pairs : List ReadPair}
    {bodies : List Json} {expectedBytes : ℕ} {parse : Reply → Check α} {values : List α}
    (h : readAll context site pairs bodies expectedBytes parse = .ok values) :
    List.Forall₂ (fun entry value =>
      readPair context (site entry.2) bodies expectedBytes parse entry.1 = .ok value)
      pairs.zipIdx values := by
  rw [readAll] at h
  split_ifs at h with hfailed
  obtain rfl := ReadAll.ok.inj h
  have hnone := List.eq_nil_of_length_eq_zero (Nat.eq_zero_of_not_pos hfailed)
  exact List.forall₂_map_left_iff.mp (forall₂_fulfilled _ hnone)

/-- Answers that agree are all the same. -/
theorem eq_of_answersAgree {canonicals : List String} (h : answersAgree canonicals = true) :
    ∀ a ∈ canonicals, ∀ b ∈ canonicals, a = b := by
  cases canonicals with
  | nil => simp
  | cons first rest =>
    have hall : ∀ c ∈ first :: rest, c = first := by
      intro c hc
      rcases List.mem_cons.mp hc with rfl | hrest
      · rfl
      · exact beq_iff_eq.mp (List.all_eq_true.mp h c hrest)
    exact fun a ha b hb => (hall a ha).trans (hall b hb).symm

/-- Replies that are arrays are one array with all of their items. -/
theorem joinReplies_arrays {replies : List Reply}
    (h : ∀ reply ∈ replies, ∃ items, reply = some (.array items)) :
    ∃ all, joinReplies replies = some (.array all) ∧
      ∀ items, some (Json.array items) ∈ replies → items ⊆ all := by
  have hmerge : ∀ texts : List Reply, (∀ text ∈ texts, ∃ items, text = some (.array items)) →
      ∃ all, mergeBatchReplies texts = some (.array all) ∧
        ∀ items, some (Json.array items) ∈ texts → items ⊆ all := by
    intro texts
    induction texts with
    | nil => exact fun _ => ⟨[], rfl, by simp⟩
    | cons text texts ih =>
      intro htexts
      obtain ⟨items, rfl⟩ := htexts text List.mem_cons_self
      obtain ⟨rest, hrest, hsub⟩ := ih fun t ht => htexts t (List.mem_cons_of_mem _ ht)
      refine ⟨items ++ rest, by rw [mergeBatchReplies, hrest], fun other hother => ?_⟩
      rcases List.mem_cons.mp hother with heq | hlater
      · cases heq
        exact List.subset_append_left _ _
      · exact fun _ hx => List.subset_append_right _ _ (hsub other hlater hx)
  match replies, h with
  | [], h => exact hmerge [] h
  | [reply], h =>
    obtain ⟨items, rfl⟩ := h reply List.mem_cons_self
    refine ⟨items, rfl, fun other hother => ?_⟩
    cases List.mem_singleton.mp hother
    exact List.Subset.refl _
  | first :: second :: rest, h => exact hmerge _ h

/-- What a pair read is parsed from its replies to the bodies. -/
theorem readPair_ok {context : ChainCheckContext} {site : ℕ → SendSite} {bodies : List Json}
    {expectedBytes : ℕ} {parse : Reply → Check α} {pair : ReadPair} {value : α}
    (h : readPair context site bodies expectedBytes parse pair = .ok value) :
    ∃ replies, List.Forall₂ (fun entry reply =>
        context.send (site entry.2) pair.exit pair.provider entry.1 expectedBytes = .ok reply)
        bodies.zipIdx replies ∧
      parse (joinReplies replies) = .ok value := by
  obtain ⟨replies, hreplies, hparse⟩ := bind_eq_ok_iff.mp h
  refine ⟨replies, (mapM_eq_ok_iff.mp hreplies).imp fun entry reply hsend => ?_, hparse⟩
  cases hresult : context.send (site entry.2) pair.exit pair.provider entry.1 expectedBytes with
  | error error =>
    rw [hresult] at hsend
    cases hsend
  | ok received =>
    rw [hresult] at hsend
    rw [show received = reply from Except.ok.inj hsend]

end Reading

/-! ### A truthful pair -/

section Truth

variable {abi : RegistryInterface} {state : RegistryState} (data : RegistryData abi state)
  (context : ChainCheckContext) (attempt : ℕ) (logScan : Bool) (plan : RegistryReadPlan)
  (expectedBytes : ℕ)

/-- What a pair sent back in a registry read, for one batch of the plan after another, holds the
data of a state. -/
def Truthful (entry : ReadPair × ℕ) : Prop :=
  ∀ index calls reply, (planBatches plan)[index]? = some calls →
    context.send (.registry attempt logScan entry.2 index) entry.1.exit entry.1.provider
      (batchBody abi plan calls) expectedBytes = .ok reply →
    ∃ items, reply = some (.array items) ∧ ∀ call ∈ calls, data.Answers items call

variable {data context attempt logScan plan expectedBytes}

/-- An answer of the registry is one among more items too. -/
theorem answers_mono {items all : List Json} (h : items ⊆ all) {call : PlannedCall}
    (hanswers : data.Answers items call) : data.Answers all call := by
  intro data hdata
  obtain ⟨item, hitem, hrest⟩ := hanswers data hdata
  exact ⟨item, h hitem, hrest⟩

/-- The text that a truthful pair's replies make is an array with the data of every call. -/
theorem joinReplies_of_truthful {entry : ReadPair × ℕ} {replies : List Reply}
    (htruth : Truthful data context attempt logScan plan expectedBytes entry)
    (hreplies : List.Forall₂ (fun body reply =>
      context.send (.registry attempt logScan entry.2 body.2) entry.1.exit entry.1.provider body.1
        expectedBytes = .ok reply) (planBodies abi plan).zipIdx replies) :
    ∃ items, joinReplies replies = some (.array items) ∧
      ∀ call ∈ plan.calls, data.Answers items call := by
  have hlength : replies.length = (planBatches plan).length := by
    rw [← hreplies.length_eq, List.length_zipIdx, planBodies, List.length_map]
  have hbatch : ∀ index (h : index < (planBatches plan).length),
      ∃ items, replies[index] = some (.array items) ∧
        ∀ call ∈ (planBatches plan)[index], data.Answers items call := by
    intro index h
    have hsend := hreplies.get (i := index) (by simpa [planBodies] using h) (hlength ▸ h)
    refine htruth index _ _ (List.getElem?_eq_getElem h) ?_
    simpa [planBodies] using hsend
  have harrays : ∀ reply ∈ replies, ∃ items, reply = some (Json.array items) := by
    intro reply hreply
    obtain ⟨index, hindex, rfl⟩ := List.getElem_of_mem hreply
    obtain ⟨items, hitems, -⟩ := hbatch index (hlength ▸ hindex)
    exact ⟨items, hitems⟩
  obtain ⟨all, hall, hsub⟩ := joinReplies_arrays harrays
  refine ⟨all, hall, fun call hcall => ?_⟩
  rw [← @flatten_chunks _ discoveryMaxBatchCalls (by decide) plan.calls] at hcall
  obtain ⟨calls, hcalls, hcall⟩ := List.mem_flatten.mp hcall
  obtain ⟨index, hindex, rfl⟩ := List.getElem_of_mem hcalls
  obtain ⟨items, hitems, hanswers⟩ := hbatch index hindex
  exact answers_mono (hsub items (hitems ▸ List.getElem_mem _)) (hanswers call hcall)

end Truth

/-! ### The run -/

section Run

variable {hashes : Hashes} {abi : RegistryInterface} {context : ChainCheckContext}
  {membership : ChainMembership} {pairs pairs' : List ReadPair} {attempt attempts : ℕ}
  {logScan logScan' : Bool} {block : FinalizedBlock} {candidates : List String}

/-- The read that verified a membership: every pair answered the plan the same, canonical text
included, and the answer closes. -/
structure VerifiedRead (hashes : Hashes) (abi : RegistryInterface) (context : ChainCheckContext)
    (membership : ChainMembership) (pairs : List ReadPair) (attempt : ℕ) (logScan : Bool)
    (plan : RegistryReadPlan) (expectedBytes : ℕ) (answer : RegistryAnswer) : Prop where
  plan_ok : ∃ candidates, (logScan = false → candidates = context.candidates.take maxCandidates) ∧
    registryReadPlan context.bootstrap.registry membership.block candidates = .ok plan
  agree : ∀ entry ∈ pairs.zipIdx,
    readPair context (.registry attempt logScan entry.2) (planBodies abi plan) expectedBytes
      (parseRegistryAnswer abi plan) entry.1 = .ok answer
  closes : closeMembership hashes answer context.bootstrap = .ok membership

/-- One truthful pair makes the membership that of the state. -/
theorem VerifiedRead.isMembership {plan : RegistryReadPlan} {expectedBytes : ℕ}
    {answer : RegistryAnswer} {state : RegistryState} {data : RegistryData abi state}
    (h : VerifiedRead hashes abi context membership pairs attempt logScan plan expectedBytes answer)
    (hcount : state.relayerCount = state.registered.card)
    (htruth : ∃ entry ∈ pairs.zipIdx,
      Truthful data context attempt logScan plan expectedBytes entry) :
    state.IsMembership membership := by
  obtain ⟨entry, hentry, htruth⟩ := htruth
  obtain ⟨candidates, -, hplan⟩ := h.plan_ok
  obtain ⟨replies, hreplies, hparse⟩ := readPair_ok (h.agree entry hentry)
  obtain ⟨items, hitems, hanswers⟩ := joinReplies_of_truthful htruth hreplies
  exact isMembership_of_truthful hplan (hitems ▸ hparse) hanswers hcount h.closes

/-- All answers of one read are for the block that was asked. -/
theorem block_of_read {plan : RegistryReadPlan} {expectedBytes : ℕ} {site : ℕ → ℕ → SendSite}
    {first : RegistryAnswer} {rest : List RegistryAnswer}
    (hread : readAll context site pairs (planBodies abi plan) expectedBytes
      (parseRegistryAnswer abi plan) = .ok (first :: rest)) : first.block = plan.block := by
  obtain ⟨_, -, hfirst⟩ := exists_of_forall₂ (readAll_ok hread).flip List.mem_cons_self
  obtain ⟨_, -, hparse⟩ := readPair_ok hfirst
  obtain ⟨_, -, parsed, rfl⟩ := parseRegistryAnswer_ok hparse
  rfl

/-- Pairs whose answers agree answered the same. -/
theorem eq_of_agree {plan : RegistryReadPlan} {expectedBytes : ℕ} {site : ℕ → ℕ → SendSite}
    {first : RegistryAnswer} {rest : List RegistryAnswer}
    (hlower : ∀ address ∈ plan.candidates, isLowerAddress address = true)
    (hread : readAll context site pairs (planBodies abi plan) expectedBytes
      (parseRegistryAnswer abi plan) = .ok (first :: rest))
    (hagree : answersAgree ((first :: rest).map (·.canonical)) = true) :
    ∀ entry ∈ pairs.zipIdx, readPair context (site entry.2) (planBodies abi plan) expectedBytes
      (parseRegistryAnswer abi plan) entry.1 = .ok first := by
  have hvalues := readAll_ok hread
  have hsame := eq_of_answersAgree hagree
  obtain ⟨_, -, hfirst⟩ := exists_of_forall₂ hvalues.flip List.mem_cons_self
  obtain ⟨_, -, hparse_first⟩ := readPair_ok hfirst
  intro entry hentry
  obtain ⟨answer, hanswer, hread_entry⟩ := exists_of_forall₂ hvalues hentry
  obtain ⟨_, -, hparse⟩ := readPair_ok hread_entry
  have heq : answer = first := answer_eq_of_canonical_eq hlower hparse hparse_first
    (hsame _ (List.mem_map_of_mem hanswer) _ (List.mem_map_of_mem List.mem_cons_self))
  exact heq ▸ hread_entry

/-- A registry that is verified was read whole, and its members hash to its fingerprint. -/
theorem readRegistry_verified
    (h : readRegistry hashes abi context attempt pairs block candidates logScan
      = .ok (.settled (.done (.verified membership pairs' attempts logScan'))))
    (hcandidates : logScan = false → candidates = context.candidates.take maxCandidates) :
    pairs' = pairs ∧ attempts = attempt ∧ logScan' = logScan ∧ membership.block = block ∧
      ∃ plan expectedBytes answer, VerifiedRead hashes abi context membership pairs attempt logScan
        plan expectedBytes answer := by
  obtain ⟨plan, hplan, h⟩ := bind_eq_ok_iff.mp h
  obtain ⟨hblock, -, hlower, -⟩ := registryReadPlan_ok hplan
  dsimp only at h
  split at h
  · cases h
  next answers hread =>
    cases answers with
    | nil => cases h
    | cons first rest =>
      dsimp only at h
      split_ifs at h with hagree
      · cases h
      split at h
      next closed hclose =>
        cases h
        have hagree_all := eq_of_agree hlower hread (by simpa using hagree)
        have hmembership : membership.block = block := by
          rw [(closeMembership_ok hclose).1, block_of_read hread, hblock]
        exact ⟨rfl, rfl, rfl, hmembership, plan, _, first, ⟨_, hcandidates, hmembership ▸ hplan⟩,
          hagree_all, hclose⟩
      · cases h
      · cases h
      · cases h

/-- A scan of the logs only leads to another read. -/
theorem scanWith_ne_verified (scan : Check (Json × ℕ)) :
    scanWith context attempt pairs scan
      ≠ .settled (.done (.verified membership pairs' attempts logScan)) := by
  have hcomplete : ∀ read : ReadAll RegistrationLogs, completeCandidates context pairs read
      ≠ .settled (.done (.verified membership pairs' attempts logScan)) := by
    intro read
    cases read with
    | failed _ detail => exact nofun
    | ok logs =>
      rw [completeCandidates]
      split_ifs
      · exact nofun
      · dsimp only
        split_ifs <;> exact nofun
  cases scan with
  | error error => exact nofun
  | ok scan =>
    obtain ⟨body, chunks⟩ := scan
    exact hcomplete _

/-- A verified membership comes from one of the two reads, before or behind the scan of the logs. -/
theorem readMembership_verified
    (h : readMembership hashes abi context attempt pairs block
      = .ok (.done (.verified membership pairs' attempts logScan))) :
    pairs' = pairs ∧ attempts = attempt ∧ membership.block = block ∧
      ∃ plan expectedBytes answer, VerifiedRead hashes abi context membership pairs attempt logScan
        plan expectedBytes answer := by
  obtain ⟨result, hresult, h⟩ := bind_eq_ok_iff.mp h
  cases result with
  | settled settled =>
    cases h
    obtain ⟨hpairs, hattempts, rfl, hblock, hread⟩ := readRegistry_verified hresult fun _ => rfl
    exact ⟨hpairs, hattempts, hblock, hread⟩
  | incomplete detail =>
    cases hscan : scanLogs abi context attempt pairs block with
    | settled settled =>
      rw [hscan] at h
      cases h
      exact absurd hscan (scanWith_ne_verified _)
    | completed completed =>
      rw [hscan] at h
      obtain ⟨result, hresult, h⟩ := bind_eq_ok_iff.mp h
      cases result with
      | incomplete detail => cases h
      | settled settled =>
        cases h
        obtain ⟨hpairs, hattempts, rfl, hblock, hread⟩ := readRegistry_verified hresult nofun
        exact ⟨hpairs, hattempts, hblock, hread⟩

/-- A pairing that verifies has a block within the window and one verified read. -/
theorem pairing_verified
    (h : pairing hashes abi context attempt pairs
      = .ok (.done (.verified membership pairs' attempts logScan))) :
    pairs' = pairs ∧ attempts = attempt ∧ checkBlockWindow membership.block context = .ok () ∧
      ∃ plan expectedBytes answer, VerifiedRead hashes abi context membership pairs attempt logScan
        plan expectedBytes answer := by
  unfold pairing at h
  split at h
  · cases h
  next first rest =>
    split at h
    · cases h
    next block hblock =>
      obtain ⟨hpairs, hattempts, hmembership, hread⟩ := readMembership_verified h
      obtain ⟨reply, -, hblock⟩ := bind_eq_ok_iff.mp hblock
      obtain ⟨parsed, -, hblock⟩ := bind_eq_ok_iff.mp hblock
      obtain ⟨_, hwindow, hparsed⟩ := bind_eq_ok_iff.mp hblock
      refine ⟨hpairs, hattempts, ?_, hread⟩
      rw [hmembership, ← Except.ok.inj hparsed, hwindow]

/-- A run that verifies a membership did so in one of its pairings. -/
theorem runAttempts_verified {avoid avoid' : Avoid} {disagreements left : ℕ} {lastFailure : String}
    (h : runAttempts hashes abi context avoid disagreements lastFailure left
      = .ok (.verified membership pairs attempts logScan, avoid')) :
    ∃ avoid attempt pairs', choosePairs context avoid attempt = some pairs' ∧
      pairing hashes abi context attempt pairs'
        = .ok (.done (.verified membership pairs attempts logScan)) := by
  induction left generalizing avoid disagreements lastFailure with
  | zero =>
    rw [runAttempts] at h
    split_ifs at h <;> cases h
  | succ left ih =>
    rw [runAttempts] at h
    split at h
    · cases h
    next chosen hchosen =>
      obtain ⟨settled, hsettled, h⟩ := bind_eq_ok_iff.mp h
      cases settled with
      | next disagreed blamed failure => exact ih h
      | done outcome =>
        cases h
        exact ⟨_, _, chosen, hchosen, hsettled⟩

/-- A verified check agreed through `quorum` different exits and different providers, at a block
inside the window, and is the true registry when one of these pairs was truthful.

The check returns the result of one pairing, which read one answer over all its pairs
(`runAttempts_verified`, `pairing_verified`); the pairs were chosen with different exits and
providers (`distinct_choosePairs`). -/
theorem runChainCheck_verified {avoid avoid' : Avoid}
    (h : runChainCheck hashes abi context avoid
      = .ok (.verified membership pairs attempts logScan, avoid')) :
    Distinct context.quorum pairs ∧ checkBlockWindow membership.block context = .ok () ∧
      ∃ plan expectedBytes answer,
        VerifiedRead hashes abi context membership pairs attempts logScan plan expectedBytes
          answer ∧
        ∀ (state : RegistryState) (data : RegistryData abi state),
          state.relayerCount = state.registered.card →
          (∃ entry ∈ pairs.zipIdx,
            Truthful data context attempts logScan plan expectedBytes entry) →
          state.IsMembership membership := by
  obtain ⟨avoid, attempt, chosen, hchosen, hpairing⟩ := runAttempts_verified h
  obtain ⟨rfl, rfl, hwindow, plan, expectedBytes, answer, hread⟩ := pairing_verified hpairing
  exact ⟨distinct_choosePairs hchosen, hwindow, plan, expectedBytes, answer, hread,
    fun _ _ => hread.isMembership⟩

end Run

/-! ### A run -/

section Sample

/-- The digits of a word of data. -/
def wordDigits (n : ℕ) : List Char :=
  List.replicate (64 - (Nat.toDigits 16 n).length) '0' ++ Nat.toDigits 16 n

/-- The text of some words of data. -/
def dataOf (words : List (List Char)) : List Char := '0' :: 'x' :: words.flatten

/-- What the contract holds about a registered relayer with a key of one byte. -/
def sampleRelayer (key : UInt8) (url : String) : RelayersResult :=
  ⟨List.replicate 32 key, url, "", "", 1, 0, true, 1, false⟩

/-- What the contract holds about an address that is not registered. -/
def notRegistered : RelayersResult := ⟨List.replicate 32 0, "", "", "", 0, 0, false, 0, false⟩

/-- The data about a registered relayer: nine words, of which three are the places of the texts,
and the texts; of `url` these are its length and its bytes. -/
def relayerData (key : Char) (url : List Char) : List Char := dataOf
  [List.replicate 64 key, wordDigits 0x120, wordDigits 0x160, wordDigits 0x180, wordDigits 1,
    wordDigits 0, wordDigits 1, wordDigits 1, wordDigits 0, wordDigits 2,
    url ++ List.replicate 60 '0', wordDigits 0, wordDigits 0]

/-- The data about an address that is not registered. -/
def notRegisteredData : List Char := dataOf
  [wordDigits 0, wordDigits 0x120, wordDigits 0x140, wordDigits 0x160, wordDigits 0, wordDigits 0,
    wordDigits 0, wordDigits 0, wordDigits 0, wordDigits 0, wordDigits 0, wordDigits 0]

/-- The data about the first relayer, at `u1`. -/
def firstData : List Char := relayerData '1' ['7', '5', '3', '1']

/-- The data about the second relayer, at `u2`. -/
def secondData : List Char := relayerData '2' ['7', '5', '3', '2']

/-- The digests of the two addresses. -/
def sampleDigests : Hashes where
  keccak256 bytes :=
    if bytes = List.replicate 20 0x11 then
      [0xe2, 0xc0, 0x74, 0x04, 0xb8, 0xc1, 0xdf, 0x4c, 0x46, 0x22, 0x64, 0x25, 0xca, 0xc6,
       0x8c, 0x28, 0xd2, 0x7a, 0x76, 0x6b, 0xbd, 0xdc, 0xe6, 0x23, 0x09, 0xf3, 0x67, 0x24,
       0x83, 0x9b, 0x22, 0xc0]
    else if bytes = List.replicate 20 0x22 then
      [0x2a, 0xb0, 0xa4, 0x44, 0x3b, 0xbe, 0xa3, 0xfb, 0xe4, 0xd0, 0xe1, 0x50, 0x3d, 0x11,
       0xff, 0x13, 0x67, 0x84, 0x2f, 0xb0, 0xc8, 0xb2, 0x8a, 0x5c, 0x85, 0x50, 0xf2, 0x75,
       0x99, 0xa4, 0x07, 0x51]
    else []
  sha256 _ := []

/-- The fingerprint of the two relayers. -/
def sampleFingerprint : Bytes :=
  [0xc8, 0x70, 0xd0, 0x40, 0x83, 0x7f, 0x7c, 0xb7, 0xa2, 0xf2, 0x85, 0x75, 0xf7, 0xd7, 0x73, 0x3b,
   0xb5, 0xfe, 0x59, 0xdb, 0x75, 0x6e, 0x6c, 0x7f, 0x8c, 0xa3, 0x95, 0x51, 0x1a, 0x3f, 0x25, 0x91]

/-- The data of the fingerprint. -/
def fingerprintData : List Char :=
  dataOf [sampleFingerprint.flatMap fun b =>
    [Nat.digitChar (b.toNat / 16), Nat.digitChar (b.toNat % 16)]]

/-- A decoder that knows some data. -/
def decoder {α : Type} (known : List (List Char × α)) (text : String) : Except Thrown α :=
  match known.lookup text.toList with
  | some value => .ok value
  | none => .error (.error "could not decode result data")

/-- An interface that decodes the data of a registry with the two relayers. -/
def sampleInterface : RegistryInterface where
  encodeFunctionData _ _ := "0x"
  relayerCount text := decoder [(dataOf [wordDigits 2], 2)] (toLowerCase text)
  topologyFingerprint := decoder [(fingerprintData, sampleFingerprint)]
  relayers := decoder [(firstData, sampleRelayer 0x11 "u1"), (secondData, sampleRelayer 0x22 "u2"),
    (notRegisteredData, notRegistered)]
  getNodeRole := decoder ((List.range 3).map fun role => (dataOf [wordDigits role], role))
  registrationTopics := []

/-- One item of a reply. -/
def replyItem (id : ℕ) (result : Json) : Json :=
  .object [("id", .number (.integer id)), ("result", result)]

/-- One item of a reply with data. -/
def dataItem (id : ℕ) (digits : List Char) : Json := replyItem id (.string (String.ofList digits))

/-- The block at which the registry is read. -/
def sampleFinal : FinalizedBlock := ⟨String.ofList ('0' :: 'x' :: List.replicate 64 'a'), 16, 32⟩

/-- The block in a reply. -/
def sampleBlock : Json := .object
  [("hash", .string sampleFinal.hash), ("number", .string "0x10"), ("timestamp", .string "0x20")]

/-- What a provider answers about a registry with a relay and an exit. -/
def sampleItems : List Json :=
  [replyItem 1 sampleBlock, replyItem 2 (.string "0x1"), dataItem 3 (dataOf [wordDigits 0]),
    dataItem 4 (dataOf [wordDigits 2]), dataItem 5 fingerprintData, dataItem 6 firstData,
    dataItem 7 (dataOf [wordDigits 1]), dataItem 8 secondData, dataItem 9 (dataOf [wordDigits 2])]

/-- An address of one digit. -/
def sampleAddress (digit : Char) : String := String.ofList ('0' :: 'x' :: List.replicate 40 digit)

/-- Two exits and two providers that answer about the two relayers. -/
def sampleContext : ChainCheckContext where
  bootstrap := ⟨1, sampleAddress '0', sampleAddress '0', 60⟩
  providers := ["https://a.io", "https://b.io"]
  quorum := 2
  exits := ["e1", "e2"]
  candidates := [sampleAddress '1', sampleAddress '2']
  core := []
  minBlock := 16
  logsFromBlock := 0
  nowUnix := 40
  send site _ _ _ _ :=
    match site with
    | .finalizedBlock _ => .ok (some (replyItem 1 sampleBlock))
    | _ => .ok (some (.array sampleItems))
  randomIndex _ := 0

/-- The two relayers, as the client sees them. -/
def sampleProfiles : List ChainProfile :=
  [chainProfile (sampleAddress '1') (sampleRelayer 0x11 "u1") 1,
    chainProfile (sampleAddress '2') (sampleRelayer 0x22 "u2") 2]

/-- The membership of the two relayers. -/
def sampleMembership : ChainMembership :=
  ⟨sampleFinal, bytesToHex sampleFingerprint, 2, sampleProfiles⟩

/-- The pairs that the draws choose. -/
def samplePairs : List ReadPair := [⟨"e2", "https://b.io"⟩, ⟨"e1", "https://a.io"⟩]

/-- The read over the two candidates. -/
def samplePlan : RegistryReadPlan where
  registry := sampleContext.bootstrap.registry
  block := sampleFinal
  candidates := [sampleAddress '1', sampleAddress '2']
  calls := [⟨1, .blockByHash⟩, ⟨2, .chainId⟩, ⟨3, .implementationSlot⟩, ⟨4, .relayerCount⟩,
    ⟨5, .topologyFingerprint⟩, ⟨6, .relayers (sampleAddress '1')⟩,
    ⟨7, .getNodeRole (sampleAddress '1')⟩, ⟨8, .relayers (sampleAddress '2')⟩,
    ⟨9, .getNodeRole (sampleAddress '2')⟩]

/-- The answer that both replies are parsed to. -/
def sampleAnswer : RegistryAnswer :=
  registryAnswer sampleFinal 1 (dataOf [wordDigits 0]) 2 sampleFingerprint
    [⟨sampleAddress '1', firstData, dataOf [wordDigits 1],
      some (chainProfile (sampleAddress '1') (sampleRelayer 0x11 "u1") 1)⟩,
      ⟨sampleAddress '2', secondData, dataOf [wordDigits 2],
        some (chainProfile (sampleAddress '2') (sampleRelayer 0x22 "u2") 2)⟩]

private theorem samplePlan_eq : registryReadPlan sampleContext.bootstrap.registry sampleFinal
    (sampleContext.candidates.take maxCandidates) = .ok samplePlan := by
  have hunique : Js.unique ((sampleContext.candidates.take maxCandidates).map toLowerCase) =
      [sampleAddress '1', sampleAddress '2'] := by decide +kernel
  have hsorted : [sampleAddress '1', sampleAddress '2'].Pairwise
      fun a b => decide (a ≤ b) = true := by decide +kernel
  have hlower : [sampleAddress '1', sampleAddress '2'].find?
      (fun address => !isLowerAddress address) = none := by decide +kernel
  rw [registryReadPlan, hunique, List.mergeSort_of_pairwise hsorted, hlower]
  rfl

private theorem decoder_eq {α : Type} {known : List (List Char × α)} {digits : List Char}
    {value : α} (h : known.lookup digits = some value) :
    decoder known (String.ofList digits) = .ok value := by
  rw [decoder, String.toList_ofList, h]

/-- Data in lower case is parsed to its digits. -/
private theorem lowerText_data {digits : List Char} (h : digits.map Char.toLower = digits) :
    lowerText (some (.string (String.ofList digits))) = digits := by
  rw [lowerText, toLowerCase, String.toList_ofList, String.toList_ofList, h]

private theorem parseData_sample {digits : List Char} (what : String)
    (hlower : digits.map Char.toLower = digits) (hdata : isData digits = true) :
    parseData (some (.string (String.ofList digits))) what = .ok digits := by
  rw [parseData, lowerText_data hlower, hdata]
  rfl

private theorem parseCandidate_sample {results : OrderedMap JsonNumber Json} {address : String}
    {index : ℕ} {profile role : List Char} {relayer : RelayersResult} {nodeRole : ℕ}
    (hprofile : resultOf results (6 + index * 2) = some (.string (String.ofList profile)))
    (hrole : resultOf results (7 + index * 2) = some (.string (String.ofList role)))
    (hdata : ∀ digits ∈ [profile, role],
      digits.map Char.toLower = digits ∧ isData digits = true)
    (hrelayer : [(firstData, sampleRelayer 0x11 "u1"), (secondData, sampleRelayer 0x22 "u2"),
      (notRegisteredData, notRegistered)].lookup profile = some relayer)
    (hnodeRole : ((List.range 3).map fun role => (dataOf [wordDigits role], role)).lookup role =
      some nodeRole)
    (hregistered : relayer.isRegistered = true) :
    parseCandidate sampleInterface results (address, index) =
      .ok ⟨address, profile, role, some (chainProfile address relayer nodeRole)⟩ := by
  obtain ⟨hprofile_lower, hprofile_data⟩ := hdata profile (by simp)
  obtain ⟨hrole_lower, hrole_data⟩ := hdata role (by simp)
  simp only [parseCandidate, hprofile, hrole, parseData_sample _ hprofile_lower hprofile_data,
    parseData_sample _ hrole_lower hrole_data, ok_bind, decodeOne, sampleInterface,
    decoder_eq hrelayer, decoder_eq hnodeRole, hregistered, if_true]
  rfl

private theorem parse_sample : parseRegistryAnswer sampleInterface samplePlan
    (some (.array sampleItems)) = .ok sampleAnswer := by
  have hcomplete : (batchResults (some (.array sampleItems)) samplePlan.calls.length).toBool =
      true := by decide +kernel
  obtain ⟨results, hresults⟩ : ∃ results, batchResults (some (.array sampleItems))
      samplePlan.calls.length = .ok results := by
    cases hbatch : batchResults (some (.array sampleItems)) samplePlan.calls.length with
    | ok results => exact ⟨results, rfl⟩
    | error error =>
      rw [hbatch] at hcomplete
      cases hcomplete
  have hresult : ∀ id value, replyItem id value ∈ sampleItems →
      resultOf results id = some value := fun id value hitem =>
    batchResults_ok hresults _ hitem _ _ rfl rfl
  have hdata : ∀ id digits, dataItem id digits ∈ sampleItems →
      resultOf results id = some (.string (String.ofList digits)) :=
    fun id digits hitem => hresult id _ hitem
  have hblock : parseBlock (some sampleBlock) "eth_getBlockByHash" = .ok sampleFinal := by
    decide +kernel
  have hfinal : sampleFinal = samplePlan.block := rfl
  have hchain : parseQuantity (some (.string "0x1")) "eth_chainId" = .ok 1 := by decide +kernel
  have hslot : (dataOf [wordDigits 0]).length = 66 := by decide +kernel
  have hcount : sampleInterface.relayerCount (String.ofList (dataOf [wordDigits 2])) = .ok 2 := by
    dsimp only [sampleInterface]
    rw [toLowerCase, String.toList_ofList]
    exact decoder_eq (by decide +kernel)
  have hfingerprint : sampleInterface.topologyFingerprint (String.ofList fingerprintData) =
      .ok sampleFingerprint := by
    dsimp only [sampleInterface]
    exact decoder_eq (by decide +kernel)
  have hfirst : parseCandidate sampleInterface results (sampleAddress '1', 0) =
      .ok ⟨sampleAddress '1', firstData, dataOf [wordDigits 1],
        some (chainProfile (sampleAddress '1') (sampleRelayer 0x11 "u1") 1)⟩ :=
    parseCandidate_sample (hdata 6 firstData (by simp [sampleItems]))
      (hdata 7 (dataOf [wordDigits 1]) (by simp [sampleItems])) (by decide +kernel)
      (by decide +kernel) (by decide +kernel) rfl
  have hsecond : parseCandidate sampleInterface results (sampleAddress '2', 1) =
      .ok ⟨sampleAddress '2', secondData, dataOf [wordDigits 2],
        some (chainProfile (sampleAddress '2') (sampleRelayer 0x22 "u2") 2)⟩ :=
    parseCandidate_sample (hdata 8 secondData (by simp [sampleItems]))
      (hdata 9 (dataOf [wordDigits 2]) (by simp [sampleItems])) (by decide +kernel)
      (by decide +kernel) (by decide +kernel) rfl
  rw [parseRegistryAnswer, hresults, ok_bind, hresult 1 sampleBlock (by simp [sampleItems]), hblock,
    ok_bind, if_neg (not_not.mpr hfinal), hresult 2 (.string "0x1") (by simp [sampleItems]), hchain,
    ok_bind, hdata 3 (dataOf [wordDigits 0]) (by simp [sampleItems]),
    parseData_sample _ (by decide +kernel) (by decide +kernel), ok_bind,
    if_neg (not_not.mpr hslot), hdata 4 (dataOf [wordDigits 2]) (by simp [sampleItems]), decodeOne]
  dsimp only
  rw [hcount]
  dsimp only
  rw [ok_bind, hdata 5 fingerprintData (by simp [sampleItems]), decodeOne, hfingerprint]
  dsimp only
  rw [ok_bind, if_neg (by decide +kernel), samplePlan, List.zipIdx_cons, List.zipIdx_cons,
    List.zipIdx_nil, List.mapM_cons, List.mapM_cons, List.mapM_nil, hfirst, hsecond]
  rfl

private theorem closeMembership_sample :
    closeMembership sampleDigests sampleAnswer sampleContext.bootstrap = .ok sampleMembership := by
  have hmembers : sampleAnswer.members.values = sampleProfiles :=
    values_registryAnswer (by decide +kernel)
  have hsorted : sampleProfiles.Pairwise fun a b => decide (a.address ≤ b.address) = true := by
    decide +kernel
  have hdigest : computeTopologyFingerprint sampleDigests (sampleProfiles.map fingerprintNode) =
      .ok (bytesToHex sampleFingerprint) := by
    decide +kernel
  have himplementation : sampleAnswer.implementation = sampleContext.bootstrap.registryImpl := by
    decide +kernel
  have hchain : sampleAnswer.chainId = sampleContext.bootstrap.chainId := rfl
  rw [closeMembership, if_neg (not_not.mpr hchain), if_neg (not_not.mpr himplementation), hmembers,
    List.mergeSort_of_pairwise hsorted]
  dsimp only
  rw [if_neg (by decide +kernel), hdigest, liftThrown, ok_bind, if_neg (by decide +kernel)]
  rfl

private theorem readAll_sample (expectedBytes : ℕ) :
    readAll sampleContext (.registry 1 false) samplePairs (planBodies sampleInterface samplePlan)
      expectedBytes (parseRegistryAnswer sampleInterface samplePlan) =
        .ok [sampleAnswer, sampleAnswer] := by
  have hread : ∀ index pair, readPair sampleContext (.registry 1 false index)
      (planBodies sampleInterface samplePlan) expectedBytes
      (parseRegistryAnswer sampleInterface samplePlan) pair = .ok sampleAnswer := by
    intro index pair
    have hbodies : planBodies sampleInterface samplePlan =
        [batchBody sampleInterface samplePlan samplePlan.calls] := rfl
    have hsent : (fun entry : Json × ℕ => liftThrown (sampleContext.send (.registry 1 false index
        entry.2) pair.exit pair.provider entry.1 expectedBytes)) =
          fun _ => .ok (some (.array sampleItems)) := rfl
    rw [readPair, hbodies, hsent, List.zipIdx_cons, List.zipIdx_nil, List.mapM_cons, List.mapM_nil,
      ok_bind, pure_bind, pure_bind, joinReplies]
    exact parse_sample
  rw [readAll]
  simp only [hread]
  rfl

private theorem readRegistry_sample :
    readRegistry sampleDigests sampleInterface sampleContext 1 samplePairs sampleFinal
      (sampleContext.candidates.take maxCandidates) false
      = .ok (.settled (.done (.verified sampleMembership samplePairs 1 false))) := by
  have hsame : ∀ text, answersAgree [text, text] = true := by simp [answersAgree]
  have hagree : answersAgree ([sampleAnswer, sampleAnswer].map (·.canonical)) = true := hsame _
  rw [readRegistry, samplePlan_eq, ok_bind]
  dsimp only
  rw [readAll_sample]
  dsimp only
  rw [hagree, closeMembership_sample]
  rfl

private theorem sampleContext_run :
    runChainCheck sampleDigests sampleInterface sampleContext ⟨∅, ∅⟩
      = .ok (.verified sampleMembership samplePairs 1 false, ⟨∅, ∅⟩) := by
  have hpairs : choosePairs sampleContext ⟨∅, ∅⟩ 1 = some samplePairs := by decide +kernel
  have hblock : finalizedBlock sampleContext 1 ⟨"e2", "https://b.io"⟩ = .ok sampleFinal := by
    decide +kernel
  have hpairing : pairing sampleDigests sampleInterface sampleContext 1 samplePairs
      = .ok (.done (.verified sampleMembership samplePairs 1 false)) := by
    rw [samplePairs, pairing, hblock]
    dsimp only
    rw [readMembership, ← samplePairs, readRegistry_sample]
    rfl
  rw [runChainCheck, discoveryPairingBudget, runAttempts]
  dsimp only [discoveryPairingBudget]
  rw [hpairs]
  dsimp only
  rw [hpairing]
  rfl

/-- A registry with a relay and an exit. -/
def sampleState : RegistryState where
  relayerCount := 2
  relayers address :=
    if address = sampleAddress '1' then sampleRelayer 0x11 "u1"
    else if address = sampleAddress '2' then sampleRelayer 0x22 "u2"
    else notRegistered
  nodeRole address :=
    if address = sampleAddress '1' then 1 else if address = sampleAddress '2' then 2 else 0
  registered := {sampleAddress '1', sampleAddress '2'}
  isLowerAddress_of_mem := by decide +kernel
  isRegistered_iff address _ := by
    rw [Finset.mem_insert, Finset.mem_singleton]
    split_ifs with hfirst hsecond <;> simp [*, sampleRelayer, notRegistered]

/-- Its data. -/
def sampleData : RegistryData sampleInterface sampleState where
  relayerCount := String.ofList (dataOf [wordDigits 2])
  relayers address := String.ofList <|
    if address = sampleAddress '1' then firstData
    else if address = sampleAddress '2' then secondData
    else notRegisteredData
  nodeRole address := String.ofList <| dataOf [wordDigits <|
    if address = sampleAddress '1' then 1 else if address = sampleAddress '2' then 2 else 0]
  decode_relayerCount text h := by
    dsimp only [sampleInterface, sampleState]
    rw [h]
    exact decoder_eq (by decide +kernel)
  decode_relayers address := by
    dsimp only [sampleInterface, sampleState]
    refine decoder_eq ?_
    split_ifs <;> decide +kernel
  decode_nodeRole address := by
    dsimp only [sampleInterface, sampleState]
    refine decoder_eq ?_
    split_ifs <;> decide +kernel

/-- Every call of the plan is answered with the data of the state. -/
private theorem sampleItems_answer : ∀ call ∈ samplePlan.calls,
    sampleData.Answers sampleItems call := by
  have hitem : ∀ (call : PlannedCall) (digits : List Char), dataItem call.id digits ∈ sampleItems →
      digits.map Char.toLower = digits →
      sampleData.result call.query = some (String.ofList digits) →
      sampleData.Answers sampleItems call := by
    intro call digits hmem hlower hresult result hdata
    obtain rfl := Option.some.inj (hresult.symm.trans hdata)
    refine ⟨_, hmem, String.ofList digits, rfl, rfl, ?_⟩
    rw [toLowerCase, String.toList_ofList, hlower]
  have hsecond : sampleAddress '2' ≠ sampleAddress '1' := by decide +kernel
  intro call hcall
  simp only [samplePlan, List.mem_cons, List.not_mem_nil, or_false] at hcall
  rcases hcall with rfl | rfl | rfl | rfl | rfl | rfl | rfl | rfl | rfl
  · exact nofun
  · exact nofun
  · exact nofun
  · exact hitem _ (dataOf [wordDigits 2]) (by simp [sampleItems]) (by decide +kernel) rfl
  · exact nofun
  · exact hitem _ firstData (by simp [sampleItems]) (by decide +kernel)
      (by simp [RegistryData.result, sampleData])
  · exact hitem _ (dataOf [wordDigits 1]) (by simp [sampleItems]) (by decide +kernel)
      (by simp [RegistryData.result, sampleData])
  · exact hitem _ secondData (by simp [sampleItems]) (by decide +kernel)
      (by simp [RegistryData.result, sampleData, hsecond])
  · exact hitem _ (dataOf [wordDigits 2]) (by simp [sampleItems]) (by decide +kernel)
      (by simp [RegistryData.result, sampleData, hsecond])

/-- Two pairs that tell the truth about a registry with a relay and an exit, both of them among the
candidates. -/
theorem runChainCheck_verified_two_relayers :
    Distinct 2 samplePairs ∧ checkBlockWindow sampleMembership.block sampleContext = .ok () ∧
      sampleState.IsMembership sampleMembership := by
  obtain ⟨hdistinct, hwindow, plan, expectedBytes, answer, hread, hmembership⟩ :=
    runChainCheck_verified sampleContext_run
  have hne : sampleAddress '1' ≠ sampleAddress '2' := by decide +kernel
  have hcount : sampleState.relayerCount = sampleState.registered.card := by
    dsimp only [sampleState]
    rw [Finset.card_pair hne]
  refine ⟨hdistinct, hwindow, hmembership sampleState sampleData hcount ?_⟩
  refine ⟨(⟨"e2", "https://b.io"⟩, 0), List.mem_cons_self, fun index calls reply hcalls hsend => ?_⟩
  refine ⟨sampleItems, (Except.ok.inj hsend).symm, fun call hcall => ?_⟩
  obtain ⟨candidates, hcandidates, hplan⟩ := hread.plan_ok
  have hmem : call ∈ plan.calls := by
    rw [← @flatten_chunks _ discoveryMaxBatchCalls (by decide) plan.calls]
    exact List.mem_flatten.mpr ⟨calls, List.mem_of_getElem? hcalls, hcall⟩
  rw [hcandidates rfl] at hplan
  obtain rfl := Except.ok.inj (hplan.symm.trans samplePlan_eq)
  exact sampleItems_answer call hmem

end Sample

end NoxSdk.Kps
