import NoxSdk.Kps.RegistryAnswer

/-!
# The registry behind the answers

`RegistryState` is what the registry contract holds at a block, and `RegistryData` the data in which
`eth_call` returns it. The replies of a truthful pair hold, for every call it was sent, the data of
the state.

`mem_registered_of_truthful`: if such replies parse to an answer that closes, then the
membership holds the registered relayers of the state and no other. The candidates found
registered are some of the registered relayers, and closing says that they are as many.
-/

namespace NoxSdk.Kps

open Js (Json JsonNumber toLowerCase)
open NoxSdk.Topology

/-! ### The state and its data -/

/-- What the registry holds at a block. -/
structure RegistryState where
  relayerCount : ℕ
  relayers : String → RelayersResult
  nodeRole : String → ℕ
  /-- The registered addresses, in lower case. -/
  registered : Finset String
  isLowerAddress_of_mem : ∀ address ∈ registered, isLowerAddress address = true
  isRegistered_iff : ∀ address, isLowerAddress address = true →
    ((relayers address).isRegistered = true ↔ address ∈ registered)

/-- The profile of a relayer. -/
def RegistryState.profile (state : RegistryState) (address : String) : ChainProfile :=
  chainProfile address (state.relayers address) (state.nodeRole address)

/-- The profile of an address, when it is registered. -/
def RegistryState.member (state : RegistryState) (address : String) : Option ChainProfile :=
  memberProfile address (state.relayers address) (state.nodeRole address)

/-- The data in which the contract returns what a state holds, in lower case; the interface decodes
it. -/
structure RegistryData (abi : RegistryInterface) (state : RegistryState) where
  relayerCount : String
  relayers : String → String
  nodeRole : String → String
  decode_relayerCount : ∀ text, toLowerCase text = relayerCount →
    abi.relayerCount text = .ok state.relayerCount
  decode_relayers : ∀ address, abi.relayers (relayers address) = .ok (state.relayers address)
  decode_nodeRole : ∀ address, abi.getNodeRole (nodeRole address) = .ok (state.nodeRole address)

section Truth

variable {abi : RegistryInterface} {state : RegistryState} (data : RegistryData abi state)

/-- The data that a call of the registry returns. -/
def RegistryData.result : RegistryQuery → Option String
  | .relayerCount => some data.relayerCount
  | .relayers address => some (data.relayers address)
  | .getNodeRole address => some (data.nodeRole address)
  | _ => none

/-- A batch reply holds the data that a call of the registry returns, in any letter case. -/
def RegistryData.Answers (items : List Json) (call : PlannedCall) : Prop :=
  ∀ result, data.result call.query = some result →
    ∃ item ∈ items, ∃ text, item.field "id" = some (.number (.integer call.id)) ∧
      item.field "result" = some (.string text) ∧ toLowerCase text = result

end Truth

/-! ### A plan -/

theorem registryReadPlan_ok {registry : String} {block : FinalizedBlock} {candidates : List String}
    {plan : RegistryReadPlan} (h : registryReadPlan registry block candidates = .ok plan) :
    plan.block = block ∧ plan.candidates.Nodup ∧
      (∀ address ∈ plan.candidates, isLowerAddress address = true) ∧
      (⟨4, .relayerCount⟩ : PlannedCall) ∈ plan.calls ∧
      ∀ entry ∈ plan.candidates.zipIdx, ∀ call ∈ candidateCalls entry.1 entry.2,
        call ∈ plan.calls := by
  rw [registryReadPlan] at h
  split_ifs at h with hmany
  split at h
  · cases h
  next hfind =>
    obtain rfl := Except.ok.inj h
    refine ⟨rfl, ?_, fun address haddress => ?_, by simp, fun entry hentry call hcall => ?_⟩
    · exact (List.mergeSort_perm _ _).nodup_iff.mpr (Js.nodup_unique _)
    · simpa using List.find?_eq_none.mp hfind address haddress
    · exact List.mem_append_right _ (List.mem_flatMap.mpr ⟨entry, hentry, hcall⟩)

/-! ### The answer of a truthful pair -/

section Answer

variable {abi : RegistryInterface} {state : RegistryState} {data : RegistryData abi state}
  {plan : RegistryReadPlan} {results : OrderedMap JsonNumber Json} {items : List Json}

theorem resultOf_of_answers {expected : ℕ} {call : PlannedCall} {result : String}
    (hresults : batchResults (some (.array items)) expected = .ok results)
    (htruth : data.Answers items call) (hdata : data.result call.query = some result) :
    ∃ text, resultOf results call.id = some (.string text) ∧ toLowerCase text = result := by
  obtain ⟨item, hitem, text, hid, hresult, htext⟩ := htruth result hdata
  exact ⟨text, batchResults_ok hresults item hitem _ _ hid hresult, htext⟩

/-- The members of an answer, in the order of the candidates. -/
theorem values_registryAnswer {answers : List CandidateAnswer}
    (h : (answers.map (·.address)).Nodup) :
    (answers.foldl addMember .empty).values = answers.filterMap (·.profile) := by
  have hfold : ∀ (l : List CandidateAnswer) (members : OrderedMap String ChainProfile),
      (l.map (·.address)).Nodup → (∀ answer ∈ l, members.get? answer.address = none) →
      (l.foldl addMember members).values = members.values ++ l.filterMap (·.profile) := by
    intro l
    induction l with
    | nil => simp
    | cons answer rest ih =>
      intro members hnodup hfresh
      rw [List.map_cons, List.nodup_cons] at hnodup
      rw [List.foldl_cons, addMember]
      cases hprofile : answer.profile with
      | none =>
        rw [List.filterMap_cons_none hprofile]
        exact ih members hnodup.2 fun a ha => hfresh a (List.mem_cons_of_mem _ ha)
      | some profile =>
        rw [List.filterMap_cons_some hprofile, ih _ hnodup.2]
        · rw [OrderedMap.values, OrderedMap.entries_set_of_not_has (hfresh _ List.mem_cons_self),
            List.map_append, OrderedMap.values, List.append_assoc]
          rfl
        · intro a ha
          rw [OrderedMap.get?_set, if_neg, hfresh a (List.mem_cons_of_mem _ ha)]
          rintro heq
          exact hnodup.1 (heq ▸ List.mem_map_of_mem ha)
  exact hfold answers .empty h fun _ _ => rfl

/-- A reply about a candidate gives what the state holds for it. -/
theorem profile_of_truthful {expected : ℕ} {entry : String × ℕ} {answer : CandidateAnswer}
    (hresults : batchResults (some (.array items)) expected = .ok results)
    (htruth : ∀ call ∈ candidateCalls entry.1 entry.2, data.Answers items call)
    (h : parseCandidate abi results entry = .ok answer) :
    answer.profile = state.member entry.1 := by
  obtain ⟨haddress, hreplies, hprofileHex, hroleHex⟩ := parseCandidate_ok h
  obtain ⟨profile, role, hprofile, hrole, hanswer⟩ := hreplies.profile_eq
  obtain ⟨profileText, hprofileResult, hprofileText⟩ :=
    resultOf_of_answers hresults (htruth _ List.mem_cons_self) rfl
  obtain ⟨roleText, hroleResult, hroleText⟩ :=
    resultOf_of_answers hresults (htruth _ (List.mem_cons_of_mem _ List.mem_cons_self)) rfl
  rw [hprofileHex, hprofileResult, lowerText, String.ofList_toList, hprofileText,
    data.decode_relayers] at hprofile
  rw [hroleHex, hroleResult, lowerText, String.ofList_toList, hroleText,
    data.decode_nodeRole] at hrole
  rw [hanswer, haddress, ← Except.ok.inj hprofile, ← Except.ok.inj hrole, RegistryState.member]

/-- The number of relayers in the answer of a truthful pair. -/
theorem Parsed.relayerCount_of_truthful {expected : ℕ} (parsed : Parsed abi plan results)
    (hresults : batchResults (some (.array items)) expected = .ok results)
    (htruth : data.Answers items ⟨4, .relayerCount⟩) :
    parsed.answer.relayerCount = state.relayerCount := by
  obtain ⟨sent, hsent, hdecode⟩ := parsed.decode_count
  obtain ⟨text, hresult, htext⟩ := resultOf_of_answers hresults htruth rfl
  obtain rfl : sent = text := by
    simpa using hsent.symm.trans hresult
  rw [data.decode_relayerCount _ htext] at hdecode
  have hcount : state.relayerCount = parsed.count := Except.ok.inj hdecode
  exact (Js.number_of_number_lt parsed.count_lt).trans hcount.symm

/-- The candidates that the state holds as registered. -/
def RegistryState.found (state : RegistryState) (candidates : List String) : List String :=
  candidates.filter fun address => decide (address ∈ state.registered)

theorem filterMap_member {candidates : List String}
    (h : ∀ address ∈ candidates, isLowerAddress address = true) :
    candidates.filterMap state.member = (state.found candidates).map state.profile := by
  induction candidates with
  | nil => rfl
  | cons address rest ih =>
    obtain ⟨haddress, hrest⟩ := List.forall_mem_cons.mp h
    have hregistered := state.isRegistered_iff address haddress
    rw [RegistryState.found] at ih ⊢
    by_cases hmem : address ∈ state.registered
    · have hprofile : state.member address = some (state.profile address) :=
        if_pos (hregistered.mpr hmem)
      rw [List.filterMap_cons_some hprofile, List.filter_cons_of_pos (by simpa using hmem),
        List.map_cons, ih hrest]
    · have hprofile : state.member address = none := if_neg (mt hregistered.mp hmem)
      rw [List.filterMap_cons_none hprofile, List.filter_cons_of_neg (by simpa using hmem),
        ih hrest]

/-- The members in the answer of a truthful pair. -/
theorem Parsed.values_of_truthful {expected : ℕ} (parsed : Parsed abi plan results)
    (hresults : batchResults (some (.array items)) expected = .ok results)
    (hlower : ∀ address ∈ plan.candidates, isLowerAddress address = true)
    (hnodup : plan.candidates.Nodup)
    (htruth : ∀ entry ∈ plan.candidates.zipIdx, ∀ call ∈ candidateCalls entry.1 entry.2,
      data.Answers items call) :
    parsed.answer.members.values = (state.found plan.candidates).map state.profile := by
  have hprofiles : List.Forall₂ Eq (parsed.answers.map (·.profile))
      (plan.candidates.zipIdx.map fun entry => state.member entry.1) := by
    rw [List.forall₂_map_left_iff, List.forall₂_map_right_iff]
    refine List.Forall₂.flip ?_
    refine List.forall₂_iff_get.mpr ⟨parsed.forall₂_answers.length_eq, fun index hl hr => ?_⟩
    exact profile_of_truthful hresults (htruth _ (List.get_mem _ _))
      (parsed.forall₂_answers.get hl hr)
  rw [List.forall₂_eq_eq_eq] at hprofiles
  rw [← filterMap_member hlower, Parsed.answer, registryAnswer,
    values_registryAnswer (parsed.map_address ▸ hnodup)]
  calc parsed.answers.filterMap (·.profile)
      = (parsed.answers.map (·.profile)).filterMap id := by rw [List.filterMap_map]; rfl
    _ = ((plan.candidates.zipIdx.map Prod.fst).map state.member).filterMap id := by
      rw [hprofiles, List.map_map]
      rfl
    _ = plan.candidates.filterMap state.member := by
      rw [List.zipIdx_map_fst, List.filterMap_map]
      rfl

end Answer

/-! ### Closing -/

theorem closeMembership_ok {hashes : Hashes} {answer : RegistryAnswer} {bootstrap : KpsBootstrap}
    {membership : ChainMembership} (h : closeMembership hashes answer bootstrap = .ok membership) :
    membership.block = answer.block ∧ membership.registered.Perm answer.members.values ∧
      membership.registered.length = answer.relayerCount := by
  rw [closeMembership] at h
  split_ifs at h with hchain himplementation
  dsimp only at h
  split_ifs at h with hfew
  obtain ⟨computed, -, h⟩ := bind_eq_ok_iff.mp h
  split_ifs at h with hclosed
  obtain rfl := Except.ok.inj h
  rw [not_or, ne_eq, ne_eq, not_not, not_not] at hclosed
  exact ⟨rfl, List.mergeSort_perm _ _, hclosed.1⟩

/-- A membership that holds the registered relayers of a state and nothing else. -/
structure RegistryState.IsMembership (state : RegistryState) (membership : ChainMembership) :
    Prop where
  mem_iff : ∀ profile, profile ∈ membership.registered ↔
    ∃ address ∈ state.registered, profile = state.profile address
  nodup : (membership.registered.map (·.address)).Nodup

/-- An answer with the truth of a state closes only with all of its relayers. -/
theorem isMembership_of_truthful {abi : RegistryInterface} {state : RegistryState}
    {data : RegistryData abi state} {hashes : Hashes} {bootstrap : KpsBootstrap} {registry : String}
    {block : FinalizedBlock} {candidates : List String} {plan : RegistryReadPlan}
    {items : List Json} {answer : RegistryAnswer} {membership : ChainMembership}
    (hplan : registryReadPlan registry block candidates = .ok plan)
    (hanswer : parseRegistryAnswer abi plan (some (.array items)) = .ok answer)
    (htruth : ∀ call ∈ plan.calls, data.Answers items call)
    (hcount : state.relayerCount = state.registered.card)
    (hclose : closeMembership hashes answer bootstrap = .ok membership) :
    state.IsMembership membership := by
  obtain ⟨-, hnodup, hlower, hcall, hcalls⟩ := registryReadPlan_ok hplan
  obtain ⟨results, hresults, parsed, rfl⟩ := parseRegistryAnswer_ok hanswer
  obtain ⟨-, hperm, hlength⟩ := closeMembership_ok hclose
  rw [parsed.values_of_truthful hresults hlower hnodup fun entry hentry call hmem =>
    htruth call (hcalls entry hentry call hmem)] at hperm
  rw [parsed.relayerCount_of_truthful hresults (htruth _ hcall), hcount] at hlength
  have hfound_nodup : (state.found plan.candidates).Nodup := hnodup.filter _
  -- as many candidates are registered as there are registered relayers, so they are all of them
  have hfound : (state.found plan.candidates).toFinset = state.registered := by
    refine Finset.eq_of_subset_of_card_le (fun address haddress => ?_) ?_
    · exact of_decide_eq_true (List.mem_filter.mp (List.mem_toFinset.mp haddress)).2
    · rw [List.toFinset_card_of_nodup hfound_nodup, ← hlength, hperm.length_eq, List.length_map]
  constructor
  · intro profile
    rw [hperm.mem_iff, List.mem_map, ← hfound]
    simp only [List.mem_toFinset, eq_comm]
  · have haddresses :
        (membership.registered.map (·.address)).Perm (state.found plan.candidates) := by
      refine (hperm.map _).trans (List.Perm.of_eq ?_)
      rw [List.map_map]
      exact (List.map_congr_left fun _ _ => rfl).trans (List.map_id _)
    exact haddresses.nodup_iff.mpr hfound_nodup

end NoxSdk.Kps
