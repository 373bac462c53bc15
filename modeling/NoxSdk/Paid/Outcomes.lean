import NoxSdk.Paid.Submissions

/-!
# Unknown results

A run that does not know what became of its submissions says until when they can settle. What it
says is the end of the quote at hand. An attempt that ends as not paid is followed by the final read
of the evidence, whose quote is the longest one; an attempt that ends as unknown is returned as it
is, and its quote is the one submitted last. So an unknown result covers every quote of the run
exactly when the attempt ended as not paid or the quote submitted last is the longest
(`unknown_covers_iff`).
-/

namespace NoxSdk.Paid

open NoxSdk.Lib
open NoxSdk.Lib.Prog
open Bincode (ExecutionQuoteV1 PaidTransactionOutcomeV2)

variable {ethers : Ethers} {options : ExecutePaidOptions} {settings : Settings}
  {context : Context} {st : LoopState} {events history trace : List Event} {polls rounds : ℕ}

/-- The result is unknown and says until when a submission can settle. -/
def ExecutePaidResult.Until (until_ : ℤ) (result : ExecutePaidResult) : Prop :=
  ∃ id detail, result = .unknown id (some until_) detail

/-- The quote submitted last is the one that the result is about. -/
def EndsWith (events : List Event) (until_ : ℤ) : Prop :=
  ∃ earlier last, deliveries events = earlier ++ [last] ∧ last.validUntilUnix = until_

theorem not_until_settledResult {settlement : PaidSettlement} {gas until_ : ℤ} :
    ¬(settledResult settlement gas).Until until_ := by
  rintro ⟨id, detail, h⟩
  rw [settledResult] at h
  split at h
  all_goals cases h

/-- The chain's word on a consumed payment comes without an end. -/
theorem ConsumedRead.not_until {result : ExecutePaidResult} {until_ : ℤ}
    (h : ConsumedRead ethers settings events result) : ¬result.Until until_ := by
  rintro ⟨id, detail, rfl⟩
  obtain ⟨-, -, -, hresumed⟩ := h
  rcases hresumed with ⟨_, _, hnone⟩ | ⟨settlement, settled, -, ⟨-, _, hnot⟩ | ⟨-, hsettled⟩⟩
  · cases hnone
  · cases hnot
  · exact not_until_settledResult ⟨id, detail, hsettled.symm⟩

theorem ExecutePaidResult.BeforeSubmission.not_until {result : ExecutePaidResult} {until_ : ℤ}
    (h : result.BeforeSubmission) : ¬result.Until until_ := by
  rintro ⟨id, detail, rfl⟩
  exact h

/-- A round that ends the run with an end names the end of the quote that it submitted. -/
theorem Round.until {result : ExecutePaidResult} {submitted : List SubmittedQuote} {until_ : ℤ}
    (h : Round ethers context st polls events (.error (.returned result submitted)))
    (huntil : result.Until until_) : EndsWith (history ++ events) until_ := by
  have hsubmitted := h.submitted_eq.2 result submitted rfl
  generalize hr : (.error (.returned result submitted) : Except Abrupt LoopState) = r at h
  cases h with
  | unasked hquiet hearly =>
    cases hr
    exact absurd huntil hearly.1.not_until
  | unanswered => cases hr
  | failed hquiet hstep =>
    cases hr
    obtain ⟨_, _, hnot⟩ := huntil
    cases hnot
  | left hquiet hstep hchecks hearly =>
    cases hr
    exact absurd huntil hearly.1.not_until
  | @submitted before plan request exit reply issued next checks typed calldata outcome after r
      hquiet hplanned hstep hchecks htyped hchecked hafter =>
    subst hr
    rcases afterSubmit_cases hafter with
      ⟨-, reason, hr⟩ | ⟨hsent, _, rfl, hr | ⟨_, hr, -⟩ | ⟨_, hr, hresult⟩⟩
    · cases hr
      obtain ⟨_, _, hnot⟩ := huntil
      cases hnot
    · cases hr
    · cases hr
    · cases hr
      -- of the ends of a submission only the unknown one names a time
      have hend : (issued.quote.validUntilUnix : ℤ) = until_ := by
        rcases hresult with ⟨_, _, rfl⟩ | hconsumed | ⟨_, settlement, gas, -, -, rfl⟩
        · obtain ⟨_, _, heq⟩ := huntil
          cases heq
          rfl
        · exact absurd huntil hconsumed.not_until
        · exact absurd huntil not_until_settledResult
      rw [(quoteStep_issued hstep).2.1] at hsubmitted
      refine ⟨deliveries history, ⟨hexlify issued.executionId, issued.quote.validUntilUnix⟩, ?_,
        hend⟩
      rw [deliveries_append, ← List.append_cancel_left hsubmitted]

/-- An attempt that ends with an end names the end of the quote submitted last, if any. -/
theorem attempted_until {ended : Except Abrupt LoopState} {result : ExecutePaidResult}
    {submitted : List SubmittedQuote} {until_ : ℤ}
    (h : (attemptBody ethers options settings polls rounds).run.Yields events ended)
    (hended : attempted ended = .ok (result, submitted)) (huntil : result.Until until_) :
    deliveries events = [] ∨ EndsWith events until_ := by
  rcases attemptBody_cases h with ⟨hquiet, -⟩ |
    ⟨pinned, pinnedAtMs, before, loop, rfl, hquiet, -, hloop⟩
  · exact .inl (deliveries_of_quiet hquiet)
  have hstop : ∀ (history : List Event) st events e,
      Round ethers ⟨options, settings, pinned, pinnedAtMs⟩ st polls events (.error e) →
      ∀ result submitted, e = .returned result submitted → result.Until until_ →
        EndsWith (history ++ events) until_ := by
    rintro history st events e hround result submitted rfl huntil
    exact hround.until huntil
  rcases ended with (_ | _ | _ | _) | final
  · cases hended
    rcases exitLoop_stop (P := fun history e => ∀ result submitted,
      e = .returned result submitted → result.Until until_ → EndsWith history until_)
      before hstop hloop with h | h
    · cases h
    · exact .inr (h _ _ rfl huntil)
  · cases hended
  · cases hended
  · cases hended
  · cases hended
    obtain ⟨_, _, hnot⟩ := huntil
    cases hnot

/-- The attempt at the front of a trace ends as not paid, so that the final read of the evidence
follows it. -/
def AttemptNotPaid (ethers : Ethers) (options : ExecutePaidOptions) (polls : ℕ)
    (trace : List Event) : Prop :=
  ∃ settings attempt final reason submitted, resolveSettings ethers options = .ok settings ∧
    trace = attempt ++ final ∧
    (attemptPaid ethers options settings polls (options.maxExits.getD defaults.maxExits)).run.Yields
      attempt (.ok (.notPaid reason, submitted))

/-- No quote submitted before the last one is valid for longer. -/
def LastLongest (submitted : List SubmittedQuote) : Prop :=
  ∀ earlier last, submitted = earlier ++ [last] →
    ∀ quote ∈ earlier, quote.validUntilUnix ≤ last.validUntilUnix

/-- An attempt that ended otherwise did not end as not paid. -/
theorem not_attemptNotPaid {attempt final : List Event} {ended : Except Abrupt LoopState}
    {result : ExecutePaidResult} {submitted : List SubmittedQuote}
    (hsettings : resolveSettings ethers options = .ok settings)
    (hbody : (attemptBody ethers options settings polls
      (options.maxExits.getD defaults.maxExits)).run.Yields attempt ended)
    (hended : attempted ended = .ok (result, submitted))
    (hresult : ∀ reason, result ≠ .notPaid reason) :
    ¬AttemptNotPaid ethers options polls (attempt ++ final) := by
  rintro ⟨settings', attempt', final', reason, submitted', hsettings', hsplit, hattempt⟩
  obtain rfl := Except.ok.inj (hsettings.symm.trans hsettings')
  obtain ⟨ended', hbody', hended'⟩ := yields_map.mp hattempt
  obtain ⟨-, rfl⟩ := hbody.unique hbody' hsplit
  rw [hended] at hended'
  exact hresult reason (Prod.mk.inj (Except.ok.inj hended')).1.symm

/-- **An unknown result covers every outstanding submission** exactly when the attempt ended as not
paid, or no quote submitted earlier is valid for longer than the one submitted last.

After an attempt that ended as not paid the result is that of the final read, and the quote that it
names is the longest (`latestQuote_spec`). Otherwise the result is that of the attempt, which names
the quote submitted last (`attempted_until`); before any submission there is nothing to cover. -/
theorem unknown_covers_iff {behaviour : Behaviour Op Reply} {id : Option String} {until_ : ℤ}
    {detail : String}
    (hrun : (executePaid ethers options polls).run.run behaviour []
      = (trace, .ok (.unknown id (some until_) detail))) :
    (∀ quote ∈ deliveries trace, quote.validUntilUnix ≤ until_) ↔
      AttemptNotPaid ethers options polls trace ∨ LastLongest (deliveries trace) := by
  rcases hsettings : resolveSettings ethers options with failure | settings
  · cases (executePaid_invalid hsettings (of_run hrun)).2
  obtain ⟨attempt, final, ended, rfl, hquiet, hbody, hend⟩ :=
    executePaid_cases hsettings (of_run hrun)
  have hdeliveries : deliveries (attempt ++ final) = deliveries attempt := by
    rw [deliveries_append, deliveries_of_quiet hquiet, List.append_nil]
  rw [hdeliveries]
  rcases hend with ⟨result, submitted, hended, hfinal⟩ | ⟨e, -, he⟩
  · rcases finalEvidence_cases hfinal with ⟨hok, -⟩ |
      ⟨reason, latest, rfl, hlatest, hpolling | ⟨hok, -⟩ | ⟨result', hok, hread⟩⟩
    · obtain rfl := Except.ok.inj hok
      rw [or_iff_right (not_attemptNotPaid hsettings hbody hended fun _ => nofun)]
      rcases attempted_until hbody hended ⟨id, detail, rfl⟩ with hnone | ⟨earlier, last, heq, rfl⟩
      · refine iff_of_true (by simp [hnone]) fun earlier last hsplit => ?_
        rw [hnone] at hsplit
        exact absurd hsplit.symm (by simp)
      · rw [heq]
        constructor
        · intro hcovers earlier' last' hsplit quote hquote
          obtain ⟨rfl, hlast⟩ := List.append_inj' hsplit rfl
          obtain rfl := List.singleton_inj.mp hlast
          exact hcovers quote (List.mem_append_left _ hquote)
        · exact fun hlongest => List.forall_mem_append.mpr ⟨hlongest earlier last rfl, by simp⟩
    · cases hpolling
    · cases hok
    · obtain rfl := Except.ok.inj hok
      obtain rfl := attempted_submitted hbody hended
      rcases hread with ⟨_, _, heq⟩ | hconsumed
      · cases heq
        exact iff_of_true hlatest (.inl ⟨settings, attempt, final, reason, deliveries attempt,
          hsettings, rfl, yields_map.mpr ⟨ended, hbody, hended.symm⟩⟩)
      · exact absurd ⟨id, detail, rfl⟩ hconsumed.not_until
  · cases he

/-! ### Runs with an unknown result -/

/-- Another exit of the samples. -/
def secondExit : String := "0x2B5AD5c4795c026514f8317c7a215E218DcCD6cF"

/-- Its bytes. -/
def secondExitBytes : Bytes :=
  [0x2b, 0x5a, 0xd5, 0xc4, 0x79, 0x5c, 0x02, 0x65, 0x14, 0xf8, 0x31, 0x7c, 0x7a, 0x21, 0x5e, 0x21,
   0x8d, 0xcc, 0xd6, 0xcf]

/-- The id of its quote. -/
def secondExecutionId : Bytes :=
  [0x49, 0xec, 0x59, 0x5d, 0xbf, 0x61, 0xf3, 0x27, 0x18, 0x58, 0x2e, 0x41, 0x06, 0x25, 0xbe, 0x83,
   0x1d, 0x8b, 0xe8, 0x5f, 0xdc, 0x6f, 0x65, 0x97, 0x7e, 0x79, 0x27, 0x92, 0xb8, 0x81, 0xe3, 0xc6]

/-- Its signature. -/
def secondSignature : Bytes :=
  [0xc2, 0xe2, 0x70, 0xdd, 0x4d, 0x02, 0xd9, 0x25, 0x81, 0x22, 0x0b, 0x4e, 0xd9, 0xac, 0x81, 0x51,
   0x4c, 0x07, 0xa4, 0xac, 0x07, 0xbe, 0xcc, 0x5d, 0x86, 0xf6, 0x7f, 0xc8, 0xc0, 0xdd, 0x4b, 0x4e,
   0x39, 0xc2, 0x58, 0xc2, 0x6b, 0x56, 0x4f, 0xd9, 0x35, 0x8f, 0x23, 0x34, 0x79, 0x9b, 0x7d, 0xdc,
   0x13, 0xc6, 0x33, 0xe1, 0xe0, 0x96, 0x3d, 0x96, 0x19, 0xcc, 0xb0, 0x8b, 0x86, 0x7c, 0x24, 0x1a,
   0x1b]

/-- Its quote, which ends before the first exit's. -/
def secondQuote : ExecutionQuoteV1 :=
  { sampleQuote with
    exitAddress := secondExitBytes
    validUntilUnix := 1050
    quoteNonce := bigEndian 32 10 }

/-- `ethers` on the quotes of both exits. -/
def twoExitEthers : Ethers :=
  { sampleEthers with
    getAddress := fun text =>
      if text = hexlify secondExitBytes then .ok secondExit
      else sampleEthers.getAddress text
    hashTypedData := fun typed =>
      .ok (hexlify
        (if typed.exitAddress = secondExit then secondExecutionId else sampleExecutionId))
    verifyTypedData := fun typed _ => .ok typed.exitAddress }

/-- An environment with both exits, which reject the submission. The chain reader fails once
`failing` submissions went out. -/
def twoExitBehaviour (failing : ℕ) : Behaviour Op Reply := fun trace op =>
  match op with
  | .selectPaidExit exclude =>
    if exclude = [] then .ok ⟨sampleExit⟩
    else if exclude.length = 1 then .ok ⟨secondExit⟩
    else .error ⟨"no paid exit is left", some .paidExitUnavailable, none⟩
  | .requestPaidQuote _ exit =>
    if exit.id = secondExit then
      ⟨.ok (.issued ⟨secondQuote, secondExecutionId, secondSignature, exit⟩), none⟩
    else ⟨.ok (.issued ⟨sampleQuote, sampleExecutionId, sampleSignature, exit⟩), none⟩
  | .blockNumber =>
    if (deliveries trace).length < failing then .ok (100 * (1 + trace.countP isBlockNumber))
    else .error (.error "no answer")
  | op => sampleBehaviour sampleRejection trace op

/-- The options of the samples, with a second exit. -/
def twoExitOptions : ExecutePaidOptions := { sampleOptions with maxExits := some 2 }

/-- What a reader that failed leaves of an unknown result. -/
def unanswered (executionId : Bytes) (until_ : ℤ) : ExecutePaidResult :=
  .unknown (some (hexlify executionId)) (some until_)
    "chain read failed after a submission: no answer"

/-- The environment that selects the exits in the other order. -/
def otherOrder (failing : ℕ) : Behaviour Op Reply := fun trace op =>
  match op with
  | .selectPaidExit exclude =>
    if exclude = [] then .ok ⟨secondExit⟩
    else if exclude.length = 1 then .ok ⟨sampleExit⟩
    else .error ⟨"no paid exit is left", some .paidExitUnavailable, none⟩
  | op => twoExitBehaviour failing trace op

/-- In either order both quotes are submitted, and the result names the second one. -/
theorem unanswered_sample :
    sampleView ((executePaid twoExitEthers twoExitOptions 4).run.run (otherOrder 2) []) =
        (some (unanswered sampleExecutionId 1100),
          [⟨hexlify secondExecutionId, 1050⟩, ⟨hexlify sampleExecutionId, 1100⟩]) ∧
      sampleView ((executePaid twoExitEthers twoExitOptions 4).run.run (twoExitBehaviour 2) []) =
        (some (unanswered secondExecutionId 1050),
          [⟨hexlify sampleExecutionId, 1100⟩, ⟨hexlify secondExecutionId, 1050⟩]) := by
  decide +kernel

/-- The chain reader fails after the second of two submissions, whose quote is the longer one: the
result covers both. -/
theorem unknown_covers_iff_sample :
    ∃ trace, (executePaid twoExitEthers twoExitOptions 4).run.run (otherOrder 2) []
        = (trace, .ok (unanswered sampleExecutionId 1100)) ∧
      (deliveries trace).length = 2 ∧
      ∀ quote ∈ deliveries trace, quote.validUntilUnix ≤ 1100 := by
  obtain ⟨trace, hrun, hsubmitted⟩ := exists_run unanswered_sample.1
  refine ⟨trace, hrun, by rw [hsubmitted]; rfl, (unknown_covers_iff hrun).mpr (.inr ?_)⟩
  rw [hsubmitted]
  intro earlier last hsplit quote hquote
  obtain ⟨rfl, hlast⟩ := List.append_inj' (show [(⟨hexlify secondExecutionId, 1050⟩ :
    SubmittedQuote)] ++ [⟨hexlify sampleExecutionId, 1100⟩] = earlier ++ [last] from hsplit) rfl
  obtain rfl := List.mem_singleton.mp hquote
  obtain rfl := List.singleton_inj.mp hlast
  decide

/-- The chain reader fails after the second submission: the result names the end of the second
quote, and the first one is valid for longer. -/
theorem not_unknown_covers :
    ¬∀ (ethers : Ethers) (options : ExecutePaidOptions) (polls : ℕ)
        (behaviour : Behaviour Op Reply) (trace : List Event) (id : Option String) (until_ : ℤ)
        (detail : String),
        (executePaid ethers options polls).run.run behaviour []
          = (trace, .ok (.unknown id (some until_) detail)) →
        ∀ quote ∈ deliveries trace, quote.validUntilUnix ≤ until_ := by
  intro hcovers
  obtain ⟨trace, hrun, hsubmitted⟩ := exists_run unanswered_sample.2
  have hle : (1100 : ℤ) ≤ 1050 := hcovers _ _ _ _ _ _ _ _ hrun ⟨hexlify sampleExecutionId, 1100⟩
    (by simp [hsubmitted])
  exact absurd hle (by decide)

end NoxSdk.Paid
