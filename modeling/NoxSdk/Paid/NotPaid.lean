import Mathlib.Data.List.Induction
import NoxSdk.Paid.Attempts

/-!
# Not paid means not payable

`notPaid_cannot_settle`: when a run that submitted a transaction resolves as not paid, the chain
reader has reported, after every submission, that no submitted quote can settle any more, or that
the payment id was consumed by the settlement of another action. Whatever ended the attempt, the
final read of the evidence decides, with the quote that expires last.
-/

namespace NoxSdk.Paid

open Js (toLowerCase)
open NoxSdk.Lib
open NoxSdk.Lib.Prog
open NoxSdk.Topology (bytesOfDigits)
open Bincode (ExecutionQuoteV1)

variable {ethers : Ethers} {options : ExecutePaidOptions} {settings : Settings}
  {events trace : List Event} {polls : ℕ} {submitted : List SubmittedQuote}
  {result : ExecutePaidResult}

/-! ### The final read of the evidence -/

/-- The quote of the final read is the last to expire. -/
theorem latestQuote_spec (submitted : List SubmittedQuote) :
    match latestQuote submitted with
    | none => submitted = []
    | some latest => ∀ quote ∈ submitted, quote.validUntilUnix ≤ latest.validUntilUnix := by
  induction submitted using List.reverseRecOn with
  | nil => rfl
  | append_singleton init last ih =>
    have hfold : latestQuote (init ++ [last]) = match latestQuote init with
        | none => some last
        | some kept => if kept.validUntilUnix < last.validUntilUnix then some last else some kept :=
      List.foldl_concat _ _ _ _
    cases hinit : latestQuote init with
    | none =>
      rw [hinit] at hfold ih
      dsimp only at hfold ih
      rw [hfold, ih]
      exact fun quote hquote => (List.mem_singleton.mp hquote) ▸ le_refl _
    | some kept =>
      rw [hinit] at hfold ih
      dsimp only at hfold ih
      rw [hfold]
      split_ifs with hlater
      · intro quote hquote
        rcases List.mem_append.mp hquote with hbefore | hlast
        · exact (ih quote hbefore).trans hlater.le
        · rw [List.mem_singleton.mp hlast]
      · intro quote hquote
        rcases List.mem_append.mp hquote with hbefore | hlast
        · exact ih quote hbefore
        · rw [List.mem_singleton.mp hlast]
          exact not_lt.mp hlater

/-- The final read leaves the result of the attempt, or decides by the chain. -/
theorem finalEvidence_cases {r : Except Abrupt ExecutePaidResult}
    (h : (finalEvidence ethers settings result submitted polls).run.Yields events r) :
    (r = .ok result ∧ ((∀ reason, result ≠ .notPaid reason) ∨ submitted = [])) ∨
    ∃ (reason : NotPaid) (latest : SubmittedQuote), result = .notPaid reason ∧
      (∀ quote ∈ submitted, quote.validUntilUnix ≤ latest.validUntilUnix) ∧
      (r = .error .polling ∨
        (r = .ok (.notPaid reason) ∧
          UnconsumedAfter ethers settings latest.validUntilUnix events) ∨
        ∃ final, r = .ok final ∧
          ((∃ id detail, final = .unknown id (some latest.validUntilUnix) detail) ∨
            ConsumedRead ethers settings events final)) := by
  have hlatest := latestQuote_spec submitted
  unfold finalEvidence at h
  split at h
  next reason latest hsome =>
    rw [hsome] at hlatest
    refine .inr ⟨reason, latest, rfl, hlatest, ?_⟩
    rcases yields_run_bind.mp h with ⟨e, he, rfl⟩ | ⟨read, evidence, _, hread, hrest, rfl⟩
    · rcases paymentEvidence_spec he with hpolling | ⟨evidence, hok, -⟩
      · cases hpolling
        exact .inl rfl
      · cases hok
    rcases paymentEvidence_spec hread with hpolling | ⟨evidence', hok, hevidence⟩
    · cases hpolling
    obtain rfl := Except.ok.inj hok
    cases evidence with
    | unconsumed => cases hevidence
    | expired =>
      obtain ⟨rfl, rfl⟩ := hrest
      rw [List.append_nil]
      exact .inr (.inl ⟨rfl, hevidence⟩)
    | result final =>
      obtain ⟨rfl, rfl⟩ := hrest
      rw [List.append_nil]
      exact .inr (.inr ⟨final, rfl, hevidence.imp_left fun ⟨detail, h⟩ => ⟨_, detail, h⟩⟩)
  next hother =>
    -- the result is no `notPaid`, or nothing was submitted
    refine .inl ⟨h.2, ?_⟩
    cases hnone : latestQuote submitted with
    | none =>
      rw [hnone] at hlatest
      exact .inr hlatest
    | some latest => exact .inl fun reason hreason => hother reason latest hreason hnone

/-! ### Not paid -/

/-- The chain reader reported, in these events, that the submitted quotes have all expired with the
payment id unconsumed, or that the payment id is consumed by the settlement of another action. -/
def CannotSettle (ethers : Ethers) (settings : Settings) (submitted : List SubmittedQuote)
    (events : List Event) : Prop :=
  (∃ block timestamp, Answered events .blockNumber (.ok block) ∧
    FlagRead ethers settings .isPaymentConsumed settings.paymentIdHex block false events ∧
    Answered events (.blockTimestamp (.number block)) (.ok timestamp) ∧
    ∀ quote ∈ submitted, quote.validUntilUnix < timestamp) ∨
  ∃ block settlement settled, Answered events .blockNumber (.ok block) ∧
    FlagRead ethers settings .isPaymentConsumed settings.paymentIdHex block true events ∧
    SettlementRead ethers settings events settlement settled ∧
    (hexlify settled.clientIntentId ≠ settings.intentIdHex ∨
      hexlify settled.actionCalldataHash ≠ settings.actionCalldataHash ∨
      sameAddress (hexlify settled.actionTarget) settings.target = false)

theorem CannotSettle.mono {events' : List Event} (h : CannotSettle ethers settings submitted events)
    (hsub : events ⊆ events') : CannotSettle ethers settings submitted events' := by
  rcases h with ⟨block, timestamp, hblock, hflag, htime, hlater⟩ |
    ⟨block, settlement, settled, hblock, hflag, hread, hother⟩
  · exact .inl ⟨block, timestamp, hblock.mono hsub, hflag.mono hsub, htime.mono hsub, hlater⟩
  · exact .inr ⟨block, settlement, settled, hblock.mono hsub, hflag.mono hsub, hread.mono hsub,
      hother⟩

theorem settledResult_ne {settlement : PaidSettlement} {gas : ℤ} (h : ¬ result.IsSettled) :
    result ≠ settledResult settlement gas := by
  rintro rfl
  rw [settledResult] at h
  split_ifs at h
  · exact h trivial
  · exact h trivial

/-- A run that resolves as not paid after submissions ends with a read that rules them out. -/
theorem executePaid_notPaid {reason : NotPaid}
    (hsettings : resolveSettings ethers options = .ok settings)
    (h : (executePaid ethers options polls).run.Yields trace (.ok (.notPaid reason)))
    (hne : deliveries trace ≠ []) :
    ∃ attempt final, trace = attempt ++ final ∧ QuietEvents final ∧
      CannotSettle ethers settings (deliveries trace) final := by
  obtain ⟨attempt, final, ended, rfl, hquiet, hbody, hend⟩ := executePaid_cases hsettings h
  refine ⟨attempt, final, rfl, hquiet, ?_⟩
  rcases hend with ⟨result, submitted, hended, hfinal⟩ | ⟨e, -, he⟩
  swap
  · cases he
  obtain rfl := attempted_submitted hbody hended
  rw [deliveries_append, deliveries_of_quiet hquiet, List.append_nil] at hne ⊢
  rcases finalEvidence_cases hfinal with ⟨hok, hkept | hnil⟩ |
    ⟨reason', latest, -, hlatest, hpolling | ⟨-, hexpired⟩ | ⟨result', hok, hread⟩⟩
  · exact absurd (Except.ok.inj hok).symm (hkept reason)
  · exact absurd hnil hne
  · cases hpolling
  · obtain ⟨block, timestamp, hblock, hflag, htime, hlater⟩ := hexpired
    exact .inl ⟨block, timestamp, hblock, hflag, htime, fun quote hquote =>
      (hlatest quote hquote).trans_lt hlater⟩
  · obtain rfl := Except.ok.inj hok
    rcases hread with ⟨_, _, hunknown⟩ | ⟨block, hblock, hflag, hresumed⟩
    · cases hunknown
    rcases hresumed with
      ⟨_, _, hunknown⟩ | ⟨settlement, settled, hread, ⟨hother, -⟩ | ⟨-, hsettled⟩⟩
    · cases hunknown
    · refine .inr ⟨block, settlement, settled, hblock, hflag, hread, ?_⟩
      rw [sameAction] at hother
      simpa [or_iff_not_imp_left, Bool.and_eq_false_iff] using hother
    · exact absurd hsettled (settledResult_ne id)

/-- A result that is not paid, of a run that submitted: after every submission, the chain ruled out
that one of the submitted quotes settles this payment.

A run that submitted ends as not paid only through the read after its loop (`executePaid_notPaid`),
and the events of this read submit nothing. So every submission comes before the read, and what the
read ruled out holds behind each of them. -/
theorem notPaid_cannot_settle {behaviour : Behaviour Op Reply} {reason : NotPaid}
    {before after : List Event} {event : Event} {quote : SubmittedQuote}
    (hsettings : resolveSettings ethers options = .ok settings)
    (hrun : (executePaid ethers options polls).run.run behaviour []
      = (trace, .ok (.notPaid reason)))
    (hsplit : trace = before ++ event :: after) (hsubmitted : delivered event = some quote) :
    CannotSettle ethers settings (deliveries trace) after := by
  have hne : deliveries trace ≠ [] := by
    rw [hsplit, deliveries_append, deliveries_cons, hsubmitted]
    simp
  obtain ⟨attempt, final, htrace, hquiet, hfinal⟩ :=
    executePaid_notPaid hsettings (of_run hrun) hne
  have hnotFinal : event ∉ final := fun hmem => by
    rw [delivered_of_quiet (hquiet event hmem)] at hsubmitted
    cases hsubmitted
  rcases List.append_eq_append_iff.mp (htrace.symm.trans hsplit) with
    ⟨part, -, hpart⟩ | ⟨part, -, hpart⟩
  · exact absurd (hpart ▸ List.mem_append_right part List.mem_cons_self) hnotFinal
  · cases part with
    | nil =>
      obtain rfl : event :: after = final := hpart
      exact absurd List.mem_cons_self hnotFinal
    | cons head part =>
      obtain rfl := (List.cons.inj hpart).2
      exact hfinal.mono (List.subset_append_right _ _)

/-! ### One exit, one rejection -/

/-- The bytes of hexadecimal text. -/
def hexBytes (text : String) : Bytes := bytesOfDigits (text.toList.drop 2)

/-- A dynamic value: its length and its bytes, filled up to whole words. -/
def abiDynamic (length : ℕ) (data : Bytes) : Bytes :=
  bigEndian 32 length ++ (data ++ List.replicate (padded data.length - data.length) 0)

/-- An address as a word. -/
def abiAddress (text : String) : Bytes := List.replicate 12 0 ++ hexBytes text

/-- The calldata of `execute`. -/
def abiExecute (quote : QuoteTuple) (exitSignature actionData : Bytes)
    (trackedAssets : List String) (paymentData : Bytes) : Bytes :=
  let words := [bigEndian 32 quote.quoteVersion, bigEndian 32 quote.chainId,
    abiAddress quote.entryPoint, abiAddress quote.exitAddress, hexBytes quote.clientIntentId,
    abiAddress quote.paymentAdapter, hexBytes quote.paymentId, abiAddress quote.feeAsset,
    bigEndian 32 quote.exitFee, bigEndian 32 quote.networkFee,
    bigEndian 32 quote.paymentGasLimit, abiAddress quote.actionTarget,
    hexBytes quote.actionCalldataHash, bigEndian 32 quote.actionGasLimit,
    hexBytes quote.trackedAssetsHash, bigEndian 32 quote.maximumTransactionGas,
    bigEndian 32 quote.maximumFeePerGas, bigEndian 32 quote.returnDataLimit,
    bigEndian 32 quote.validAfterUnix, bigEndian 32 quote.validUntilUnix,
    bigEndian 32 quote.quoteNonce]
  let tails := [abiDynamic exitSignature.length exitSignature,
    abiDynamic actionData.length actionData,
    abiDynamic trackedAssets.length (trackedAssets.flatMap abiAddress),
    abiDynamic paymentData.length paymentData]
  let offsets := (List.range 4).map fun index =>
    bigEndian 32 (executeHeadWords * 32 + ((tails.take index).map List.length).sum)
  [0x8f, 0x42, 0xc6, 0x10] ++ (words.flatten ++ (offsets.flatten ++ tails.flatten))

/-- The exit of the sample. -/
def sampleExit : String := "0x7E5F4552091A69125d5DfCb7b8C2659029395Bdf"

/-- Its bytes. -/
def sampleExitBytes : Bytes :=
  [0x7e, 0x5f, 0x45, 0x52, 0x09, 0x1a, 0x69, 0x12, 0x5d, 0x5d, 0xfc, 0xb7, 0xb8, 0xc2, 0x65, 0x90,
   0x29, 0x39, 0x5b, 0xdf]

/-- The id of the sample's quote: its typed data hash. -/
def sampleExecutionId : Bytes :=
  [0x7e, 0x47, 0x93, 0xac, 0x99, 0xfe, 0xbd, 0x77, 0x94, 0x72, 0x7c, 0x12, 0x25, 0xda, 0x89, 0x63,
   0xf5, 0xda, 0xb8, 0xce, 0x6d, 0xe1, 0xfe, 0xe3, 0x37, 0xff, 0x4f, 0x83, 0xe6, 0x89, 0xb6, 0xe3]

/-- The hash of no bytes. -/
def sampleActionHash : Bytes :=
  [0xc5, 0xd2, 0x46, 0x01, 0x86, 0xf7, 0x23, 0x3c, 0x92, 0x7e, 0x7d, 0xb2, 0xdc, 0xc7, 0x03, 0xc0,
   0xe5, 0x00, 0xb6, 0x53, 0xca, 0x82, 0x27, 0x3b, 0x7b, 0xfa, 0xd8, 0x04, 0x5d, 0x85, 0xa4, 0x70]

/-- The hash of an empty list of addresses. -/
def sampleAssetsHash : Bytes :=
  [0x56, 0x9e, 0x75, 0xfc, 0x77, 0xc1, 0xa8, 0x56, 0xf6, 0xda, 0xaf, 0x9e, 0x69, 0xd8, 0xa9, 0x56,
   0x6c, 0xa3, 0x4a, 0xa4, 0x7f, 0x91, 0x33, 0x71, 0x1c, 0xe0, 0x65, 0xa5, 0x71, 0xaf, 0x0c, 0xfd]

/-- The signature of the sample's exit. -/
def sampleSignature : Bytes :=
  [0xd0, 0x14, 0x2e, 0x78, 0x32, 0x86, 0x8f, 0x40, 0xee, 0x84, 0x1c, 0xc3, 0x03, 0x02, 0x3e, 0x7b,
   0x32, 0xa1, 0x58, 0x6f, 0xea, 0xc7, 0xfd, 0x13, 0xaf, 0x7a, 0x13, 0xfe, 0x18, 0xd6, 0x25, 0x58,
   0x27, 0xba, 0xef, 0xbd, 0x24, 0x31, 0xb0, 0x0f, 0xd2, 0xe5, 0x10, 0xf9, 0xab, 0xe2, 0x98, 0x08,
   0xfe, 0x32, 0xd4, 0xd0, 0xfe, 0xee, 0x75, 0xef, 0x00, 0x1f, 0xd8, 0xf8, 0xa1, 0xf3, 0x11, 0x38,
   0x1c]

/-- An address in digits, which has no checksum. -/
def sampleAddress (digit : Char) : String :=
  String.ofList ('0' :: 'x' :: List.replicate 40 digit)

/-- A quote of the sample's exit. -/
def sampleQuote : ExecutionQuoteV1 where
  quoteVersion := 1
  chainId := bigEndian 32 1
  entryPoint := List.replicate 20 0x11
  exitAddress := sampleExitBytes
  clientIntentId := List.replicate 32 6
  paymentAdapter := List.replicate 20 0x33
  paymentId := List.replicate 32 5
  feeAsset := List.replicate 20 0x44
  exitFee := bigEndian 32 300
  networkFee := bigEndian 32 200
  paymentGasLimit := bigEndian 32 200000
  actionTarget := List.replicate 20 0x22
  actionCalldataHash := sampleActionHash
  actionGasLimit := bigEndian 32 100000
  trackedAssetsHash := sampleAssetsHash
  maximumTransactionGas := bigEndian 32 740830
  maximumFeePerGas := bigEndian 32 7
  returnDataLimit := bigEndian 32 256
  validAfterUnix := 0
  validUntilUnix := 1100
  quoteNonce := bigEndian 32 9

/-- The selectors of the view functions. -/
def View.selector : View → String
  | .isExecutionConsumed => "0x3319609a"
  | .isPaymentConsumed => "0xf7630e6c"
  | .isClientIntentConsumed => "0x411285ea"
  | .predictSandbox => "0x94e08e6d"

/-- A word of ABI data. -/
def sampleWord (n : ℕ) : String := hexlify (bigEndian 32 n)

/-- The result of `execute` in the simulation: success, without return data. -/
def sampleSuccess : String :=
  hexlify (bigEndian 32 1 ++ (bigEndian 32 0 ++ sampleActionHash))

/-- `ethers` on the inputs of the samples: the ABI, and tables of what would be computed. -/
def sampleEthers : Ethers where
  getAddress text :=
    if text = hexlify sampleExitBytes then .ok sampleExit
    else if text ∈ ['1', '2', '3', '4'].map sampleAddress then .ok text
    else .error (.error "bad address checksum")
  keccak256 data := if data = [] then sampleActionHash else sampleAssetsHash
  encodeAddresses addresses :=
    .ok (bigEndian 32 32 ++ abiDynamic addresses.length (addresses.flatMap abiAddress))
  encodeView flag id := .ok (flag.selector ++ String.ofList (id.toList.drop 2))
  decodeFlag _ result :=
    if result = sampleWord 0 then .ok false
    else if result = sampleWord 1 then .ok true
    else .error (.error "could not decode result data")
  decodeSandbox _ := .error (.error "could not decode result data")
  encodeExecute quote exitSignature actionData trackedAssets paymentData :=
    .ok (abiExecute quote exitSignature actionData trackedAssets paymentData)
  decodeExecuteSuccess result :=
    if result = sampleSuccess then .ok true
    else .error (.error "could not decode result data")
  decodeExecuteQuote _ := .error (.error "no matching function")
  encodeDataFee _ _ := .error (.error "no such chain")
  decodeDataFee _ := .error (.error "no such chain")
  hashTypedData _ := .ok (hexlify sampleExecutionId)
  verifyTypedData _ _ := .ok sampleExit
  parseError _ := none

/-- The options of the samples. -/
def sampleOptions : ExecutePaidOptions where
  chainId := 1
  entryPoint := sampleAddress '1'
  action :=
    { target := sampleAddress '2', data := [], gasLimit := some 100000, trackedAssets := none,
      returnDataLimit := none }
  payment :=
    { adapter := sampleAddress '3', feeAsset := sampleAddress '4', paymentId := List.replicate 32 5,
      gasLimit := 200000, paymentDataLength := 32 }
  maxTotalFee := 1000
  intentSalt := none
  clientIntentId := some (List.replicate 32 6)
  chainDataFeeGas := false
  pending := none
  gas := none
  minSubmitHeadroomSecs := none
  maxExits := some 1
  dryRun := false
  confirmationTimeoutMs := none
  pollIntervalMs := none
  resumeLookbackBlocks := none

/-- Whether a call asked for the number of the latest block. -/
def isBlockNumber (event : Event) : Bool :=
  match event.1 with
  | .blockNumber => true
  | _ => false

/-- An environment: a chain with a block between two reads, each a hundred seconds after the one
before, and one exit, whose answer to the submission is a parameter. -/
def sampleBehaviour (outcome : Except Failure Bincode.PaidTransactionOutcomeV2) :
    Behaviour Op Reply := fun trace op =>
  match op with
  | .now => 1000000
  | .sleep _ => ()
  | .randomBytes length => List.replicate length 1
  | .checkAction _ => .ok ()
  | .buildPaymentData _ _ _ => .ok [7]
  | .selectPaidExit exclude =>
    if exclude = [] then .ok ⟨sampleExit⟩
    else .error ⟨"no paid exit is left", some .paidExitUnavailable, none⟩
  | .requestPaidQuote _ exit =>
    ⟨.ok (.issued ⟨sampleQuote, sampleExecutionId, sampleSignature, exit⟩), none⟩
  | .submitPaidTransaction _ _ => outcome
  | .blockNumber => .ok (100 * (1 + trace.countP isBlockNumber))
  | .call _ _ => .ok (sampleWord 0)
  | .blockTimestamp (.number block) => .ok (900 + block)
  | .blockTimestamp .latest => .ok 1000
  | .settlementLog _ _ _ _ => .ok none
  | .settlementLogByPayment _ _ _ _ => .ok none
  | .transactionInput _ => .ok none
  | .dataFeeGas _ _ => .ok 0
  | .preflightEstimateGas _ _ _ => .ok 600000
  | .preflightCall _ _ => .ok sampleSuccess

/-- A rejection of the submission. -/
def sampleRejection : Except Failure Bincode.PaidTransactionOutcomeV2 :=
  .ok (.rejected none ⟨.malformedRequest, false, "bad"⟩)

/-- What the samples show of a run: its result, and what it submitted. -/
def sampleView (run : List Event × Except Abrupt ExecutePaidResult) :
    Option ExecutePaidResult × List SubmittedQuote :=
  (run.2.toOption, deliveries run.1)

/-- The run of an environment, from its view. -/
theorem exists_run {ethers : Ethers} {options : ExecutePaidOptions} {polls : ℕ}
    {behaviour : Behaviour Op Reply} {result : ExecutePaidResult}
    {submitted : List SubmittedQuote}
    (h : sampleView ((executePaid ethers options polls).run.run behaviour [])
      = (some result, submitted)) :
    ∃ trace, (executePaid ethers options polls).run.run behaviour [] = (trace, .ok result) ∧
      deliveries trace = submitted :=
  ⟨_, Prod.ext rfl (toOption_eq_some_iff.mp (Prod.mk.inj h).1), (Prod.mk.inj h).2⟩

/-- The run in which the only exit rejects the submission. -/
theorem exists_rejectedRun : (resolveSettings sampleEthers sampleOptions).toOption.isSome ∧
    ∃ trace,
      (executePaid sampleEthers sampleOptions 4).run.run (sampleBehaviour sampleRejection) []
        = (trace, .ok (.notPaid ⟨.submit, "MalformedRequest", "bad"⟩)) ∧
      deliveries trace = [⟨hexlify sampleExecutionId, 1100⟩] := by
  have hrun : (resolveSettings sampleEthers sampleOptions).toOption.isSome ∧
      sampleView ((executePaid sampleEthers sampleOptions 4).run.run
        (sampleBehaviour sampleRejection) []) =
          (some (.notPaid ⟨.submit, "MalformedRequest", "bad"⟩),
            [⟨hexlify sampleExecutionId, 1100⟩]) := by
    decide +kernel
  exact hrun.imp_right exists_run

/-- The only exit rejects the submission, and the quote expires before the final read. -/
theorem notPaid_cannot_settle_sample :
    ∃ settings trace before event after reason quote,
      (executePaid sampleEthers sampleOptions 4).run.run (sampleBehaviour sampleRejection) []
        = (trace, .ok (.notPaid reason)) ∧
      trace = before ++ event :: after ∧ delivered event = some quote ∧
      CannotSettle sampleEthers settings (deliveries trace) after := by
  obtain ⟨hsome, trace, hrun, hsubmitted⟩ := exists_rejectedRun
  obtain ⟨settings, hsettings⟩ := Option.isSome_iff_exists.mp hsome
  obtain ⟨event, hevent, hdelivered⟩ := List.mem_filterMap.mp (hsubmitted ▸ List.mem_cons_self)
  obtain ⟨before, after, hsplit⟩ := List.append_of_mem hevent
  exact ⟨settings, trace, before, event, after, _, _, hrun, hsplit, hdelivered,
    notPaid_cannot_settle (toOption_eq_some_iff.mp hsettings) hrun hsplit hdelivered⟩

end NoxSdk.Paid
