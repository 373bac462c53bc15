import NoxSdk.Paid.ExecutePaid

/-!
# What the chain reads establish

The rules for the steps of a paid execution, and what is known when one of its chain reads has
returned: which flag was read at which block, and which log and calldata a settlement was taken
from. The facts are about the events of the read alone, so they hold wherever it was made.
-/

namespace NoxSdk.Paid

open Js (toLowerCase)
open NoxSdk.Lib
open NoxSdk.Lib.Prog

/-! ### Rules for steps -/

section Rules

variable {α : Type} {events : List Event}

/-- A stage without a `catch` around it ends as its program does. -/
theorem yields_uncaught {x : Async α} {r : Except Abrupt α} :
    (uncaught x).run.Yields events r ↔ ∃ r', x.run.Yields events r' ∧ r = uncaughtResult r' :=
  yields_map

theorem yields_uncaught_ok {x : Async α} {a : α} :
    (uncaught x).run.Yields events (.ok a) ↔ x.run.Yields events (.ok a) := by
  rw [yields_uncaught]
  constructor
  · rintro ⟨failure | a', hx, h⟩
    · cases h
    · cases h
      exact hx
  · exact fun h => ⟨_, h, rfl⟩

/-- A stage with a `catch` ends as its program does, but for a failure, which ends the call with a
result. -/
theorem yields_tryOr {submitted : List SubmittedQuote} {x : Async (ExecutePaidResult ⊕ α)}
    {onFailure : Failure → ExecutePaidResult} {r : Except Abrupt α} :
    (tryOr submitted x onFailure).run.Yields events r ↔
      ∃ r', x.run.Yields events r' ∧ r = caughtResult submitted onFailure r' :=
  yields_map

theorem yields_tryOr_ok {submitted : List SubmittedQuote} {x : Async (ExecutePaidResult ⊕ α)}
    {onFailure : Failure → ExecutePaidResult} {a : α} :
    (tryOr submitted x onFailure).run.Yields events (.ok a) ↔
      x.run.Yields events (.ok (.inr a)) := by
  rw [yields_tryOr]
  constructor
  · rintro ⟨failure | result | a', hx, h⟩
    · cases h
    · cases h
    · cases h
      exact hx
  · exact fun h => ⟨_, h, rfl⟩

end Rules

/-! ### Calls that are no request and no submission -/

/-- The call gives nothing of the payment to an exit. -/
def Op.Quiet : Op → Prop
  | .requestPaidQuote _ _ => False
  | .submitPaidTransaction _ _ => False
  | _ => True

section Quiet

variable {ethers : Ethers} {settings : Settings} {α : Type}

theorem quiet_ofExcept {result : Except Failure α} :
    (ofExcept result).run.Within Op.Quiet := trivial

theorem quiet_stop {result : ExecutePaidResult} {submitted : List SubmittedQuote} :
    (stop result submitted : Stage α).run.Within Op.Quiet := trivial

theorem quiet_uncaught {x : Async α} (h : x.run.Within Op.Quiet) :
    (uncaught x).run.Within Op.Quiet := h.map

theorem quiet_tryOr {submitted : List SubmittedQuote} {x : Async (ExecutePaidResult ⊕ α)}
    {onFailure : Failure → ExecutePaidResult} (h : x.run.Within Op.Quiet) :
    (tryOr submitted x onFailure).run.Within Op.Quiet := h.map

theorem quiet_lift {ε : Type} {p : Program α} (h : p.Within Op.Quiet) :
    (liftM p : ExceptT ε Program α).run.Within Op.Quiet := h.map

theorem quiet_dateNow {ε : Type} : (liftM dateNow : ExceptT ε Program ℤ).run.Within Op.Quiet :=
  quiet_lift (p := dateNow) ⟨trivial, fun _ => trivial⟩

theorem quiet_sleep {ε : Type} {ms : ℕ} :
    (liftM (sleep ms) : ExceptT ε Program Unit).run.Within Op.Quiet :=
  quiet_lift (p := sleep ms) ⟨trivial, fun _ => trivial⟩

theorem quiet_readFlag {flag : View} {id : String} {block : ℤ} :
    (readFlag ethers settings flag id block).run.Within Op.Quiet :=
  quiet_ofExcept.run_bind fun _ =>
    Within.run_bind (within_perform trivial) fun _ => quiet_ofExcept

/-- A scan with a quiet query asks nothing else. -/
theorem quiet_findSettlement {query : ℤ → ℤ → Async (Option PaidSettlement)}
    (hquery : ∀ first last, (query first last).run.Within Op.Quiet) (fromBlock toBlock : ℤ) :
    (findSettlement fromBlock toBlock query).run.Within Op.Quiet := by
  rw [findSettlement]
  generalize rangeCount fromBlock toBlock = ranges
  induction ranges generalizing toBlock with
  | zero => exact trivial
  | succ ranges ih =>
    rw [findSettlementIn]
    split_ifs
    · exact trivial
    · refine (hquery _ _).run_bind fun found => ?_
      cases found with
      | none => exact ih _
      | some settlement => exact trivial

/-- `resume` only reads. -/
theorem quiet_resume {block : ℤ} : (resume ethers settings block).run.Within Op.Quiet := by
  refine (quiet_findSettlement (fun _ _ => within_perform trivial) _ _).run_bind fun found => ?_
  cases found with
  | none => exact trivial
  | some settlement =>
    refine Within.run_bind (within_perform trivial) fun input => ?_
    cases input with
    | none => exact trivial
    | some input => exact quiet_ofExcept

/-- A look for a settlement only reads. -/
theorem quiet_readSettlement {pending : PendingExecution} :
    (readSettlement ethers settings pending).run.Within Op.Quiet := by
  refine Within.run_bind (within_perform trivial) fun block => ?_
  refine (quiet_readFlag.both (within_perform trivial)).run_bind ?_
  rintro ⟨consumed, timestamp⟩
  dsimp only
  split_ifs
  · refine (quiet_findSettlement (fun _ _ => within_perform trivial) _ _).run_bind fun found => ?_
    cases found with
    | none => exact trivial
    | some settlement =>
      dsimp only
      split
      · exact trivial
      · exact trivial
  · exact trivial
  · exact trivial

/-- Waiting for a settlement only reads and sleeps. -/
theorem quiet_awaitSettlement {pending : PendingExecution} {polls : ℕ} :
    (awaitSettlement ethers settings pending polls).run.Within Op.Quiet := by
  induction polls with
  | zero => exact trivial
  | succ polls ih =>
    refine (quiet_lift (quiet_readSettlement.bind fun outcome => ?_)).run_bind fun outcome => ?_
    · cases outcome with
      | error failure => exact trivial
      | ok outcome => exact trivial
    · cases outcome with
      | inl confirmation => exact trivial
      | inr detail =>
        refine quiet_dateNow.run_bind fun now => ?_
        split_ifs
        · exact trivial
        · exact quiet_sleep.run_bind fun _ => ih

/-- One round of evidence only reads. -/
theorem quiet_readPayment {quote : SubmittedQuote} {wait : Bool} :
    (readPayment ethers settings quote wait).run.Within Op.Quiet := by
  refine Within.run_bind (within_perform trivial) fun block => ?_
  refine (quiet_readFlag.both (within_perform trivial)).run_bind ?_
  rintro ⟨consumed, timestamp⟩
  dsimp only
  split_ifs
  · exact quiet_resume.run_bind fun _ => trivial
  · exact trivial
  · exact trivial
  · exact trivial

/-- Collecting evidence only reads and sleeps. -/
theorem quiet_paymentEvidence {quote : SubmittedQuote} {wait : Bool} {polls : ℕ} :
    (paymentEvidence ethers settings quote wait polls).run.Within Op.Quiet := by
  refine quiet_dateNow.run_bind fun now => ?_
  dsimp only
  generalize (⟨_, _, _⟩ : Waiting) = waiting
  induction polls generalizing waiting with
  | zero => exact trivial
  | succ polls ih =>
    refine (quiet_lift quiet_readPayment).run_bind fun outcome => ?_
    cases afterRead ethers quote wait waiting outcome with
    | inl evidence => exact trivial
    | inr waiting =>
      refine quiet_dateNow.run_bind fun now => ?_
      split_ifs
      · exact trivial
      · exact quiet_sleep.run_bind fun _ => ih waiting

end Quiet

/-! ### What was read -/

/-- The call was made and answered so. -/
def Answered (events : List Event) (op : Op) (reply : Reply op) : Prop :=
  (⟨op, reply⟩ : Event) ∈ events

theorem Answered.mono {events events' : List Event} {op : Op} {reply : Reply op}
    (h : Answered events op reply) (hsub : events ⊆ events') : Answered events' op reply := hsub h

variable {ethers : Ethers} {settings : Settings} {events events' : List Event} {block : ℤ}

/-- A consumed flag was read at a block. -/
def FlagRead (ethers : Ethers) (settings : Settings) (flag : View) (id : String) (block : ℤ)
    (value : Bool) (events : List Event) : Prop :=
  ∃ data result, ethers.encodeView flag id = .ok data ∧
    Answered events (.call (viewCall settings.entryPoint data) (.number block)) (.ok result) ∧
    ethers.decodeFlag flag result = .ok value

/-- What was read of a flag was read in every longer trace. -/
theorem FlagRead.mono {flag : View} {id : String} {value : Bool}
    (h : FlagRead ethers settings flag id block value events) (hsub : events ⊆ events') :
    FlagRead ethers settings flag id block value events' := by
  obtain ⟨data, result, hdata, hanswered, hresult⟩ := h
  exact ⟨data, result, hdata, hanswered.mono hsub, hresult⟩

/-- A flag is returned only as the endpoint answered it. -/
theorem readFlag_ok {flag : View} {id : String} {value : Bool}
    (h : (readFlag ethers settings flag id block).run.Yields events (.ok value)) :
    FlagRead ethers settings flag id block value events := by
  obtain ⟨_, data, _, ⟨rfl, hdata⟩, hrest, rfl⟩ := yields_run_bind_ok.mp h
  obtain ⟨_, result, _, hcall, ⟨rfl, hvalue⟩, rfl⟩ := yields_run_bind_ok.mp hrest
  obtain rfl := yields_perform.mp hcall
  exact ⟨data, result, hdata.symm, List.mem_cons_self, hvalue.symm⟩

/-- A settlement that is found is one that the query returned. -/
theorem findSettlement_some {query : ℤ → ℤ → Async (Option PaidSettlement)}
    {fromBlock toBlock : ℤ} {settlement : PaidSettlement}
    (h : (findSettlement fromBlock toBlock query).run.Yields events (.ok (some settlement))) :
    ∃ first last part, (query first last).run.Yields part (.ok (some settlement)) ∧
      part ⊆ events := by
  rw [findSettlement] at h
  generalize rangeCount fromBlock toBlock = ranges at h
  induction ranges generalizing toBlock events with
  | zero => cases h.2
  | succ ranges ih =>
    rw [findSettlementIn] at h
    split_ifs at h
    · cases h.2
    · obtain ⟨part, found, rest, hpart, hrest, rfl⟩ := yields_run_bind_ok.mp h
      cases found with
      | none =>
        obtain ⟨first, last, later, hlater, hsub⟩ := ih hrest
        exact ⟨first, last, later, hlater, fun _ h => List.mem_append_right _ (hsub h)⟩
      | some found =>
        obtain ⟨rfl, hfound⟩ := hrest
        obtain rfl : settlement = found := Option.some.inj (Except.ok.inj hfound)
        exact ⟨_, _, part, hpart, List.subset_append_left _ _⟩

/-- The settlement that a payment id was looked up to, the calldata of its transaction and the
quote in it, whose hash is the execution id of the settlement. -/
def SettlementRead (ethers : Ethers) (settings : Settings) (events : List Event)
    (settlement : PaidSettlement) (settled : Bincode.ExecutionQuoteV1) : Prop :=
  ∃ first last input,
    Answered events (.settlementLogByPayment settings.entryPoint settings.paymentIdHex first last)
      (.ok (some settlement)) ∧
    Answered events (.transactionInput settlement.transactionHash) (.ok (some input)) ∧
    settledQuote ethers input = .ok settled ∧
    hashExecutionQuoteV1 ethers settled = .ok (toLowerCase settlement.executionId)

/-- What was read of a settlement was read in every longer trace. -/
theorem SettlementRead.mono {settlement : PaidSettlement} {settled : Bincode.ExecutionQuoteV1}
    (h : SettlementRead ethers settings events settlement settled) (hsub : events ⊆ events') :
    SettlementRead ethers settings events' settlement settled := by
  obtain ⟨first, last, input, hlog, hinput, hrest⟩ := h
  exact ⟨first, last, input, hlog.mono hsub, hinput.mono hsub, hrest⟩

/-- What `resume` says of the events it goes through. -/
def Resumed (ethers : Ethers) (settings : Settings) (events : List Event)
    (result : ExecutePaidResult) : Prop :=
  (∃ id detail, result = .unknown id none detail) ∨
  ∃ settlement settled, SettlementRead ethers settings events settlement settled ∧
    ((sameAction settings settled = false ∧ ∃ reason, result = .notPaid reason) ∨
      (sameAction settings settled = true ∧
        result = settledResult settlement (toBigInt settled.maximumTransactionGas)))

theorem Resumed.mono {result : ExecutePaidResult} (h : Resumed ethers settings events result)
    (hsub : events ⊆ events') : Resumed ethers settings events' result := by
  rcases h with h | ⟨settlement, settled, hread, h⟩
  · exact .inl h
  · exact .inr ⟨settlement, settled, hread.mono hsub, h⟩

/-- A settlement is judged by the quote of its calldata: unknown when the hash is another one, not
paid for another action, else settled. -/
theorem judgeSettlement_ok {settlement : PaidSettlement} {input : String}
    {result : ExecutePaidResult}
    (h : judgeSettlement ethers settings settlement input = .ok result) :
    ∃ settled hash, settledQuote ethers input = .ok settled ∧
      hashExecutionQuoteV1 ethers settled = .ok hash ∧
      ((∃ id detail, result = .unknown id none detail) ∨
        hash = toLowerCase settlement.executionId ∧
          ((sameAction settings settled = false ∧ ∃ reason, result = .notPaid reason) ∨
            (sameAction settings settled = true ∧
              result = settledResult settlement (toBigInt settled.maximumTransactionGas)))) := by
  obtain ⟨settled, hsettled, h⟩ := bind_eq_ok_iff.mp h
  obtain ⟨hash, hhash, h⟩ := bind_eq_ok_iff.mp h
  refine ⟨settled, hash, hsettled, hhash, ?_⟩
  split_ifs at h with hdifferent hother
  · exact .inl ⟨_, _, (Except.ok.inj h).symm⟩
  · refine .inr ⟨not_not.mp hdifferent, .inl ⟨?_, _, (Except.ok.inj h).symm⟩⟩
    simpa using hother
  · refine .inr ⟨not_not.mp hdifferent, .inr ⟨?_, (Except.ok.inj h).symm⟩⟩
    simpa using hother

/-- A result of `resume` rests on a log and its calldata, or on there being none. -/
theorem resume_ok {result : ExecutePaidResult}
    (h : (resume ethers settings block).run.Yields events (.ok result)) :
    Resumed ethers settings events result := by
  obtain ⟨part, found, rest, hfound, hrest, rfl⟩ := yields_run_bind_ok.mp h
  cases found with
  | none => exact .inl ⟨_, _, Except.ok.inj hrest.2⟩
  | some settlement =>
    obtain ⟨first, last, log, hlog, hsub⟩ := findSettlement_some hfound
    obtain rfl := yields_perform.mp hlog
    obtain ⟨read, input, later, hread, hlater, rfl⟩ := yields_run_bind_ok.mp hrest
    obtain rfl := yields_perform.mp hread
    cases input with
    | none => exact .inl ⟨_, _, Except.ok.inj hlater.2⟩
    | some input =>
      obtain ⟨settled, hash, hsettled, hhash, hcases⟩ := judgeSettlement_ok hlater.2.symm
      rcases hcases with hunknown | ⟨rfl, hcases⟩
      · exact .inl hunknown
      · refine .inr ⟨settlement, settled, ⟨first, last, input, ?_, ?_, hsettled, hhash⟩, hcases⟩
        · exact List.mem_append_left _ (hsub List.mem_cons_self)
        · exact List.mem_append_right _ List.mem_cons_self

/-! ### The two polls -/

variable {polls : ℕ}

/-- At one block, the payment id was unconsumed and the chain time past the given one. -/
def UnconsumedAfter (ethers : Ethers) (settings : Settings) (validUntilUnix : ℤ)
    (events : List Event) : Prop :=
  ∃ block timestamp, Answered events .blockNumber (.ok block) ∧
    FlagRead ethers settings .isPaymentConsumed settings.paymentIdHex block false events ∧
    Answered events (.blockTimestamp (.number block)) (.ok timestamp) ∧
    validUntilUnix < timestamp

/-- At one block, the payment id was consumed, and the settlement was read. -/
def ConsumedRead (ethers : Ethers) (settings : Settings) (events : List Event)
    (result : ExecutePaidResult) : Prop :=
  ∃ block, Answered events .blockNumber (.ok block) ∧
    FlagRead ethers settings .isPaymentConsumed settings.paymentIdHex block true events ∧
    Resumed ethers settings events result

/-- What `paymentEvidence` says of the events it goes through. -/
def EvidenceRead (ethers : Ethers) (settings : Settings) (quote : SubmittedQuote) (wait : Bool)
    (events : List Event) : Evidence → Prop
  | .unconsumed => wait = false
  | .expired => UnconsumedAfter ethers settings quote.validUntilUnix events
  | .result result =>
    (∃ detail, result = .unknown quote.executionId quote.validUntilUnix detail) ∨
      ConsumedRead ethers settings events result

/-- Evidence that was read was read in every longer trace. -/
theorem EvidenceRead.mono {quote : SubmittedQuote} {wait : Bool} {evidence : Evidence}
    (h : EvidenceRead ethers settings quote wait events evidence) (hsub : events ⊆ events') :
    EvidenceRead ethers settings quote wait events' evidence := by
  cases evidence with
  | unconsumed => exact h
  | expired =>
    obtain ⟨block, timestamp, hblock, hflag, htimestamp, hlater⟩ := h
    exact ⟨block, timestamp, hblock.mono hsub, hflag.mono hsub, htimestamp.mono hsub, hlater⟩
  | result result =>
    refine h.imp_right ?_
    rintro ⟨block, hblock, hflag, hresumed⟩
    exact ⟨block, hblock.mono hsub, hflag.mono hsub, hresumed.mono hsub⟩

/-- A round of evidence that ends the reading says what it was read from. -/
theorem readPayment_inl {quote : SubmittedQuote} {wait : Bool} {evidence : Evidence}
    (h : (readPayment ethers settings quote wait).run.Yields events (.ok (.inl evidence))) :
    EvidenceRead ethers settings quote wait events evidence := by
  obtain ⟨first, block, rest, hfirst, hrest, rfl⟩ := yields_run_bind_ok.mp h
  obtain rfl := yields_perform.mp hfirst
  obtain ⟨reads, ⟨consumed, timestamp⟩, later, hreads, hlater, rfl⟩ := yields_run_bind_ok.mp hrest
  obtain ⟨flag, time, hflag, htime, rfl⟩ := yields_run_both_ok.mp hreads
  obtain rfl := yields_perform.mp htime
  have hflag := readFlag_ok hflag
  dsimp only at hlater
  split_ifs at hlater with hconsumed hexpired hwait
  · obtain ⟨part, result, last, hpart, ⟨rfl, hresult⟩, rfl⟩ := yields_run_bind_ok.mp hlater
    obtain rfl : evidence = .result result := Sum.inl.inj (Except.ok.inj hresult)
    refine .inr ⟨block, List.mem_cons_self, (hconsumed ▸ hflag).mono ?_, (resume_ok hpart).mono ?_⟩
    · intro event hevent
      simp [hevent]
    · intro event hevent
      simp [hevent]
  · obtain rfl : evidence = .expired := Sum.inl.inj (Except.ok.inj hlater.2)
    rw [Bool.not_eq_true] at hconsumed
    refine ⟨block, timestamp, List.mem_cons_self, (hconsumed ▸ hflag).mono ?hsub, ?htime, hexpired⟩
    case hsub =>
      intro event hevent
      simp [hevent]
    case htime =>
      exact List.mem_append_right _ (List.mem_append_left _ (List.mem_append_right _
        List.mem_cons_self))
  · obtain rfl : evidence = .unconsumed := Sum.inl.inj (Except.ok.inj hlater.2)
    simpa [EvidenceRead] using hwait
  · cases hlater.2

/-- The end of a poll of the payment. -/
theorem afterRead_inl {quote : SubmittedQuote} {wait : Bool} {waiting : Waiting}
    {evidence : Evidence} {outcome : Except Failure (Evidence ⊕ ℤ × String)}
    (h : afterRead ethers quote wait waiting outcome = .inl evidence)
    (hread : (readPayment ethers settings quote wait).run.Yields events outcome) :
    EvidenceRead ethers settings quote wait events evidence := by
  match outcome, h, hread with
  | .ok (.inl _), h, hread =>
    obtain rfl := Sum.inl.inj h
    exact readPayment_inl hread
  | .ok (.inr (timestamp, detail)), h, _ =>
    rw [afterRead] at h
    split_ifs at h
  | .error failure, h, _ =>
    rw [afterRead] at h
    split_ifs at h
    obtain rfl := Sum.inl.inj h
    exact .inl ⟨_, rfl⟩

/-- Polling ends with evidence that was read, or is cut off by the bound of the model. -/
theorem pollPayment_spec {quote : SubmittedQuote} {wait : Bool} {waiting : Waiting}
    {r : Except Abrupt Evidence}
    (h : (pollPayment ethers settings quote wait polls waiting).run.Yields events r) :
    r = .error .polling ∨
      ∃ evidence, r = .ok evidence ∧ EvidenceRead ethers settings quote wait events evidence := by
  induction polls generalizing events waiting with
  | zero => exact .inl h.2
  | succ polls ih =>
    obtain ⟨read, outcome, rest, hread, hrest, rfl⟩ := yields_run_lift_bind.mp h
    cases hafter : afterRead ethers quote wait waiting outcome with
    | inl evidence =>
      rw [hafter] at hrest
      obtain ⟨rfl, rfl⟩ := hrest
      exact .inr ⟨evidence, rfl, (afterRead_inl hafter hread).mono (List.subset_append_left _ _)⟩
    | inr waiting =>
      rw [hafter] at hrest
      obtain ⟨clock, now, later, -, hlater, rfl⟩ := yields_run_lift_bind.mp hrest
      split_ifs at hlater
      · obtain ⟨rfl, rfl⟩ := hlater
        exact .inr ⟨_, rfl, .inl ⟨_, rfl⟩⟩
      · obtain ⟨pause, _, last, -, hlast, rfl⟩ := yields_run_lift_bind.mp hlater
        refine (ih hlast).imp_right ?_
        rintro ⟨evidence, rfl, hevidence⟩
        refine ⟨evidence, rfl, hevidence.mono fun event hevent => ?_⟩
        simp [hevent]

/-- `paymentEvidence` ends with what it read, or is still polling. -/
theorem paymentEvidence_spec {quote : SubmittedQuote} {wait : Bool} {r : Except Abrupt Evidence}
    (h : (paymentEvidence ethers settings quote wait polls).run.Yields events r) :
    r = .error .polling ∨
      ∃ evidence, r = .ok evidence ∧ EvidenceRead ethers settings quote wait events evidence := by
  obtain ⟨clock, now, rest, -, hrest, rfl⟩ := yields_run_lift_bind.mp h
  refine (pollPayment_spec hrest).imp_right ?_
  rintro ⟨evidence, rfl, hevidence⟩
  exact ⟨evidence, rfl, hevidence.mono (List.subset_append_right _ _)⟩

/-- What `awaitSettlement` says of the events it goes through. -/
def ConfirmationRead (settings : Settings) (pending : PendingExecution) (events : List Event) :
    Confirmation → Prop
  | .found settlement => settlementMismatch settlement settings pending = none ∧
    ∃ first last, Answered events
      (.settlementLog settings.entryPoint pending.executionId first last) (.ok (some settlement))
  | _ => True

/-- A settlement that is found was read from the logs of the pending execution. -/
theorem readSettlement_found {pending : PendingExecution} {settlement : PaidSettlement}
    (h : (readSettlement ethers settings pending).run.Yields events
      (.ok (.inl (.found settlement)))) :
    ConfirmationRead settings pending events (.found settlement) := by
  obtain ⟨first, block, rest, -, hrest, rfl⟩ := yields_run_bind_ok.mp h
  obtain ⟨reads, ⟨consumed, timestamp⟩, later, -, hlater, rfl⟩ := yields_run_bind_ok.mp hrest
  dsimp only at hlater
  split_ifs at hlater
  · obtain ⟨part, found, last, hpart, hlast, rfl⟩ := yields_run_bind_ok.mp hlater
    cases found with
    | none => cases hlast.2
    | some found =>
      obtain ⟨from_, to_, log, hlog, hsub⟩ := findSettlement_some hpart
      obtain rfl := yields_perform.mp hlog
      dsimp only at hlast
      split at hlast
      next hmatch =>
        obtain rfl := Confirmation.found.inj (Sum.inl.inj (Except.ok.inj hlast.2))
        refine ⟨hmatch, from_, to_, ?_⟩
        refine List.mem_append_right _ (List.mem_append_right _ (List.mem_append_left _ ?_))
        exact hsub List.mem_cons_self
      next => cases hlast.2
  · cases hlater.2
  · cases hlater.2

/-- `awaitSettlement` ends with what it read, or is still polling. -/
theorem awaitSettlement_spec {pending : PendingExecution} {r : Except Abrupt Confirmation}
    (h : (awaitSettlement ethers settings pending polls).run.Yields events r) :
    r = .error .polling ∨
      ∃ confirmation, r = .ok confirmation ∧
        ConfirmationRead settings pending events confirmation := by
  induction polls generalizing events with
  | zero => exact .inl h.2
  | succ polls ih =>
    obtain ⟨read, outcome, rest, hread, hrest, rfl⟩ := yields_run_lift_bind.mp h
    obtain ⟨round, result, final, hround, hfinal, rfl⟩ := yields_bind.mp hread
    match outcome, hrest, hfinal with
    | .inl confirmation, ⟨hnil, hr⟩, hfinal =>
      refine .inr ⟨confirmation, hr, ?_⟩
      cases confirmation with
      | found settlement =>
        cases result with
        | error failure => cases hfinal.2
        | ok result =>
          obtain ⟨rfl, rfl⟩ := hfinal
          obtain ⟨hmatch, from_, to_, hlog⟩ := readSettlement_found hround
          exact ⟨hmatch, from_, to_, hlog.mono fun event hevent => by simp [hevent]⟩
      | unknown detail => trivial
      | expired => trivial
    | .inr detail, hrest, _ =>
      obtain ⟨clock, now, later, -, hlater, rfl⟩ := yields_run_lift_bind.mp hrest
      split_ifs at hlater
      · exact .inr ⟨_, hlater.2, trivial⟩
      · obtain ⟨pause, _, last, -, hlast, rfl⟩ := yields_run_lift_bind.mp hlater
        refine (ih hlast).imp_right ?_
        rintro ⟨confirmation, rfl, hconfirmation⟩
        refine ⟨confirmation, rfl, ?_⟩
        cases confirmation with
        | found settlement =>
          obtain ⟨hmatch, from_, to_, hlog⟩ := hconfirmation
          exact ⟨hmatch, from_, to_, hlog.mono fun event hevent => by simp [hevent]⟩
        | unknown detail => trivial
        | expired => trivial

end NoxSdk.Paid
