import Mathlib.Algebra.BigOperators.Group.List.Basic
import Mathlib.Data.Finset.Card
import NoxSdk.Paid.Outcomes
import NoxSdk.Paid.Settlements

/-!
# The exits that a run discloses the payment to

A quote request names the payment and the action, and the client may send it to a second exit
after a timeout. A run counts one or two exits for a request by its outcome, and asks another exit
while it has counted less than `maxExits`. `reached_le_maxExits` is the condition on the resends
under which the exits that were reached stay within `maxExits`.
-/

namespace NoxSdk.Paid

open Js (toLowerCase)
open NoxSdk.Lib
open NoxSdk.Lib.Prog

variable {ethers : Ethers} {options : ExecutePaidOptions} {settings : Settings}
  {context : Context} {st : LoopState} {events history trace : List Event} {polls maxExits : ℕ}
  {r : Except Abrupt LoopState}

/-- The exits that a call sent a quote request to. -/
def reachedBy : Event → List String
  | ⟨.requestPaidQuote _ exit, reply⟩ =>
    toLowerCase exit.id :: (reply.resentTo.map fun other => toLowerCase other.id).toList
  | _ => []

/-- The exits that the quote requests of a trace reached. -/
def reached (events : List Event) : Finset String := (events.flatMap reachedBy).toFinset

/-- The exits that a run counts for a quote request. -/
def countedBy : Event → ℕ
  | ⟨.requestPaidQuote _ exit, reply⟩ =>
    match reply.outcome with
    | .ok (.rejected _) => 1
    | .ok (.issued issued) =>
      if toLowerCase issued.selectedExit.id = toLowerCase exit.id then 1 else 2
    | .error failure => if failure.code = some .responseTimeout then 2 else 1
  | _ => 0

/-- The exits that a run counts for its quote requests. -/
def counted (events : List Event) : ℕ := (events.map countedBy).sum

theorem reached_snoc (event : Event) :
    reached (events ++ [event]) = reached events ∪ (reachedBy event).toFinset := by
  simp [reached, List.flatMap_append]

theorem counted_append (before after : List Event) :
    counted (before ++ after) = counted before + counted after := by
  simp [counted]

/-- No quote is requested. -/
def NoRequest (events : List Event) : Prop := ∀ event ∈ events, isQuoteRequest event = false

theorem NoRequest.append {after : List Event} (hbefore : NoRequest events)
    (hafter : NoRequest after) : NoRequest (events ++ after) := fun event hevent =>
  (List.mem_append.mp hevent).elim (hbefore event) (hafter event)

theorem QuietEvents.noRequest (h : QuietEvents events) : NoRequest events := by
  rintro ⟨op, reply⟩ hevent
  have hquiet := h _ hevent
  cases op with
  | requestPaidQuote request exit => exact hquiet.elim
  | _ => rfl

theorem countedBy_of_noRequest {event : Event} (h : isQuoteRequest event = false) :
    countedBy event = 0 := by
  obtain ⟨op, reply⟩ := event
  cases op with
  | requestPaidQuote request exit => cases h
  | _ => rfl

theorem reachedBy_of_noRequest {event : Event} (h : isQuoteRequest event = false) :
    reachedBy event = [] := by
  obtain ⟨op, reply⟩ := event
  cases op with
  | requestPaidQuote request exit => cases h
  | _ => rfl

theorem NoRequest.counted (h : NoRequest events) : counted events = 0 := by
  refine List.sum_eq_zero fun count hcount => ?_
  obtain ⟨event, hevent, rfl⟩ := List.mem_map.mp hcount
  exact countedBy_of_noRequest (h event hevent)

theorem countedBy_pos {request : PaidQuoteRequestV2} {exit : TopologyNode} {reply : QuoteReply} :
    0 < countedBy ⟨.requestPaidQuote request exit, reply⟩ := by
  rw [countedBy]
  split
  · exact Nat.one_pos
  · split_ifs
    · exact Nat.one_pos
    · exact Nat.two_pos
  · split_ifs
    · exact Nat.two_pos
    · exact Nat.one_pos

/-! ### The bound of a trace -/

/-- A request is made while less than `maxExits` exits have been counted. -/
def RequestGuard (maxExits : ℕ) (before : List Event) : Op → Prop
  | .requestPaidQuote _ _ => counted before < maxExits
  | _ => True

/-- Every request that was sent to an exit for the first time by being sent once more had two
exits left to count, and either counts two or is the last one. -/
def Accounted (maxExits : ℕ) (trace : List Event) : Prop :=
  ∀ before request exit reply other after,
    trace = before ++ (⟨.requestPaidQuote request exit, reply⟩ : Event) :: after →
    reply.resentTo = some other →
      toLowerCase other.id = toLowerCase exit.id ∨ toLowerCase other.id ∈ reached before ∨
        counted before + 2 ≤ maxExits ∧
          (countedBy ⟨.requestPaidQuote request exit, reply⟩ = 2 ∨ NoRequest after)

/-- A request adds its exit, and the one that it was sent to once more. -/
theorem reached_request {request : PaidQuoteRequestV2} {exit : TopologyNode} {reply : QuoteReply} :
    reached (events ++ [⟨.requestPaidQuote request exit, reply⟩]) =
      match reply.resentTo with
      | some other => insert (toLowerCase other.id) (insert (toLowerCase exit.id) (reached events))
      | none => insert (toLowerCase exit.id) (reached events) := by
  rw [reached_snoc, reachedBy]
  cases reply.resentTo with
  | some other =>
    ext id
    simp only [Option.map_some, Option.toList_some, Finset.mem_union, List.mem_toFinset,
      List.mem_cons, List.not_mem_nil, or_false, Finset.mem_insert]
    tauto
  | none =>
    ext id
    simp only [Option.map_none, Option.toList_none, Finset.mem_union, List.mem_toFinset,
      List.mem_cons, List.not_mem_nil, or_false, Finset.mem_insert]
    tauto

/-- The exits reached stay within the bound, and within those counted while requests follow. -/
theorem reached_le (hguard : Guaranteed (RequestGuard maxExits) trace)
    (haccounted : Accounted maxExits trace) (before rest : List Event)
    (hsplit : trace = before ++ rest) :
    (reached before).card ≤ maxExits ∧
      ((reached before).card ≤ counted before ∨ NoRequest rest) := by
  -- on the end of the trace: what comes after an event is the rest behind the shorter trace
  induction before using List.reverseRecOn generalizing rest with
  | nil => exact ⟨Nat.zero_le _, .inl (Nat.zero_le _)⟩
  | append_singleton before event ih =>
    rw [List.append_assoc] at hsplit
    obtain ⟨hmax, hcounted⟩ := ih (event :: rest) hsplit
    have hcount : counted (before ++ [event]) = counted before + countedBy event := by
      simp [counted]
    cases hevent : isQuoteRequest event with
    | false =>
      rw [reached_snoc, reachedBy_of_noRequest hevent, hcount, countedBy_of_noRequest hevent]
      simp only [List.toFinset_nil, Finset.union_empty, Nat.add_zero]
      exact ⟨hmax, hcounted.imp_right fun h => (List.forall_mem_cons.mp h).2⟩
    | true =>
      obtain ⟨op, reply⟩ := event
      cases op with
      | requestPaidQuote request exit =>
        have hcard := hcounted.resolve_right fun h => by
          rw [(List.forall_mem_cons.mp h).1] at hevent
          cases hevent
        have hleft : counted before < maxExits := hguard before _ _ rest hsplit
        have hpos := @countedBy_pos request exit reply
        have hexit := Finset.card_insert_le (toLowerCase exit.id) (reached before)
        rw [hcount, reached_request]
        cases hresent : reply.resentTo with
        | none =>
          dsimp only
          omega
        | some other =>
          -- a resend reaches one exit more: the same, a known one, or one that is counted
          have hother := Finset.card_insert_le (toLowerCase other.id)
            (insert (toLowerCase exit.id) (reached before))
          dsimp only
          rcases haccounted before request exit reply other rest hsplit hresent with
            hsame | hknown | ⟨htwo, hnext⟩
          · rw [hsame, Finset.insert_idem]
            omega
          · rw [Finset.insert_eq_of_mem (Finset.mem_insert_of_mem hknown)]
            omega
          · refine ⟨by omega, hnext.imp_left fun h => ?_⟩
            omega
      | _ => cases hevent

/-! ### The loop -/

/-- The state after a request counts it. -/
theorem quoteStep_counted {request : PaidQuoteRequestV2} {exit : TopologyNode} {reply : QuoteReply}
    {next : LoopState}
    (h : quoteStep ethers (st.use exit) exit reply.outcome = .next next ∨
      ∃ issued, quoteStep ethers (st.use exit) exit reply.outcome = .issued issued next) :
    next.contacted = st.contacted + countedBy ⟨.requestPaidQuote request exit, reply⟩ := by
  obtain ⟨outcome, resentTo⟩ := reply
  rw [countedBy]
  match outcome with
  | .ok (.rejected rejection) =>
    rcases h with h | ⟨_, h⟩
    · cases h
      rfl
    · cases h
  | .ok (.issued issued) =>
    rcases h with h | ⟨_, h⟩
    · cases h
    · cases h
      rfl
  | .error failure =>
    rcases h with h | ⟨_, h⟩
    · rw [quoteStep] at h
      split at h
      next hcode =>
        cases h
        exact congrArg (st.contacted + ·) (if_pos hcode).symm
      next hcode =>
        cases h
        exact congrArg (st.contacted + ·) (if_neg (by rw [hcode]; decide)).symm
      next => cases h
    · rw [quoteStep] at h
      split at h <;> cases h

/-- A round that goes on requests one quote, another round at most one. -/
theorem Round.request (h : Round ethers context st polls events r) :
    (NoRequest events ∧ ∀ next, r ≠ .ok next) ∨
    ∃ before request exit reply after,
      events = before ++ (⟨.requestPaidQuote request exit, reply⟩ : Event) :: after ∧
      NoRequest before ∧ NoRequest after ∧
      ∀ next, r = .ok next →
        next.contacted = st.contacted + countedBy ⟨.requestPaidQuote request exit, reply⟩ := by
  cases h with
  | unasked hquiet _ => exact .inl ⟨hquiet.noRequest, fun next h => by cases h⟩
  | unanswered hquiet hstep =>
    refine .inr ⟨_, _, _, _, _, rfl, hquiet.noRequest, quietEvents_nil.noRequest, ?_⟩
    intro next h
    obtain rfl := Except.ok.inj h
    exact quoteStep_counted (.inl hstep)
  | failed hquiet hstep =>
    exact .inr ⟨_, _, _, _, _, rfl, hquiet.noRequest, quietEvents_nil.noRequest,
      fun next h => by cases h⟩
  | left hquiet hstep hchecks hearly =>
    exact .inr ⟨_, _, _, _, _, rfl, hquiet.noRequest, hchecks.noRequest, fun next h => by cases h⟩
  | @submitted before plan request exit reply issued next checks typed calldata outcome after r
      hquiet hplanned hstep hchecks htyped hchecked hafter =>
    refine .inr ⟨_, _, _, _, _, rfl, hquiet.noRequest, hchecks.noRequest.append ?_, ?_⟩
    · exact List.forall_mem_cons.mpr
        ⟨rfl, QuietEvents.noRequest (quiet_afterSubmit.of_yields hafter)⟩
    rintro next' rfl
    rw [← quoteStep_counted (.inr ⟨issued, hstep⟩)]
    rcases afterSubmit_cases hafter with
      ⟨-, _, h⟩ | ⟨-, _, -, h | ⟨_, h, -, hcontacted, -⟩ | ⟨_, h, -⟩⟩
    · cases h
    · cases h
    · obtain rfl := Except.ok.inj h
      exact hcontacted
    · cases h

theorem requestGuard_append (h : Guaranteed (RequestGuard maxExits) history)
    (hnone : NoRequest events) : Guaranteed (RequestGuard maxExits) (history ++ events) := by
  refine h.append fun before op reply after hsplit => ?_
  have hop := hnone ⟨op, reply⟩ (hsplit ▸ List.mem_append_right _ List.mem_cons_self)
  cases op with
  | requestPaidQuote request exit => cases hop
  | _ => trivial

/-- A round that may contact an exit keeps the guard, and the count of the loop. -/
theorem Round.requestGuard (h : Round ethers context st polls events r)
    (hleft : st.contacted < context.settings.maxExits) (hcount : st.contacted = counted history)
    (hguard : Guaranteed (RequestGuard context.settings.maxExits) history) :
    Guaranteed (RequestGuard context.settings.maxExits) (history ++ events) ∧
      ∀ next, r = .ok next → next.contacted = counted (history ++ events) := by
  rcases h.request with ⟨hnone, hr⟩ |
    ⟨before, request, exit, reply, after, rfl, hbefore, hafter, hnext⟩
  · exact ⟨requestGuard_append hguard hnone, fun next h => absurd h (hr next)⟩
  have hearlier : counted (history ++ before) = counted history := by
    rw [counted_append, hbefore.counted, Nat.add_zero]
  have hsplit : history ++ (before ++ (⟨.requestPaidQuote request exit, reply⟩ : Event) :: after)
      = history ++ before ++ [⟨.requestPaidQuote request exit, reply⟩] ++ after := by
    simp
  rw [hsplit]
  refine ⟨requestGuard_append ((requestGuard_append hguard hbefore).snoc ?_) hafter,
    fun next h => ?_⟩
  · exact hearlier.trans_lt (hcount ▸ hleft)
  · rw [counted_append, hafter.counted, counted_append, hearlier, hnext next h, hcount]
    simp [counted]

/-- The requests of a run keep the guard. -/
theorem executePaid_requestGuard {result : Except Abrupt ExecutePaidResult}
    (hsettings : resolveSettings ethers options = .ok settings)
    (h : (executePaid ethers options polls).run.Yields trace result) :
    Guaranteed (RequestGuard settings.maxExits) trace := by
  obtain ⟨attempt, final, ended, rfl, hquiet, hbody, -⟩ := executePaid_cases hsettings h
  refine requestGuard_append ?_ hquiet.noRequest
  have hnil : Guaranteed (RequestGuard settings.maxExits) ([] : List Event) := by
    intro before op reply after hsplit
    simp at hsplit
  rcases attemptBody_cases hbody with ⟨hbefore, -⟩ |
    ⟨pinned, pinnedAtMs, before, loop, rfl, hbefore, -, hloop⟩
  · exact requestGuard_append hnil hbefore.noRequest
  obtain ⟨hended, hstopped⟩ := exitLoop_spec
    (I := fun history st =>
      Guaranteed (RequestGuard settings.maxExits) history ∧ st.contacted = counted history)
    (P := fun history _ => Guaranteed (RequestGuard settings.maxExits) history)
    (fun _ _ _ next hinv hleft hround =>
      have hkept := hround.requestGuard hleft hinv.2 hinv.1
      ⟨hkept.1, hkept.2 next rfl⟩)
    (fun _ _ _ _ hinv hleft hround => (hround.requestGuard hleft hinv.2 hinv.1).1) hloop
    ⟨requestGuard_append hnil hbefore.noRequest, hbefore.noRequest.counted.symm⟩
  cases ended with
  | ok final => exact (hended final rfl).1
  | error e =>
    refine (hstopped e rfl).resolve_left fun he => ?_
    subst he
    exact exitLoop_not_looping
      ((resolveSettings_maxExits hsettings).le.trans (Nat.le_add_left _ _)) hloop

/-- **`maxExits` bounds disclosure**, if every request that was sent once more to another exit had
two exits left to count, and counts two or is the last one.

When an exit is asked, fewer exits were counted than are allowed (`executePaid_requestGuard`). The
induction over the prefixes of the trace (`reached_le`) carries that those reached are within the
bound, and within those counted while requests follow. -/
theorem reached_le_maxExits {behaviour : Behaviour Op Reply}
    {result : Except Abrupt ExecutePaidResult}
    (hrun : (executePaid ethers options polls).run.run behaviour [] = (trace, result))
    (haccounted : Accounted (options.maxExits.getD defaults.maxExits) trace) :
    (reached trace).card ≤ options.maxExits.getD defaults.maxExits := by
  rcases hsettings : resolveSettings ethers options with failure | settings
  · rw [(executePaid_invalid hsettings (of_run hrun)).1]
    exact Nat.zero_le _
  · rw [← resolveSettings_maxExits hsettings] at haccounted ⊢
    exact (reached_le (executePaid_requestGuard hsettings (of_run hrun)) haccounted trace []
      (List.append_nil _).symm).1

/-! ### A request that is sent once more -/

/-- What the client documents of a call: a request is sent once more to another exit, and a quote
is issued by an exit that the request reached. -/
def resendsOnce : Event → Bool
  | ⟨.requestPaidQuote _ exit, reply⟩ =>
    (reply.resentTo.all fun other => toLowerCase other.id != toLowerCase exit.id) &&
      match reply.outcome with
      | .ok (.issued issued) =>
        issued.selectedExit == exit || some issued.selectedExit == reply.resentTo
      | _ => true
  | _ => true

/-- An environment in which the first exit and the second one, to which the client sends the
request after a timeout, both do not answer. -/
def resendingBehaviour : Behaviour Op Reply := fun trace op =>
  match op with
  | .requestPaidQuote _ _ =>
    ⟨.error ⟨"no response in time", some .responseTimeout, none⟩, some ⟨secondExit⟩⟩
  | op => sampleBehaviour sampleRejection trace op

/-- What these samples show of a run. -/
def resendingView (run : List Event × Except Abrupt ExecutePaidResult) :
    List String × ℕ × Bool × Bool :=
  (run.1.flatMap reachedBy, run.1.countP isQuoteRequest,
    run.1.all fun event => !isQuoteRequest event || countedBy event == 2, run.1.all resendsOnce)

theorem accounted_of_single {limit : ℕ} (hlimit : 2 ≤ limit)
    (hone : trace.countP isQuoteRequest = 1)
    (htwo : trace.all fun event => !isQuoteRequest event || countedBy event == 2) :
    Accounted limit trace := by
  rintro before request exit reply other after rfl -
  rw [List.countP_append, @List.countP_cons_of_pos _ isQuoteRequest _ _ rfl] at hone
  have hnone : NoRequest before := fun event hevent => by
    have hzero := List.countP_eq_zero.mp (show before.countP isQuoteRequest = 0 by omega)
    exact Bool.eq_false_iff.mpr (hzero event hevent)
  refine .inr (.inr ⟨by rw [hnone.counted]; exact hlimit, .inl ?_⟩)
  have hevent := List.all_eq_true.mp htwo ⟨.requestPaidQuote request exit, reply⟩ (by simp)
  simpa [isQuoteRequest] using hevent

/-- However many exits may be contacted, the request reaches two. -/
theorem resendingView_sample :
    (∀ options ∈ [twoExitOptions, sampleOptions],
      resendingView ((executePaid sampleEthers options 4).run.run resendingBehaviour []) =
        ([toLowerCase sampleExit, toLowerCase secondExit], 1, true, true)) ∧
      [toLowerCase sampleExit, toLowerCase secondExit].Nodup := by
  decide +kernel

/-- With two exits to contact, both are counted. -/
theorem reached_le_maxExits_sample :
    ∃ trace result,
      (executePaid sampleEthers twoExitOptions 4).run.run resendingBehaviour [] = (trace, result) ∧
      trace.flatMap reachedBy = [toLowerCase sampleExit, toLowerCase secondExit] ∧
      (reached trace).card ≤ 2 := by
  have hview := resendingView_sample.1 twoExitOptions (.head _)
  rcases hrun : (executePaid sampleEthers twoExitOptions 4).run.run resendingBehaviour []
    with ⟨trace, result⟩
  rw [hrun] at hview
  simp only [resendingView, Prod.mk.injEq] at hview
  obtain ⟨hreached, hone, htwo, -⟩ := hview
  exact ⟨trace, result, rfl, hreached,
    reached_le_maxExits hrun (accounted_of_single (le_refl 2) hone htwo)⟩

/-- With one exit to contact, the request is still sent to both. -/
theorem not_reached_le_maxExits :
    ¬∀ (ethers : Ethers) (options : ExecutePaidOptions) (polls : ℕ)
        (behaviour : Behaviour Op Reply) (trace : List Event)
        (result : Except Abrupt ExecutePaidResult),
        (executePaid ethers options polls).run.run behaviour [] = (trace, result) →
        trace.all resendsOnce →
        (reached trace).card ≤ options.maxExits.getD defaults.maxExits := by
  intro hbound
  have hview := resendingView_sample.1 sampleOptions (.tail _ (.head _))
  rcases hrun : (executePaid sampleEthers sampleOptions 4).run.run resendingBehaviour []
    with ⟨trace, result⟩
  rw [hrun] at hview
  simp only [resendingView, Prod.mk.injEq] at hview
  obtain ⟨hreached, -, -, honce⟩ := hview
  have hcard : (reached trace).card ≤ 1 := hbound _ _ _ _ _ _ hrun honce
  rw [reached, hreached, List.toFinset_card_of_nodup resendingView_sample.2] at hcard
  exact absurd hcard (by decide)

end NoxSdk.Paid
