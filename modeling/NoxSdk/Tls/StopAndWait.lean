import NoxSdk.Tls.ExchangeRuns

/-!
# A tunnel is stop-and-wait

The life of one tunnel. `TlsChannel.handshake` opens it with `seq` 0, each `TlsChannel.request`
runs exchanges on it in turn, and the pool tears it down: a session that is spare or idle, one
whose request ended well or not, and, on `close`, one that is in use. Every exchange and the
teardown take the next `seq` before anything is known of the last one.

The log holds what is handed to `tunnelSend` and the parts and rejections that come back to an
exchange that listens. What the session does with the bytes is open: whether an exchange is
satisfied, whether a request goes on, ends or throws is part of the events. A session that was freed
carries no more exchanges.
-/

namespace NoxSdk.Tls

open NoxSdk.Lib NoxSdk.Bincode NoxSdk.Topology

/-- A message that is handed to `tunnelSend`, or a part or a rejection that comes back. -/
inductive ChannelTrace
  | sent (copy : TunnelCopy)
  | heard (reply : TunnelReplyV1)

/-- What a channel is doing. -/
inductive ChannelPhase
  | fresh
  | running (handshake : Bool) (spec : ExchangeSpec) (seq : ℕ) (exchange : Exchange)
  | ready
  | failed (confirmed : Bool)
  | lost

/-- A `TlsChannel` and its `Tunnel`. -/
structure ChannelRun where
  nextSeq : ℕ
  stream : Downstream
  freed : Bool
  phase : ChannelPhase
  log : List ChannelTrace

/-- What `request` does when an exchange ended well: another one, or it returns, or throws. -/
inductive AfterExchange
  | again (spec : ExchangeSpec) (env : ExchangeEnv)
  | done
  | threw

/-- What happens to a tunnel. -/
inductive ChannelEvent
  | handshake (spec : ExchangeSpec) (env : ExchangeEnv)
  | exchange (event : ExchangeEvent)
  | settle (next : AfterExchange)
  | request (spec : ExchangeSpec) (env : ExchangeEnv)
  | teardown (closeNotify : Bytes) (deadlineAt : ℕ) (env : ExchangeEnv)

/-- The reply that an event brings to an exchange that listens. -/
def Exchange.hears (exchange : Exchange) : ExchangeEvent → List ChannelTrace
  | .part body _ _ =>
    if exchange.settled then []
    else match decodeTunnelReplyV1 body with
    | .ok reply => [.heard reply]
    | .error _ => []
  | _ => []

namespace ChannelRun

variable (tunnel : Tunnel) (s : ChannelRun)

/-- A tunnel on which nothing happened. -/
def start : ChannelRun := ⟨0, .start, false, .fresh, []⟩

/-- The start of `Tunnel.exchange`. -/
def runExchange (handshake : Bool) (spec : ExchangeSpec) (env : ExchangeEnv) : ChannelRun :=
  let exchange := Exchange.start tunnel spec s.nextSeq env s.stream
  { s with
    nextSeq := s.nextSeq + 1
    phase := .running handshake spec s.nextSeq exchange
    log := s.log ++ exchange.copies.map .sent }

/-- An event of the exchange that runs. -/
def onExchange (event : ExchangeEvent) : Option ChannelRun :=
  match s.phase with
  | .running handshake spec seq exchange =>
    (exchangeStep tunnel spec seq exchange event).map fun exchange' => { s with
      stream := exchange'.stream
      phase := .running handshake spec seq exchange'
      log := s.log ++ (exchange.hears event ++
        (exchange'.copies.drop exchange.copies.length).map .sent) }
  | _ => none

/-- `TlsPool.open` frees a channel whose handshake fails. -/
def lose : ChannelRun := { s with freed := true, phase := .lost }

/-- The promise of the exchange comes back to `handshake` or `request`. -/
def onSettled (next : AfterExchange) : Option ChannelRun :=
  match s.phase with
  | .running handshake _ _ exchange =>
    match exchange.outcomes.head? with
    | none => none
    | some (.error _) =>
      some (if handshake then s.lose else { s with phase := .failed exchange.confirmed })
    | some (.ok outcome) =>
      if handshake then some (if outcome = .eof then s.lose else { s with phase := .ready })
      else match next with
      | .again spec env =>
        if outcome = .satisfied ∧ s.freed = false then
          some (s.runExchange tunnel false spec env)
        else none
      | .done => some { s with phase := .ready }
      | .threw => some { s with phase := .failed exchange.confirmed }
  | _ => none

/-- `TlsChannel.request` on a session that is taken from the pool. -/
def onRequest (spec : ExchangeSpec) (env : ExchangeEnv) : Option ChannelRun :=
  match s.phase with
  | .ready => if s.freed then none else some (s.runExchange tunnel false spec env)
  | _ => none

/-- What `Tunnel.teardown` hands to `tunnelSend`. -/
def teardownCopy (closeNotify : Bytes) (deadlineAt : ℕ) (env : ExchangeEnv) : TunnelCopy :=
  let holdMs := max minHoldMs (min maxHoldMs (deadlineAt - env.now))
  { exit := tunnel.exit
    request :=
      { tunnelId := tunnel.id
        seq := s.nextSeq
        open_ := none
        ackOffset := s.stream.contiguous
        data := if s.stream.ended then [] else closeNotify
        close := true
        holdMs }
    surbs := 0
    timeoutMs := holdMs
    avoid := []
    background := true
    route := env.sent.toOption }

/-- `TlsChannel.teardown`. -/
def teardown (closeNotify : Bytes) (deadlineAt : ℕ) (env : ExchangeEnv) : ChannelRun :=
  if s.freed then s
  else { s with
    freed := true
    nextSeq := s.nextSeq + 1
    log := s.log ++ [.sent (s.teardownCopy tunnel closeNotify deadlineAt env)] }

/-- The pool has the channel: it was opened. -/
def pooled : Bool :=
  match s.phase with
  | .fresh | .lost => false
  | .running handshake _ _ _ => !handshake
  | .ready | .failed _ => true

/-- The last exchange was confirmed: a part or a rejection for its `seq` came in. -/
def lastConfirmed : Bool :=
  match s.phase with
  | .running _ _ _ exchange => exchange.confirmed
  | .failed confirmed => confirmed
  | .fresh | .ready | .lost => true

end ChannelRun

/-- One event on a tunnel. -/
def channelStep (tunnel : Tunnel) (s : ChannelRun) : ChannelEvent → Option ChannelRun
  | .handshake spec env =>
    match s.phase with
    | .fresh => some (s.runExchange tunnel true spec env)
    | _ => none
  | .exchange event => s.onExchange tunnel event
  | .settle next => s.onSettled tunnel next
  | .request spec env => s.onRequest tunnel spec env
  | .teardown closeNotify deadlineAt env =>
    if s.pooled then some (s.teardown tunnel closeNotify deadlineAt env) else none

/-- The event is no teardown after an exchange that was not confirmed. -/
def ConfirmedTeardown (s : ChannelRun) : ChannelEvent → Prop
  | .teardown _ _ _ => s.freed = true ∨ s.lastConfirmed = true
  | _ => True

/-- A reply to every `seq` below is in the log. -/
def HeardBelow (log : List ChannelTrace) (limit : ℕ) : Prop :=
  ∀ seq < limit, ∃ reply : TunnelReplyV1, reply.seq = seq ∧ .heard reply ∈ log

/-- A `seq` is sent only after a reply to every one below. -/
def StopAndWait (log : List ChannelTrace) : Prop :=
  ∀ past copy later, log = past ++ .sent copy :: later → HeardBelow past copy.request.seq

/-! ### Logs -/

/-- What was heard stays heard. -/
theorem HeardBelow.append {log : List ChannelTrace} {limit : ℕ} (h : HeardBelow log limit)
    (later : List ChannelTrace) : HeardBelow (log ++ later) limit := by
  intro seq hseq
  obtain ⟨reply, heq, hmem⟩ := h seq hseq
  exact ⟨reply, heq, List.mem_append_left later hmem⟩

/-- With the answer to one more request, all below the next are heard. -/
theorem HeardBelow.succ {log : List ChannelTrace} {seq : ℕ} (h : HeardBelow log seq)
    {reply : TunnelReplyV1} (hseq : reply.seq = seq) (hmem : .heard reply ∈ log) :
    HeardBelow log (seq + 1) := by
  intro below hbelow
  rcases Nat.lt_succ_iff_lt_or_eq.mp hbelow with hlt | rfl
  · exact h below hlt
  · exact ⟨reply, hseq, hmem⟩

/-- The order is kept by a step that sends only what all before was heard of. -/
theorem StopAndWait.append {log traces : List ChannelTrace} (h : StopAndWait log)
    (hnew : ∀ copy, .sent copy ∈ traces → HeardBelow log copy.request.seq) :
    StopAndWait (log ++ traces) := by
  intro past copy later heq
  rcases List.append_eq_append_iff.mp heq with ⟨more, rfl, hmore⟩ | ⟨more, hlog, hmore⟩
  · refine (hnew copy ?_).append more
    rw [hmore]
    exact List.mem_append_right more List.mem_cons_self
  · -- the copy is the first new one, or it was in the log
    rcases more with - | ⟨trace, more⟩
    · rw [List.append_nil] at hlog
      rw [← hlog]
      refine hnew copy ?_
      rw [← List.nil_append traces, ← hmore]
      exact List.mem_cons_self
    · obtain ⟨rfl, -⟩ := List.cons.inj hmore
      exact h past copy more hlog

/-! ### Confirmed exchanges -/

namespace Exchange

variable {tunnel : Tunnel} {spec : ExchangeSpec} {seq : ℕ} {env : ExchangeEnv}
  {exchange exchange' exchange'' : Exchange}

/-- Nothing was confirmed and nothing ended well. -/
structure Follows (exchange exchange' : Exchange) : Prop where
  confirmed : exchange'.confirmed = exchange.confirmed
  outcomes : ∀ outcome, .ok outcome ∈ exchange'.outcomes → .ok outcome ∈ exchange.outcomes

theorem Follows.refl (exchange : Exchange) : Follows exchange exchange := ⟨rfl, fun _ => id⟩

/-- Steps in turn follow the exchange too. -/
theorem Follows.trans (h : Follows exchange exchange') (h' : Follows exchange' exchange'') :
    Follows exchange exchange'' where
  confirmed := h'.confirmed.trans h.confirmed
  outcomes outcome hmem := h.outcomes outcome (h'.outcomes outcome hmem)

/-- A field that is neither may change first. -/
theorem Follows.of_same (h : Follows exchange' exchange'')
    (hconfirmed : exchange'.confirmed = exchange.confirmed)
    (houtcomes : exchange'.outcomes = exchange.outcomes) : Follows exchange exchange'' :=
  Follows.trans ⟨hconfirmed, fun _ hmem => houtcomes ▸ hmem⟩ h

/-- An end confirms nothing. -/
theorem finish_confirmed (outcome : Except TunnelError ExchangeOutcome) :
    (exchange.finish outcome).confirmed = exchange.confirmed := by
  rw [finish]
  split_ifs <;> rfl

/-- An exchange that fails has no outcome that was not confirmed. -/
theorem follows_finish (error : TunnelError) :
    Follows exchange (exchange.finish (.error error)) := by
  refine ⟨finish_confirmed _, fun outcome hmem => ?_⟩
  rw [finish] at hmem
  split_ifs at hmem
  · exact hmem
  · rcases List.mem_append.mp hmem with hmem | hmem
    · exact hmem
    · cases List.mem_singleton.mp hmem

/-- Sending a copy confirms nothing. -/
theorem follows_send : Follows exchange (exchange.send tunnel spec seq env) := by
  rw [send]
  split_ifs
  · exact .refl _
  · exact follows_finish _
  · dsimp only
    split
    · exact (follows_finish _).of_same rfl rfl
    · exact ⟨rfl, fun _ => id⟩

/-- A copy sent for time confirms nothing. -/
theorem follows_timedCopy : Follows exchange (exchange.timedCopy tunnel spec seq env) := by
  rw [timedCopy]
  split_ifs
  · exact .refl _
  · exact .refl _
  · exact follows_send.of_same rfl rfl

/-- Watching a gap confirms nothing. -/
theorem follows_watchGap : Follows exchange (exchange.watchGap tunnel) := by
  rw [watchGap]
  split_ifs <;> exact ⟨rfl, fun _ => id⟩

/-- What follows a part sends copies, and confirms nothing itself. -/
theorem follows_afterPart (fin : Option TunnelFinV1) :
    Follows exchange (exchange.afterPart tunnel spec seq env fin) := by
  rw [afterPart]
  split_ifs
  · exact follows_watchGap.trans follows_send
  · exact follows_watchGap.trans ⟨rfl, fun _ => id⟩

/-- A copy that could not be sent confirms nothing. -/
theorem follows_onCopyFailed : Follows exchange (exchange.onCopyFailed tunnel spec seq env) := by
  rw [onCopyFailed]
  split_ifs
  · exact follows_timedCopy
  · exact .refl _

/-- Data is confirmed where it is told apart, not where it is taken. -/
theorem onData_confirmed (part : TunnelPartV1) (satisfied : Bool) :
    (exchange.onData tunnel spec seq env part satisfied).1.confirmed = exchange.confirmed := by
  rw [onData]
  split
  · exact finish_confirmed _
  · dsimp only
    split_ifs
    · exact finish_confirmed _
    · exact finish_confirmed _
    · exact (follows_afterPart _).confirmed

/-- A part confirms, or nothing ends well. -/
theorem onPart_cases (body : Bytes) (satisfied : Bool) :
    Follows exchange (exchange.onPart tunnel spec seq env body satisfied).1 ∨
      (exchange.onPart tunnel spec seq env body satisfied).1.confirmed = true ∧
        ∃ reply : TunnelReplyV1, reply.seq = seq ∧
          .heard reply ∈ exchange.hears (.part body satisfied env) := by
  rw [onPart]
  split_ifs with hsettled
  · exact .inl (.refl _)
  · cases hreply : decodeTunnelReplyV1 body with
    | error error => exact .inl (follows_finish _)
    | ok reply =>
      dsimp only
      split_ifs with hseq
      · exact .inl (.refl _)
      · right
        have hheard : .heard reply ∈ exchange.hears (.part body satisfied env) := by
          rw [hears, if_neg hsettled, hreply]
          exact List.mem_singleton_self _
        refine ⟨?_, reply, not_not.mp hseq, hheard⟩
        cases reply with
        | rejected => exact finish_confirmed _
        | data => exact onData_confirmed _ _

/-- What a step says of the reply that confirms. -/
theorem exchangeStep_cases {event : ExchangeEvent}
    (h : exchangeStep tunnel spec seq exchange event = some exchange') :
    Follows exchange exchange' ∨ exchange'.confirmed = true ∧
      ∃ reply : TunnelReplyV1, reply.seq = seq ∧ .heard reply ∈ exchange.hears event := by
  rcases event with ⟨body, satisfied, env⟩ | env | env | env | _ | _ | reason
  · obtain rfl := Option.some.inj h
    exact onPart_cases body satisfied
  · obtain rfl := Option.some.inj h
    exact .inl follows_onCopyFailed
  · obtain ⟨_, -, rfl⟩ := Option.map_eq_some_iff.mp h
    exact .inl (follows_timedCopy.of_same rfl rfl)
  · obtain ⟨_, -, rfl⟩ := Option.map_eq_some_iff.mp h
    left
    dsimp only
    split_ifs
    · exact follows_timedCopy.of_same rfl rfl
    · exact ⟨rfl, fun _ => id⟩
  · obtain ⟨afterMs, -, rfl⟩ := Option.map_eq_some_iff.mp h
    left
    dsimp only
    split_ifs
    · exact ⟨rfl, fun _ => id⟩
    · exact (follows_finish _).of_same rfl rfl
  · obtain ⟨_, -, rfl⟩ := Option.map_eq_some_iff.mp h
    exact .inl ((follows_finish _).of_same rfl rfl)
  · rw [exchangeStep] at h
    split_ifs at h
    obtain rfl := Option.some.inj h
    exact .inl ((follows_finish _).of_same rfl rfl)

/-- An exchange that starts has not ended well. -/
theorem start_outcomes {stream : Downstream} (outcome : ExchangeOutcome) :
    .ok outcome ∉ (start tunnel spec seq env stream).outcomes ∧
      (start tunnel spec seq env stream).confirmed = false := by
  rw [start]
  dsimp only
  split
  · exact ⟨fun hmem => List.not_mem_nil ((follows_finish _).outcomes outcome hmem),
      finish_confirmed _⟩
  · exact ⟨fun hmem => List.not_mem_nil (follows_send.outcomes outcome hmem),
      follows_send.confirmed⟩
  · exact ⟨fun hmem => List.not_mem_nil (follows_send.outcomes outcome hmem),
      follows_send.confirmed⟩

end Exchange

/-! ### One tunnel -/

namespace ChannelRun

variable {tunnel : Tunnel} {s s' : ChannelRun}

/-- An exchange that runs on the tunnel. -/
structure Runs (tunnel : Tunnel) (s : ChannelRun) (spec : ExchangeSpec) (seq : ℕ)
    (exchange : Exchange) : Prop where
  below : HeardBelow s.log seq
  confirmed : exchange.confirmed = true → HeardBelow s.log (seq + 1)
  outcomes : ∀ outcome, .ok outcome ∈ exchange.outcomes → exchange.confirmed = true
  sound : ∃ deadline budget, Exchange.Sound tunnel spec seq deadline budget exchange
  nextSeq : s.freed = false → s.nextSeq = seq + 1

/-- What is known by the phase. -/
def InPhase (tunnel : Tunnel) (s : ChannelRun) : Prop :=
  match s.phase with
  | .fresh => s.nextSeq = 0
  | .running _ spec seq exchange => s.Runs tunnel spec seq exchange
  | .ready => s.freed = false → HeardBelow s.log s.nextSeq
  | .failed confirmed => confirmed = true → s.freed = false → HeardBelow s.log s.nextSeq
  | .lost => s.freed = true

/-- The invariant of a tunnel. -/
structure Invariant (tunnel : Tunnel) (s : ChannelRun) : Prop where
  log : StopAndWait s.log
  phase : s.InPhase tunnel

/-- A new channel has sent nothing. -/
theorem invariant_start : Invariant tunnel start where
  log := by
    intro past copy later heq
    cases past <;> cases heq
  phase := rfl

/-- Every copy of an exchange carries its `seq`. -/
theorem sound_seq {spec : ExchangeSpec} {seq deadline budget : ℕ} {exchange : Exchange}
    (h : Exchange.Sound tunnel spec seq deadline budget exchange) {copy : TunnelCopy}
    (hmem : copy ∈ exchange.copies) : copy.request.seq = seq := by
  rcases h with hpending | hclosed
  · exact (hpending.copies.carries copy hmem).seq_eq
  · exact (hclosed.copies.carries copy hmem).seq_eq

/-- An exchange starts when every `seq` so far was heard. -/
theorem Invariant.runExchange (hlog : StopAndWait s.log) (hheard : HeardBelow s.log s.nextSeq)
    (handshake : Bool) (spec : ExchangeSpec) (env : ExchangeEnv) :
    Invariant tunnel (s.runExchange tunnel handshake spec env) := by
  have hsound : Exchange.Sound tunnel spec s.nextSeq (spec.deadlineAt - env.now) 0
      (Exchange.start tunnel spec s.nextSeq env s.stream) := Exchange.sound_start
  constructor
  · refine hlog.append fun copy hmem => ?_
    obtain ⟨copy', hmem', heq⟩ := List.mem_map.mp hmem
    obtain rfl := ChannelTrace.sent.inj heq
    rw [sound_seq hsound hmem']
    exact hheard
  · refine ⟨hheard.append _, fun hconfirmed => ?_, fun outcome hmem => ?_, ⟨_, _, hsound⟩,
      fun _ => rfl⟩
    · rw [(Exchange.start_outcomes .eof).2] at hconfirmed
      cases hconfirmed
    · exact absurd hmem (Exchange.start_outcomes outcome).1

/-- An event of the exchange sends copies of its own request only, and what it confirms was heard.
-/
theorem Invariant.onExchange (h : Invariant tunnel s) {event : ExchangeEvent}
    (hstep : s.onExchange tunnel event = some s') : Invariant tunnel s' := by
  obtain ⟨nextSeq, stream, freed, phase, log⟩ := s
  cases phase with
  | running handshake spec seq exchange =>
    obtain ⟨exchange', hexchange, rfl⟩ := Option.map_eq_some_iff.mp hstep
    obtain ⟨deadline, budget, hsound⟩ := h.phase.sound
    have hsound' := hsound.step hexchange
    constructor
    -- what was heard is no copy, and what is sent is a copy of the request in flight
    · refine h.log.append fun copy hmem => ?_
      rcases List.mem_append.mp hmem with hheard | hsent
      · cases event with
        | part body satisfied env =>
          rw [Exchange.hears] at hheard
          split_ifs at hheard
          · cases hheard
          · split at hheard
            · cases List.mem_singleton.mp hheard
            · cases hheard
        | _ => cases hheard
      · obtain ⟨copy', hmem', heq⟩ := List.mem_map.mp hsent
        obtain rfl := ChannelTrace.sent.inj heq
        rw [sound_seq hsound' (List.mem_of_mem_drop hmem')]
        exact h.phase.below
    · refine ⟨h.phase.below.append _, fun hconfirmed => ?_, fun outcome hmem => ?_,
        ⟨_, _, hsound'⟩, h.phase.nextSeq⟩
      · -- it was confirmed before, or the event brings the reply that confirms it
        rcases Exchange.exchangeStep_cases hexchange with hfollows | ⟨-, reply, hseq, hheard⟩
        · exact (h.phase.confirmed (hfollows.confirmed ▸ hconfirmed)).append _
        · exact (h.phase.below.append _).succ hseq
            (List.mem_append_right _ (List.mem_append_left _ hheard))
      · rcases Exchange.exchangeStep_cases hexchange with hfollows | ⟨hconfirmed, -⟩
        · rw [hfollows.confirmed]
          exact h.phase.outcomes outcome (hfollows.outcomes outcome hmem)
        · exact hconfirmed
  | _ => cases hstep

/-- Behind a settled exchange the next request may be sent, as the last one was heard. -/
theorem Invariant.onSettled (h : Invariant tunnel s) {next : AfterExchange}
    (hstep : s.onSettled tunnel next = some s') : Invariant tunnel s' := by
  obtain ⟨nextSeq, stream, freed, phase, log⟩ := s
  cases phase with
  | running handshake spec seq exchange =>
    -- the answer to the last exchange is heard once it is confirmed
    have hheard : exchange.confirmed = true → freed = false → HeardBelow log nextSeq := by
      intro hconfirmed hfreed
      have hnext : nextSeq = seq + 1 := h.phase.nextSeq hfreed
      rw [hnext]
      exact h.phase.confirmed hconfirmed
    rw [ChannelRun.onSettled] at hstep
    dsimp only at hstep
    cases houtcome : exchange.outcomes.head? with
    | none =>
      rw [houtcome] at hstep
      cases hstep
    | some outcome =>
      have hmem := List.mem_of_mem_head? houtcome
      rw [houtcome] at hstep
      cases outcome with
      | error error =>
        obtain rfl := Option.some.inj hstep
        cases handshake with
        | true => exact ⟨h.log, rfl⟩
        | false => exact ⟨h.log, hheard⟩
      | ok outcome =>
        have hconfirmed := h.phase.outcomes outcome hmem
        dsimp only at hstep
        cases handshake with
        | true =>
          obtain rfl := Option.some.inj hstep
          split_ifs
          · exact ⟨h.log, rfl⟩
          · exact ⟨h.log, hheard hconfirmed⟩
        | false =>
          rw [if_neg Bool.false_ne_true] at hstep
          cases next with
          | again spec env =>
            dsimp only at hstep
            split_ifs at hstep with hagain
            obtain rfl := Option.some.inj hstep
            exact .runExchange h.log (hheard hconfirmed hagain.2) false spec env
          | done =>
            obtain rfl := Option.some.inj hstep
            exact ⟨h.log, hheard hconfirmed⟩
          | threw =>
            obtain rfl := Option.some.inj hstep
            exact ⟨h.log, hheard⟩
  | _ => cases hstep

/-- A request takes the next number. -/
theorem Invariant.onRequest (h : Invariant tunnel s) {spec : ExchangeSpec} {env : ExchangeEnv}
    (hstep : s.onRequest tunnel spec env = some s') : Invariant tunnel s' := by
  obtain ⟨nextSeq, stream, freed, phase, log⟩ := s
  cases phase with
  | ready =>
    rw [ChannelRun.onRequest] at hstep
    dsimp only at hstep
    split_ifs at hstep with hfreed
    obtain rfl := Option.some.inj hstep
    exact .runExchange h.log (h.phase (Bool.eq_false_iff.mpr hfreed)) false spec env
  | _ => cases hstep

/-- A teardown after an exchange that was confirmed. -/
theorem Invariant.teardown (h : Invariant tunnel s) (hpooled : s.pooled = true)
    {closeNotify : Bytes} {deadlineAt : ℕ} {env : ExchangeEnv}
    (hconfirmed : s.freed = true ∨ s.lastConfirmed = true) :
    Invariant tunnel (s.teardown tunnel closeNotify deadlineAt env) := by
  obtain ⟨nextSeq, stream, freed, phase, log⟩ := s
  rw [ChannelRun.teardown]
  split_ifs with hfreed
  · exact h
  · have hopen : freed = false := Bool.eq_false_iff.mpr hfreed
    subst hopen
    have hlast := hconfirmed.resolve_left nofun
    -- the condition is what makes the last `seq` one that was heard
    have hheard : HeardBelow log nextSeq := by
      cases phase with
      | fresh => cases hpooled
      | running handshake spec seq exchange =>
        have hnext : nextSeq = seq + 1 := h.phase.nextSeq rfl
        rw [hnext]
        exact h.phase.confirmed hlast
      | ready => exact h.phase rfl
      | failed confirmed => exact h.phase hlast rfl
      | lost => cases hpooled
    constructor
    · refine h.log.append fun copy hmem => ?_
      obtain rfl := ChannelTrace.sent.inj (List.mem_singleton.mp hmem)
      exact hheard
    · cases phase with
      | fresh => cases hpooled
      | running handshake spec seq exchange =>
        exact ⟨h.phase.below.append _, fun hconf => (h.phase.confirmed hconf).append _,
          h.phase.outcomes, h.phase.sound, nofun⟩
      | ready => exact nofun
      | failed confirmed => exact fun _ => nofun
      | lost => cases hpooled

/-- A step under the condition keeps the invariant. -/
theorem Invariant.step (h : Invariant tunnel s) {event : ChannelEvent}
    (hcondition : ConfirmedTeardown s event) (hstep : channelStep tunnel s event = some s') :
    Invariant tunnel s' := by
  cases event with
  | handshake spec env =>
    obtain ⟨nextSeq, stream, freed, phase, log⟩ := s
    cases phase with
    | fresh =>
      obtain rfl := Option.some.inj hstep
      have hzero : nextSeq = 0 := h.phase
      subst hzero
      exact .runExchange h.log (fun _ hlt => absurd hlt (Nat.not_lt_zero _)) true spec env
    | _ => cases hstep
  | exchange event => exact h.onExchange hstep
  | settle next => exact h.onSettled hstep
  | request spec env => exact h.onRequest hstep
  | teardown closeNotify deadlineAt env =>
    rw [channelStep] at hstep
    split_ifs at hstep with hpooled
    obtain rfl := Option.some.inj hstep
    exact h.teardown hpooled hcondition

end ChannelRun

/-- **Stop-and-wait, up to the teardown.** When no tunnel is torn down after an exchange that was
not confirmed, a `seq` is handed to `tunnelSend` only after a part or a rejection came in for every
one below, and so at most one is unconfirmed.

The invariant is about the log: each copy in it stands behind a confirmation of every lower `seq`.
An exchange of a channel takes a `seq` only when the one before was confirmed; the teardown takes
one whatever the last exchange did, and there the condition is asked. -/
theorem stopAndWait_run {tunnel : Tunnel} {s : ChannelRun}
    (hrun : RunWhen (channelStep tunnel) ConfirmedTeardown .start s) :
    StopAndWait s.log ∧
      ∀ copy copy' : TunnelCopy, .sent copy ∈ s.log → .sent copy' ∈ s.log →
        copy.request.seq < copy'.request.seq →
          ∃ reply : TunnelReplyV1, reply.seq = copy.request.seq ∧ .heard reply ∈ s.log := by
  have hinv : ChannelRun.Invariant tunnel s :=
    hrun.invariant ChannelRun.invariant_start fun _ _ _ h hcondition => h.step hcondition
  refine ⟨hinv.log, fun copy copy' _ hmem' hlt => ?_⟩
  obtain ⟨past, later, heq⟩ := List.append_of_mem hmem'
  obtain ⟨reply, hseq, hmem⟩ := hinv.log past copy' later heq _ hlt
  rw [heq]
  exact ⟨reply, hseq, List.mem_append_left _ hmem⟩

/-! ### Runs -/

private def quietTunnel : Tunnel where
  id := List.replicate 16 7
  exit := ⟨"exit", "", "", [], 2, 2, none, none⟩
  host := "example.org"
  tcpPort := 443
  gapMs := 400
  maxCopies := 1
  deliver _ _ := .ok ()

private def quietSpec : ExchangeSpec where
  data := [22, 3, 1]
  surbs := 2
  close := false
  deadlineAt := 9000
  background := false
  signal := .live
  openTimeoutMs := none

private def quietEnv (now : ℕ) : ExchangeEnv := ⟨now, 1500, .ok ⟨"entry", "mix"⟩⟩

/-- An empty part of `seq` 0. -/
private def firstPart : Bytes := 1 :: List.replicate 25 0

/-- The handshake, which is answered. -/
private def handshakeEvents : List ChannelEvent :=
  [.handshake quietSpec (quietEnv 1000), .exchange (.part firstPart true (quietEnv 2000)),
    .settle .done]

/-- A request that is aborted before anything of it comes back is followed by a teardown. -/
theorem teardown_unconfirmed :
    ∃ s, runEvents (channelStep quietTunnel) .start (handshakeEvents ++
        [.request quietSpec (quietEnv 3000), .exchange (.abort none), .settle .threw,
          .teardown [21, 3, 3] 8000 (quietEnv 4000)]) = some s ∧ ¬StopAndWait s.log := by
  refine ⟨_, rfl, fun h => ?_⟩
  obtain ⟨reply, hseq, hmem⟩ := h [_, _, _] _ [] rfl 1 (by decide)
  simp only [List.mem_cons, List.not_mem_nil, or_false, ChannelTrace.heard.injEq, reduceCtorEq,
    false_or] at hmem
  rw [hmem] at hseq
  cases hseq

/-- A session that is torn down after the handshake. -/
theorem stopAndWait_run_sample : ∃ s,
    RunWhen (channelStep quietTunnel) ConfirmedTeardown .start s ∧ StopAndWait s.log := by
  have hrun : RunWhen (channelStep quietTunnel) ConfirmedTeardown .start _ :=
    .head ⟨.handshake quietSpec (quietEnv 1000), trivial, rfl⟩ <|
      .head ⟨.exchange (.part firstPart true (quietEnv 2000)), trivial, rfl⟩ <|
        .head ⟨.settle .done, trivial, rfl⟩ <|
          .head ⟨.teardown [21, 3, 3] 8000 (quietEnv 4000), .inr rfl, rfl⟩ .refl
  exact ⟨_, hrun, (stopAndWait_run hrun).1⟩

end NoxSdk.Tls
