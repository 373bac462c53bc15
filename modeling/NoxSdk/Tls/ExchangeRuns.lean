import NoxSdk.Tls.Exchange

/-!
# Tunnel exchanges settle once

Over every run of an exchange: it is settled at most once, its deadline timer stays armed until it
is, nothing is armed, heard or sent afterwards, and the copies it sends are those of one request on
ever new routes. Their number is bounded by the copies the policy allows and by the parts that ask
for one.

`Pending` is the invariant of an open exchange, `Closed` that of a settled one. Every event but the
parts that ask for a copy can spend one of the copies of the policy; `budget` counts the others.
-/

namespace NoxSdk.Tls

open NoxSdk.Lib NoxSdk.Bincode NoxSdk.Topology

/-- The copy carries what every copy of the `seq` carries, to the exit of the tunnel. -/
structure TunnelCopy.Carries (tunnel : Tunnel) (spec : ExchangeSpec) (seq : ℕ)
    (copy : TunnelCopy) : Prop where
  exit_eq : copy.exit = tunnel.exit
  tunnelId_eq : copy.request.tunnelId = tunnel.id
  seq_eq : copy.request.seq = seq
  open_eq : copy.request.open_ =
    if seq = 0 then some { host := tunnel.host, port := tunnel.tcpPort } else none
  data_eq : copy.request.data = spec.data
  close_eq : copy.request.close = spec.close

/-- The second copy avoids the entry and the mix that the first one took. -/
def TunnelCopy.Avoids (before copy : TunnelCopy) : Prop :=
  ∃ route, before.route = some route ∧ copy.avoid = [route.entryId, route.mixId]

/-- The event is a part for the `seq` that asks for another copy. -/
def ExchangeEvent.asks (seq : ℕ) : ExchangeEvent → Bool
  | .part body _ _ => match decodeTunnelReplyV1 body with
    | .ok (.data replySeq reply) =>
      replySeq == seq && (reply.fin == some .needSurbs || reply.fin == some .expired)
    | _ => false
  | _ => false

namespace Exchange

variable {tunnel : Tunnel} {spec : ExchangeSpec} {seq budget deadline : ℕ} {env : ExchangeEnv}
  {exchange exchange' : Exchange}

/-- No timer is armed and the abort is not listened to. -/
structure Quiet (exchange : Exchange) : Prop where
  silenceTimer : exchange.silenceTimer = none
  gapTimer : exchange.gapTimer = none
  openTimer : exchange.openTimer = none
  deadlineTimer : exchange.deadlineTimer = none
  abortListener : exchange.abortListener = false

/-! ### Invariants -/

/-- What was handed to `tunnelSend`. -/
structure Copies (tunnel : Tunnel) (spec : ExchangeSpec) (seq limit : ℕ)
    (copies : List TunnelCopy) : Prop where
  carries : ∀ copy ∈ copies, copy.Carries tunnel spec seq
  avoids : copies.IsChain TunnelCopy.Avoids
  length_le : copies.length ≤ limit

/-- An open exchange. -/
structure Pending (tunnel : Tunnel) (spec : ExchangeSpec) (seq deadline budget : ℕ)
    (exchange : Exchange) : Prop where
  settled : exchange.settled = false
  outcomes : exchange.outcomes = []
  deadlineTimer : exchange.deadlineTimer = some deadline
  copies : Copies tunnel spec seq (1 + exchange.timedCopies + budget) exchange.copies
  lastRoute : ∀ copy ∈ exchange.copies.getLast?,
    ∃ route, copy.route = some route ∧ exchange.lastRoute = some route
  timedCopies : exchange.timedCopies ≤ tunnel.maxCopies

/-- A settled exchange. -/
structure Closed (tunnel : Tunnel) (spec : ExchangeSpec) (seq budget : ℕ)
    (exchange : Exchange) : Prop where
  settled : exchange.settled = true
  outcomes : exchange.outcomes.length = 1
  quiet : exchange.Quiet
  copies : Copies tunnel spec seq (1 + tunnel.maxCopies + budget) exchange.copies

/-- An exchange at any time. -/
def Sound (tunnel : Tunnel) (spec : ExchangeSpec) (seq deadline budget : ℕ)
    (exchange : Exchange) : Prop :=
  Pending tunnel spec seq deadline budget exchange ∨ Closed tunnel spec seq budget exchange

theorem Copies.mono {limit limit' : ℕ} {copies : List TunnelCopy}
    (h : Copies tunnel spec seq limit copies) (hle : limit ≤ limit') :
    Copies tunnel spec seq limit' copies :=
  ⟨h.carries, h.avoids, h.length_le.trans hle⟩

theorem Pending.mono {budget' : ℕ} (h : Pending tunnel spec seq deadline budget exchange)
    (hle : budget ≤ budget') : Pending tunnel spec seq deadline budget' exchange :=
  { h with copies := h.copies.mono (Nat.add_le_add_left hle _) }

theorem Closed.mono {budget' : ℕ} (h : Closed tunnel spec seq budget exchange)
    (hle : budget ≤ budget') : Closed tunnel spec seq budget' exchange :=
  { h with copies := h.copies.mono (Nat.add_le_add_left hle _) }

theorem Pending.not_settled (h : Pending tunnel spec seq deadline budget exchange) :
    ¬exchange.settled = true := Bool.eq_false_iff.mp h.settled

/-- An open exchange has sent no more copies than a settled one may. -/
theorem Pending.copies_le (h : Pending tunnel spec seq deadline budget exchange) :
    Copies tunnel spec seq (1 + tunnel.maxCopies + budget) exchange.copies :=
  h.copies.mono (Nat.add_le_add_right (Nat.add_le_add_left h.timedCopies _) _)

/-! ### The functions of an exchange -/

theorem closed_finish {outcome : Except TunnelError ExchangeOutcome}
    (hsettled : exchange.settled = false) (houtcomes : exchange.outcomes = [])
    (hcopies : Copies tunnel spec seq (1 + tunnel.maxCopies + budget) exchange.copies) :
    Closed tunnel spec seq budget (exchange.finish outcome) := by
  rw [finish, if_neg (Bool.eq_false_iff.mp hsettled)]
  refine ⟨rfl, ?_, ⟨rfl, rfl, rfl, rfl, rfl⟩, hcopies⟩
  dsimp only
  rw [houtcomes]
  rfl

theorem Pending.finish {outcome : Except TunnelError ExchangeOutcome}
    (h : Pending tunnel spec seq deadline budget exchange) :
    Closed tunnel spec seq budget (exchange.finish outcome) :=
  closed_finish h.settled h.outcomes h.copies_le

/-- A copy is sent while one is left. -/
theorem Pending.send (h : Pending tunnel spec seq deadline budget exchange)
    (hleft : exchange.copies.length ≤ exchange.timedCopies + budget) :
    Sound tunnel spec seq deadline budget (exchange.send tunnel spec seq env) := by
  rw [Exchange.send, if_neg h.not_settled]
  split_ifs with htime
  · exact .inr h.finish
  · have hcopies : Copies tunnel spec seq (1 + exchange.timedCopies + budget)
        (exchange.copies ++ [exchange.copyAt tunnel spec seq env]) := by
      refine ⟨List.forall_mem_append.mpr ⟨h.copies.carries, ?_⟩, ?_, ?_⟩
      · exact List.forall_mem_singleton.mpr ⟨rfl, rfl, rfl, rfl, rfl, rfl⟩
      · refine List.isChain_append.mpr ⟨h.copies.avoids, List.isChain_singleton _, ?_⟩
        intro before hbefore copy hcopy
        obtain rfl := Option.some.inj hcopy
        obtain ⟨route, hroute, hlast⟩ := h.lastRoute before hbefore
        refine ⟨route, hroute, ?_⟩
        rw [copyAt, hlast]
      · rw [List.length_append, List.length_singleton]
        omega
    dsimp only
    split
    · refine .inr (closed_finish h.settled h.outcomes (hcopies.mono ?_))
      exact Nat.add_le_add_right (Nat.add_le_add_left h.timedCopies _) _
    · rename_i route hsent
      refine .inl ⟨h.settled, h.outcomes, h.deadlineTimer, hcopies, ?_, h.timedCopies⟩
      intro copy hcopy
      rw [armSilence, List.getLast?_concat] at hcopy
      obtain rfl := Option.some.inj hcopy
      refine ⟨route, ?_, rfl⟩
      rw [copyAt, hsent]
      rfl

theorem Pending.timedCopy (h : Pending tunnel spec seq deadline budget exchange) :
    Sound tunnel spec seq deadline budget (exchange.timedCopy tunnel spec seq env) := by
  rw [Exchange.timedCopy, if_neg h.not_settled]
  split_ifs with hmax
  · exact .inl h
  · have hlength := h.copies.length_le
    have hmore : Pending tunnel spec seq deadline budget
        { exchange with timedCopies := exchange.timedCopies + 1 } :=
      { h with
        copies := h.copies.mono (by dsimp only; omega)
        timedCopies := not_le.mp hmax }
    exact hmore.send (by dsimp only; omega)

theorem Pending.watchGap (h : Pending tunnel spec seq deadline budget exchange) :
    Pending tunnel spec seq deadline budget (exchange.watchGap tunnel) := by
  rw [Exchange.watchGap]
  split_ifs
  · exact { h with }
  · exact { h with }
  · exact h

/-- A part that asks for a copy brings its own budget. -/
theorem Pending.afterPart (h : Pending tunnel spec seq deadline budget exchange)
    {fin : Option TunnelFinV1} {asked : ℕ}
    (hasked : fin = some .needSurbs ∨ fin = some .expired → asked = 1) :
    Sound tunnel spec seq deadline (budget + asked)
      (exchange.afterPart tunnel spec seq env fin) := by
  have hwatch := h.watchGap
  have hlength := hwatch.copies.length_le
  rw [Exchange.afterPart]
  split_ifs with hfin
  · rw [hasked hfin]
    exact (hwatch.mono (Nat.le_succ _)).send (by omega)
  · refine .inl (Pending.mono ?_ (Nat.le_add_right _ _))
    exact { hwatch with }

theorem Pending.onData (h : Pending tunnel spec seq deadline budget exchange)
    {part : TunnelPartV1} {satisfied : Bool} {asked : ℕ}
    (hasked : part.fin = some .needSurbs ∨ part.fin = some .expired → asked = 1) :
    Sound tunnel spec seq deadline (budget + asked)
      (exchange.onData tunnel spec seq env part satisfied).1 := by
  rw [Exchange.onData]
  split
  · exact .inr (h.finish.mono (Nat.le_add_right _ _))
  · rename_i stream _
    have hstream : Pending tunnel spec seq deadline budget { exchange with stream } := { h with }
    dsimp only
    split_ifs
    · exact .inr (hstream.finish.mono (Nat.le_add_right _ _))
    · exact .inr (hstream.finish.mono (Nat.le_add_right _ _))
    · exact hstream.afterPart hasked

theorem Pending.onPart (h : Pending tunnel spec seq deadline budget exchange) {body : Bytes}
    {satisfied : Bool} {asked : ℕ}
    (hasked : ∀ part, decodeTunnelReplyV1 body = .ok (.data seq part) →
      part.fin = some .needSurbs ∨ part.fin = some .expired → asked = 1) :
    Sound tunnel spec seq deadline (budget + asked)
      (exchange.onPart tunnel spec seq env body satisfied).1 := by
  have hle : budget ≤ budget + asked := Nat.le_add_right _ _
  rw [Exchange.onPart, if_neg h.not_settled]
  split
  · exact .inr (h.finish.mono hle)
  · rename_i reply hreply
    split_ifs with hseq
    · exact .inl (h.mono hle)
    · have hconfirmed : Pending tunnel spec seq deadline budget
          { exchange with confirmed := true, openTimer := none } := { h with }
      dsimp only
      split
      · exact .inr (hconfirmed.finish.mono hle)
      · rename_i partSeq part
        obtain rfl : partSeq = seq := not_not.mp hseq
        exact hconfirmed.onData (hasked part hreply)

theorem Pending.onCopyFailed (h : Pending tunnel spec seq deadline budget exchange) :
    Sound tunnel spec seq deadline budget (exchange.onCopyFailed tunnel spec seq env) := by
  rw [Exchange.onCopyFailed]
  split_ifs
  · exact h.timedCopy
  · exact .inl h

theorem sound_start {stream : Downstream} : Sound tunnel spec seq (spec.deadlineAt - env.now) 0
    (start tunnel spec seq env stream) := by
  have hcopies : Copies tunnel spec seq 0 [] :=
    ⟨fun _ hmem => absurd hmem List.not_mem_nil, List.isChain_nil, le_rfl⟩
  rw [start]
  dsimp only
  split
  · exact .inr (closed_finish rfl rfl (hcopies.mono (Nat.zero_le _)))
  all_goals
    refine Pending.send ⟨rfl, rfl, rfl, hcopies.mono (Nat.zero_le _), ?_, Nat.zero_le _⟩ le_rfl
    exact fun _ hcopy => absurd hcopy nofun

/-! ### Steps -/

/-- Nothing changes a settled exchange. -/
theorem Closed.step (h : Closed tunnel spec seq budget exchange) {event : ExchangeEvent}
    (hstep : exchangeStep tunnel spec seq exchange event = some exchange') :
    exchange' = exchange := by
  rcases event with ⟨body, satisfied, env⟩ | env | env | env | _ | _ | reason
  · rw [exchangeStep, Exchange.onPart, if_pos h.settled] at hstep
    exact (Option.some.inj hstep).symm
  · rw [exchangeStep, Exchange.onCopyFailed, if_neg] at hstep
    · exact (Option.some.inj hstep).symm
    · rw [h.settled]
      exact fun hopen => absurd hopen.1 nofun
  · rw [exchangeStep, h.quiet.silenceTimer] at hstep
    exact absurd hstep nofun
  · rw [exchangeStep, h.quiet.gapTimer] at hstep
    exact absurd hstep nofun
  · rw [exchangeStep, h.quiet.openTimer] at hstep
    exact absurd hstep nofun
  · rw [exchangeStep, h.quiet.deadlineTimer] at hstep
    exact absurd hstep nofun
  · rw [exchangeStep, h.quiet.abortListener] at hstep
    exact absurd hstep nofun

theorem Pending.step (h : Pending tunnel spec seq deadline budget exchange)
    {event : ExchangeEvent} (hstep : exchangeStep tunnel spec seq exchange event = some exchange') :
    Sound tunnel spec seq deadline (budget + if event.asks seq then 1 else 0) exchange' := by
  rcases event with ⟨body, satisfied, env⟩ | env | env | env | _ | _ | reason
  · obtain rfl := Option.some.inj hstep
    refine h.onPart fun part hpart hfin => if_pos ?_
    rw [ExchangeEvent.asks, hpart]
    simpa using hfin
  · obtain rfl := Option.some.inj hstep
    exact h.onCopyFailed
  · obtain ⟨_, -, rfl⟩ := Option.map_eq_some_iff.mp hstep
    have hfired : Pending tunnel spec seq deadline budget
        { exchange with silenceTimer := none } := { h with }
    exact hfired.timedCopy
  · obtain ⟨_, -, rfl⟩ := Option.map_eq_some_iff.mp hstep
    have hfired : Pending tunnel spec seq deadline budget
        { exchange with gapTimer := none } := { h with }
    change Sound tunnel spec seq deadline budget (if _ then _ else _)
    split_ifs
    · exact hfired.timedCopy
    · exact .inl hfired
  · obtain ⟨_, -, rfl⟩ := Option.map_eq_some_iff.mp hstep
    have hfired : Pending tunnel spec seq deadline budget
        { exchange with openTimer := none } := { h with }
    change Sound tunnel spec seq deadline budget (if _ then _ else _)
    split_ifs
    · exact .inl hfired
    · exact .inr hfired.finish
  · obtain ⟨_, -, rfl⟩ := Option.map_eq_some_iff.mp hstep
    exact .inr (closed_finish h.settled h.outcomes h.copies_le)
  · rw [exchangeStep] at hstep
    split_ifs at hstep
    obtain rfl := Option.some.inj hstep
    exact .inr (closed_finish h.settled h.outcomes h.copies_le)

theorem Sound.step (h : Sound tunnel spec seq deadline budget exchange) {event : ExchangeEvent}
    (hstep : exchangeStep tunnel spec seq exchange event = some exchange') :
    Sound tunnel spec seq deadline (budget + if event.asks seq then 1 else 0) exchange' := by
  rcases h with hpending | hclosed
  · exact hpending.step hstep
  · rw [hclosed.step hstep]
    exact .inr (hclosed.mono (Nat.le_add_right _ _))

/-! ### Runs -/

theorem Closed.run (h : Closed tunnel spec seq budget exchange) {events : List ExchangeEvent}
    (hrun : runEvents (exchangeStep tunnel spec seq) exchange events = some exchange') :
    exchange' = exchange := by
  refine (run_of_runEvents hrun).invariant rfl fun before event after hsame hstep => ?_
  subst hsame
  exact h.step hstep

theorem sound_run {stream : Downstream} {events : List ExchangeEvent}
    (hrun : runEvents (exchangeStep tunnel spec seq) (start tunnel spec seq env stream) events =
      some exchange) :
    Sound tunnel spec seq (spec.deadlineAt - env.now)
      (events.countP (ExchangeEvent.asks seq)) exchange := by
  refine @runEvents_invariant _ _ _ _ _ (fun past => Sound tunnel spec seq
    (spec.deadlineAt - env.now) (past.countP (ExchangeEvent.asks seq))) [] events hrun sound_start
    fun past before event after hbefore hstep => ?_
  rw [List.countP_append, List.countP_singleton]
  exact hbefore.step hstep

end Exchange

open Exchange in
/-- **An exchange settles once, with bounded, identical copies.** Over every order of parts, failed
copies, timers and aborts: the promise is settled at most once and its deadline timer settles it
if nothing did before; afterwards nothing is armed, listened to or sent; all copies are those of
one request to the exit of the tunnel, each avoiding the entry and mix of the one before; and
there are no more of them than the policy allows and the parts asked for.

At each time an exchange is pending, with the deadline armed and its copies counted, or it is closed
(`sound_run`), and no event changes anything of a closed one (`Closed.run`). -/
theorem exchange_settles_once {tunnel : Tunnel} {spec : ExchangeSpec} {seq : ℕ}
    {env : ExchangeEnv} {stream : Downstream} {events : List ExchangeEvent} {exchange : Exchange}
    (hrun : runEvents (exchangeStep tunnel spec seq) (start tunnel spec seq env stream) events =
      some exchange) :
    exchange.outcomes.length = (if exchange.settled then 1 else 0) ∧
    (exchange.settled = false → exchange.deadlineTimer = some (spec.deadlineAt - env.now) ∧
      ∃ closed, exchangeStep tunnel spec seq exchange .deadline = some closed ∧
        closed.settled = true) ∧
    (exchange.settled = true → exchange.Quiet ∧ ∀ later final,
      runEvents (exchangeStep tunnel spec seq) exchange later = some final → final = exchange) ∧
    (∀ copy ∈ exchange.copies, copy.Carries tunnel spec seq) ∧
    exchange.copies.IsChain TunnelCopy.Avoids ∧
    exchange.copies.length ≤ 1 + tunnel.maxCopies + events.countP (ExchangeEvent.asks seq) := by
  rcases sound_run hrun with hpending | hclosed
  · -- the deadline is armed as long as nothing settled the exchange
    have hcopies := hpending.copies_le
    refine ⟨?_, fun _ => ⟨hpending.deadlineTimer, ?_⟩, fun hsettled => ?_, hcopies.carries,
      hcopies.avoids, hcopies.length_le⟩
    · rw [hpending.outcomes, if_neg hpending.not_settled]
      rfl
    · have hclosed : Closed tunnel spec seq (events.countP (ExchangeEvent.asks seq))
          ({ exchange with deadlineTimer := none }.finish
            (.error (.timeout seq exchange.confirmed))) :=
        closed_finish hpending.settled hpending.outcomes hcopies
      rw [exchangeStep, hpending.deadlineTimer]
      exact ⟨_, rfl, hclosed.settled⟩
    · exact absurd hsettled hpending.not_settled
  · refine ⟨?_, fun hsettled => ?_, fun _ => ⟨hclosed.quiet, fun _ _ => hclosed.run⟩,
      hclosed.copies.carries, hclosed.copies.avoids, hclosed.copies.length_le⟩
    · rw [hclosed.outcomes, if_pos hclosed.settled]
    · exact absurd (hclosed.settled.symm.trans hsettled) nofun

/-! ### A run -/

private def sampleTunnel : Tunnel where
  id := List.replicate 16 7
  exit := ⟨"exit", "", "", [], 2, 2, none, none⟩
  host := "example.org"
  tcpPort := 443
  gapMs := 400
  maxCopies := 1
  deliver _ _ := .ok ()

private def sampleSpec : ExchangeSpec where
  data := [22, 3, 1]
  surbs := 2
  close := false
  deadlineAt := 9000
  background := false
  signal := .live
  openTimeoutMs := some 4000

private def sampleEnv (now : ℕ) (entryId mixId : String) : ExchangeEnv :=
  ⟨now, 1500, .ok ⟨entryId, mixId⟩⟩

/-- An empty part of `seq` 0 with a hint. -/
private def samplePart (fin : UInt8) : Bytes :=
  [1] ++ List.replicate 24 0 ++ [1, fin, 0, 0, 0]

/-- A part asks for reply blocks, silence brings the one copy of the policy, the stream ends. -/
private def sampleEvents : List ExchangeEvent :=
  [.part (samplePart 1) false (sampleEnv 2000 "e2" "m2"), .silence (sampleEnv 3500 "e3" "m3"),
    .silence (sampleEnv 5000 "e4" "m4"), .part (samplePart 0) false (sampleEnv 5100 "e5" "m5")]

theorem exchange_settles_once_sample : ∃ exchange,
    runEvents (exchangeStep sampleTunnel sampleSpec 0)
      (Exchange.start sampleTunnel sampleSpec 0 (sampleEnv 1000 "e1" "m1") .start) sampleEvents =
      some exchange ∧
    exchange.copies.map TunnelCopy.avoid = [[], ["e1", "m1"], ["e2", "m2"]] ∧
    exchange.outcomes.length = 1 := by
  obtain ⟨exchange, hrun, havoid, hsettled⟩ : ∃ exchange,
      runEvents (exchangeStep sampleTunnel sampleSpec 0)
        (Exchange.start sampleTunnel sampleSpec 0 (sampleEnv 1000 "e1" "m1") .start) sampleEvents =
        some exchange ∧
      exchange.copies.map TunnelCopy.avoid = [[], ["e1", "m1"], ["e2", "m2"]] ∧
      exchange.settled = true := ⟨_, rfl, by decide, by decide⟩
  exact ⟨exchange, hrun, havoid, (exchange_settles_once hrun).1.trans (if_pos hsettled)⟩

end NoxSdk.Tls
