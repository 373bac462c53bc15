import NoxSdk.Tls.PoolRuns

/-!
# Shared sessions

The pool in keep-alive mode, with the channels and the calls that use them: a call asks for a
session, sends one request on it and releases it, while upstreams close, timers fire and time
passes. `TlsChannel` counts its requests and remembers that it was asked to close; the pool reads
both when it hands a session out and when it gets one back.

`readyAt`, `failed` and `closing` are ghosts: when the open of a channel returned, and whether one
of its requests failed or was answered with a response that closes the connection.
-/

namespace NoxSdk.Tls

open NoxSdk.Lib

/-- `TlsChannel`, but for `freed`, which is `torn` of the pool, and `openedAt`. -/
structure ChannelState where
  calls : ℕ
  keepAlive : Bool
  /-- `tunnel.eof` or `tls.isClosed()`. -/
  closed : Bool

/-- How far the request of a call is. -/
inductive RequestStage
  | waiting
  | sent
  | answered
  | failed
  deriving DecidableEq, Repr

/-- The pool in keep-alive mode, its channels and its calls. -/
structure Shared where
  pool : Pool
  channels : ℕ → ChannelState
  stage : ℕ → RequestStage
  clock : ℤ
  readyAt : ℕ → ℤ
  failed : ℕ → Bool
  closing : ℕ → Bool

/-- What can happen to them. -/
inductive SharedEvent
  /-- A call enters `acquire`. -/
  | acquire (call : ℕ) (host : String)
  /-- The `open` of a call returns a channel made at `openedAt`, or fails. -/
  | opened (call : ℕ) (openedAt : ℤ)
  | openFailed (call : ℕ)
  /-- The call sends its request, and gets the response or an error. -/
  | request (call : ℕ)
  | respond (call : ℕ) (keepAlive eof : Bool)
  | fail (call : ℕ) (eof : Bool)
  | release (call : ℕ)
  | upstreamCloses (channel : ℕ)
  /-- The timer of a release fires. -/
  | fire (channel : ℕ)
  | tick (ms : ℕ)

namespace Shared

/-- A new pool. -/
def init : Shared where
  pool := .init
  channels _ := ⟨0, true, false⟩
  stage _ := .waiting
  clock := 0
  readyAt _ := 0
  failed _ := false
  closing _ := false

variable (settings : PoolSettings) (s : Shared)

/-- `reusable` and `calls` of every channel. -/
def view (channel : ℕ) : ChannelView where
  reusable := (s.channels channel).keepAlive && !(s.channels channel).closed
  calls := (s.channels channel).calls

/-- When the timer that `release` arms is due: `left` is what is missing to it. -/
def retireDue (channel : ℕ) : ℤ := s.pool.openedAt channel + settings.tlsKeepAliveMs

/-- `request`, up to its first `await`. -/
def sendRequest (call channel : ℕ) : Shared :=
  { s with
    channels := Function.update s.channels channel
      { s.channels channel with calls := (s.channels channel).calls + 1 }
    stage := Function.update s.stage call .sent }

/-- `request` ends: the stream may have ended, and a response may close the connection. -/
def endRequest (call channel : ℕ) (stage : RequestStage) (keepAlive eof : Bool) : Shared :=
  { s with
    channels := Function.update s.channels channel
      { s.channels channel with
        keepAlive := (s.channels channel).keepAlive && keepAlive && !eof
        closed := (s.channels channel).closed || eof }
    stage := Function.update s.stage call stage }

/-- One step; `none` where the event cannot happen. -/
def step : SharedEvent → Option Shared
  | .acquire call host =>
    (s.pool.step settings (.acquire call host (0, none) s.view 0 s.clock)).map fun pool =>
      { s with pool }
  | .opened call openedAt =>
    if openedAt ≤ s.clock then
      -- the channel has the time it was made, before its handshake
      (s.pool.step settings (.callOpened call 0 openedAt)).map fun pool =>
        { s with pool, readyAt := Function.update s.readyAt s.pool.opened s.clock }
    else none
  | .openFailed call => (s.pool.step settings (.callFailed call)).map fun pool => { s with pool }
  | .request call =>
    match s.pool.calls call, s.stage call with
    | .holding channel, .waiting => some (s.sendRequest call channel)
    | _, _ => none
  | .respond call keepAlive eof =>
    match s.pool.calls call, s.stage call with
    | .holding channel, .sent =>
      some { s.endRequest call channel .answered keepAlive eof with
        closing := Function.update s.closing channel (s.closing channel || !keepAlive) }
    | _, _ => none
  | .fail call eof =>
    match s.pool.calls call, s.stage call with
    | .holding channel, .sent =>
      some { s.endRequest call channel .failed true eof with
        failed := Function.update s.failed channel true }
    | _, _ => none
  | .release call =>
    match s.stage call with
    | .answered =>
      (s.pool.step settings (.release call true s.view s.clock)).map fun pool => { s with pool }
    | .failed =>
      (s.pool.step settings (.release call false s.view s.clock)).map fun pool => { s with pool }
    | _ => none
  | .upstreamCloses channel =>
    if channel < s.pool.opened then
      some { s with
        channels := Function.update s.channels channel { s.channels channel with closed := true } }
    else none
  | .fire channel =>
    if s.retireDue settings channel ≤ s.clock then
      (s.pool.step settings (.fire (.retire channel) s.clock)).map fun pool => { s with pool }
    else none
  | .tick ms => some { s with clock := s.clock + ms }

end Shared

/-! ### The pool in keep-alive mode -/

section KeepAlive

variable {settings : PoolSettings} {s s' : Pool} {call channel : ℕ} {now : ℤ}

/-- The pool has the sessions that `acquire` and `release` share, and no spares. -/
structure SharesOnly (settings : PoolSettings) (s : Pool) : Prop where
  owned : Owned settings none s
  spares : s.spares = []
  waits : ∀ k host id outcome, s.calls k ≠ .waiting host id outcome
  few : ∀ host, s.sessions.countP (fun entry => s.hostOf entry.channel == host)
    ≤ maxKeepAliveSessions
  born : ∀ entry ∈ s.sessions, entry.channel < s.opened

/-- A new pool has neither spares nor opens. -/
theorem SharesOnly.init : SharesOnly settings Pool.init where
  owned := Owned.init
  spares := rfl
  waits := by simp [Pool.init]
  few := by simp [Pool.init]
  born := by simp [Pool.init]

/-- A session that a call holds or that is idle is not unborn. -/
theorem lt_opened (h : Owned settings none s) (howner : s.owner channel ≠ .unborn) :
    channel < s.opened :=
  not_le.mp (mt (h.unborn channel).mpr howner)

/-- `setIdle` changes no channel of the list. -/
theorem countP_setIdle (s : Pool) (channel : ℕ) (idle : Bool) (p : ℕ → Bool) :
    (s.setIdle channel idle).sessions.countP (fun entry => p entry.channel) =
      s.sessions.countP fun entry => p entry.channel := by
  rw [Pool.setIdle, List.countP_map]
  refine List.countP_congr fun entry _ => ?_
  rw [Function.comp_apply]
  split_ifs <;> rfl

/-- Marking a session idle adds none. -/
theorem mem_setIdle {idle : Bool} {entry : Pooled}
    (hentry : entry ∈ (s.setIdle channel idle).sessions) :
    ∃ before ∈ s.sessions, before.channel = entry.channel := by
  obtain ⟨before, hbefore, rfl⟩ := List.mem_map.mp hentry
  refine ⟨before, hbefore, ?_⟩
  split_ifs <;> rfl

/-- What `acquire` does: it hands out an idle session that is usable, or the call opens its
own. -/
theorem acquire_cases (hmode : settings.tlsSession = .keepAlive) {host : String}
    {ages : ℚ × Option ℚ} {view : ℕ → ChannelView} {delayMs : ℤ}
    (hstep : s.step settings (.acquire call host ages view delayMs now) = some s') :
    s.calls call = .fresh ∧
    ((∃ entry ∈ s.sessions, entry.idle ∧ s.keepAliveUsable settings view entry.channel now ∧
        s' = ((s.setIdle entry.channel false).loosen entry.channel).hand call entry.channel) ∨
      s' = { s with calls := Function.update s.calls call (.opening host) }) := by
  simp only [Pool.step] at hstep
  split_ifs at hstep with hfresh
  refine ⟨hfresh, ?_⟩
  obtain rfl := Option.some.inj hstep
  rw [Pool.acquire, hmode]
  dsimp only
  split
  next entry hfound =>
    have hready := List.find?_some hfound
    simp only [Bool.and_eq_true, beq_iff_eq] at hready
    exact .inl ⟨entry, List.mem_of_find?_eq_some hfound, hready.1.2, hready.2, rfl⟩
  next => exact .inr rfl

/-- What `acquire` does once its own open returned a channel. -/
theorem callOpened_cases (hmode : settings.tlsSession = .keepAlive) {delayMs : ℤ}
    (hstep : s.step settings (.callOpened call delayMs now) = some s') :
    ∃ host, s.calls call = .opening host ∧
      (s' = (s.newChannel host now).hand call s.opened ∨
        s.sessions.countP (fun entry =>
            Function.update s.hostOf s.opened host entry.channel == host) < maxKeepAliveSessions ∧
          s' = { (s.newChannel host now).hand call s.opened with
            sessions := s.sessions ++ [⟨s.opened, false⟩] }) := by
  simp only [Pool.step] at hstep
  split at hstep
  next host hopening =>
    obtain rfl := Option.some.inj hstep
    refine ⟨host, hopening, ?_⟩
    rw [Pool.callOpened, hmode]
    dsimp only
    split_ifs with hfew
    · exact .inr ⟨hfew, rfl⟩
    · exact .inl rfl
  next => cases hstep

/-- What `release` does: the session is idle again, or retired. -/
theorem release_cases (hmode : settings.tlsSession = .keepAlive) {ok : Bool}
    {view : ℕ → ChannelView}
    (hstep : s.step settings (.release call ok view now) = some s') :
    ∃ channel, s.calls call = .holding channel ∧
      ((ok = true ∧ s.keepAliveUsable settings view channel now = true ∧
          s' = { Pool.setIdle { s.loosen channel with
                  calls := Function.update s.calls call .done } channel true with
            timers := s.timers ++ [.retire channel]
            owner := Function.update (s.loosen channel).owner channel .idle }) ∨
        s' = Pool.retire { s.loosen channel with
          calls := Function.update s.calls call .done } channel) := by
  simp only [Pool.step] at hstep
  split at hstep
  next channel hholding =>
    obtain rfl := Option.some.inj hstep
    refine ⟨channel, hholding, ?_⟩
    rw [Pool.release, hmode]
    dsimp only
    split_ifs with hkeep
    · exact .inl ⟨hkeep.1, hkeep.2.2, rfl⟩
    · exact .inr rfl
  next => cases hstep

/-- What the timer of a release does: an idle session is retired. -/
theorem fire_cases (hstep : s.step settings (.fire (.retire channel) now) = some s') :
    s' = Pool.retire { s with timers := s.timers.erase (.retire channel) } channel ∨
      s' = { s with timers := s.timers.erase (.retire channel) } := by
  simp only [Pool.step] at hstep
  split_ifs at hstep
  obtain rfl := Option.some.inj hstep
  rw [Pool.fire]
  dsimp only
  split_ifs
  · exact .inl rfl
  · exact .inr rfl

/-- A call goes on, and does not wait for an open. -/
theorem SharesOnly.waits_update (h : SharesOnly settings s) (call : ℕ) {phase : CallPhase}
    (hphase : ∀ host id outcome, phase ≠ .waiting host id outcome) (k : ℕ) (host : String) (id : ℕ)
    (outcome : Option Settled) :
    Function.update s.calls call phase k ≠ .waiting host id outcome := by
  rw [Function.update_apply]
  split_ifs
  · exact hphase host id outcome
  · exact h.waits k host id outcome

/-- In keep-alive mode a call takes an idle session or opens its own. -/
theorem SharesOnly.acquire (h : SharesOnly settings s) (hmode : settings.tlsSession = .keepAlive)
    {host : String} {ages : ℚ × Option ℚ} {view : ℕ → ChannelView} {delayMs : ℤ}
    (hstep : s.step settings (.acquire call host ages view delayMs now) = some s') :
    SharesOnly settings s' := by
  have howned := h.owned.step hstep
  obtain ⟨-, ⟨entry, hentry, -, -, rfl⟩ | rfl⟩ := acquire_cases hmode hstep
  · refine ⟨howned, h.spares, h.waits_update call (by simp), fun host => ?_,
      fun other hother => ?_⟩
    · exact (countP_setIdle s _ _ fun c => s.hostOf c == host).le.trans (h.few host)
    · obtain ⟨before, hbefore, hsame⟩ := mem_setIdle hother
      exact hsame ▸ h.born before hbefore
  · exact ⟨howned, h.spares, h.waits_update call (by simp), h.few, h.born⟩

/-- In keep-alive mode an open brings a session, and no spare beside it. -/
theorem SharesOnly.callOpened (h : SharesOnly settings s)
    (hmode : settings.tlsSession = .keepAlive) {delayMs : ℤ}
    (hstep : s.step settings (.callOpened call delayMs now) = some s') :
    SharesOnly settings s' := by
  have howned := h.owned.step hstep
  obtain ⟨host, -, hcases⟩ := callOpened_cases hmode hstep
  have hwaits := @SharesOnly.waits_update settings s h call (.holding s.opened) (by simp)
  have hsame : ∀ other, s.sessions.countP
      (fun entry => Function.update s.hostOf s.opened host entry.channel == other) =
        s.sessions.countP fun entry => s.hostOf entry.channel == other := fun other => by
    refine List.countP_congr fun entry hentry => ?_
    rw [Function.update_of_ne (h.born entry hentry).ne]
  have hborn : ∀ entry ∈ s.sessions, entry.channel < s.opened + 1 := fun entry hentry =>
    (h.born entry hentry).trans (Nat.lt_succ_self _)
  rcases hcases with rfl | ⟨hfew, rfl⟩
  · exact ⟨howned, h.spares, hwaits, fun other => (hsame other).le.trans (h.few other), hborn⟩
  · refine ⟨howned, h.spares, hwaits, fun other => ?_, fun entry hentry => ?_⟩
    · refine (List.countP_append ..).le.trans ?_
      rw [List.countP_singleton]
      simp only [Pool.hand, Pool.newChannel, Function.update_self, hsame]
      split_ifs with hhost
      · rw [beq_iff_eq] at hhost
        subst hhost
        rw [← hsame]
        exact hfew
      · exact h.few other
    · rcases List.mem_append.mp hentry with hold | hnew
      · exact hborn entry hold
      · rw [List.mem_singleton.mp hnew]
        exact Nat.lt_succ_self _

/-- A retired session leaves the list. -/
private theorem few_retire (h : SharesOnly settings s) (channel : ℕ) (host : String) :
    (s.sessions.filter (·.channel != channel)).countP
        (fun entry => s.hostOf entry.channel == host) ≤ maxKeepAliveSessions :=
  List.filter_sublist.countP_le.trans (h.few host)

/-- A released session rests among the shared ones or is torn down. -/
theorem SharesOnly.release (h : SharesOnly settings s) (hmode : settings.tlsSession = .keepAlive)
    {ok : Bool} {view : ℕ → ChannelView}
    (hstep : s.step settings (.release call ok view now) = some s') : SharesOnly settings s' := by
  have howned := h.owned.step hstep
  have hwaits := @SharesOnly.waits_update settings s h call .done (by simp)
  obtain ⟨channel, -, ⟨-, -, rfl⟩ | rfl⟩ := release_cases hmode hstep
  · refine ⟨howned, h.spares, hwaits, fun host => ?_, fun entry hentry => ?_⟩
    · exact (countP_setIdle s _ _ fun c => s.hostOf c == host).le.trans (h.few host)
    · obtain ⟨before, hbefore, hsame⟩ := mem_setIdle (s := s) hentry
      exact hsame ▸ h.born before hbefore
  · exact ⟨howned, h.spares, hwaits, few_retire h channel,
      fun entry hentry => h.born entry (List.mem_of_mem_filter hentry)⟩

/-- The timer of a session retires it, or finds it gone. -/
theorem SharesOnly.fire (h : SharesOnly settings s)
    (hstep : s.step settings (.fire (.retire channel) now) = some s') :
    SharesOnly settings s' := by
  have howned := h.owned.step hstep
  rcases fire_cases hstep with rfl | rfl
  · exact ⟨howned, h.spares, h.waits, few_retire h channel,
      fun entry hentry => h.born entry (List.mem_of_mem_filter hentry)⟩
  · exact ⟨howned, h.spares, h.waits, h.few, h.born⟩

/-- A failed open leaves nothing. -/
theorem SharesOnly.callFailed (h : SharesOnly settings s)
    (hstep : s.step settings (.callFailed call) = some s') : SharesOnly settings s' := by
  have howned := h.owned.step hstep
  simp only [Pool.step] at hstep
  split at hstep
  · obtain rfl := Option.some.inj hstep
    exact ⟨howned, h.spares, h.waits_update call (by simp), h.few, h.born⟩
  · cases hstep

end KeepAlive

/-! ### What every step keeps -/

/-- What every step keeps of the pool, its channels and its calls. -/
structure WithinLimits (settings : PoolSettings) (s : Shared) : Prop where
  shares : SharesOnly settings s.pool
  failed : ∀ c, s.failed c = true →
    s.pool.owner c = .gone ∨ ∃ k, s.pool.calls k = .holding c ∧ s.stage k = .failed
  closing : ∀ c, s.closing c = true → (s.channels c).keepAlive = false
  calls : ∀ c, (s.channels c).calls ≤ settings.tlsMaxCallsPerSession
  waiting : ∀ k c, s.pool.calls k = .holding c → s.stage k = .waiting →
    (s.channels c).calls < settings.tlsMaxCallsPerSession
  unborn : ∀ c, s.pool.opened ≤ c →
    (s.channels c).calls = 0 ∧ s.failed c = false ∧ s.closing c = false
  ready : ∀ c, c < s.pool.opened → s.pool.openedAt c ≤ s.readyAt c

section Steps

variable {settings : PoolSettings} {s s' : Shared} {call : ℕ}

namespace WithinLimits

/-- A new pool is within its limits. -/
theorem init : WithinLimits settings Shared.init where
  shares := .init
  failed := by simp [Shared.init]
  closing := by simp [Shared.init]
  calls _ := Nat.zero_le _
  waiting := by simp [Shared.init, Pool.init]
  unborn _ _ := ⟨rfl, rfl, rfl⟩
  ready c hc := absurd hc (Nat.not_lt_zero c)

/-- A session that is idle has no failed request behind it. -/
theorem failed_of_idle (h : WithinLimits settings s) {c : ℕ} (hidle : s.pool.owner c = .idle) :
    s.failed c = false := by
  rw [← Bool.not_eq_true]
  intro hfailed
  rcases h.failed c hfailed with hgone | ⟨k, hk, -⟩
  · cases hidle.symm.trans hgone
  · cases hidle.symm.trans ((h.shares.owned.call k c).mpr hk)

/-- The call and the channel change hands, and nobody who had a failed request. -/
private theorem keep_failed (h : WithinLimits settings s) {pool : Pool}
    (howner : ∀ c, s.failed c = true → s.pool.owner c = .gone → pool.owner c = .gone)
    (hcalls : ∀ k, s.stage k = .failed → (∃ c, s.pool.calls k = .holding c) →
      pool.calls k = s.pool.calls k) :
    ∀ c, s.failed c = true →
      pool.owner c = .gone ∨ ∃ k, pool.calls k = .holding c ∧ s.stage k = .failed := by
  intro c hc
  rcases h.failed c hc with hgone | ⟨k, hk, hstage⟩
  · exact .inl (howner c hc hgone)
  · exact .inr ⟨k, (hcalls k hstage ⟨c, hk⟩).trans hk, hstage⟩

/-- A session that is taken has fewer calls than it may, and is young enough. -/
theorem acquire (h : WithinLimits settings s) (hmode : settings.tlsSession = .keepAlive)
    {host : String} {pool : Pool}
    (hstep : s.pool.step settings (.acquire call host (0, none) s.view 0 s.clock) = some pool) :
    WithinLimits settings { s with pool } := by
  have hshares := h.shares.acquire hmode hstep
  obtain ⟨hfresh, ⟨entry, hentry, hidle, husable, rfl⟩ | rfl⟩ := acquire_cases hmode hstep
  -- an idle session is taken
  · have howner : s.pool.owner entry.channel = .idle :=
      (h.shares.owned.idle _).mpr ⟨entry, hentry, rfl, hidle⟩
    refine ⟨hshares, keep_failed h (fun c _ hgone => ?_) (fun k _ hk => ?_), h.closing, h.calls,
      fun k c hk hstage => ?_, h.unborn, h.ready⟩
    · have hne : c ≠ entry.channel := fun heq => by
        rw [heq, howner] at hgone
        cases hgone
      exact (Function.update_of_ne hne _ _).trans ((Function.update_of_ne hne _ _).trans hgone)
    · refine Function.update_of_ne (fun heq => ?_) _ _
      obtain ⟨c, hk⟩ := hk
      rw [heq, hfresh] at hk
      cases hk
    · change Function.update s.pool.calls call (.holding entry.channel) k = .holding c at hk
      rw [Function.update_apply] at hk
      split_ifs at hk with heq
      · -- the session was usable when the call got it
        obtain rfl := CallPhase.holding.inj hk
        simp only [Pool.keepAliveUsable, decide_eq_true_eq] at husable
        exact husable.2.2.1
      · exact h.waiting k c hk hstage
  -- no session is taken: the call opens one of its own
  · refine ⟨hshares, keep_failed h (fun c _ hgone => hgone) (fun k _ hk => ?_), h.closing, h.calls,
      fun k c hk hstage => ?_, h.unborn, h.ready⟩
    · refine Function.update_of_ne (fun heq => ?_) _ _
      obtain ⟨c, hk⟩ := hk
      rw [heq, hfresh] at hk
      cases hk
    · change Function.update s.pool.calls call (.opening host) k = .holding c at hk
      rw [Function.update_apply] at hk
      split_ifs at hk
      exact h.waiting k c hk hstage

/-- A session that was opened starts with no call, before its first. -/
theorem opened (h : WithinLimits settings s) (hmode : settings.tlsSession = .keepAlive)
    (hcalls : 1 ≤ settings.tlsMaxCallsPerSession) {openedAt : ℤ} (hclock : openedAt ≤ s.clock)
    {pool : Pool} (hstep : s.pool.step settings (.callOpened call 0 openedAt) = some pool) :
    WithinLimits settings
      { s with pool, readyAt := Function.update s.readyAt s.pool.opened s.clock } := by
  have hshares := h.shares.callOpened hmode hstep
  obtain ⟨host, hopening, hcases⟩ := callOpened_cases hmode hstep
  -- kept among the sessions or not, the new session leaves the same calls and owners
  have hpool : pool.calls = Function.update s.pool.calls call (.holding s.pool.opened) ∧
      pool.owner = Function.update (Function.update s.pool.owner s.pool.opened .loose)
        s.pool.opened (.call call) ∧ pool.opened = s.pool.opened + 1 ∧
      pool.openedAt = Function.update s.pool.openedAt s.pool.opened openedAt := by
    rcases hcases with rfl | ⟨-, rfl⟩
    · exact ⟨rfl, rfl, rfl, rfl⟩
    · exact ⟨rfl, rfl, rfl, rfl⟩
  obtain ⟨hphase, howner, hopened, htime⟩ := hpool
  refine ⟨hshares, keep_failed h (fun c hc hgone => ?_) (fun k _ hk => ?_), h.closing, h.calls,
    fun k c hk hstage => ?_, fun c hc => ?_, fun c hc => ?_⟩
  -- the new session is not among those that were given up
  · have hne : c ≠ s.pool.opened := fun heq => by
      rw [(h.unborn c heq.ge).2.1] at hc
      cases hc
    rw [howner, Function.update_of_ne hne, Function.update_of_ne hne, hgone]
  · rw [hphase]
    refine Function.update_of_ne (fun heq => ?_) _ _
    obtain ⟨c, hk⟩ := hk
    rw [heq, hopening] at hk
    cases hk
  · rw [hphase, Function.update_apply] at hk
    split_ifs at hk
    · obtain rfl := CallPhase.holding.inj hk
      rw [(h.unborn _ le_rfl).1]
      exact hcalls
    · exact h.waiting k c hk hstage
  · rw [hopened] at hc
    exact h.unborn c (Nat.le_of_succ_le hc)
  -- it was opened no later than now
  · simp only [htime, Function.update_apply]
    split_ifs with heq
    · exact hclock
    · rw [hopened] at hc
      exact h.ready c (lt_of_le_of_ne (Nat.le_of_lt_succ hc) heq)

/-- A failed open leaves the sessions as they are. -/
theorem openFailed (h : WithinLimits settings s) {pool : Pool}
    (hstep : s.pool.step settings (.callFailed call) = some pool) :
    WithinLimits settings { s with pool } := by
  have hshares := h.shares.callFailed hstep
  simp only [Pool.step] at hstep
  split at hstep
  next hopening =>
    obtain rfl := Option.some.inj hstep
    refine ⟨hshares, keep_failed h (fun c _ hgone => hgone) (fun k _ hk => ?_), h.closing, h.calls,
      fun k c hk hstage => ?_, h.unborn, h.ready⟩
    · refine Function.update_of_ne (fun heq => ?_) _ _
      obtain ⟨c, hk⟩ := hk
      rw [heq, hopening] at hk
      cases hk
    · change Function.update s.pool.calls call .done k = .holding c at hk
      rw [Function.update_apply] at hk
      split_ifs at hk
      exact h.waiting k c hk hstage
  next => cases hstep

/-- A session that a call holds was opened. -/
theorem holding_lt (h : WithinLimits settings s) {c : ℕ} (hk : s.pool.calls call = .holding c) :
    c < s.pool.opened :=
  lt_opened h.shares.owned (by simp [(h.shares.owned.call call c).mpr hk])

/-- One call holds a session. -/
theorem holding_unique (h : WithinLimits settings s) {k k' c : ℕ}
    (hk : s.pool.calls k = .holding c) (hk' : s.pool.calls k' = .holding c) : k = k' :=
  Owner.call.inj (((h.shares.owned.call k c).mpr hk).symm.trans
    ((h.shares.owned.call k' c).mpr hk'))

/-- A request counts for its session, which had room for it when the call took it. -/
theorem sendRequest (h : WithinLimits settings s) {c : ℕ}
    (hk : s.pool.calls call = .holding c) (hstage : s.stage call = .waiting) :
    WithinLimits settings (s.sendRequest call c) := by
  refine ⟨h.shares, fun c' hc' => ?_, fun c' hc' => ?_, fun c' => ?_, fun k c' hk' hwaits => ?_,
    fun c' hc' => ?_, h.ready⟩
  · rcases h.failed c' hc' with hgone | ⟨k, hk', hfailed⟩
    · exact .inl hgone
    · refine .inr ⟨k, hk', (Function.update_of_ne (fun heq => ?_) _ _).trans hfailed⟩
      rw [heq, hstage] at hfailed
      cases hfailed
  · have hclosing := h.closing c' hc'
    simp only [Shared.sendRequest, Function.update_apply]
    split_ifs with heq
    · exact heq ▸ hclosing
    · exact hclosing
  · simp only [Shared.sendRequest, Function.update_apply]
    split_ifs
    · exact h.waiting call c hk hstage
    · exact h.calls c'
  · simp only [Shared.sendRequest, Function.update_apply] at hwaits ⊢
    split_ifs at hwaits with hcall
    have hne : c' ≠ c := fun heq => hcall (h.holding_unique hk' (heq ▸ hk))
    rw [if_neg hne]
    exact h.waiting k c' hk' hwaits
  · simp only [Shared.sendRequest, Function.update_apply]
    rw [if_neg ((h.holding_lt hk).trans_le hc').ne']
    exact h.unborn c' hc'

/-- A request ends; only a failed one and a closing response leave a mark. -/
theorem endRequest (h : WithinLimits settings s) {c : ℕ} (hk : s.pool.calls call = .holding c)
    (hstage : s.stage call = .sent) {stage : RequestStage} {keepAlive eof : Bool}
    {failed closing : ℕ → Bool} (hended : stage ≠ .waiting)
    (hfailed : ∀ c', failed c' = true → s.failed c' = true ∨ c' = c ∧ stage = .failed)
    (hclosing : ∀ c', closing c' = true → s.closing c' = true ∨ c' = c ∧ keepAlive = false) :
    WithinLimits settings
      { s.endRequest call c stage keepAlive eof with failed := failed, closing := closing } := by
  have hlt := h.holding_lt hk
  refine ⟨h.shares, fun c' hc' => ?_, fun c' hc' => ?_, fun c' => ?_, fun k c' hk' hwaits => ?_,
    fun c' hc' => ?_, h.ready⟩
  -- a session that failed is gone, or its own call ended so
  · rcases hfailed c' hc' with hold | ⟨rfl, rfl⟩
    · rcases h.failed c' hold with hgone | ⟨k, hk', hbefore⟩
      · exact .inl hgone
      · refine .inr ⟨k, hk', (Function.update_of_ne (fun heq => ?_) _ _).trans hbefore⟩
        rw [heq, hstage] at hbefore
        cases hbefore
    · exact .inr ⟨call, hk, Function.update_self ..⟩
  · simp only [Shared.endRequest, Function.update_apply]
    rcases hclosing c' hc' with hold | ⟨rfl, rfl⟩
    · have hbefore := h.closing c' hold
      split_ifs with heq
      · rw [← heq, hbefore]
        rfl
      · exact hbefore
    · simp
  · simp only [Shared.endRequest, Function.update_apply]
    split_ifs
    · exact h.calls c
    · exact h.calls c'
  · simp only [Shared.endRequest, Function.update_apply] at hwaits ⊢
    split_ifs at hwaits with hcall
    · exact absurd hwaits hended
    -- a session has one call at a time, so no other waits on this one
    · have hne : c' ≠ c := fun heq => hcall (h.holding_unique hk' (heq ▸ hk))
      rw [if_neg hne]
      exact h.waiting k c' hk' hwaits
  · have hne : c' ≠ c := (hlt.trans_le hc').ne'
    obtain ⟨hcalls, hnofail, hnoclose⟩ := h.unborn c' hc'
    simp only [Shared.endRequest, Function.update_apply, if_neg hne]
    refine ⟨hcalls, ?_, ?_⟩
    · rw [← Bool.not_eq_true]
      intro hnew
      rcases hfailed c' hnew with hold | ⟨heq, -⟩
      · rw [hnofail] at hold
        cases hold
      · exact hne heq
    · rw [← Bool.not_eq_true]
      intro hnew
      rcases hclosing c' hnew with hold | ⟨heq, -⟩
      · rw [hnoclose] at hold
        cases hold
      · exact hne heq

/-- A released session is idle again after an answer only. -/
theorem release (h : WithinLimits settings s) (hmode : settings.tlsSession = .keepAlive) {ok : Bool}
    (hok : s.stage call = .failed → ok = false) {pool : Pool}
    (hstep : s.pool.step settings (.release call ok s.view s.clock) = some pool) :
    WithinLimits settings { s with pool } := by
  have hshares := h.shares.release hmode hstep
  obtain ⟨channel, hholding, hcases⟩ := release_cases hmode hstep
  have howner : s.pool.owner channel = .call call := (h.shares.owned.call _ _).mpr hholding
  have hne : ∀ c, s.pool.owner c = .gone → c ≠ channel := fun c hgone heq => by
    rw [heq, howner] at hgone
    cases hgone
  have hwaiting : ∀ k c, Function.update s.pool.calls call .done k = .holding c →
      s.stage k = .waiting → (s.channels c).calls < settings.tlsMaxCallsPerSession := by
    intro k c hk hstage
    rw [Function.update_apply] at hk
    split_ifs at hk
    exact h.waiting k c hk hstage
  rcases hcases with ⟨rfl, -, rfl⟩ | rfl
  -- it rests: only its owner has changed
  · refine ⟨hshares, keep_failed h (fun c _ hgone => ?_) (fun k hstage _ => ?_), h.closing, h.calls,
      hwaiting, h.unborn, h.ready⟩
    · exact (Function.update_of_ne (hne c hgone) _ _).trans
        ((Function.update_of_ne (hne c hgone) _ _).trans hgone)
    · refine Function.update_of_ne (fun heq => ?_) _ _
      cases hok (heq ▸ hstage)
  -- it is retired: it is gone, and what was gone stays so
  · have hgone : ∀ c, c = channel ∨ s.pool.owner c = .gone →
        (Pool.retire { s.pool.loosen channel with
          calls := Function.update s.pool.calls call .done } channel).owner c = .gone := by
      intro c hc
      simp only [Pool.retire, Pool.teardown, Pool.teardownAll, Pool.loosen, Function.update_apply,
        List.mem_singleton]
      split_ifs with heq
      · rfl
      · exact hc.resolve_left heq
    refine ⟨hshares, fun c hc => ?_, h.closing, h.calls, hwaiting, h.unborn, h.ready⟩
    rcases h.failed c hc with hbefore | ⟨k, hk, hstage⟩
    · exact .inl (hgone c (.inr hbefore))
    · by_cases heq : k = call
      · subst heq
        exact .inl (hgone c (.inl (CallPhase.holding.inj (hk.symm.trans hholding))))
      · exact .inr ⟨k, (Function.update_of_ne heq _ _).trans hk, hstage⟩

/-- A session that is retired is gone, and the others are as they were. -/
theorem fire (h : WithinLimits settings s) {channel : ℕ} {pool : Pool}
    (hstep : s.pool.step settings (.fire (.retire channel) s.clock) = some pool) :
    WithinLimits settings { s with pool } := by
  have hshares := h.shares.fire hstep
  rcases fire_cases hstep with rfl | rfl
  · refine ⟨hshares, keep_failed h (fun c _ hgone => ?_) (fun _ _ _ => rfl), h.closing, h.calls,
      h.waiting, h.unborn, h.ready⟩
    simp only [Pool.retire, Pool.teardown, Pool.teardownAll, hgone, ite_self]
  · exact ⟨hshares, keep_failed h (fun _ _ hgone => hgone) (fun _ _ _ => rfl), h.closing, h.calls,
      h.waiting, h.unborn, h.ready⟩

/-- A session that the server closes is not reusable; nothing else changes. -/
theorem upstreamCloses (h : WithinLimits settings s) (channel : ℕ) :
    WithinLimits settings { s with
      channels :=
        Function.update s.channels channel { s.channels channel with closed := true } } := by
  have hcalls : ∀ c, (Function.update s.channels channel
      { s.channels channel with closed := true } c).calls = (s.channels c).calls := fun c => by
    rw [Function.update_apply]
    split_ifs with heq
    · rw [heq]
    · rfl
  refine ⟨h.shares, h.failed, fun c hc => ?_, fun c => (hcalls c).le.trans (h.calls c),
    fun k c hk hstage => (hcalls c).trans_lt (h.waiting k c hk hstage), fun c hc => ?_, h.ready⟩
  · have hclosing := h.closing c hc
    simp only [Function.update_apply]
    split_ifs with heq
    · exact heq ▸ hclosing
    · exact hclosing
  · obtain ⟨hzero, hrest⟩ := h.unborn c hc
    exact ⟨(hcalls c).trans hzero, hrest⟩

/-- Every step keeps within the limits. -/
theorem step (h : WithinLimits settings s) (hmode : settings.tlsSession = .keepAlive)
    (hcalls : 1 ≤ settings.tlsMaxCallsPerSession) {event : SharedEvent}
    (hstep : s.step settings event = some s') : WithinLimits settings s' := by
  cases event with
  | acquire call host =>
    obtain ⟨pool, hpool, rfl⟩ := Option.map_eq_some_iff.mp hstep
    exact h.acquire hmode hpool
  | opened call openedAt =>
    simp only [Shared.step] at hstep
    split_ifs at hstep with hclock
    obtain ⟨pool, hpool, rfl⟩ := Option.map_eq_some_iff.mp hstep
    exact h.opened hmode hcalls hclock hpool
  | openFailed call =>
    obtain ⟨pool, hpool, rfl⟩ := Option.map_eq_some_iff.mp hstep
    exact h.openFailed hpool
  | request call =>
    simp only [Shared.step] at hstep
    split at hstep
    -- a response makes its session unfit for another when it closes it
    next c hholding hstage =>
      obtain rfl := Option.some.inj hstep
      exact h.sendRequest hholding hstage
    next => cases hstep
  | respond call keepAlive eof =>
    simp only [Shared.step] at hstep
    split at hstep
    -- the session of the call may close before its response
    next c hholding hstage =>
      obtain rfl := Option.some.inj hstep
      refine h.endRequest hholding hstage (by simp) (fun c' hc' => .inl hc') fun c' hc' => ?_
      rw [Function.update_apply] at hc'
      split_ifs at hc' with heq
      · rw [Bool.or_eq_true, Bool.not_eq_true', ← heq] at hc'
        exact hc'.imp id fun hclose => ⟨heq, hclose⟩
      · exact .inl hc'
    next => cases hstep
  | fail call eof =>
    simp only [Shared.step] at hstep
    split at hstep
    next c hholding hstage =>
      obtain rfl := Option.some.inj hstep
      refine h.endRequest hholding hstage (by simp) (fun c' hc' => ?_) fun c' hc' => .inl hc'
      rw [Function.update_apply] at hc'
      split_ifs at hc' with heq
      · exact .inr ⟨heq, rfl⟩
      · exact .inl hc'
    next => cases hstep
  | release call =>
    simp only [Shared.step] at hstep
    split at hstep
    next hstage =>
      obtain ⟨pool, hpool, rfl⟩ := Option.map_eq_some_iff.mp hstep
      exact h.release hmode (by simp [hstage]) hpool
    next =>
      obtain ⟨pool, hpool, rfl⟩ := Option.map_eq_some_iff.mp hstep
      exact h.release hmode (fun _ => rfl) hpool
    next => cases hstep
  | upstreamCloses channel =>
    simp only [Shared.step] at hstep
    split_ifs at hstep
    obtain rfl := Option.some.inj hstep
    exact h.upstreamCloses channel
  | fire channel =>
    simp only [Shared.step] at hstep
    split_ifs at hstep
    obtain ⟨pool, hpool, rfl⟩ := Option.map_eq_some_iff.mp hstep
    exact h.fire hpool
  | tick ms =>
    obtain rfl := Option.some.inj hstep
    exact ⟨h.shares, h.failed, h.closing, h.calls, h.waiting, h.unborn, h.ready⟩

end WithinLimits

/-! ### The limits -/

/-- The limits on the shared sessions of a state. -/
structure Shared.Limits (settings : PoolSettings) (s : Shared) : Prop where
  few : ∀ host, s.pool.sessions.countP (fun entry => s.pool.hostOf entry.channel == host)
    ≤ maxKeepAliveSessions
  one : ∀ k k' c, s.pool.calls k = .holding c → s.pool.calls k' = .holding c → k = k'
  calls : ∀ c, (s.channels c).calls ≤ settings.tlsMaxCallsPerSession
  /-- Once the timers that are due have fired, a session is with a call, idle and young, or torn
  down. -/
  torn : (∀ c, .retire c ∈ s.pool.timers → s.clock < s.retireDue settings c) →
    ∀ c < s.pool.opened, (∃ k, s.pool.calls k = .holding c) ∨
      s.pool.IsIdle c ∧ s.clock - s.pool.openedAt c < settings.tlsKeepAliveMs ∨ s.pool.torn c = 1

/-- What is within the limits has the bounds of the claim: calls, age and marks. -/
theorem WithinLimits.limits (h : WithinLimits settings s) : s.Limits settings where
  few := h.shares.few
  one _ _ _ hk hk' := h.holding_unique hk hk'
  calls := h.calls
  torn := by
    intro hfired c hc
    have howned := h.shares.owned
    cases howner : s.pool.owner c with
    | unborn => exact absurd hc (not_lt.mpr ((howned.unborn c).mp howner))
    | loose => cases (howned.loose c).mp howner
    | call k => exact .inl ⟨k, (howned.call k c).mp howner⟩
    | spare =>
      have hspare := (howned.spare c).mp howner
      rw [h.shares.spares] at hspare
      cases hspare
    | idle =>
      have hdue : s.clock < s.pool.openedAt c + settings.tlsKeepAliveMs :=
        hfired c (howned.armed c howner)
      exact .inr (.inl ⟨(howned.idle c).mp howner, by omega⟩)
    | opening id =>
      obtain ⟨k, host, outcome, -, hk, -⟩ := (howned.opening c id).mp howner
      exact absurd hk (h.shares.waits k host id outcome)
    | gone => exact .inr (.inr (howned.gone c howner))

/-- A call that gets a session in a step gets one without a failed request or a closing response
behind it, whose open returned less than `tlsKeepAliveMs` ago; a session that it does not open
itself was made less than `tlsKeepAliveMs` ago. -/
def StartsWell (settings : PoolSettings) (s s' : Shared) : Prop :=
  ∀ k c, s.pool.calls k ≠ .holding c → s'.pool.calls k = .holding c →
    s.failed c = false ∧ s.closing c = false ∧
      s'.clock < s'.readyAt c + settings.tlsKeepAliveMs ∧
      (c = s.pool.opened ∨ s'.clock < s'.pool.openedAt c + settings.tlsKeepAliveMs)

/-- No call gets a session where the pool keeps its calls. -/
private theorem startsWell_of_calls
    (hcalls : ∀ k c, s'.pool.calls k = .holding c → s.pool.calls k = .holding c) :
    StartsWell settings s s' :=
  fun k c hbefore hafter => absurd (hcalls k c hafter) hbefore

/-- A call that is updated to a phase without a session gets none. -/
private theorem holding_of_update {calls : ℕ → CallPhase} {phase : CallPhase}
    (hphase : ∀ c, phase ≠ .holding c) {k c : ℕ}
    (hafter : Function.update calls call phase k = .holding c) : calls k = .holding c := by
  rw [Function.update_apply] at hafter
  split_ifs at hafter
  · exact absurd hafter (hphase c)
  · exact hafter

/-- A call that starts on a shared session finds it idle, usable and young enough. -/
theorem WithinLimits.starts_acquire (h : WithinLimits settings s)
    (hmode : settings.tlsSession = .keepAlive) {host : String} {pool : Pool}
    (hstep : s.pool.step settings (.acquire call host (0, none) s.view 0 s.clock) = some pool) :
    StartsWell settings s { s with pool } := by
  obtain ⟨-, ⟨entry, hentry, hidle, husable, rfl⟩ | rfl⟩ := acquire_cases hmode hstep
  · intro k c hbefore hafter
    change Function.update s.pool.calls call (.holding entry.channel) k = .holding c at hafter
    rw [Function.update_apply] at hafter
    split_ifs at hafter
    · obtain rfl := CallPhase.holding.inj hafter
      have howner : s.pool.owner entry.channel = .idle :=
        (h.shares.owned.idle _).mpr ⟨entry, hentry, rfl, hidle⟩
      simp only [Pool.keepAliveUsable, decide_eq_true_eq] at husable
      obtain ⟨-, hreusable, -, hage⟩ := husable
      have hyoung : s.clock < s.pool.openedAt entry.channel + settings.tlsKeepAliveMs := by omega
      refine ⟨h.failed_of_idle howner, ?_, ?_, .inr hyoung⟩
      · -- a closing response leaves the session unusable
        rw [← Bool.not_eq_true]
        intro hclosing
        rw [Shared.view, h.closing _ hclosing] at hreusable
        cases hreusable
      · have hready := h.ready _ (h.shares.born entry hentry)
        dsimp only
        omega
    · exact absurd hafter hbefore
  · exact startsWell_of_calls fun k c => holding_of_update (by simp)

/-- A call that starts on its own session is the first on it. -/
theorem WithinLimits.starts_opened (h : WithinLimits settings s)
    (hmode : settings.tlsSession = .keepAlive) (hkeep : 0 < settings.tlsKeepAliveMs)
    {openedAt : ℤ} {pool : Pool}
    (hstep : s.pool.step settings (.callOpened call 0 openedAt) = some pool) :
    StartsWell settings s
      { s with pool, readyAt := Function.update s.readyAt s.pool.opened s.clock } := by
  obtain ⟨host, -, hcases⟩ := callOpened_cases hmode hstep
  have hphase : pool.calls = Function.update s.pool.calls call (.holding s.pool.opened) := by
    rcases hcases with rfl | ⟨-, rfl⟩
    · rfl
    · rfl
  intro k c hbefore hafter
  change pool.calls k = .holding c at hafter
  rw [hphase, Function.update_apply] at hafter
  split_ifs at hafter
  · obtain rfl := CallPhase.holding.inj hafter
    obtain ⟨-, hnofail, hnoclose⟩ := h.unborn _ le_rfl
    refine ⟨hnofail, hnoclose, ?_, .inl rfl⟩
    simp only [Function.update_self]
    omega
  · exact absurd hafter hbefore

/-- Whatever happens, a call that starts on a session starts well. -/
theorem WithinLimits.starts (h : WithinLimits settings s) (hmode : settings.tlsSession = .keepAlive)
    (hkeep : 0 < settings.tlsKeepAliveMs) {event : SharedEvent}
    (hstep : s.step settings event = some s') : StartsWell settings s s' := by
  cases event with
  | acquire call host =>
    obtain ⟨pool, hpool, rfl⟩ := Option.map_eq_some_iff.mp hstep
    exact h.starts_acquire hmode hpool
  | opened call openedAt =>
    simp only [Shared.step] at hstep
    split_ifs at hstep
    obtain ⟨pool, hpool, rfl⟩ := Option.map_eq_some_iff.mp hstep
    exact h.starts_opened hmode hkeep hpool
  | openFailed call =>
    obtain ⟨pool, hpool, rfl⟩ := Option.map_eq_some_iff.mp hstep
    simp only [Pool.step] at hpool
    split at hpool
    · obtain rfl := Option.some.inj hpool
      exact startsWell_of_calls fun k c => holding_of_update (by simp)
    · cases hpool
  | request call | respond call keepAlive eof | fail call eof =>
    simp only [Shared.step] at hstep
    split at hstep
    · obtain rfl := Option.some.inj hstep
      exact startsWell_of_calls fun _ _ hafter => hafter
    · cases hstep
  | release call =>
    -- a release starts no call on a session, whatever becomes of it
    have hreleased : ∀ {ok : Bool} {pool : Pool},
        s.pool.step settings (.release call ok s.view s.clock) = some pool →
          StartsWell settings s { s with pool } := by
      intro ok pool hpool
      obtain ⟨channel, -, ⟨-, -, rfl⟩ | rfl⟩ := release_cases hmode hpool
      · exact startsWell_of_calls fun k c => holding_of_update (by simp)
      · exact startsWell_of_calls fun k c => holding_of_update (by simp)
    simp only [Shared.step] at hstep
    split at hstep
    · obtain ⟨pool, hpool, rfl⟩ := Option.map_eq_some_iff.mp hstep
      exact hreleased hpool
    · obtain ⟨pool, hpool, rfl⟩ := Option.map_eq_some_iff.mp hstep
      exact hreleased hpool
    · cases hstep
  | upstreamCloses channel =>
    simp only [Shared.step] at hstep
    split_ifs at hstep
    obtain rfl := Option.some.inj hstep
    exact startsWell_of_calls fun _ _ hafter => hafter
  | fire channel =>
    simp only [Shared.step] at hstep
    split_ifs at hstep
    obtain ⟨pool, hpool, rfl⟩ := Option.map_eq_some_iff.mp hstep
    rcases fire_cases hpool with rfl | rfl
    · exact startsWell_of_calls fun _ _ hafter => hafter
    · exact startsWell_of_calls fun _ _ hafter => hafter
  | tick ms =>
    obtain rfl := Option.some.inj hstep
    exact startsWell_of_calls fun _ _ hafter => hafter

end Steps

/-- Keep-alive mode keeps its limits in every run: the sessions of a host are few, a session has
one call at a time and no more than it may carry, every call starts on a session that is fit
for it, and a session that is idle past its lifetime is torn down.

The limits are part of an invariant (`WithinLimits`). That a call starts on a fit session is about
one step more; it follows from the invariant before it, as only three events give a session to a
call (`WithinLimits.starts`). -/
theorem keepAlive_limits (settings : PoolSettings) (s : Shared)
    (hmode : settings.tlsSession = .keepAlive) (hcalls : 1 ≤ settings.tlsMaxCallsPerSession)
    (hkeep : 0 < settings.tlsKeepAliveMs) (hrun : Run (Shared.step settings) Shared.init s) :
    s.Limits settings ∧
      ∀ event s', s.step settings event = some s' → StartsWell settings s s' := by
  have hlimits : WithinLimits settings s := hrun.invariant .init
    fun _ _ _ hbefore hstep => hbefore.step hmode hcalls hstep
  exact ⟨hlimits.limits, fun event s' hstep => hlimits.starts hmode hkeep hstep⟩

/-- The settings of the sample: a session lives ten seconds and carries two calls. -/
def sampleKeepAliveSettings : PoolSettings where
  tlsSession := .keepAlive
  tlsSpares := 0
  tlsSpareTtlMs := 60000
  tlsKeepAliveMs := 10000
  tlsMaxCallsPerSession := 2

/-- Two calls one after the other on one session, with a timer that is due before the second one
ends. -/
def sampleSharedEvents : List SharedEvent :=
  [.acquire 0 "rpc.example", .tick 400, .opened 0 0, .request 0, .tick 100, .respond 0 true false,
    .release 0, .tick 9000, .acquire 1 "rpc.example", .request 1, .tick 600, .fire 0,
    .respond 1 true false, .release 1]

/-- The second call gets the session of the first, which is torn down when it is done. -/
theorem keepAlive_limits_sample :
    ∃ s, runEvents (Shared.step sampleKeepAliveSettings) Shared.init sampleSharedEvents = some s ∧
      s.pool.opened = 1 ∧ (s.channels 0).calls = 2 ∧ s.pool.torn 0 = 1 ∧
      s.Limits sampleKeepAliveSettings := by
  have hsome : ((runEvents (Shared.step sampleKeepAliveSettings) Shared.init
      sampleSharedEvents).map fun s => (s.pool.opened, (s.channels 0).calls, s.pool.torn 0)) =
        some (1, 2, 1) := by decide +kernel
  obtain ⟨s, hs, hfields⟩ := Option.map_eq_some_iff.mp hsome
  simp only [Prod.mk.injEq] at hfields
  obtain ⟨hopened, hcarried, htorn⟩ := hfields
  exact ⟨s, hs, hopened, hcarried, htorn,
    (keepAlive_limits sampleKeepAliveSettings s rfl (by decide) (by decide)
      (run_of_runEvents hs)).1⟩

end NoxSdk.Tls
