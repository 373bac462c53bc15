import Mathlib.Data.List.Nodup
import NoxSdk.Tls.Pool

/-!
# Runs of the pool

What every step of the pool keeps: each channel has the one owner that `owner` says, and the call,
the spares, the shared sessions and the settled opens agree with it. `Owned` says so of a state in
which at most one channel is between two owners; every function of the pool either keeps it, or
takes a channel from its owner, or gives a loose one an owner.

The invariant has three parts. `Pool.Owns` compares `owner` with what the rest of the state claims,
and changes in three ways only: not at all (`Pool.Owns.congr`), by one channel going from one owner
to another (`Pool.Owns.move`), or by a teardown (`Pool.Owns.teardownAll`). `Ledger` counts what has
been done to each channel, and has one lemma for each of the last two. `Awaited` is about the calls
that wait for an open, and does not look at the channels' owners.
-/

namespace NoxSdk.Tls

open NoxSdk.Lib

variable {settings : PoolSettings} {held held' : Option ℕ} {s s' : Pool} {c k : ℕ}

/-! ### Owners -/

/-- Whether the rest of the state gives the channel to this owner, while a step has the channel
`held` in its hands. That a channel is gone is said by `owner` alone. -/
def Pool.Claims (s : Pool) (held : Option ℕ) (c : ℕ) : Owner → Prop
  | .unborn => s.opened ≤ c
  | .loose => held = some c
  | .call k => s.calls k = .holding c
  | .spare => c ∈ s.spares.map Spare.channel
  | .idle => ∃ entry ∈ s.sessions, entry.channel = c ∧ entry.idle
  | .opening id => ∃ k host outcome entry, s.calls k = .waiting host id outcome ∧
      s.opens id = some entry ∧ entry.result = some (some c)
  | .gone => s.owner c = .gone

/-- A channel has the owner that the rest of the state gives it to, and no other. -/
def Pool.Owns (s : Pool) (held : Option ℕ) : Prop :=
  ∀ c o, s.owner c = o ↔ s.Claims held c o

/-- No channel changes hands. -/
theorem Pool.Owns.congr (h : s.Owns held) (howner : s'.owner = s.owner)
    (hsame : ∀ c o, o ≠ .gone → (s'.Claims held c o ↔ s.Claims held c o)) : s'.Owns held := by
  intro c o
  by_cases hgone : o = .gone
  · subst hgone
    exact Iff.rfl
  · rw [howner, hsame c o hgone]
    exact h c o

/-- A channel goes from its owner to another one: the old owner's claims lose it, the new owner's
gain it, and those of all others are as they were. -/
theorem Pool.Owns.move (h : s.Owns held) {old new : Owner} (hold : s.owner c = old)
    (howner : s'.owner = Function.update s.owner c new) (hne : old ≠ new)
    (hsame : ∀ c' o, o ≠ old → o ≠ new → o ≠ .gone → (s'.Claims held' c' o ↔ s.Claims held c' o))
    (hleft : ∀ c', s'.Claims held' c' old ↔ c' ≠ c ∧ s.Claims held c' old)
    (hjoined : ∀ c', s'.Claims held' c' new ↔ c' = c ∨ s.Claims held c' new) : s'.Owns held' := by
  intro c' o
  by_cases hgone : o = .gone
  · subst hgone
    exact Iff.rfl
  have howns := h c'
  rw [howner, Function.update_apply]
  by_cases ho : o = old
  · rw [ho, hleft, ← howns]
    grind
  by_cases hn : o = new
  · rw [hn, hjoined, ← howns]
    grind
  rw [hsame c' o ho hn hgone, ← howns]
  grind

/-- Channels are torn down, and nobody but a call has them any more. -/
theorem Pool.Owns.teardownAll (h : s.Owns held) {channels : List ℕ}
    (howner : s'.owner = (s.teardownAll channels).owner)
    (hkept : ∀ c o, o ≠ .gone →
      (s'.Claims held' c o ↔ s.Claims held c o ∧ (c ∈ channels → o.isCall))) : s'.Owns held' := by
  intro c o
  by_cases hgone : o = .gone
  · subst hgone
    exact Iff.rfl
  have howns := h c
  rw [hkept c o hgone, ← howns, howner]
  simp only [Pool.teardownAll]
  grind [Owner.isCall]

/-! ### What was done to a channel -/

/-- A channel is torn down at most once, when its owner lets go of it for good or under a call, and
in per-call mode it is handed to at most one call. -/
structure Ledger (settings : PoolSettings) (held : Option ℕ) (s : Pool) : Prop where
  whole : ∀ c, s.torn c ≠ 0 → s.owner c = .gone ∨ held = some c ∨ (s.owner c).isCall
  gone : ∀ c, s.owner c = .gone → s.torn c = 1
  once : ∀ c, s.torn c ≤ 1
  armed : ∀ c, s.owner c = .idle → .retire c ∈ s.timers
  unserved : settings.tlsSession = .perCall → ∀ c, s.served c ≠ 0 →
    s.served c = 1 ∧ (s.owner c = .gone ∨ held = some c ∨ (s.owner c).isCall)

/-- A channel goes to another owner: to one that may have it torn and served, or as it came out of
the handshake. -/
theorem Ledger.move (h : Ledger settings held s) {new : Owner}
    (howner : s'.owner = Function.update s.owner c new) (htorn : s'.torn = s.torn)
    (htimers : ∀ c', .retire c' ∈ s.timers → .retire c' ∈ s'.timers)
    (hheld : ∀ c', held = some c' → c' = c) (hgone : new ≠ .gone)
    (hidle : new = .idle → .retire c ∈ s'.timers)
    (hwhole : s.torn c ≠ 0 → held' = some c ∨ new.isCall)
    (hothers : ∀ c' ≠ c, s'.served c' = s.served c')
    (hserved : settings.tlsSession = .perCall → s'.served c ≠ 0 →
      s'.served c = 1 ∧ (held' = some c ∨ new.isCall)) : Ledger settings held' s' where
  whole := by
    have := h.whole
    simp only [howner, htorn, Function.update_apply]
    grind
  gone := by
    have := h.gone
    simp only [howner, htorn, Function.update_apply]
    grind
  once := htorn ▸ h.once
  armed := by
    have := h.armed
    simp only [howner, Function.update_apply]
    grind
  unserved := by
    have := h.unserved
    simp only [howner, Function.update_apply]
    grind

/-- A step takes a channel from its owner. -/
theorem Ledger.loosen (h : Ledger settings none s) (howner : s'.owner = (s.loosen c).owner)
    (htorn : s'.torn = s.torn) (hserved : s'.served = s.served)
    (htimers : ∀ c', .retire c' ∈ s.timers → .retire c' ∈ s'.timers) :
    Ledger settings (some c) s' :=
  h.move howner htorn htimers nofun nofun nofun (fun _ => .inl rfl) (fun _ _ => hserved ▸ rfl)
    fun hperCall hne => ⟨hserved ▸ (h.unserved hperCall c (hserved ▸ hne)).1, .inl rfl⟩

/-- A loose channel that was not torn down goes to an owner. -/
theorem Ledger.place (h : Ledger settings (some c) s) {new : Owner}
    (howner : s'.owner = Function.update s.owner c new) (htorn : s'.torn = s.torn)
    (hserved : s'.served = s.served)
    (htimers : ∀ c', .retire c' ∈ s.timers → .retire c' ∈ s'.timers) (hgone : new ≠ .gone)
    (hidle : new = .idle → .retire c ∈ s'.timers) (hwhole : s.torn c = 0)
    (hunserved : settings.tlsSession = .perCall → s.served c = 0) : Ledger settings none s' :=
  h.move howner htorn htimers (fun _ heq => (Option.some.inj heq).symm) hgone hidle
    (fun hne => absurd hwhole hne) (fun _ _ => hserved ▸ rfl)
    fun hperCall hne => absurd (hunserved hperCall) (hserved ▸ hne)

/-- Channels are torn down. -/
theorem Ledger.teardownAll (h : Ledger settings held s) {channels : List ℕ}
    (howner : s'.owner = (s.teardownAll channels).owner)
    (htorn : s'.torn = (s.teardownAll channels).torn) (hserved : s'.served = s.served)
    (htimers : ∀ c, c ∉ channels → .retire c ∈ s.timers → .retire c ∈ s'.timers)
    (hheld : ∀ c, held = some c → held' = some c ∨ c ∈ channels) : Ledger settings held' s' where
  whole := by
    have := h.whole
    simp only [howner, htorn, Pool.teardownAll]
    grind [Owner.isCall]
  gone := by
    have := h.gone
    have := h.once
    simp only [howner, htorn, Pool.teardownAll]
    grind
  once := by
    have := h.once
    simp only [htorn, Pool.teardownAll]
    grind
  armed := by
    have := h.armed
    simp only [howner, Pool.teardownAll]
    grind
  unserved := by
    have := h.unserved
    simp only [howner, hserved, Pool.teardownAll]
    grind [Owner.isCall]

/-! ### Calls that wait for an open -/

/-- A call that waits has claimed an open, at most one call waits for an open, and what
`settleFirst` resolved to is how the open ended. -/
structure Awaited (s : Pool) : Prop where
  waiting : ∀ k host id outcome, s.calls k = .waiting host id outcome →
    ∃ entry, s.opens id = some entry ∧ entry.claimed ∧
      (∀ c, outcome = some (.opened c) → entry.result = some (some c)) ∧
      (outcome = some .failed → entry.result = some none)
  claimed : ∀ id entry, s.opens id = some entry → entry.claimed → entry.result = none →
    ∃ k host outcome, s.calls k = .waiting host id outcome
  waiter : ∀ k k' host host' id outcome outcome', s.calls k = .waiting host id outcome →
    s.calls k' = .waiting host' id outcome' → k = k'
  pending : ∀ id ∈ s.pending, ∃ entry, s.opens id = some entry ∧ entry.result = none
  starts : ∀ id, s.starts ≤ id → s.opens id = none

namespace Awaited

/-- A pending open has no result. -/
theorem result_eq_none (h : Awaited s) {id : ℕ} {entry : PendingOpen} (hid : id ∈ s.pending)
    (hentry : s.opens id = some entry) : entry.result = none := by
  obtain ⟨entry', hentry', hresult⟩ := h.pending id hid
  rw [hentry] at hentry'
  exact Option.some.inj hentry' ▸ hresult

/-- A new open is under an id that no call waits for. -/
theorem startOpen (h : Awaited s) (host : String) (now : ℤ) : Awaited (s.startOpen host now) where
  waiting := by
    have hstarts := h.starts s.starts (le_refl _)
    have hwaiting := h.waiting
    simp only [Pool.startOpen, Function.update_apply]
    grind
  claimed := by
    have hclaimed := h.claimed
    simp only [Pool.startOpen, Function.update_apply]
    grind
  waiter := h.waiter
  pending := by
    intro id hid
    simp only [Pool.startOpen, Function.update_apply]
    rcases List.mem_append.mp hid with hold | hnew
    · obtain ⟨entry, hentry, hresult⟩ := h.pending id hold
      have hne : id ≠ s.starts := fun heq => by
        rw [heq, h.starts s.starts (le_refl _)] at hentry
        cases hentry
      exact ⟨entry, (if_neg hne).trans hentry, hresult⟩
    · exact ⟨_, if_pos (List.mem_singleton.mp hnew), rfl⟩
  starts := by
    have hstarts := h.starts
    simp only [Pool.startOpen, Function.update_apply]
    grind

/-- A call gets to another phase. It goes on waiting for the same open, or the open that it waited
for has a result. -/
theorem setPhase (h : Awaited s) {phase : CallPhase}
    (hwaits : ∀ host id outcome, phase = .waiting host id outcome →
      (∃ old, s.calls k = .waiting host id old) ∧
      (∀ c, outcome = some (.opened c) → ∃ entry, s.opens id = some entry ∧
        entry.result = some (some c)) ∧
      (outcome = some .failed → ∃ entry, s.opens id = some entry ∧ entry.result = some none))
    (hleft : ∀ host id outcome, s.calls k = .waiting host id outcome →
      (∃ outcome', phase = .waiting host id outcome') ∨
        ∃ entry, s.opens id = some entry ∧ entry.result ≠ none)
    (hcalls : s'.calls = Function.update s.calls k phase) (hopens : s'.opens = s.opens)
    (hpending : s'.pending = s.pending) (hstarts : s'.starts = s.starts) : Awaited s' where
  waiting := by
    have hwaiting := h.waiting
    simp only [hcalls, hopens, Function.update_apply]
    grind
  claimed := by
    have hclaimed := h.claimed
    simp only [hcalls, hopens, Function.update_apply]
    grind
  waiter := by
    have hwaiter := h.waiter
    simp only [hcalls, Function.update_apply]
    grind
  pending := by
    rw [hpending, hopens]
    exact h.pending
  starts := by
    rw [hstarts, hopens]
    exact h.starts

/-- A call that waits for no pending open gets to a phase in which it waits for none. -/
theorem leave (h : Awaited s) {phase : CallPhase}
    (hcalls : s'.calls = Function.update s.calls k phase) (hopens : s'.opens = s.opens)
    (hpending : s'.pending = s.pending) (hstarts : s'.starts = s.starts)
    (hwaits : ∀ host id outcome, phase ≠ .waiting host id outcome)
    (hleft : ∀ host id outcome, s.calls k = .waiting host id outcome →
      ∃ entry, s.opens id = some entry ∧ entry.result ≠ none) : Awaited s' :=
  h.setPhase (fun host id outcome heq => absurd heq (hwaits host id outcome))
    (fun host id outcome heq => .inr (hleft host id outcome heq)) hcalls hopens hpending hstarts

/-- A call waits for an open that no call waits for. -/
theorem claim (h : Awaited s) {host : String} {id : ℕ} {entry : PendingOpen}
    (hk : s.calls k = .fresh) (hid : id ∈ s.pending) (hentry : s.opens id = some entry)
    (hunclaimed : entry.claimed = false) :
    Awaited
      { s with
        opens := Function.update s.opens id (some { entry with claimed := true })
        calls := Function.update s.calls k (.waiting host id none) } where
  waiting := by
    have hwaiting := h.waiting
    simp only [Function.update_apply]
    grind
  claimed := by
    intro id' entry' hentry' hclaimed hresult
    by_cases hsame : id' = id
    · exact ⟨k, host, none, by simp [hsame]⟩
    · have hold : s.opens id' = some entry' := by simpa [hsame] using hentry'
      obtain ⟨k', host', outcome', hk'⟩ := h.claimed id' entry' hold hclaimed hresult
      have hne : k' ≠ k := fun heq => by
        rw [heq, hk] at hk'
        cases hk'
      exact ⟨k', host', outcome', (Function.update_of_ne hne _ _).trans hk'⟩
  waiter := by
    have hwaiting := h.waiting
    have hwaiter := h.waiter
    simp only [Function.update_apply]
    grind
  pending := by
    have hresult := h.result_eq_none hid hentry
    have hpending := h.pending
    simp only [Function.update_apply]
    grind
  starts := by
    have hstarts := h.starts
    simp only [Function.update_apply]
    grind

/-- A call gives up the open that it waits for. -/
theorem giveUp (h : Awaited s) {host : String} {id : ℕ} {outcome : Option Settled}
    {entry : PendingOpen} {phase : CallPhase} (hk : s.calls k = .waiting host id outcome)
    (hentry : s.opens id = some entry)
    (hwaits : ∀ host id outcome, phase ≠ .waiting host id outcome)
    (hcalls : s'.calls = Function.update s.calls k phase)
    (hopens : s'.opens = Function.update s.opens id (some { entry with claimed := false }))
    (hpending : s'.pending = s.pending) (hstarts : s'.starts = s.starts) : Awaited s' where
  waiting := by
    have hwaiting := h.waiting
    have hwaiter := h.waiter
    simp only [hcalls, hopens, Function.update_apply]
    grind
  claimed := by
    have hclaimed := h.claimed
    simp only [hcalls, hopens, Function.update_apply]
    grind
  waiter := by
    have hwaiter := h.waiter
    simp only [hcalls, Function.update_apply]
    grind
  pending := by
    have hold := h.pending
    simp only [hpending, hopens, Function.update_apply]
    grind
  starts := by
    have hold := h.starts
    simp only [hstarts, hopens, Function.update_apply]
    grind

/-- A pending open settles. -/
theorem settle (h : Awaited s) {id : ℕ} {entry : PendingOpen} (hid : id ∈ s.pending)
    (hentry : s.opens id = some entry) {result : Option ℕ} (now : ℤ) :
    Awaited (s.settleOpen id entry result now) where
  waiting := by
    have hresult := h.result_eq_none hid hentry
    have hwaiting := h.waiting
    simp only [Pool.settleOpen, Function.update_apply]
    grind
  claimed := by
    have hclaimed := h.claimed
    simp only [Pool.settleOpen, Function.update_apply]
    grind
  waiter := h.waiter
  pending := by
    have hpending := h.pending
    simp only [Pool.settleOpen, Function.update_apply]
    grind
  starts := by
    have hstarts := h.starts
    simp only [Pool.settleOpen, Function.update_apply]
    grind

end Awaited

/-! ### The invariant -/

/-- The invariant, while a step has the channel `held` in its hands. -/
structure Owned (settings : PoolSettings) (held : Option ℕ) (s : Pool) : Prop extends
    Ledger settings held s, Awaited s where
  owns : s.Owns held
  nodup : (s.spares.map Spare.channel).Nodup
  busy : ∀ entry ∈ s.sessions, entry.idle = false →
    held = some entry.channel ∨ (s.owner entry.channel).isCall
  closed : s.closed → s.spares = []
  perCall : settings.tlsSession = .perCall → s.sessions = []
  handedTorn : s.handedTorn = []

namespace Owned

theorem unborn (h : Owned settings held s) (c : ℕ) : s.owner c = .unborn ↔ s.opened ≤ c :=
  h.owns c .unborn

theorem loose (h : Owned settings held s) (c : ℕ) : s.owner c = .loose ↔ held = some c :=
  h.owns c .loose

theorem call (h : Owned settings held s) (k c : ℕ) :
    s.owner c = .call k ↔ s.calls k = .holding c :=
  h.owns c (.call k)

theorem spare (h : Owned settings held s) (c : ℕ) :
    s.owner c = .spare ↔ c ∈ s.spares.map Spare.channel :=
  h.owns c .spare

theorem idle (h : Owned settings held s) (c : ℕ) :
    s.owner c = .idle ↔ ∃ entry ∈ s.sessions, entry.channel = c ∧ entry.idle :=
  h.owns c .idle

theorem opening (h : Owned settings held s) (c id : ℕ) : s.owner c = .opening id ↔
    ∃ k host outcome entry, s.calls k = .waiting host id outcome ∧ s.opens id = some entry ∧
      entry.result = some (some c) :=
  h.owns c (.opening id)

/-- The fields that the invariant does not look at. -/
theorem frame (h : Owned settings held s) (opening : String → ℕ) (lastCallAt : List (String × ℤ))
    (deferredHosts spareHosts : List String) (background : Bool) (timers : List PoolTimer)
    (htimers : ∀ c, s.owner c = .idle → .retire c ∈ s.timers → .retire c ∈ timers) :
    Owned settings held
      { s with opening, lastCallAt, deferredHosts, spareHosts, background, timers } :=
  { h with armed := fun c hidle => htimers c hidle (h.armed c hidle) }

theorem startOpen (h : Owned settings held s) (host : String) (now : ℤ) :
    Owned settings held (s.startOpen host now) :=
  { h with
    toAwaited := h.toAwaited.startOpen host now
    owns := by
      have hstarts := h.starts s.starts (le_refl _)
      have hwaiting := h.waiting
      refine h.owns.congr rfl fun c o _ => ?_
      cases o with
      | opening id =>
        simp only [Pool.Claims, Pool.startOpen, Function.update_apply]
        grind
      | _ => exact Iff.rfl }

theorem openSpare (h : Owned settings held s) (host : String) (delayMs now : ℤ) :
    Owned settings held (s.openSpare host delayMs now) := by
  rw [Pool.openSpare]
  split_ifs
  · exact (h.frame _ s.lastCallAt s.deferredHosts s.spareHosts s.background _
      fun _ _ hmem => hmem).startOpen host now
  · exact h.frame _ s.lastCallAt s.deferredHosts s.spareHosts s.background _
      fun _ _ hmem => List.mem_append_left _ hmem

theorem replenish (h : Owned settings held s) (host : String) (delayMs now : ℤ) :
    Owned settings held (s.replenish settings host delayMs now) := by
  rw [Pool.replenish]
  split_ifs
  · exact h
  · exact h.frame s.opening s.lastCallAt _ s.spareHosts s.background _ fun _ _ hmem => hmem
  · exact h
  · exact h
  · exact h.openSpare host delayMs now

/-! ### Channels that change hands -/

/-- A shared session that is not idle stays with its call, while another channel changes hands or
this one does for a call or a step. -/
theorem busy_move (h : Owned settings held s) {new : Owner}
    (howner : s'.owner = Function.update s.owner c new) (hheld : ∀ c', held = some c' → c' = c)
    (hto : held' = some c ∨ new.isCall ∨ ∀ entry ∈ s'.sessions, entry.channel = c → entry.idle)
    (hsessions : ∀ entry ∈ s'.sessions, entry.channel ≠ c → entry ∈ s.sessions) :
    ∀ entry ∈ s'.sessions, entry.idle = false →
      held' = some entry.channel ∨ (s'.owner entry.channel).isCall := by
  intro entry hentry hidle
  have hbusy := h.busy entry
  rw [howner, Function.update_apply]
  grind

/-- A shared session that is not idle stays with its call, also when it is torn down. -/
theorem busy_teardownAll (h : Owned settings held s) {channels : List ℕ}
    (howner : s'.owner = (s.teardownAll channels).owner)
    (hkept : ∀ entry ∈ s'.sessions, entry ∈ s.sessions ∧
      (held = some entry.channel → held' = some entry.channel)) :
    ∀ entry ∈ s'.sessions, entry.idle = false →
      held' = some entry.channel ∨ (s'.owner entry.channel).isCall := by
  intro entry hentry hidle
  refine (h.busy entry (hkept entry hentry).1 hidle).imp (hkept entry hentry).2 fun hcall => ?_
  rw [howner]
  simp only [Pool.teardownAll]
  grind [Owner.isCall]

/-- A new channel is loose. -/
theorem newChannel (h : Owned settings none s) (host : String) (now : ℤ) :
    Owned settings (some s.opened) (s.newChannel host now) := by
  have hunborn : s.owner s.opened = .unborn := (h.unborn _).mpr (le_refl _)
  exact
    { h with
      toLedger := h.toLedger.loosen rfl rfl rfl fun _ hmem => hmem
      owns := by
        refine h.owns.move hunborn rfl nofun (fun c o hold hnew hgone => ?_) (fun c => ?_)
          fun c => ?_
        · cases o <;> first | contradiction | exact Iff.rfl
        · change s.opened + 1 ≤ c ↔ c ≠ s.opened ∧ s.opened ≤ c
          omega
        · change some s.opened = some c ↔ c = s.opened ∨ none = some c
          grind
      busy := h.busy_move rfl nofun (.inl rfl) fun _ hmem _ => hmem }

/-- A loose channel is handed to a call. -/
theorem hand (h : Owned settings (some c) s)
    (hk : s.calls k = .fresh ∨ (∃ host, s.calls k = .opening host) ∨ s.calls k = .done)
    (htorn : s.torn c = 0)
    (hserved : settings.tlsSession = .perCall → s.served c = 0) :
    Owned settings none (s.hand k c) :=
  { h with
    toLedger := h.toLedger.move rfl rfl (fun _ hmem => hmem)
      (fun _ heq => (Option.some.inj heq).symm) nofun nofun (fun _ => .inr rfl)
      (fun _ hne => Function.update_of_ne hne _ _) fun hperCall _ =>
        ⟨by simp [Pool.hand, hserved hperCall], .inr rfl⟩
    toAwaited := h.toAwaited.leave rfl rfl rfl rfl nofun fun _ _ _ hwaiting => by grind
    owns := by
      refine h.owns.move ((h.loose c).mpr rfl) rfl nofun (fun c' o hold hnew hgone => ?_)
        (fun c' => ?_) fun c' => ?_
      · cases o with
        | call k' => exact iff_of_eq (congrArg (· = _) (Function.update_of_ne (by grind) _ _))
        | opening id =>
          simp only [Pool.Claims, Pool.hand, Function.update_apply]
          grind
        | _ => first | contradiction | exact Iff.rfl
      · simp only [Pool.Claims]
        grind
      · simp only [Pool.Claims, Pool.hand, Function.update_self]
        grind
    busy := h.busy_move rfl (fun _ heq => (Option.some.inj heq).symm) (.inr (.inl rfl))
      fun _ hmem _ => hmem
    handedTorn := (if_pos htorn).trans h.handedTorn }

/-- A channel that its owner let go of is torn down. -/
theorem teardown (h : Owned settings (some c) s) (hidle : ∀ entry ∈ s.sessions, entry.channel ≠ c) :
    Owned settings none (s.teardown c) :=
  { h with
    toLedger := h.toLedger.teardownAll rfl rfl rfl (fun _ _ hmem => hmem)
      fun c' heq => .inr (List.mem_singleton.mpr (Option.some.inj heq).symm)
    owns := by
      refine h.owns.teardownAll rfl fun c' o hgone => ?_
      have hloose := (h.loose c).mpr rfl
      have howns := h.owns c' o
      simp only [List.mem_singleton]
      cases o with
      | gone => exact absurd rfl hgone
      | _ =>
        simp only [Pool.Claims, Pool.teardown, Pool.teardownAll] at howns ⊢
        grind [Owner.isCall]
    busy := h.busy_teardownAll rfl fun entry hmem =>
      ⟨hmem, fun heq => absurd (Option.some.inj heq).symm (hidle entry hmem)⟩ }

/-- The channels of the spares that are dropped are those of spares. -/
theorem owner_of_dropped (h : Owned settings held s) {dropped : Spare → Bool}
    (hc : c ∈ (s.spares.filter dropped).map Spare.channel) : s.owner c = .spare := by
  obtain ⟨spare, hspare, rfl⟩ := List.mem_map.mp hc
  exact (h.spare _).mpr (List.mem_map_of_mem (List.mem_filter.mp hspare).1)

/-- The channels of the spares that are kept are the others, as no two spares share a channel. -/
theorem mem_kept_iff (h : Owned settings held s) (dropped : Spare → Bool) :
    c ∈ (s.spares.filter fun spare => !dropped spare).map Spare.channel ↔
      c ∈ s.spares.map Spare.channel ∧ c ∉ (s.spares.filter dropped).map Spare.channel := by
  constructor
  · intro hc
    obtain ⟨spare, hspare, rfl⟩ := List.mem_map.mp hc
    obtain ⟨hmem, hkeep⟩ := List.mem_filter.mp hspare
    refine ⟨List.mem_map.mpr ⟨spare, hmem, rfl⟩, fun hdrop => ?_⟩
    obtain ⟨other, hother, hsame⟩ := List.mem_map.mp hdrop
    obtain ⟨hmem', hdrop⟩ := List.mem_filter.mp hother
    rw [List.inj_on_of_nodup_map h.nodup hmem' hmem hsame] at hdrop
    simp [hdrop] at hkeep
  · rintro ⟨hc, hkeep⟩
    obtain ⟨spare, hspare, rfl⟩ := List.mem_map.mp hc
    refine List.mem_map.mpr ⟨spare, List.mem_filter.mpr ⟨hspare, ?_⟩, rfl⟩
    by_contra hdrop
    refine hkeep (List.mem_map.mpr ⟨spare, List.mem_filter.mpr ⟨hspare, ?_⟩, rfl⟩)
    simpa using hdrop

/-- Spares are dropped. -/
theorem dropSpares (h : Owned settings held s) (dropped : Spare → Bool) :
    Owned settings held (s.dropSpares dropped) :=
  { h with
    toLedger := h.toLedger.teardownAll rfl rfl rfl
      (fun c _ hmem => List.mem_filter.mpr ⟨hmem, rfl⟩) fun _ heq => .inl heq
    owns := by
      refine h.owns.teardownAll rfl fun c o hgone => ?_
      -- a channel that is dropped was a spare's, so it is nobody else's
      have hdropped : c ∈ (s.spares.filter dropped).map Spare.channel → s.Claims held c o →
          o = .spare := fun hc hclaims => by
        rw [← (h.owns c o).mpr hclaims]
        exact h.owner_of_dropped hc
      cases o with
      | spare =>
        refine (h.mem_kept_iff dropped).trans (and_congr_right fun _ => ?_)
        simp [Owner.isCall]
      | gone => exact absurd rfl hgone
      | _ => exact ⟨fun hclaims => ⟨hclaims, fun hc => nomatch hdropped hc hclaims⟩, And.left⟩
    nodup := h.nodup.sublist (List.filter_sublist.map _)
    busy := h.busy_teardownAll rfl fun _ hmem => ⟨hmem, id⟩
    closed := fun hclosed => by
      simp only [Pool.dropSpares, Pool.teardownAll, h.closed hclosed, List.filter_nil] }

/-! ### Calls that get on without a channel -/

/-- A call gets from one phase without a channel to another. It goes on waiting for the same open,
or it waited for none but a failed one. -/
theorem movePhase (h : Owned settings held s) {phase : CallPhase}
    (hholding : ∀ c, phase ≠ .holding c ∧ s.calls k ≠ .holding c)
    (hwaits : ∀ host id outcome, phase = .waiting host id outcome →
      (∃ old, s.calls k = .waiting host id old) ∧
      (∀ c, outcome = some (.opened c) → ∃ entry, s.opens id = some entry ∧
        entry.result = some (some c)) ∧
      (outcome = some .failed → ∃ entry, s.opens id = some entry ∧ entry.result = some none))
    (hleft : ∀ host id outcome, s.calls k = .waiting host id outcome →
      (∃ outcome', phase = .waiting host id outcome') ∨
        ∃ entry, s.opens id = some entry ∧ entry.result = some none) :
    Owned settings held { s with calls := Function.update s.calls k phase } :=
  { h with
    toAwaited := h.toAwaited.setPhase hwaits
      (fun host id outcome hk => (hleft host id outcome hk).imp_right
        fun ⟨entry, hentry, hresult⟩ => ⟨entry, hentry, hresult ▸ nofun⟩) rfl rfl rfl rfl
    owns := by
      refine h.owns.congr rfl fun c o _ => ?_
      cases o with
      | call k' | opening id =>
        simp only [Pool.Claims, Function.update_apply]
        grind
      | _ => exact Iff.rfl }

/-- A call goes on, without a channel. -/
theorem setPhase (h : Owned settings held s) {phase : CallPhase}
    (hholding : ∀ c, phase ≠ .holding c ∧ s.calls k ≠ .holding c)
    (hwaiting : ∀ host id outcome, phase ≠ .waiting host id outcome)
    (hk : ∀ host id outcome, s.calls k = .waiting host id outcome →
      ∃ entry, s.opens id = some entry ∧ entry.result = some none) :
    Owned settings held { s with calls := Function.update s.calls k phase } :=
  h.movePhase hholding (fun host id outcome hphase => absurd hphase (hwaiting host id outcome))
    fun host id outcome hcall => .inr (hk host id outcome hcall)

/-- `settleFirst` resolves to what happened. -/
theorem settleFirst (h : Owned settings held s) {host : String} {id : ℕ} {outcome : Settled}
    (hk : s.calls k = .waiting host id none)
    (hopened : ∀ c, outcome = .opened c → ∃ entry, s.opens id = some entry ∧
      entry.result = some (some c))
    (hfailed : outcome = .failed → ∃ entry, s.opens id = some entry ∧ entry.result = some none) :
    Owned settings held
      { s with calls := Function.update s.calls k (.waiting host id (some outcome)) } := by
  refine h.movePhase (fun c => ⟨by simp, by simp [hk]⟩) ?_ ?_
  · rintro _ _ _ ⟨⟩
    refine ⟨⟨none, hk⟩, fun c hsome => hopened c (Option.some.inj hsome), fun hsome => ?_⟩
    exact hfailed (Option.some.inj hsome)
  · intro host' id' outcome' hcall
    obtain ⟨rfl, rfl, -⟩ := CallPhase.waiting.inj (hk.symm.trans hcall)
    exact .inl ⟨some outcome, rfl⟩

/-- A call waits for an open that no call waits for. -/
theorem claim (h : Owned settings held s) {host : String} {id : ℕ} {entry : PendingOpen}
    (hk : s.calls k = .fresh) (hid : id ∈ s.pending) (hentry : s.opens id = some entry)
    (hunclaimed : entry.claimed = false) :
    Owned settings held
      { s with
        opens := Function.update s.opens id (some { entry with claimed := true })
        calls := Function.update s.calls k (.waiting host id none) } :=
  { h with
    toAwaited := h.toAwaited.claim hk hid hentry hunclaimed
    owns := by
      have hresult := h.result_eq_none hid hentry
      have hwaiting := h.waiting
      refine h.owns.congr rfl fun c o _ => ?_
      cases o with
      | call k' | opening id' =>
        simp only [Pool.Claims, Function.update_apply]
        grind
      | _ => exact Iff.rfl }

/-- A call gives up an open that has no channel for it. -/
theorem abandon (h : Owned settings held s) {host : String} {id : ℕ} {outcome : Option Settled}
    {entry : PendingOpen} {phase : CallPhase} (hk : s.calls k = .waiting host id outcome)
    (hentry : s.opens id = some entry) (hresult : ∀ c, entry.result ≠ some (some c))
    (hholding : ∀ c, phase ≠ .holding c)
    (hwaiting : ∀ host id outcome, phase ≠ .waiting host id outcome) :
    Owned settings held
      { s with
        opens := Function.update s.opens id (some { entry with claimed := false })
        calls := Function.update s.calls k phase } :=
  { h with
    toAwaited := h.toAwaited.giveUp hk hentry hwaiting rfl rfl rfl rfl
    owns := by
      refine h.owns.congr rfl fun c o _ => ?_
      cases o with
      | call k' | opening id' =>
        simp only [Pool.Claims, Function.update_apply]
        grind
      | _ => exact Iff.rfl }

/-- An open that no call waits for has settled, or one that failed. -/
theorem settleOpen (h : Owned settings held s) {id : ℕ} {entry : PendingOpen} (hid : id ∈ s.pending)
    (hentry : s.opens id = some entry) {result : Option ℕ}
    (hresult : entry.claimed = false ∨ result = none) (now : ℤ) :
    Owned settings held (s.settleOpen id entry result now) :=
  { h with
    toAwaited := h.toAwaited.settle hid hentry now
    owns := by
      have hpending := h.result_eq_none hid hentry
      have hwaiting := h.waiting
      refine h.owns.congr rfl fun c o _ => ?_
      cases o with
      | opening id' =>
        simp only [Pool.Claims, Pool.settleOpen, Function.update_apply]
        grind
      | _ => exact Iff.rfl }

/-! ### Calls that get a channel, and let go of it -/

/-- A call ends with the channel that it holds or that its open has for it. -/
theorem endCall (h : Owned settings none s)
    (hk : s.calls k = .holding c ∨ ∃ host id, s.calls k = .waiting host id (some (.opened c))) :
    Owned settings (some c) { s.loosen c with calls := Function.update s.calls k .done } := by
  have hwaiter := h.waiter
  have hwaiting := h.waiting
  have hleft : ∀ host id outcome, s.calls k = .waiting host id outcome →
      ∃ entry, s.opens id = some entry ∧ entry.result = some (some c) := by
    grind
  exact
    { h with
      toLedger := h.toLedger.loosen rfl rfl rfl fun _ hmem => hmem
      toAwaited := h.toAwaited.leave rfl rfl rfl rfl nofun fun host id outcome hcall => by
        obtain ⟨entry, hentry, hresult⟩ := hleft host id outcome hcall
        exact ⟨entry, hentry, by simp [hresult]⟩
      owns := by
        obtain hholding | ⟨host, id, hwaits⟩ := hk
        -- the call holds the channel
        · refine h.owns.move ((h.call k c).mpr hholding) rfl nofun
            (fun c' o hold hnew hgone => ?_) (fun c' => ?_) fun c' => ?_
          · cases o with
            | call k' => exact iff_of_eq (congrArg (· = _) (Function.update_of_ne (by grind) _ _))
            | opening id =>
              simp only [Pool.Claims, Pool.loosen, Function.update_apply]
              grind
            | _ => first | contradiction | exact Iff.rfl
          · simp only [Pool.Claims, Function.update_self]
            grind
          · simp only [Pool.Claims]
            grind
        -- the channel is the result of the open that the call waits for
        · obtain ⟨entry, hentry, hresult⟩ := hleft host id _ hwaits
          refine h.owns.move ((h.opening c id).mpr ⟨k, host, _, entry, hwaits, hentry, hresult⟩)
            rfl nofun (fun c' o hold hnew hgone => ?_) (fun c' => ?_) fun c' => ?_
          · cases o with
            | call k' =>
              simp only [Pool.Claims, Function.update_apply]
              grind
            | opening id' =>
              simp only [Pool.Claims, Pool.loosen, Function.update_apply]
              grind
            | _ => first | contradiction | exact Iff.rfl
          · simp only [Pool.Claims, Pool.loosen, Function.update_apply]
            grind
          · simp only [Pool.Claims]
            grind
      busy := h.busy_move rfl nofun (.inl rfl) fun _ hmem _ => hmem }

/-- The call takes the channel that it waited for. -/
theorem takeOpened (h : Owned settings none s) {host : String} {id : ℕ}
    (hk : s.calls k = .waiting host id (some (.opened c))) :
    Owned settings (some c)
      { s.loosen c with calls := Function.update s.calls k .done } :=
  h.endCall (.inr ⟨host, id, hk⟩)

/-- A call lets go of its channel. -/
theorem letGo (h : Owned settings none s) (hk : s.calls k = .holding c) :
    Owned settings (some c) { s.loosen c with calls := Function.update s.calls k .done } :=
  h.endCall (.inl hk)

/-- A call gives up an open whose channel nobody took. -/
theorem abandonOpened (h : Owned settings none s) {host : String} {id : ℕ}
    {outcome : Option Settled} {entry : PendingOpen} {phase : CallPhase}
    (hk : s.calls k = .waiting host id outcome)
    (hentry : s.opens id = some entry) (hresult : entry.result = some (some c))
    (hholding : ∀ c, phase ≠ .holding c)
    (hwaiting : ∀ host id outcome, phase ≠ .waiting host id outcome) :
    Owned settings (some c)
      (Pool.loosen
        { s with
          opens := Function.update s.opens id (some { entry with claimed := false })
          calls := Function.update s.calls k phase } c) := by
  have hwaiter := h.waiter
  have hopening : s.owner c = .opening id :=
    (h.opening c id).mpr ⟨k, host, outcome, entry, hk, hentry, hresult⟩
  exact
    { h with
      toLedger := h.toLedger.loosen rfl rfl rfl fun _ hmem => hmem
      toAwaited := h.toAwaited.giveUp hk hentry hwaiting rfl rfl rfl rfl
      owns := by
        refine h.owns.move hopening rfl nofun (fun c' o hold hnew hgone => ?_) (fun c' => ?_)
          fun c' => ?_
        · cases o with
          | call k' | opening id' =>
            simp only [Pool.Claims, Pool.loosen, Function.update_apply]
            grind
          | _ => first | contradiction | exact Iff.rfl
        · simp only [Pool.Claims, Pool.loosen, Function.update_apply]
          grind
        · simp only [Pool.Claims]
          grind
      busy := h.busy_move rfl nofun (.inl rfl) fun _ hmem _ => hmem }

/-! ### Shared sessions and spares -/

/-- A call takes an idle session. -/
theorem takeIdle (h : Owned settings none s) {entry : Pooled} (hentry : entry ∈ s.sessions)
    (hidle : entry.idle) :
    Owned settings (some entry.channel) ((s.setIdle entry.channel false).loosen entry.channel) :=
  { h with
    toLedger := h.toLedger.loosen rfl rfl rfl fun _ hmem => hmem
    owns := by
      refine h.owns.move ((h.idle _).mpr ⟨entry, hentry, rfl, hidle⟩) rfl nofun
        (fun c o hold hnew hgone => ?_) (fun c => ?_) fun c => ?_
      · cases o <;> first | contradiction | exact Iff.rfl
      · simp only [Pool.Claims, Pool.setIdle, Pool.loosen, List.mem_map]
        grind
      · simp only [Pool.Claims]
        grind
    busy := by
      refine h.busy_move rfl nofun (.inl rfl) fun other hmem hne => ?_
      simp only [Pool.setIdle, Pool.loosen, List.mem_map] at hmem
      grind
    perCall := fun hperCall => by
      rw [h.perCall hperCall] at hentry
      cases hentry }

/-- A session rests among the shared ones. -/
theorem rest (h : Owned settings (some c) s) (hkeepAlive : settings.tlsSession ≠ .perCall)
    (htorn : s.torn c = 0) (hentry : s.sessions.any (·.channel == c)) :
    Owned settings none
      { s.setIdle c true with
        timers := s.timers ++ [.retire c]
        owner := Function.update s.owner c .idle } := by
  have hloose : s.owner c = .loose := (h.loose c).mpr rfl
  exact
    { h with
      toLedger := h.toLedger.place rfl rfl rfl (fun _ hmem => List.mem_append_left _ hmem) nofun
        (fun _ => List.mem_append_right _ (List.mem_singleton_self _)) htorn
        fun hperCall => absurd hperCall hkeepAlive
      owns := by
        refine h.owns.move hloose rfl nofun (fun c' o hold hnew hgone => ?_) (fun c' => ?_)
          fun c' => ?_
        · cases o <;> first | contradiction | exact Iff.rfl
        · simp only [Pool.Claims]
          grind
        -- its entry turns idle, every other one is as before
        · obtain ⟨entry, hmem, hchannel⟩ := List.any_eq_true.mp hentry
          have hchannel : entry.channel = c := by simpa using hchannel
          simp only [Pool.Claims, Pool.setIdle, List.mem_map]
          constructor
          · rintro ⟨_, ⟨entry, hmem, rfl⟩, hchannel, hidle⟩
            split_ifs at hchannel hidle with hsame
            · exact .inl (hchannel.symm.trans hsame)
            · exact .inr ⟨entry, hmem, hchannel, hidle⟩
          · rintro (rfl | ⟨other, hmem, rfl, hidle⟩)
            · exact ⟨_, ⟨entry, hmem, if_pos hchannel⟩, hchannel, rfl⟩
            · by_cases hsame : other.channel = c
              · exact ⟨_, ⟨other, hmem, if_pos hsame⟩, rfl, rfl⟩
              · exact ⟨other, ⟨other, hmem, if_neg hsame⟩, rfl, hidle⟩
      busy := by
        refine h.busy_move rfl (fun _ heq => (Option.some.inj heq).symm)
          (.inr (.inr fun other hmem heq => ?_)) fun other hmem hne => ?_
        · simp only [Pool.setIdle, List.mem_map] at hmem
          grind
        · simp only [Pool.setIdle, List.mem_map] at hmem
          grind
      perCall := fun hperCall => absurd hperCall hkeepAlive }

/-- A session that a call has is shared. -/
theorem push (h : Owned settings none s) (hkeepAlive : settings.tlsSession ≠ .perCall)
    (hcall : (s.owner c).isCall) :
    Owned settings none { s with sessions := s.sessions ++ [⟨c, false⟩] } :=
  { h with
    owns := by
      refine h.owns.congr rfl fun c' o _ => ?_
      cases o with
      | idle =>
        simp only [Pool.Claims, List.mem_append, List.mem_singleton]
        grind
      | _ => exact Iff.rfl
    busy := by
      have hbusy := h.busy
      simp only [List.mem_append, List.mem_singleton]
      grind
    perCall := fun hperCall => absurd hperCall hkeepAlive }

/-- A shared session that no call has is retired, and its timer may be gone. -/
theorem retire (h : Owned settings held s) (howner : s.owner c = .loose ∨ s.owner c = .idle)
    {timers : List PoolTimer}
    (htimers : ∀ c', c' ≠ c → .retire c' ∈ s.timers → .retire c' ∈ timers)
    (hheld : ∀ c', held = some c' → c' = c) :
    Owned settings none (Pool.retire { s with timers } c) :=
  { h with
    toLedger := h.toLedger.teardownAll rfl rfl rfl
      (fun c' hc' hmem => htimers c' (fun heq => hc' (List.mem_singleton.mpr heq)) hmem)
      fun c' heq => .inr (List.mem_singleton.mpr (hheld c' heq))
    owns := by
      refine h.owns.teardownAll rfl fun c' o hgone => ?_
      have howns := h.owns c' o
      have hloose := h.loose c'
      simp only [List.mem_singleton]
      cases o with
      | gone => exact absurd rfl hgone
      | _ =>
        simp only [Pool.Claims, Pool.retire, Pool.teardown, Pool.teardownAll,
          List.mem_filter] at howns ⊢
        grind [Owner.isCall]
    busy := h.busy_teardownAll rfl fun entry hmem => by
      simp only [Pool.retire, Pool.teardown, Pool.teardownAll, List.mem_filter, bne_iff_ne] at hmem
      exact ⟨hmem.1, fun heq => absurd (hheld _ heq) hmem.2⟩
    perCall := fun hperCall => by
      simp only [Pool.retire, Pool.teardown, Pool.teardownAll, h.perCall hperCall,
        List.filter_nil] }

/-- All shared sessions are torn down; a call keeps its own. -/
theorem dropSessions (h : Owned settings none s) :
    Owned settings none { s.teardownAll (s.sessions.map Pooled.channel) with sessions := [] } :=
  { h with
    toLedger := h.toLedger.teardownAll rfl rfl rfl (fun _ _ hmem => hmem) nofun
    owns := by
      refine h.owns.teardownAll rfl fun c o hgone => ?_
      -- a shared session is idle, or a call has it
      have hshared : c ∈ s.sessions.map Pooled.channel → s.Claims none c o →
          o = .idle ∨ o.isCall := by
        intro hc hclaims
        obtain ⟨entry, hentry, rfl⟩ := List.mem_map.mp hc
        rw [← (h.owns _ o).mpr hclaims]
        cases hidle : entry.idle with
        | true => exact .inl ((h.idle _).mpr ⟨entry, hentry, rfl, hidle⟩)
        | false => exact .inr ((h.busy entry hentry hidle).resolve_left nofun)
      cases o with
      | idle =>
        refine iff_of_false (fun ⟨_, hmem, _⟩ => nomatch hmem)
          fun ⟨⟨entry, hmem, hc, _⟩, hcall⟩ => ?_
        exact nomatch hcall (hc ▸ List.mem_map_of_mem hmem)
      | gone => exact absurd rfl hgone
      | _ =>
        exact ⟨fun hclaims => ⟨hclaims, fun hc => (hshared hc hclaims).resolve_left nofun⟩,
          And.left⟩
    busy := nofun
    perCall := fun _ => rfl }

/-- A spare is taken. -/
theorem takeSpare {host : String} {spare : Spare} (h : Owned settings none s)
    (htake : s.takeSpare host = some (spare, s')) :
    Owned settings (some spare.channel) s' := by
  obtain ⟨found, hfound, heq⟩ := Option.map_eq_some_iff.mp htake
  obtain ⟨rfl, rfl⟩ := Prod.mk.inj heq
  have hmem : found.channel ∈ s.spares.map Spare.channel :=
    List.mem_map_of_mem (List.mem_of_find?_eq_some hfound)
  exact
    { h with
      toLedger := h.toLedger.loosen rfl rfl rfl fun _ hmem => List.mem_filter.mpr ⟨hmem, rfl⟩
      owns := by
        refine h.owns.move ((h.spare _).mpr hmem) rfl nofun (fun c o hold hnew hgone => ?_)
          (fun c => ?_) fun c => ?_
        · cases o <;> first | contradiction | exact Iff.rfl
        · simp only [Pool.Claims, Pool.loosen, Pool.clearSpareTimers, List.mem_map, List.mem_filter,
            bne_iff_ne]
          grind
        · simp only [Pool.Claims]
          grind
      nodup := h.nodup.sublist (List.filter_sublist.map _)
      busy := h.busy_move rfl nofun (.inl rfl) fun _ hmem _ => hmem
      closed := fun hclosed => by
        simp only [Pool.loosen, Pool.clearSpareTimers] at hclosed ⊢
        rw [h.closed hclosed]
        rfl }

/-- A loose channel becomes a spare. -/
theorem storeSpare (h : Owned settings (some c) s) (spare : Spare) (hspare : spare.channel = c)
    (hopen : s.closed = false) (hentry : ∀ entry ∈ s.sessions, entry.channel ≠ c)
    (htorn : s.torn c = 0) (hserved : settings.tlsSession = .perCall → s.served c = 0)
    (spareHosts : List String) (timers : List PoolTimer) :
    Owned settings none
      { s with
        spares := s.spares ++ [spare]
        spareHosts
        timers := s.timers ++ timers
        owner := Function.update s.owner c .spare } := by
  have hloose : s.owner c = .loose := (h.loose c).mpr rfl
  have hnew : c ∉ s.spares.map Spare.channel := fun hmem => by
    cases hloose.symm.trans ((h.spare c).mpr hmem)
  exact
    { h with
      toLedger := h.toLedger.place rfl rfl rfl (fun _ hmem => List.mem_append_left _ hmem) nofun
        nofun htorn hserved
      owns := by
        refine h.owns.move hloose rfl nofun (fun c' o hold hnew hgone => ?_) (fun c' => ?_)
          fun c' => ?_
        · cases o <;> first | contradiction | exact Iff.rfl
        · simp only [Pool.Claims]
          grind
        · simp only [Pool.Claims, List.map_append, List.map_singleton, List.mem_append,
            List.mem_singleton, hspare]
          exact Or.comm
      nodup := by
        rw [List.map_append, List.nodup_append]
        refine ⟨h.nodup, List.nodup_singleton _, ?_⟩
        simp only [List.map_singleton, List.mem_singleton, hspare]
        rintro c' hc' _ rfl rfl
        exact hnew hc'
      busy := h.busy_move rfl (fun _ heq => (Option.some.inj heq).symm)
        (.inr (.inr fun entry hmem heq => absurd heq (hentry entry hmem))) fun _ hmem _ => hmem
      closed := fun hclosed => absurd hclosed (by simp [hopen]) }

/-- An open that a call waits for has a channel, which nobody else has. -/
theorem settleClaimed (h : Owned settings (some c) s) {id : ℕ} {entry : PendingOpen}
    (hid : id ∈ s.pending) (hentry : s.opens id = some entry) (hclaimed : entry.claimed)
    (hbusy : ∀ entry ∈ s.sessions, entry.channel ≠ c) (htorn : s.torn c = 0)
    (hserved : settings.tlsSession = .perCall → s.served c = 0) (now : ℤ) :
    Owned settings none
      { s.settleOpen id entry (some c) now with
        owner := Function.update s.owner c (.opening id) } := by
  have hresult := h.result_eq_none hid hentry
  obtain ⟨k, host, outcome, hk⟩ := h.claimed id entry hentry hclaimed hresult
  exact
    { h with
      toLedger := h.toLedger.place rfl rfl rfl (fun _ hmem => hmem) nofun nofun htorn hserved
      toAwaited := { h.toAwaited.settle hid hentry now with }
      owns := by
        refine h.owns.move ((h.loose c).mpr rfl) rfl nofun (fun c' o hold hnew hgone => ?_)
          (fun c' => ?_) fun c' => ?_
        · cases o with
          | opening id' =>
            simp only [Pool.Claims, Pool.settleOpen, Function.update_apply]
            grind
          | _ => first | contradiction | exact Iff.rfl
        · simp only [Pool.Claims]
          grind
        · simp only [Pool.Claims, Pool.settleOpen, Function.update_self]
          grind
      busy := h.busy_move rfl (fun _ heq => (Option.some.inj heq).symm)
        (.inr (.inr fun entry hmem heq => absurd heq (hbusy entry hmem))) fun _ hmem _ => hmem }

theorem evict (h : Owned settings held s) : Owned settings held s.evict :=
  (h.dropSpares _).frame _ _ _ _ _ _ fun _ _ hmem => hmem

/-- A loose channel is kept as a spare, or torn down. -/
theorem keepSpare (h : Owned settings (some c) s) (hentry : ∀ entry ∈ s.sessions, entry.channel ≠ c)
    (htorn : s.torn c = 0) (hserved : settings.tlsSession = .perCall → s.served c = 0)
    (host : String) (readyAt now : ℤ) (jitterMs : ℚ) :
    Owned settings none (s.keepSpare settings host c readyAt now jitterMs) := by
  rw [Pool.keepSpare]
  split_ifs with hclosed
  · exact h.teardown hentry
  · exact (h.storeSpare ⟨c, host, readyAt, false, _⟩ rfl (by simpa using hclosed) hentry
      htorn hserved _ _).evict

theorem refresh (h : Owned settings held s) (channel : ℕ) (now : ℤ) :
    Owned settings held (s.refresh channel now) := by
  rw [Pool.refresh]
  split
  · exact h
  split_ifs
  · exact h
  refine Owned.openSpare ?_ _ _ _
  have hchannels : (s.spares.map fun other =>
      if other.channel = channel then { other with superseded := true } else other).map
        Spare.channel = s.spares.map Spare.channel := by
    rw [List.map_map]
    refine List.map_congr_left fun other _ => ?_
    rw [Function.comp_apply]
    split_ifs
    · rfl
    · rfl
  exact
    { h with
      owns := by
        refine h.owns.congr rfl fun c o _ => ?_
        cases o with
        | spare => exact iff_of_eq (congrArg (c ∈ ·) hchannels)
        | _ => exact Iff.rfl
      nodup := hchannels.symm ▸ h.nodup
      closed := fun hclosed => by
        rw [h.closed hclosed]
        rfl }

theorem expire (h : Owned settings held s) (channel : ℕ) (now : ℤ) :
    Owned settings held (s.expire settings channel now) := by
  rw [Pool.expire]
  split
  · exact h
  next spare hfound =>
    have hdropped := h.dropSpares (·.channel == channel)
    generalize s.dropSpares (·.channel == channel) = s at hdropped
    have hhosts : Owned settings held (if s.spares.any (·.host == spare.host) then s
        else { s with spareHosts := s.spareHosts.filter (· != spare.host) }) := by
      split_ifs
      · exact hdropped
      · exact hdropped.frame _ _ _ _ _ _ fun _ _ hmem => hmem
    dsimp only
    generalize (if s.spares.any (·.host == spare.host) then s
        else { s with spareHosts := s.spareHosts.filter (· != spare.host) }) = s at hhosts ⊢
    split_ifs
    · exact hhosts
    · exact hhosts.openSpare _ _ _
    · exact hhosts

/-! ### Steps -/

/-- A channel that no call has and that is not gone is whole, and not yet served in per-call
mode. -/
theorem untouched (h : Owned settings none s) (hgone : s.owner c ≠ .gone)
    (hcall : (s.owner c).isCall = false) :
    s.torn c = 0 ∧ (settings.tlsSession = .perCall → s.served c = 0) := by
  have hwhole := h.whole c
  have hunserved := h.unserved
  grind

/-- A channel that no call has had is not among the shared sessions, unless it is idle. -/
theorem not_shared (h : Owned settings none s) (hidle : s.owner c ≠ .idle)
    (hcall : (s.owner c).isCall = false) : ∀ entry ∈ s.sessions, entry.channel ≠ c := by
  rintro entry hentry rfl
  cases hentryIdle : entry.idle with
  | true => exact hidle ((h.idle _).mpr ⟨entry, hentry, rfl, hentryIdle⟩)
  | false =>
    rcases h.busy entry hentry hentryIdle with hheld | hcalled
    · cases hheld
    · rw [hcall] at hcalled
      cases hcalled

/-- A call that has not asked for a session waits for its own open. -/
theorem openOwn (h : Owned settings none s) (hk : s.calls k = .fresh) (host : String) :
    Owned settings none { s with calls := Function.update s.calls k (.opening host) } :=
  h.setPhase (by simp [hk]) (by simp) (by simp [hk])

theorem acquire (h : Owned settings none s) (hk : s.calls k = .fresh) (host : String)
    (ages : ℚ × Option ℚ) (view : ℕ → ChannelView) (delayMs now : ℤ) :
    Owned settings none (s.acquire settings k host ages view delayMs now) := by
  rw [Pool.acquire]
  split
  next =>
    -- one session per call: a spare, else an open that may be waited for, else an own open
    have hnoted : Owned settings none (s.noteCall host now) :=
      h.frame _ _ _ _ _ _ fun _ _ hmem => hmem
    have hfresh : (s.noteCall host now).calls k = .fresh := hk
    generalize s.noteCall host now = s at hnoted hfresh ⊢
    dsimp only
    split
    next spare s' htake =>
      obtain ⟨found, hfound, heq⟩ := Option.map_eq_some_iff.mp htake
      have howner : s.owner found.channel = .spare :=
        (hnoted.spare _).mpr (List.mem_map_of_mem (List.mem_of_find?_eq_some hfound))
      obtain ⟨htorn, hserved⟩ := hnoted.untouched (c := found.channel) (by simp [howner])
        (by simp [howner, Owner.isCall])
      have htaken := hnoted.takeSpare htake
      obtain ⟨rfl, rfl⟩ := Prod.mk.inj heq
      exact (htaken.hand (.inl hfresh) htorn hserved).replenish _ _ _
    next =>
      split
      next id entry hwaitable =>
        obtain ⟨id', hid, hsome⟩ := List.exists_of_findSome?_eq_some hwaitable
        obtain ⟨entry', hentry, hguard⟩ := Option.bind_eq_some_iff.mp hsome
        dsimp only at hguard
        split_ifs at hguard with hall
        obtain ⟨rfl, rfl⟩ := Prod.mk.inj (Option.some.inj hguard)
        exact hnoted.claim hfresh hid hentry hall.2.1
      next => exact hnoted.openOwn hfresh host
  next =>
    -- sessions are kept: an idle one that can still be used, else an own open
    dsimp only
    split
    next entry hfound =>
      have hmem := List.mem_of_find?_eq_some hfound
      have hready := List.find?_some hfound
      simp only [Bool.and_eq_true, beq_iff_eq] at hready
      have howner : s.owner entry.channel = .idle := (h.idle _).mpr ⟨entry, hmem, rfl, hready.1.2⟩
      obtain ⟨htorn, hserved⟩ := h.untouched (c := entry.channel) (by simp [howner])
        (by simp [howner, Owner.isCall])
      exact (h.takeIdle hmem hready.1.2).hand (.inl hk) htorn hserved
    next => exact h.openOwn hk host

theorem callOpened (h : Owned settings none s) {host : String} (hk : s.calls k = .opening host)
    (delayMs now : ℤ) : Owned settings none (s.callOpened settings k host delayMs now) := by
  have hunborn : s.owner s.opened = .unborn := (h.unborn _).mpr (le_refl _)
  obtain ⟨htorn, hserved⟩ := h.untouched (c := s.opened) (by simp [hunborn])
    (by simp [hunborn, Owner.isCall])
  have hhanded : Owned settings none ((s.newChannel host now).hand k s.opened) :=
    (h.newChannel host now).hand (.inr (.inl ⟨host, hk⟩)) htorn hserved
  rw [Pool.callOpened]
  split
  next => exact hhanded.replenish _ _ _
  next hkeepAlive =>
    split_ifs
    · refine hhanded.push (by simp [hkeepAlive]) ?_
      simp [Pool.hand, Owner.isCall]
    · exact hhanded

theorem spareOpened (h : Owned settings none s) {id : ℕ} {entry : PendingOpen}
    (hid : id ∈ s.pending) (hentry : s.opens id = some entry) (jitterMs : ℚ) (now : ℤ) :
    Owned settings none (s.spareOpened settings id entry jitterMs now) := by
  have hunborn : s.owner s.opened = .unborn := (h.unborn _).mpr (le_refl _)
  obtain ⟨htorn, hserved⟩ := h.untouched (c := s.opened) (by simp [hunborn])
    (by simp [hunborn, Owner.isCall])
  have hshared := h.not_shared (c := s.opened) (by simp [hunborn]) (by simp [hunborn, Owner.isCall])
  have hnew := h.newChannel entry.host now
  rw [Pool.spareOpened]
  split_ifs with hclaimed
  · exact hnew.settleClaimed hid hentry hclaimed hshared htorn hserved now
  · exact (hnew.settleOpen hid hentry (.inl (by simpa using hclaimed)) now).keepSpare hshared htorn
      hserved _ _ _ _

theorem giveUp (h : Owned settings none s) {host : String} {id : ℕ} {outcome : Option Settled}
    {phase : CallPhase} (hk : s.calls k = .waiting host id outcome)
    (hholding : ∀ c, phase ≠ .holding c)
    (hwaiting : ∀ host id outcome, phase ≠ .waiting host id outcome) {jitterMs : ℚ} {now : ℤ}
    (hstep : s.giveUp settings k host id phase jitterMs now = some s') :
    Owned settings none s' := by
  obtain ⟨entry, hentry, rfl⟩ := Option.map_eq_some_iff.mp hstep
  split
  next channel hresult =>
    have howner : s.owner channel = .opening id :=
      (h.opening channel id).mpr ⟨k, host, outcome, entry, hk, hentry, hresult⟩
    obtain ⟨htorn, hserved⟩ := h.untouched (c := channel) (by simp [howner])
      (by simp [howner, Owner.isCall])
    exact (h.abandonOpened hk hentry hresult hholding hwaiting).keepSpare
      (h.not_shared (by simp [howner]) (by simp [howner, Owner.isCall])) htorn hserved _ _ _ _
  next hresult => exact h.abandon hk hentry (fun c hc => hresult c hc) hholding hwaiting

theorem resume (h : Owned settings none s) {jitterMs : ℚ} {delayMs now : ℤ}
    (hstep : s.resume settings k jitterMs delayMs now = some s') : Owned settings none s' := by
  rw [Pool.resume] at hstep
  split at hstep
  next host id channel hk =>
    obtain rfl := Option.some.inj hstep
    obtain ⟨entry, hentry, -, hresult, -⟩ := h.waiting k host id _ hk
    have howner : s.owner channel = .opening id :=
      (h.opening channel id).mpr ⟨k, host, _, entry, hk, hentry, hresult channel rfl⟩
    obtain ⟨htorn, hserved⟩ := h.untouched (c := channel) (by simp [howner])
      (by simp [howner, Owner.isCall])
    refine Owned.replenish ?_ _ _ _
    have hhand : (s.loosen channel).hand k channel =
        Pool.hand { s.loosen channel with calls := Function.update s.calls k .done } k channel := by
      simp [Pool.hand, Pool.loosen]
    rw [hhand]
    exact (h.takeOpened hk).hand (.inr (.inr (Function.update_self ..))) htorn hserved
  next host id hk =>
    obtain rfl := Option.some.inj hstep
    obtain ⟨entry, hentry, -, -, hfailed⟩ := h.waiting k host id _ hk
    refine h.setPhase (by simp [hk]) (by simp) fun host' id' outcome' hk' => ?_
    rw [hk] at hk'
    cases hk'
    exact ⟨entry, hentry, hfailed rfl⟩
  next host id hk => exact h.giveUp hk (by simp) (by simp) hstep
  next host id hk => exact h.giveUp hk (by simp) (by simp) hstep
  next => cases hstep

theorem release (h : Owned settings none s) (hk : s.calls k = .holding c) (ok : Bool)
    (view : ℕ → ChannelView) (now : ℤ) :
    Owned settings none (s.release settings k c ok view now) := by
  have hloose := h.letGo hk
  rw [Pool.release]
  dsimp only
  split
  next hperCall =>
    refine hloose.teardown fun entry (hentry : entry ∈ s.sessions) => ?_
    rw [h.perCall hperCall] at hentry
    cases hentry
  next hkeepAlive =>
    split_ifs with hrest
    · obtain ⟨-, hentry, husable⟩ := hrest
      rw [Pool.keepAliveUsable, decide_eq_true_eq] at husable
      exact hloose.rest (by simp [hkeepAlive]) husable.1 hentry
    · exact hloose.retire (.inl ((hloose.loose c).mpr rfl)) (fun _ _ hmem => hmem)
        fun _ heq => (Option.some.inj heq).symm

theorem fire (h : Owned settings none s) (timer : PoolTimer) (now : ℤ) :
    Owned settings none (s.fire settings timer now) := by
  have hframe : (∀ c, timer = .retire c → s.owner c ≠ .idle) →
      Owned settings none { s with timers := s.timers.erase timer } := by
    intro hnot
    refine h.frame s.opening s.lastCallAt s.deferredHosts s.spareHosts s.background _
      fun c hidle hmem => (List.mem_erase_of_ne fun heq => ?_).mpr hmem
    exact hnot c heq.symm hidle
  cases timer with
  | expire channel => exact (hframe fun c heq => by cases heq).expire channel now
  | refresh channel => exact (hframe fun c heq => by cases heq).refresh channel now
  | start host => exact (hframe fun c heq => by cases heq).startOpen host now
  | retire channel =>
    have hidle : s.owner channel = .idle ↔
        s.sessions.any (fun entry => entry.channel == channel && entry.idle) := by
      rw [h.idle]
      simp
    rw [Pool.fire]
    split_ifs with hany
    · refine h.retire (.inr (hidle.mpr hany)) (fun c' hne hmem => ?_) nofun
      exact (List.mem_erase_of_ne fun heq => hne (PoolTimer.retire.inj heq)).mpr hmem
    · exact hframe fun c heq => by
        obtain rfl := PoolTimer.retire.inj heq
        exact fun howner => hany (hidle.mp howner)

theorem enableBackground (h : Owned settings none s) (delaysMs : String → ℤ) (now : ℤ) :
    Owned settings none (s.enableBackground settings delaysMs now) := by
  rw [Pool.enableBackground]
  split_ifs
  · exact h
  · have hstart : Owned settings none { s with background := true } :=
      h.frame _ _ _ _ _ _ fun _ _ hmem => hmem
    have hfold : ∀ (hosts : List String) (s : Pool), Owned settings none s →
        Owned settings none
          (hosts.foldl (fun s host => s.replenish settings host (delaysMs host) now) s) := by
      intro hosts
      induction hosts with
      | nil => exact fun _ h => h
      | cons host hosts ih => exact fun s h => ih _ (h.replenish _ _ _)
    exact (hfold _ _ hstart).frame _ _ _ _ _ _ fun _ _ hmem => hmem

theorem close (h : Owned settings none s) : Owned settings none s.close := by
  have hclosed : Owned settings none { s.dropSpares fun _ => true with closed := true } :=
    { h.dropSpares fun _ => true with
      closed := fun _ => by simp [Pool.dropSpares, Pool.teardownAll] }
  have hsessions := hclosed.dropSessions
  have hframe := hsessions.frame s.opening s.lastCallAt s.deferredHosts []
    s.background [] fun c hidle => by
      obtain ⟨_, hentry, -⟩ := (hsessions.idle c).mp hidle
      cases hentry
  exact hframe

theorem init : Owned settings none Pool.init where
  owns c o := by
    cases o with
    | unborn => exact iff_of_true rfl (Nat.zero_le c)
    | _ => simp [Pool.init, Pool.Claims]
  nodup := List.nodup_nil
  busy := by simp [Pool.init]
  waiting := by simp [Pool.init]
  claimed := by simp [Pool.init]
  waiter := by simp [Pool.init]
  pending := by simp [Pool.init]
  starts := by simp [Pool.init]
  whole := by simp [Pool.init]
  gone := by simp [Pool.init]
  once := by simp [Pool.init]
  closed := by simp [Pool.init]
  armed := by simp [Pool.init]
  unserved := by simp [Pool.init]
  perCall := by simp [Pool.init]
  handedTorn := rfl

/-- Every step keeps the invariant. -/
theorem step (h : Owned settings none s) {event : PoolEvent}
    (hstep : s.step settings event = some s') : Owned settings none s' := by
  cases event with
  | acquire call host ages view delayMs now =>
    -- each arm of `Pool.step` unfolds to its guard, and one lemma keeps the invariant behind it
    rw [Pool.step] at hstep
    split_ifs at hstep with hk
    exact Option.some.inj hstep ▸ h.acquire hk host ages view delayMs now
  | callOpened call delayMs now =>
    rw [Pool.step] at hstep
    split at hstep
    next host hk => exact Option.some.inj hstep ▸ h.callOpened hk delayMs now
    next => cases hstep
  | callFailed call =>
    rw [Pool.step] at hstep
    split at hstep
    next host hk =>
      exact Option.some.inj hstep ▸ h.setPhase (by simp [hk]) (by simp) (by simp [hk])
    next => cases hstep
  | spareOpened id jitterMs now =>
    rw [Pool.step] at hstep
    split_ifs at hstep with hid
    obtain ⟨entry, hentry, rfl⟩ := Option.map_eq_some_iff.mp hstep
    exact h.spareOpened hid hentry jitterMs now
  | spareFailed id now =>
    rw [Pool.step] at hstep
    split_ifs at hstep with hid
    obtain ⟨entry, hentry, rfl⟩ := Option.map_eq_some_iff.mp hstep
    exact h.settleOpen hid hentry (.inr rfl) now
  | waiterSees call =>
    -- a wait that is settled first has the result of its open: a channel, or its failure
    obtain ⟨outcome, houtcome, hstep⟩ := Option.bind_eq_some_iff.mp hstep
    rw [Pool.settleFirst] at hstep
    rw [Pool.openOutcome] at houtcome
    split at hstep
    next host id hk =>
      rw [hk] at houtcome
      obtain ⟨result, hresult, rfl⟩ := Option.map_eq_some_iff.mp houtcome
      obtain ⟨entry, hentry, hresult⟩ := Option.bind_eq_some_iff.mp hresult
      obtain rfl := Option.some.inj hstep
      refine h.settleFirst hk (fun c hc => ⟨entry, hentry, ?_⟩) fun hf => ⟨entry, hentry, ?_⟩
      · cases result with
        | none => cases hc
        | some channel =>
          cases hc
          exact hresult
      · cases result with
        | none => exact hresult
        | some channel => cases hf
    next => cases hstep
  | waiterAborts call =>
    rw [Pool.step, Pool.settleFirst] at hstep
    split at hstep
    next host id hk =>
      exact Option.some.inj hstep ▸ h.settleFirst hk (fun c hc => by cases hc) fun hf => by cases hf
    next => cases hstep
  | waiterTimesOut call =>
    rw [Pool.step, Pool.settleFirst] at hstep
    split at hstep
    next host id hk =>
      exact Option.some.inj hstep ▸ h.settleFirst hk (fun c hc => by cases hc) fun hf => by cases hf
    next => cases hstep
  | resume call jitterMs delayMs now => exact h.resume hstep
  | release call ok view now =>
    rw [Pool.step] at hstep
    split at hstep
    next channel hk => exact Option.some.inj hstep ▸ h.release hk ok view now
    next => cases hstep
  | fire timer now =>
    rw [Pool.step] at hstep
    split_ifs at hstep
    exact Option.some.inj hstep ▸ h.fire timer now
  | enableBackground delaysMs now => exact Option.some.inj hstep ▸ h.enableBackground delaysMs now
  | close => exact Option.some.inj hstep ▸ h.close

end Owned

/-! ### Runs -/

/-- Every state that a pool reaches keeps the invariant. -/
theorem owned_of_run (hrun : Run (Pool.step settings) Pool.init s) : Owned settings none s :=
  hrun.invariant Owned.init fun _ _ _ h hstep => h.step hstep

/-- A spare of its host. -/
def Pool.IsSpare (s : Pool) (c : ℕ) : Prop := c ∈ s.spares.map Spare.channel

/-- An idle shared session. -/
def Pool.IsIdle (s : Pool) (c : ℕ) : Prop := ∃ entry ∈ s.sessions, entry.channel = c ∧ entry.idle

/-- No open and no call is in flight, and no timer is left. -/
structure Pool.Quiescent (s : Pool) : Prop where
  calls : ∀ k, s.calls k = .fresh ∨ s.calls k = .done
  pending : s.pending = []
  timers : s.timers = []

/-- Once everything has ended, a closed pool has torn every session down. -/
theorem Owned.torn_of_quiescent (h : Owned settings none s) (hclosed : s.closed)
    (hquiet : s.Quiescent) (hc : c < s.opened) : s.torn c = 1 := by
  cases howner : s.owner c with
  | unborn => exact absurd ((h.unborn c).mp howner) (not_le.mpr hc)
  | loose => cases (h.loose c).mp howner
  | call k =>
    have hk := (h.call k c).mp howner
    rcases hquiet.calls k with hfresh | hdone
    · cases hfresh.symm.trans hk
    · cases hdone.symm.trans hk
  | spare =>
    have hmem := (h.spare c).mp howner
    rw [h.closed hclosed] at hmem
    cases hmem
  | idle =>
    have hmem := h.armed c howner
    rw [hquiet.timers] at hmem
    cases hmem
  | opening id =>
    obtain ⟨k, host, outcome, entry, hk, -⟩ := (h.opening c id).mp howner
    rcases hquiet.calls k with hfresh | hdone
    · cases hfresh.symm.trans hk
    · cases hdone.symm.trans hk
  | gone => exact h.gone c howner

/-- **Every TLS session has one owner and one end.**

In every state of a run each opened session has exactly one owner: a call, the spares, an idle slot,
an open that is not settled, or nobody once it is torn down. All parts are read off this invariant
(`owned_of_run`), as one session cannot have two owners. -/
theorem session_one_owner (hrun : Run (Pool.step settings) Pool.init s) :
    (∀ c k k', s.calls k = .holding c → s.calls k' = .holding c → k = k') ∧
    (∀ c k, s.calls k = .holding c → ¬s.IsSpare c ∧ ¬s.IsIdle c) ∧
    (∀ c, s.IsSpare c → ¬s.IsIdle c) ∧ (s.spares.map Spare.channel).Nodup ∧
    (settings.tlsSession = .perCall → ∀ c, s.served c ≤ 1) ∧
    s.handedTorn = [] ∧
    (s.closed → s.Quiescent → s.spares = [] ∧ ∀ c < s.opened, s.torn c = 1) := by
  have h := owned_of_run hrun
  refine ⟨fun c k k' hk hk' => ?_, fun c k hk => ⟨fun hspare => ?_, fun hidle => ?_⟩,
    fun c hspare hidle => ?_, h.nodup, fun hperCall c => ?_, h.handedTorn,
    fun hclosed hquiet => ⟨h.closed hclosed, fun c hc => h.torn_of_quiescent hclosed hquiet hc⟩⟩
  · exact Owner.call.inj (((h.call k c).mpr hk).symm.trans ((h.call k' c).mpr hk'))
  · cases ((h.call k c).mpr hk).symm.trans ((h.spare c).mpr hspare)
  · cases ((h.call k c).mpr hk).symm.trans ((h.idle c).mpr hidle)
  · cases ((h.spare c).mpr hspare).symm.trans ((h.idle c).mpr hidle)
  · by_cases hserved : s.served c = 0
    · exact hserved ▸ Nat.zero_le 1
    · exact (h.unserved hperCall c hserved).1.le

/-- The settings of the sample. -/
def samplePoolSettings : PoolSettings where
  tlsSession := .perCall
  tlsSpares := 1
  tlsSpareTtlMs := 60000
  tlsKeepAliveMs := 10000
  tlsMaxCallsPerSession := 5

/-- A second call waits for the spare that opens for its host, and is aborted at the moment the
open succeeds. -/
def samplePoolEvents : List PoolEvent :=
  [.acquire 0 "rpc.example" (0, none) (fun _ => ⟨true, 0⟩) 0 0,
    .callOpened 0 0 100,
    .enableBackground (fun _ => 0) 200,
    .acquire 1 "rpc.example" (0, none) (fun _ => ⟨true, 0⟩) 0 300,
    .release 0 true (fun _ => ⟨true, 1⟩) 400,
    .waiterAborts 1,
    .spareOpened 0 0 500,
    .resume 1 0 0 500,
    .close]

/-- Both sessions of the sample are torn down, each once. -/
theorem session_one_owner_sample :
    ∃ s, runEvents (Pool.step samplePoolSettings) Pool.init samplePoolEvents = some s ∧
      s.closed ∧ s.Quiescent ∧ s.opened = 2 ∧ s.spares = [] ∧ ∀ c < 2, s.torn c = 1 := by
  have hsome : ((runEvents (Pool.step samplePoolSettings) Pool.init samplePoolEvents).map
      fun s => (s.closed, s.pending, s.timers, s.opened)) = some (true, [], [], 2) := by
    decide +kernel
  obtain ⟨s, hs, hfields⟩ := Option.map_eq_some_iff.mp hsome
  simp only [Prod.mk.injEq] at hfields
  obtain ⟨hclosed, hpending, htimers, hopened⟩ := hfields
  have hcalls : ∀ k, s.calls k = .fresh ∨ s.calls k = .done := by
    intro k
    have hphase : ∀ phase, (runEvents (Pool.step samplePoolSettings) Pool.init
        samplePoolEvents).map (fun s => s.calls k) = some phase → s.calls k = phase := by
      intro phase h
      rw [hs] at h
      exact Option.some.inj h
    rcases k with _ | _ | k
    · exact .inr (hphase _ (by decide +kernel))
    · exact .inr (hphase _ (by decide +kernel))
    · exact .inl (hphase _ rfl)
  have hquiet : s.Quiescent := ⟨hcalls, hpending, htimers⟩
  obtain ⟨-, -, -, -, -, -, hend⟩ := session_one_owner (run_of_runEvents hs)
  obtain ⟨hspares, htorn⟩ := hend hclosed hquiet
  exact ⟨s, hs, hclosed, hquiet, hopened, hspares, hopened ▸ htorn⟩

end NoxSdk.Tls
