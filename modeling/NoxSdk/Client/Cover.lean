import NoxSdk.Bincode.Payload
import NoxSdk.Client.Exchange
import NoxSdk.Client.PendingRequests
import NoxSdk.Lib.Runs

/-!
# The clock of cover traffic

`CoverTrafficController` sends a dummy packet when its timer expires and arms the next timer when
the send has ended. Timers and sends are in the state of the run, so are the packets that are
posted. A send is told apart by the calls of `start` and `stop` before it, which the code does not
count: one that began before the last of them ends in a controller that may run again, and then
arms a timer beside the one that `start` armed. In a run where no such send ends while the
controller runs there is one clock (`OneClock`).
-/

namespace NoxSdk.Client

open NoxSdk.Lib NoxSdk.Bincode

/-- A rate: a number of JavaScript. -/
inductive Rate
  | finite (perSecond : ℚ)
  | infinite (negative : Bool)
  | notNumber

/-- `Math.max(0, rate)`. -/
def Rate.max0 : Rate → Rate
  | .finite perSecond => .finite (max 0 perSecond)
  | .infinite true => .finite 0
  | rate => rate

/-- `rate <= 0`. -/
def Rate.atMost0 : Rate → Bool
  | .finite perSecond => decide (perSecond ≤ 0)
  | .infinite negative => negative
  | .notNumber => false

/-- `CoverTrafficConfig`. -/
structure CoverTrafficConfig where
  lambdaP : Option Rate
  maxPaddingBytes : Option ℤ
  powDifficulty : Option ℕ

/-- `CoverTrafficController`, its timers and its sends in flight. -/
structure CoverTrafficController where
  running : Bool
  timerId : Option ℕ
  lambdaP : Rate
  maxPaddingBytes : ℕ
  powDifficulty : ℕ
  /-- The timers that are armed, by their ids. -/
  armed : List ℕ
  nextId : ℕ
  /-- The calls of `start` and `stop` so far. -/
  calls : ℕ
  /-- The sends in flight: the calls before each. -/
  sends : List ℕ
  /-- The packets posted, with the entry of each. -/
  posted : List (String × Bytes)

/-- What a dummy finds when it is sent: the module, a path of the topology, random padding, the
packet builder and the entry. -/
structure DummyEnv where
  wasm : Bool
  path : Option (List PathHop)
  padding : ℕ → Bytes
  buildSphinxPacket : List PathHop → Bytes → ℕ → Except Thrown Bytes
  entryUrl : String

/-- What happens to a controller. -/
inductive CoverEvent
  | start (config : CoverTrafficConfig) (powDifficulty : ℕ)
  | stop
  | expire (timer : ℕ) (env : DummyEnv)
  | ended (send : ℕ)

namespace CoverTrafficController

/-- A controller that was made and not started. -/
def new : CoverTrafficController where
  running := false
  timerId := none
  lambdaP := .finite 1
  maxPaddingBytes := 512
  powDifficulty := 0
  armed := []
  nextId := 0
  calls := 0
  sends := []
  posted := []

/-- `stop`. -/
def stop (cover : CoverTrafficController) : CoverTrafficController :=
  { cover with
    running := false
    timerId := none
    armed := cover.timerId.elim cover.armed cover.armed.erase
    calls := cover.calls + 1 }

/-- `_scheduleNext`. -/
def scheduleNext (cover : CoverTrafficController) : CoverTrafficController :=
  if cover.running then
    { cover with
      timerId := some cover.nextId
      armed := cover.armed ++ [cover.nextId]
      nextId := cover.nextId + 1 }
  else cover

/-- `start`. -/
def start (cover : CoverTrafficController) (config : CoverTrafficConfig) (powDifficulty : ℕ) :
    CoverTrafficController :=
  let stopped := stop
    { cover with
      lambdaP := (config.lambdaP.getD (.finite 1)).max0
      maxPaddingBytes := (config.maxPaddingBytes.getD 512).toNat
      powDifficulty := config.powDifficulty.getD powDifficulty }
  if stopped.lambdaP.atMost0 then stopped else scheduleNext { stopped with running := true }

/-- `_sendDummy`: the packet that is posted before it waits, if it comes to that. -/
def sendDummy (cover : CoverTrafficController) (env : DummyEnv) : Option (String × Bytes) :=
  if !env.wasm then none
  else match env.path with
  | none => none
  | some path =>
    match encodeRelayerPayload (.dummy (env.padding cover.maxPaddingBytes)) >>= fun payload =>
        env.buildSphinxPacket path payload cover.powDifficulty with
    | .error _ => none
    | .ok packet =>
      if packet.length ≠ sphinxPacketSize then none else some (env.entryUrl, packet)

/-- `_fire`, until the send has to wait. -/
def fire (cover : CoverTrafficController) (env : DummyEnv) : CoverTrafficController :=
  if !cover.running then cover
  else { cover with
    sends := cover.calls :: cover.sends
    posted := cover.posted ++ (cover.sendDummy env).toList }

/-- One event; a timer that is not armed does not expire, and a send that is not in flight does
not end. -/
def step (cover : CoverTrafficController) : CoverEvent → Option CoverTrafficController
  | .start config powDifficulty => some (cover.start config powDifficulty)
  | .stop => some cover.stop
  | .expire timer env =>
    if timer ∈ cover.armed then
      some (fire { cover with armed := cover.armed.erase timer } env)
    else none
  | .ended send =>
    -- the `finally` of `_fire`
    if send ∈ cover.sends then
      some (scheduleNext { cover with sends := cover.sends.erase send })
    else none

/-- At most one timer is armed, and once the sends of before the last `start` or `stop` have ended
there is at most one timer or send. -/
def OneClock (cover : CoverTrafficController) : Prop :=
  cover.armed.length ≤ 1 ∧
    ((∀ send ∈ cover.sends, send = cover.calls) → cover.armed.length + cover.sends.length ≤ 1)

/-- A send that ends in a running controller began after the last `start` or `stop`. -/
def NoStaleEnd (cover : CoverTrafficController) : CoverEvent → Prop
  | .ended send => cover.running → send = cover.calls
  | _ => True

/-- Any event but a `start`. -/
def NoStart (_ : CoverTrafficController) : CoverEvent → Prop
  | .start .. => False
  | _ => True

/-- One clock, as every event keeps it: the armed timer is the one that `stop` would clear, and
there is one timer or send of now in a running controller at most, and no timer in a stopped one. -/
structure Clocked (cover : CoverTrafficController) : Prop where
  known : cover.armed = [] ∨ ∃ timer, cover.armed = [timer] ∧ cover.timerId = some timer
  one : cover.armed.length + cover.sends.count cover.calls ≤ 1
  idle : cover.running = false → cover.armed = []
  past : ∀ send ∈ cover.sends, send ≤ cover.calls

variable {cover cover' : CoverTrafficController}

theorem clocked_new : Clocked new :=
  ⟨.inl rfl, Nat.zero_le _, fun _ => rfl, fun _ h => absurd h List.not_mem_nil⟩

/-- Sends of the next call on: there are none. -/
theorem Clocked.count_next (h : Clocked cover) : cover.sends.count (cover.calls + 1) = 0 :=
  List.count_eq_zero.mpr fun hmem => absurd (h.past _ hmem) (Nat.not_succ_le_self _)

/-- `stop` clears the only timer. -/
theorem clocked_stop (h : Clocked cover) : Clocked cover.stop ∧ cover.stop.armed = [] := by
  have harmed : cover.stop.armed = [] := by
    rcases h.known with harmed | ⟨timer, harmed, htimer⟩
    · rw [CoverTrafficController.stop, harmed]
      cases cover.timerId <;> rfl
    · rw [CoverTrafficController.stop, harmed, htimer]
      exact List.erase_cons_head ..
  refine ⟨⟨.inl harmed, ?_, fun _ => harmed, fun send hsend => ?_⟩, harmed⟩
  · rw [harmed]
    exact (Nat.zero_add _).trans_le (h.count_next.trans_le (Nat.zero_le 1))
  · exact (h.past send hsend).trans (Nat.le_succ _)

/-- The next timer takes the place of a send of now that has ended, or is the first. -/
theorem clocked_scheduleNext (harmed : cover.armed = [])
    (hcount : cover.sends.count cover.calls = 0)
    (hpast : ∀ send ∈ cover.sends, send ≤ cover.calls) : Clocked cover.scheduleNext := by
  rw [CoverTrafficController.scheduleNext]
  split_ifs with hrunning
  · refine ⟨.inr ⟨cover.nextId, ?_, rfl⟩, ?_, fun h => absurd hrunning (ne_true_of_eq_false h),
      hpast⟩
    · exact congrArg (· ++ [cover.nextId]) harmed
    · change (cover.armed ++ [cover.nextId]).length + cover.sends.count cover.calls ≤ 1
      rw [harmed, hcount]
      exact le_rfl
  · refine ⟨.inl harmed, ?_, fun _ => harmed, hpast⟩
    rw [harmed, hcount]
    exact Nat.zero_le 1

/-- `start` stops first, so it arms the only timer. -/
theorem clocked_start (h : Clocked cover) (config : CoverTrafficConfig) (powDifficulty : ℕ) :
    Clocked (cover.start config powDifficulty) := by
  have hset : Clocked { cover with
      lambdaP := (config.lambdaP.getD (.finite 1)).max0
      maxPaddingBytes := (config.maxPaddingBytes.getD 512).toNat
      powDifficulty := config.powDifficulty.getD powDifficulty } := ⟨h.known, h.one, h.idle, h.past⟩
  obtain ⟨hstop, harmed⟩ := clocked_stop hset
  rw [CoverTrafficController.start]
  split_ifs
  · exact hstop
  · exact clocked_scheduleNext harmed h.count_next hstop.past

/-- The timer that expires gives way to one send. -/
theorem clocked_expire (h : Clocked cover) {timer : ℕ} (htimer : timer ∈ cover.armed)
    (env : DummyEnv) : Clocked (fire { cover with armed := cover.armed.erase timer } env) := by
  have hnil : cover.armed.erase timer = [] := by
    rcases h.known with harmed | ⟨known, harmed, -⟩
    · exact absurd (harmed ▸ htimer) List.not_mem_nil
    · obtain rfl := List.mem_singleton.mp (harmed ▸ htimer)
      rw [harmed]
      exact List.erase_cons_head ..
  have hcount : cover.sends.count cover.calls = 0 := by
    have hlength := List.length_pos_of_mem htimer
    have hone := h.one
    omega
  rw [fire]
  split_ifs
  · exact ⟨.inl hnil, by rw [hnil, hcount]; exact Nat.zero_le 1, fun _ => hnil, h.past⟩
  · refine ⟨.inl hnil, ?_, fun _ => hnil, List.forall_mem_cons.mpr ⟨le_rfl, h.past⟩⟩
    change (cover.armed.erase timer).length + (cover.calls :: cover.sends).count cover.calls ≤ 1
    rw [hnil, List.count_cons_self, hcount]
    exact le_rfl

/-- A send that ends makes room for the next timer, unless it is a stale one in a controller that
runs again. -/
theorem clocked_ended (h : Clocked cover) {send : ℕ} (hsend : send ∈ cover.sends)
    (hstale : NoStaleEnd cover (.ended send)) :
    Clocked (scheduleNext { cover with sends := cover.sends.erase send }) := by
  have hpast : ∀ other ∈ cover.sends.erase send, other ≤ cover.calls :=
    fun other hother => h.past other (List.mem_of_mem_erase hother)
  have hone := h.one
  by_cases hnow : send = cover.calls
  · subst hnow
    have hpos : 0 < cover.sends.count cover.calls := List.count_pos_iff.mpr hsend
    have harmed : cover.armed = [] := List.length_eq_zero_iff.mp (by omega)
    refine clocked_scheduleNext harmed ?_ hpast
    change (cover.sends.erase cover.calls).count cover.calls = 0
    rw [List.count_erase_self]
    omega
  · -- the controller is stopped
    have hidle : cover.running = false := Bool.eq_false_of_not_eq_true fun h => hnow (hstale h)
    have hcount : (cover.sends.erase send).count cover.calls = cover.sends.count cover.calls :=
      List.count_erase_of_ne (Ne.symm hnow)
    rw [CoverTrafficController.scheduleNext, if_neg (ne_true_of_eq_false hidle)]
    exact ⟨h.known, hcount ▸ hone, h.idle, hpast⟩

/-- Every event without a stale end keeps one clock. -/
theorem clocked_step {event : CoverEvent} (h : Clocked cover) (hstale : NoStaleEnd cover event)
    (hstep : cover.step event = some cover') : Clocked cover' := by
  cases event with
  | start config powDifficulty => exact Option.some.inj hstep ▸ clocked_start h config powDifficulty
  | stop => exact Option.some.inj hstep ▸ (clocked_stop h).1
  | expire timer env =>
    obtain ⟨htimer, hfire⟩ := Option.ite_none_right_eq_some.mp hstep
    exact Option.some.inj hfire ▸ clocked_expire h htimer env
  | ended send =>
    obtain ⟨hsend, hnext⟩ := Option.ite_none_right_eq_some.mp hstep
    exact Option.some.inj hnext ▸ clocked_ended h hsend hstale

theorem Clocked.oneClock (h : Clocked cover) : OneClock cover := by
  refine ⟨(Nat.le_add_right _ _).trans h.one, fun hnow => ?_⟩
  rw [← List.count_eq_length.mpr fun send hsend => (hnow send hsend).symm]
  exact h.one

/-- In a controller that is not running nothing but `start` posts a packet. -/
theorem posted_of_idle {event : CoverEvent} (hidle : cover.running = false)
    (hstart : NoStart cover event) (hstep : cover.step event = some cover') :
    cover'.running = false ∧ cover'.posted = cover.posted := by
  cases event with
  | start config powDifficulty => exact hstart.elim
  | stop => exact Option.some.inj hstep ▸ ⟨rfl, rfl⟩
  | expire timer env =>
    obtain ⟨-, htimer⟩ := Option.ite_none_right_eq_some.mp hstep
    rw [fire, if_pos (by rw [hidle]; rfl)] at htimer
    exact Option.some.inj htimer ▸ ⟨hidle, rfl⟩
  | ended send =>
    obtain ⟨-, hsend⟩ := Option.ite_none_right_eq_some.mp hstep
    rw [scheduleNext, if_neg (ne_true_of_eq_false hidle)] at hsend
    exact Option.some.inj hsend ▸ ⟨hidle, rfl⟩

/-- Cover traffic has one clock in every run in which no send of before the last `start` or `stop`
ends while the controller runs; and after a `stop` no packet is posted before the next `start`.

The invariant (`Clocked`) counts the armed timer and the send of now together. A send that ends arms
the next timer if the controller runs, without a look at which `start` the send was of; the
condition excludes this for the sends of before. -/
theorem oneClock_of_runWhen (h : RunWhen CoverTrafficController.step NoStaleEnd .new cover) :
    OneClock cover ∧
      ∀ cover', RunWhen CoverTrafficController.step NoStart cover.stop cover' →
        cover'.posted = cover.posted := by
  refine ⟨?_, fun cover' hafter => ?_⟩
  · have hclock : Clocked cover :=
      h.invariant clocked_new fun _ _ _ hclock hstale hstep => clocked_step hclock hstale hstep
    exact hclock.oneClock
  · have hidle : cover'.running = false ∧ cover'.posted = cover.posted :=
      hafter.invariant ⟨rfl, rfl⟩ fun _ _ _ hbefore hstart hstep =>
        (posted_of_idle hbefore.1 hstart hstep).imp_right (·.trans hbefore.2)
    exact hidle.2

/-! ### A send that outlives its start -/

/-- The default settings. -/
def sampleConfig : CoverTrafficConfig := ⟨none, none, none⟩

/-- A client without its module, which posts nothing. -/
def sampleEnv : DummyEnv where
  wasm := false
  path := none
  padding := fun _ => []
  buildSphinxPacket := fun _ _ _ => .ok []
  entryUrl := "https://entry"

/-- The second start finds the timer expired and the send in flight. -/
def restartEvents : List CoverEvent :=
  [.start sampleConfig 0, .expire 0 sampleEnv, .start sampleConfig 0, .ended 1]

/-- Two timers are armed after a start during a send. -/
theorem not_oneClock_of_restart :
    ¬ ∀ cover, Run CoverTrafficController.step .new cover → OneClock cover := by
  intro h
  have hrun : ∃ cover, runEvents CoverTrafficController.step .new restartEvents = some cover ∧
      cover.armed = [1, 2] := ⟨_, rfl, rfl⟩
  obtain ⟨cover, hcover, harmed⟩ := hrun
  have hone := (h cover (run_of_runEvents hcover)).1
  rw [harmed] at hone
  exact absurd hone (by decide)

/-- A start, a send and its end: the next timer is the only one. -/
theorem oneClock_of_runWhen_sample :
    ∃ cover, cover.armed = [1] ∧ RunWhen CoverTrafficController.step NoStaleEnd .new cover ∧
      OneClock cover ∧
        ∀ cover', RunWhen CoverTrafficController.step NoStart cover.stop cover' →
          cover'.posted = cover.posted := by
  have hrun : RunWhen CoverTrafficController.step NoStaleEnd .new
      (scheduleNext { new.start sampleConfig 0 with armed := [], sends := [] }) :=
    .head ⟨.start sampleConfig 0, trivial, rfl⟩ (.head ⟨.expire 0 sampleEnv, trivial, rfl⟩
      (.head ⟨.ended 1, fun _ => rfl, rfl⟩ .refl))
  exact ⟨_, rfl, hrun, oneClock_of_runWhen hrun⟩

end CoverTrafficController

end NoxSdk.Client
