import NoxSdk.Worker.LifeCycle

/-!
# Ready or failed

Over every run of a worker: it signals ready at most once and failure at most once, in this order;
calls wait only while it may still become ready, and none waits afterwards; a worker that failed
leaves no client behind, once `connect` and the warm-up are over.

`Sound` says where a connected client is: on its way through `boot`, in use, or disconnected.
-/

namespace NoxSdk.Worker

open NoxSdk.Lib

/-- `signalReady`. -/
def Signal.isReady : Signal → Bool
  | ready => true
  | failed _ _ => false

/-- `connect` or the warm-up is pending, or its client on the way to `boot`. -/
def BootPhase.pending : BootPhase → Bool
  | connecting => true
  | returned _ => true
  | warming _ => true
  | _ => false

namespace NoxWorker

variable {config : BootConfig} {worker worker' : NoxWorker}

/-- A connected client is in use, disconnected or on its way through `boot`. -/
def Placed (worker : NoxWorker) (client : ℕ) : Prop :=
  client ∈ worker.disconnected ∨ worker.client = some client ∨
    worker.phase = .returned client ∨ worker.phase = .warming client

/-- What every step keeps. -/
structure Sound (worker : NoxWorker) : Prop where
  signals_open : worker.failed = false → worker.signals = [] ∨ worker.signals = [.ready]
  signals_failed : worker.failed = true → ∃ code message,
    worker.signals = [.failed code message] ∨ worker.signals = [.ready, .failed code message]
  booting : worker.phase ≠ .over → worker.client = none ∧ .ready ∉ worker.signals
  ready : .ready ∈ worker.signals → worker.failed = false → worker.client ≠ none
  failed : worker.failed = true → worker.client = none
  stopped : worker.stopped = true → worker.failed = true
  waiting : worker.readyWaiters ≠ [] → worker.client = none ∧ worker.failed = false
  answered : ∀ call ∈ worker.asked,
    call ∈ worker.readyWaiters ∨ ∃ outcome, (call, outcome) ∈ worker.outcomes
  placed : ∀ client ∈ worker.connected, worker.Placed client

/-! ### The functions of a worker -/

/-- A worker fails once; the accept loop may stop it on the way. -/
theorem Sound.fail (h : Sound worker) {stopped : Bool} {code : FailedCode} {message : String}
    (hopen : worker.failed = false) : Sound ({ worker with stopped }.fail code message) := by
  rw [NoxWorker.fail, if_neg (Bool.eq_false_iff.mp hopen)]
  refine ⟨fun hfailed => absurd hfailed nofun, fun _ => ⟨code, message, ?_⟩, fun hphase => ?_,
    fun _ hfailed => absurd hfailed nofun, fun _ => rfl, fun _ => rfl, fun hwaits => ?_,
    fun call hcall => .inr ?_, fun client hclient => ?_⟩
  · exact (h.signals_open hopen).imp (fun hnone => by simp [shutdown, hnone])
      fun hready => by simp [shutdown, hready]
  · refine ⟨rfl, fun hready => (h.booting hphase).2 ?_⟩
    exact (List.mem_append.mp hready).resolve_right fun hsignal =>
      absurd (List.mem_singleton.mp hsignal) nofun
  · exact absurd rfl hwaits
  · rcases h.answered call hcall with hwaiting | ⟨outcome, houtcome⟩
    · exact ⟨_, List.mem_append_right _ (List.mem_map_of_mem hwaiting)⟩
    · exact ⟨outcome, List.mem_append_left _ houtcome⟩
  · rcases h.placed client hclient with hgone | hused | hphase
    · exact .inl (List.mem_append_left _ hgone)
    · exact .inl (List.mem_append_right _ (Option.mem_toList.mpr hused))
    · exact .inr (.inr hphase)

/-- A failure ends the boot and rejects all that wait. -/
theorem Sound.fail_self (h : Sound worker) {code : FailedCode} {message : String} :
    Sound (worker.fail code message) := by
  rcases hfailed : worker.failed with _ | _
  · exact h.fail hfailed
  · rwa [NoxWorker.fail, if_pos hfailed]

/-- The boot goes on or ends while no client is on its way. -/
theorem Sound.phase (h : Sound worker) {phase : BootPhase} {accepting : Bool}
    (hbooting : worker.phase ≠ .over)
    (hnone : ∀ client, ¬(worker.phase = .returned client ∨ worker.phase = .warming client)) :
    Sound { worker with phase, accepting } where
  signals_open := h.signals_open
  signals_failed := h.signals_failed
  booting _ := h.booting hbooting
  ready := h.ready
  failed := h.failed
  stopped := h.stopped
  waiting := h.waiting
  answered := h.answered
  placed client hclient := by
    refine (h.placed client hclient).imp_right (Or.imp_right fun hphase => ?_)
    exact absurd hphase (hnone client)

/-- A call waits, or is answered at once when the boot is over. -/
theorem Sound.waitReady (h : Sound worker) {call : ℕ} {aborted : Option CallError} :
    Sound (worker.waitReady call aborted) := by
  have hget : ∀ outcome, Sound { worker with
      asked := worker.asked ++ [call]
      outcomes := worker.outcomes ++ [(call, outcome)] } := by
    refine fun outcome => { h with answered := List.forall_mem_append.mpr ⟨fun other hother => ?_,
      List.forall_mem_singleton.mpr (.inr ⟨outcome, List.mem_concat_self⟩)⟩ }
    exact (h.answered other hother).imp_right fun ⟨outcome, houtcome⟩ =>
      ⟨outcome, List.mem_append_left _ houtcome⟩
  unfold NoxWorker.waitReady
  split
  · exact hget _
  · rename_i hclient
    split_ifs with hdown
    · exact hget _
    · split
      · exact hget _
      · obtain ⟨hopen, -⟩ := not_or.mp hdown
        refine { h with
          waiting := fun _ => ⟨hclient, Bool.eq_false_iff.mpr hopen⟩
          answered := List.forall_mem_append.mpr ⟨fun other hother => ?_,
            List.forall_mem_singleton.mpr (.inl List.mem_concat_self)⟩ }
        exact (h.answered other hother).imp_left fun hwaiting => List.mem_append_left _ hwaiting

/-- A call that is aborted waits no longer. -/
theorem Sound.abortWait (h : Sound worker) {call : ℕ} {reason : CallError} :
    Sound (worker.abortWait call reason) := by
  refine { h with waiting := fun hwaits => h.waiting ?_, answered := fun other hother => ?_ }
  · rintro hnone
    rw [NoxWorker.abortWait, hnone] at hwaits
    exact hwaits rfl
  · rcases h.answered other hother with hwaiting | ⟨outcome, houtcome⟩
    · by_cases hsame : other = call
      · exact .inr ⟨.error reason, hsame ▸ List.mem_concat_self⟩
      · exact .inl ((List.mem_erase_of_ne hsame).mpr hwaiting)
    · exact .inr ⟨outcome, List.mem_append_left _ houtcome⟩

/-- A trap is noted, and fails the worker when there are too many. -/
theorem Sound.noteTrap (h : Sound worker) {now : ℕ} : Sound (worker.noteTrap now) := by
  have hnoted : ∀ trapTimes, Sound { worker with trapTimes } := fun _ => { h with }
  rw [NoxWorker.noteTrap]
  split_ifs
  · exact (hnoted _).fail_self
  · exact hnoted _

/-- An accept that fails is a failure of the worker. -/
theorem Sound.acceptFailed (h : Sound worker) {detail : String} :
    Sound (worker.acceptFailed detail) := by
  have hdone : Sound { worker with accepting := false } := { h with }
  rw [NoxWorker.acceptFailed]
  split_ifs with hfailed
  · exact hdone
  · exact hdone.fail (Bool.eq_false_iff.mpr hfailed)

/-- No client is on its way in a phase that is none of the two after `connect`. -/
theorem Sound.phase_of_eq (h : Sound worker) {before phase : BootPhase} {accepting : Bool}
    (hbefore : worker.phase = before) (hbooting : before ≠ .over)
    (hnone : ∀ client, before ≠ .returned client ∧ before ≠ .warming client) :
    Sound { worker with phase, accepting } := by
  refine h.phase (hbefore ▸ hbooting) fun client => ?_
  rw [hbefore]
  exact not_or.mpr (hnone client)

/-- A client that `connect` returned is the one of the phase. -/
theorem Sound.connect (h : Sound worker) {before : BootPhase} (hbefore : worker.phase = before)
    (hbooting : before ≠ .over)
    (hnone : ∀ client, before ≠ .returned client ∧ before ≠ .warming client) :
    Sound worker.connect := by
  rw [NoxWorker.connect]
  split_ifs
  · exact h.phase_of_eq hbefore hbooting hnone
  · exact h.phase_of_eq hbefore hbooting hnone

/-- A connect that fails is a failure of the worker. -/
theorem Sound.connectFailed (h : Sound worker) (hphase : worker.phase = .connecting)
    {code : Option NoxClientErrorCode} {detail : String} :
    Sound (worker.connectFailed code detail) := by
  have hmoved : ∀ phase, Sound { worker with phase } := fun phase =>
    h.phase_of_eq hphase nofun fun _ => ⟨nofun, nofun⟩
  rw [NoxWorker.connectFailed]
  split_ifs
  · exact hmoved .over
  · exact (hmoved .over).fail_self
  · exact (hmoved .over).fail_self
  · exact (hmoved .over).fail_self
  · exact (hmoved .over).fail_self
  · exact hmoved .sleeping

/-- `connect` returns a client: it is dismissed or goes on to `boot`. -/
theorem Sound.connectedTo (h : Sound worker) (hphase : worker.phase = .connecting) {client : ℕ}
    {phase : BootPhase} {disconnected : List ℕ} (hkept : worker.disconnected ⊆ disconnected)
    (hplaced : client ∈ disconnected ∨ phase = .returned client) :
    Sound { worker with phase, disconnected, connected := worker.connected ++ [client] } := by
  have hbooting : worker.phase ≠ .over := by
    rw [hphase]
    exact nofun
  refine { h with
    booting := fun _ => h.booting hbooting
    placed := List.forall_mem_append.mpr ⟨fun other hother => ?_,
      List.forall_mem_singleton.mpr (hplaced.imp_right fun hreturned => .inr (.inl hreturned))⟩ }
  rcases h.placed other hother with hgone | hused | hreturned | hwarming
  · exact .inl (hkept hgone)
  · exact .inr (.inl hused)
  · exact absurd (hphase.symm.trans hreturned) nofun
  · exact absurd (hphase.symm.trans hwarming) nofun

/-- The client that is warmed is the one that was returned. -/
theorem Sound.warm (h : Sound worker) {client : ℕ} (hphase : worker.phase = .returned client) :
    Sound { worker with phase := .warming client } := by
  have hbooting : worker.phase ≠ .over := by
    rw [hphase]
    exact nofun
  refine { h with booting := fun _ => h.booting hbooting, placed := fun other hother => ?_ }
  rcases h.placed other hother with hgone | hused | hreturned | hwarming
  · exact .inl hgone
  · exact .inr (.inl hused)
  · obtain rfl := BootPhase.returned.inj (hphase.symm.trans hreturned)
    exact .inr (.inr (.inr rfl))
  · exact absurd (hphase.symm.trans hwarming) nofun

/-- A client that is ready is the one in use, and all that waited have it. -/
theorem Sound.becomeReady (h : Sound worker) {client : ℕ}
    (hphase : worker.phase = .returned client ∨ worker.phase = .warming client) :
    Sound (worker.becomeReady config client) := by
  have hbooting : worker.phase ≠ .over := by
    rcases hphase with hphase | hphase <;> rw [hphase] <;> exact nofun
  obtain ⟨hclient, hunsignalled⟩ := h.booting hbooting
  -- the client on its way is the one that arrives
  have hplaced : ∀ other ∈ worker.connected, other ∈ worker.disconnected ∨ other = client := by
    intro other hother
    rcases h.placed other hother with hgone | hused | hreturned | hwarming
    · exact .inl hgone
    · exact absurd (hclient.symm.trans hused) nofun
    · rcases hphase with hphase | hphase
      · exact .inr (BootPhase.returned.inj (hreturned.symm.trans hphase))
      · exact absurd (hreturned.symm.trans hphase) nofun
    · rcases hphase with hphase | hphase
      · exact absurd (hwarming.symm.trans hphase) nofun
      · exact .inr (BootPhase.warming.inj (hwarming.symm.trans hphase))
  rw [NoxWorker.becomeReady]
  split_ifs with hdown
  · refine { h with
      booting := fun hphase => absurd rfl hphase
      placed := fun other hother => .inl ?_ }
    rcases hplaced other hother with hgone | rfl
    · exact List.mem_append_left _ hgone
    · exact List.mem_concat_self
  · obtain ⟨hopen, hrunning⟩ := not_or.mp hdown
    have hnone : worker.signals = [] :=
      (h.signals_open (Bool.eq_false_iff.mpr hopen)).resolve_right fun hready =>
        hunsignalled (hready ▸ List.mem_singleton_self _)
    refine ⟨fun _ => .inr ?_, fun hfailed => absurd hfailed hopen, fun hphase => absurd rfl hphase,
      fun _ _ => nofun, fun hfailed => absurd hfailed hopen, h.stopped,
      fun hwaits => absurd rfl hwaits, fun call hcall => .inr ?_, fun other hother => ?_⟩
    · dsimp only
      rw [hnone, List.nil_append]
    · rcases h.answered call hcall with hwaiting | ⟨outcome, houtcome⟩
      · exact ⟨_, List.mem_append_right _ (List.mem_map_of_mem hwaiting)⟩
      · exact ⟨outcome, List.mem_append_left _ houtcome⟩
    · rcases hplaced other hother with hgone | rfl
      · exact .inl hgone
      · exact .inr (.inl rfl)

/-! ### Runs -/

/-- Each step of the boot keeps the invariant. -/
theorem Sound.bootStep (h : Sound worker) {event : WorkerEvent}
    (hstep : bootStep config worker event = some worker') : Sound worker' := by
  unfold NoxSdk.Worker.bootStep at hstep
  -- the arms of `bootStep`: most only change the phase, the others say what became of the client
  split at hstep <;> rename_i hphase
  · obtain rfl := Option.some.inj hstep
    exact Sound.fail_self (h.phase_of_eq hphase nofun fun _ => ⟨nofun, nofun⟩)
  · obtain rfl := Option.some.inj hstep
    split_ifs
    · exact h.phase_of_eq hphase nofun fun _ => ⟨nofun, nofun⟩
    · exact h.phase_of_eq hphase nofun fun _ => ⟨nofun, nofun⟩
  · obtain rfl := Option.some.inj hstep
    exact Sound.fail_self (h.phase_of_eq hphase nofun fun _ => ⟨nofun, nofun⟩)
  · obtain rfl := Option.some.inj hstep
    exact h.phase_of_eq hphase nofun fun _ => ⟨nofun, nofun⟩
  · obtain rfl := Option.some.inj hstep
    exact h.phase_of_eq hphase nofun fun _ => ⟨nofun, nofun⟩
  · obtain rfl := Option.some.inj hstep
    exact h.connect hphase nofun fun _ => ⟨nofun, nofun⟩
  · obtain rfl := Option.some.inj hstep
    exact h.connectFailed hphase
  · obtain rfl := Option.some.inj hstep
    split_ifs
    · exact h.connectedTo hphase (List.subset_append_left _ _) (.inl List.mem_concat_self)
    · exact h.connectedTo hphase (List.Subset.refl _) (.inr rfl)
  · obtain rfl := Option.some.inj hstep
    exact h.connect hphase nofun fun _ => ⟨nofun, nofun⟩
  · obtain rfl := Option.some.inj hstep
    split_ifs
    · exact h.warm hphase
    · exact h.becomeReady (.inl hphase)
  · obtain rfl := Option.some.inj hstep
    exact h.becomeReady (.inr hphase)
  · obtain rfl := Option.some.inj hstep
    exact Sound.fail_self (h.phase_of_eq hphase nofun fun _ => ⟨nofun, nofun⟩)
  · exact absurd hstep nofun

/-- Each event keeps the invariant. -/
theorem Sound.step (h : Sound worker) {event : WorkerEvent}
    (hstep : workerStep config worker event = some worker') : Sound worker' := by
  unfold workerStep at hstep
  split at hstep
  · split_ifs at hstep
    obtain rfl := Option.some.inj hstep
    exact h.waitReady
  · split_ifs at hstep
    obtain rfl := Option.some.inj hstep
    exact h.abortWait
  · obtain rfl := Option.some.inj hstep
    exact { h with }
  · obtain rfl := Option.some.inj hstep
    split_ifs
    · exact h
    · exact h.fail_self
  · obtain rfl := Option.some.inj hstep
    exact h.noteTrap
  · split_ifs at hstep
    obtain rfl := Option.some.inj hstep
    exact h.acceptFailed
  · exact h.bootStep hstep

/-- The boot starts with nobody waiting and no client. -/
theorem sound_boot {check : BootCheck} : Sound (boot check) := by
  have hstart : ∀ phase, Sound
      { phase, client := none, failed := false, stopped := false, kpsUnsupported := false,
        accepting := false, tunnels := false, cacheTimer := false, readyWaiters := [],
        trapTimes := [], signals := [], asked := [], outcomes := [], connected := [],
        disconnected := [] } := by
    refine fun phase => ⟨fun _ => .inl rfl, fun hfailed => absurd hfailed nofun,
      fun _ => ⟨rfl, List.not_mem_nil⟩, fun hready => absurd hready List.not_mem_nil, fun _ => rfl,
      fun hstopped => absurd hstopped nofun, fun hwaits => absurd rfl hwaits, ?_, ?_⟩
    · exact fun _ hcall => absurd hcall List.not_mem_nil
    · exact fun _ hclient => absurd hclient List.not_mem_nil
  rcases check with _ | _ | _ | _ | _
  · exact hstart .loadingWasm
  all_goals exact Sound.fail_self (hstart .over)

end NoxWorker

/-- **The life of a worker.** In every state of a run: ready was signalled at most once and not
after failure, failure at most once; a call waits only while there is no client and the worker has
neither failed nor stopped, and each call that asked for the client waits or has its answer; no
call waits once the worker was ready or failed; a failed worker with no pending `connect` or
warm-up has disconnected every client that `connect` returned.

All parts are read off one invariant (`NoxWorker.Sound`) that every event keeps. It leaves four
lists of signals there can be, and says where each client that `connect` returned is: in use,
disconnected, or held by a boot step that is not over. -/
theorem worker_life_cycle {config : BootConfig} {check : BootCheck} {worker : NoxWorker}
    (hrun : Run (workerStep config) (.boot check) worker) :
    worker.signals.countP Signal.isReady ≤ 1 ∧
    (worker.signals.countP fun signal => !signal.isReady) ≤ 1 ∧
    (worker.signals.Pairwise fun before after => after.isReady = true → before.isReady = true) ∧
    (worker.readyWaiters ≠ [] →
      worker.client = none ∧ worker.failed = false ∧ worker.stopped = false) ∧
    (∀ call ∈ worker.asked,
      call ∈ worker.readyWaiters ∨ ∃ outcome, (call, outcome) ∈ worker.outcomes) ∧
    (.ready ∈ worker.signals ∨ worker.failed = true → worker.readyWaiters = []) ∧
    (worker.failed = true → worker.phase.pending = false →
      ∀ client ∈ worker.connected, client ∈ worker.disconnected) := by
  have h : worker.Sound := hrun.invariant NoxWorker.sound_boot fun _ _ _ hbefore hstep =>
    hbefore.step hstep
  -- the four lists of signals there can be
  have hsignals : worker.signals = [] ∨ worker.signals = [.ready] ∨ ∃ code message,
      worker.signals = [.failed code message] ∨
        worker.signals = [.ready, .failed code message] := by
    rcases hfailed : worker.failed with _ | _
    · exact (h.signals_open hfailed).imp_right .inl
    · exact .inr (.inr (h.signals_failed hfailed))
  have hrunning : worker.readyWaiters ≠ [] → worker.stopped = false := fun hwaits =>
    Bool.eq_false_iff.mpr fun hstopped =>
      absurd ((h.waiting hwaits).2.symm.trans (h.stopped hstopped)) nofun
  refine ⟨?_, ?_, ?_, fun hwaits => ⟨(h.waiting hwaits).1, (h.waiting hwaits).2, hrunning hwaits⟩,
    h.answered, fun hover => ?_, fun hfailed hpending client hclient => ?_⟩
  · rcases hsignals with hsignals | hsignals | ⟨code, message, hsignals | hsignals⟩ <;>
      simp [hsignals, List.countP_cons, Signal.isReady]
  · rcases hsignals with hsignals | hsignals | ⟨code, message, hsignals | hsignals⟩ <;>
      simp [hsignals, Signal.isReady]
  · rcases hsignals with hsignals | hsignals | ⟨code, message, hsignals | hsignals⟩ <;>
      simp [hsignals, Signal.isReady]
  · by_contra hwaits
    obtain ⟨hclient, hopen⟩ := h.waiting hwaits
    rcases hover with hready | hfailed
    · exact h.ready hready hopen hclient
    · exact absurd (hopen.symm.trans hfailed) nofun
  · rcases h.placed client hclient with hgone | hused | hphase | hphase
    · exact hgone
    · exact absurd ((h.failed hfailed).symm.trans hused) nofun
    all_goals
      rw [hphase] at hpending
      exact absurd hpending nofun

/-! ### A run -/

private def sampleConfig : BootConfig := ⟨true, true, false⟩

/-- A call waits, gets the client that is warm, and traps fail the worker. -/
private def sampleLife : List WorkerEvent :=
  [.wasmLoaded (.ok ()), .tlsLoaded (.ok ()), .cachesRead (.ok ()), .asksReady 1 none,
    .connected (.error (none, "no anchor")), .slept, .connected (.ok 7), .staleVerdict, .resumed,
    .warmed, .trapped 1000, .trapped 2000, .trapped 61000]

/-- A call waits, the worker becomes ready, fails and disconnects its client. -/
theorem worker_life_cycle_sample : ∃ worker,
    runEvents (workerStep sampleConfig) (.boot .passed) sampleLife = some worker ∧
    worker.outcomes = [(1, .ok 7)] ∧ worker.failed = true ∧ ∀ client ∈ worker.connected,
      client ∈ worker.disconnected := by
  obtain ⟨worker, hrun, houtcomes, hfailed, hpending⟩ : ∃ worker,
      runEvents (workerStep sampleConfig) (.boot .passed) sampleLife = some worker ∧
        worker.outcomes = [(1, .ok 7)] ∧ worker.failed = true ∧ worker.phase.pending = false :=
    ⟨_, rfl, rfl, rfl, rfl⟩
  refine ⟨worker, hrun, houtcomes, hfailed, ?_⟩
  exact (worker_life_cycle (run_of_runEvents hrun)).2.2.2.2.2.2 hfailed hpending

end NoxSdk.Worker
