import Mathlib.Logic.Relation

/-!
# Runs of a step function

A system is a step function from a state and an event to the next state, `none` where the event
cannot happen. `RunWhen` is any number of steps whose events meet a condition on the state they
happen in, `Run` any number of steps; `RunWhen.invariant` is the induction over them.
`runEvents` computes the run of a list of events; with a step that is `checked` first, it is a run
under the condition.
-/

namespace NoxSdk.Lib

variable {State Event : Type*} {step : State → Event → Option State}
  {condition : State → Event → Prop} {s s' s'' : State}

/-- A step whose event meets the condition. -/
def NextWhen (step : State → Event → Option State) (condition : State → Event → Prop)
    (s s' : State) : Prop :=
  ∃ event, condition s event ∧ step s event = some s'

/-- Any number of steps whose events meet the condition. -/
def RunWhen (step : State → Event → Option State) (condition : State → Event → Prop) :
    State → State → Prop :=
  Relation.ReflTransGen (NextWhen step condition)

/-- Any number of steps. -/
def Run (step : State → Event → Option State) : State → State → Prop :=
  RunWhen step fun _ _ => True

/-- The run of a list of events; `none` when one of them cannot happen. -/
def runEvents (step : State → Event → Option State) (s : State) (events : List Event) :
    Option State :=
  events.foldlM step s

/-- What holds at the start and is kept by every step of a run holds at its end. -/
@[elab_as_elim]
theorem RunWhen.invariant {Inv : State → Prop} (hrun : RunWhen step condition s s') (hs : Inv s)
    (hstep : ∀ s event s', Inv s → condition s event → step s event = some s' → Inv s') :
    Inv s' := by
  induction hrun with
  | refl => exact hs
  | tail _ hnext ih =>
    obtain ⟨event, hcondition, hnext⟩ := hnext
    exact hstep _ event _ ih hcondition hnext

@[elab_as_elim]
theorem Run.invariant {Inv : State → Prop} (hrun : Run step s s') (hs : Inv s)
    (hstep : ∀ s event s', Inv s → step s event = some s' → Inv s') : Inv s' :=
  RunWhen.invariant hrun hs fun s event s' hinv _ => hstep s event s' hinv

theorem Run.refl : Run step s s := Relation.ReflTransGen.refl

theorem Run.tail {event : Event} (hrun : Run step s s') (hstep : step s' event = some s'') :
    Run step s s'' :=
  Relation.ReflTransGen.tail hrun ⟨event, trivial, hstep⟩

/-- A run under a condition is a run. -/
theorem RunWhen.run (hrun : RunWhen step condition s s') : Run step s s' :=
  hrun.invariant Run.refl fun _ _ _ hbefore _ hstep => hbefore.tail hstep

theorem runEvents_nil : runEvents step s [] = some s' ↔ s = s' := Option.some_inj

theorem runEvents_cons {event : Event} {events : List Event} :
    runEvents step s (event :: events) = some s'' ↔
      ∃ s', step s event = some s' ∧ runEvents step s' events = some s'' := by
  rw [runEvents, List.foldlM_cons]
  exact Option.bind_eq_some_iff

/-- A list of events that meet the condition in every state is a run under the condition. -/
theorem runWhen_of_runEvents {events : List Event}
    (hevents : ∀ event ∈ events, ∀ s, condition s event)
    (h : runEvents step s events = some s') : RunWhen step condition s s' := by
  induction events generalizing s with
  | nil =>
    obtain rfl := runEvents_nil.mp h
    exact .refl
  | cons event events ih =>
    obtain ⟨next, hnext, hrest⟩ := runEvents_cons.mp h
    have hfirst : condition s event := hevents event List.mem_cons_self s
    exact .head ⟨event, hfirst, hnext⟩
      (ih (fun other hother => hevents other (List.mem_cons_of_mem _ hother)) hrest)

/-- A step that looks at the condition first. -/
def checked (step : State → Event → Option State) (condition : State → Event → Prop)
    [DecidableRel condition] (s : State) (event : Event) : Option State :=
  if condition s event then step s event else none

/-- A list of events that meet the condition, each in the state that it happens in, is a run under
the condition. -/
theorem runWhen_of_checked [DecidableRel condition] {events : List Event}
    (h : runEvents (checked step condition) s events = some s') : RunWhen step condition s s' := by
  induction events generalizing s with
  | nil =>
    obtain rfl := runEvents_nil.mp h
    exact .refl
  | cons event events ih =>
    obtain ⟨next, hnext, hrest⟩ := runEvents_cons.mp h
    rw [checked] at hnext
    obtain ⟨hcondition, hnext⟩ := Option.ite_none_right_eq_some.mp hnext
    exact .head ⟨event, hcondition, hnext⟩ (ih hrest)

/-- What is kept by every step, for the events so far and the state they lead to, is kept by the
events of a run. -/
theorem runEvents_invariant {Inv : List Event → State → Prop} {past events : List Event}
    (h : runEvents step s events = some s') (hs : Inv past s)
    (hstep : ∀ past s event s', Inv past s → step s event = some s' → Inv (past ++ [event]) s') :
    Inv (past ++ events) s' := by
  induction events generalizing s past with
  | nil =>
    obtain rfl := runEvents_nil.mp h
    exact (List.append_nil past).symm ▸ hs
  | cons event events ih =>
    obtain ⟨next, hnext, hrest⟩ := runEvents_cons.mp h
    rw [List.append_cons]
    exact ih hrest (hstep past s event next hs hnext)

/-- A list of events is a run. -/
theorem run_of_runEvents {events : List Event} (h : runEvents step s events = some s') :
    Run step s s' :=
  runWhen_of_runEvents (fun _ _ _ => trivial) h

end NoxSdk.Lib
