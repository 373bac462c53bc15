import Mathlib.Tactic.TypeStar
import Mathlib.Data.List.Basic

/-!
# Programs that call their environment

A program calls operations of its environment and goes on with the replies. `Prog` is the type of
such programs, `Prog.run` runs one against an environment, which answers each call as it likes, in
view of all calls before. A run leaves a trace: the calls made with their replies.

`Prog.Yields` is the meaning of a program without its environment: the traces it may leave, with
the result after each. It is closed under the ways to build programs (`yields_perform`,
`yields_bind`, and the same for programs that may stop with an error), so that
what a program does is read off from what its parts do. `Prog.Within` bounds the calls of a
program. `Prog.yields_run` connects both to runs.
-/

namespace NoxSdk.Lib

/-- A program that calls operations of type `Op`, answered by replies of type `Reply op`. -/
inductive Prog (Op : Type) (Reply : Op → Type) (α : Type) : Type
  | pure (a : α)
  | call (op : Op) (next : Reply op → Prog Op Reply α)

namespace Prog

variable {Op : Type} {Reply : Op → Type} {α β : Type}

/-- First one program, then another that depends on its result. -/
def bind : Prog Op Reply α → (α → Prog Op Reply β) → Prog Op Reply β
  | .pure a, f => f a
  | .call op next, f => .call op fun reply => (next reply).bind f

instance : Monad (Prog Op Reply) where
  pure := .pure
  bind := bind

/-- One call, with its reply as the result. -/
def perform (op : Op) : Prog Op Reply (Reply op) := .call op .pure

/-- A call with its reply. -/
abbrev Event (Op : Type) (Reply : Op → Type) := (op : Op) × Reply op

/-- An environment: its reply to a call, given the calls and replies before. -/
abbrev Behaviour (Op : Type) (Reply : Op → Type) := List (Event Op Reply) → (op : Op) → Reply op

/-- A run against an environment, from a trace on: the trace at the end and the result. -/
def run (behaviour : Behaviour Op Reply) :
    Prog Op Reply α → List (Event Op Reply) → List (Event Op Reply) × α
  | .pure a, trace => (trace, a)
  | .call op next, trace =>
    (next (behaviour trace op)).run behaviour (trace ++ [⟨op, behaviour trace op⟩])

/-! ### What a program may do -/

/-- A program may go through these events and end with this result. -/
def Yields : Prog Op Reply α → List (Event Op Reply) → α → Prop
  | .pure a, events, b => events = [] ∧ b = a
  | .call op next, events, b =>
    ∃ reply rest, events = ⟨op, reply⟩ :: rest ∧ (next reply).Yields rest b

variable {events : List (Event Op Reply)} {p : Prog Op Reply α}

/-- An operation yields its one event. -/
theorem yields_perform {op : Op} {reply : Reply op} :
    (perform op).Yields events reply ↔ events = [⟨op, reply⟩] := by
  constructor
  · rintro ⟨reply', rest, rfl, rfl, rfl⟩
    rfl
  · rintro rfl
    exact ⟨reply, [], rfl, rfl, rfl⟩

/-- The events of a sequence are those of its parts. -/
theorem yields_bind {f : α → Prog Op Reply β} {b : β} :
    (p >>= f).Yields events b ↔
      ∃ before a after, p.Yields before a ∧ (f a).Yields after b ∧ events = before ++ after := by
  induction p generalizing events with
  | pure a =>
    constructor
    · exact fun h => ⟨[], a, events, ⟨rfl, rfl⟩, h, rfl⟩
    · rintro ⟨before, a', after, ⟨rfl, rfl⟩, hafter, rfl⟩
      exact hafter
  | call op next ih =>
    constructor
    · rintro ⟨reply, rest, rfl, hrest⟩
      obtain ⟨before, a, after, hbefore, hafter, rfl⟩ := (ih reply).mp hrest
      exact ⟨_ :: before, a, after, ⟨reply, before, rfl, hbefore⟩, hafter, rfl⟩
    · rintro ⟨_, a, after, ⟨reply, before, rfl, hbefore⟩, hafter, rfl⟩
      exact ⟨reply, before ++ after, rfl, (ih reply).mpr ⟨before, a, after, hbefore, hafter, rfl⟩⟩

/-- A function of the result changes no event. -/
theorem yields_map {f : α → β} {b : β} :
    (f <$> p).Yields events b ↔ ∃ a, p.Yields events a ∧ b = f a := by
  change (p >>= fun a => Pure.pure (f a)).Yields events b ↔ _
  rw [yields_bind]
  constructor
  · rintro ⟨before, a, after, hbefore, ⟨rfl, rfl⟩, rfl⟩
    exact ⟨a, (List.append_nil before).symm ▸ hbefore, rfl⟩
  · rintro ⟨a, ha, rfl⟩
    exact ⟨events, a, [], ha, ⟨rfl, rfl⟩, (List.append_nil events).symm⟩

/-- A run is one of the things a program may do. -/
theorem yields_run (behaviour : Behaviour Op Reply) (p : Prog Op Reply α)
    (trace : List (Event Op Reply)) :
    ∃ events, (p.run behaviour trace).1 = trace ++ events ∧
      p.Yields events (p.run behaviour trace).2 := by
  induction p generalizing trace with
  | pure a => exact ⟨[], (List.append_nil _).symm, rfl, rfl⟩
  | call op next ih =>
    obtain ⟨events, htrace, hevents⟩ :=
      ih (behaviour trace op) (trace ++ [⟨op, behaviour trace op⟩])
    refine ⟨⟨op, behaviour trace op⟩ :: events, ?_, _, _, rfl, hevents⟩
    rw [List.append_assoc] at htrace
    exact htrace

/-- What holds of everything a program may do holds of its runs from the empty trace. -/
theorem of_run {behaviour : Behaviour Op Reply} {a : α}
    (h : p.run behaviour [] = (events, a)) : p.Yields events a := by
  obtain ⟨events', htrace, hevents⟩ := yields_run behaviour p []
  rw [h] at htrace hevents
  obtain rfl : events = events' := htrace
  exact hevents

/-- What a program does is settled by the replies: of two of its executions at the front of one
list of events, one is the other. -/
theorem Yields.unique {a b : α} {events' rest rest' : List (Event Op Reply)}
    (h : p.Yields events a) (h' : p.Yields events' b) (heq : events ++ rest = events' ++ rest') :
    events = events' ∧ a = b := by
  induction p generalizing events events' with
  | pure c =>
    obtain ⟨rfl, rfl⟩ := h
    obtain ⟨rfl, rfl⟩ := h'
    exact ⟨rfl, rfl⟩
  | call op next ih =>
    obtain ⟨reply, after, rfl, hnext⟩ := h
    obtain ⟨reply', after', rfl, hnext'⟩ := h'
    obtain ⟨hevent, htail⟩ := List.cons.inj heq
    obtain rfl := eq_of_heq (Sigma.mk.inj hevent).2
    obtain ⟨rfl, hvalue⟩ := ih reply hnext hnext' htail
    exact ⟨rfl, hvalue⟩

/-! ### Programs that may stop with an error -/

section Errors

variable {ε ε' : Type} {r : Except ε α}

/-- A lifted program does not fail. -/
theorem yields_run_lift {r : Except ε α} :
    (liftM p : ExceptT ε (Prog Op Reply) α).run.Yields events r ↔
      ∃ a, p.Yields events a ∧ r = .ok a :=
  yields_map (f := Except.ok)

/-- A sequence stops in its first part, or goes through both. -/
theorem yields_run_bind {x : ExceptT ε (Prog Op Reply) α}
    {f : α → ExceptT ε (Prog Op Reply) β} {r : Except ε β} :
    (x >>= f).run.Yields events r ↔
      (∃ e, x.run.Yields events (.error e) ∧ r = .error e) ∨
      ∃ before a after, x.run.Yields before (.ok a) ∧ (f a).run.Yields after r ∧
        events = before ++ after := by
  change (x.run >>= ExceptT.bindCont f).Yields events r ↔ _
  rw [yields_bind]
  constructor
  · rintro ⟨before, a | a, after, hbefore, hafter, rfl⟩
    · obtain ⟨rfl, rfl⟩ := hafter
      exact .inl ⟨a, (List.append_nil before).symm ▸ hbefore, rfl⟩
    · exact .inr ⟨before, a, after, hbefore, hafter, rfl⟩
  · rintro (⟨e, he, rfl⟩ | ⟨before, a, after, hbefore, hafter, rfl⟩)
    · exact ⟨events, .error e, [], he, ⟨rfl, rfl⟩, (List.append_nil events).symm⟩
    · exact ⟨before, .ok a, after, hbefore, hafter, rfl⟩

/-- A sequence returns only through a first part that returns. -/
theorem yields_run_bind_ok {x : ExceptT ε (Prog Op Reply) α}
    {f : α → ExceptT ε (Prog Op Reply) β} {b : β} :
    (x >>= f).run.Yields events (.ok b) ↔
      ∃ before a after, x.run.Yields before (.ok a) ∧ (f a).run.Yields after (.ok b) ∧
        events = before ++ after := by
  rw [yields_run_bind]
  constructor
  · rintro (⟨e, -, h⟩ | h)
    · cases h
    · exact h
  · exact .inr

/-- A part that cannot stop. -/
theorem yields_run_lift_bind {p : Prog Op Reply α} {f : α → ExceptT ε (Prog Op Reply) β}
    {r : Except ε β} :
    ((liftM p : ExceptT ε (Prog Op Reply) α) >>= f).run.Yields events r ↔
      ∃ before a after, p.Yields before a ∧ (f a).run.Yields after r ∧
        events = before ++ after := by
  rw [yields_run_bind]
  constructor
  · rintro (⟨e, he, -⟩ | ⟨before, a, after, hbefore, hafter, rfl⟩)
    · obtain ⟨a, -, h⟩ := yields_run_lift.mp he
      cases h
    · obtain ⟨a', ha', h⟩ := yields_run_lift.mp hbefore
      cases h
      exact ⟨before, a, after, ha', hafter, rfl⟩
  · rintro ⟨before, a, after, hbefore, hafter, rfl⟩
    exact .inr ⟨before, a, after, yields_run_lift.mpr ⟨a, hbefore, rfl⟩, hafter, rfl⟩

/-- Two programs that both run to their end; the error of the first comes first. -/
def both (x : ExceptT ε (Prog Op Reply) α) (y : ExceptT ε (Prog Op Reply) β) :
    ExceptT ε (Prog Op Reply) (α × β) :=
  ExceptT.mk (x.run >>= fun a => y.run >>= fun b =>
    Pure.pure (a.bind fun a => b.map fun b => (a, b)))

/-- The second program runs whatever became of the first, and the first failure is the one that
counts. -/
theorem yields_run_both {x : ExceptT ε (Prog Op Reply) α} {y : ExceptT ε (Prog Op Reply) β}
    {r : Except ε (α × β)} :
    (both x y).run.Yields events r ↔
      ∃ first a second b, x.run.Yields first a ∧ y.run.Yields second b ∧
        events = first ++ second ∧ r = a.bind fun a => b.map fun b => (a, b) := by
  change (x.run >>= _).Yields events r ↔ _
  rw [yields_bind]
  constructor
  · rintro ⟨first, a, rest, hfirst, hrest, rfl⟩
    obtain ⟨second, b, last, hsecond, ⟨rfl, rfl⟩, rfl⟩ := yields_bind.mp hrest
    exact ⟨first, a, second, b, hfirst, hsecond, by rw [List.append_nil], rfl⟩
  · rintro ⟨first, a, second, b, hfirst, hsecond, rfl, rfl⟩
    refine ⟨first, a, second, hfirst, yields_bind.mpr ?_, rfl⟩
    exact ⟨second, b, [], hsecond, ⟨rfl, rfl⟩, (List.append_nil second).symm⟩

/-- Both programs returned. -/
theorem yields_run_both_ok {x : ExceptT ε (Prog Op Reply) α} {y : ExceptT ε (Prog Op Reply) β}
    {a : α} {b : β} :
    (both x y).run.Yields events (.ok (a, b)) ↔
      ∃ first second, x.run.Yields first (.ok a) ∧ y.run.Yields second (.ok b) ∧
        events = first ++ second := by
  rw [yields_run_both]
  constructor
  · rintro ⟨first, a' | a', second, b' | b', hx, hy, rfl, h⟩
    · cases h
    · cases h
    · cases h
    · cases h
      exact ⟨first, second, hx, hy, rfl⟩
  · rintro ⟨first, second, hx, hy, rfl⟩
    exact ⟨first, _, second, _, hx, hy, rfl, rfl⟩

/-- Every error that a program may stop with has the property. -/
def Stops (P : ε → Prop) (x : ExceptT ε (Prog Op Reply) α) : Prop :=
  ∀ events e, x.run.Yields events (.error e) → P e

variable {P : ε → Prop}

/-- A result is no failure. -/
theorem stops_pure {a : α} : Stops P (Pure.pure a : ExceptT ε (Prog Op Reply) α) := by
  rintro events e ⟨-, h⟩
  cases h

/-- A failure is of the kind that is thrown. -/
theorem stops_throw {e : ε} (h : P e) : Stops P (throw e : ExceptT ε (Prog Op Reply) α) := by
  rintro events e' ⟨-, he⟩
  cases he
  exact h

/-- A lifted program does not fail. -/
theorem stops_lift {p : Prog Op Reply α} :
    Stops P (liftM p : ExceptT ε (Prog Op Reply) α) := by
  intro events e h
  obtain ⟨a, -, ha⟩ := yields_run_lift.mp h
  cases ha

/-- A sequence fails in one of the ways of its parts. -/
theorem Stops.bind {x : ExceptT ε (Prog Op Reply) α} {f : α → ExceptT ε (Prog Op Reply) β}
    (hx : Stops P x) (hf : ∀ a, Stops P (f a)) : Stops P (x >>= f) := by
  intro events e h
  rcases yields_run_bind.mp h with ⟨e', he', heq⟩ | ⟨before, a, after, -, hafter, -⟩
  · cases heq
    exact hx _ _ he'
  · exact hf a _ _ hafter

end Errors

/-! ### Bounding the calls -/

/-- Every call a program may make satisfies the bound. -/
def Within (bound : Op → Prop) : Prog Op Reply α → Prop
  | .pure _ => True
  | .call op next => bound op ∧ ∀ reply, (next reply).Within bound

variable {bound bound' : Op → Prop}

/-- An operation is within the bound that it meets. -/
theorem within_perform {op : Op} (h : bound op) : (perform op : Prog Op Reply _).Within bound :=
  ⟨h, fun _ => trivial⟩

/-- A sequence performs what its parts perform. -/
theorem Within.bind {f : α → Prog Op Reply β} (hp : p.Within bound)
    (hf : ∀ a, (f a).Within bound) : (p >>= f).Within bound := by
  induction p with
  | pure a => exact hf a
  | call op next ih => exact ⟨hp.1, fun reply => ih reply (hp.2 reply)⟩

/-- So does a sequence that a failure may end. -/
theorem Within.run_bind {ε : Type} {x : ExceptT ε (Prog Op Reply) α}
    {f : α → ExceptT ε (Prog Op Reply) β} (hx : x.run.Within bound)
    (hf : ∀ a, (f a).run.Within bound) : (x >>= f).run.Within bound := by
  refine Within.bind (f := ExceptT.bindCont f) hx fun r => ?_
  cases r with
  | error e => exact trivial
  | ok a => exact hf a

/-- A function of the result performs nothing. -/
theorem Within.map {f : α → β} (hp : p.Within bound) : (f <$> p).Within bound :=
  Within.bind (p := p) hp fun _ => trivial

/-- Two programs beside each other perform what each performs. -/
theorem Within.both {ε : Type} {x : ExceptT ε (Prog Op Reply) α}
    {y : ExceptT ε (Prog Op Reply) β} (hx : x.run.Within bound) (hy : y.run.Within bound) :
    (Prog.both x y).run.Within bound :=
  Within.bind (p := x.run) hx fun _ => Within.bind (p := y.run) hy fun _ => trivial

/-- Each event of a program is of an operation within the bound. -/
theorem Within.of_yields {a : α} (hp : p.Within bound) (h : p.Yields events a) :
    ∀ event ∈ events, bound event.1 := by
  induction p generalizing events with
  | pure b =>
    obtain ⟨rfl, -⟩ := h
    exact fun event hevent => absurd hevent List.not_mem_nil
  | call op next ih =>
    obtain ⟨reply, rest, rfl, hrest⟩ := h
    intro event hevent
    rcases List.mem_cons.mp hevent with rfl | hlater
    · exact hp.1
    · exact ih reply (hp.2 reply) hrest event hlater

/-! ### Guarantees of calls -/

/-- Every call of a trace keeps a guarantee, which may look at the trace before it. -/
def Guaranteed (guarantee : List (Event Op Reply) → Op → Prop)
    (trace : List (Event Op Reply)) : Prop :=
  ∀ before op reply after, trace = before ++ ⟨op, reply⟩ :: after → guarantee before op

variable {guarantee : List (Event Op Reply) → Op → Prop} {trace : List (Event Op Reply)}

/-- A trace goes on with calls that keep the guarantee. -/
theorem Guaranteed.append (h : Guaranteed guarantee trace)
    (hevents : ∀ before op reply after, events = before ++ ⟨op, reply⟩ :: after →
      guarantee (trace ++ before) op) : Guaranteed guarantee (trace ++ events) := by
  intro before op reply after hsplit
  rcases List.append_eq_append_iff.mp hsplit with ⟨part, rfl, hpart⟩ | ⟨part, rfl, hpart⟩
  · exact hevents part op reply after hpart
  · cases part with
    | nil =>
      have hlast := hevents [] op reply after hpart.symm
      rwa [List.append_nil, List.append_nil] at hlast
    | cons head part =>
      obtain ⟨rfl, -⟩ := List.cons.inj hpart
      exact h before op reply part rfl

/-- One more event is guaranteed by what came before. -/
theorem Guaranteed.snoc {op : Op} {reply : Reply op} (h : Guaranteed guarantee trace)
    (hop : guarantee trace op) : Guaranteed guarantee (trace ++ [⟨op, reply⟩]) := by
  refine h.append fun before op' reply' after hsplit => ?_
  cases before with
  | nil =>
    obtain ⟨rfl, -⟩ := Sigma.mk.inj (List.cons.inj hsplit).1
    rwa [List.append_nil]
  | cons head before => simp at hsplit

end Prog

end NoxSdk.Lib
