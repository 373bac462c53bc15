import NoxSdk.Tls.Exchange

/-!
# What an exchange delivers

`deliver` is handed one piece after the other, and an event that leaves a stream behind has not
made it throw: the pieces that are added to what was delivered were all taken (`Fed`).
-/

namespace NoxSdk.Tls

open NoxSdk.Bincode

/-- `deliver` took the pieces that are in the second list and not yet in the first. -/
def Fed (deliver : Deliver) : List Bytes → List Bytes → Prop :=
  Relation.ReflTransGen fun delivered delivered' =>
    ∃ bytes, deliver delivered bytes = .ok () ∧ delivered' = delivered ++ [bytes]

namespace Downstream

variable {deliver : Deliver} {stream stream' : Downstream}

/-- A push delivers its bytes, or nothing. -/
theorem fed_push {bytes : Bytes} (h : stream.push deliver bytes = .ok stream') :
    Fed deliver stream.delivered stream'.delivered := by
  rw [Downstream.push] at h
  split_ifs at h
  · obtain rfl := Except.ok.inj h
    exact .refl
  · obtain ⟨_, hdeliver, h⟩ := bind_eq_ok_iff.mp h
    obtain rfl := Except.ok.inj h
    exact .single ⟨bytes, hdeliver, rfl⟩

/-- A held part is delivered where its turn has come. -/
theorem fed_takeHeld {heldOffset : ℕ} {heldData : Bytes}
    (h : stream.takeHeld deliver heldOffset heldData = .ok stream') :
    Fed deliver stream.delivered stream'.delivered := by
  rw [Downstream.takeHeld] at h
  dsimp only at h
  split_ifs at h
  · have hpush := fed_push h
    exact hpush
  · obtain rfl := Except.ok.inj h
    exact .refl

/-- A pass over the held parts delivers some of them. -/
theorem fed_drainPass {todo : List (ℕ × Bytes)} {advanced taken : Bool}
    (h : drainPass deliver todo stream advanced = .ok (stream', taken)) :
    Fed deliver stream.delivered stream'.delivered := by
  induction todo generalizing stream advanced with
  | nil =>
    obtain ⟨rfl, -⟩ := Prod.mk.inj (Except.ok.inj h)
    exact .refl
  | cons entry rest ih =>
    rw [Downstream.drainPass] at h
    split_ifs at h
    · exact ih h
    · obtain ⟨next, htake, h⟩ := bind_eq_ok_iff.mp h
      exact (fed_takeHeld htake).trans (ih h)

/-- So do passes in turn. -/
theorem fed_drain {passes : ℕ} (h : drain deliver passes stream = .ok stream') :
    Fed deliver stream.delivered stream'.delivered := by
  induction passes generalizing stream with
  | zero =>
    obtain rfl := Except.ok.inj h
    exact .refl
  | succ passes ih =>
    obtain ⟨⟨next, advanced⟩, hpass, h⟩ := bind_eq_ok_iff.mp h
    refine (fed_drainPass hpass).trans ?_
    dsimp only at h
    split_ifs at h
    · exact ih h
    · obtain rfl := Except.ok.inj h
      exact .refl

/-- A part that is held is not delivered. -/
theorem hold_delivered (offset : ℕ) (data : Bytes) :
    (stream.hold offset data).delivered = stream.delivered := by
  rw [hold]
  split
  · rfl
  · split_ifs <;> rfl

/-- A part is delivered or held. -/
theorem fed_accept {offset : ℕ} {data : Bytes}
    (h : stream.accept deliver offset data = .ok stream') :
    Fed deliver stream.delivered stream'.delivered := by
  rw [Downstream.accept] at h
  split_ifs at h
  · obtain rfl := Except.ok.inj h
    exact .refl
  · obtain rfl := Except.ok.inj h
    rw [hold_delivered]
    exact .refl
  · obtain ⟨next, hpush, h⟩ := bind_eq_ok_iff.mp h
    exact (fed_push hpush).trans (fed_drain h)

/-- So is a part with its fin. -/
theorem fed_receive {part : TunnelPartV1} (h : stream.receive deliver part = .ok stream') :
    Fed deliver stream.delivered stream'.delivered := by
  obtain ⟨next, haccept, h⟩ := bind_eq_ok_iff.mp h
  obtain rfl := Except.ok.inj h
  have hfed := fed_accept haccept
  exact hfed

end Downstream

/-! ### The stream of an exchange -/

namespace Exchange

variable {tunnel : Tunnel} {spec : ExchangeSpec} {seq : ℕ} {env : ExchangeEnv}
  {exchange exchange' : Exchange}

/-- The end of an exchange delivers nothing. -/
theorem finish_stream (outcome : Except TunnelError ExchangeOutcome) :
    (exchange.finish outcome).stream = exchange.stream := by
  rw [finish]
  split_ifs <;> rfl

/-- Sending a copy delivers nothing. -/
theorem send_stream : (exchange.send tunnel spec seq env).stream = exchange.stream := by
  rw [send]
  split_ifs
  · rfl
  · exact finish_stream _
  · dsimp only
    split
    · exact finish_stream _
    · rfl

/-- A copy sent for time delivers nothing. -/
theorem timedCopy_stream : (exchange.timedCopy tunnel spec seq env).stream = exchange.stream := by
  rw [timedCopy]
  split_ifs
  · rfl
  · rfl
  · exact send_stream

/-- A copy that could not be sent delivers nothing. -/
theorem onCopyFailed_stream :
    (exchange.onCopyFailed tunnel spec seq env).stream = exchange.stream := by
  rw [onCopyFailed]
  split_ifs
  · exact timedCopy_stream
  · rfl

/-- What follows a part delivers nothing more. -/
theorem afterPart_stream (fin : Option TunnelFinV1) :
    (exchange.afterPart tunnel spec seq env fin).stream = exchange.stream := by
  have hwatch : (exchange.watchGap tunnel).stream = exchange.stream := by
    rw [watchGap]
    split_ifs <;> rfl
  rw [afterPart]
  split_ifs
  · exact send_stream.trans hwatch
  · exact hwatch

/-- An exchange starts with the stream that it is given. -/
theorem start_stream {stream : Downstream} :
    (start tunnel spec seq env stream).stream = stream := by
  rw [start]
  dsimp only
  split
  · exact finish_stream _
  · exact send_stream
  · exact send_stream

/-- The stream that a part leaves, whatever is made of it then. -/
theorem onData_stream (part : TunnelPartV1) (satisfied : Bool) :
    (exchange.onData tunnel spec seq env part satisfied).1.stream =
      match exchange.stream.receive tunnel.deliver part with
      | .ok stream => stream
      | .error _ => exchange.stream := by
  rw [onData]
  cases exchange.stream.receive tunnel.deliver part with
  | error error => exact finish_stream _
  | ok stream =>
    dsimp only
    split_ifs
    · exact finish_stream _
    · exact finish_stream _
    · exact afterPart_stream _

/-- The stream does not depend on whether the exchange is satisfied. -/
theorem onPart_stream (body : Bytes) (satisfied satisfied' : Bool) :
    (exchange.onPart tunnel spec seq env body satisfied).1.stream =
      (exchange.onPart tunnel spec seq env body satisfied').1.stream := by
  rw [onPart, onPart]
  split_ifs
  · rfl
  · split
    · rfl
    · dsimp only
      split_ifs
      · rfl
      · split
        · rfl
        · rw [onData_stream, onData_stream]

/-- A reply delivers the part that it carries, and nothing else. -/
theorem fed_onPart (body : Bytes) (satisfied : Bool) : Fed tunnel.deliver
    exchange.stream.delivered
      (exchange.onPart tunnel spec seq env body satisfied).1.stream.delivered := by
  rw [onPart]
  split_ifs
  · exact .refl
  · split
    · rw [finish_stream]
      exact .refl
    · dsimp only
      split_ifs
      · exact .refl
      · split
        · rw [finish_stream]
          exact .refl
        · rw [onData_stream]
          split
          · rename_i hreceive
            exact Downstream.fed_receive hreceive
          · exact .refl

/-- Whatever happens to an exchange, `deliver` took what it adds to what was delivered. -/
theorem fed_step {event : ExchangeEvent}
    (h : exchangeStep tunnel spec seq exchange event = some exchange') :
    Fed tunnel.deliver exchange.stream.delivered exchange'.stream.delivered := by
  rcases event with ⟨body, satisfied, env⟩ | env | env | env | _ | _ | reason
  · obtain rfl := Option.some.inj h
    exact fed_onPart body satisfied
  · obtain rfl := Option.some.inj h
    rw [onCopyFailed_stream]
    exact .refl
  · obtain ⟨_, -, rfl⟩ := Option.map_eq_some_iff.mp h
    rw [timedCopy_stream]
    exact .refl
  · obtain ⟨_, -, rfl⟩ := Option.map_eq_some_iff.mp h
    dsimp only
    split_ifs
    · rw [timedCopy_stream]
      exact .refl
    · exact .refl
  · obtain ⟨afterMs, -, rfl⟩ := Option.map_eq_some_iff.mp h
    dsimp only
    split_ifs
    · exact .refl
    · rw [finish_stream]
      exact .refl
  · obtain ⟨_, -, rfl⟩ := Option.map_eq_some_iff.mp h
    rw [finish_stream]
    exact .refl
  · rw [exchangeStep] at h
    split_ifs at h
    obtain rfl := Option.some.inj h
    rw [onAbort, finish_stream]
    exact .refl

end Exchange

end NoxSdk.Tls
