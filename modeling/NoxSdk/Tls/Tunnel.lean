import NoxSdk.Lib.OrderedMap
import NoxSdk.Bincode.TunnelReply

/-!
# The downstream bytes of a tunnel

The reply parts of a tunnel carry pieces of the downstream byte stream, numbered from 0. `accept`
places one: what is contiguous is handed to `deliver`, what lies beyond a gap is held until the gap
closes. `deliver` feeds the TLS session and may throw, in view of what it was handed before.
-/

namespace NoxSdk.Tls

open NoxSdk.Bincode

/-- The fields of a `Tunnel` about the downstream stream, with what `deliver` was handed. -/
structure Downstream where
  contiguous : ℕ
  held : OrderedMap ℕ Bytes
  eofAt : Option ℕ
  ended : Bool
  delivered : List Bytes

/-- A new tunnel has received nothing. -/
def Downstream.start : Downstream := ⟨0, .empty, none, false, []⟩

/-- `deliver`: it may throw, in view of what it was handed before. -/
abbrev Deliver := List Bytes → Bytes → Except Thrown Unit

namespace Downstream

variable (deliver : Deliver) (stream : Downstream)

/-- `push`. -/
def push (bytes : Bytes) : Except Thrown Downstream :=
  if bytes.length = 0 then .ok stream
  else do
    deliver stream.delivered bytes
    return { stream with
      contiguous := stream.contiguous + bytes.length
      delivered := stream.delivered ++ [bytes] }

/-- A held part that no longer lies beyond a gap. -/
def takeHeld (heldOffset : ℕ) (heldData : Bytes) : Except Thrown Downstream :=
  let stream := { stream with held := stream.held.delete heldOffset }
  if stream.contiguous < heldOffset + heldData.length then
    stream.push deliver (heldData.drop (stream.contiguous - heldOffset))
  else .ok stream

/-- One pass over the held parts, and whether it took one. -/
def drainPass : List (ℕ × Bytes) → Downstream → Bool → Except Thrown (Downstream × Bool)
  | [], stream, advanced => .ok (stream, advanced)
  | (heldOffset, heldData) :: rest, stream, advanced =>
    if stream.contiguous < heldOffset then drainPass rest stream advanced
    else do
      let stream ← stream.takeHeld deliver heldOffset heldData
      drainPass rest stream true

/-- The loop over the held parts, in at most so many passes. -/
def drain : ℕ → Downstream → Except Thrown Downstream
  | 0, stream => .ok stream
  | passes + 1, stream => do
    let (stream, advanced) ← drainPass deliver stream.held.entries stream false
    if advanced then drain passes stream else return stream

/-- A part beyond a gap; of two at one offset the longer one is held. -/
def hold (offset : ℕ) (data : Bytes) : Downstream :=
  match stream.held.get? offset with
  | none => { stream with held := stream.held.set offset data }
  | some existing =>
    if existing.length < data.length then
      { stream with held := stream.held.set offset data }
    else stream

/-- `accept`. Each pass of the loop but the last takes a held part. -/
def accept (offset : ℕ) (data : Bytes) : Except Thrown Downstream :=
  if offset + data.length ≤ stream.contiguous then .ok stream
  else if stream.contiguous < offset then .ok (stream.hold offset data)
  else do
    let stream ← stream.push deliver (data.drop (stream.contiguous - offset))
    drain deliver (stream.held.size + 1) stream

/-- The end of the stream that a part gives. -/
def eofOf (part : TunnelPartV1) : Option ℕ :=
  if part.fin = some .eof then some (part.offset + part.data.length) else none

/-- `onPart`, as far as it concerns the stream. -/
def receive (part : TunnelPartV1) : Except Thrown Downstream := do
  let stream ← stream.accept deliver part.offset part.data
  let eofAt := stream.eofAt.or (eofOf part)
  return { stream with
    eofAt
    ended := stream.ended || eofAt.any fun eof => decide (eof ≤ stream.contiguous) }

/-- The parts of a tunnel, as they come. -/
def receiveAll (parts : List TunnelPartV1) : Except Thrown Downstream :=
  parts.foldlM (receive deliver) .start

end Downstream

end NoxSdk.Tls
