import Mathlib.Data.List.Forall2
import Mathlib.Data.Nat.Notation
import Mathlib.Tactic.TypeStar

/-!
# Errors and bytes

The error vocabulary of the client (`types.ts`) and the byte strings every layer above
shares. A `Uint8Array` is the list of its bytes; a value thrown by the code is a
`NoxClientError` or a `NoxKpsError` with its code, or a plain `Error`.
-/

namespace NoxSdk

/-- The contents of a `Uint8Array`. -/
abbrev Bytes := List UInt8

/-- `NoxClientErrorCode`. -/
inductive NoxClientErrorCode
  | topologyFetchFailed
  | topologyVerificationFailed
  | noNodesAvailable
  | packetBuildFailed
  | transportFailed
  | responseTimeout
  | decryptionFailed
  | wasmNotInitialized
  | invalidConfig
  | paidExitUnavailable
  | surbV2Unavailable
  | kpsUnavailable
  | modeViolation
  | topologyStale
  | aborted
  | responseTooLarge
  deriving DecidableEq, Repr

/-- The wire name of a code: the value of the enum member. -/
def NoxClientErrorCode.value : NoxClientErrorCode → String
  | topologyFetchFailed => "TOPOLOGY_FETCH_FAILED"
  | topologyVerificationFailed => "TOPOLOGY_VERIFICATION_FAILED"
  | noNodesAvailable => "NO_NODES_AVAILABLE"
  | packetBuildFailed => "PACKET_BUILD_FAILED"
  | transportFailed => "TRANSPORT_FAILED"
  | responseTimeout => "RESPONSE_TIMEOUT"
  | decryptionFailed => "DECRYPTION_FAILED"
  | wasmNotInitialized => "WASM_NOT_INITIALIZED"
  | invalidConfig => "INVALID_CONFIG"
  | paidExitUnavailable => "PAID_EXIT_UNAVAILABLE"
  | surbV2Unavailable => "SURB_V2_UNAVAILABLE"
  | kpsUnavailable => "KPS_UNAVAILABLE"
  | modeViolation => "MODE_VIOLATION"
  | topologyStale => "TOPOLOGY_STALE"
  | aborted => "ABORTED"
  | responseTooLarge => "RESPONSE_TOO_LARGE"

/-- `KpsErrorCode`. -/
inductive KpsErrorCode
  | cancelled
  | closed
  | reset
  | timeout
  | networkError
  | protocolError
  | unsupported
  | tooLarge
  | queueFull
  | permissionDenied
  | internalError
  deriving DecidableEq, Repr

/-- A value thrown by the code: a `NoxClientError`, a `NoxKpsError` or a plain `Error`. -/
inductive Thrown
  | noxClientError (message : String) (code : NoxClientErrorCode)
  | noxKpsError (message : String) (code : KpsErrorCode)
  | error (message : String)
  deriving DecidableEq, Repr

/-- `error.message`. -/
def Thrown.message : Thrown → String
  | noxClientError message _ => message
  | noxKpsError message _ => message
  | error message => message

/-! ### Results -/

section Results

universe u

variable {ε : Type*} {α β : Type u}

@[simp]
theorem ok_bind (a : α) (f : α → Except ε β) : (Except.ok a >>= f) = f a := rfl

@[simp]
theorem error_bind (e : ε) (f : α → Except ε β) : (Except.error e >>= f) = Except.error e := rfl

@[simp]
theorem throw_eq_error (e : ε) : (throw e : Except ε α) = Except.error e := rfl

@[simp]
theorem pure_eq_ok (a : α) : (pure a : Except ε α) = Except.ok a := rfl

/-- A sequence returns only through a first part that returns. -/
theorem bind_eq_ok_iff {x : Except ε α} {f : α → Except ε β} {b : β} :
    (x >>= f) = .ok b ↔ ∃ a, x = .ok a ∧ f a = .ok b := by
  cases x with
  | error e => simp
  | ok a => simp

theorem toOption_eq_some_iff {x : Except ε α} {a : α} : x.toOption = some a ↔ x = .ok a := by
  cases x with
  | error e => simp [Except.toOption]
  | ok b => simp [Except.toOption]

/-- A traversal returns when every step returns. -/
theorem exists_mapM_ok {f : α → Except ε β} {xs : List α} (h : ∀ x ∈ xs, ∃ y, f x = .ok y) :
    ∃ ys, xs.mapM f = .ok ys := by
  induction xs with
  | nil => exact ⟨[], rfl⟩
  | cons x xs ih =>
    obtain ⟨y, hy⟩ := h x List.mem_cons_self
    obtain ⟨ys, hys⟩ := ih fun x' hx' => h x' (List.mem_cons_of_mem _ hx')
    exact ⟨y :: ys, by simp [List.mapM_cons, hy, hys]⟩

/-- A traversal returns the results of its steps. -/
theorem mapM_eq_ok_iff {f : α → Except ε β} {xs : List α} {ys : List β} :
    xs.mapM f = .ok ys ↔ List.Forall₂ (fun x y => f x = .ok y) xs ys := by
  induction xs generalizing ys with
  | nil => simp [eq_comm]
  | cons x xs ih =>
    rw [List.mapM_cons, bind_eq_ok_iff, List.forall₂_cons_left_iff]
    refine exists_congr fun y => ?_
    rw [bind_eq_ok_iff]
    constructor
    · rintro ⟨hy, ys', hys', hout⟩
      exact ⟨ys', hy, ih.mp hys', (Except.ok.inj hout).symm⟩
    · rintro ⟨ys', hy, hys', rfl⟩
      exact ⟨hy, ys', ih.mpr hys', rfl⟩

end Results

end NoxSdk
