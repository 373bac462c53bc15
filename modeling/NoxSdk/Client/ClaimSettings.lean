import NoxSdk.Types
import Mathlib.Algebra.Order.Group.Int
import Mathlib.Algebra.Order.Ring.Int

/-!
# Reply claim settings

`ReplyClaimSettings`, its defaults and `resolveReplyClaimSettings`. Overrides are the own
properties of an object, in order. What it accepts is `Valid`: all numbers but `waitMs` are
positive.
-/

namespace NoxSdk.Client

/-- `ReplyClaimSettings`. -/
structure ReplyClaimSettings where
  intervalMs : ℕ
  claimTimeoutMs : ℕ
  claimTimeoutPerIdMs : ℕ
  maxIdsPerClaim : ℕ
  maxClaimsInFlight : ℕ
  jsonMaxIdsPerClaim : ℕ
  jsonMaxClaimsInFlight : ℕ
  waitMs : ℕ
  binary : Bool
  retain : Bool
  parityFallbackMs : ℕ
  lostReplyGraceMs : ℕ
  firstArrival : Bool
  deriving DecidableEq

/-- `REPLY_CLAIM_DEFAULTS`. -/
def replyClaimDefaults : ReplyClaimSettings where
  intervalMs := 200
  claimTimeoutMs := 10000
  claimTimeoutPerIdMs := 2500
  maxIdsPerClaim := 4
  maxClaimsInFlight := 4
  jsonMaxIdsPerClaim := 1
  jsonMaxClaimsInFlight := 2
  waitMs := 4000
  binary := true
  retain := true
  parityFallbackMs := 2000
  lostReplyGraceMs := 1500
  firstArrival := true

/-- `CLASSIC_REPLY_CLAIM_DEFAULTS`. -/
def classicReplyClaimDefaults : ReplyClaimSettings :=
  { replyClaimDefaults with
    waitMs := 0
    maxIdsPerClaim := 128
    jsonMaxIdsPerClaim := 128
    jsonMaxClaimsInFlight := 4 }

/-- The value of a property. -/
inductive SettingValue
  | undefined
  | boolean (value : Bool)
  | integer (value : ℤ)
  | other

/-- The keys of `REPLY_CLAIM_DEFAULTS`. -/
def settingKeys : List String :=
  ["intervalMs", "claimTimeoutMs", "claimTimeoutPerIdMs", "maxIdsPerClaim", "maxClaimsInFlight",
    "jsonMaxIdsPerClaim", "jsonMaxClaimsInFlight", "waitMs", "binary", "retain",
    "parityFallbackMs", "lostReplyGraceMs", "firstArrival"]

/-- What `in` finds in every object. -/
def objectPrototypeKeys : List String :=
  ["constructor", "__defineGetter__", "__defineSetter__", "hasOwnProperty", "__lookupGetter__",
    "__lookupSetter__", "isPrototypeOf", "propertyIsEnumerable", "toString", "valueOf", "__proto__",
    "toLocaleString"]

namespace ReplyClaimSettings

/-- `settings[key] = value`; a key of the prototype is no field. -/
def setNumber (settings : ReplyClaimSettings) (key : String) (value : ℕ) : ReplyClaimSettings :=
  match key with
  | "intervalMs" => { settings with intervalMs := value }
  | "claimTimeoutMs" => { settings with claimTimeoutMs := value }
  | "claimTimeoutPerIdMs" => { settings with claimTimeoutPerIdMs := value }
  | "maxIdsPerClaim" => { settings with maxIdsPerClaim := value }
  | "maxClaimsInFlight" => { settings with maxClaimsInFlight := value }
  | "jsonMaxIdsPerClaim" => { settings with jsonMaxIdsPerClaim := value }
  | "jsonMaxClaimsInFlight" => { settings with jsonMaxClaimsInFlight := value }
  | "waitMs" => { settings with waitMs := value }
  | "parityFallbackMs" => { settings with parityFallbackMs := value }
  | "lostReplyGraceMs" => { settings with lostReplyGraceMs := value }
  | _ => settings

/-- The same for a boolean. -/
def setBoolean (settings : ReplyClaimSettings) (key : String) (value : Bool) :
    ReplyClaimSettings :=
  match key with
  | "binary" => { settings with binary := value }
  | "retain" => { settings with retain := value }
  | "firstArrival" => { settings with firstArrival := value }
  | _ => settings

/-- The numbers that have to be positive. -/
def positives (settings : ReplyClaimSettings) : List ℕ :=
  [settings.intervalMs, settings.claimTimeoutMs, settings.claimTimeoutPerIdMs,
    settings.maxIdsPerClaim, settings.maxClaimsInFlight, settings.jsonMaxIdsPerClaim,
    settings.jsonMaxClaimsInFlight, settings.parityFallbackMs, settings.lostReplyGraceMs]

/-- The check that the settings pass. -/
def Valid (settings : ReplyClaimSettings) : Prop := ∀ n ∈ settings.positives, 1 ≤ n

instance (settings : ReplyClaimSettings) : Decidable settings.Valid :=
  inferInstanceAs (Decidable (∀ n ∈ settings.positives, 1 ≤ n))

end ReplyClaimSettings

/-- The error of `resolveReplyClaimSettings` on a field. -/
def invalidSetting (message : String) : Thrown := .noxClientError message .invalidConfig

/-- The least number that a field takes. -/
def settingMin (key : String) : ℕ := if key = "waitMs" then 0 else 1

/-- The error on a number. -/
def invalidNumber (key : String) : Thrown :=
  let kind := if settingMin key = 0 then "a non-negative" else "a positive"
  invalidSetting s!"replyClaims.{key} must be {kind} safe integer"

/-- `value` as a safe integer of at least `min`. -/
def SettingValue.number (min : ℕ) : SettingValue → Option ℕ
  | .integer value => if (min : ℤ) ≤ value ∧ value < 2 ^ 53 then some value.toNat else none
  | _ => none

/-- One property of the overrides. -/
def resolveSetting (settings : ReplyClaimSettings) (override : String × SettingValue) :
    Except Thrown ReplyClaimSettings :=
  let (key, value) := override
  if key ∉ settingKeys ∧ key ∉ objectPrototypeKeys then
    .error (invalidSetting s!"{key} is not a reply claim setting")
  else match value with
    | .undefined => .ok settings
    | value =>
      if key ∈ ["binary", "retain", "firstArrival"] then
        match value with
        | .boolean value => .ok (settings.setBoolean key value)
        | _ => .error (invalidSetting s!"replyClaims.{key} must be a boolean")
      else
        match value.number (settingMin key) with
        | some value => .ok (settings.setNumber key value)
        | none => .error (invalidNumber key)

/-- `resolveReplyClaimSettings`. -/
def resolveReplyClaimSettings (overrides : List (String × SettingValue))
    (base : ReplyClaimSettings) : Except Thrown ReplyClaimSettings :=
  overrides.foldlM resolveSetting base

namespace ReplyClaimSettings

theorem valid_setNumber {settings : ReplyClaimSettings} {key : String} {value : ℕ}
    (h : settings.Valid) (hvalue : key ≠ "waitMs" → 1 ≤ value) :
    (settings.setNumber key value).Valid := by
  unfold setNumber
  split <;> simp_all [Valid, positives]

theorem valid_setBoolean {settings : ReplyClaimSettings} {key : String} {value : Bool}
    (h : settings.Valid) : (settings.setBoolean key value).Valid := by
  unfold setBoolean
  split <;> exact h

end ReplyClaimSettings

theorem SettingValue.le_of_number {min n : ℕ} {value : SettingValue}
    (h : value.number min = some n) : min ≤ n := by
  unfold number at h
  split at h
  · split_ifs at h with hrange
    cases h
    exact Int.le_toNat (le_trans (Int.natCast_nonneg min) hrange.1) |>.mpr hrange.1
  · cases h

theorem valid_of_resolveSetting {settings settings' : ReplyClaimSettings}
    {override : String × SettingValue} (h : resolveSetting settings override = .ok settings')
    (hvalid : settings.Valid) : settings'.Valid := by
  unfold resolveSetting at h
  dsimp only at h
  split_ifs at h with hkey hboolean
  all_goals split at h
  · cases h
    exact hvalid
  · split at h <;> cases h
    exact ReplyClaimSettings.valid_setBoolean hvalid
  · cases h
    exact hvalid
  · split at h
    · next value hnumber =>
      cases h
      refine ReplyClaimSettings.valid_setNumber hvalid fun hne => ?_
      rw [settingMin, if_neg hne] at hnumber
      exact SettingValue.le_of_number hnumber
    · cases h

/-- The settings that are accepted pass the check when those they start from do. -/
theorem valid_of_resolveReplyClaimSettings {overrides : List (String × SettingValue)}
    {base settings : ReplyClaimSettings} (hbase : base.Valid)
    (h : resolveReplyClaimSettings overrides base = .ok settings) : settings.Valid := by
  induction overrides generalizing base with
  | nil =>
    cases h
    exact hbase
  | cons override overrides ih =>
    rw [resolveReplyClaimSettings, List.foldlM_cons] at h
    obtain ⟨next, hnext, hrest⟩ := bind_eq_ok_iff.mp h
    exact ih (valid_of_resolveSetting hnext hbase) hrest

theorem valid_replyClaimDefaults : replyClaimDefaults.Valid := by decide

theorem valid_classicReplyClaimDefaults : classicReplyClaimDefaults.Valid := by decide

end NoxSdk.Client
