import Mathlib.Algebra.Order.Ring.Int
import Mathlib.Tactic.Ring
import NoxSdk.Paid.Gas

/-!
# What the planned gas cap is good for

`planPaidGas` rounds up twice: the data fee of the envelope, and the product of both limits with
the buffer of the exit and the headroom of the cap. The exit later multiplies its own estimate
with its buffer and rounds up once more (`exitGasLimit`). An estimate that stays in the headroom
keeps that limit at or below the cap, the cap never falls below what the entry point needs, and
it grows with every input.
-/

namespace NoxSdk.Paid

/-! ### Rounding up -/

/-- A division that rounds towards zero is one that rounds down, above zero. -/
theorem ceilDiv_eq_ediv {numerator denominator : ℤ} (hn : 0 ≤ numerator) (hd : 0 < denominator) :
    ceilDiv numerator denominator = (numerator + denominator - 1) / denominator :=
  Int.tdiv_eq_ediv_of_nonneg (by omega)

/-- The quotient covers its numerator. -/
theorem le_ceilDiv_mul {numerator denominator : ℤ} (hn : 0 ≤ numerator)
    (hd : 0 < denominator) : numerator ≤ ceilDiv numerator denominator * denominator := by
  rw [ceilDiv_eq_ediv hn hd]
  have hlt := Int.lt_ediv_add_one_mul_self (numerator + denominator - 1) hd
  rw [Int.add_mul] at hlt
  omega

/-- It is the least number that does, among those that are not negative. -/
theorem ceilDiv_le {numerator denominator bound : ℤ} (hd : 0 < denominator) (hb : 0 ≤ bound)
    (h : numerator ≤ bound * denominator) : ceilDiv numerator denominator ≤ bound := by
  rw [ceilDiv]
  rcases lt_or_ge (numerator + denominator - 1) 0 with hneg | hpos
  · have hflip := Int.tdiv_nonneg (Int.neg_nonneg_of_nonpos hneg.le) hd.le
    rw [Int.neg_tdiv] at hflip
    omega
  · rw [Int.tdiv_eq_ediv_of_nonneg hpos]
    refine Int.lt_add_one_iff.mp (Int.ediv_lt_of_lt_mul hd ?_)
    rw [Int.add_mul]
    omega

/-- The rounded quotient is not negative. -/
theorem ceilDiv_nonneg {numerator denominator : ℤ} (hn : 0 ≤ numerator) (hd : 0 < denominator) :
    0 ≤ ceilDiv numerator denominator := by
  rw [ceilDiv_eq_ediv hn hd]
  exact Int.ediv_nonneg (by omega) hd.le

/-- A larger numerator has no smaller quotient. -/
theorem ceilDiv_mono {small large denominator : ℤ} (hn : 0 ≤ small) (hd : 0 < denominator)
    (h : small ≤ large) : ceilDiv small denominator ≤ ceilDiv large denominator :=
  ceilDiv_le hd (ceilDiv_nonneg (hn.trans h) hd) (h.trans (le_ceilDiv_mul (hn.trans h) hd))

/-! ### The numbers of a plan -/

namespace PaidGasPlanInput

variable (input : PaidGasPlanInput)

/-- `exitGasBufferBps` with its default. -/
def exitBuffer : ℕ := input.exitGasBufferBps.getD defaults.exitGasBufferBps

/-- `capHeadroomBps` with its default. -/
def capHeadroom : ℕ := input.capHeadroomBps.getD defaults.capHeadroomBps

/-- `dataFeeHeadroomBps` with its default. -/
def dataFeeHeadroom : ℕ := input.dataFeeHeadroomBps.getD defaults.dataFeeHeadroomBps

/-- What the entry point requires. -/
def boundedGas : ℤ := input.paymentGasLimit + input.actionGasLimit + entryPointGasReserve

/-- What the transaction costs around it. -/
def envelopeGas : ℤ :=
  transactionBaseGas + input.calldataGas +
    ceilDiv (input.dataFeeGas.getD 0 * (bpsUnit + input.dataFeeHeadroom)) bpsUnit

/-- The cap before the clamp. -/
def unclampedGas : ℤ :=
  ceilDiv ((input.boundedGas + input.envelopeGas) * (bpsUnit + input.exitBuffer) *
    (bpsUnit + input.capHeadroom)) (bpsUnit * bpsUnit)

/-- The checks on the numbers of an input. -/
structure Valid : Prop where
  payment : 0 < input.paymentGasLimit
  action : 0 < input.actionGasLimit
  calldata : 0 ≤ input.calldataGas
  dataFee : 0 ≤ input.dataFeeGas.getD 0

end PaidGasPlanInput

/-- A clamp only lowers the cap, and never below the bounded gas. -/
theorem clampGas_ok {clamp : Option ℤ} {boundedGas cap maximum : ℤ}
    (h : clampGas clamp boundedGas cap = .ok maximum) :
    (maximum = cap ∧ ∀ value ∈ clamp, cap ≤ value) ∨
      (clamp = some maximum ∧ maximum < cap ∧ boundedGas ≤ maximum) := by
  cases clamp with
  | none => exact .inl ⟨(Except.ok.inj h).symm, by simp⟩
  | some value =>
    rw [clampGas] at h
    split_ifs at h with hfits hbelow
    · obtain rfl := Except.ok.inj h
      exact .inl ⟨rfl, by simpa using hfits⟩
    · obtain rfl := Except.ok.inj h
      exact .inr ⟨rfl, not_le.mp hfits, not_lt.mp hbelow⟩

/-- A check that was passed held. -/
theorem requireOption_bind_ok {α : Type} {ok : Bool} {message : String}
    {rest : Unit → Except Failure α} {value : α}
    (h : (requireOption ok message >>= rest) = .ok value) : ok = true ∧ rest () = .ok value := by
  cases ok with
  | true => exact ⟨rfl, h⟩
  | false => cases h

/-- A share that was taken is the number itself. -/
theorem bps_bind_ok {α : Type} {number : ℕ} {field : String} {rest : ℕ → Except Failure α}
    {value : α} (h : (bps number field >>= rest) = .ok value) : rest number = .ok value := by
  rw [bps, nonNegativeInteger] at h
  split_ifs at h
  · exact h
  · cases h

/-- What an accepted plan consists of. -/
theorem planPaidGas_ok {input : PaidGasPlanInput} {plan : PaidGasPlan}
    (h : planPaidGas input = .ok plan) :
    input.Valid ∧ plan.boundedGas = input.boundedGas ∧ plan.envelopeGas = input.envelopeGas ∧
      clampGas input.maximumTransactionGas input.boundedGas input.unclampedGas =
        .ok plan.maximumTransactionGas := by
  rw [planPaidGas] at h
  have h := bps_bind_ok (bps_bind_ok (bps_bind_ok h))
  obtain ⟨hpayment, h⟩ := requireOption_bind_ok h
  obtain ⟨haction, h⟩ := requireOption_bind_ok h
  obtain ⟨hfees, h⟩ := requireOption_bind_ok h
  have hfees := of_decide_eq_true hfees
  obtain ⟨maximum, hclamp, hplan⟩ := bind_eq_ok_iff.mp h
  obtain rfl := Except.ok.inj hplan
  exact ⟨⟨of_decide_eq_true hpayment, of_decide_eq_true haction, hfees.1, hfees.2⟩,
    rfl, rfl, hclamp⟩

namespace PaidGasPlanInput

variable {input smaller larger : PaidGasPlanInput}

/-- A factor of basis points is positive. -/
theorem factor_pos (value : ℕ) : 0 < bpsUnit + (value : ℤ) := by
  rw [bpsUnit]
  omega

/-- The bounded gas is positive. -/
theorem Valid.boundedGas_pos (h : input.Valid) : 0 < input.boundedGas := by
  have hpayment := h.payment
  have haction := h.action
  have hreserve : (0 : ℤ) ≤ entryPointGasReserve := Int.natCast_nonneg _
  rw [boundedGas]
  omega

/-- The gas of the envelope is not negative. -/
theorem Valid.envelopeGas_nonneg (h : input.Valid) : 0 ≤ input.envelopeGas := by
  have hcalldata := h.calldata
  have hfee : 0 ≤ ceilDiv (input.dataFeeGas.getD 0 * (bpsUnit + input.dataFeeHeadroom)) bpsUnit :=
    ceilDiv_nonneg (mul_nonneg h.dataFee (factor_pos _).le) (by decide)
  have hbase : (0 : ℤ) ≤ transactionBaseGas := by decide
  rw [envelopeGas]
  omega

/-- What is rounded up is not negative. -/
theorem Valid.product_nonneg (h : input.Valid) :
    0 ≤ (input.boundedGas + input.envelopeGas) * (bpsUnit + input.exitBuffer) *
      (bpsUnit + input.capHeadroom) := by
  have hgas : 0 ≤ input.boundedGas + input.envelopeGas :=
    Int.add_nonneg h.boundedGas_pos.le h.envelopeGas_nonneg
  exact mul_nonneg (mul_nonneg hgas (factor_pos _).le) (factor_pos _).le

/-- The headroom never takes from the bounded gas. -/
theorem Valid.boundedGas_le (h : input.Valid) : input.boundedGas ≤ input.unclampedGas := by
  have hcover := le_ceilDiv_mul h.product_nonneg (show 0 < bpsUnit * bpsUnit by decide)
  have hgas : 0 ≤ input.boundedGas + input.envelopeGas :=
    Int.add_nonneg h.boundedGas_pos.le h.envelopeGas_nonneg
  have hscaled : (input.boundedGas + input.envelopeGas) * (bpsUnit * bpsUnit) ≤
      input.unclampedGas * (bpsUnit * bpsUnit) := by
    refine le_trans ?_ hcover
    rw [mul_assoc]
    exact mul_le_mul_of_nonneg_left
      (mul_le_mul (by omega) (by omega) (by decide) (factor_pos _).le) hgas
  have hle := le_of_mul_le_mul_right hscaled (show 0 < bpsUnit * bpsUnit by decide)
  have henvelope := h.envelopeGas_nonneg
  omega

/-- An estimate within the headroom leaves room for the buffer of the exit: the inner rounding
is absorbed by the outer one. -/
theorem Valid.buffered_le (h : input.Valid) {estimate : ℤ}
    (hestimate : estimate * bpsUnit ≤
      (input.boundedGas + input.envelopeGas) * (bpsUnit + input.capHeadroom)) :
    ceilDiv (estimate * (bpsUnit + input.exitBuffer)) bpsUnit ≤ input.unclampedGas := by
  have hunit : 0 < bpsUnit := by decide
  refine ceilDiv_le hunit (ceilDiv_nonneg h.product_nonneg (by decide)) ?_
  refine le_of_mul_le_mul_right ?_ hunit
  calc estimate * (bpsUnit + input.exitBuffer) * bpsUnit
      = estimate * bpsUnit * (bpsUnit + input.exitBuffer) := by ring
    _ ≤ (input.boundedGas + input.envelopeGas) * (bpsUnit + input.capHeadroom) *
        (bpsUnit + input.exitBuffer) := mul_le_mul_of_nonneg_right hestimate (factor_pos _).le
    _ = (input.boundedGas + input.envelopeGas) * (bpsUnit + input.exitBuffer) *
        (bpsUnit + input.capHeadroom) := by ring
    _ ≤ input.unclampedGas * (bpsUnit * bpsUnit) := le_ceilDiv_mul h.product_nonneg (by decide)
    _ = input.unclampedGas * bpsUnit * bpsUnit := by ring

/-- No number of the one input is above that of the other; an absent clamp is above all. -/
structure AtMost (smaller larger : PaidGasPlanInput) : Prop where
  payment : smaller.paymentGasLimit ≤ larger.paymentGasLimit
  action : smaller.actionGasLimit ≤ larger.actionGasLimit
  calldata : smaller.calldataGas ≤ larger.calldataGas
  dataFee : smaller.dataFeeGas.getD 0 ≤ larger.dataFeeGas.getD 0
  exitBuffer : smaller.exitBuffer ≤ larger.exitBuffer
  capHeadroom : smaller.capHeadroom ≤ larger.capHeadroom
  dataFeeHeadroom : smaller.dataFeeHeadroom ≤ larger.dataFeeHeadroom
  clamp : ∀ high ∈ larger.maximumTransactionGas, ∃ low ∈ smaller.maximumTransactionGas, low ≤ high

/-- The bounded gas grows with the inputs. -/
theorem AtMost.boundedGas_le (h : smaller.AtMost larger) :
    smaller.boundedGas ≤ larger.boundedGas := by
  have hpayment := h.payment
  have haction := h.action
  rw [boundedGas, boundedGas]
  omega

/-- The gas of the envelope grows with the inputs. -/
theorem AtMost.envelopeGas_le (h : smaller.AtMost larger) (hs : smaller.Valid) :
    smaller.envelopeGas ≤ larger.envelopeGas := by
  have hfee : ceilDiv (smaller.dataFeeGas.getD 0 * (bpsUnit + smaller.dataFeeHeadroom)) bpsUnit ≤
      ceilDiv (larger.dataFeeGas.getD 0 * (bpsUnit + larger.dataFeeHeadroom)) bpsUnit := by
    refine ceilDiv_mono (mul_nonneg hs.dataFee (factor_pos _).le) (by decide) ?_
    exact mul_le_mul h.dataFee (by have := h.dataFeeHeadroom; omega) (factor_pos _).le
      (hs.dataFee.trans h.dataFee)
  have hcalldata := h.calldata
  rw [envelopeGas, envelopeGas]
  omega

/-- The gas before the cap grows with the inputs. -/
theorem AtMost.unclampedGas_le (h : smaller.AtMost larger) (hs : smaller.Valid)
    (hl : larger.Valid) : smaller.unclampedGas ≤ larger.unclampedGas := by
  have hgas : 0 ≤ larger.boundedGas + larger.envelopeGas :=
    Int.add_nonneg hl.boundedGas_pos.le hl.envelopeGas_nonneg
  refine ceilDiv_mono hs.product_nonneg (by decide) ?_
  refine mul_le_mul ?_ (by have := h.capHeadroom; omega) (factor_pos _).le
    (mul_nonneg hgas (factor_pos _).le)
  exact mul_le_mul (Int.add_le_add h.boundedGas_le (h.envelopeGas_le hs))
    (by have := h.exitBuffer; omega) (factor_pos _).le hgas

end PaidGasPlanInput

/-! ### The cap of a plan -/

section Cap

variable {input smaller larger : PaidGasPlanInput} {plan small large : PaidGasPlan}

/-- The plan has at least the gas of its bound. -/
theorem boundedGas_le_maximumTransactionGas (h : planPaidGas input = .ok plan) :
    plan.boundedGas ≤ plan.maximumTransactionGas := by
  obtain ⟨hvalid, hbounded, -, hclamp⟩ := planPaidGas_ok h
  rw [hbounded]
  obtain ⟨heq, -⟩ | ⟨-, -, hle⟩ := clampGas_ok hclamp
  · exact heq ▸ hvalid.boundedGas_le
  · exact hle

/-- The buffered limit of an exit stays at or below a cap that its clamp left alone. -/
theorem exitGasLimit_le (h : planPaidGas input = .ok plan)
    (hfree : ∀ clamp ∈ input.maximumTransactionGas, input.unclampedGas ≤ clamp) {estimate : ℤ}
    (hestimate : estimate * bpsUnit ≤
      (plan.boundedGas + plan.envelopeGas) * (bpsUnit + input.capHeadroom)) :
    ceilDiv (estimate * (bpsUnit + input.exitBuffer)) bpsUnit ≤ plan.maximumTransactionGas := by
  obtain ⟨hvalid, hbounded, henvelope, hclamp⟩ := planPaidGas_ok h
  rw [hbounded, henvelope] at hestimate
  obtain ⟨heq, -⟩ | ⟨hset, hlt, -⟩ := clampGas_ok hclamp
  · exact heq ▸ hvalid.buffered_le hestimate
  · exact absurd (hfree _ hset) (not_le.mpr hlt)

/-- A plan for more has no less gas. -/
theorem maximumTransactionGas_mono (hsmall : planPaidGas smaller = .ok small)
    (hlarge : planPaidGas larger = .ok large) (h : smaller.AtMost larger) :
    small.maximumTransactionGas ≤ large.maximumTransactionGas := by
  obtain ⟨hs, -, -, hsclamp⟩ := planPaidGas_ok hsmall
  obtain ⟨hl, -, -, hlclamp⟩ := planPaidGas_ok hlarge
  have hle := h.unclampedGas_le hs hl
  obtain ⟨heq, -⟩ | ⟨hset, hlt, -⟩ := clampGas_ok hlclamp
  · obtain ⟨hsame, -⟩ | ⟨-, hbelow, -⟩ := clampGas_ok hsclamp <;> omega
  · obtain ⟨low, hlow, hlowle⟩ := h.clamp _ hset
    obtain ⟨hsame, hfits⟩ | ⟨hclamped, -, -⟩ := clampGas_ok hsclamp
    · exact hsame.trans_le ((hfits low hlow).trans hlowle)
    · obtain rfl := Option.some.inj (hlow.symm.trans hclamped)
      exact hlowle

/-- The cap of a plan: without a clamp it covers the buffered limit of every exit whose estimate
stays in the headroom; it is never below the bounded gas; and it grows with every input.

The three parts are facts about rounding up: a division that is rounded up and multiplied back is no
less, and it grows with its argument. -/
theorem planPaidGas_suffices :
    (∀ (input : PaidGasPlanInput) (plan : PaidGasPlan) (estimate : ℤ),
      planPaidGas input = .ok plan →
      (∀ clamp ∈ input.maximumTransactionGas, input.unclampedGas ≤ clamp) →
      estimate * bpsUnit ≤ (plan.boundedGas + plan.envelopeGas) * (bpsUnit + input.capHeadroom) →
      ceilDiv (estimate * (bpsUnit + input.exitBuffer)) bpsUnit ≤ plan.maximumTransactionGas) ∧
    (∀ (input : PaidGasPlanInput) (plan : PaidGasPlan), planPaidGas input = .ok plan →
      plan.boundedGas ≤ plan.maximumTransactionGas) ∧
    ∀ (smaller larger : PaidGasPlanInput) (small large : PaidGasPlan),
      planPaidGas smaller = .ok small → planPaidGas larger = .ok large →
      smaller.AtMost larger → small.maximumTransactionGas ≤ large.maximumTransactionGas :=
  ⟨fun _ _ _ h hfree => exitGasLimit_le h hfree,
    fun _ _ => boundedGas_le_maximumTransactionGas,
    fun _ _ _ _ => maximumTransactionGas_mono⟩

/-- A plan without options, an estimate in its headroom, and a plan for more gas. -/
theorem planPaidGas_suffices_edge :
    let input : PaidGasPlanInput :=
      { paymentGasLimit := 400000, actionGasLimit := 90000, calldataGas := 12345,
        dataFeeGas := some 777, exitGasBufferBps := none, capHeadroomBps := none,
        dataFeeHeadroomBps := none, maximumTransactionGas := none }
    let larger : PaidGasPlanInput :=
      { input with actionGasLimit := 120000, exitGasBufferBps := some 3000 }
    ∃ plan large, planPaidGas input = .ok plan ∧ planPaidGas larger = .ok large ∧
      ceilDiv (577000 * (bpsUnit + input.exitBuffer)) bpsUnit ≤ plan.maximumTransactionGas ∧
      plan.boundedGas ≤ plan.maximumTransactionGas ∧
      plan.maximumTransactionGas ≤ large.maximumTransactionGas := by
  intro input larger
  refine ⟨_, _, rfl, rfl, ?_, ?_, ?_⟩
  · exact planPaidGas_suffices.1 input _ _ rfl (by simp [input]) (by decide)
  · exact planPaidGas_suffices.2.1 input _ rfl
  · exact planPaidGas_suffices.2.2 input larger _ _ rfl rfl
      ⟨le_rfl, by decide, le_rfl, le_rfl, by decide, le_rfl, le_rfl, by simp [larger, input]⟩

end Cap

end NoxSdk.Paid
