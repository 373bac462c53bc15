import NoxSdk.Tls.Requests
import Mathlib.Order.Bounds.Basic

/-!
# Padded requests

`json_padding` fills a request up to the next bucket with blanks behind its body. The blanks change
the number that `Content-Length` writes, which can be longer by some digits, and these take their
place from the blanks again. The round takes off exactly the digits that were added, and that is
so few that at most one digit is lost in return: the request fills its bucket, or misses it by one.

The buckets are the elements of one set of sizes, and `padded_len` is the least of them that a size
fits into. All that is asked of it follows from that.
-/

namespace NoxSdk.Tls

open Lib
open Js (textEncode)

/-! ### The code with its subtractions -/

/-- A subtraction of `usize`; below zero there is none. -/
def usizeSub (n m : ℕ) : Option ℕ := if m ≤ n then some (n - m) else none

/-- The rounds of `json_padding`, with the subtractions that they make. -/
def settlePadSub (total : ℕ → ℕ) (target : ℕ) : ℕ → ℕ → Option ℕ
  | 0, pad => some pad
  | rounds + 1, pad =>
    if total pad ≤ target then some pad
    else do
      let excess ← usizeSub (total pad) target
      let pad ← usizeSub pad excess
      settlePadSub total target rounds pad

/-- `json_padding`, with the subtractions that it makes. -/
def jsonPaddingSub (headLen bodyLen : ℕ) : Option ℕ := do
  let total := jsonTotal headLen bodyLen
  let target := paddedLen (total 0)
  let pad ← usizeSub target (total 0)
  settlePadSub total target 2 pad

theorem usizeSub_of_le {n m : ℕ} (h : m ≤ n) : usizeSub n m = some (n - m) := if_pos h

/-! ### Buckets -/

/-- The sizes of padded requests: the buckets and the multiples of the last one. -/
def IsBucket (size : ℕ) : Prop := size ∈ padBuckets ∨ ∃ count > 0, size = count * 16384

theorem paddedLen_cases (len : ℕ) :
    (len ≤ 512 ∧ paddedLen len = 512) ∨
    (512 < len ∧ len ≤ 1024 ∧ paddedLen len = 1024) ∨
    (1024 < len ∧ len ≤ 4096 ∧ paddedLen len = 4096) ∨
    (4096 < len ∧ len ≤ 16384 ∧ paddedLen len = 16384) ∨
    16384 < len ∧ paddedLen len = (len + 16384 - 1) / 16384 * 16384 := by
  rcases Nat.lt_or_ge 16384 len with hlarge | hsmall
  · have hnone : padBuckets.find? (fun bucket => len ≤ bucket) = none := by
      simp only [padBuckets, List.find?_eq_none, List.forall_mem_cons, decide_eq_true_eq,
        List.not_mem_nil, false_implies, implies_true, and_true]
      omega
    refine .inr (.inr (.inr (.inr ⟨hlarge, ?_⟩)))
    rw [paddedLen, hnone]
    rfl
  · have hfind : ∀ bucket, padBuckets.find? (fun bucket => len ≤ bucket) = some bucket →
        paddedLen len = bucket := by
      intro bucket h
      rw [paddedLen, h]
      rfl
    rcases Nat.lt_or_ge 4096 len with h4 | h4
    · exact .inr (.inr (.inr (.inl ⟨h4, hsmall, hfind _ (by simp [padBuckets]; omega)⟩)))
    rcases Nat.lt_or_ge 1024 len with h3 | h3
    · exact .inr (.inr (.inl ⟨h3, h4, hfind _ (by simp [padBuckets]; omega)⟩))
    rcases Nat.lt_or_ge 512 len with h2 | h2
    · exact .inr (.inl ⟨h2, h3, hfind _ (by simp [padBuckets]; omega)⟩)
    · exact .inl ⟨h2, hfind _ (by simp [padBuckets]; omega)⟩

/-- `padded_len` gives the least bucket that the size fits into. -/
theorem isLeast_paddedLen (len : ℕ) :
    IsLeast {size | IsBucket size ∧ len ≤ size} (paddedLen len) := by
  constructor
  · refine ⟨?_, le_paddedLen len⟩
    rcases paddedLen_cases len with ⟨-, h⟩ | ⟨-, -, h⟩ | ⟨-, -, h⟩ | ⟨-, -, h⟩ | ⟨hlarge, h⟩
    · exact .inl (by rw [h]; decide)
    · exact .inl (by rw [h]; decide)
    · exact .inl (by rw [h]; decide)
    · exact .inl (by rw [h]; decide)
    · exact .inr ⟨_, Nat.div_pos (by omega) (by decide), h⟩
  · rintro size ⟨hbucket, hle⟩
    have hsize : size = 512 ∨ size = 1024 ∨ size = 4096 ∨ size = 16384 ∨
        ∃ count > 0, size = count * 16384 := by
      rcases hbucket with hmem | hmultiple
      · simp only [padBuckets, List.mem_cons, List.not_mem_nil, or_false] at hmem
        omega
      · exact .inr (.inr (.inr (.inr hmultiple)))
    rcases paddedLen_cases len with ⟨-, h⟩ | ⟨_, -, h⟩ | ⟨_, -, h⟩ | ⟨_, -, h⟩ | ⟨_, h⟩
    all_goals
      rw [h]
      obtain rfl | rfl | rfl | rfl | ⟨count, hcount, rfl⟩ := hsize <;> omega

/-- A larger size is not padded to less. -/
theorem paddedLen_mono {len len' : ℕ} (h : len ≤ len') : paddedLen len ≤ paddedLen len' :=
  (isLeast_paddedLen len).2 ⟨(isLeast_paddedLen len').1.1, h.trans (le_paddedLen len')⟩

/-- A padded size is a bucket, and is not padded again. -/
theorem paddedLen_paddedLen (len : ℕ) : paddedLen (paddedLen len) = paddedLen len :=
  le_antisymm ((isLeast_paddedLen _).2 ⟨(isLeast_paddedLen len).1.1, le_rfl⟩) (le_paddedLen _)

/-! ### Digits -/

/-- Fewer than its digits taken off a number cost it one digit at most. -/
theorem decimalDigits_sub {n k : ℕ} (h : k < decimalDigits n) :
    decimalDigits n ≤ decimalDigits (n - k) + 1 := by
  rcases Nat.eq_zero_or_pos n with rfl | hpos
  · rw [Nat.zero_sub]
    exact Nat.le_succ _
  rw [decimalDigits, if_neg hpos.ne'] at h ⊢
  rcases Nat.eq_zero_or_pos (Nat.log 10 n) with hlog | hlog
  · rw [hlog]
    exact Nat.le_add_left ..
  obtain ⟨exponent, hexponent⟩ := Nat.exists_eq_succ_of_ne_zero hlog.ne'
  have hpow : 10 ^ (exponent + 1) ≤ n := by
    have hself := Nat.pow_log_le_self 10 hpos.ne'
    rwa [hexponent] at hself
  have hsmall : exponent < 10 ^ exponent := Nat.lt_pow_self (by decide)
  have hrest : 10 ^ exponent ≤ n - k := by
    rw [pow_succ] at hpow
    omega
  have hle := Nat.le_log_of_pow_le (by decide) hrest
  have hne : n - k ≠ 0 := ((Nat.pow_pos (by decide)).trans_le hrest).ne'
  rw [decimalDigits, if_neg hne, hexponent]
  exact Nat.succ_le_succ (Nat.succ_le_succ hle)

theorem decimalDigits_pos (n : ℕ) : 0 < decimalDigits n := by
  rw [decimalDigits]
  split_ifs
  · exact Nat.one_pos
  · exact Nat.succ_pos _

/-! ### The padding -/

/-- The rounds take off the digits that the blanks added. -/
theorem settlePad_hits {headLen bodyLen target pad : ℕ}
    (htarget : jsonTotal headLen bodyLen 0 + pad = target) :
    ∃ settled, settlePad (jsonTotal headLen bodyLen) target 2 pad = settled ∧
      settlePadSub (jsonTotal headLen bodyLen) target 2 pad = some settled ∧
      jsonTotal headLen bodyLen settled ≤ target ∧
      target ≤ jsonTotal headLen bodyLen settled + 1 := by
  have htotal : ∀ n, jsonTotal headLen bodyLen n + decimalDigits bodyLen =
      jsonTotal headLen bodyLen 0 + decimalDigits (bodyLen + n) + n := by
    intro n
    simp only [jsonTotal, Nat.add_zero]
    omega
  have hpad := htotal pad
  have hmore := decimalDigits_mono (Nat.le_add_right bodyLen pad)
  have hfew := decimalDigits_add bodyLen pad
  rcases Nat.lt_or_ge target (jsonTotal headLen bodyLen pad) with hlong | hfits
  · -- the added digits are taken off, and that costs one digit at most
    have hexcess := decimalDigits_pos bodyLen
    have htake : jsonTotal headLen bodyLen pad - target ≤ pad := by omega
    have hback := htotal (pad - (jsonTotal headLen bodyLen pad - target))
    have hless := decimalDigits_mono (Nat.add_le_add_left
      (Nat.sub_le pad (jsonTotal headLen bodyLen pad - target)) bodyLen)
    have hone : decimalDigits (bodyLen + pad) ≤
        decimalDigits (bodyLen + pad - (jsonTotal headLen bodyLen pad - target)) + 1 :=
      decimalDigits_sub (by omega)
    rw [Nat.add_sub_assoc htake] at hone
    have hsettled : jsonTotal headLen bodyLen
        (pad - (jsonTotal headLen bodyLen pad - target)) ≤ target := by omega
    refine ⟨pad - (jsonTotal headLen bodyLen pad - target), ?_, ?_, hsettled, by omega⟩
    · rw [settlePad, if_neg (not_le.mpr hlong), settlePad, if_pos hsettled]
    · rw [settlePadSub, if_neg (not_le.mpr hlong), usizeSub_of_le hlong.le, Option.bind_eq_bind,
        Option.bind_some, usizeSub_of_le htake, Option.bind_some, settlePadSub,
        if_pos hsettled]
  · refine ⟨pad, ?_, ?_, hfits, by omega⟩
    · rw [settlePad, if_pos hfits]
    · rw [settlePadSub, if_pos hfits]

theorem jsonPadding_settles (headLen bodyLen : ℕ) :
    jsonPaddingSub headLen bodyLen = some (jsonPadding headLen bodyLen) ∧
      jsonTotal headLen bodyLen (jsonPadding headLen bodyLen) ≤
        paddedLen (jsonTotal headLen bodyLen 0) ∧
      paddedLen (jsonTotal headLen bodyLen 0) ≤
        jsonTotal headLen bodyLen (jsonPadding headLen bodyLen) + 1 := by
  have hle := le_paddedLen (jsonTotal headLen bodyLen 0)
  have hsum : jsonTotal headLen bodyLen 0 +
      (paddedLen (jsonTotal headLen bodyLen 0) - jsonTotal headLen bodyLen 0) =
        paddedLen (jsonTotal headLen bodyLen 0) := Nat.add_sub_cancel' hle
  obtain ⟨settled, hsettled, hsub, hfits, hnear⟩ := settlePad_hits hsum
  have hpadding : jsonPadding headLen bodyLen = settled := hsettled
  rw [hpadding]
  refine ⟨?_, hfits, hnear⟩
  rw [jsonPaddingSub, usizeSub_of_le hle]
  exact hsub

/-! ### The request -/

theorem length_decimalBytes (n : ℕ) : (decimalBytes n).length = decimalDigits n := by
  rw [decimalBytes, List.length_map]
  induction n using Nat.strong_induction_on with
  | _ n ih =>
    rcases Nat.lt_or_ge n 10 with hlt | hge
    · have hlog : Nat.log 10 n = 0 := Nat.log_of_lt hlt
      rw [Nat.toDigits_of_lt_base hlt, decimalDigits, hlog, ite_self]
      rfl
    · have hlog : Nat.log 10 n = Nat.log 10 (n / 10) + 1 :=
        Nat.log_of_one_lt_of_le (by decide) hge
      have hne : n / 10 ≠ 0 := (Nat.div_pos hge (by decide)).ne'
      rw [Nat.toDigits_of_base_le (by decide) hge, List.length_append, List.length_singleton,
        ih _ (Nat.div_lt_self (by omega) (by decide)), decimalDigits, decimalDigits, if_neg hne,
        if_neg (by omega), hlog]

/-- `total` is the length of the request. -/
theorem length_request (method : String) (head : Bytes) {body : Bytes} (hbody : body ≠ [])
    (pad : ℕ) :
    (head ++ lengthLine method body pad ++ textEncode "\r\n" ++ body ++
      List.replicate pad 32).length = jsonTotal head.length body.length pad := by
  have hwith : withLength method body = true := by
    rw [withLength, bne_iff_ne.mpr hbody, Bool.true_or]
  have hline : (textEncode "Content-Length: ").length + (textEncode "\r\n").length +
      (textEncode "\r\n").length = (textEncode "Content-Length: \r\n\r\n").length := by
    decide
  rw [lengthLine, if_pos hwith, jsonTotal]
  simp only [List.length_append, List.length_replicate, length_decimalBytes]
  omega

/-- **JSON padding hits its bucket.** For every length of the head and of the body no subtraction
of `json_padding` goes below zero, its rounds settle, and the padded request has the size of its
bucket, or one byte less; `padded_len` is extensive, monotone and idempotent. The second part says
the same of the requests that are encoded.

The pad that would fill the bucket can give the length of the body one digit more. It then shrinks
by one, and when the digit goes with it the request ends a byte short (`jsonPadding_settles`). -/
theorem jsonPadding_hits :
    (∀ headLen bodyLen : ℕ,
      jsonPaddingSub headLen bodyLen = some (jsonPadding headLen bodyLen) ∧
        jsonTotal headLen bodyLen (jsonPadding headLen bodyLen) ≤
          paddedLen (jsonTotal headLen bodyLen 0) ∧
        paddedLen (jsonTotal headLen bodyLen 0) ≤
          jsonTotal headLen bodyLen (jsonPadding headLen bodyLen) + 1) ∧
    (∀ method authority target headers body keepAlive padded, body ≠ [] →
      encodeRequest method authority target headers body ⟨keepAlive, true⟩ = .ok padded →
      ∃ unpadded, encodeRequest method authority target headers body ⟨keepAlive, false⟩ =
          .ok unpadded ∧
        padded.length ≤ paddedLen unpadded.length ∧
        paddedLen unpadded.length ≤ padded.length + 1) ∧
    (∀ len, len ≤ paddedLen len) ∧ Monotone paddedLen ∧
      ∀ len, paddedLen (paddedLen len) = paddedLen len := by
  refine ⟨jsonPadding_settles, ?_, le_paddedLen, fun _ _ => paddedLen_mono, paddedLen_paddedLen⟩
  intro method authority target headers body keepAlive padded hbody h
  rw [encodeRequest] at h ⊢
  split_ifs at h ⊢
  obtain ⟨lines, hlines, hpadded⟩ := bind_eq_ok_iff.mp h
  obtain rfl := Except.ok.inj hpadded
  have hpad : ∀ head padJson, requestPad head body ⟨keepAlive, padJson⟩ =
      if padJson then jsonPadding head.length body.length else 0 := by
    intro head padJson
    rw [requestPad, bne_iff_ne.mpr hbody, Bool.and_true]
  obtain ⟨-, hfits, hnear⟩ := jsonPadding_settles
    (requestHead method authority target lines ⟨keepAlive, true⟩).length body.length
  refine ⟨_, bind_eq_ok_iff.mpr ⟨lines, hlines, rfl⟩, ?_⟩
  rw [length_request method _ hbody, length_request method _ hbody, hpad, hpad, if_pos rfl,
    if_neg Bool.false_ne_true]
  exact ⟨hfits, hnear⟩

end NoxSdk.Tls
