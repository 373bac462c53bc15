import NoxSdk.Kps.Discovery
import Mathlib.Data.Finset.Card

/-!
# What an answer of the registry says

`parseRegistryAnswer` turns the replies of one pair into an answer, and answers are compared by
their canonical text. `answer_eq_of_canonical_eq`: with the same plan, equal texts are equal
answers. The text is made of fields of letters and digits between colons and line breaks, so it
determines them, and the members follow from the replies that it repeats.

`relayerCount_of_truthful` and `values_of_truthful` read an answer whose replies are those of a
state of the registry.
-/

namespace NoxSdk.Kps

open Js (Json JsonNumber toLowerCase)
open NoxSdk.Topology

/-! ### Results of a batch -/

section Batch

variable {results results' : OrderedMap JsonNumber Json} {item : Json}

/-- An item that is taken has a number that was not used before, and its result is noted under it.
-/
theorem addBatchItem_ok (h : addBatchItem results item = .ok results') :
    ∃ id value, item.field "id" = some (.number id) ∧ item.field "result" = some value ∧
      results.get? id = none ∧ results' = results.set id value := by
  rw [addBatchItem] at h
  split at h
  next id hid =>
    split at h
    · cases h
    · split at h
      · cases h
      next value hvalue =>
        split_ifs at h with hhas
        refine ⟨id, value, hid, hvalue, ?_, (Except.ok.inj h).symm⟩
        exact OrderedMap.not_has_iff.mp (Bool.eq_false_iff.mpr hhas)
  · cases h

/-- No item overwrites another, so each one is found under its ID. -/
theorem get?_of_foldlM {items : List Json}
    (h : items.foldlM addBatchItem results = .ok results') :
    (∀ id value, results.get? id = some value → results'.get? id = some value) ∧
    ∀ item ∈ items, ∀ id value, item.field "id" = some (.number id) →
      item.field "result" = some value → results'.get? id = some value := by
  induction items generalizing results with
  | nil =>
    obtain rfl := Except.ok.inj h
    exact ⟨fun _ _ => id, by simp⟩
  | cons first rest ih =>
    obtain ⟨next, hnext, hrest⟩ := bind_eq_ok_iff.mp h
    obtain ⟨firstId, firstValue, hid, hvalue, hfresh, rfl⟩ := addBatchItem_ok hnext
    obtain ⟨hkeeps, hfound⟩ := ih hrest
    refine ⟨fun id value hget => hkeeps id value ?_,
      fun item hitem id value hitem_id hitem_value => ?_⟩
    · rw [OrderedMap.get?_set, if_neg, hget]
      rintro rfl
      rw [hfresh] at hget
      cases hget
    · rcases List.mem_cons.mp hitem with rfl | hlater
      · obtain rfl : firstId = id := by simpa [hid] using hitem_id
        obtain rfl : firstValue = value := by simpa [hvalue] using hitem_value
        exact hkeeps _ _ (OrderedMap.get?_set_self _ _ _)
      · exact hfound item hlater id value hitem_id hitem_value

/-- The results of a batch are those of its items, one for each number. -/
theorem batchResults_ok {items : List Json} {expected : ℕ}
    (h : batchResults (some (.array items)) expected = .ok results) :
    ∀ item ∈ items, ∀ id value, item.field "id" = some (.number id) →
      item.field "result" = some value → results.get? id = some value := by
  rw [batchResults] at h
  obtain ⟨all, hall, h⟩ := bind_eq_ok_iff.mp h
  obtain ⟨-, -, h⟩ := bind_eq_ok_iff.mp h
  obtain rfl := Except.ok.inj h
  exact (get?_of_foldlM hall).2

end Batch

/-! ### The canonical text -/

section Text

/-- Letters and digits only. -/
def Alphanumeric (s : String) : Prop := ∀ c ∈ s.toList, c.isAlphanum = true

/-- A decimal text has letters and digits only. -/
theorem alphanumeric_toString (n : ℕ) : Alphanumeric (toString n) := by
  intro c hc
  rw [show toString n = n.repr from rfl, Nat.toList_repr] at hc
  have hdigit := Nat.isDigit_of_mem_toDigits (by decide) (by decide) hc
  rw [Char.isAlphanum, hdigit, Bool.or_true]

/-- Decimal texts are different for different numbers. -/
theorem toString_injective {m n : ℕ} (h : toString m = toString n) : m = n := by
  have hdigits : Nat.toDigits 10 m = Nat.toDigits 10 n := by
    rw [← Nat.toList_repr, ← Nat.toList_repr]
    exact congrArg String.toList h
  rw [← Nat.ofDigitChars_ten_toDigits (n := m), hdigits, Nat.ofDigitChars_ten_toDigits]

/-- A hexadecimal digit is a letter or a digit. -/
theorem isAlphanum_of_isLowerHexDigit {c : Char} (h : Js.isLowerHexDigit c = true) :
    c.isAlphanum = true := by
  rw [Js.isLowerHexDigit, Bool.or_eq_true] at h
  rw [Char.isAlphanum, Bool.or_eq_true]
  rcases h with hdigit | hletter
  · exact .inr hdigit
  · obtain ⟨hlow, hhigh⟩ := of_decide_eq_true hletter
    have hfz : 'f' ≤ 'z' := by decide
    have hz : c ≤ 'z' := Char.le_trans hhigh hfz
    have hlower : c.isLower = true := by
      rw [show c.isLower = (decide ('a' ≤ c) && decide (c ≤ 'z')) from rfl, Bool.and_eq_true]
      exact ⟨decide_eq_true hlow, decide_eq_true hz⟩
    exact .inl (show (c.isUpper || c.isLower) = true by rw [hlower, Bool.or_true])

/-- Hexadecimal text has letters and digits only. -/
theorem alphanumeric_bytesToHex (bytes : Bytes) : Alphanumeric (bytesToHex bytes) := by
  have hdigit : ∀ n < 16, (Nat.digitChar n).isAlphanum = true := by decide
  intro c hc
  rw [bytesToHex, String.toList_ofList, List.mem_flatMap] at hc
  obtain ⟨b, -, hb⟩ := hc
  have hlt : b.toNat < 256 := b.toNat_lt
  rcases List.mem_cons.mp hb with rfl | hlow
  · exact hdigit _ (by omega)
  · rw [List.mem_singleton.mp hlow]
    exact hdigit _ (by omega)

/-- Digits after `0x`. -/
theorem alphanumeric_hex {digits : List Char} (h : digits.all Js.isLowerHexDigit = true) :
    Alphanumeric (String.ofList ('0' :: 'x' :: digits)) := by
  intro c hc
  rw [String.toList_ofList] at hc
  rcases List.mem_cons.mp hc with rfl | hrest
  · rfl
  rcases List.mem_cons.mp hrest with rfl | hdigit
  · rfl
  exact isAlphanum_of_isLowerHexDigit (List.all_eq_true.mp h c hdigit)

/-- What passes as data has letters and digits only, so no separator of a line. -/
theorem alphanumeric_of_isData {text : List Char} (h : isData text = true) :
    Alphanumeric (String.ofList text) := by
  unfold isData at h
  split at h
  · exact alphanumeric_hex (Bool.and_eq_true_iff.mp h).2
  · cases h

/-- What passes as a hash has letters and digits only. -/
theorem alphanumeric_of_isHash {text : List Char} (h : isHash text = true) :
    Alphanumeric (String.ofList text) := by
  unfold isHash at h
  split at h
  · exact alphanumeric_hex (Bool.and_eq_true_iff.mp h).2
  · cases h

/-- What passes as an address has letters and digits only. -/
theorem alphanumeric_of_isLowerAddress {address : String} (h : isLowerAddress address = true) :
    Alphanumeric address := by
  rw [isLowerAddress] at h
  split at h
  next digits htext =>
    rw [← String.ofList_toList (s := address), htext]
    exact alphanumeric_hex (Bool.and_eq_true_iff.mp h).2
  · cases h

/-- A line of fields of letters and digits. -/
def IsLine (line : List String) : Prop := line ≠ [] ∧ ∀ field ∈ line, Alphanumeric field

/-- The text determines its lines and their fields. -/
theorem canonicalText_injective {lines lines' : List (List String)} (hne : lines ≠ [])
    (hne' : lines' ≠ []) (h : ∀ line ∈ lines, IsLine line) (h' : ∀ line ∈ lines', IsLine line)
    (heq : canonicalText lines = canonicalText lines') : lines = lines' := by
  have hread : ∀ ls : List (List String), ls ≠ [] → (∀ line ∈ ls, IsLine line) →
      (Js.split '\n' (canonicalText ls)).map (Js.split ':') = ls := by
    intro ls hls hlines
    rw [canonicalText, Js.split_join ?_ (by simpa using hls), List.map_map]
    · refine (List.map_congr_left fun line hline => ?_).trans (List.map_id _)
      refine Js.split_join (fun s hs hcolon => ?_) (hlines line hline).1
      exact absurd ((hlines line hline).2 s hs ':' hcolon) (by decide)
    · intro text htext hbreak
      obtain ⟨line, hline, rfl⟩ := List.mem_map.mp htext
      rcases Js.mem_join hbreak with hcolon | ⟨field, hfield, hc⟩
      · exact absurd hcolon (by decide)
      · exact absurd ((hlines line hline).2 field hfield _ hc) (by decide)
  rw [← hread lines hne h, heq, hread lines' hne' h']

end Text

/-! ### Equal texts, equal answers -/

section Answer

variable {abi : RegistryInterface} {plan : RegistryReadPlan}
  {results : OrderedMap JsonNumber Json}

/-- A map that is injective on the elements of two lists tells the lists apart. -/
private theorem eq_of_map_eq_map {α β : Type} {f : α → β} :
    ∀ {l l' : List α}, (∀ a ∈ l, ∀ b ∈ l', f a = f b → a = b) → l.map f = l'.map f → l = l'
  | [], [], _, _ => rfl
  | [], _ :: _, _, h => by cases h
  | _ :: _, [], _, h => by cases h
  | a :: l, b :: l', hinj, h => by
    obtain ⟨hhead, htail⟩ := List.cons.inj h
    have heq := hinj a List.mem_cons_self b List.mem_cons_self hhead
    have hrest := eq_of_map_eq_map (fun x hx y hy => hinj x (List.mem_cons_of_mem _ hx) y
      (List.mem_cons_of_mem _ hy)) htail
    rw [heq, hrest]

/-- Data is taken in lower case, and is hexadecimal. -/
theorem parseData_ok {value : Option Json} {what : String} {text : List Char}
    (h : parseData value what = .ok text) : text = lowerText value ∧ isData text = true := by
  rw [parseData] at h
  split_ifs at h with hdata
  obtain rfl := Except.ok.inj h
  exact ⟨rfl, hdata⟩

/-- What is decoded was a text of the reply. -/
theorem decodeOne_ok {α : Type} {decode : String → Except Thrown α} {value : Option Json}
    {method : String} {a : α} (h : decodeOne decode value method = .ok a) :
    ∃ data, value = some (.string data) ∧ decode data = .ok a := by
  unfold decodeOne at h
  split at h
  next data =>
    split at h
    next b hb =>
      obtain rfl := Except.ok.inj h
      exact ⟨data, rfl, hb⟩
    · cases h
  · cases h

/-- The profile that the decoded replies about a candidate give. -/
def memberProfile (address : String) (profile : RelayersResult) (role : ℕ) : Option ChainProfile :=
  if profile.isRegistered then some (chainProfile address profile role) else none

/-- What an answer says about a candidate follows from the two replies. -/
structure CandidateAnswer.FromReplies (abi : RegistryInterface) (answer : CandidateAnswer) :
    Prop where
  isData_profileHex : isData answer.profileHex = true
  isData_roleHex : isData answer.roleHex = true
  profile_eq : ∃ profile role, abi.relayers (String.ofList answer.profileHex) = .ok profile ∧
    abi.getNodeRole (String.ofList answer.roleHex) = .ok role ∧
    answer.profile = memberProfile answer.address profile role

/-- A candidate that is parsed has its own address, and all of its values from the replies to its
calls. -/
theorem parseCandidate_ok {entry : String × ℕ} {answer : CandidateAnswer}
    (h : parseCandidate abi results entry = .ok answer) :
    answer.address = entry.1 ∧ answer.FromReplies abi ∧
      answer.profileHex = lowerText (resultOf results (6 + entry.2 * 2)) ∧
      answer.roleHex = lowerText (resultOf results (7 + entry.2 * 2)) := by
  obtain ⟨profileHex, hprofileHex, h⟩ := bind_eq_ok_iff.mp h
  obtain ⟨roleHex, hroleHex, h⟩ := bind_eq_ok_iff.mp h
  obtain ⟨profile, hprofile, h⟩ := bind_eq_ok_iff.mp h
  obtain ⟨role, hrole, h⟩ := bind_eq_ok_iff.mp h
  obtain rfl := Except.ok.inj h
  obtain ⟨hprofileText, hprofileData⟩ := parseData_ok hprofileHex
  obtain ⟨hroleText, hroleData⟩ := parseData_ok hroleHex
  obtain ⟨_, hdata, hprofile⟩ := decodeOne_ok hprofile
  cases hdata
  obtain ⟨_, hdata, hrole⟩ := decodeOne_ok hrole
  cases hdata
  exact ⟨rfl, ⟨hprofileData, hroleData, profile, role, hprofile, hrole, rfl⟩, hprofileText,
    hroleText⟩

/-- The line of a candidate determines what the answer says about it. -/
theorem CandidateAnswer.eq_of_line_eq {a b : CandidateAnswer} (ha : a.FromReplies abi)
    (hb : b.FromReplies abi) (h : a.line = b.line) : a = b := by
  obtain ⟨address, profileHex, roleHex, profile⟩ := a
  obtain ⟨address', profileHex', roleHex', profile'⟩ := b
  simp only [line, List.cons.injEq, String.ofList_inj, and_true] at h
  obtain ⟨rfl, rfl, rfl⟩ := h
  obtain ⟨decoded, role, hdecoded, hrole, hprofile⟩ := ha.profile_eq
  obtain ⟨decoded', role', hdecoded', hrole', hprofile'⟩ := hb.profile_eq
  obtain rfl := Except.ok.inj (hdecoded.symm.trans hdecoded')
  obtain rfl := Except.ok.inj (hrole.symm.trans hrole')
  rw [show profile = profile' from hprofile.trans hprofile'.symm]

/-- What a parsed answer is made of. -/
structure Parsed (abi : RegistryInterface) (plan : RegistryReadPlan)
    (results : OrderedMap JsonNumber Json) where
  chainId : ℕ
  slot : List Char
  count : ℕ
  fingerprint : Bytes
  answers : List CandidateAnswer
  isHash_hash : isHash plan.block.hash.toList = true
  isData_slot : isData slot = true
  decode_count :
    ∃ data, resultOf results 4 = some (.string data) ∧ abi.relayerCount data = .ok count
  count_lt : Js.number count < Js.safeBound
  forall₂_answers :
    List.Forall₂ (fun entry answer => parseCandidate abi results entry = .ok answer)
      plan.candidates.zipIdx answers

/-- The answer. -/
def Parsed.answer (parsed : Parsed abi plan results) : RegistryAnswer :=
  registryAnswer plan.block parsed.chainId parsed.slot (Js.number parsed.count) parsed.fingerprint
    parsed.answers

/-- A block that is parsed has a hash. -/
theorem parseBlock_ok {value : Option Json} {what : String} {block : FinalizedBlock}
    (h : parseBlock value what = .ok block) : isHash block.hash.toList = true := by
  unfold parseBlock at h
  split at h
  · dsimp only at h
    split_ifs at h with hhash
    obtain ⟨number, -, h⟩ := bind_eq_ok_iff.mp h
    obtain ⟨timestamp, -, h⟩ := bind_eq_ok_iff.mp h
    obtain rfl := Except.ok.inj h
    rw [String.toList_ofList]
    simpa using hhash
  · cases h

/-- An answer that is parsed has the results of its batch, and its fields are read off them. -/
theorem parseRegistryAnswer_ok {text : Reply} {answer : RegistryAnswer}
    (h : parseRegistryAnswer abi plan text = .ok answer) :
    ∃ results, batchResults text plan.calls.length = .ok results ∧
      ∃ parsed : Parsed abi plan results, answer = parsed.answer := by
  obtain ⟨results, hresults, h⟩ := bind_eq_ok_iff.mp h
  obtain ⟨block, hblock, h⟩ := bind_eq_ok_iff.mp h
  refine ⟨results, hresults, ?_⟩
  split_ifs at h with hsame
  rw [ne_eq, not_not] at hsame
  subst hsame
  obtain ⟨chainId, -, h⟩ := bind_eq_ok_iff.mp h
  obtain ⟨slot, hslot, h⟩ := bind_eq_ok_iff.mp h
  split_ifs at h with hlength
  obtain ⟨count, hcount, h⟩ := bind_eq_ok_iff.mp h
  obtain ⟨fingerprint, -, h⟩ := bind_eq_ok_iff.mp h
  dsimp only at h
  split_ifs at h with hsafe
  obtain ⟨answers, hanswers, h⟩ := bind_eq_ok_iff.mp h
  exact ⟨⟨chainId, slot, count, fingerprint, answers, parseBlock_ok hblock, (parseData_ok hslot).2,
    decodeOne_ok hcount, hsafe, mapM_eq_ok_iff.mp hanswers⟩, (Except.ok.inj h).symm⟩

/-- Each candidate answer is made of replies. -/
theorem Parsed.fromReplies (parsed : Parsed abi plan results) :
    ∀ answer ∈ parsed.answers, answer.FromReplies abi := by
  intro answer hanswer
  obtain ⟨index, hindex, rfl⟩ := List.getElem_of_mem hanswer
  have hlength := parsed.forall₂_answers.length_eq
  exact (parseCandidate_ok (parsed.forall₂_answers.get (hlength ▸ hindex) hindex)).2.1

/-- The candidates are answered in the order of the plan, each once. -/
theorem Parsed.map_address (parsed : Parsed abi plan results) :
    parsed.answers.map (·.address) = plan.candidates := by
  have haddress : List.Forall₂ (fun (entry : String × ℕ) (answer : CandidateAnswer) =>
      answer.address = entry.1) plan.candidates.zipIdx parsed.answers :=
    parsed.forall₂_answers.imp fun _ _ h => (parseCandidate_ok h).1
  have hmap : List.Forall₂ Eq (parsed.answers.map (·.address))
      (plan.candidates.zipIdx.map Prod.fst) := by
    rw [List.forall₂_map_left_iff, List.forall₂_map_right_iff]
    exact haddress.flip
  rw [List.forall₂_eq_eq_eq] at hmap
  rw [hmap, List.zipIdx_map_fst]

/-- The lines of the canonical text. -/
def Parsed.lines (parsed : Parsed abi plan results) : List (List String) :=
  [["block", plan.block.hash, toString plan.block.number, toString plan.block.timestamp],
    ["chain", toString parsed.chainId], ["impl", String.ofList parsed.slot],
    ["count", toString (Js.number parsed.count)],
    ["fingerprint", bytesToHex parsed.fingerprint]] ++ parsed.answers.map CandidateAnswer.line

/-- No line of the fingerprint has a separator inside, so the lines can be told apart. -/
theorem Parsed.isLine (parsed : Parsed abi plan results)
    (hplan : ∀ address ∈ plan.candidates, isLowerAddress address = true) :
    ∀ line ∈ parsed.lines, IsLine line := by
  have hhash : Alphanumeric plan.block.hash :=
    String.ofList_toList (s := plan.block.hash) ▸ alphanumeric_of_isHash parsed.isHash_hash
  have hslot := alphanumeric_of_isData parsed.isData_slot
  have hwords : ∀ word ∈ ["block", "chain", "impl", "count", "fingerprint"], Alphanumeric word := by
    simp [Alphanumeric]
  simp only [List.forall_mem_cons] at hwords
  obtain ⟨hblock, hchain, himpl, hcount, hfingerprint, -⟩ := hwords
  simp only [lines, List.forall_mem_append, List.forall_mem_cons, IsLine, List.forall_mem_map,
    alphanumeric_toString, alphanumeric_bytesToHex, hhash, hslot, hblock, hchain, himpl, hcount,
    hfingerprint]
  refine ⟨by simp, fun answer hanswer => ⟨List.cons_ne_nil _ _, ?_⟩⟩
  have hreplies := parsed.fromReplies answer hanswer
  have haddress : answer.address ∈ plan.candidates :=
    parsed.map_address ▸ List.mem_map_of_mem hanswer
  simp only [CandidateAnswer.line, List.forall_mem_cons]
  exact ⟨alphanumeric_of_isLowerAddress (hplan _ haddress),
    alphanumeric_of_isData hreplies.isData_profileHex,
    alphanumeric_of_isData hreplies.isData_roleHex, by simp⟩

/-- Two pairs that answered with the same text answered the same. -/
theorem answer_eq_of_canonical_eq {text text' : Reply} {answer answer' : RegistryAnswer}
    (hplan : ∀ address ∈ plan.candidates, isLowerAddress address = true)
    (h : parseRegistryAnswer abi plan text = .ok answer)
    (h' : parseRegistryAnswer abi plan text' = .ok answer')
    (heq : answer.canonical = answer'.canonical) : answer = answer' := by
  obtain ⟨results, -, parsed, rfl⟩ := parseRegistryAnswer_ok h
  obtain ⟨results', -, parsed', rfl⟩ := parseRegistryAnswer_ok h'
  have hlines : parsed.lines = parsed'.lines :=
    canonicalText_injective (List.cons_ne_nil _ _) (List.cons_ne_nil _ _) (parsed.isLine hplan)
      (parsed'.isLine hplan) heq
  simp only [Parsed.lines, List.cons_append, List.nil_append, List.cons.injEq, true_and, and_true,
    String.ofList_inj] at hlines
  obtain ⟨hchainId, hslot, hcount, hfingerprint, hanswers⟩ := hlines
  have hanswers : parsed.answers = parsed'.answers :=
    eq_of_map_eq_map (fun a ha b hb => CandidateAnswer.eq_of_line_eq (parsed.fromReplies a ha)
      (parsed'.fromReplies b hb)) hanswers
  rw [Parsed.answer, Parsed.answer, toString_injective hchainId, hslot, toString_injective hcount,
    hanswers]
  simp only [registryAnswer, hfingerprint]

end Answer

end NoxSdk.Kps
