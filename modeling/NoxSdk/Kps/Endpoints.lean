import NoxSdk.Kps.Ipv6

/-!
# One endpoint, one spelling

Two KPS addresses denote one endpoint when their hosts are one IP address, their ports are equal
and their certhashes decode to the same bytes. The octets of a dotted quad, the port and the
base64url text have one spelling each, and so has an IPv4 address. The host in brackets is kept as
it is written, and every IPv6 address has several texts.
-/

namespace NoxSdk.Kps

open Js (splitAtFirst isHexDigit)

/-! ### The bytes of a certhash -/

/-- The value of a letter of base64url. -/
def base64UrlValue (char : Char) : Option ℕ := base64UrlAlphabet.findIdx? (· == char)

/-- The value of a character is its place in the alphabet. -/
theorem base64UrlValue_spec {char : Char} {value : ℕ} (h : base64UrlValue char = some value) :
    value < 64 ∧ base64UrlAlphabet[value]? = some char := by
  obtain ⟨hlt, hchar, -⟩ := List.findIdx?_eq_some_iff_getElem.mp h
  refine ⟨hlt, ?_⟩
  rw [List.getElem?_eq_getElem hlt]
  exact congrArg some (beq_iff_eq.mp hchar)

/-- The number that digits of base 64 append to another. -/
def appendSextets (number : ℕ) (values : List ℕ) : ℕ :=
  values.foldl (fun number value => number * 64 + value) number

/-- Digits of base 64 are determined by their number and their count. -/
theorem appendSextets_inj {values values' : List ℕ} (hlength : values.length = values'.length)
    (hlt : ∀ value ∈ values, value < 64) (hlt' : ∀ value ∈ values', value < 64) {n n' : ℕ}
    (h : appendSextets n values = appendSextets n' values') : n = n' ∧ values = values' := by
  induction values generalizing values' n n' with
  | nil =>
    obtain rfl := List.length_eq_zero_iff.mp hlength.symm
    exact ⟨h, rfl⟩
  | cons value values ih =>
    cases values' with
    | nil => cases hlength
    | cons value' values' =>
      obtain ⟨hvalue, hvalues⟩ := List.forall_mem_cons.mp hlt
      obtain ⟨hvalue', hvalues'⟩ := List.forall_mem_cons.mp hlt'
      obtain ⟨hhead, rfl⟩ := ih (Nat.succ.inj hlength) hvalues hvalues' h
      have hhead : n * 64 + value = n' * 64 + value' := hhead
      obtain ⟨rfl, rfl⟩ : n = n' ∧ value = value' := by omega
      exact ⟨rfl, rfl⟩

/-- The number of some bytes. -/
def bytesNumber (bytes : Bytes) : ℕ := bytes.foldl (fun number byte => number * 256 + byte.toNat) 0

/-- The number of the bytes, with one more byte at their end. -/
theorem bytesNumber_concat (bytes : Bytes) (byte : UInt8) :
    bytesNumber (bytes ++ [byte]) = bytesNumber bytes * 256 + byte.toNat := by
  simp [bytesNumber]

namespace Base64State

/-- The bits the decoder holds: those of its bytes and those that are not yet a byte. -/
def number (s : Base64State) : ℕ := bytesNumber s.out * 2 ^ s.bits + s.buffer % 2 ^ s.bits

/-- Six bits at a time, less than a byte stays over. -/
def Even (s : Base64State) : Prop := s.bits < 8 ∧ s.bits % 2 = 0

/-- One letter appends its six bits. -/
theorem step_spec {s s' : Base64State} {char : Char} (hs : s.Even) (h : s.step char = some s') :
    ∃ value, base64UrlValue char = some value ∧ s'.number = s.number * 64 + value ∧ s'.Even ∧
      s'.bits = (s.bits + 6) % 8 := by
  rw [step] at h
  split at h
  · cases h
  · rename_i value hvalue
    obtain ⟨hlt, -⟩ := base64UrlValue_spec hvalue
    refine ⟨value, hvalue, ?_⟩
    obtain ⟨buffer, bits, out⟩ := s
    obtain ⟨hbits, heven⟩ := hs
    dsimp only at hbits heven h
    obtain rfl | rfl | rfl | rfl : bits = 0 ∨ bits = 2 ∨ bits = 4 ∨ bits = 6 := by omega
    all_goals
      simp only [Nat.reduceAdd, Nat.reduceLeDiff, ge_iff_le, if_true, if_false] at h
      obtain rfl := Option.some.inj h
      refine ⟨?_, ⟨by dsimp only; decide, by dsimp only⟩, by dsimp only⟩
      simp only [number, bytesNumber_concat, UInt8.toNat_ofNat', Nat.reduceSub, Nat.reducePow]
      omega

/-- The whole text appends the values of its letters. -/
theorem foldlM_step_spec {s s' : Base64State} {text : List Char} (hs : s.Even)
    (h : text.foldlM step s = some s') :
    ∃ values, List.Forall₂ (fun char value => base64UrlValue char = some value) text values ∧
      s'.number = appendSextets s.number values ∧ s'.Even ∧
      s'.bits = (s.bits + 6 * text.length) % 8 := by
  induction text generalizing s with
  | nil =>
    obtain rfl := Option.some.inj h
    exact ⟨[], .nil, rfl, hs, by have := hs.1; simp only [List.length_nil]; omega⟩
  | cons char text ih =>
    rw [List.foldlM_cons] at h
    obtain ⟨mid, hmid, hrest⟩ := Option.bind_eq_some_iff.mp h
    obtain ⟨value, hvalue, hnumber, heven, hbits⟩ := step_spec hs hmid
    obtain ⟨values, hvalues, hnumbers, heven', hbits'⟩ := ih heven hrest
    refine ⟨value :: values, .cons hvalue hvalues, ?_, heven', ?_⟩
    · rw [hnumbers, hnumber]
      rfl
    · rw [hbits', hbits, List.length_cons]
      omega

end Base64State

/-- What the decoder accepts: the letters of the bytes, with nothing left over. -/
theorem decodeBase64UrlNoPad_spec {text : List Char} {bytes : Bytes}
    (h : decodeBase64UrlNoPad text = some bytes) :
    ∃ values, List.Forall₂ (fun char value => base64UrlValue char = some value) text values ∧
      appendSextets 0 values = bytesNumber bytes * 2 ^ (6 * text.length % 8) := by
  rw [decodeBase64UrlNoPad] at h
  split_ifs at h
  split at h
  · cases h
  · rename_i s hs
    split_ifs at h with hleft
    obtain rfl := Option.some.inj h
    obtain ⟨values, hvalues, hnumber, -, hbits⟩ :=
      Base64State.foldlM_step_spec ⟨by decide, by decide⟩ hs
    refine ⟨values, hvalues, ?_⟩
    rw [Nat.zero_add] at hbits
    have hzero : Base64State.number ⟨0, 0, []⟩ = 0 := by decide
    rw [hzero] at hnumber
    rw [← hnumber, Base64State.number, not_ne_iff.mp hleft, hbits, Nat.add_zero]

/-- Texts of one length that decode to the same bytes are the same. -/
theorem decodeBase64UrlNoPad_inj {text text' : List Char} {bytes : Bytes}
    (h : decodeBase64UrlNoPad text = some bytes) (h' : decodeBase64UrlNoPad text' = some bytes)
    (hlength : text.length = text'.length) : text = text' := by
  obtain ⟨values, hvalues, hnumber⟩ := decodeBase64UrlNoPad_spec h
  obtain ⟨values', hvalues', hnumber'⟩ := decodeBase64UrlNoPad_spec h'
  have hlt : ∀ {text : List Char} {values : List ℕ},
      List.Forall₂ (fun char value => base64UrlValue char = some value) text values →
        ∀ value ∈ values, value < 64 := by
    intro text values hforall
    induction hforall with
    | nil => simp
    | cons hvalue _ ih => exact List.forall_mem_cons.mpr ⟨(base64UrlValue_spec hvalue).1, ih⟩
  have hsame : appendSextets 0 values = appendSextets 0 values' := by
    rw [hnumber, hnumber', hlength]
  obtain ⟨-, rfl⟩ := appendSextets_inj
    (by rw [← hvalues.length_eq, ← hvalues'.length_eq, hlength]) (hlt hvalues) (hlt hvalues') hsame
  clear hnumber hnumber' hsame h h' hlength hlt
  induction hvalues generalizing text' with
  | nil =>
    cases hvalues'
    rfl
  | cons hvalue _ ih =>
    cases hvalues' with
    | cons hvalue' hrest =>
      have hchar := (base64UrlValue_spec hvalue).2.symm.trans (base64UrlValue_spec hvalue').2
      rw [Option.some.inj hchar, ih hrest]

/-! ### Addresses that are accepted -/

/-- The certhashes that pass `validateCerthash`. -/
structure CerthashOk (certhash : List Char) (bytes : Bytes) : Prop where
  length : Js.length certhash = certhashLength
  multibase : certhash.head? = some 'u'
  decoded : decodeBase64UrlNoPad certhash.tail = some bytes
  size : bytes.length = 34
  multihash : bytes.take 2 = [0x12, 0x20]

/-- The check passes exactly the certhashes of the grammar. -/
theorem validateCerthash_eq_ok_iff {certhash address : List Char} :
    validateCerthash certhash address = .ok () ↔ ∃ bytes, CerthashOk certhash bytes := by
  rw [validateCerthash]
  constructor
  · intro h
    split_ifs at h with hshape
    rw [not_or, not_ne_iff, not_ne_iff] at hshape
    split at h
    · cases h
    · rename_i bytes hbytes
      split_ifs at h with hsize hmultihash
      exact ⟨bytes, hshape.1, hshape.2, hbytes, not_ne_iff.mp hsize, not_ne_iff.mp hmultihash⟩
  · rintro ⟨bytes, h⟩
    rw [if_neg (by simp [h.length, h.multibase]), h.decoded]
    simp [h.size, h.multihash]

/-- The parts of an address, as `parseKpsAddress` returns them. -/
def partsOf (ipv6 : Bool) (host : List Char) (port : ℕ) (certhash : List Char) :
    KpsAddressParts :=
  let hostText := String.ofList host
  let hashText := String.ofList certhash
  let shown := if ipv6 then s!"[{hostText}]" else hostText
  ⟨s!"{shown}:{port}:{hashText}", hostText, port, hashText, ipv6⟩

/-- What follows the host of an accepted address. -/
structure PortAndHash (rest : List Char) (port : ℕ) (certhash : List Char) : Prop where
  split : ∃ portText, splitAtFirst ':' rest = some (portText, certhash) ∧
    isPortText portText = true ∧ Js.parseDigits 10 portText = port
  pos : 1 ≤ port
  le : port ≤ 65535
  hash : ∃ bytes, CerthashOk certhash bytes

/-- An address is parsed exactly when it is a host, a port and a certhash, and its parts are theirs.
-/
theorem parseKpsAddress_eq_ok_iff {text : String} {parts : KpsAddressParts} :
    parseKpsAddress text = .ok parts ↔ ∃ ipv6 host rest port certhash,
      text.toList ≠ [] ∧ parseHost text.toList = .ok (ipv6, host, rest) ∧
      PortAndHash rest port certhash ∧ parts = partsOf ipv6 host port certhash := by
  rw [parseKpsAddress]
  constructor
  · intro h
    dsimp only at h
    split_ifs at h with hempty
    -- each check of the parser that passes is one part of the description
    obtain ⟨⟨ipv6, host, rest⟩, hhost, h⟩ := bind_eq_ok_iff.mp h
    dsimp only at h
    split at h
    · cases h
    · rename_i portText certhash hsplit
      rcases Bool.eq_false_or_eq_true (isPortText portText) with hport | hport
      swap
      · rw [if_pos (by simp [hport])] at h
        cases h
      rw [if_neg (by simp [hport])] at h
      by_cases hrange : Js.parseDigits 10 portText < 1 ∨ Js.parseDigits 10 portText > 65535
      · rw [if_pos hrange] at h
        cases h
      rw [if_neg hrange] at h
      obtain ⟨_, hhash, h⟩ := bind_eq_ok_iff.mp h
      obtain rfl := Except.ok.inj h
      rw [not_or] at hrange
      exact ⟨ipv6, host, rest, _, certhash, hempty, hhost,
        ⟨⟨portText, hsplit, hport, rfl⟩, by omega, by omega,
          validateCerthash_eq_ok_iff.mp hhash⟩, rfl⟩
  · rintro ⟨ipv6, host, rest, port, certhash, hempty, hhost,
      ⟨⟨portText, hsplit, hport, rfl⟩, hpos, hle, hhash⟩, rfl⟩
    dsimp only
    rw [if_neg hempty, hhost, ok_bind]
    dsimp only
    rw [hsplit]
    dsimp only
    rw [if_neg (by simp [hport]), if_neg (by omega), validateCerthash_eq_ok_iff.mpr hhash, ok_bind]
    rfl

/-- The text is cut at the first separator, so what stands in front has none. -/
theorem splitAtFirst_eq_some_iff {sep : Char} {text before after : List Char} :
    splitAtFirst sep text = some (before, after) ↔
      text = before ++ sep :: after ∧ sep ∉ before := by
  induction text generalizing before with
  | nil => simp [splitAtFirst]
  | cons c text ih =>
    rw [splitAtFirst]
    split_ifs with hc
    · subst hc
      constructor
      · intro h
        obtain ⟨rfl, rfl⟩ := Prod.mk.inj (Option.some.inj h)
        exact ⟨rfl, List.not_mem_nil⟩
      · rintro ⟨heq, hnot⟩
        cases before with
        | nil => rw [(List.cons.inj heq).2]
        | cons b before =>
          exact absurd ((List.cons.inj heq).1 ▸ List.mem_cons_self) hnot
    · rw [Option.map_eq_some_iff]
      constructor
      · rintro ⟨⟨front, back⟩, hfront, heq⟩
        obtain ⟨rfl, rfl⟩ := Prod.mk.inj heq
        obtain ⟨rfl, hnot⟩ := ih.mp hfront
        exact ⟨rfl, by simp [hnot, Ne.symm hc]⟩
      · rintro ⟨heq, hnot⟩
        cases before with
        | nil => exact absurd (List.cons.inj heq).1 hc
        | cons b before =>
          obtain ⟨rfl, htext⟩ := List.cons.inj heq
          rw [List.mem_cons, not_or] at hnot
          exact ⟨_, ih.mpr ⟨htext, hnot.2⟩, rfl⟩

/-- A bracketed host. -/
theorem parseHost_bracketed_iff {value tail rest host : List Char} {ipv6 : Bool}
    (hvalue : value = '[' :: tail) : parseHost value = .ok (ipv6, host, rest) ↔
      ipv6 = true ∧ tail = host ++ ']' :: ':' :: rest ∧ ']' ∉ host ∧ isIpv6Literal host = true := by
  subst hvalue
  rw [parseHost]
  constructor
  · intro h
    split at h
    · rename_i front back hsplit
      split_ifs at h with hliteral
      obtain ⟨rfl, rfl, rfl⟩ : true = ipv6 ∧ front = host ∧ back = rest := by simpa using h
      obtain ⟨htail, hnot⟩ := splitAtFirst_eq_some_iff.mp hsplit
      exact ⟨rfl, htail, hnot, hliteral⟩
    · cases h
  · rintro ⟨rfl, rfl, hnot, hliteral⟩
    rw [splitAtFirst_eq_some_iff.mpr ⟨rfl, hnot⟩]
    exact if_pos hliteral

/-- A host without brackets. -/
theorem parseHost_plain_ok {value rest host : List Char} {ipv6 : Bool}
    (hvalue : value.head? ≠ some '[') (h : parseHost value = .ok (ipv6, host, rest)) :
    ipv6 = false ∧ isIpv4 host = true := by
  rw [parseHost] at h
  · split at h
    · cases h
    · split_ifs at h with hquad
      obtain ⟨rfl, rfl, -⟩ : false = ipv6 ∧ _ = host ∧ _ = rest := by simpa using h
      exact ⟨rfl, hquad⟩
  · rintro tail rfl
    exact hvalue rfl

/-! ### What an address denotes -/

/-- An IP address: four octets, or eight units of 16 bits. -/
inductive IpAddress
  | v4 (octets : List ℕ)
  | v6 (units : List ℕ)

/-- What an address names. -/
structure Endpoint where
  ip : IpAddress
  port : ℕ
  certificateHash : Bytes

/-- The IP address of the host of an address. -/
def KpsAddressParts.HostIs (parts : KpsAddressParts) : IpAddress → Prop
  | .v4 octets => parts.ipv6 = false ∧ IsDottedQuad parts.host.toList octets
  | .v6 units => parts.ipv6 = true ∧ DenotesIpv6 parts.host.toList units

/-- The endpoint an address denotes. -/
structure KpsAddressParts.Denotes (parts : KpsAddressParts) (endpoint : Endpoint) : Prop where
  ip : parts.HostIs endpoint.ip
  port : parts.port = endpoint.port
  hash : decodeBase64UrlNoPad parts.certhash.toList.tail = some endpoint.certificateHash

/-- Every accepted address denotes an endpoint. -/
theorem exists_denotes {text : String} {parts : KpsAddressParts}
    (h : parseKpsAddress text = .ok parts) : ∃ endpoint, parts.Denotes endpoint := by
  obtain ⟨ipv6, host, rest, port, certhash, -, hhost, hafter, rfl⟩ := parseKpsAddress_eq_ok_iff.mp h
  obtain ⟨bytes, hbytes⟩ := hafter.hash
  have hip : ∃ ip, (partsOf ipv6 host port certhash).HostIs ip := by
    by_cases hbracket : text.toList.head? = some '['
    · obtain ⟨tail, htail⟩ := List.head?_eq_some_iff.mp hbracket
      obtain ⟨rfl, -, -, hliteral⟩ := (parseHost_bracketed_iff htail).mp hhost
      obtain ⟨-, units, hunits⟩ := (isIpv6Literal_iff host).mp hliteral
      exact ⟨.v6 units, rfl, by simpa [partsOf] using hunits⟩
    · obtain ⟨rfl, hquad⟩ := parseHost_plain_ok hbracket hhost
      obtain ⟨octets, hoctets⟩ := isIpv4_iff.mp hquad
      exact ⟨.v4 octets, rfl, by simpa [partsOf] using hoctets⟩
  obtain ⟨ip, hip⟩ := hip
  exact ⟨⟨ip, port, bytes⟩, hip, rfl, by simpa [partsOf] using hbytes.decoded⟩

/-! ### One spelling of each part -/

/-- The alphabet is within the first plane of Unicode, one code unit a letter. -/
theorem toNat_lt_of_mem_alphabet : ∀ c ∈ base64UrlAlphabet, c.toNat < 0x10000 := by
  have hall : base64UrlAlphabet.all (fun c => decide (c.toNat < 0x10000)) = true := by
    decide +kernel
  exact fun c hc => of_decide_eq_true (List.all_eq_true.mp hall c hc)

/-- The letters of base64url are one unit each. -/
theorem length_of_decodeBase64UrlNoPad {text : List Char} {bytes : Bytes}
    (h : decodeBase64UrlNoPad text = some bytes) : Js.length text = text.length := by
  obtain ⟨values, hvalues, -⟩ := decodeBase64UrlNoPad_spec h
  refine Js.length_eq fun c hc => ?_
  clear h
  induction hvalues with
  | nil => cases hc
  | cons hvalue _ ih =>
    rcases List.mem_cons.mp hc with rfl | hc
    · exact toNat_lt_of_mem_alphabet _ (List.mem_of_getElem? (base64UrlValue_spec hvalue).2)
    · exact ih hc

/-- A certhash is a `u` with 46 letters behind it, which decode to its bytes. -/
theorem CerthashOk.exists_tail {certhash : List Char} {bytes : Bytes}
    (h : CerthashOk certhash bytes) : ∃ tail, certhash = 'u' :: tail ∧ tail.length = 46 ∧
      decodeBase64UrlNoPad tail = some bytes := by
  obtain ⟨tail, rfl⟩ := List.head?_eq_some_iff.mp h.multibase
  have hdecoded : decodeBase64UrlNoPad tail = some bytes := h.decoded
  refine ⟨tail, rfl, ?_, hdecoded⟩
  have hlength : Js.length ('u' :: tail) = 47 := h.length
  have hunit : Js.length ('u' :: tail) = 1 + Js.length tail := rfl
  rw [hunit, length_of_decodeBase64UrlNoPad hdecoded] at hlength
  omega

/-- The same bytes have one text. -/
theorem CerthashOk.eq {certhash certhash' : List Char} {bytes : Bytes}
    (h : CerthashOk certhash bytes) (h' : CerthashOk certhash' bytes) : certhash = certhash' := by
  obtain ⟨tail, rfl, hlength, hdecoded⟩ := h.exists_tail
  obtain ⟨tail', rfl, hlength', hdecoded'⟩ := h'.exists_tail
  rw [decodeBase64UrlNoPad_inj hdecoded hdecoded' (hlength.trans hlength'.symm)]

/-- The parts of an accepted address, with the bytes they denote. -/
theorem exists_partsOf {text : String} {parts : KpsAddressParts} {endpoint : Endpoint}
    (h : parseKpsAddress text = .ok parts) (hd : parts.Denotes endpoint) :
    ∃ ipv6 host rest certhash, text.toList ≠ [] ∧
      parseHost text.toList = .ok (ipv6, host, rest) ∧ PortAndHash rest endpoint.port certhash ∧
      CerthashOk certhash endpoint.certificateHash ∧
      parts = partsOf ipv6 host endpoint.port certhash := by
  obtain ⟨ipv6, host, rest, port, certhash, hempty, hhost, hafter, rfl⟩ :=
    parseKpsAddress_eq_ok_iff.mp h
  obtain ⟨bytes, hbytes⟩ := hafter.hash
  obtain rfl : port = endpoint.port := hd.port
  have hdecoded := hd.hash
  simp only [partsOf, String.toList_ofList] at hdecoded
  obtain rfl := Option.some.inj (hbytes.decoded.symm.trans hdecoded)
  exact ⟨ipv6, host, rest, certhash, hempty, hhost, hafter, hbytes, rfl⟩

/-- An IPv4 endpoint has one address. -/
theorem eq_of_denotes_v4 {text text' : String} {parts parts' : KpsAddressParts}
    {octets : List ℕ} {port : ℕ} {hash : Bytes} (h : parseKpsAddress text = .ok parts)
    (h' : parseKpsAddress text' = .ok parts') (hd : parts.Denotes ⟨.v4 octets, port, hash⟩)
    (hd' : parts'.Denotes ⟨.v4 octets, port, hash⟩) : parts' = parts := by
  obtain ⟨ipv6, host, rest, certhash, -, -, -, hhash, rfl⟩ := exists_partsOf h hd
  obtain ⟨ipv6', host', rest', certhash', -, -, -, hhash', rfl⟩ := exists_partsOf h' hd'
  obtain ⟨rfl, hquad⟩ : ipv6 = false ∧ IsDottedQuad host octets := by
    simpa [KpsAddressParts.HostIs, partsOf] using hd.ip
  obtain ⟨rfl, hquad'⟩ : ipv6' = false ∧ IsDottedQuad host' octets := by
    simpa [KpsAddressParts.HostIs, partsOf] using hd'.ip
  rw [hquad.text, hquad'.text, hhash.eq hhash']

/-! ### Two spellings of an IPv6 address -/

/-- A hexadecimal digit has a value below 16, checked for all of ASCII. -/
private theorem digit_lt_ascii : ∀ n < 128, isHexDigit (Char.ofNat n) = true →
    Js.parseDigits.digit (Char.ofNat n) < 16 := by
  decide

/-- A hexadecimal digit has a value below 16. -/
theorem digit_lt {c : Char} (h : isHexDigit c = true) : Js.parseDigits.digit c < 16 := by
  have hlt := digit_lt_ascii c.toNat (Js.toNat_lt_of_isHexDigit h)
  rw [Char.ofNat_toNat] at hlt
  exact hlt h

/-- The number of a text of digits is below the power of 16 that its length gives. -/
private theorem foldl_digits_lt {text : List Char} (h : ∀ c ∈ text, isHexDigit c = true)
    (number : ℕ) :
    text.foldl (fun value c => value * 16 + Js.parseDigits.digit c) number <
      (number + 1) * 16 ^ text.length := by
  induction text generalizing number with
  | nil => simp
  | cons c text ih =>
    obtain ⟨hc, htext⟩ := List.forall_mem_cons.mp h
    have hdigit := digit_lt hc
    calc List.foldl (fun value c => value * 16 + Js.parseDigits.digit c) number (c :: text)
        < (number * 16 + Js.parseDigits.digit c + 1) * 16 ^ text.length := ih htext _
      _ ≤ (number + 1) * 16 * 16 ^ text.length := Nat.mul_le_mul_right _ (by omega)
      _ = (number + 1) * 16 ^ (c :: text).length := by
        rw [List.length_cons, Nat.pow_succ', Nat.mul_assoc]

/-- The value of hexadecimal digits is below that many digits. -/
theorem parseDigits_lt {text : List Char} (h : ∀ c ∈ text, isHexDigit c = true) :
    Js.parseDigits 16 text < 16 ^ text.length := by
  have hlt := foldl_digits_lt h 0
  rwa [Nat.zero_add, Nat.one_mul] at hlt

/-- A unit as four hexadecimal digits. -/
def hexGroup (n : ℕ) : List Char :=
  [n / 4096, n / 256 % 16, n / 16 % 16, n % 16].map Nat.digitChar

/-- The digits that are written are hexadecimal and have the values that they stand for. -/
private theorem digitChar_hex : ∀ k < 16, isHexDigit (Nat.digitChar k) = true ∧
    Js.parseDigits.digit (Nat.digitChar k) = k := by
  decide

/-- A unit of 16 bits is written as a group of the grammar. -/
theorem isGroup_hexGroup {n : ℕ} (h : n < 65536) : IsGroup (hexGroup n) n := by
  obtain ⟨ha, hva⟩ := digitChar_hex (n / 4096) (by omega)
  obtain ⟨hb, hvb⟩ := digitChar_hex (n / 256 % 16) (by omega)
  obtain ⟨hc, hvc⟩ := digitChar_hex (n / 16 % 16) (by omega)
  obtain ⟨hd, hvd⟩ := digitChar_hex (n % 16) (by omega)
  refine ⟨by simp [hexGroup], by simp [hexGroup], ?_, ?_⟩
  · simp [hexGroup, ha, hb, hc, hd]
  · simp only [hexGroup, List.map_cons, List.map_nil, Js.parseDigits, List.foldl_cons,
      List.foldl_nil, hva, hvb, hvc, hvd]
    omega

/-- The units that groups spell have 16 bits. -/
theorem Spells.lt {embedded : Bool} {groups : List (List Char)} {units : List ℕ}
    (h : Spells embedded groups units) : ∀ n ∈ units, n < 65536 := by
  induction h with
  | nil => simp
  | group hgroup _ ih =>
    refine List.forall_mem_cons.mpr ⟨?_, ih⟩
    have hlt := parseDigits_lt hgroup.digits
    rw [hgroup.value] at hlt
    exact hlt.trans_le (Nat.pow_le_pow_right (by decide) hgroup.le)
  | quad _ hquad =>
    have hoctet := hquad.octet
    simp only [List.mem_cons, List.not_mem_nil, or_false, forall_eq_or_imp, forall_eq] at hoctet ⊢
    omega

/-- The units of an IPv6 text have 16 bits. -/
theorem DenotesIpv6.lt {text : List Char} {units : List ℕ} (h : DenotesIpv6 text units) :
    ∀ n ∈ units, n < 65536 := by
  cases h with
  | full hspells _ => exact hspells.lt
  | compressed hbefore hafter _ =>
    intro n hn
    simp only [List.mem_append, List.mem_replicate] at hn
    rcases hn with (hn | ⟨-, rfl⟩) | hn
    · exact hbefore.lt n hn
    · decide
    · exact hafter.lt n hn

/-- Units that are written as groups are spelled by them. -/
theorem spells_hexGroups {embedded : Bool} {units : List ℕ} (h : ∀ n ∈ units, n < 65536) :
    Spells embedded (units.map hexGroup) units := by
  induction units with
  | nil => exact .nil
  | cons n units ih =>
    obtain ⟨hn, hunits⟩ := List.forall_mem_cons.mp h
    exact .group (isGroup_hexGroup hn) (ih hunits)

/-- The last two units as a dotted quad. -/
def quadText (a b : ℕ) : List Char :=
  ['.'].intercalate ([a / 256, a % 256, b / 256, b % 256].map (Nat.toDigits 10))

/-- Two units are written as a dotted quad of their four bytes. -/
theorem isDottedQuad_quadText {a b : ℕ} (ha : a < 65536) (hb : b < 65536) :
    IsDottedQuad (quadText a b) [a / 256, a % 256, b / 256, b % 256] where
  length := rfl
  octet := by
    simp only [List.mem_cons, List.not_mem_nil, or_false, forall_eq_or_imp, forall_eq]
    omega
  text := rfl

/-- A character of one of the texts is one of their join. -/
theorem mem_intercalate_of_mem {sep c : Char} {l : List (List Char)} {text : List Char}
    (htext : text ∈ l) (hc : c ∈ text) : c ∈ [sep].intercalate l := by
  induction l with
  | nil => cases htext
  | cons first l ih =>
    cases l with
    | nil =>
      rw [List.intercalate_singleton]
      exact List.mem_singleton.mp htext ▸ hc
    | cons next l =>
      rw [List.intercalate_cons_cons, List.mem_append, List.mem_append]
      rcases List.mem_cons.mp htext with rfl | htext
      · exact .inl (.inl hc)
      · exact .inr (ih htext)

/-- Every IPv6 address has a text with a dot and one without. -/
theorem exists_two_texts {units : List ℕ} (hlength : units.length = 8)
    (h : ∀ n ∈ units, n < 65536) :
    ∃ plain dotted, DenotesIpv6 plain units ∧ DenotesIpv6 dotted units ∧ plain ≠ dotted := by
  have hplain : Spells true (units.map hexGroup) units := spells_hexGroups h
  obtain ⟨high, a, b, rfl⟩ : ∃ high a b, units = high ++ [a, b] := by
    match units, hlength with
    | [n₀, n₁, n₂, n₃, n₄, n₅, a, b], _ => exact ⟨[n₀, n₁, n₂, n₃, n₄, n₅], a, b, rfl⟩
  have ha : a < 65536 := h a (by simp)
  have hb : b < 65536 := h b (by simp)
  have hquad := isDottedQuad_quadText ha hb
  have hdotted : Spells true (high.map hexGroup ++ [quadText a b]) (high ++ [a, b]) := by
    have hlast := Spells.quad rfl hquad
    rw [Nat.div_add_mod', Nat.div_add_mod'] at hlast
    exact (spells_hexGroups fun n hn => h n (List.mem_append_left _ hn)).append hlast
  refine ⟨_, _, .full hplain hlength, .full hdotted hlength, fun heq => ?_⟩
  have hdot : '.' ∈ [':'].intercalate (high.map hexGroup ++ [quadText a b]) :=
    mem_intercalate_of_mem (List.mem_append_right _ List.mem_cons_self) hquad.shape.1
  rw [← heq] at hdot
  obtain hsep | ⟨text, htext, hdot⟩ := mem_intercalate hdot
  · exact absurd hsep (by decide)
  · obtain ⟨n, hn, rfl⟩ := List.mem_map.mp htext
    exact (isGroup_hexGroup (h n hn)).notMem.1 hdot

/-- Another text for the bracketed host of an address gives another address of its endpoint. -/
theorem parse_respelled {rest certhash other : List Char} {units : List ℕ}
    {endpoint : Endpoint} (hafter : PortAndHash rest endpoint.port certhash)
    (hhash : CerthashOk certhash endpoint.certificateHash)
    (hip : endpoint.ip = .v6 units) (hother : DenotesIpv6 other units) :
    parseKpsAddress (String.ofList ('[' :: other ++ ']' :: ':' :: rest)) =
        .ok (partsOf true other endpoint.port certhash) ∧
      (partsOf true other endpoint.port certhash).Denotes endpoint := by
  constructor
  · refine parseKpsAddress_eq_ok_iff.mpr ⟨true, other, rest, endpoint.port, certhash, ?_, ?_,
      hafter, rfl⟩
    · rw [String.toList_ofList]
      exact List.cons_ne_nil _ _
    · refine (parseHost_bracketed_iff String.toList_ofList).mpr ⟨rfl, rfl, fun hmem => ?_,
        (isIpv6Literal_iff other).mpr ⟨hother.length_text.2, units, hother⟩⟩
      rcases hother.mem_text hmem with h | h | h <;> exact absurd h (by decide)
  · refine ⟨?_, rfl, by simpa [partsOf] using hhash.decoded⟩
    rw [hip]
    exact ⟨rfl, by simpa [partsOf] using hother⟩

/-- The address determines the host of a bracketed address with given port and certhash. -/
theorem host_eq_of_address_eq {host host' : List Char} {port : ℕ} {certhash : List Char}
    (h : (partsOf true host port certhash).address = (partsOf true host' port certhash).address) :
    host = host' := by
  have h := congrArg String.toList h
  simp only [partsOf, if_true, String.toList_append, List.append_cancel_right_eq] at h
  change ("[" ++ String.ofList host ++ "]").toList = ("[" ++ String.ofList host' ++ "]").toList at h
  simpa using h

/-- An endpoint has one address exactly when it is an IPv4 one: the address does not begin with
a bracket.

A bracketed host is kept as it was written, and each IPv6 address has two texts, with and without a
dotted quad at its end (`exists_two_texts`). A host without brackets is four decimal numbers, which
have one text. -/
theorem one_spelling_iff (text : String) (parts : KpsAddressParts) (endpoint : Endpoint)
    (h : parseKpsAddress text = .ok parts) (hd : parts.Denotes endpoint) :
    (∀ text' parts', parseKpsAddress text' = .ok parts' → parts'.Denotes endpoint →
      parts'.address = parts.address) ↔ text.toList.head? ≠ some '[' := by
  obtain ⟨ipv6, host, rest, certhash, -, hhost, hafter, hhash, rfl⟩ := exists_partsOf h hd
  constructor
  · intro hone hbracket
    obtain ⟨tail, htail⟩ := List.head?_eq_some_iff.mp hbracket
    obtain ⟨rfl, -, -, -⟩ := (parseHost_bracketed_iff htail).mp hhost
    have hip := hd.ip
    cases hv : endpoint.ip with
    | v4 octets =>
      rw [hv] at hip
      cases hip.1
    | v6 units =>
      rw [hv] at hip
      have hunits : DenotesIpv6 host units := by simpa [partsOf] using hip.2
      obtain ⟨plain, dotted, hplain, hdotted, hne⟩ :=
        exists_two_texts hunits.length_units hunits.lt
      obtain ⟨hp, hpd⟩ := parse_respelled hafter hhash hv hplain
      obtain ⟨hq, hqd⟩ := parse_respelled hafter hhash hv hdotted
      have hplainHost := host_eq_of_address_eq (hone _ _ hp hpd)
      have hdottedHost := host_eq_of_address_eq (hone _ _ hq hqd)
      exact hne (hplainHost.trans hdottedHost.symm)
  · intro hplain text' parts' h' hd'
    obtain ⟨rfl, -⟩ := parseHost_plain_ok hplain hhost
    obtain ⟨ip, port, hash⟩ := endpoint
    cases ip with
    | v4 octets => rw [eq_of_denotes_v4 h h' hd hd']
    | v6 units => cases hd.ip.1

/-- The certhash of a digest of zeros. -/
private def zeroCerthash : String := "uEi" ++ String.ofList (List.replicate 44 'A')

private def zeroBytes : Bytes := 0x12 :: 0x20 :: List.replicate 32 0

private def loopbackParts : KpsAddressParts :=
  partsOf true "::1".toList 443 zeroCerthash.toList

private def loopbackLongParts : KpsAddressParts :=
  partsOf true "0:0:0:0:0:0:0:1".toList 443 zeroCerthash.toList

/-- A single digit is a group. -/
private theorem isGroup_digit (c : Char) (value : ℕ) (hhex : isHexDigit c = true)
    (hvalue : Js.parseDigits 16 [c] = value) : IsGroup [c] value :=
  ⟨by simp, by simp, by simpa using hhex, hvalue⟩

/-- The short text of the loopback address. -/
private theorem denotes_short : DenotesIpv6 "::1".toList [0, 0, 0, 0, 0, 0, 0, 1] := by
  have hone : IsGroup ['1'] 1 := isGroup_digit '1' 1 (by decide) (by decide)
  exact DenotesIpv6.compressed .nil (.group hone .nil) (by decide)

/-- The long text of the loopback address, with the same units. -/
private theorem denotes_long :
    DenotesIpv6 "0:0:0:0:0:0:0:1".toList [0, 0, 0, 0, 0, 0, 0, 1] := by
  have hzero : IsGroup ['0'] 0 := isGroup_digit '0' 0 (by decide) (by decide)
  have hone : IsGroup ['1'] 1 := isGroup_digit '1' 1 (by decide) (by decide)
  exact DenotesIpv6.full (.group hzero (.group hzero (.group hzero (.group hzero (.group hzero
    (.group hzero (.group hzero (.group hone .nil)))))))) rfl

/-- The loopback address, port and hash in two spellings. -/
theorem not_one_spelling :
    ∃ endpoint, parseKpsAddress ("[::1]:443:" ++ zeroCerthash) = .ok loopbackParts ∧
      parseKpsAddress ("[0:0:0:0:0:0:0:1]:443:" ++ zeroCerthash) = .ok loopbackLongParts ∧
      loopbackParts.Denotes endpoint ∧ loopbackLongParts.Denotes endpoint ∧
      loopbackParts.address ≠ loopbackLongParts.address := by
  refine ⟨⟨.v6 [0, 0, 0, 0, 0, 0, 0, 1], 443, zeroBytes⟩,
    toOption_eq_some_iff.mp (by decide +kernel), toOption_eq_some_iff.mp (by decide +kernel),
    ⟨⟨rfl, ?_⟩, rfl, by decide +kernel⟩, ⟨⟨rfl, ?_⟩, rfl, by decide +kernel⟩, by decide +kernel⟩
  · simpa [loopbackParts, partsOf] using denotes_short
  · simpa [loopbackLongParts, partsOf] using denotes_long

/-- An IPv4 address is the only one of its endpoint. -/
theorem one_spelling_iff_v4 :
    let parts := partsOf false "127.0.0.1".toList 443 zeroCerthash.toList
    let endpoint : Endpoint := ⟨.v4 [127, 0, 0, 1], 443, zeroBytes⟩
    ∀ text' parts', parseKpsAddress text' = .ok parts' → parts'.Denotes endpoint →
      parts'.address = parts.address := by
  intro parts endpoint
  have hquad : IsDottedQuad "127.0.0.1".toList [127, 0, 0, 1] := ⟨rfl, by decide, by decide⟩
  refine (one_spelling_iff ("127.0.0.1:443:" ++ zeroCerthash) parts endpoint
    (toOption_eq_some_iff.mp (by decide +kernel)) ⟨⟨rfl, ?_⟩, rfl, by decide +kernel⟩).mpr
    (by decide +kernel)
  simpa [parts, partsOf] using hquad

end NoxSdk.Kps
