import NoxSdk.Kps.Address

/-!
# The text of an IPv6 address

The grammar of RFC 4291, section 2.2, with the 16-bit units a text stands for: eight groups of
one to four hexadecimal digits, or fewer with one `::` for at least one group, the last 32 bits
possibly as a dotted quad. `isIpv6Literal` splits twice and counts; it accepts the texts of
the grammar and no others.
-/

namespace NoxSdk.Kps

open Js (isHexDigit)

/-! ### The grammar -/

/-- Four decimal octets without leading zeros, with dots between them. -/
structure IsDottedQuad (host : List Char) (octets : List ℕ) : Prop where
  length : octets.length = 4
  octet : ∀ n ∈ octets, n < 256
  text : host = ['.'].intercalate (octets.map (Nat.toDigits 10))

/-- One to four hexadecimal digits, and their value. -/
structure IsGroup (text : List Char) (value : ℕ) : Prop where
  pos : 1 ≤ text.length
  le : text.length ≤ 4
  digits : ∀ c ∈ text, isHexDigit c = true
  value : Js.parseDigits 16 text = value

/-- The groups of a part and the units they stand for; where `embedded`, the last two units may
be a dotted quad. -/
inductive Spells (embedded : Bool) : List (List Char) → List ℕ → Prop
  | nil : Spells embedded [] []
  | group {text : List Char} {value : ℕ} {groups : List (List Char)} {units : List ℕ} :
    IsGroup text value → Spells embedded groups units →
      Spells embedded (text :: groups) (value :: units)
  | quad {text : List Char} {a b c d : ℕ} : embedded = true → IsDottedQuad text [a, b, c, d] →
      Spells embedded [text] [a * 256 + b, c * 256 + d]

/-- The text of an IPv6 address and its eight units. -/
inductive DenotesIpv6 : List Char → List ℕ → Prop
  | full {groups : List (List Char)} {units : List ℕ} : Spells true groups units →
      units.length = 8 → DenotesIpv6 ([':'].intercalate groups) units
  | compressed {before after : List (List Char)} {high low : List ℕ} :
    Spells false before high → Spells true after low → high.length + low.length ≤ 7 →
      DenotesIpv6 ([':'].intercalate before ++ ':' :: ':' :: [':'].intercalate after)
        (high ++ List.replicate (8 - (high.length + low.length)) 0 ++ low)

/-! ### Octets and dotted quads -/

private theorem exists_digitChar_ascii : ∀ n < 128, (Char.ofNat n).isDigit = true →
    ∃ k < 10, Char.ofNat n = Nat.digitChar k := by
  decide

theorem exists_digitChar {c : Char} (h : c.isDigit = true) : ∃ k < 10, c = Nat.digitChar k := by
  have hascii : c.toNat < 128 := Js.toNat_lt_of_isHexDigit (by simp [isHexDigit,
    Js.isLowerHexDigit, h])
  have hdigit := exists_digitChar_ascii c.toNat hascii
  rw [Char.ofNat_toNat] at hdigit
  exact hdigit h

private theorem isDigit_of_le {c last : Char} (hfirst : '0' ≤ c) (hlast : c ≤ last)
    (hnine : last ≤ '9') : c.isDigit = true := by
  simp only [Char.isDigit, Bool.and_eq_true, decide_eq_true_eq]
  exact ⟨hfirst, Char.le_trans hlast hnine⟩

/-- The octets of one, two and three digits, by their digits. -/
private theorem octet_one : ∀ a < 10, Nat.toDigits 10 a = [Nat.digitChar a] := by decide

private theorem octet_two : ∀ a < 10, ∀ b < 10,
    isIpv4Octet [Nat.digitChar a, Nat.digitChar b] = true →
      Nat.toDigits 10 (10 * a + b) = [Nat.digitChar a, Nat.digitChar b] := by decide

private theorem octet_three : ∀ a < 10, ∀ b < 10, ∀ c < 10,
    isIpv4Octet [Nat.digitChar a, Nat.digitChar b, Nat.digitChar c] = true →
      100 * a + 10 * b + c < 256 ∧ Nat.toDigits 10 (100 * a + 10 * b + c) =
        [Nat.digitChar a, Nat.digitChar b, Nat.digitChar c] := by
  decide +kernel

/-- The text of an octet is one that the check takes, of three digits at most. -/
private theorem octet_text : ∀ n < 256, isIpv4Octet (Nat.toDigits 10 n) = true ∧
    Nat.toDigits 10 n ≠ [] ∧ (Nat.toDigits 10 n).length ≤ 3 ∧
      '.' ∉ Nat.toDigits 10 n ∧ ':' ∉ Nat.toDigits 10 n := by
  decide +kernel

/-- An octet is the shortest decimal text of a number below 256. -/
theorem exists_of_isIpv4Octet {text : List Char} (h : isIpv4Octet text = true) :
    ∃ n < 256, text = Nat.toDigits 10 n := by
  have hcopy := h
  unfold isIpv4Octet at h
  split at h
  · obtain ⟨a, ha, rfl⟩ := exists_digitChar h
    exact ⟨a, by omega, (octet_one a ha).symm⟩
  · simp only [Bool.and_eq_true] at h
    obtain ⟨a, ha, rfl⟩ := exists_digitChar h.1.1
    obtain ⟨b, hb, rfl⟩ := exists_digitChar h.2
    exact ⟨10 * a + b, by omega, (octet_two a ha b hb hcopy).symm⟩
  · simp only [Bool.and_eq_true] at h
    obtain ⟨b, hb, rfl⟩ := exists_digitChar h.1
    obtain ⟨c, hc, rfl⟩ := exists_digitChar h.2
    obtain ⟨hlt, htext⟩ := octet_three 1 (by omega) b hb c hc hcopy
    exact ⟨_, hlt, htext.symm⟩
  · rename_i b c
    have hdigits : b.isDigit = true ∧ c.isDigit = true := by
      simp only [Bool.or_eq_true, Bool.and_eq_true, decide_eq_true_eq, beq_iff_eq] at h
      rcases h with ⟨hb, hc⟩ | ⟨rfl, hc⟩
      · exact ⟨isDigit_of_le hb.1 hb.2 (by decide), hc⟩
      · exact ⟨by decide, isDigit_of_le hc.1 hc.2 (by decide)⟩
    obtain ⟨b, hb, rfl⟩ := exists_digitChar hdigits.1
    obtain ⟨c, hc, rfl⟩ := exists_digitChar hdigits.2
    obtain ⟨hlt, htext⟩ := octet_three 2 (by omega) b hb c hc hcopy
    exact ⟨_, hlt, htext.symm⟩
  · cases h

theorem exists_map_of_forall {α β : Type*} {f : β → α} {p : β → Prop} {l : List α}
    (h : ∀ a ∈ l, ∃ b, p b ∧ a = f b) : ∃ bs : List β, (∀ b ∈ bs, p b) ∧ l = bs.map f := by
  induction l with
  | nil => exact ⟨[], by simp, rfl⟩
  | cons a l ih =>
    obtain ⟨⟨b, hb, rfl⟩, hl⟩ := List.forall_mem_cons.mp h
    obtain ⟨bs, hbs, rfl⟩ := ih hl
    exact ⟨b :: bs, List.forall_mem_cons.mpr ⟨hb, hbs⟩, rfl⟩

/-- A character of joined texts is the separator or is in one of them. -/
theorem mem_intercalate {sep c : Char} {l : List (List Char)} (h : c ∈ [sep].intercalate l) :
    c = sep ∨ ∃ text ∈ l, c ∈ text := by
  induction l with
  | nil => simp at h
  | cons text l ih =>
    cases l with
    | nil => exact .inr ⟨text, by simp, by simpa using h⟩
    | cons next l =>
      rw [List.intercalate_cons_cons, List.mem_append, List.mem_append, List.mem_singleton] at h
      rcases h with (h | h) | h
      · exact .inr ⟨text, by simp, h⟩
      · exact .inl h
      · obtain h | ⟨other, hother, hc⟩ := ih h
        · exact .inl h
        · exact .inr ⟨other, List.mem_cons_of_mem _ hother, hc⟩

/-- The check takes four octets with dots between. -/
theorem isIpv4_iff {host : List Char} :
    isIpv4 host = true ↔ ∃ octets, IsDottedQuad host octets := by
  simp only [isIpv4, Bool.and_eq_true, beq_iff_eq, List.all_eq_true]
  constructor
  · rintro ⟨hlength, hoctets⟩
    obtain ⟨octets, hlt, hmap⟩ := exists_map_of_forall fun text htext =>
      exists_of_isIpv4Octet (hoctets text htext)
    refine ⟨octets, by rw [← hlength, hmap, List.length_map], hlt, ?_⟩
    rw [← hmap, List.intercalate_splitOn]
  · rintro ⟨octets, hlength, hlt, rfl⟩
    have hsplit : (['.'].intercalate (octets.map (Nat.toDigits 10))).splitOn '.' =
        octets.map (Nat.toDigits 10) := by
      refine List.splitOn_intercalate '.' (List.forall_mem_map.mpr fun n hn => ?_) ?_
      · exact (octet_text n (hlt n hn)).2.2.2.1
      · rintro hnil
        simp [List.map_eq_nil_iff.mp hnil] at hlength
    rw [hsplit, List.length_map]
    exact ⟨hlength, List.forall_mem_map.mpr fun n hn => (octet_text n (hlt n hn)).1⟩

/-- A dotted quad has a dot, no colon, and at most 15 characters. -/
theorem IsDottedQuad.shape {host : List Char} {octets : List ℕ} (h : IsDottedQuad host octets) :
    '.' ∈ host ∧ ':' ∉ host ∧ host.length ≤ 15 := by
  obtain ⟨hlength, hlt, rfl⟩ := h
  match octets, hlength with
  | [a, b, c, d], _ =>
    obtain ⟨ha, hb, hc, hd⟩ : a < 256 ∧ b < 256 ∧ c < 256 ∧ d < 256 := by simpa using hlt
    obtain ⟨-, -, ha₁, -, ha₂⟩ := octet_text a ha
    obtain ⟨-, -, hb₁, -, hb₂⟩ := octet_text b hb
    obtain ⟨-, -, hc₁, -, hc₂⟩ := octet_text c hc
    obtain ⟨-, -, hd₁, -, hd₂⟩ := octet_text d hd
    simp only [List.map_cons, List.map_nil, List.intercalate_cons_cons,
      List.intercalate_singleton]
    refine ⟨by simp, by simp [ha₂, hb₂, hc₂, hd₂], ?_⟩
    simp only [List.length_append, List.length_singleton]
    omega

/-! ### Groups -/

/-- A group has no dot and no colon and is not empty. -/
theorem IsGroup.notMem {text : List Char} {value : ℕ} (h : IsGroup text value) :
    '.' ∉ text ∧ ':' ∉ text ∧ text ≠ [] := by
  refine ⟨fun hdot => ?_, fun hcolon => ?_, ?_⟩
  · exact absurd (h.digits _ hdot) (by decide)
  · exact absurd (h.digits _ hcolon) (by decide)
  · rintro rfl
    exact absurd h.pos (by decide)

/-- A group is one to four hexadecimal digits. -/
theorem isIpv6Group_iff {text : List Char} :
    isIpv6Group text = true ↔ ∃ value, IsGroup text value := by
  simp only [isIpv6Group, Bool.and_eq_true, decide_eq_true_eq, List.all_eq_true]
  exact ⟨fun h => ⟨_, h.1.1, h.1.2, h.2, rfl⟩, fun ⟨_, h⟩ => ⟨⟨h.pos, h.le⟩, h.digits⟩⟩

namespace Spells

variable {embedded : Bool} {groups before after : List (List Char)} {units high low : List ℕ}

/-- The groups have no colon and are not empty. -/
theorem clean (h : Spells embedded groups units) :
    ∀ text ∈ groups, ':' ∉ text ∧ text ≠ [] := by
  induction h with
  | nil => simp
  | group hgroup _ ih => exact List.forall_mem_cons.mpr ⟨hgroup.notMem.2, ih⟩
  | quad _ hquad =>
    obtain ⟨hdot, hcolon, -⟩ := hquad.shape
    exact List.forall_mem_singleton.mpr ⟨hcolon, List.ne_nil_of_mem hdot⟩

/-- Groups before others are without a dotted quad. -/
theorem append (hbefore : Spells false before high) (hafter : Spells embedded after low) :
    Spells embedded (before ++ after) (high ++ low) := by
  induction hbefore with
  | nil => exact hafter
  | group hgroup _ ih => exact .group hgroup ih
  | quad hembedded => cases hembedded

/-- The first group is hexadecimal, or the dotted quad at the end. -/
theorem cons_cases {text : List Char} (h : Spells embedded (text :: groups) units) :
    (∃ value rest, IsGroup text value ∧ Spells embedded groups rest ∧ units = value :: rest) ∨
      groups = [] ∧ embedded = true ∧ ∃ a b c d, IsDottedQuad text [a, b, c, d] ∧
        units = [a * 256 + b, c * 256 + d] := by
  cases h with
  | group hgroup hrest => exact .inl ⟨_, _, hgroup, hrest, rfl⟩
  | quad hembedded hquad => exact .inr ⟨rfl, hembedded, _, _, _, _, hquad, rfl⟩

/-- Groups that are spelled in a row are spelled one part after the other. -/
theorem exists_of_append (hne : after ≠ []) (h : Spells embedded (before ++ after) units) :
    ∃ high low, Spells false before high ∧ Spells embedded after low ∧ units = high ++ low := by
  induction before generalizing units with
  | nil => exact ⟨[], units, .nil, h, rfl⟩
  | cons text before ih =>
    obtain ⟨value, rest, hgroup, hrest, rfl⟩ | ⟨hnil, -⟩ := h.cons_cases
    · obtain ⟨high, low, hbefore, hafter, rfl⟩ := ih hrest
      exact ⟨value :: high, low, .group hgroup hbefore, hafter, rfl⟩
    · exact absurd (List.append_eq_nil_iff.mp hnil).2 hne

end Spells

/-- A single text is a group, or an embedded IPv4 address where one may stand. -/
theorem exists_spells_singleton_iff {embedded : Bool} {text : List Char} {n : ℕ} :
    (∃ units, Spells embedded [text] units ∧ units.length = n) ↔
      isIpv6Group text = true ∧ n = 1 ∨ embedded = true ∧ isIpv4 text = true ∧ n = 2 := by
  constructor
  · rintro ⟨units, h, rfl⟩
    obtain ⟨value, rest, hgroup, hrest, rfl⟩ | ⟨-, hembedded, a, b, c, d, hquad, rfl⟩ :=
      h.cons_cases
    · cases hrest
      exact .inl ⟨isIpv6Group_iff.mpr ⟨value, hgroup⟩, rfl⟩
    · exact .inr ⟨hembedded, isIpv4_iff.mpr ⟨_, hquad⟩, rfl⟩
  · rintro (⟨hgroup, rfl⟩ | ⟨hembedded, hquad, rfl⟩)
    · obtain ⟨value, hvalue⟩ := isIpv6Group_iff.mp hgroup
      exact ⟨[value], .group hvalue .nil, rfl⟩
    · obtain ⟨octets, hoctets⟩ := isIpv4_iff.mp hquad
      match octets, hoctets.length with
      | [a, b, c, d], _ => exact ⟨_, .quad hembedded hoctets, rfl⟩

/-- A dot tells a dotted quad from a group. -/
theorem unitsOf_singleton_iff {embedded : Bool} {text : List Char} {n : ℕ} :
    unitsOf embedded [text] = some n ↔
      isIpv6Group text = true ∧ n = 1 ∨ embedded = true ∧ isIpv4 text = true ∧ n = 2 := by
  have hgroupDot : isIpv6Group text = true → text.contains '.' = false := by
    intro h
    obtain ⟨value, hvalue⟩ := isIpv6Group_iff.mp h
    simpa using hvalue.notMem.1
  have hquadDot : isIpv4 text = true → text.contains '.' = true := by
    intro h
    obtain ⟨octets, hoctets⟩ := isIpv4_iff.mp h
    simpa using hoctets.shape.1
  rw [unitsOf]
  cases hdot : text.contains '.' with
  | true =>
    have hgroup : isIpv6Group text = false := by
      by_contra h
      exact absurd (hgroupDot (by simpa using h)) (by rw [hdot]; decide)
    cases embedded <;> cases isIpv4 text <;> simp [hgroup, eq_comm]
  | false =>
    have hquad : isIpv4 text = false := by
      by_contra h
      exact absurd (hquadDot (by simpa using h)) (by rw [hdot]; decide)
    cases isIpv6Group text <;> simp [hquad, eq_comm]

/-- The count of `isIpv6Literal` is that of the units. -/
theorem unitsOf_eq_some_iff {embedded : Bool} {groups : List (List Char)} {n : ℕ} :
    unitsOf embedded groups = some n ↔
      ∃ units, Spells embedded groups units ∧ units.length = n := by
  induction groups generalizing n with
  | nil =>
    rw [unitsOf, Option.some_inj]
    constructor
    · rintro rfl
      exact ⟨[], .nil, rfl⟩
    · rintro ⟨units, h, rfl⟩
      cases h
      rfl
  | cons text rest ih =>
    cases rest with
    | nil =>
      -- the last group, which alone may be a dotted quad
      exact unitsOf_singleton_iff.trans exists_spells_singleton_iff.symm
    | cons next rest =>
      rw [unitsOf]
      swap
      · exact fun hnil => absurd hnil (List.cons_ne_nil next rest)
      split_ifs with hgroup
      · obtain ⟨value, hvalue⟩ := isIpv6Group_iff.mp hgroup
        rw [Option.map_eq_some_iff]
        constructor
        · rintro ⟨m, hm, rfl⟩
          obtain ⟨units, hspells, rfl⟩ := ih.mp hm
          exact ⟨value :: units, .group hvalue hspells, rfl⟩
        · rintro ⟨units, hspells, rfl⟩
          obtain ⟨_, tail, -, htail, rfl⟩ | ⟨hnil, -⟩ := hspells.cons_cases
          · exact ⟨tail.length, ih.mpr ⟨tail, htail, rfl⟩, rfl⟩
          · cases hnil
      · constructor
        · intro h
          cases h
        · rintro ⟨units, hspells, rfl⟩
          obtain ⟨_, _, hvalue, -⟩ | ⟨hnil, -⟩ := hspells.cons_cases
          · exact absurd (isIpv6Group_iff.mpr ⟨_, hvalue⟩) hgroup
          · cases hnil

/-! ### The two splits -/

theorem splitHalves_ne_nil (text : List Char) : splitHalves text ≠ [] := by
  unfold splitHalves
  split
  · simp
  · simp
  · split <;> simp

/-- A character that starts no `::` stays with the half after it. -/
theorem splitHalves_cons {c : Char} {rest : List Char}
    (h : c ≠ ':' ∨ rest.head? ≠ some ':') :
    splitHalves (c :: rest) = (splitHalves rest).modifyHead (c :: ·) := by
  rw [splitHalves]
  · cases hhalves : splitHalves rest with
    | nil => exact absurd hhalves (splitHalves_ne_nil rest)
    | cons half halves => rfl
  · rintro tail rfl rfl
    simp at h

private theorem modifyHead_nil_append (halves : List (List Char)) :
    halves.modifyHead ([] ++ ·) = halves := by
  cases halves <;> rfl

/-- A text without a colon joins the first half. -/
theorem splitHalves_append {text rest : List Char} (h : ':' ∉ text) :
    splitHalves (text ++ rest) = (splitHalves rest).modifyHead (text ++ ·) := by
  induction text with
  | nil => exact (modifyHead_nil_append _).symm
  | cons c text ih =>
    rw [List.mem_cons, not_or] at h
    rw [List.cons_append, splitHalves_cons (.inl (Ne.symm h.1)), ih h.2, List.modifyHead_modifyHead]
    rfl

/-- Nothing is lost between the halves. -/
theorem intercalate_splitHalves (text : List Char) :
    [':', ':'].intercalate (splitHalves text) = text := by
  induction text using splitHalves.induct with
  | case1 => rfl
  | case2 rest ih =>
    rw [splitHalves, List.intercalate_cons_of_ne_nil (splitHalves_ne_nil rest), ih]
    rfl
  | case3 c rest hcolons hnil ih => exact absurd hnil (splitHalves_ne_nil rest)
  | case4 c rest hcolons half halves hhalves ih =>
    have hstays : c ≠ ':' ∨ rest.head? ≠ some ':' := by
      by_contra hboth
      rw [not_or, not_ne_iff, not_ne_iff] at hboth
      obtain ⟨tail, htail⟩ := List.head?_eq_some_iff.mp hboth.2
      exact hcolons tail hboth.1 htail
    rw [splitHalves_cons hstays, hhalves, List.modifyHead_cons,
      List.intercalate_cons_cons_left, ← hhalves, ih]

/-- The text of groups is in one half, up to what follows. -/
theorem splitHalves_groups {groups : List (List Char)} (rest : List Char)
    (h : ∀ text ∈ groups, ':' ∉ text ∧ text ≠ []) :
    splitHalves ([':'].intercalate groups ++ rest) =
      (splitHalves rest).modifyHead ([':'].intercalate groups ++ ·) := by
  induction groups with
  | nil => exact (modifyHead_nil_append _).symm
  | cons text groups ih =>
    obtain ⟨htext, hgroups⟩ := List.forall_mem_cons.mp h
    cases groups with
    | nil =>
      rw [List.intercalate_singleton]
      exact splitHalves_append htext.1
    | cons next groups =>
      obtain ⟨hnext, -⟩ := List.forall_mem_cons.mp hgroups
      obtain ⟨c, cs, rfl⟩ := List.exists_cons_of_ne_nil hnext.2
      have hhead : ([':'].intercalate ((c :: cs) :: groups) ++ rest).head? ≠ some ':' := by
        rw [List.intercalate_cons_cons_left, List.cons_append, List.head?_cons]
        rintro heq
        obtain rfl := Option.some.inj heq
        exact hnext.1 List.mem_cons_self
      rw [List.intercalate_cons_cons, List.append_assoc, List.append_assoc, List.singleton_append,
        splitHalves_append htext.1, splitHalves_cons (.inr hhead), ih hgroups,
        List.modifyHead_modifyHead, List.modifyHead_modifyHead]
      refine congrArg (List.modifyHead · _) (funext fun half => ?_)
      simp

/-- Splitting joined groups gives the groups. -/
theorem groupsOf_groups {groups : List (List Char)}
    (h : ∀ text ∈ groups, ':' ∉ text ∧ text ≠ []) :
    groupsOf ([':'].intercalate groups) = groups := by
  cases groups with
  | nil => rfl
  | cons text groups =>
    have hne : [':'].intercalate (text :: groups) ≠ [] := by
      obtain ⟨c, cs, rfl⟩ := List.exists_cons_of_ne_nil (h text List.mem_cons_self).2
      rw [List.intercalate_cons_cons_left]
      exact List.cons_ne_nil _ _
    rw [groupsOf, if_neg hne]
    exact List.splitOn_intercalate ':' (fun group hgroup => (h group hgroup).1)
      (List.cons_ne_nil _ _)

theorem intercalate_groupsOf (part : List Char) : [':'].intercalate (groupsOf part) = part := by
  rw [groupsOf]
  split_ifs with hnil
  · exact hnil.symm
  · exact List.intercalate_splitOn ':'

/-! ### Lengths -/

namespace Spells

variable {embedded : Bool} {groups : List (List Char)} {units : List ℕ}

/-- Groups take five characters a unit with their colons, a dotted quad six more. -/
theorem length_le (h : Spells embedded groups units) :
    ([':'].intercalate groups).length ≤ 5 * units.length + (if embedded then 5 else 0) := by
  induction h with
  | nil => simp
  | @group text value groups units hgroup _ ih =>
    have hle := hgroup.le
    cases groups with
    | nil =>
      rw [List.intercalate_singleton, List.length_cons]
      omega
    | cons next groups =>
      rw [List.intercalate_cons_cons, List.length_append, List.length_append,
        List.length_singleton, List.length_cons]
      omega
  | quad hembedded hquad =>
    have hle := hquad.shape.2.2
    rw [List.intercalate_singleton, if_pos hembedded]
    simp only [List.length_cons, List.length_nil]
    omega

/-- There are at most twice as many units as the text is long. -/
theorem length_units_le (h : Spells embedded groups units) :
    units.length ≤ 2 * ([':'].intercalate groups).length := by
  induction h with
  | nil => simp
  | @group text value groups units hgroup _ ih =>
    have hpos := hgroup.pos
    cases groups with
    | nil =>
      rw [List.intercalate_nil, List.length_nil] at ih
      rw [List.intercalate_singleton, List.length_cons]
      omega
    | cons next groups =>
      rw [List.intercalate_cons_cons, List.length_append, List.length_append,
        List.length_singleton, List.length_cons]
      omega
  | quad _ hquad =>
    have hpos := List.length_pos_of_mem hquad.shape.1
    rw [List.intercalate_singleton]
    simp only [List.length_cons, List.length_nil]
    omega

/-- Only hexadecimal digits, colons and dots. -/
theorem ascii (h : Spells embedded groups units) :
    ∀ text ∈ groups, ∀ c ∈ text, isHexDigit c = true ∨ c = '.' := by
  induction h with
  | nil => simp
  | group hgroup _ ih =>
    exact List.forall_mem_cons.mpr ⟨fun c hc => .inl (hgroup.digits c hc), ih⟩
  | quad _ hquad =>
    refine List.forall_mem_singleton.mpr fun c hc => ?_
    obtain ⟨-, hlt, rfl⟩ := hquad
    obtain rfl | ⟨text, htext, hc⟩ := mem_intercalate hc
    · exact .inr rfl
    · obtain ⟨n, hn, rfl⟩ := List.mem_map.mp htext
      have hdigit := Nat.isDigit_of_mem_toDigits (b := 10) (by decide) (by decide) hc
      exact .inl (by simp [isHexDigit, Js.isLowerHexDigit, hdigit])

end Spells

namespace DenotesIpv6

variable {text : List Char} {units : List ℕ}

/-- An address has eight units. -/
theorem length_units (h : DenotesIpv6 text units) : units.length = 8 := by
  cases h with
  | full _ hlength => exact hlength
  | compressed _ _ hle =>
    simp only [List.length_append, List.length_replicate]
    omega

/-- A text of the grammar is made of digits, dots and colons. -/
theorem mem_text (h : DenotesIpv6 text units) {c : Char} (hc : c ∈ text) :
    isHexDigit c = true ∨ c = '.' ∨ c = ':' := by
  have hpart : ∀ {embedded : Bool} {groups : List (List Char)} {units : List ℕ},
      Spells embedded groups units → c ∈ [':'].intercalate groups →
        isHexDigit c = true ∨ c = '.' ∨ c = ':' := by
    intro embedded groups units hspells hc
    obtain rfl | ⟨group, hgroup, hc⟩ := mem_intercalate hc
    · exact .inr (.inr rfl)
    · exact (hspells.ascii group hgroup c hc).imp_right .inl
  cases h with
  | full hspells _ => exact hpart hspells hc
  | compressed hbefore hafter _ =>
    simp only [List.mem_append, List.mem_cons] at hc
    rcases hc with hc | rfl | rfl | hc
    · exact hpart hbefore hc
    · exact .inr (.inr rfl)
    · exact .inr (.inr rfl)
    · exact hpart hafter hc

/-- No text of the grammar is longer than 45 characters. -/
theorem length_text (h : DenotesIpv6 text units) : 2 ≤ Js.length text ∧ Js.length text ≤ 45 := by
  have hbmp : ∀ c ∈ text, c.toNat < 0x10000 := by
    intro c hc
    obtain hhex | rfl | rfl := h.mem_text hc
    · exact (Js.toNat_lt_of_isHexDigit hhex).trans (by decide)
    · decide
    · decide
  rw [Js.length_eq hbmp]
  cases h with
  | full hspells hlength =>
    have hle := hspells.length_le
    rw [if_pos rfl, hlength] at hle
    have hunits := hspells.length_units_le
    omega
  | compressed hbefore hafter hle =>
    have hhigh := hbefore.length_le
    have hlow := hafter.length_le
    rw [if_pos rfl] at hlow
    rw [if_neg Bool.false_ne_true] at hhigh
    simp only [List.length_append, List.length_cons]
    omega

end DenotesIpv6

/-- Two halves with at most seven units between them. -/
theorem exists_denotesIpv6_compressed {before after : List Char}
    (h : (unitsOf (decide ((groupsOf after).length > 0)) (groupsOf before ++ groupsOf after)).any
      (decide <| · ≤ 7) = true) :
    ∃ units, DenotesIpv6 (before ++ ':' :: ':' :: after) units := by
  obtain ⟨n, hn, hle⟩ := (Option.any_eq_true _ _).mp h
  obtain ⟨units, hspells, rfl⟩ := unitsOf_eq_some_iff.mp hn
  have hle := of_decide_eq_true hle
  rw [← intercalate_groupsOf before, ← intercalate_groupsOf after]
  rcases List.eq_nil_or_concat' (groupsOf after) with hnil | ⟨init, last, hconcat⟩
  · rw [hnil] at hspells ⊢
    rw [List.append_nil] at hspells
    exact ⟨_, .compressed hspells .nil (by simpa using hle)⟩
  · have hne : groupsOf after ≠ [] := by simp [hconcat]
    rw [decide_eq_true (List.length_pos_iff.mpr hne)] at hspells
    obtain ⟨high, low, hbefore, hafter, rfl⟩ := hspells.exists_of_append hne
    exact ⟨_, .compressed hbefore hafter (by simpa using hle)⟩

/-- `isIpv6Literal` accepts the texts of the grammar.

The halves around a `::` are read by their groups (`splitHalves_groups`), and a text of the grammar
is never longer than the length that the code allows (`length_text`), so the check of the length
refuses none. -/
theorem isIpv6Literal_iff (value : List Char) :
    isIpv6Literal value = true ↔
      Js.length value ≤ 45 ∧ ∃ units, DenotesIpv6 value units := by
  rw [isIpv6Literal]
  constructor
  · intro h
    split_ifs at h with hlength
    refine ⟨by omega, ?_⟩
    have hparts := intercalate_splitHalves value
    split at h
    · rename_i whole hwhole
      rw [hwhole, List.intercalate_singleton] at hparts
      -- no `::`: the groups spell all eight units
      obtain ⟨units, hspells, hunits⟩ := unitsOf_eq_some_iff.mp (beq_iff_eq.mp h)
      rw [← hparts, ← intercalate_groupsOf whole]
      exact ⟨units, .full hspells hunits⟩
    · rename_i before after hhalves
      rw [hhalves, List.intercalate_cons_cons, List.intercalate_singleton,
        List.append_assoc] at hparts
      rw [← hparts]
      exact exists_denotesIpv6_compressed h
    · cases h
  · rintro ⟨-, units, h⟩
    have hlength := h.length_text
    rw [if_neg (by omega)]
    cases h with
    | @full groups _ hspells hunits =>
      have hhalves := splitHalves_groups [] hspells.clean
      rw [List.append_nil, splitHalves, List.modifyHead_cons, List.append_nil] at hhalves
      rw [hhalves]
      refine beq_iff_eq.mpr ?_
      rw [groupsOf_groups hspells.clean]
      exact unitsOf_eq_some_iff.mpr ⟨units, hspells, hunits⟩
    | @compressed before after high low hbefore hafter hle =>
      have hsecond := splitHalves_groups [] hafter.clean
      rw [List.append_nil, splitHalves, List.modifyHead_cons, List.append_nil] at hsecond
      rw [splitHalves_groups _ hbefore.clean, splitHalves, hsecond, List.modifyHead_cons,
        List.append_nil]
      -- a dotted quad stands in the second half only, which may be empty
      have hspells : Spells (decide (after.length > 0)) (before ++ after) (high ++ low) := by
        cases hafter with
        | nil => simpa using hbefore
        | group hgroup hrest => exact hbefore.append (.group hgroup hrest)
        | quad hembedded hquad => exact hbefore.append (.quad hembedded hquad)
      refine (Option.any_eq_true _ _).mpr ⟨_, ?_, decide_eq_true hle⟩
      rw [groupsOf_groups hbefore.clean, groupsOf_groups hafter.clean]
      exact unitsOf_eq_some_iff.mpr ⟨_, hspells, List.length_append⟩

example : isIpv6Literal "::ffff:192.0.2.1".toList = true := by decide

example : isIpv6Literal "192.0.2.1::".toList = false := by decide

end NoxSdk.Kps
