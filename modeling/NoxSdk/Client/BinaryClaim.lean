import NoxSdk.Js
import NoxSdk.Lib.ByteViews

/-!
# Binary claim batches

`decodeBinaryClaim` and `encodeBinaryClaim` of `transport.ts`. The decoder is a reader whose
position is the `offset` of the code; `need` compares it with the end before every read. A read
past the end, which the language would answer with a `RangeError` or `undefined`, is the error
`pastEnd` here, so that the absence of such reads can be stated.

`batchBytes` is the layout of a batch with any flag bytes: the encoder writes it with the bits it
knows, the decoder accepts nothing else (`binary_claim_round_trip`).
-/

namespace NoxSdk.Transport

/-- `CLAIM_BATCH_VERSION`. -/
def claimBatchVersion : ℕ := 1

/-- `CLAIM_ITEM_FLAG_RECLAIMED`. -/
def claimItemFlagReclaimed : UInt8 := 1

/-- `ClaimedItem`. -/
structure ClaimedItem where
  id : String
  data : Bytes
  reclaimed : Option Bool
  deriving DecidableEq, Repr

/-! ### The encoder -/

/-- `char.charCodeAt(0)`: the first code unit of a character. -/
def charCodeAt (c : Char) : ℕ :=
  if c.toNat < 0x10000 then c.toNat else 0xD800 + (c.toNat - 0x10000) / 0x400

/-- `Uint8Array.from(id, (char) => char.charCodeAt(0))`. -/
def idBytes (id : String) : Bytes := id.toList.map fun c => UInt8.ofNat (charCodeAt c)

/-- An item with a flag byte: the flags, the ID with its length and the data with theirs. -/
def itemBytes (flags : UInt8) (item : ClaimedItem) : Bytes :=
  flags :: (beBytes 2 (idBytes item.id).length ++ (idBytes item.id ++
    (beBytes 4 item.data.length ++ item.data)))

/-- A batch with a flag byte for each item. -/
def batchBytes (items : List (UInt8 × ClaimedItem)) : Bytes :=
  UInt8.ofNat claimBatchVersion ::
    (beBytes 2 items.length ++ items.flatMap fun entry => itemBytes entry.1 entry.2)

/-- The flag byte the encoder writes. -/
def ClaimedItem.flags (item : ClaimedItem) : UInt8 :=
  if item.reclaimed = some true then claimItemFlagReclaimed else 0

/-- `encodeBinaryClaim`. -/
def encodeBinaryClaim (items : List ClaimedItem) : Bytes :=
  batchBytes (items.map fun item => (item.flags, item))

/-! ### The decoder -/

/-- The error of `fail`. -/
def malformed (wherefrom : String) (body : Bytes) (offset : ℕ) (detail : String) : Thrown :=
  .noxClientError
    s!"Binary claim batch from {wherefrom} is malformed at byte {offset} of {body.length}: {detail}"
    .transportFailed

/-- A read past the end of the body. -/
def pastEnd : Thrown := .error "Offset is outside the bounds of the DataView"

/-- A reader of the body at the current `offset`. -/
abbrev BodyReader (α : Type) := ByteReader Thrown α

namespace BodyReader

/-- `fail`. -/
def fail {α : Type} (wherefrom detail : String) : BodyReader α := fun body offset =>
  .error (malformed wherefrom body offset detail)

/-- `need`. -/
def need (wherefrom : String) (bytes : ℕ) (what : String) : BodyReader Unit := fun body offset =>
  if body.length < offset + bytes then fail wherefrom s!"truncated {what}" body offset
  else .ok ((), offset)

/-- The big-endian `get` methods of the view, `ahead` bytes after the offset. -/
def getBigEndian (ahead width : ℕ) : BodyReader ℕ := fun body offset =>
  match readAt body (offset + ahead) width with
  | none => .error pastEnd
  | some raw => .ok (beValue raw, offset)

/-- `offset += n`. -/
def advance (n : ℕ) : BodyReader Unit := fun _ offset => .ok ((), offset + n)

/-- `body.slice(offset, offset + n)`. -/
def slice (n : ℕ) : BodyReader Bytes := fun body offset => .ok ((body.drop offset).take n, offset)

/-- The check after the last item. -/
def expectEnd (wherefrom : String) : BodyReader Unit := fun body offset =>
  if offset ≠ body.length then
    fail wherefrom s!"{body.length - offset} bytes after the last item" body offset
  else .ok ((), offset)

end BodyReader

open BodyReader

/-- The loop over the bytes of an ID, of which `i` are read and `remaining` are left. -/
def readId (wherefrom : String) (index : ℕ) : ℕ → ℕ → String → BodyReader String
  | 0, _, id => return id
  | remaining + 1, i, id => do
    let byte ← getBigEndian i 1
    if byte < 0x20 ∨ byte > 0x7e then
      fail wherefrom s!"item {index} ID is not printable ASCII"
    else readId wherefrom index remaining (i + 1) (id.push (Char.ofNat byte))

/-- The body of the loop over the items. -/
def readItem (wherefrom : String) (index : ℕ) : BodyReader ClaimedItem := do
  need wherefrom 3 s!"item {index} flags and ID length"
  let flags ← getBigEndian 0 1
  let idLength ← getBigEndian 1 2
  advance 3
  if idLength = 0 then fail wherefrom s!"item {index} has an empty ID"
  else do
    need wherefrom idLength s!"item {index} ID"
    let id ← readId wherefrom index idLength 0 ""
    advance idLength
    need wherefrom 4 s!"item {index} data length"
    let dataLength ← getBigEndian 0 4
    advance 4
    need wherefrom dataLength s!"item {index} data ({dataLength} bytes declared)"
    let data ← slice dataLength
    advance dataLength
    return ⟨id, data, some (decide (UInt8.ofNat flags &&& claimItemFlagReclaimed ≠ 0))⟩

/-- The loop over the items, of which `index` are read and `remaining` are left. -/
def readItems (wherefrom : String) : ℕ → ℕ → BodyReader (List ClaimedItem)
  | 0, _ => return []
  | remaining + 1, index => do
    let item ← readItem wherefrom index
    let items ← readItems wherefrom remaining (index + 1)
    return item :: items

/-- All of `decodeBinaryClaim`, as a reader. -/
def readBatch (wherefrom : String) : BodyReader (List ClaimedItem) := do
  need wherefrom 3 "header"
  let version ← getBigEndian 0 1
  if version ≠ claimBatchVersion then fail wherefrom s!"unknown batch version {version}"
  else do
    let count ← getBigEndian 1 2
    advance 3
    let items ← readItems wherefrom count 0
    expectEnd wherefrom
    return items

/-- `decodeBinaryClaim`. -/
def decodeBinaryClaim (body : Bytes) (wherefrom : String) : Except Thrown (List ClaimedItem) :=
  (readBatch wherefrom body 0).map Prod.fst

/-! ### The parts of the decoder -/

/-- A printable ASCII byte. -/
def PrintableByte (b : UInt8) : Prop := 0x20 ≤ b.toNat ∧ b.toNat ≤ 0x7e

/-- The text of ASCII bytes. -/
def asciiText (raw : Bytes) : String := String.ofList (raw.map fun b => Char.ofNat b.toNat)

/-- The only error of the decoder: it names an offset of the body. -/
def IsMalformed (wherefrom : String) (body : Bytes) (e : Thrown) : Prop :=
  ∃ offset detail, offset ≤ body.length ∧ e = malformed wherefrom body offset detail

section Parts

variable {wherefrom : String} {body : Bytes} {offset : ℕ}

theorem fail_outcome {α : Type} {Q : α → ℕ → Prop} (h : offset ≤ body.length) (detail : String) :
    ByteReader.Outcome Q (IsMalformed wherefrom body) (fail wherefrom detail body offset) :=
  ⟨offset, detail, h, rfl⟩

theorem need_of_le {bytes : ℕ} (h : offset + bytes ≤ body.length) (what : String) :
    need wherefrom bytes what body offset = .ok ((), offset) := if_neg (not_lt.mpr h)

theorem need_outcome (h : offset ≤ body.length) (bytes : ℕ) (what : String) :
    ByteReader.Outcome (fun _ mid => offset = mid ∧ offset + bytes ≤ body.length)
      (IsMalformed wherefrom body) (need wherefrom bytes what body offset) := by
  rw [need]
  split_ifs with hshort
  · exact fail_outcome h _
  · exact ⟨rfl, not_lt.mp hshort⟩

theorem expectEnd_outcome (h : offset ≤ body.length) :
    ByteReader.Outcome (fun _ _ => offset = body.length) (IsMalformed wherefrom body)
      (expectEnd wherefrom body offset) := by
  rw [expectEnd]
  split_ifs with hend
  · exact fail_outcome h _
  · exact not_not.mp hend

/-- A field where it stands. -/
theorem getBigEndian_append {ahead width n : ℕ} {rest : Bytes}
    (h : body.drop (offset + ahead) = beBytes width n ++ rest) (hpos : 0 < width)
    (hn : n < 256 ^ width) : getBigEndian ahead width body offset = .ok (n, offset) := by
  rw [getBigEndian, readAt_append h (length_beBytes width n) hpos]
  simp only [beValue_beBytes_of_lt hn]

/-- A read that was asked for does not reach past the end. -/
theorem getBigEndian_outcome (ahead width : ℕ) (h : offset + ahead + width ≤ body.length)
    {E : Thrown → Prop} :
    ByteReader.Outcome (fun n mid => offset = mid ∧ n < 256 ^ width ∧
        body.drop (offset + ahead) = beBytes width n ++ body.drop (offset + ahead + width)) E
      (getBigEndian ahead width body offset) := by
  rw [getBigEndian]
  cases hread : readAt body (offset + ahead) width with
  | none =>
    have hshort := readAt_eq_none_iff.mp hread
    omega
  | some raw =>
    obtain ⟨rfl, -, hdrop⟩ := readAt_eq_some_iff.mp hread
    exact ⟨rfl, beValue_lt raw, by rw [beBytes_beValue, hdrop]⟩

theorem toNat_ofNat_of_printable {b : UInt8} (h : PrintableByte b) :
    (Char.ofNat b.toNat).toNat = b.toNat := by
  have hvalid : b.toNat.isValidChar := .inl (lt_of_le_of_lt h.2 (by decide))
  rw [Char.ofNat, dif_pos hvalid]
  rfl

/-- The bytes of a text of printable ASCII. -/
theorem idBytes_asciiText {raw : Bytes} (h : ∀ b ∈ raw, PrintableByte b) :
    idBytes (asciiText raw) = raw := by
  rw [idBytes, asciiText, String.toList_ofList, List.map_map]
  refine (List.map_congr_left fun b hb => ?_).trans (List.map_id raw)
  have hb' := h b hb
  have hchar := toNat_ofNat_of_printable hb'
  have hsmall : b.toNat < 0x10000 := lt_of_le_of_lt hb'.2 (by decide)
  simp only [Function.comp_apply, charCodeAt, hchar, if_pos hsmall, UInt8.ofNat_toNat, id_eq]

/-- The loop over an ID of printable ASCII returns its text. -/
theorem readId_of_printable {raw rest : Bytes} (hraw : ∀ b ∈ raw, PrintableByte b) (index i : ℕ)
    (id : String) (h : body.drop (offset + i) = raw ++ rest) :
    readId wherefrom index raw.length i id body offset =
      .ok (id ++ asciiText raw, offset) := by
  induction raw generalizing i id with
  | nil => simp [readId, asciiText]; rfl
  | cons b raw ih =>
    have hb := hraw b List.mem_cons_self
    have hhead : body.drop (offset + i) = beBytes 1 b.toNat ++ (raw ++ rest) := by
      rw [h]
      simp [beBytes, leBytes]
    have hbyte : getBigEndian i 1 body offset = .ok (b.toNat, offset) :=
      getBigEndian_append hhead (by decide) b.toNat_lt
    have htail : body.drop (offset + (i + 1)) = raw ++ rest := by
      rw [← Nat.add_assoc]
      exact @drop_of_drop_eq_append body [b] _ _ _ h rfl
    rw [List.length_cons, readId, ByteReader.bind_of_ok hbyte,
      if_neg (by rw [PrintableByte] at hb; omega),
      ih (fun c hc => hraw c (List.mem_cons_of_mem _ hc)) (i + 1) (id.push (Char.ofNat b.toNat))
        htail]
    congr 2
    rw [← String.toList_inj]
    simp [asciiText]

/-- The loop over an ID that is there. -/
theorem readId_outcome (index remaining i : ℕ) (id : String)
    (h : offset + i + remaining ≤ body.length) :
    ByteReader.Outcome (fun text mid => offset = mid ∧ ∃ raw : Bytes, raw.length = remaining ∧
        (∀ b ∈ raw, PrintableByte b) ∧ text = id ++ asciiText raw ∧
        body.drop (offset + i) = raw ++ body.drop (offset + i + remaining))
      (IsMalformed wherefrom body) (readId wherefrom index remaining i id body offset) := by
  induction remaining generalizing i id with
  | zero => exact ⟨rfl, [], rfl, by simp, by simp [asciiText], by simp⟩
  | succ remaining ih =>
    rw [readId]
    refine (getBigEndian_outcome i 1 (by omega)).bind ?_
    rintro byte _ ⟨rfl, hbyte, hdrop⟩
    split_ifs with hprintable
    · exact fail_outcome (by omega) _
    · have hrest := ih (i + 1) (id.push (Char.ofNat byte)) (by omega)
      -- the byte comes in front of those the rest of the loop reads
      cases hresult : readId wherefrom index remaining (i + 1) (id.push (Char.ofNat byte))
          body offset with
      | error e =>
        rw [hresult] at hrest
        exact hrest
      | ok result =>
        rw [hresult] at hrest
        obtain ⟨hmid, raw, hlen, hraw, htext, htail⟩ := hrest
        have hvalue : (UInt8.ofNat byte).toNat = byte := by
          rw [UInt8.toNat_ofNat']
          exact Nat.mod_eq_of_lt hbyte
        refine ⟨hmid, UInt8.ofNat byte :: raw, by rw [List.length_cons, hlen], ?_, ?_, ?_⟩
        · rintro b hb
          rcases List.mem_cons.mp hb with rfl | hb
          · rw [PrintableByte, hvalue]
            omega
          · exact hraw b hb
        · rw [htext, ← String.toList_inj]
          simp [asciiText, hvalue]
        · have hend : offset + (i + 1) + remaining = offset + i + (remaining + 1) := by omega
          rw [hdrop, Nat.add_assoc offset i 1, htail, hend]
          rfl

/-! ### Items -/

/-- An item that a batch can hold. -/
structure ClaimedItem.Fits (item : ClaimedItem) : Prop where
  printable : ∀ c ∈ item.id.toList, 0x20 ≤ c.toNat ∧ c.toNat ≤ 0x7e
  id_pos : 1 ≤ item.id.toList.length
  id_le : item.id.toList.length ≤ 65535
  data_lt : item.data.length < 2 ^ 32

@[simp] theorem length_idBytes (id : String) : (idBytes id).length = id.toList.length :=
  List.length_map _

theorem printable_idBytes {id : String} (h : ∀ c ∈ id.toList, 0x20 ≤ c.toNat ∧ c.toNat ≤ 0x7e) :
    (∀ b ∈ idBytes id, PrintableByte b) ∧ asciiText (idBytes id) = id := by
  have hbyte : ∀ c ∈ id.toList, (UInt8.ofNat (charCodeAt c)).toNat = c.toNat := by
    intro c hc
    have hc' := h c hc
    rw [charCodeAt, if_pos (by omega), UInt8.toNat_ofNat']
    exact Nat.mod_eq_of_lt (by omega)
  constructor
  · intro b hb
    obtain ⟨c, hc, rfl⟩ := List.mem_map.mp hb
    rw [PrintableByte, hbyte c hc]
    exact h c hc
  · rw [asciiText, idBytes, List.map_map, ← String.toList_inj, String.toList_ofList]
    refine (List.map_congr_left fun c hc => ?_).trans (List.map_id _)
    rw [Function.comp_apply, hbyte c hc, Char.ofNat_toNat, id_eq]

theorem printable_of_asciiText {raw : Bytes} (h : ∀ b ∈ raw, PrintableByte b) :
    ∀ c ∈ (asciiText raw).toList, 0x20 ≤ c.toNat ∧ c.toNat ≤ 0x7e := by
  intro c hc
  rw [asciiText, String.toList_ofList] at hc
  obtain ⟨b, hb, rfl⟩ := List.mem_map.mp hc
  rw [toNat_ofNat_of_printable (h b hb)]
  exact h b hb

/-- An item as it is read: with its mark of a returned reply. -/
def ClaimedItem.read (flags : UInt8) (item : ClaimedItem) : ClaimedItem :=
  { item with reclaimed := some (decide (flags &&& claimItemFlagReclaimed ≠ 0)) }

theorem length_itemBytes (flags : UInt8) (item : ClaimedItem) :
    (itemBytes flags item).length = 3 + item.id.toList.length + 4 + item.data.length := by
  simp only [itemBytes, List.length_cons, List.length_append, length_beBytes, length_idBytes]
  omega

/-- An item is read where it stands. -/
theorem readItem_of_fits {item : ClaimedItem} (hfits : item.Fits) (index : ℕ) (flags : UInt8)
    {rest : Bytes} (h : body.drop offset = itemBytes flags item ++ rest) :
    readItem wherefrom index body offset =
      .ok (item.read flags, offset + (itemBytes flags item).length) := by
  have hlength : offset + (itemBytes flags item).length ≤ body.length := by
    have hcount := congrArg List.length h
    have hpos := length_itemBytes flags item
    rw [List.length_drop, List.length_append] at hcount
    omega
  rw [length_itemBytes] at hlength
  -- what stands at the flags, the length of the ID, the ID, the length of the data and the data
  set idLength := item.id.toList.length with hidLen
  have hbytes : (idBytes item.id).length = idLength := length_idBytes item.id
  have hflags : body.drop (offset + 0) = beBytes 1 flags.toNat ++ (beBytes 2 idLength ++
      (idBytes item.id ++ (beBytes 4 item.data.length ++ (item.data ++ rest)))) := by
    simpa [itemBytes, beBytes, leBytes, hbytes] using h
  have hidLength : body.drop (offset + 1) = beBytes 2 idLength ++ (idBytes item.id ++
      (beBytes 4 item.data.length ++ (item.data ++ rest))) :=
    drop_of_drop_eq_append hflags (length_beBytes 1 flags.toNat)
  have hid : body.drop (offset + 3 + 0) = idBytes item.id ++
      (beBytes 4 item.data.length ++ (item.data ++ rest)) := by
    have htail := drop_of_drop_eq_append hidLength (length_beBytes 2 idLength)
    exact htail
  have hdataLength : body.drop (offset + 3 + idLength + 0) =
      beBytes 4 item.data.length ++ (item.data ++ rest) := by
    have htail := drop_of_drop_eq_append hid hbytes
    exact htail
  have hdata : body.drop (offset + 3 + idLength + 4) = item.data ++ rest := by
    have htail := drop_of_drop_eq_append hdataLength (length_beBytes 4 item.data.length)
    exact htail
  have hidRead : readId wherefrom index idLength 0 "" body (offset + 3) =
      .ok (item.id, offset + 3) := by
    obtain ⟨hprintable, htext⟩ := printable_idBytes hfits.printable
    have hread := @readId_of_printable wherefrom body (offset + 3) _ _ hprintable index 0 "" hid
    rwa [hbytes, htext, String.empty_append] at hread
  -- the bounds of the ID are those the reader checks
  have hidPos := hfits.id_pos
  have hidLe := hfits.id_le
  rw [readItem, ByteReader.bind_of_ok (need_of_le (by omega) _),
    ByteReader.bind_of_ok (getBigEndian_append hflags (by decide) flags.toNat_lt),
    ByteReader.bind_of_ok (getBigEndian_append hidLength (by decide) (by omega)),
    ByteReader.bind_of_ok rfl, if_neg (by omega),
    ByteReader.bind_of_ok (need_of_le (by omega) _), ByteReader.bind_of_ok hidRead,
    ByteReader.bind_of_ok rfl, ByteReader.bind_of_ok (need_of_le (by omega) _),
    ByteReader.bind_of_ok (getBigEndian_append hdataLength (by decide) hfits.data_lt),
    ByteReader.bind_of_ok rfl, ByteReader.bind_of_ok (need_of_le (by omega) _)]
  show Except.ok _ = _
  rw [hdata, List.take_left, length_itemBytes, ClaimedItem.read, UInt8.ofNat_toNat]
  congr 2
  omega

/-- What is read as an item is one: the flags, and an item that fits. -/
theorem readItem_outcome (h : offset ≤ body.length) (index : ℕ) :
    ByteReader.Outcome (fun item mid => mid ≤ body.length ∧ item.Fits ∧
        ∃ flags, item.read flags = item ∧
          body.drop offset = itemBytes flags item ++ body.drop mid)
      (IsMalformed wherefrom body) (readItem wherefrom index body offset) := by
  rw [readItem]
  refine (need_outcome h 3 _).bind ?_
  rintro - _ ⟨rfl, hthree⟩
  refine (getBigEndian_outcome 0 1 (by omega)).bind ?_
  rintro flags _ ⟨rfl, hflags, hflagsDrop⟩
  refine (getBigEndian_outcome 1 2 (by omega)).bind ?_
  rintro idLength _ ⟨rfl, hidLength, hidLengthDrop⟩
  rw [ByteReader.bind_of_ok rfl]
  split_ifs with hempty
  · exact fail_outcome hthree _
  refine (need_outcome hthree idLength _).bind ?_
  rintro - _ ⟨rfl, hid⟩
  refine (readId_outcome index idLength 0 "" hid).bind ?_
  rintro id _ ⟨rfl, raw, hraw, hprintable, rfl, hidDrop⟩
  rw [ByteReader.bind_of_ok rfl]
  refine (need_outcome hid 4 _).bind ?_
  rintro - _ ⟨rfl, hfour⟩
  refine (getBigEndian_outcome 0 4 (by omega)).bind ?_
  rintro dataLength _ ⟨rfl, hdataLength, hdataLengthDrop⟩
  rw [ByteReader.bind_of_ok rfl]
  refine (need_outcome hfour dataLength _).bind ?_
  rintro - _ ⟨rfl, hdata⟩
  rw [ByteReader.bind_of_ok rfl, ByteReader.bind_of_ok rfl, String.empty_append]
  -- the data are what is left of the item, and as long as announced
  set data := (body.drop (offset + 3 + idLength + 4)).take dataLength with hdataEq
  have hdataLen : data.length = dataLength := by
    rw [hdataEq, List.length_take, List.length_drop]
    omega
  have hidChars : (asciiText raw).toList.length = idLength := by
    rw [asciiText, String.toList_ofList, List.length_map, hraw]
  refine ⟨hdata, ⟨printable_of_asciiText hprintable, ?_, ?_, ?_⟩, UInt8.ofNat flags, rfl, ?_⟩
  · show 1 ≤ (asciiText raw).toList.length
    omega
  · show (asciiText raw).toList.length ≤ 65535
    omega
  · exact lt_of_eq_of_lt hdataLen hdataLength
  · have hdataDrop : body.drop (offset + 3 + idLength + 4) =
        data ++ body.drop (offset + 3 + idLength + 4 + dataLength) := by
      have hsplit := List.take_append_drop dataLength (body.drop (offset + 3 + idLength + 4))
      rw [List.drop_drop] at hsplit
      exact hsplit.symm
    simp only [Nat.add_zero] at hflagsDrop hidDrop hdataLengthDrop
    rw [hflagsDrop, hidLengthDrop]
    simp only [Nat.add_assoc offset 1 2, Nat.reduceAdd]
    rw [hidDrop, hdataLengthDrop, hdataDrop]
    simp only [itemBytes, idBytes_asciiText hprintable, hraw, hdataLen]
    simp [beBytes, leBytes]

/-! ### Batches -/

/-- The items of a batch with their flags. -/
def itemsBytes (entries : List (UInt8 × ClaimedItem)) : Bytes :=
  entries.flatMap fun entry => itemBytes entry.1 entry.2

theorem readItems_of_fits {entries : List (UInt8 × ClaimedItem)}
    (hfits : ∀ entry ∈ entries, entry.2.Fits) (index offset : ℕ) {rest : Bytes}
    (h : body.drop offset = itemsBytes entries ++ rest) :
    readItems wherefrom entries.length index body offset =
      .ok (entries.map fun entry => entry.2.read entry.1,
        offset + (itemsBytes entries).length) := by
  induction entries generalizing index offset with
  | nil => rfl
  | cons entry entries ih =>
    rw [itemsBytes, List.flatMap_cons, List.append_assoc] at h
    have hitem : readItem wherefrom index body offset = _ :=
      readItem_of_fits (hfits entry List.mem_cons_self) index entry.1 h
    have htail := ih (fun e he => hfits e (List.mem_cons_of_mem _ he)) (index + 1) _
      (drop_of_drop_eq_append h rfl)
    rw [List.length_cons, readItems, ByteReader.bind_of_ok hitem, ByteReader.bind_of_ok htail]
    show Except.ok _ = _
    simp only [itemsBytes, List.map_cons, List.flatMap_cons, List.length_append, Nat.add_assoc]

theorem readItems_outcome (remaining index : ℕ) {offset : ℕ} (h : offset ≤ body.length) :
    ByteReader.Outcome (fun items mid => mid ≤ body.length ∧
        ∃ entries : List (UInt8 × ClaimedItem), entries.length = remaining ∧
          (∀ entry ∈ entries, entry.2.Fits) ∧
          (entries.map fun entry => entry.2.read entry.1) = items ∧
          (entries.map Prod.snd) = items ∧
          body.drop offset = itemsBytes entries ++ body.drop mid)
      (IsMalformed wherefrom body) (readItems wherefrom remaining index body offset) := by
  induction remaining generalizing index offset with
  | zero => exact ⟨h, [], rfl, by simp, rfl, rfl, rfl⟩
  | succ remaining ih =>
    rw [readItems]
    refine (readItem_outcome h index).bind ?_
    rintro item mid ⟨hmid, hfits, flags, hread, hdrop⟩
    refine (ih (index + 1) hmid).bind ?_
    rintro items last ⟨hlast, entries, hlen, hall, hitems, hsnd, htail⟩
    refine ⟨hlast, (flags, item) :: entries, by rw [List.length_cons, hlen], ?_, ?_, ?_, ?_⟩
    · exact List.forall_mem_cons.mpr ⟨hfits, hall⟩
    · rw [List.map_cons, hread, hitems]
    · rw [List.map_cons, hsnd]
    · rw [hdrop, htail, itemsBytes, itemsBytes, List.flatMap_cons, List.append_assoc]

end Parts

/-- A batch of items that fit is decoded to them. -/
theorem decodeBinaryClaim_batchBytes (wherefrom : String) {entries : List (UInt8 × ClaimedItem)}
    (hcount : entries.length ≤ 65535) (hfits : ∀ entry ∈ entries, entry.2.Fits) :
    decodeBinaryClaim (batchBytes entries) wherefrom =
      .ok (entries.map fun entry => entry.2.read entry.1) := by
  set body := batchBytes entries with hbody
  have hversion : body.drop (0 + 0) = beBytes 1 claimBatchVersion ++
      (beBytes 2 entries.length ++ (itemsBytes entries ++ [])) := by
    rw [List.append_nil]
    rfl
  have hlength : body.length = 3 + (itemsBytes entries).length := by
    simp only [hbody, batchBytes, List.length_cons, List.length_append, length_beBytes]
    rw [itemsBytes]
    omega
  have hcountDrop : body.drop (0 + 1) = beBytes 2 entries.length ++ (itemsBytes entries ++ []) :=
    drop_of_drop_eq_append hversion (length_beBytes 1 _)
  have hitems : body.drop 3 = itemsBytes entries ++ [] := by
    have htail := drop_of_drop_eq_append hcountDrop (length_beBytes 2 _)
    exact htail
  have hread : readItems wherefrom entries.length 0 body (0 + 3) = _ :=
    readItems_of_fits hfits 0 (0 + 3) hitems
  have hend : expectEnd wherefrom body (0 + 3 + (itemsBytes entries).length) = .ok ((), _) :=
    if_neg (by rw [hlength, Nat.zero_add]; exact not_not.mpr rfl)
  rw [decodeBinaryClaim, readBatch, ByteReader.bind_of_ok (need_of_le (by omega) _),
    ByteReader.bind_of_ok (getBigEndian_append hversion (by decide) (by decide)),
    if_neg (by simp),
    ByteReader.bind_of_ok (getBigEndian_append hcountDrop (by decide) (by omega)),
    ByteReader.bind_of_ok rfl, ByteReader.bind_of_ok hread, ByteReader.bind_of_ok hend]
  rfl

/-- What is accepted is a batch of items that fit, and what is refused is refused as malformed. -/
theorem decodeBinaryClaim_outcome (wherefrom : String) (body : Bytes) :
    match decodeBinaryClaim body wherefrom with
    | .ok items => ∃ entries : List (UInt8 × ClaimedItem), entries.length ≤ 65535 ∧
        (∀ entry ∈ entries, entry.2.Fits) ∧
        (entries.map fun entry => entry.2.read entry.1) = items ∧
        entries.map Prod.snd = items ∧ body = batchBytes entries
    | .error e => IsMalformed wherefrom body e := by
  have houtcome : ByteReader.Outcome (fun items _ => ∃ entries : List (UInt8 × ClaimedItem),
      entries.length ≤ 65535 ∧ (∀ entry ∈ entries, entry.2.Fits) ∧
        (entries.map fun entry => entry.2.read entry.1) = items ∧
        entries.map Prod.snd = items ∧ body = batchBytes entries)
      (IsMalformed wherefrom body) (readBatch wherefrom body 0) := by
    -- the outcome of each read in turn: three bytes, the version, the count, the items, the end
    rw [readBatch]
    refine (need_outcome (Nat.zero_le _) 3 _).bind ?_
    rintro - _ ⟨rfl, hthree⟩
    refine (getBigEndian_outcome 0 1 (by omega)).bind ?_
    rintro version _ ⟨rfl, -, hversionDrop⟩
    split_ifs with hversion
    · exact fail_outcome (Nat.zero_le _) _
    refine (getBigEndian_outcome 1 2 (by omega)).bind ?_
    rintro count _ ⟨rfl, hcount, hcountDrop⟩
    rw [ByteReader.bind_of_ok rfl]
    refine (readItems_outcome count 0 hthree).bind ?_
    rintro items last ⟨hlast, entries, hlen, hfits, hread, hsnd, hdrop⟩
    refine (expectEnd_outcome hlast).bind ?_
    · rintro - _ hend
      refine ⟨entries, by omega, hfits, hread, hsnd, ?_⟩
      rw [not_not] at hversion
      have hrest : body.drop last = [] := by rw [hend, List.drop_length]
      calc body = beBytes 1 version ++ body.drop 1 := hversionDrop
        _ = beBytes 1 version ++ (beBytes 2 count ++ body.drop 3) := congrArg _ hcountDrop
        _ = beBytes 1 claimBatchVersion ++ (beBytes 2 entries.length ++ itemsBytes entries) := by
          rw [hversion, hlen, show body.drop 3 = _ from hdrop, hrest, List.append_nil]
  rw [decodeBinaryClaim]
  cases hresult : readBatch wherefrom body 0 with
  | error e =>
    rw [hresult] at houtcome
    exact houtcome
  | ok result =>
    rw [hresult] at houtcome
    exact houtcome

/-- Bit 0 of a flag byte is the mark that was read from it. -/
theorem flags_of_read {flags : UInt8} {item : ClaimedItem} (h : item.read flags = item) :
    item.flags = flags &&& claimItemFlagReclaimed := by
  have hmark : item.reclaimed = some (decide (flags &&& claimItemFlagReclaimed ≠ 0)) :=
    (congrArg ClaimedItem.reclaimed h).symm
  have hbit : (flags &&& claimItemFlagReclaimed).toNat = flags.toNat % 2 := by
    rw [UInt8.toNat_and]
    exact Nat.and_one_is_mod _
  rw [ClaimedItem.flags, hmark, ← UInt8.toNat_inj]
  by_cases hzero : flags &&& claimItemFlagReclaimed = 0
  · simp [hzero]
  · have hpos : (flags &&& claimItemFlagReclaimed).toNat ≠ 0 := fun h0 =>
      hzero (UInt8.toNat_inj.mp h0)
    simp only [hzero, ne_eq, not_false_eq_true, decide_true, if_true]
    show 1 = _
    omega

/-- Batches round-trip and are parsed strictly: what is encoded is decoded to the same IDs, data
and marks; what is accepted is re-encoded to itself except for flag bits other than bit 0; all
else is refused as malformed at an offset of the body, without a read past its end.

Everything about what is accepted or refused comes from one lemma on the outcome for a body
(`decodeBinaryClaim_outcome`): the entries it holds and nothing behind them, or an error that is
malformed. -/
theorem binary_claim_round_trip (wherefrom : String) :
    (∀ items : List ClaimedItem, items.length ≤ 65535 → (∀ item ∈ items, item.Fits) →
      decodeBinaryClaim (encodeBinaryClaim items) wherefrom = .ok (items.map fun item =>
        { item with reclaimed := some (decide (item.reclaimed = some true)) })) ∧
    (∀ body items, decodeBinaryClaim body wherefrom = .ok items →
      ∃ entries : List (UInt8 × ClaimedItem), entries.map Prod.snd = items ∧
        body = batchBytes entries ∧
        encodeBinaryClaim items = batchBytes (entries.map fun entry =>
          (entry.1 &&& claimItemFlagReclaimed, entry.2))) ∧
    (∀ body e, decodeBinaryClaim body wherefrom = .error e → IsMalformed wherefrom body e) := by
  refine ⟨fun items hcount hfits => ?_, fun body items hok => ?_, fun body e herror => ?_⟩
  · rw [encodeBinaryClaim, decodeBinaryClaim_batchBytes wherefrom (by simpa using hcount)
      (by simpa using hfits), List.map_map]
    refine congrArg Except.ok (List.map_congr_left fun item _ => ?_)
    -- the flag byte that was written carries the mark
    simp only [Function.comp_apply, ClaimedItem.read, ClaimedItem.flags]
    by_cases hmark : item.reclaimed = some true
    · simp [hmark]
      decide
    · simp [hmark]
  · have houtcome := decodeBinaryClaim_outcome wherefrom body
    rw [hok] at houtcome
    obtain ⟨entries, -, -, hread, hsnd, hbody⟩ := houtcome
    refine ⟨entries, hsnd, hbody, ?_⟩
    have hsame := List.map_inj_left.mp (hread.trans hsnd.symm)
    rw [encodeBinaryClaim, ← hsnd, List.map_map]
    refine congrArg batchBytes (List.map_congr_left fun entry hentry => ?_)
    rw [Function.comp_apply, flags_of_read (hsame entry hentry)]
  · have houtcome := decodeBinaryClaim_outcome wherefrom body
    rw [herror] at houtcome
    exact houtcome

/-- One item, with flag bits that are not known. -/
theorem binary_claim_round_trip_sample :
    decodeBinaryClaim (encodeBinaryClaim [⟨"a", [7], none⟩]) "the entry" =
      .ok [⟨"a", [7], some false⟩] ∧
    (∃ entries : List (UInt8 × ClaimedItem),
      [1, 0, 1, 255, 0, 1, 97, 0, 0, 0, 1, 7] = batchBytes entries) ∧
    IsMalformed "the entry" [1] (malformed "the entry" [1] 0 "truncated header") := by
  have h := binary_claim_round_trip "the entry"
  refine ⟨h.1 _ (by decide) ?_, ?_, h.2.2 _ _ rfl⟩
  · rintro item hitem
    obtain rfl := List.mem_singleton.mp hitem
    exact ⟨by simp, by decide, by decide, by decide⟩
  · obtain ⟨entries, -, hbody, -⟩ :=
      h.2.1 [1, 0, 1, 255, 0, 1, 97, 0, 0, 0, 1, 7] [⟨"a", [7], some true⟩] (by decide +kernel)
    exact ⟨entries, hbody⟩

end NoxSdk.Transport
