import Mathlib.Data.List.DropRight

/-!
# The grammar of an HTTP/1.1 request

`parseRequest` reads one request off a stream by the grammar of the standard, strictly: lines end
with CRLF and hold no other CR or LF, there is no folding, a length is one decimal number, and a
request with a transfer coding is not read at all. `renderHead` writes a head. What
`parseRequest_render` says is that a request that was written from tokens and from values without
control characters is read back as it is, and that the stream goes on right behind it.
-/

namespace NoxSdk.Lib

/-! ### Bytes -/

/-- `tchar`. -/
def isTokenByte (b : UInt8) : Bool :=
  b ∈ [33, 35, 36, 37, 38, 39, 42, 43, 45, 46, 94, 95, 96, 124, 126] ||
    decide (48 ≤ b ∧ b ≤ 57) || decide (65 ≤ b ∧ b ≤ 90) || decide (97 ≤ b ∧ b ≤ 122)

/-- A byte of a field value: none of the control characters but tab. -/
def isFieldByte (b : UInt8) : Bool := b == 9 || decide (32 ≤ b ∧ b ≠ 127)

/-- A byte of a target: no control character and no blank. -/
def isTargetByte (b : UInt8) : Bool := decide (32 < b ∧ b ≠ 127)

/-- A space or a tab. -/
def isBlankByte (b : UInt8) : Bool := b == 32 || b == 9

/-- A letter of ASCII in lower case. -/
def lowerByte (b : UInt8) : UInt8 := if 65 ≤ b ∧ b ≤ 90 then b + 32 else b

/-- A value without the blanks around it. -/
def trimBytes (value : List UInt8) : List UInt8 :=
  (value.dropWhile isBlankByte).rdropWhile isBlankByte

/-- The two bytes do not occur. -/
def OneLine (line : List UInt8) : Prop := ∀ b ∈ line, b ≠ 13 ∧ b ≠ 10

/-- Two texts in one line have no line end in either. -/
theorem oneLine_append {line line' : List UInt8} :
    OneLine (line ++ line') ↔ OneLine line ∧ OneLine line' := List.forall_mem_append

/-- Bytes of a kind without CR and LF are in one line. -/
theorem oneLine_of_all {p : UInt8 → Bool} {line : List UInt8} (hcr : p 13 = false)
    (hlf : p 10 = false) (h : line.all p = true) : OneLine line := by
  intro b hb
  have hp := List.all_eq_true.mp h b hb
  constructor
  · rintro rfl
    rw [hcr] at hp
    cases hp
  · rintro rfl
    rw [hlf] at hp
    cases hp

/-! ### Reading -/

/-- The lines of a head, and what follows the empty line. -/
def readHead (line : List UInt8) : List UInt8 → Option (List (List UInt8) × List UInt8)
  | [] => none
  | 13 :: 10 :: rest =>
    if line = [] then some ([], rest)
    else (readHead [] rest).map fun head => (line :: head.1, head.2)
  | b :: rest => if b = 13 ∨ b = 10 then none else readHead (line ++ [b]) rest

/-- The method and the target of a request line. -/
def parseRequestLine (line : List UInt8) : Option (List UInt8 × List UInt8) :=
  let method := line.takeWhile (· != 32)
  match line.dropWhile (· != 32) with
  | 32 :: rest =>
    let target := rest.takeWhile (· != 32)
    if method ≠ [] ∧ method.all isTokenByte ∧ target ≠ [] ∧ target.all isTargetByte ∧
        rest.dropWhile (· != 32) = [32, 72, 84, 84, 80, 47, 49, 46, 49] then
      some (method, target)
    else none
  | _ => none

/-- The name and the value of a field line. -/
def parseFieldLine (line : List UInt8) : Option (List UInt8 × List UInt8) :=
  let name := line.takeWhile (· != 58)
  match line.dropWhile (· != 58) with
  | 58 :: rest =>
    let value := trimBytes rest
    if name ≠ [] ∧ name.all isTokenByte ∧ value.all isFieldByte then some (name, value) else none
  | _ => none

/-- The number a decimal text stands for. -/
def parseDecimal (text : List UInt8) : Option ℕ :=
  let digits := text.map fun b => Char.ofNat b.toNat
  if digits ≠ [] ∧ digits.all Char.isDigit then some (Nat.ofDigitChars 10 digits 0) else none

/-- The fields have the name. -/
def fieldsNamed (name : List UInt8) (fields : List (List UInt8 × List UInt8)) :
    List (List UInt8 × List UInt8) :=
  fields.filter fun field => field.1.map lowerByte == name

/-- `transfer-encoding`. -/
def transferEncodingName : List UInt8 :=
  [116, 114, 97, 110, 115, 102, 101, 114, 45, 101, 110, 99, 111, 100, 105, 110, 103]

/-- `content-length`. -/
def contentLengthName : List UInt8 :=
  [99, 111, 110, 116, 101, 110, 116, 45, 108, 101, 110, 103, 116, 104]

/-- The fields of a name in two lists are those of the one and those of the other. -/
theorem fieldsNamed_append (name : List UInt8) (fields fields' : List (List UInt8 × List UInt8)) :
    fieldsNamed name (fields ++ fields') = fieldsNamed name fields ++ fieldsNamed name fields' :=
  List.filter_append ..

/-- A field of another name does not count. -/
theorem fieldsNamed_cons_of_ne {name : List UInt8} {field : List UInt8 × List UInt8}
    (fields : List (List UInt8 × List UInt8)) (h : field.1.map lowerByte ≠ name) :
    fieldsNamed name (field :: fields) = fieldsNamed name fields :=
  List.filter_cons_of_neg (mt beq_iff_eq.mp h)

/-- How long the body of a request is. -/
def bodyLength (fields : List (List UInt8 × List UInt8)) : Option ℕ :=
  if fieldsNamed transferEncodingName fields ≠ [] then none
  else match fieldsNamed contentLengthName fields with
    | [] => some 0
    | [field] => parseDecimal field.2
    | _ => none

/-- A request of a stream. -/
structure WireRequest where
  method : List UInt8
  target : List UInt8
  fields : List (List UInt8 × List UInt8)
  body : List UInt8
  deriving DecidableEq

/-- One request, and the bytes after it. -/
def parseRequest (bytes : List UInt8) : Option (WireRequest × List UInt8) := do
  let (lines, rest) ← readHead [] bytes
  let first ← lines.head?
  let (method, target) ← parseRequestLine first
  let fields ← lines.tail.mapM parseFieldLine
  let length ← bodyLength fields
  if rest.length < length then none
  else some (⟨method, target, fields, rest.take length⟩, rest.drop length)

/-! ### Writing -/

/-- A request line. -/
def renderRequestLine (method target : List UInt8) : List UInt8 :=
  method ++ 32 :: (target ++ [32, 72, 84, 84, 80, 47, 49, 46, 49])

/-- A field line. -/
def renderFieldLine (field : List UInt8 × List UInt8) : List UInt8 :=
  field.1 ++ 58 :: 32 :: field.2

/-- The lines of a head, and the empty line. -/
def renderHead (method target : List UInt8) (fields : List (List UInt8 × List UInt8)) :
    List UInt8 :=
  (renderRequestLine method target :: fields.map renderFieldLine).flatMap (· ++ [13, 10]) ++
    [13, 10]

/-- A method or a name. -/
def IsToken (name : List UInt8) : Prop := name ≠ [] ∧ name.all isTokenByte = true

instance : DecidablePred IsToken := fun _ => inferInstanceAs (Decidable (_ ∧ _))

/-- A field that may be written. -/
def IsField (field : List UInt8 × List UInt8) : Prop :=
  IsToken field.1 ∧ field.2.all isFieldByte = true

/-! ### What is written is read back -/

/-- A line that has ended is read whole, and the reader goes on behind it. -/
theorem readHead_line (line : List UInt8) {text : List UInt8} (rest : List UInt8)
    (htext : OneLine text) (hne : line ++ text ≠ []) :
    readHead line (text ++ 13 :: 10 :: rest) =
      (readHead [] rest).map fun head => ((line ++ text) :: head.1, head.2) := by
  induction text generalizing line with
  | nil =>
    rw [List.append_nil] at hne ⊢
    rw [List.nil_append, readHead, if_neg hne]
  | cons b text ih =>
    obtain ⟨hb, hrest⟩ := List.forall_mem_cons.mp htext
    have hstep : readHead line (b :: (text ++ 13 :: 10 :: rest)) =
        readHead (line ++ [b]) (text ++ 13 :: 10 :: rest) := by
      rw [readHead.eq_3 _ _ _ fun _ heq => absurd heq hb.1, if_neg (not_or.mpr hb)]
    rw [List.cons_append, hstep, ih _ hrest (by simp), List.append_assoc, List.singleton_append]

/-- Lines that are not empty are read back up to the empty one, which ends the head. -/
theorem readHead_lines {lines : List (List UInt8)} (rest : List UInt8)
    (hlines : ∀ line ∈ lines, line ≠ [] ∧ OneLine line) :
    readHead [] (lines.flatMap (· ++ [13, 10]) ++ 13 :: 10 :: rest) = some (lines, rest) := by
  induction lines with
  | nil => rfl
  | cons line lines ih =>
    obtain ⟨⟨hne, hline⟩, hrest⟩ := List.forall_mem_cons.mp hlines
    have hcut : (line :: lines).flatMap (· ++ [13, 10]) ++ 13 :: 10 :: rest =
        line ++ 13 :: 10 :: (lines.flatMap (· ++ [13, 10]) ++ 13 :: 10 :: rest) := by
      rw [List.flatMap_cons, List.append_assoc, List.append_assoc]
      rfl
    rw [hcut, readHead_line [] _ hline hne, ih hrest, Option.map_some, List.nil_append]

/-- A text is cut at its first separator. -/
theorem takeWhile_ne {stop : UInt8} {before : List UInt8} (rest : List UInt8)
    (h : ∀ b ∈ before, b ≠ stop) :
    (before ++ stop :: rest).takeWhile (· != stop) = before ∧
      (before ++ stop :: rest).dropWhile (· != stop) = stop :: rest := by
  have hall : ∀ b ∈ before, (b != stop) = true := fun b hb => bne_iff_ne.mpr (h b hb)
  rw [List.takeWhile_append_of_pos hall, List.dropWhile_append_of_pos hall]
  simp

/-- A text of a kind without the separator does not have it. -/
theorem ne_of_all {p : UInt8 → Bool} {text : List UInt8} {stop : UInt8} (hstop : p stop = false)
    (h : text.all p = true) : ∀ b ∈ text, b ≠ stop := by
  rintro b hb rfl
  rw [List.all_eq_true.mp h b hb] at hstop
  cases hstop

/-- A request line is read back as it was written. -/
theorem parseRequestLine_render {method target : List UInt8} (hmethod : IsToken method)
    (htarget : target ≠ []) (hbytes : target.all isTargetByte = true) :
    parseRequestLine (renderRequestLine method target) = some (method, target) := by
  have hmethod' : ∀ b ∈ method, b ≠ 32 := ne_of_all (by decide) hmethod.2
  have htarget' : ∀ b ∈ target, b ≠ 32 := ne_of_all (by decide) hbytes
  obtain ⟨htake, hdrop⟩ := takeWhile_ne (target ++ [32, 72, 84, 84, 80, 47, 49, 46, 49]) hmethod'
  obtain ⟨htake', hdrop'⟩ := takeWhile_ne [72, 84, 84, 80, 47, 49, 46, 49] htarget'
  rw [parseRequestLine, renderRequestLine]
  simp only [htake, hdrop, htake', hdrop']
  exact if_pos ⟨hmethod.1, hmethod.2, htarget, hbytes, trivial⟩

/-- A text without its blanks has no other bytes than before. -/
theorem all_trimBytes {value : List UInt8} {p : UInt8 → Bool} (h : value.all p = true) :
    (trimBytes value).all p = true := by
  rw [List.all_eq_true] at h ⊢
  intro b hb
  have hmem : b ∈ value.dropWhile isBlankByte := (List.rdropWhile_prefix _ _).subset hb
  exact h b ((List.dropWhile_sublist _).subset hmem)

/-- A text without blanks is trimmed to itself. -/
theorem trimBytes_of_noBlank {value : List UInt8} (h : ∀ b ∈ value, isBlankByte b = false) :
    trimBytes value = value := by
  have hdrop : value.dropWhile isBlankByte = value := by
    rw [List.dropWhile_eq_self_iff]
    exact fun hpos => ne_true_of_eq_false (h _ (List.getElem_mem hpos))
  rw [trimBytes, hdrop, List.rdropWhile_eq_self_iff]
  exact fun hne => ne_true_of_eq_false (h _ (List.getLast_mem hne))

/-- A field line is read back as it was written, with the blanks around its value dropped. -/
theorem parseFieldLine_render {field : List UInt8 × List UInt8} (h : IsField field) :
    parseFieldLine (renderFieldLine field) = some (field.1, trimBytes field.2) := by
  have hname : ∀ b ∈ field.1, b ≠ 58 := ne_of_all (by decide) h.1.2
  obtain ⟨htake, hdrop⟩ := takeWhile_ne (32 :: field.2) hname
  have htrim : trimBytes (32 :: field.2) = trimBytes field.2 := by
    rw [trimBytes, List.dropWhile_cons_of_pos (by decide), trimBytes]
  rw [parseFieldLine, renderFieldLine]
  simp only [htake, hdrop, htrim]
  exact if_pos ⟨h.1.1, h.1.2, all_trimBytes h.2⟩

/-- A field line is one line, and not the empty one. -/
theorem oneLine_renderFieldLine {field : List UInt8 × List UInt8} (h : IsField field) :
    renderFieldLine field ≠ [] ∧ OneLine (renderFieldLine field) := by
  refine ⟨fun hnil => h.1.1 (List.append_eq_nil_iff.mp hnil).1, ?_⟩
  refine oneLine_append.mpr ⟨oneLine_of_all (by decide) (by decide) h.1.2, ?_⟩
  refine List.forall_mem_cons.mpr ⟨by decide, List.forall_mem_cons.mpr ⟨by decide, ?_⟩⟩
  exact oneLine_of_all (by decide) (by decide) h.2

/-- The request line is one line, and not the empty one. -/
theorem oneLine_renderRequestLine {method target : List UInt8} (hmethod : IsToken method)
    (hbytes : target.all isTargetByte = true) :
    renderRequestLine method target ≠ [] ∧ OneLine (renderRequestLine method target) := by
  refine ⟨fun hnil => hmethod.1 (List.append_eq_nil_iff.mp hnil).1, ?_⟩
  refine oneLine_append.mpr ⟨oneLine_of_all (by decide) (by decide) hmethod.2, ?_⟩
  refine List.forall_mem_cons.mpr ⟨by decide, oneLine_append.mpr ⟨?_, by simp [OneLine]⟩⟩
  exact oneLine_of_all (by decide) (by decide) hbytes

/-- All field lines are read back in their order. -/
theorem mapM_parseFieldLine {fields : List (List UInt8 × List UInt8)}
    (h : ∀ field ∈ fields, IsField field) :
    (fields.map renderFieldLine).mapM parseFieldLine =
      some (fields.map fun field => (field.1, trimBytes field.2)) := by
  induction fields with
  | nil => rfl
  | cons field fields ih =>
    obtain ⟨hfield, hrest⟩ := List.forall_mem_cons.mp h
    rw [List.map_cons, List.mapM_cons, parseFieldLine_render hfield, ih hrest]
    rfl

/-- A request that is written is read back, with the blanks around its values gone and nothing of
it left over. -/
theorem parseRequest_render {method target : List UInt8}
    {fields : List (List UInt8 × List UInt8)} {body : List UInt8} (rest : List UInt8)
    (hmethod : IsToken method) (htarget : target ≠ []) (hbytes : target.all isTargetByte = true)
    (hfields : ∀ field ∈ fields, IsField field)
    (hlength : bodyLength (fields.map fun field => (field.1, trimBytes field.2)) =
      some body.length) :
    parseRequest (renderHead method target fields ++ (body ++ rest)) =
      some (⟨method, target, fields.map fun field => (field.1, trimBytes field.2), body⟩,
        rest) := by
  have hlines : ∀ line ∈ renderRequestLine method target :: fields.map renderFieldLine,
      line ≠ [] ∧ OneLine line := by
    refine List.forall_mem_cons.mpr ⟨oneLine_renderRequestLine hmethod hbytes, ?_⟩
    simp only [List.forall_mem_map]
    exact fun field hfield => oneLine_renderFieldLine (hfields field hfield)
  have hhead := readHead_lines (body ++ rest) hlines
  have hbytes_eq : renderHead method target fields ++ (body ++ rest) =
      (renderRequestLine method target :: fields.map renderFieldLine).flatMap (· ++ [13, 10]) ++
        13 :: 10 :: (body ++ rest) := by
    rw [renderHead, List.append_assoc]
    rfl
  rw [parseRequest, hbytes_eq, hhead]
  simp only [Option.bind_eq_bind, Option.bind_some, List.head?_cons, List.tail_cons,
    parseRequestLine_render hmethod htarget hbytes, mapM_parseFieldLine hfields, hlength]
  rw [if_neg (by simp), List.take_left, List.drop_left]

/-! ### Decimal texts -/

/-- The decimal text of a number. -/
def decimalBytes (n : ℕ) : List UInt8 := (Nat.toDigits 10 n).map fun c => UInt8.ofNat c.toNat

/-- The codes of the digits. -/
theorem digit_bounds {c : Char} (h : c.isDigit = true) : 48 ≤ c.toNat ∧ c.toNat ≤ 57 := by
  rw [Char.isDigit, Bool.and_eq_true, decide_eq_true_eq, decide_eq_true_eq] at h
  exact ⟨UInt32.le_iff_toNat_le.mp h.1, UInt32.le_iff_toNat_le.mp h.2⟩

/-- A length that is written in decimal is read back. -/
theorem parseDecimal_decimalBytes (n : ℕ) : parseDecimal (decimalBytes n) = some n := by
  have hchars : (decimalBytes n).map (fun b => Char.ofNat b.toNat) = Nat.toDigits 10 n := by
    rw [decimalBytes, List.map_map]
    refine (List.map_congr_left fun c hc => ?_).trans (List.map_id _)
    have hdigit := digit_bounds (Nat.isDigit_of_mem_toDigits (by decide) (by decide) hc)
    rw [Function.comp_apply, UInt8.toNat_ofNat', Nat.mod_eq_of_lt (by omega), Char.ofNat_toNat]
    rfl
  rw [parseDecimal, hchars]
  simp only [Nat.ofDigitChars_ten_toDigits]
  refine if_pos ⟨Nat.toDigits_ne_nil, List.all_eq_true.mpr fun c hc => ?_⟩
  exact Nat.isDigit_of_mem_toDigits (by decide) (by decide) hc

/-- A decimal text has the bytes of the digits only. -/
theorem decimalBytes_all (n : ℕ) {p : UInt8 → Bool}
    (h : ∀ k < 58, 48 ≤ k → p (UInt8.ofNat k) = true) : (decimalBytes n).all p = true := by
  rw [List.all_eq_true]
  intro b hb
  obtain ⟨c, hc, rfl⟩ := List.mem_map.mp hb
  have hdigit := digit_bounds (Nat.isDigit_of_mem_toDigits (by decide) (by decide) hc)
  exact h c.toNat (by omega) hdigit.1

end NoxSdk.Lib
