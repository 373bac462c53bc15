import NoxSdk.Lib.ByteViews

/-!
# Strict readers

A decoder is canonical where the bytes it accepts are those its encoder writes for the value. Here
a reader is compared with a stricter one that fails where the bytes are not canonical. The
comparison is made field by field (`ComparesField`) and closed under sequencing
(`ComparesField.bind`): a field that is written differently stays different whatever follows it.

`Compares valid p q written write` says it of the rest of a record, when the bytes `written` of
its first fields are behind the reader. The writer may refuse a value.
-/

namespace NoxSdk.ByteReader

universe u v w

variable {ε : Type u} {ε' : Type w} {α β : Type v}

/-! ### Fields -/

/-- What a reader returns, with `fact`, is written as the bytes it stands for where the strict
reader returns it too, and as others where the strict reader fails. -/
def ComparesField (valid : List UInt8 → Prop) (p q : ByteReader ε α) (write : α → List UInt8)
    (fact : α → Prop) : Prop :=
  ∀ buf pos a mid, valid buf → p buf pos = .ok (a, mid) → fact a ∧
    (q buf pos = .ok (a, mid) ∧ buf.drop pos = write a ++ buf.drop mid ∨
      (∀ result, q buf pos ≠ .ok result) ∧ ∀ rest, buf.drop pos ≠ write a ++ rest)

/-- What the rest of a record comes to: the strict reader returns it and it is written as it
stands, or the strict reader fails and it is written differently or not at all. -/
inductive Verdict (buf : List UInt8) (pos : ℕ) (strict : Except ε (β × ℕ)) (value : β) (mid : ℕ)
    (written : List UInt8) (output : Except ε' (List UInt8)) : Prop
  | canonical (enc : List UInt8) (hstrict : strict = .ok (value, mid))
      (houtput : output = .ok (written ++ enc)) (hbuf : buf.drop pos = enc ++ buf.drop mid)
  | different (enc : List UInt8) (hstrict : ∀ result, strict ≠ .ok result)
      (houtput : output = .ok (written ++ enc)) (hbuf : ∀ rest, buf.drop pos ≠ enc ++ rest)
  | refused (hstrict : ∀ result, strict ≠ .ok result) (houtput : ∀ out, output ≠ .ok out)

/-- The comparison of the rest of a record. -/
def Compares (valid : List UInt8 → Prop) (p q : ByteReader ε β) (written : List UInt8)
    (write : β → Except ε' (List UInt8)) : Prop :=
  ∀ buf pos value mid, valid buf → p buf pos = .ok (value, mid) →
    Verdict buf pos (q buf pos) value mid written (write value)

variable {valid : List UInt8 → Prop} {p q : ByteReader ε α} {f g : α → ByteReader ε β}
  {field : α → List UInt8} {fact : α → Prop} {written : List UInt8}
  {write : β → Except ε' (List UInt8)} {buf : List UInt8} {pos mid : ℕ} {a : α}

theorem bind_eq_ok {result : β × ℕ} (h : (p >>= f) buf pos = .ok result) :
    ∃ a mid, p buf pos = .ok (a, mid) ∧ f a buf mid = .ok result := by
  cases hp : p buf pos with
  | error e =>
    rw [bind_apply, hp] at h
    cases h
  | ok first =>
    refine ⟨first.1, first.2, rfl, ?_⟩
    rwa [bind_of_ok hp] at h

/-- A sequence fails with its first part. -/
theorem bind_ne_ok (h : ∀ result, p buf pos ≠ .ok result) (result : β × ℕ) :
    (p >>= f) buf pos ≠ .ok result := by
  intro hbind
  obtain ⟨a, mid, hp, -⟩ := bind_eq_ok hbind
  exact h _ hp

/-- A field whose reader is as strict as it can be. -/
theorem ComparesField.same (h : ∀ buf pos a mid, valid buf → p buf pos = .ok (a, mid) →
    fact a ∧ buf.drop pos = field a ++ buf.drop mid) : ComparesField valid p p field fact :=
  fun buf pos a mid hvalid hp =>
    have hfield := h buf pos a mid hvalid hp
    ⟨hfield.1, .inl ⟨hp, hfield.2⟩⟩

/-- A field, then the rest of the record. -/
theorem ComparesField.bind (hfield : ComparesField valid p q field fact)
    (hrest : ∀ a, fact a → Compares valid (f a) (g a) (written ++ field a) write) :
    Compares valid (p >>= f) (q >>= g) written write := by
  intro buf pos value last hvalid hread
  obtain ⟨a, mid, hp, hf⟩ := bind_eq_ok hread
  obtain ⟨hfact, ⟨hq, hbuf⟩ | ⟨hq, hdifferent⟩⟩ := hfield buf pos a mid hvalid hp
  · rw [bind_of_ok hq]
    cases hrest a hfact buf mid value last hvalid hf with
    | canonical enc hstrict houtput htail =>
      refine .canonical (field a ++ enc) hstrict ?_ ?_
      · rw [houtput, List.append_assoc]
      · rw [hbuf, htail, List.append_assoc]
    | different enc hstrict houtput htail =>
      refine .different (field a ++ enc) hstrict ?_ ?_
      · rw [houtput, List.append_assoc]
      · intro rest heq
        rw [hbuf, List.append_assoc] at heq
        exact htail rest (List.append_cancel_left heq)
    | refused hstrict houtput => exact .refused hstrict houtput
  · -- the field is written differently, and so is every record with it
    have hfails : ∀ result, (q >>= g) buf pos ≠ .ok result := bind_ne_ok hq
    cases hrest a hfact buf mid value last hvalid hf with
    | canonical enc hstrict houtput htail =>
      refine .different (field a ++ enc) hfails ?_ ?_
      · rw [houtput, List.append_assoc]
      · intro rest heq
        rw [List.append_assoc] at heq
        exact hdifferent _ heq
    | different enc hstrict houtput htail =>
      refine .different (field a ++ enc) hfails ?_ ?_
      · rw [houtput, List.append_assoc]
      · intro rest heq
        rw [List.append_assoc] at heq
        exact hdifferent _ heq
    | refused hstrict houtput => exact .refused hfails houtput

/-! ### The end of a record -/

theorem Compares.pure {value : β} (h : write value = .ok written) :
    Compares valid (Pure.pure value : ByteReader ε β) (Pure.pure value) written write := by
  intro buf pos returned mid _ hread
  obtain ⟨rfl, rfl⟩ := Prod.mk.inj (Except.ok.inj hread)
  exact .canonical [] rfl (by rw [h, List.append_nil]) rfl

theorem Compares.fail {e : ℕ → ε} {r : ByteReader ε β} :
    Compares valid (ByteReader.fail e) r written write := by
  intro buf pos value mid _ hread
  cases hread

/-- A record that is written without a refusal is a field. -/
theorem Compares.toField
    (h : Compares valid p q [] fun a => (.ok (field a) : Except Unit (List UInt8))) :
    ComparesField valid p q field fun _ => True := by
  intro buf pos a mid hvalid hp
  refine ⟨trivial, ?_⟩
  cases h buf pos a mid hvalid hp with
  | canonical enc hstrict houtput hbuf =>
    obtain rfl : field a = enc := Except.ok.inj houtput
    exact .inl ⟨hstrict, hbuf⟩
  | different enc hstrict houtput hbuf =>
    obtain rfl : field a = enc := Except.ok.inj houtput
    exact .inr ⟨hstrict, hbuf⟩
  | refused hstrict houtput => exact absurd rfl (houtput _)

/-- A record that is read as strictly as it can be is never refused by its writer. -/
theorem Compares.toField_of_same {part : α → Except ε' (List UInt8)}
    (h : Compares valid p p [] part) : ComparesField valid p p (fun a => (part a).toOption.getD [])
      fun a => ∃ enc, part a = .ok enc := by
  refine ComparesField.same fun buf pos a mid hvalid hp => ?_
  cases h buf pos a mid hvalid hp with
  | canonical enc hstrict houtput hbuf =>
    rw [houtput]
    exact ⟨⟨enc, rfl⟩, hbuf⟩
  | different enc hstrict houtput hbuf => exact absurd hp (hstrict _)
  | refused hstrict houtput => exact absurd hp (hstrict _)

/-- The last part of a record, which is written by a writer of its own. -/
theorem Compares.map {part : α → Except ε' (List UInt8)} {make : α → β}
    (h : Compares valid p q [] part)
    (hwrite : ∀ a, write (make a) = (part a).map fun enc => written ++ enc) :
    Compares valid (p >>= fun a => Pure.pure (make a)) (q >>= fun a => Pure.pure (make a))
      written write := by
  intro buf pos value last hvalid hread
  obtain ⟨a, mid, hp, hmake⟩ := bind_eq_ok hread
  obtain ⟨rfl, rfl⟩ := Prod.mk.inj (Except.ok.inj hmake)
  rw [hwrite]
  cases h buf pos a mid hvalid hp with
  | canonical enc hstrict houtput hbuf =>
    refine .canonical enc ?_ ?_ hbuf
    · rw [bind_of_ok hstrict]
      rfl
    · rw [houtput]
      rfl
  | different enc hstrict houtput hbuf =>
    refine .different enc (bind_ne_ok hstrict) ?_ hbuf
    rw [houtput]
    rfl
  | refused hstrict houtput =>
    refine .refused (bind_ne_ok hstrict) ?_
    intro out hout
    cases hpart : part a with
    | error e =>
      rw [hpart] at hout
      cases hout
    | ok enc => exact houtput enc hpart

/-! ### Repetition -/

/-- A list of fields. -/
theorem ComparesField.replicate (hfield : ComparesField valid p q field fact) (n : ℕ) :
    ComparesField valid (ByteReader.replicate p n) (ByteReader.replicate q n)
      (fun as => as.flatMap field) fun _ => True := by
  induction n with
  | zero =>
    refine ComparesField.same fun buf pos as mid _ hread => ?_
    obtain ⟨rfl, rfl⟩ := Prod.mk.inj (Except.ok.inj hread)
    exact ⟨trivial, rfl⟩
  | succ n ih =>
    refine Compares.toField (hfield.bind fun a _ => ih.bind fun as _ => Compares.pure ?_)
    rw [List.flatMap_cons, List.nil_append]

/-- Another fact about what is returned. -/
theorem ComparesField.with_fact {other : α → Prop} (hfield : ComparesField valid p q field fact)
    (h : ∀ buf pos a mid, valid buf → p buf pos = .ok (a, mid) → other a) :
    ComparesField valid p q field other :=
  fun buf pos a mid hvalid hp => ⟨h buf pos a mid hvalid hp, (hfield buf pos a mid hvalid hp).2⟩

/-- A list of fields that read something each is no longer than the buffer. -/
theorem length_of_replicate (hadvance : ∀ pos a mid, p buf pos = .ok (a, mid) →
    pos < mid ∧ mid ≤ buf.length) {n : ℕ} {as : List α}
    (h : ByteReader.replicate p n buf pos = .ok (as, mid)) :
    as.length = n ∧ (0 < n → pos + n ≤ mid ∧ mid ≤ buf.length) := by
  induction n generalizing pos as with
  | zero =>
    obtain ⟨rfl, rfl⟩ := Prod.mk.inj (Except.ok.inj h)
    exact ⟨rfl, fun hpos => absurd hpos (lt_irrefl 0)⟩
  | succ n ih =>
    obtain ⟨a, next, hp, h⟩ := bind_eq_ok h
    obtain ⟨rest, last, hrest, hmake⟩ := bind_eq_ok h
    obtain ⟨rfl, rfl⟩ := Prod.mk.inj (Except.ok.inj hmake)
    obtain ⟨hnext, hend⟩ := hadvance pos a next hp
    obtain ⟨hlength, hmid⟩ := ih hrest
    refine ⟨by rw [List.length_cons, hlength], fun _ => ?_⟩
    obtain rfl | hmore := Nat.eq_zero_or_pos n
    · obtain ⟨rfl, rfl⟩ := Prod.mk.inj (Except.ok.inj hrest)
      exact ⟨hnext, hend⟩
    · obtain ⟨hle, hlast⟩ := hmid hmore
      exact ⟨by omega, hlast⟩

end NoxSdk.ByteReader
