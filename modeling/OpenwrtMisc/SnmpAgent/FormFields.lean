import OpenwrtMisc.SnmpAgent.Agreement
import OpenwrtMisc.SnmpAgent.Fields

/-! What the decoders make of a length in each of its forms: only the short form is understood. -/

namespace OpenwrtMisc.SnmpAgent

open Ber

/-- The first byte of a long form is 129 or 130. -/
theorem long_first {form : LengthForm} (long : form ≠ .short) (n : Nat) :
    129 ≤ (form.first n).toNat ∧ (form.first n).toNat ≤ 130 := by
  -- The first byte says how many bytes the length has.
  cases form with
  | short => exact absurd rfl long
  | one =>
    have value : (LengthForm.one.first n).toNat = 129 := rfl
    omega
  | two =>
    have value : (LengthForm.two.first n).toNat = 130 := rfl
    omega

/-- The length byte of an element in short form. -/
theorem short_first {content : List UInt8} (fits : content.length < LengthForm.short.limit) :
    (LengthForm.short.first content.length).toNat = content.length := toNat_length fits

/-- Behind the first byte of a long form is the length, or a zero before a small length. -/
theorem long_head {form : LengthForm} (long : form ≠ .short) {n : Nat} (small : n < 256)
    (rest : List UInt8) :
    ∃ head more, form.digits n ++ rest = head :: more ∧ (head.toNat = n ∨ head.toNat = 0) := by
  -- With two bytes the upper one is zero, as the length fits the lower one.
  cases form with
  | short => exact absurd rfl long
  | one =>
    refine ⟨UInt8.ofNat n, rest, rfl, .inl ?_⟩
    rw [UInt8.toNat_ofNat']
    omega
  | two =>
    refine ⟨UInt8.ofNat (n / 256), UInt8.ofNat n :: rest, rfl, .inr ?_⟩
    rw [UInt8.toNat_ofNat']
    omega

/-- An INTEGER whose length is in long form is taken for 4, and its length for what follows. -/
theorem integerField_long {form : LengthForm} (long : form ≠ .short) {n : Nat}
    {rest behind : List UInt8} {value : BitVec 32} :
    IntegerField (form.octets n ++ rest) value behind ↔
      value = 4 ∧ behind = form.digits n ++ rest := by
  have first := (long_first long n).1
  -- The first byte of the length is no width that is known.
  have unknown : ¬ (1 ≤ form.first n ∧ form.first n ≤ 4) := by
    rw [UInt8.le_iff_toNat_le, UInt8.le_iff_toNat_le]
    have four : (4 : UInt8).toNat = 4 := rfl
    omega
  rw [LengthForm.octets, List.cons_append]
  constructor
  · intro field
    generalize bytes : form.first n :: (form.digits n ++ rest) = whole at field
    cases field with
    | sized _ known =>
      obtain ⟨rfl, _⟩ := List.cons.inj bytes
      exact absurd known unknown
    | other =>
      obtain ⟨rfl, same⟩ := List.cons.inj bytes
      exact ⟨rfl, same.symm⟩
  · rintro ⟨rfl, rfl⟩
    exact .other _ unknown

/-- An OCTET STRING in short form holds its content. -/
theorem stringField_iff {content rest behind string : List UInt8} (short : content.length < 128) :
    StringField (UInt8.ofNat content.length :: (content ++ rest)) string behind ↔
      string = content ∧ behind = rest := by
  -- The only layout is the length byte with the bytes that it counts.
  constructor
  · intro field
    generalize bytes : UInt8.ofNat content.length :: (content ++ rest) = whole at field
    cases field with
    | sized _ size =>
      -- The length says where the content ends.
      obtain ⟨rfl, same⟩ := List.cons.inj bytes
      rw [toNat_length short] at size
      obtain ⟨rfl, rfl⟩ := List.append_inj same size.symm
      exact ⟨rfl, rfl⟩
  · rintro ⟨rfl, rfl⟩
    exact stringField_content short _

/-- An OCTET STRING has as many bytes as the first byte of its length says. -/
theorem stringField_octets {form : LengthForm} {n : Nat} {rest behind string : List UInt8}
    (field : StringField (form.octets n ++ rest) string behind) :
    form.digits n ++ rest = string ++ behind ∧ string.length = (form.first n).toNat := by
  rw [LengthForm.octets, List.cons_append] at field
  generalize bytes : form.first n :: (form.digits n ++ rest) = whole at field
  cases field with
  | sized _ size =>
    -- In long form the content is cut from the wrong place, but to the length that is read.
    obtain ⟨rfl, same⟩ := List.cons.inj bytes
    exact ⟨same, size⟩

/-- An OBJECT IDENTIFIER in short form ends where its content ends. -/
theorem oidField_short {content rest behind text : List UInt8} (full : content ≠ [])
    (short : content.length < 128)
    (field : OidField (UInt8.ofNat content.length :: (content ++ rest)) text behind) :
    behind = rest := by
  -- The length counts the first byte as well, so the loop takes one byte less.
  obtain ⟨head, nodes, rfl⟩ := List.exists_cons_of_ne_nil full
  generalize bytes : UInt8.ofNat (head :: nodes).length :: (head :: nodes ++ rest) = whole at field
  cases field with
  | sized _ size =>
    obtain ⟨rfl, same⟩ := List.cons.inj bytes
    rw [List.cons_append] at same
    obtain ⟨rfl, inner⟩ := List.cons.inj same
    have value := toNat_length short
    rw [List.length_cons] at value
    rw [List.length_cons, toNat_length_sub_one (by omega), value, Nat.add_sub_cancel] at size
    exact (List.append_inj inner size.symm).2.symm

/-- An OBJECT IDENTIFIER in long form is taken for one of 129 or 130 bytes. -/
theorem oidField_long {form : LengthForm} (long : form ≠ .short) {n : Nat}
    {rest behind text : List UInt8} (field : OidField (form.octets n ++ rest) text behind) :
    129 ≤ (form.digits n ++ rest).length := by
  have first := (long_first long n).1
  rw [LengthForm.octets, List.cons_append] at field
  generalize bytes : form.first n :: (form.digits n ++ rest) = whole at field
  cases field with
  | @sized length head nodes _ size =>
    obtain ⟨rfl, same⟩ := List.cons.inj bytes
    -- The bytes that the loop takes are there, and so is the one before them.
    rw [toNat_length_sub_one (by omega)] at size
    rw [same, List.length_cons, List.length_append]
    omega

/-- A value is read by the decoder of its type. -/
theorem primitiveField_iff {tag : UInt8} {bytes rest : List UInt8} {value : Value} :
    PrimitiveField tag bytes value rest ↔
      (tag = primvInt ∧ ∃ word, value = .word word ∧ IntegerField bytes word rest) ∨
      (tag = primvOctstr ∧ ∃ string, value = .string string ∧ StringField bytes string rest) ∨
      (tag = primvNull ∧ value = .word 0 ∧ rest = bytes.drop 1) ∨
      (tag = primvObjid ∧ ∃ text, value = .string text ∧ OidField bytes text rest) := by
  -- There is one case for each branch of the decoder.
  constructor
  · intro field
    cases field with
    | integer field => exact .inl ⟨rfl, _, rfl, field⟩
    | octets field => exact .inr (.inl ⟨rfl, _, rfl, field⟩)
    | null => exact .inr (.inr (.inl ⟨rfl, rfl, rfl⟩))
    | oid field => exact .inr (.inr (.inr ⟨rfl, _, rfl, field⟩))
  · rintro (⟨rfl, _, rfl, field⟩ | ⟨rfl, _, rfl, field⟩ | ⟨rfl, rfl, rfl⟩ | ⟨rfl, _, rfl, field⟩)
    · exact .integer field
    · exact .octets field
    · exact .null _
    · exact .oid field

/-- The content of an OID is not empty. -/
theorem IsOid.ne_nil {content : List UInt8} (oid : IsOid content) : content ≠ [] := by
  -- The first group has a last byte.
  obtain ⟨shared, arcs, _, rfl⟩ := oid
  rw [List.flatMap_cons, base128, List.append_assoc, List.singleton_append]
  exact List.append_ne_nil_of_right_ne_nil _ (List.cons_ne_nil _ _)

end OpenwrtMisc.SnmpAgent
