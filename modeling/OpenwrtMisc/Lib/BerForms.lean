import OpenwrtMisc.Lib.Ber

/-! The forms that a length is written in: one byte, or a count and then one or two bytes. -/

namespace OpenwrtMisc.Ber

/-- A form of a length field. -/
inductive LengthForm
  /-- The length itself. -/
  | short
  /-- The long form with one length byte. -/
  | one
  /-- The long form with two length bytes. -/
  | two
  deriving DecidableEq, Repr

namespace LengthForm

/-- The lengths that can be written are below this. -/
def limit : LengthForm → Nat
  | short => 128
  | one => 256
  | two => 65536

/-- The bytes behind the first one of a length field. -/
def digits : LengthForm → Nat → List UInt8
  | short, _ => []
  | one, n => [UInt8.ofNat n]
  | two, n => [UInt8.ofNat (n / 256), UInt8.ofNat n]

/-- The first byte of a length field. -/
def first : LengthForm → Nat → UInt8
  | short, n => UInt8.ofNat n
  | one, _ => 0x81
  | two, _ => 0x82

/-- The bytes of a length field. -/
def octets (form : LengthForm) (n : Nat) : List UInt8 := form.first n :: form.digits n

/-- An element whose length is written in the form. -/
def element (form : LengthForm) (tag : UInt8) (content : List UInt8) : List UInt8 :=
  tag :: (form.octets content.length ++ content)

/-- In short form it is an element with a one-byte length field. -/
theorem element_short (tag : UInt8) (content : List UInt8) :
    short.element tag content = Ber.element tag content := rfl

/-- A length field has at most three bytes. -/
theorem length_digits_le (form : LengthForm) (n : Nat) : (form.digits n).length ≤ 2 := by
  cases form <;> simp [digits]

/-- An element takes at most four bytes more than its content. -/
theorem length_element_le (form : LengthForm) (tag : UInt8) (content : List UInt8) :
    (form.element tag content).length ≤ content.length + 4 := by
  -- The tag takes one byte and the length three at most.
  have most := form.length_digits_le content.length
  simp only [element, octets, List.length_cons, List.length_append]
  omega

/-- An element takes at least two bytes more than its content. -/
theorem le_length_element (form : LengthForm) (tag : UInt8) (content : List UInt8) :
    content.length + 2 ≤ (form.element tag content).length := by
  -- The tag and the length take one byte each at least.
  simp only [element, octets, List.length_cons, List.length_append]
  omega

/-- A length is read back from its field. -/
theorem readLength_octets {form : LengthForm} {n : Nat} (fits : n < form.limit)
    (rest : List UInt8) : readLength (form.octets n ++ rest) = some (n, rest) := by
  -- The cases are the forms.
  cases form with
  | short => exact readLength_short fits rest
  | one =>
    have low : n < 256 := fits
    -- The one digit is the length itself.
    have value : bigEndian [UInt8.ofNat n] = n := by
      simp only [bigEndian, List.foldl_cons, List.foldl_nil, UInt8.toNat_ofNat']
      omega
    simp [octets, first, digits, readLength, value]
  | two =>
    have low : n < 65536 := fits
    -- The two digits are the quotient and the remainder.
    have value : bigEndian [UInt8.ofNat (n / 256), UInt8.ofNat n] = n := by
      simp only [bigEndian, List.foldl_cons, List.foldl_nil, UInt8.toNat_ofNat']
      omega
    simp [octets, first, digits, readLength, value]

/-- An element whose length fits the form is read back. -/
theorem readTlv_element {form : LengthForm} {tag : UInt8} {content : List UInt8}
    (fits : content.length < form.limit) (rest : List UInt8) :
    readTlv (form.element tag content ++ rest) = some (⟨tag, content⟩, rest) := by
  -- What is left behind the length field holds the content.
  have enough : ¬ (content ++ rest).length < content.length := by
    rw [List.length_append]
    omega
  rw [element, List.cons_append, List.append_assoc]
  simp only [readTlv, readLength_octets fits, Option.bind_eq_bind, Option.bind_some,
    if_neg enough, List.take_left, List.drop_left]

/-- An element whose length fits the form is read as the first of the elements. -/
theorem elements_element {form : LengthForm} {tag : UInt8} {content : List UInt8}
    (fits : content.length < form.limit) (rest : List UInt8) :
    elements (form.element tag content ++ rest) = (elements rest).map (⟨tag, content⟩ :: ·) :=
  elements_of_readTlv (readTlv_element fits rest)

/-- An element whose length fits the form is read as the only one. -/
theorem elements_single {form : LengthForm} {tag : UInt8} {content : List UInt8}
    (fits : content.length < form.limit) :
    elements (form.element tag content) = some [⟨tag, content⟩] := by
  -- Nothing follows the element.
  have single := @elements_element form tag content fits []
  rwa [List.append_nil] at single

/-- Elements that are written one behind the other are read back, each in its own form. -/
theorem elements_flatMap {α : Type} {form : α → LengthForm} {item : α → Tlv} {sources : List α}
    (fits : ∀ source ∈ sources, (item source).content.length < (form source).limit) :
    elements (sources.flatMap fun source =>
      (form source).element (item source).tag (item source).content) =
        some (sources.map item) := by
  -- The first element ends where the next one begins.
  induction sources with
  | nil => rfl
  | cons source rest ih =>
    rw [List.flatMap_cons, elements_element (fits source List.mem_cons_self),
      ih fun other later => fits other (List.mem_cons_of_mem _ later)]
    rfl

end LengthForm

end OpenwrtMisc.Ber
