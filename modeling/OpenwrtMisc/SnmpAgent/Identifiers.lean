import OpenwrtMisc.SnmpAgent.ObjectId
import OpenwrtMisc.SnmpAgent.Serve

/-! Object identifiers with any numbers: which of them the agent writes by the encoding rules. -/

namespace OpenwrtMisc.SnmpAgent

open Ber

/-- The text of numbers, with a dot before each of them. -/
def dottedText (arcs : List Nat) : List UInt8 := arcs.flatMap fun arc => dot :: decimal arc

/-- An OID with at least two numbers, whose encoding has a length in short form. -/
structure DottedOid where
  first : Nat
  second : Nat
  further : List Nat
  /-- There are three roots. -/
  root : first ≤ 2
  /-- Only the last root has many numbers below it. -/
  below : first < 2 → second < 40
  /-- The further numbers are what an `int` holds. -/
  words : ∀ arc ∈ further, arc < 2 ^ 31
  short : (((40 * first + second) :: further).flatMap base128).length ≤ 127

/-- The dotted text of an OID. -/
def DottedOid.text (oid : DottedOid) : List UInt8 :=
  decimal oid.first ++ dottedText (oid.second :: oid.further)

/-- The content octets: the first two numbers share a subidentifier. -/
def DottedOid.content (oid : DottedOid) : List UInt8 :=
  ((40 * oid.first + oid.second) :: oid.further).flatMap base128

/-- What is expected of the encoder: the element of the rules, and no write past the buffer. -/
structure EncodedByRules (oid : DottedOid) : Prop where
  element : encodeOid oid.text = .ok (element 0x06 oid.content)
  inside : encodeOid oid.text ≠ .error .overflow

/-- The encoder marks the groups that it writes as the rules ask, also those it need not write. -/
theorem encodeArc_isSubidentifier (value : BitVec 32) : IsSubidentifier (encodeArc value) := by
  -- The groups of the loop are marked as continued, and the lowest group is not.
  have continued : ∀ (j : Nat) (value : BitVec 32), ∀ byte ∈ encodeArcLoop j value [],
      ¬ byte < 0x80 := by
    intro j
    induction j with
    | zero => exact fun _ => nofun
    | succ j ih =>
      intro value byte member
      rw [encodeArcLoop, encodeArcLoop_append] at member
      rcases List.mem_append.mp member with before | group
      · exact ih _ byte before
      · rw [List.mem_singleton.mp group, UInt8.lt_iff_toNat_lt, toNat_continued]
        exact Nat.not_lt.mpr (Nat.le_add_left 128 _)
  refine ⟨_, _, encodeArcLoop_append _ value _, continued _ value, ?_⟩
  rw [UInt8.lt_iff_toNat_lt, toNat_group]
  exact Nat.mod_lt _ (by decide)

/-- Numbers are written in minimal form just when none of them is in the gap of the thresholds. -/
theorem flatMap_encodeArc_iff {arcs : List Nat} (small : ∀ arc ∈ arcs, arc < 2 ^ 32) :
    (arcs.flatMap fun arc => encodeArc (BitVec.ofNat 32 arc)) = arcs.flatMap base128 ↔
      ∀ arc ∈ arcs, arc < 2 ^ 17 ∨ 2 ^ 21 ≤ arc := by
  rw [flatMap_eq_flatMap_iff (fun _ => encodeArc_isSubidentifier _) base128_isSubidentifier]
  refine forall₂_congr fun arc member => ?_
  constructor
  · intro minimal
    by_contra gap
    -- In the gap the encoder writes four groups where three are enough.
    obtain ⟨four, three⟩ := @length_gap arc (by omega) (by omega)
    rw [minimal, three] at four
    omega
  · exact encodeArc_minimal (small arc member)

/-- The tokens of a text of numbers are the numbers. -/
theorem strtok_dottedText (first : Nat) (arcs : List Nat) :
    strtok dot (decimal first ++ dottedText arcs) = decimal first :: arcs.map decimal := by
  -- A number is printed without a sign and without a dot.
  have plain : dot ∉ decimal first := formatInt_natCast first ▸ dot_not_mem_formatInt first
  have tokens := strtok_dotted (decimal first) plain (decimal_ne_nil first)
    (arcs.map fun arc : Nat => (arc : Int))
  simp only [List.flatMap_map, List.map_map, Function.comp_def, formatInt_natCast] at tokens
  exact tokens

/-- The number of a decimal text. -/
theorem atoi_decimal (n : Nat) : atoi (decimal n) = n := by
  -- A number without a sign is printed in decimal.
  have printed := atoi_formatInt n
  rwa [formatInt_natCast] at printed

/-- The byte that the first two numbers share, whether they fit it or not. -/
def sharedByte (first second : Nat) : UInt8 :=
  UInt8.ofNat (BitVec.ofInt 32 (first * 40 + second : Int)).toNat

/-- The encoder writes one byte for the first two numbers, and the others behind it. -/
theorem oidContent_text (oid : DottedOid) :
    oidContent oid.text = sharedByte oid.first oid.second ::
      oid.further.flatMap fun arc => encodeArc (BitVec.ofNat 32 arc) := by
  -- The first two tokens share a byte, and each other one is encoded.
  have bytes : ∀ n : Nat, arcBytes (decimal n) = encodeArc (BitVec.ofNat 32 n) := by
    intro n
    rw [arcBytes, atoi_decimal, BitVec.ofInt_natCast]
  simp only [oidContent, DottedOid.text, strtok_dottedText, List.map_cons, atoi_decimal,
    List.flatMap_map, bytes, sharedByte]

/-- Every number takes at most as many bytes as characters, so the buffer is never overrun. -/
theorem encodable_text (oid : DottedOid) : Encodable oid.text := by
  -- Each number takes a byte at least and its text a character, with a dot in front.
  have words : ∀ arc ∈ oid.further, arc < 2 ^ 32 :=
    fun arc member => Nat.lt_trans (oid.words arc member) (by decide)
  have sizes := length_flatMap_encodeArc words
  have root := List.length_pos_of_ne_nil (decimal_ne_nil oid.first)
  have below := List.length_pos_of_ne_nil (decimal_ne_nil oid.second)
  constructor
  · rw [DottedOid.text, strtok_dottedText, List.map_cons]
    exact Nat.le_add_left 2 _
  · rw [oidContent_text, DottedOid.text, dottedText, List.flatMap_cons, List.length_cons,
      List.length_append, List.length_append, List.length_cons]
    omega

/-- The contents agree just when the first two numbers fit a byte and the others the thresholds. -/
theorem oidContent_text_iff (oid : DottedOid) :
    oidContent oid.text = oid.content ↔
      40 * oid.first + oid.second < 128 ∧
        ∀ arc ∈ oid.further, arc < 2 ^ 17 ∨ 2 ^ 21 ≤ arc := by
  -- The shared byte and the other numbers are compared for themselves.
  have words : ∀ arc ∈ oid.further, arc < 2 ^ 32 :=
    fun arc member => Nat.lt_trans (oid.words arc member) (by decide)
  rw [oidContent_text, DottedOid.content, List.flatMap_cons, ← flatMap_encodeArc_iff words]
  by_cases fits : 40 * oid.first + oid.second < 128
  · have shared : sharedByte oid.first oid.second = UInt8.ofNat (40 * oid.first + oid.second) := by
      have word : (oid.first * 40 + oid.second : Int) =
          ((40 * oid.first + oid.second : Nat) : Int) := by omega
      rw [sharedByte, word, BitVec.ofInt_natCast, toNat_word (by omega)]
    rw [base128_small fits, shared, List.singleton_append, List.cons.injEq]
    exact ⟨fun both => ⟨fits, both.2⟩, fun both => ⟨rfl, both.2⟩⟩
  · refine iff_of_false (fun same => ?_) fun both => fits both.1
    -- A subidentifier of more groups begins with a continued one, which the encoder ends nowhere.
    have counts := congrArg (List.countP (· < 0x80)) same
    rw [List.countP_append, (base128_isSubidentifier _).countP,
      countP_flatMap base128_isSubidentifier, List.countP_cons,
      countP_flatMap fun _ => encodeArc_isSubidentifier _] at counts
    have low : sharedByte oid.first oid.second < 0x80 := by
      by_contra high
      rw [if_neg (by simpa using high)] at counts
      omega
    obtain ⟨group, rest, shape, continued⟩ := base128_head (Nat.not_lt.mp fits)
    rw [shape, List.cons_append, List.cons.injEq] at same
    exact continued (same.1 ▸ low)

/--
An OID is written by the rules just when its first two numbers fit a byte, and no other is between
the thresholds.

The buffer of the encoder is never overrun, whether they do or not.
-/
theorem encodedByRules_iff (oid : DottedOid) :
    encodeOid oid.text ≠ .error .overflow ∧
      (EncodedByRules oid ↔ 40 * oid.first + oid.second < 128 ∧
        ∀ arc ∈ oid.further, arc < 2 ^ 17 ∨ 2 ^ 21 ≤ arc) := by
  -- The text of an OID can be encoded, so only the content is in question.
  have encoded := encodeOid_eq_ok.mpr ⟨encodable_text oid, rfl⟩
  have inside : encodeOid oid.text ≠ .error .overflow := by
    rw [encoded]
    exact nofun
  refine ⟨inside, ?_⟩
  rw [← oidContent_text_iff]
  constructor
  · intro rules
    -- The content of an element can be read off it.
    have same := rules.element
    rw [encoded, Except.ok.injEq] at same
    exact (List.cons.inj (List.cons.inj same).2).2
  · intro content
    exact ⟨by rw [encoded, content], inside⟩

/-- The OID 2.100.3, whose first two numbers do not fit a byte. -/
def wideRoot : DottedOid where
  first := 2
  second := 100
  further := [3]
  root := by decide
  below := by decide
  words := by decide
  short := by decide

/-- The encoder cuts them to one byte. -/
theorem wideRoot_not_encoded : ¬ ∀ oid : DottedOid, EncodedByRules oid := by
  -- The encoder's bytes are compared with those of the rules.
  intro claim
  exact absurd (claim wideRoot).element (by decide +kernel)

/-- An OID in canonical form, whose text fits the buffer of the decoder. -/
structure CanonicalOid where
  /-- The byte of the first two numbers. -/
  first : UInt8
  /-- The numbers behind them. -/
  arcs : List Nat
  low : first < 0x80
  words : ∀ arc ∈ arcs, arc < 2 ^ 32
  /-- The first number is the root, and the second one what is left of the byte. -/
  fits : (decimal (min (first.toNat / 40) 2) ++
    dottedText ((first.toNat - 40 * min (first.toNat / 40) 2) :: arcs)).length ≤ 99

/-- The element of an OID. -/
def CanonicalOid.bytes (oid : CanonicalOid) : List UInt8 :=
  element 0x06 (oid.first :: oid.arcs.flatMap base128)

/-- The OID at the pointer, decoded to its text and encoded again. -/
def recodeOid (array : List UInt8) (pointer : Nat) : Except Fault (List UInt8) := do
  let (text, _) ← decodeOid array pointer
  encodeOid text

/-- What is expected of an OID at the pointer: it comes back, also as the name of an answer. -/
structure Echoed (array : List UInt8) (pointer : Nat) (bytes : List UInt8) : Prop where
  recoded : recodeOid array pointer = .ok bytes
  replied : ∀ (varbinds named : List Varbind) (behind : Nat),
    decodeName array pointer varbinds = .ok (named, behind) → ∃ varbind,
      named = varbind :: varbinds ∧ ∀ table, encodeOid (answerFrom table varbind).oid = .ok bytes

/-- The words of the numbers. -/
def CanonicalOid.nodes (oid : CanonicalOid) : List (BitVec 32) := oid.arcs.map (BitVec.ofNat 32)

/-- The text that the decoder prints. -/
def CanonicalOid.printed (oid : CanonicalOid) : List UInt8 :=
  oidPrefix oid.first ++ oid.nodes.flatMap dotted

/-- The signed numbers take as many characters as their words take bytes, but for one. -/
def CanonicalOid.Roomy (oid : CanonicalOid) : Prop :=
  (oid.arcs.flatMap base128).length ≤ (oid.nodes.flatMap dotted).length + 1

/-- The numbers that the decoder can print: those of six digits, or of a sign and five. -/
theorem length_dotted_lt_iff {arc : Nat} (word : arc < 2 ^ 32) :
    (dotted (BitVec.ofNat 32 arc)).length < numberSize ↔
      arc < 1000000 ∨ 2 ^ 32 - 100000 < arc := by
  -- Above half the range the number is printed with a sign.
  by_cases half : arc < 2 ^ 31
  · have digits := @length_decimal_le_iff arc 6 (by decide)
    rw [dotted_ofNat half, List.length_cons, numberSize]
    omega
  · -- From here on the number is printed as a negative one.
    have value : (BitVec.ofNat 32 arc).toInt = arc - 2 ^ 32 := by
      rw [BitVec.toInt_eq_toNat_cond, toNat_word word, if_neg (by omega)]
      omega
    have negative : (arc - 2 ^ 32 : Int) < 0 := by omega
    have digits := @length_decimal_le_iff (2 ^ 32 - arc) 5 (by decide)
    have natAbs : (arc - 2 ^ 32 : Int).natAbs = 2 ^ 32 - arc := by omega
    rw [dotted, value, formatInt, if_pos negative, natAbs, List.length_cons, List.length_cons,
      numberSize]
    omega

/-- What fits the buffer of a number is not longer than the number without a sign. -/
theorem length_dotted_le {arc : Nat} (word : arc < 2 ^ 32)
    (fits : (dotted (BitVec.ofNat 32 arc)).length < numberSize) :
    (dotted (BitVec.ofNat 32 arc)).length ≤ (dot :: decimal arc).length := by
  -- With a sign the number has at most five digits, and without it as many as it has.
  by_cases half : arc < 2 ^ 31
  · rw [dotted_ofNat half]
  · have digits := @length_decimal_le_iff arc 7 (by decide)
    rw [numberSize] at fits
    rw [List.length_cons]
    omega

/-- The bytes of an OID take less than what their length byte holds. -/
theorem CanonicalOid.length_lt (oid : CanonicalOid) : (oid.arcs.flatMap base128).length < 99 := by
  -- Each number takes no more bytes than characters, and the text fits its buffer.
  have sizes : (oid.arcs.flatMap base128).length ≤ (dottedText oid.arcs).length :=
    length_flatMap_le fun arc member => length_base128_le (oid.words arc member)
  have fits := oid.fits
  have root := List.length_pos_of_ne_nil (decimal_ne_nil (min (oid.first.toNat / 40) 2))
  rw [dottedText, List.flatMap_cons, List.length_append, List.length_append] at fits
  rw [dottedText] at sizes
  omega

/-- The decoder prints the numbers of an OID when the texts fit its buffers, and else fails. -/
theorem recodeOid_eq_ok (oid : CanonicalOid) {array data : List UInt8} {pointer : Nat}
    {rest : List UInt8} (here : array.drop pointer = oid.bytes ++ rest) :
    recodeOid array pointer = .ok data ↔
      TextFits (oidPrefix oid.first) oid.nodes ∧ encodeOid oid.printed = .ok data := by
  -- The bytes are decoded to the text, and the text is what the encoder is given.
  have inside := oid.length_lt
  have nodes : oidArcs 0 (oid.arcs.flatMap base128) = oid.nodes := oidArcs_flatMap oid.words
  have length : (UInt8.ofNat ((oid.arcs.flatMap base128).length + 1) - 1).toNat =
      (oid.arcs.flatMap base128).length := by
    have value : (UInt8.ofNat ((oid.arcs.flatMap base128).length + 1)).toNat =
        (oid.arcs.flatMap base128).length + 1 := by
      rw [UInt8.toNat_ofNat']
      omega
    rw [toNat_length_sub_one (by omega), value, Nat.add_sub_cancel]
  have behind : array.drop (pointer + 1) =
      UInt8.ofNat ((oid.arcs.flatMap base128).length + 1) :: oid.first ::
        (oid.arcs.flatMap base128 ++ rest) := drop_succ_of_cons here
  unfold recodeOid
  rw [bind_eq_ok]
  constructor
  · intro given
    rcases given with ⟨⟨text, index⟩, decoded, encoded⟩
    have field := decodeOid_yields.mp ⟨index, decoded, rfl⟩
    rw [behind] at field
    generalize shape : UInt8.ofNat ((oid.arcs.flatMap base128).length + 1) :: oid.first ::
      (oid.arcs.flatMap base128 ++ rest) = bytes at field
    cases field with
    | sized left size fits =>
      -- As many bytes are taken as the length says, which are those of the numbers.
      obtain ⟨rfl, rfl, content⟩ : _ ∧ _ ∧ _ := by
        rw [List.cons.injEq, List.cons.injEq] at shape
        exact shape
      obtain ⟨rfl, _⟩ := List.append_inj content (by rw [size, length])
      rw [nodes] at fits encoded
      exact ⟨fits, encoded⟩
  · intro given
    rcases given with ⟨fits, encoded⟩
    have field := @OidField.sized (UInt8.ofNat ((oid.arcs.flatMap base128).length + 1)) oid.first
      (oid.arcs.flatMap base128) rest length.symm (nodes ▸ fits)
    rw [nodes, ← behind] at field
    obtain ⟨index, decoded, _⟩ := decodeOid_yields.mpr field
    exact ⟨_, decoded, encoded⟩

/-- A number is printed as its signed value behind a dot. -/
theorem flatMap_dotted_signed (words : List (BitVec 32)) :
    words.flatMap dotted =
      (words.map BitVec.toInt).flatMap fun value => dot :: formatInt value := by
  -- The text of a word is a dot and its signed value.
  rw [List.flatMap_map]
  rfl

/-- What is printed for a word is encoded as that word. -/
theorem arcBytes_signed (word : BitVec 32) : arcBytes (formatInt word.toInt) = encodeArc word := by
  rw [arcBytes, atoi_formatInt, BitVec.ofInt_toInt]

/-- Without a prefix the first two further numbers are taken for the first two of the OID. -/
theorem encodeOid_unprefixed (oid : CanonicalOid) (other : oid.first ≠ 0x2b) :
    encodeOid oid.printed ≠ .ok oid.bytes := by
  -- The tokens of the text are the further numbers only.
  intro encoded
  obtain ⟨⟨two, _⟩, same⟩ := encodeOid_eq_ok.mp encoded
  have tokens : strtok dot oid.printed = oid.nodes.map fun word => formatInt word.toInt := by
    rw [CanonicalOid.printed, oidPrefix, if_neg other, List.nil_append, flatMap_dotted_signed,
      strtok_flatMap, List.map_map]
    rfl
  have content := (List.cons.inj (List.cons.inj same).2).2
  have numbers : oid.nodes.length = oid.arcs.length := List.length_map _
  rw [tokens] at two
  -- The bytes of two numbers are missing in what is written.
  match oid.nodes, numbers, tokens, two with
  | first :: second :: words, numbers, tokens, _ =>
    have parts : (words.map fun word => formatInt word.toInt).flatMap arcBytes =
        words.flatMap encodeArc := by
      rw [List.flatMap_map]
      exact List.flatMap_congr fun word _ => arcBytes_signed word
    simp only [oidContent, tokens, List.map_cons, List.cons.injEq, parts] at content
    have counts := congrArg (List.countP (· < 0x80)) content.2
    rw [countP_flatMap base128_isSubidentifier, countP_flatMap encodeArc_isSubidentifier,
      ← numbers, List.length_cons, List.length_cons] at counts
    omega

/-- With the prefix all numbers are found again. -/
theorem oidContent_prefixed (oid : CanonicalOid) (known : oid.first = 0x2b) :
    oidContent oid.printed =
      0x2b :: oid.arcs.flatMap fun arc => encodeArc (BitVec.ofNat 32 arc) := by
  -- The second number of the prefix has a dot before it, as all further ones have.
  have start : ascii "1.3" = decimal 1 ++ dot :: formatInt 3 := by decide
  have text : oid.printed = decimal 1 ++
      (3 :: oid.nodes.map BitVec.toInt).flatMap fun value => dot :: formatInt value := by
    rw [CanonicalOid.printed, oidPrefix, if_pos known, start, flatMap_dotted_signed,
      List.flatMap_cons, List.append_assoc]
  have tokens := strtok_dotted (decimal 1) (by decide) (by decide)
    (3 :: oid.nodes.map BitVec.toInt)
  have head : UInt8.ofNat (BitVec.ofInt 32 (atoi (decimal 1) * 40 + atoi (formatInt 3))).toNat =
      0x2b := by decide
  rw [← text, List.map_cons] at tokens
  simp only [oidContent, tokens, head, CanonicalOid.nodes, List.map_map, List.flatMap_map,
    Function.comp_def, arcBytes_signed]

/-- An OID with the prefix is encoded to its bytes when its numbers are and the text has room. -/
theorem encodeOid_prefixed (oid : CanonicalOid) (known : oid.first = 0x2b) :
    encodeOid oid.printed = .ok oid.bytes ↔
      (∀ arc ∈ oid.arcs, arc < 2 ^ 17 ∨ 2 ^ 21 ≤ arc) ∧ oid.Roomy := by
  -- Each number comes back when its groups are minimal ones.
  have content := oidContent_prefixed oid known
  have numbers := flatMap_encodeArc_iff oid.words
  have start : (ascii "1.3").length = 3 := by decide
  have length : oid.printed.length = 3 + (oid.nodes.flatMap dotted).length := by
    rw [CanonicalOid.printed, oidPrefix, if_pos known, List.length_append, start]
  -- The content is defined, so the text has the two tokens that the encoder follows.
  have two : 2 ≤ (strtok dot oid.printed).length := by
    by_contra few
    match tokens : strtok dot oid.printed, few with
    | [], _ => simp only [oidContent, tokens, reduceCtorEq] at content
    | [_], _ => simp only [oidContent, tokens, reduceCtorEq] at content
    | _ :: _ :: rest, few => exact few (Nat.le_add_left 2 _)
  rw [encodeOid_eq_ok, Encodable, content, ← numbers, CanonicalOid.Roomy, List.length_cons, length,
    CanonicalOid.bytes, known]
  constructor
  · intro given
    rcases given with ⟨⟨_, room⟩, same⟩
    have equal := (List.cons.inj (List.cons.inj (List.cons.inj same).2).2).2
    rw [equal]
    exact ⟨rfl, by omega⟩
  · intro given
    rcases given with ⟨equal, room⟩
    rw [equal]
    exact ⟨⟨two, by omega⟩, rfl⟩

/-- The numbers that are printed and written as they came. -/
def EchoesNumber (arc : Nat) : Prop := arc < 2 ^ 17 ∨ 2 ^ 32 - 100000 < arc

/-- The texts fit when the numbers are printed in six digits, or in a sign and five. -/
theorem textFits_iff (oid : CanonicalOid) (known : oid.first = 0x2b) :
    TextFits (oidPrefix oid.first) oid.nodes ↔
      ∀ arc ∈ oid.arcs, arc < 1000000 ∨ 2 ^ 32 - 100000 < arc := by
  -- The bound is that of each number, and the text then fits because the one of the OID does.
  have number : (∀ word ∈ oid.nodes, (dotted word).length < numberSize) ↔
      ∀ arc ∈ oid.arcs, arc < 1000000 ∨ 2 ^ 32 - 100000 < arc := by
    rw [CanonicalOid.nodes, List.forall_mem_map]
    exact forall₂_congr fun arc member => length_dotted_lt_iff (oid.words arc member)
  refine ⟨fun texts => number.mp texts.number, fun small => ⟨number.mpr small, ?_⟩⟩
  -- A number that fits its buffer is printed at most as long as in the text of the OID.
  have sizes : (oid.nodes.flatMap dotted).length ≤ (dottedText oid.arcs).length := by
    rw [CanonicalOid.nodes, List.flatMap_map]
    refine length_flatMap_le fun arc member => length_dotted_le (oid.words arc member) ?_
    exact (length_dotted_lt_iff (oid.words arc member)).mpr (small arc member)
  have fits := oid.fits
  have start : (ascii "1.3").length = 3 := by decide
  have root := List.length_pos_of_ne_nil (decimal_ne_nil (min (oid.first.toNat / 40) 2))
  have below := List.length_pos_of_ne_nil
    (decimal_ne_nil (oid.first.toNat - 40 * min (oid.first.toNat / 40) 2))
  rw [dottedText, List.flatMap_cons, List.length_append, List.length_append,
    List.length_cons] at fits
  rw [dottedText] at sizes
  rw [oidPrefix, if_pos known, List.length_append, start, oidTextSize]
  omega

/-- An OID is decoded and encoded to its bytes just for the one prefix and such numbers. -/
theorem recodeOid_iff (oid : CanonicalOid) {array : List UInt8} {pointer : Nat}
    {rest : List UInt8} (here : array.drop pointer = oid.bytes ++ rest) :
    recodeOid array pointer = .ok oid.bytes ↔
      oid.first = 0x2b ∧ (∀ arc ∈ oid.arcs, EchoesNumber arc) ∧ oid.Roomy := by
  -- The text is given back for the one prefix only, and number by number then.
  rw [recodeOid_eq_ok oid here]
  by_cases known : oid.first = 0x2b
  · rw [textFits_iff oid known, encodeOid_prefixed oid known]
    constructor
    · intro given
      rcases given with ⟨printed, written, room⟩
      refine ⟨known, fun arc member => ?_, room⟩
      rcases printed arc member with small | large
      · exact .inl ((written arc member).resolve_right (by omega))
      · exact .inr large
    · intro given
      rcases given with ⟨_, numbers, room⟩
      refine ⟨fun arc member => ?_, fun arc member => ?_, room⟩
      · exact (numbers arc member).imp_left (Nat.lt_trans · (by decide))
      · exact (numbers arc member).imp_right (fun large => by omega)
  · exact iff_of_false (fun both => encodeOid_unprefixed oid known both.2) fun all => known all.1

/--
An OID comes back just when it begins with 1.3 and its numbers are printed and written as they
came, with a text that has room for them.

The OID is anywhere in a block; what comes back is also the name of an answer to its binding.
-/
theorem echoed_iff (oid : CanonicalOid) (before rest : List UInt8) :
    Echoed (before ++ (oid.bytes ++ rest)) before.length oid.bytes ↔
      oid.first = 0x2b ∧ (∀ arc ∈ oid.arcs, EchoesNumber arc) ∧ oid.Roomy := by
  -- The decoding and the encoding are looked at first, and then the answer between them.
  have here : (before ++ (oid.bytes ++ rest)).drop before.length = oid.bytes ++ rest :=
    List.drop_left
  rw [← recodeOid_iff oid here]
  refine ⟨Echoed.recoded, fun recoded => ⟨recoded, ?_⟩⟩
  intro varbinds named behind decoded
  obtain ⟨tag, read, decoded⟩ := bind_eq_ok.mp decoded
  obtain ⟨tail, same⟩ := readByte_eq_ok.mp read
  rw [here, CanonicalOid.bytes, element, List.cons_append, List.cons.injEq] at same
  rw [if_pos same.1.symm] at decoded
  -- The name is the text that was decoded, and an answer keeps it.
  obtain ⟨⟨text, index⟩, printed, entry⟩ := bind_eq_ok.mp decoded
  obtain ⟨other, again, encoded⟩ := bind_eq_ok.mp recoded
  rw [printed, Except.ok.injEq] at again
  subst again
  cases entry
  refine ⟨_, rfl, fun table => ?_⟩
  rw [answerFrom_oid]
  exact encoded

/-- The OID 1.0.8802, which begins with another byte than 1.3. -/
def otherRoot : CanonicalOid where
  first := 0x28
  arcs := [8802]
  low := by decide
  words := by decide
  fits := by decide

/-- Its text lacks the first two numbers, so there are not enough of them to encode. -/
theorem otherRoot_not_echoed : ¬ ∀ (oid : CanonicalOid) (before rest : List UInt8),
    Echoed (before ++ (oid.bytes ++ rest)) before.length oid.bytes := by
  -- The text and what is encoded from it are computed.
  intro claim
  exact absurd (claim otherRoot [] []).recoded (by decide +kernel)

end OpenwrtMisc.SnmpAgent
