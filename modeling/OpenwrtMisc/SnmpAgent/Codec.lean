import OpenwrtMisc.Lib.Checked
import OpenwrtMisc.Lib.CString
import Mathlib.Tactic.IntervalCases

/-! The decoders and encoders of single values, on blocks of bytes and running pointers. -/

namespace OpenwrtMisc.SnmpAgent

/-- The bytes that the encoder spends on a subidentifier. -/
def oidItemLength (value : BitVec 32) : Nat :=
  if value &&& 0xffffff80 = 0 then 1
  else if value &&& 0xffffc000 = 0 then 2
  else if value &&& 0xfffe0000 = 0 then 3
  else if value &&& 0xf0000000 = 0 then 4
  else 5

/-- The word that is shifted together from so many bytes. -/
def shiftedWord (content : List UInt8) : BitVec 32 :=
  content.foldl (fun buffer byte => buffer <<< 8 ||| BitVec.ofNat 32 byte.toNat) 0

/-- The INTEGER whose tag the pointer is at, and the pointer behind it. -/
def decodeInteger (array : List UInt8) (pointer : Nat) : Except Fault (BitVec 32 × Nat) := do
  let width ← readByte array (pointer + 1)
  -- The four cases of the switch read as many bytes as the width says.
  if 1 ≤ width ∧ width ≤ 4 then
    let content ← copyBytes array (pointer + 2) width.toNat
    return (shiftedWord content, pointer + 2 + width.toNat)
  else return (4, pointer + 2)

/-- The OCTET STRING whose tag the pointer is at, and the pointer behind it. -/
def decodeString (array : List UInt8) (pointer : Nat) : Except Fault (List UInt8 × Nat) := do
  let length ← readByte array (pointer + 1)
  let string ← copyBytes array (pointer + 2) length.toNat
  return (string, pointer + 2 + length.toNat)

/-- The text of one subidentifier, as `sprintf` prints it with its dot. -/
def dotted (value : BitVec 32) : List UInt8 := dot :: formatInt value.toInt

/-- The size of the buffer that one subidentifier is printed to. -/
def numberSize : Nat := 8

/-- The size of the buffer that the text of an OID is collected in. -/
def oidTextSize : Nat := 100

/-- Prints a subidentifier to its buffer and appends it to the text, each with its final zero. -/
def appendNumber (buffer : List UInt8) (value : BitVec 32) : Except Fault (List UInt8) :=
  if (dotted value).length + 1 > numberSize then .error .overflow
  else if (buffer ++ dotted value).length + 1 > oidTextSize then .error .overflow
  else .ok (buffer ++ dotted value)

/-- The loop over the remaining bytes of an OID; the pointer is at the last byte that was read. -/
def decodeOidLoop (array : List UInt8) :
    Nat → Nat → BitVec 32 → List UInt8 → Except Fault (List UInt8 × Nat)
  | 0, pointer, _, buffer => .ok (buffer, pointer)
  | length + 1, pointer, oidNodeLong, buffer => do
    let oidNode ← readByte array (pointer + 1)
    if 0x80 ≤ oidNode then
      let joined := oidNodeLong ||| BitVec.ofNat 32 (oidNode &&& 0x7f).toNat
      decodeOidLoop array length (pointer + 1) (joined <<< 7) buffer
    else if oidNodeLong ≠ 0 then
      let buffer ← appendNumber buffer (oidNodeLong ||| BitVec.ofNat 32 oidNode.toNat)
      decodeOidLoop array length (pointer + 1) 0 buffer
    else
      let buffer ← appendNumber buffer (BitVec.ofNat 32 oidNode.toNat)
      decodeOidLoop array length (pointer + 1) oidNodeLong buffer

/-- The text that the first byte of an OID stands for: only the prefix 1.3 is known. -/
def oidPrefix (first : UInt8) : List UInt8 := if first = 0x2b then ascii "1.3" else []

/-- The text of the OBJECT IDENTIFIER whose tag the pointer is at, and the pointer behind it. -/
def decodeOid (array : List UInt8) (pointer : Nat) : Except Fault (List UInt8 × Nat) := do
  let length ← readByte array (pointer + 1)
  let first ← readByte array (pointer + 2)
  -- The length is an unsigned char, so a length of zero becomes 255 here.
  let (string, pointer) ←
    decodeOidLoop array (length - 1).toNat (pointer + 2) 0 (oidPrefix first)
  return (string, pointer + 1)

/-- The bytes of a subidentifier above its lowest group, from the lowest one up. -/
def encodeArcLoop : Nat → BitVec 32 → List UInt8 → List UInt8
  | 0, _, written => written
  | j + 1, value, written =>
    let value := value >>> 7
    encodeArcLoop j value ((UInt8.ofNat (value &&& 0x7f).toNat ||| 0x80) :: written)

/-- The bytes that the encoder writes for a subidentifier. -/
def encodeArc (value : BitVec 32) : List UInt8 :=
  encodeArcLoop (oidItemLength value - 1) value [UInt8.ofNat (value &&& 0x7f).toNat]

/-- Writes the remaining subidentifiers behind the bytes that are in the buffer of a size. -/
def encodeOidLoop (size : Nat) : List (List UInt8) → List UInt8 → Except Fault (List UInt8)
  | [], content => .ok content
  | part :: parts, content =>
    let written := content ++ encodeArc (BitVec.ofInt 32 (atoi part))
    -- The content begins behind the tag and the length of the buffer.
    if 2 + written.length > size then .error .overflow else encodeOidLoop size parts written

/-- The OBJECT IDENTIFIER of a dotted text, in a buffer as long as the text and its zero. -/
def encodeOid (array : List UInt8) : Except Fault (List UInt8) :=
  match strtok dot array with
  | first :: second :: parts =>
    let value := BitVec.ofInt 32 (atoi first * 40 + atoi second)
    if 3 > array.length + 1 then .error .overflow
    else do
      let content ← encodeOidLoop (array.length + 1) parts [UInt8.ofNat value.toNat]
      return 0x06 :: UInt8.ofNat content.length :: content
  -- The number of a token that is not there is read through a null pointer.
  | _ => .error .nullPointer

/-- The OCTET STRING of what a C function sees of a block. -/
def encodeString (array : List UInt8) : List UInt8 :=
  0x04 :: UInt8.ofNat (cString array).length :: cString array

/-- The lowest byte of a word. -/
def lowByte (value : BitVec 32) : UInt8 := UInt8.ofNat value.toNat

/-- The INTEGER of a word in one, two or four bytes. -/
def encodeInteger (value : BitVec 32) : List UInt8 :=
  if value.toNat > 32767 then
    [0x02, 0x04, lowByte (value >>> 24), lowByte (value >>> 16), lowByte (value >>> 8),
      lowByte value]
  else if value.toNat > 127 then [0x02, 0x02, lowByte (value >>> 8), lowByte value]
  else [0x02, 0x01, lowByte value]

/-- A word under a type; the width is chosen by the length and else by the value. -/
def encodeIntegerByLength (value : BitVec 32) (length typ : UInt8) : List UInt8 :=
  if length > 2 then
    [typ, 0x04, lowByte (value >>> 24), lowByte (value >>> 16), lowByte (value >>> 8),
      lowByte value]
  else if value.toNat > 1 then [typ, 0x02, lowByte (value >>> 8), lowByte value]
  else [typ, 0x01, lowByte value]

end OpenwrtMisc.SnmpAgent
