import OpenwrtMisc.Lib.Crc
import Mathlib.Tactic.IntervalCases

/-! The checksums of messages, which come from a table. -/

namespace OpenwrtMisc.Libsml

open Crc

/-- `PPPINITFCS16`. -/
def pppInitFcs16 : UInt16 := 0xffff

/-- `crctab`. -/
def crctab : Array UInt16 := #[
  0x0000, 0x1189, 0x2312, 0x329b, 0x4624, 0x57ad, 0x6536, 0x74bf, 0x8c48, 0x9dc1, 0xaf5a, 0xbed3,
  0xca6c, 0xdbe5, 0xe97e, 0xf8f7, 0x1081, 0x0108, 0x3393, 0x221a, 0x56a5, 0x472c, 0x75b7, 0x643e,
  0x9cc9, 0x8d40, 0xbfdb, 0xae52, 0xdaed, 0xcb64, 0xf9ff, 0xe876, 0x2102, 0x308b, 0x0210, 0x1399,
  0x6726, 0x76af, 0x4434, 0x55bd, 0xad4a, 0xbcc3, 0x8e58, 0x9fd1, 0xeb6e, 0xfae7, 0xc87c, 0xd9f5,
  0x3183, 0x200a, 0x1291, 0x0318, 0x77a7, 0x662e, 0x54b5, 0x453c, 0xbdcb, 0xac42, 0x9ed9, 0x8f50,
  0xfbef, 0xea66, 0xd8fd, 0xc974, 0x4204, 0x538d, 0x6116, 0x709f, 0x0420, 0x15a9, 0x2732, 0x36bb,
  0xce4c, 0xdfc5, 0xed5e, 0xfcd7, 0x8868, 0x99e1, 0xab7a, 0xbaf3, 0x5285, 0x430c, 0x7197, 0x601e,
  0x14a1, 0x0528, 0x37b3, 0x263a, 0xdecd, 0xcf44, 0xfddf, 0xec56, 0x98e9, 0x8960, 0xbbfb, 0xaa72,
  0x6306, 0x728f, 0x4014, 0x519d, 0x2522, 0x34ab, 0x0630, 0x17b9, 0xef4e, 0xfec7, 0xcc5c, 0xddd5,
  0xa96a, 0xb8e3, 0x8a78, 0x9bf1, 0x7387, 0x620e, 0x5095, 0x411c, 0x35a3, 0x242a, 0x16b1, 0x0738,
  0xffcf, 0xee46, 0xdcdd, 0xcd54, 0xb9eb, 0xa862, 0x9af9, 0x8b70, 0x8408, 0x9581, 0xa71a, 0xb693,
  0xc22c, 0xd3a5, 0xe13e, 0xf0b7, 0x0840, 0x19c9, 0x2b52, 0x3adb, 0x4e64, 0x5fed, 0x6d76, 0x7cff,
  0x9489, 0x8500, 0xb79b, 0xa612, 0xd2ad, 0xc324, 0xf1bf, 0xe036, 0x18c1, 0x0948, 0x3bd3, 0x2a5a,
  0x5ee5, 0x4f6c, 0x7df7, 0x6c7e, 0xa50a, 0xb483, 0x8618, 0x9791, 0xe32e, 0xf2a7, 0xc03c, 0xd1b5,
  0x2942, 0x38cb, 0x0a50, 0x1bd9, 0x6f66, 0x7eef, 0x4c74, 0x5dfd, 0xb58b, 0xa402, 0x9699, 0x8710,
  0xf3af, 0xe226, 0xd0bd, 0xc134, 0x39c3, 0x284a, 0x1ad1, 0x0b58, 0x7fe7, 0x6e6e, 0x5cf5, 0x4d7c,
  0xc60c, 0xd785, 0xe51e, 0xf497, 0x8028, 0x91a1, 0xa33a, 0xb2b3, 0x4a44, 0x5bcd, 0x6956, 0x78df,
  0x0c60, 0x1de9, 0x2f72, 0x3efb, 0xd68d, 0xc704, 0xf59f, 0xe416, 0x90a9, 0x8120, 0xb3bb, 0xa232,
  0x5ac5, 0x4b4c, 0x79d7, 0x685e, 0x1ce1, 0x0d68, 0x3ff3, 0x2e7a, 0xe70e, 0xf687, 0xc41c, 0xd595,
  0xa12a, 0xb0a3, 0x8238, 0x93b1, 0x6b46, 0x7acf, 0x4854, 0x59dd, 0x2d62, 0x3ceb, 0x0e70, 0x1ff9,
  0xf78f, 0xe606, 0xd49d, 0xc514, 0xb1ab, 0xa022, 0x92b9, 0x8330, 0x7bc7, 0x6a4e, 0x58d5, 0x495c,
  0x3de3, 0x2c6a, 0x1ef1, 0x0f78]

/-- One turn of either loop. -/
def crcTurn (crc : UInt16) (byte : UInt8) : UInt16 :=
  (crc >>> 8) ^^^ (crctab[((crc ^^^ byte.toUInt16) &&& 0xff).toNat]?).getD 0

/-- `sml_crc16_calculate`. -/
def smlCrc16Calculate (cp : List UInt8) : UInt16 :=
  let fcs := cp.foldl crcTurn pppInitFcs16
  let fcs := fcs ^^^ 0xffff
  ((fcs &&& 0xff) <<< 8) ||| ((fcs &&& 0xff00) >>> 8)

/-- `sml_crc16kermit_calculate`. -/
def smlCrc16kermitCalculate (cp : List UInt8) : UInt16 := cp.foldl crcTurn 0x0000

/-- The divisor, whose bits stand the other way round. -/
def divisor : BitVec 16 := 0x8408

/-- The table holds the remainders of the bytes. -/
theorem crctab_eq : ∀ i < 256,
    ((crctab[i]?).getD 0).toBitVec = bitSteps divisor 8 (BitVec.ofNat 16 i) := by
  decide +kernel

/-- A turn is eight bits of the division. -/
theorem crcTurn_eq (crc : UInt16) (byte : UInt8) :
    (crcTurn crc byte).toBitVec = byteStep divisor crc.toBitVec byte := by
  -- The index into the table is the low byte of what the byte was mixed into.
  have mixed : (crc ^^^ byte.toUInt16).toBitVec =
      crc.toBitVec ^^^ byte.toBitVec.setWidth 16 := rfl
  have index : ((crc ^^^ byte.toUInt16) &&& 0xff).toNat =
      (crc.toBitVec ^^^ byte.toBitVec.setWidth 16).toNat % 256 := by
    rw [UInt16.toNat_and, ← mixed]
    exact Nat.and_two_pow_sub_one_eq_mod _ 8
  have low : BitVec.ofNat 16 ((crc.toBitVec ^^^ byte.toBitVec.setWidth 16).toNat % 256) =
      ((crc.toBitVec ^^^ byte.toBitVec.setWidth 16).setWidth 8).setWidth 16 := by
    refine BitVec.eq_of_toNat_eq ?_
    rw [BitVec.toNat_ofNat, BitVec.toNat_setWidth, BitVec.toNat_setWidth]
  rw [byteStep_table divisor crc.toBitVec byte, crcTurn, index, UInt16.toBitVec_xor,
    crctab_eq _ (Nat.mod_lt _ (by decide)), low]
  rfl

/-- Both loops divide. -/
theorem foldl_crcTurn (cp : List UInt8) (crc : UInt16) :
    (cp.foldl crcTurn crc).toBitVec = remainder divisor crc.toBitVec cp := by
  -- The induction is on the bytes.
  induction cp generalizing crc with
  | nil => rfl
  | cons byte rest ih => rw [List.foldl_cons, ih, crcTurn_eq, remainder, remainder, List.foldl_cons]

/-- The two bytes of a word in the other order. -/
def swapBytes (word : BitVec 16) : BitVec 16 := (word.setWidth 8 ++ (word >>> 8).setWidth 8)

/-- Every bit is still there after the exchange. -/
theorem swapBytes_swapBytes (word : BitVec 16) : swapBytes (swapBytes word) = word := by
  -- A bit is moved by eight places, and back by the second exchange.
  refine BitVec.eq_of_getLsbD_eq fun i below => ?_
  simp only [swapBytes, BitVec.getLsbD_append, BitVec.getLsbD_setWidth, BitVec.getLsbD_ushiftRight]
  by_cases low : i < 8
  · have other : ¬ 8 + i < 8 := by omega
    simp [low, other]
  · have high : i - 8 < 8 := by omega
    simp [low, high, Nat.add_sub_cancel' (Nat.le_of_not_lt low)]

/-- `sml_crc16_calculate` turns the remainder's bits over, and exchanges its bytes. -/
theorem smlCrc16Calculate_eq (cp : List UInt8) :
    (smlCrc16Calculate cp).toBitVec = swapBytes (~~~ remainder divisor 0xffff cp) := by
  -- The masks and shifts at the end of the function exchange the bytes, bit by bit.
  have exchanged : ∀ word : BitVec 16,
      ((word &&& 0x00ff#16) <<< 8) ||| ((word &&& 0xff00#16) >>> 8) = swapBytes word := by
    intro word
    refine BitVec.eq_of_getLsbD_eq fun i below => ?_
    simp only [swapBytes, BitVec.getLsbD_append, BitVec.getLsbD_setWidth,
      BitVec.getLsbD_ushiftRight, BitVec.getLsbD_or, BitVec.getLsbD_shiftLeft, BitVec.getLsbD_and]
    interval_cases i <;> simp
  have turned : ∀ word : BitVec 16, word ^^^ 0xffff#16 = ~~~ word :=
    fun word => BitVec.xor_allOnes
  have divided : remainder divisor 0xffff cp = (cp.foldl crcTurn pppInitFcs16).toBitVec :=
    (foldl_crcTurn cp pppInitFcs16).symm
  rw [← exchanged, ← turned, divided]
  rfl

/-- `sml_crc16kermit_calculate` is the remainder from zero. -/
theorem smlCrc16kermitCalculate_eq (cp : List UInt8) :
    (smlCrc16kermitCalculate cp).toBitVec = remainder divisor 0 cp := foldl_crcTurn cp 0

/-- A change of one or two bytes beside each other changes both checksums. -/
theorem checksums_burst (before after : List UInt8) {burst other : List UInt8}
    (length : burst.length = other.length) (short : burst.length ≤ 2) :
    (smlCrc16Calculate (before ++ burst ++ after) = smlCrc16Calculate (before ++ other ++ after) ↔
        burst = other) ∧
      (smlCrc16kermitCalculate (before ++ burst ++ after) =
        smlCrc16kermitCalculate (before ++ other ++ after) ↔ burst = other) := by
  have top : divisor.getLsbD (16 - 1) = true := by decide
  -- The division tells the bursts apart, whatever remainder it starts from.
  have detected := fun crc : BitVec 16 =>
    remainder_burst top crc before after length (by omega)
  constructor
  · rw [← detected 0xffff, ← UInt16.toBitVec_inj, smlCrc16Calculate_eq, smlCrc16Calculate_eq]
    constructor
    · intro same
      -- The exchange and the complement can be taken back.
      have words := congrArg swapBytes same
      rw [swapBytes_swapBytes, swapBytes_swapBytes] at words
      exact BitVec.not_inj.mp words
    · intro same
      rw [same]
  · rw [← detected 0, ← UInt16.toBitVec_inj, smlCrc16kermitCalculate_eq,
      smlCrc16kermitCalculate_eq]

/-- Two bytes that change places are noticed. -/
theorem checksums_swapped :
    smlCrc16Calculate ([0x76] ++ [0x01, 0x02] ++ [0x63]) ≠
        smlCrc16Calculate ([0x76] ++ [0x02, 0x01] ++ [0x63]) ∧
      smlCrc16kermitCalculate ([0x76] ++ [0x01, 0x02] ++ [0x63]) ≠
        smlCrc16kermitCalculate ([0x76] ++ [0x02, 0x01] ++ [0x63]) := by
  -- Two bytes are a burst of sixteen bits.
  have noticed := @checksums_burst [0x76] [0x63] [0x01, 0x02] [0x02, 0x01] rfl (by decide)
  exact ⟨fun same => absurd (noticed.1.mp same) (by decide),
    fun same => absurd (noticed.2.mp same) (by decide)⟩

end OpenwrtMisc.Libsml
