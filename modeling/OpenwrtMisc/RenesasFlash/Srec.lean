import OpenwrtMisc.Lib.Ber
import OpenwrtMisc.Lib.HexText
import OpenwrtMisc.Lib.Patch
import OpenwrtMisc.RenesasFlash.Progmem
import Mathlib.Data.Nat.ModEq
import Mathlib.Data.UInt

/-! The reader of S-record files, whose lines share one static buffer. -/

namespace OpenwrtMisc.RenesasFlash

open Ber

/-- What a character adds to a number in hexadecimal digits: other characters add nothing. -/
def nibble (c : UInt8) : Nat :=
  if 0x30 ≤ c ∧ c ≤ 0x39 then c.toNat - 0x30
  else if 0x41 ≤ c ∧ c ≤ 0x46 then c.toNat - 0x41 + 10
  else if 0x61 ≤ c ∧ c ≤ 0x66 then c.toNat - 0x61 + 10
  else 0

/-- The loop of `unhex`, whose result is an `unsigned int`. -/
def unhexLoop (line : Nat → UInt8) (ptr rv : Nat) : Nat → Nat
  | 0 => rv
  | digits + 1 => unhexLoop line (ptr + 1) (rv * 16 % 2 ^ 32 + nibble (line ptr)) digits

/-- `unhex`, of the characters from one index of the buffer on. -/
def unhex (line : Nat → UInt8) (ptr digits : Nat) : Nat := unhexLoop line ptr 0 digits

/-- `dataline`: its calls of `progmem_putc`. -/
def dataline (line : Nat → UInt8) (count abytes : Nat) : List Load :=
  let addr := unhex line 4 (abytes * 2)
  let count : Int := count - (abytes + 1)
  let cp := 4 + abytes * 2
  (List.range count.toNat).map fun i =>
    .putc ((addr + i) % 2 ^ 32) (UInt8.ofNat (unhex line (cp + i * 2) 2))

/-- The cases of the switch with data: how many bytes the address of a record has. -/
def addressBytes (type : UInt8) : Option Nat :=
  if type = 0x31 then some 2
  else if type = 0x32 then some 3
  else if type = 0x33 then some 4
  else none

/-- `fgets`: the next characters, up to a newline and one less than there is room for. -/
def fgets (size : Nat) (text : List UInt8) : Option (List UInt8) :=
  if text = [] then none else some ((firstLine text).take (size - 1))

/-- A call of the reader: its result, its calls, and where in the text it found a record. -/
structure SrecRun where
  result : Nat
  calls : List Load
  used : List Nat
  deriving DecidableEq, Repr

/-- The loop of `read_srec_file`, with the place of the file that is read next. -/
def readSrecLoop : Nat → (Nat → UInt8) → Nat → List UInt8 → SrecRun
  | 0, _, _, _ => ⟨0, [], []⟩
  | fuel + 1, line, place, text =>
    match fgets 600 text with
    | none => ⟨0, [], []⟩
    | some read =>
      let line := patch 0 (read ++ [0]) line
      if line 0 ≠ 0x53 then ⟨1, [], []⟩
      else
        let count := unhex line 2 2
        let rest := readSrecLoop fuel line (place + read.length) (text.drop read.length)
        match addressBytes (line 1) with
        | none => rest
        | some abytes =>
          ⟨rest.result, dataline line count abytes ++ rest.calls, place :: rest.used⟩

/-- `read_srec_file`, with the buffer as it was left before. -/
def readSrecFile (line : Nat → UInt8) (text : List UInt8) : SrecRun :=
  readSrecLoop (text.length + 1) line 0 text

/-- What a record says: where its data goes. -/
structure Record where
  address : Nat
  data : List UInt8
  deriving DecidableEq, Repr

/-- How many bytes of address a line has, if it starts like a record with data. -/
def lineBytes : List UInt8 → Option Nat
  | 0x53 :: type :: _ => addressBytes type
  | _ => none

/--
The record of a line.

Its count covers the address, the data and the checksum, which makes the sum come out at 0xff.
-/
def srecord (line : List UInt8) : Option Record :=
  match lineBytes line, hexBytes ((line.drop 2).take 2) with
  | some abytes, some [count] =>
    match hexBytes ((line.drop 4).take (2 * count.toNat)) with
    | none => none
    | some body =>
      if body.length = count.toNat ∧ abytes < count.toNat ∧ (count + body.sum) = 0xff then
        some ⟨bigEndian (body.take abytes), (body.drop abytes).dropLast⟩
      else none
  | _, _ => none

/-- The calls that load the data of a record. -/
def Record.calls (record : Record) : List Load :=
  record.data.mapIdx fun i v => .putc (record.address + i) v

/-- The calls that a line asks for. -/
def lineCalls (line : List UInt8) : List Load := (srecord line).elim [] Record.calls

/-- The calls that a text of S-records asks for. -/
def referenceCalls (text : List UInt8) : List Load :=
  (lines text).flatMap lineCalls

/-- Whether the next character begins a line. -/
def AtLineStart (before : List UInt8) : Prop := before = [] ∨ before.getLast? = some newline

/-- What was found at a place stands there: it begins a line, and this line is a record. -/
structure Own (text : List UInt8) (place : Nat) : Prop where
  begins : AtLineStart (text.take place)
  whole : (srecord (firstLine (text.drop place))).isSome

/-- What is expected of a call that accepted a text. -/
structure Reads (text : List UInt8) (run : SrecRun) : Prop where
  calls : run.calls = referenceCalls text
  own : ∀ place ∈ run.used, Own text place

/--
Texts that are read as they should be.

Lines that start like a record are records, and their data stays below 4 GiB. A line too long for
the buffer does not go on with what starts like a record.
-/
structure WellFormed (text : List UInt8) : Prop where
  records : ∀ line ∈ lines text, (lineBytes line).isSome →
    ∃ record, srecord line = some record ∧ record.address + record.data.length ≤ 2 ^ 32
  short : ∀ line ∈ lines text, ∀ turn, 0 < turn → lineBytes (line.drop (599 * turn)) = none

/-- A hexadecimal digit adds its value. -/
theorem nibble_of_digit {c : UInt8} {digit : Nat} (read : digitOf 16 c = some digit) :
    nibble c = digit := by
  -- Each of the three ranges of digits has an offset of its own.
  simp only [digitOf, Option.ite_none_right_eq_some, Option.some.injEq] at read
  obtain ⟨small, rfl⟩ := read
  simp only [nibble, IsDigit, UInt8.le_iff_toNat_le, UInt8.reduceToNat] at small ⊢
  split_ifs at small ⊢ <;> omega

/-- A character adds less than sixteen. -/
theorem nibble_lt (c : UInt8) : nibble c < 16 := by
  -- What is no digit adds nothing.
  simp only [nibble, UInt8.le_iff_toNat_le, UInt8.reduceToNat]
  split_ifs <;> omega

/-- A number stays an `unsigned int`. -/
theorem unhexLoop_lt (line : Nat → UInt8) {ptr rv : Nat} (small : rv < 2 ^ 32) (digits : Nat) :
    unhexLoop line ptr rv digits < 2 ^ 32 := by
  -- The number is cut to 32 bits at every digit.
  induction digits generalizing ptr rv with
  | zero => exact small
  | succ digits ih =>
    have digit := nibble_lt (line ptr)
    exact ih (by omega)

/-- The digits of bytes make their number, as far as it fits. -/
theorem unhexLoop_mod (line : Nat → UInt8) {bytes : List UInt8} {ptr rv : Nat}
    (read : hexBytes (window ptr (2 * bytes.length) line) = some bytes) :
    unhexLoop line ptr rv (2 * bytes.length) % 2 ^ 32 =
      (rv * 256 ^ bytes.length + bigEndian bytes) % 2 ^ 32 := by
  -- Induction on the bytes, each of which is two digits.
  induction bytes generalizing ptr rv with
  | nil => simp [unhexLoop]
  | cons byte rest ih =>
    have turns : 2 * (byte :: rest).length = 2 * rest.length + 1 + 1 := by
      rw [List.length_cons]
      omega
    have pair : window ptr (2 * rest.length + 1 + 1) line =
        [line ptr, line (ptr + 1)] ++ window (ptr + 1 + 1) (2 * rest.length) line := rfl
    rw [turns] at read ⊢
    rw [pair] at read
    obtain ⟨first, behind⟩ := hexBytes_append 1 rfl read
    obtain ⟨high, low, one, two, same⟩ := hexBytes_pair.mp first
    have value : byte.toNat = 16 * high + low := by
      have highSmall := digitOf_lt one
      have lowSmall := digitOf_lt two
      rw [same, UInt8.toNat_ofNat']
      omega
    -- Two turns are one turn of a loop over bytes.
    have turn : (rv * 16 % 2 ^ 32 + high) * 16 % 2 ^ 32 + low ≡
        rv * 256 + byte.toNat [MOD 2 ^ 32] := by
      unfold Nat.ModEq
      omega
    rw [unhexLoop, unhexLoop, ih behind, bigEndian_cons, List.length_cons, nibble_of_digit one,
      nibble_of_digit two]
    have later := (turn.mul_right (256 ^ rest.length)).add_right (bigEndian rest)
    have shape : rv * 256 ^ (rest.length + 1) + (byte.toNat * 256 ^ rest.length + bigEndian rest) =
        (rv * 256 + byte.toNat) * 256 ^ rest.length + bigEndian rest := by ring
    rw [shape]
    exact later

/-- `unhex` reads the digits of bytes that fit an `unsigned int` as their number. -/
theorem unhex_eq (line : Nat → UInt8) {bytes : List UInt8} {ptr : Nat} (short : bytes.length ≤ 4)
    (read : hexBytes (window ptr (2 * bytes.length) line) = some bytes) :
    unhex line ptr (2 * bytes.length) = bigEndian bytes := by
  -- Four bytes are less than 2 ^ 32, so nothing is cut off.
  have four : 256 ^ bytes.length ≤ 256 ^ 4 := Nat.pow_le_pow_right (by decide) short
  have small : bigEndian bytes < 2 ^ 32 := Nat.lt_of_lt_of_le (bigEndian_lt bytes) four
  have same : unhex line ptr (2 * bytes.length) % 2 ^ 32 =
      (0 * 256 ^ bytes.length + bigEndian bytes) % 2 ^ 32 := unhexLoop_mod line read
  rw [unhex, Nat.mod_eq_of_lt (unhexLoop_lt line (by decide) _), Nat.zero_mul, Nat.zero_add,
    Nat.mod_eq_of_lt small] at same
  exact same

/-- `unhex` reads two digits as their byte. -/
theorem unhex_pair (line : Nat → UInt8) {byte : UInt8} {ptr : Nat}
    (read : hexBytes (window ptr 2 line) = some [byte]) : unhex line ptr 2 = byte.toNat := by
  -- Two digits are the case of a single byte.
  have value : unhex line ptr (2 * [byte].length) = bigEndian [byte] :=
    unhex_eq line (by simp) read
  rw [List.length_singleton, Nat.mul_one] at value
  rw [value, bigEndian_cons, List.length_nil, Nat.pow_zero, Nat.mul_one, bigEndian_nil,
    Nat.add_zero]

/-- What was read last lies in the buffer. -/
theorem window_read {read : List UInt8} (line : Nat → UInt8) {start count : Nat}
    (inside : start + count ≤ read.length) :
    window start count (patch 0 (read ++ [0]) line) = (read.drop start).take count := by
  -- What was read lies in front of its zero, and the rest of the buffer behind.
  have within : start + count ≤ (read ++ [0]).length := by
    rw [List.length_append]
    omega
  have slice := @window_slice _ 0 _ _ _ (patch 0 (read ++ [0]) line) within
  rw [window_patch_same, Nat.zero_add] at slice
  rw [← slice, List.drop_append_of_le_length (by omega),
    List.take_append_of_le_length (by rw [List.length_drop]; omega)]

/-- What a record on a line says about this line. -/
structure Written (line : List UInt8) (record : Record) (abytes count : Nat) (body : List UInt8) :
    Prop where
  kind : lineBytes line = some abytes
  counted : hexBytes ((line.drop 2).take 2) = some [UInt8.ofNat count]
  read : hexBytes ((line.drop 4).take (2 * count)) = some body
  size : body.length = count
  covers : abytes < count
  small : count < 256
  means : record = ⟨bigEndian (body.take abytes), (body.drop abytes).dropLast⟩

/-- A record is written on its line. -/
theorem written_of_srecord {line : List UInt8} {record : Record}
    (found : srecord line = some record) :
    ∃ abytes count body, Written line record abytes count body := by
  -- The parts of the record are those that its tests have found.
  unfold srecord at found
  split at found
  · rename_i abytes count kind counted
    split at found
    · cases found
    · rename_i body read
      simp only [Option.ite_none_right_eq_some, Option.some.injEq] at found
      obtain ⟨⟨size, covers, -⟩, rfl⟩ := found
      refine ⟨abytes, count.toNat, body, kind, ?_, read, size, covers, count.toNat_lt, rfl⟩
      rw [counted, UInt8.ofNat_toNat]
  · cases found

/-- A record with data has two to four bytes of address. -/
theorem addressBytes_le {type : UInt8} {abytes : Nat} (kind : addressBytes type = some abytes) :
    abytes ≤ 4 := by
  -- Each of the known kinds has two, three or four bytes.
  unfold addressBytes at kind
  split_ifs at kind <;> cases kind <;> decide

/-- The address of a record is an `unsigned int`. -/
theorem lineBytes_le {line : List UInt8} {abytes : Nat} (kind : lineBytes line = some abytes) :
    abytes ≤ 4 := by
  -- Only a line that starts like a record has a kind.
  unfold lineBytes at kind
  split at kind
  · exact addressBytes_le kind
  · cases kind

/-- The call that an `unsigned int` as address makes of a call. -/
def Load.wrapped : Load → Load
  | .putc addr v => .putc (addr % 2 ^ 32) v
  | .puts addr bytes => .puts addr bytes

/-- A buffer after the first characters of a line were read. -/
def lineRead (line : List UInt8) (buffer : Nat → UInt8) : Nat → UInt8 :=
  patch 0 (line.take 599 ++ [0]) buffer

/-- The characters at the start of a line lie in the buffer. -/
theorem window_lineRead {line : List UInt8} (buffer : Nat → UInt8) {start count : Nat}
    (fits : start + count ≤ 599) (inside : start + count ≤ line.length) :
    window start count (lineRead line buffer) = (line.drop start).take count := by
  -- A line that is longer than the buffer is cut behind these characters.
  have length : start + count ≤ (line.take 599).length := by
    rw [List.length_take]
    omega
  have short : min count (599 - start) = count := by omega
  rw [lineRead, window_read buffer length, List.drop_take, List.take_take, short]

/-- The lines of a record are long enough for it, and short enough for the buffer. -/
theorem Written.length {line : List UInt8} {record : Record} {abytes count : Nat}
    {body : List UInt8} (written : Written line record abytes count body) :
    4 + 2 * count ≤ line.length := by
  -- The digits were found on the line, two for each byte.
  have digits := length_hexBytes written.read
  have first := length_hexBytes written.counted
  have covers := written.covers
  rw [written.size, List.length_take, List.length_drop] at digits
  rw [List.length_take, List.length_drop, List.length_singleton] at first
  omega

/-- For a line that holds a record the calls are those of the record, with addresses that wrap. -/
theorem dataline_lineRead {line : List UInt8} {record : Record} {abytes count : Nat}
    {body : List UInt8} (written : Written line record abytes count body) (buffer : Nat → UInt8) :
    dataline (lineRead line buffer) (unhex (lineRead line buffer) 2 2) abytes =
      record.calls.map Load.wrapped := by
  -- The digits of the line make up the fields of the record, and its sum agrees.
  have long := written.length
  have small := written.small
  have covers := written.covers
  have size := written.size
  -- The count, the address and the data are read from the line.
  have counted : unhex (lineRead line buffer) 2 2 = count := by
    have read := written.counted
    rw [← window_lineRead buffer (by decide) (by omega)] at read
    rw [unhex_pair _ read, UInt8.toNat_ofNat', Nat.mod_eq_of_lt small]
  have read := written.read
  rw [← window_lineRead buffer (by omega) (by omega)] at read
  have address : unhex (lineRead line buffer) 4 (abytes * 2) = bigEndian (body.take abytes) := by
    have parts : 2 * count = 2 * abytes + 2 * (count - abytes) := by omega
    rw [parts, window_append] at read
    have first := (hexBytes_append abytes (by simp) read).1
    have taken : (body.take abytes).length = abytes := List.length_take_of_le (by omega)
    have short : (body.take abytes).length ≤ 4 := by
      rw [taken]
      exact lineBytes_le written.kind
    have value : unhex (lineRead line buffer) 4 (2 * (body.take abytes).length) =
        bigEndian (body.take abytes) := by
      refine unhex_eq _ short ?_
      rw [taken]
      exact first
    rw [taken] at value
    rw [Nat.mul_comm, value]
  have data : ∀ i (inside : abytes + i < body.length),
      unhex (lineRead line buffer) (4 + abytes * 2 + i * 2) 2 = (body[abytes + i]).toNat := by
    intro i inside
    have one := hexBytes_getElem? read (List.getElem?_eq_getElem inside)
    rw [window_slice _ (by omega)] at one
    have place : 4 + abytes * 2 + i * 2 = 4 + 2 * (abytes + i) := by omega
    rw [place, unhex_pair _ one]
  have turns : ((count : Int) - (abytes + 1)).toNat = (body.drop abytes).dropLast.length := by
    rw [List.length_dropLast, List.length_drop]
    omega
  rw [written.means, dataline, counted, address]
  dsimp only [Record.calls]
  rw [turns]
  refine List.ext_getElem (by simp) fun i here there => ?_
  simp only [List.length_map, List.length_range, List.length_dropLast, List.length_drop] at here
  simp only [List.getElem_map, List.getElem_range, List.getElem_mapIdx, Load.wrapped,
    List.getElem_dropLast, List.getElem_drop]
  rw [data i (by omega), UInt8.ofNat_toNat]

/-- The switch sees what kind of record the line starts like. -/
theorem addressBytes_lineRead {line : List UInt8} (buffer : Nat → UInt8) (some : line ≠ [])
    (start : lineRead line buffer 0 = 0x53) :
    addressBytes (lineRead line buffer 1) = lineBytes line := by
  -- A line of one character has the zero behind it for a kind.
  rcases line with _ | ⟨first, _ | ⟨type, rest⟩⟩
  · exact absurd rfl some
  · obtain rfl : first = 0x53 := start
    rfl
  · obtain rfl : first = 0x53 := start
    rfl

/-- One turn of the loop: what it does with the line, and where it goes on. -/
theorem readSrecLoop_succ {fuel place : Nat} {buffer : Nat → UInt8} {text : List UInt8}
    (some : text ≠ []) (accepted : (readSrecLoop (fuel + 1) buffer place text).result = 0) :
    let line := firstLine text
    let read := (line.take 599).length
    let rest := readSrecLoop fuel (lineRead line buffer) (place + read) (text.drop read)
    rest.result = 0 ∧ readSrecLoop (fuel + 1) buffer place text =
      (lineBytes line).elim rest fun abytes =>
        ⟨rest.result, dataline (lineRead line buffer) (unhex (lineRead line buffer) 2 2) abytes ++
          rest.calls, place :: rest.used⟩ := by
  -- A turn gets its line, and the switch looks at the first two characters of it.
  have read : fgets 600 text = .some ((firstLine text).take 599) := if_neg some
  have buffered : patch 0 ((firstLine text).take 599 ++ [0]) buffer =
      lineRead (firstLine text) buffer := rfl
  have kind := addressBytes_lineRead buffer (firstLine_ne_nil some)
  rw [readSrecLoop] at accepted ⊢
  simp only [read, buffered] at accepted ⊢
  by_cases start : lineRead (firstLine text) buffer 0 = 0x53
  · simp only [if_neg (not_not_intro start), kind start] at accepted ⊢
    generalize lineBytes (firstLine text) = found at accepted
    cases found with
    | none => exact ⟨accepted, rfl⟩
    | some abytes => exact ⟨accepted, rfl⟩
  · rw [if_pos start] at accepted
    cases accepted

/-- Lines all of which can be read, where the first may be the rest of a line. -/
def Proper : Prop → List (List UInt8) → Prop
  | _, [] => True
  | start, line :: later =>
    ((lineBytes line).isSome → start ∧ (srecord line).isSome) ∧
      (∀ turn, 0 < turn → lineBytes (line.drop (599 * turn)) = none) ∧ Proper True later

/-- A line that does not start like a record asks for nothing. -/
theorem lineCalls_of_none {line : List UInt8} (other : lineBytes line = none) :
    lineCalls line = [] := by
  -- Without a kind there is no record.
  unfold lineCalls srecord
  rw [other]
  rfl

/-- One turn reads a line, or the part of it that there is room for. -/
theorem proper_turn (before : List UInt8) {text : List UInt8} (some : text ≠ []) :
    let line := firstLine text
    let read := (line.take 599).length
    (Proper (AtLineStart before) (lines text) ↔
      ((lineBytes line).isSome → AtLineStart before ∧ (srecord line).isSome) ∧
        Proper (AtLineStart (before ++ text.take read)) (lines (text.drop read))) ∧
    (Proper (AtLineStart (before ++ text.take read)) (lines (text.drop read)) →
      (lines text).flatMap lineCalls =
        lineCalls line ++ (lines (text.drop read)).flatMap lineCalls) := by
  -- The line fits in the buffer, or its rest is read as a line of its own.
  dsimp only
  have taken := take_firstLine text
  have empty : firstLine text ≠ [] := firstLine_ne_nil some
  rw [lines_eq some, List.flatMap_cons]
  simp only [Proper]
  by_cases short : (firstLine text).length ≤ 599
  · -- The whole line was read, so what is behind it starts a line.
    have whole : (firstLine text).take 599 = firstLine text := List.take_of_length_le short
    rw [whole, taken]
    have next : Proper (AtLineStart (before ++ firstLine text))
        (lines (text.drop (firstLine text).length)) ↔
          Proper True (lines (text.drop (firstLine text).length)) := by
      by_cases left : (firstLine text).length < text.length
      · have start : AtLineStart (before ++ firstLine text) := by
          refine .inr ?_
          rw [List.getLast?_append_of_ne_nil _ empty]
          exact getLast?_firstLine left
        rw [eq_true start]
      · rw [List.drop_of_length_le (Nat.not_lt.mp left)]
        rfl
    have vacuous : ∀ turn, 0 < turn → lineBytes ((firstLine text).drop (599 * turn)) = none := by
      intro turn positive
      rw [List.drop_of_length_le (by omega)]
      rfl
    refine ⟨?_, fun _ => rfl⟩
    rw [next]
    exact ⟨fun given => ⟨given.1, given.2.2⟩, fun given => ⟨given.1, vacuous, given.2⟩⟩
  · -- The next turn goes on inside of the line.
    have inside : 599 < (firstLine text).length := Nat.lt_of_not_le short
    have size : ((firstLine text).take 599).length = 599 := List.length_take_of_le (by omega)
    have middle : ¬ AtLineStart (before ++ text.take 599) := by
      have some : text.take 599 ≠ [] := by
        intro empty
        rw [← taken, List.take_take, List.length_take] at size
        have length := congrArg List.length empty
        rw [List.length_take, List.length_nil] at length
        omega
      rintro (nothing | ends)
      · exact some (List.append_eq_nil_iff.mp nothing).2
      · rw [List.getLast?_append_of_ne_nil _ some, List.getLast?_eq_getElem?, List.length_take,
          List.getElem?_take] at ends
        have long := (firstLine_isPrefix text).length_le
        have last : min 599 text.length - 1 = 598 := by omega
        rw [last, if_pos (by decide)] at ends
        exact ne_newline_of_lt inside ends
    have turns : (∀ turn, 0 < turn → lineBytes ((firstLine text).drop (599 * turn)) = none) ↔
        lineBytes ((firstLine text).drop 599) = none ∧
          ∀ turn, 0 < turn → lineBytes ((firstLine text).drop (599 + 599 * turn)) = none := by
      constructor
      · exact fun all => ⟨all 1 (by decide), fun turn _ => by
          simpa only [Nat.mul_add, Nat.mul_one] using all (1 + turn) (by omega)⟩
      · rintro ⟨first, others⟩ turn positive
        obtain rfl | more := Nat.eq_or_lt_of_le positive
        · exact first
        · have shifted : 599 * turn = 599 + 599 * (turn - 1) := by omega
          rw [shifted]
          exact others (turn - 1) (by omega)
    rw [size, lines_drop inside, List.flatMap_cons, eq_false middle, turns]
    simp only [Proper, false_and, imp_false, List.drop_drop, Option.not_isSome_iff_eq_none,
      and_assoc]
    refine ⟨trivial, fun given => ?_⟩
    rw [lineCalls_of_none given.1, List.nil_append]

/--
What a run does with an accepted text, from any place on.

All records that were found stand there just when all lines can be read; then the calls are those
that the lines ask for, with addresses that wrap.
-/
theorem readSrecLoop_accepted {fuel : Nat} {buffer : Nat → UInt8} (before : List UInt8)
    {text : List UInt8}
    (enough : text.length < fuel)
    (accepted : (readSrecLoop fuel buffer before.length text).result = 0) :
    ((∀ place ∈ (readSrecLoop fuel buffer before.length text).used, Own (before ++ text) place) ↔
      Proper (AtLineStart before) (lines text)) ∧
    (Proper (AtLineStart before) (lines text) →
      (readSrecLoop fuel buffer before.length text).calls =
        ((lines text).flatMap lineCalls).map Load.wrapped) := by
  -- The induction is on the turns, each of which reads something while there is text.
  induction fuel generalizing buffer before text with
  | zero => exact absurd enough (Nat.not_lt_zero _)
  | succ fuel ih =>
    by_cases empty : text = []
    · subst empty
      exact ⟨by simp [readSrecLoop, fgets, Proper, lines], fun _ => rfl⟩
    · obtain ⟨later, turn⟩ := readSrecLoop_succ empty accepted
      obtain ⟨proper, calls⟩ := proper_turn before empty
      have some := List.length_pos_iff.mpr (firstLine_ne_nil empty)
      have short := (firstLine_isPrefix text).length_le
      have size : ((firstLine text).take 599).length = min 599 (firstLine text).length :=
        List.length_take
      generalize ((firstLine text).take 599).length = read at later turn proper calls size
      have place : (before ++ text.take read).length = before.length + read := by
        rw [List.length_append, List.length_take_of_le (by omega)]
      have fewer : (text.drop read).length < fuel := by
        rw [List.length_drop]
        omega
      rw [← place] at later turn
      obtain ⟨own, loads⟩ := ih _ fewer later
      rw [List.append_assoc, List.take_append_drop] at own
      rw [turn, proper, ← own]
      cases kind : lineBytes (firstLine text) with
      | none =>
        rw [kind] at proper
        refine ⟨by simp, fun given => ?_⟩
        rw [calls (own.mp given.2), lineCalls_of_none kind]
        exact loads (own.mp given.2)
      | some abytes =>
        have here : Own (before ++ text) before.length ↔
            AtLineStart before ∧ (srecord (firstLine text)).isSome := by
          constructor
          · rintro ⟨begins, whole⟩
            rw [List.take_left] at begins
            rw [List.drop_left] at whole
            exact ⟨begins, whole⟩
          · rintro ⟨begins, whole⟩
            exact ⟨by rwa [List.take_left], by rwa [List.drop_left]⟩
        refine ⟨by simp [here], fun given => ?_⟩
        obtain ⟨record, found⟩ := Option.isSome_iff_exists.mp (given.1 rfl).2
        obtain ⟨_, _, _, written⟩ := written_of_srecord found
        obtain rfl := Option.some.inj (kind.symm.trans written.kind)
        rw [calls (own.mp given.2), List.map_append]
        dsimp only [Option.elim_some]
        rw [dataline_lineRead written, loads (own.mp given.2), lineCalls, found]
        rfl

/-- Whole lines can be read when each of them can. -/
theorem proper_true_iff (text : List (List UInt8)) :
    Proper True text ↔ ∀ line ∈ text, ((lineBytes line).isSome → (srecord line).isSome) ∧
      ∀ turn, 0 < turn → lineBytes (line.drop (599 * turn)) = none := by
  -- Behind a whole line the next one begins, so what is asked of one does not depend on the
  -- others.
  induction text with
  | nil => simp [Proper]
  | cons line later ih =>
    rw [List.forall_mem_cons, ← ih]
    simp only [Proper, true_and, and_assoc]

/-- The address of a record has at most four bytes. -/
theorem Written.address_lt {line : List UInt8} {record : Record} {abytes count : Nat}
    {body : List UInt8} (written : Written line record abytes count body) :
    record.address < 2 ^ 32 := by
  -- Four bytes are less than 2 ^ 32.
  have short := lineBytes_le written.kind
  have size : (body.take abytes).length ≤ 4 := by
    rw [List.length_take]
    omega
  have four : 256 ^ (body.take abytes).length ≤ 256 ^ 4 := Nat.pow_le_pow_right (by decide) size
  rw [written.means]
  exact Nat.lt_of_lt_of_le (bigEndian_lt _) four

/-- Addresses do not wrap just when the data ends below 4 GiB. -/
theorem wrapped_calls_iff {record : Record} (small : record.address < 2 ^ 32) :
    (∀ call ∈ record.calls, call.wrapped = call) ↔
      record.address + record.data.length ≤ 2 ^ 32 := by
  -- An address is the one of the record and an offset, and wraps from 4 GiB on.
  simp only [Record.calls, List.mem_mapIdx, forall_exists_index]
  constructor
  · intro same
    by_contra beyond
    -- The last byte would be the first that wraps, or behind it.
    have inside : record.data.length - 1 < record.data.length := by omega
    have last := same _ (record.data.length - 1) inside rfl
    simp only [Load.wrapped, Load.putc.injEq, and_true] at last
    omega
  · rintro fits call i inside rfl
    simp only [Load.wrapped, Load.putc.injEq, and_true]
    exact Nat.mod_eq_of_lt (by omega)

/--
An accepted text was read as it should be just when its records are complete and correct, end
below 4 GiB, and no line goes on behind the end of the buffer with what starts like a record.
-/
theorem reads_iff (buffer : Nat → UInt8) (text : List UInt8)
    (accepted : (readSrecFile buffer text).result = 0) :
    Reads text (readSrecFile buffer text) ↔ WellFormed text := by
  -- The text is read line by line, which turns the calls into those of its records.
  have start : AtLineStart [] = True := eq_true (.inl rfl)
  have run : ((∀ place ∈ (readSrecFile buffer text).used, Own ([] ++ text) place) ↔
      Proper (AtLineStart []) (lines text)) ∧
      (Proper (AtLineStart []) (lines text) →
        (readSrecFile buffer text).calls = ((lines text).flatMap lineCalls).map Load.wrapped) :=
    readSrecLoop_accepted [] (Nat.lt_succ_self text.length) accepted
  rw [start, List.nil_append] at run
  obtain ⟨own, calls⟩ := run
  -- Where all lines can be read, only the addresses can be wrong.
  have wraps : Proper True (lines text) →
      ((readSrecFile buffer text).calls = referenceCalls text ↔
        ∀ line ∈ lines text, ∀ record, srecord line = some record →
          record.address + record.data.length ≤ 2 ^ 32) := by
    intro proper
    rw [calls proper, referenceCalls, ← List.map_id ((lines text).flatMap lineCalls),
      List.map_map, Function.comp_id, List.map_inj_left]
    simp only [List.mem_flatMap, forall_exists_index, and_imp, id]
    constructor
    · intro same line member record found
      obtain ⟨_, _, _, written⟩ := written_of_srecord found
      refine (wrapped_calls_iff written.address_lt).mp fun call made => same call line member ?_
      rw [lineCalls, found]
      exact made
    · intro fits call line member made
      unfold lineCalls at made
      cases found : srecord line with
      | none =>
        rw [found] at made
        cases made
      | some record =>
        rw [found] at made
        obtain ⟨_, _, _, written⟩ := written_of_srecord found
        exact (wrapped_calls_iff written.address_lt).mpr (fits line member record found) call made
  constructor
  · rintro ⟨same, stands⟩
    have proper := own.mp stands
    have fits := (wraps proper).mp same
    have each := (proper_true_iff (lines text)).mp proper
    refine ⟨fun line member kind => ?_, fun line member => (each line member).2⟩
    obtain ⟨record, found⟩ := Option.isSome_iff_exists.mp ((each line member).1 kind)
    exact ⟨record, found, fits line member record found⟩
  · rintro ⟨records, short⟩
    have proper : Proper True (lines text) := by
      refine (proper_true_iff (lines text)).mpr fun line member =>
        ⟨fun kind => ?_, short line member⟩
      obtain ⟨record, found, -⟩ := records line member kind
      exact Option.isSome_iff_exists.mpr ⟨record, found⟩
    refine ⟨(wraps proper).mpr fun line member record found => ?_, own.mpr proper⟩
    obtain ⟨_, _, _, written⟩ := written_of_srecord found
    obtain ⟨other, same, fits⟩ := records line member (by rw [written.kind]; rfl)
    obtain rfl := Option.some.inj (found.symm.trans same)
    exact fits

/-- A record that ends too early loads what the line before it left in the buffer. -/
theorem not_reads_truncated :
    ¬ ((readSrecFile (fun _ => 0) (ascii "S1051234AABB4F
S107
")).result = 0 →
      Reads (ascii "S1051234AABB4F
S107
")
        (readSrecFile (fun _ => 0) (ascii "S1051234AABB4F
S107
"))) := by
  -- The second record has no bytes of its own, and loads those of the first again.
  intro claim
  exact absurd (claim (by decide)).calls (by decide)

/-- A text with a comment record, a record of each kind with data, and an end record. -/
theorem reads_iff_records :
    Reads (ascii "S0030000FC
S1051234AABB4F
S205010203EE06
S9030000FC
")
        (readSrecFile (fun _ => 0)
          (ascii "S0030000FC
S1051234AABB4F
S205010203EE06
S9030000FC
")) ↔
      WellFormed (ascii "S0030000FC
S1051234AABB4F
S205010203EE06
S9030000FC
") :=
  reads_iff _ _ (by decide)

end OpenwrtMisc.RenesasFlash
