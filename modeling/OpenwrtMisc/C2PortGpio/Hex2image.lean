import OpenwrtMisc.Lib.HexText
import OpenwrtMisc.Lib.Patch
import Mathlib.Data.UInt
import Mathlib.Logic.Function.Basic

/-! The converter from Intel HEX to the image of a flash memory. -/

namespace OpenwrtMisc.C2PortGpio

/-- The characters of a line, from its pointer on in both directions. -/
abbrev Line := Int → UInt8

/-- The value of a `char`, which is signed on some machines. -/
def charValue (signed : Bool) (c : UInt8) : Int :=
  if signed ∧ 0x80 ≤ c then (c.toNat : Int) - 256 else c.toNat

/-- `tolower`. -/
def tolower (c : UInt8) : UInt8 := if 0x41 ≤ c ∧ c ≤ 0x5a then c + 0x20 else c

/-- What `str2hex` makes of a character in lower case. -/
def digitValue (c : UInt8) : UInt8 :=
  if 0x61 ≤ c ∧ c ≤ 0x66 then c - (0x61 - 10) else c - 0x30

/-- `str2hex`, which leaves its digits behind in place of the characters. -/
def str2hex (signed : Bool) (line : Line) (b1 b0 : Int) : Int × Line :=
  let line := Function.update line b1 (tolower (line b1))
  let line := Function.update line b0 (tolower (line b0))
  let line := Function.update line b1 (digitValue (line b1))
  let line := Function.update line b0 (digitValue (line b0))
  (charValue signed (line b1) * 16 + charValue signed (line b0), line)

/-- The loop that saves the data: the indices it stores to, with the bytes. -/
def saveData (signed : Bool) (addr : Nat) : Line → Nat → Nat → List (Nat × UInt8)
  | _, _, 0 => []
  | line, n, turns + 1 =>
    let (value, line) := str2hex signed line (9 + n * 2) (10 + n * 2)
    (addr + n, UInt8.ofInt value) :: saveData signed addr line (n + 1) turns

/-- The ways out of a turn of the loop in `main`. -/
inductive Turn where
  | skipped
  | failed
  | ended
  | saved (stores : List (Nat × UInt8))
  deriving DecidableEq, Repr

/-- A turn of the loop in `main`, after the end of the line was cut off. -/
def readLine (signed : Bool) (flashSize : Int) (line : Line) : Turn :=
  if line 0 ≠ 0x3a then .skipped
  else
    let (rlen, line) := str2hex signed line 1 2
    if rlen > 16 then .failed
    else
      let (am, line) := str2hex signed line 3 4
      let (al, line) := str2hex signed line 5 6
      let addr := (UInt8.ofInt am).toNat <<< 8 + (UInt8.ofInt al).toNat
      if (addr : Int) ≥ flashSize then .failed
      else
        let (type, line) := str2hex signed line 7 8
        let (_, line) := str2hex signed line (9 + rlen * 2) (10 + rlen * 2)
        if type = 1 then .ended else .saved (saveData signed addr line 0 rlen.toNat)

/--
The buffer after `getline` and the cut: the line, whose last character became a zero, the zero
behind it, and what was there before.
-/
def lineBuffer (stale : Line) (text : List UInt8) : Line :=
  let buffer : Line := fun i =>
    if 0 ≤ i ∧ i ≤ text.length then (text[i.toNat]?).getD 0 else stale i
  let n : Int := (cString text).length - 1
  if n ≥ 0 then Function.update buffer n 0 else buffer

/-- A run of `main` that comes to its `fwrite`: the stores, and the lines that were used. -/
structure ImageRun where
  stores : List (Nat × UInt8)
  used : List (List UInt8)
  deriving DecidableEq, Repr

/-- The loop of `main` over the lines of its input. -/
def readLines (signed : Bool) (stale : Nat → Line) (flashSize : Int) :
    Nat → List (List UInt8) → Option ImageRun
  | _, [] => some ⟨[], []⟩
  | num, line :: later =>
    match readLine signed flashSize (lineBuffer (stale num) line) with
    | .skipped => readLines signed stale flashSize (num + 1) later
    | .failed => none
    | .ended => some ⟨[], [line]⟩
    | .saved stores => (readLines signed stale flashSize (num + 1) later).map fun run =>
      ⟨stores ++ run.stores, line :: run.used⟩

/-- `main`, where there is no memory for an image of negative size. -/
def hex2image (signed : Bool) (stale : Nat → Line) (flashSize : Int) (text : List UInt8) :
    Option ImageRun :=
  if flashSize = 0 then none
  else if flashSize < 0 then none
  else readLines signed stale flashSize 0 (lines text)

/-- The image that is written out. -/
def ImageRun.image (run : ImageRun) : Nat → UInt8 :=
  run.stores.foldl (fun image store => Function.update image store.1 store.2) fun _ => 0xff

/-- A record of an Intel HEX file. -/
structure HexRecord where
  type : Nat
  address : Nat
  data : List UInt8
  deriving DecidableEq, Repr

/-- A line without its newline, and without a carriage return before it. -/
def content (line : List UInt8) : List UInt8 :=
  let line := if line.getLast? = some newline then line.dropLast else line
  if line.getLast? = some 0x0d then line.dropLast else line

/-- The record that a line is: digits behind a colon, as many as are declared, with sum 0. -/
def hexRecord (line : List UInt8) : Option HexRecord :=
  match content line with
  | 0x3a :: digits =>
    match hexBytes digits with
    | some (count :: high :: low :: type :: rest) =>
      if rest.length = count.toNat + 1 ∧ (count + high + low + type + rest.sum) = 0 then
        some ⟨type.toNat, 256 * high.toNat + low.toNat, rest.dropLast⟩
      else none
    | _ => none
  | _ => none

/-- Lines that start with a colon. -/
def Marked (line : List UInt8) : Prop := line.head? = some 0x3a ∧ 2 ≤ (cString line).length

instance (line : List UInt8) : Decidable (Marked line) :=
  inferInstanceAs (Decidable (line.head? = some 0x3a ∧ 2 ≤ (cString line).length))

/-- Whether a line is the end record. -/
def Ends (line : List UInt8) : Prop := (hexRecord line).map HexRecord.type = some 1

instance (line : List UInt8) : Decidable (Ends line) :=
  inferInstanceAs (Decidable ((hexRecord line).map HexRecord.type = some 1))

/-- The lines that an end record leaves, with itself. -/
def upToEnd : List (List UInt8) → List (List UInt8)
  | [] => []
  | line :: later => if Ends line then [line] else line :: upToEnd later

/-- The lines of a text that are there to be used. -/
def usedLines (text : List UInt8) : List (List UInt8) := upToEnd ((lines text).filter (Marked ·))

/-- The records before the end record. -/
def recordsBefore (used : List (List UInt8)) : List HexRecord :=
  (used.filterMap hexRecord).filter (·.type ≠ 1)

/-- The image that records describe, all of which store their data. -/
def imageOf (records : List HexRecord) : Nat → UInt8 :=
  records.foldl (fun image record => patch record.address record.data image) fun _ => 0xff

/-- The image that a text describes: only data records store anything. -/
def referenceImage (text : List UInt8) : Nat → UInt8 :=
  imageOf ((recordsBefore (usedLines text)).filter (·.type = 0))

/-- What is expected of a run that comes to its `fwrite`. -/
structure Builds (flashSize : Int) (text : List UInt8) (run : ImageRun) : Prop where
  inside : ∀ store ∈ run.stores, (store.1 : Int) < flashSize
  used : ∀ line ∈ run.used, (hexRecord line).isSome
  image : ∀ i : Nat, i < flashSize → run.image i = referenceImage text i

/-- The stores that a record asks for. -/
def HexRecord.stores (record : HexRecord) : List (Nat × UInt8) :=
  record.data.mapIdx fun i v => (record.address + i, v)

/-- Whether a record has a byte for an address. -/
def HexRecord.Covers (record : HexRecord) (i : Nat) : Prop :=
  Reaches record.address record.data i

/-- Records of other types only store, where nothing follows, what the data records leave there. -/
def Harmless (records : List HexRecord) : Prop :=
  ∀ before record behind, records = before ++ record :: behind → record.type ≠ 0 →
    ∀ i, record.Covers i → (∀ later ∈ behind, ¬ later.Covers i) →
      record.data[i - record.address]? = some (imageOf (before.filter (·.type = 0)) i)

/--
Texts whose image is built as it should be.

Up to the end record all lines with a colon are records, which end inside the image. Those of
other types than data and end only store what is there without them.
-/
structure ProperHex (flashSize : Int) (text : List UInt8) : Prop where
  records : ∀ line ∈ usedLines text, (hexRecord line).isSome
  fits : ∀ record ∈ recordsBefore (usedLines text),
    (record.address + record.data.length : Int) ≤ flashSize
  harmless : Harmless (recordsBefore (usedLines text))

/-- A hexadecimal digit becomes its value. -/
theorem toNat_digitValue {c : UInt8} {digit : Nat} (read : digitOf 16 c = some digit) :
    (digitValue (tolower c)).toNat = digit := by
  -- Each of the three ranges of digits has an offset of its own.
  simp only [digitOf, Option.ite_none_right_eq_some, Option.some.injEq] at read
  obtain ⟨small, rfl⟩ := read
  simp only [digitValue, tolower, IsDigit, UInt8.le_iff_toNat_le, UInt8.reduceToNat] at small ⊢
  split_ifs at small ⊢ <;>
    simp only [UInt8.toNat_sub, UInt8.toNat_add, UInt8.reduceToNat] at * <;> omega

/-- Small values are the same for both kinds of `char`. -/
theorem charValue_of_lt {signed : Bool} {c : UInt8} (small : c.toNat < 16) :
    charValue signed c = c.toNat := by
  -- Only bytes from 128 on are negative.
  unfold charValue
  rw [if_neg]
  rintro ⟨-, large⟩
  simp only [UInt8.le_iff_toNat_le, UInt8.reduceToNat] at large
  omega

/-- Characters elsewhere are left alone. -/
theorem str2hex_other (signed : Bool) (line : Line) {b1 b0 i : Int} (first : i ≠ b1)
    (second : i ≠ b0) : (str2hex signed line b1 b0).2 i = line i := by
  simp only [str2hex, Function.update_of_ne first, Function.update_of_ne second]

/-- Two digits are read as their byte. -/
theorem str2hex_pair (signed : Bool) {line : Line} {b1 b0 : Int} (apart : b1 ≠ b0) {byte : UInt8}
    (read : hexBytes [line b1, line b0] = some [byte]) :
    (str2hex signed line b1 b0).1 = byte.toNat := by
  -- The two places are apart, so converting one digit does not touch the other.
  obtain ⟨high, low, one, two, rfl⟩ := hexBytes_pair.mp read
  have highSmall := digitOf_lt one
  have lowSmall := digitOf_lt two
  have first := toNat_digitValue one
  have second := toNat_digitValue two
  simp only [str2hex, Function.update_self, Function.update_of_ne apart,
    Function.update_of_ne apart.symm]
  rw [charValue_of_lt (by omega), charValue_of_lt (by omega), first, second, UInt8.toNat_ofNat']
  omega

/-- Where the digits of a byte of a record lie. -/
def Holds (line : Line) (k : Nat) (byte : UInt8) : Prop :=
  hexBytes [line (1 + k * 2), line (2 + k * 2)] = some [byte]

/-- What is done at one place leaves the bytes at other places alone. -/
theorem Holds.keep {line : Line} {k : Nat} {byte : UInt8} (holds : Holds line k byte)
    (signed : Bool) {j : Nat} {b1 b0 : Int} (first : b1 = 1 + j * 2) (second : b0 = 2 + j * 2)
    (apart : k ≠ j) : Holds (str2hex signed line b1 b0).2 k byte := by
  -- Only the two characters of place `j` are overwritten.
  unfold Holds
  rw [str2hex_other signed line (by omega) (by omega),
    str2hex_other signed line (by omega) (by omega)]
  exact holds

/-- A byte is read at its place. -/
theorem Holds.read {line : Line} {k : Nat} {byte : UInt8} (holds : Holds line k byte)
    (signed : Bool) (b1 b0 : Int) (first : b1 = 1 + k * 2) (second : b0 = 2 + k * 2) :
    ∃ next, str2hex signed line b1 b0 = ((byte.toNat : Int), next) ∧
      ∀ j other, j ≠ k → Holds line j other → Holds next j other := by
  -- The byte is converted in place, and other places keep their digits.
  refine ⟨(str2hex signed line b1 b0).2, ?_, fun j other apart held =>
    held.keep signed first second apart⟩
  subst first second
  rw [← str2hex_pair signed (by omega) holds]

/-- The data of a record is stored byte by byte. -/
theorem saveData_eq (signed : Bool) (addr : Nat) {data : List UInt8} {line : Line} {n : Nat}
    (holds : ∀ k (inside : k < data.length), Holds line (4 + n + k) data[k]) :
    saveData signed addr line n data.length =
      data.mapIdx fun i v => (addr + n + i, v) := by
  -- The induction is on the data, whose first byte is converted before the rest is read.
  induction data generalizing line n with
  | nil => rfl
  | cons byte rest ih =>
    have first : Holds line (4 + n) byte := holds 0 (by simp)
    obtain ⟨next, read, kept⟩ := first.read signed (9 + n * 2) (10 + n * 2)
      (by omega) (by omega)
    rw [List.length_cons, saveData, read]
    dsimp only
    rw [ih, List.mapIdx_cons]
    · have shifted : ∀ i, addr + (n + 1) + i = addr + n + (i + 1) := fun i => by omega
      simp only [shifted, ofInt_toNat]
      rfl
    · intro k inside
      have later := holds (k + 1) (by simpa using inside)
      have place : 4 + (n + 1) + k = 4 + n + (k + 1) := by omega
      rw [place]
      exact kept _ _ (by omega) later

/-- What a record says about its line: the digits of its bytes before the checksum. -/
structure Written (line : List UInt8) (record : HexRecord) (count high low type sum : UInt8)
    (digits : List UInt8) : Prop where
  starts : 0x3a :: digits <+: line
  read : hexBytes digits = some (count :: high :: low :: type :: record.data ++ [sum])
  size : record.data.length = count.toNat
  kind : record.type = type.toNat
  place : record.address = 256 * high.toNat + low.toNat

/-- The end of a line is cut off. -/
theorem content_prefix (line : List UInt8) : content line <+: line := by
  -- At most a line feed and a carriage return in front of it are cut off.
  unfold content
  dsimp only
  split_ifs
  · exact (List.dropLast_prefix _).trans (List.dropLast_prefix _)
  · exact List.dropLast_prefix _
  · exact List.dropLast_prefix _
  · exact List.prefix_rfl

/-- A record is written on its line. -/
theorem written_of_hexRecord {line : List UInt8} {record : HexRecord}
    (found : hexRecord line = some record) :
    ∃ count high low type sum digits, Written line record count high low type sum digits := by
  -- The text of the record is what stands behind the colon, without the end of the line.
  have begins := content_prefix line
  unfold hexRecord at found
  split at found
  · rename_i digits colon
    split at found
    · rename_i count high low type rest read
      simp only [Option.ite_none_right_eq_some, Option.some.injEq] at found
      obtain ⟨⟨size, -⟩, rfl⟩ := found
      rw [colon] at begins
      have some : rest ≠ [] := fun empty => by simp [empty] at size
      refine ⟨count, high, low, type, rest.getLast some, digits, begins, ?_, ?_, rfl, rfl⟩
      · simp only [List.cons_append, List.dropLast_append_getLast some]
        exact read
      · rw [List.length_dropLast, size]
        rfl
    · cases found
  · cases found

/-- The characters of a record come before the one that is cut off. -/
theorem Written.buffer {line : List UInt8} {record : HexRecord}
    {count high low type sum : UInt8} {digits : List UInt8}
    (written : Written line record count high low type sum digits) (stale : Line) {i : Nat}
    (inside : i < digits.length) :
    lineBuffer stale line i = ((0x3a :: digits)[i]?).getD 0 := by
  obtain ⟨tail, rfl⟩ := written.starts
  -- Digits are no zeros, so that the last character is the last digit or behind it.
  have plain : ∀ byte ∈ 0x3a :: digits, byte ≠ 0 := by
    rw [List.forall_mem_cons]
    refine ⟨by decide, fun byte member zero => ?_⟩
    have digit := isSome_of_hexBytes written.read byte member
    rw [zero] at digit
    cases digit
  have long : digits.length + 1 ≤ (cString (0x3a :: digits ++ tail)).length := by
    unfold cString
    rw [List.takeWhile_append_of_pos (by simpa using plain), List.length_append, List.length_cons]
    omega
  unfold lineBuffer
  rw [if_pos (by omega), Function.update_of_ne (by omega), if_pos (by simp; omega)]
  rw [Int.toNat_natCast, List.getElem?_append_left (by simp; omega)]

/-- The bytes of a record lie at their places. -/
theorem Written.holds {line : List UInt8} {record : HexRecord}
    {count high low type sum : UInt8} {digits : List UInt8}
    (written : Written line record count high low type sum digits) (stale : Line) {k : Nat}
    {byte : UInt8} (found : (count :: high :: low :: type :: record.data)[k]? = some byte) :
    Holds (lineBuffer stale line) k byte := by
  -- The two digits of byte `k` are those at `2 * k` behind the colon.
  have size := length_hexBytes written.read
  have inside : k < (count :: high :: low :: type :: record.data).length :=
    (List.getElem?_eq_some_iff.mp found).1
  simp only [List.length_cons, List.length_append, List.length_nil] at size inside
  have longer : (count :: high :: low :: type :: record.data ++ [sum])[k]? = some byte := by
    rw [← found]
    exact List.getElem?_append_left (by simpa using inside)
  have pair := hexBytes_getElem? written.read longer
  have firstInside : 2 * k < digits.length := by omega
  have secondInside : 2 * k + 1 < digits.length := by omega
  rw [List.drop_eq_getElem_cons firstInside, List.drop_eq_getElem_cons secondInside] at pair
  have first := written.buffer stale (i := 1 + k * 2) (by omega)
  have second := written.buffer stale (i := 2 + k * 2) (by omega)
  have highPlace : 1 + k * 2 = 2 * k + 1 := by omega
  have lowPlace : 2 + k * 2 = 2 * k + 1 + 1 := by omega
  rw [highPlace, List.getElem?_cons_succ, List.getElem?_eq_getElem firstInside] at first
  rw [lowPlace, List.getElem?_cons_succ, List.getElem?_eq_getElem secondInside] at second
  unfold Holds
  have highIndex : (1 + k * 2 : Int) = (2 * k + 1 : Nat) := by omega
  have lowIndex : (2 + k * 2 : Int) = (2 * k + 1 + 1 : Nat) := by omega
  rw [highIndex, lowIndex, first, second]
  exact pair

/-- A turn with a record does what the record says, of whatever type but that of the end. -/
theorem readLine_record {line : List UInt8} {record : HexRecord} {count high low type sum : UInt8}
    {digits : List UInt8} (written : Written line record count high low type sum digits)
    (stale : Line) (signed : Bool) (flashSize : Int) :
    readLine signed flashSize (lineBuffer stale line) =
      if 16 < record.data.length then .failed
      else if flashSize ≤ record.address then .failed
      else if record.type = 1 then .ended
      else .saved record.stores := by
  -- The buffer of the line has what the record was written as.
  have size := length_hexBytes written.read
  simp only [List.length_cons, List.length_append, List.length_nil] at size
  have colon : lineBuffer stale line 0 = 0x3a := written.buffer stale (i := 0) (by omega)
  have held : ∀ k byte, (count :: high :: low :: type :: record.data)[k]? = some byte →
      Holds (lineBuffer stale line) k byte := fun k byte found => written.holds stale found
  -- The fields are read one after the other, and the data is still there behind them.
  obtain ⟨line₁, count₁, kept₁⟩ := (held 0 count rfl).read signed 1 2 rfl rfl
  obtain ⟨line₂, high₂, kept₂⟩ := (kept₁ 1 high (by decide) (held 1 high rfl)).read signed
    3 4 rfl rfl
  obtain ⟨line₃, low₃, kept₃⟩ := (kept₂ 2 low (by decide)
    (kept₁ 2 low (by decide) (held 2 low rfl))).read signed 5 6 rfl rfl
  obtain ⟨line₄, type₄, kept₄⟩ := (kept₃ 3 type (by decide) (kept₂ 3 type (by decide)
    (kept₁ 3 type (by decide) (held 3 type rfl)))).read signed 7 8 rfl rfl
  have data : ∀ k (inside : k < record.data.length),
      Holds (str2hex signed line₄ (9 + (count.toNat : Int) * 2) (10 + (count.toNat : Int) * 2)).2
        (4 + 0 + k) record.data[k] := by
    intro k inside
    have here : (count :: high :: low :: type :: record.data)[4 + 0 + k]? =
        some record.data[k] := by
      rw [show 4 + 0 + k = k + 1 + 1 + 1 + 1 by omega]
      exact List.getElem?_eq_getElem inside
    have before := kept₄ _ _ (by omega) (kept₃ _ _ (by omega) (kept₂ _ _ (by omega)
      (kept₁ _ _ (by omega) (held _ _ here))))
    -- The digits of the checksum are behind the data.
    have checksum := written.size
    exact before.keep signed (j := 4 + count.toNat) (by omega) (by omega) (by omega)
  have address : ((UInt8.ofInt high.toNat).toNat <<< 8 + (UInt8.ofInt low.toNat).toNat) =
      record.address := by
    rw [ofInt_toNat, ofInt_toNat, written.place, Nat.shiftLeft_eq]
    omega
  have stored := saveData_eq signed record.address data
  have turns := written.size
  simp only [readLine, colon, ne_eq, not_true, if_false, count₁, high₂, low₃, type₄, address,
    Int.toNat_natCast, ← turns] at stored ⊢
  rw [stored]
  have long : (record.data.length : Int) > 16 ↔ 16 < record.data.length := by omega
  have ends : (type.toNat : Int) = 1 ↔ record.type = 1 := by
    rw [written.kind]
    omega
  simp only [long, ends, ge_iff_le, HexRecord.stores, Nat.add_zero]

/-- The first character of a line, unless it is the one that is cut off. -/
theorem lineBuffer_zero {line : List UInt8} (some : line ≠ []) (stale : Line) :
    lineBuffer stale line 0 = 0x3a ↔ Marked line := by
  -- The buffer begins with the first character, unless it was the one that is cut off.
  obtain ⟨first, rest, rfl⟩ := List.exists_cons_of_ne_nil some
  have within : (0 : Int) ≤ rest.length + 1 := by omega
  unfold lineBuffer Marked
  simp only [List.head?_cons, Option.some.injEq]
  by_cases short : (cString (first :: rest)).length = 1
  · -- The first character is the last one before a zero.
    rw [short]
    simp
  · by_cases zero : first = 0
    · subst zero
      simp [cString, within]
    · have long : 2 ≤ (cString (first :: rest)).length := by
        have more : (cString (first :: rest)).length ≠ 0 := by simp [cString, zero]
        omega
      rw [if_pos (by omega), Function.update_of_ne (by omega)]
      simp [long, within]

/-- Other lines are passed over. -/
theorem readLine_skipped {signed : Bool} {flashSize : Int} {line : Line} :
    readLine signed flashSize line = .skipped ↔ line 0 ≠ 0x3a := by
  -- Only the first test of the line can pass it over.
  unfold readLine
  dsimp only
  split_ifs <;> simp_all

/--
What a run that comes to its `fwrite` has done.

All lines that it used are records just when all lines up to the end record are; then its stores
are those of the records, which start inside the image.
-/
theorem readLines_spec {signed : Bool} {stale : Nat → Line} {flashSize : Int} {num : Nat}
    {text : List (List UInt8)} (full : ∀ line ∈ text, line ≠ []) {run : ImageRun}
    (reached : readLines signed stale flashSize num text = some run) :
    ((∀ line ∈ run.used, (hexRecord line).isSome) ↔
      ∀ line ∈ upToEnd (text.filter (Marked ·)), (hexRecord line).isSome) ∧
    ((∀ line ∈ upToEnd (text.filter (Marked ·)), (hexRecord line).isSome) →
      run.stores = (recordsBefore (upToEnd (text.filter (Marked ·)))).flatMap HexRecord.stores ∧
      ∀ record ∈ recordsBefore (upToEnd (text.filter (Marked ·))),
        (record.address : Int) < flashSize) := by
  -- The induction is on the lines, of which the first is passed over, used, or ends the run.
  induction text generalizing num run with
  | nil =>
    cases reached
    simp [upToEnd, recordsBefore]
  | cons line later ih =>
    rw [List.forall_mem_cons] at full
    have skipped : readLine signed flashSize (lineBuffer (stale num) line) = .skipped ↔
        ¬ Marked line := by
      rw [readLine_skipped, ne_eq, lineBuffer_zero full.1]
    rw [readLines] at reached
    by_cases marked : Marked line
    · have kept : (line :: later).filter (Marked ·) = line :: later.filter (Marked ·) :=
        List.filter_cons_of_pos (by simpa using marked)
      rw [kept, upToEnd]
      cases found : hexRecord line with
      | none =>
        have goesOn : ¬ Ends line := by simp [Ends, found]
        have member : line ∈ run.used := by
          split at reached
          · rename_i passed
            exact absurd marked (skipped.mp passed)
          · cases reached
          · cases reached
            exact List.mem_singleton_self line
          · obtain ⟨_, _, rfl⟩ := Option.map_eq_some_iff.mp reached
            exact List.mem_cons_self
        have fails : ¬ (hexRecord line).isSome := by simp [found]
        rw [if_neg goesOn]
        refine ⟨iff_of_false ?_ ?_, fun all => ?_⟩
        · exact fun all => fails (all line member)
        · exact fun all => fails (all line List.mem_cons_self)
        · exact absurd (all line List.mem_cons_self) fails
      | some record =>
        have good : (hexRecord line).isSome := by simp [found]
        obtain ⟨_, _, _, _, _, _, written⟩ := written_of_hexRecord found
        rw [readLine_record written] at reached
        by_cases long : 16 < record.data.length
        · rw [if_pos long] at reached
          cases reached
        · rw [if_neg long] at reached
          by_cases outside : flashSize ≤ record.address
          · rw [if_pos outside] at reached
            cases reached
          · rw [if_neg outside] at reached
            by_cases last : record.type = 1
            · rw [if_pos last] at reached
              cases reached
              have ends : Ends line := by simp [Ends, found, last]
              rw [if_pos ends]
              refine ⟨Iff.rfl, fun _ => ?_⟩
              simp [recordsBefore, found, last]
            · rw [if_neg last] at reached
              obtain ⟨rest, next, rfl⟩ := Option.map_eq_some_iff.mp reached
              have goesOn : ¬ Ends line := by simp [Ends, found, last]
              obtain ⟨used, stores⟩ := ih full.2 next
              have head : recordsBefore (line :: upToEnd (later.filter (Marked ·))) =
                  record :: recordsBefore (upToEnd (later.filter (Marked ·))) := by
                simp [recordsBefore, found, last]
              rw [if_neg goesOn, head]
              simp only [List.forall_mem_cons, good, true_and, List.flatMap_cons]
              refine ⟨used, fun all => ?_⟩
              obtain ⟨same, begins⟩ := stores all
              exact ⟨by rw [same], Int.lt_of_not_ge outside, begins⟩
    · have dropped : (line :: later).filter (Marked ·) = later.filter (Marked ·) :=
        List.filter_cons_of_neg (by simpa using marked)
      rw [skipped.mpr marked] at reached
      rw [dropped]
      exact ih full.2 reached

/-- The stores of a record put its data to its address. -/
theorem foldl_stores (address : Nat) (data : List UInt8) (image : Nat → UInt8) :
    (data.mapIdx fun i v => (address + i, v)).foldl
      (fun image store => Function.update image store.1 store.2) image =
      patch address data image := by
  -- The induction is on the data, whose later bytes do not reach back to the first.
  induction data generalizing address image with
  | nil => rw [patch_nil]; rfl
  | cons byte rest ih =>
    have shifted : (fun (i : Nat) (v : UInt8) => (address + (i + 1), v)) =
        fun i v => (address + 1 + i, v) := by
      funext i v
      rw [Nat.add_assoc, Nat.add_comm 1 i]
    have first : Function.update image address byte = patch address [byte] image := by
      funext i
      by_cases here : i = address
      · subst here
        simp [patch]
      · rw [Function.update_of_ne here, patch_outside]
        simp only [List.length_singleton]
        omega
    rw [List.mapIdx_cons, List.foldl_cons, ← patch_cons, ← first, ← ih, shifted]
    rfl

/-- The stores of records make their image. -/
theorem image_of_stores {run : ImageRun} {records : List HexRecord}
    (stores : run.stores = records.flatMap HexRecord.stores) : run.image = imageOf records := by
  -- The stores of a record are its bytes at its address.
  unfold ImageRun.image imageOf
  rw [stores, List.foldl_flatMap]
  simp only [HexRecord.stores, foldl_stores]

/-- Records that do not cover an address do not change the image there. -/
theorem imageOf_append_outside (before : List HexRecord) {behind : List HexRecord} {i : Nat}
    (outside : ∀ later ∈ behind, ¬ later.Covers i) :
    imageOf (before ++ behind) i = imageOf before i := by
  -- The records behind do not reach the address.
  rw [imageOf, List.foldl_append]
  exact foldl_patch_outside HexRecord.address HexRecord.data behind _ outside

/-- The last record that covers an address puts its byte there. -/
theorem imageOf_last (before : List HexRecord) {record : HexRecord} {behind : List HexRecord}
    {i : Nat} (covers : record.Covers i) (last : ∀ later ∈ behind, ¬ later.Covers i) :
    record.data[i - record.address]? = some (imageOf (before ++ record :: behind) i) := by
  -- What comes before the record is overwritten there, and what comes behind does not reach it.
  have inside : i - record.address < record.data.length := by
    have begins := covers.1
    have ends := covers.2
    omega
  rw [← List.singleton_append, ← List.append_assoc, imageOf_append_outside _ last, imageOf,
    List.foldl_append, List.getElem?_eq_getElem inside]
  simp [patch, covers.1, inside]

/-- An address that is covered has a last record that covers it. -/
theorem exists_last {records : List HexRecord} {i : Nat}
    (covered : ∃ record ∈ records, record.Covers i) :
    ∃ before record behind, records = before ++ record :: behind ∧ record.Covers i ∧
      ∀ later ∈ behind, ¬ later.Covers i := by
  -- The induction is on the records: the last one is among the later ones, or it is the first.
  induction records with
  | nil => simp at covered
  | cons first rest ih =>
    by_cases later : ∃ record ∈ rest, record.Covers i
    · obtain ⟨before, record, behind, rfl, covers, last⟩ := ih later
      exact ⟨first :: before, record, behind, rfl, covers, last⟩
    · obtain ⟨record, member, covers⟩ := covered
      rcases List.mem_cons.mp member with rfl | member
      · exact ⟨[], record, rest, rfl, covers, fun other found again => later ⟨other, found, again⟩⟩
      · exact absurd ⟨record, member, covers⟩ later

/-- The records of other types leave the image alone just when they are harmless. -/
theorem imageOf_eq_iff (records : List HexRecord) :
    (∀ i, imageOf records i = imageOf (records.filter (·.type = 0)) i) ↔ Harmless records := by
  -- Records that are not there any more cover nothing.
  have fewer : ∀ {behind : List HexRecord} {i : Nat}, (∀ later ∈ behind, ¬ later.Covers i) →
      ∀ later ∈ behind.filter (·.type = 0), ¬ later.Covers i :=
    fun outside later member => outside later (List.mem_of_mem_filter member)
  constructor
  · rintro same before record behind rfl kind i covers last
    have rest : (before ++ record :: behind).filter (·.type = 0) =
        before.filter (·.type = 0) ++ behind.filter (·.type = 0) := by
      simp [kind]
    rw [imageOf_last before covers last, same i, rest, imageOf_append_outside _ (fewer last)]
  · intro harmless i
    by_cases covered : ∃ record ∈ records, record.Covers i
    · obtain ⟨before, record, behind, rfl, covers, last⟩ := exists_last covered
      have byte := imageOf_last before covers last
      by_cases kind : record.type = 0
      · have kept : (before ++ record :: behind).filter (·.type = 0) =
            before.filter (·.type = 0) ++ record :: behind.filter (·.type = 0) := by
          simp [kind]
        have again := imageOf_last (before.filter (·.type = 0)) covers (fewer last)
        rw [kept]
        exact Option.some.inj (byte.symm.trans again)
      · have rest : (before ++ record :: behind).filter (·.type = 0) =
            before.filter (·.type = 0) ++ behind.filter (·.type = 0) := by
          simp [kind]
        have left := harmless before record behind rfl kind i covers last
        rw [rest, imageOf_append_outside _ (fewer last)]
        exact Option.some.inj (byte.symm.trans left)
    · have outside : ∀ record ∈ records, ¬ record.Covers i :=
        fun record member covers => covered ⟨record, member, covers⟩
      rw [← List.nil_append records, imageOf_append_outside [] outside,
        List.nil_append, ← List.nil_append (records.filter _),
        imageOf_append_outside [] (fewer outside)]

/-- The stores of a record that starts inside the image stay there just when it ends there. -/
theorem stores_inside_iff {record : HexRecord} {flashSize : Int}
    (begins : (record.address : Int) < flashSize) :
    (∀ store ∈ record.stores, (store.1 : Int) < flashSize) ↔
      (record.address + record.data.length : Int) ≤ flashSize := by
  simp only [HexRecord.stores, List.mem_mapIdx, forall_exists_index]
  constructor
  · intro inside
    by_contra beyond
    -- The last byte would lie outside.
    have last := inside _ (record.data.length - 1) (by omega) rfl
    dsimp only at last
    omega
  · rintro fits store i inside rfl
    dsimp only
    omega

/-- Where the records end inside the image, nothing is stored behind it. -/
theorem imageOf_beyond {records : List HexRecord} {flashSize : Int}
    (fits : ∀ record ∈ records, (record.address + record.data.length : Int) ≤ flashSize) {i : Nat}
    (beyond : flashSize ≤ i) : imageOf records i = 0xff := by
  -- No record reaches that far, so the byte is still the one of the erased image.
  have outside : ∀ record ∈ records, ¬ record.Covers i := by
    intro record member covers
    have ends := fits record member
    have below := covers.2
    omega
  rw [← List.nil_append records, imageOf_append_outside [] outside]
  rfl

/--
A run that comes to its `fwrite` has built the image just when, up to the end record, all lines
with a colon are records that end inside the image, and those of other types are harmless.
-/
theorem builds_iff (signed : Bool) (stale : Nat → Line) (flashSize : Int) (text : List UInt8)
    {run : ImageRun} (reached : hex2image signed stale flashSize text = some run) :
    Builds flashSize text run ↔ ProperHex flashSize text := by
  -- Nothing was refused before the `fwrite`, so the lines tell what was stored.
  unfold hex2image at reached
  split_ifs at reached
  have run_spec := readLines_spec (fun line member => ne_nil_of_mem_lines member) reached
  change ((∀ line ∈ run.used, (hexRecord line).isSome) ↔
      ∀ line ∈ usedLines text, (hexRecord line).isSome) ∧
    ((∀ line ∈ usedLines text, (hexRecord line).isSome) →
      run.stores = (recordsBefore (usedLines text)).flatMap HexRecord.stores ∧
      ∀ record ∈ recordsBefore (usedLines text), (record.address : Int) < flashSize) at run_spec
  obtain ⟨used, stores⟩ := run_spec
  -- With its records complete, a run stores inside the image just when the records end there.
  have within : (∀ line ∈ usedLines text, (hexRecord line).isSome) →
      ((∀ store ∈ run.stores, (store.1 : Int) < flashSize) ↔
        ∀ record ∈ recordsBefore (usedLines text),
          (record.address + record.data.length : Int) ≤ flashSize) := by
    intro records
    obtain ⟨same, begins⟩ := stores records
    rw [same]
    simp only [List.mem_flatMap, forall_exists_index, and_imp]
    constructor
    · exact fun inside record member => (stores_inside_iff (begins record member)).mp
        fun store made => inside store record member made
    · exact fun fits store record member made =>
        (stores_inside_iff (begins record member)).mpr (fits record member) store made
  constructor
  · rintro ⟨inside, complete, image⟩
    have records := used.mp complete
    have fits := (within records).mp inside
    refine ⟨records, fits, (imageOf_eq_iff _).mp fun i => ?_⟩
    by_cases inner : (i : Int) < flashSize
    · rw [← image_of_stores (stores records).1]
      exact image i inner
    · have beyond := Int.not_lt.mp inner
      rw [imageOf_beyond fits beyond, imageOf_beyond (fun record member =>
        fits record (List.mem_of_mem_filter member)) beyond]
  · rintro ⟨records, fits, harmless⟩
    refine ⟨(within records).mpr fits, used.mpr records, fun i _ => ?_⟩
    rw [image_of_stores (stores records).1]
    exact (imageOf_eq_iff _).mpr harmless i

/-- A record that starts with the last byte of the image is stored behind it. -/
theorem not_builds_beyond :
    ¬ ∀ run, hex2image true (fun _ _ => 0) 4 (ascii ":020003000102F8\n:00000001FF\n") = some run →
      Builds 4 (ascii ":020003000102F8\n:00000001FF\n") run := by
  -- The run stores its second byte at address 4, just behind the image.
  intro claim
  have built := claim ⟨[(3, 1), (4, 2)],
    [ascii ":020003000102F8\n", ascii ":00000001FF\n"]⟩ (by decide +kernel)
  exact absurd (built.inside (4, 2) (by decide)) (by decide)

/-- A file with a data record and an end record. -/
theorem builds_iff_file :
    Builds 16 (ascii ":020003000102F8\n:00000001FF\n")
        ⟨[(3, 1), (4, 2)], [ascii ":020003000102F8\n", ascii ":00000001FF\n"]⟩ ↔
      ProperHex 16 (ascii ":020003000102F8\n:00000001FF\n") :=
  builds_iff true (fun _ _ => 0) 16 (ascii ":020003000102F8\n:00000001FF\n") (by decide +kernel)

end OpenwrtMisc.C2PortGpio
