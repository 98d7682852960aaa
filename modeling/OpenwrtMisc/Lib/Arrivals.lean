import Mathlib.Data.List.Basic
import Mathlib.Data.List.TakeDrop

/-! Bytes that arrive in chunks, between which a reader may be interrupted. -/

namespace OpenwrtMisc

/-- What the next read of a line has: bytes, of which there is one at least, or an interruption. -/
inductive Arrival
  | bytes (first : UInt8) (more : List UInt8)
  | interrupted
  deriving DecidableEq, Repr

namespace Arrival

/-- The bytes of an arrival. -/
def data : Arrival → List UInt8
  | .bytes first more => first :: more
  | .interrupted => []

end Arrival

/-- The bytes that arrive on a line before it ends. -/
def arriving (line : List Arrival) : List UInt8 := line.flatMap Arrival.data

/-- A line with bytes in front that were not taken. -/
def putBack : List UInt8 → List Arrival → List Arrival
  | [], line => line
  | first :: more, line => .bytes first more :: line

/-- Reads until there are so many bytes, of which each takes no more than are missing. -/
def readFully : Nat → List Arrival → Option (List UInt8 × List Arrival)
  | 0, line => some ([], line)
  | _ + 1, [] => none
  | missing + 1, .interrupted :: line => readFully (missing + 1) line
  | missing + 1, .bytes first more :: line =>
    if more.length < missing then
      (readFully (missing - more.length) line).map fun (data, line) => (first :: more ++ data, line)
    else
      some (first :: more.take missing, putBack (more.drop missing) line)

section Read

variable {line : List Arrival} {data later : List UInt8} {count : Nat}

/-- Bytes that are put back arrive again. -/
@[simp] theorem arriving_putBack (data : List UInt8) (line : List Arrival) :
    arriving (putBack data line) = data ++ arriving line := by
  cases data <;> simp [putBack, arriving, Arrival.data]

/-- Bytes that arrive are read, however they are cut into chunks. -/
theorem readFully_append (arrives : arriving line = data ++ later) :
    ∃ rest, readFully data.length line = some (data, rest) ∧ arriving rest = later := by
  -- The induction is on the chunks, of which each is enough, or leaves fewer bytes to be read.
  induction line generalizing data with
  | nil =>
    obtain ⟨rfl, rfl⟩ := List.append_eq_nil_iff.mp arrives.symm
    exact ⟨[], by simp [readFully], rfl⟩
  | cons arrival line ih =>
    cases data with
    | nil => exact ⟨arrival :: line, by simp [readFully], arrives⟩
    | cons byte data =>
      cases arrival with
      | interrupted => exact ih arrives
      | bytes first more =>
        obtain ⟨rfl, follows⟩ := List.cons.inj arrives
        have follows : more ++ arriving line = data ++ later := follows
        rw [List.length_cons, readFully]
        split
        · -- The chunk is not enough, and what is missing arrives behind it.
          obtain ⟨data, rfl⟩ : ∃ missing, data = more ++ missing := by
            have begins := List.prefix_of_prefix_length_le ⟨_, follows⟩
              (List.prefix_append data later) (by omega)
            exact ⟨_, begins.choose_spec.symm⟩
          rw [List.append_assoc, List.append_cancel_left_eq] at follows
          obtain ⟨rest, read, arrives⟩ := ih follows
          refine ⟨rest, ?_, arrives⟩
          rw [List.length_append, Nat.add_sub_cancel_left, read]
          rfl
        · -- The chunk is enough, and what is not taken of it stays.
          obtain ⟨tail, rfl⟩ : ∃ tail, more = data ++ tail := by
            have begins := List.prefix_of_prefix_length_le ⟨later, follows.symm⟩
              (List.prefix_append more (arriving line)) (by omega)
            exact ⟨_, begins.choose_spec.symm⟩
          rw [List.append_assoc, List.append_cancel_left_eq] at follows
          refine ⟨putBack tail line, ?_, by rw [arriving_putBack, follows]⟩
          rw [List.take_left, List.drop_left]

/-- There is nothing to be read when the line ends too early. -/
theorem readFully_short (short : (arriving line).length < count) : readFully count line = none := by
  -- No chunk can bring more bytes than arrive in all.
  induction line generalizing count with
  | nil =>
    obtain ⟨count, rfl⟩ : ∃ less, count = less + 1 := by
      rw [arriving, List.flatMap_nil, List.length_nil] at short
      exact ⟨count - 1, by omega⟩
    rfl
  | cons arrival line ih =>
    obtain ⟨count, rfl⟩ : ∃ less, count = less + 1 := ⟨count - 1, by omega⟩
    cases arrival with
    | interrupted => exact ih short
    | bytes first more =>
      have total : (arriving (.bytes first more :: line)).length =
          more.length + 1 + (arriving line).length := by
        simp [arriving, Arrival.data, Nat.add_right_comm]
      rw [readFully, if_pos (by omega), ih (by omega), Option.map_none]

/-- What was read did arrive, and the rest arrives behind it. -/
theorem readFully_some {rest : List Arrival} (read : readFully count line = some (data, rest)) :
    data.length = count ∧ arriving line = data ++ arriving rest := by
  -- A read of a line that is long enough takes its first bytes.
  by_cases short : (arriving line).length < count
  · rw [readFully_short short] at read
    exact absurd read nofun
  · have full : ((arriving line).take count).length = count :=
      List.length_take_of_le (Nat.le_of_not_lt short)
    obtain ⟨later, found, arrives⟩ := readFully_append (List.take_append_drop count _).symm
    rw [full, read] at found
    obtain ⟨rfl, rfl⟩ := Prod.mk.inj (Option.some.inj found)
    exact ⟨full, by rw [arrives, List.take_append_drop]⟩

/-- Nothing was read because the line ended too early. -/
theorem readFully_none (none : readFully count line = none) : (arriving line).length < count := by
  -- A line that is long enough would have been read.
  by_contra enough
  have full : ((arriving line).take count).length = count :=
    List.length_take_of_le (Nat.le_of_not_lt enough)
  obtain ⟨later, found, _⟩ := readFully_append (List.take_append_drop count (arriving line)).symm
  rw [full, none] at found
  exact absurd found nofun

end Read

end OpenwrtMisc
