import Mathlib.Data.List.Induction
import OpenwrtMisc.Lib.CString
import OpenwrtMisc.Lib.Patch

/-! The string buffer of the register tools: texts are printed one behind the other. -/

namespace OpenwrtMisc.ShowGpio

/--
`struct strbuf`, with the memory from `buf` on and where calls have written to it.

`ptr` counts from `buf`; `left` and `len` are of the type `size_t`.
-/
structure Strbuf where
  ptr : Nat
  left : Nat
  len : Nat
  memory : Nat → UInt8
  stores : List (Nat × Nat)

/-- What `vsnprintf` writes of a text: as much as fits before the terminating zero. -/
def vsnprintf (size : Nat) (text : List UInt8) : List UInt8 :=
  if size = 0 then [] else text.take (size - 1) ++ [0]

/-- `strbuf_init`. -/
def strbufInit (buffer : Nat → UInt8) (length : Nat) : Strbuf := ⟨0, length, 0, buffer, []⟩

/-- `strbuf_vappend`, where the text is what the format and its arguments say. -/
def strbufVappend (bits : Nat) (s : Strbuf) (text : List UInt8) : Strbuf :=
  let n := text.length
  let written := vsnprintf s.left text
  let s := { s with
    memory := patch s.ptr written s.memory
    stores := s.stores ++ [(s.ptr, written.length)] }
  if n > 0 then
    { s with
      ptr := s.ptr + n
      len := (s.len + n) % 2 ^ bits
      left := (s.left + (2 ^ bits - n % 2 ^ bits)) % 2 ^ bits }
  else s

/-- `strbuf_append`. -/
def strbufAppend (bits : Nat) (s : Strbuf) (text : List UInt8) : Strbuf := strbufVappend bits s text

/-- The index that `strbuf_lastchar` reads at, if it reads the buffer at all. -/
def lastcharAt (s : Strbuf) : Option Nat := if s.len > 0 then some (s.len - 1) else none

/-- `strbuf_lastchar`, which for an empty buffer is -1 as a `char`. -/
def strbufLastchar (s : Strbuf) : UInt8 := (lastcharAt s).elim 0xff s.memory

/-- A call of one of the two functions. -/
inductive Call where
  | append (text : List UInt8)
  | vappend (text : List UInt8)
  deriving DecidableEq, Repr

/-- The text of a call. -/
def Call.text : Call → List UInt8
  | .append text | .vappend text => text

/-- What a call does to the buffer. -/
def Call.run (bits : Nat) (s : Strbuf) : Call → Strbuf
  | .append text => strbufAppend bits s text
  | .vappend text => strbufVappend bits s text

/-- The buffer after a sequence of calls. -/
def runCalls (bits : Nat) (s : Strbuf) (calls : List Call) : Strbuf := calls.foldl (Call.run bits) s

/-- The texts of the calls, one behind the other. -/
def printed (calls : List Call) : List UInt8 := calls.flatMap Call.text

/-- What is expected of a buffer after texts were printed to it. -/
structure Sound (length : Nat) (text : List UInt8) (s : Strbuf) : Prop where
  ptr : s.ptr = s.len
  left : s.len + s.left = length
  len : s.len < length
  stores : ∀ store ∈ s.stores, 0 < store.2 → store.1 + store.2 ≤ length
  content : window 0 (text.take (length - 1)).length s.memory = text.take (length - 1)
  terminated : s.memory (text.take (length - 1)).length = 0
  lastchar : ∀ index, lastcharAt s = some index → index < length

/-- A buffer that all the texts have fitted in. -/
structure Filled (length : Nat) (buffer : Nat → UInt8) (calls : List Call) (s : Strbuf) :
    Prop where
  fits : (printed calls).length < length
  ptr : s.ptr = (printed calls).length
  len : s.len = (printed calls).length
  left : s.left = length - (printed calls).length
  stores : ∀ store ∈ s.stores, store.1 + store.2 ≤ length
  content : window 0 (printed calls).length s.memory = printed calls
  terminated : calls ≠ [] → s.memory (printed calls).length = 0
  untouched : calls = [] → s.memory = buffer

/-- Both functions do the same. -/
theorem Call.run_eq (bits : Nat) (s : Strbuf) (call : Call) :
    call.run bits s = strbufVappend bits s call.text := by
  cases call <;> rfl

/-- The texts of one call more. -/
theorem printed_append (calls : List Call) (call : Call) :
    printed (calls ++ [call]) = printed calls ++ call.text := by
  simp [printed]

/-- The write position moves on by the length of the text, whether it was written or not. -/
theorem ptr_strbufVappend (bits : Nat) (s : Strbuf) (text : List UInt8) :
    (strbufVappend bits s text).ptr = s.ptr + text.length := by
  -- An empty text is not written, and moves nothing either.
  unfold strbufVappend
  dsimp only
  split
  · rfl
  · rename_i empty
    show s.ptr = s.ptr + text.length
    omega

/-- The write position is the length of all the texts. -/
theorem ptr_runCalls (bits : Nat) (buffer : Nat → UInt8) (length : Nat) (calls : List Call) :
    (runCalls bits (strbufInit buffer length) calls).ptr = (printed calls).length := by
  -- The induction is on the last call, which moves the position by its own text.
  induction calls using List.reverseRecOn with
  | nil => rfl
  | append_singleton calls call ih =>
    rw [runCalls, List.foldl_append, List.foldl_cons, List.foldl_nil, Call.run_eq,
      ptr_strbufVappend, printed_append, List.length_append]
    exact congrArg (· + call.text.length) ih

/-- With space for a text and its terminating zero all of it is written. -/
theorem vsnprintf_fits {size : Nat} {text : List UInt8} (fits : text.length < size) :
    vsnprintf size text = text ++ [0] := by
  rw [vsnprintf, if_neg (by omega), List.take_of_length_le (by omega)]

/-- A text that fits keeps the fields and the content in step. -/
theorem Filled.vappend {bits length : Nat} {buffer : Nat → UInt8} {calls : List Call} {s : Strbuf}
    (filled : Filled length buffer calls s) (small : length < 2 ^ bits) {call : Call}
    (fits : (printed calls).length + call.text.length < length) :
    Filled length buffer (calls ++ [call]) (call.run bits s) := by
  -- The text fits, so it is printed whole, with its zero byte behind it.
  have written : vsnprintf s.left call.text = call.text ++ [0] :=
    vsnprintf_fits (by rw [filled.left]; omega)
  have total : (printed (calls ++ [call])).length = (printed calls).length + call.text.length := by
    rw [printed_append, List.length_append]
  -- An empty text changes none of the fields, which is what adding its length does as well.
  have fields : call.run bits s = { s with
      ptr := s.ptr + call.text.length
      len := s.len + call.text.length
      left := s.left - call.text.length
      memory := patch s.ptr (call.text ++ [0]) s.memory
      stores := s.stores ++ [(s.ptr, call.text.length + 1)] } := by
    have lenFits : (s.len + call.text.length) % 2 ^ bits = s.len + call.text.length :=
      Nat.mod_eq_of_lt (by rw [filled.len]; omega)
    have leftFits : (s.left + (2 ^ bits - call.text.length % 2 ^ bits)) % 2 ^ bits =
        s.left - call.text.length := by
      have shifted : s.left + (2 ^ bits - call.text.length % 2 ^ bits) =
          s.left - call.text.length + 2 ^ bits := by
        rw [filled.left, Nat.mod_eq_of_lt (by omega)]
        omega
      rw [shifted, Nat.add_mod_right, Nat.mod_eq_of_lt (by rw [filled.left]; omega)]
    rw [Call.run_eq]
    unfold strbufVappend
    rw [written]
    dsimp only
    rw [lenFits, leftFits, List.length_append, List.length_singleton]
    split
    · rfl
    · rename_i empty
      rw [Nat.eq_zero_of_not_pos empty]
      rfl
  rw [fields]
  refine ⟨by omega, ?_, ?_, ?_, ?_, ?_, ?_, fun none => absurd none (by simp)⟩
  · rw [total, ← filled.ptr]
  · rw [total, ← filled.len]
  · show s.left - call.text.length = _
    rw [total, filled.left]
    omega
  · intro store member
    rcases List.mem_append.mp member with old | new
    · exact filled.stores store old
    · rw [List.mem_singleton.mp new]
      show s.ptr + (call.text.length + 1) ≤ length
      rw [filled.ptr]
      omega
  · show window 0 _ (patch s.ptr (call.text ++ [0]) s.memory) = _
    have before : window 0 (printed calls).length (patch s.ptr (call.text ++ [0]) s.memory) =
        printed calls := by
      rw [← filled.content]
      simp only [length_window]
      exact window_congr fun address _ below => patch_outside (by rw [filled.ptr]; omega)
    have here : window (0 + (printed calls).length) call.text.length
        (patch s.ptr (call.text ++ [0]) s.memory) = call.text := by
      have both := window_patch_same s.ptr (call.text ++ [0]) s.memory
      rw [List.length_append, window_append] at both
      rw [Nat.zero_add, ← filled.ptr]
      exact (List.append_inj both (length_window _ _ _)).1
    rw [total, window_append, before, here, printed_append]
  · intro _
    show patch s.ptr (call.text ++ [0]) s.memory _ = 0
    rw [total, ← filled.ptr, patch_inside (by simp)]
    simp

/-- As long as the texts fit together, the buffer is filled with them. -/
theorem filled_runCalls {bits length : Nat} (buffer : Nat → UInt8) (small : length < 2 ^ bits)
    (calls : List Call) (fits : (printed calls).length < length) :
    Filled length buffer calls (runCalls bits (strbufInit buffer length) calls) := by
  -- The texts of the first calls fit when those of all do.
  induction calls using List.reverseRecOn with
  | nil => exact ⟨fits, rfl, rfl, rfl, nofun, rfl, fun some => absurd rfl some, fun _ => rfl⟩
  | append_singleton calls call ih =>
    rw [printed_append, List.length_append] at fits
    rw [runCalls, List.foldl_append, List.foldl_cons, List.foldl_nil]
    exact (ih (by omega)).vappend small fits

/--
After calls with texts of any lengths the buffer is sound just when all texts fit in it together,
and some call has terminated it if its first byte was not zero from the beginning.
-/
theorem sound_runCalls_iff (bits length : Nat) (buffer : Nat → UInt8) (calls : List Call)
    (nonempty : 1 ≤ length) (small : length < 2 ^ bits) :
    Sound length (printed calls) (runCalls bits (strbufInit buffer length) calls) ↔
      (printed calls).length < length ∧ (calls ≠ [] ∨ buffer 0 = 0) := by
  -- The position counts all texts, so a sound buffer has room for them.
  constructor
  · intro sound
    refine ⟨?_, ?_⟩
    · have total := ptr_runCalls bits buffer length calls
      have ptr := sound.ptr
      have len := sound.len
      omega
    · by_cases none : calls = []
      · subst none
        have terminated : buffer (([] : List UInt8).take (length - 1)).length = 0 :=
          sound.terminated
        rw [List.take_nil] at terminated
        exact .inr terminated
      · exact .inl none
  · intro given
    rcases given with ⟨fits, ended⟩
    have filled : Filled length buffer calls (runCalls bits (strbufInit buffer length) calls) :=
      filled_runCalls buffer small calls fits
    have whole : (printed calls).take (length - 1) = printed calls :=
      List.take_of_length_le (by omega)
    refine ⟨?_, ?_, ?_, fun store member _ => filled.stores store member, ?_, ?_, ?_⟩
    · rw [filled.ptr, filled.len]
    · rw [filled.len, filled.left]
      omega
    · rw [filled.len]
      exact fits
    · rw [whole]
      exact filled.content
    · rw [whole]
      by_cases none : calls = []
      · rw [filled.untouched none, none]
        rcases ended with some | zero
        · exact absurd none some
        · exact zero
      · exact filled.terminated none
    · intro index found
      have len := filled.len
      unfold lastcharAt at found
      split at found
      · cases found
        omega
      · cases found

/-- After a text that was cut off, the next one is written behind the buffer. -/
theorem not_sound_cut :
    ¬ Sound 4 (printed [.append (ascii "abcde"), .append (ascii "f")])
      (runCalls 64 (strbufInit (fun _ => 0) 4) [.append (ascii "abcde"), .append (ascii "f")]) := by
  -- The second text stores two bytes from place 5 on, in a buffer of four.
  intro sound
  exact absurd (sound.stores (5, 2) (by decide) (by decide)) (by decide)

/-- A message and its end of line in a buffer of eight bytes. -/
theorem sound_runCalls_message :
    Sound 8 (printed [.vappend (ascii "open"), .append [0x0a]])
        (runCalls 64 (strbufInit (fun _ => 0xff) 8) [.vappend (ascii "open"), .append [0x0a]]) ↔
      (printed [.vappend (ascii "open"), .append [0x0a]]).length < 8 ∧
        ([Call.vappend (ascii "open"), .append [0x0a]] ≠ [] ∨ (0xff : UInt8) = 0) :=
  sound_runCalls_iff 64 8 (fun _ => 0xff) [.vappend (ascii "open"), .append [0x0a]] (by decide)
    (by decide)

end OpenwrtMisc.ShowGpio
