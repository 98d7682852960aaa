import Mathlib.Data.List.Basic
import Mathlib.Data.List.TakeDrop

/-! The search for a pattern that begins anew after a symbol that does not fit. -/

namespace OpenwrtMisc

section Pattern

variable {α : Type}

/--
Attempts at the pattern, of which each was given up at a symbol that did not fit.

The symbol itself is lost, although the pattern might have begun with it.
-/
inductive Attempts (pattern : List α) : List α → Prop
  | nil : Attempts pattern []
  | cons {matched : Nat} {symbol : α} {rest : List α} (begun : matched < pattern.length)
      (other : pattern[matched]? ≠ some symbol) (more : Attempts pattern rest) :
      Attempts pattern (pattern.take matched ++ symbol :: rest)

variable [DecidableEq α]

/-- How much of the pattern is matched after a symbol. -/
def matchStep (pattern : List α) (matched : Nat) (symbol : α) : Nat :=
  if pattern[matched]? = some symbol then matched + 1 else 0

/-- What is left behind the pattern, of which so much is matched already. -/
def scanned (pattern : List α) : Nat → List α → Option (List α)
  | matched, [] => if matched < pattern.length then none else some []
  | matched, symbol :: rest =>
    if matched < pattern.length then scanned pattern (matchStep pattern matched symbol) rest
    else some (symbol :: rest)

variable {pattern symbols rest : List α} {matched : Nat}

/-- Nothing is searched behind a pattern that is complete. -/
theorem scanned_complete (complete : pattern.length ≤ matched) :
    scanned pattern matched symbols = some symbols := by
  cases symbols <;> rw [scanned, if_neg (by omega)]

/-- A symbol that fits takes the search a step further. -/
theorem scanned_fits (begun : matched < pattern.length) :
    scanned pattern matched (pattern[matched] :: rest) = scanned pattern (matched + 1) rest := by
  rw [scanned, if_pos begun, matchStep, if_pos (List.getElem?_eq_getElem begun)]

/-- A symbol that does not fit takes it back to the start. -/
theorem scanned_other (begun : matched < pattern.length) {symbol : α}
    (other : pattern[matched]? ≠ some symbol) :
    scanned pattern matched (symbol :: rest) = scanned pattern 0 rest := by
  rw [scanned, if_pos begun, matchStep, if_neg other]

/-- The beginning of the pattern is matched. -/
theorem scanned_take (inside : matched ≤ pattern.length) :
    scanned pattern 0 (pattern.take matched ++ rest) = scanned pattern matched rest := by
  -- The induction is on what is matched, symbol by symbol.
  induction matched generalizing rest with
  | zero => rfl
  | succ matched ih =>
    rw [List.take_succ_eq_append_getElem (by omega), List.append_assoc, ih (by omega)]
    exact scanned_fits (by omega)

/-- What was matched is the beginning of what is left over. -/
theorem attempts_of_scanned (inside : matched ≤ pattern.length)
    (found : scanned pattern matched symbols = some rest) :
    ∃ skipped, pattern.take matched ++ symbols = skipped ++ pattern ++ rest ∧
      Attempts pattern skipped := by
  -- What is matched so far is put in front, so that a failed match is an attempt.
  induction symbols generalizing matched with
  | nil =>
    rw [scanned] at found
    split at found
    · exact absurd found nofun
    · cases found
      exact ⟨[], by rw [List.take_of_length_le (by omega)]; simp, .nil⟩
  | cons symbol symbols ih =>
    by_cases begun : matched < pattern.length
    · by_cases fits : pattern[matched]? = some symbol
      · rw [List.getElem?_eq_getElem begun, Option.some.injEq] at fits
        subst fits
        rw [scanned_fits begun] at found
        obtain ⟨skipped, split, attempts⟩ := ih begun found
        refine ⟨skipped, ?_, attempts⟩
        rw [← split, List.take_succ_eq_append_getElem begun, List.append_assoc,
          List.singleton_append]
      · rw [scanned_other begun fits] at found
        obtain ⟨skipped, split, attempts⟩ := ih (Nat.zero_le _) found
        rw [List.take_zero, List.nil_append] at split
        refine ⟨pattern.take matched ++ symbol :: skipped, ?_, .cons begun fits attempts⟩
        rw [split]
        simp
    · rw [scanned_complete (by omega), Option.some.injEq] at found
      subst found
      exact ⟨[], by rw [List.take_of_length_le (by omega)]; simp, .nil⟩

/-- Attempts are passed over. -/
theorem Attempts.scanned (attempts : Attempts pattern symbols) :
    OpenwrtMisc.scanned pattern 0 (symbols ++ rest) = OpenwrtMisc.scanned pattern 0 rest := by
  -- The induction is on the attempts, each of which starts over.
  induction attempts with
  | nil => rfl
  | cons begun other _ ih =>
    rw [List.append_assoc, scanned_take (by omega), List.cons_append, scanned_other begun other, ih]

/-- The search ends behind the first pattern that no attempt runs into. -/
theorem scanned_eq_some_iff :
    scanned pattern 0 symbols = some rest ↔
      ∃ skipped, symbols = skipped ++ pattern ++ rest ∧ Attempts pattern skipped := by
  -- What is found shows the attempts, and the attempts lead to what is found.
  constructor
  · exact fun found => attempts_of_scanned (Nat.zero_le _) found
  · rintro ⟨skipped, rfl, attempts⟩
    have whole := @scanned_take α _ pattern rest pattern.length (Nat.le_refl _)
    rw [List.take_length] at whole
    rw [List.append_assoc, attempts.scanned, whole, scanned_complete (Nat.le_refl _)]

end Pattern

end OpenwrtMisc
