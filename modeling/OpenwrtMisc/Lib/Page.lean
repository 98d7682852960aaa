import OpenwrtMisc.Lib.Checked

/-! Writers of a buffer of fixed size, and the bytes that they put behind each other in total. -/

namespace OpenwrtMisc

/-- A buffer of a size, with the place where its next byte is written. -/
structure Page where
  memory : Nat → UInt8
  size : Nat
  place : Nat

/-- Programs that write a buffer, and fail where they leave it. -/
abbrev Writer (α : Type) : Type := StateT Page (Except Fault) α

namespace Page

/-- A page with nothing behind the place where it is written. -/
structure Blank (page : Page) : Prop where
  inside : page.place ≤ page.size
  zero : ∀ address, page.place ≤ address → page.memory address = 0

/-- A page behind whose place bytes were written. -/
def append (page : Page) (bytes : List UInt8) : Page where
  memory := patch page.place bytes page.memory
  size := page.size
  place := page.place + bytes.length

/-- The bytes that were written from an address on. -/
def written (page : Page) (start : Nat) : List UInt8 :=
  window start (page.place - start) page.memory

/-- Nothing is changed by no byte. -/
@[simp] theorem append_nil (page : Page) : page.append [] = page := by
  simp [append, patch_nil]

/-- Bytes that follow each other are written at once. -/
@[simp] theorem append_append (page : Page) (bytes more : List UInt8) :
    (page.append bytes).append more = page.append (bytes ++ more) := by
  simp only [append, patch_append, List.length_append, Nat.add_assoc]

/-- There is still nothing behind the bytes that were written. -/
theorem Blank.append {page : Page} (blank : page.Blank) {bytes : List UInt8}
    (fits : page.place + bytes.length ≤ page.size) : (page.append bytes).Blank where
  inside := fits
  zero := by
    -- What was written ends in front of the cursor.
    intro address behind
    simp only [Page.append] at behind ⊢
    rw [patch_outside (.inr behind)]
    exact blank.zero address (by omega)

/-- The bytes that were just written are found in the page. -/
theorem written_append (page : Page) (bytes : List UInt8) :
    (page.append bytes).written page.place = bytes := by
  simp only [written, append, Nat.add_sub_cancel_left, window_patch_same]

end Page

section Writer

variable {α β : Type} {writer : Writer α} {next : α → Writer β} {page after : Page}

/-- A writer that came to an end is followed by the next one. -/
theorem Writer.bind_ok {value : α} (ended : writer page = .ok (value, after)) :
    (writer >>= next) page = next value after := by
  -- The sequence runs the first writer, whose outcome is known.
  change Except.bind (writer page) _ = _
  rw [ended]
  rfl

/-- A writer that failed is not followed. -/
theorem Writer.bind_error {fault : Fault} (failed : writer page = .error fault) :
    (writer >>= next) page = .error fault := by
  -- The sequence runs the first writer, whose fault is known.
  change Except.bind (writer page) _ = _
  rw [failed]
  rfl

end Writer

/-- A writer puts these bytes behind a page, or overflows a page without room for them. -/
def Writes (writer : Writer Unit) (bytes : List UInt8) : Prop :=
  ∀ page : Page, page.Blank →
    writer page = if page.place + bytes.length ≤ page.size then .ok ((), page.append bytes)
      else .error .overflow

namespace Writes

variable {writer next : Writer Unit} {bytes more : List UInt8}

/-- A writer that does nothing writes nothing. -/
theorem pure : Writes (Pure.pure ()) [] := by
  -- The cursor of a blank page is inside of it already.
  intro page blank
  rw [if_pos (by simpa using blank.inside), Page.append_nil]
  rfl

/-- What two writers write stands behind each other. -/
theorem bind (first : Writes writer bytes) (second : Writes next more) :
    Writes (do writer; next) (bytes ++ more) := by
  intro page blank
  have ended := first page blank
  by_cases fits : page.place + bytes.length ≤ page.size
  · -- The second writer begins behind the bytes of the first one.
    rw [if_pos fits] at ended
    rw [Writer.bind_ok ended, second (page.append bytes) (blank.append fits), Page.append_append]
    simp only [Page.append, List.length_append, Nat.add_assoc]
  · rw [if_neg fits] at ended
    rw [Writer.bind_error ended, if_neg (by rw [List.length_append]; omega)]

/-- What a writer writes is determined. -/
theorem unique (one : Writes writer bytes) (two : Writes writer more) : bytes = more := by
  -- Both ways of telling it agree on a page that has room for either.
  generalize blank : Page.mk (fun _ => 0) (bytes.length + more.length) 0 = page
  have empty : page.Blank := by
    subst blank
    exact ⟨Nat.zero_le _, fun _ _ => rfl⟩
  have place : page.place = 0 := by rw [← blank]
  have size : page.size = bytes.length + more.length := by rw [← blank]
  have ended := one page empty
  rw [two page empty, if_pos (by omega), if_pos (by omega)] at ended
  -- The bytes are found in the page that both leave.
  obtain ⟨_, same⟩ := Prod.mk.inj (Except.ok.inj ended)
  have found := congrArg (fun after => after.written page.place) same
  simpa only [Page.written_append] using found.symm

end Writes

/-- A writer puts bytes behind this page and has a result, or overflows the page. -/
def Fills {α : Type} (writer : Writer α) (page : Page) (bytes : List UInt8) (value : α) : Prop :=
  writer page = if page.place + bytes.length ≤ page.size then .ok (value, page.append bytes)
    else .error .overflow

namespace Fills

variable {α β : Type} {writer : Writer α} {next : α → Writer β} {page : Page}
  {bytes more : List UInt8} {value : α} {result : β}

/-- A writer whose bytes do not depend on the page. -/
theorem of_writes {writer : Writer Unit} (writes : Writes writer bytes) (blank : page.Blank) :
    Fills writer page bytes () := writes page blank

/-- A value needs no byte. -/
theorem pure (inside : page.place ≤ page.size) (value : α) :
    Fills (Pure.pure value) page [] value := by
  rw [Fills, if_pos (by simpa using inside), Page.append_nil]
  rfl

/-- The second writer is asked about the page that the first one leaves, if it does. -/
theorem bind (first : Fills writer page bytes value)
    (rest : page.place + bytes.length ≤ page.size →
      Fills (next value) (page.append bytes) more result) :
    Fills (writer >>= next) page (bytes ++ more) result := by
  unfold Fills at first ⊢
  by_cases fits : page.place + bytes.length ≤ page.size
  · have second := rest fits
    rw [if_pos fits] at first
    rw [Writer.bind_ok first, second, Page.append_append]
    simp only [Page.append, List.length_append, Nat.add_assoc]
  · rw [if_neg fits] at first
    rw [Writer.bind_error first, if_neg (by rw [List.length_append]; omega)]

/-- A question about the page is answered where nothing is written behind it. -/
theorem answer {question : Writer α} (inside : page.place ≤ page.size)
    (answered : question page = .ok (value, page)) : Fills question page [] value := by
  rw [Fills, if_pos (by simpa using inside), Page.append_nil, answered]

/-- A question about the page is answered before anything is written. -/
theorem ask {question : Writer α} (answered : question page = .ok (value, page))
    (rest : Fills (next value) page more result) : Fills (question >>= next) page more result := by
  unfold Fills at rest ⊢
  rw [Writer.bind_ok answered, rest]

end Fills

end OpenwrtMisc
