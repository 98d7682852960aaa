import OpenwrtMisc.Lib.Patch

/-! Memory accesses that fail instead of leaving their block. -/

namespace OpenwrtMisc

universe u v

/-- The ways in which a program leaves its defined behaviour. -/
inductive Fault
  /-- A byte outside the block was read. -/
  | outOfBounds
  /-- A null pointer was followed. -/
  | nullPointer
  /-- An entry of a table was used that does not exist. -/
  | absentEntry
  /-- A write went past the end of its buffer. -/
  | overflow
  /-- A value was read as a type it was not stored with. -/
  | wrongKind
  /-- A loop never ends. -/
  | endless
  deriving DecidableEq, Repr

/-- An outcome of a checked computation is comparable when its values are. -/
instance {α : Type u} [DecidableEq α] : DecidableEq (Except Fault α)
  | .ok first, .ok second => decidable_of_iff (first = second) (by simp)
  | .error first, .error second => decidable_of_iff (first = second) (by simp)
  | .ok _, .error _ => .isFalse nofun
  | .error _, .ok _ => .isFalse nofun

/-- A sequence of two computations succeeds when both do. -/
theorem bind_eq_ok {ε : Type u} {α β : Type v} {first : Except ε α} {next : α → Except ε β}
    {value : β} :
    (first >>= next) = .ok value ↔ ∃ middle, first = .ok middle ∧ next middle = .ok value := by
  -- The first computation fails, or hands its value on.
  cases first with
  | error fault => simp [Bind.bind, Except.bind]
  | ok middle => simp [Bind.bind, Except.bind]

/-- A fold whose steps succeed on the fine items runs through when every item is fine. -/
theorem foldlM_eq_ok {ε : Type u} {σ α : Type v} {step : σ → α → Except ε σ} {Fine : α → Prop}
    {next : σ → α → σ}
    (spec : ∀ state item after, step state item = .ok after ↔
      Fine item ∧ next state item = after)
    (items : List α) (state after : σ) :
    items.foldlM step state = .ok after ↔
      (∀ item ∈ items, Fine item) ∧ items.foldl next state = after := by
  -- The first step decides with which state the rest goes on.
  induction items generalizing state with
  | nil => simp [Pure.pure, Except.pure]
  | cons head rest ih =>
    rw [List.foldlM_cons, bind_eq_ok, List.forall_mem_cons, List.foldl_cons]
    constructor
    · intro given
      rcases given with ⟨middle, first, ran⟩
      obtain ⟨fine, rfl⟩ := (spec _ _ _).mp first
      obtain ⟨all, folded⟩ := (ih _).mp ran
      exact ⟨⟨fine, all⟩, folded⟩
    · intro given
      rcases given with ⟨⟨fine, all⟩, folded⟩
      exact ⟨_, (spec _ _ _).mpr ⟨fine, rfl⟩, (ih _).mpr ⟨all, folded⟩⟩

/-- The byte at an index of a block. -/
def readByte (block : List UInt8) (index : Nat) : Except Fault UInt8 :=
  match block[index]? with
  | some byte => .ok byte
  | none => .error .outOfBounds

/-- A copy of so many bytes of a block from an index on. -/
def copyBytes (block : List UInt8) (start count : Nat) : Except Fault (List UInt8) :=
  let data := (block.drop start).take count
  if data.length = count then .ok data else .error .outOfBounds

/-- A buffer of a size after bytes were written to it. -/
def store (size start : Nat) (data : List UInt8) (buffer : Nat → UInt8) :
    Except Fault (Nat → UInt8) :=
  if start + data.length ≤ size then .ok (patch start data buffer) else .error .overflow

/-- The bytes of a buffer of a size from an index on. -/
def load (size start count : Nat) (buffer : Nat → UInt8) : Except Fault (List UInt8) :=
  if start + count ≤ size then .ok (window start count buffer) else .error .outOfBounds

/-- A write succeeds when it ends inside the buffer. -/
theorem store_eq_ok {size start : Nat} {data : List UInt8} {buffer written : Nat → UInt8} :
    store size start data buffer = .ok written ↔
      start + data.length ≤ size ∧ patch start data buffer = written := by
  -- The write is inside the buffer, or it is a fault.
  unfold store
  split
  · rename_i inside
    simp [inside]
  · rename_i outside
    simp [outside]

/-- A computation goes on from a write that ends inside the buffer. -/
theorem store_bind_eq_ok {β : Type} {size start : Nat} {data : List UInt8}
    {buffer : Nat → UInt8} {next : (Nat → UInt8) → Except Fault β} {value : β} :
    (store size start data buffer >>= next) = .ok value ↔
      start + data.length ≤ size ∧ next (patch start data buffer) = .ok value := by
  -- The value that is handed on is the buffer after the write.
  rw [bind_eq_ok]
  constructor
  · intro given
    rcases given with ⟨_, put, ran⟩
    obtain ⟨inside, rfl⟩ := store_eq_ok.mp put
    exact ⟨inside, ran⟩
  · intro given
    rcases given with ⟨inside, ran⟩
    exact ⟨_, store_eq_ok.mpr ⟨inside, rfl⟩, ran⟩

/-- A read of a buffer succeeds when it ends inside the buffer. -/
theorem load_eq_ok {size start count : Nat} {buffer : Nat → UInt8} {data : List UInt8} :
    load size start count buffer = .ok data ↔
      start + count ≤ size ∧ window start count buffer = data := by
  -- The read is inside the buffer, or it is a fault.
  unfold load
  split
  · rename_i inside
    simp [inside]
  · rename_i outside
    simp [outside]

/-- What a pointer points to. -/
def follow {α : Type} : Option α → Except Fault α
  | some target => .ok target
  | none => .error .nullPointer

/-- A pointer is followed when it is not null. -/
theorem follow_eq_ok {α : Type} {pointer : Option α} {target : α} :
    follow pointer = .ok target ↔ pointer = some target := by
  cases pointer <;> simp [follow]

/-- A read succeeds when the rest of the block begins with the byte. -/
theorem readByte_eq_ok {block : List UInt8} {index : Nat} {byte : UInt8} :
    readByte block index = .ok byte ↔ ∃ rest, block.drop index = byte :: rest := by
  -- The byte at the index is the first of the rest that begins there.
  have cell : block[index]? = (block.drop index).head? := by rw [List.head?_drop]
  unfold readByte
  rw [cell]
  cases block.drop index with
  | nil => simp
  | cons head tail => simp

/-- A copy succeeds when the rest of the block begins with the bytes. -/
theorem copyBytes_eq_ok {block : List UInt8} {start count : Nat} {data : List UInt8} :
    copyBytes block start count = .ok data ↔
      data.length = count ∧ ∃ rest, block.drop start = data ++ rest := by
  -- The copy is made when the block is long enough.
  constructor
  · intro copied
    simp only [copyBytes] at copied
    split at copied
    · -- A copy that is as long as it was asked to be is a part of the block.
      rename_i full
      cases copied
      exact ⟨full, (block.drop start).drop count, (List.take_append_drop _ _).symm⟩
    · cases copied
  · intro given
    rcases given with ⟨rfl, rest, split⟩
    simp [copyBytes, split]

/-- What follows a byte of a block is found one index later. -/
theorem drop_succ_of_cons {block rest : List UInt8} {index : Nat} {byte : UInt8}
    (here : block.drop index = byte :: rest) : block.drop (index + 1) = rest := by
  -- One more is dropped than what leaves the byte in front.
  rw [← List.drop_drop, here]
  rfl

/-- What follows a run of bytes of a block is found behind it. -/
theorem drop_add_of_append {block data rest : List UInt8} {index count : Nat}
    (here : block.drop index = data ++ rest) (size : data.length = count) :
    block.drop (index + count) = rest := by
  rw [← List.drop_drop, here, ← size, List.drop_left]

/-- A reader that was given a position of a block yields a value and leaves a rest behind it. -/
def Yields {α : Type} (block : List UInt8) (reader : Except Fault (α × Nat)) (value : α)
    (rest : List UInt8) : Prop :=
  ∃ index, reader = .ok (value, index) ∧ block.drop index = rest

/-- A value that is returned with a position yields what the block holds from there on. -/
theorem yields_ok {α : Type} {block rest : List UInt8} {value other : α} {index : Nat} :
    Yields block (.ok (value, index)) other rest ↔ value = other ∧ block.drop index = rest := by
  -- The position that is returned is where the rest begins.
  constructor
  · intro given
    rcases given with ⟨position, same, left⟩
    cases same
    exact ⟨rfl, left⟩
  · intro given
    rcases given with ⟨rfl, left⟩
    exact ⟨index, rfl, left⟩

/-- A failed read yields nothing. -/
theorem not_yields_error {α : Type} {block rest : List UInt8} {value : α} {fault : Fault} :
    ¬ Yields block (.error fault) value rest := by
  -- There is no position behind a fault.
  intro given
  rcases given with ⟨_, absurd, _⟩
  cases absurd

/-- The rest of a computation goes on from what its first part yields. -/
theorem yields_bind {α β : Type} {block rest : List UInt8} {first : Except Fault α}
    {next : α → Except Fault (β × Nat)} {value : β} :
    Yields block (first >>= next) value rest ↔
      ∃ middle, first = .ok middle ∧ Yields block (next middle) value rest := by
  -- The position is the one that the second part ends at.
  constructor
  · intro given
    rcases given with ⟨index, ran, left⟩
    obtain ⟨middle, began, ended⟩ := bind_eq_ok.mp ran
    exact ⟨middle, began, index, ended, left⟩
  · intro given
    rcases given with ⟨middle, began, index, ended, left⟩
    exact ⟨index, bind_eq_ok.mpr ⟨middle, began, ended⟩, left⟩

end OpenwrtMisc
