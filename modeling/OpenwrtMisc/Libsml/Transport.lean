import OpenwrtMisc.Lib.Arrivals
import OpenwrtMisc.Lib.Checked
import OpenwrtMisc.Lib.Pattern

/-! The frames of the transport protocol, and how they are found on a line. -/

namespace OpenwrtMisc.Libsml

/-- `esc_seq`, `start_seq` and `end_seq`. -/
def escSeq : List UInt8 := [0x1b, 0x1b, 0x1b, 0x1b]
def startSeq : List UInt8 := [0x1b, 0x1b, 0x1b, 0x1b, 0x01, 0x01, 0x01, 0x01]
def endSeq : List UInt8 := [0x1b, 0x1b, 0x1b, 0x1b, 0x1a]

/-- `MC_SML_BUFFER_LEN`. -/
def mcSmlBufferLen : Nat := 8096

/-- `sml_read`. -/
def smlRead (len : Nat) (line : List Arrival) : Option (List UInt8 × List Arrival) :=
  readFully len line

/-- The loop that searches the start, with a turn for each byte that arrives, and one to end. -/
def startLoop : Nat → Nat → List Arrival → Except Fault (Option (List Arrival))
  | 0, _, _ => throw .endless
  | turns + 1, len, line =>
    if len < 8 then
      match smlRead 1 line with
      | none => return none
      | some (data, line) => do
        let byte ← readByte data 0
        if (byte = 0x1b ∧ len < 4) ∨ (byte = 0x01 ∧ 4 ≤ len) then startLoop turns (len + 1) line
        else startLoop turns 0 line
    else
      return some line

/-- The loop that reads groups of four bytes behind what was read already. -/
def groupLoop (maxLen : Nat) :
    Nat → List UInt8 → List Arrival → Except Fault (Option (List UInt8 × List Arrival))
  | 0, _, _ => throw .endless
  | turns + 1, buf, line =>
    if buf.length + 8 < maxLen then
      match smlRead 4 line with
      | none => return none
      | some (group, line) =>
        if group = escSeq then
          match smlRead 4 line with
          | none => return none
          | some (last, line) => do
            let byte ← readByte last 0
            if byte = 0x1a then return some (buf ++ group ++ last, line)
            -- Other escaped sequences are not read.
            else return none
        else
          groupLoop maxLen turns (buf ++ group) line
    else
      return none

/-- `sml_transport_read`, whose buffer holds the start when it was found. -/
def smlTransportRead (maxLen : Nat) (line : List Arrival) :
    Except Fault (Option (List UInt8 × List Arrival)) :=
  if maxLen < 8 then return none
  else do
    match ← startLoop ((arriving line).length + 1) 0 line with
    | none => return none
    | some line => groupLoop maxLen maxLen startSeq line

/-- The loop of `sml_transport_listen`, which hands frames to a receiver with a state. -/
def listenLoop {σ : Type} (smlTransportReceiver : σ → List UInt8 → Except Fault σ) :
    Nat → σ → List Arrival → Except Fault σ
  | 0, _, _ => throw .endless
  | turns + 1, state, line => do
    match ← smlTransportRead mcSmlBufferLen line with
    | none => return state
    | some (buffer, line) =>
      let state ← smlTransportReceiver state buffer
      listenLoop smlTransportReceiver turns state line

/-- `sml_transport_listen`, which ends when no frame is found before the line ends. -/
def smlTransportListen {σ : Type} (smlTransportReceiver : σ → List UInt8 → Except Fault σ)
    (state : σ) (line : List Arrival) : Except Fault σ :=
  listenLoop smlTransportReceiver ((arriving line).length + 1) state line

section Start

/-- The loop takes a step of the search for the start sequence. -/
theorem startSeq_getElem : ∀ len < 8, ∀ byte : UInt8,
    startSeq[len]? = some byte ↔ (byte = 0x1b ∧ len < 4) ∨ (byte = 0x01 ∧ 4 ≤ len) := by
  -- The sequence is four bytes of one kind, and four of the other.
  intro len inside byte
  have low : len < 4 → startSeq[len]? = some 0x1b := by
    intro low
    match len with
    | 0 | 1 | 2 | 3 => rfl
  have high : 4 ≤ len → startSeq[len]? = some 0x01 := by
    intro high
    match len with
    | 4 | 5 | 6 | 7 => rfl
  by_cases first : len < 4
  · rw [low first, Option.some.injEq]
    exact ⟨fun same => .inl ⟨same.symm, first⟩, fun told => by
      rcases told with told | told
      · exact told.1.symm
      · omega⟩
  · rw [high (by omega), Option.some.injEq]
    exact ⟨fun same => .inr ⟨same.symm, by omega⟩, fun told => by
      rcases told with told | told
      · omega
      · exact told.1.symm⟩

/-- The search for the start comes to an end, and ends where the pattern is found. -/
theorem startLoop_eq {turns len : Nat} {line : List Arrival} (inside : len ≤ 8)
    (enough : (arriving line).length < turns) :
    ∃ found, startLoop turns len line = .ok found ∧
      found.map arriving = scanned startSeq len (arriving line) := by
  -- Every turn takes a byte off the line, so the turns are enough while there are bytes.
  induction turns generalizing len line with
  | zero => exact absurd enough (Nat.not_lt_zero _)
  | succ turns ih =>
    rw [startLoop]
    by_cases begun : len < 8
    · rw [if_pos begun]
      cases read : smlRead 1 line with
      | none =>
        have empty : arriving line = [] := by
          have short := readFully_none read
          exact List.eq_nil_of_length_eq_zero (by omega)
        have open_ : len < startSeq.length := begun
        exact ⟨none, rfl, by rw [empty, scanned, if_pos open_]; rfl⟩
      | some result =>
        obtain ⟨data, line⟩ := result
        obtain ⟨one, arrives⟩ := readFully_some read
        obtain ⟨byte, rfl⟩ := List.length_eq_one_iff.mp one
        rw [arrives, List.singleton_append, List.length_cons] at enough
        rw [arrives, List.singleton_append, scanned, if_pos (show len < startSeq.length from begun),
          matchStep]
        have first : readByte [byte] 0 = .ok byte := rfl
        simp only [first, Bind.bind, Except.bind]
        by_cases fits : startSeq[len]? = some byte
        · rw [if_pos fits, if_pos ((startSeq_getElem len begun byte).mp fits)]
          exact ih (by omega) (by omega)
        · rw [if_neg fits, if_neg fun told => fits ((startSeq_getElem len begun byte).mpr told)]
          exact ih (by omega) (by omega)
    · rw [if_neg begun]
      exact ⟨some line, rfl, (scanned_complete (by simpa [startSeq] using begun)).symm⟩

end Start

section Frame

/-- Groups of four bytes, none of which is the escape sequence. -/
inductive Grouped : List UInt8 → Prop
  | nil : Grouped []
  | cons {group rest : List UInt8} (four : group.length = 4) (other : group ≠ escSeq)
      (more : Grouped rest) : Grouped (group ++ rest)

/-- Groups that are no escape sequence follow each other. -/
theorem grouped_flatten {groups : List (List UInt8)}
    (each : ∀ group ∈ groups, group.length = 4 ∧ group ≠ escSeq) : Grouped groups.flatten := by
  -- The induction is on the groups.
  induction groups with
  | nil => exact .nil
  | cons group groups ih =>
    obtain ⟨first, others⟩ := List.forall_mem_cons.mp each
    exact .cons first.1 first.2 (ih others)

/-- What stands behind the start of a frame up to its end. -/
structure Ended (payload last : List UInt8) : Prop where
  grouped : Grouped payload
  /-- The end sequence, the number of the bytes that were added, and a checksum. -/
  last : ∃ padding high low, last = endSeq ++ [padding, high, low]

/-- The groups of a frame are read up to its end when there is room for it. -/
theorem groupLoop_ended {maxLen : Nat} {payload last later : List UInt8}
    (ended : Ended payload last) {turns : Nat} {buf : List UInt8} {line : List Arrival}
    (arrives : arriving line = payload ++ last ++ later)
    (room : (buf ++ payload ++ last).length < maxLen) (enough : maxLen < 4 * turns + buf.length) :
    ∃ rest, groupLoop maxLen turns buf line = .ok (some (buf ++ payload ++ last, rest)) ∧
      arriving rest = later := by
  obtain ⟨grouped, padding, high, low, rfl⟩ := ended
  have size : endSeq.length = 5 := rfl
  -- The induction is on the groups, each of which takes one turn.
  induction grouped generalizing turns buf line with
  | nil =>
    simp only [List.append_nil, List.nil_append, List.length_append] at arrives room ⊢
    obtain ⟨turns, rfl⟩ : ∃ less, turns = less + 1 := ⟨turns - 1, by omega⟩
    -- The end sequence is read as a group and four more bytes.
    obtain ⟨between, read, arrives⟩ := @readFully_append line escSeq
      ([0x1a, padding, high, low] ++ later) (by simpa [endSeq, escSeq] using arrives)
    obtain ⟨rest, readLast, arrives⟩ := readFully_append arrives
    have first : smlRead 4 line = some (escSeq, between) := read
    have second : smlRead 4 between = some ([0x1a, padding, high, low], rest) := readLast
    refine ⟨rest, ?_, arrives⟩
    rw [groupLoop, if_pos (by simp [size] at room; omega), first]
    simp [second, readByte, Bind.bind, Except.bind, Pure.pure, Except.pure, escSeq, endSeq]
  | @cons group payload four other _ ih =>
    simp only [List.append_assoc, List.length_append] at arrives room
    obtain ⟨turns, rfl⟩ : ∃ less, turns = less + 1 := ⟨turns - 1, by simp at room; omega⟩
    obtain ⟨between, read, arrives⟩ := readFully_append arrives
    have first : smlRead 4 line = some (group, between) := four ▸ read
    rw [groupLoop, if_pos (by simp [size] at room; omega), first]
    simp only [if_neg other]
    obtain ⟨rest, looped, arrives⟩ := @ih turns (buf ++ group) between (by simp; omega)
      (by simpa using arrives) (by simpa [Nat.add_assoc] using room)
    exact ⟨rest, by simpa using looped, arrives⟩

/-- The loop ends, and what it gives is a frame. -/
theorem groupLoop_runs {maxLen turns : Nat} {buf : List UInt8} {line : List Arrival}
    (positive : 0 < turns) (enough : maxLen < 4 * turns + buf.length) :
    ∃ found, groupLoop maxLen turns buf line = .ok found ∧
      ∀ frame rest, found = some (frame, rest) →
        ∃ payload last, frame = buf ++ payload ++ last ∧
          arriving line = payload ++ last ++ arriving rest ∧ Ended payload last ∧
          frame.length < maxLen := by
  -- Induction on the turns: each one reads four bytes, and they are data, an escape or the end.
  induction turns generalizing buf line with
  | zero => exact absurd positive (Nat.lt_irrefl 0)
  | succ turns ih =>
    rw [groupLoop]
    by_cases room : buf.length + 8 < maxLen
    · rw [if_pos room]
      cases read : smlRead 4 line with
      | none => exact ⟨none, rfl, nofun⟩
      | some result =>
        obtain ⟨group, between⟩ := result
        obtain ⟨four, arrives⟩ := readFully_some read
        by_cases escaped : group = escSeq
        · simp only [if_pos escaped]
          cases readLast : smlRead 4 between with
          | none => exact ⟨none, rfl, nofun⟩
          | some result =>
            obtain ⟨last, rest⟩ := result
            obtain ⟨size, arrivesLast⟩ := readFully_some readLast
            obtain ⟨kind, padding, high, low, rfl⟩ := List.length_eq_four.mp size
            have first : readByte [kind, padding, high, low] 0 = .ok kind := rfl
            simp only [first, Bind.bind, Except.bind]
            -- Only the end may follow an escape here.
            by_cases ends : kind = 0x1a
            · rw [if_pos ends]
              refine ⟨_, rfl, fun frame later same => ?_⟩
              obtain ⟨rfl, rfl⟩ := Prod.mk.inj (Option.some.inj same)
              subst escaped ends
              refine ⟨[], endSeq ++ [padding, high, low], by simp [escSeq, endSeq], ?_,
                ⟨.nil, padding, high, low, rfl⟩, by simp [escSeq]; omega⟩
              rw [arrives, arrivesLast]
              simp [escSeq, endSeq]
            · rw [if_neg ends]
              exact ⟨none, rfl, nofun⟩
        · simp only [if_neg escaped]
          obtain ⟨found, looped, told⟩ := @ih (buf ++ group) between (by omega) (by simp; omega)
          refine ⟨found, looped, fun frame rest same => ?_⟩
          obtain ⟨payload, last, rfl, arrivesMore, ended, fits⟩ := told frame rest same
          refine ⟨group ++ payload, last, by simp, by rw [arrives, arrivesMore]; simp, ?_, fits⟩
          exact ⟨.cons four escaped ended.grouped, ended.last⟩
    · rw [if_neg room]
      exact ⟨none, rfl, nofun⟩

/-- A frame that fits into a buffer. -/
def Framed (maxLen : Nat) (frame : List UInt8) : Prop :=
  ∃ payload last, frame = startSeq ++ payload ++ last ∧ Ended payload last ∧ frame.length < maxLen

/-- A frame has the two sequences and their ends at least. -/
theorem Framed.length {maxLen : Nat} {frame : List UInt8} (framed : Framed maxLen frame) :
    16 ≤ frame.length := by
  -- Each of the two sequences has eight bytes.
  obtain ⟨payload, last, rfl, ⟨_, padding, high, low, rfl⟩, _⟩ := framed
  simp [startSeq, endSeq]

/-- A read of the line comes to an end, and what it gives is the frame behind the attempts. -/
theorem smlTransportRead_runs (maxLen : Nat) (line : List Arrival) :
    ∃ found, smlTransportRead maxLen line = .ok found ∧ ∀ frame rest, found = some (frame, rest) →
      ∃ skipped, arriving line = skipped ++ frame ++ arriving rest ∧
        Attempts startSeq skipped ∧ Framed maxLen frame := by
  -- A buffer that is too small is refused, and otherwise the start sequence is looked for.
  unfold smlTransportRead
  by_cases small : maxLen < 8
  · rw [if_pos small]
    exact ⟨none, rfl, nofun⟩
  · rw [if_neg small]
    obtain ⟨started, begins, scan⟩ := startLoop_eq (Nat.zero_le 8) (Nat.lt_succ_self _)
    rw [begins]
    cases started with
    | none => exact ⟨none, rfl, nofun⟩
    | some between =>
      obtain ⟨skipped, split, attempts⟩ := scanned_eq_some_iff.mp scan.symm
      obtain ⟨found, looped, told⟩ := @groupLoop_runs maxLen maxLen startSeq between (by omega)
        (by simp [startSeq]; omega)
      refine ⟨found, looped, fun frame rest same => ?_⟩
      obtain ⟨payload, last, rfl, arrives, ended, fits⟩ := told frame rest same
      refine ⟨skipped, ?_, attempts, payload, last, rfl, ended, fits⟩
      rw [split, arrives]
      simp

/-- A frame behind attempts is given. -/
theorem smlTransportRead_framed {maxLen : Nat} {line : List Arrival}
    {skipped frame later : List UInt8} (arrives : arriving line = skipped ++ frame ++ later)
    (attempts : Attempts startSeq skipped) (framed : Framed maxLen frame) :
    ∃ rest, smlTransportRead maxLen line = .ok (some (frame, rest)) ∧ arriving rest = later := by
  -- The search ends behind the attempts, as nothing in them is the start sequence.
  have size := framed.length
  obtain ⟨payload, last, rfl, ended, fits⟩ := framed
  obtain ⟨started, begins, scan⟩ := startLoop_eq (Nat.zero_le 8) (Nat.lt_succ_self _)
  have found : scanned startSeq 0 (arriving line) = some (payload ++ last ++ later) := by
    refine scanned_eq_some_iff.mpr ⟨skipped, ?_, attempts⟩
    rw [arrives]
    simp
  rw [found] at scan
  cases started with
  | none => exact absurd scan nofun
  | some between =>
    obtain ⟨rest, looped, arrivesLater⟩ := @groupLoop_ended maxLen payload last later ended maxLen
      startSeq between (Option.some.inj scan) fits (by simp [startSeq]; omega)
    refine ⟨rest, ?_, arrivesLater⟩
    unfold smlTransportRead
    rw [if_neg (by omega), begins]
    exact looped

/-- A frame is given exactly when it is the first one that no attempt runs into, and fits. -/
theorem smlTransportRead_iff {maxLen : Nat} {line : List Arrival} {frame later : List UInt8} :
    (∃ rest, smlTransportRead maxLen line = .ok (some (frame, rest)) ∧ arriving rest = later) ↔
      ∃ skipped, arriving line = skipped ++ frame ++ later ∧ Attempts startSeq skipped ∧
        Framed maxLen frame := by
  -- What is read was framed, and what is framed is read.
  constructor
  · rintro ⟨rest, read, rfl⟩
    obtain ⟨found, ended, told⟩ := smlTransportRead_runs maxLen line
    rw [read, Except.ok.injEq] at ended
    exact told frame rest ended.symm
  · rintro ⟨skipped, arrives, attempts, framed⟩
    exact smlTransportRead_framed arrives attempts framed

end Frame

section Listen

variable {σ : Type} {smlTransportReceiver : σ → List UInt8 → Except Fault σ}

/-- Bytes with frames, each behind attempts at one, and no further one at the end. -/
inductive Heard : List (List UInt8) → List UInt8 → Prop
  | silent {bytes : List UInt8} (silent : ∀ skipped frame later, Attempts startSeq skipped →
      Framed mcSmlBufferLen frame → bytes ≠ skipped ++ frame ++ later) : Heard [] bytes
  | frame {skipped frame later : List UInt8} {frames : List (List UInt8)}
      (attempts : Attempts startSeq skipped) (framed : Framed mcSmlBufferLen frame)
      (more : Heard frames later) : Heard (frame :: frames) (skipped ++ frame ++ later)

/-- The loop hands the frames to the receiver in their order. -/
theorem listenLoop_heard {frames : List (List UInt8)} {bytes : List UInt8}
    (heard : Heard frames bytes) {turns : Nat} {line : List Arrival} {state : σ}
    (arrives : arriving line = bytes) (enough : bytes.length < turns) :
    listenLoop smlTransportReceiver turns state line =
      frames.foldlM smlTransportReceiver state := by
  -- The induction is on the frames that are heard, each of which takes one turn.
  induction heard generalizing turns line state with
  | silent silent =>
    obtain ⟨turns, rfl⟩ : ∃ less, turns = less + 1 := ⟨turns - 1, by omega⟩
    obtain ⟨found, read, told⟩ := smlTransportRead_runs mcSmlBufferLen line
    cases found with
    | none =>
      rw [listenLoop, read]
      rfl
    | some result =>
      obtain ⟨skipped, split, attempts, framed⟩ := told result.1 result.2 rfl
      exact absurd (arrives.symm.trans split) (silent _ _ _ attempts framed)
  | @frame skipped frame later frames attempts framed more ih =>
    obtain ⟨turns, rfl⟩ : ∃ less, turns = less + 1 := ⟨turns - 1, by omega⟩
    obtain ⟨rest, read, arrivesLater⟩ := smlTransportRead_framed arrives attempts framed
    have size := framed.length
    simp only [List.length_append] at enough
    rw [listenLoop, read, List.foldlM_cons]
    change (do
      let state ← smlTransportReceiver state frame
      listenLoop smlTransportReceiver turns state rest) = _
    refine congrArg _ (funext fun state => ?_)
    exact ih arrivesLater (by omega)

/-- All frames on a line are handed to the receiver, in their order and no other ones. -/
theorem smlTransportListen_heard {frames : List (List UInt8)} {line : List Arrival} {state : σ}
    (heard : Heard frames (arriving line)) :
    smlTransportListen smlTransportReceiver state line =
      frames.foldlM smlTransportReceiver state :=
  listenLoop_heard heard rfl (Nat.lt_succ_self _)

/-- Bytes have frames in any case. -/
theorem exists_heard (bytes : List UInt8) : ∃ frames, Heard frames bytes := by
  -- There are fewer bytes behind a frame, so the induction is on their number.
  induction count : bytes.length using Nat.strongRecOn generalizing bytes with
  | _ count ih =>
    by_cases some : ∃ skipped frame later, Attempts startSeq skipped ∧
        Framed mcSmlBufferLen frame ∧ bytes = skipped ++ frame ++ later
    · obtain ⟨skipped, frame, later, attempts, framed, rfl⟩ := some
      have size := framed.length
      simp only [List.length_append] at count
      obtain ⟨frames, more⟩ := ih later.length (by omega) later rfl
      exact ⟨frame :: frames, .frame attempts framed more⟩
    · exact ⟨[], .silent fun skipped frame later attempts framed same =>
        some ⟨skipped, frame, later, attempts, framed, same⟩⟩

/-- A receiver that keeps the frames keeps all of them. -/
theorem foldlM_keep (frames seen : List (List UInt8)) :
    frames.foldlM (fun seen frame => Except.ok (ε := Fault) (seen ++ [frame])) seen =
      .ok (seen ++ frames) := by
  -- The induction is on the frames.
  induction frames generalizing seen with
  | nil => rw [List.append_nil]; rfl
  | cons frame frames ih =>
    refine (ih (seen ++ [frame])).trans ?_
    rw [List.append_assoc, List.singleton_append]

/-- The bytes of a line determine which frames are heard. -/
theorem Heard.unique {frames others : List (List UInt8)} {bytes : List UInt8}
    (heard : Heard frames bytes) (again : Heard others bytes) : frames = others := by
  -- A receiver that keeps what it is handed gets the same frames either way.
  obtain ⟨line, arrives⟩ : ∃ line, arriving line = bytes :=
    ⟨putBack bytes [], (arriving_putBack bytes []).trans (List.append_nil bytes)⟩
  subst arrives
  have kept {frames : List (List UInt8)} (heard : Heard frames (arriving line)) :=
    @smlTransportListen_heard _ (fun seen frame => .ok (seen ++ [frame])) frames line [] heard
  have one := kept heard
  have two := kept again
  rw [foldlM_keep, List.nil_append] at one two
  exact Except.ok.inj (one.symm.trans two)

/--
A line has frames that its bytes determine, and every receiver is handed just these in their order.

How the bytes arrive is of no matter.
-/
theorem smlTransportListen_frames (line : List Arrival) :
    ∃ frames, (∀ others, Heard others (arriving line) ↔ others = frames) ∧
      ∀ (τ : Type) (receiver : τ → List UInt8 → Except Fault τ) (state : τ),
        smlTransportListen receiver state line = frames.foldlM receiver state := by
  -- There are such frames for any bytes, and the bytes determine them.
  obtain ⟨frames, heard⟩ := exists_heard (arriving line)
  refine ⟨frames, fun others => ⟨fun again => again.unique heard, fun same => same ▸ heard⟩, ?_⟩
  exact fun _ _ _ => smlTransportListen_heard heard

end Listen

end OpenwrtMisc.Libsml
