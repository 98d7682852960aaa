import OpenwrtMisc.Lib.Checked
import OpenwrtMisc.Lib.Patch
import OpenwrtMisc.Lib.Pieces

/-! A stream of bytes between two sockets, as it comes or through an external command. -/

namespace OpenwrtMisc.MicroProxy

/-- The size of the buffer, and two of the codes that the program exits with. -/
def bufSize : Nat := 1024
def createPipeError : Int := -8
def brokenPipeError : Int := -9

/-- A turn of `forward_data`: what `recv` returns, and the result of `send` for it. -/
structure Turn where
  chunk : List UInt8
  sent : Int
  some : chunk ≠ []
  fits : chunk.length ≤ bufSize
  within : sent ≤ chunk.length

/--
A turn of `forward_data_ext`: what `recv` and `read` return, and the results of `write` and `send`.

No byte is read where `read` fails, or the command has closed its output.
-/
structure ExtTurn where
  chunk : List UInt8
  written : Int
  part : List UInt8
  sent : Int
  some : chunk ≠ []
  fits : chunk.length ≤ bufSize
  writes : written ≤ chunk.length
  reads : part.length ≤ bufSize
  within : sent ≤ part.length

/-- The buffer, and the bytes that went over the sockets and the pipes. -/
structure Flow where
  buffer : Nat → UInt8
  received : List UInt8
  written : List UInt8
  readBack : List UInt8
  accepted : List UInt8

namespace Flow

/-- Before the first byte. -/
def start (buffer : Nat → UInt8) : Flow := ⟨buffer, [], [], [], []⟩

/-- `recv` from the source. -/
def recv (chunk : List UInt8) (flow : Flow) : Flow :=
  { flow with buffer := patch 0 chunk flow.buffer, received := flow.received ++ chunk }

/-- `write` of so many bytes of the buffer to the command, with its result. -/
def write (n : Nat) (result : Int) (flow : Flow) : Flow :=
  { flow with written := flow.written ++ (window 0 n flow.buffer).take result.toNat }

/-- `read` of what the command has put out. -/
def read (part : List UInt8) (flow : Flow) : Flow :=
  { flow with buffer := patch 0 part flow.buffer, readBack := flow.readBack ++ part }

/-- `send` of so many bytes of the buffer to the destination, with its result. -/
def send (n : Nat) (result : Int) (flow : Flow) : Flow :=
  { flow with accepted := flow.accepted ++ (window 0 n flow.buffer).take result.toNat }

end Flow

/-- The loop of `forward_data`, until the source has ended. -/
def forwardDataLoop : List Turn → Flow → Flow
  | [], flow => flow
  | turn :: rest, flow =>
    forwardDataLoop rest ((flow.recv turn.chunk).send turn.chunk.length turn.sent)

/-- `forward_data`. -/
def forwardData (buffer : Nat → UInt8) (turns : List Turn) : Flow :=
  forwardDataLoop turns (.start buffer)

/-- A turn of the loop of `forward_data_ext`. -/
def forwardDataExtTurn (turn : ExtTurn) (flow : Flow) : Except Int Flow :=
  let n := turn.chunk.length
  let flow := flow.recv turn.chunk
  if turn.written < 0 then .error brokenPipeError
  else
    let flow := flow.write n turn.written
    let i := turn.part.length
    let flow := flow.read turn.part
    -- The result of `send` is not looked at, nor is there another `read` before the next chunk.
    .ok (if i > 0 then flow.send i turn.sent else flow)

/-- The loop of `forward_data_ext`, until the source has ended. -/
def forwardDataExtLoop : List ExtTurn → Flow → Except Int Flow
  | [], flow => .ok flow
  | turn :: rest, flow => do forwardDataExtLoop rest (← forwardDataExtTurn turn flow)

/-- `forward_data_ext`, with the results of both calls of `pipe`. -/
def forwardDataExt (pipeIn pipeOut : Int) (buffer : Nat → UInt8) (turns : List ExtTurn) :
    Except Int Flow :=
  if pipeIn < 0 ∨ pipeOut < 0 then .error createPipeError
  else forwardDataExtLoop turns (.start buffer)

/-- What a turn hands on at each of the four calls. -/
def Turn.accepts (turn : Turn) : List UInt8 := turn.chunk.take turn.sent.toNat
def ExtTurn.feeds (turn : ExtTurn) : List UInt8 := turn.chunk.take turn.written.toNat
def ExtTurn.accepts (turn : ExtTurn) : List UInt8 := turn.part.take turn.sent.toNat

namespace Flow

/-- What was received is sent on from the buffer. -/
theorem accepted_send_recv (chunk : List UInt8) (result : Int) (flow : Flow) :
    ((flow.recv chunk).send chunk.length result).accepted =
      flow.accepted ++ chunk.take result.toNat := by
  -- What is sent is read back from where the chunk was just stored.
  change flow.accepted ++ (window 0 _ (patch 0 chunk flow.buffer)).take _ = _
  rw [window_patch_same]

/-- What was received is written to the command, before the buffer is used again. -/
theorem written_write_recv (chunk : List UInt8) (result : Int) (flow : Flow) :
    ((flow.recv chunk).write chunk.length result).written =
      flow.written ++ chunk.take result.toNat := by
  -- What is written is read back from where the chunk was just stored.
  change flow.written ++ (window 0 _ (patch 0 chunk flow.buffer)).take _ = _
  rw [window_patch_same]

/-- What was read from the command is sent on. -/
theorem accepted_send_read (part : List UInt8) (result : Int) (flow : Flow) :
    ((flow.read part).send part.length result).accepted =
      flow.accepted ++ part.take result.toNat := by
  -- What is sent is read back from where the answer was just stored.
  change flow.accepted ++ (window 0 _ (patch 0 part flow.buffer)).take _ = _
  rw [window_patch_same]

end Flow

/-- The turns of `forward_data` receive their chunks, and hand on what is accepted of them. -/
theorem forwardDataLoop_spec (turns : List Turn) (flow : Flow) :
    (forwardDataLoop turns flow).received = flow.received ++ turns.flatMap Turn.chunk ∧
      (forwardDataLoop turns flow).accepted = flow.accepted ++ turns.flatMap Turn.accepts := by
  -- The induction is on the turns, each of which adds its chunk and what was accepted of it.
  induction turns generalizing flow with
  | nil => exact ⟨(List.append_nil _).symm, (List.append_nil _).symm⟩
  | cons turn rest ih =>
    obtain ⟨received, accepted⟩ := ih ((flow.recv turn.chunk).send turn.chunk.length turn.sent)
    constructor
    · rw [forwardDataLoop, received, List.flatMap_cons, ← List.append_assoc]
      rfl
    · rw [forwardDataLoop, accepted, Flow.accepted_send_recv, List.flatMap_cons,
        ← List.append_assoc]
      rfl

/-- What turns through the command add to the four streams. -/
structure Adds (turns : List ExtTurn) (before after : Flow) : Prop where
  received : after.received = before.received ++ turns.flatMap ExtTurn.chunk
  written : after.written = before.written ++ turns.flatMap ExtTurn.feeds
  readBack : after.readBack = before.readBack ++ turns.flatMap ExtTurn.part
  accepted : after.accepted = before.accepted ++ turns.flatMap ExtTurn.accepts

/-- One turn more adds what it hands on. -/
theorem Adds.cons {turn : ExtTurn} {rest : List ExtTurn} {before middle after : Flow}
    (first : Adds [turn] before middle) (others : Adds rest middle after) :
    Adds (turn :: rest) before after := by
  -- All four streams are concatenations over the turns.
  have split : ∀ pick : ExtTurn → List UInt8,
      (turn :: rest).flatMap pick = [turn].flatMap pick ++ rest.flatMap pick :=
    fun pick => @List.flatMap_append _ _ [turn] rest pick
  refine ⟨?_, ?_, ?_, ?_⟩
  · rw [others.received, first.received, split, List.append_assoc]
  · rw [others.written, first.written, split, List.append_assoc]
  · rw [others.readBack, first.readBack, split, List.append_assoc]
  · rw [others.accepted, first.accepted, split, List.append_assoc]

/-- A turn that goes on writes its chunk, and sends what it reads. -/
theorem forwardDataExtTurn_adds {turn : ExtTurn} {before after : Flow}
    (went : forwardDataExtTurn turn before = .ok after) : Adds [turn] before after := by
  -- The turn writes what the filter had, and then reads for the next one.
  simp only [forwardDataExtTurn] at went
  split at went
  · cases went
  · have chunk : [turn].flatMap ExtTurn.chunk = turn.chunk := List.flatMap_singleton _ _
    have feeds : [turn].flatMap ExtTurn.feeds = turn.feeds := List.flatMap_singleton _ _
    have part : [turn].flatMap ExtTurn.part = turn.part := List.flatMap_singleton _ _
    have accepts : [turn].flatMap ExtTurn.accepts = turn.accepts := List.flatMap_singleton _ _
    have fed := Flow.written_write_recv turn.chunk turn.written before
    cases went
    by_cases some : turn.part.length > 0
    · rw [if_pos some]
      refine ⟨by rw [chunk]; rfl, by rw [feeds]; exact fed, by rw [part]; rfl, ?_⟩
      rw [accepts]
      exact Flow.accepted_send_read turn.part turn.sent _
    · rw [if_neg some]
      refine ⟨by rw [chunk]; rfl, by rw [feeds]; exact fed, by rw [part]; rfl, ?_⟩
      -- Nothing was read, so nothing could have been accepted either.
      have none : turn.part = [] := List.eq_nil_of_length_eq_zero (by omega)
      rw [accepts, ExtTurn.accepts, none, List.take_nil, List.append_nil]
      rfl

/-- A loop that ends has handed on what its turns hand on. -/
theorem forwardDataExtLoop_adds {turns : List ExtTurn} {before after : Flow}
    (ended : forwardDataExtLoop turns before = .ok after) : Adds turns before after := by
  -- The induction is on the turns, of which each adds to the streams of the others.
  induction turns generalizing before with
  | nil =>
    cases ended
    exact ⟨(List.append_nil _).symm, (List.append_nil _).symm, (List.append_nil _).symm,
      (List.append_nil _).symm⟩
  | cons turn rest ih =>
    obtain ⟨middle, went, ended⟩ := bind_eq_ok.mp ended
    exact (forwardDataExtTurn_adds went).cons (ih ended)

/-- A call that ends has handed on what its turns hand on. -/
theorem forwardDataExt_streams {pipeIn pipeOut : Int} {buffer : Nat → UInt8}
    {turns : List ExtTurn} {flow : Flow}
    (ended : forwardDataExt pipeIn pipeOut buffer turns = .ok flow) :
    flow.received = turns.flatMap ExtTurn.chunk ∧ flow.written = turns.flatMap ExtTurn.feeds ∧
      flow.accepted = turns.flatMap ExtTurn.accepts := by
  -- A pipe that is missing is an error, and otherwise the loop runs.
  unfold forwardDataExt at ended
  split at ended
  · cases ended
  · obtain ⟨received, written, -, accepted⟩ := forwardDataExtLoop_adds ended
    exact ⟨received, written, accepted⟩

/--
What an external command makes of its input.

It may put out its output when it likes, but only what follows from the input that it has read.
-/
structure Filter where
  produced : List UInt8 → List UInt8
  whole : List UInt8 → List UInt8
  causal : ∀ input more, produced input <+: whole (input ++ more)

/-- Whether what is read in each turn comes from what the command has produced by then. -/
def Filter.Answers (filter : Filter) (turns : List ExtTurn) : Prop :=
  ∀ k, (turns.take k).flatMap ExtTurn.part <+:
    filter.produced ((turns.take k).flatMap ExtTurn.feeds)

/-- What is read is the begin of the whole output for what was written. -/
theorem Filter.Answers.begins {filter : Filter} {turns : List ExtTurn}
    (answers : filter.Answers turns) :
    turns.flatMap ExtTurn.part <+: filter.whole (turns.flatMap ExtTurn.feeds) := by
  -- The answer to all turns begins what the command puts out for all its input.
  have last := answers turns.length
  have caused := filter.causal (turns.flatMap ExtTurn.feeds) []
  rw [List.take_length] at last
  rw [List.append_nil] at caused
  exact last.trans caused

/-- Whether the command got the bytes of the source, and the destination its whole output. -/
structure Filtered (filter : Filter) (flow : Flow) : Prop where
  fed : flow.written = flow.received
  output : flow.accepted = filter.whole flow.received

/-- Whether all that is received is written to the command. -/
def Fed (turns : List ExtTurn) : Prop := ∀ turn ∈ turns, turn.written = turn.chunk.length

/-- Whether all that the command puts out is read, and all that is read is sent. -/
structure Drained (filter : Filter) (turns : List ExtTurn) : Prop where
  reads : turns.flatMap ExtTurn.part = filter.whole (turns.flatMap ExtTurn.chunk)
  sends : ∀ turn ∈ turns, turn.part ≠ [] → turn.sent = turn.part.length

/-- All of a turn's chunk is sent on exactly when `send` says so. -/
theorem Turn.accepts_eq_iff (turn : Turn) :
    turn.accepts = turn.chunk ↔ turn.sent = turn.chunk.length :=
  take_toNat_eq_iff turn.within turn.some

/-- All of a turn's chunk is written exactly when `write` says so. -/
theorem ExtTurn.feeds_eq_iff (turn : ExtTurn) :
    turn.feeds = turn.chunk ↔ turn.written = turn.chunk.length :=
  take_toNat_eq_iff turn.writes turn.some

/-- All that a turn has read is sent on exactly when `send` says so, or there was nothing. -/
theorem ExtTurn.accepts_eq_iff (turn : ExtTurn) :
    turn.accepts = turn.part ↔ (turn.part ≠ [] → turn.sent = turn.part.length) := by
  -- With nothing to send, nothing is sent whatever the return value.
  by_cases none : turn.part = []
  · rw [ExtTurn.accepts, none, List.take_nil]
    exact ⟨fun _ given => absurd rfl given, fun _ => rfl⟩
  · refine (take_toNat_eq_iff turn.within none).trans ⟨fun same _ => same, fun same => same none⟩

/-- The stream is forwarded as it is exactly when `send` takes every chunk as a whole. -/
theorem forwardData_unchanged_iff (buffer : Nat → UInt8) (turns : List Turn) :
    (forwardData buffer turns).accepted = (forwardData buffer turns).received ↔
      ∀ turn ∈ turns, turn.sent = turn.chunk.length := by
  -- Chunk by chunk, nothing can make up for what was cut off.
  obtain ⟨received, accepted⟩ := forwardDataLoop_spec turns (.start buffer)
  rw [forwardData, received, accepted]
  refine (flatMap_cut_iff fun _ _ => List.take_sublist _ _).trans ?_
  exact forall₂_congr fun turn _ => turn.accepts_eq_iff

/-- Every byte was written to the command exactly when `write` takes every chunk as a whole. -/
theorem flatMap_feeds_iff (turns : List ExtTurn) :
    turns.flatMap ExtTurn.feeds = turns.flatMap ExtTurn.chunk ↔ Fed turns :=
  (flatMap_cut_iff fun _ _ => List.take_sublist _ _).trans
    (forall₂_congr fun turn _ => turn.feeds_eq_iff)

/-- Once the command got everything, all that it puts out has to be read, and to be sent. -/
theorem flatMap_accepts_iff {filter : Filter} {turns : List ExtTurn}
    (answers : filter.Answers turns) (fed : Fed turns) :
    turns.flatMap ExtTurn.accepts = filter.whole (turns.flatMap ExtTurn.chunk) ↔
      Drained filter turns := by
  -- What is sent is cut from what is read, and that is a prefix of the whole output.
  have begins := answers.begins
  rw [(flatMap_feeds_iff turns).mpr fed] at begins
  refine (flatMap_eq_whole_iff (fun _ _ => List.take_sublist _ _) begins).trans ?_
  constructor
  · rintro ⟨uncut, reads⟩
    exact ⟨reads, fun turn member => turn.accepts_eq_iff.mp (uncut turn member)⟩
  · rintro ⟨reads, sends⟩
    exact ⟨fun turn member => turn.accepts_eq_iff.mpr (sends turn member), reads⟩

/--
Forwarding loses nothing exactly when every call takes, or returns, all there is.

With a command, the destination has its whole output for the bytes of the source
exactly when the command got all of them, and all that it puts out is read and sent.
-/
theorem forwards_iff (buffer : Nat → UInt8) (turns : List Turn) (filter : Filter)
    (pipeIn pipeOut : Int) (extTurns : List ExtTurn) (answers : filter.Answers extTurns)
    (flow : Flow) (ended : forwardDataExt pipeIn pipeOut buffer extTurns = .ok flow) :
    ((forwardData buffer turns).accepted = (forwardData buffer turns).received ↔
        ∀ turn ∈ turns, turn.sent = turn.chunk.length) ∧
      (Filtered filter flow ↔ Fed extTurns ∧ Drained filter extTurns) ∧
      (Fed extTurns → (flow.accepted = filter.whole flow.received ↔ Drained filter extTurns)) := by
  -- The three streams are those of the turns, and each part is about two of them.
  obtain ⟨received, written, accepted⟩ := forwardDataExt_streams ended
  refine ⟨forwardData_unchanged_iff buffer turns, ?_, fun fed => ?_⟩
  · constructor
    · rintro ⟨same, output⟩
      rw [received, written] at same
      rw [received, accepted] at output
      have fed := (flatMap_feeds_iff extTurns).mp same
      exact ⟨fed, (flatMap_accepts_iff answers fed).mp output⟩
    · rintro ⟨fed, drained⟩
      have same := (flatMap_feeds_iff extTurns).mpr fed
      have output := (flatMap_accepts_iff answers fed).mpr drained
      exact ⟨by rw [received, written, same], by rw [received, accepted, output]⟩
  · rw [received, accepted]
    exact flatMap_accepts_iff answers fed

/-- A command that puts out what it reads. -/
def cat : Filter := ⟨id, id, List.prefix_append⟩

/-- A turn of two bytes, of which so many are sent. -/
def twoBytes (sent : Int) (within : sent ≤ 2) : Turn :=
  ⟨[1, 2], sent, List.cons_ne_nil _ _, by decide, within⟩

/-- A turn of two bytes through a command, of whose output so many are read, and sent. -/
def twoBytesExt (count : Nat) (within : count ≤ 2) : ExtTurn :=
  ⟨[1, 2], 2, [1, 2].take count, count, List.cons_ne_nil _ _, by decide, Int.le_refl _,
    Nat.le_trans (List.length_take_le' count [1, 2]) (by decide),
    Int.ofNat_le.mpr (Nat.le_of_eq (List.length_take_of_le (l := [1, 2]) within).symm)⟩

/-- What a turn of two bytes reads is what the command has produced. -/
theorem cat_answers (count : Nat) (within : count ≤ 2) :
    cat.Answers [twoBytesExt count within] := by
  -- Before its turn nothing was read, and after it a part of the two bytes.
  intro k
  cases k with
  | zero => exact List.prefix_rfl
  | succ k =>
    rw [List.take_succ_cons, List.take_nil, List.flatMap_singleton, List.flatMap_singleton]
    exact List.take_prefix count [1, 2]

/-- Two bytes are forwarded as they are, and through a command that is read to its end. -/
theorem forwards_iff_twoBytes : ∃ flow,
    forwardDataExt 0 0 (fun _ => 0) [twoBytesExt 2 (by decide)] = .ok flow ∧
      (forwardData (fun _ => 0) [twoBytes 2 (by decide)]).accepted = [1, 2] ∧
      Filtered cat flow := by
  -- Everything is fed, read and sent in the single turn.
  have whole : Drained cat [twoBytesExt 2 (by decide)] := by
    refine ⟨rfl, fun turn member _ => ?_⟩
    rw [List.mem_singleton.mp member]
    rfl
  have fed : Fed [twoBytesExt 2 (by decide)] := by
    intro turn member
    rw [List.mem_singleton.mp member]
    rfl
  obtain ⟨straight, filtered, -⟩ := forwards_iff (fun _ => 0) [twoBytes 2 (by decide)] cat 0 0
    [twoBytesExt 2 (by decide)] (cat_answers 2 (by decide)) _ rfl
  refine ⟨_, rfl, straight.mpr fun turn member => ?_, filtered.mpr ⟨fed, whole⟩⟩
  rw [List.mem_singleton.mp member]
  rfl

/-- A byte that `send` does not take is lost, and so is one that the command puts out later. -/
theorem not_forwards_later :
    (forwardData (fun _ => 0) [twoBytes 1 (by decide)]).accepted ≠
        (forwardData (fun _ => 0) [twoBytes 1 (by decide)]).received ∧
      ∃ flow, forwardDataExt 0 0 (fun _ => 0) [twoBytesExt 1 (by decide)] = .ok flow ∧
        cat.Answers [twoBytesExt 1 (by decide)] ∧ flow.accepted ≠ cat.whole flow.received :=
  ⟨by decide, _, rfl, cat_answers 1 (by decide), fun same => absurd same (by decide)⟩

end OpenwrtMisc.MicroProxy
