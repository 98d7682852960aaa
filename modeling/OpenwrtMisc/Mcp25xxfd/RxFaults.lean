import OpenwrtMisc.Mcp25xxfd.RxRead

/-! Passes over the receive FIFOs in which transfers fail: what is queued is what is released. -/

namespace OpenwrtMisc.Mcp25xxfd

open BitMask

/-- Behind the read of its header, nothing fails any more for a FIFO of the simple loop. -/
def Completes (config : RxConfig) (outcome : ReadOutcome) (ram : Nat → UInt8) (fifo : Nat) : Prop :=
  (config.length ram fifo > fifoMinPayloadSize → outcome.extra fifo = true) ∧
    outcome.release fifo = true

/-- The first transfer of the simple loop that fails, if one does, is the read of a header. -/
def SimplePassFits (config : RxConfig) (outcome : ReadOutcome) (ram : Nat → UInt8)
    (rxif : BitVec 32) : Prop :=
  ∀ fifo, rxif.getLsbD fifo = true →
    (∀ other, fifo < other → rxif.getLsbD other = true → outcome.read other = true) →
    outcome.read fifo = true → Completes config outcome ram fifo

/-- A range of FIFOs of a mask that goes as far as it can. -/
structure IsRange (rxif : BitVec 32) (start stop : Nat) : Prop where
  nonempty : start < stop
  inside : ∀ fifo, start ≤ fifo → fifo < stop → rxif.getLsbD fifo = true
  below : ∀ fifo, fifo + 1 = start → rxif.getLsbD fifo = false
  above : rxif.getLsbD stop = false

/-- All releases of a range succeed. -/
def Releases (useBulkReleaseFifos : Bool) (outcome : ReadOutcome) (start stop : Nat) : Prop :=
  if useBulkReleaseFifos then outcome.bulkRelease start = true
  else ∀ fifo, start ≤ fifo → fifo < stop → outcome.release fifo = true

/--
Where the fast loop releases a range one by one, either the first release fails or none does.

This is asked for only of the ranges that the loop gets to, and that it could read.
-/
def BulkPassFits (useBulkReleaseFifos : Bool) (outcome : ReadOutcome) (rxif : BitVec 32) : Prop :=
  useBulkReleaseFifos = false → ∀ start stop, IsRange rxif start stop →
    (∀ first last, stop < first → IsRange rxif first last →
      outcome.read first = true ∧ Releases useBulkReleaseFifos outcome first last) →
    outcome.read start = true →
    outcome.release start = false ∨ Releases useBulkReleaseFifos outcome start stop

variable {config : RxConfig} {outcome : ReadOutcome} {ram : Nat → UInt8}
  {before state : RxState} {done : List Nat} {rxif : BitVec 32}

/-- A release one by one depends on the transfers for the FIFOs of its range only. -/
theorem normalReleaseFifos_congr {first second : Nat → Bool} {start stop : Nat}
    (same : ∀ fifo, start ≤ fifo → fifo < stop → first fifo = second fifo) (sfr : Sfr) :
    normalReleaseFifos first start stop sfr = normalReleaseFifos second start stop sfr := by
  -- The induction follows the loop, which leaves the range from its lower end.
  induction remaining : stop - start generalizing start sfr with
  | zero =>
    have empty : ¬ start < stop := by omega
    rw [normalReleaseFifos, if_neg empty, normalReleaseFifos, if_neg empty]
  | succ count ih =>
    have nonempty : start < stop := by omega
    have here := same start (Nat.le_refl start) nonempty
    have further : ∀ next, normalReleaseFifos first (start + 1) stop next =
        normalReleaseFifos second (start + 1) stop next :=
      fun next => ih (fun fifo low high => same fifo (by omega) high) next (by omega)
    conv_lhs => rw [normalReleaseFifos, if_pos nonempty, here]
    conv_rhs => rw [normalReleaseFifos, if_pos nonempty]
    dsimp only
    rw [further]

/-- A release one by one whose first transfer fails releases nothing. -/
theorem normalReleaseFifos_first {release : Nat → Bool} {start stop : Nat} (nonempty : start < stop)
    (fails : release start = false) (sfr : Sfr) :
    normalReleaseFifos release start stop sfr = (-eio, sfr) := by
  -- The loop is left in its first round.
  have failed : sfr.cmdWriteMask (release start) (fifocon start) fifoconUinc fifoconUinc =
      (-eio, sfr) := by
    rw [fails]
    rfl
  rw [normalReleaseFifos, if_pos nonempty, failed]
  rfl

/-- A round of the simple loop whose header cannot be read changes nothing. -/
theorem readFifo_unread {fifo : Nat} (unread : outcome.read fifo = false) :
    readFifo config outcome ram fifo state = (-eio, state) := by
  simp only [readFifo, unread, Bool.false_eq_true, if_false]

/-- A round of the simple loop in which nothing fails. -/
theorem readFifo_complete {fifo : Nat} (read : outcome.read fifo = true)
    (complete : Completes config outcome ram fifo) :
    readFifo config outcome ram fifo state = readFifo config .good ram fifo state := by
  obtain ⟨extra, release⟩ := complete
  -- The header that was read has the length that the RAM says.
  have header : Loaded ram (config.fifoAddress fifo) sizeofObjTs
      (cmdReadn ram (fifoData (config.fifoAddress fifo)) (config.fifoAddress fifo) fifoMinSize
        state.queued).fifoData := by
    intro other above below
    have sizes := fifoMinSize_eq
    exact loaded_patch ram _ fifoMinSize state.queued.fifoData other above (by omega)
  have capped : min (config.table.canDlc2len (headerOf ram (config.fifoAddress fifo)).dlc)
      (if config.fd = true then 64 else 8) = config.length ram fifo := by
    rw [RxConfig.length, config.payload]
  have never : ∀ more : Prop, ¬ (more ∧ true = false) := fun _ both => Bool.noConfusion both.2
  have unfailed : ¬ (config.length ram fifo > fifoMinPayloadSize ∧ outcome.extra fifo = false) := by
    intro both
    rw [extra both.1] at both
    exact Bool.noConfusion both.2
  have released : ∀ sfr, normalReleaseFifos outcome.release fifo (fifo + 1) sfr =
      normalReleaseFifos (fun _ => true) fifo (fifo + 1) sfr := by
    intro sfr
    refine normalReleaseFifos_congr (fun other low high => ?_) sfr
    obtain rfl : other = fifo := by omega
    exact release
  simp only [readFifo, ReadOutcome.good, read, if_true, transformRx_eq config.table header, capped]
  rw [if_neg unfailed, if_neg (never _), released]

/-- A round of the fast loop either fetches its whole range or leaves all of it alone. -/
theorem Fetched.bulkReadFifoRange_faults (fetched : Fetched config ram before done state)
    (useBulkReleaseFifos : Bool) {start stop : Nat} (range : RxRange config.split start stop)
    (fresh : ∀ fifo, start ≤ fifo → fifo < stop → fifo ∉ done)
    (fits : useBulkReleaseFifos = false → outcome.read start = true →
      outcome.release start = false ∨ Releases useBulkReleaseFifos outcome start stop) :
    ∃ ret next,
      Mcp25xxfd.bulkReadFifoRange config useBulkReleaseFifos outcome ram start stop state =
        (ret, next) ∧
      (ret = 0 ∧ outcome.read start = true ∧ Releases useBulkReleaseFifos outcome start stop ∧
          Fetched config ram before (done ++ List.range' start (stop - start)) next ∨
        ret ≠ 0 ∧ Fetched config ram before done next) := by
  -- The read fails before anything is queued, or the release decides on what is returned.
  obtain ⟨processed, released⟩ := fetched
  have failed : -eio ≠ 0 := by decide
  cases read : outcome.read start with
  | false =>
    refine ⟨-eio, state, ?_, Or.inr ⟨failed, processed, released⟩⟩
    simp only [Mcp25xxfd.bulkReadFifoRange, read, Bool.false_eq_true, if_false]
  | true =>
    by_cases releases : Releases useBulkReleaseFifos outcome start stop
    · -- With all releases the round is the one in which nothing fails.
      obtain ⟨next, good, fetched⟩ :=
        (Fetched.mk processed released).bulkReadFifoRange useBulkReleaseFifos range fresh
      refine ⟨0, next, ?_, Or.inl ⟨rfl, rfl, releases, fetched⟩⟩
      rw [← good]
      unfold Releases at releases
      cases useBulkReleaseFifos with
      | true =>
        simp only [if_true] at releases
        simp only [Mcp25xxfd.bulkReadFifoRange, ReadOutcome.good, read, releases, if_true]
      | false =>
        simp only [Bool.false_eq_true, if_false] at releases
        have same : ∀ sfr, normalReleaseFifos outcome.release start stop sfr =
            normalReleaseFifos (fun _ => true) start stop sfr := normalReleaseFifos_congr releases
        simp only [Mcp25xxfd.bulkReadFifoRange, ReadOutcome.good, read, same, if_true,
          Bool.false_eq_true, if_false]
    · -- Without them nothing is released, and what was read is not queued.
      have unreleased : (if useBulkReleaseFifos then
            bulkReleaseFifos (outcome.bulkRelease start) config.split start stop state.sfr
          else normalReleaseFifos outcome.release start stop state.sfr) = (-eio, state.sfr) := by
        cases useBulkReleaseFifos with
        | true =>
          have fails : outcome.bulkRelease start = false := by
            rw [Releases, if_pos rfl] at releases
            exact (Bool.not_eq_true _).mp releases
          rw [if_pos rfl, fails]
          rfl
        | false =>
          have fails := (fits rfl read).resolve_right releases
          rw [if_neg Bool.false_ne_true]
          exact normalReleaseFifos_first range.2.1 fails state.sfr
      refine ⟨-eio, _, ?_, Or.inr ⟨failed, processed.transfer range fresh state.sfr, released⟩⟩
      simp only [Mcp25xxfd.bulkReadFifoRange, read, if_true, unreleased]
      rfl

/-- What a pass over receive FIFOs has done when it ends, early or not. -/
structure Passed (config : RxConfig) (ram : Nat → UInt8) (rxif : BitVec 32) (before : RxState)
    (all : List Nat) (after : RxState) : Prop where
  nodup : all.Nodup
  named : ∀ fifo ∈ all, rxif.getLsbD fifo = true
  fetched : Fetched config ram before all after

/-- One more FIFO of the mask is passed. -/
theorem Passed.concat {fifo : Nat} {after : RxState}
    (passed : Passed config ram rxif before done state) (fresh : fifo ∉ done)
    (set : rxif.getLsbD fifo = true) (fetched : Fetched config ram before (done ++ [fifo]) after) :
    Passed config ram rxif before (done ++ [fifo]) after where
  nodup := nodup_concat passed.nodup fresh
  named other member := by
    -- Each FIFO is one of the old ones or the new one.
    rcases List.mem_append.mp member with old | new
    · exact passed.named other old
    · rw [List.mem_singleton.mp new]
      exact set
  fetched := fetched

/-- A range of FIFOs of the mask is passed. -/
theorem Passed.range {start stop : Nat} {after : RxState}
    (passed : Passed config ram rxif before done state)
    (fresh : ∀ fifo, start ≤ fifo → fifo < stop → fifo ∉ done)
    (set : ∀ fifo, start ≤ fifo → fifo < stop → rxif.getLsbD fifo = true)
    (fetched : Fetched config ram before (done ++ List.range' start (stop - start)) after) :
    Passed config ram rxif before (done ++ List.range' start (stop - start)) after where
  nodup := nodup_range passed.nodup fresh
  named fifo member := by
    -- Each FIFO is one of the old ones or one of the range.
    rcases List.mem_append.mp member with old | new
    · exact passed.named fifo old
    · rw [List.mem_range'_1] at new
      exact set fifo new.1 (by omega)
  fetched := fetched

/-- What holds of the simple loop at an index, as long as it goes on. -/
structure SimplePassing (config : RxConfig) (outcome : ReadOutcome) (ram : Nat → UInt8)
    (rxif : BitVec 32) (before : RxState) (n : Nat) (done : List Nat) (state : RxState) :
    Prop where
  small : n < 32
  reads : ∀ fifo, n < fifo → rxif.getLsbD fifo = true → outcome.read fifo = true
  above : ∀ fifo ∈ done, n < fifo
  passed : Passed config ram rxif before done state

/-- A clear bit leaves everything as it is. -/
theorem SimplePassing.clear {n : Nat}
    (inv : SimplePassing config outcome ram rxif before (n + 1) done state)
    (clear : rxif.getLsbD (n + 1) = false) :
    SimplePassing config outcome ram rxif before n done state where
  small := Nat.lt_of_succ_lt inv.small
  reads fifo high named := by
    -- The FIFO at the index is not one of the mask.
    have different : fifo ≠ n + 1 := fun same => by simp [same, clear] at named
    exact inv.reads fifo (by omega) named
  above fifo member := Nat.lt_of_succ_lt (inv.above fifo member)
  passed := inv.passed

/-- A FIFO whose header can be read is queued and released. -/
theorem SimplePassing.set {n : Nat}
    (inv : SimplePassing config outcome ram rxif before (n + 1) done state)
    (contained : Subset rxif config.split.rxFifoMask)
    (fits : SimplePassFits config outcome ram rxif) (set : rxif.getLsbD (n + 1) = true)
    (read : outcome.read (n + 1) = true) :
    ∃ next, readFifo config outcome ram (n + 1) state = (0, next) ∧
      SimplePassing config outcome ram rxif before n (done ++ [n + 1]) next := by
  -- With its header read, nothing fails any more for the FIFO.
  have complete := fits (n + 1) set inv.reads read
  have fresh : n + 1 ∉ done := fun member => Nat.lt_irrefl _ (inv.above (n + 1) member)
  obtain ⟨next, good, fetched⟩ :=
    inv.passed.fetched.readFifo (RxConfig.rx_of_mask contained set) fresh
  refine ⟨next, (readFifo_complete read complete).trans good, Nat.lt_of_succ_lt inv.small, ?_, ?_,
    inv.passed.concat fresh set fetched⟩
  · intro fifo high named
    by_cases same : fifo = n + 1
    · rw [same]
      exact read
    · exact inv.reads fifo (by omega) named
  · intro fifo member
    rcases List.mem_append.mp member with old | new
    · exact Nat.lt_of_succ_lt (inv.above fifo old)
    · rw [List.mem_singleton.mp new]
      exact Nat.lt_succ_self n

/-- The simple loop ends, and what it has queued by then is what it has released. -/
theorem readFifosLoop_passed (contained : Subset rxif config.split.rxFifoMask)
    (fits : SimplePassFits config outcome ram rxif) :
    ∀ (n : Nat) (done : List Nat) (state : RxState),
      SimplePassing config outcome ram rxif before n done state →
      ∃ ret next all,
        (∀ fuel, n < fuel →
          readFifosLoop config outcome ram rxif fuel (n : Int) state = some (ret, next)) ∧
        Passed config ram rxif before all next := by
  -- The induction goes down with the index, as long as all headers can be read.
  intro n
  induction n with
  | zero =>
    intro done state inv
    exact ⟨0, state, done, fun _ enough => readFifosLoop_ended inv.small config.behindTef enough,
      inv.passed⟩
  | succ n ih =>
    intro done state inv
    by_cases last : n + 1 < config.split.rxFifoStart
    · exact ⟨0, state, done, fun _ enough => readFifosLoop_ended inv.small last enough, inv.passed⟩
    · have inside := Nat.le_of_not_lt last
      cases set : rxif.getLsbD (n + 1) with
      | false =>
        obtain ⟨ret, next, all, ran, passed⟩ := ih done state (inv.clear set)
        refine ⟨ret, next, all, fun fuel enough => ?_, passed⟩
        obtain ⟨fuel, rfl⟩ : ∃ rest, fuel = rest + 1 := ⟨fuel - 1, by omega⟩
        rw [readFifosLoop_clear inv.small inside set]
        exact ran fuel (by omega)
      | true =>
        cases read : outcome.read (n + 1) with
        | false =>
          -- Without its header the FIFO is neither queued nor released, and the loop is left.
          refine ⟨-eio, state, done, fun fuel enough => ?_, inv.passed⟩
          obtain ⟨fuel, rfl⟩ : ∃ rest, fuel = rest + 1 := ⟨fuel - 1, by omega⟩
          rw [readFifosLoop_set inv.small inside set (readFifo_unread read), if_pos (by decide)]
        | true =>
          obtain ⟨after, good, kept⟩ := inv.set contained fits set read
          obtain ⟨ret, next, all, ran, passed⟩ := ih (done ++ [n + 1]) after kept
          refine ⟨ret, next, all, fun fuel enough => ?_, passed⟩
          obtain ⟨fuel, rfl⟩ : ∃ rest, fuel = rest + 1 := ⟨fuel - 1, by omega⟩
          rw [readFifosLoop_set inv.small inside set good, if_neg (not_not.mpr rfl)]
          exact ran fuel (by omega)

/-- Two ranges of one mask do not overlap, so one that starts inside the other is the other. -/
theorem IsRange.eq_of_inside {start stop first last : Nat} (range : IsRange rxif start stop)
    (other : IsRange rxif first last) (low : start ≤ first) (high : first < stop) :
    first = start ∧ last = stop := by
  -- Both ends of a range are followed by clear bits, which no range contains.
  have same : first = start := by
    by_contra different
    -- The FIFO below the inner start belongs to the outer range.
    have clear := other.below (first - 1) (by omega)
    rw [range.inside (first - 1) (by omega) (by omega)] at clear
    cases clear
  subst same
  refine ⟨rfl, ?_⟩
  rcases Nat.lt_trichotomy last stop with shorter | equal | longer
  · have clear := other.above
    have nonempty := other.nonempty
    rw [range.inside last (by omega) shorter] at clear
    cases clear
  · exact equal
  · have clear := range.above
    rw [other.inside stop (Nat.le_of_lt high) longer] at clear
    cases clear

/-- What holds of the fast loop at an index, as long as it goes on. -/
structure BulkPassing (config : RxConfig) (useBulkReleaseFifos : Bool) (outcome : ReadOutcome)
    (ram : Nat → UInt8) (rxif : BitVec 32) (before : RxState) (i : Int) (mask : BitVec 32)
    (done : List Nat) (state : RxState) : Prop where
  low : -1 ≤ i
  small : i < 32
  masked : ∀ fifo : Nat, mask.getLsbD fifo = true ↔ rxif.getLsbD fifo = true ∧ (fifo : Int) ≤ i
  /-- No range goes on above the index. -/
  edge : ∀ fifo : Nat, (fifo : Int) = i + 1 → rxif.getLsbD fifo = false
  succeeded : ∀ first last : Nat, i < first → IsRange rxif first last →
    outcome.read first = true ∧ Releases useBulkReleaseFifos outcome first last
  above : ∀ fifo ∈ done, i < fifo
  passed : Passed config ram rxif before done state

namespace BulkPassing

variable {useBulkReleaseFifos : Bool} {n : Nat} {mask : BitVec 32}

/-- The rest of the mask is one of receive FIFOs. -/
theorem contained {i : Int}
    (inv : BulkPassing config useBulkReleaseFifos outcome ram rxif before i mask done state)
    (contained : Subset rxif config.split.rxFifoMask) : Subset mask config.split.rxFifoMask :=
  subset_iff.mpr fun fifo set => subset_iff.mp contained fifo ((inv.masked fifo).mp set).1

/-- Up to the index the rest of the mask has the bits of the mask. -/
theorem clear_of_clear {fifo : Nat} {i : Int}
    (inv : BulkPassing config useBulkReleaseFifos outcome ram rxif before i mask done state)
    (clear : mask.getLsbD fifo = false) (below : (fifo : Int) ≤ i) :
    rxif.getLsbD fifo = false := by
  -- A bit of the mask would be one of the rest.
  rw [← Bool.not_eq_true] at clear ⊢
  exact fun bit => clear ((inv.masked fifo).mpr ⟨bit, below⟩)

/-- A clear bit leaves everything as it is, as no range contains it. -/
theorem clear
    (inv : BulkPassing config useBulkReleaseFifos outcome ram rxif before (n : Int) mask done state)
    (clear : mask.getLsbD n = false) :
    BulkPassing config useBulkReleaseFifos outcome ram rxif before ((n : Int) - 1) mask done
      state := by
  -- The FIFO at the index is in no range and not in the mask, so all bounds go down by one.
  have unset : rxif.getLsbD n = false := inv.clear_of_clear clear (Int.le_refl _)
  have small := inv.small
  refine ⟨by omega, by omega, ?_, ?_, ?_, ?_, inv.passed⟩
  · intro fifo
    rw [inv.masked fifo]
    refine and_congr_right fun bit => ?_
    have different : fifo ≠ n := fun same => by simp [same, unset] at bit
    omega
  · intro fifo next
    obtain rfl : fifo = n := by omega
    exact unset
  · intro first last behind range
    -- A range that begins at the index would have its bit.
    have bit := range.inside first (Nat.le_refl _) range.nonempty
    have different : first ≠ n := fun same => by simp [same, unset] at bit
    exact inv.succeeded first last (by omega) range
  · intro fifo member
    have above := inv.above fifo member
    omega

/-- The FIFOs that the inner loop takes are those of a range that goes as far as it can. -/
theorem isRange {next : Nat} {rest : BitVec 32}
    (inv : BulkPassing config useBulkReleaseFifos outcome ram rxif before (n : Int) mask done state)
    (taken : TakenRange config.split mask next n rest) : IsRange rxif (next + 1) (n + 1) := by
  -- It ends at a clear bit, and above it is where the round before has ended.
  have lower := taken.range.2.1
  refine ⟨lower, fun fifo low high => ?_, fun fifo below => ?_, inv.edge (n + 1) (by omega)⟩
  · exact ((inv.masked fifo).mp (taken.passed fifo (by omega) (by omega))).1
  · obtain rfl : fifo = next := by omega
    exact inv.clear_of_clear taken.ends (by omega)

/-- The FIFOs of a range that is taken are not done yet. -/
theorem fresh {next : Nat}
    (inv : BulkPassing config useBulkReleaseFifos outcome ram rxif before (n : Int) mask done state)
    (fifo : Nat) (_ : next + 1 ≤ fifo) (stop : fifo < n + 1) : fifo ∉ done := by
  -- All that is done lies above the index.
  intro member
  have above := inv.above fifo member
  omega

/-- A range that is fetched goes on below the clear bit that ended it. -/
theorem range {next : Nat} {rest : BitVec 32} {after : RxState}
    (inv : BulkPassing config useBulkReleaseFifos outcome ram rxif before (n : Int) mask done state)
    (taken : TakenRange config.split mask next n rest) (read : outcome.read (next + 1) = true)
    (releases : Releases useBulkReleaseFifos outcome (next + 1) (n + 1))
    (fetched : Fetched config ram before
      (done ++ List.range' (next + 1) (n + 1 - (next + 1))) after) :
    BulkPassing config useBulkReleaseFifos outcome ram rxif before ((next : Int) - 1) rest
      (done ++ List.range' (next + 1) (n + 1 - (next + 1))) after := by
  -- The range is the highest one that is left, and is added to those that have succeeded.
  have whole := inv.isRange taken
  have lower := whole.nonempty
  have small := inv.small
  have unset : rxif.getLsbD next = false := whole.below next rfl
  refine ⟨by omega, by omega, ?_, ?_, ?_, ?_,
    inv.passed.range inv.fresh (fun fifo low high => whole.inside fifo low high) fetched⟩
  · intro fifo
    rw [taken.left fifo, inv.masked fifo, and_assoc]
    refine and_congr_right fun bit => ?_
    have different : fifo ≠ next := fun same => by simp [same, unset] at bit
    omega
  · intro fifo here
    obtain rfl : fifo = next := by omega
    exact unset
  · -- A range above the new index is the one that was just fetched, or one above that.
    intro first last behind other
    have bit := other.inside first (Nat.le_refl _) other.nonempty
    have different : first ≠ next := fun same => by simp [same, unset] at bit
    have past : first ≠ n + 1 := fun same => by
      rw [same, whole.above] at bit
      cases bit
    by_cases higher : n < first
    · exact inv.succeeded first last (by omega) other
    · obtain ⟨rfl, rfl⟩ := whole.eq_of_inside other (by omega) (by omega)
      exact ⟨read, releases⟩
  · intro fifo member
    rcases List.mem_append.mp member with old | new
    · have above := inv.above fifo old
      omega
    · rw [List.mem_range'_1] at new
      omega

end BulkPassing

/-- The fast loop ends, and what it has queued by then is what it has released. -/
theorem bulkReadFifosLoop_passed (contained : Subset rxif config.split.rxFifoMask)
    (useBulkReleaseFifos : Bool) (fits : BulkPassFits useBulkReleaseFifos outcome rxif) :
    ∀ (bound : Nat) (i : Int) (mask : BitVec 32) (done : List Nat) (state : RxState),
      i + 1 < bound →
      BulkPassing config useBulkReleaseFifos outcome ram rxif before i mask done state →
      ∃ ret next all,
        (∀ fuel ≥ bound, bulkReadFifosLoop config useBulkReleaseFifos outcome ram fuel i mask
          state = some (ret, next)) ∧
        Passed config ram rxif before all next := by
  intro bound
  -- The induction is on the rounds, of which each one goes below a clear bit.
  induction bound with
  | zero =>
    intro i mask done state rounds inv
    have low := inv.low
    omega
  | succ bound ih =>
    intro i mask done state rounds inv
    have round : ∀ fuel ≥ bound + 1, ∃ rest, fuel = rest + 1 ∧ rest ≥ bound :=
      fun fuel enough => ⟨fuel - 1, by omega, by omega⟩
    by_cases empty : mask = 0
    · subst empty
      refine ⟨0, state, done, fun fuel enough => ?_, inv.passed⟩
      obtain ⟨fuel, rfl, _⟩ := round fuel enough
      exact bulkReadFifosLoop_empty fuel i
    · obtain ⟨n, rfl, inside⟩ := RxConfig.index_of_mask (inv.contained contained) empty
        fun fifo set => ((inv.masked fifo).mp set).2
      have small := inv.small
      cases set : mask.getLsbD n with
      | false =>
        obtain ⟨ret, next, all, ran, passed⟩ := ih _ mask done state (by omega) (inv.clear set)
        refine ⟨ret, next, all, fun fuel enough => ?_, passed⟩
        obtain ⟨fuel, rfl, remaining⟩ := round fuel enough
        rw [bulkReadFifosLoop_clear empty (by omega) inside set]
        exact ran fuel remaining
      | true =>
        obtain ⟨next, rest, taken, step⟩ := bulkReadFifosLoop_set (inv.contained contained) set
        have whole := inv.isRange taken
        have lower := whole.nonempty
        obtain ⟨ret, after, ran, fetched⟩ :=
          inv.passed.fetched.bulkReadFifoRange_faults useBulkReleaseFifos taken.range inv.fresh
            fun single read => fits single (next + 1) (n + 1) whole
              (fun first last behind other => inv.succeeded first last (by omega) other) read
        rcases fetched with ⟨rfl, read, releases, fetched⟩ | ⟨failed, fetched⟩
        · -- The range is fetched, and the next round starts below the bit that ended it.
          obtain ⟨ret, last, all, ran', passed⟩ :=
            ih _ rest _ after (by omega) (inv.range taken read releases fetched)
          refine ⟨ret, last, all, fun fuel enough => ?_, passed⟩
          obtain ⟨fuel, rfl, remaining⟩ := round fuel enough
          rw [step ran fuel (by omega), if_neg (not_not.mpr rfl)]
          exact ran' fuel remaining
        · -- The loop is left with what the rounds before have fetched.
          refine ⟨ret, after, done, fun fuel enough => ?_, inv.passed.nodup, inv.passed.named,
            fetched⟩
          obtain ⟨fuel, rfl, remaining⟩ := round fuel enough
          rw [step ran fuel (by omega), if_pos failed]

/-- What holds before the first round of either loop. -/
theorem Passed.nil (config : RxConfig) (ram : Nat → UInt8) (rxif : BitVec 32) (before : RxState) :
    Passed config ram rxif before [] before where
  nodup := List.nodup_nil
  named _ member := absurd member List.not_mem_nil
  fetched := ⟨Processed.nil config ram before, [], (List.append_nil _).symm, List.Perm.refl []⟩

/-- The index that both loops start from is that of the last receive FIFO. -/
theorem RxConfig.top_eq (config : RxConfig) :
    ∃ top : Nat, (config.split.rxFifoStart : Int) + config.split.rxFifos - 1 = (top : Int) ∧
      top < 32 ∧ top + 1 = config.split.rxFifoStart + config.split.rxFifos := by
  -- There is a receive FIFO, so the index is not negative.
  have inMask := config.split.inMask
  have first := config.split.rxFirst
  have behind := config.behindTef
  exact ⟨config.split.rxFifoStart + config.split.rxFifos - 1, by omega, by omega, by omega⟩

/-- A pass of the simple loop queues what it releases, when it fails at a header if it fails. -/
theorem readFifos_passed (contained : Subset rxif config.split.rxFifoMask)
    (fits : SimplePassFits config outcome ram rxif) (before : RxState) :
    ∃ ret next all,
      (∀ fuel > 33, readFifos config outcome ram rxif fuel before = some (ret, next)) ∧
      Passed config ram rxif before all next := by
  -- The loop starts at the highest bit of the FIFOs, with nothing passed so far.
  obtain ⟨top, index, small, last⟩ := config.top_eq
  obtain ⟨ret, next, all, ran, passed⟩ :=
    readFifosLoop_passed contained fits top [] before ⟨small, fun fifo high named => by
        have below := (RxConfig.rx_of_mask contained named).2
        omega,
      fun _ member => absurd member List.not_mem_nil, Passed.nil config ram rxif before⟩
  refine ⟨ret, next, all, fun fuel enough => ?_, passed⟩
  rw [readFifos, index]
  exact ran fuel (by omega)

/-- A pass of the fast loop queues what it releases, when no range is released in part. -/
theorem bulkReadFifos_passed (contained : Subset rxif config.split.rxFifoMask)
    (useBulkReleaseFifos : Bool) (fits : BulkPassFits useBulkReleaseFifos outcome rxif)
    (before : RxState) :
    ∃ ret next all,
      (∀ fuel > 33, bulkReadFifos config useBulkReleaseFifos outcome ram rxif fuel before =
        some (ret, next)) ∧
      Passed config ram rxif before all next := by
  obtain ⟨top, index, small, last⟩ := config.top_eq
  -- Above the last receive FIFO the mask has no bit, and so no range.
  have outside : ∀ fifo : Nat, (top : Int) < fifo → rxif.getLsbD fifo = false := by
    intro fifo high
    rw [← Bool.not_eq_true]
    intro named
    have below := (RxConfig.rx_of_mask contained named).2
    omega
  have start : BulkPassing config useBulkReleaseFifos outcome ram rxif before (top : Int) rxif []
      before := by
    refine ⟨by omega, by omega, fun fifo => ⟨fun named => ⟨named, ?_⟩, fun both => both.1⟩,
      fun fifo next => outside fifo (by omega), fun first last high range => ?_,
      fun _ member => absurd member List.not_mem_nil, Passed.nil config ram rxif before⟩
    · have below := (RxConfig.rx_of_mask contained named).2
      omega
    · have named := range.inside first (Nat.le_refl _) range.nonempty
      rw [outside first high] at named
      cases named
  obtain ⟨ret, next, all, ran, passed⟩ :=
    bulkReadFifosLoop_passed contained useBulkReleaseFifos fits 34 top rxif [] before (by omega)
      start
  refine ⟨ret, next, all, fun fuel enough => ?_, passed⟩
  rw [bulkReadFifos, index]
  exact ran fuel (by omega)

end OpenwrtMisc.Mcp25xxfd
