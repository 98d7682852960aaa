import OpenwrtMisc.Mcp25xxfd.Clock
import OpenwrtMisc.Mcp25xxfd.Gpio

/-! The register CAN_CON of the mcp25xxfd and the driver's copy of it, over the changes of mode. -/

namespace OpenwrtMisc.Mcp25xxfd

open BitMask

/-- The bits of CAN_CON that `mcp25xxfd_setup` chooses. -/
def canConIsocrcen : BitVec 32 := bit 5
def canConRtxat : BitVec 32 := bit 16
def canConStef : BitVec 32 := bit 19
def canConTxbwsShift : Nat := 28
/-- The setup also uses the bit above the three of `CAN_CON_TXBWS_MASK`. -/
def canConTxbws : BitVec 32 := span 28 4
def canConOpmodMask : BitVec 32 := span 21 3

/-- The modes that the driver asks for, or returns from. -/
def canConModeMixed : Fin 8 := 0
def canConModeListenonly : Fin 8 := 3
def canConModeExternalLoopback : Fin 8 := 5
def canConModeCan20 : Fin 8 := 6
def canConModeRestricted : Fin 8 := 7

/-- The bits of `priv->can.ctrlmode` that decide on CAN_CON. -/
structure CtrlMode where
  loopback : Bool
  listenonly : Bool
  fd : Bool
  fdNonIso : Bool
  oneShot : Bool
  deriving DecidableEq, Repr

/-- The copy that the driver keeps, with the rest of its clock state, and the register itself. -/
structure ConState where
  clock : ClockState
  chipCon : BitVec 32

/-- The value that `mcp25xxfd_setup` writes to CAN_CON. -/
def setupCon (ctrlmode : CtrlMode) (bwSharingLog2bits : Nat) : BitVec 32 :=
  let con := canConStef
  let bwSharingLog2bits := if bwSharingLog2bits > 12 then 12 else bwSharingLog2bits
  let con := con ||| BitVec.ofNat 32 bwSharingLog2bits <<< canConTxbwsShift
  let con := if !ctrlmode.fdNonIso then con ||| canConIsocrcen else con
  let con := if ctrlmode.oneShot then con ||| canConRtxat else con
  con ||| (BitVec.ofNat 32 canConModeConfig <<< canConReqopShift |||
    BitVec.ofNat 32 canConModeConfig <<< canConOpmodShift)

/-- `mcp25xxfd_set_opmode`, with the byte of CAN_CON that it writes. -/
def ConState.setOpmode (mode : Fin 8) (state : ConState) : ConState :=
  let clock := (Mcp25xxfd.setOpmode mode (.ok ()) state.clock).1
  { clock := clock
    chipCon := (cmdWriteMask true state.chipCon clock.regsCon canConReqopMask).2 }

/-- The mode in a word of CAN_CON. -/
def opmod (con : BitVec 32) : BitVec 3 := con.extractLsb' canConOpmodShift 3
def reqop (con : BitVec 32) : BitVec 3 := con.extractLsb' canConReqopShift 3

/-- `mcp25xxfd_get_opmode` of a controller that is in this mode. -/
def ConState.getOpmode (mode : Fin 8) (state : ConState) : ConState :=
  let value := blend canConOpmodMask state.chipCon (BitVec.ofNat 32 mode <<< canConOpmodShift)
  let regsCon := (cmdReadMask true value canConOpmodMask state.clock.regsCon).2
  { state with
    clock := { state.clock with
      regsCon := regsCon
      activeCanMode := ((regsCon &&& canConOpmodMask) >>> canConOpmodShift).toNat } }

/-- The mode that `mcp25xxfd_set_normal_opmode` chooses. -/
def CtrlMode.normalMode (ctrlmode : CtrlMode) : Fin 8 :=
  if ctrlmode.loopback then canConModeExternalLoopback
  else if ctrlmode.listenonly then canConModeListenonly
  else if ctrlmode.fd then canConModeMixed
  else canConModeCan20

/-- `mcp25xxfd_set_normal_opmode`. -/
def ConState.setNormalOpmode (ctrlmode : CtrlMode) (state : ConState) : ConState :=
  state.setOpmode ctrlmode.normalMode

/--
`mcp25xxfd_can_ist_handle_modif` of a controller that is in this mode.

All modes but the restricted one are only reported, or passed over.
-/
def ConState.handleModif (ctrlmode : CtrlMode) (mode : Fin 8) (state : ConState) : ConState :=
  let state := state.getOpmode mode
  if state.clock.activeCanMode = canConModeRestricted then state.setNormalOpmode ctrlmode else state

/-- The calls after the setup, with the mode that the controller is in. -/
inductive ConLabel where
  | setOpmode (mode : Fin 8)
  | getOpmode (mode : Fin 8)
  | handleModif (mode : Fin 8)
  | setNormalOpmode
  deriving DecidableEq, Repr

/-- One call, in which every transfer succeeds. -/
def conStep (ctrlmode : CtrlMode) (state : ConState) : ConLabel → ConState
  | .setOpmode mode => state.setOpmode mode
  | .getOpmode mode => state.getOpmode mode
  | .handleModif mode => state.handleModif ctrlmode mode
  | .setNormalOpmode => state.setNormalOpmode ctrlmode

/-- The driver when `mcp25xxfd_setup` has written CAN_CON, whatever else its clock state is. -/
def ConState.setUp (ctrlmode : CtrlMode) (bwSharingLog2bits : Nat) (clock : ClockState) :
    ConState where
  clock := { clock with regsCon := setupCon ctrlmode bwSharingLog2bits }
  chipCon := setupCon ctrlmode bwSharingLog2bits

/-- The calls after the setup. -/
def conMachine (ctrlmode : CtrlMode) (bwSharingLog2bits : Nat) (clock : ClockState) :
    Machine ConState ConLabel where
  start := .setUp ctrlmode bwSharingLog2bits clock
  step state label := some (conStep ctrlmode state label)

/-- The bits that the setup has chosen. -/
def canConChosen : BitVec 32 := canConStef ||| canConTxbws ||| canConRtxat ||| canConIsocrcen

/-- The chosen bits stand as they were written, in the copy and in the register. -/
structure ConKept (con : BitVec 32) (state : ConState) : Prop where
  regs : AgreeOn canConChosen state.clock.regsCon con
  chip : AgreeOn canConChosen state.chipCon con

/-- The copy says that this mode is requested and active. -/
structure ModeIs (mode : Fin 8) (state : ConState) : Prop where
  reqop : reqop state.clock.regsCon = BitVec.ofFin mode
  opmod : opmod state.clock.regsCon = BitVec.ofFin mode
  active : state.clock.activeCanMode = mode

/-- The mode that a call sets last, if it sets one. -/
def ConLabel.sets (ctrlmode : CtrlMode) : ConLabel → Option (Fin 8)
  | .setOpmode mode => some mode
  | .getOpmode _ => none
  | .handleModif mode => if mode = canConModeRestricted then some ctrlmode.normalMode else none
  | .setNormalOpmode => some ctrlmode.normalMode

/-- What is expected of a call. -/
structure ConSound (ctrlmode : CtrlMode) (bwSharingLog2bits : Nat) (label : ConLabel)
    (next : ConState) : Prop where
  kept : ConKept (setupCon ctrlmode bwSharingLog2bits) next
  mode : ∀ mode, label.sets ctrlmode = some mode → ModeIs mode next

/-- Adding a mode to the one that the copy already shows gives that mode. -/
def Absorbs (mode : Fin 8) (state : ConState) : Prop :=
  opmod state.clock.regsCon ||| BitVec.ofFin mode = BitVec.ofFin mode

/-- The setup has chosen neither of the settings whose bytes a read of the mode leaves out. -/
def NothingOutside (ctrlmode : CtrlMode) (bwSharingLog2bits : Nat) : Prop :=
  ctrlmode.fdNonIso = true ∧ bwSharingLog2bits = 0

/--
The calls that the code handles as expected.

A mode is set only over a mode whose bits it has; the mode is read only when no setting lies in
the other bytes, and not in an interrupt that finds the controller restricted.
-/
def ConFits (ctrlmode : CtrlMode) (bwSharingLog2bits : Nat) (state : ConState) : ConLabel → Prop
  | .setOpmode mode => Absorbs mode state
  | .getOpmode _ => NothingOutside ctrlmode bwSharingLog2bits
  | .handleModif mode => NothingOutside ctrlmode bwSharingLog2bits ∧ mode ≠ canConModeRestricted
  | .setNormalOpmode => Absorbs ctrlmode.normalMode state

/-- The word that `mcp25xxfd_set_opmode` makes of the copy. -/
def withMode (mode : Fin 8) (con : BitVec 32) : BitVec 32 :=
  con &&& ~~~canConReqopMask ||| BitVec.ofNat 32 mode <<< canConReqopShift |||
    BitVec.ofNat 32 mode <<< canConOpmodShift

/-- The requested mode is replaced, and the active one only added; the settings stay. -/
theorem withMode_fields (mode : Fin 8) (con : BitVec 32) :
    reqop (withMode mode con) = BitVec.ofFin mode ∧
      opmod (withMode mode con) = opmod con ||| BitVec.ofFin mode ∧
      AgreeOn canConChosen (withMode mode con) con := by
  -- What the three parts put into a field does not depend on the word, but for the copy itself.
  have shifted : ∀ mode : Fin 8,
      (BitVec.ofNat 32 mode <<< canConReqopShift).extractLsb' canConReqopShift 3 =
          BitVec.ofFin mode ∧
        (BitVec.ofNat 32 mode <<< canConOpmodShift).extractLsb' canConReqopShift 3 = 0#3 ∧
        (BitVec.ofNat 32 mode <<< canConReqopShift).extractLsb' canConOpmodShift 3 = 0#3 ∧
        (BitVec.ofNat 32 mode <<< canConOpmodShift).extractLsb' canConOpmodShift 3 =
          BitVec.ofFin mode ∧
        BitVec.ofNat 32 mode <<< canConReqopShift &&& canConChosen = 0#32 ∧
        BitVec.ofNat 32 mode <<< canConOpmodShift &&& canConChosen = 0#32 := by
    decide
  have masks : (~~~canConReqopMask).extractLsb' canConReqopShift 3 = 0#3 ∧
      (~~~canConReqopMask).extractLsb' canConOpmodShift 3 = BitVec.allOnes 3 ∧
      ~~~canConReqopMask &&& canConChosen = canConChosen := by
    decide
  obtain ⟨reqopReqop, opmodReqop, reqopOpmod, opmodOpmod, reqopChosen, opmodChosen⟩ := shifted mode
  obtain ⟨cleared, left, chosen⟩ := masks
  refine ⟨?_, ?_, ?_⟩
  · rw [reqop, withMode, BitVec.extractLsb'_or, BitVec.extractLsb'_or, BitVec.extractLsb'_and,
      cleared, reqopReqop, opmodReqop, BitVec.and_zero, BitVec.zero_or, BitVec.or_zero]
  · rw [opmod, withMode, BitVec.extractLsb'_or, BitVec.extractLsb'_or, BitVec.extractLsb'_and,
      left, reqopOpmod, opmodOpmod, BitVec.and_allOnes, BitVec.or_zero]
    rfl
  · rw [AgreeOn, withMode, BitVec.and_or_distrib_right, BitVec.and_or_distrib_right, reqopChosen,
      opmodChosen, BitVec.or_zero, BitVec.or_zero, BitVec.and_assoc, chosen]

/-- A write of the requested mode takes the byte that it writes from the copy. -/
theorem setOpmode_eq (mode : Fin 8) (state : ConState) :
    (state.setOpmode mode).clock.regsCon = withMode mode state.clock.regsCon ∧
      (state.setOpmode mode).clock.activeCanMode = mode ∧
      (state.setOpmode mode).chipCon =
        blend (span 24 8) state.chipCon (withMode mode state.clock.regsCon) := by
  -- The requested mode lies in the highest byte, which is all that is written.
  have byte : transferred canConReqopMask = span 24 8 := by decide
  have some : canConReqopMask ≠ 0 := by decide
  have regs : (state.setOpmode mode).clock.regsCon = withMode mode state.clock.regsCon := by
    simp only [ConState.setOpmode, Mcp25xxfd.setOpmode]
    split <;> rfl
  have active : (state.setOpmode mode).clock.activeCanMode = mode := by
    simp only [ConState.setOpmode, Mcp25xxfd.setOpmode]
    split <;> rfl
  refine ⟨regs, active, ?_⟩
  show (cmdWriteMask true state.chipCon (state.setOpmode mode).clock.regsCon canConReqopMask).2 = _
  rw [cmdWriteMask_register some, if_pos rfl, byte, regs]

/-- Words that agree are blended to a word that agrees with both. -/
theorem agreeOn_blend {mask part first second word : BitVec 32} (one : AgreeOn mask first word)
    (other : AgreeOn mask second word) : AgreeOn mask (blend part first second) word := by
  -- Bit by bit, each comes from one of the two words.
  rw [agreeOn_iff] at one other ⊢
  intro i set
  rw [getLsbD_blend]
  split
  · exact other i set
  · exact one i set

/-- Setting a mode keeps the settings, and sets it when the mode absorbs the one before. -/
theorem setOpmode_spec {con : BitVec 32} {state : ConState} (kept : ConKept con state)
    (mode : Fin 8) :
    ConKept con (state.setOpmode mode) ∧
      (ModeIs mode (state.setOpmode mode) ↔ Absorbs mode state) := by
  obtain ⟨regs, active, chip⟩ := setOpmode_eq mode state
  obtain ⟨requested, added, settings⟩ := withMode_fields mode state.clock.regsCon
  -- The settings stay in the copy, and the byte that is written takes them from there.
  have copied : AgreeOn canConChosen (withMode mode state.clock.regsCon) con :=
    settings.trans kept.regs
  refine ⟨⟨by rw [regs]; exact copied, by rw [chip]; exact agreeOn_blend kept.chip copied⟩, ?_⟩
  constructor
  · intro is
    have shown := is.opmod
    rw [regs, added] at shown
    exact shown
  · intro absorbs
    exact ⟨by rw [regs]; exact requested, by rw [regs, added]; exact absorbs, active⟩

/-- The settings that lie in the byte that is read with the mode, and those that do not. -/
def canConInside : BitVec 32 := canConStef ||| canConRtxat
def canConOutside : BitVec 32 := canConTxbws ||| canConIsocrcen

/-- The chosen bits of a word lie inside the byte when none lies outside. -/
theorem inside_iff (con : BitVec 32) :
    con &&& canConChosen &&& canConInside = con &&& canConChosen ↔ con &&& canConOutside = 0 := by
  -- The chosen bits are those inside the byte and those outside, and no bit is both.
  have parts : canConChosen &&& canConOutside = canConOutside ∧
      canConInside &&& canConOutside = 0#32 ∧ canConChosen &&& canConInside = canConInside ∧
      canConChosen = canConInside ||| canConOutside := by
    decide
  obtain ⟨outside, apart, inside, both⟩ := parts
  constructor
  · intro same
    calc con &&& canConOutside
        = con &&& canConChosen &&& canConOutside := by rw [BitVec.and_assoc, outside]
      _ = con &&& canConChosen &&& canConInside &&& canConOutside := by rw [same]
      _ = 0 := by rw [BitVec.and_assoc, apart, BitVec.and_zero]; rfl
  · intro none
    have only : con &&& canConChosen = con &&& canConInside := by
      rw [both, BitVec.and_or_distrib_left, none]
      exact BitVec.or_zero
    rw [BitVec.and_assoc, inside, only]

/-- A read of the mode leaves nothing in the copy but the byte of the mode. -/
theorem getOpmode_spec {con : BitVec 32} {state : ConState} (kept : ConKept con state)
    (mode : Fin 8) :
    (ConKept con (state.getOpmode mode) ↔ con &&& canConOutside = 0) ∧
      opmod (state.getOpmode mode).clock.regsCon = BitVec.ofFin mode ∧
      (state.getOpmode mode).clock.activeCanMode = mode := by
  have some : canConOpmodMask ≠ 0 := by decide
  -- The mode lies in the third byte, and the read clears all others in the copy.
  have byte : transferred canConOpmodMask = span 16 8 := by decide
  have regs : (state.getOpmode mode).clock.regsCon =
      (state.chipCon &&& ~~~canConOpmodMask |||
        BitVec.ofNat 32 mode <<< canConOpmodShift &&& canConOpmodMask) &&& span 16 8 := by
    show (cmdReadMask true (blend canConOpmodMask state.chipCon
      (BitVec.ofNat 32 mode <<< canConOpmodShift)) canConOpmodMask state.clock.regsCon).2 = _
    rw [cmdReadMask, if_neg some, if_pos rfl, byte]
    rfl
  -- What comes from the mode that the controller is in.
  have shown : ∀ mode : Fin 8,
      (BitVec.ofNat 32 mode <<< canConOpmodShift &&& canConOpmodMask) &&& span 16 8 &&&
          canConOpmodMask = BitVec.ofNat 32 mode <<< canConOpmodShift ∧
        (BitVec.ofNat 32 mode <<< canConOpmodShift &&& canConOpmodMask) &&& span 16 8 &&&
          canConChosen = 0#32 ∧
        ((BitVec.ofNat 32 mode <<< canConOpmodShift &&& canConOpmodMask) &&&
          span 16 8).extractLsb' canConOpmodShift 3 = BitVec.ofFin mode ∧
        (BitVec.ofNat 32 mode <<< canConOpmodShift >>> canConOpmodShift : BitVec 32).toNat =
          mode := by
    decide
  -- What comes from the rest of the register.
  have masks : ~~~canConOpmodMask &&& span 16 8 &&& canConOpmodMask = 0#32 ∧
      ~~~canConOpmodMask &&& span 16 8 &&& canConChosen = canConChosen &&& canConInside ∧
      (~~~canConOpmodMask &&& span 16 8).extractLsb' canConOpmodShift 3 = 0#3 := by
    decide
  obtain ⟨masked, settings, field, number⟩ := shown mode
  obtain ⟨maskedChip, settingsChip, fieldChip⟩ := masks
  have left : (state.getOpmode mode).clock.regsCon &&& canConChosen =
      con &&& canConChosen &&& canConInside := by
    rw [regs, BitVec.and_or_distrib_right, BitVec.and_or_distrib_right, settings, BitVec.or_zero,
      BitVec.and_assoc, BitVec.and_assoc, ← BitVec.and_assoc (~~~canConOpmodMask), settingsChip,
      ← BitVec.and_assoc, show state.chipCon &&& canConChosen = _ from kept.chip]
  refine ⟨?_, ?_, ?_⟩
  · have keeps : ConKept con (state.getOpmode mode) ↔
        con &&& canConChosen &&& canConInside = con &&& canConChosen :=
      ⟨fun all => left.symm.trans all.regs, fun same => ⟨left.trans same, kept.chip⟩⟩
    rw [keeps]
    exact inside_iff con
  · rw [opmod, regs, BitVec.and_or_distrib_right, BitVec.extractLsb'_or, field, BitVec.and_assoc,
      BitVec.extractLsb'_and, fieldChip, BitVec.and_zero, BitVec.zero_or]
  · show (((state.getOpmode mode).clock.regsCon &&& canConOpmodMask) >>> canConOpmodShift).toNat = _
    rw [regs, BitVec.and_or_distrib_right, BitVec.and_or_distrib_right, masked, BitVec.and_assoc,
      BitVec.and_assoc, ← BitVec.and_assoc (~~~canConOpmodMask), maskedChip, BitVec.and_zero,
      BitVec.zero_or, number]

/-- The setup chooses settings outside the byte of the mode, unless it is told otherwise. -/
theorem setupCon_outside (ctrlmode : CtrlMode) (bwSharingLog2bits : Nat) :
    setupCon ctrlmode bwSharingLog2bits &&& canConOutside = 0 ↔
      NothingOutside ctrlmode bwSharingLog2bits := by
  -- There are few settings to try once the bandwidth is limited.
  have limited : (if bwSharingLog2bits > 12 then 12 else bwSharingLog2bits) < 13 := by
    split <;> omega
  have zero : (if bwSharingLog2bits > 12 then 12 else bwSharingLog2bits) = 0 ↔
      bwSharingLog2bits = 0 := by
    split <;> omega
  have table : ∀ fdNonIso oneShot : Bool, ∀ bw < 13,
      setupCon ⟨false, false, false, fdNonIso, oneShot⟩ bw &&& canConOutside = 0 ↔
        fdNonIso = true ∧ bw = 0 := by
    decide
  -- The setup depends on two of the control modes, and on the bandwidth up to its limit.
  have same : setupCon ctrlmode bwSharingLog2bits =
      setupCon ⟨false, false, false, ctrlmode.fdNonIso, ctrlmode.oneShot⟩
        (if bwSharingLog2bits > 12 then 12 else bwSharingLog2bits) := by
    have again : (if (if bwSharingLog2bits > 12 then 12 else bwSharingLog2bits) > 12 then 12
        else if bwSharingLog2bits > 12 then 12 else bwSharingLog2bits) =
          if bwSharingLog2bits > 12 then 12 else bwSharingLog2bits :=
      if_neg (by omega)
    simp only [setupCon, again]
  rw [same, table ctrlmode.fdNonIso ctrlmode.oneShot _ limited, zero]
  rfl

/-- The interrupt of a mode change returns to the normal mode from the restricted one only. -/
theorem handleModif_eq (ctrlmode : CtrlMode) (mode : Fin 8) {con : BitVec 32} {state : ConState}
    (kept : ConKept con state) :
    state.handleModif ctrlmode mode =
      if mode = canConModeRestricted then (state.getOpmode mode).setOpmode ctrlmode.normalMode
      else state.getOpmode mode := by
  -- The mode was just read, so it is the active one.
  have active := (getOpmode_spec kept mode).2.2
  simp only [ConState.handleModif, active]
  by_cases restricted : mode = canConModeRestricted
  · rw [if_pos (congrArg Fin.val restricted), if_pos restricted]
    rfl
  · rw [if_neg fun same => restricted (Fin.ext same), if_neg restricted]

/-- The restricted mode has bits that no normal mode has. -/
theorem restricted_not_absorbed (ctrlmode : CtrlMode) :
    (BitVec.ofFin canConModeRestricted : BitVec 3) ||| BitVec.ofFin ctrlmode.normalMode ≠
      BitVec.ofFin ctrlmode.normalMode := by
  -- The restricted mode has all three bits set.
  have modes : ∀ mode : Fin 8, mode ≠ canConModeRestricted →
      (BitVec.ofFin canConModeRestricted : BitVec 3) ||| BitVec.ofFin mode ≠
        BitVec.ofFin mode := by
    decide
  apply modes
  unfold CtrlMode.normalMode
  split
  · decide
  · split
    · decide
    · split <;> decide

/-- A call keeps what is expected of it exactly when it fits, after calls that did. -/
theorem conStep_sound_iff {ctrlmode : CtrlMode} {bwSharingLog2bits : Nat} {state : ConState}
    (kept : ConKept (setupCon ctrlmode bwSharingLog2bits) state) (label : ConLabel) :
    ConSound ctrlmode bwSharingLog2bits label (conStep ctrlmode state label) ↔
      ConFits ctrlmode bwSharingLog2bits state label := by
  -- A call that only sets a mode keeps the settings in any case.
  have sets (mode : Fin 8) (label : ConLabel) (only : label.sets ctrlmode = some mode) :
      ConSound ctrlmode bwSharingLog2bits label (state.setOpmode mode) ↔ Absorbs mode state := by
    obtain ⟨settings, set⟩ := setOpmode_spec kept mode
    rw [← set]
    constructor
    · intro sound
      exact sound.mode mode only
    · intro is
      refine ⟨settings, fun other asked => ?_⟩
      rw [only, Option.some.injEq] at asked
      exact asked ▸ is
  have reads (mode : Fin 8) := getOpmode_spec kept mode
  cases label with
  | setOpmode mode => exact sets mode _ rfl
  | setNormalOpmode => exact sets ctrlmode.normalMode _ rfl
  | getOpmode mode =>
    show _ ↔ NothingOutside ctrlmode bwSharingLog2bits
    rw [← setupCon_outside, ← (reads mode).1]
    exact ⟨ConSound.kept, fun settings => ⟨settings, fun other asked => nomatch asked⟩⟩
  | handleModif mode =>
    show ConSound _ _ _ (state.handleModif ctrlmode mode) ↔
      NothingOutside ctrlmode bwSharingLog2bits ∧ mode ≠ canConModeRestricted
    rw [handleModif_eq ctrlmode mode kept]
    by_cases restricted : mode = canConModeRestricted
    · -- The copy shows the restricted mode, and adding the normal one does not change that.
      rw [if_pos restricted]
      refine iff_of_false (fun sound => ?_) fun both => both.2 restricted
      have is := sound.mode ctrlmode.normalMode (if_pos restricted)
      have shown := is.opmod
      rw [(setOpmode_eq _ _).1, (withMode_fields _ _).2.1, (reads mode).2.1, restricted] at shown
      exact restricted_not_absorbed ctrlmode shown
    · rw [if_neg restricted, ← setupCon_outside, ← (reads mode).1]
      constructor
      · intro sound
        exact ⟨sound.kept, restricted⟩
      · intro both
        refine ⟨both.1, fun other asked => ?_⟩
        rw [show ConLabel.sets ctrlmode (.handleModif mode) = none from if_neg restricted] at asked
        cases asked

/--
The settings and the modes stand as expected over a run just when every call of it fits.

The run is any sequence of the calls after the setup, for any control modes and bandwidth.
-/
theorem conSound_iff_fits (ctrlmode : CtrlMode) (bwSharingLog2bits : Nat) (clock : ClockState)
    (labels : List ConLabel) :
    (conMachine ctrlmode bwSharingLog2bits clock).Along
        (fun _ label next => ConSound ctrlmode bwSharingLog2bits label next)
        (.setUp ctrlmode bwSharingLog2bits clock) labels ↔
      (conMachine ctrlmode bwSharingLog2bits clock).Along
        (fun state label _ => ConFits ctrlmode bwSharingLog2bits state label)
        (.setUp ctrlmode bwSharingLog2bits clock) labels := by
  -- Each label has one step.
  have step {state next : ConState} {label : ConLabel}
      (stepped : (conMachine ctrlmode bwSharingLog2bits clock).step state label = some next) :
      next = conStep ctrlmode state label := (Option.some.inj stepped).symm
  -- As long as all calls fit, the settings stand in the copy and in the register.
  apply Machine.along_iff_condition
    (fun state label next (kept : ConKept (setupCon ctrlmode bwSharingLog2bits) state) fits
      stepped => ?_)
    (fun state label next kept sound stepped => ?_)
  · exact ⟨rfl, rfl⟩
  · have sound := (conStep_sound_iff kept label).mpr fits
    rw [← step stepped] at sound
    exact ⟨sound.kept, sound⟩
  · rw [step stepped] at sound
    exact (conStep_sound_iff kept label).mp sound

/-- The copy shows the mode of the setup, although another one was set. -/
theorem setMixedMode_not_sound :
    ¬ ∀ (ctrlmode : CtrlMode) (bwSharingLog2bits : Nat) (clock : ClockState)
      (labels : List ConLabel),
      (conMachine ctrlmode bwSharingLog2bits clock).Along
        (fun _ label next => ConSound ctrlmode bwSharingLog2bits label next)
        (.setUp ctrlmode bwSharingLog2bits clock) labels := by
  -- The run is one call that sets the mixed mode.
  intro claim
  have along := claim ⟨false, false, true, false, false⟩ 0 (ClockState.probed 0 0)
    [.setNormalOpmode]
  have is := (along _ rfl).1.mode canConModeMixed rfl
  exact absurd is.opmod (by decide)

end OpenwrtMisc.Mcp25xxfd
