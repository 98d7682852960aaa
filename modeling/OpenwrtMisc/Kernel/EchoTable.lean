import Mathlib.Logic.Function.Basic

/-! The CAN layer's table of echo skbs, as far as its drivers rely on it. -/

namespace OpenwrtMisc

/--
What the drivers rely on of the echo slots that `alloc_candev` sets aside for a device.

The code behind the three calls belongs to the kernel and stays a parameter.
Storing into an occupied slot is left open, since no driver may count on it.
-/
structure EchoTable (Skb : Type) where
  /-- The state of all slots of one device. -/
  Slots : Type
  /-- The slots of a freshly allocated device. -/
  fresh : Slots
  /-- The skb that a slot holds. -/
  slot : Slots → Nat → Option Skb
  canPutEchoSkb : Skb → Nat → Slots → Slots
  canGetEchoSkb : Nat → Slots → Slots
  canFreeEchoSkb : Nat → Slots → Slots
  slot_fresh : ∀ i, slot fresh i = none
  slot_put : ∀ skb i slots j, slot slots i = none →
    slot (canPutEchoSkb skb i slots) j = if j = i then some skb else slot slots j
  slot_get : ∀ i slots j, slot (canGetEchoSkb i slots) j = if j = i then none else slot slots j
  slot_free : ∀ i slots j, slot (canFreeEchoSkb i slots) j = if j = i then none else slot slots j

/-- A table that is a function from slot numbers, which overwrites an occupied slot. -/
def EchoTable.ofFunction (Skb : Type) : EchoTable Skb where
  Slots := Nat → Option Skb
  fresh _ := none
  slot slots i := slots i
  canPutEchoSkb skb i slots := Function.update slots i (some skb)
  canGetEchoSkb i slots := Function.update slots i none
  canFreeEchoSkb i slots := Function.update slots i none
  slot_fresh _ := rfl
  slot_put _ _ _ _ _ := by simp only [Function.update_apply]
  slot_get _ _ _ := by simp only [Function.update_apply]
  slot_free _ _ _ := by simp only [Function.update_apply]

end OpenwrtMisc
