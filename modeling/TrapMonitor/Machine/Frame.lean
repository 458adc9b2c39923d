import TrapMonitor.Word

/-! # Where trapped registers are saved

The registers of the trapped code wait in a trap frame, one slot for each number. A frame
may be a table of its own, or lie in the memory of the hart, where other accesses can reach
it as well. Either way a slot keeps what is written to it, and writing one leaves the others
alone.
-/
namespace TrapMonitor

/-- A way to keep saved registers: beside a hart `H`, in a value `F`, or in both. -/
class FrameStore (H F : Type) where
  slot : F → H → Reg → Word
  setSlot : Reg → Word → F → H → F × H
  slot_setSlot_self (r : Reg) (v : Word) (f : F) (h : H) :
    slot (setSlot r v f h).1 (setSlot r v f h).2 r = v
  slot_setSlot_of_ne (r x : Reg) (v : Word) (f : F) (h : H) (hx : x ≠ r) :
    slot (setSlot r v f h).1 (setSlot r v f h).2 x = slot f h x

/-- A frame apart from all memory. -/
structure Frame where
  slot : Reg → Word

namespace Frame

def zero : Frame := ⟨fun _ => 0⟩

def set (f : Frame) (r : Reg) (v : Word) : Frame := ⟨fun x => if x = r then v else f.slot x⟩

theorem slot_set (f : Frame) (r x : Reg) (v : Word) :
    (f.set r v).slot x = if x = r then v else f.slot x := rfl

@[simp] theorem slot_set_self (f : Frame) (r : Reg) (v : Word) : (f.set r v).slot r = v := by
  simp [slot_set]

theorem slot_set_of_ne (f : Frame) {r x : Reg} (v : Word) (h : x ≠ r) :
    (f.set r v).slot x = f.slot x := by simp [slot_set, h]

instance (H : Type) : FrameStore H Frame where
  slot f _ := f.slot
  setSlot r v f h := (f.set r v, h)
  slot_setSlot_self r v f _ := f.slot_set_self r v
  slot_setSlot_of_ne _ _ v f _ hx := f.slot_set_of_ne v hx

end Frame

end TrapMonitor
