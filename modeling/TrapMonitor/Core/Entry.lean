import TrapMonitor.Core.Barrier
import TrapMonitor.Platform.Soc
import TrapMonitor.Trap
import TrapMonitor.Trap.Info

/-! # Entering and leaving a trap

While other code runs, `mscratch` holds the address of the trap frame. The entry exchanges
it with the stack pointer, saves all other registers in the frame, calls the handler on the
stack below the frame, loads the registers again and exchanges back, so that the next trap
finds the frame in its place. A fault of the entry itself starts it over, with the two
exchanged once more: the registers are then saved where the stack pointer led.
-/
namespace TrapMonitor

namespace Core

/-- The registers that the frame holds; the stack pointer is in `mscratch`. -/
def savedRegs : List Reg := (List.range 32).filterMap fun i =>
  if i = 0 ∨ i = 2 then none else some (BitVec.ofNat 5 i)

/-- Where a register is in the frame. -/
def slotOffset (r : Reg) : Word := 4 * r.setWidth 32

def saveRegs : List Instr := savedRegs.map fun r => .store .word r (slotOffset r) .sp

def loadRegs : List Instr := savedRegs.map fun r => .load .word r (slotOffset r) .sp

def exchangeStack : Instr := .csrExchange .sp .mscratch .sp

def entryCode : Code :=
  ⟨trapEntry, [exchangeStack] ++ saveRegs ++ [.move .a0 .sp, .call .trapHandler] ++ loadRegs ++
    [exchangeStack, .mret]⟩

/-- A frame in the machine's RAM, known by its address. -/
structure FrameAddress where
  address : Word
  deriving DecidableEq

namespace FrameAddress

/-- Where the slot of a register is. -/
def slotAt (f : FrameAddress) (r : Reg) : Word := f.address + slotOffset r

/-- The slots of two registers share no byte. -/
theorem slotAt_disjoint (f : FrameAddress) {r x : Reg} (hx : x ≠ r) (i j : Nat) (hj : j < 4)
    (hi : i < 4) : f.slotAt x + BitVec.ofNat 32 j ≠ f.slotAt r + BitVec.ofNat 32 i := by
  intro he
  have hn : x.toNat ≠ r.toNat := fun h => hx (BitVec.eq_of_toNat_eq h)
  have hr := r.isLt
  have hl := x.isLt
  rw [slotAt, slotAt, BitVec.add_assoc, BitVec.add_assoc, BitVec.add_right_inj] at he
  have h4 : (4 : Word).toNat = 4 := rfl
  have ht := congrArg BitVec.toNat he
  simp only [slotOffset, BitVec.toNat_add, BitVec.toNat_mul, BitVec.toNat_setWidth,
    BitVec.toNat_ofNat, h4] at ht
  omega

instance : FrameStore Core FrameAddress where
  slot f c r := c.ram.word (f.slotAt r)
  setSlot r v f c := (f, c.setRam (c.ram.setWord (f.slotAt r) v))
  slot_setSlot_self r v f c := by
    rw [ram_setRam]
    exact c.ram.word_setWord_self (f.slotAt r) v
  slot_setSlot_of_ne _ _ v f c hx := by
    rw [ram_setRam]
    exact c.ram.word_setWord_of_disjoint _ _ v fun j hj i hi => f.slotAt_disjoint hx i j hj hi

end FrameAddress

/-- The registers that a called function need not preserve. -/
def callerSaved : List Reg := [1, 5, 6, 7, 10, 11, 12, 13, 14, 15, 16, 17, 28, 29, 30, 31]

/-- A called function leaves anything in the registers that it need not preserve. -/
def scramble (leftovers : Reg → Word) (c : Core) : Core :=
  callerSaved.foldl (fun c r => c.setReg r (leftovers r)) c

end Core

/-- A core with the devices of a system on a chip. -/
structure Board (U T F : Type) where
  core : Core
  platform : SocPlatform U T F
  /-- Records, oldest first. -/
  log : List Record

namespace Board

variable {U T F : Type} [Bus U] [Bus T] [Bus F]

/-- How a trap ends. -/
inductive TrapEnd where
  | returned
  | halted
  /-- A device that never becomes ready is still waited for. -/
  | waiting
  /-- The trap vector did not point to the trap entry. -/
  | elsewhere
  /-- The trap entry itself went wrong. -/
  | lost
  deriving DecidableEq

omit [Bus U] [Bus T] [Bus F] in
def machine (b : Board U T F) (frame : Word) :
    Machine Core (SocPlatform U T F) Core.FrameAddress := ⟨b.core, b.platform, ⟨frame⟩, b.log⟩

/-- The last words before the machine stops: the reason, and the trap that led to it. -/
def halt (reason : Unsupported) (m : Machine Core (SocPlatform U T F) Core.FrameAddress) :
    Board U T F :=
  let m := m.record .error "emulator::arch::entry" ("halting the machine: " ++ reason.message)
  let m := m.record .error "emulator::arch::entry" (TrapInfo.current m.hart).report.block
  ⟨m.hart, Platform.halt m.platform, m.log⟩

/-- The handler as the trap entry calls it, with the address of the frame as its argument. -/
def handler (leftovers : Reg → Word) (b : Board U T F) : TrapEnd × Board U T F :=
  let (outcome, m) := (b.machine (b.core.reg .a0)).handleTrap
  match outcome with
  | .halted reason => (.halted, halt reason m)
  | _ =>
    let e := if Platform.waits m.platform then .waiting else .returned
    (e, ⟨m.hart.scramble leftovers, m.platform, m.log⟩)

/-- Runs the trap entry from the program counter up to its return. A register that cannot be loaded
from the frame is a trap of its own, for which the handler is called again. -/
def serve (leftovers : Reg → Word) : Nat → Board U T F → TrapEnd × Board U T F
  | 0, b => (.lost, b)
  | calls + 1, b =>
    match Core.entryCode.run b.core with
    | (.called .trapHandler, c) =>
      match handler leftovers { b with core := c } with
      | (.returned, b) => serve leftovers calls b
      | (e, b) => (e, b)
    | (.returned, c) => (.returned, { b with core := c })
    | (_, c) => (.lost, { b with core := c })

/-- Enough for the trap, as many faults of the entry as it has passes, and the return. -/
def maxCalls : Nat := Code.passes + 2

/-- Takes a trap and handles it. -/
def raise (leftovers : Reg → Word) (cause tval : Word) (b : Board U T F) : TrapEnd × Board U T F :=
  let b := { b with core := b.core.trap cause tval }
  if b.core.pc = Core.trapEntry then serve leftovers maxCalls b else (.elsewhere, b)

end Board

end TrapMonitor
