import TrapMonitor.Hart
import TrapMonitor.Platform
import TrapMonitor.Log
import TrapMonitor.Machine.Frame

/-! # The machine a trap is handled with

The hart, the platform, the saved registers of the trapped code and what was logged so far.
The register file of the trapped code is spread out: `x0` is zero, `x2` waits in `mscratch`,
all others lie in the trap frame, whose slots 0 and 2 are not used.
-/
namespace TrapMonitor

structure Machine (H P F : Type) where
  hart : H
  platform : P
  frame : F
  /-- Records, oldest first. -/
  log : List Record

/-- A computation on a machine that can fail and then leaves the machine as it was at that point.
-/
abbrev Emulation (H P F α : Type) := EStateM EmulationError (Machine H P F) α

namespace Machine

variable {H P F : Type} [Hart H] [FrameStore H F]

/-- A register of the trapped code. -/
def register (m : Machine H P F) (r : Reg) : Word :=
  if r = Reg.zero then 0
  else if r = Reg.sp then Hart.readCsr .mscratch m.hart
  else FrameStore.slot m.frame m.hart r

/-- Changes a register of the trapped code; `x0` stays zero. -/
def setRegister (r : Reg) (v : Word) (m : Machine H P F) : Machine H P F :=
  if r = Reg.zero then m
  else if r = Reg.sp then { m with hart := Hart.writeCsr .mscratch v m.hart }
  else
    let s := FrameStore.setSlot r v m.frame m.hart
    { m with frame := s.1, hart := s.2 }

omit [Hart H] [FrameStore H F] in
def record (level : Level) (target message : String) (m : Machine H P F) : Machine H P F :=
  { m with log := m.log ++ [⟨level, target, message⟩] }

end Machine

namespace Emulation

variable {H P F α : Type}

/-- An access to the hart's memory; a fault ends the emulation. -/
def access (x : HartAccess H α) : Emulation H P F α := fun m =>
  match x m.hart with
  | .ok a h => .ok a { m with hart := h }
  | .error f h => .error (.fault f) { m with hart := h }

/-- A decision that may refuse to emulate. -/
def require (x : Except Unsupported α) : Emulation H P F α := fun m =>
  match x with
  | .ok a => .ok a m
  | .error u => .error (.unsupported u) m

/-- A use of the platform. -/
def device (f : P → α × P) : Emulation H P F α := fun m =>
  let r := f m.platform
  .ok r.1 { m with platform := r.2 }

def change (f : Machine H P F → Machine H P F) : Emulation H P F Unit := fun m => .ok () (f m)

def inspect (f : Machine H P F → α) : Emulation H P F α := fun m => .ok (f m) m

end Emulation

end TrapMonitor
