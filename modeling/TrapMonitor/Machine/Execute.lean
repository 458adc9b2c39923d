import TrapMonitor.Machine.Sbi

/-! # Performing operations

An operation changes memory, registers or devices as the hardware would have. A register is
written only after the last access that can fault. The reservation pair reads its word, says
that it is not emulated, and changes nothing.
-/
namespace TrapMonitor.Machine

open Emulation

variable {H P F : Type} [Hart H] [Platform P] [FrameStore H F]

def logEmulation (level : Level) (message : String) : Emulation H P F Unit :=
  change fun m => m.record level "emulator::emulate" message

def atAddress (a : Word) : String := Text.hexPadded 8 a.toNat

def executeLoad (kind : LoadKind) (rd : Reg) (a : Word) : Emulation H P F Unit := do
  let w ← access (Hart.readUnaligned a kind.size)
  logEmulation .trace ("emulated misaligned " ++ kind.name ++ " load from " ++ atAddress a)
  change fun m => m.setRegister rd (kind.extend w)

def executeStore (kind : StoreKind) (src : Reg) (a : Word) : Emulation H P F Unit := do
  let v ← inspect fun m => m.register src
  access (Hart.writeUnaligned a kind.size v)
  logEmulation .trace ("emulated misaligned " ++ kind.name ++ " store to " ++ atAddress a)

def executeAtomic (op : AmoOp) (rd addr src : Reg) : Emulation H P F Unit := do
  let a ← inspect fun m => m.register addr
  let operand ← inspect fun m => m.register src
  let old ← access (Hart.readWord a)
  match op.apply operand old with
  | some new =>
    access (Hart.writeWord a new)
    change fun m => m.setRegister rd old
    logEmulation .trace ("emulated " ++ op.name ++ " on " ++ atAddress a)
  | none =>
    logEmulation .warn (op.name ++ " on " ++ atAddress a ++ " is not emulated and was skipped")

def readCounter : CounterHalf → P → Word × P
  | .low => Platform.readLow
  | .high => Platform.readHigh

def executeCounterRead (half : CounterHalf) (rd : Reg) : Emulation H P F Unit := do
  let v ← device (readCounter half)
  logEmulation .trace
    ("emulated " ++ half.name ++ " counter read into Register(" ++ toString rd.toNat ++ ")")
  change fun m => m.setRegister rd v

def execute : Operation → Emulation H P F Unit
  | .unalignedLoad kind rd a => executeLoad kind rd a
  | .unalignedStore kind src a => executeStore kind src a
  | .atomic op rd addr src => executeAtomic op rd addr src
  | .counterRead half rd => executeCounterRead half rd
  | .sbi c => change (call c)

end TrapMonitor.Machine
