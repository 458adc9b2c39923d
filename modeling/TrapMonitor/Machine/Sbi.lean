import TrapMonitor.Machine
import TrapMonitor.Isa.Operation
import TrapMonitor.Trap.Bits

/-! # Calls of the supervisor binary interface

Arguments come in `a0` and `a1`, a result goes back in `a0`. Setting the timer arms the
machine timer interrupt and takes back a supervisor timer interrupt that is still pending.
Each call makes one record, and what becomes of it is up to a listener: it is kept, or it goes
out at once.
-/
namespace TrapMonitor.Machine

variable {H P F : Type} [Hart H] [Platform P] [FrameStore H F]

def sbiRecord (message : String) : Record := ⟨.trace, "emulator::sbi", message⟩

def setTimerRecord (low high : Word) : Record :=
  sbiRecord ("sbi set_timer(" ++ Text.hex (DoubleWord.ofHalves low high).toNat ++ ")")

def putcharRecord (b : Byte) : Record :=
  sbiRecord ("sbi console_putchar(" ++ Text.hexPadded 2 b.toNat ++ ")")

def getcharRecord (result : Word) : Record :=
  sbiRecord ("sbi console_getchar() = " ++ toString result.toInt)

section Calls

variable (note : Record → Machine H P F → Machine H P F)

def setTimer (m : Machine H P F) : Machine H P F :=
  let low := m.register .a0
  let high := m.register .a1
  let m := note (setTimerRecord low high) m
  let m := { m with platform := Platform.writeCompare low high m.platform }
  let m := { m with hart := Hart.setCsr .mie InterruptBits.machineTimer m.hart }
  { m with hart := Hart.clearCsr .sip InterruptBits.supervisorTimer m.hart }

def consolePutchar (m : Machine H P F) : Machine H P F :=
  let b : Byte := (m.register .a0).setWidth 8
  let m := note (putcharRecord b) m
  { m with platform := Platform.write b m.platform }

/-- The result of asking for a character: the byte, or all ones when there is none. -/
def getcharResult : Option Byte → Word
  | some b => b.setWidth 32
  | none => 0xffffffff

def consoleGetchar (m : Machine H P F) : Machine H P F :=
  let (received, platform) := Platform.tryRead m.platform
  let result := getcharResult received
  let m := { m with platform := platform }
  let m := note (getcharRecord result) m
  m.setRegister .a0 result

def callNoting : SbiCall → Machine H P F → Machine H P F
  | .setTimer => setTimer note
  | .consolePutchar => consolePutchar note
  | .consoleGetchar => consoleGetchar note

end Calls

omit [Hart H] [Platform P] [FrameStore H F] in
/-- The record is kept. -/
def keep (r : Record) (m : Machine H P F) : Machine H P F := m.record r.level r.target r.message

def call : SbiCall → Machine H P F → Machine H P F := callNoting keep

/-- The record goes to the console at once, if the logger lets it through. -/
def say (l : Logger) (r : Record) (m : Machine H P F) : Machine H P F :=
  { m with platform := l.emit Platform.write r m.platform }

end TrapMonitor.Machine
