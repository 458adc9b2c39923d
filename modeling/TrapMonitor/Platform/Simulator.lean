import TrapMonitor.Platform
import TrapMonitor.Bus

/-! # A simulator's platform

Eight words at the top of the address space. Reading the console word gives the next
character or a negative number. The deadline is written in halves: its high half is first
parked at the end of time, so that no half-written deadline can be reached.
-/
namespace TrapMonitor

/-- The simulator's devices behind any bus. -/
structure SimulatorPlatform (D : Type) where
  words : D

namespace SimulatorPlatform

def base : Word := 0xffffffe0
def timeLow : Nat := 0
def timeHigh : Nat := 1
def compareLow : Nat := 2
def compareHigh : Nat := 3
def console : Nat := 6
def stop : Nat := 7

/-- How many words there are. -/
def size : Nat := 8

/-- The address of a word. -/
def address (i : Nat) : Word := base + BitVec.ofNat 32 (4 * i)

variable {D α : Type}

def onWords (x : StateM D α) (p : SimulatorPlatform D) : α × SimulatorPlatform D :=
  let r := x p.words
  (r.1, { p with words := r.2 })

variable [Bus D]

/-- What the console word says: a byte, or with the sign bit set that there is none. -/
def received (v : Word) : Option Byte := if v.msb then none else some (v.setWidth 8)

def readConsole : StateM D (Option Byte) := do
  let v ← Bus.read console
  return received v

def writeDeadline (low high : Word) : StateM D Unit := do
  Bus.write compareHigh 0xffffffff
  Bus.write compareLow low
  Bus.write compareHigh high

instance : Platform (SimulatorPlatform D) where
  tryRead := onWords readConsole
  write b p := (onWords (Bus.write console (b.setWidth 32)) p).2
  readLow := onWords (Bus.read timeLow)
  readHigh := onWords (Bus.read timeHigh)
  writeCompare low high p := (onWords (writeDeadline low high) p).2
  halt p := (onWords (Bus.write stop 0) p).2

end SimulatorPlatform

end TrapMonitor
