import TrapMonitor.Bus.SplitRegister

/-! # The machine timer

A running 64-bit counter and a deadline. Both pass between the timer and its words only when
the latch is written: the counter is latched before it is read, and a deadline after all its
bytes are in place.
-/
namespace TrapMonitor.Timer

def latch : SplitRegister := ⟨0, 1⟩
def time : SplitRegister := ⟨1, 8⟩
def timeCompare : SplitRegister := ⟨9, 8⟩

/-- How many words the device has. -/
def size : Nat := 17

variable {D : Type} [Bus D]

def readTime : StateM D DoubleWord := do
  latch.write 1
  time.read

def readLow : StateM D Word := do
  let t ← readTime
  return DoubleWord.low t

def readHigh : StateM D Word := do
  let t ← readTime
  return DoubleWord.high t

def writeCompare (deadline : DoubleWord) : StateM D Unit := do
  timeCompare.write deadline
  latch.write 1

end TrapMonitor.Timer
