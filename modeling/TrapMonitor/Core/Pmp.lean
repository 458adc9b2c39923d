import TrapMonitor.Text.FlagSet

/-! # Physical memory protection

The bits of a protection entry give permissions, the way addresses are matched, and a lock.
-/
namespace TrapMonitor

namespace PmpBits

def read : Word := 0x1
def write : Word := 0x2
def execute : Word := 0x4
def napot : Word := 0x18
def lock : Word := 0x80

/-- Reading, writing and executing anywhere. -/
def allMemory : Word := napot ||| read ||| write ||| execute

def flags : Text.FlagSet where
  name := "PmpFlags"
  flags := [⟨"R", read⟩, ⟨"W", write⟩, ⟨"X", execute⟩, ⟨"NAPOT", napot⟩, ⟨"L", lock⟩]

end PmpBits

end TrapMonitor
