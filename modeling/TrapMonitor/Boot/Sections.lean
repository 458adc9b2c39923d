import TrapMonitor.Memory

/-! # Clearing and filling the sections of memory

Before anything else runs, the zero section is cleared word by word and the data section is
copied from its load image. A section that ends where it starts, or before, is empty.
-/
namespace TrapMonitor

/-- Where the sections are: first address and the address behind the last word. -/
structure Sections where
  zeroStart : Word
  zeroEnd : Word
  dataStart : Word
  dataEnd : Word
  image : Word
  deriving DecidableEq

namespace Sections

/-- How many words lie between two addresses, the last one counted even if it reaches beyond. -/
def wordsBetween (first last : Word) : Nat := (last.toNat - first.toNat + 3) / 4

def clear (m : Memory) (a : Word) : Nat → Memory
  | 0 => m
  | n + 1 => clear (m.setWord a 0) (a + 4) n

def copy (m : Memory) (target source : Word) : Nat → Memory
  | 0 => m
  | n + 1 => copy (m.setWord target (m.word source)) (target + 4) (source + 4) n

def setUp (s : Sections) (m : Memory) : Memory :=
  let m := clear m s.zeroStart (wordsBetween s.zeroStart s.zeroEnd)
  copy m s.dataStart s.image (wordsBetween s.dataStart s.dataEnd)

end Sections

end TrapMonitor
