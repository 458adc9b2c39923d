/-! # A register in plain memory

A cell of some width keeps what is written to it. Arithmetic on it wraps at its width.
-/
namespace TrapMonitor

structure Cell (w : Nat) where
  value : BitVec w
  deriving DecidableEq

namespace Cell

variable {w : Nat}

def read (c : Cell w) : BitVec w := c.value

def write (v : BitVec w) (_ : Cell w) : Cell w := ⟨v⟩

/-- Reads the cell and writes back the sum. -/
def increase (v : BitVec w) (c : Cell w) : Cell w := c.write (c.read + v)

@[simp] theorem read_write (v : BitVec w) (c : Cell w) : (c.write v).read = v := rfl

end Cell

end TrapMonitor
