import TrapMonitor.Bus

/-! # A block with a status word that is late

The device answers busy the first time its status word is read, and is ready from then on.
The words at the moment at which it became ready are kept.
-/
namespace TrapMonitor

structure PolledBlock where
  block : Block
  /-- Which word is the status. -/
  status : Nat
  /-- Whether a status value says busy. -/
  busy : Word → Bool
  /-- The status of a device that is ready. -/
  idle : Word
  /-- The words just before the device became ready. -/
  before : Option Block

namespace PolledBlock

/-- The device becomes ready now, unless it is. -/
def settle (p : PolledBlock) : PolledBlock :=
  if p.busy (p.block.get p.status) then
    { p with block := p.block.set p.status p.idle, before := p.before.or (some p.block) }
  else p

def get (p : PolledBlock) (i : Nat) : Word × PolledBlock :=
  (p.block.get i, if i = p.status then p.settle else p)

instance : Bus PolledBlock where
  read i := fun p => p.get i
  write i v := fun p => ((), { p with block := p.block.set i v })
  patience _ := 1

end PolledBlock

end TrapMonitor
