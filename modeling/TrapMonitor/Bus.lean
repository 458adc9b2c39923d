import TrapMonitor.Word

/-! # The device bus

A device is seen through numbered words. Reading and writing a word may change the device,
and a device that is not ready says so in a status word; its patience bounds how often in a
row it does, unless it does so for ever. The simplest device is a block of plain words, which
keeps what is written to it (`Block.get_set_self`, `Block.get_set_of_ne`).
-/
namespace TrapMonitor

class Bus (D : Type) where
  read : Nat → StateM D Word
  write : Nat → Word → StateM D Unit
  /-- A bound on the polls in a row that the device answers with busy. A device that answers one more
  with busy never becomes ready. -/
  patience : D → Nat

/-- Words without a device behind them. -/
structure Block where
  words : List Word
  deriving DecidableEq

namespace Block

/-- The words of a list, followed by zeros, `n` in all. -/
def ofList (n : Nat) (words : List Word) : Block := ⟨(words ++ List.replicate n 0).take n⟩

def get (b : Block) (i : Nat) : Word := b.words.getD i 0

def set (b : Block) (i : Nat) (v : Word) : Block := ⟨b.words.set i v⟩

theorem get_set_self (b : Block) {i : Nat} (v : Word) (h : i < b.words.length) :
    (b.set i v).get i = v := by simp [get, set, h]

theorem get_set_of_ne (b : Block) {i j : Nat} (v : Word) (h : i ≠ j) :
    (b.set i v).get j = b.get j := by simp [get, set, List.getD, h]

instance : Bus Block where
  read i := fun b => (b.get i, b)
  write i v := fun b => ((), b.set i v)
  patience _ := 0

end Block

end TrapMonitor
