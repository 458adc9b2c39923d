import TrapMonitor.Abort
import TrapMonitor.Bus

/-! # Registers split over bus words

A register of `count` bytes occupies `count` words in a row, one byte in each, the most
significant first. Only the low byte of a word counts when reading, and writing leaves the
rest of each word zero.
-/
namespace TrapMonitor

structure SplitRegister where
  first : Nat
  count : Nat
  deriving DecidableEq

namespace SplitRegister

variable {D : Type} [Bus D]

/-- Appends the low byte of a bus word to a number; what no longer fits falls out at the top. -/
def shiftIn (acc : DoubleWord) (w : Word) : DoubleWord :=
  acc <<< 8 ||| (w &&& 0xff).setWidth 64

/-- The bus word for byte `n` of a number, counted from the least significant. -/
def byteWord (v : DoubleWord) (n : Nat) : Word := (v >>> (8 * n) &&& 0xff).setWidth 32

def readFrom (first : Nat) : Nat → DoubleWord → StateM D DoubleWord
  | 0, acc => pure acc
  | n + 1, acc => do
    let w ← Bus.read first
    readFrom (first + 1) n (shiftIn acc w)

def writeFrom (first : Nat) : Nat → DoubleWord → StateM D Unit
  | 0, _ => pure ()
  | n + 1, v => do
    Bus.write first (byteWord v n)
    writeFrom (first + 1) n v

def read (r : SplitRegister) : StateM D DoubleWord := readFrom r.first r.count 0

def write (r : SplitRegister) (v : DoubleWord) : StateM D Unit := writeFrom r.first r.count v

/-- Byte `n` of a number, unless the shift to it is by all bits of the number or more. -/
def checkedByteWord (v : DoubleWord) (n : Nat) : Except Abort Word :=
  if 8 * n < 64 then .ok (byteWord v n) else .error .shiftOverflow

/-- Writes as `writeFrom` does, and stops at a shift that is too wide. -/
def checkedWriteFrom (first : Nat) : Nat → DoubleWord → EStateM Abort D Unit
  | 0, _ => pure ()
  | n + 1, v => fun d =>
    match checkedByteWord v n with
    | .ok w => checkedWriteFrom (first + 1) n v (Bus.write first w d).2
    | .error e => .error e d

/-- Writes a register of any size. -/
def checkedWrite (r : SplitRegister) (v : DoubleWord) : EStateM Abort D Unit :=
  checkedWriteFrom r.first r.count v

/-- The device after a write of any size, if the write came to its end. -/
def tryWrite (r : SplitRegister) (v : DoubleWord) (d : D) : Except Abort D :=
  match r.checkedWrite v d with
  | .ok _ d' => .ok d'
  | .error e _ => .error e

/-- Reads until the value satisfies `ready`, at most `fuel` times. -/
def poll (r : SplitRegister) (ready : DoubleWord → Bool) : Nat → StateM D Bool
  | 0 => pure false
  | fuel + 1 => do
    let v ← r.read
    if ready v then pure true else r.poll ready fuel

/-- Waits until the value satisfies `ready`. False says that the wait has no end, as the device
outlasts its patience. -/
def await (r : SplitRegister) (ready : DoubleWord → Bool) : StateM D Bool := fun d =>
  r.poll ready (Bus.patience d + 1) d

end SplitRegister

end TrapMonitor
