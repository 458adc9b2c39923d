import TrapMonitor.Abort
import TrapMonitor.Memory

/-! # The size of a device tree

The firmware leaves the header of a device tree to a library, and asks the tree that it gets only
for its size. What the library does with memory is not the firmware's; `TreeLibrary.fdt` does what
the one that is linked was seen to do.
-/
namespace TrapMonitor

/-- A library for device trees, which may stop the run. -/
structure TreeLibrary (Tree Fault : Type) where
  /-- The tree at an address in memory, or why there is none. -/
  fromPointer : Memory → Word → Except Abort (Except Fault Tree)
  totalSize : Tree → Word
  /-- A fault as text. -/
  message : Fault → String

namespace DeviceTree

variable {Tree Fault : Type}

/-- The size of the tree at `base`, or why there is none. -/
def size (library : TreeLibrary Tree Fault) (m : Memory) (base : Word) :
    Except Abort (Except Fault Word) := do
  match ← library.fromPointer m base with
  | .ok tree => return .ok (library.totalSize tree)
  | .error e => return .error e

inductive Invalid where
  | unaligned
  | badMagic
  | badOffset
  deriving DecidableEq

namespace Invalid

/-- The kind of the error. -/
def kind : Invalid → String
  | unaligned => "InvalidParameter"
  | badMagic => "InvalidMagicNumber"
  | badOffset => "ParseError"

/-- The error with its reason, if it gives one. -/
def message : Invalid → String
  | unaligned => "InvalidParameter(\"Unaligned buffer provided\")"
  | badMagic => "InvalidMagicNumber"
  | badOffset => "ParseError"

end Invalid

def magic : Word := 0xd00dfeed

/-- The word at `a`, most significant byte first. -/
def bigEndian (m : Memory) (a : Word) : Word := .ofBytes (m.peek a 4).reverse

/-- The places of the header's words that are looked at. -/
def totalSizeAt : Nat := 4
def structureAt : Nat := 8
def reservationsAt : Nat := 16

/-- The word at an offset of a tree of `size` bytes. -/
def headerWord (m : Memory) (base : Word) (size offset : Nat) : Except Abort Word :=
  if offset + 4 ≤ size then .ok (bigEndian m (base + BitVec.ofNat 32 offset))
  else .error .truncatedTree

/-- Whether an offset that the header gives is aligned. -/
def offsetAligned (m : Memory) (base : Word) (size offset : Nat) : Except Abort Bool := do
  let w ← headerWord m base size offset
  return w.toNat % 4 = 0

/-- What was seen of the linked library: a tree is accepted when it is aligned, carries the magic
number, and gives aligned offsets for its two blocks. The offsets are only looked at within the
size that the header itself claims; a header that claims too little is not refused but stops the
run. -/
def fromPointer (m : Memory) (base : Word) : Except Abort (Except Invalid Word) :=
  if base.toNat % 4 ≠ 0 then .ok (.error .unaligned)
  else if bigEndian m base ≠ magic then .ok (.error .badMagic)
  else do
    let total := bigEndian m (base + BitVec.ofNat 32 totalSizeAt)
    if !(← offsetAligned m base total.toNat reservationsAt) then return .error .badOffset
    if !(← offsetAligned m base total.toNat structureAt) then return .error .badOffset
    return .ok total

end DeviceTree

/-- The linked library, of whose trees only the size is kept. -/
def TreeLibrary.fdt : TreeLibrary Word DeviceTree.Invalid where
  fromPointer := DeviceTree.fromPointer
  totalSize := id
  message := DeviceTree.Invalid.message

end TrapMonitor
