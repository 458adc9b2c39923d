import TrapMonitor.Word

/-! # Which accesses memory allows

An access of one or four bytes is refused with a cause: it is not aligned, a byte of it lies
outside of the accessible regions, or a byte of it is marked as faulting, in this order.
-/
namespace TrapMonitor

inductive Width where
  | byte | word
  deriving DecidableEq

namespace Width

def size : Width → Nat
  | byte => 1
  | word => 4

end Width

inductive AccessKind where
  | load | store
  deriving DecidableEq

namespace AccessKind

def misaligned : AccessKind → Word
  | load => 4
  | store => 6

def denied : AccessKind → Word
  | load => 5
  | store => 7

def pageFault : AccessKind → Word
  | load => 13
  | store => 15

end AccessKind

/-- A stretch of accessible memory. -/
structure Region where
  base : Word
  size : Nat
  deriving DecidableEq

namespace Region

def contains (r : Region) (a : Word) : Bool :=
  r.base.toNat ≤ a.toNat && a.toNat < r.base.toNat + r.size

end Region

/-- The accessible regions and the addresses that fault on any access, on loads and on stores. -/
structure Protection where
  regions : List Region
  any : List Word
  load : List Word
  store : List Word

namespace Protection

/-- The addresses an access touches. -/
def footprint (w : Width) (a : Word) : List Word :=
  (List.range w.size).map fun i => a + BitVec.ofNat 32 i

def accessible (p : Protection) (a : Word) : Bool := p.regions.any (·.contains a)

def faulting (p : Protection) (k : AccessKind) (a : Word) : Bool :=
  p.any.contains a ||
    match k with
    | .load => p.load.contains a
    | .store => p.store.contains a

/-- The cause with which an access is refused, if it is. -/
def check (p : Protection) (k : AccessKind) (w : Width) (a : Word) : Option Word :=
  if a.toNat % w.size ≠ 0 then some k.misaligned
  else if !(footprint w a).all p.accessible then some k.denied
  else if (footprint w a).any (p.faulting k) then some k.pageFault
  else none

/-- Marks further addresses as faulting. -/
def addFaults (p : Protection) (any load store : List Word) : Protection :=
  { p with any := p.any ++ any, load := p.load ++ load, store := p.store ++ store }

def clearFaults (p : Protection) : Protection := { p with any := [], load := [], store := [] }

end Protection

end TrapMonitor
