import TrapMonitor.Hart
import TrapMonitor.Memory.Trace

/-! # A hart of plain cells

Its registers are cells that hold what was written to them, and its memory is protected.
Each access moves the trap vector aside. On request an access also overwrites the other trap
registers, as the nested trap of a failing access does on a core that does not put them
back.
-/
namespace TrapMonitor

structure FlatHart where
  csr : Csr → Word
  memory : ProtectedMemory
  /-- Whether accesses overwrite the trap registers. -/
  clobber : Bool
  /-- How many accesses were made. -/
  count : Nat
  /-- The accesses made so far, oldest first. -/
  trace : List Access

namespace FlatHart

/-- Where traps go between accesses. -/
def primaryVector : Word := 0x20000100

/-- Where an access leaves the trap vector. -/
def barrierVector : Word := 0x20000400

def setCsr (h : FlatHart) (c : Csr) (v : Word) : FlatHart :=
  { h with csr := fun x => if x = c then v else h.csr x }

/-- What overwriting the trap registers leaves behind for the `count`-th access, at address `a`.
-/
def overwrite (h : FlatHart) (a : Word) : FlatHart :=
  let h := h.setCsr .mepc (0xaaaa0000 + BitVec.ofNat 32 h.count)
  let h := h.setCsr .mcause 0x1c
  let h := h.setCsr .mbadaddr (~~~a)
  h.setCsr .mstatus (h.csr .mstatus ||| 0x20000)

/-- The hart while an access to `a` is under way. -/
def arm (h : FlatHart) (a : Word) : FlatHart :=
  let h := { h with count := h.count + 1 }
  let h := h.setCsr .mtvec barrierVector
  if h.clobber then h.overwrite a else h

def note (h : FlatHart) (a : Access) : FlatHart := { h with trace := h.trace ++ [a] }

def loadWidth (w : Width) (a : Word) : HartAccess FlatHart Word := fun h =>
  let h := (h.arm a).note (h.memory.loadRecord w a)
  match h.memory.load w a with
  | .ok v => .ok v h
  | .error cause => .error ⟨a, cause⟩ h

def storeWidth (w : Width) (a v : Word) : HartAccess FlatHart Unit := fun h =>
  let h := (h.arm a).note (h.memory.storeRecord w a v)
  match h.memory.store w a v with
  | .ok memory => .ok () { h with memory := memory }
  | .error cause => .error ⟨a, cause⟩ h

instance : Hart FlatHart where
  readCsr c h := h.csr c
  writeCsr c v h := h.setCsr c v
  trapVector _ := primaryVector
  load := loadWidth
  store := storeWidth

end FlatHart

end TrapMonitor
