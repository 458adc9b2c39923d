import TrapMonitor.Memory
import TrapMonitor.Memory.Protection

/-! # Checked accesses and their record

Every access that reaches protected memory is noted: what was done where, which value was
loaded or was to be stored, and the cause if it was refused.
-/
namespace TrapMonitor

/-- One access: the value is absent for a load that was refused. -/
structure Access where
  kind : AccessKind
  width : Width
  address : Word
  value : Option Word
  cause : Option Word
  deriving DecidableEq

/-- Memory behind a protection. -/
structure ProtectedMemory where
  bytes : Memory
  protection : Protection

namespace ProtectedMemory

/-- The zero-extended contents of a byte or word. -/
def contents (m : Memory) (a : Word) : Width → Word
  | .byte => (m.byte a).setWidth 32
  | .word => m.word a

/-- What of a register a store of this width writes. -/
def stored (v : Word) : Width → Word
  | .byte => (v.setWidth 8).setWidth 32
  | .word => v

def update (m : Memory) (a v : Word) : Width → Memory
  | .byte => m.setByte a (v.setWidth 8)
  | .word => m.setWord a v

/-- The value of a load or the cause of its refusal. -/
def load (p : ProtectedMemory) (w : Width) (a : Word) : Except Word Word :=
  match p.protection.check .load w a with
  | some cause => .error cause
  | none => .ok (contents p.bytes a w)

/-- The memory after a store or the cause of its refusal. -/
def store (p : ProtectedMemory) (w : Width) (a v : Word) : Except Word ProtectedMemory :=
  match p.protection.check .store w a with
  | some cause => .error cause
  | none => .ok { p with bytes := update p.bytes a v w }

/-- How a load appears in the record. -/
def loadRecord (p : ProtectedMemory) (w : Width) (a : Word) : Access :=
  match p.load w a with
  | .ok v => ⟨.load, w, a, some v, none⟩
  | .error cause => ⟨.load, w, a, none, some cause⟩

/-- How a store appears in the record. -/
def storeRecord (p : ProtectedMemory) (w : Width) (a v : Word) : Access :=
  ⟨.store, w, a, some (stored v w), p.protection.check .store w a⟩

end ProtectedMemory

end TrapMonitor
