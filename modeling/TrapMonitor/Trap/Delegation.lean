import TrapMonitor.Hart
import TrapMonitor.Status

/-! # Handing a trap to the supervisor

The trap registers are captured when the trap arrives, because accesses made while handling
it may overwrite them. Delegation then makes the captured trap look as if it had gone to the
supervisor.
-/
namespace TrapMonitor

/-- The machine's trap registers as they were when the trap arrived. -/
structure TrapState where
  mepc : Word
  mcause : Word
  mbadaddr : Word
  mstatus : Word
  deriving DecidableEq

namespace TrapState

variable {H : Type} [Hart H]

def capture (h : H) : TrapState where
  mepc := Hart.readCsr .mepc h
  mcause := Hart.readCsr .mcause h
  mbadaddr := Hart.readCsr .mbadaddr h
  mstatus := Hart.readCsr .mstatus h

/-- Sets the hart up so that a return from machine mode enters the supervisor's trap handler. -/
def delegate (s : TrapState) (h : H) : H :=
  let h := Hart.restoreTrapVector h
  let h := Hart.writeCsr .sbadaddr s.mbadaddr h
  let h := Hart.writeCsr .scause s.mcause h
  let h := Hart.writeCsr .sepc s.mepc h
  let h := Hart.writeCsr .mepc (Hart.readCsr .stvec h) h
  Hart.writeCsr .mstatus (Status.delegated s.mstatus) h

end TrapState

end TrapMonitor
