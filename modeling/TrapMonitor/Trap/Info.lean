import TrapMonitor.Hart
import TrapMonitor.Status
import TrapMonitor.Trap.Cause

/-! # A trap as it is shown when the machine halts -/
namespace TrapMonitor

structure TrapInfo where
  epc : Word
  cause : Cause
  badAddress : Word
  status : Word
  deriving DecidableEq

namespace TrapInfo

def ofWords (epc cause badAddress status : Word) : TrapInfo :=
  ⟨epc, .ofWord cause, badAddress, status⟩

/-- The trap that the hart's registers describe at this moment. -/
def current {H : Type} [Hart H] (h : H) : TrapInfo :=
  ofWords (Hart.readCsr .mepc h) (Hart.readCsr .mcause h) (Hart.readCsr .mbadaddr h)
    (Hart.readCsr .mstatus h)

def report (t : TrapInfo) : Text.Report where
  name := "TrapInfo"
  fields := [("epc", .number t.epc.toNat), ("cause", t.cause.item),
    ("badaddr", .number t.badAddress.toNat), ("status", Status.flags.item t.status)]

end TrapInfo

end TrapMonitor
