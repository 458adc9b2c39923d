import TrapMonitor.Checked
import TrapMonitor.Status
import TrapMonitor.Trap.Bits

/-! # What booting makes of the machine

The plan holds every value that booting writes: traps go to the monitor and find their frame
at the top of the machine stack, page faults, user calls and supervisor interrupts go
straight to the supervisor, and the return from machine mode enters it.
-/
namespace TrapMonitor

structure BootPlan where
  trapVector : Word
  scratch : Word
  status : Word
  interruptEnable : Word
  entry : Word
  exceptionDelegation : Word
  interruptDelegation : Word
  supervisorBadAddress : Word
  deriving DecidableEq

namespace BootPlan

/-- The size of a trap frame in bytes. -/
def frameSize : Word := 128

/-- Where the supervisor's image and its device tree are in memory. -/
def imageBase : Word := 0xc0000000
def deviceTreeBase : Word := 0xc1000000

/-- The plan for a stack that ends at `stackTop`; there has to be room for a trap frame below it.
-/
def make (trapVector stackTop entry : Word) : Except Abort BootPlan := do
  let scratch ← Checked.sub stackTop frameSize
  return {
    trapVector := trapVector
    scratch := scratch
    status := Status.mppSupervisor ||| Status.mpie
    interruptEnable := 0
    entry := entry
    exceptionDelegation := ExceptionBits.instructionPageFault ||| ExceptionBits.loadPageFault |||
      ExceptionBits.storePageFault ||| ExceptionBits.userCall
    interruptDelegation := InterruptBits.supervisorTimer ||| InterruptBits.supervisorExternal |||
      InterruptBits.supervisorSoftware
    supervisorBadAddress := 0 }

def report (p : BootPlan) : Text.Report where
  name := "MachineInit"
  fields := [("trap_vector", .number p.trapVector.toNat), ("scratch", .number p.scratch.toNat),
    ("status", Status.flags.item p.status),
    ("interrupt_enable", InterruptBits.flags.item p.interruptEnable),
    ("entry", .number p.entry.toNat),
    ("exception_delegation", ExceptionBits.flags.item p.exceptionDelegation),
    ("interrupt_delegation", InterruptBits.flags.item p.interruptDelegation),
    ("supervisor_badaddr", .number p.supervisorBadAddress.toNat)]

end BootPlan

end TrapMonitor
