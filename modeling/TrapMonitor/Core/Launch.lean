import TrapMonitor.Boot.Plan
import TrapMonitor.Core.Barrier
import TrapMonitor.Core.Pmp

/-! # From reset to the supervisor

The assembly of the boot path: reset sets the stack pointer, protection of physical memory
is opened, the plan is written into the registers, and a return from machine mode enters the
supervisor. A core without protection traps on the first instruction that opens it that it does
not know, and goes on behind the last.
-/
namespace TrapMonitor.Core

def resetVector : Word := 0x20000000

/-- The end of the machine's stack, which is the end of its RAM. -/
def stackTop : Word := ramEnd

def resetCode : Code := ⟨resetVector, [.loadAddress .sp stackTop, .jump .start]⟩

/-- Runs the code at reset. -/
def reset (c : Core) : Code.Exit × Core :=
  resetCode.run { c with pc := resetVector, mode := Mode.machine }

namespace OpenPmp

/-- The operands of the block. -/
def address : Reg := .a0
def config : Reg := .a1
def scratch : Reg := .a2

/-- The end of the block. -/
def label : Word := blockBase + 0x14

def body : List Instr :=
  [.loadAddress scratch label, .csrWrite .mtvec scratch, .csrWrite .pmpaddr0 address,
    .csrWrite .pmpcfg0 config]

end OpenPmp

/-- Lets all modes access all of memory; the trap vector is left pointing to the end of the block.
-/
def openPmp (c : Core) : Core :=
  c.inline OpenPmp.body [(OpenPmp.address, 0xffffffff), (OpenPmp.config, PmpBits.allMemory)]

def apply (p : BootPlan) (c : Core) : Core :=
  let c := c.writeSystem .mtvec p.trapVector
  let c := c.writeSystem .mscratch p.scratch
  let c := c.writeSystem .mstatus p.status
  let c := c.writeSystem .mie p.interruptEnable
  let c := c.writeSystem .mepc p.entry
  let c := c.writeSystem .medeleg p.exceptionDelegation
  let c := c.writeSystem .mideleg p.interruptDelegation
  c.writeSystem .stval p.supervisorBadAddress

/-- Returns to the supervisor with the number of this hart, zero, and the address of the device
tree. -/
def enterSupervisor (deviceTree : Word) (c : Core) : Core :=
  c.afterBlock [.loadImmediate .a0 0, .mret] [(.a1, deviceTree)]

end TrapMonitor.Core
