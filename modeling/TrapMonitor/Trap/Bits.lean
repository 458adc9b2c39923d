import TrapMonitor.Text.FlagSet

/-! # Interrupt and exception bits

The words that enable interrupts, that hold pending interrupts and that delegate traps have
one bit for each interrupt or exception code.
-/
namespace TrapMonitor

namespace InterruptBits

def supervisorSoftware : Word := 0x2
def machineSoftware : Word := 0x8
def supervisorTimer : Word := 0x20
def machineTimer : Word := 0x80
def supervisorExternal : Word := 0x200
def machineExternal : Word := 0x800

def flags : Text.FlagSet where
  name := "InterruptBits"
  flags := [⟨"SupervisorSoftwareInterrupt", supervisorSoftware⟩,
    ⟨"MachineSoftwareInterrupt", machineSoftware⟩,
    ⟨"SupervisorTimerInterrupt", supervisorTimer⟩,
    ⟨"MachineTimerInterrupt", machineTimer⟩,
    ⟨"SupervisorExternalInterrupt", supervisorExternal⟩,
    ⟨"MachineExternalInterrupt", machineExternal⟩]

end InterruptBits

namespace ExceptionBits

def userCall : Word := 0x100
def instructionPageFault : Word := 0x1000
def loadPageFault : Word := 0x2000
def storePageFault : Word := 0x8000

def flags : Text.FlagSet where
  name := "ExceptionBits"
  flags := [⟨"InstructionAddressMisaligned", 0x1⟩, ⟨"InstructionAccessFault", 0x2⟩,
    ⟨"IllegalInstruction", 0x4⟩, ⟨"Breakpoint", 0x8⟩, ⟨"LoadAddressMisaligned", 0x10⟩,
    ⟨"LoadAccessFault", 0x20⟩, ⟨"StoreAddressMisaligned", 0x40⟩, ⟨"StoreAccessFault", 0x80⟩,
    ⟨"EnvCallFromUMode", userCall⟩, ⟨"EnvCallFromSMode", 0x200⟩,
    ⟨"InstructionPageFault", instructionPageFault⟩, ⟨"LoadPageFault", loadPageFault⟩,
    ⟨"StorePageFault", storePageFault⟩]

end ExceptionBits

end TrapMonitor
