import TrapMonitor.Isa.Selection
import TrapMonitor.Text.Report

/-! # Causes of traps

The cause word of a trap names an interrupt, when its sign bit is set, or an exception.
Codes that have no name keep their number, so a cause's code is always the number it was
read from (`Interrupt.code_ofCode`, `Exception.code_ofCode`).
-/
namespace TrapMonitor

inductive Interrupt where
  | supervisorSoftware | machineSoftware
  | supervisorTimer | machineTimer
  | supervisorExternal | machineExternal
  | unknown (code : Word)
  deriving DecidableEq

namespace Interrupt

def code : Interrupt → Word
  | supervisorSoftware => 1
  | machineSoftware => 3
  | supervisorTimer => 5
  | machineTimer => 7
  | supervisorExternal => 9
  | machineExternal => 11
  | unknown code => code

/-- The interrupts that have a name. -/
def named : List Interrupt :=
  [supervisorSoftware, machineSoftware, supervisorTimer, machineTimer, supervisorExternal,
    machineExternal]

def ofCode (c : Word) : Interrupt := (select code named c).getD (unknown c)

theorem code_ofCode (c : Word) : (ofCode c).code = c := by
  unfold ofCode
  cases h : select code named c with
  | none => rfl
  | some i => exact number_of_select h

def item : Interrupt → Text.Item
  | supervisorSoftware => .atom "SupervisorSoftwareInterrupt"
  | machineSoftware => .atom "MachineSoftwareInterrupt"
  | supervisorTimer => .atom "SupervisorTimerInterrupt"
  | machineTimer => .atom "MachineTimerInterrupt"
  | supervisorExternal => .atom "SupervisorExternalInterrupt"
  | machineExternal => .atom "MachineExternalInterrupt"
  | unknown code => .wrapped "Unknown" (.number code.toNat)

end Interrupt

inductive Exception where
  | instructionAddressMisaligned | instructionAccessFault | illegalInstruction | breakpoint
  | loadAddressMisaligned | loadAccessFault | storeAddressMisaligned | storeAccessFault
  | userCall | supervisorCall | machineCall
  | instructionPageFault | loadPageFault | storePageFault
  | unknown (code : Word)
  deriving DecidableEq

namespace Exception

def code : Exception → Word
  | instructionAddressMisaligned => 0
  | instructionAccessFault => 1
  | illegalInstruction => 2
  | breakpoint => 3
  | loadAddressMisaligned => 4
  | loadAccessFault => 5
  | storeAddressMisaligned => 6
  | storeAccessFault => 7
  | userCall => 8
  | supervisorCall => 9
  | machineCall => 11
  | instructionPageFault => 12
  | loadPageFault => 13
  | storePageFault => 15
  | unknown code => code

/-- The exceptions that have a name. -/
def named : List Exception :=
  [instructionAddressMisaligned, instructionAccessFault, illegalInstruction, breakpoint,
    loadAddressMisaligned, loadAccessFault, storeAddressMisaligned, storeAccessFault, userCall,
    supervisorCall, machineCall, instructionPageFault, loadPageFault, storePageFault]

def ofCode (c : Word) : Exception := (select code named c).getD (unknown c)

theorem code_ofCode (c : Word) : (ofCode c).code = c := by
  unfold ofCode
  cases h : select code named c with
  | none => rfl
  | some e => exact number_of_select h

def item : Exception → Text.Item
  | instructionAddressMisaligned => .atom "InstructionAddressMisaligned"
  | instructionAccessFault => .atom "InstructionAccessFault"
  | illegalInstruction => .atom "IllegalInstruction"
  | breakpoint => .atom "Breakpoint"
  | loadAddressMisaligned => .atom "LoadAddressMisaligned"
  | loadAccessFault => .atom "LoadAccessFault"
  | storeAddressMisaligned => .atom "StoreAddressMisaligned"
  | storeAccessFault => .atom "StoreAccessFault"
  | userCall => .atom "EnvCallFromUMode"
  | supervisorCall => .atom "EnvCallFromSMode"
  | machineCall => .atom "EnvCallFromMMode"
  | instructionPageFault => .atom "InstructionPageFault"
  | loadPageFault => .atom "LoadPageFault"
  | storePageFault => .atom "StorePageFault"
  | unknown code => .wrapped "Unknown" (.number code.toNat)

end Exception

/-- What a cause word says. -/
inductive Cause where
  | interrupt (i : Interrupt)
  | exception (e : Exception)
  deriving DecidableEq

namespace Cause

/-- The source of an interrupt is the low byte of its cause word. -/
def ofWord (cause : Word) : Cause :=
  if cause.msb then .interrupt (.ofCode (cause &&& 0xff)) else .exception (.ofCode cause)

def item : Cause → Text.Item
  | interrupt i => .wrapped "Interrupt" i.item
  | exception e => .wrapped "Exception" e.item

end Cause

end TrapMonitor
