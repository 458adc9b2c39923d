import TrapMonitor.Isa.Decode
import TrapMonitor.Machine.Execute
import TrapMonitor.Trap.Cause
import TrapMonitor.Trap.Delegation

/-! # Handling a trap

Every trap ends in one of three ways: the trapped code goes on behind the emulated
instruction, or at the same place after an interrupt; the trap goes to the supervisor,
because an emulated access faulted; or the machine is to halt, because nothing here handles
the trap.
-/
namespace TrapMonitor

inductive Outcome where
  | resumed
  | delegated (fault : AccessFault)
  | halted (reason : Unsupported)
  deriving DecidableEq

namespace Machine

open Emulation

variable {H P F : Type} [Hart H] [Platform P] [FrameStore H F]

/-- The core reports the bits of an instruction it does not know as the trap value. A zero there
says nothing, and the instruction is read from memory. -/
def illegalInstruction (s : TrapState) : Emulation H P F Word :=
  if s.mbadaddr ≠ 0 then pure s.mbadaddr else access (Hart.fetch s.mepc)

/-- What the trapped instruction asks for. -/
def operationOf (e : Exception) (s : TrapState) : Emulation H P F Operation :=
  match e with
  | .loadAddressMisaligned => do
    let w ← access (Hart.fetch s.mepc)
    require (Operation.ofLoad ⟨w⟩ s.mbadaddr)
  | .storeAddressMisaligned => do
    let w ← access (Hart.fetch s.mepc)
    require (Operation.ofStore ⟨w⟩ s.mbadaddr)
  | .illegalInstruction => do
    let w ← illegalInstruction s
    require (Operation.ofIllegal ⟨w⟩)
  | .supervisorCall => do
    let number ← inspect fun m => m.register .a7
    let call ← require (SbiCall.ofNumber number)
    return .sbi call
  | e => require (.error (.exception e.code))

def emulate (e : Exception) (s : TrapState) : Emulation H P F Unit := do
  let operation ← operationOf e s
  execute operation

/-- A machine timer interrupt becomes a pending supervisor timer interrupt and stays off until the
supervisor sets the next deadline. No other interrupt is expected. -/
def handleInterrupt (i : Interrupt) (m : Machine H P F) : Outcome × Machine H P F :=
  match i with
  | .machineTimer =>
    let h := Hart.setCsr .sip InterruptBits.supervisorTimer m.hart
    (.resumed, { m with hart := Hart.clearCsr .mie InterruptBits.machineTimer h })
  | i => (.halted (.interrupt i.code), m)

def delegationMessage (e : Exception) (s : TrapState) (f : AccessFault) : String :=
  "delegating " ++ e.item.line ++ " at " ++ atAddress s.mepc ++ " to the supervisor: " ++ f.message

def handleException (e : Exception) (s : TrapState) (m : Machine H P F) :
    Outcome × Machine H P F :=
  match emulate e s m with
  | .ok () m => (.resumed, { m with hart := Hart.writeCsr .mepc (s.mepc + 4) m.hart })
  | .error (.fault f) m =>
    let m := m.record .debug "emulator::trap" (delegationMessage e s f)
    (.delegated f, { m with hart := s.delegate m.hart })
  | .error (.unsupported u) m => (.halted u, m)

/-- The trap vector is in place again after a trap that resumes or is delegated. -/
def finishTrap : Outcome × Machine H P F → Outcome × Machine H P F
  | (.resumed, m) => (.resumed, { m with hart := Hart.restoreTrapVector m.hart })
  | r => r

/-- Handles the trap that the machine's trap registers describe. -/
def handleTrap (m : Machine H P F) : Outcome × Machine H P F :=
  let s := TrapState.capture m.hart
  finishTrap <|
    match Cause.ofWord s.mcause with
    | .interrupt i => handleInterrupt i m
    | .exception e => handleException e s m

end Machine

end TrapMonitor
