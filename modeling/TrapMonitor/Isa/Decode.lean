import TrapMonitor.Isa.Operation

/-! # From instruction words to operations

Which decoder is asked depends on the trap. All of them refuse sixteen-bit instructions
first. A misaligned load or store is told by its width alone, since the trap already says
which of the two it was; its address is the one the trap reported.
-/
namespace TrapMonitor

namespace Instruction

def rejectCompressed (i : Instruction) : Except Unsupported Unit :=
  if i.compressed then .error (.compressedInstruction (i.raw &&& 0xffff)) else .ok ()

end Instruction

namespace Operation

def ofLoad (i : Instruction) (address : Word) : Except Unsupported Operation := do
  i.rejectCompressed
  let kind ← LoadKind.ofFunct3 i.funct3
  return .unalignedLoad kind i.rd address

def ofStore (i : Instruction) (address : Word) : Except Unsupported Operation := do
  i.rejectCompressed
  let kind ← StoreKind.ofFunct3 i.funct3
  return .unalignedStore kind i.rs2 address

def ofAmo (i : Instruction) : Except Unsupported Operation :=
  if i.funct3 = 2 then do
    let op ← AmoOp.ofSelector i.amoSelector
    return .atomic op i.rd i.rs1 i.rs2
  else .error (.amoWidth i.funct3)

/-- Whether a CSR instruction writes: the exchanging forms always do, the setting and clearing
forms unless their operand field is zero. -/
def csrWrites (i : Instruction) : Bool := i.funct3 &&& 3 == 1 || i.rs1 != 0

def ofCsrAccess (i : Instruction) : Except Unsupported Operation :=
  if i.funct3 &&& 3 = 0 then .error (.csrMode i.raw)
  else do
    let half ← CounterHalf.ofCsr i.csrAddress
    if csrWrites i then .error (.csrWrite i.csrAddress)
    else return .counterRead half i.rd

/-- Decodes an instruction that the core does not know. -/
def ofIllegal (i : Instruction) : Except Unsupported Operation := do
  i.rejectCompressed
  if i.opcode = Instruction.opcodeAmo then ofAmo i
  else if i.opcode = Instruction.opcodeSystem then ofCsrAccess i
  else .error (.opcode i.raw)

end Operation

end TrapMonitor
