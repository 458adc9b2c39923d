import TrapMonitor.Word

/-! # Fields of an instruction word -/
namespace TrapMonitor

/-- An instruction as it lies in memory. -/
structure Instruction where
  raw : Word
  deriving DecidableEq

namespace Instruction

/-- Major opcode of the atomic memory operations. -/
def opcodeAmo : Word := 0x2f

/-- Major opcode of the system instructions, which include the CSR accesses. -/
def opcodeSystem : Word := 0x73

variable (i : Instruction)

/-- Sixteen-bit instructions are those whose lowest two bits are not both set. -/
def compressed : Bool := i.raw &&& 3 != 3

def opcode : Word := i.raw &&& 0x7f

def funct3 : Word := i.raw >>> 12 &&& 7

def rd : Reg := .ofField (i.raw >>> 7)

def rs1 : Reg := .ofField (i.raw >>> 15)

def rs2 : Reg := .ofField (i.raw >>> 20)

/-- The field that selects an atomic memory operation. -/
def amoSelector : Word := i.raw >>> 27

def csrAddress : Half := (i.raw >>> 20).setWidth 16

end Instruction

end TrapMonitor
