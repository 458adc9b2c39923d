import TrapMonitor.Word
import TrapMonitor.Text.Hex

/-! # What goes wrong in a trap

A memory access that the monitor makes for the trapped code can fault, and a trap can ask
for something that the monitor does not do. Both are values; their wording is in `message`.
-/
namespace TrapMonitor

/-- A memory access was refused: where, and with which cause. -/
structure AccessFault where
  address : Word
  cause : Word
  deriving DecidableEq

namespace AccessFault

def message (f : AccessFault) : String :=
  "access to " ++ Text.hexPadded 8 f.address.toNat ++ " faulted with cause " ++
    toString f.cause.toNat

end AccessFault

/-- Something that is neither emulated nor passed on, with the value that shows it. -/
inductive Unsupported where
  | exception (code : Word)
  | interrupt (code : Word)
  | opcode (instruction : Word)
  | loadWidth (funct3 : Word)
  | storeWidth (funct3 : Word)
  | amoWidth (funct3 : Word)
  | amoSelector (selector : Word)
  | csrMode (instruction : Word)
  | csrAddress (csr : Half)
  | csrWrite (csr : Half)
  | sbiCall (number : Word)
  | compressedInstruction (parcel : Word)
  deriving DecidableEq

namespace Unsupported

def message : Unsupported → String
  | exception code => "exception " ++ toString code.toNat ++ " is not handled in machine mode"
  | interrupt code => "interrupt " ++ toString code.toNat ++ " is not handled in machine mode"
  | opcode instruction =>
    "instruction " ++ Text.hexPadded 8 instruction.toNat ++ " has an opcode that is not emulated"
  | loadWidth funct3 =>
    "misaligned load with funct3 " ++ toString funct3.toNat ++ " is not emulated"
  | storeWidth funct3 =>
    "misaligned store with funct3 " ++ toString funct3.toNat ++ " is not emulated"
  | amoWidth funct3 =>
    "atomic memory operation with funct3 " ++ toString funct3.toNat ++ " is not emulated"
  | amoSelector selector =>
    "atomic memory operation " ++ Text.hex selector.toNat ++ " is not emulated"
  | csrMode instruction =>
    "csr instruction " ++ Text.hexPadded 8 instruction.toNat ++ " does not encode a csr access"
  | csrAddress csr => "csr " ++ Text.hex csr.toNat ++ " is not emulated"
  | csrWrite csr => "csr " ++ Text.hex csr.toNat ++ " is read only"
  | sbiCall number => "sbi call " ++ toString number.toNat ++ " is not implemented"
  | compressedInstruction parcel =>
    "compressed instruction " ++ Text.hexPadded 4 parcel.toNat ++ " is not emulated"

/-- What was found, or else the refusal. -/
def orElse {α : Type} (u : Unsupported) : Option α → Except Unsupported α
  | some v => .ok v
  | none => .error u

theorem orElse_eq_ok_iff {α : Type} {u : Unsupported} {x : Option α} {v : α} :
    u.orElse x = .ok v ↔ x = some v := by
  cases x <;> simp [orElse]

end Unsupported

/-- Why an emulation did not come to its end. -/
inductive EmulationError where
  | fault (f : AccessFault)
  | unsupported (u : Unsupported)
  deriving DecidableEq

namespace EmulationError

def message : EmulationError → String
  | fault f => "emulated access faulted: " ++ f.message
  | unsupported u => u.message

end EmulationError

end TrapMonitor
