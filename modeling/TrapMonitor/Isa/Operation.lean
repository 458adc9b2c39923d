import TrapMonitor.EmulationError
import TrapMonitor.Isa.Instruction
import TrapMonitor.Isa.Selection

/-! # Operations the monitor performs

An operation is what is left of a trapped instruction after decoding. Numbers that select no
variant are refused, and a refusal shows the number.
-/
namespace TrapMonitor

/-- Loads that the hardware refuses to do misaligned. -/
inductive LoadKind where
  | half | word | halfUnsigned
  deriving DecidableEq

namespace LoadKind

/-- The field that selects the load. -/
def funct3 : LoadKind → Word
  | half => 1
  | word => 2
  | halfUnsigned => 5

def all : List LoadKind := [half, word, halfUnsigned]

def ofFunct3 (n : Word) : Except Unsupported LoadKind :=
  (Unsupported.loadWidth n).orElse (select funct3 all n)

theorem ofFunct3_funct3 (k : LoadKind) : ofFunct3 k.funct3 = .ok k := by cases k <;> rfl

theorem funct3_of_ofFunct3 {n : Word} {k : LoadKind} (h : ofFunct3 n = .ok k) : k.funct3 = n :=
  number_of_select (Unsupported.orElse_eq_ok_iff.mp h)

def name : LoadKind → String
  | half => "Half"
  | word => "Word"
  | halfUnsigned => "HalfUnsigned"

/-- How many bytes are loaded. -/
def size : LoadKind → Nat
  | half => 2
  | word => 4
  | halfUnsigned => 2

/-- The register value that the loaded bytes stand for. -/
def extend : LoadKind → Word → Word
  | half, w => (w.setWidth 16).signExtend 32
  | word, w => w
  | halfUnsigned, w => (w.setWidth 16).setWidth 32

end LoadKind

/-- Stores that the hardware refuses to do misaligned. -/
inductive StoreKind where
  | half | word
  deriving DecidableEq

namespace StoreKind

/-- The field that selects the store. -/
def funct3 : StoreKind → Word
  | half => 1
  | word => 2

def all : List StoreKind := [half, word]

def ofFunct3 (n : Word) : Except Unsupported StoreKind :=
  (Unsupported.storeWidth n).orElse (select funct3 all n)

theorem ofFunct3_funct3 (k : StoreKind) : ofFunct3 k.funct3 = .ok k := by cases k <;> rfl

theorem funct3_of_ofFunct3 {n : Word} {k : StoreKind} (h : ofFunct3 n = .ok k) : k.funct3 = n :=
  number_of_select (Unsupported.orElse_eq_ok_iff.mp h)

def name : StoreKind → String
  | half => "Half"
  | word => "Word"

/-- How many bytes are stored. -/
def size : StoreKind → Nat
  | half => 2
  | word => 4

end StoreKind

/-- The word-sized atomic memory operations. -/
inductive AmoOp where
  | add | swap | loadReserved | storeConditional | xor | and | or
  | min | max | minUnsigned | maxUnsigned
  deriving DecidableEq

namespace AmoOp

/-- The field that selects the operation. -/
def selector : AmoOp → Word
  | add => 0x00
  | swap => 0x01
  | loadReserved => 0x02
  | storeConditional => 0x03
  | xor => 0x04
  | or => 0x08
  | and => 0x0c
  | min => 0x10
  | max => 0x14
  | minUnsigned => 0x18
  | maxUnsigned => 0x1c

def all : List AmoOp :=
  [add, swap, loadReserved, storeConditional, xor, or, and, min, max, minUnsigned, maxUnsigned]

def ofSelector (n : Word) : Except Unsupported AmoOp :=
  (Unsupported.amoSelector n).orElse (select selector all n)

theorem ofSelector_selector (op : AmoOp) : ofSelector op.selector = .ok op := by cases op <;> rfl

theorem selector_of_ofSelector {n : Word} {op : AmoOp} (h : ofSelector n = .ok op) :
    op.selector = n :=
  number_of_select (Unsupported.orElse_eq_ok_iff.mp h)

def name : AmoOp → String
  | add => "Add"
  | swap => "Swap"
  | loadReserved => "LoadReserved"
  | storeConditional => "StoreConditional"
  | xor => "Xor"
  | and => "And"
  | or => "Or"
  | min => "Min"
  | max => "Max"
  | minUnsigned => "MinUnsigned"
  | maxUnsigned => "MaxUnsigned"

/-- The word that replaces `old`, or nothing for the reservation pair, which is not emulated. -/
def apply (op : AmoOp) (src old : Word) : Option Word :=
  match op with
  | add => some (old + src)
  | swap => some src
  | loadReserved => none
  | storeConditional => none
  | xor => some (old ^^^ src)
  | and => some (old &&& src)
  | or => some (old ||| src)
  | min => some (if old.slt src then old else src)
  | max => some (if old.slt src then src else old)
  | minUnsigned => some (if old.ult src then old else src)
  | maxUnsigned => some (if old.ult src then src else old)

end AmoOp

/-- The halves of a 64-bit counter. -/
inductive CounterHalf where
  | low | high
  deriving DecidableEq

namespace CounterHalf

def cycle : Half := 0xc00
def time : Half := 0xc01
def instret : Half := 0xc02
def cycleHigh : Half := 0xc80
def timeHigh : Half := 0xc81
def instretHigh : Half := 0xc82

/-- All counters are answered from the platform's timer, so only the half matters. -/
def ofCsr (csr : Half) : Except Unsupported CounterHalf :=
  if csr = cycle ∨ csr = time ∨ csr = instret then .ok low
  else if csr = cycleHigh ∨ csr = timeHigh ∨ csr = instretHigh then .ok high
  else .error (.csrAddress csr)

def name : CounterHalf → String
  | low => "Low"
  | high => "High"

end CounterHalf

/-- The calls of the supervisor binary interface that are answered. -/
inductive SbiCall where
  | setTimer | consolePutchar | consoleGetchar
  deriving DecidableEq

namespace SbiCall

/-- The number that the supervisor passes for the call. -/
def number : SbiCall → Word
  | setTimer => 0
  | consolePutchar => 1
  | consoleGetchar => 2

def all : List SbiCall := [setTimer, consolePutchar, consoleGetchar]

def ofNumber (n : Word) : Except Unsupported SbiCall :=
  (Unsupported.sbiCall n).orElse (select number all n)

theorem ofNumber_number (c : SbiCall) : ofNumber c.number = .ok c := by cases c <;> rfl

theorem number_of_ofNumber {n : Word} {c : SbiCall} (h : ofNumber n = .ok c) : c.number = n :=
  number_of_select (Unsupported.orElse_eq_ok_iff.mp h)

def name : SbiCall → String
  | setTimer => "SetTimer"
  | consolePutchar => "ConsolePutchar"
  | consoleGetchar => "ConsoleGetchar"

end SbiCall

inductive Operation where
  | unalignedLoad (kind : LoadKind) (rd : Reg) (address : Word)
  | unalignedStore (kind : StoreKind) (src : Reg) (address : Word)
  | atomic (op : AmoOp) (rd addr src : Reg)
  | counterRead (half : CounterHalf) (rd : Reg)
  | sbi (call : SbiCall)
  deriving DecidableEq

end TrapMonitor
