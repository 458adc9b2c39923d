import TrapMonitor.Proofs.Memory.Bytes

/-! # The emulated instructions as the architecture has them

A core without misaligned accesses, atomic memory operations and counters leaves these
instructions to the monitor. Here they are with their encodings, the trap that each raises and
what one step of each does to registers, memory and program counter. Decoding does not occur: an
instruction is known by its operands and found in memory by its encoding.
-/
namespace TrapMonitor.Rv32

/-- Loads of more than one byte. -/
inductive Load where
  | lh | lhu | lw
  deriving DecidableEq

/-- Stores of more than one byte. -/
inductive Store where
  | sh | sw
  deriving DecidableEq

/-- The atomic memory operations, without the reservation pair. -/
inductive Amo where
  | swap | add | xor | and | or | min | max | minu | maxu
  deriving DecidableEq

/-- The counters and their upper halves. -/
inductive Counter where
  | cycle | time | instret | cycleh | timeh | instreth
  deriving DecidableEq

/-- The forms of a CSR access that read without writing, if their source field is zero. -/
inductive CsrForm where
  | csrrs | csrrc | csrrsi | csrrci
  deriving DecidableEq

inductive Emulated where
  | load (op : Load) (rd rs1 : Reg) (offset : BitVec 12)
  | store (op : Store) (rs2 rs1 : Reg) (offset : BitVec 12)
  | amo (op : Amo) (aq rl : BitVec 1) (rd rs1 rs2 : Reg)
  | counter (form : CsrForm) (c : Counter) (rd : Reg)
  deriving DecidableEq

/-! ## Encodings -/

def Load.funct3 : Load → BitVec 3
  | lh => 1
  | lw => 2
  | lhu => 5

def Store.funct3 : Store → BitVec 3
  | sh => 1
  | sw => 2

def Amo.funct5 : Amo → BitVec 5
  | add => 0b00000
  | swap => 0b00001
  | xor => 0b00100
  | or => 0b01000
  | and => 0b01100
  | min => 0b10000
  | max => 0b10100
  | minu => 0b11000
  | maxu => 0b11100

def CsrForm.funct3 : CsrForm → BitVec 3
  | csrrs => 2
  | csrrc => 3
  | csrrsi => 6
  | csrrci => 7

def Counter.number : Counter → BitVec 12
  | cycle => 0xc00
  | time => 0xc01
  | instret => 0xc02
  | cycleh => 0xc80
  | timeh => 0xc81
  | instreth => 0xc82

/-- The fields of an instruction word, most significant first. What the topmost twelve bits and the
five bits above the opcode mean depends on the instruction. -/
def assemble (top : BitVec 12) (rs1 : Reg) (funct3 : BitVec 3) (low : Reg) (opcode : BitVec 7) :
    Word := top ++ rs1 ++ funct3 ++ low ++ opcode

def encode : Emulated → Word
  | .load op rd rs1 offset => assemble offset rs1 op.funct3 rd 0x03
  | .store op rs2 rs1 offset =>
    assemble (offset.extractLsb' 5 7 ++ rs2) rs1 op.funct3 (offset.extractLsb' 0 5) 0x23
  | .amo op aq rl rd rs1 rs2 => assemble (op.funct5 ++ aq ++ rl ++ rs2) rs1 2 rd 0x2f
  | .counter form c rd => assemble c.number 0 form.funct3 rd 0x73

/-! ## Meaning -/

/-- What a program sees of a core. -/
structure State where
  reg : Reg → Word
  pc : Word
  memory : Memory

namespace State

/-- Writes a register; the zero register stays as it is. -/
def write (s : State) (r : Reg) (v : Word) : State :=
  { s with reg := fun x => if x = r ∧ r ≠ 0 then v else s.reg x }

def next (s : State) : State := { s with pc := s.pc + 4 }

end State

/-- The four bytes from an address on, the first of them lowest. -/
def wordAt (m : Memory) (a : Word) : Word :=
  m.byte (a + 3) ++ m.byte (a + 2) ++ m.byte (a + 1) ++ m.byte a

def Load.value (op : Load) (m : Memory) (a : Word) : Word :=
  match op with
  | lh => (m.byte (a + 1) ++ m.byte a).signExtend 32
  | lhu => (m.byte (a + 1) ++ m.byte a).zeroExtend 32
  | lw => wordAt m a

def Store.size : Store → Nat
  | sh => 2
  | sw => 4

/-- The word that an atomic memory operation leaves in the place of `old`. -/
def Amo.result (op : Amo) (src old : Word) : Word :=
  match op with
  | swap => src
  | add => src + old
  | xor => src ^^^ old
  | and => src &&& old
  | or => src ||| old
  | min => .ofInt 32 (Min.min src.toInt old.toInt)
  | max => .ofInt 32 (Max.max src.toInt old.toInt)
  | minu => .ofNat 32 (Min.min src.toNat old.toNat)
  | maxu => .ofNat 32 (Max.max src.toNat old.toNat)

/-- The half of the time that a counter shows. -/
def Counter.read (c : Counter) (time : DoubleWord) : Word :=
  match c with
  | cycle | Counter.time | instret => time.extractLsb' 0 32
  | cycleh | timeh | instreth => time.extractLsb' 32 32

/-- One step, at a time that all counters show. -/
def step (time : DoubleWord) (i : Emulated) (s : State) : State :=
  match i with
  | .load op rd rs1 offset =>
    (s.write rd (op.value s.memory (s.reg rs1 + offset.signExtend 32))).next
  | .store op rs2 rs1 offset =>
    let a := s.reg rs1 + offset.signExtend 32
    { s with memory := s.memory.storeLow a op.size (s.reg rs2) }.next
  | .amo op _ _ rd rs1 rs2 =>
    let a := s.reg rs1
    let old := wordAt s.memory a
    let s' := { s with memory := s.memory.storeLow a 4 (op.result (s.reg rs2) old) }
    (s'.write rd old).next
  | .counter _ c rd => (s.write rd (c.read time)).next

/-- The trap that a core raises instead of the step: its cause and the value it reports, which is
the address of a misaligned access, and for an unknown instruction the instruction or zero. The
instruction itself is in memory at the program counter unless it was reported. -/
def Raises (i : Emulated) (s : State) (cause value : Word) : Prop :=
  match i with
  | .load _ _ rs1 offset =>
    cause = 4 ∧ value = s.reg rs1 + offset.signExtend 32 ∧ wordAt s.memory s.pc = encode i
  | .store _ _ rs1 offset =>
    cause = 6 ∧ value = s.reg rs1 + offset.signExtend 32 ∧ wordAt s.memory s.pc = encode i
  | .amo .. | .counter .. =>
    cause = 2 ∧ (value = encode i ∨ value = 0 ∧ wordAt s.memory s.pc = encode i)

end TrapMonitor.Rv32
