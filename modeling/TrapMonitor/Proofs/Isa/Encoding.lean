import TrapMonitor.Isa.Decode
import TrapMonitor.Proofs.Isa.Reference

/-! # Decoding the emulated instructions

The decoders read back the operands of every emulated instruction from its encoding, whatever the
operands are. The fields of an assembled word come first; each decoder is then a matter of the few
fields that it looks at.
-/
namespace TrapMonitor

namespace Rv32

section Fields

variable (top : BitVec 12) (rs1 : Reg) (funct3 : BitVec 3) (low : Reg) (opcode : BitVec 7)

theorem opcode_assemble :
    (⟨assemble top rs1 funct3 low opcode⟩ : Instruction).opcode = opcode.setWidth 32 := by
  apply BitVec.eq_of_getLsbD_eq
  intro i hi
  have hmask : (0x7f : Word) = (BitVec.allOnes 7).setWidth 32 := rfl
  simp only [Instruction.opcode, hmask, Word.getLsbD_and_lowMask _ _ hi, assemble,
    BitVec.getLsbD_append, BitVec.getLsbD_setWidth, hi]
  by_cases h : i < 7
  · simp [h]
  · simp [h, BitVec.getLsbD_of_ge opcode i (by omega)]

theorem rd_assemble : (⟨assemble top rs1 funct3 low opcode⟩ : Instruction).rd = low := by
  apply BitVec.eq_of_getLsbD_eq
  intro i hi
  simp only [Instruction.rd, Reg.ofField, assemble, BitVec.getLsbD_setWidth,
    BitVec.getLsbD_ushiftRight, BitVec.getLsbD_append]
  simp [hi]

theorem funct3_assemble :
    (⟨assemble top rs1 funct3 low opcode⟩ : Instruction).funct3 = funct3.setWidth 32 := by
  apply BitVec.eq_of_getLsbD_eq
  intro i hi
  have hmask : (7 : Word) = (BitVec.allOnes 3).setWidth 32 := rfl
  have h7 : ¬ 12 + i < 7 := by omega
  have h5 : ¬ 12 + i - 7 < 5 := by omega
  simp only [Instruction.funct3, hmask, Word.getLsbD_and_lowMask _ _ hi, assemble,
    BitVec.getLsbD_ushiftRight, BitVec.getLsbD_append, BitVec.getLsbD_setWidth, hi]
  by_cases h : i < 3
  · simp [h, h7, h5, show 12 + i - 7 - 5 = i by omega]
  · simp [h, BitVec.getLsbD_of_ge funct3 i (by omega)]

theorem rs1_assemble : (⟨assemble top rs1 funct3 low opcode⟩ : Instruction).rs1 = rs1 := by
  apply BitVec.eq_of_getLsbD_eq
  intro i hi
  have h7 : ¬ 15 + i < 7 := by omega
  have h5 : ¬ 15 + i - 7 < 5 := by omega
  have h3 : ¬ 15 + i - 7 - 5 < 3 := by omega
  simp only [Instruction.rs1, Reg.ofField, assemble, BitVec.getLsbD_setWidth,
    BitVec.getLsbD_ushiftRight, BitVec.getLsbD_append]
  simp [hi, h7, h5, h3, show 15 + i - 7 - 5 - 3 = i by omega]

theorem assemble_ushiftRight_twenty :
    assemble top rs1 funct3 low opcode >>> 20 = top.setWidth 32 := by
  apply BitVec.eq_of_getLsbD_eq
  intro i hi
  have h7 : ¬ 20 + i < 7 := by omega
  have h5 : ¬ 20 + i - 7 < 5 := by omega
  have h3 : ¬ 20 + i - 7 - 5 < 3 := by omega
  have hr : ¬ 20 + i - 7 - 5 - 3 < 5 := by omega
  simp only [assemble, BitVec.getLsbD_ushiftRight, BitVec.getLsbD_append,
    BitVec.getLsbD_setWidth, hi]
  simp [h7, h5, h3, hr, show 20 + i - 7 - 5 - 3 - 5 = i by omega]

theorem rs2_assemble :
    (⟨assemble top rs1 funct3 low opcode⟩ : Instruction).rs2 = top.setWidth 5 := by
  rw [Instruction.rs2, assemble_ushiftRight_twenty, Reg.ofField]
  exact BitVec.setWidth_setWidth_of_le top (by decide)

theorem csrAddress_assemble :
    (⟨assemble top rs1 funct3 low opcode⟩ : Instruction).csrAddress = top.setWidth 16 := by
  rw [Instruction.csrAddress, assemble_ushiftRight_twenty]
  exact BitVec.setWidth_setWidth_of_le top (by decide)

theorem amoSelector_assemble :
    (⟨assemble top rs1 funct3 low opcode⟩ : Instruction).amoSelector =
      (top.extractLsb' 7 5).setWidth 32 := by
  have hsplit : assemble top rs1 funct3 low opcode >>> 27 =
      assemble top rs1 funct3 low opcode >>> 20 >>> 7 :=
    BitVec.shiftRight_add _ 20 7
  rw [Instruction.amoSelector, hsplit, assemble_ushiftRight_twenty]
  apply BitVec.eq_of_getLsbD_eq
  intro i hi
  simp only [BitVec.getLsbD_ushiftRight, BitVec.getLsbD_setWidth, BitVec.getLsbD_extractLsb']
  by_cases h : i < 5
  · simp [h, hi, show 7 + i < 32 by omega]
  · simp [h, BitVec.getLsbD_of_ge top (7 + i) (by omega)]

theorem assemble_and_three :
    assemble top rs1 funct3 low opcode &&& 3 = opcode.setWidth 32 &&& 3 := by
  have hmask : (3 : Word) = 0x7f &&& 3 := rfl
  rw [← opcode_assemble top rs1 funct3 low opcode, Instruction.opcode, BitVec.and_assoc, ← hmask]

/-- An assembled word is as long as its opcode says. -/
theorem compressed_assemble :
    (⟨assemble top rs1 funct3 low opcode⟩ : Instruction).compressed =
      (opcode.setWidth 32 &&& (3 : Word) != 3) := by
  rw [Instruction.compressed, assemble_and_three]

end Fields

theorem encode_and_three (i : Emulated) : encode i &&& 3 = 3 := by
  cases i <;> simp only [encode, assemble_and_three] <;> rfl

theorem encode_ne_zero (i : Emulated) : encode i ≠ 0 := by
  intro h
  have h3 := encode_and_three i
  rw [h] at h3
  cases h3

/-! ## Decoders -/

def Load.kind : Load → LoadKind
  | lh => .half
  | lhu => .halfUnsigned
  | lw => .word

def Store.kind : Store → StoreKind
  | sh => .half
  | sw => .word

def Amo.op : Amo → AmoOp
  | swap => .swap
  | add => .add
  | xor => .xor
  | and => .and
  | or => .or
  | min => .min
  | max => .max
  | minu => .minUnsigned
  | maxu => .maxUnsigned

def Counter.half : Counter → CounterHalf
  | cycle | time | instret => .low
  | cycleh | timeh | instreth => .high

theorem ofLoad_encode (op : Load) (rd rs1 : Reg) (offset : BitVec 12) (a : Word) :
    Operation.ofLoad ⟨encode (.load op rd rs1 offset)⟩ a = .ok (.unalignedLoad op.kind rd a) := by
  have hk : LoadKind.ofFunct3 (op.funct3.setWidth 32) = .ok op.kind := by cases op <;> rfl
  simp only [Operation.ofLoad, Instruction.rejectCompressed, encode, compressed_assemble,
    funct3_assemble, rd_assemble, hk]
  rfl

theorem ofStore_encode (op : Store) (rs2 rs1 : Reg) (offset : BitVec 12) (a : Word) :
    Operation.ofStore ⟨encode (.store op rs2 rs1 offset)⟩ a =
      .ok (.unalignedStore op.kind rs2 a) := by
  have hk : StoreKind.ofFunct3 (op.funct3.setWidth 32) = .ok op.kind := by cases op <;> rfl
  have hr : (offset.extractLsb' 5 7 ++ rs2).setWidth 5 = rs2 := BitVec.setWidth_append_eq_right
  simp only [Operation.ofStore, Instruction.rejectCompressed, encode, compressed_assemble,
    funct3_assemble, rs2_assemble, hk, hr]
  rfl

/-- The five topmost bits of each atomic memory operation, the reservation pair included. -/
def atomicCode : AmoOp → BitVec 5
  | .add => 0b00000
  | .swap => 0b00001
  | .loadReserved => 0b00010
  | .storeConditional => 0b00011
  | .xor => 0b00100
  | .or => 0b01000
  | .and => 0b01100
  | .min => 0b10000
  | .max => 0b10100
  | .minUnsigned => 0b11000
  | .maxUnsigned => 0b11100

theorem selector_eq (op : AmoOp) : op.selector = (atomicCode op).setWidth 32 := by
  cases op <;> rfl

def atomicWord (op : AmoOp) (aq rl : BitVec 1) (rd rs1 rs2 : Reg) : Word :=
  assemble (atomicCode op ++ aq ++ rl ++ rs2) rs1 2 rd 0x2f

theorem encode_amo (op : Amo) (aq rl : BitVec 1) (rd rs1 rs2 : Reg) :
    encode (.amo op aq rl rd rs1 rs2) = atomicWord op.op aq rl rd rs1 rs2 := by
  cases op <;> rfl

theorem extractLsb'_atomicCode (op : AmoOp) (aq rl : BitVec 1) (rs2 : Reg) :
    (atomicCode op ++ aq ++ rl ++ rs2).extractLsb' 7 5 = atomicCode op := by
  apply BitVec.eq_of_getLsbD_eq
  intro i hi
  have h7 : ¬ 7 + i < 5 := by omega
  have h1 : ¬ 7 + i - 5 < 1 := by omega
  have h0 : ¬ 7 + i - 5 - 1 < 1 := by omega
  simp only [BitVec.getLsbD_extractLsb', BitVec.getLsbD_append, hi, h7, h1, h0, if_false,
    decide_true, Bool.true_and, show 7 + i - 5 - 1 - 1 = i by omega]

theorem ofIllegal_atomicWord (op : AmoOp) (aq rl : BitVec 1) (rd rs1 rs2 : Reg) :
    Operation.ofIllegal ⟨atomicWord op aq rl rd rs1 rs2⟩ = .ok (.atomic op rd rs1 rs2) := by
  have hr : (atomicCode op ++ aq ++ rl ++ rs2).setWidth 5 = rs2 := BitVec.setWidth_append_eq_right
  simp only [Operation.ofIllegal, Operation.ofAmo, Instruction.rejectCompressed, atomicWord,
    compressed_assemble, opcode_assemble, funct3_assemble, rd_assemble, rs1_assemble,
    rs2_assemble, amoSelector_assemble, extractLsb'_atomicCode, ← selector_eq,
    AmoOp.ofSelector_selector, hr]
  rfl

theorem ofIllegal_encode_amo (op : Amo) (aq rl : BitVec 1) (rd rs1 rs2 : Reg) :
    Operation.ofIllegal ⟨encode (.amo op aq rl rd rs1 rs2)⟩ =
      .ok (.atomic op.op rd rs1 rs2) := by
  rw [encode_amo, ofIllegal_atomicWord]

/-- The instructions that access a control and status register. In the last three, the source field
is a number instead of a register. -/
inductive CsrAccess where
  | csrrw | csrrs | csrrc | csrrwi | csrrsi | csrrci
  deriving DecidableEq

namespace CsrAccess

def funct3 : CsrAccess → BitVec 3
  | csrrw => 1
  | csrrs => 2
  | csrrc => 3
  | csrrwi => 5
  | csrrsi => 6
  | csrrci => 7

/-- Whether the register is written, which depends on the source field unless it is exchanged. -/
def writes (access : CsrAccess) (source : Reg) : Bool :=
  access == csrrw || access == csrrwi || source != 0

def word (access : CsrAccess) (number : BitVec 12) (source rd : Reg) : Word :=
  assemble number source access.funct3 rd 0x73

end CsrAccess

theorem ofCsr_number (c : Counter) : CounterHalf.ofCsr (c.number.setWidth 16) = .ok c.half := by
  cases c <;> rfl

/-- A counter is read by every access that does not write it. -/
theorem ofIllegal_word (access : CsrAccess) (c : Counter) (source rd : Reg) :
    Operation.ofIllegal ⟨access.word c.number source rd⟩ =
      if access.writes source then .error (.csrWrite (c.number.setWidth 16))
      else .ok (.counterRead c.half rd) := by
  have hmode : ¬ access.funct3.setWidth 32 &&& (3 : Word) = 0 := by cases access <;> decide
  have hwrites : (access.funct3.setWidth 32 &&& (3 : Word) == 1 || source != 0) =
      access.writes source := by cases access <;> rfl
  simp only [Operation.ofIllegal, Operation.ofCsrAccess, Operation.csrWrites,
    Instruction.rejectCompressed, CsrAccess.word, compressed_assemble, opcode_assemble,
    funct3_assemble, rd_assemble, rs1_assemble, csrAddress_assemble, ofCsr_number, hwrites,
    if_neg hmode]
  rfl

def CsrForm.access : CsrForm → CsrAccess
  | csrrs => .csrrs
  | csrrc => .csrrc
  | csrrsi => .csrrsi
  | csrrci => .csrrci

theorem encode_counter (form : CsrForm) (c : Counter) (rd : Reg) :
    encode (.counter form c rd) = form.access.word c.number 0 rd := by
  cases form <;> rfl

theorem ofIllegal_encode_counter (form : CsrForm) (c : Counter) (rd : Reg) :
    Operation.ofIllegal ⟨encode (.counter form c rd)⟩ = .ok (.counterRead c.half rd) := by
  rw [encode_counter, ofIllegal_word]
  cases form <;> rfl

end Rv32

end TrapMonitor
