import TrapMonitor.Isa.Decode
import TrapMonitor.Proofs.Computation

/-! # What the decoders return

Each decoder yields operations of its own kind only, with the operands of the instruction.
-/
namespace TrapMonitor

namespace Instruction

theorem rejectCompressed_eq_ok {i : Instruction} :
    i.rejectCompressed = .ok () ↔ i.raw &&& 3 = 3 := by
  simp [rejectCompressed, compressed]

theorem rejectCompressed_of_ne {i : Instruction} (h : i.raw &&& 3 ≠ 3) :
    i.rejectCompressed = .error (.compressedInstruction (i.raw &&& 0xffff)) :=
  if_pos (by simpa [compressed] using h)

end Instruction

namespace LoadKind

theorem ofFunct3_of_ne {n : Word} (h : ∀ kind : LoadKind, kind.funct3 ≠ n) :
    ofFunct3 n = .error (.loadWidth n) := by
  rw [ofFunct3, select_eq_none.mpr fun kind _ => h kind]
  rfl

end LoadKind

namespace StoreKind

theorem ofFunct3_of_ne {n : Word} (h : ∀ kind : StoreKind, kind.funct3 ≠ n) :
    ofFunct3 n = .error (.storeWidth n) := by
  rw [ofFunct3, select_eq_none.mpr fun kind _ => h kind]
  rfl

end StoreKind

namespace AmoOp

theorem ofSelector_of_ne {n : Word} (h : ∀ op : AmoOp, op.selector ≠ n) :
    ofSelector n = .error (.amoSelector n) := by
  rw [ofSelector, select_eq_none.mpr fun op _ => h op]
  rfl

end AmoOp

namespace Operation

theorem ofLoad_eq_ok {i : Instruction} {a : Word} {op : Operation} (h : ofLoad i a = .ok op) :
    ∃ kind, LoadKind.ofFunct3 i.funct3 = .ok kind ∧ op = .unalignedLoad kind i.rd a := by
  obtain ⟨⟨⟩, -, h⟩ := except_bind_eq_ok.mp h
  obtain ⟨kind, hk, h⟩ := except_bind_eq_ok.mp h
  cases h
  exact ⟨kind, hk, rfl⟩

theorem ofLoad_of_funct3 {i : Instruction} {kind : LoadKind} (hlong : i.raw &&& 3 = 3)
    (hk : i.funct3 = kind.funct3) (a : Word) : ofLoad i a = .ok (.unalignedLoad kind i.rd a) := by
  rw [ofLoad, Instruction.rejectCompressed_eq_ok.mpr hlong, hk, LoadKind.ofFunct3_funct3]
  rfl

theorem ofStore_of_funct3 {i : Instruction} {kind : StoreKind} (hlong : i.raw &&& 3 = 3)
    (hk : i.funct3 = kind.funct3) (a : Word) :
    ofStore i a = .ok (.unalignedStore kind i.rs2 a) := by
  rw [ofStore, Instruction.rejectCompressed_eq_ok.mpr hlong, hk, StoreKind.ofFunct3_funct3]
  rfl

theorem ofLoad_of_compressed {i : Instruction} (h : i.raw &&& 3 ≠ 3) (a : Word) :
    ofLoad i a = .error (.compressedInstruction (i.raw &&& 0xffff)) := by
  rw [ofLoad, Instruction.rejectCompressed_of_ne h]
  rfl

theorem ofStore_of_compressed {i : Instruction} (h : i.raw &&& 3 ≠ 3) (a : Word) :
    ofStore i a = .error (.compressedInstruction (i.raw &&& 0xffff)) := by
  rw [ofStore, Instruction.rejectCompressed_of_ne h]
  rfl

theorem ofLoad_of_ne {i : Instruction} (hlong : i.raw &&& 3 = 3)
    (h : ∀ kind : LoadKind, kind.funct3 ≠ i.funct3) (a : Word) :
    ofLoad i a = .error (.loadWidth i.funct3) := by
  rw [ofLoad, Instruction.rejectCompressed_eq_ok.mpr hlong, LoadKind.ofFunct3_of_ne h]
  rfl

theorem ofStore_of_ne {i : Instruction} (hlong : i.raw &&& 3 = 3)
    (h : ∀ kind : StoreKind, kind.funct3 ≠ i.funct3) (a : Word) :
    ofStore i a = .error (.storeWidth i.funct3) := by
  rw [ofStore, Instruction.rejectCompressed_eq_ok.mpr hlong, StoreKind.ofFunct3_of_ne h]
  rfl

theorem ofStore_eq_ok {i : Instruction} {a : Word} {op : Operation} (h : ofStore i a = .ok op) :
    i.raw &&& 3 = 3 ∧
      ∃ kind, StoreKind.ofFunct3 i.funct3 = .ok kind ∧ op = .unalignedStore kind i.rs2 a := by
  obtain ⟨⟨⟩, hc, h⟩ := except_bind_eq_ok.mp h
  obtain ⟨kind, hk, h⟩ := except_bind_eq_ok.mp h
  cases h
  exact ⟨Instruction.rejectCompressed_eq_ok.mp hc, kind, hk, rfl⟩

/-! ## Unknown instructions -/

section Illegal

variable {i : Instruction}

theorem ofIllegal_of_compressed (h : i.raw &&& 3 ≠ 3) :
    ofIllegal i = .error (.compressedInstruction (i.raw &&& 0xffff)) := by
  rw [ofIllegal, Instruction.rejectCompressed_of_ne h]
  rfl

theorem ofIllegal_of_long (hlong : i.raw &&& 3 = 3) :
    ofIllegal i = if i.opcode = Instruction.opcodeAmo then ofAmo i
      else if i.opcode = Instruction.opcodeSystem then ofCsrAccess i
      else .error (.opcode i.raw) := by
  rw [ofIllegal, Instruction.rejectCompressed_eq_ok.mpr hlong]
  rfl

theorem ofAmo_of_funct3_ne (h : i.funct3 ≠ 2) : ofAmo i = .error (.amoWidth i.funct3) := if_neg h

theorem ofAmo_of_selector_ne (hwidth : i.funct3 = 2)
    (h : ∀ op : AmoOp, op.selector ≠ i.amoSelector) :
    ofAmo i = .error (.amoSelector i.amoSelector) := by
  rw [ofAmo, if_pos hwidth, AmoOp.ofSelector_of_ne h]
  rfl

theorem ofAmo_of_selector {op : AmoOp} (hwidth : i.funct3 = 2) (hs : i.amoSelector = op.selector) :
    ofAmo i = .ok (.atomic op i.rd i.rs1 i.rs2) := by
  rw [ofAmo, if_pos hwidth, hs, AmoOp.ofSelector_selector]
  rfl

theorem ofCsrAccess_of_mode (h : i.funct3 &&& 3 = 0) :
    ofCsrAccess i = .error (.csrMode i.raw) := if_pos h

theorem ofCsrAccess_of_csr_error {u : Unsupported} (hmode : i.funct3 &&& 3 ≠ 0)
    (hc : CounterHalf.ofCsr i.csrAddress = .error u) : ofCsrAccess i = .error u := by
  rw [ofCsrAccess, if_neg hmode, hc]
  rfl

/-- A counter is read, unless the instruction would write it. -/
theorem ofCsrAccess_of_csr_ok {half : CounterHalf} (hmode : i.funct3 &&& 3 ≠ 0)
    (hc : CounterHalf.ofCsr i.csrAddress = .ok half) :
    ofCsrAccess i = if csrWrites i then .error (.csrWrite i.csrAddress)
      else .ok (.counterRead half i.rd) := by
  rw [ofCsrAccess, if_neg hmode, hc]
  rfl

end Illegal

theorem ofIllegal_eq_ok {i : Instruction} {op : Operation} (h : ofIllegal i = .ok op) :
    (∃ amo, op = .atomic amo i.rd i.rs1 i.rs2) ∨ ∃ half, op = .counterRead half i.rd := by
  obtain ⟨⟨⟩, -, h⟩ := except_bind_eq_ok.mp h
  split at h
  · left
    unfold ofAmo at h
    split at h
    · obtain ⟨amo, -, h⟩ := except_bind_eq_ok.mp h
      cases h
      exact ⟨amo, rfl⟩
    · cases h
  · split at h
    · right
      unfold ofCsrAccess at h
      split at h
      · cases h
      · obtain ⟨half, -, h⟩ := except_bind_eq_ok.mp h
        split at h
        · cases h
        · cases h
          exact ⟨half, rfl⟩
    · cases h

end Operation

end TrapMonitor
