import TrapMonitor.Core.Instr

/-! # Straight code

An instruction is found at its address when the code in front of it does not reach around the
address space. A stretch of instructions that goes on without a trap is then run in one step.
-/
namespace TrapMonitor

namespace Code

theorem runFor_next {code : Code} {n : Nat} {c d : Core} {i : Instr} (hi : code.at? c.pc = some i)
    (hs : c.step i = .next d) : code.runFor (n + 1) c = code.runFor n d := by
  simp only [runFor, hi, hs]

/-- The bytes that a list of instructions takes. -/
def span : List Instr → Nat
  | [] => 0
  | i :: rest => i.size.toNat + span rest

theorem span_append (is js : List Instr) : span (is ++ js) = span is + span js := by
  induction is with
  | nil => simp [span]
  | cons i rest ih => simp [span, ih, Nat.add_assoc]

theorem find_append (a : Word) (front : List Instr) (i : Instr) (rest : List Instr)
    (h : span front < 0x100000000) :
    find (a + BitVec.ofNat 32 (span front)) a (front ++ i :: rest) = some i := by
  induction front generalizing a with
  | nil => simp [span, find]
  | cons j front ih =>
    have hpos : 0 < j.size.toNat := by cases j <;> simp [Instr.size]
    have hspan : span (j :: front) = j.size.toNat + span front := rfl
    have hne : a + BitVec.ofNat 32 (span (j :: front)) ≠ a := by
      intro he
      have hn := congrArg BitVec.toNat he
      have ha := a.isLt
      simp only [BitVec.toNat_add, BitVec.toNat_ofNat] at hn
      omega
    have hnext : a + BitVec.ofNat 32 (span (j :: front)) =
        a + j.size + BitVec.ofNat 32 (span front) := by
      rw [hspan, BitVec.ofNat_add, BitVec.ofNat_toNat, BitVec.setWidth_eq, BitVec.add_assoc]
    rw [List.cons_append, find, if_neg hne, hnext, ih _ (by omega)]

/-- The instructions `is` lie in the code at address `pc`. -/
def At (code : Code) : Word → List Instr → Prop
  | _, [] => True
  | pc, i :: rest => code.at? pc = some i ∧ At code (pc + i.size) rest

theorem at_of_append {code : Code} {front is rest : List Instr}
    (hbody : code.body = front ++ is ++ rest) (h : span (front ++ is) < 0x100000000) :
    code.At (code.base + BitVec.ofNat 32 (span front)) is := by
  induction is generalizing front with
  | nil => trivial
  | cons i is ih =>
    have hspan : span (front ++ [i]) = span front + i.size.toNat := by
      rw [span_append]
      simp [span]
    have hsplit : front ++ i :: is = front ++ [i] ++ is := by simp
    have hnext : code.base + BitVec.ofNat 32 (span front) + i.size =
        code.base + BitVec.ofNat 32 (span (front ++ [i])) := by
      rw [hspan, BitVec.ofNat_add, BitVec.ofNat_toNat, BitVec.setWidth_eq, BitVec.add_assoc]
    rw [span_append] at h
    refine ⟨?_, ?_⟩
    · rw [at?, hbody, List.append_assoc, List.cons_append]
      exact find_append _ _ _ _ (by omega)
    · rw [hnext]
      refine ih (by rw [hbody, hsplit]) ?_
      rw [← hsplit, span_append]
      exact h

end Code

/-- The core runs through the instructions one after another, without a trap. -/
inductive Line : Core → List Instr → Core → Prop
  | nil (c : Core) : Line c [] c
  | cons {c d e : Core} {i : Instr} {rest : List Instr} : c.step i = .next d →
    d.pc = c.pc + i.size → Line d rest e → Line c (i :: rest) e

namespace Line

theorem append {c d e : Core} {is js : List Instr} (first : Line c is d) (second : Line d js e) :
    Line c (is ++ js) e := by
  induction first with
  | nil c => exact second
  | cons hs hpc _ ih => exact .cons hs hpc (ih second)

/-- The code runs through a line that lies at the program counter. -/
theorem runFor {code : Code} {c d : Core} {is : List Instr} (h : Line c is d)
    (hat : code.At c.pc is) (n : Nat) : code.runFor (n + is.length) c = code.runFor n d := by
  induction h with
  | nil c => rfl
  | cons hs hpc _ ih =>
    rw [List.length_cons, ← Nat.add_assoc, Code.runFor_next hat.1 hs]
    exact ih (hpc ▸ hat.2)

end Line

end TrapMonitor
