import TrapMonitor.Proofs.Isa.Decoding
import TrapMonitor.Proofs.Isa.Encoding

/-! # Which unknown instructions are emulated

The instructions that the decoder of unknown instructions accepts are given here by their fields, and
so is the order in which it refuses all others. It accepts the atomic memory operations of a word and
the reads of the counters, and of these every encoding. A word is the assembly of its fields, so what
is known of assembled words holds of every word.
-/
namespace TrapMonitor.Rv32

/-! ## The fields of any word -/

section Fields

variable (w : Word)

theorem assemble_fields :
    assemble (w.extractLsb' 20 12) (w.extractLsb' 15 5) (w.extractLsb' 12 3) (w.extractLsb' 7 5)
      (w.extractLsb' 0 7) = w := by
  apply BitVec.eq_of_getLsbD_eq
  intro i hi
  simp only [assemble, BitVec.getLsbD_append, BitVec.getLsbD_extractLsb']
  by_cases h7 : i < 7
  · simp [h7]
  by_cases h5 : i - 7 < 5
  · simp [h7, h5, show 7 + (i - 7) = i by omega]
  by_cases h3 : i - 7 - 5 < 3
  · simp [h7, h5, h3, show 12 + (i - 7 - 5) = i by omega]
  by_cases hr : i - 7 - 5 - 3 < 5
  · simp [h7, h5, h3, hr, show 15 + (i - 7 - 5 - 3) = i by omega]
  · simp [h7, h5, h3, hr, show i - 7 - 5 - 3 - 5 < 12 by omega,
      show 20 + (i - 7 - 5 - 3 - 5) = i by omega]

theorem opcode_eq : (⟨w⟩ : Instruction).opcode = (w.extractLsb' 0 7).setWidth 32 := by
  conv => lhs; rw [← assemble_fields w]
  exact opcode_assemble _ _ _ _ _

theorem funct3_eq : (⟨w⟩ : Instruction).funct3 = (w.extractLsb' 12 3).setWidth 32 := by
  conv => lhs; rw [← assemble_fields w]
  exact funct3_assemble _ _ _ _ _

theorem rd_eq : (⟨w⟩ : Instruction).rd = w.extractLsb' 7 5 := by
  conv => lhs; rw [← assemble_fields w]
  exact rd_assemble _ _ _ _ _

theorem rs1_eq : (⟨w⟩ : Instruction).rs1 = w.extractLsb' 15 5 := by
  conv => lhs; rw [← assemble_fields w]
  exact rs1_assemble _ _ _ _ _

theorem extractLsb'_extractLsb' {start length offset n : Nat} (h : offset + n ≤ length) :
    (w.extractLsb' start length).extractLsb' offset n = w.extractLsb' (start + offset) n := by
  apply BitVec.eq_of_getLsbD_eq
  intro i hi
  simp [hi, show offset + i < length by omega, Nat.add_assoc]

theorem rs2_eq : (⟨w⟩ : Instruction).rs2 = w.extractLsb' 20 5 := by
  conv => lhs; rw [← assemble_fields w]
  rw [rs2_assemble, BitVec.setWidth_eq_extractLsb' (by decide), extractLsb'_extractLsb' w (by decide)]

theorem csrAddress_eq : (⟨w⟩ : Instruction).csrAddress = (w.extractLsb' 20 12).setWidth 16 := by
  conv => lhs; rw [← assemble_fields w]
  exact csrAddress_assemble _ _ _ _ _

theorem amoSelector_eq : (⟨w⟩ : Instruction).amoSelector = (w.extractLsb' 27 5).setWidth 32 := by
  conv => lhs; rw [← assemble_fields w]
  rw [amoSelector_assemble, extractLsb'_extractLsb' w (by decide)]

end Fields

theorem setWidth_inj {n k : Nat} (h : n ≤ k) {a b : BitVec n} :
    a.setWidth k = b.setWidth k ↔ a = b := by
  constructor
  · intro he
    have hback := congrArg (BitVec.setWidth n) he
    rwa [BitVec.setWidth_setWidth_of_le a h, BitVec.setWidth_setWidth_of_le b h,
      BitVec.setWidth_eq, BitVec.setWidth_eq] at hback
  · rintro rfl
    rfl

/-! ## The checks and the grammar -/

def Counter.all : List Counter := [cycle, time, instret, cycleh, timeh, instreth]

/-- The operations that an unknown instruction is accepted for: the atomic memory operations of a
word, whose ordering bits do not matter, and the accesses to a counter that do not write it. -/
inductive Accepted (w : Word) : Operation → Prop
  | atomic (op : AmoOp) : w.extractLsb' 0 7 = 0x2f → w.extractLsb' 12 3 = 2 →
    w.extractLsb' 27 5 = atomicCode op →
    Accepted w (.atomic op (w.extractLsb' 7 5) (w.extractLsb' 15 5) (w.extractLsb' 20 5))
  | counterRead (c : Counter) : w.extractLsb' 0 7 = 0x73 →
    w.extractLsb' 12 3 ∈ ([2, 3, 6, 7] : List (BitVec 3)) → w.extractLsb' 15 5 = 0 →
    w.extractLsb' 20 12 = c.number →
    Accepted w (.counterRead c.half (w.extractLsb' 7 5))

def atomicChecks (w : Word) : List (Bool × Unsupported) :=
  [(w.extractLsb' 12 3 = 2, .amoWidth ((w.extractLsb' 12 3).setWidth 32)),
    (w.extractLsb' 27 5 ∈ AmoOp.all.map atomicCode,
      .amoSelector ((w.extractLsb' 27 5).setWidth 32))]

def counterChecks (w : Word) : List (Bool × Unsupported) :=
  [(w.extractLsb' 12 3 ∉ ([0, 4] : List (BitVec 3)), .csrMode w),
    (w.extractLsb' 20 12 ∈ Counter.all.map Counter.number,
      .csrAddress ((w.extractLsb' 20 12).setWidth 16)),
    (w.extractLsb' 12 3 ∈ ([2, 3, 6, 7] : List (BitVec 3)) ∧ w.extractLsb' 15 5 = 0,
      .csrWrite ((w.extractLsb' 20 12).setWidth 16))]

/-- What an unknown instruction is asked, in this order, each time with the refusal that follows if
the answer is no. -/
def checks (w : Word) : List (Bool × Unsupported) :=
  (w.extractLsb' 0 2 = 3, .compressedInstruction ((w.extractLsb' 0 16).setWidth 32)) ::
    (w.extractLsb' 0 7 ∈ ([0x2f, 0x73] : List (BitVec 7)), .opcode w) ::
    if w.extractLsb' 0 7 = 0x2f then atomicChecks w else counterChecks w

/-- The refusal of the first check that is not passed. -/
def firstRefusal : List (Bool × Unsupported) → Option Unsupported
  | [] => none
  | (passed, u) :: rest => if passed then firstRefusal rest else some u

/-- The result is what the checks say: the first refusal, or an operation in `P` if all are
passed. -/
def Follows (P : Operation → Prop) (x : Except Unsupported Operation)
    (cs : List (Bool × Unsupported)) : Prop :=
  match firstRefusal cs with
  | some u => x = .error u
  | none => ∃ op, x = .ok op ∧ P op

namespace Follows

variable {P : Operation → Prop} {x : Except Unsupported Operation}

theorem accept {op : Operation} (hx : x = .ok op) (hp : P op) : Follows P x [] := ⟨op, hx, hp⟩

theorem check {q : Prop} [Decidable q] {u : Unsupported} {cs : List (Bool × Unsupported)}
    (refused : ¬ q → x = .error u) (passed : q → Follows P x cs) :
    Follows P x ((decide q, u) :: cs) := by
  by_cases hq : q
  · simpa [Follows, firstRefusal, hq] using passed hq
  · simpa [Follows, firstRefusal, hq] using refused hq

theorem of_eq_ok {cs : List (Bool × Unsupported)} {op : Operation} (h : Follows P x cs)
    (hx : x = .ok op) : P op := by
  unfold Follows at h
  split at h
  · cases hx.symm.trans h
  · obtain ⟨op', hx', hp⟩ := h
    cases hx.symm.trans hx'
    exact hp

theorem eq_error_iff {cs : List (Bool × Unsupported)} {u : Unsupported} (h : Follows P x cs) :
    x = .error u ↔ firstRefusal cs = some u := by
  unfold Follows at h
  split at h
  · next u' hu => rw [h, hu, Except.error.injEq, Option.some.injEq]
  · next hnone =>
    obtain ⟨op, hx, -⟩ := h
    simp [hx, hnone]

end Follows

variable {w : Word}

/-! ## Word-sized atomic memory operations -/

theorem funct3_eq_two_iff (w : Word) :
    (⟨w⟩ : Instruction).funct3 = 2 ↔ w.extractLsb' 12 3 = 2 := by
  rw [funct3_eq]
  exact setWidth_inj (n := 3) (k := 32) (b := 2) (by decide)

theorem selector_eq_amoSelector_iff (op : AmoOp) (w : Word) :
    op.selector = (⟨w⟩ : Instruction).amoSelector ↔ atomicCode op = w.extractLsb' 27 5 := by
  rw [amoSelector_eq, selector_eq]
  exact setWidth_inj (by decide)

theorem ofAmo_of_atomicCode {op : AmoOp} (h3 : w.extractLsb' 12 3 = 2)
    (h5 : w.extractLsb' 27 5 = atomicCode op) : Operation.ofAmo ⟨w⟩ =
      .ok (.atomic op (w.extractLsb' 7 5) (w.extractLsb' 15 5) (w.extractLsb' 20 5)) := by
  have hs := (selector_eq_amoSelector_iff op w).mpr h5.symm
  rw [Operation.ofAmo_of_selector ((funct3_eq_two_iff w).mpr h3) hs.symm, rd_eq, rs1_eq, rs2_eq]

theorem follows_ofAmo (hop : w.extractLsb' 0 7 = 0x2f) :
    Follows (Accepted w) (Operation.ofAmo ⟨w⟩) (atomicChecks w) := by
  refine .check (fun hne => ?_) fun h3 => .check (fun hne => ?_) fun h5 => ?_
  · rw [Operation.ofAmo_of_funct3_ne (mt (funct3_eq_two_iff w).mp hne), funct3_eq]
  · rw [Operation.ofAmo_of_selector_ne ((funct3_eq_two_iff w).mpr h3), amoSelector_eq]
    intro op hs
    have hcode := (selector_eq_amoSelector_iff op w).mp hs
    exact hne (List.mem_map.mpr ⟨op, by cases op <;> decide, hcode⟩)
  · obtain ⟨op, -, h5⟩ := List.mem_map.mp h5
    exact .accept (ofAmo_of_atomicCode h3 h5.symm) (.atomic op hop h3 h5.symm)

/-! ## Accesses to counters -/

theorem ofCsr_of_ne {n : BitVec 12} (h : ∀ c : Counter, c.number ≠ n) :
    CounterHalf.ofCsr (n.setWidth 16) = .error (.csrAddress (n.setWidth 16)) := by
  have hne (c : Counter) : n.setWidth 16 ≠ c.number.setWidth 16 := fun he =>
    h c ((setWidth_inj (by decide)).mp he).symm
  have hlow : ¬ (n.setWidth 16 = CounterHalf.cycle ∨ n.setWidth 16 = CounterHalf.time ∨
      n.setWidth 16 = CounterHalf.instret) := by
    rintro (he | he | he)
    · exact hne .cycle he
    · exact hne .time he
    · exact hne .instret he
  have hhigh : ¬ (n.setWidth 16 = CounterHalf.cycleHigh ∨ n.setWidth 16 = CounterHalf.timeHigh ∨
      n.setWidth 16 = CounterHalf.instretHigh) := by
    rintro (he | he | he)
    · exact hne .cycleh he
    · exact hne .timeh he
    · exact hne .instreth he
  rw [CounterHalf.ofCsr, if_neg hlow, if_neg hhigh]

theorem mode_eq_zero_iff (w : Word) :
    (⟨w⟩ : Instruction).funct3 &&& 3 = 0 ↔ w.extractLsb' 12 3 ∈ ([0, 4] : List (BitVec 3)) := by
  have key : ∀ f : BitVec 3,
      f.setWidth 32 &&& (3 : Word) = 0 ↔ f ∈ ([0, 4] : List (BitVec 3)) := by
    decide
  rw [funct3_eq, key]

theorem csrWrites_eq_false_iff (hmode : w.extractLsb' 12 3 ∉ ([0, 4] : List (BitVec 3))) :
    Operation.csrWrites ⟨w⟩ = false ↔
      w.extractLsb' 12 3 ∈ ([2, 3, 6, 7] : List (BitVec 3)) ∧ w.extractLsb' 15 5 = 0 := by
  have key : ∀ f : BitVec 3, f ∉ ([0, 4] : List (BitVec 3)) →
      ((f.setWidth 32 &&& (3 : Word) == 1) = false ↔ f ∈ ([2, 3, 6, 7] : List (BitVec 3))) := by
    decide
  rw [Operation.csrWrites, Bool.or_eq_false_iff, funct3_eq, rs1_eq, key _ hmode,
    bne_eq_false_iff_eq]

theorem ofCsrAccess_of_number {c : Counter}
    (hmode : w.extractLsb' 12 3 ∉ ([0, 4] : List (BitVec 3)))
    (hc : w.extractLsb' 20 12 = c.number) : Operation.ofCsrAccess ⟨w⟩ =
      if w.extractLsb' 12 3 ∈ ([2, 3, 6, 7] : List (BitVec 3)) ∧ w.extractLsb' 15 5 = 0
      then .ok (.counterRead c.half (w.extractLsb' 7 5))
      else .error (.csrWrite ((w.extractLsb' 20 12).setWidth 16)) := by
  have hok : CounterHalf.ofCsr (⟨w⟩ : Instruction).csrAddress = .ok c.half := by
    rw [csrAddress_eq, hc, ofCsr_number]
  rw [Operation.ofCsrAccess_of_csr_ok (mt (mode_eq_zero_iff w).mp hmode) hok, csrAddress_eq, rd_eq]
  by_cases hw : Operation.csrWrites ⟨w⟩ = false
  · rw [if_neg (by simp [hw]), if_pos ((csrWrites_eq_false_iff hmode).mp hw)]
  · rw [if_pos (by simpa using hw), if_neg (mt (csrWrites_eq_false_iff hmode).mpr hw)]

theorem follows_ofCsrAccess (hop : w.extractLsb' 0 7 = 0x73) :
    Follows (Accepted w) (Operation.ofCsrAccess ⟨w⟩) (counterChecks w) := by
  refine .check (fun hno => ?_) fun h3 => .check (fun hne => ?_) fun hcsr => ?_
  · exact Operation.ofCsrAccess_of_mode ((mode_eq_zero_iff w).mpr (Classical.not_not.mp hno))
  · refine Operation.ofCsrAccess_of_csr_error (mt (mode_eq_zero_iff w).mp h3) ?_
    rw [csrAddress_eq]
    refine ofCsr_of_ne fun c hc => hne ?_
    exact List.mem_map.mpr ⟨c, by cases c <;> decide, hc⟩
  · obtain ⟨c, -, hc⟩ := List.mem_map.mp hcsr
    have hx := ofCsrAccess_of_number h3 hc.symm
    refine .check (fun hwrite => ?_) fun hread => ?_
    · rw [hx, if_neg hwrite]
    · rw [if_pos hread] at hx
      exact .accept hx (.counterRead c hop hread.1 hread.2 hc.symm)

/-! ## Unknown instructions -/

theorem and_lowMask_eq (w : Word) (n : Nat) :
    w &&& (BitVec.allOnes n).setWidth 32 = (w.extractLsb' 0 n).setWidth 32 := by
  apply BitVec.eq_of_getLsbD_eq
  intro i hi
  rw [Word.getLsbD_and_lowMask _ _ hi]
  simp [hi, Bool.and_comm]

theorem opcode_eq_iff (o : BitVec 7) (w : Word) :
    (⟨w⟩ : Instruction).opcode = o.setWidth 32 ↔ w.extractLsb' 0 7 = o := by
  rw [opcode_eq]
  exact setWidth_inj (by decide)

/-- A word with one of the two opcodes is long. -/
theorem and_three_of_opcode {o : BitVec 7} (ho : o.setWidth 32 &&& (3 : Word) = 3)
    (hop : w.extractLsb' 0 7 = o) : w &&& 3 = 3 := by
  rw [← assemble_fields w, assemble_and_three, hop, ho]

theorem ofIllegal_of_amo (hop : w.extractLsb' 0 7 = 0x2f) :
    Operation.ofIllegal ⟨w⟩ = Operation.ofAmo ⟨w⟩ := by
  rw [Operation.ofIllegal_of_long (and_three_of_opcode rfl hop)]
  exact if_pos ((opcode_eq_iff 0x2f w).mpr hop)

theorem ofIllegal_of_system (hop : w.extractLsb' 0 7 = 0x73) :
    Operation.ofIllegal ⟨w⟩ = Operation.ofCsrAccess ⟨w⟩ := by
  have hne : (⟨w⟩ : Instruction).opcode ≠ Instruction.opcodeAmo := by
    refine mt (opcode_eq_iff 0x2f w).mp ?_
    rw [hop]
    decide
  rw [Operation.ofIllegal_of_long (and_three_of_opcode rfl hop), if_neg hne]
  exact if_pos ((opcode_eq_iff 0x73 w).mpr hop)

theorem ofIllegal_of_opcode_ne (hlong : w &&& 3 = 3) (hamo : w.extractLsb' 0 7 ≠ 0x2f)
    (hsystem : w.extractLsb' 0 7 ≠ 0x73) : Operation.ofIllegal ⟨w⟩ = .error (.opcode w) := by
  rw [Operation.ofIllegal_of_long hlong]
  exact (if_neg (mt (opcode_eq_iff 0x2f w).mp hamo)).trans
    (if_neg (mt (opcode_eq_iff 0x73 w).mp hsystem))

theorem follows_ofIllegal (w : Word) :
    Follows (Accepted w) (Operation.ofIllegal ⟨w⟩) (checks w) := by
  have hlong : w &&& 3 = 3 ↔ w.extractLsb' 0 2 = 3 := by
    have hmask : (3 : Word) = (BitVec.allOnes 2).setWidth 32 := rfl
    rw [hmask, and_lowMask_eq]
    exact setWidth_inj (n := 2) (k := 32) (b := 3) (by decide)
  have hpair : w.extractLsb' 0 7 ∈ ([0x2f, 0x73] : List (BitVec 7)) ↔
      w.extractLsb' 0 7 = 0x2f ∨ w.extractLsb' 0 7 = 0x73 := by simp
  refine .check (fun hshort => ?_) fun h2 => .check (fun hne => ?_) fun hmem => ?_
  · rw [Operation.ofIllegal_of_compressed (mt hlong.mp hshort)]
    exact congrArg _ (congrArg Unsupported.compressedInstruction (and_lowMask_eq w 16))
  · obtain ⟨hamo, hsystem⟩ := not_or.mp (mt hpair.mpr hne)
    exact ofIllegal_of_opcode_ne (hlong.mpr h2) hamo hsystem
  · by_cases hamo : w.extractLsb' 0 7 = 0x2f
    · rw [if_pos hamo, ofIllegal_of_amo hamo]
      exact follows_ofAmo hamo
    · have hsystem := (hpair.mp hmem).resolve_left hamo
      rw [if_neg hamo, ofIllegal_of_system hsystem]
      exact follows_ofCsrAccess hsystem

theorem ofIllegal_of_accepted {op : Operation} (h : Accepted w op) :
    Operation.ofIllegal ⟨w⟩ = .ok op := by
  cases h with
  | atomic op hop h3 h5 => rw [ofIllegal_of_amo hop, ofAmo_of_atomicCode h3 h5]
  | counterRead c hop h3 h1 hc =>
    have key : ∀ f : BitVec 3, f ∈ ([2, 3, 6, 7] : List (BitVec 3)) →
        f ∉ ([0, 4] : List (BitVec 3)) := by
      decide
    rw [ofIllegal_of_system hop, ofCsrAccess_of_number (key _ h3) hc, if_pos ⟨h3, h1⟩]

/-- The decoder of unknown instructions accepts its grammar and nothing else, and refuses every other
word with the first check that it does not pass. It undoes the encodings of all atomic memory
operations of a word and of all accesses to a counter, of which those that write are refused. -/
theorem ofIllegal_exact :
    (∀ w op, Operation.ofIllegal ⟨w⟩ = .ok op ↔ Accepted w op) ∧
    (∀ w u, Operation.ofIllegal ⟨w⟩ = .error u ↔ firstRefusal (checks w) = some u) ∧
    (∀ op aq rl rd rs1 rs2, Operation.ofIllegal ⟨atomicWord op aq rl rd rs1 rs2⟩ =
      .ok (.atomic op rd rs1 rs2)) ∧
    ∀ (access : CsrAccess) (c : Counter) (source rd : Reg),
      Operation.ofIllegal ⟨access.word c.number source rd⟩ =
        if access.writes source then .error (.csrWrite (c.number.setWidth 16))
        else .ok (.counterRead c.half rd) := by
  refine ⟨fun w op => ⟨fun h => ?_, ofIllegal_of_accepted⟩, fun w u => ?_, ofIllegal_atomicWord,
    ofIllegal_word⟩
  · exact (follows_ofIllegal w).of_eq_ok h
  · exact (follows_ofIllegal w).eq_error_iff

end TrapMonitor.Rv32
