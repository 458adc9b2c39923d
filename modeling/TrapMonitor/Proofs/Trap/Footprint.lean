import TrapMonitor.Proofs.Trap.Completion
import TrapMonitor.Proofs.Trap.Halt

/-! # Which memory a trap concerns

The accesses that are made for a trap go to where the trapped instruction lies, and to where it would
have gone itself. Only the second of these is ever written. The address of every access is known from
the machine before the first one, whichever of them are refused.
-/
namespace TrapMonitor

open Hart

/-! ## The words of an instruction -/

namespace Memory

/-- How long the instruction at `pc` is. -/
def instructionSize (m : Memory) (pc : Word) : Nat := if m.word pc &&& 3 = 3 then 4 else 2

/-- The word at `a` holds some of the instruction at `pc`. It is aligned if instructions are. -/
structure HoldsInstruction (m : Memory) (pc a : Word) : Prop where
  overlaps : ∃ i < m.instructionSize pc, (pc + BitVec.ofNat 32 i - a).toNat < 4
  aligned : pc.toNat % 2 = 0 → a.toNat % 4 = 0

variable {m : Memory} {pc : Word}

theorem instructionSize_pos (m : Memory) (pc : Word) : 0 < m.instructionSize pc := by
  unfold instructionSize
  split <;> decide

theorem and_two_eq_zero_iff {pc : Word} : pc &&& 2 = 0 ↔ pc.toNat % 4 < 2 := by
  have htwo : (2 : Word) = BitVec.twoPow 32 1 := rfl
  have hbit : pc.getLsbD 1 = decide (pc.toNat / 2 ^ 1 % 2 = 1) := Nat.testBit_eq_decide_div_mod_eq
  rw [htwo, BitVec.and_twoPow, hbit]
  by_cases h : pc.toNat / 2 ^ 1 % 2 = 1
  · rw [decide_eq_true h, if_pos rfl]
    exact iff_of_false (by decide) (by omega)
  · rw [decide_eq_false h, if_neg Bool.false_ne_true]
    exact iff_of_true rfl (by omega)

theorem holdsInstruction_self (h : pc &&& 2 = 0) : m.HoldsInstruction pc pc where
  overlaps := ⟨0, m.instructionSize_pos pc, by simp⟩
  aligned heven := by
    have hlow := and_two_eq_zero_iff.mp h
    omega

theorem holdsInstruction_sub_two (h : ¬ pc &&& 2 = 0) : m.HoldsInstruction pc (pc - 2) where
  overlaps := by
    refine ⟨0, m.instructionSize_pos pc, ?_⟩
    rw [BitVec.add_zero]
    have htwo : pc - (pc - 2) = 2 := by bv_omega
    rw [htwo]
    decide
  aligned heven := by
    have hlow := mt and_two_eq_zero_iff.mpr h
    have htwo : (2 : Word).toNat = 2 := rfl
    rw [BitVec.toNat_sub, htwo]
    have := pc.isLt
    omega

theorem holdsInstruction_add_two (h : ¬ pc &&& 2 = 0) (hlong : m.word pc &&& 3 = 3) :
    m.HoldsInstruction pc (pc + 2) where
  overlaps := by
    refine ⟨2, ?_, ?_⟩
    · rw [instructionSize, if_pos hlong]
      decide
    · have hself : pc + BitVec.ofNat 32 2 - (pc + 2) = 0 := BitVec.sub_self _
      rw [hself]
      decide
  aligned heven := by
    have hlow := mt and_two_eq_zero_iff.mpr h
    have htwo : (2 : Word).toNat = 2 := rfl
    rw [BitVec.toNat_add, htwo]
    have := pc.isLt
    omega

end Memory

variable {H F : Type} [Hart H] [HartView H] [FrameStore H F] [FaithfulHart H F]

/-- An instruction is read from the words that hold it. -/
theorem within_fetch {h : H} (hr : HartView.ready h) {pc : Word}
    {G : AccessKind → Width → Word → Prop}
    (hG : ∀ a, (HartView.memory h).HoldsInstruction pc a → G .load .word a) :
    Within F G (fetch pc : HartAccess H Word) h := by
  unfold fetch
  split
  · next hlow => exact .load hr (hG pc (Memory.holdsInstruction_self hlow))
  · next hhigh =>
    refine .bind (.load hr (hG _ (Memory.holdsInstruction_sub_two hhigh))) fun hfirst acc => ?_
    obtain ⟨rfl, -⟩ := FaithfulHart.load_ok hr hfirst
    dsimp only
    split
    · exact .pure acc.ready _
    · next hlong =>
      refine .bind (.load acc.ready (hG _ (Memory.holdsInstruction_add_two hhigh ?_)))
        fun _ acc => .pure acc.ready _
      rw [ProtectedMemory.contents, Memory.word_ushiftRight_sixteen, BitVec.sub_add_cancel,
        Memory.half_and_three] at hlong
      exact Classical.not_not.mp hlong

/-! ## The footprint of a trap -/

namespace Machine

variable {P : Type} [Platform P] {m : Machine H P F}

/-- Where the accesses for a trap may go. The instruction is read, and the operand is read or written,
byte by byte if it is misaligned. -/
inductive Footprint (m : Machine H P F) : AccessKind → Width → Word → Prop
  | instruction {a : Word} : ReadsInstruction m →
    (HartView.memory m.hart).HoldsInstruction (readCsr .mepc m.hart) a →
    Footprint m .load .word a
  | loaded {kind : LoadKind} {rd : Reg} {i : Nat} :
    m.asked = some (.unalignedLoad kind rd (readCsr .mbadaddr m.hart)) → i < kind.size →
    Footprint m .load .byte (readCsr .mbadaddr m.hart + BitVec.ofNat 32 i)
  | stored {kind : StoreKind} {src : Reg} {i : Nat} :
    m.asked = some (.unalignedStore kind src (readCsr .mbadaddr m.hart)) → i < kind.size →
    Footprint m .store .byte (readCsr .mbadaddr m.hart + BitVec.ofNat 32 i)
  | atomicLoaded {amo : AmoOp} {rd src : Reg} :
    m.asked = some (.atomic amo rd m.instruction.rs1 src) →
    Footprint m .load .word (m.register m.instruction.rs1)
  | atomicStored {amo : AmoOp} {rd src : Reg} :
    m.asked = some (.atomic amo rd m.instruction.rs1 src) → amo.isReservation = false →
    Footprint m .store .word (m.register m.instruction.rs1)

omit [Platform P] in
theorem within_instructionWord (hr : HartView.ready m.hart) {e : Exception}
    (hc : Cause.ofWord (readCsr .mcause m.hart) = .exception e) :
    Within F (fun kind w a => kind = .load ∧ m.Footprint kind w a)
      ((TrapState.capture m.hart).instructionWord e : HartAccess H Word) m.hart := by
  obtain ⟨-, he⟩ := Cause.ofWord_eq_exception_iff.mp hc
  have hcode : readCsr .mcause m.hart = e.code := by rw [he, Exception.code_ofCode]
  have hfetch (hreads : ReadsInstruction m) :
      Within F (fun kind w a => kind = .load ∧ m.Footprint kind w a)
        (fetch (TrapState.capture m.hart).mepc : HartAccess H Word) m.hart :=
    within_fetch hr fun a ha => ⟨rfl, .instruction hreads ha⟩
  cases e with
  | loadAddressMisaligned => exact hfetch (.inl hcode)
  | storeAddressMisaligned => exact hfetch (.inr (.inl hcode))
  | illegalInstruction =>
    by_cases hz : (TrapState.capture m.hart).mbadaddr = 0
    · rw [TrapState.instructionWord_of_eq_zero hz]
      exact hfetch (.inr (.inr ⟨hcode, hz⟩))
    · rw [TrapState.instructionWord_of_ne_zero hz]
      exact .pure hr _
  | _ => exact .pure hr _

omit [Platform P] in
/-- The operand of what the trap asks for, after the instruction was read. -/
theorem within_operand {op : Operation} {h : H} {made : List Access} (hop : m.asked = some op)
    (acc : Accessed F m.hart made h) (hl : ∀ y ∈ made, y.kind = .load) :
    Within F m.Footprint ({ m with hart := h }.operand op) h := by
  have hreg : { m with hart := h }.register = m.register := register_of_loads acc hl
  obtain ⟨e, -, hd⟩ := decoded_of_asked hop
  cases hd with
  | load kind => exact .readUnaligned acc.ready fun i hi => .loaded hop hi
  | store kind =>
    exact .bind (.writeUnaligned acc.ready (fun i hi => .stored hop hi) _) fun _ acc =>
      .pure acc.ready _
  | atomic amo =>
    simp only [operand, hreg]
    refine .bind (.load acc.ready (.atomicLoaded hop)) fun _ acc => ?_
    split
    · next new hnew =>
      have hstores := AmoOp.isReservation_of_apply_eq_some hnew
      exact .bind (.store acc.ready (.atomicStored hop hstores) _) fun _ acc => .pure acc.ready _
    · exact .pure acc.ready _
  | counter half => exact .pure acc.ready _
  | call c => exact .pure acc.ready _

/-- Whatever the trap, and however it ends, all accesses are made in its footprint. -/
theorem footprint_of_made (hr : HartView.ready m.hart) :
    ∀ y ∈ made m.hart (handleTrap m).2.hart, m.Footprint y.kind y.width y.address := by
  -- what follows the accesses leaves no record
  have hend {l : List Access} {h h' : H} (acc : Accessed F m.hart l h)
      (ht : HartView.trace h' = HartView.trace h)
      (hl : ∀ y ∈ l, m.Footprint y.kind y.width y.address) :
      ∀ y ∈ made m.hart h', m.Footprint y.kind y.width y.address := by
    rw [acc.made_eq ht]
    exact hl
  have hmoved {e : Exception} {w : Word} {h : H} {op : Operation} {l : List Access}
      (hc : Cause.ofWord (readCsr .mcause m.hart) = .exception e)
      (hw : (TrapState.capture m.hart).instructionWord e m.hart = .ok w h)
      (hd : (TrapState.capture m.hart).decode e (m.register .a7) w = .ok op)
      (acc : Accessed F m.hart l h)
      (hf : ∀ y ∈ l, y.kind = .load ∧ m.Footprint y.kind y.width y.address) :
      Within F m.Footprint ({ m with hart := h }.operand op) h :=
    within_operand (asked_of_decode hr hc hw hd) acc fun y hy => (hf y hy).1
  cases hres : handleTrap m with
  | mk o m' =>
  cases o with
  | resumed =>
    rcases handleTrap_eq_resumed.mp hres with ⟨-, rfl⟩ | ⟨e, op, m₁, hc, ⟨hw, hd, hv⟩, rfl⟩
    · exact hend (.refl m.hart hr) m.keepsBut_timerTick.trace (by simp)
    · obtain ⟨fetches, acc, hf⟩ := (within_instructionWord hr hc).ok hw
      obtain ⟨moves, acc', hm⟩ := (hmoved hc hw hd acc hf).ok hv
      refine hend (acc.trans acc') ?_ fun y hy =>
        (List.mem_append.mp hy).elim (fun hy => (hf y hy).2) (hm y)
      exact (keepsBut_resume _ _).trace.trans (keepsBut_complete _ op _ _).trace
  | delegated f =>
    obtain ⟨e, h, hc, hfaults, rfl⟩ := handleTrap_eq_delegated.mp hres
    have hdelegated := (TrapState.keepsBut_delegate (.capture m.hart) h).trace
    cases hfaults with
    | instruction hw =>
      obtain ⟨fetches, acc, hf⟩ := (within_instructionWord hr hc).error hw
      exact hend acc hdelegated fun y hy => (hf y hy).2
    | operand hw hd hv =>
      obtain ⟨fetches, acc, hf⟩ := (within_instructionWord hr hc).ok hw
      obtain ⟨moves, acc', hm⟩ := (hmoved hc hw hd acc hf).error hv
      exact hend (acc.trans acc') hdelegated fun y hy =>
        (List.mem_append.mp hy).elim (fun hy => (hf y hy).2) (hm y)
  | halted u =>
    rcases handleTrap_eq_halted.mp hres with ⟨i, -, -, -, rfl⟩ | ⟨e, h, hc, ⟨hw, -⟩, rfl⟩
    · exact hend (.refl _ hr) rfl (by simp)
    · obtain ⟨fetches, acc, hf⟩ := (within_instructionWord hr hc).ok hw
      exact hend acc rfl fun y hy => (hf y hy).2

end Machine

end TrapMonitor
