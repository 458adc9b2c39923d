import TrapMonitor.Proofs.Isa.Decoding
import TrapMonitor.Proofs.Machine.Effects

/-! # Delegation is exact

A trap goes to the supervisor just when an access made for it is refused, and no access follows that
one. The supervisor then sees the trap as it was raised; of what had been done for the trapped
code only the bytes of a store that came before the refused one remain.
-/
namespace TrapMonitor

open Hart Access

variable {H P F : Type} [Hart H] [HartView H] [Platform P] [FrameStore H F] [FaithfulHart H F]

namespace Memory

/-- A whole instruction is the word at `pc`, however it was fetched. -/
theorem fetched_eq_word {m : Memory} {pc : Word} (h : m.fetched pc &&& 3 = 3) :
    m.fetched pc = m.word pc := by
  unfold fetched at h ⊢
  split
  · rfl
  · next hn =>
    have hmask : (0xffff : Word) &&& 3 = 3 := rfl
    rw [if_neg hn, BitVec.and_assoc, hmask] at h
    exact absurd (.inr h) hn

end Memory

namespace TrapState

/-- The operations that an exception can decode to, when the instruction is `i`. -/
inductive Decoded (s : TrapState) (i : Instruction) : Exception → Operation → Prop
  | load (kind : LoadKind) :
    Decoded s i .loadAddressMisaligned (.unalignedLoad kind i.rd s.mbadaddr)
  | store (kind : StoreKind) :
    Decoded s i .storeAddressMisaligned (.unalignedStore kind i.rs2 s.mbadaddr)
  | atomic (amo : AmoOp) : Decoded s i .illegalInstruction (.atomic amo i.rd i.rs1 i.rs2)
  | counter (half : CounterHalf) : Decoded s i .illegalInstruction (.counterRead half i.rd)
  | call (c : SbiCall) : Decoded s i .supervisorCall (.sbi c)

theorem decoded_of_decode {s : TrapState} {e : Exception} {number w : Word} {op : Operation}
    (hd : s.decode e number w = .ok op) : s.Decoded ⟨w⟩ e op := by
  cases e with
  | loadAddressMisaligned =>
    obtain ⟨kind, -, rfl⟩ := Operation.ofLoad_eq_ok hd
    exact .load kind
  | storeAddressMisaligned =>
    obtain ⟨-, kind, -, rfl⟩ := Operation.ofStore_eq_ok hd
    exact .store kind
  | illegalInstruction =>
    rcases Operation.ofIllegal_eq_ok hd with ⟨amo, rfl⟩ | ⟨half, rfl⟩
    · exact .atomic amo
    · exact .counter half
  | supervisorCall =>
    rw [decode] at hd
    cases hc : SbiCall.ofNumber number with
    | error u => simp [hc, Except.map] at hd
    | ok c =>
      rw [hc] at hd
      cases hd
      exact .call c
  | _ => cases hd

end TrapState

namespace Machine

/-- The instruction in memory that a trap was raised by. -/
def trappedInstruction (m : Machine H P F) : Instruction :=
  ⟨(HartView.memory m.hart).word (readCsr .mepc m.hart)⟩

variable {m : Machine H P F} {e : Exception} {f : AccessFault} {h : H}

omit [Platform P] in
/-- An operation other than a store leaves memory as it was when an access of it is refused. -/
theorem memory_of_operand_error {op : Operation} (hr : HartView.ready m.hart)
    (hop : ∀ kind src a, op ≠ .unalignedStore kind src a)
    (hv : m.operand op m.hart = .error f h) : HartView.memory h = HartView.memory m.hart := by
  cases op with
  | unalignedLoad kind rd a =>
    obtain ⟨made, acc, -, hl⟩ := (probes_readUnaligned a kind.size).error hr hv
    exact acc.memory_of_loads hl
  | unalignedStore kind src a => exact absurd rfl (hop kind src a)
  | atomic op rd addr src =>
    rcases bind_eq_error.mp hv with hload | ⟨old, h₁, hload, hv⟩
    · exact (FaithfulHart.load_error hr hload).2.memory
    · obtain ⟨-, acc⟩ := FaithfulHart.load_ok hr hload
      cases hnew : op.apply (m.register src) old with
      | none =>
        simp only [hnew] at hv
        exact absurd hv pure_ne_error
      | some new =>
        simp only [hnew] at hv
        rcases bind_eq_error.mp hv with hstore | ⟨⟨⟩, h₂, -, hv⟩
        · exact (FaithfulHart.store_error acc.ready hstore).2.memory.trans acc.memory
        · exact absurd hv pure_ne_error
  | counterRead half rd => exact absurd hv pure_ne_error
  | sbi c => exact absurd hv pure_ne_error

/-- What a refused access leaves of a misaligned store: the bytes in front of it. -/
def PartlyStored (m : Machine H P F) (f : AccessFault) (memory : Memory) : Prop :=
  ∃ kind i, StoreKind.ofFunct3 m.trappedInstruction.funct3 = .ok kind ∧ i < kind.size ∧
    f.address = readCsr .mbadaddr m.hart + BitVec.ofNat 32 i ∧
    memory = (HartView.memory m.hart).storeLow (readCsr .mbadaddr m.hart) i
      (m.register m.trappedInstruction.rs2)

omit [Platform P] in
/-- The accesses up to the refused one, and what they made of memory. -/
theorem Faults.exact (hf : Faults e (.capture m.hart) m f h) (hr : HartView.ready m.hart) :
    ∃ before last, Accessed F m.hart (before ++ [last]) h ∧ AllSucceed before ∧
      last.fault = some f ∧
      if e = .storeAddressMisaligned ∧ last.kind = .store then PartlyStored m f (HartView.memory h)
      else HartView.memory h = HartView.memory m.hart := by
  cases hf with
  | instruction hw =>
    obtain ⟨made, acc, ⟨before, last, rfl, hb, hl⟩, hload⟩ :=
      (TrapState.probes_instructionWord _ e).error hr hw
    have hlast : last.kind = .load := hload last (by simp)
    refine ⟨before, last, acc, hb, hl, ?_⟩
    rw [if_neg (by simp [hlast])]
    exact acc.memory_of_loads hload
  | @operand w h₁ _ op hw hd hv =>
    obtain ⟨fetches, acc, hs, hload⟩ := (TrapState.probes_instructionWord _ e).ok hr hw
    have hmem := acc.memory_of_loads hload
    have hreg : { m with hart := h₁ }.register = m.register := register_of_loads acc hload
    -- only a misaligned store can have written anything before the access that was refused
    by_cases he : e = .storeAddressMisaligned
    · subst he
      obtain ⟨hlong, kind, hkind, rfl⟩ := Operation.ofStore_eq_ok hd
      have hword : (⟨w⟩ : Instruction) = m.trappedInstruction := by
        obtain rfl := fetch_eq_ok hr hw
        rw [Memory.fetched_eq_word hlong]
        rfl
      rw [hword] at hkind hv
      rcases bind_eq_error.mp hv with hv | ⟨⟨⟩, h₂, -, hv⟩
      · obtain ⟨stores, acc', ⟨before, last, rfl, hb, hl⟩, hstore⟩ :=
          (probes_writeUnaligned _ _ _).error acc.ready hv
        have hlast : last.kind = .store := hstore last (by simp)
        obtain ⟨i, hi, ha, hpart⟩ :=
          writeUnaligned_eq_error (by cases kind <;> decide) acc.ready hv
        refine ⟨fetches ++ before, last, ?_, hs.append hb, hl, ?_⟩
        · rw [List.append_assoc]
          exact acc.trans acc'
        · rw [if_pos ⟨rfl, hlast⟩]
          rw [hmem, hreg] at hpart
          exact ⟨kind, i, hkind, hi, ha, hpart⟩
      · exact absurd hv pure_ne_error
    · have hop : ∀ kind src a, op ≠ .unalignedStore kind src a := by
        rintro kind src a rfl
        cases TrapState.decoded_of_decode hd
        exact he rfl
      obtain ⟨moves, acc', ⟨before, last, rfl, hb, hl⟩, -⟩ :=
        (probes_operand _ op).error acc.ready hv
      refine ⟨fetches ++ before, last, ?_, hs.append hb, hl, ?_⟩
      · rw [List.append_assoc]
        exact acc.trans acc'
      · rw [if_neg fun hboth => he hboth.1]
        exact (memory_of_operand_error acc.ready hop hv).trans hmem

/-! ## The whole trap -/

/-- The fault that a trap is delegated with. -/
def delegatedFault : Outcome → Option AccessFault
  | .delegated f => some f
  | _ => none

theorem mcause_eq_of_ofWord {c : Word} (h : Cause.ofWord c = .exception e) :
    e = .storeAddressMisaligned ↔ c = 6 := by
  obtain ⟨-, rfl⟩ := Cause.ofWord_eq_exception_iff.mp h
  exact Exception.ofCode_eq_iff (by decide)

/-- A trap is delegated with the fault of the first access that is refused, if there is one. -/
theorem firstFault_made (m : Machine H P F) (hr : HartView.ready m.hart) :
    firstFault (made m.hart (handleTrap m).2.hart) = delegatedFault (handleTrap m).1 := by
  cases ho : handleTrap m with
  | mk o m' =>
  cases o with
  | resumed =>
    refine firstFault_eq_none_iff.mpr ?_
    rcases handleTrap_eq_resumed.mp ho with ⟨-, rfl⟩ | ⟨e, op, m₁, -, he, rfl⟩
    · rw [made_eq_nil (keepsBut_timerTick m).trace]
      exact allSucceed_nil
    · obtain ⟨l, h, acc, hs, hk⟩ := he.accessed hr
      rw [acc.made_eq ((keepsBut_resume _ m₁).trace.trans hk.trace)]
      exact hs
  | delegated f =>
    obtain ⟨e, h, -, hf, rfl⟩ := handleTrap_eq_delegated.mp ho
    obtain ⟨l, acc, hstop⟩ := hf.accessed hr
    rw [acc.made_eq (TrapState.keepsBut_delegate _ h).trace]
    exact hstop.firstFault
  | halted u =>
    refine firstFault_eq_none_iff.mpr ?_
    rcases handleTrap_eq_halted.mp ho with ⟨i, -, -, -, rfl⟩ | ⟨e, h, -, hu, rfl⟩
    · rw [made_eq_nil rfl]
      exact allSucceed_nil
    · obtain ⟨l, acc, hs, -⟩ := hu.accessed hr
      rw [acc.made_eq rfl]
      exact hs

/-- The machine `m'` is `m` after its trap was delegated because of the fault `f`. -/
structure Delegated (m m' : Machine H P F) (f : AccessFault) : Prop where
  stops : StopsWith (made m.hart m'.hart) f
  csr : ∀ c, readCsr c m'.hart = match c with
    | .sepc => readCsr .mepc m.hart
    | .scause => readCsr .mcause m.hart
    | .sbadaddr => readCsr .mbadaddr m.hart
    | .mepc => readCsr .stvec m.hart
    | .mstatus => Status.delegated (readCsr .mstatus m.hart)
    | .mtvec => trapVector m.hart
    | c => readCsr c m.hart
  frame : m'.frame = m.frame
  slot : ∀ r, FrameStore.slot m'.frame m'.hart r = FrameStore.slot m.frame m.hart r
  platform : m'.platform = m.platform
  memory : ∃ last, (made m.hart m'.hart).getLast? = some last ∧
    if readCsr .mcause m.hart = 6 ∧ last.kind = .store then
      PartlyStored m f (HartView.memory m'.hart)
    else HartView.memory m'.hart = HartView.memory m.hart

omit [FaithfulHart H F] in
/-- Delegation is exact: it happens just when an access is refused, with the fault of the first such
access, and leaves everything else as it was. -/
theorem handleTrap_delegated [LawfulHart H F] (m : Machine H P F) (hr : HartView.ready m.hart)
    (f : AccessFault) :
    ((handleTrap m).1 = .delegated f ↔
        firstFault (made m.hart (handleTrap m).2.hart) = some f) ∧
      ((handleTrap m).1 = .delegated f → Delegated m (handleTrap m).2 f) := by
  constructor
  · rw [firstFault_made m hr]
    cases (handleTrap m).1 <;> simp [delegatedFault]
  · intro hres
    cases ho : handleTrap m with
    | mk o m' =>
    rw [ho] at hres
    obtain rfl := hres
    obtain ⟨e, h, hc, hf, rfl⟩ := handleTrap_eq_delegated.mp ho
    obtain ⟨before, last, acc, hb, hl, hmem⟩ := hf.exact hr
    have hk := TrapState.keepsBut_delegate (.capture m.hart) h
    have hmade := acc.made_eq hk.trace
    refine ⟨?_, ?_, rfl, ?_, rfl, ?_⟩
    · rw [hmade]
      exact ⟨before, last, rfl, hb, hl⟩
    · intro c
      rw [TrapState.readCsr_delegate]
      cases c with
      | mepc => exact acc.csr .stvec (by decide)
      | mtvec => exact acc.trapVector
      | mcause | mbadaddr | mscratch | mie | sip | stvec => exact acc.csr _ (by decide)
      | _ => rfl
    · intro r
      exact (TrapState.slot_delegate _ h m.frame r).trans (acc.slot_eq m.frame r)
    · refine ⟨last, by rw [hmade]; simp, ?_⟩
      simp only [TrapState.memory_delegate, ← mcause_eq_of_ofWord hc]
      exact hmem

/-- A misaligned store whose second byte cannot be written. -/
theorem handleTrap_delegated_store :
    let m := trappedOn 0x00652023 6 0x80000201 (fun _ => 0x04030201) 0x80000202
    firstFault (made m.hart (handleTrap m).2.hart) = some ⟨0x80000202, 15⟩ ∧
      Delegated m (handleTrap m).2 ⟨0x80000202, 15⟩ := by
  intro m
  have hboth := handleTrap_delegated m rfl ⟨0x80000202, 15⟩
  have hres : (handleTrap m).1 = .delegated ⟨0x80000202, 15⟩ := by decide +kernel
  exact ⟨hboth.1.mp hres, hboth.2 hres⟩

end Machine

end TrapMonitor
