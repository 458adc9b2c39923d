import TrapMonitor.Proofs.Machine.Registers
import TrapMonitor.Proofs.Trap.Outcome

/-! # What each phase changes

The phases that access memory change nothing else, and the last one changes nothing that an access
could, unless saved registers lie in memory. So the record of accesses after a trap, and the memory
apart from the frame, come from the accesses alone, and the registers of the hart from the rest.
-/
namespace TrapMonitor

open Hart Access

variable {H P F : Type} [Hart H] [HartView H] [Platform P] [FrameStore H F] [FaithfulHart H F]

namespace TrapState

theorem probes_instructionWord (s : TrapState) (e : Exception) :
    Probes F (fun y => y.kind = .load) (s.instructionWord e : HartAccess H Word) :=
  Probes.sequential.instructionWord Probes.load s e

include F in
/-- What the registers hold after a trap went to the supervisor. -/
theorem readCsr_delegate (s : TrapState) (h : H) (c : Csr) :
    readCsr c (s.delegate h) = match c with
      | .sepc => s.mepc
      | .scause => s.mcause
      | .sbadaddr => s.mbadaddr
      | .mepc => readCsr .stvec h
      | .mstatus => Status.delegated s.mstatus
      | .mtvec => trapVector h
      | c => readCsr c h := by
  simp only [delegate, restoreTrapVector, FaithfulHart.readCsr_writeCsr]
  cases c <;> rfl

include F in
theorem keepsBut_delegate (s : TrapState) (h : H) :
    KeepsBut [.mtvec, .sbadaddr, .scause, .sepc, .mepc, .mstatus] h (s.delegate h) where
  csr c hc := by
    rw [readCsr_delegate]
    cases c <;> simp at hc ⊢
  trapVector := by simp only [delegate, restoreTrapVector, FaithfulHart.trapVector_writeCsr]
  trace := by simp only [delegate, restoreTrapVector, FaithfulHart.trace_writeCsr]

include F in
theorem memory_delegate (s : TrapState) (h : H) :
    HartView.memory (s.delegate h) = HartView.memory h := by
  simp only [delegate, restoreTrapVector, FaithfulHart.memory_writeCsr]

theorem slot_delegate (s : TrapState) (h : H) (f : F) (r : Reg) :
    FrameStore.slot f (s.delegate h) r = FrameStore.slot f h r := by
  simp only [delegate, restoreTrapVector, FaithfulHart.slot_writeCsr]

end TrapState

namespace Machine

omit [Platform P] in
theorem probes_operand (m : Machine H P F) (op : Operation) :
    Probes F (fun _ => True) (m.operand op) :=
  Probes.sequential.operand (fun w a => (Probes.load w a).mono (by simp))
    (fun w a v => (Probes.store w a v).mono (by simp)) m op

theorem keepsBut_call (c : SbiCall) (m : Machine H P F) :
    KeepsBut [.mscratch, .mie, .sip] m.hart (call c m).hart := by
  cases c with
  | setTimer =>
    have hmie := KeepsBut.setCsr .mie InterruptBits.machineTimer m.hart
    have hsip := KeepsBut.clearCsr .sip InterruptBits.supervisorTimer
      (setCsr .mie InterruptBits.machineTimer m.hart)
    exact (hmie.mono (by simp)).trans (hsip.mono (by simp))
  | consolePutchar => exact KeepsBut.refl _ _
  | consoleGetchar =>
    have hk : KeepsBut [.mscratch] m.hart (call .consoleGetchar m).hart :=
      keepsBut_setRegister (record _ _ _ { m with platform := _ }) .a0 _
    exact hk.mono (by simp)

theorem keepsBut_complete (m : Machine H P F) (op : Operation) (v : Word) (h : H) :
    KeepsBut [.mscratch, .mie, .sip] h (m.complete op v h).hart := by
  cases op with
  | unalignedLoad kind rd a =>
    have hk : KeepsBut [.mscratch] h (m.complete (.unalignedLoad kind rd a) v h).hart :=
      keepsBut_setRegister (record _ _ _ { m with hart := h }) rd _
    exact hk.mono (by simp)
  | unalignedStore kind src a => exact KeepsBut.refl _ _
  | atomic op rd addr src =>
    unfold complete
    dsimp only
    split
    · exact (keepsBut_setRegister { m with hart := h } rd v).mono (by simp)
    · exact KeepsBut.refl _ _
  | counterRead half rd =>
    have hk : KeepsBut [.mscratch] h (m.complete (.counterRead half rd) v h).hart :=
      keepsBut_setRegister (record _ _ _ { m with hart := h, platform := _ }) rd _
    exact hk.mono (by simp)
  | sbi c => exact keepsBut_call c { m with hart := h }

theorem agreeOutside_call (c : SbiCall) (m : Machine H P F) :
    AgreeOutside H m.frame (HartView.memory (call c m).hart) (HartView.memory m.hart) := by
  cases c with
  | setTimer =>
    have hmem : HartView.memory (clearCsr .sip InterruptBits.supervisorTimer
        (setCsr .mie InterruptBits.machineTimer m.hart)) = HartView.memory m.hart := by
      simp only [FaithfulHart.clearCsr_eq, FaithfulHart.setCsr_eq, FaithfulHart.memory_writeCsr]
    exact fun a _ => congrArg (·.byte a) hmem
  | consolePutchar => exact fun _ _ => rfl
  | consoleGetchar => exact agreeOutside_setRegister (record _ _ _ { m with platform := _ }) .a0 _

/-- The last phase changes memory where it writes a saved register, and nowhere else. -/
theorem agreeOutside_complete (m : Machine H P F) (op : Operation) (v : Word) (h : H) :
    AgreeOutside H m.frame (HartView.memory (m.complete op v h).hart) (HartView.memory h) := by
  cases op with
  | unalignedLoad kind rd a =>
    exact agreeOutside_setRegister (record _ _ _ { m with hart := h }) rd _
  | unalignedStore kind src a => exact fun _ _ => rfl
  | atomic op rd addr src =>
    unfold complete
    dsimp only
    split
    · exact agreeOutside_setRegister { m with hart := h } rd v
    · exact fun _ _ => rfl
  | counterRead half rd =>
    exact agreeOutside_setRegister (record _ _ _ { m with hart := h, platform := _ }) rd _
  | sbi c => exact agreeOutside_call c { m with hart := h }

/-! ## Whole emulations -/

variable {e : Exception} {s : TrapState} {m m' : Machine H P F} {h : H}

theorem Emulates.accessed {op : Operation} (he : Emulates e s m op m')
    (hr : HartView.ready m.hart) :
    ∃ made h, Accessed F m.hart made h ∧ AllSucceed made ∧
      KeepsBut [.mscratch, .mie, .sip] h m'.hart := by
  obtain ⟨hw, hd, hv⟩ := he
  obtain ⟨fetches, acc, hs, -⟩ := (s.probes_instructionWord e).ok hr hw
  obtain ⟨moves, acc', hs', -⟩ := (probes_operand _ op).ok acc.ready hv
  exact ⟨fetches ++ moves, _, acc.trans acc', hs.append hs', keepsBut_complete _ op _ _⟩

omit [Platform P] in
theorem Refuses.accessed {u : Unsupported} (hu : Refuses e s m u h)
    (hr : HartView.ready m.hart) :
    ∃ made, Accessed F m.hart made h ∧ AllSucceed made ∧ ∀ y ∈ made, y.kind = .load := by
  obtain ⟨hw, hd⟩ := hu
  exact (s.probes_instructionWord e).ok hr hw

omit [Platform P] in
theorem Faults.accessed {f : AccessFault} (hf : Faults e s m f h) (hr : HartView.ready m.hart) :
    ∃ made, Accessed F m.hart made h ∧ StopsWith made f := by
  cases hf with
  | instruction hw =>
    obtain ⟨made, acc, hf, -⟩ := (s.probes_instructionWord e).error hr hw
    exact ⟨made, acc, hf⟩
  | operand hw hd hv =>
    obtain ⟨fetches, acc, hs, -⟩ := (s.probes_instructionWord e).ok hr hw
    obtain ⟨moves, acc', hf, -⟩ := (probes_operand _ _).error acc.ready hv
    exact ⟨fetches ++ moves, acc.trans acc', hf.append hs⟩

omit [Platform P] in
theorem keepsBut_timerTick (m : Machine H P F) :
    KeepsBut [.sip, .mie, .mtvec] m.hart (timerTick m).hart := by
  have hsip := KeepsBut.setCsr .sip InterruptBits.supervisorTimer m.hart
  have hmie := KeepsBut.clearCsr .mie InterruptBits.machineTimer
    (setCsr .sip InterruptBits.supervisorTimer m.hart)
  have hvec : KeepsBut [.mtvec] _ (timerTick m).hart := KeepsBut.writeCsr .mtvec _ _
  exact ((hsip.mono (by simp)).trans (hmie.mono (by simp))).trans (hvec.mono (by simp))

omit [Platform P] in
theorem keepsBut_resume (s : TrapState) (m : Machine H P F) :
    KeepsBut [.mepc, .mtvec] m.hart (resume s m).hart := by
  have hepc := KeepsBut.writeCsr .mepc (s.mepc + 4) m.hart
  have hvec : KeepsBut [.mtvec] _ (resume s m).hart := KeepsBut.writeCsr .mtvec _ _
  exact (hepc.mono (by simp)).trans (hvec.mono (by simp))

omit [Platform P] in
theorem memory_timerTick (m : Machine H P F) :
    HartView.memory (timerTick m).hart = HartView.memory m.hart := by
  simp only [timerTick, restoreTrapVector, FaithfulHart.memory_writeCsr, FaithfulHart.setCsr_eq,
    FaithfulHart.clearCsr_eq]

omit [Platform P] in
theorem memory_resume (s : TrapState) (m : Machine H P F) :
    HartView.memory (resume s m).hart = HartView.memory m.hart := by
  simp only [resume, restoreTrapVector, FaithfulHart.memory_writeCsr]

omit [Platform P] in
theorem register_timerTick (m : Machine H P F) : (timerTick m).register = m.register := by
  let pending := { m with hart := setCsr .sip InterruptBits.supervisorTimer m.hart }
  let masked := { m with hart := clearCsr .mie InterruptBits.machineTimer pending.hart }
  have hvec : (timerTick m).register = masked.register :=
    masked.register_writeCsr (by decide) (trapVector masked.hart)
  have hmie : masked.register = pending.register := pending.register_clearCsr (by decide) _
  exact (hvec.trans hmie).trans (m.register_setCsr (by decide) _)

omit [Platform P] in
theorem register_resume (s : TrapState) (m : Machine H P F) :
    (resume s m).register = m.register := by
  let returning := { m with hart := writeCsr .mepc (s.mepc + 4) m.hart }
  have hvec : (resume s m).register = returning.register :=
    returning.register_writeCsr (by decide) (trapVector returning.hart)
  exact hvec.trans (m.register_writeCsr (by decide) _)

/-- Unless the machine halts, the next trap finds the trap vector in place. -/
theorem trapVector_of_handleTrap {o : Outcome} (hres : handleTrap m = (o, m'))
    (ho : ∀ u, o ≠ .halted u) : readCsr .mtvec m'.hart = trapVector m'.hart := by
  cases o with
  | halted u => exact absurd rfl (ho u)
  | resumed =>
    rcases handleTrap_eq_resumed.mp hres with ⟨-, rfl⟩ | ⟨e, op, m₁, -, -, rfl⟩
    · simp [timerTick, restoreTrapVector, FaithfulHart.readCsr_writeCsr,
        FaithfulHart.trapVector_writeCsr]
    · simp [resume, restoreTrapVector, FaithfulHart.readCsr_writeCsr,
        FaithfulHart.trapVector_writeCsr]
  | delegated f =>
    obtain ⟨e, h, -, -, rfl⟩ := handleTrap_eq_delegated.mp hres
    have hk := TrapState.keepsBut_delegate (.capture m.hart) h
    exact (TrapState.readCsr_delegate _ h .mtvec).trans hk.trapVector.symm

end Machine

end TrapMonitor
