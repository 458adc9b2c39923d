import TrapMonitor.Proofs.Trap.Completion

/-! # What a resumed trap leaves alone

At most one register of the trapped code is different after a trap that resumed, and memory only in
the operand of a store or an atomic operation. Setting the timer changes one bit each in two
registers of the hart; the other registers of the hart are found as they were, and those that say
where to go on and where the next trap goes are in place.
-/
namespace TrapMonitor

open Hart

def Operation.isReservation : Operation → Bool
  | atomic op _ _ _ => op.isReservation
  | _ => false

namespace Machine

variable {H P F : Type} [Hart H] [HartView H] [Platform P] [FrameStore H F]
  {m m' : Machine H P F} {op : Operation} {o : Outcome}

/-- The register that a trap asks to be written. -/
def written (m : Machine H P F) : Option Reg := m.asked.bind Operation.destination

omit [Platform P] in
/-- The destination is the register field of the instruction, except for a character that was asked
for. -/
theorem destination_of_asked (hop : m.asked = some op) {r : Reg} (hr : op.destination = some r) :
    r = m.instruction.rd ∨ op = .sbi .consoleGetchar ∧ r = .a0 := by
  obtain ⟨e, -, hd⟩ := decoded_of_asked hop
  cases hd with
  | load kind =>
    cases hr
    exact .inl rfl
  | store kind => cases hr
  | atomic amo =>
    rw [Operation.destination] at hr
    split at hr
    · cases hr
    · cases hr
      exact .inl rfl
  | counter half =>
    cases hr
    exact .inl rfl
  | call c =>
    cases c with
    | consoleGetchar =>
      cases hr
      exact .inr ⟨rfl, rfl⟩
    | _ => cases hr

variable [LawfulHart H F]

/-- The bytes that a trap may change: the operand of a misaligned store, at the address that was
reported, or the word of an atomic operation other than the reservation pair. -/
inductive MayChange (m : Machine H P F) (a : Word) : Prop
  | store {kind : StoreKind} {src : Reg} :
    m.asked = some (.unalignedStore kind src (readCsr .mbadaddr m.hart)) →
    (a - readCsr .mbadaddr m.hart).toNat < kind.size → MayChange m a
  | atomic {amo : AmoOp} : m.asked =
      some (.atomic amo m.instruction.rd m.instruction.rs1 m.instruction.rs2) →
    amo.isReservation = false → (a - m.register m.instruction.rs1).toNat < 4 → MayChange m a

omit [Platform P] [LawfulHart H F] in
theorem memoryAfter_of_isReservation (m : Machine H P F) (h : op.isReservation = true) :
    m.memoryAfter op = HartView.memory m.hart := by
  cases op with
  | atomic amo rd addr src =>
    cases amo with
    | loadReserved | storeConditional => rfl
    | _ => cases h
  | _ => cases h

omit [Platform P] [LawfulHart H F] in
theorem mayChange_of_asked {a : Word} (hop : m.asked = some op)
    (ha : (m.memoryAfter op).byte a ≠ (HartView.memory m.hart).byte a) : MayChange m a := by
  have hstores : m.Stores op a := Classical.byContradiction fun hn => ha (byte_memoryAfter hn)
  obtain ⟨e, -, hd⟩ := decoded_of_asked hop
  cases hd with
  | store kind => exact .store hop hstores
  | atomic amo => exact .atomic hop hstores.1 hstores.2
  | _ => exact absurd hstores id

/-- What can be different in `m'`, when the trap of `m` is over and was resumed. -/
structure Resumed (m m' : Machine H P F) : Prop where
  mtvec : readCsr .mtvec m'.hart = trapVector m.hart
  mepc : readCsr .mepc m'.hart = if (readCsr .mcause m.hart).msb then readCsr .mepc m.hart
    else readCsr .mepc m.hart + 4
  csr : ∀ c ∈ [Csr.mstatus, .mcause, .mbadaddr, .sepc, .scause, .sbadaddr, .stvec],
    readCsr c m'.hart = readCsr c m.hart
  mie : readCsr .mie m'.hart = if (readCsr .mcause m.hart).msb then
      readCsr .mie m.hart &&& ~~~InterruptBits.machineTimer
    else if m.asked = some (.sbi .setTimer) then readCsr .mie m.hart ||| InterruptBits.machineTimer
    else readCsr .mie m.hart
  sip : readCsr .sip m'.hart = if (readCsr .mcause m.hart).msb then
      readCsr .sip m.hart ||| InterruptBits.supervisorTimer
    else if m.asked = some (.sbi .setTimer) then
      readCsr .sip m.hart &&& ~~~InterruptBits.supervisorTimer
    else readCsr .sip m.hart
  /-- At most one register is written, and which one the instruction says. -/
  destination : ∀ r, m.written = some r →
    r = m.instruction.rd ∨ m.asked = some (.sbi .consoleGetchar) ∧ r = .a0
  register : ∀ r, m.written ≠ some r → m'.register r = m.register r
  slot : ∀ r, m.written ≠ some r ∨ r = Reg.zero ∨ r = Reg.sp →
    FrameStore.slot m'.frame m'.hart r = FrameStore.slot m.frame m.hart r
  mscratch : m.written ≠ some .sp → readCsr .mscratch m'.hart = readCsr .mscratch m.hart
  memory : ∀ a, (HartView.memory m'.hart).byte a ≠ (HartView.memory m.hart).byte a →
    MayChange m a
  platform : (∀ op, m.asked = some op → op.accessesMemory = true) → m'.platform = m.platform

omit [LawfulHart H F] in
theorem Performs.resumed (hp : Performs m op m') (hop : m.asked = some op) : Resumed m m' := by
  obtain ⟨e, hc, -⟩ := exception_of_asked hop
  have hmsb := (Cause.ofWord_eq_exception_iff.mp hc).1
  have hwritten : m.written = op.destination := by rw [written, hop, Option.bind_some]
  have hregister (r : Reg) (hr : m.written ≠ some r) : m'.register r = m.register r := by
    rw [hp.register, registerAfter, if_neg fun h => hr (hwritten.trans h.1)]
  have htimer : m.asked = some (.sbi .setTimer) ↔ op = .sbi .setTimer := by
    rw [hop, Option.some_inj]
  exact {
    mtvec := hp.mtvec
    mepc := by
      rw [hmsb]
      exact hp.mepc
    csr := fun c hc => by
      have hout : c ∉ [Csr.mtvec, .mepc, .mscratch] ∧ c ∉ [Csr.mie, .sip] := by
        revert c
        decide
      rw [hp.csr c hout.1, Operation.updated_of_notMem hout.2]
    mie := by
      rw [hp.csr .mie (by decide), Operation.updated_mie, hmsb]
      simp only [htimer, Bool.false_eq_true, if_false]
    sip := by
      rw [hp.csr .sip (by decide), Operation.updated_sip, hmsb]
      simp only [htimer, Bool.false_eq_true, if_false]
    destination := fun r hr => by
      rw [hwritten] at hr
      refine (destination_of_asked hop hr).imp_right fun hget => ⟨?_, hget.2⟩
      rw [hop, hget.1]
    register := hregister
    slot := fun r hr => by
      rw [hwritten] at hr
      exact hp.slot r hr
    mscratch := hregister .sp
    memory := fun a ha => by
      rw [hp.memory] at ha
      exact mayChange_of_asked hop ha
    platform := fun hall => by
      rw [hp.platform, platformAfter_of_accessesMemory m (hall op hop)] }

omit [Platform P] in
theorem resumed_timerTick (hc : Cause.ofWord (readCsr .mcause m.hart) = .interrupt .machineTimer) :
    Resumed m (timerTick m) := by
  have hmsb := (Cause.ofWord_eq_interrupt_iff.mp hc).1
  have hasked : m.asked = none := by simp only [asked, hc]
  have hcsr := m.readCsr_timerTick
  exact {
    mtvec := hcsr .mtvec
    mepc := by
      rw [hmsb]
      exact hcsr .mepc
    csr := fun c hc => by
      rw [hcsr]
      cases c <;> simp at hc ⊢
    mie := by
      rw [hmsb]
      exact hcsr .mie
    sip := by
      rw [hmsb]
      exact hcsr .sip
    destination := fun r hr => by simp [written, hasked] at hr
    register := fun r _ => by rw [m.register_timerTick]
    slot := fun r _ => m.slot_timerTick r
    mscratch := fun _ => hcsr .mscratch
    memory := fun a ha => by
      rw [m.memory_timerTick] at ha
      exact absurd rfl ha
    platform := fun _ => rfl }

/-! ## The reservation pair -/

/-- From `m` to `m'` nothing happened to registers, memory and devices. -/
structure Skipped (m m' : Machine H P F) : Prop where
  register : m'.register = m.register
  frame : m'.frame = m.frame
  slot : ∀ r, FrameStore.slot m'.frame m'.hart r = FrameStore.slot m.frame m.hart r
  memory : HartView.memory m'.hart = HartView.memory m.hart
  platform : m'.platform = m.platform

omit [LawfulHart H F] in
theorem Performs.skipped (hp : Performs m op m') (hskip : op.isReservation = true) :
    Skipped m m' := by
  have hnone : op.destination = none := by
    cases op with
    | atomic amo rd addr src => exact if_pos hskip
    | _ => cases hskip
  have hmem : op.accessesMemory = true := by
    cases op with
    | atomic amo rd addr src => rfl
    | _ => cases hskip
  exact {
    register := by
      funext r
      rw [hp.register, registerAfter, if_neg fun h => by simp [hnone] at h]
    frame := hp.frame hnone
    slot := fun r => hp.slot r (.inl (by simp [hnone]))
    memory := hp.memory.trans (m.memoryAfter_of_isReservation hskip)
    platform := hp.platform.trans (m.platformAfter_of_accessesMemory hmem) }

theorem skipped_of_delegated {f : AccessFault} (hr : HartView.ready m.hart)
    (hop : m.asked = some op) (hskip : op.isReservation = true)
    (hres : handleTrap m = (.delegated f, m')) : Skipped m m' := by
  obtain ⟨hregister, hmemory⟩ := effect_of_delegated hr (fun op _ => m.sparesFrame op) hres
  obtain ⟨e, h, -, hf, rfl⟩ := handleTrap_eq_delegated.mp hres
  obtain ⟨made, acc, -⟩ := hf.accessed hr
  have hnone : ∀ kind src a, op ≠ .unalignedStore kind src a := by
    rintro kind src a rfl
    cases hskip
  exact {
    register := hregister
    frame := rfl
    slot := fun r => (TrapState.slot_delegate _ h m.frame r).trans (acc.slot_eq m.frame r)
    memory := by
      rcases hmemory with hsame | ⟨kind, src, a, i, hasked, -⟩
      · exact hsame
      · exact absurd (Option.some.inj (hop.symm.trans hasked)) (hnone kind src a)
    platform := rfl }

/-- The footprint of a resumed trap: whatever the trap was, all that can be different afterwards is
what `Resumed` says. The reservation pair is never refused, and changes nothing of the machine that
the trapped code can see. -/
theorem handleTrap_resumed (m : Machine H P F) (hr : HartView.ready m.hart) :
    (∀ m', handleTrap m = (.resumed, m') → Resumed m m') ∧
      ∀ op o m', m.asked = some op → op.isReservation = true → handleTrap m = (o, m') →
        (∀ u, o ≠ .halted u) ∧ Skipped m m' := by
  constructor
  · intro m' hres
    rcases performs_of_resumed hr hres with ⟨hc, rfl⟩ | ⟨op, hop, hp⟩
    · exact resumed_timerTick hc
    · exact hp.resumed hop
  · intro op o m' hop hskip hres
    have ho := ne_halted_of_asked hr hop hres
    refine ⟨ho, ?_⟩
    cases o with
    | halted u => exact absurd rfl (ho u)
    | delegated f => exact skipped_of_delegated hr hop hskip hres
    | resumed =>
      rcases performs_of_resumed hr hres with ⟨hc, -⟩ | ⟨op', hop', hp⟩
      · obtain ⟨e, he, -⟩ := exception_of_asked hop
        cases hc.symm.trans he
      · cases hop.symm.trans hop'
        exact hp.skipped hskip

/-- A misaligned load, and a load that reserves its word and is skipped. -/
theorem handleTrap_resumed_load :
    let m := trappedOn 0x00152103 4 0x80000201 (fun _ => 0) 0
    let n := trappedOn 0x100523af 2 0x100523af (fun _ => 0x80000200) 0
    Resumed m (handleTrap m).2 ∧ Skipped n (handleTrap n).2 := by
  intro m n
  have hm : (handleTrap m).1 = .resumed := by decide +kernel
  have hn : n.asked = some (.atomic .loadReserved 7 10 0) := by decide +kernel
  exact ⟨(handleTrap_resumed m rfl).1 _ (Prod.ext hm rfl),
    ((handleTrap_resumed n rfl).2 _ _ _ hn rfl rfl).2⟩

end Machine

end TrapMonitor
