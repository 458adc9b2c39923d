import TrapMonitor.Proofs.Trap.Retry

/-! # The whole machine after an operation

A trap that resumes was the timer interrupt, or did one operation. Either way the machine is known
in all its parts: which device the operation uses and how and what the hart's own registers hold
(`finishes_of_resumed`), and, where no access reaches the saved registers, what it makes of them and
of memory (`performs_of_resumed`).
-/
namespace TrapMonitor

open Hart

namespace Operation

/-- What an operation makes of a register of the hart. -/
def updated (op : Operation) (c : Csr) (v : Word) : Word :=
  match op, c with
  | sbi .setTimer, .mie => v ||| InterruptBits.machineTimer
  | sbi .setTimer, .sip => v &&& ~~~InterruptBits.supervisorTimer
  | _, _ => v

theorem updated_of_ne {op : Operation} (h : op ≠ sbi .setTimer) (c : Csr) (v : Word) :
    op.updated c v = v := by
  unfold updated
  split
  · exact absurd rfl h
  · exact absurd rfl h
  · rfl

theorem updated_of_notMem {c : Csr} (h : c ∉ [.mie, .sip]) (op : Operation) (v : Word) :
    op.updated c v = v := by
  unfold updated
  split
  · simp at h
  · simp at h
  · rfl

theorem updated_mie (op : Operation) (v : Word) : op.updated .mie v =
    if op = sbi .setTimer then v ||| InterruptBits.machineTimer else v := by
  split
  · next h => rw [h, updated]
  · next h => exact updated_of_ne h .mie v

theorem updated_sip (op : Operation) (v : Word) : op.updated .sip v =
    if op = sbi .setTimer then v &&& ~~~InterruptBits.supervisorTimer else v := by
  split
  · next h => rw [h, updated]
  · next h => exact updated_of_ne h .sip v

end Operation

namespace Machine

section Meaning

variable {H P F : Type} [Hart H] [Platform P] [FrameStore H F]

/-- What the platform is to be after an operation. -/
def platformAfter (m : Machine H P F) : Operation → P
  | .counterRead half _ => (readCounter half m.platform).2
  | .sbi .setTimer => Platform.writeCompare (m.register .a0) (m.register .a1) m.platform
  | .sbi .consolePutchar => Platform.write ((m.register .a0).setWidth 8) m.platform
  | .sbi .consoleGetchar => (Platform.tryRead m.platform).2
  | _ => m.platform

theorem platformAfter_of_accessesMemory (m : Machine H P F) {op : Operation}
    (h : op.accessesMemory = true) : m.platformAfter op = m.platform := by
  cases op with
  | counterRead half rd => cases h
  | sbi c => cases h
  | _ => rfl

theorem platformAfter_congr {m n : Machine H P F} (hreg : n.register = m.register)
    (hplatform : n.platform = m.platform) (op : Operation) :
    n.platformAfter op = m.platformAfter op := by
  cases op with
  | sbi c => cases c <;> simp only [platformAfter, hreg, hplatform]
  | counterRead half rd => simp only [platformAfter, hplatform]
  | _ => exact hplatform

/-- The instruction that a trap is about. -/
def instruction [HartView H] (m : Machine H P F) : Instruction :=
  match Cause.ofWord (readCsr .mcause m.hart) with
  | .interrupt _ => ⟨0⟩
  | .exception e => ⟨(TrapState.capture m.hart).word e (HartView.memory m.hart)⟩

end Meaning

variable {H P F : Type} [Hart H] [HartView H] [Platform P] [FrameStore H F]
  {m m' : Machine H P F} {op : Operation} {e : Exception} {o : Outcome}

omit [Platform P] in
theorem decoded_of_asked (hop : m.asked = some op) :
    ∃ e, Cause.ofWord (readCsr .mcause m.hart) = .exception e ∧
      (TrapState.capture m.hart).Decoded m.instruction e op := by
  obtain ⟨e, hc, hd⟩ := exception_of_asked hop
  refine ⟨e, hc, ?_⟩
  have hi : m.instruction =
      ⟨(TrapState.capture m.hart).word e (HartView.memory m.hart)⟩ := by
    simp only [instruction, hc]
  rw [hi]
  exact TrapState.decoded_of_decode hd

/-! ## The last phase -/

section Completion

variable {H P F : Type} [Hart H] [Platform P] [FrameStore H F] {m : Machine H P F}

/-- The hart after an operation, before its destination is written. -/
def touched (op : Operation) (h : H) : H :=
  match op with
  | .sbi .setTimer =>
    clearCsr .sip InterruptBits.supervisorTimer (setCsr .mie InterruptBits.machineTimer h)
  | _ => h

def writeBack (m : Machine H P F) (rd : Option Reg) (v : Word) : Machine H P F :=
  match rd with
  | some r => m.setRegister r v
  | none => m

omit [Platform P] in
theorem setRegister_log (m : Machine H P F) (r : Reg) (v : Word) (log : List Record) :
    { m with log := log }.setRegister r v = { m.setRegister r v with log := log } := by
  unfold setRegister
  split
  · rfl
  · split <;> rfl

/-- Whatever the operation, the last phase uses the platform, touches the hart, writes the
destination, and logs. A call finds its arguments in the registers. -/
theorem complete_eq {h : H} {op : Operation}
    (hreg : ∀ c, op = .sbi c → { m with hart := h }.register = m.register) (v : Word) :
    ∃ log, m.complete op v h =
      { { m with hart := touched op h, platform := m.platformAfter op }.writeBack op.destination
          (m.produced v op) with log := log } := by
  have hset (n : Machine H P F) (r : Reg) (v : Word) (log : List Record) :
      ∃ log', { n with log := log }.setRegister r v = { n.setRegister r v with log := log' } :=
    ⟨log, setRegister_log n r v log⟩
  cases op with
  | unalignedLoad kind rd a => exact hset { m with hart := h } rd _ _
  | unalignedStore kind src a => exact ⟨_, rfl⟩
  | atomic amo rd addr src =>
    rw [complete, Operation.destination]
    cases hnew : amo.apply (m.register src) v with
    | none =>
      rw [if_pos (AmoOp.isReservation_of_apply_eq_none hnew)]
      exact ⟨_, rfl⟩
    | some new =>
      rw [if_neg (by simp [AmoOp.isReservation_of_apply_eq_some hnew])]
      exact ⟨_, rfl⟩
  | counterRead half rd => exact hset { m with hart := h, platform := _ } rd _ _
  | sbi c =>
    rw [← platformAfter_congr (n := { m with hart := h }) (hreg c rfl) rfl]
    cases c with
    | consoleGetchar => exact hset { m with hart := h, platform := _ } .a0 _ _
    | _ => exact ⟨_, rfl⟩

end Completion

variable [FaithfulHart H F]

include F in
theorem readCsr_touched (op : Operation) (h : H) (c : Csr) :
    readCsr c (touched op h) = op.updated c (readCsr c h) := by
  unfold touched
  split
  · rw [FaithfulHart.clearCsr_eq, FaithfulHart.setCsr_eq]
    simp only [FaithfulHart.readCsr_writeCsr]
    cases c <;> rfl
  · next hop => rw [Operation.updated_of_ne hop]

include F in
theorem trapVector_touched (op : Operation) (h : H) : trapVector (touched op h) = trapVector h := by
  unfold touched
  split
  · rw [FaithfulHart.clearCsr_eq, FaithfulHart.setCsr_eq, FaithfulHart.trapVector_writeCsr,
      FaithfulHart.trapVector_writeCsr]
  · rfl

theorem slot_touched (op : Operation) (h : H) (f : F) (r : Reg) :
    FrameStore.slot f (touched op h) r = FrameStore.slot f h r := by
  unfold touched
  split
  · rw [FaithfulHart.clearCsr_eq, FaithfulHart.slot_writeCsr, FaithfulHart.setCsr_eq,
      FaithfulHart.slot_writeCsr]
  · rfl

omit [Platform P] in
theorem keepsBut_writeBack (m : Machine H P F) (rd : Option Reg) (v : Word) :
    KeepsBut [.mscratch] m.hart (m.writeBack rd v).hart := by
  cases rd with
  | none => exact KeepsBut.refl _ _
  | some r => exact m.keepsBut_setRegister r v

omit [HartView H] [Platform P] [FaithfulHart H F] in
theorem platform_writeBack (m : Machine H P F) (rd : Option Reg) (v : Word) :
    (m.writeBack rd v).platform = m.platform := by
  cases rd with
  | none => rfl
  | some r => exact m.platform_setRegister r v

omit [Platform P] in
theorem slot_writeBack (m : Machine H P F) {rd : Option Reg} {r : Reg} (v : Word)
    (hr : rd ≠ some r ∨ r = Reg.zero ∨ r = Reg.sp) :
    FrameStore.slot (m.writeBack rd v).frame (m.writeBack rd v).hart r =
      FrameStore.slot m.frame m.hart r := by
  unfold writeBack setRegister
  split
  · next x =>
    split
    · rfl
    · next h0 =>
      split
      · exact FaithfulHart.slot_writeCsr m.frame r .mscratch v m.hart
      · next h2 =>
        refine FrameStore.slot_setSlot_of_ne x r v m.frame m.hart ?_
        rintro rfl
        rcases hr with hne | h | h
        · exact hne rfl
        · exact h0 h
        · exact h2 h
  · rfl

/-! ## The whole trap -/

/-- What the operation `op` made of the devices and of the hart's own registers, when the trap of `m` was
resumed behind it. -/
structure Finishes (m : Machine H P F) (op : Operation) (m' : Machine H P F) : Prop where
  platform : m'.platform = m.platformAfter op
  mtvec : readCsr .mtvec m'.hart = trapVector m.hart
  mepc : readCsr .mepc m'.hart = readCsr .mepc m.hart + 4
  csr : ∀ c, c ∉ [.mtvec, .mepc, .mscratch] →
    readCsr c m'.hart = op.updated c (readCsr c m.hart)
  frame : op.destination = none → m'.frame = m.frame

/-- The machine `m'` is `m` after its trap was resumed behind the operation `op`. -/
structure Performs (m : Machine H P F) (op : Operation) (m' : Machine H P F) : Prop
    extends Finishes m op m' where
  register : m'.register = m.registerAfter op
  memory : HartView.memory m'.hart = m.memoryAfter op
  slot : ∀ r, op.destination ≠ some r ∨ r = Reg.zero ∨ r = Reg.sp →
    FrameStore.slot m'.frame m'.hart r = FrameStore.slot m.frame m.hart r

omit [Platform P] in
theorem readCsr_resume (s : TrapState) (m : Machine H P F) (c : Csr) :
    readCsr c (resume s m).hart = match c with
      | .mtvec => trapVector m.hart
      | .mepc => s.mepc + 4
      | c => readCsr c m.hart := by
  simp only [resume, restoreTrapVector, FaithfulHart.readCsr_writeCsr,
    FaithfulHart.trapVector_writeCsr]
  cases c <;> rfl

omit [Platform P] in
theorem slot_resume (s : TrapState) (m : Machine H P F) (f : F) (r : Reg) :
    FrameStore.slot f (resume s m).hart r = FrameStore.slot f m.hart r := by
  simp only [resume, restoreTrapVector, FaithfulHart.slot_writeCsr]

/-- Behind its accesses, an emulation is a write to the destination. -/
theorem Emulates.eq_writeBack {m₁ : Machine H P F} (he : Emulates e (.capture m.hart) m op m₁)
    (hr : HartView.ready m.hart) : ∃ made h v log, Accessed F m.hart made h ∧ m₁ =
      { { m with hart := touched op h, platform := m.platformAfter op }.writeBack op.destination v
        with log := log } := by
  obtain ⟨hw, hd, hv⟩ := he
  rename_i w v h₁ h₂
  obtain ⟨fetches, acc, -, hl⟩ := (TrapState.probes_instructionWord _ e).ok hr hw
  obtain ⟨moves, acc', -⟩ := (probes_operand _ op).ok acc.ready hv
  have hreg : { m with hart := h₁ }.register = m.register := register_of_loads acc hl
  have hcall : ∀ c, op = .sbi c →
      { m with hart := h₂ }.register = { m with hart := h₁ }.register := by
    -- a call makes no accesses, so the registers are those that it was made with
    rintro c rfl
    rw [← (pure_eq_ok.mp hv).2]
  obtain ⟨log, hdone⟩ := complete_eq (m := { m with hart := h₁ }) (h := h₂) hcall v
  have hplatform : { m with hart := h₁ }.platformAfter op = m.platformAfter op :=
    platformAfter_congr hreg rfl op
  refine ⟨_, h₂, { m with hart := h₁ }.produced v op, log, acc.trans acc', ?_⟩
  rw [hdone, hplatform]

theorem Emulates.asked {m₁ : Machine H P F} (he : Emulates e (.capture m.hart) m op m₁)
    (hr : HartView.ready m.hart) (hc : Cause.ofWord (readCsr .mcause m.hart) = .exception e) :
    m.asked = some op := by
  obtain ⟨hw, hd, -⟩ := he
  exact asked_of_decode hr hc hw hd

/-- An emulation, and the return behind it, finish one operation. -/
theorem Emulates.finishes {m₁ : Machine H P F} (he : Emulates e (.capture m.hart) m op m₁)
    (hr : HartView.ready m.hart) : Finishes m op (resume (.capture m.hart) m₁) := by
  obtain ⟨made, h, v, log, acc, rfl⟩ := he.eq_writeBack hr
  let n : Machine H P F := { m with hart := touched op h, platform := m.platformAfter op }
  have hk : KeepsBut [.mscratch] n.hart (n.writeBack op.destination v).hart :=
    n.keepsBut_writeBack op.destination v
  exact {
    platform := n.platform_writeBack op.destination v
    mtvec := by
      rw [readCsr_resume]
      exact hk.trapVector.trans ((trapVector_touched op h).trans acc.trapVector)
    mepc := readCsr_resume _ _ .mepc
    csr := fun c hc => by
      simp only [List.mem_cons, List.not_mem_nil, or_false, not_or] at hc
      have hresumed := (keepsBut_resume (.capture m.hart)
        { n.writeBack op.destination v with log := log }).csr c (by simp [hc.1, hc.2.1])
      have hwritten : readCsr c (n.writeBack op.destination v).hart = readCsr c n.hart :=
        hk.csr c (by simpa using hc.2.2)
      rw [hresumed, hwritten, readCsr_touched, acc.csr c hc.1]
    frame := fun hnone => by
      rw [hnone]
      rfl }

/-- Where no access reaches the saved registers, they are known as well. -/
theorem Emulates.performs {H P F : Type} [Hart H] [HartView H] [Platform P] [FrameStore H F]
    [LawfulHart H F] {m m₁ : Machine H P F} (he : Emulates e (.capture m.hart) m op m₁)
    (hr : HartView.ready m.hart) : Performs m op (resume (.capture m.hart) m₁) := by
  obtain ⟨hregister, hmemory⟩ := he.effect hr (m.sparesFrame op)
  refine ⟨he.finishes hr, (register_resume _ _).trans hregister,
    (memory_resume _ _).trans hmemory.eq, fun r hout => ?_⟩
  obtain ⟨made, h, v, log, acc, rfl⟩ := he.eq_writeBack hr
  let n : Machine H P F := { m with hart := touched op h, platform := m.platformAfter op }
  rw [slot_resume]
  exact ((n.slot_writeBack v hout).trans (slot_touched op h m.frame r)).trans
    (acc.slot_eq m.frame r)

omit [Platform P] in
/-- The timer interrupt becomes one of the supervisor. -/
theorem readCsr_timerTick (m : Machine H P F) (c : Csr) :
    readCsr c (timerTick m).hart = match c with
      | .mtvec => trapVector m.hart
      | .mie => readCsr .mie m.hart &&& ~~~InterruptBits.machineTimer
      | .sip => readCsr .sip m.hart ||| InterruptBits.supervisorTimer
      | c => readCsr c m.hart := by
  simp only [timerTick, restoreTrapVector, FaithfulHart.readCsr_writeCsr, FaithfulHart.setCsr_eq,
    FaithfulHart.clearCsr_eq, FaithfulHart.trapVector_writeCsr]
  cases c <;> rfl

omit [Platform P] in
theorem slot_timerTick (m : Machine H P F) (r : Reg) :
    FrameStore.slot m.frame (timerTick m).hart r = FrameStore.slot m.frame m.hart r := by
  simp only [timerTick, restoreTrapVector, FaithfulHart.slot_writeCsr, FaithfulHart.setCsr_eq,
    FaithfulHart.clearCsr_eq]

/-- A trap that resumes was the timer interrupt, or finished one operation. -/
theorem finishes_of_resumed (hr : HartView.ready m.hart) (hres : handleTrap m = (.resumed, m')) :
    (Cause.ofWord (readCsr .mcause m.hart) = .interrupt .machineTimer ∧ m' = timerTick m) ∨
      ∃ op, m.asked = some op ∧ Finishes m op m' := by
  rcases handleTrap_eq_resumed.mp hres with htimer | ⟨e, op, m₁, hc, he, rfl⟩
  · exact .inl htimer
  · exact .inr ⟨op, he.asked hr hc, he.finishes hr⟩

/-- A trap that resumes was the timer interrupt, or did one operation. -/
theorem performs_of_resumed {H P F : Type} [Hart H] [HartView H] [Platform P] [FrameStore H F]
    [LawfulHart H F] {m m' : Machine H P F} (hr : HartView.ready m.hart)
    (hres : handleTrap m = (.resumed, m')) :
    (Cause.ofWord (readCsr .mcause m.hart) = .interrupt .machineTimer ∧ m' = timerTick m) ∨
      ∃ op, m.asked = some op ∧ Performs m op m' := by
  rcases handleTrap_eq_resumed.mp hres with htimer | ⟨e, op, m₁, hc, he, rfl⟩
  · exact .inl htimer
  · exact .inr ⟨op, he.asked hr hc, he.performs hr⟩

end Machine

end TrapMonitor
