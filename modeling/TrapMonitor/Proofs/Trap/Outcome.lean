import TrapMonitor.Platform.Scripted
import TrapMonitor.Proofs.Machine.Phases

/-! # The ways a trap ends

Each of the three outcomes says exactly what happened to the machine: `handleTrap_eq_resumed`,
`handleTrap_eq_delegated` and `handleTrap_eq_halted` leave nothing out, so later proofs need not
look at the handler again.
-/
namespace TrapMonitor

open Hart

namespace Interrupt

theorem ofCode_eq_machineTimer_iff {c : Word} : ofCode c = machineTimer ↔ c = 7 := by
  constructor
  · intro h
    have hc := code_ofCode c
    rw [h] at hc
    exact hc.symm
  · rintro rfl
    rfl

end Interrupt

namespace Exception

/-- A named exception is found under its code and under no other. -/
theorem ofCode_eq_iff {e : Exception} (he : e ∈ named) {c : Word} : ofCode c = e ↔ c = e.code := by
  constructor
  · rintro rfl
    exact (code_ofCode c).symm
  · rintro rfl
    have hinj : ∀ e' ∈ named, code e' = code e → e' = e := by
      revert e
      decide
    rw [ofCode, select_number he hinj]
    rfl

end Exception

namespace Cause

theorem ofWord_eq_interrupt_iff {c : Word} {i : Interrupt} :
    ofWord c = .interrupt i ↔ c.msb = true ∧ i = .ofCode (c &&& 0xff) := by
  unfold ofWord
  cases c.msb <;> simp [eq_comm]

theorem ofWord_eq_exception_iff {c : Word} {e : Exception} :
    ofWord c = .exception e ↔ c.msb = false ∧ e = .ofCode c := by
  unfold ofWord
  cases c.msb <;> simp [eq_comm]

end Cause

namespace Machine

variable {H P F : Type} [Hart H] [Platform P] [FrameStore H F]

/-- The emulation of an exception comes to an access that is refused with `f` and leaves the hart
as `h`. -/
inductive Faults (e : Exception) (s : TrapState) (m : Machine H P F) (f : AccessFault) : H → Prop
  | instruction {h : H} : s.instructionWord e m.hart = .error f h → Faults e s m f h
  | operand {w : Word} {h₁ h : H} {op : Operation} : s.instructionWord e m.hart = .ok w h₁ →
    s.decode e (m.register .a7) w = .ok op → { m with hart := h₁ }.operand op h₁ = .error f h →
    Faults e s m f h

/-- The emulation of an exception decodes to `op`, makes all its accesses, and completes it. -/
inductive Emulates (e : Exception) (s : TrapState) (m : Machine H P F) (op : Operation) :
    Machine H P F → Prop
  | intro {w v : Word} {h₁ h : H} : s.instructionWord e m.hart = .ok w h₁ →
    s.decode e (m.register .a7) w = .ok op → { m with hart := h₁ }.operand op h₁ = .ok v h →
    Emulates e s m op ({ m with hart := h₁ }.complete op v h)

/-- The emulation of an exception is refused, and the hart is left as `h`. -/
inductive Refuses (e : Exception) (s : TrapState) (m : Machine H P F) (u : Unsupported) : H → Prop
  | intro {w : Word} {h : H} : s.instructionWord e m.hart = .ok w h →
    s.decode e (m.register .a7) w = .error u → Refuses e s m u h

variable {e : Exception} {s : TrapState} {m m' : Machine H P F}

theorem emulate_eq_ok : emulate e s m = .ok () m' ↔ ∃ op, Emulates e s m op m' := by
  constructor
  · intro h
    rw [emulate_eq] at h
    cases hw : s.instructionWord e m.hart with
    | error f h₁ => simp [hw] at h
    | ok w h₁ =>
      cases hd : s.decode e (m.register .a7) w with
      | error u => simp [hw, hd] at h
      | ok op =>
        simp only [hw, hd] at h
        obtain ⟨v, h₂, hv, rfl⟩ := execute_eq_ok.mp h
        exact ⟨op, .intro hw hd hv⟩
  · rintro ⟨op, hw, hd, hv⟩
    rw [emulate_eq, hw]
    simp only [hd]
    exact execute_eq_ok.mpr ⟨_, _, hv, rfl⟩

theorem emulate_eq_fault {f : AccessFault} :
    emulate e s m = .error (.fault f) m' ↔
      ∃ h, Faults e s m f h ∧ m' = { m with hart := h } := by
  constructor
  · intro h
    rw [emulate_eq] at h
    cases hw : s.instructionWord e m.hart with
    | error f' h₁ =>
      simp only [hw, EStateM.Result.error.injEq, EmulationError.fault.injEq] at h
      obtain ⟨rfl, rfl⟩ := h
      exact ⟨h₁, .instruction hw, rfl⟩
    | ok w h₁ =>
      cases hd : s.decode e (m.register .a7) w with
      | error u => simp [hw, hd] at h
      | ok op =>
        simp only [hw, hd] at h
        obtain ⟨h₂, hv, rfl⟩ := execute_eq_fault.mp h
        exact ⟨h₂, .operand hw hd hv, rfl⟩
  · rintro ⟨h, hf, rfl⟩
    cases hf with
    | instruction hw => rw [emulate_eq, hw]
    | operand hw hd hv =>
      rw [emulate_eq, hw]
      simp only [hd]
      exact execute_eq_fault.mpr ⟨_, hv, rfl⟩

theorem emulate_eq_unsupported {u : Unsupported} :
    emulate e s m = .error (.unsupported u) m' ↔
      ∃ h, Refuses e s m u h ∧ m' = { m with hart := h } := by
  constructor
  · intro h
    rw [emulate_eq] at h
    cases hw : s.instructionWord e m.hart with
    | error f h₁ => simp [hw] at h
    | ok w h₁ =>
      cases hd : s.decode e (m.register .a7) w with
      | error u' =>
        simp only [hw, hd, EStateM.Result.error.injEq, EmulationError.unsupported.injEq] at h
        obtain ⟨rfl, rfl⟩ := h
        exact ⟨h₁, .intro hw hd, rfl⟩
      | ok op =>
        simp only [hw, hd] at h
        exact absurd h execute_ne_unsupported
  · rintro ⟨h, ⟨hw, hd⟩, rfl⟩
    rw [emulate_eq, hw]
    simp only [hd]

/-! ## Outcomes -/

/-- The machine after its timer interrupt. -/
def timerTick (m : Machine H P F) : Machine H P F :=
  let h := setCsr .sip InterruptBits.supervisorTimer m.hart
  { m with hart := restoreTrapVector (clearCsr .mie InterruptBits.machineTimer h) }

/-- The return behind the emulated instruction. -/
def resume (s : TrapState) (m : Machine H P F) : Machine H P F :=
  { m with hart := restoreTrapVector (writeCsr .mepc (s.mepc + 4) m.hart) }

theorem handleTrap_interrupt {i : Interrupt}
    (hc : Cause.ofWord (readCsr .mcause m.hart) = .interrupt i) :
    handleTrap m = finishTrap (handleInterrupt i m) := by
  have hs : Cause.ofWord (TrapState.capture m.hart).mcause = .interrupt i := hc
  simp only [handleTrap, hs]

theorem handleTrap_exception (hc : Cause.ofWord (readCsr .mcause m.hart) = .exception e) :
    handleTrap m = finishTrap (handleException e (.capture m.hart) m) := by
  have hs : Cause.ofWord (TrapState.capture m.hart).mcause = .exception e := hc
  simp only [handleTrap, hs]

theorem handleException_eq_resumed :
    handleException e s m = (.resumed, m') ↔
      ∃ op m₁, Emulates e s m op m₁ ∧
        m' = { m₁ with hart := writeCsr .mepc (s.mepc + 4) m₁.hart } := by
  unfold handleException
  constructor
  · intro h
    cases hx : emulate e s m with
    | ok v m₁ =>
      obtain ⟨op, hop⟩ := emulate_eq_ok.mp hx
      simp only [hx, Prod.mk.injEq, true_and] at h
      exact ⟨op, m₁, hop, h.symm⟩
    | error err m₁ => cases err <;> simp [hx] at h
  · rintro ⟨op, m₁, hop, rfl⟩
    rw [emulate_eq_ok.mpr ⟨op, hop⟩]

theorem handleException_eq_delegated {f : AccessFault} :
    handleException e s m = (.delegated f, m') ↔
      ∃ h, Faults e s m f h ∧
        m' = { m.record .debug "emulator::trap" (delegationMessage e s f) with
          hart := s.delegate h } := by
  unfold handleException
  constructor
  · intro h
    cases hx : emulate e s m with
    | ok v m₁ => simp [hx] at h
    | error err m₁ =>
      cases err with
      | unsupported u => simp [hx] at h
      | fault f' =>
        simp only [hx, Prod.mk.injEq, Outcome.delegated.injEq] at h
        obtain ⟨rfl, rfl⟩ := h
        obtain ⟨h₁, hf, rfl⟩ := emulate_eq_fault.mp hx
        exact ⟨h₁, hf, rfl⟩
  · rintro ⟨h, hf, rfl⟩
    rw [emulate_eq_fault.mpr ⟨h, hf, rfl⟩]
    rfl

theorem handleException_eq_halted {u : Unsupported} :
    handleException e s m = (.halted u, m') ↔
      ∃ h, Refuses e s m u h ∧ m' = { m with hart := h } := by
  unfold handleException
  constructor
  · intro h
    cases hx : emulate e s m with
    | ok v m₁ => simp [hx] at h
    | error err m₁ =>
      cases err with
      | fault f => simp [hx] at h
      | unsupported u' =>
        simp only [hx, Prod.mk.injEq, Outcome.halted.injEq] at h
        obtain ⟨rfl, rfl⟩ := h
        exact emulate_eq_unsupported.mp hx
  · rintro ⟨h, hu, rfl⟩
    rw [emulate_eq_unsupported.mpr ⟨h, hu, rfl⟩]

omit [Platform P] [FrameStore H F] in
theorem finishTrap_eq_resumed {r : Outcome × Machine H P F} :
    finishTrap r = (.resumed, m') ↔
      ∃ m₁, r = (.resumed, m₁) ∧ m' = { m₁ with hart := restoreTrapVector m₁.hart } := by
  rcases r with ⟨_ | f | u, m₁⟩ <;> simp [finishTrap, eq_comm]

omit [Platform P] [FrameStore H F] in
theorem finishTrap_eq_of_ne {r : Outcome × Machine H P F} {o : Outcome} (ho : o ≠ .resumed) :
    finishTrap r = (o, m') ↔ r = (o, m') := by
  rcases r with ⟨_ | f | u, m₁⟩
  · have hne : Outcome.resumed ≠ o := Ne.symm ho
    simp [finishTrap, hne]
  · rfl
  · rfl

theorem handleTrap_eq_resumed :
    handleTrap m = (.resumed, m') ↔
      (Cause.ofWord (readCsr .mcause m.hart) = .interrupt .machineTimer ∧ m' = timerTick m) ∨
      ∃ e op m₁, Cause.ofWord (readCsr .mcause m.hart) = .exception e ∧
        Emulates e (.capture m.hart) m op m₁ ∧ m' = resume (.capture m.hart) m₁ := by
  cases hc : Cause.ofWord (readCsr .mcause m.hart) with
  | interrupt i =>
    rw [handleTrap_interrupt hc]
    cases i <;> simp [handleInterrupt, finishTrap, timerTick, eq_comm]
  | exception e =>
    rw [handleTrap_exception hc, finishTrap_eq_resumed]
    simp only [handleException_eq_resumed, Cause.exception.injEq, reduceCtorEq, false_and,
      false_or]
    constructor
    · rintro ⟨m₂, ⟨op, m₁, he, rfl⟩, rfl⟩
      exact ⟨e, op, m₁, rfl, he, rfl⟩
    · rintro ⟨_, op, m₁, rfl, he, rfl⟩
      exact ⟨_, ⟨op, m₁, he, rfl⟩, rfl⟩

theorem handleTrap_eq_delegated {f : AccessFault} :
    handleTrap m = (.delegated f, m') ↔
      ∃ e h, Cause.ofWord (readCsr .mcause m.hart) = .exception e ∧
        Faults e (.capture m.hart) m f h ∧
        m' = { m.record .debug "emulator::trap" (delegationMessage e (.capture m.hart) f) with
          hart := (TrapState.capture m.hart).delegate h } := by
  cases hc : Cause.ofWord (readCsr .mcause m.hart) with
  | interrupt i =>
    rw [handleTrap_interrupt hc]
    cases i <;> simp [handleInterrupt, finishTrap]
  | exception e =>
    rw [handleTrap_exception hc, finishTrap_eq_of_ne (by simp), handleException_eq_delegated]
    simp

theorem handleTrap_eq_halted {u : Unsupported} :
    handleTrap m = (.halted u, m') ↔
      (∃ i, Cause.ofWord (readCsr .mcause m.hart) = .interrupt i ∧ i ≠ .machineTimer ∧
        u = .interrupt i.code ∧ m' = m) ∨
      ∃ e h, Cause.ofWord (readCsr .mcause m.hart) = .exception e ∧
        Refuses e (.capture m.hart) m u h ∧ m' = { m with hart := h } := by
  cases hc : Cause.ofWord (readCsr .mcause m.hart) with
  | interrupt i =>
    rw [handleTrap_interrupt hc, finishTrap_eq_of_ne (by simp)]
    cases i <;> simp [handleInterrupt, eq_comm]
  | exception e =>
    rw [handleTrap_exception hc, finishTrap_eq_of_ne (by simp), handleException_eq_halted]
    simp

/-! ## A machine that trapped -/

/-- A machine of plain cells that trapped on `instruction` at address 0x80000100. It can access one
page of memory, except for stores to the address `readOnly`. -/
def trappedOn (instruction mcause mbadaddr : Word) (registers : Reg → Word) (readOnly : Word) :
    Machine FlatHart ScriptedPlatform Frame where
  hart :=
    { csr := fun c => match c with
        | .mcause => mcause
        | .mbadaddr => mbadaddr
        | .mepc => 0x80000100
        | .mstatus => Status.mppSupervisor
        | .mtvec => FlatHart.primaryVector
        | .stvec => 0xc0002000
        | _ => 0
      memory := ⟨Memory.zero.setWord 0x80000100 instruction,
        ⟨[⟨0x80000000, 0x1000⟩], [], [], [readOnly]⟩⟩
      clobber := false
      count := 0
      trace := [] }
  platform := ⟨[], [], 0, none, false⟩
  frame := ⟨registers⟩
  log := []

end Machine

end TrapMonitor
