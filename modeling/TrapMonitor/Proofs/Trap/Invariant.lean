import TrapMonitor.Proofs.Trap.Outcome

/-! # Invariants of the hart

Handling a trap touches the hart in few ways: it makes accesses, writes saved registers, and writes
registers of the hart, of which the status word and the interrupt enable get particular values only.
What each of these ways preserves of the hart and the frame holds after any trap. More can be said of
the accesses, as all of them come first.
-/
namespace TrapMonitor

open Hart

variable {H P F : Type} [Hart H] [HartView H] [Platform P] [FrameStore H F] [FaithfulHart H F]

/-- What every way of touching the hart and the frame preserves. -/
structure Invariant (I : F → H → Prop) : Prop where
  load : ∀ f w a, Keeps (I f) (load w a)
  store : ∀ f w a v, Keeps (I f) (store w a v)
  setSlot : ∀ {r} v {f h}, r ≠ Reg.zero → r ≠ Reg.sp → I f h →
    I (FrameStore.setSlot r v f h).1 (FrameStore.setSlot r v f h).2
  writeCsr : ∀ {c} v {f h}, c ≠ .mstatus → c ≠ .mie → I f h → I f (writeCsr c v h)
  enableTimer : ∀ {f h}, I f h → I f (setCsr .mie InterruptBits.machineTimer h)
  disableTimer : ∀ {f h}, I f h → I f (clearCsr .mie InterruptBits.machineTimer h)
  delegated : ∀ {f h₀ h}, I f h₀ → I f h →
    I f (Hart.writeCsr .mstatus (Status.delegated (readCsr .mstatus h₀)) h)

/-- What holds while accesses are made, and what holds from then on. -/
structure Phases (I J : F → H → Prop) : Prop where
  load : ∀ f w a, Keeps (I f) (load w a)
  store : ∀ f w a v, Keeps (I f) (store w a v)
  moved : ∀ {f h}, I f h → J f h
  setSlot : ∀ {r} v {f h}, r ≠ Reg.zero → r ≠ Reg.sp → J f h →
    J (FrameStore.setSlot r v f h).1 (FrameStore.setSlot r v f h).2
  writeCsr : ∀ {c} v {f h}, c ≠ .mstatus → c ≠ .mie → J f h → J f (writeCsr c v h)
  enableTimer : ∀ {f h}, J f h → J f (setCsr .mie InterruptBits.machineTimer h)
  disableTimer : ∀ {f h}, J f h → J f (clearCsr .mie InterruptBits.machineTimer h)
  delegated : ∀ {f h₀ h}, I f h₀ → J f h →
    J f (Hart.writeCsr .mstatus (Status.delegated (readCsr .mstatus h₀)) h)

omit [HartView H] [FaithfulHart H F] in
theorem Invariant.phases {I : F → H → Prop} (hI : Invariant I) : Phases I I where
  load := hI.load
  store := hI.store
  moved h := h
  setSlot := hI.setSlot
  writeCsr := hI.writeCsr
  enableTimer := hI.enableTimer
  disableTimer := hI.disableTimer
  delegated := hI.delegated

namespace Phases

open Machine

variable {I J : F → H → Prop} (hI : Phases I J) {m m' : Machine H P F} {f : F}

include hI

omit [HartView H] [Platform P] [FaithfulHart H F] in
theorem setRegister (r : Reg) (v : Word) (h : J m.frame m.hart) :
    J (m.setRegister r v).frame (m.setRegister r v).hart := by
  unfold Machine.setRegister
  split
  · exact h
  · next h0 =>
    split
    · exact hI.writeCsr v (by decide) (by decide) h
    · next h2 => exact hI.setSlot v h0 h2 h

theorem clearSip {h : H} (hi : J f h) : J f (clearCsr .sip InterruptBits.supervisorTimer h) := by
  rw [FaithfulHart.clearCsr_eq]
  exact hI.writeCsr _ (by decide) (by decide) hi

theorem setSip {h : H} (hi : J f h) : J f (setCsr .sip InterruptBits.supervisorTimer h) := by
  rw [FaithfulHart.setCsr_eq]
  exact hI.writeCsr _ (by decide) (by decide) hi

theorem call (c : SbiCall) (h : J m.frame m.hart) :
    J (Machine.call c m).frame (Machine.call c m).hart := by
  cases c with
  | setTimer => exact hI.clearSip (hI.enableTimer h)
  | consolePutchar => exact h
  | consoleGetchar => exact hI.setRegister (m := record _ _ _ { m with platform := _ }) .a0 _ h

theorem complete (op : Operation) (v : Word) {h : H} (hi : J m.frame h) :
    J (m.complete op v h).frame (m.complete op v h).hart := by
  cases op with
  | unalignedLoad kind rd a =>
    exact hI.setRegister (m := Machine.record _ _ _ { m with hart := h }) rd _ hi
  | unalignedStore kind src a => exact hi
  | atomic op rd addr src =>
    unfold Machine.complete
    dsimp only
    split
    · exact hI.setRegister (m := { m with hart := h }) rd v hi
    · exact hi
  | counterRead half rd =>
    exact hI.setRegister (m := Machine.record _ _ _ { m with hart := h, platform := _ }) rd _ hi
  | sbi c => exact hI.call (m := { m with hart := h }) c hi

omit [HartView H] [FaithfulHart H F] in
theorem instructionWord (s : TrapState) (e : Exception) :
    Keeps (I f) (s.instructionWord e : HartAccess H Word) :=
  Keeps.sequential.instructionWord (hI.load f) s e

omit [HartView H] [Platform P] [FaithfulHart H F] in
theorem operand (m : Machine H P F) (op : Operation) : Keeps (I f) (m.operand op) :=
  Keeps.sequential.operand (hI.load f) (hI.store f) m op

omit [HartView H] [FaithfulHart H F] in
theorem delegate {h₀ h : H} (hi₀ : I f h₀) (hi : J f h) :
    J f ((TrapState.capture h₀).delegate h) := by
  unfold TrapState.delegate restoreTrapVector
  refine hI.delegated hi₀ ?_
  repeat refine hI.writeCsr _ (by decide) (by decide) ?_
  exact hi

theorem handleTrap (h : I m.frame m.hart) :
    J (handleTrap m).2.frame (handleTrap m).2.hart := by
  cases hres : Machine.handleTrap m with
  | mk o m' =>
  cases o with
  | resumed =>
    rcases handleTrap_eq_resumed.mp hres with ⟨-, rfl⟩ | ⟨e, op, m₁, -, he, rfl⟩
    · exact hI.writeCsr _ (by decide) (by decide) (hI.disableTimer (hI.setSip (hI.moved h)))
    · cases he with
      | @intro w v h₁ h₂ hw hd hv =>
      have hfetched : I m.frame h₁ := (hI.instructionWord _ e).ok h hw
      have hmoved : I m.frame h₂ := (hI.operand _ op).ok hfetched hv
      have hdone := hI.complete (m := { m with hart := h₁ }) op v (hI.moved hmoved)
      exact hI.writeCsr _ (by decide) (by decide) (hI.writeCsr _ (by decide) (by decide) hdone)
  | delegated f =>
    obtain ⟨e, h₁, -, hf, rfl⟩ := handleTrap_eq_delegated.mp hres
    refine hI.delegate h (hI.moved ?_)
    cases hf with
    | instruction hw => exact (hI.instructionWord _ e).error h hw
    | operand hw hd hv => exact (hI.operand _ _).error ((hI.instructionWord _ e).ok h hw) hv
  | halted u =>
    rcases handleTrap_eq_halted.mp hres with ⟨i, -, -, -, rfl⟩ | ⟨e, h₁, -, hu, rfl⟩
    · exact hI.moved h
    · obtain ⟨hw, -⟩ := hu
      exact hI.moved ((hI.instructionWord _ e).ok h hw)

end Phases

theorem Invariant.handleTrap {I : F → H → Prop} (hI : Invariant I) {m : Machine H P F}
    (h : I m.frame m.hart) :
    I (Machine.handleTrap m).2.frame (Machine.handleTrap m).2.hart := hI.phases.handleTrap h

end TrapMonitor
