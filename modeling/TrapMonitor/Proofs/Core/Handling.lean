import TrapMonitor.Proofs.Core.Entry
import TrapMonitor.Proofs.Machine.Effects
import TrapMonitor.Proofs.Trap.Invariant

/-! # A trap on the board

The trap entry calls the handler once and returns behind it (`raise_eq_handler`). What the core holds
that a return relies on, its stack pointer among it, is an invariant of handling the trap.
-/
namespace TrapMonitor

/-- User or supervisor mode. -/
def Mode.BelowMachine (mode : Mode) : Prop := mode = user ∨ mode = supervisor

namespace Core

/-! ## While a trap is handled -/

/-- What the handler keeps of the core that it was called on, with its frame at `frame`. -/
structure Serves (c : Core) (frame f : FrameAddress) (d : Core) : Prop where
  place : f = frame
  x : d.x = c.x
  pc : d.pc = c.pc
  mode : d.mode = c.mode
  ready : HartView.ready d
  protection : d.memory.protection = c.memory.protection
  bank : d.bank.isSome = c.bank.isSome

namespace Serves

variable {c d : Core} {frame f : FrameAddress}

theorem setCsr {s : SystemCsr} (hs : s ≠ .mstatus) (v : Word) (h : Serves c frame f d) :
    Serves c frame f (d.setCsr s v) := by
  have hstatus : (d.setCsr s v).csr .mstatus = d.csr .mstatus := if_neg (Ne.symm hs)
  refine ⟨h.place, h.x, h.pc, h.mode, ⟨?_, ?_⟩, h.protection, h.bank⟩
  · rw [hstatus]
    exact h.ready.1
  · rw [hstatus]
    exact h.ready.2

theorem setDelegated {m : Word} (hm : Status.has m Status.mprv = false) (h : Serves c frame f d) :
    Serves c frame f (d.setCsr .mstatus (Status.delegated m)) := by
  have hstatus : (d.setCsr .mstatus (Status.delegated m)).csr .mstatus = Status.delegated m := rfl
  refine ⟨h.place, h.x, h.pc, h.mode, ⟨?_, ?_⟩, h.protection, h.bank⟩
  · rw [hstatus, Status.has_mprv_delegated, hm]
  · rw [hstatus, Status.previousMode_delegated]
    exact .inr (by decide)

theorem invariant (c : Core) (frame : FrameAddress) : Invariant (Serves c frame) where
  load f := by
    refine keeps_load (fun d h => h.ready.1) fun d trace h => ?_
    have hvec := h.setCsr (s := .mtvec) (by decide) Barrier.label
    exact ⟨hvec.place, hvec.x, hvec.pc, hvec.mode, hvec.ready, hvec.protection, hvec.bank⟩
  store f := by
    refine keeps_store (fun d h => h.ready) fun d bytes trace h => ?_
    have hvec := h.setCsr (s := .mtvec) (by decide) Barrier.label
    exact ⟨hvec.place, hvec.x, hvec.pc, hvec.mode, hvec.ready, hvec.protection, hvec.bank⟩
  setSlot v f d _ _ h :=
    ⟨h.place, h.x, h.pc, h.mode, SteadyHart.ready_setSlot _ v f d h.ready, h.protection,
      Option.isSome_map.trans h.bank⟩
  writeCsr {r} v f d hstatus hmie h := by
    rw [writeCsr_eq]
    refine h.setCsr ?_ v
    cases r with
    | mstatus => exact absurd rfl hstatus
    | _ => decide
  enableTimer h := by
    rw [setCsr_eq]
    exact h.setCsr (by decide) _
  disableTimer h := by
    rw [clearCsr_eq]
    exact h.setCsr (by decide) _
  delegated h₀ h := by
    rw [writeCsr_eq, readCsr_eq]
    exact h.setDelegated h₀.ready.1

end Serves

/-- What the handler makes of the registers that it was called with, as far as the next trap relies on
them. -/
structure Handled (c d : Core) : Prop where
  exceptionDelegation : d.csr .medeleg = c.csr .medeleg
  interruptDelegation : d.csr .mideleg = c.csr .mideleg
  timerOnly : d.csr .mie &&& ~~~InterruptBits.machineTimer = 0
  mprv : Status.has (d.csr .mstatus) Status.mprv = false
  mpie : Status.has (d.csr .mstatus) Status.mpie = true
  previous : (Status.previousMode (d.csr .mstatus)).BelowMachine

namespace Handled

variable {c d d' : Core}

/-- Only these registers matter. -/
theorem congr (h : Handled c d)
    (hcsr : ∀ s, s ∈ [.medeleg, .mideleg, .mie, .mstatus] → d'.csr s = d.csr s) :
    Handled c d' where
  exceptionDelegation := (hcsr .medeleg (by simp)).trans h.exceptionDelegation
  interruptDelegation := (hcsr .mideleg (by simp)).trans h.interruptDelegation
  timerOnly := by
    rw [hcsr .mie (by simp)]
    exact h.timerOnly
  mprv := by
    rw [hcsr .mstatus (by simp)]
    exact h.mprv
  mpie := by
    rw [hcsr .mstatus (by simp)]
    exact h.mpie
  previous := by
    rw [hcsr .mstatus (by simp)]
    exact h.previous

theorem setCsr {s : SystemCsr} (hs : s ∉ [.medeleg, .mideleg, .mie, .mstatus]) (v : Word)
    (h : Handled c d) : Handled c (d.setCsr s v) := by
  refine h.congr fun y hy => ?_
  have hne : y ≠ s := fun he => hs (he ▸ hy)
  rw [csr_setCsr, if_neg hne]

theorem setMie {v : Word} (hv : v &&& ~~~InterruptBits.machineTimer = 0) (h : Handled c d) :
    Handled c (d.setCsr .mie v) :=
  { h with timerOnly := hv }

/-- A status word that sends the trap to the supervisor. -/
theorem setDelegated {m : Word} (hm : Status.has m Status.mprv = false) (h : Handled c d) :
    Handled c (d.setCsr .mstatus (Status.delegated m)) := by
  have hstatus : (d.setCsr .mstatus (Status.delegated m)).csr .mstatus = Status.delegated m := rfl
  exact {
    h with
    mprv := by rw [hstatus, Status.has_mprv_delegated, hm]
    mpie := by rw [hstatus, Status.has_mpie_delegated]
    previous := by
      rw [hstatus, Status.previousMode_delegated]
      exact .inr rfl }

theorem ready (h : Handled c d) : HartView.ready d := by
  refine ⟨h.mprv, .inr fun he => ?_⟩
  rcases h.previous with hp | hp <;> exact absurd (he.symm.trans hp) (by decide)

theorem invariant (c : Core) : Invariant fun (_ : FrameAddress) => Handled c where
  load _ := by
    refine keeps_load (fun d h => h.mprv) fun d trace h => ?_
    exact (h.setCsr (by decide) _).congr fun _ _ => rfl
  store _ := by
    refine keeps_store (fun d h => h.ready) fun d bytes trace h => ?_
    exact (h.setCsr (by decide) _).congr fun _ _ => rfl
  setSlot _ _ _ _ _ h := h.congr fun _ _ => rfl
  writeCsr {r} v f d hstatus hmie h := by
    rw [writeCsr_eq]
    refine h.setCsr ?_ v
    cases r with
    | mstatus => exact absurd rfl hstatus
    | mie => exact absurd rfl hmie
    | _ => decide
  enableTimer h := by
    rw [setCsr_eq]
    refine h.setMie ?_
    rw [Status.or_and_not_self]
    exact h.timerOnly
  disableTimer h := by
    rw [clearCsr_eq]
    refine h.setMie ?_
    rw [BitVec.and_assoc, BitVec.and_self]
    exact h.timerOnly
  delegated h₀ h := by
    rw [writeCsr_eq, readCsr_eq]
    exact h.setDelegated h₀.mprv

end Handled

/-- The trap entry reaches the machine's RAM, whatever the trap interrupted. -/
theorem ownsAccess_trap {c : Core} (hm : Status.has (c.csr .mstatus) Status.mprv = false)
    (cause tval : Word) : (c.trap cause tval).ownsAccess = true := by
  have hstatus : (c.trap cause tval).csr .mstatus =
      Status.enterMachine c.mode (c.csr .mstatus) := rfl
  refine ownsAccess_of_machine ?_ rfl
  rw [hstatus, Status.has_mprv_enterMachine, hm]

end Core

namespace Board

variable {U T D : Type} [Bus U] [Bus T] [Bus D] {leftovers : Reg → Word} {cause tval : Word}
  {b b' : Board U T D}

/-! ## The handler -/

theorem handler_of_halted {u : Unsupported} {m' : Machine Core (SocPlatform U T D) Core.FrameAddress}
    (hres : (b.machine (b.core.reg .a0)).handleTrap = (.halted u, m')) :
    handler leftovers b = (.halted, halt u m') := by
  rw [handler, hres]

/-- The handler comes to its end, unless it waits for a device. -/
theorem handler_of_ne_halted {o : Outcome}
    {m' : Machine Core (SocPlatform U T D) Core.FrameAddress}
    (hres : (b.machine (b.core.reg .a0)).handleTrap = (o, m')) (ho : ∀ u, o ≠ .halted u) :
    handler leftovers b = (if Platform.waits m'.platform then .waiting else .returned,
      ⟨m'.hart.scramble leftovers, m'.platform, m'.log⟩) := by
  rw [handler, hres]
  cases o with
  | halted u => exact absurd rfl (ho u)
  | resumed | delegated f => rfl

theorem end_of_handler (leftovers : Reg → Word) (b : Board U T D) :
    (handler leftovers b).1 = .halted ∨
      (handler leftovers b).1 = .waiting ∧
        Platform.waits (handler leftovers b).2.platform = true ∨
      (handler leftovers b).1 = .returned := by
  cases hres : (b.machine (b.core.reg .a0)).handleTrap with
  | mk o m' =>
  by_cases ho : ∃ u, o = .halted u
  · obtain ⟨u, rfl⟩ := ho
    rw [handler_of_halted hres]
    exact .inl rfl
  · rw [handler_of_ne_halted hres (not_exists.mp ho)]
    cases hw : Platform.waits m'.platform with
    | true => exact .inr (.inl ⟨rfl, rfl⟩)
    | false => exact .inr (.inr rfl)

theorem handleTrap_of_halted (hh : (handler leftovers b).1 = .halted) :
    ∃ u m', (b.machine (b.core.reg .a0)).handleTrap = (.halted u, m') := by
  cases hres : (b.machine (b.core.reg .a0)).handleTrap with
  | mk o m' =>
  by_cases ho : ∃ u, o = .halted u
  · obtain ⟨u, rfl⟩ := ho
    exact ⟨u, m', rfl⟩
  · rw [handler_of_ne_halted hres (not_exists.mp ho)] at hh
    split at hh <;> cases hh

theorem handleTrap_of_returned (hh : handler leftovers b = (.returned, b')) :
    ∃ o m', (b.machine (b.core.reg .a0)).handleTrap = (o, m') ∧ (∀ u, o ≠ .halted u) ∧
      Platform.waits m'.platform = false ∧
      b' = ⟨m'.hart.scramble leftovers, m'.platform, m'.log⟩ := by
  cases hres : (b.machine (b.core.reg .a0)).handleTrap with
  | mk o m' =>
  by_cases ho : ∃ u, o = .halted u
  · obtain ⟨u, rfl⟩ := ho
    rw [handler_of_halted hres] at hh
    cases hh
  · have hne := not_exists.mp ho
    rw [handler_of_ne_halted hres hne] at hh
    cases hw : Platform.waits m'.platform with
    | true =>
      rw [hw] at hh
      cases hh
    | false =>
      rw [hw] at hh
      cases hh
      exact ⟨o, m', rfl, hne, hw, rfl⟩

/-! ## From a trap to its return -/

omit [Bus U] [Bus T] [Bus D] in
/-- The board when the trap entry calls the handler. -/
def called (cause tval : Word) (b : Board U T D) : Board U T D :=
  { b with core := (b.core.trap cause tval).entered }

omit [Bus U] [Bus T] [Bus D] in
/-- The machine that the handler is called with. -/
def trapped (cause tval : Word) (b : Board U T D) :
    Machine Core (SocPlatform U T D) Core.FrameAddress :=
  (b.called cause tval).machine (b.core.csr .mscratch)

theorem serve_eq_returned (n : Nat) (hpc : b.core.pc = Core.trapEntry + 136)
    (hp : b.core.ownsAccess = true) (hf : Core.FrameFits (b.core.reg .sp)) :
    serve leftovers (n + 1) b = (.returned, { b with core := b.core.left }) := by
  rw [serve, Core.run_of_handled hpc hp hf]

section Raised

variable (hvec : b.core.csr .mtvec = Core.trapEntry)
  (hm : Status.has (b.core.csr .mstatus) Status.mprv = false)
  (hf : Core.FrameFits (b.core.csr .mscratch))
  (hmode : b.core.bank = none ∨ b.core.mode.BelowMachine)

omit [Bus U] [Bus T] [Bus D] in
include hm hmode in
theorem ready_trapped (cause tval : Word) : HartView.ready (b.trapped cause tval).hart := by
  have hstatus : (b.trapped cause tval).hart.csr .mstatus =
      Status.enterMachine b.core.mode (b.core.csr .mstatus) := rfl
  constructor
  · rw [hstatus, Status.has_mprv_enterMachine, hm]
  · rw [hstatus, Status.previousMode_enterMachine]
    rcases hmode with hb | hu | hs
    · exact .inl (congrArg (Option.map _) hb)
    · exact .inr (by rw [hu]; decide)
    · exact .inr (by rw [hs]; decide)

include hm hmode in
theorem serves_of_handled {o : Outcome} {m' : Machine Core (SocPlatform U T D) Core.FrameAddress}
    (hres : (b.trapped cause tval).handleTrap = (o, m')) :
    Core.Serves (b.trapped cause tval).hart (b.trapped cause tval).frame m'.frame m'.hart := by
  have hstart : Core.Serves (b.trapped cause tval).hart (b.trapped cause tval).frame
      (b.trapped cause tval).frame (b.trapped cause tval).hart :=
    ⟨rfl, rfl, rfl, rfl, ready_trapped hm hmode cause tval, rfl, rfl⟩
  have hend := (Core.Serves.invariant _ _).handleTrap hstart
  rw [hres] at hend
  exact hend

include hvec hm hf

omit [Bus U] [Bus T] [Bus D] in
theorem run_entryCode (cause tval : Word) : Core.entryCode.run (b.core.trap cause tval) =
    (.called .trapHandler, (b.called cause tval).core) :=
  Core.run_of_trap hvec (Core.ownsAccess_trap hm cause tval) hf

theorem raise_eq : raise leftovers cause tval b =
    match handler leftovers (b.called cause tval) with
    | (.returned, b') => serve leftovers 5 b'
    | (e, b') => (e, b') := by
  have hpc : (b.core.trap cause tval).pc = Core.trapEntry := hvec
  rw [raise, if_pos hpc]
  simp only [maxCalls, Code.passes, serve, run_entryCode hvec hm hf cause tval]
  rfl

include hmode

/-- The trap entry calls the handler once, and returns if the handler does. -/
theorem raise_eq_handler : raise leftovers cause tval b =
    match handler leftovers (b.called cause tval) with
    | (.returned, b') => (.returned, { b' with core := b'.core.left })
    | (e, b') => (e, b') := by
  rw [raise_eq hvec hm hf]
  cases hh : handler leftovers (b.called cause tval) with
  | mk e b' =>
  cases e with
  | returned =>
    obtain ⟨o, m', hres, -, -, rfl⟩ := handleTrap_of_returned hh
    have hs := serves_of_handled hm hmode hres
    have howns : (m'.hart.scramble leftovers).ownsAccess = true :=
      Core.ownsAccess_of_machine hs.ready.1 hs.mode
    have hsp : m'.hart.reg .sp = b.core.csr .mscratch := congrFun hs.x Reg.sp
    exact serve_eq_returned 4 hs.pc howns (hsp ▸ hf)
  | _ => rfl

end Raised

end Board

end TrapMonitor
