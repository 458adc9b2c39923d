import TrapMonitor.Boot
import TrapMonitor.Proofs.Core.Handling
import TrapMonitor.Proofs.Trap.Halt

/-! # What machine mode keeps up

Booting sets the machine up for the traps to come, and every trap leaves it set up in the same way.
What machine mode relies on is found in its registers whenever code below machine mode runs, whatever
that code does and however its traps end.
-/
namespace TrapMonitor

namespace Core

/-! ## Whenever other code runs -/

/-- Code below machine mode runs, and the core is set up for the next trap: the frame is at `frame`,
and traps are delegated as `plan` says. -/
structure Settled (plan : BootPlan) (frame : Word) (c : Core) : Prop where
  mode : c.mode.BelowMachine
  trapVector : c.csr .mtvec = trapEntry
  scratch : c.csr .mscratch = frame
  mprv : Status.has (c.csr .mstatus) Status.mprv = false
  mie : Status.has (c.csr .mstatus) Status.mie = true
  mpie : Status.has (c.csr .mstatus) Status.mpie = true
  previous : Status.previousMode (c.csr .mstatus) = Mode.user
  timerOnly : c.csr .mie &&& ~~~InterruptBits.machineTimer = 0
  exceptionDelegation : c.csr .medeleg = plan.exceptionDelegation
  interruptDelegation : c.csr .mideleg = plan.interruptDelegation

variable {plan : BootPlan} {frame : Word} {c d : Core}

/-- The state in which the handler is called. -/
theorem Settled.handled (hs : Settled plan frame c) (cause tval : Word) :
    Handled (c.trap cause tval).entered (c.trap cause tval).entered := by
  have hstatus : (c.trap cause tval).entered.csr .mstatus =
      Status.enterMachine c.mode (c.csr .mstatus) := rfl
  exact {
    exceptionDelegation := rfl
    interruptDelegation := rfl
    timerOnly := hs.timerOnly
    mprv := by rw [hstatus, Status.has_mprv_enterMachine, hs.mprv]
    mpie := by rw [hstatus, Status.has_mpie_enterMachine, hs.mie]
    previous := by
      rw [hstatus, Status.previousMode_enterMachine]
      exact hs.mode }

/-- The state after the return from a trap that was handled. -/
theorem Settled.left (hs : Settled plan frame c) {cause tval : Word}
    (hd : Handled (c.trap cause tval).entered d) (hx : d.x = (c.trap cause tval).entered.x)
    (hvec : d.csr .mtvec = trapEntry) (leftovers : Reg → Word) :
    Settled plan frame (d.scramble leftovers).left := by
  have hstatus : (d.scramble leftovers).left.csr .mstatus = Status.leaveMachine (d.csr .mstatus) :=
    rfl
  -- the handler leaves `sp` alone, and the last exchange puts it where the frame is looked for
  have hsp : d.reg .sp = (c.trap cause tval).entered.reg .sp := congrFun hx Reg.sp
  have hframe : (c.trap cause tval).entered.reg .sp = c.csr .mscratch := rfl
  have hscratch : (d.scramble leftovers).left.csr .mscratch = d.reg .sp := rfl
  exact {
    mode := hd.previous
    trapVector := hvec
    scratch := by rw [hscratch, hsp, hframe, hs.scratch]
    mprv := by rw [hstatus, Status.has_mprv_leaveMachine, hd.mprv]
    mie := by rw [hstatus, Status.has_mie_leaveMachine, hd.mpie]
    mpie := by rw [hstatus, Status.has_mpie_leaveMachine]
    previous := by rw [hstatus, Status.previousMode_leaveMachine]
    timerOnly := hd.timerOnly
    exceptionDelegation := hd.exceptionDelegation.trans hs.exceptionDelegation
    interruptDelegation := hd.interruptDelegation.trans hs.interruptDelegation }

/-! ## Booting -/

/-- The firmware's stack has room for the frame. -/
theorem frameFits_stackTop : FrameFits (stackTop - BootPlan.frameSize) :=
  ⟨by decide, by decide, by decide⟩

/-- The core when the supervisor starts. -/
def booted (plan : BootPlan) (deviceTree : Word) (c : Core) : Core :=
  (c.openPmp.apply plan).enterSupervisor deviceTree

theorem apply_eq (plan : BootPlan) (c : Core) :
    c.apply plan =
      (((((((c.setCsr .mtvec plan.trapVector).setCsr .mscratch plan.scratch).setCsr .mstatus
        plan.status).setCsr .mie plan.interruptEnable).setCsr .mepc plan.entry).setCsr .medeleg
        plan.exceptionDelegation).setCsr .mideleg plan.interruptDelegation).setCsr .stval
        plan.supervisorBadAddress := by
  rw [apply, writeSystem_of_not_isPmp .stval _ _ rfl, writeSystem_of_not_isPmp .mideleg _ _ rfl,
    writeSystem_of_not_isPmp .medeleg _ _ rfl, writeSystem_of_not_isPmp .mepc _ _ rfl,
    writeSystem_of_not_isPmp .mie _ _ rfl, writeSystem_of_not_isPmp .mstatus _ _ rfl,
    writeSystem_of_not_isPmp .mscratch _ _ rfl, writeSystem_of_not_isPmp .mtvec _ _ rfl]

theorem enterSupervisor_eq (deviceTree : Word) (c : Core) :
    c.enterSupervisor deviceTree =
      { (c.setReg .a1 deviceTree).setReg .a0 0 with
        csr := (c.setCsr .mstatus (Status.leaveMachine (c.csr .mstatus))).csr
        mode := Status.previousMode (c.csr .mstatus)
        pc := c.csr .mepc } := by
  rfl

theorem csr_booted (plan : BootPlan) (deviceTree : Word) (c : Core) (s : SystemCsr) :
    (c.booted plan deviceTree).csr s = match s with
      | .mtvec => plan.trapVector
      | .mscratch => plan.scratch
      | .mstatus => Status.leaveMachine plan.status
      | .mie => plan.interruptEnable
      | .mepc => plan.entry
      | .medeleg => plan.exceptionDelegation
      | .mideleg => plan.interruptDelegation
      | .stval => plan.supervisorBadAddress
      | s => c.openPmp.csr s := by
  rw [booted, enterSupervisor_eq, apply_eq]
  generalize c.openPmp = d
  cases s <;> rfl

theorem mode_booted (plan : BootPlan) (deviceTree : Word) (c : Core) :
    (c.booted plan deviceTree).mode = Status.previousMode plan.status := by
  rw [booted, enterSupervisor_eq, apply_eq]
  generalize c.openPmp = d
  rfl

theorem settled_booted {stackTop image : Word}
    (hplan : BootPlan.make trapEntry stackTop image = .ok plan) (deviceTree : Word) (c : Core) :
    Settled plan (stackTop - BootPlan.frameSize) (c.booted plan deviceTree) := by
  unfold BootPlan.make Checked.sub at hplan
  split at hplan
  · cases hplan
    constructor <;> simp only [csr_booted, mode_booted]
    · exact .inr (by decide)
    all_goals decide
  · cases hplan

end Core

namespace Boot

variable {Tree Fault U T F M I α : Type} [Bus U] [Bus T] [Bus F] {build : Build Tree Fault}
  {b b' : BootBoard U T F M I}

theorem abort_ne_ok {why : Abort} {v : α} :
    abort build why b ≠ (.ok v b' : EStateM.Result Stop (BootBoard U T F M I) α) := by
  intro h
  cases why with
  | neverReady => cases h
  | _ =>
    obtain ⟨⟨⟩, b₁, -, hhalt⟩ := bind_eq_ok.mp h
    cases hhalt

theorem core_emit (b : BootBoard U T F M I) (r : Record) : (emit b r).core = b.core := by
  unfold emit
  split <;> rfl

theorem proceed_eq_ok : proceed b = .ok () b' ↔ Platform.waits b.platform = false ∧ b' = b := by
  unfold proceed
  cases Platform.waits b.platform <;> simp [eq_comm]

theorem core_of_say {level : Level} {message : String} (h : say level message b = .ok () b') :
    b'.core = b.core := by
  have hb' : b' = emit b ⟨level, "emulator::firmware", message⟩ := (proceed_eq_ok.mp h).2
  rw [hb', core_emit]

/-- The boot sequence of the firmware ends with that. -/
theorem core_of_launch (h : launch build b = .ok () b') :
    ∃ plan, BootPlan.make Core.trapEntry Core.stackTop BootPlan.imageBase = .ok plan ∧
      b'.core = b.core.booted plan BootPlan.deviceTreeBase := by
  obtain ⟨plan, b₁, hplan, hrest⟩ := bind_eq_ok.mp h
  obtain ⟨⟨⟩, b₂, hsay, hrest⟩ := bind_eq_ok.mp hrest
  obtain ⟨⟨⟩, b₃, hopen, hrest⟩ := bind_eq_ok.mp hrest
  obtain ⟨⟨⟩, b₄, happly, henter⟩ := bind_eq_ok.mp hrest
  have hmake : BootPlan.make Core.trapEntry Core.stackTop BootPlan.imageBase = .ok plan ∧
      b₁.core = b.core := by
    cases hmade : BootPlan.make Core.trapEntry Core.stackTop BootPlan.imageBase with
    | ok p =>
      rw [hmade] at hplan
      cases hplan
      exact ⟨rfl, rfl⟩
    | error why =>
      rw [hmade] at hplan
      exact absurd hplan abort_ne_ok
  have h₂ : b₂.core = b₁.core := core_of_say hsay
  have h₃ : b₃.core = b₂.core.openPmp := by
    cases hopen
    rfl
  have h₄ : b₄.core = b₃.core.apply plan := by
    cases happly
    rfl
  have h₅ : b'.core = b₄.core.enterSupervisor BootPlan.deviceTreeBase := by
    cases henter
    rfl
  exact ⟨plan, hmake.1, by rw [h₅, h₄, h₃, h₂, hmake.2, Core.booted]⟩

end Boot

namespace Board

variable {U T D : Type} [Bus U] [Bus T] [Bus D] {b b' : Board U T D} {plan : BootPlan}
  {frame : Word}

section Traps

variable {leftovers : Reg → Word} {cause tval : Word} (hs : Core.Settled plan frame b.core)
  (hf : Core.FrameFits frame)

include hs

/-- A trap that is handled to its end leaves the core settled. -/
theorem settled_of_handled (hh : handler leftovers (b.called cause tval) = (.returned, b')) :
    Core.Settled plan frame b'.core.left := by
  obtain ⟨o, m', hres, ho, -, rfl⟩ := handleTrap_of_returned hh
  have hserves := serves_of_handled hs.mprv (.inr hs.mode) hres
  have hhandled := (Core.Handled.invariant _).handleTrap
    (m := b.trapped cause tval) (hs.handled cause tval)
  rw [show (b.trapped cause tval).handleTrap = (o, m') from hres] at hhandled
  have hvec := Machine.trapVector_of_handleTrap hres ho
  rw [Core.readCsr_eq] at hvec
  exact hs.left hhandled hserves.x hvec leftovers

include hf

/-- A trap is handled to its end, or the machine halts, or it waits for a device. -/
theorem raise_settled (leftovers : Reg → Word) (cause tval : Word) :
    (raise leftovers cause tval b).1 = .halted ∨
      (raise leftovers cause tval b).1 = .waiting ∧
        Platform.waits (raise leftovers cause tval b).2.platform = true ∨
      (raise leftovers cause tval b).1 = .returned ∧
        Core.Settled plan frame (raise leftovers cause tval b).2.core := by
  rw [raise_eq_handler hs.trapVector hs.mprv (hs.scratch ▸ hf) (.inr hs.mode)]
  have hend := end_of_handler leftovers (b.called cause tval)
  cases hh : handler leftovers (b.called cause tval) with
  | mk e b' =>
  rw [hh] at hend
  rcases hend with rfl | ⟨rfl, hw⟩ | rfl
  · exact .inl rfl
  · exact .inr (.inl ⟨rfl, hw⟩)
  · exact .inr (.inr ⟨rfl, settled_of_handled hs hh⟩)

end Traps

/-! ## Whole runs -/

/-- What code below machine mode can make of a board between two traps: it has the general
registers, all memory but the machine's RAM, the devices, and the registers and status bits of the
supervisor. -/
structure RunsBelow (b b' : Board U T D) : Prop where
  mode : b'.core.mode.BelowMachine
  bank : b'.core.bank = b.core.bank
  ram : ∀ a, Core.InRam a → b'.core.ram.byte a = b.core.ram.byte a
  pmp : b'.core.pmp = b.core.pmp
  status : b'.core.csr .mstatus &&& ~~~Status.supervisorBits =
    b.core.csr .mstatus &&& ~~~Status.supervisorBits
  csr : ∀ s, s ∉ [.mstatus, .stvec, .sepc, .scause, .stval, .sip, .satp, .mip] →
    b'.core.csr s = b.core.csr s

omit [Bus U] [Bus T] [Bus D] in
theorem RunsBelow.settled (h : RunsBelow b b') (hs : Core.Settled plan frame b.core) :
    Core.Settled plan frame b'.core where
  mode := h.mode
  trapVector := (h.csr .mtvec (by decide)).trans hs.trapVector
  scratch := (h.csr .mscratch (by decide)).trans hs.scratch
  mprv := by
    rw [Status.has_mprv, Status.getLsbD_of_supervisor h.status (by decide) (by decide),
      ← Status.has_mprv, hs.mprv]
  mie := by
    rw [Status.has_mie, Status.getLsbD_of_supervisor h.status (by decide) (by decide),
      ← Status.has_mie, hs.mie]
  mpie := by
    rw [Status.has_mpie, Status.getLsbD_of_supervisor h.status (by decide) (by decide),
      ← Status.has_mpie, hs.mpie]
  previous := by
    rw [Status.previousMode_eq_iff,
      Status.getLsbD_of_supervisor h.status (by decide) (by decide),
      Status.getLsbD_of_supervisor h.status (by decide) (by decide),
      ← Status.previousMode_eq_iff, hs.previous]
  timerOnly := by rw [h.csr .mie (by decide), hs.timerOnly]
  exceptionDelegation := (h.csr .medeleg (by decide)).trans hs.exceptionDelegation
  interruptDelegation := (h.csr .mideleg (by decide)).trans hs.interruptDelegation

/-- The boards on which code below machine mode runs, from booting on, as long as no trap halts the
machine or waits for a device that never becomes ready. -/
inductive Reachable (stackTop image : Word) : Board U T D → Prop
  | boot {b : Board U T D} {plan : BootPlan} (deviceTree : Word) :
    BootPlan.make Core.trapEntry stackTop image = .ok plan →
    Reachable stackTop image { b with core := b.core.booted plan deviceTree }
  | runs {b b' : Board U T D} : Reachable stackTop image b → RunsBelow b b' →
    Reachable stackTop image b'
  | trap {b b' : Board U T D} {e : TrapEnd} (leftovers : Reg → Word) (cause tval : Word) :
    Reachable stackTop image b → raise leftovers cause tval b = (e, b') → e ≠ .halted →
    e ≠ .waiting → Reachable stackTop image b'

/-- However the run went, the core is set up for the next trap, if the stack is in the machine's RAM:
such a trap is handled to its end unless it halts the machine, or writes a byte that the console never
takes. -/
theorem reachable_settled {stackTop image : Word}
    (hf : Core.FrameFits (stackTop - BootPlan.frameSize)) (h : Reachable stackTop image b) :
    ∃ plan, BootPlan.make Core.trapEntry stackTop image = .ok plan ∧
      Core.Settled plan (stackTop - BootPlan.frameSize) b.core ∧
      ∀ leftovers cause tval, (raise leftovers cause tval b).1 = .halted ∨
        (raise leftovers cause tval b).1 = .waiting ∧
          Platform.waits (raise leftovers cause tval b).2.platform = true ∨
        (raise leftovers cause tval b).1 = .returned := by
  have hinv : ∃ plan, BootPlan.make Core.trapEntry stackTop image = .ok plan ∧
      Core.Settled plan (stackTop - BootPlan.frameSize) b.core := by
    -- the run itself: each step starts from a settled core and leaves one
    induction h with
    | boot deviceTree hplan => exact ⟨_, hplan, Core.settled_booted hplan deviceTree _⟩
    | runs _ hbelow ih =>
      obtain ⟨plan, hplan, hs⟩ := ih
      exact ⟨plan, hplan, hbelow.settled hs⟩
    | trap leftovers cause tval _ hraise hhalted hwaiting ih =>
      obtain ⟨plan, hplan, hs⟩ := ih
      have hend := raise_settled hs hf leftovers cause tval
      rw [hraise] at hend
      refine ⟨plan, hplan, ?_⟩
      exact ((hend.resolve_left hhalted).resolve_left fun h => hwaiting h.1).2
  obtain ⟨plan, hplan, hs⟩ := hinv
  refine ⟨plan, hplan, hs, fun leftovers cause tval => ?_⟩
  exact (raise_settled hs hf leftovers cause tval).imp_right (Or.imp_right And.left)

/-- A timer interrupt right after booting. -/
theorem reachable_settled_timer :
    let booted := { blank 0 with
      core := (blank 0).core.booted
        (.mk Core.trapEntry 0x2000ff80 0x880 0 BootPlan.imageBase 0xb100 0x222 0) 0 }
    let b := (raise (fun _ => 0) 0x80000007 0 booted).2
    Core.FrameFits (Core.stackTop - BootPlan.frameSize) ∧
      Reachable Core.stackTop BootPlan.imageBase b ∧
      ∃ plan, Core.Settled plan (Core.stackTop - BootPlan.frameSize) b.core := by
  intro booted b
  have hf := Core.frameFits_stackTop
  have hboot : Reachable Core.stackTop BootPlan.imageBase booted := .boot 0 rfl
  have hend : (raise (fun _ => 0) 0x80000007 0 booted).1 = .returned := by decide +kernel
  have hreach : Reachable Core.stackTop BootPlan.imageBase b :=
    .trap (e := .returned) (fun _ => 0) 0x80000007 0 hboot (Prod.ext hend rfl) (by decide)
      (by decide)
  obtain ⟨plan, -, hs, -⟩ := reachable_settled hf hreach
  exact ⟨hf, hreach, plan, hs⟩

end Board

end TrapMonitor
