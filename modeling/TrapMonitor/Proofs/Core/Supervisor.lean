import TrapMonitor.Proofs.Core.Handling

/-! # Delegation as the hardware would have done it

A core can also take a trap to supervisor mode by itself, and leaves it by `sret`. Taking the trap to
machine mode, delegating it there and returning comes to the same: the supervisor finds the same
registers and the same status word, bit for bit, and its own return goes back to the trapped
instruction.
-/
namespace TrapMonitor

namespace Status

/-- A trap out of `mode` into supervisor mode disables the supervisor's interrupts and notes what it
came from. -/
def enterSupervisor (mode : Mode) (status : Word) : Word :=
  let cleared := status &&& ~~~(sie ||| spie ||| spp)
  let enabled := if has status sie then spie else 0
  let interrupted := if mode == Mode.supervisor then spp else 0
  cleared ||| enabled ||| interrupted

/-- A return from supervisor mode puts the interrupt enable back and forgets the previous mode. -/
def leaveSupervisor (status : Word) : Word :=
  let cleared := status &&& ~~~(sie ||| spie ||| spp)
  let enabled := if has status spie then sie else 0
  cleared ||| enabled ||| spie

/-- The mode that a return from supervisor mode goes to. -/
def supervisorPrevious (status : Word) : Mode := if has status spp then Mode.supervisor else Mode.user

theorem getLsbD_enterSupervisor (mode : Mode) (m : Word) {i : Nat} (hi : i < 32) :
    (enterSupervisor mode m).getLsbD i =
      if i = 1 then false
      else if i = 5 then m.getLsbD 1
      else if i = 8 then mode == Mode.supervisor
      else m.getLsbD i := by
  simp only [enterSupervisor, BitVec.getLsbD_or, BitVec.getLsbD_and, BitVec.getLsbD_not,
    getLsbD_ite, has_sie, getLsbD_sie, getLsbD_spie, getLsbD_spp]
  grind

/-- What the supervisor's handler finds in the status word, before the return from machine mode. -/
theorem getLsbD_delegated_enterMachine (mode : Mode) (m : Word) {i : Nat} (hi : i < 32) :
    (delegated (enterMachine mode m)).getLsbD i =
      if i = 1 ∨ i = 3 ∨ i = 12 then false
      else if i = 5 then m.getLsbD 1
      else if i = 8 then mode.getLsbD 0
      else if i = 7 ∨ i = 11 then true
      else m.getLsbD i := by
  rw [getLsbD_delegated _ hi, getLsbD_enterMachine _ _ hi,
    getLsbD_enterMachine _ _ (by decide), getLsbD_enterMachine _ _ (by decide)]
  grind

/-- The three changes of the status word on the way through machine mode make up the one that a trap
to the supervisor makes. -/
theorem leaveMachine_delegated_enterMachine {mode : Mode} {m : Word} (hmode : mode.BelowMachine)
    (hmie : has m mie = true) (hmpie : has m mpie = true) (hprev : previousMode m = Mode.user) :
    leaveMachine (delegated (enterMachine mode m)) = enterSupervisor mode m := by
  have hbit : mode.getLsbD 0 = (mode == Mode.supervisor) := by
    rcases hmode with rfl | rfl <;> rfl
  obtain ⟨h11, h12⟩ := previousMode_eq_iff.mp hprev
  rw [has_mie] at hmie
  rw [has_mpie] at hmpie
  apply BitVec.eq_of_getLsbD_eq
  intro i hi
  rw [getLsbD_leaveMachine _ hi, getLsbD_enterSupervisor _ _ hi,
    getLsbD_delegated_enterMachine _ _ hi, getLsbD_delegated_enterMachine _ _ (by decide), hbit]
  -- the machine's fields end with the values they had before the trap
  by_cases h3 : i = 3
  · subst h3
    exact hmie.symm
  by_cases h7 : i = 7
  · subst h7
    exact hmpie.symm
  by_cases h11' : i = 11
  · subst h11'
    exact h11.symm
  by_cases h12' : i = 12
  · subst h12'
    exact h12.symm
  simp [h3, h7, h11', h12']

/-- A trap to the supervisor is undone by the return from it. -/
theorem supervisorPrevious_enterSupervisor {mode : Mode} (hmode : mode.BelowMachine) (m : Word) :
    supervisorPrevious (enterSupervisor mode m) = mode := by
  rw [supervisorPrevious, has_spp, getLsbD_enterSupervisor _ _ (by decide)]
  rcases hmode with rfl | rfl <;> rfl

theorem has_sie_leaveSupervisor (m : Word) : has (leaveSupervisor m) sie = has m spie := by
  rw [has_sie, leaveSupervisor]
  cases has m spie <;> simp [sie, spie, spp]

theorem has_spie_enterSupervisor (mode : Mode) (m : Word) :
    has (enterSupervisor mode m) spie = has m sie := by
  rw [has_spie, getLsbD_enterSupervisor _ _ (by decide), has_sie]
  simp

end Status

namespace Core

/-- Where the supervisor takes a trap: at the base address of its vector, or for interrupts in
vectored mode, at the entry of their cause. -/
def supervisorEntry (stvec cause : Word) : Word :=
  let base := stvec &&& ~~~3
  if stvec &&& 3 = 1 ∧ cause.msb then base + 4 * (cause &&& 0x7fffffff) else base

theorem supervisorEntry_of_direct {stvec : Word} (h : stvec &&& 3 = 0) (cause : Word) :
    supervisorEntry stvec cause = stvec := by
  have hbase : stvec &&& ~~~3 = stvec := by
    apply BitVec.eq_of_getLsbD_eq
    intro i hi
    have hb : (stvec.getLsbD i && (3 : Word).getLsbD i) = false := by
      rw [← BitVec.getLsbD_and, h]
      exact BitVec.getLsbD_zero
    rw [BitVec.getLsbD_and, BitVec.getLsbD_not]
    cases hs : stvec.getLsbD i with
    | false => rfl
    | true =>
      rw [hs, Bool.true_and] at hb
      simp only [hb, hi, decide_true, Bool.not_false, Bool.and_self]
  rw [supervisorEntry, hbase, h, if_neg]
  simp

/-- A trap that the core delegates by itself. -/
def trapToSupervisor (cause tval : Word) (c : Core) : Core :=
  let d := c.setCsr .mstatus (Status.enterSupervisor c.mode (c.csr .mstatus))
  let d := d.setCsr .sepc c.pc
  let d := d.setCsr .scause cause
  let d := d.setCsr .stval tval
  { d with mode := Mode.supervisor, pc := supervisorEntry (c.csr .stvec) cause }

theorem csr_trapToSupervisor (cause tval : Word) (c : Core) (s : SystemCsr) :
    (c.trapToSupervisor cause tval).csr s = match s with
      | .mstatus => Status.enterSupervisor c.mode (c.csr .mstatus)
      | .sepc => c.pc
      | .scause => cause
      | .stval => tval
      | s => c.csr s := by
  cases s <;> rfl

/-- The supervisor's return from a trap. -/
def sret (c : Core) : Core :=
  let d := c.setCsr .mstatus (Status.leaveSupervisor (c.csr .mstatus))
  { d with mode := Status.supervisorPrevious (c.csr .mstatus), pc := c.csr .sepc }

theorem delegate_eq (s : TrapState) (c : Core) :
    s.delegate c =
      (((((c.setCsr .mtvec trapEntry).setCsr .stval s.mbadaddr).setCsr .scause s.mcause).setCsr .sepc
        s.mepc).setCsr .mepc (c.csr .stvec)).setCsr .mstatus (Status.delegated s.mstatus) := by
  simp only [TrapState.delegate, Hart.restoreTrapVector, writeCsr_eq, readCsr_eq]
  rfl

/-- The captured trap, delegated on a core that made accesses since and returned from. -/
def delegatedFrom (trapped c : Core) : Core := ((TrapState.capture trapped).delegate c).mret

/-- The registers of the machine that the way through machine mode leaves its marks in. -/
def machineTrapCsrs : List SystemCsr := [.mtvec, .mepc, .mcause, .mtval]

theorem csr_delegatedFrom {trapped c : Core} {s : SystemCsr} (hs : s ∉ machineTrapCsrs) :
    (delegatedFrom trapped c).csr s = match s with
      | .mstatus => Status.leaveMachine (Status.delegated (trapped.csr .mstatus))
      | .sepc => trapped.csr .mepc
      | .scause => trapped.csr .mcause
      | .stval => trapped.csr .mtval
      | s => c.csr s := by
  rw [delegatedFrom, delegate_eq]
  simp only [TrapState.capture, readCsr_eq]
  cases s with
  | mtvec | mepc | mcause | mtval => exact absurd (by decide) hs
  | _ => rfl

theorem pc_delegatedFrom (trapped c : Core) : (delegatedFrom trapped c).pc = c.csr .stvec := by
  rw [delegatedFrom, delegate_eq]
  rfl

theorem mode_delegatedFrom (trapped c : Core) :
    (delegatedFrom trapped c).mode = Mode.supervisor := by
  rw [delegatedFrom, delegate_eq]
  exact Status.previousMode_delegated _

/-- Delegation in software equals delegation by the core. Between trap and delegation, the handler
may have moved the trap vector. -/
theorem delegatedFrom_eq_trapToSupervisor {c d : Core} (cause tval : Word)
    (hmode : c.mode.BelowMachine) (hmie : Status.has (c.csr .mstatus) Status.mie = true)
    (hmpie : Status.has (c.csr .mstatus) Status.mpie = true)
    (hprev : Status.previousMode (c.csr .mstatus) = Mode.user)
    (hdirect : c.csr .stvec &&& 3 = 0)
    (hd : ∀ s, s ≠ .mtvec → d.csr s = (c.trap cause tval).csr s) :
    let e := delegatedFrom (c.trap cause tval) d
    let direct := c.trapToSupervisor cause tval
    e.pc = direct.pc ∧ e.mode = direct.mode ∧
      (∀ s, s ∉ machineTrapCsrs → e.csr s = direct.csr s) ∧
      (e.sret.pc = c.pc ∧ e.sret.mode = c.mode ∧
        Status.has (e.sret.csr .mstatus) Status.sie = Status.has (c.csr .mstatus) Status.sie) ∧
      ∀ m, Status.delegated m =
        (m &&& ~~~(Status.spp ||| Status.mpp ||| Status.sie ||| Status.spie)) |||
          (m >>> 3 &&& Status.spp) ||| Status.mppSupervisor ||| Status.mpie |||
          (m &&& Status.sie) <<< 4 := by
  intro e direct
  have hstvec : d.csr .stvec = c.csr .stvec := hd .stvec (by decide)
  have hstatus : e.csr .mstatus = Status.enterSupervisor c.mode (c.csr .mstatus) := by
    rw [csr_delegatedFrom (by decide)]
    exact Status.leaveMachine_delegated_enterMachine hmode hmie hmpie hprev
  refine ⟨?_, mode_delegatedFrom _ _, ?_, ⟨?_, ?_, ?_⟩, Status.delegated_eq⟩
  · rw [pc_delegatedFrom, hstvec]
    exact (supervisorEntry_of_direct hdirect cause).symm
  · intro s hs
    rw [csr_trapToSupervisor]
    cases s with
    | mtvec | mepc | mcause | mtval => exact absurd (by decide) hs
    | mstatus => exact hstatus
    | sepc | scause | stval => exact csr_delegatedFrom hs
    | _ => exact (csr_delegatedFrom hs).trans (hd _ (by decide))
  · have hsepc : e.csr .sepc = (c.trap cause tval).csr .mepc := csr_delegatedFrom (by decide)
    exact hsepc
  · rw [sret, hstatus]
    exact Status.supervisorPrevious_enterSupervisor hmode _
  · have hsret : e.sret.csr .mstatus = Status.leaveSupervisor (e.csr .mstatus) := rfl
    rw [hsret, hstatus, Status.has_sie_leaveSupervisor, Status.has_spie_enterSupervisor]

/-- A store of a user program, whose delegation follows an access. -/
theorem delegatedFrom_eq_trapToSupervisor_user :
    let c : Core := {
      x := fun _ => 0
      csr := fun s => match s with
        | .mstatus => 0x8000618a
        | .stvec => 0xc0002000
        | _ => 0
      pc := 0x00010234
      mode := Mode.user
      pmp := false
      memory := ⟨Memory.zero, ⟨[], [], [], []⟩⟩
      bank := none
      trace := [] }
    let d := (c.trap 6 0x00020001).setCsr .mtvec Barrier.label
    let e := delegatedFrom (c.trap 6 0x00020001) d
    e.pc = 0xc0002000 ∧ e.csr .mstatus = 0x800060a8 ∧ e.csr .sepc = 0x00010234 ∧
      e.sret.pc = 0x00010234 ∧ e.sret.mode = Mode.user := by
  intro c d e
  have hd : ∀ s, s ≠ .mtvec → d.csr s = (c.trap 6 0x00020001).csr s := fun s hs => if_neg hs
  obtain ⟨hpc, -, hcsr, ⟨hback, hmode, -⟩, -⟩ :=
    delegatedFrom_eq_trapToSupervisor 6 0x00020001 (.inl rfl) (by decide) (by decide) (by decide)
      (by decide) hd
  have hentry : (c.trapToSupervisor 6 0x00020001).pc = 0xc0002000 := by decide
  have hstatus : (c.trapToSupervisor 6 0x00020001).csr .mstatus = 0x800060a8 := by decide
  exact ⟨hpc.trans hentry, (hcsr .mstatus (by decide)).trans hstatus, hcsr .sepc (by decide),
    hback, hmode⟩

end Core

end TrapMonitor
