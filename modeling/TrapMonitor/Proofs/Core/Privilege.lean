import TrapMonitor.Proofs.Core.Attempt

/-! # The privilege of loads and stores

In machine mode loads and stores have the privilege of the machine, unless the status word lends them
that of the trapped code. Only a barrier borrows it, for its one access, and it has been given back
when the block ends, whether or not the access was refused.
-/
namespace TrapMonitor

/-- The instruction does not write the status word, unless it leaves the code. -/
def Instr.keepsStatus : Instr → Bool
  | csrExchange _ s _ => s != .mstatus
  | csrWrite s _ => s != .mstatus
  | csrSet s _ => s != .mstatus
  | csrClear s _ => s != .mstatus
  | _ => true

namespace Core

/-- Machine mode, with the privilege of the machine for loads and stores. -/
structure Unarmed (c : Core) : Prop where
  mode : c.mode = Mode.machine
  mprv : Status.has (c.csr .mstatus) Status.mprv = false

/-- A trap does not lend the privilege of the trapped code. -/
theorem unarmed_trap {c : Core} (hm : Status.has (c.csr .mstatus) Status.mprv = false)
    (cause tval : Word) : (c.trap cause tval).Unarmed where
  mode := rfl
  mprv := by
    have hstatus : (c.trap cause tval).csr .mstatus = Status.enterMachine c.mode (c.csr .mstatus) :=
      rfl
    rw [hstatus, Status.has_mprv_enterMachine, hm]

namespace Unarmed

variable {c d : Core}

theorem privilege (h : c.Unarmed) : c.privilege = Mode.machine := by
  rw [Core.privilege, h.mprv]
  exact h.mode

theorem congr (h : c.Unarmed) (hmode : d.mode = c.mode) (hstatus : d.csr .mstatus = c.csr .mstatus) :
    d.Unarmed := ⟨hmode.trans h.mode, hstatus ▸ h.mprv⟩

theorem setCsr {s : SystemCsr} (hs : s ≠ .mstatus) (v : Word) (h : c.Unarmed) :
    (c.setCsr s v).Unarmed := h.congr rfl (if_neg hs.symm)

theorem setReg (r : Reg) (v : Word) (h : c.Unarmed) : (c.setReg r v).Unarmed := by
  refine h.congr ?_ (congrFun (csr_setReg c r v) .mstatus)
  unfold Core.setReg
  split <;> rfl

theorem advance (i : Instr) (h : c.Unarmed) : (c.advance i).Unarmed := h.congr rfl rfl

theorem accessCsr {s : SystemCsr} {f : Core → Core} (i : Instr) (h : c.Unarmed)
    (hf : (f c).Unarmed) : (c.accessCsr i s f).Unarmed := by
  unfold Core.accessCsr
  split
  · exact unarmed_trap h.mprv 2 0
  · exact hf.advance i

/-- Whether or not it is refused, an instruction lends nothing. -/
theorem step {i : Instr} (hi : i.keepsStatus = true) (h : c.Unarmed) (hs : c.step i = .next d) :
    d.Unarmed := by
  cases i with
  | loadAddress rd a | loadImmediate rd a | move rd a =>
    cases hs
    exact (h.setReg rd _).advance _
  | csrExchange rd s rs =>
    cases hs
    exact h.accessCsr _ ((h.setCsr (by simpa [Instr.keepsStatus] using hi) _).setReg rd _)
  | csrRead rd s =>
    cases hs
    exact h.accessCsr _ (h.setReg rd _)
  | csrWrite s rs | csrSet s rs | csrClear s rs =>
    cases hs
    exact h.accessCsr _ (h.setCsr (by simpa [Instr.keepsStatus] using hi) _)
  | load w rd offset base =>
    simp only [Core.step, stepLoad] at hs
    cases hl : c.load w (c.reg base + offset) with
    | mk x e =>
    rw [hl] at hs
    have he : e.Unarmed := by
      rw [eq_of_load hl]
      exact h.congr rfl rfl
    cases x with
    | ok v =>
      cases hs
      exact (he.setReg rd v).advance _
    | error cause =>
      cases hs
      exact unarmed_trap he.mprv cause _
  | store w rs offset base =>
    simp only [Core.step, stepStore] at hs
    have hsnd := storeTo_snd w (c.reg base + offset) (c.reg rs) c
    cases hl : c.storeTo w (c.reg base + offset) (c.reg rs) with
    | mk x e =>
    rw [hl] at hs hsnd
    have he : e.Unarmed := by
      rw [show e = _ from hsnd]
      exact h.congr rfl rfl
    cases x with
    | ok v =>
      cases hs
      exact he.advance _
    | error cause =>
      cases hs
      exact unarmed_trap he.mprv cause _
  | call target | jump target => cases hs
  | mret => cases hs

/-- Code that does not write the status word runs with the privilege of the machine throughout. -/
theorem history {code : Code} (hcode : ∀ i ∈ code.body, i.keepsStatus = true) (h : c.Unarmed) :
    ∀ x ∈ code.history c, x.1.Unarmed := fun x hx =>
  (Code.historyFor_keeps (fun i hi _ _ hc hs => hc.step (hcode i hi) hs) _ h x hx).1

end Unarmed

/-! ## Blocks -/

/-- The instructions that read or change a register of the hart. -/
def registerInstrs (r : Csr) : List Instr :=
  [.csrRead .a0 r.system, .csrWrite r.system .a0, .csrSet r.system .a0, .csrClear r.system .a0]

/-- Reading and changing registers is done without loads and stores. -/
theorem accesses_of_registerInstrs {r : Csr} {i : Instr} (hi : i ∈ registerInstrs r)
    (inputs : List (Reg × Word)) (c : Core) :
    Code.accesses ((block [i]).history (c.enterBlock inputs)) = [] := by
  have hquiet : i.isAccess = false := by
    simp only [registerInstrs, List.mem_cons, List.not_mem_nil, or_false] at hi
    rcases hi with rfl | rfl | rfl | rfl <;> rfl
  apply List.filter_eq_nil_iff.mpr
  intro x hx
  have hbody := (Code.historyFor_keeps (fun _ _ _ _ _ _ => trivial) _ trivial x hx).2
  obtain rfl : x.2 = i := List.mem_singleton.mp hbody
  rw [hquiet]
  decide

namespace Barrier

/-- The cores between the blocks that make up a barrier, from the end of its access on: at first, and
after each of the registers that a fault makes it put back. -/
def stages (outer after : Core) : List Core :=
  let s := save outer
  let c := leaveBlock outer after
  let c₁ := c.writeSystem .mepc s.mepc
  let c₂ := c₁.writeSystem .mcause s.mcause
  let c₃ := c₂.writeSystem .mtval s.mtval
  [c, c₁, c₂, c₃, restore s c]

/-- The block for an access makes one load or store, which has the privilege of mode `p`, and gives
that privilege back. -/
structure Guards (p : Mode) (c : Core) (w : Width) (k : AccessKind) (a v : Word) : Prop where
  single : ∃ d, Code.accesses ((block (body w k)).history (c.enterBlock (operands k a v))) =
      [(d, instr w k)] ∧
    Status.has (d.csr .mstatus) Status.mprv = true ∧ Status.previousMode (d.csr .mstatus) = p ∧
    d.reg address = a ∧ (k = .store → d.reg value = v)
  after : ∀ d ∈ stages c (c.afterBlock (body w k) (operands k a v)), d.Unarmed

theorem unarmed_of_mem_stages {outer after : Core} (h : outer.Unarmed)
    (hafter : Status.has (after.csr .mstatus) Status.mprv = false) :
    ∀ d ∈ stages outer after, d.Unarmed := by
  have hleft : (leaveBlock outer after).Unarmed := ⟨h.mode, hafter⟩
  have hwrite {s : SystemCsr} (hs : s.isPmp = false) (hne : s ≠ .mstatus) (v : Word) {c : Core}
      (hc : c.Unarmed) : (c.writeSystem s v).Unarmed := by
    rw [writeSystem_of_not_isPmp s v c hs]
    exact hc.setCsr hne v
  have hepc := hwrite (s := .mepc) rfl (by decide) (save outer).mepc hleft
  have hcause := hwrite (s := .mcause) rfl (by decide) (save outer).mcause hepc
  have htval := hwrite (s := .mtval) rfl (by decide) (save outer).mtval hcause
  have hrestored : (restore (save outer) (leaveBlock outer after)).Unarmed := by
    rw [restore_save]
    exact ⟨h.mode, h.mprv⟩
  intro d hd
  simp only [stages, List.mem_cons, List.not_mem_nil, or_false] at hd
  rcases hd with rfl | rfl | rfl | rfl | rfl
  · exact hleft
  · exact hepc
  · exact hcause
  · exact htval
  · exact hrestored

theorem guards_of_unarmed {c : Core} (h : c.Unarmed) (w : Width) (k : AccessKind) (a v : Word) :
    Guards (Status.previousMode (c.csr .mstatus)) c w k a v := by
  obtain ⟨e, d, hs, hpc, hrun, -⟩ := run_block w k (operands k a v) c
  have hstatus : (armed (operands k a v) c).csr .mstatus = c.csr .mstatus ||| Status.mprv :=
    csr_armed _ c .mstatus
  have hafter : c.afterBlock (body w k) (operands k a v) = disarmed d := congrArg Prod.snd hrun
  refine ⟨⟨_, (accesses_body hs hpc).1, ?_, ?_, ?_, ?_⟩, ?_⟩
  · rw [hstatus, Status.has_or_mprv]
  · rw [hstatus, Status.previousMode_or_mprv]
  · cases k <;> rfl
  · rintro rfl
    rfl
  · rw [hafter]
    exact unarmed_of_mem_stages h (Status.has_and_not_self (d.csr .mstatus) (by decide))

end Barrier

end Core

end TrapMonitor
