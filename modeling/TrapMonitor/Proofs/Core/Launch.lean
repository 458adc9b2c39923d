import TrapMonitor.Proofs.Core.Context
import TrapMonitor.Proofs.Core.Reachable

/-! # The state that booting ends in

Opening the protection of physical memory takes one of three ways through its block, since a core
traps on the first register that it lacks. All of them end at the label behind the block
(`run_openPmp`), and what they leave different is what a trap writes. Of that the plan overwrites
what matters: the supervisor starts in the same state on every core, whatever the registers held at
reset (`booted_launched`).
-/
namespace TrapMonitor

namespace PmpBits

/-- A naturally aligned range: the lowest ones of the address register and the zero above them stand
for the bits that are not compared. Addresses have 34 bits, of which the lowest two do not count. -/
def Matches (address : Word) (a : BitVec 34) : Prop :=
  a.extractLsb' 2 32 &&& ~~~(address ^^^ (address + 1)) = address &&& ~~~(address ^^^ (address + 1))

/-- The first entry gives a right to an address. -/
structure Grants (config address right : Word) (a : BitVec 34) : Prop where
  range : config &&& napot = napot
  right : config &&& right = right
  covered : Matches address a

theorem grants_allMemory {right : Word} (hr : right ∈ [read, write, execute]) (a : BitVec 34) :
    Grants allMemory 0xffffffff right a where
  range := rfl
  right := by
    simp only [List.mem_cons, List.not_mem_nil, or_false] at hr
    rcases hr with rfl | rfl | rfl <;> rfl
  covered := by
    have hmask : ~~~((0xffffffff : Word) ^^^ (0xffffffff + 1)) = 0#32 := rfl
    rw [Matches, hmask, BitVec.and_zero, BitVec.and_zero]

end PmpBits

namespace Core

/-! ## Three ways through one block -/

namespace OpenPmp

def inputs : List (Reg × Word) := [(address, 0xffffffff), (config, PmpBits.allMemory)]

end OpenPmp

/-- The registers behind an illegal instruction of a block, which lies at `pc`. -/
def illegalAt (pc : Word) (c : Core) : Core :=
  leaveBlock c ({ c with pc := pc, mode := Mode.machine }.trap 2 0)

/-- Each way leaves the block at its label, in machine mode. -/
theorem run_openPmp (c : Core) :
    ∃ d, (block OpenPmp.body).run (c.enterBlock OpenPmp.inputs) = (.left, d) ∧
      d.pc = OpenPmp.label ∧ d.mode = Mode.machine := by
  obtain ⟨x, csr, pc, mode, ⟨address, config⟩, memory, bank, trace⟩ := c
  cases address <;> cases config <;> exact ⟨_, rfl, rfl, rfl⟩

/-- A register that every core has is written without a trap. -/
theorem run_write {s : SystemCsr} (hs : s.isPmp = false) (v : Word) (c : Core) :
    ∃ d, (block [.csrWrite s .a0]).run (c.enterBlock [(.a0, v)]) = (.left, d) ∧
      d.pc = blockBase + 4 ∧ d.mode = Mode.machine := by
  cases s with
  | pmpcfg0 | pmpaddr0 => cases hs
  | _ => exact ⟨_, rfl, rfl, rfl⟩

theorem openPmp_eq (c : Core) : c.openPmp = match c.pmp.address, c.pmp.config with
    | true, true =>
      ((c.setCsr .mtvec OpenPmp.label).setCsr .pmpaddr0 0xffffffff).setCsr .pmpcfg0
        PmpBits.allMemory
    | true, false =>
      ((c.setCsr .mtvec OpenPmp.label).setCsr .pmpaddr0 0xffffffff).illegalAt (blockBase + 16)
    | false, _ => (c.setCsr .mtvec OpenPmp.label).illegalAt (blockBase + 12) := by
  obtain ⟨x, csr, pc, mode, ⟨address, config⟩, memory, bank, trace⟩ := c
  cases address <;> cases config <;> rfl

/-- The block changes registers of the machine, and no other part of the core. -/
theorem openPmp_eq_with_csr (c : Core) : c.openPmp = { c with csr := c.openPmp.csr } := by
  rw [openPmp_eq]
  split <;> rfl

theorem csr_openPmp_of_notMem (c : Core) {s : SystemCsr}
    (hs : s ∉ [.mtvec, .pmpaddr0, .pmpcfg0, .mstatus, .mepc, .mcause, .mtval]) :
    c.openPmp.csr s = c.csr s := by
  rw [openPmp_eq]
  cases s with
  | mtvec | pmpaddr0 | pmpcfg0 | mstatus | mepc | mcause | mtval => simp at hs
  | _ => split <;> rfl

/-! ## One state -/

/-- The state in which the supervisor starts. -/
structure Launched (trapVector stackTop entry deviceTree : Word) (c : Core) : Prop where
  mode : c.mode = Mode.supervisor
  pc : c.pc = entry
  hartId : c.reg .a0 = 0
  deviceTree : c.reg .a1 = deviceTree
  trapVector : c.csr .mtvec = trapVector
  scratch : c.csr .mscratch = stackTop - 128
  interrupts : c.csr .mie = 0
  badAddress : c.csr .stval = 0
  exceptionDelegation : c.csr .medeleg = ExceptionBits.instructionPageFault |||
    ExceptionBits.loadPageFault ||| ExceptionBits.storePageFault ||| ExceptionBits.userCall
  interruptDelegation : c.csr .mideleg = InterruptBits.supervisorTimer |||
    InterruptBits.supervisorExternal ||| InterruptBits.supervisorSoftware
  mprv : Status.has (c.csr .mstatus) Status.mprv = false

/-- Two cores differ at most in protection and in what a trap says about its cause. -/
structure SameButProtection (c d : Core) : Prop where
  x : d.x = c.x
  pc : d.pc = c.pc
  mode : d.mode = c.mode
  memory : d.memory = c.memory
  bank : d.bank = c.bank
  trace : d.trace = c.trace
  csr : ∀ s, s ∉ [.mcause, .mtval, .pmpaddr0, .pmpcfg0] → d.csr s = c.csr s

theorem make_eq_ok (trapVector entry : Word) {stackTop : Word} (hs : 128 ≤ stackTop.toNat) :
    ∃ plan, BootPlan.make trapVector stackTop entry = .ok plan := by
  have hsub : Checked.sub stackTop BootPlan.frameSize = .ok (stackTop - BootPlan.frameSize) :=
    if_pos hs
  rw [BootPlan.make, hsub]
  exact ⟨_, rfl⟩

/-- Nothing of the core but registers is new when the supervisor starts. -/
theorem booted_eq (plan : BootPlan) (deviceTree : Word) (c : Core) :
    c.booted plan deviceTree =
      { c with
        x := fun r => if r = .a0 then 0 else if r = .a1 then deviceTree else c.x r
        pc := plan.entry
        mode := Status.previousMode plan.status
        csr := (c.booted plan deviceTree).csr } := by
  have hany (csr : SystemCsr → Word) :
      ({ c with csr := csr }.apply plan).enterSupervisor deviceTree =
        { c with
          x := fun r => if r = .a0 then 0 else if r = .a1 then deviceTree else c.x r
          pc := plan.entry
          mode := Status.previousMode plan.status
          csr := (({ c with csr := csr }.apply plan).enterSupervisor deviceTree).csr } := by
    rw [enterSupervisor_eq, apply_eq]
    rfl
  have hopen := hany c.openPmp.csr
  rw [← openPmp_eq_with_csr] at hopen
  exact hopen

theorem launched_booted {trapVector stackTop entry : Word} {plan : BootPlan}
    (hplan : BootPlan.make trapVector stackTop entry = .ok plan) (deviceTree : Word) (c : Core) :
    Launched trapVector stackTop entry deviceTree (c.booted plan deviceTree) := by
  have hreg (r : Reg) (hr : r ≠ Reg.zero) : (c.booted plan deviceTree).reg r =
      if r = .a0 then 0 else if r = .a1 then deviceTree else c.x r := by
    rw [booted_eq]
    exact if_neg hr
  have hpc : (c.booted plan deviceTree).pc = plan.entry := by rw [booted_eq]
  have hmode : Status.previousMode (Status.mppSupervisor ||| Status.mpie) = Mode.supervisor := by
    decide
  have hmprv : Status.has (Status.leaveMachine (Status.mppSupervisor ||| Status.mpie))
      Status.mprv = false := by decide
  unfold BootPlan.make Checked.sub at hplan
  split at hplan
  · cases hplan
    exact {
      mode := (mode_booted _ _ _).trans hmode
      pc := hpc
      hartId := hreg .a0 (by decide)
      deviceTree := hreg .a1 (by decide)
      trapVector := csr_booted _ _ _ _
      scratch := csr_booted _ _ _ _
      interrupts := csr_booted _ _ _ _
      badAddress := csr_booted _ _ _ _
      exceptionDelegation := csr_booted _ _ _ _
      interruptDelegation := csr_booted _ _ _ _
      mprv := by
        rw [csr_booted]
        exact hmprv }
  · cases hplan

/-- What the block leaves different is overwritten, or says only how the block went. -/
theorem sameButProtection_booted (plan : BootPlan) (deviceTree : Word) (c : Core)
    (pmp : PmpSupport) : SameButProtection (c.booted plan deviceTree)
      ({ c with pmp := pmp }.booted plan deviceTree) := by
  have hc := booted_eq plan deviceTree c
  have hd := booted_eq plan deviceTree { c with pmp := pmp }
  have hkept (s : SystemCsr)
      (hs : s ∉ [.mtvec, .pmpaddr0, .pmpcfg0, .mstatus, .mepc, .mcause, .mtval]) :
      { c with pmp := pmp }.openPmp.csr s = c.openPmp.csr s := by
    rw [csr_openPmp_of_notMem _ hs, csr_openPmp_of_notMem _ hs]
  exact {
    x := by rw [hd, hc]
    pc := by rw [hd, hc]
    mode := by rw [hd, hc]
    memory := by rw [hd, hc]
    bank := by rw [hd, hc]
    trace := by rw [hd, hc]
    csr := by
      intro s hs
      rw [csr_booted, csr_booted]
      cases s with
      | mcause | mtval | pmpaddr0 | pmpcfg0 => simp at hs
      | sepc | scause | stvec | sip | mip | satp => exact hkept _ (by simp)
      | _ => rfl }

/-- Where both registers can be written, the first entry of protection opens all memory. -/
theorem grants_booted (plan : BootPlan) (deviceTree : Word) {c : Core}
    (hc : c.pmp = ⟨true, true⟩) {right : Word}
    (hr : right ∈ [PmpBits.read, PmpBits.write, PmpBits.execute]) (a : BitVec 34) :
    PmpBits.Grants ((c.booted plan deviceTree).csr .pmpcfg0)
      ((c.booted plan deviceTree).csr .pmpaddr0) right a := by
  rw [csr_booted, csr_booted, openPmp_eq, hc]
  exact PmpBits.grants_allMemory hr a

/-- The last block returns, and what it leaves is the state in which the supervisor starts. -/
theorem run_enterSupervisor (plan : BootPlan) (deviceTree : Word) (c : Core) :
    (block [.loadImmediate .a0 0, .mret]).run
      ((c.openPmp.apply plan).enterBlock [(.a1, deviceTree)]) =
      (.returned, c.booted plan deviceTree) := by
  have hreturns (d : Core) : ((block [.loadImmediate .a0 0, .mret]).run
      (d.enterBlock [(.a1, deviceTree)])).1 = .returned := rfl
  exact Prod.ext (hreturns _) rfl

/-! ## The first trap -/

/-- The slots of a frame are the 128 bytes from its address on. -/
theorem FrameAddress.exists_slot_iff {f : FrameAddress} (hf : f.address.toNat + 128 ≤ 0x100000000)
    (a : Word) : (∃ r, (a - f.slotAt r).toNat < 4) ↔
      f.address.toNat ≤ a.toNat ∧ a.toNat < f.address.toNat + 128 := by
  have h4 : (4 : Word).toNat = 4 := rfl
  have hslot (r : Reg) : (f.slotAt r).toNat = f.address.toNat + 4 * r.toNat := by
    have hr := r.isLt
    simp only [slotAt, slotOffset, BitVec.toNat_add, BitVec.toNat_mul, BitVec.toNat_setWidth, h4]
    omega
  have ha := a.isLt
  constructor
  · rintro ⟨r, hr⟩
    have hlt := r.isLt
    rw [BitVec.toNat_sub, hslot] at hr
    omega
  · rintro ⟨hlow, hhigh⟩
    refine ⟨BitVec.ofNat 5 ((a.toNat - f.address.toNat) / 4), ?_⟩
    rw [BitVec.toNat_sub, hslot, BitVec.toNat_ofNat]
    omega

/-- Whatever ran since, the first trap saves the registers in the frame, and the handler starts with
its stack right below. -/
theorem run_first_trap {c : Core} (hvec : c.csr .mtvec = trapEntry)
    (hm : Status.has (c.csr .mstatus) Status.mprv = false) (hf : FrameFits (c.csr .mscratch))
    (cause tval : Word) :
    ∃ d, entryCode.run (c.trap cause tval) = (.called .trapHandler, d) ∧
      d.reg .sp = c.csr .mscratch ∧ d.reg .a0 = c.csr .mscratch ∧
      (∀ r ∈ savedRegs, d.ram.word ((FrameAddress.mk (c.csr .mscratch)).slotAt r) = c.reg r) ∧
      ∀ a, (∀ r, ¬ (a - (FrameAddress.mk (c.csr .mscratch)).slotAt r).toNat < 4) →
        d.ram.byte a = c.ram.byte a := by
  have hram : (c.trap cause tval).entered.ram = savedRegs.foldl
      (fun m r => m.setWord ((FrameAddress.mk (c.csr .mscratch)).slotAt r)
        ((c.trap cause tval).reg r)) c.ram := ram_setRam _ _
  refine ⟨_, run_of_trap hvec (ownsAccess_trap hm cause tval) hf, rfl, rfl, fun r hr => ?_,
    fun a ha => ?_⟩
  · rw [hram, FrameAddress.word_foldl_setWord, if_pos hr]
    rfl
  · rw [hram]
    refine FrameAddress.byte_foldl_setWord (f := ⟨c.csr .mscratch⟩) ?_ _ (List.Subset.refl _) c.ram
    rintro ⟨r, -, hr⟩
    exact ha r hr

/-! ## From reset to the first trap -/

/-- Every block of the boot path runs to its end. -/
structure Completes (plan : BootPlan) (deviceTree : Word) (c : Core) : Prop where
  opens : ∃ d, (block OpenPmp.body).run (c.enterBlock OpenPmp.inputs) = (.left, d) ∧
    d.pc = OpenPmp.label ∧ d.mode = Mode.machine
  applies : ∀ s v (d : Core), s.isPmp = false →
    ∃ e, (block [.csrWrite s .a0]).run (d.enterBlock [(.a0, v)]) = (.left, e) ∧
      e.pc = blockBase + 4 ∧ e.mode = Mode.machine
  enters : (block [.loadImmediate .a0 0, .mret]).run
    ((c.openPmp.apply plan).enterBlock [(.a1, deviceTree)]) =
      (.returned, c.booted plan deviceTree)

/-- Booting ends in one state, whatever the registers held at reset and whichever registers of
protection the core has, and in that state the next trap finds its frame in the topmost 128 bytes of
the stack, with the stack of the handler below. -/
theorem booted_launched (c : Core) (trapVector stackTop entry deviceTree : Word)
    (hs : 128 ≤ stackTop.toNat) :
    ∃ plan, BootPlan.make trapVector stackTop entry = .ok plan ∧
      Completes plan deviceTree c ∧
      Launched trapVector stackTop entry deviceTree (c.booted plan deviceTree) ∧
      (∀ pmp, SameButProtection (c.booted plan deviceTree)
        ({ c with pmp := pmp }.booted plan deviceTree)) ∧
      (c.pmp = ⟨true, true⟩ →
        (c.booted plan deviceTree).csr .pmpcfg0 = PmpBits.napot ||| PmpBits.read |||
          PmpBits.write ||| PmpBits.execute ∧
        ∀ right ∈ [PmpBits.read, PmpBits.write, PmpBits.execute], ∀ a,
          PmpBits.Grants ((c.booted plan deviceTree).csr .pmpcfg0)
            ((c.booted plan deviceTree).csr .pmpaddr0) right a) ∧
      (∀ a, (∃ r, (a - (FrameAddress.mk (stackTop - 128)).slotAt r).toNat < 4) ↔
        stackTop.toNat - 128 ≤ a.toNat ∧ a.toNat < stackTop.toNat) ∧
      ∀ e : Core, e.csr .mtvec = trapVector → e.csr .mscratch = stackTop - 128 →
        Status.has (e.csr .mstatus) Status.mprv = false → ∀ cause tval,
        (e.trap cause tval).exchanged.reg .sp = stackTop - 128 ∧
        (trapVector = trapEntry → FrameFits (stackTop - 128) →
          ∃ d, entryCode.run (e.trap cause tval) = (.called .trapHandler, d) ∧
            d.reg .sp = stackTop - 128 ∧ d.reg .a0 = stackTop - 128 ∧
            (∀ r ∈ savedRegs,
              d.ram.word ((FrameAddress.mk (stackTop - 128)).slotAt r) = e.reg r) ∧
            ∀ a, ¬ (stackTop.toNat - 128 ≤ a.toNat ∧ a.toNat < stackTop.toNat) →
              d.ram.byte a = e.ram.byte a) := by
  obtain ⟨plan, hplan⟩ := make_eq_ok trapVector entry hs
  have hbase : (stackTop - 128).toNat = stackTop.toNat - 128 := by
    have h128 : (128 : Word).toNat = 128 := rfl
    rw [BitVec.toNat_sub, h128]
    omega
  have hslots (a : Word) : (∃ r, (a - (FrameAddress.mk (stackTop - 128)).slotAt r).toNat < 4) ↔
      stackTop.toNat - 128 ≤ a.toNat ∧ a.toNat < stackTop.toNat := by
    have hiff := FrameAddress.exists_slot_iff (f := ⟨stackTop - 128⟩) (by rw [hbase]; omega) a
    rw [hbase, Nat.sub_add_cancel hs] at hiff
    exact hiff
  refine ⟨plan, hplan, ⟨run_openPmp c, fun s v d h => run_write h v d, ?_⟩,
    launched_booted hplan deviceTree c, sameButProtection_booted plan deviceTree c, fun hc => ?_,
    hslots, fun e hvec hscratch hm cause tval => ⟨hscratch, fun hentry hf => ?_⟩⟩
  · exact run_enterSupervisor plan deviceTree c
  · refine ⟨?_, fun right hr a => grants_booted plan deviceTree hc hr a⟩
    rw [csr_booted, openPmp_eq, hc]
    rfl
  · obtain ⟨d, hrun, hsp, ha0, hsaved, hram⟩ :=
      run_first_trap (hvec.trans hentry) hm (hscratch ▸ hf) cause tval
    rw [hscratch] at hsp ha0 hsaved hram
    refine ⟨d, hrun, hsp, ha0, hsaved, fun a ha => hram a fun r hr => ha ?_⟩
    exact (hslots a).mp ⟨r, hr⟩

/-- A core with both registers of protection, and the same one without the second; the first trap is
a call of the supervisor. -/
theorem booted_launched_firmware :
    let c : Core :=
      { (Board.blank 0).core with x := fun r => r.setWidth 32, csr := fun _ => 0x5a585a50 }
    ∃ plan, BootPlan.make trapEntry stackTop BootPlan.imageBase = .ok plan ∧
      Launched trapEntry stackTop BootPlan.imageBase 0xc1000000 (c.booted plan 0xc1000000) ∧
      SameButProtection (c.booted plan 0xc1000000)
        ({ c with pmp := ⟨true, false⟩ }.booted plan 0xc1000000) ∧
      PmpBits.Grants ((c.booted plan 0xc1000000).csr .pmpcfg0)
        ((c.booted plan 0xc1000000).csr .pmpaddr0) PmpBits.write 0x380000000 ∧
      ∃ d, entryCode.run ((c.booted plan 0xc1000000).trap 9 0) = (.called .trapHandler, d) ∧
        d.reg .sp = 0x2000ff80 := by
  intro c
  obtain ⟨plan, hplan, -, hstate, hsame, hopen, -, htrap⟩ :=
    booted_launched c trapEntry stackTop BootPlan.imageBase 0xc1000000 (by decide)
  obtain ⟨-, hentered⟩ := htrap _ hstate.trapVector hstate.scratch hstate.mprv 9 0
  obtain ⟨d, hrun, hsp, -⟩ := hentered rfl frameFits_stackTop
  exact ⟨plan, hplan, hstate, hsame ⟨true, false⟩, (hopen rfl).2 _ (by decide) _, d, hrun, hsp⟩

end Core

end TrapMonitor
