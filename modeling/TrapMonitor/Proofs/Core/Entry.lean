import TrapMonitor.Proofs.Core.Contract

/-! # The trap entry

With a frame in the machine's RAM the trap entry runs straight through: up to the call of the
handler it has put all registers into the frame, and from there to the return it takes them out
again and leaves the address of the frame behind for the next trap.
-/
namespace TrapMonitor.Core

/-- A byte of the machine's RAM. -/
def InRam (a : Word) : Prop := ramStart.toNat ≤ a.toNat ∧ a.toNat < ramEnd.toNat

/-- The frame at `f` lies in the machine's RAM. -/
structure FrameFits (f : Word) : Prop where
  aligned : f.toNat % 4 = 0
  above : ramStart.toNat ≤ f.toNat
  below : f.toNat + 128 ≤ ramEnd.toNat

@[simp] theorem setRam_ram (c : Core) : c.setRam c.ram = c := by
  obtain ⟨x, csr, pc, mode, pmp, memory, bank, trace⟩ := c
  cases bank <;> rfl

@[simp] theorem setRam_setRam (c : Core) (m m' : Memory) : (c.setRam m).setRam m' = c.setRam m' := by
  obtain ⟨x, csr, pc, mode, pmp, memory, bank, trace⟩ := c
  cases bank <;> rfl

@[simp] theorem pc_setRam (c : Core) (m : Memory) : (c.setRam m).pc = c.pc := rfl

@[simp] theorem ownsAccess_setRam (c : Core) (m : Memory) :
    (c.setRam m).ownsAccess = c.ownsAccess := by
  obtain ⟨x, csr, pc, mode, pmp, memory, bank, trace⟩ := c
  cases bank <;> rfl

theorem ownsAccess_of_machine {c : Core} (hm : Status.has (c.csr .mstatus) Status.mprv = false)
    (hmode : c.mode = Mode.machine) : c.ownsAccess = true := by
  simp [ownsAccess, privilege, hm, hmode]

theorem reachesRam_slot {c : Core} {f : Word} (hp : c.ownsAccess = true) (hf : FrameFits f)
    (r : Reg) : c.reachesRam .word (f + slotOffset r) = true := by
  have h4 : (4 : Word).toNat = 4 := rfl
  have hstart : ramStart.toNat = 0x20000000 := rfl
  have hend : ramEnd.toNat = 0x20010000 := rfl
  have hr := r.isLt
  have haligned := hf.aligned
  have habove := hf.above
  have hbelow := hf.below
  have hn : (f + slotOffset r).toNat = f.toNat + 4 * r.toNat := by
    simp only [slotOffset, BitVec.toNat_add, BitVec.toNat_mul, BitVec.toNat_setWidth, h4]
    omega
  simp only [reachesRam, hp, hn, hstart, hend, Width.size, beq_self_eq_true, Bool.true_and,
    Bool.and_eq_true, beq_iff_eq, decide_eq_true_eq]
  omega

/-- Saving registers puts each into its slot. -/
theorem line_save {c : Core} {f : Word} (hp : c.ownsAccess = true) (hf : FrameFits f)
    (hsp : c.reg .sp = f) (rs : List Reg) :
    Line c (rs.map fun r => .store .word r (slotOffset r) .sp)
      ({ c with pc := c.pc + BitVec.ofNat 32 (4 * rs.length) }.setRam
        (rs.foldl (fun m r => m.setWord (f + slotOffset r) (c.reg r)) c.ram)) := by
  induction rs generalizing c with
  | nil =>
    have hpc : c.pc + BitVec.ofNat 32 (4 * ([] : List Reg).length) = c.pc := BitVec.add_zero c.pc
    rw [hpc, List.foldl_nil, setRam_ram]
    exact .nil c
  | cons r rs ih =>
    let d := { c with pc := c.pc + 4 }.setRam (c.ram.setWord (f + slotOffset r) (c.reg r))
    have hstep : c.step (.store .word r (slotOffset r) .sp) = .next d := by
      simp only [step, stepStore, storeTo, hsp, reachesRam_slot hp hf r, if_true]
      rfl
    have hpc : d.pc + BitVec.ofNat 32 (4 * rs.length) =
        c.pc + BitVec.ofNat 32 (4 * (r :: rs).length) := by
      rw [List.length_cons, Nat.mul_add, Nat.add_comm, BitVec.ofNat_add, ← BitVec.add_assoc]
      rfl
    refine .cons hstep rfl ?_
    have hrest := ih (c := d) ((ownsAccess_setRam _ _).trans hp) hsp
    have hram : d.ram = c.ram.setWord (f + slotOffset r) (c.reg r) := ram_setRam _ _
    have hd (q : Word) : { d with pc := q } = { c with pc := q }.setRam
        (c.ram.setWord (f + slotOffset r) (c.reg r)) := rfl
    rw [hpc, hram, hd, setRam_setRam] at hrest
    exact hrest

/-- Loading registers takes each out of its slot. -/
theorem line_load {c : Core} {f : Word} (hp : c.ownsAccess = true) (hf : FrameFits f)
    (hsp : c.reg .sp = f) (rs : List Reg) (h0 : Reg.zero ∉ rs) (h2 : Reg.sp ∉ rs) :
    Line c (rs.map fun r => .load .word r (slotOffset r) .sp)
      { c with
        pc := c.pc + BitVec.ofNat 32 (4 * rs.length)
        x := fun y => if y ∈ rs then c.ram.word (f + slotOffset y) else c.x y } := by
  induction rs generalizing c with
  | nil =>
    have hpc : c.pc + BitVec.ofNat 32 (4 * ([] : List Reg).length) = c.pc := BitVec.add_zero c.pc
    simp only [hpc, List.not_mem_nil, if_false]
    exact .nil c
  | cons r rs ih =>
    rw [List.mem_cons, not_or] at h0 h2
    let d := { c.setReg r (c.ram.word (f + slotOffset r)) with pc := c.pc + 4 }
    have hx : d.x = fun y => if y = r then c.ram.word (f + slotOffset r) else c.x y := by
      simp only [d, setReg, if_neg (Ne.symm h0.1)]
    have hd : d = { c with pc := c.pc + 4, x := d.x } := by
      simp only [d, setReg, if_neg (Ne.symm h0.1)]
    have hstep : c.step (.load .word r (slotOffset r) .sp) = .next d := by
      simp only [step, stepLoad, load, hsp, reachesRam_slot hp hf r, if_true]
      simp only [d, setReg, if_neg (Ne.symm h0.1)]
      rfl
    have hreg : d.reg .sp = f := by
      rw [← hsp, reg, reg, hx]
      simp only [if_neg h2.1]
    have hpc : d.pc + BitVec.ofNat 32 (4 * rs.length) =
        c.pc + BitVec.ofNat 32 (4 * (r :: rs).length) := by
      rw [List.length_cons, Nat.mul_add, Nat.add_comm, BitVec.ofNat_add, ← BitVec.add_assoc]
      rfl
    have hrest := ih (c := d) (by rw [hd]; exact hp) hreg h0.2 h2.2
    refine .cons hstep rfl ?_
    -- a register that is loaded again later gets the same value, as the frame does not change
    have hall : (fun y => if y ∈ r :: rs then c.ram.word (f + slotOffset y) else c.x y) =
        fun y => if y ∈ rs then d.ram.word (f + slotOffset y) else d.x y := by
      have hram : d.ram = c.ram := by
        rw [hd]
        rfl
      funext y
      rw [hx, hram]
      by_cases hy : y = r
      · simp [hy]
      · simp [hy]
    rw [hpc, hd] at hrest
    rw [hall, hd]
    exact hrest

/-! ## Up to the handler -/

/-- The core behind the exchange of `sp` and `mscratch`. -/
def exchanged (c : Core) : Core :=
  ((c.setCsr .mscratch (c.reg .sp)).setReg .sp (c.csr .mscratch)).advance exchangeStack

theorem line_exchange (c : Core) : Line c [exchangeStack] c.exchanged :=
  .cons rfl rfl (.nil _)

theorem ownsAccess_exchanged (c : Core) : c.exchanged.ownsAccess = c.ownsAccess := rfl

theorem reg_exchanged (c : Core) {r : Reg} (h : r ≠ .sp) : c.exchanged.reg r = c.reg r := by
  have hsp : Reg.sp ≠ Reg.zero := by decide
  have hr := reg_setReg (c.setCsr .mscratch (c.reg .sp)) .sp r (c.csr .mscratch) hsp
  rw [if_neg h] at hr
  exact hr

/-- The core in the handler: all registers are saved, and the frame is its argument. -/
def entered (c : Core) : Core :=
  let f := c.csr .mscratch
  let d := (c.exchanged.setReg .a0 f).setReg .ra (trapEntry + 136)
  { d with pc := trapEntry + 136 }.setRam
    (savedRegs.foldl (fun m r => m.setWord (f + slotOffset r) (c.reg r)) c.ram)

theorem zero_notMem_savedRegs : Reg.zero ∉ savedRegs := by decide

theorem sp_notMem_savedRegs : Reg.sp ∉ savedRegs := by decide

/-- The part of the code in front of the call. -/
def entering : List Instr := [exchangeStack] ++ saveRegs ++ [.move .a0 .sp]

theorem line_entering {c : Core} (hpc : c.pc = trapEntry) (hp : c.ownsAccess = true)
    (hf : FrameFits (c.csr .mscratch)) :
    Line c entering
      ({ c.exchanged.setReg .a0 (c.csr .mscratch) with pc := trapEntry + 128 }.setRam
        (savedRegs.foldl
          (fun m r => m.setWord (c.csr .mscratch + slotOffset r) (c.reg r)) c.ram)) := by
  have hram : savedRegs.foldl
      (fun m r => m.setWord (c.csr .mscratch + slotOffset r) (c.exchanged.reg r)) c.ram =
      savedRegs.foldl
      (fun m r => m.setWord (c.csr .mscratch + slotOffset r) (c.reg r)) c.ram := by
    refine List.foldl_rel rfl fun r hr m m' hm => ?_
    rw [hm, reg_exchanged c fun he => sp_notMem_savedRegs (he ▸ hr)]
  have hsaved := line_save ((ownsAccess_exchanged c).trans hp) hf (rfl : c.exchanged.reg .sp = _)
    savedRegs
  have hpc' : c.exchanged.pc + BitVec.ofNat 32 (4 * savedRegs.length) = trapEntry + 124 := by
    have h : c.exchanged.pc = c.pc + 4 := rfl
    rw [h, hpc]
    rfl
  rw [hpc'] at hsaved
  rw [← hram]
  exact (c.line_exchange.append hsaved).append (.cons rfl rfl (.nil _))

/-- From a trap to the call of the handler. -/
theorem run_of_trap {c : Core} (hpc : c.pc = trapEntry) (hp : c.ownsAccess = true)
    (hf : FrameFits (c.csr .mscratch)) : entryCode.run c = (.called .trapHandler, c.entered) := by
  have hbody : entryCode.body =
      [] ++ entering ++ (.call .trapHandler :: (loadRegs ++ [exchangeStack, .mret])) := by
    simp [entryCode, entering]
  have hat : entryCode.At c.pc entering := by
    rw [hpc]
    exact Code.at_of_append hbody (by decide)
  have hcall : entryCode.at? (trapEntry + 128) = some (.call .trapHandler) := by decide
  have hrun := (line_entering hpc hp hf).runFor hat 232
  rw [Code.runFor, pc_setRam, hcall] at hrun
  exact hrun

/-! ## Back from the handler -/

/-- The registers as the frame holds them. -/
def reloaded (c : Core) : Core :=
  { c with
    pc := trapEntry + 256
    x := fun y => if y ∈ savedRegs then c.ram.word (c.reg .sp + slotOffset y) else c.x y }

/-- The core behind the trap. -/
def left (c : Core) : Core := c.reloaded.exchanged.mret

@[simp] theorem ram_left (c : Core) : c.left.ram = c.ram := rfl

@[simp] theorem memory_left (c : Core) : c.left.memory = c.memory := rfl

/-- The part of the code from the call to the return from the trap. -/
def leaving : List Instr := loadRegs ++ [exchangeStack]

theorem line_leaving {c : Core} (hpc : c.pc = trapEntry + 136) (hp : c.ownsAccess = true)
    (hf : FrameFits (c.reg .sp)) : Line c leaving c.reloaded.exchanged := by
  have hloaded := line_load hp hf rfl savedRegs zero_notMem_savedRegs sp_notMem_savedRegs
  have hpc' : c.pc + BitVec.ofNat 32 (4 * savedRegs.length) = trapEntry + 256 := by
    rw [hpc]
    rfl
  rw [hpc'] at hloaded
  exact hloaded.append c.reloaded.line_exchange

/-- From the return of the handler to the trapped code. -/
theorem run_of_handled {c : Core} (hpc : c.pc = trapEntry + 136)
    (hp : c.ownsAccess = true) (hf : FrameFits (c.reg .sp)) :
    entryCode.run c = (.returned, c.left) := by
  have hbody : entryCode.body = (entering ++ [.call .trapHandler]) ++ leaving ++ [.mret] := by
    simp [entryCode, entering, leaving]
  have hat : entryCode.At c.pc leaving := by
    rw [hpc]
    exact Code.at_of_append hbody (by decide)
  have hreturn : entryCode.at? (trapEntry + 260) = some .mret := by decide
  have hrun := (line_leaving hpc hp hf).runFor hat 233
  have hend : c.reloaded.exchanged.pc = trapEntry + 260 := rfl
  rw [Code.runFor, hend, hreturn] at hrun
  exact hrun

end TrapMonitor.Core
