import TrapMonitor.Core.Entry
import TrapMonitor.Proofs.Core.Line
import TrapMonitor.Proofs.Hart.Contract
import TrapMonitor.Proofs.Status

/-! # The access barrier leaves no trace

The core runs the instructions of a barrier like any others. Followed up to its access and from
there to its end, with and without a fault, a barrier turns out to be one access with the privilege
of the trapped code, which changes nothing else but the trap vector.
-/
namespace TrapMonitor

namespace Core

/-! ## Registers -/

theorem readSystem_of_not_isPmp (s : SystemCsr) (c : Core) (h : s.isPmp = false) :
    c.readSystem s = c.csr s := by
  rw [readSystem, readBlock_of_not_isPmp s c h]

theorem writeSystem_of_not_isPmp (s : SystemCsr) (v : Word) (c : Core) (h : s.isPmp = false) :
    c.writeSystem s v = c.setCsr s v := by
  cases s with
  | pmpcfg0 | pmpaddr0 => cases h
  | _ => rfl

theorem setCsr_self (c : Core) (s : SystemCsr) : c.setCsr s (c.csr s) = c := by
  have hcsr : (fun y => if y = s then c.csr s else c.csr y) = c.csr := by
    funext y
    split
    · next hy => rw [hy]
    · rfl
  rw [setCsr, hcsr]

theorem setCsr_setCsr (c : Core) (s : SystemCsr) (v v' : Word) :
    (c.setCsr s v).setCsr s v' = c.setCsr s v' := by
  have hcsr : (fun y => if y = s then v' else (c.setCsr s v).csr y) =
      fun y => if y = s then v' else c.csr y := by
    funext y
    rw [csr_setCsr]
    split <;> rfl
  rw [setCsr, hcsr]
  rfl

theorem foldl_setReg_eq (inputs : List (Reg × Word)) (c : Core) :
    inputs.foldl (fun c i => c.setReg i.1 i.2) c =
      { c with x := (inputs.foldl (fun c i => c.setReg i.1 i.2) c).x } := by
  induction inputs generalizing c with
  | nil => rfl
  | cons i rest ih =>
    rw [List.foldl_cons, ih]
    unfold setReg
    split <;> rfl

/-! ## The block of a barrier -/

namespace Barrier

/-- The access inside of the block. -/
def instr (w : Width) : AccessKind → Instr
  | .load => .load w value 0 address
  | .store => .store w value 0 address

def body (w : Width) (k : AccessKind) : List Instr := before ++ [instr w k] ++ after

theorem loading_eq (w : Width) : loading w = body w .load := rfl

theorem storing_eq (w : Width) : storing w = body w .store := rfl

/-- The core at the access, with its operands in registers. -/
def armed (inputs : List (Reg × Word)) (c : Core) : Core :=
  let d := inputs.foldl (fun c i => c.setReg i.1 i.2) c
  let d := ((d.setReg scratch label).setReg failed 1).setReg scratch Status.mprv
  let d := (d.setCsr .mtvec label).setCsr .mstatus (d.csr .mstatus ||| Status.mprv)
  { d with pc := blockBase + 0x18, mode := Mode.machine }

/-- The core at the end of the block. -/
def disarmed (c : Core) : Core :=
  let d := c.setReg scratch Status.mprv
  { d.setCsr .mstatus (c.csr .mstatus &&& ~~~Status.mprv) with pc := blockBase + 0x28 }

end Barrier

open Barrier

section Block

variable {w : Width} {k : AccessKind} {inputs : List (Reg × Word)} {c e : Core}

theorem csr_armed (inputs : List (Reg × Word)) (c : Core) (s : SystemCsr) :
    (armed inputs c).csr s =
      if s = .mstatus then c.csr .mstatus ||| Status.mprv
      else if s = .mtvec then label
      else c.csr s := by
  have h := congrArg Core.csr (foldl_setReg_eq inputs c)
  simp only [armed, csr_setCsr, csr_setReg, h]

theorem line_before (inputs : List (Reg × Word)) (c : Core) :
    Line (c.enterBlock inputs) before (armed inputs c) :=
  .cons rfl rfl (.cons rfl rfl (.cons rfl rfl (.cons rfl rfl (.cons rfl rfl (.nil _)))))

theorem line_after (hpc : e.pc = blockBase + 0x1c) :
    Line e after (disarmed (e.setReg failed 0)) := by
  obtain ⟨x, csr, pc, mode, pmp, memory, bank, trace⟩ := e
  cases hpc
  exact .cons rfl rfl (.cons rfl rfl (.cons rfl rfl (.nil _)))

/-- From the label on. -/
theorem line_label (hpc : e.pc = label) : Line e after.tail (disarmed e) := by
  obtain ⟨x, csr, pc, mode, pmp, memory, bank, trace⟩ := e
  cases hpc
  exact .cons rfl rfl (.cons rfl rfl (.nil _))

theorem at_before (w : Width) (k : AccessKind) : (block (body w k)).At blockBase before := by
  have hbody : (block (body w k)).body = [] ++ before ++ ([instr w k] ++ after) := by
    simp [block, body]
  exact Code.at_of_append hbody (by decide)

theorem at_after (w : Width) (k : AccessKind) :
    (block (body w k)).At (blockBase + 0x1c) after := by
  have hbody : (block (body w k)).body = (before ++ [instr w k]) ++ after ++ [] := by
    simp [block, body]
  have hspan : Code.span (before ++ [instr w k]) = 0x1c := by cases k <;> rfl
  have hat := Code.at_of_append hbody (by rw [Code.span_append, hspan]; decide)
  rw [hspan] at hat
  exact hat

theorem at_instr (w : Width) (k : AccessKind) (inputs : List (Reg × Word)) (c : Core) :
    (block (body w k)).at? (armed inputs c).pc = some (instr w k) := by
  cases w <;> cases k <;> rfl

/-- The block up to its access. -/
theorem run_body (hs : (armed inputs c).step (instr w k) = .next e) :
    (block (body w k)).run (c.enterBlock inputs) = (block (body w k)).runFor 34 e := by
  have hrun := (line_before inputs c).runFor (at_before w k) 35
  rw [Code.runFor_next (at_instr w k inputs c) hs] at hrun
  rw [← hrun]
  cases w <;> cases k <;> rfl

/-- The block is left at its end. -/
theorem runFor_disarmed (w : Width) (k : AccessKind) (n : Nat) (c : Core) :
    (block (body w k)).runFor (n + 1) (disarmed c) = (.left, disarmed c) := by
  have hend : (block (body w k)).at? (disarmed c).pc = none := by
    cases w <;> cases k <;> rfl
  rw [Code.runFor, hend]

/-- After an access that succeeds, the block takes the flag back. -/
theorem run_of_pass (hs : (armed inputs c).step (instr w k) = .next e)
    (hpc : e.pc = blockBase + 0x1c) :
    (block (body w k)).run (c.enterBlock inputs) = (.left, disarmed (e.setReg failed 0)) := by
  have hat : (block (body w k)).At e.pc after := by
    rw [hpc]
    exact at_after w k
  have hrun := (line_after hpc).runFor hat 31
  rw [runFor_disarmed] at hrun
  exact (run_body hs).trans hrun

/-- A fault of the access skips that. -/
theorem run_of_skip (hs : (armed inputs c).step (instr w k) = .next e) (hpc : e.pc = label) :
    (block (body w k)).run (c.enterBlock inputs) = (.left, disarmed e) := by
  have hat : (block (body w k)).At e.pc after.tail := by
    rw [hpc]
    exact (at_after w k).2
  have hrun := (line_label hpc).runFor hat 32
  rw [runFor_disarmed] at hrun
  exact (run_body hs).trans hrun

theorem afterBlock_of_pass (hs : (armed inputs c).step (instr w k) = .next e)
    (hpc : e.pc = blockBase + 0x1c) :
    c.afterBlock (body w k) inputs = disarmed (e.setReg failed 0) :=
  congrArg Prod.snd (run_of_pass hs hpc)

theorem afterBlock_of_skip (hs : (armed inputs c).step (instr w k) = .next e)
    (hpc : e.pc = label) : c.afterBlock (body w k) inputs = disarmed e :=
  congrArg Prod.snd (run_of_skip hs hpc)

/-- What is left of a barrier around an access that turned the armed core into `d`. -/
def behind (c d : Core) : Core :=
  { c.setCsr .mtvec label with memory := d.memory, bank := d.bank, trace := d.trace }

theorem conclude_of_pass {α : Type} {r : α} (hm : Status.has (c.csr .mstatus) Status.mprv = false)
    (hcsr : e.csr = (armed inputs c).csr) (hpmp : e.pmp = c.pmp) :
    conclude (save c) c (disarmed (e.setReg failed 0)) r = .ok r (behind c e) := by
  have hall : (disarmed (e.setReg failed 0)).csr = (c.setCsr .mtvec label).csr := by
    funext s
    change (if s = .mstatus then e.csr .mstatus &&& ~~~Status.mprv else e.csr s) = _
    rw [hcsr, csr_armed, csr_armed, csr_setCsr]
    cases s <;> simp [Status.or_mprv_and_not_mprv hm]
  have hleave : leaveBlock c (disarmed (e.setReg failed 0)) =
      { behind c e with csr := (disarmed (e.setReg failed 0)).csr } := by
    obtain ⟨x, csr, pc, mode, pmp, memory, bank, trace⟩ := e
    cases hpmp
    rfl
  have hflag : (disarmed (e.setReg failed 0)).reg failed = 0 := rfl
  rw [conclude, if_pos hflag, hleave, hall]
  rfl

theorem restore_save (c d : Core) :
    restore (save c) d =
      (((d.setCsr .mepc (c.csr .mepc)).setCsr .mcause (c.csr .mcause)).setCsr .mtval
        (c.csr .mtval)).setCsr .mstatus (c.csr .mstatus) := by
  simp only [restore, save]
  rw [writeSystem_of_not_isPmp .mstatus _ _ rfl, writeSystem_of_not_isPmp .mtval _ _ rfl,
    writeSystem_of_not_isPmp .mcause _ _ rfl, writeSystem_of_not_isPmp .mepc _ _ rfl,
    readSystem_of_not_isPmp .mstatus c rfl, readSystem_of_not_isPmp .mtval c rfl,
    readSystem_of_not_isPmp .mcause c rfl, readSystem_of_not_isPmp .mepc c rfl]

/-- The trap registers that a fault overwrote are put back. -/
theorem conclude_of_skip {α : Type} {r : α} {cause a : Word}
    (hcsr : e.csr = (armed inputs c).csr) (hpmp : e.pmp = c.pmp)
    (hflag : (e.trap cause a).reg failed = 1) :
    conclude (save c) c (disarmed (e.trap cause a)) r = .error ⟨a, cause⟩ (behind c e) := by
  have hset : (disarmed (e.trap cause a)).reg failed ≠ 0 := by
    have hreg : (disarmed (e.trap cause a)).reg failed = (e.trap cause a).reg failed := rfl
    rw [hreg, hflag]
    decide
  have hfault : faultOf (leaveBlock c (disarmed (e.trap cause a))) = ⟨a, cause⟩ := by
    rw [faultOf, readSystem_of_not_isPmp .mtval _ rfl, readSystem_of_not_isPmp .mcause _ rfl]
    rfl
  have hall : (restore (save c) (leaveBlock c (disarmed (e.trap cause a)))).csr =
      (c.setCsr .mtvec label).csr := by
    funext s
    rw [restore_save]
    cases s with
    | mstatus | mepc | mcause | mtval => rfl
    | _ =>
      change e.csr _ = _
      rw [hcsr, csr_armed]
      rfl
  have hrest : restore (save c) (leaveBlock c (disarmed (e.trap cause a))) =
      { behind c e with
        csr := (restore (save c) (leaveBlock c (disarmed (e.trap cause a)))).csr } := by
    rw [restore_save]
    obtain ⟨x, csr, pc, mode, pmp, memory, bank, trace⟩ := e
    cases hpmp
    rfl
  rw [conclude, if_neg hset, hfault, hrest, hall]
  rfl

/-! ## Whole accesses -/

/-- Loads change nothing but the record. -/
theorem load_snd (w : Width) (a : Word) (c : Core) :
    (c.load w a).2 = { c with trace := (c.load w a).2.trace } := by
  unfold load note
  split <;> rfl

/-- Stores change nothing but memory and the record. -/
theorem storeTo_snd (w : Width) (a v : Word) (c : Core) :
    (c.storeTo w a v).2 =
      { c with
        bank := (c.storeTo w a v).2.bank
        memory := (c.storeTo w a v).2.memory
        trace := (c.storeTo w a v).2.trace } := by
  unfold storeTo note
  split
  · rfl
  · dsimp only
    split <;> rfl

/-- What an access leaves of the armed core. -/
def accessed (inputs : List (Reg × Word)) (c d : Core) : Core :=
  { armed inputs c with memory := d.memory, bank := d.bank, trace := d.trace }

theorem pmp_armed (inputs : List (Reg × Word)) (c : Core) : (armed inputs c).pmp = c.pmp := by
  have h := congrArg Core.pmp (foldl_setReg_eq inputs c)
  exact h

theorem bank_armed (inputs : List (Reg × Word)) (c : Core) : (armed inputs c).bank = c.bank := by
  have h := congrArg Core.bank (foldl_setReg_eq inputs c)
  exact h

/-- The barrier around an access that succeeds. -/
theorem conclude_of_next {α : Type} {x : Reg → Word} {d : Core} (r : α)
    (hm : Status.has (c.csr .mstatus) Status.mprv = false)
    (hs : (armed inputs c).step (instr w k) =
      .next { accessed inputs c d with x := x, pc := blockBase + 0x1c }) :
    conclude (save c) c (c.afterBlock (body w k) inputs) r = .ok r (behind c d) := by
  rw [afterBlock_of_pass hs rfl]
  exact conclude_of_pass hm rfl (pmp_armed inputs c)

/-- The barrier around an access that is refused. -/
theorem conclude_of_trap {α : Type} {d : Core} {cause a : Word} (r : α)
    (hs : (armed inputs c).step (instr w k) = .next ((accessed inputs c d).trap cause a)) :
    conclude (save c) c (c.afterBlock (body w k) inputs) r = .error ⟨a, cause⟩ (behind c d) := by
  have hcsr : (accessed inputs c d).csr = (armed inputs c).csr := rfl
  have hflag : ((accessed inputs c d).trap cause a).reg failed = 1 := rfl
  rw [afterBlock_of_skip hs rfl]
  exact conclude_of_skip hcsr (pmp_armed inputs c) hflag

theorem tryLoad_eq (hm : Status.has (c.csr .mstatus) Status.mprv = false) (a : Word) :
    tryLoad w a c = match (armed [(address, a)] c).load w a with
      | (.ok v, d) => .ok v (behind c d)
      | (.error cause, d) => .error ⟨a, cause⟩ (behind c d) := by
  have haddr : (armed [(address, a)] c).reg address + 0 = a := BitVec.add_zero a
  have hsnd := load_snd w a (armed [(address, a)] c)
  cases h : (armed [(address, a)] c).load w a with
  | mk r d =>
  rw [h] at hsnd
  have htrace : d = { armed [(address, a)] c with trace := d.trace } := hsnd
  have hd : d = accessed [(address, a)] c d := by
    rw [htrace]
    rfl
  cases r with
  | ok v =>
    have hs : (armed [(address, a)] c).step (instr w .load) =
        .next { accessed [(address, a)] c d with
          x := (d.setReg value v).x, pc := blockBase + 0x1c } := by
      simp only [instr, step, stepLoad, haddr, h]
      rw [hd]
      cases w <;> rfl
    have hvalue : (c.afterBlock (body w .load) [(address, a)]).reg value = v := by
      rw [afterBlock_of_pass hs rfl]
      rfl
    rw [tryLoad, loading_eq, conclude_of_next _ hm hs, hvalue]
  | error cause =>
    have hs : (armed [(address, a)] c).step (instr w .load) =
        .next ((accessed [(address, a)] c d).trap cause a) := by
      simp only [instr, step, stepLoad, haddr, h]
      rw [← hd]
    rw [tryLoad, loading_eq, conclude_of_trap _ hs]

theorem tryStore_eq (hm : Status.has (c.csr .mstatus) Status.mprv = false) (a v : Word) :
    tryStore w a v c = match (armed [(address, a), (value, v)] c).storeTo w a v with
      | (.ok (), d) => .ok () (behind c d)
      | (.error cause, d) => .error ⟨a, cause⟩ (behind c d) := by
  have haddr : (armed [(address, a), (value, v)] c).reg address + 0 = a := BitVec.add_zero a
  have hvalue : (armed [(address, a), (value, v)] c).reg value = v := rfl
  have hsnd := storeTo_snd w a v (armed [(address, a), (value, v)] c)
  cases h : (armed [(address, a), (value, v)] c).storeTo w a v with
  | mk r d =>
  rw [h] at hsnd
  have hd : d = accessed [(address, a), (value, v)] c d := hsnd
  cases r with
  | ok u =>
    have hs : (armed [(address, a), (value, v)] c).step (instr w .store) =
        .next { accessed [(address, a), (value, v)] c d with
          x := d.x, pc := blockBase + 0x1c } := by
      simp only [instr, step, stepStore, haddr, hvalue, h]
      rw [hd]
      cases w <;> rfl
    rw [tryStore, storing_eq, conclude_of_next _ hm hs]
  | error cause =>
    have hs : (armed [(address, a), (value, v)] c).step (instr w .store) =
        .next ((accessed [(address, a), (value, v)] c d).trap cause a) := by
      simp only [instr, step, stepStore, haddr, hvalue, h]
      rw [← hd]
    rw [tryStore, storing_eq, conclude_of_trap _ hs]

end Block

end Core

end TrapMonitor
