import TrapMonitor.Proofs.Core.Refinement

/-! # What a barrier does

Inside of a barrier the core executes one access. If it is refused, the core takes one trap, to the
label behind the access, and reports the cause and the address of that trap; no other trap is taken.
Either way the block ends where it should and uses no registers but its own.
-/
namespace TrapMonitor.Core

open Barrier

/-! ## Registers -/

namespace Barrier

/-- The registers that the block finds its operands in. -/
def operands : AccessKind → Word → Word → List (Reg × Word)
  | .load, a, _ => [(address, a)]
  | .store, a, v => [(address, a), (value, v)]

/-- The registers of the block. -/
def used : List Reg := [address, value, failed, scratch]

end Barrier

section Registers

variable {w : Width} {k : AccessKind} {a v : Word} {c g e : Core} {r : Reg}

theorem reg_setReg_of_ne (c : Core) {r y : Reg} (v : Word) (h : y ≠ r) :
    (c.setReg r v).reg y = c.reg y := by
  unfold setReg
  split
  · rfl
  · simp [reg, h]

theorem Barrier.not_mem_used :
    r ∉ used ↔ r ≠ address ∧ r ≠ value ∧ r ≠ failed ∧ r ≠ scratch := by
  simp [used]

theorem reg_armed (k : AccessKind) (a v : Word) (c : Core) (hr : r ∉ used) :
    (armed (operands k a v) c).reg r = c.reg r := by
  obtain ⟨ha, hv, hf, hs⟩ := not_mem_used.mp hr
  cases k with
  | load =>
    change ((((c.setReg address a).setReg scratch label).setReg failed 1).setReg scratch
      Status.mprv).reg r = c.reg r
    rw [reg_setReg_of_ne _ _ hs, reg_setReg_of_ne _ _ hf, reg_setReg_of_ne _ _ hs,
      reg_setReg_of_ne _ _ ha]
  | store =>
    change (((((c.setReg address a).setReg value v).setReg scratch label).setReg failed 1).setReg
      scratch Status.mprv).reg r = c.reg r
    rw [reg_setReg_of_ne _ _ hs, reg_setReg_of_ne _ _ hf, reg_setReg_of_ne _ _ hs,
      reg_setReg_of_ne _ _ hv, reg_setReg_of_ne _ _ ha]

/-- An access writes no register but the value that it loads. -/
theorem reg_of_step_instr (hs : g.step (instr w k) = .next e) (hr : k = .load → r ≠ value) :
    e.reg r = g.reg r := by
  cases k with
  | load =>
    simp only [instr, step, stepLoad] at hs
    cases hl : g.load w (g.reg address + 0) with
    | mk x d =>
    rw [hl] at hs
    have hd : d.reg r = g.reg r := by
      rw [eq_of_load hl]
      rfl
    cases x with
    | ok v =>
      cases hs
      exact (reg_setReg_of_ne d v (hr rfl)).trans hd
    | error cause =>
      cases hs
      exact hd
  | store =>
    simp only [instr, step, stepStore] at hs
    have hsnd := storeTo_snd w (g.reg address + 0) (g.reg value) g
    cases hl : g.storeTo w (g.reg address + 0) (g.reg value) with
    | mk x d =>
    rw [hl] at hs hsnd
    have hd : d.reg r = g.reg r := by
      rw [show d = _ from hsnd]
      rfl
    cases x with
    | ok v =>
      cases hs
      exact hd
    | error cause =>
      cases hs
      exact hd

end Registers

/-! ## One execution of a block -/

/-- What the block for an access does on the core `c`, when the access is made on `d` and the result
is `r`. -/
structure Attempt {α : Type} (c : Core) (w : Width) (k : AccessKind) (a v : Word)
    (r : EStateM.Result AccessFault Core α) (d : Core) : Prop where
  /-- One access is made. -/
  accesses : Code.accesses ((block (body w k)).history (c.enterBlock (operands k a v))) =
    [(d, instr w k)]
  address : d.reg address = a
  value : k = .store → d.reg value = v
  privilege : d.privilege = Status.previousMode (c.csr .mstatus)
  memory : d.memory = c.memory
  bank : d.bank = c.bank
  /-- The one trap that is taken, if any, is that of the access, and is the result. -/
  refusals : Code.refusals ((block (body w k)).history (c.enterBlock (operands k a v))) =
    (refusedWith r).toList
  lands : ∀ f, refusedWith r = some f → ∃ e, d.step (instr w k) = .next e ∧ e.pc = label ∧
    e.csr .mcause = f.cause ∧ e.csr .mtval = f.address
  exit : ((block (body w k)).run (c.enterBlock (operands k a v))).1 = .left
  registers : ∀ y, y ∉ used →
    ((block (body w k)).run (c.enterBlock (operands k a v))).2.reg y = c.reg y
  kept : ((block (body w k)).run (c.enterBlock (operands k a v))).2.reg Barrier.address = a ∧
    (k = .store → ((block (body w k)).run (c.enterBlock (operands k a v))).2.reg Barrier.value = v)

section Blocks

variable {w : Width} {k : AccessKind} {a v : Word} {c : Core}

theorem reg_disarmed (d : Core) {y : Reg} (hy : y ≠ scratch) : (disarmed d).reg y = d.reg y :=
  reg_setReg_of_ne d Status.mprv hy

theorem csr_mtvec_armed (inputs : List (Reg × Word)) (c : Core) :
    (armed inputs c).csr .mtvec = label := by
  rw [csr_armed]
  rfl

/-- From the access on, the block comes to its end on both ways. -/
theorem run_block (w : Width) (k : AccessKind) (inputs : List (Reg × Word)) (c : Core) :
    ∃ e d, (armed inputs c).step (instr w k) = .next e ∧
      (e.pc = blockBase + 0x1c ∨ e.pc = label) ∧
      (block (body w k)).run (c.enterBlock inputs) = (.left, disarmed d) ∧
      ∀ y, y ≠ failed → d.reg y = e.reg y := by
  cases hf : (armed inputs c).refusal (instr w k) with
  | none =>
    obtain ⟨e, hs⟩ : ∃ e, (armed inputs c).step (instr w k) = .next e := by
      cases k <;> exact ⟨_, rfl⟩
    have hpc : e.pc = blockBase + 0x1c := by
      rw [pc_of_step hf hs]
      cases k <;> rfl
    exact ⟨e, e.setReg failed 0, hs, .inl hpc, run_of_pass hs hpc,
      fun y hy => reg_setReg_of_ne e 0 hy⟩
  | some f =>
    obtain ⟨trace, hs⟩ := step_of_refusal hf
    have hpc : ({ armed inputs c with trace := trace }.trap f.cause f.address).pc = label :=
      csr_mtvec_armed inputs c
    exact ⟨_, _, hs, .inr hpc, run_of_skip hs hpc, fun _ _ => rfl⟩

theorem attempt_armed {α : Type} {r : EStateM.Result AccessFault Core α}
    (hr : refusedWith r = (armed (operands k a v) c).refusal (instr w k)) :
    Attempt c w k a v r (armed (operands k a v) c) := by
  obtain ⟨e, d, hs, hpc, hrun, hd⟩ := run_block w k (operands k a v) c
  obtain ⟨haccesses, hrefusals⟩ := accesses_body hs hpc
  have hreg (y : Reg) (hscratch : y ≠ scratch) (hfailed : y ≠ failed)
      (hvalue : k = .load → y ≠ Barrier.value) :
      ((block (body w k)).run (c.enterBlock (operands k a v))).2.reg y =
        (armed (operands k a v) c).reg y := by
    rw [hrun, reg_disarmed d hscratch, hd y hfailed, reg_of_step_instr hs hvalue]
  have haddress : (armed (operands k a v) c).reg Barrier.address = a := by cases k <;> rfl
  have hvalue (hk : k = .store) : (armed (operands k a v) c).reg Barrier.value = v := by
    subst hk
    rfl
  exact {
    accesses := haccesses
    address := haddress
    value := hvalue
    privilege := privilege_armed (operands k a v) c
    memory := by cases k <;> rfl
    bank := bank_armed (operands k a v) c
    refusals := by rw [hrefusals, hr]
    lands := fun f hf => by
      obtain ⟨trace, htrap⟩ := step_of_refusal (hr.symm.trans hf)
      exact ⟨_, htrap, csr_mtvec_armed (operands k a v) c, rfl, rfl⟩
    exit := by rw [hrun]
    registers := fun y hy => by
      obtain ⟨-, hv, hf, hsc⟩ := not_mem_used.mp hy
      rw [hreg y hsc hf fun _ => hv, reg_armed k a v c hy]
    kept := by
      refine ⟨?_, fun hk => ?_⟩
      · rw [hreg Barrier.address (by decide) (by decide) fun _ => by decide, haddress]
      · rw [hreg Barrier.value (by decide) (by decide) fun hl => ?_, hvalue hk]
        rw [hk] at hl
        cases hl }

/-- The load of a hart is one execution of the block. -/
theorem attempt_load (hm : Status.has (c.csr .mstatus) Status.mprv = false) (w : Width) (a : Word) :
    ∃ d, Attempt c w .load a 0 (tryLoad w a c) d := by
  refine ⟨_, attempt_armed ?_⟩
  have hrefusal : (armed (operands .load a 0) c).refusal (instr w .load) =
      faultAt (a + 0) ((armed [(address, a)] c).load w (a + 0)).1 := rfl
  have ha : a + 0 = a := BitVec.add_zero a
  rw [tryLoad_eq hm, hrefusal, ha]
  cases (armed [(address, a)] c).load w a with
  | mk x d => cases x <;> rfl

/-- The store of a hart is one execution of the block. -/
theorem attempt_store (hm : Status.has (c.csr .mstatus) Status.mprv = false) (w : Width)
    (a v : Word) : ∃ d, Attempt c w .store a v (tryStore w a v c) d := by
  refine ⟨_, attempt_armed ?_⟩
  have hrefusal : (armed (operands .store a v) c).refusal (instr w .store) =
      faultAt (a + 0) ((armed [(address, a), (value, v)] c).storeTo w (a + 0) v).1 := rfl
  have ha : a + 0 = a := BitVec.add_zero a
  rw [tryStore_eq hm, hrefusal, ha]
  cases (armed [(address, a), (value, v)] c).storeTo w a v with
  | mk x d => cases x <;> rfl

end Blocks

/-! ## The whole hart -/

/-- Behind an access, the core is as it was but for memory, the record and the trap vector. -/
structure Restored {α : Type} (c : Core) (r : EStateM.Result AccessFault Core α) : Prop where
  x : (stateAfter r).x = c.x
  pc : (stateAfter r).pc = c.pc
  mode : (stateAfter r).mode = c.mode
  pmp : (stateAfter r).pmp = c.pmp
  bank : (stateAfter r).bank = c.bank
  csr : ∀ s, s ≠ .mtvec → (stateAfter r).csr s = c.csr s

theorem Restored.of_lift {α : Type} {c : Core} {r : EStateM.Result AccessFault IdealHart α}
    (hr : ∀ s, s ≠ .mtvec → (stateAfter r).csr s = c.csr s) : Restored c (c.lift r) := by
  constructor <;> rw [stateAfter_lift]
  · rfl
  · rfl
  · rfl
  · rfl
  · rfl
  · exact hr

/-- The core is as good a hart as the ideal one. -/
structure Refines (c : Core) : Prop where
  load : ∀ w a, tryLoad w a c = c.lift (IdealHart.load w a c.ideal)
  loadAttempt : ∀ w a, ∃ d, Attempt c w .load a 0 (tryLoad w a c) d
  loadRestored : ∀ w a, Restored c (tryLoad w a c) ∧ (stateAfter (tryLoad w a c)).memory = c.memory
  store : ∀ w a v, tryStore w a v c = c.lift (IdealHart.store w a v c.ideal)
  storeAttempt : ∀ w a v, ∃ d, Attempt c w .store a v (tryStore w a v c) d
  storeRestored : ∀ w a v, Restored c (tryStore w a v c) ∧
    ∀ x, (refusedWith (tryStore w a v c) = none → ∀ i < w.size, x ≠ a + BitVec.ofNat 32 i) →
      (stateAfter (tryStore w a v c)).memory.bytes.byte x = c.memory.bytes.byte x
  write : ∀ r x v, Hart.readCsr x (Hart.writeCsr r v c) = if x = r then v else Hart.readCsr x c
  set : ∀ r mask, Hart.setCsr r mask c = Hart.writeCsr r (Hart.readCsr r c ||| mask) c
  clear : ∀ r mask, Hart.clearCsr r mask c = Hart.writeCsr r (Hart.readCsr r c &&& ~~~mask) c
  calls : ∀ calls : List HartCall, (∀ call ∈ calls, call.KeepsPrivilege) →
    HartCall.runAll calls c =
      ((HartCall.runAll calls c.ideal).1, c.withIdeal (HartCall.runAll calls c.ideal).2)

/-- On a machine, the barrier refines the contract of a hart: each access is one execution of its
block, with one access and at most one trap, and is the access of the ideal hart; so is every sequence
of calls. -/
theorem refines_ideal {c : Core} (hb : c.bank = none)
    (hm : Status.has (c.csr .mstatus) Status.mprv = false) : Refines c where
  load w a := tryLoad_eq_lift hb hm w a
  loadAttempt w a := attempt_load hm w a
  loadRestored w a := by
    have hstate := IdealHart.state_load w a c.ideal
    rw [tryLoad_eq_lift hb hm, stateAfter_lift, hstate]
    refine ⟨.of_lift fun s hs => ?_, rfl⟩
    rw [hstate]
    exact c.ideal.csr_accessed _ hs
  store w a v := tryStore_eq_lift hb hm w a v
  storeAttempt w a v := attempt_store hm w a v
  storeRestored w a v := by
    rw [tryStore_eq_lift hb hm, stateAfter_lift, refusedWith_lift]
    refine ⟨.of_lift fun s hs => ?_, fun x hx => IdealHart.byte_store hx⟩
    exact IdealHart.csr_store w a v c.ideal hs
  write r x v := FaithfulHart.readCsr_writeCsr r x v c
  set r mask := FaithfulHart.setCsr_eq r mask c
  clear r mask := FaithfulHart.clearCsr_eq r mask c
  calls calls hk := runAll_eq hb hm hk

/-- Machine mode lends its own privilege: a word of its RAM is stored, a word refused, the lowest byte
of the first one loaded, and the trapped address is still known. -/
theorem refines_ideal_calls :
    let c : Core := {
      x := fun _ => 7
      csr := fun s => match s with
        | .mepc => 0x80000100
        | .mstatus => Status.mpp
        | _ => 0
      pc := 0x20001000
      mode := Mode.machine
      pmp := true
      memory := ⟨Memory.zero, ⟨[⟨0x20000000, 0x10000⟩], [], [0x20000301], []⟩⟩
      bank := none
      trace := [] }
    let calls : List HartCall := [.store .word 0x20000200 0x1ff, .load .word 0x20000300,
      .load .byte 0x20000200, .read .mepc]
    (HartCall.runAll calls c).1 =
      [.done, .fault ⟨0x20000300, 13⟩, .value 0xff, .value 0x80000100] := by
  intro c calls
  have hm : Status.has (c.csr .mstatus) Status.mprv = false := by decide
  have hk : ∀ call ∈ calls, call.KeepsPrivilege := by
    intro call hcall
    simp only [calls, List.mem_cons, List.not_mem_nil, or_false] at hcall
    rcases hcall with rfl | rfl | rfl | rfl <;> trivial
  rw [(refines_ideal rfl hm).calls calls hk]
  decide +kernel

end TrapMonitor.Core
