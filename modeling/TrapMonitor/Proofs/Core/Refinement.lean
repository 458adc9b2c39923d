import TrapMonitor.Proofs.Core.Contract
import TrapMonitor.Proofs.Core.History

/-! # The core refines an ideal hart

An ideal hart has one memory of bytes and makes an access to it in one go, with the privilege of the
trapped code. The core needs a block of instructions for it, with a trap in between if the access is
refused, and then has to put its registers back. No sequence of calls can tell the two apart, and
nothing of the core that the ideal hart does not have ever changes.
-/
namespace TrapMonitor

/-! ## Calls to a hart -/

section Results

variable {σ α : Type}

/-- The state behind an access. -/
def stateAfter : EStateM.Result AccessFault σ α → σ
  | .ok _ s => s
  | .error _ s => s

/-- The fault that an access was refused with. -/
def refusedWith : EStateM.Result AccessFault σ α → Option AccessFault
  | .ok _ _ => none
  | .error f _ => some f

end Results

/-- The calls that the handling of traps makes to a hart. -/
inductive HartCall where
  | read (r : Csr)
  | write (r : Csr) (v : Word)
  | set (r : Csr) (mask : Word)
  | clear (r : Csr) (mask : Word)
  | trapVector
  | load (w : Width) (a : Word)
  | store (w : Width) (a v : Word)

/-- What a call returns. -/
inductive HartAnswer where
  | done
  | value (v : Word)
  | fault (f : AccessFault)
  deriving DecidableEq

namespace HartCall

variable {H : Type} [Hart H]

def run : HartCall → H → HartAnswer × H
  | read r, h => (.value (Hart.readCsr r h), h)
  | write r v, h => (.done, Hart.writeCsr r v h)
  | set r mask, h => (.done, Hart.setCsr r mask h)
  | clear r mask, h => (.done, Hart.clearCsr r mask h)
  | trapVector, h => (.value (Hart.trapVector h), h)
  | load w a, h =>
    match Hart.load w a h with
    | .ok v h => (.value v, h)
    | .error f h => (.fault f, h)
  | store w a v, h =>
    match Hart.store w a v h with
    | .ok () h => (.done, h)
    | .error f h => (.fault f, h)

theorem run_load_snd (w : Width) (a : Word) (h : H) :
    ((load w a).run h).2 = stateAfter (Hart.load w a h) := by
  simp only [run]
  cases Hart.load w a h <;> rfl

theorem run_store_snd (w : Width) (a v : Word) (h : H) :
    ((store w a v).run h).2 = stateAfter (Hart.store w a v h) := by
  simp only [run]
  cases Hart.store w a v h <;> rfl

/-- Runs calls one after another. -/
def runAll : List HartCall → H → List HartAnswer × H
  | [], h => ([], h)
  | call :: rest, h =>
    let first := call.run h
    let others := runAll rest first.2
    (first.1 :: others.1, others.2)

/-- The call does not make accesses outside of a barrier change their privilege. -/
def KeepsPrivilege : HartCall → Prop
  | write .mstatus v => Status.has v Status.mprv = false
  | set .mstatus mask => Status.has mask Status.mprv = false
  | _ => True

end HartCall

/-! ## The ideal hart -/

/-- The parts of a core that a hart is made of. -/
structure IdealHart where
  csr : SystemCsr → Word
  memory : ProtectedMemory
  trace : List PrivilegedAccess

namespace IdealHart

def write (s : SystemCsr) (v : Word) (h : IdealHart) : IdealHart :=
  { h with csr := fun y => if y = s then v else h.csr y }

/-- The hart after an access, which moved the trap vector and is recorded with the privilege of the
trapped code. -/
def accessed (h : IdealHart) (x : Access) : IdealHart :=
  { h.write .mtvec Core.Barrier.label with
    trace := h.trace ++ [⟨x, Status.previousMode (h.csr .mstatus)⟩] }

def load (w : Width) (a : Word) : HartAccess IdealHart Word := fun h =>
  let after := h.accessed (h.memory.loadRecord w a)
  match h.memory.load w a with
  | .ok v => .ok v after
  | .error cause => .error ⟨a, cause⟩ after

def store (w : Width) (a v : Word) : HartAccess IdealHart Unit := fun h =>
  let after := h.accessed (h.memory.storeRecord w a v)
  match h.memory.store w a v with
  | .ok memory => .ok () { after with memory := memory }
  | .error cause => .error ⟨a, cause⟩ after

instance : Hart IdealHart where
  readCsr r h := h.csr r.system
  writeCsr r v h := h.write r.system v
  trapVector _ := Core.trapEntry
  load := load
  store := store

theorem csr_accessed (h : IdealHart) (x : Access) {s : SystemCsr} (hs : s ≠ .mtvec) :
    (h.accessed x).csr s = h.csr s := if_neg hs

/-- Loads move the trap vector and are recorded, and that is all. -/
theorem state_load (w : Width) (a : Word) (h : IdealHart) :
    stateAfter (load w a h) = h.accessed (h.memory.loadRecord w a) := by
  unfold load
  dsimp only
  split <;> rfl

theorem csr_store (w : Width) (a v : Word) (h : IdealHart) {s : SystemCsr} (hs : s ≠ .mtvec) :
    (stateAfter (store w a v h)).csr s = h.csr s := by
  unfold store
  dsimp only
  split <;> exact h.csr_accessed (h.memory.storeRecord w a v) hs

/-- A store changes no other bytes than its own, and none if it is refused. -/
theorem byte_store {w : Width} {a v x : Word} {h : IdealHart}
    (hx : refusedWith (store w a v h) = none → ∀ i < w.size, x ≠ a + BitVec.ofNat 32 i) :
    (stateAfter (store w a v h)).memory.bytes.byte x = h.memory.bytes.byte x := by
  unfold store at hx ⊢
  cases hc : h.memory.protection.check .store w a with
  | some cause =>
    simp only [ProtectedMemory.store, hc]
    rfl
  | none =>
    simp only [ProtectedMemory.store, hc] at hx ⊢
    cases w with
    | byte => exact h.memory.bytes.byte_setByte_of_ne _ (by simpa using hx rfl 0 (by decide))
    | word =>
      exact h.memory.bytes.byte_poke_of_outside a x _ (by simpa [Width.size] using hx rfl)

end IdealHart

namespace HartCall

/-- Calls that keep the privilege of accesses leave accesses outside of a barrier to the mode. -/
theorem mprv_run {call : HartCall} {h : IdealHart} (hk : call.KeepsPrivilege)
    (hm : Status.has (h.csr .mstatus) Status.mprv = false) :
    Status.has ((call.run h).2.csr .mstatus) Status.mprv = false := by
  cases call with
  | read r => exact hm
  | write r v =>
    cases r with
    | mstatus => exact hk
    | _ => exact hm
  | set r mask =>
    cases r with
    | mstatus =>
      have hmask : Status.has mask Status.mprv = false := hk
      change Status.has (h.csr .mstatus ||| mask) Status.mprv = false
      rw [Status.has_mprv, BitVec.getLsbD_or, ← Status.has_mprv, ← Status.has_mprv, hm, hmask,
        Bool.or_false]
    | _ => exact hm
  | clear r mask =>
    cases r with
    | mstatus =>
      change Status.has (h.csr .mstatus &&& ~~~mask) Status.mprv = false
      rw [Status.has_mprv, BitVec.getLsbD_and, ← Status.has_mprv, hm, Bool.false_and]
    | _ => exact hm
  | trapVector => exact hm
  | load w a =>
    have hstate : stateAfter (Hart.load w a h) = h.accessed (h.memory.loadRecord w a) :=
      IdealHart.state_load w a h
    rw [run_load_snd, hstate, h.csr_accessed _ (by decide), hm]
  | store w a v =>
    have hcsr : (stateAfter (Hart.store w a v h)).csr .mstatus = h.csr .mstatus :=
      IdealHart.csr_store w a v h (by decide)
    rw [run_store_snd, hcsr, hm]

end HartCall

namespace Core

/-- The ideal hart in a core. -/
def ideal (c : Core) : IdealHart := ⟨c.csr, c.memory, c.trace⟩

/-- The core with another ideal hart in it. -/
def withIdeal (c : Core) (h : IdealHart) : Core :=
  { c with csr := h.csr, memory := h.memory, trace := h.trace }

theorem ideal_withIdeal (c : Core) (h : IdealHart) : (c.withIdeal h).ideal = h := rfl

/-- The result of an access on the ideal hart, brought to the core. -/
def lift {α : Type} (c : Core) :
    EStateM.Result AccessFault IdealHart α → EStateM.Result AccessFault Core α
  | .ok v h => .ok v (c.withIdeal h)
  | .error f h => .error f (c.withIdeal h)

theorem stateAfter_lift {α : Type} (c : Core) (r : EStateM.Result AccessFault IdealHart α) :
    stateAfter (c.lift r) = c.withIdeal (stateAfter r) := by
  cases r <;> rfl

theorem refusedWith_lift {α : Type} (c : Core) (r : EStateM.Result AccessFault IdealHart α) :
    refusedWith (c.lift r) = refusedWith r := by
  cases r <;> rfl

section Calls

open Barrier

variable {c : Core}

theorem behind_note_armed (inputs : List (Reg × Word))
    (hmemory : (armed inputs c).memory = c.memory) (htrace : (armed inputs c).trace = c.trace)
    (x : Access) : behind c ((armed inputs c).note x) = c.withIdeal (c.ideal.accessed x) := by
  have hbank := bank_armed inputs c
  rw [note, privilege_armed, behind]
  simp only [hbank, hmemory, htrace]
  rfl

variable (hb : c.bank = none) (hm : Status.has (c.csr .mstatus) Status.mprv = false)

include hb hm

/-- A load of the core is one of the ideal hart. -/
theorem tryLoad_eq_lift (w : Width) (a : Word) :
    tryLoad w a c = c.lift (IdealHart.load w a c.ideal) := by
  have hmemory : c.ideal.memory = c.memory := rfl
  have hafter := behind_note_armed (c := c) [(address, a)] rfl rfl (c.memory.loadRecord w a)
  rw [tryLoad_eq hm, load_armed (reachesRam_armed_of_bank hb _ w a) rfl, IdealHart.load, hmemory]
  cases c.memory.load w a with
  | ok v => exact congrArg (EStateM.Result.ok v) hafter
  | error cause => exact congrArg (EStateM.Result.error (AccessFault.mk a cause)) hafter

/-- A store of the core is one of the ideal hart. -/
theorem tryStore_eq_lift (w : Width) (a v : Word) :
    tryStore w a v c = c.lift (IdealHart.store w a v c.ideal) := by
  have hmemory : c.ideal.memory = c.memory := rfl
  have hafter := behind_note_armed (c := c) [(address, a), (value, v)] rfl rfl
    (c.memory.storeRecord w a v)
  rw [tryStore_eq hm, storeTo_armed (reachesRam_armed_of_bank hb _ w a) rfl, IdealHart.store,
    hmemory]
  cases c.memory.store w a v with
  | ok memory =>
    have hstored := congrArg (fun d : Core => { d with memory := memory }) hafter
    exact congrArg (EStateM.Result.ok ()) hstored
  | error cause => exact congrArg (EStateM.Result.error (AccessFault.mk a cause)) hafter

/-! ## Sequences of calls -/

/-- A call of the core is one of the ideal hart, and leaves everything else alone. -/
theorem run_eq (call : HartCall) :
    call.run c = ((call.run c.ideal).1, c.withIdeal (call.run c.ideal).2) := by
  cases call with
  | read r => exact Prod.ext (congrArg HartAnswer.value (readCsr_eq r c)) rfl
  | write r v => exact Prod.ext rfl (writeCsr_eq r v c)
  | set r mask => exact Prod.ext rfl (setCsr_eq r mask c)
  | clear r mask => exact Prod.ext rfl (clearCsr_eq r mask c)
  | trapVector => rfl
  | load w a =>
    have hload : (Hart.load w a : HartAccess Core Word) c = _ := tryLoad_eq_lift hb hm w a
    have hideal : (Hart.load w a : HartAccess IdealHart Word) c.ideal =
        IdealHart.load w a c.ideal := rfl
    simp only [HartCall.run, hload, hideal]
    cases IdealHart.load w a c.ideal <;> rfl
  | store w a v =>
    have hstore : (Hart.store w a v : HartAccess Core Unit) c = _ := tryStore_eq_lift hb hm w a v
    have hideal : (Hart.store w a v : HartAccess IdealHart Unit) c.ideal =
        IdealHart.store w a v c.ideal := rfl
    simp only [HartCall.run, hstore, hideal]
    cases IdealHart.store w a v c.ideal <;> rfl

/-- All calls of a sequence return on the core what they return on the ideal hart. -/
theorem runAll_eq {calls : List HartCall} (hk : ∀ call ∈ calls, call.KeepsPrivilege) :
    HartCall.runAll calls c =
      ((HartCall.runAll calls c.ideal).1, c.withIdeal (HartCall.runAll calls c.ideal).2) := by
  induction calls generalizing c with
  | nil => rfl
  | cons call rest ih =>
    have hcall := run_eq hb hm call
    have hb' : (call.run c).2.bank = none := by
      rw [hcall]
      exact hb
    have hm' : Status.has ((call.run c).2.csr .mstatus) Status.mprv = false := by
      rw [hcall]
      exact HartCall.mprv_run (hk call (List.mem_cons_self ..)) hm
    have hrest := ih hb' hm' fun x hx => hk x (List.mem_cons_of_mem call hx)
    have hideal : (call.run c).2.ideal = (call.run c.ideal).2 := by
      rw [hcall]
      exact ideal_withIdeal c _
    rw [hideal] at hrest
    rw [HartCall.runAll, HartCall.runAll, hrest, hcall]
    rfl

end Calls

end Core

end TrapMonitor
