import TrapMonitor.Core.Inline

/-! # The access barrier

One load or store is made with the privilege of the code that trapped. For its duration the
trap vector points behind it, so that a fault skips it and leaves the failure flag set; the
trap registers that the fault overwrote are then put back. With the barrier, the core is a
hart that traps can be handled on.
-/
namespace TrapMonitor.Core

namespace Barrier

/-- The operands of the block. -/
def address : Reg := .a0
def value : Reg := .a1
def failed : Reg := .a2
def scratch : Reg := .a3

/-- The instruction behind the access. -/
def label : Word := blockBase + 0x20

def before : List Instr :=
  [.loadAddress scratch label, .csrWrite .mtvec scratch, .loadImmediate failed 1,
    .loadImmediate scratch Status.mprv, .csrSet .mstatus scratch]

def after : List Instr :=
  [.loadImmediate failed 0, .loadImmediate scratch Status.mprv, .csrClear .mstatus scratch]

def loading (w : Width) : List Instr := before ++ [.load w value 0 address] ++ after

def storing (w : Width) : List Instr := before ++ [.store w value 0 address] ++ after

/-- The trap registers that a fault inside of the barrier overwrites. -/
structure Saved where
  mepc : Word
  mcause : Word
  mtval : Word
  mstatus : Word

def save (c : Core) : Saved where
  mepc := c.readSystem .mepc
  mcause := c.readSystem .mcause
  mtval := c.readSystem .mtval
  mstatus := c.readSystem .mstatus

def restore (s : Saved) (c : Core) : Core :=
  let c := c.writeSystem .mepc s.mepc
  let c := c.writeSystem .mcause s.mcause
  let c := c.writeSystem .mtval s.mtval
  c.writeSystem .mstatus s.mstatus

/-- The fault that the trap registers describe. -/
def faultOf (c : Core) : AccessFault := ⟨c.readSystem .mtval, c.readSystem .mcause⟩

/-- What the block left behind becomes a result: a fault if the failure flag is still set. -/
def conclude {α : Type} (s : Saved) (outer after : Core) (result : α) :
    EStateM.Result AccessFault Core α :=
  let c := leaveBlock outer after
  if after.reg failed = 0 then .ok result c
  else .error (faultOf c) (restore s c)

end Barrier

def tryLoad (w : Width) (a : Word) : HartAccess Core Word := fun c =>
  let after := c.afterBlock (Barrier.loading w) [(Barrier.address, a)]
  Barrier.conclude (Barrier.save c) c after (after.reg Barrier.value)

def tryStore (w : Width) (a v : Word) : HartAccess Core Unit := fun c =>
  let after := c.afterBlock (Barrier.storing w) [(Barrier.address, a), (Barrier.value, v)]
  Barrier.conclude (Barrier.save c) c after ()

/-- Whether bits of the register are set and cleared by single instructions; the others are read
and written back. -/
def bitwise : Csr → Bool
  | .mie => true
  | .sip => true
  | .mstatus => true
  | _ => false

def setBits (r : Csr) (mask : Word) (c : Core) : Core :=
  if bitwise r then c.setSystem r.system mask
  else c.writeSystem r.system (c.readSystem r.system ||| mask)

def clearBits (r : Csr) (mask : Word) (c : Core) : Core :=
  if bitwise r then c.clearSystem r.system mask
  else c.writeSystem r.system (c.readSystem r.system &&& ~~~mask)

/-- Where the trap entry lies. -/
def trapEntry : Word := 0x20000040

instance : Hart Core where
  readCsr r c := c.readSystem r.system
  writeCsr r v c := c.writeSystem r.system v
  setCsr := setBits
  clearCsr := clearBits
  trapVector _ := trapEntry
  load := tryLoad
  store := tryStore

end TrapMonitor.Core
