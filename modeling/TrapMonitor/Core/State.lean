import TrapMonitor.Hart
import TrapMonitor.Memory.Trace
import TrapMonitor.Status

/-! # The state of a core

Registers, control and status registers as plain cells, program counter and privilege, and one
byte memory behind a protection. What machine mode does to words of its own RAM is neither
refused nor recorded; everything else is both, the accesses that it makes with the privilege of
other code among it. A test bench may put a bank of its own over the RAM; a machine has none.
-/
namespace TrapMonitor

/-- The control and status registers of a core. -/
inductive SystemCsr where
  | mstatus | mtvec | mscratch | mepc | mcause | mtval | mie | medeleg | mideleg
  | sepc | scause | stval | stvec | sip | pmpcfg0 | pmpaddr0 | mip | satp
  deriving DecidableEq

namespace SystemCsr

def all : List SystemCsr :=
  [mstatus, mtvec, mscratch, mepc, mcause, mtval, mie, medeleg, mideleg, sepc, scause, stval, stvec,
    sip, pmpcfg0, pmpaddr0, mip, satp]

def name : SystemCsr → String
  | mstatus => "mstatus"
  | mtvec => "mtvec"
  | mscratch => "mscratch"
  | mepc => "mepc"
  | mcause => "mcause"
  | mtval => "mtval"
  | mie => "mie"
  | medeleg => "medeleg"
  | mideleg => "mideleg"
  | sepc => "sepc"
  | scause => "scause"
  | stval => "stval"
  | stvec => "stvec"
  | sip => "sip"
  | pmpcfg0 => "pmpcfg0"
  | pmpaddr0 => "pmpaddr0"
  | mip => "mip"
  | satp => "satp"

/-- Whether the register belongs to physical memory protection, which a core may lack. -/
def isPmp : SystemCsr → Bool
  | pmpcfg0 => true
  | pmpaddr0 => true
  | _ => false

end SystemCsr

/-- The core's register for each one that handling a trap uses. -/
def Csr.system : Csr → SystemCsr
  | mstatus => .mstatus
  | mepc => .mepc
  | mcause => .mcause
  | mbadaddr => .mtval
  | mtvec => .mtvec
  | mscratch => .mscratch
  | mie => .mie
  | sip => .sip
  | sepc => .sepc
  | scause => .scause
  | sbadaddr => .stval
  | stvec => .stvec

/-- An access together with the privilege it was made with. -/
structure PrivilegedAccess extends Access where
  privilege : Mode
  deriving DecidableEq

/-- Which registers of physical memory protection a core has. -/
structure PmpSupport where
  address : Bool
  config : Bool
  deriving DecidableEq

/-- Usually there are all or none. -/
instance : Coe Bool PmpSupport := ⟨fun b => ⟨b, b⟩⟩

structure Core where
  x : Reg → Word
  csr : SystemCsr → Word
  pc : Word
  mode : Mode
  pmp : PmpSupport
  memory : ProtectedMemory
  /-- What a test bench keeps in place of the machine's RAM, for aligned words that are accessed with
  the privilege of machine mode. -/
  bank : Option Memory
  /-- The recorded accesses, oldest first. -/
  trace : List PrivilegedAccess

namespace Core

/-- Where the machine's RAM is. -/
def ramStart : Word := 0x20000000
def ramEnd : Word := 0x20010000

/-- The memory that the machine's RAM is part of. -/
def ram (c : Core) : Memory := c.bank.getD c.memory.bytes

def setRam (m : Memory) (c : Core) : Core :=
  { c with
    bank := c.bank.map fun _ => m
    memory := { c.memory with bytes := if c.bank.isSome then c.memory.bytes else m } }

@[simp] theorem ram_setRam (c : Core) (m : Memory) : (c.setRam m).ram = m := by
  cases h : c.bank <;> simp [ram, setRam, h]

/-- Whether an access to the register is an illegal instruction. -/
def lacks (c : Core) : SystemCsr → Bool
  | .pmpcfg0 => !c.pmp.config
  | .pmpaddr0 => !c.pmp.address
  | _ => false

theorem lacks_of_not_isPmp (c : Core) {s : SystemCsr} (h : s.isPmp = false) : c.lacks s = false := by
  cases s with
  | pmpcfg0 | pmpaddr0 => cases h
  | _ => rfl

def reg (c : Core) (r : Reg) : Word := if r = Reg.zero then 0 else c.x r

def setReg (c : Core) (r : Reg) (v : Word) : Core :=
  if r = Reg.zero then c else { c with x := fun y => if y = r then v else c.x y }

def setCsr (c : Core) (s : SystemCsr) (v : Word) : Core :=
  { c with csr := fun y => if y = s then v else c.csr y }

theorem csr_setCsr (c : Core) (s y : SystemCsr) (v : Word) :
    (c.setCsr s v).csr y = if y = s then v else c.csr y := rfl

@[simp] theorem csr_setReg (c : Core) (r : Reg) (v : Word) : (c.setReg r v).csr = c.csr := by
  unfold setReg
  split <;> rfl

@[simp] theorem reg_setCsr (c : Core) (s : SystemCsr) (v : Word) : (c.setCsr s v).reg = c.reg := rfl

theorem reg_setReg (c : Core) (r y : Reg) (v : Word) (h : r ≠ Reg.zero) :
    (c.setReg r v).reg y = if y = r then v else c.reg y := by
  unfold reg setReg
  by_cases hy : y = Reg.zero
  · subst hy
    simp [Ne.symm h]
  · simp [h, hy]

/-- A trap goes to machine mode, wherever it comes from. -/
def trap (cause tval : Word) (c : Core) : Core :=
  let d := c.setCsr .mstatus (Status.enterMachine c.mode (c.csr .mstatus))
  let d := d.setCsr .mepc c.pc
  let d := d.setCsr .mcause cause
  let d := d.setCsr .mtval tval
  { d with mode := Mode.machine, pc := c.csr .mtvec }

/-- The return from a trap goes back to the mode the status word notes. -/
def mret (c : Core) : Core :=
  let d := c.setCsr .mstatus (Status.leaveMachine (c.csr .mstatus))
  { d with mode := Status.previousMode (c.csr .mstatus), pc := c.csr .mepc }

/-- The privilege that loads and stores have. -/
def privilege (c : Core) : Mode :=
  if Status.has (c.csr .mstatus) Status.mprv then Status.previousMode (c.csr .mstatus) else c.mode

/-- Whether an access has the machine's own privilege: machine mode does not borrow any. A bank cannot
tell a privilege that is borrowed. -/
def ownsAccess (c : Core) : Bool :=
  c.privilege == Mode.machine && (c.bank.isSome || !Status.has (c.csr .mstatus) Status.mprv)

/-- Whether an access goes straight to the machine's RAM, where nothing is checked or recorded: that
of machine mode itself to an aligned word. -/
def reachesRam (c : Core) (w : Width) (a : Word) : Bool :=
  w == .word && c.ownsAccess && a.toNat % w.size == 0 &&
    ramStart.toNat ≤ a.toNat && a.toNat < ramEnd.toNat

def note (c : Core) (a : Access) : Core := { c with trace := c.trace ++ [⟨a, c.privilege⟩] }

/-- The value of a load, or the cause of its refusal. -/
def load (w : Width) (a : Word) (c : Core) : Except Word Word × Core :=
  if c.reachesRam w a then (.ok (ProtectedMemory.contents c.ram a w), c)
  else (c.memory.load w a, c.note (c.memory.loadRecord w a))

/-- The core after a store, with the cause if the store was refused. -/
def storeTo (w : Width) (a v : Word) (c : Core) : Except Word Unit × Core :=
  if c.reachesRam w a then (.ok (), c.setRam (ProtectedMemory.update c.ram a v w))
  else
    let c := c.note (c.memory.storeRecord w a v)
    match c.memory.store w a v with
    | .ok memory => (.ok (), { c with memory := memory })
    | .error cause => (.error cause, c)

end Core

end TrapMonitor
