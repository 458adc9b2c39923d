import TrapMonitor.Core.Instr

/-! # Assembly inside of compiled code

Compiled code puts the operands of a block into registers, runs the block, takes the results
out of registers, and goes on with the registers it had. A block runs in machine mode, whatever
the mode around it.
-/
namespace TrapMonitor.Core

/-- Where a block lies while it runs. -/
def blockBase : Word := 0x20000400

def block (body : List Instr) : Code := ⟨blockBase, body⟩

/-- The core when a block starts, in machine mode and with its operands in registers. -/
def enterBlock (inputs : List (Reg × Word)) (c : Core) : Core :=
  { inputs.foldl (fun c i => c.setReg i.1 i.2) c with pc := blockBase, mode := Mode.machine }

/-- The core when a block ends, with its results in registers. -/
def afterBlock (body : List Instr) (inputs : List (Reg × Word)) (c : Core) : Core :=
  ((block body).run (c.enterBlock inputs)).2

/-- Registers, program counter and mode go back to those of the surrounding code. -/
def leaveBlock (outer c : Core) : Core :=
  { c with x := outer.x, pc := outer.pc, mode := outer.mode }

def inline (body : List Instr) (inputs : List (Reg × Word)) (c : Core) : Core :=
  leaveBlock c (c.afterBlock body inputs)

/-- Reads a control and status register. If the core lacks it, the read is a trap, and the value is
what the result's register held before. -/
def readBlock (s : SystemCsr) (c : Core) : Word × Core :=
  let after := c.afterBlock [.csrRead .a0 s] []
  (after.reg .a0, leaveBlock c after)

def readSystem (s : SystemCsr) (c : Core) : Word := (c.readBlock s).1

/-- Reading a register that every core has changes nothing. -/
theorem readBlock_of_not_isPmp (s : SystemCsr) (c : Core) (h : s.isPmp = false) :
    c.readBlock s = (c.csr s, c) := by
  cases s with
  | pmpcfg0 | pmpaddr0 => cases h
  | _ => rfl

def writeSystem (s : SystemCsr) (v : Word) (c : Core) : Core :=
  c.inline [.csrWrite s .a0] [(.a0, v)]

def setSystem (s : SystemCsr) (mask : Word) (c : Core) : Core :=
  c.inline [.csrSet s .a0] [(.a0, mask)]

def clearSystem (s : SystemCsr) (mask : Word) (c : Core) : Core :=
  c.inline [.csrClear s .a0] [(.a0, mask)]

end TrapMonitor.Core
