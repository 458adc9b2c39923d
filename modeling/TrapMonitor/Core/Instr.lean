import TrapMonitor.Core.State

/-! # Instructions of the core

The instructions that the monitor's own assembly is made of, and what each one does. Loading
an address and calling reach the whole address space and take two instruction words,
everything else takes one. Calls and jumps out of the assembly name where they go.
-/
namespace TrapMonitor

/-- Compiled code that the assembly calls or jumps to. -/
inductive Symbol where
  | trapHandler | start
  deriving DecidableEq

inductive Instr where
  | loadAddress (rd : Reg) (address : Word)
  | loadImmediate (rd : Reg) (value : Word)
  | move (rd rs : Reg)
  | csrExchange (rd : Reg) (csr : SystemCsr) (rs : Reg)
  | csrRead (rd : Reg) (csr : SystemCsr)
  | csrWrite (csr : SystemCsr) (rs : Reg)
  | csrSet (csr : SystemCsr) (rs : Reg)
  | csrClear (csr : SystemCsr) (rs : Reg)
  | load (width : Width) (rd : Reg) (offset : Word) (base : Reg)
  | store (width : Width) (rs : Reg) (offset : Word) (base : Reg)
  | call (target : Symbol)
  | jump (target : Symbol)
  | mret
  deriving DecidableEq

namespace Instr

/-- Bytes that the instruction takes. -/
def size : Instr → Word
  | loadAddress _ _ => 8
  | call _ => 8
  | _ => 4

end Instr

/-- What comes after one instruction. -/
inductive Step where
  | next (c : Core)
  | called (target : Symbol) (c : Core)
  | jumped (target : Symbol) (c : Core)
  | returned (c : Core)

namespace Core

def advance (c : Core) (i : Instr) : Core := { c with pc := c.pc + i.size }

/-- Does `f` to the core, or traps if it does not have the register. -/
def accessCsr (i : Instr) (s : SystemCsr) (f : Core → Core) (c : Core) : Core :=
  if c.lacks s then c.trap 2 0 else (f c).advance i

def stepLoad (i : Instr) (w : Width) (rd : Reg) (a : Word) (c : Core) : Core :=
  match c.load w a with
  | (.ok v, c) => (c.setReg rd v).advance i
  | (.error cause, c) => c.trap cause a

def stepStore (i : Instr) (w : Width) (a v : Word) (c : Core) : Core :=
  match c.storeTo w a v with
  | (.ok (), c) => c.advance i
  | (.error cause, c) => c.trap cause a

def step (i : Instr) (c : Core) : Step :=
  match i with
  | .loadAddress rd a => .next ((c.setReg rd a).advance i)
  | .loadImmediate rd v => .next ((c.setReg rd v).advance i)
  | .move rd rs => .next ((c.setReg rd (c.reg rs)).advance i)
  | .csrExchange rd s rs =>
    .next (c.accessCsr i s fun c => (c.setCsr s (c.reg rs)).setReg rd (c.csr s))
  | .csrRead rd s => .next (c.accessCsr i s fun c => c.setReg rd (c.csr s))
  | .csrWrite s rs => .next (c.accessCsr i s fun c => c.setCsr s (c.reg rs))
  | .csrSet s rs => .next (c.accessCsr i s fun c => c.setCsr s (c.csr s ||| c.reg rs))
  | .csrClear s rs => .next (c.accessCsr i s fun c => c.setCsr s (c.csr s &&& ~~~c.reg rs))
  | .load w rd offset base => .next (c.stepLoad i w rd (c.reg base + offset))
  | .store w rs offset base => .next (c.stepStore i w (c.reg base + offset) (c.reg rs))
  | .call target => .called target ((c.setReg .ra (c.pc + i.size)).advance i)
  | .jump target => .jumped target c
  | .mret => .returned c.mret

end Core

/-- A stretch of instructions at an address. -/
structure Code where
  base : Word
  body : List Instr

namespace Code

/-- The instruction that starts at `pc`, in a list that starts at `a`. -/
def find (pc a : Word) : List Instr → Option Instr
  | [] => none
  | i :: rest => if pc = a then some i else find pc (a + i.size) rest

def at? (code : Code) (pc : Word) : Option Instr := find pc code.base code.body

/-- How a run of a stretch of code ends. -/
inductive Exit where
  /-- The program counter is not in the code. -/
  | left
  | called (target : Symbol)
  | jumped (target : Symbol)
  | returned
  /-- The code keeps trapping back into itself. -/
  | endless
  deriving DecidableEq

def runFor (code : Code) : Nat → Core → Exit × Core
  | 0, c => (.endless, c)
  | fuel + 1, c =>
    match code.at? c.pc with
    | none => (.left, c)
    | some i =>
      match c.step i with
      | .next c => code.runFor fuel c
      | .called target c => (.called target, c)
      | .jumped target c => (.jumped target, c)
      | .returned c => (.returned, c)

/-- How often the code is passed through before it is given up. A pass without a trap is the last.
A trap that leads back to the start begins another pass, with `sp` and `mscratch` exchanged if the
code is the trap entry, and from the second trap on nothing else is different; so the fourth pass
traps where the second did. -/
def passes : Nat := 4

/-- Runs from the program counter until the code is left. -/
def run (code : Code) (c : Core) : Exit × Core := code.runFor (passes * (code.body.length + 1)) c

end Code

end TrapMonitor
