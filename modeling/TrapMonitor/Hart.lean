import TrapMonitor.Memory.Protection
import TrapMonitor.EmulationError

/-! # The hart a trap is handled on

What the monitor needs of a hart: its trap registers, and memory accesses that may fault. A
faulting access reports where and why and lets the monitor go on; any access may leave the
trap vector pointing somewhere else, which `Hart.restoreTrapVector` mends.
-/
namespace TrapMonitor

/-- The control and status registers that handling a trap reads or writes. -/
inductive Csr where
  | mstatus | mepc | mcause | mbadaddr | mtvec | mscratch | mie
  | sip | sepc | scause | sbadaddr | stvec
  deriving DecidableEq

namespace Csr

def all : List Csr :=
  [mstatus, mepc, mcause, mbadaddr, mtvec, mscratch, mie, sip, sepc, scause, sbadaddr, stvec]

def name : Csr → String
  | mstatus => "mstatus"
  | mepc => "mepc"
  | mcause => "mcause"
  | mbadaddr => "mbadaddr"
  | mtvec => "mtvec"
  | mscratch => "mscratch"
  | mie => "mie"
  | sip => "sip"
  | sepc => "sepc"
  | scause => "scause"
  | sbadaddr => "sbadaddr"
  | stvec => "stvec"

end Csr

/-- An access to the hart's memory, which changes the hart and may fault. -/
abbrev HartAccess (H α : Type) := EStateM AccessFault H α

/-- A hart reads and writes registers, sets and clears bits of them, and accesses memory. -/
class Hart (H : Type) where
  readCsr : Csr → H → Word
  writeCsr : Csr → Word → H → H
  setCsr : Csr → Word → H → H := fun c mask h => writeCsr c (readCsr c h ||| mask) h
  clearCsr : Csr → Word → H → H := fun c mask h => writeCsr c (readCsr c h &&& ~~~mask) h
  /-- Where traps go while no access is under way. -/
  trapVector : H → Word
  load : Width → Word → HartAccess H Word
  /-- A byte store writes the lowest byte of the value. -/
  store : Width → Word → Word → HartAccess H Unit

namespace Hart

variable {H : Type} [Hart H]

def restoreTrapVector (h : H) : H := writeCsr .mtvec (trapVector h) h

/-- `n` bytes from address `a` on, one access each, up to the first fault. -/
def readBytes (a : Word) : Nat → HartAccess H (List Byte)
  | 0 => pure []
  | n + 1 => do
    let b ← load .byte a
    let rest ← readBytes (a + 1) n
    return b.setWidth 8 :: rest

/-- Stores bytes at address `a` and behind it, one access each, up to the first fault. -/
def writeBytes (a : Word) : List Byte → HartAccess H Unit
  | [] => pure ()
  | b :: rest => do
    store .byte a (b.setWidth 32)
    writeBytes (a + 1) rest

/-- A little-endian number of `n` bytes at any address. -/
def readUnaligned (a : Word) (n : Nat) : HartAccess H Word := do
  let bs ← readBytes a n
  return .ofBytes bs

/-- Stores the lowest `n` bytes of `value` at any address. -/
def writeUnaligned (a : Word) (n : Nat) (value : Word) : HartAccess H Unit :=
  writeBytes a (Word.bytes n value)

def readWord (a : Word) : HartAccess H Word := load .word a

def writeWord (a value : Word) : HartAccess H Unit := store .word a value

/-- The instruction at `pc`, read through aligned words. In the upper half of a word there is a
whole sixteen-bit instruction or the first half of a longer one, whose second half opens the next
word. -/
def fetch (pc : Word) : HartAccess H Word :=
  if pc &&& 2 = 0 then readWord pc
  else do
    let first ← readWord (pc - 2)
    let low := first >>> 16
    if low &&& 3 ≠ 3 then return low
    else do
      let next ← readWord (pc + 2)
      return low ||| next <<< 16

end Hart

end TrapMonitor
