import TrapMonitor.Word
import TrapMonitor.Text.FlagSet

/-! # The machine status word

The bits of the status word that take part in traps, and the three changes a trap makes to
it: entering machine mode, returning from it, and the change that makes a trap into machine
mode look like one that went straight to the supervisor.
-/
namespace TrapMonitor

/-- A privilege mode: 0 user, 1 supervisor, 3 machine. -/
abbrev Mode := BitVec 2

namespace Mode

def user : Mode := 0
def supervisor : Mode := 1
def machine : Mode := 3

end Mode

namespace Status

def sie : Word := 0x2
def mie : Word := 0x8
def spie : Word := 0x20
def mpie : Word := 0x80
def spp : Word := 0x100
def mpp : Word := 0x1800
def mppSupervisor : Word := 0x800
def mprv : Word := 0x20000
def sum : Word := 0x40000
def mxr : Word := 0x80000

/-- Whether all bits of `flag` are set. -/
def has (status flag : Word) : Bool := status &&& flag == flag

def previousMode (status : Word) : Mode := status.extractLsb' 11 2

/-- A trap out of `mode` into machine mode disables interrupts and notes what it came from. -/
def enterMachine (mode : Mode) (status : Word) : Word :=
  let cleared := status &&& ~~~(mie ||| mpie ||| mpp)
  let enabled := if has status mie then mpie else 0
  cleared ||| enabled ||| (mode.setWidth 32 <<< 11)

/-- A return from machine mode puts the interrupt enable back and forgets the previous mode. -/
def leaveMachine (status : Word) : Word :=
  let cleared := status &&& ~~~(mie ||| mpie ||| mpp)
  let enabled := if has status mpie then mie else 0
  cleared ||| enabled ||| mpie

/-- The status with which the supervisor's trap handler is entered by a return from machine mode:
the interrupted mode and interrupt enable move to the supervisor's fields, and the return goes to
supervisor mode with machine interrupts on. -/
def delegated (status : Word) : Word :=
  let cleared := status &&& ~~~(spp ||| mpp ||| sie ||| spie)
  let interrupted := if has status mppSupervisor then spp else 0
  let enabled := if has status sie then spie else 0
  cleared ||| interrupted ||| enabled ||| mppSupervisor ||| mpie

def flags : Text.FlagSet where
  name := "MStatusFlags"
  flags := [⟨"SIE", sie⟩, ⟨"MIE", mie⟩, ⟨"SPIE", spie⟩, ⟨"MPIE", mpie⟩, ⟨"SPP", spp⟩, ⟨"MPP", mpp⟩,
    ⟨"MPRV", mprv⟩, ⟨"SUM", sum⟩, ⟨"MXR", mxr⟩]

end Status

end TrapMonitor
