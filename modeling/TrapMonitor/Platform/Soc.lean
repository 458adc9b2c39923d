import TrapMonitor.Platform
import TrapMonitor.Device.Uart
import TrapMonitor.Device.Timer

/-! # A system on a chip

The console is a serial device, the timer a latched one, and writing one to the finish word
stops the machine. The three devices can be of any kind that answers on the bus.
-/
namespace TrapMonitor

structure SocPlatform (U T F : Type) where
  uart : U
  timer : T
  finish : F
  /-- Whether a byte was written that the serial device never takes. -/
  waits : Bool := false

namespace SocPlatform

/-- Where the devices are on the bus. -/
def uartBase : Word := 0xf0001800
def timerBase : Word := 0xf0008800
def finishBase : Word := 0xf0008000

variable {U T F α : Type}

def onUart (x : StateM U α) (p : SocPlatform U T F) : α × SocPlatform U T F :=
  let r := x p.uart
  (r.1, { p with uart := r.2 })

def onTimer (x : StateM T α) (p : SocPlatform U T F) : α × SocPlatform U T F :=
  let r := x p.timer
  (r.1, { p with timer := r.2 })

/-- Asks the system to finish, through word `i` of its block. -/
def finishAt [Bus F] (i : Nat) : StateM F Unit := Bus.write i 1

instance [Bus U] [Bus T] [Bus F] : Platform (SocPlatform U T F) where
  tryRead := onUart Uart.tryRead
  write b p :=
    let r := onUart (Uart.writeByte b) p
    { r.2 with waits := p.waits || !r.1 }
  readLow := onTimer Timer.readLow
  readHigh := onTimer Timer.readHigh
  writeCompare low high p := (onTimer (Timer.writeCompare (.ofHalves low high)) p).2
  halt p := { p with finish := (finishAt 0 p.finish).2 }
  waits p := p.waits

end SocPlatform

end TrapMonitor
