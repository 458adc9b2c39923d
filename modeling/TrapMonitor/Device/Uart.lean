import TrapMonitor.Bus.SplitRegister

/-! # The serial console

A byte goes out once the transmitter has room; carriage returns are dropped, because the
terminal at the other end translates line endings by itself. A received byte is taken from
the head of the receiver and acknowledged, which removes it.
-/
namespace TrapMonitor.Uart

def rxtx : SplitRegister := ⟨0, 1⟩
def txFull : SplitRegister := ⟨1, 1⟩
def rxEmpty : SplitRegister := ⟨2, 1⟩
def eventPending : SplitRegister := ⟨4, 1⟩

/-- How many words the device has. -/
def size : Nat := 6

/-- The event that says a byte was received. -/
def receiveEvent : DoubleWord := 2

def carriageReturn : Byte := 0x0d

variable {D : Type} [Bus D]

def flagClear (v : DoubleWord) : Bool := v &&& 1 == 0

/-- Sends a byte, and says whether the transmitter ever had room for it. If it had not, the driver
waits on for ever, and nothing is sent. -/
def writeByte (b : Byte) : StateM D Bool := do
  let ready ← txFull.await flagClear
  if ready && b != carriageReturn then rxtx.write (b.setWidth 64)
  return ready

theorem writeByte_eq_await (b : Byte) (d : D) : writeByte b d =
    ((txFull.await flagClear d).1, if (txFull.await flagClear d).1 && b != carriageReturn then
      (rxtx.write (b.setWidth 64) (txFull.await flagClear d).2).2
    else (txFull.await flagClear d).2) := by
  unfold writeByte
  change (if (txFull.await flagClear d).1 && b != carriageReturn then do
      rxtx.write (b.setWidth 64)
      return (txFull.await flagClear d).1
    else return (txFull.await flagClear d).1 : StateM D Bool) (txFull.await flagClear d).2 = _
  split <;> rfl

def tryRead : StateM D (Option Byte) := do
  let empty ← rxEmpty.read
  if flagClear empty then
    let v ← rxtx.read
    eventPending.write receiveEvent
    return some (v.setWidth 8)
  else return none

end TrapMonitor.Uart
