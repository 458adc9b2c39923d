import TrapMonitor.Device.Uart

/-! # A serial device with queues

After each byte it sends, the transmitter reads as full for some number of polls, and bytes
written meanwhile are lost. Received bytes wait in a queue until they are acknowledged.
-/
namespace TrapMonitor

structure FifoUart where
  /-- How often the transmitter still reads as full. -/
  full : Nat
  /-- How often it reads as full after its `n`-th byte, counted from zero. -/
  stall : Nat → Nat
  sent : List Byte
  /-- How many bytes were lost. -/
  overrun : Nat
  received : List Byte

namespace FifoUart

/-- A device with nothing to do yet. -/
def idle (stall : Nat → Nat) : FifoUart := ⟨0, stall, [], 0, []⟩

def flag (b : Bool) : Word := if b then 1 else 0

def readWord (u : FifoUart) (i : Nat) : Word × FifoUart :=
  if i = Uart.txFull.first then (flag (u.full != 0), { u with full := u.full - 1 })
  else if i = Uart.rxEmpty.first then (flag u.received.isEmpty, u)
  else if i = Uart.rxtx.first then ((u.received.headD 0).setWidth 32, u)
  else (0, u)

/-- A byte is put on the wire if there is room for it. -/
def transmit (u : FifoUart) (b : Byte) : FifoUart :=
  if u.full = 0 then { u with sent := u.sent ++ [b], full := u.stall u.sent.length }
  else { u with overrun := u.overrun + 1 }

def writeWord (u : FifoUart) (i : Nat) (v : Word) : FifoUart :=
  if i = Uart.rxtx.first then u.transmit (v.setWidth 8)
  else if i = Uart.eventPending.first ∧ v &&& 2 ≠ 0 then { u with received := u.received.tail }
  else u

instance : Bus FifoUart where
  read i := fun u => u.readWord i
  write i v := fun u => ((), u.writeWord i v)
  patience u := u.full

end FifoUart

end TrapMonitor
