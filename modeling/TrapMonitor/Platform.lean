import TrapMonitor.Word

/-! # The devices around the hart

A platform has a console, a 64-bit timer with one deadline, and a way to stop the machine. To
write to the console is to wait until it takes the byte, which it may never do.
-/
namespace TrapMonitor

class Platform (P : Type) where
  /-- Takes a received byte from the console, if there is one. -/
  tryRead : P → Option Byte × P
  write : Byte → P → P
  readLow : P → Word × P
  readHigh : P → Word × P
  writeCompare (low high : Word) : P → P
  halt : P → P
  /-- Whether a byte was written that the console never takes. The machine does not come back from
  that, so nothing that is said to happen later does happen. -/
  waits : P → Bool := fun _ => false

end TrapMonitor
