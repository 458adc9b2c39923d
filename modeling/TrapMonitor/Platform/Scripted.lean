import TrapMonitor.Platform

/-! # A platform that follows a script

Input waits in a queue, output is kept in order, the time stands still until it is set, and
the last deadline is remembered.
-/
namespace TrapMonitor

structure ScriptedPlatform where
  input : List Byte
  output : List Byte
  time : DoubleWord
  compare : Option DoubleWord
  halted : Bool

namespace ScriptedPlatform

def tryRead (p : ScriptedPlatform) : Option Byte × ScriptedPlatform :=
  match p.input with
  | [] => (none, p)
  | b :: rest => (some b, { p with input := rest })

instance : Platform ScriptedPlatform where
  tryRead := tryRead
  write b p := { p with output := p.output ++ [b] }
  readLow p := (DoubleWord.low p.time, p)
  readHigh p := (DoubleWord.high p.time, p)
  writeCompare low high p := { p with compare := some (.ofHalves low high) }
  halt p := { p with halted := true }

end ScriptedPlatform

end TrapMonitor
