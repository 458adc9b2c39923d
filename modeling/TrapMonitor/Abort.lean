/-! # Why a run stops in the middle

A run stops when checked arithmetic has no result, when a device tree ends inside its
header, and when a device never becomes ready.
-/
namespace TrapMonitor

inductive Abort where
  | addOverflow
  | subOverflow
  | mulOverflow
  | divisionByZero
  | shiftOverflow
  | truncatedTree
  | neverReady
  deriving DecidableEq

namespace Abort

def message : Abort → String
  | addOverflow => "attempt to add with overflow"
  | subOverflow => "attempt to subtract with overflow"
  | mulOverflow => "attempt to multiply with overflow"
  | divisionByZero => "attempt to divide by zero"
  | shiftOverflow => "attempt to shift right with overflow"
  | truncatedTree => "called `Result::unwrap()` on an `Err` value: UnexpectedEndOfInput"
  | neverReady => "the device never becomes ready"

end Abort

end TrapMonitor
