import TrapMonitor.Host

/-! # The command line -/

def main : IO UInt32 := do
  IO.eprintln TrapMonitor.Host.message
  return TrapMonitor.Host.status
