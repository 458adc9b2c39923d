/-! # Started on a host

The monitor runs on a core of its own; started anywhere else, it says so and fails.
-/
namespace TrapMonitor.Host

def message : String :=
  "the emulator firmware only runs on a VexRiscv, build it for riscv32ima-unknown-none-elf"

def status : UInt32 := 1

end TrapMonitor.Host
