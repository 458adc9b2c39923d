import TrapMonitor.Boot
import TrapMonitor.Bus.Cell
import TrapMonitor.Bus.PolledBlock
import TrapMonitor.Core.Entry
import TrapMonitor.Device.FifoUart
import TrapMonitor.Hart.Flat
import TrapMonitor.Main
import TrapMonitor.Platform.Scripted
import TrapMonitor.Platform.Simulator
import TrapMonitor.Proofs.Boot.Sequence
import TrapMonitor.Proofs.Core.Attempt
import TrapMonitor.Proofs.Core.Confinement
import TrapMonitor.Proofs.Core.Context
import TrapMonitor.Proofs.Core.History
import TrapMonitor.Proofs.Core.Launch
import TrapMonitor.Proofs.Core.Reachable
import TrapMonitor.Proofs.Core.Refinement
import TrapMonitor.Proofs.Core.Supervisor
import TrapMonitor.Proofs.Device.Latch
import TrapMonitor.Proofs.Isa.Grammar
import TrapMonitor.Proofs.Platform.Console
import TrapMonitor.Proofs.Platform.Interchange
import TrapMonitor.Proofs.Platform.Reprogramming
import TrapMonitor.Proofs.Trap.Delegation
import TrapMonitor.Proofs.Trap.Fetching
import TrapMonitor.Proofs.Trap.Halt
import TrapMonitor.Proofs.Trap.Meaning
import TrapMonitor.Proofs.Trap.Misaligned
import TrapMonitor.Proofs.Trap.Resumption
import TrapMonitor.Proofs.Trap.Sequence
import TrapMonitor.Proofs.Trap.SpareSlots
import TrapMonitor.Proofs.Trap.Timer
import TrapMonitor.Proofs.Trap.Transparency
import TrapMonitor.Proofs.Video.Dividers
import TrapMonitor.Proofs.Video.Setup
