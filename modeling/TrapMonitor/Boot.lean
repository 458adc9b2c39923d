import TrapMonitor.Boot.DeviceTree
import TrapMonitor.Boot.Sections
import TrapMonitor.Core.Launch
import TrapMonitor.Platform.Soc
import TrapMonitor.Video.Framebuffer

/-! # The boot sequence

After reset: sections, log, banner, video mode if the firmware is built for one, a look at the
device tree, and the launch of the supervisor. A device tree that is not valid is only worth a
warning. Records are written to the console as they come. A panic is reported there too, and halts
the machine.
-/
namespace TrapMonitor

/-- A core with all devices that take part in booting, and the logger that is in place. -/
structure BootBoard (U T F M I : Type) where
  core : Core
  platform : SocPlatform U T F
  manager : M
  initiator : I
  logger : Option Logger := none

namespace Boot

/-- What the firmware is built from and with. -/
structure Build (Tree Fault : Type) where
  library : TreeLibrary Tree Fault
  /-- Whether a video mode is set. -/
  framebuffer : Bool
  /-- What a panic says of itself, the place in the source among it. -/
  report : Abort → String

/-- Why the boot sequence does not come to its end. -/
inductive Stop where
  /-- Another logger is in place, and the machine was halted. -/
  | refused
  /-- The panic was reported, and the machine halted. -/
  | panicked (why : Abort)
  /-- A device that never becomes ready is still waited for. -/
  | waiting
  deriving DecidableEq

variable {Tree Fault U T F M I α : Type} [Bus U] [Bus T] [Bus F] [Bus M] [Bus I]

abbrev Booting (U T F M I α : Type) := EStateM Stop (BootBoard U T F M I) α

/-- The log of the running system. -/
def logger : Logger := ⟨.info⟩

def banner : List String :=
  ["VexRiscv machine mode emulator v0.1.0",
    "--========== \x1b[1mBooting Linux\x1b[0m =============--"]

omit [Bus M] [Bus I] in
/-- A record goes to the console if a logger is in place that lets it through. -/
def emit (b : BootBoard U T F M I) (r : Record) : BootBoard U T F M I :=
  match b.logger with
  | none => b
  | some l => { b with platform := l.emit Platform.write r b.platform }

omit [Bus M] [Bus I] in
/-- Nothing follows a byte that the console never takes. -/
def proceed : Booting U T F M I Unit := fun b =>
  if Platform.waits b.platform then .error .waiting b else .ok () b

omit [Bus M] [Bus I] in
def sayAll (rs : List Record) : Booting U T F M I Unit := fun b => proceed (rs.foldl emit b)

omit [Bus M] [Bus I] in
def say (level : Level) (message : String) : Booting U T F M I Unit :=
  sayAll [⟨level, "emulator::firmware", message⟩]

omit [Bus M] [Bus I] in
def halt (why : Stop) : Booting U T F M I α := fun b =>
  .error why { b with platform := Platform.halt b.platform }

omit [Bus M] [Bus I] in
/-- A device that never becomes ready is waited for; everything else is reported. -/
def abort (build : Build Tree Fault) (why : Abort) : Booting U T F M I α :=
  match why with
  | .neverReady => fun b => .error .waiting b
  | why => do
    say .error ("!!! Firmware Panic !!!\n  " ++ build.report why)
    halt (.panicked why)

omit [Bus U] [Bus T] [Bus F] [Bus M] [Bus I] in
def onCore (f : Core → Core) : Booting U T F M I Unit := fun b =>
  .ok () { b with core := f b.core }

omit [Bus M] [Bus I] in
def checked (build : Build Tree Fault) : Except Abort α → Booting U T F M I α
  | .ok v => pure v
  | .error why => abort build why

omit [Bus M] [Bus I] in
/-- The first thing that can go wrong is that there is a logger already. -/
def installLogger : Booting U T F M I Unit := fun b =>
  match logger.install b.logger with
  | .ok l => .ok () { b with logger := some l }
  | .error _ => halt .refused b

omit [Bus M] [Bus I] in
def takeVideo (f : Framebuffer M I) : Booting U T F M I Unit := fun b =>
  sayAll f.log { b with manager := f.manager, initiator := f.initiator }

def configureVideo (build : Build Tree Fault) : Booting U T F M I Unit := fun b =>
  match Framebuffer.configure VideoTiming.vga75 Framebuffer.pixelBase
      ⟨b.manager, b.initiator, []⟩ with
  | .ok () f => takeVideo f b
  | .error why f => (do takeVideo f; abort build why : Booting U T F M I Unit) b

def treeAddress : String := Text.hexPadded 8 BootPlan.deviceTreeBase.toNat

omit [Bus M] [Bus I] in
def inspectTree (build : Build Tree Fault) : Booting U T F M I Unit := fun b =>
  match DeviceTree.size build.library b.core.memory.bytes BootPlan.deviceTreeBase with
  | .ok (.ok size) => say .info
      ("device tree at " ++ treeAddress ++ " (" ++ toString size.toNat ++ " bytes)") b
  | .ok (.error e) => say .warn
      ("no valid device tree at " ++ treeAddress ++ ": " ++ build.library.message e) b
  | .error why => abort build why b

omit [Bus M] [Bus I] in
def launch (build : Build Tree Fault) : Booting U T F M I Unit := do
  let plan ← checked build (BootPlan.make Core.trapEntry Core.stackTop BootPlan.imageBase)
  say .debug ("entering the supervisor with " ++ plan.report.block)
  onCore Core.openPmp
  onCore (Core.apply plan)
  onCore (Core.enterSupervisor BootPlan.deviceTreeBase)

/-- Everything from the end of the reset code to the first instruction of the supervisor. -/
def boot (build : Build Tree Fault) (sections : Sections) : Booting U T F M I Unit := do
  onCore fun c => c.setRam (sections.setUp c.ram)
  installLogger
  banner.forM (say .info)
  if build.framebuffer then configureVideo build
  inspectTree build
  launch build

end Boot

end TrapMonitor
