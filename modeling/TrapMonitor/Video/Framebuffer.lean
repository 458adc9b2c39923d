import TrapMonitor.Bus.SplitRegister
import TrapMonitor.Log
import TrapMonitor.Text.Hex
import TrapMonitor.Video.Clock
import TrapMonitor.Video.Timing

/-! # Programming a video mode

Two devices take part: the clock manager, which is given one word after the other and says
when it is ready for the next, and the initiator, which fetches pixels. The initiator is off
while its base and length change.
-/
namespace TrapMonitor

structure Framebuffer (M I : Type) where
  manager : M
  initiator : I
  log : List Record

namespace Framebuffer

namespace Manager

def strobe : SplitRegister := ⟨2, 1⟩
def ready : SplitRegister := ⟨3, 1⟩
def address : SplitRegister := ⟨4, 1⟩
def data : SplitRegister := ⟨5, 2⟩

/-- How many words the clock manager has. -/
def size : Nat := 9

end Manager

namespace Initiator

def enable : SplitRegister := ⟨0, 1⟩
def hRes : SplitRegister := ⟨1, 2⟩
def hSyncStart : SplitRegister := ⟨3, 2⟩
def hSyncEnd : SplitRegister := ⟨5, 2⟩
def hScan : SplitRegister := ⟨7, 2⟩
def vRes : SplitRegister := ⟨9, 2⟩
def vSyncStart : SplitRegister := ⟨11, 2⟩
def vSyncEnd : SplitRegister := ⟨13, 2⟩
def vScan : SplitRegister := ⟨15, 2⟩
def base : SplitRegister := ⟨17, 4⟩
def length : SplitRegister := ⟨21, 4⟩

/-- How many words the initiator has. -/
def size : Nat := 25

end Initiator

/-- Where the devices are on the bus, and where the pixels are in memory. -/
def managerBase : Word := 0xf0009000
def initiatorBase : Word := 0xf0009800
def pixelBase : Word := 0x10000000

variable {M I α : Type} [Bus M] [Bus I]

abbrev Setup (M I α : Type) := EStateM Abort (Framebuffer M I) α

omit [Bus M] [Bus I] in
def checked (x : Except Abort α) : Setup M I α := fun f =>
  match x with
  | .ok v => .ok v f
  | .error e => .error e f

omit [Bus M] [Bus I] in
def record (level : Level) (message : String) : Setup M I Unit := fun f =>
  .ok () { f with log := f.log ++ [⟨level, "litex_framebuffer", message⟩] }

omit [Bus I] in
def onManager (x : StateM M α) : Setup M I α := fun f =>
  let r := x f.manager
  .ok r.1 { f with manager := r.2 }

omit [Bus M] in
def setInitiator (r : SplitRegister) (v : Word) : Setup M I Unit := fun f =>
  .ok () { f with initiator := (r.write (v.setWidth 64) f.initiator).2 }

/-- Gives the clock manager one word and waits until it has taken it. -/
def writeManager (w : Byte × Half) : StateM M Bool := do
  Manager.address.write (w.1.setWidth 64)
  Manager.data.write (w.2.setWidth 64)
  Manager.strobe.write 1
  Manager.ready.await (· != 0)

def programWord (w : Byte × Half) : Setup M I Unit := do
  let ready ← onManager (writeManager w)
  checked (if ready then .ok () else .error .neverReady)

def setSum (r : SplitRegister) (a b : Word) : Setup M I Unit := do
  let v ← checked (Checked.add a b)
  setInitiator r v

def setSum₃ (r : SplitRegister) (a b c : Word) : Setup M I Unit := do
  let v ← checked (Checked.add a b)
  setSum r v c

def announcement (t : VideoTiming) (rate : Word) : String :=
  "Initializing framebuffer console to " ++ toString t.hActive.toNat ++ "x" ++
    toString t.vActive.toNat ++ " @ " ++ toString rate.toNat ++ "Hz"

/-- Programs the pixel clock of a mode. -/
def programClock (t : VideoTiming) : Setup M I Unit := do
  let frequency ← checked (Checked.mul 10 t.pixelClock)
  let r := Clock.search frequency.toNat
  record .debug ("pixel clock multiplier " ++ toString r.m ++ " divider " ++ toString r.d)
  (Clock.words (BitVec.ofNat 32 r.m) (BitVec.ofNat 32 r.d)).forM programWord

/-- Programs lengths and sync pulses of a mode. -/
def programTiming (t : VideoTiming) : Setup M I Unit := do
  setInitiator Initiator.hRes t.hActive
  setInitiator Initiator.vRes t.vActive
  setSum Initiator.hSyncStart t.hActive t.hSyncOffset
  setSum₃ Initiator.hSyncEnd t.hActive t.hSyncOffset t.hSyncWidth
  setSum Initiator.hScan t.hActive t.hBlanking
  setSum Initiator.vSyncStart t.vActive t.vSyncOffset
  setSum₃ Initiator.vSyncEnd t.vActive t.vSyncOffset t.vSyncWidth
  setSum Initiator.vScan t.vActive t.vBlanking

/-- Programs a mode with its pixels at `pixels` and starts fetching. -/
def configure (t : VideoTiming) (pixels : Word) : Setup M I Unit := do
  let rate ← checked t.refreshRate
  record .info (announcement t rate)
  programClock t
  programTiming t
  setInitiator Initiator.enable 0
  setInitiator Initiator.base pixels
  let size ← checked t.frameSize
  setInitiator Initiator.length size
  setInitiator Initiator.enable 1

end Framebuffer

end TrapMonitor
