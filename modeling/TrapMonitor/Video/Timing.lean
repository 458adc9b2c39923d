import TrapMonitor.Checked

/-! # Video timings

The pixel clock of a mode and its lengths in pixels and lines. Derived numbers are checked:
one that does not fit into a word is refused.
-/
namespace TrapMonitor

structure VideoTiming where
  /-- In tens of kilohertz. -/
  pixelClock : Word
  hActive : Word
  hBlanking : Word
  hSyncOffset : Word
  hSyncWidth : Word
  vActive : Word
  vBlanking : Word
  vSyncOffset : Word
  vSyncWidth : Word
  deriving DecidableEq

namespace VideoTiming

/-- 640 by 480 pixels, 75 times a second. -/
def vga75 : VideoTiming := ⟨3150, 640, 200, 16, 64, 480, 20, 1, 3⟩

/-- Frames per second, rounded down. -/
def refreshRate (t : VideoTiming) : Except Abort Word := do
  let clock ← Checked.mul t.pixelClock 10000
  let width ← Checked.add t.hActive t.hBlanking
  let height ← Checked.add t.vActive t.vBlanking
  let area ← Checked.mul width height
  Checked.div clock area

/-- Bytes in memory of one frame, at four a pixel. -/
def frameSize (t : VideoTiming) : Except Abort Word := do
  let area ← Checked.mul t.hActive t.vActive
  Checked.mul area 4

end VideoTiming

end TrapMonitor
