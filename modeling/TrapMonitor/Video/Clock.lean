import TrapMonitor.Word

/-! # The pixel clock generator

A clock manager multiplies its input clock by `m` and divides it by `d`. The search takes
the pair whose ratio comes closest to the wanted frequency; of equally close pairs the one
with the smallest `d`, and among those with the smallest `m`, wins. Its words hold each
divider as a high and a low time.
-/
namespace TrapMonitor.Clock

/-- A multiplier and a divider. -/
structure Ratio where
  m : Nat
  d : Nat
  deriving DecidableEq

/-- The frequency, in units of which the ratio one is made. -/
def unit : Nat := 10000

/-- A ratio that is further from everything than any candidate. -/
def Ratio.worst : Ratio := ⟨1, 0⟩

/-- All candidates, by divider and then by multiplier. -/
def candidates : List Ratio :=
  (List.range' 1 128).flatMap fun d => (List.range' 2 127).map fun m => ⟨m, d⟩

/-- How far `r` is from `frequency / unit`, over the common denominator with `other`. -/
def distance (frequency : Nat) (r other : Ratio) : Nat :=
  ((other.d * unit * r.m : Int) - r.d * other.d * frequency).natAbs

/-- Keeps `best` unless `r` is strictly closer. -/
def closer (frequency : Nat) (best r : Ratio) : Ratio :=
  if distance frequency r best < distance frequency best r then r else best

def search (frequency : Nat) : Ratio := candidates.foldl (closer frequency) .worst

/-- A divider as a high time and a low time of six bits each, the low one the longer if they
differ. -/
def times (n : Word) : Half := ((n / 2) <<< 6 ||| (n / 2 + n % 2)).setWidth 16

/-- The divider is not used. -/
def bypass : Half := 0x1000

/-- Addresses and data that program multiplier, divider, and the two outputs. -/
def words (m d : Word) : List (Byte × Half) :=
  [(0x14, bypass ||| times m),
    (0x16, if d = 1 then bypass else times d),
    (0x08, bypass ||| times 10),
    (0x0a, bypass ||| times 2)]

end TrapMonitor.Clock
