import TrapMonitor.Word
import TrapMonitor.Text.Report

/-! # Words whose bits have names

A flag set names some masks of a word. Its text lists the flags all of whose bits are set,
in the order of the set, and then what is left over as a number; a word with no bit set is
written `0x0`.
-/
namespace TrapMonitor.Text

structure Flag where
  name : String
  mask : Word

structure FlagSet where
  name : String
  flags : List Flag

namespace FlagSet

/-- All bits that have a name. -/
def all (s : FlagSet) : Word := s.flags.foldl (fun acc f => acc ||| f.mask) 0

/-- The flags that are wholly contained in `bits`. -/
def present (s : FlagSet) (bits : Word) : List Flag :=
  s.flags.filter fun f => bits &&& f.mask == f.mask

/-- The bits that belong to none of the present flags. -/
def rest (s : FlagSet) (bits : Word) : Word :=
  (s.present bits).foldl (fun acc f => acc &&& ~~~f.mask) bits

def inside (s : FlagSet) (bits : Word) : String :=
  let names := (s.present bits).map Flag.name
  let rest := s.rest bits
  let extra := if rest = 0 then [] else [hex rest.toNat]
  if bits = 0 then hex 0 else String.intercalate " | " (names ++ extra)

/-- The value as a field of a report. -/
def item (s : FlagSet) (bits : Word) : Item := .wrapped s.name (.atom (s.inside bits))

end FlagSet

end TrapMonitor.Text
