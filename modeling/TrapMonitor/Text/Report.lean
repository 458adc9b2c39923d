import TrapMonitor.Text.Hex

/-! # Reports of record values

A report is a named list of fields. It has two written forms: on one line with decimal
numbers, and as an indented block with hexadecimal numbers and a comma after every item.
-/
namespace TrapMonitor.Text

/-- A field's value: a number, a word written as it is, or a named wrapper around another value.
-/
inductive Item where
  | number (n : Nat)
  | atom (text : String)
  | wrapped (name : String) (inner : Item)

structure Report where
  name : String
  fields : List (String × Item)

namespace Item

def line : Item → String
  | number n => toString n
  | atom text => text
  | wrapped name inner => name ++ "(" ++ inner.line ++ ")"

def margin (depth : Nat) : String := String.ofList (List.replicate (4 * depth) ' ')

/-- The block form of a value whose first line stands at nesting depth `depth`. -/
def block (depth : Nat) : Item → String
  | number n => hex n
  | atom text => text
  | wrapped name inner =>
    name ++ "(\n" ++ margin (depth + 1) ++ inner.block (depth + 1) ++ ",\n" ++ margin depth ++ ")"

end Item

namespace Report

def line (r : Report) : String :=
  r.name ++ " \x7b " ++
    String.intercalate ", " (r.fields.map fun f => f.1 ++ ": " ++ f.2.line) ++ " \x7d"

def block (r : Report) : String :=
  r.name ++ " \x7b\n" ++
    String.join (r.fields.map fun f => Item.margin 1 ++ f.1 ++ ": " ++ f.2.block 1 ++ ",\n") ++
    "\x7d"

end Report

end TrapMonitor.Text
