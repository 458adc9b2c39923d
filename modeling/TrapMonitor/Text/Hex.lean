/-! # Hexadecimal numerals

Lower case digits behind `0x`, either as few as the number needs or padded with zeros to a
width.
-/
namespace TrapMonitor.Text

def hexDigits (n : Nat) : List Char := Nat.toDigits 16 n

/-- The shortest numeral: `0x0`, `0x1f`. -/
def hex (n : Nat) : String := "0x" ++ String.ofList (hexDigits n)

/-- A numeral of at least `width` digits behind the `0x`. -/
def hexPadded (width n : Nat) : String :=
  let digits := hexDigits n
  "0x" ++ String.ofList (List.replicate (width - digits.length) '0' ++ digits)

end TrapMonitor.Text
