/-
  Decimal numerals.
-/

namespace Transclusion.Text

/-- The decimal digits of `n`, the first of them not zero unless it is the only one. -/
def numeral (n : Nat) : String := String.ofList (Nat.toDigits 10 n)

/-- The number that decimal digits stand for; nothing when there is no digit, or anything else. -/
def readNumeral? (digits : List Char) : Option Nat :=
  if digits.isEmpty || !digits.all Char.isDigit then none
  else some (digits.foldl (fun n c => 10 * n + (c.toNat - '0'.toNat)) 0)

end Transclusion.Text
