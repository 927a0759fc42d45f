/-!
# Hexadecimal numbers

Numbers in base sixteen, with lower-case digits.
-/
namespace PrismTree.Text

/-- The hexadecimal digits of a number, without leading zeros. -/
def hexadecimal (n : Nat) : String :=
  String.ofList (Nat.toDigits 16 n)

/-- The hexadecimal digits of a number, with zeros in front up to a width. -/
def paddedHexadecimal (width n : Nat) : String :=
  let digits := Nat.toDigits 16 n
  String.ofList (List.replicate (width - digits.length) '0' ++ digits)

end PrismTree.Text
