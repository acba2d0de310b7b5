import Animatronic.Rounding

/-!
# Decimal text with fixed places

`Decimal.fixed` writes a quotient of naturals with a given number of digits after the point.  The
text denotes the quotient rounded once, exactly, with a tie going to the even last digit.
-/

namespace Animatronic

namespace Decimal

/-- The decimal digits of `n`, with zeros in front up to `width` of them. -/
def padded (width n : Nat) : List Char :=
  List.leftpad width '0' (Nat.toDigits 10 n)

/-- `num / den` in decimal with `places` digits after the point, for positive `places`. -/
def fixed (places num den : Nat) : List Char :=
  let scale := Nat.pow 10 places
  let scaled := roundDiv (num * scale) den
  Nat.toDigits 10 (scaled / scale) ++ '.' :: padded places (scaled % scale)

end Decimal

end Animatronic
