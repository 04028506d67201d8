import Rulebook.Binary64.Decimal

/-!
# How numbers of documents are read

A reader of documents does not look for the number nearest to the decimal that stands in the text.
It takes in digits as long as they fit 64 bits, rounds what they say to a number, and multiplies
or divides that number by a power of ten, which is rounded itself. Where one of these steps is not
exact, the number that comes out may be a neighbour of the nearest one: `6e46` is six times the
number nearest to `10 ^ 46`, which is not the number nearest to the product.
-/

namespace Rulebook

namespace Magnitude

/-- The magnitude nearest to a whole number, or `none` if that is beyond the largest one. -/
def ofNat? (n : Nat) : Option Magnitude := round (n * unitsInOne) 1

/-- The magnitude nearest to a product. -/
def times? (a b : Magnitude) : Option Magnitude := round (a.units * b.units) unitsInOne

/-- The magnitude nearest to a quotient. -/
def dividedBy? (a b : Magnitude) : Option Magnitude := round (a.units * unitsInOne) b.units

end Magnitude

namespace Decimal

/-- The number that digits write behind one that has been read. -/
def followedBy (n : Nat) (c : Char) : Nat := 10 * n + (c.toNat - '0'.toNat)

/-- The largest number of digits that are taken in. -/
def maxDigits : Nat := Nat.pow 2 64 - 1

/-- Takes in the digits before the point. From the first one on that does not fit, each is only
worth a power of ten. -/
def takeWhole (n : Nat) : List Char → Decimal
  | [] => ⟨n, 0⟩
  | c :: rest =>
    if followedBy n c ≤ maxDigits then takeWhole (followedBy n c) rest
    else ⟨n, (c :: rest).length⟩

/-- Takes in the digits behind the point. From the first one on that does not fit, they are worth
nothing. -/
def takeFraction (d : Decimal) : List Char → Decimal
  | [] => d
  | c :: rest =>
    if followedBy d.digits c ≤ maxDigits then
      takeFraction ⟨followedBy d.digits c, d.exponent - 1⟩ rest
    else d

/-- The largest exponent whose power of ten is a number. -/
def maxExponent : Nat := 308

/-- The magnitude nearest to a power of ten. -/
def power? (exponent : Nat) : Option Magnitude := Magnitude.ofNat? (Nat.pow 10 exponent)

/-- A magnitude with the point so many places further left. One division reaches as far as there
are powers of ten; what is further away is divided again, unless nothing is left of it. -/
def lowered? (m : Magnitude) (places : Nat) : Option Magnitude :=
  if places ≤ maxExponent then do m.dividedBy? (← power? places)
  else if m = .zero then some m
  else do
    let lower ← m.dividedBy? (← power? maxExponent)
    lowered? lower (places - maxExponent)
termination_by places
decreasing_by
  have : 0 < maxExponent := by decide
  omega

/-- A magnitude with the point so many places further right. -/
def raised? (m : Magnitude) (places : Nat) : Option Magnitude :=
  if places ≤ maxExponent then do m.times? (← power? places)
  else if m = .zero then some m
  else none

/-- The magnitude that a decimal is read as, or `none` if that is beyond the largest one. -/
def reading? (d : Decimal) : Option Magnitude := do
  let m ← Magnitude.ofNat? d.digits
  if 0 ≤ d.exponent then raised? m d.exponent.toNat else lowered? m (-d.exponent).toNat

end Decimal

end Rulebook
