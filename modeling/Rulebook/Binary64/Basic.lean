import Rulebook.Binary64.Magnitude

/-!
# Binary64 numbers

A number has a sign and a magnitude, or is one of the two infinities, or is not a number. The
two zeros differ as data and are equal as numbers: order and equality look only at the position
on the number line, and a value that is not a number has none.
-/

namespace Rulebook

/-- A binary64 number. -/
inductive Binary64 where
  /-- a finite number; the flag holds for a minus sign -/
  | finite (negative : Bool) (magnitude : Magnitude)
  /-- an infinity; the flag holds for a minus sign -/
  | infinite (negative : Bool)
  /-- not a number -/
  | nan
deriving DecidableEq

namespace Binary64

/-- Zero without a sign. -/
def zero : Binary64 := .finite false .zero

/-- Holds for numbers that are neither infinite nor missing. -/
def isFinite : Binary64 → Bool
  | .finite .. => true
  | _ => false

/-- The position of a finite number, in units of `2 ^ -1074`. -/
def position (negative : Bool) (magnitude : Magnitude) : Int :=
  if negative then -(magnitude.units : Int) else magnitude.units

/-- The order of two numbers; `none` when one of them is not a number. -/
def compare? : Binary64 → Binary64 → Option Ordering
  | .nan, _ => none
  | _, .nan => none
  | .finite s m, .finite t n => some (compare (position s m) (position t n))
  | .finite .., .infinite negative => some (if negative then .gt else .lt)
  | .infinite negative, .finite .. => some (if negative then .lt else .gt)
  | .infinite s, .infinite t => some (if s == t then .eq else if s then .lt else .gt)

/-- Equality of numbers: the two zeros are equal and what is not a number equals nothing. -/
def same (x y : Binary64) : Bool := x.compare? y == some .eq

/-- The number nearest to `a / b` with the given sign; a quotient beyond the largest magnitude
gives an infinity. -/
def ofRatio (negative : Bool) (a b : Nat) : Binary64 :=
  (Magnitude.round (a * Magnitude.unitsInOne) b).elim (.infinite negative) (.finite negative)

/-- The number nearest to an integer. -/
def ofInt (n : Int) : Binary64 := ofRatio (n < 0) n.natAbs 1

/-- The integer that a number is, if it is one. -/
def integer? : Binary64 → Option Int
  | .finite negative m =>
    if m.units % Magnitude.unitsInOne = 0 then some (position negative m / Magnitude.unitsInOne)
    else none
  | _ => none

end Binary64

end Rulebook
