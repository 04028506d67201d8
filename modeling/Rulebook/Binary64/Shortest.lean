import Rulebook.Binary64.Decimal

/-!
# The shortest decimal of a number

Among the decimals that read back as a given magnitude, `shortest` finds one with the fewest
digits, and of those the one nearest to the magnitude. It asks for one digit, then two, up to
seventeen; on each grid only the two neighbours of the value can be nearest, and each is tested
by reading it back. The exact decimal expansion stands behind the search, so the result reads
back whatever the search finds.
-/

namespace Rulebook

/-- Which neighbour is taken when a value lies halfway between two decimals that read back. -/
inductive Tie where
  /-- the one with the even last digit -/
  | toEven
  /-- the larger one -/
  | up
deriving DecidableEq

namespace Decimal

/-- Holds when a decimal reads back as the magnitude. -/
def readsAs (m : Magnitude) (d : Decimal) : Bool :=
  Binary64.ofDecimal false d == .finite false m

/-- The exponent of the leading digit: the value is at least `10 ^ leading m`, and below ten times
that. The value is scaled by `10 ^ 400` first, which makes its whole part hold that digit. -/
def leading (m : Magnitude) : Int :=
  ((toDigits (m.units * Nat.pow 10 400 / Magnitude.unitsInOne)).length : Int) - 401

/-- Of the two neighbours of a magnitude among the multiples of `10 ^ exponent`, the nearer one
that reads back. -/
def onGrid? (tie : Tie) (m : Magnitude) (exponent : Int) : Option Decimal :=
  let (a, b) : Nat × Nat :=
    if 0 ≤ exponent then (m.units, Magnitude.unitsInOne * Nat.pow 10 exponent.toNat)
    else (m.units * Nat.pow 10 (-exponent).toNat, Magnitude.unitsInOne)
  let below : Decimal := ⟨a / b, exponent⟩
  let above : Decimal := ⟨a / b + 1, exponent⟩
  let rest := 2 * (a % b)
  match readsAs m below, readsAs m above with
  | true, true =>
    if rest < b then some below
    else if b < rest then some above
    else match tie with
      | .toEven => some (if a / b % 2 = 0 then below else above)
      | .up => some above
  | true, false => some below
  | false, true => some above
  | false, false => none

/-- The exact decimal expansion of a magnitude. -/
def exact (m : Magnitude) : Decimal := ⟨m.units * Nat.pow 5 1074, -1074⟩

/-- The shortest decimal that reads back as a magnitude. -/
def shortest (tie : Tie) (m : Magnitude) : Decimal :=
  if m.mantissa = 0 then ⟨0, 0⟩
  else
    let top := leading m
    (((List.range 17).findSome? fun n => onGrid? tie m (top - Int.ofNat n)).getD (exact m)).trim

end Decimal

namespace Binary64

/-- Positional text of a number with the fewest digits that read back; a half between two such
goes up. The sign of a zero is kept. -/
def positional : Binary64 → String
  | .finite negative m =>
    let text := String.ofList (Decimal.shortest .up m).positional
    if negative then "-" ++ text else text
  | .infinite negative => if negative then "-inf" else "inf"
  | .nan => "NaN"

end Binary64

end Rulebook
