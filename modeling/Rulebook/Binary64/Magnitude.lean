/-!
# Magnitudes of binary64 numbers

The size of a finite binary64 number is a whole number of units of `2 ^ -1074`, the smallest
positive size. A magnitude writes that number as `mantissa * 2 ^ scale` with at most 53 mantissa
bits; a scale above zero is used only when all 53 bits are, so each size has one form. `round`
is the only way in from the rationals: to the nearest magnitude, a half to the even mantissa.
-/

namespace Rulebook

/-- The size of a finite number, in units of `2 ^ -1074`. -/
structure Magnitude where
  /-- the significant bits -/
  mantissa : Nat
  /-- how far the mantissa is shifted -/
  scale : Nat
  mantissa_lt : mantissa < Nat.pow 2 53
  scale_le : scale ≤ 2045
  normal : scale = 0 ∨ Nat.pow 2 52 ≤ mantissa
deriving DecidableEq

namespace Magnitude

/-- The magnitude zero. -/
def zero : Magnitude := ⟨0, 0, by decide, by decide, .inl rfl⟩

/-- How many units make one. -/
def unitsInOne : Nat := Nat.pow 2 1074

/-- The size as a number of units. -/
def units (m : Magnitude) : Nat := m.mantissa * Nat.pow 2 m.scale

/-- The magnitude with the given mantissa and scale, if the format has it. -/
def make? (mantissa scale : Nat) : Option Magnitude :=
  if h : mantissa < Nat.pow 2 53 ∧ scale ≤ 2045 ∧ (scale = 0 ∨ Nat.pow 2 52 ≤ mantissa) then
    some ⟨mantissa, scale, h.1, h.2.1, h.2.2⟩
  else none

/-- The whole number nearest to `a / b`; a half goes to the even neighbour. -/
def nearest (a b : Nat) : Nat :=
  let below := a / b
  let twice := 2 * (a % b)
  if b < twice || (b == twice && below % 2 == 1) then below + 1 else below

/-- The magnitude nearest to `a / b` units, or `none` if that is beyond the largest one. The
mantissa is what is left of the quotient at the scale that keeps 53 bits; when rounding carries
into a 54th bit the mantissa halves and the scale grows by one. -/
def round (a b : Nat) : Option Magnitude :=
  let scale := (a / b).log2 - 52
  let mantissa := nearest a (b * Nat.pow 2 scale)
  if mantissa = Nat.pow 2 53 then make? (Nat.pow 2 52) (scale + 1) else make? mantissa scale

theorem make?_self (m : Magnitude) : make? m.mantissa m.scale = some m :=
  dif_pos ⟨m.mantissa_lt, m.scale_le, m.normal⟩

theorem eq_of_make? {mantissa scale : Nat} {m : Magnitude} (h : make? mantissa scale = some m) :
    m.mantissa = mantissa ∧ m.scale = scale := by
  unfold make? at h
  split at h
  · cases h; exact ⟨rfl, rfl⟩
  · cases h

end Magnitude

end Rulebook
