import Rulebook.Binary64.Basic

/-!
# Decimal notation

A decimal is a whole number of powers of ten. `Binary64.ofDecimal` rounds one to the nearest
binary64 number, and `Binary64.read?` reads the notation: a sign, digits with at most one point
among or beside them, and an exponent, or one of the words for the infinities and for what is
not a number.
-/

namespace Rulebook

/-- The value `digits * 10 ^ exponent`. -/
structure Decimal where
  digits : Nat
  exponent : Int
deriving DecidableEq, Repr

namespace Decimal

/-- The ten digits. -/
def isDigit (c : Char) : Bool := '0' ≤ c && c ≤ '9'

/-- The number that a run of digits writes. -/
def ofDigits (cs : List Char) : Nat :=
  cs.foldl (fun n c => 10 * n + (c.toNat - '0'.toNat)) 0

/-- The digits of a number, without leading zeros. -/
def toDigits (n : Nat) : List Char := Nat.toDigits 10 n

/-- The decimal with the same value whose last digit is not zero. -/
def trim (d : Decimal) : Decimal :=
  if d.digits = 0 then ⟨0, 0⟩
  else
    let zeros := ((toDigits d.digits).reverse.takeWhile (· == '0')).length
    ⟨d.digits / Nat.pow 10 zeros, d.exponent + zeros⟩

/-- Positional notation, with a point only if there is a fraction. -/
def positional (d : Decimal) : List Char :=
  let digits := toDigits d.digits
  if 0 ≤ d.exponent then digits ++ List.replicate d.exponent.toNat '0'
  else
    let places := (-d.exponent).toNat
    if places < digits.length then
      digits.take (digits.length - places) ++ '.' :: digits.drop (digits.length - places)
    else '0' :: '.' :: List.replicate (places - digits.length) '0' ++ digits

end Decimal

namespace Binary64

/-- The number nearest to a decimal. A decimal above `10 ^ 400` is infinite and one below half a
unit is zero whatever its digits are, so neither power is computed. -/
def ofDecimal (negative : Bool) (d : Decimal) : Binary64 :=
  if d.digits = 0 then .finite negative .zero
  else if 0 ≤ d.exponent then
    if 400 < d.exponent then .infinite negative
    else ofRatio negative (d.digits * Nat.pow 10 d.exponent.toNat) 1
  else
    let places := (-d.exponent).toNat
    if d.digits.log2 + 1076 ≤ 3 * places then .finite negative .zero
    else ofRatio negative d.digits (Nat.pow 10 places)

/-- The exponent part of the notation: `e` or `E`, a sign and digits, with nothing after them. An
absent part is the exponent zero. -/
def readExponent? : List Char → Option Int
  | [] => some 0
  | e :: rest =>
    if e == 'e' || e == 'E' then
      let (negative, digits) : Bool × List Char := match rest with
        | '-' :: ds => (true, ds)
        | '+' :: ds => (false, ds)
        | ds => (false, ds)
      if digits.isEmpty || !digits.all Decimal.isDigit then none
      else
        let n : Int := Decimal.ofDigits digits
        some (if negative then -n else n)
    else none

/-- The unsigned notation: whole digits, a point, fraction digits and an exponent part. At least
one digit stands beside the point. -/
def readDecimal? (cs : List Char) : Option Decimal :=
  let whole := cs.takeWhile Decimal.isDigit
  let rest := cs.dropWhile Decimal.isDigit
  let (fraction, rest) : List Char × List Char := match rest with
    | '.' :: rest => (rest.takeWhile Decimal.isDigit, rest.dropWhile Decimal.isDigit)
    | rest => ([], rest)
  if whole.isEmpty && fraction.isEmpty then none
  else (readExponent? rest).map fun exponent =>
    ⟨Decimal.ofDigits (whole ++ fraction), exponent - fraction.length⟩

/-- The unsigned notation of any number; words are read without regard to case. -/
def readUnsigned? (negative : Bool) (cs : List Char) : Option Binary64 :=
  match readDecimal? cs with
  | some d => some (ofDecimal negative d)
  | none =>
    let word := cs.map Char.toLower
    if word == "inf".toList || word == "infinity".toList then some (.infinite negative)
    else if word == "nan".toList then some .nan
    else none

/-- Reads a whole text as a number. -/
def read? (text : String) : Option Binary64 :=
  match text.toList with
  | '-' :: cs => readUnsigned? true cs
  | '+' :: cs => readUnsigned? false cs
  | cs => readUnsigned? false cs

end Binary64

end Rulebook
