/-! Numbers with a point or an exponent are held as the nearest binary fraction of 53
significant bits, kept exactly as sign, mantissa and power of two. -/
namespace LedgerScript.Decimal

/-- The number `mantissa * 2 ^ exponent`, negated if `negative`. Zero keeps its sign. -/
structure Binary where
  negative : Bool
  mantissa : Nat
  exponent : Int
deriving DecidableEq, Repr

def pow2 (e : Int) : Nat := Nat.pow 2 e.toNat

def pow10 (e : Int) : Nat := Nat.pow 10 e.toNat

/-- The quotient to the nearest whole number, a half to the even neighbour. -/
def roundDiv (num den : Nat) : Nat :=
  let q := num / den
  let r := num % den
  if 2 * r < den then q
  else if den < 2 * r then q + 1
  else if q % 2 = 0 then q else q + 1

namespace Binary

def leastExponent : Int := -1074

def greatestExponent : Int := 971

/-- The whole power of two at or below `num / den`. -/
def floorLog (num den : Nat) : Int :=
  let e := Int.ofNat num.log2 - Int.ofNat den.log2
  if den * pow2 e ≤ num * pow2 (-e) then e else e - 1

def unitExponent (num den : Nat) : Int :=
  let q := floorLog num den - 52
  if q < leastExponent then leastExponent else q

def nearest? (negative : Bool) (num den : Nat) : Option Binary :=
  let q := unitExponent num den
  let m := roundDiv (num * pow2 (-q)) (den * pow2 q)
  let (m, q) := if m = pow2 53 then (pow2 52, q + 1) else (m, q)
  if q ≤ greatestExponent then some ⟨negative, m, q⟩ else none

/-- The binary fraction nearest to `digits * 10 ^ scale`. A scale far outside the range
settles the answer before any power is computed. -/
def ofDecimal? (negative : Bool) (digits : Nat) (scale : Int) : Option Binary :=
  if digits = 0 ∨ scale + Int.ofNat digits.log2 < -400 then some ⟨negative, 0, 0⟩
  else if 400 < scale then none
  else nearest? negative (digits * pow10 scale) (pow10 (-scale))

def ofRatio (num den : Nat) : Binary := (nearest? false num den).getD ⟨false, 0, 0⟩

/-- The value is `numerator / denominator`. -/
def numerator (x : Binary) : Int :=
  let n := Int.ofNat (x.mantissa * pow2 x.exponent)
  if x.negative then -n else n

def denominator (x : Binary) : Nat := pow2 (-x.exponent)

def floor (x : Binary) : Int := Int.fdiv x.numerator (Int.ofNat x.denominator)

def fraction (x : Binary) : Binary :=
  ofRatio (Int.fmod x.numerator (Int.ofNat x.denominator)).toNat x.denominator

/-- The value times a whole number, rounded to a binary fraction and then to a whole
number, a half upwards. For values that are not negative. -/
def scaled (x : Binary) (factor : Nat) : Nat :=
  let y := ofRatio (x.mantissa * pow2 x.exponent * factor) x.denominator
  (2 * (y.mantissa * pow2 y.exponent) + y.denominator) / (2 * y.denominator)

def exceeds (x : Binary) (n : Nat) : Bool := n * x.denominator < x.numerator.natAbs

def toInt? (x : Binary) : Option Int :=
  let den := pow2 (-x.exponent)
  if x.mantissa % den = 0 then
    let n := Int.ofNat (x.mantissa * pow2 x.exponent / den)
    some (if x.negative then -n else n)
  else none

end Binary
end LedgerScript.Decimal
