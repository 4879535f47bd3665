import LedgerScript.Decimal.Binary
import LedgerScript.Decimal.Integer

/-! The shortest decimal text of a binary fraction: the fewest digits that still lie
nearer to it than to any other binary fraction, and the nearest such number. -/
namespace LedgerScript.Decimal

/-- The number `digits * 10 ^ scale`. -/
structure Scientific where
  digits : Nat
  scale : Int
deriving DecidableEq, Repr

namespace Binary

/-- The ends of the interval that rounds to the number, in quarters of the unit of its
mantissa. Below a power of two the neighbour is only half as far. -/
def ends (x : Binary) : Nat × Nat :=
  let lower := if x.mantissa = pow2 52 ∧ leastExponent < x.exponent then 1 else 2
  (4 * x.mantissa - lower, 4 * x.mantissa + 2)

/-- The factors that bring `a * 10 ^ scale` and `b` quarters of the unit to one scale. -/
def factors (x : Binary) (scale : Int) : Nat × Nat :=
  let e := x.exponent - 2
  (pow10 scale * pow2 (-e), pow2 e * pow10 (-scale))

/-- An end of the interval belongs to it if the mantissa is even. -/
def inside (x : Binary) (scale : Int) (d : Nat) : Bool :=
  let (p, q) := x.factors scale
  let (lo, hi) := x.ends
  if x.mantissa % 2 = 0 then lo * q ≤ d * p && d * p ≤ hi * q
  else lo * q < d * p && d * p < hi * q

/-- The one of the two neighbours on the grid of `10 ^ scale` that rounds to the number,
the nearer if both do. -/
def onGrid? (x : Binary) (scale : Int) : Option Nat :=
  let (p, q) := x.factors scale
  let v := 4 * x.mantissa * q
  let d := v / p
  match x.inside scale d, x.inside scale (d + 1) with
  | true, true =>
    let below := v - d * p
    let above := (d + 1) * p - v
    some (if below < above ∨ (below = above ∧ d % 2 = 0) then d else d + 1)
  | true, false => some d
  | false, true => some (d + 1)
  | false, false => none

def leading (x : Binary) : Int :=
  let num := x.mantissa * pow2 x.exponent
  let den := pow2 (-x.exponent)
  if den ≤ num then Int.ofNat ((Nat.toDigits 10 (num / den)).length - 1)
  else -Int.ofNat (((List.range 330).find? fun j => den ≤ num * Nat.pow 10 j).getD 330)

/-- Seventeen digits always suffice. -/
def shortest (x : Binary) : Scientific :=
  let k := x.leading
  let grid (n : Nat) : Int := k - Int.ofNat n
  match (List.range 17).findSome? fun n => (x.onGrid? (grid n)).map (⟨·, grid n⟩) with
  | some s => s
  | none => ⟨0, 0⟩

end Binary

/-- Where positional writing begins and ends, and how many digits an exponent has at least. -/
structure Layout where
  leastPositional : Int
  greatestPositional : Int
  exponentWidth : Nat

namespace Layout

/-- Positional from one ten-thousandth to below 10 ^ 16, two digits in an exponent. -/
def plain : Layout := ⟨-4, 15, 2⟩

def exponentText (l : Layout) (k : Int) : String :=
  let digits := natText k.natAbs
  (if k < 0 then "e-" else "e+") ++
    String.ofList (List.replicate (l.exponentWidth - digits.length) '0') ++ digits

/-- A digit sequence whose first digit stands for `10 ^ k`. -/
def write (l : Layout) (ds : List Char) (k : Int) : String :=
  if k < l.leastPositional ∨ l.greatestPositional < k then
    String.ofList (ds.take 1 ++ (if ds.length ≤ 1 then [] else '.' :: ds.drop 1)) ++
      l.exponentText k
  else if k < 0 then
    "0." ++ String.ofList (List.replicate ((-k).toNat - 1) '0' ++ ds)
  else
    let n := k.toNat + 1
    let whole := ds.take n ++ List.replicate (n - ds.length) '0'
    let rest := if ds.length ≤ n then ['0'] else ds.drop n
    String.ofList (whole ++ '.' :: rest)

def text (l : Layout) (x : Binary) : String :=
  let sign := if x.negative then "-" else ""
  if x.mantissa = 0 then sign ++ "0.0"
  else
    let s := x.shortest
    let all := Nat.toDigits 10 s.digits
    let ds := (all.reverse.dropWhile (· == '0')).reverse
    sign ++ l.write ds (s.scale + Int.ofNat (all.length - 1))

end Layout
end LedgerScript.Decimal
