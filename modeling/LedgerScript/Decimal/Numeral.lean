import LedgerScript.Decimal.Binary
import LedgerScript.Decimal.Integer

/-! Numbers as they are written, without a sign: digits, perhaps a point and more digits,
perhaps an exponent. Which of these parts may be missing is for the reader to say. -/
namespace LedgerScript.Decimal

def digits (cs : List Char) : List Char × List Char :=
  (cs.takeWhile Char.isDigit, cs.dropWhile Char.isDigit)

/-- There is a fraction if there is a point, even if no digits follow it. -/
structure Numeral where
  whole : List Char
  fraction : Option (List Char)
  exponent : Option Int
deriving DecidableEq, Repr

namespace Numeral

def fraction? : List Char → Option (List Char) × List Char
  | '.' :: cs => let (ds, rest) := digits cs; (some ds, rest)
  | cs => (none, cs)

def signed : List Char → Bool × List Char
  | '-' :: cs => (true, cs)
  | '+' :: cs => (false, cs)
  | cs => (false, cs)

/-- The exponent, if one follows. Its mark asks for digits. -/
def exponent? : List Char → Option (Option Int × List Char)
  | [] => some (none, [])
  | c :: cs =>
    if c = 'e' ∨ c = 'E' then
      let (negative, cs) := signed cs
      let (ds, rest) := digits cs
      let n := Int.ofNat (digitsValue ds)
      if ds = [] then none else some (some (if negative then -n else n), rest)
    else some (none, c :: cs)

def scan? (cs : List Char) : Option (Numeral × List Char) :=
  let (whole, cs) := digits cs
  let (fraction, cs) := fraction? cs
  (exponent? cs).map fun (exponent, rest) => (⟨whole, fraction, exponent⟩, rest)

def count (n : Numeral) (negative : Bool) : Int :=
  let k := Int.ofNat (digitsValue n.whole)
  if negative then -k else k

def real? (n : Numeral) (negative : Bool) : Option Binary :=
  let decimals := n.fraction.getD []
  Binary.ofDecimal? negative (digitsValue (n.whole ++ decimals))
    (n.exponent.getD 0 - Int.ofNat decimals.length)

end Numeral
end LedgerScript.Decimal
