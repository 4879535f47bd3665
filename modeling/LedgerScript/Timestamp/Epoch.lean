import LedgerScript.Decimal.Binary
import LedgerScript.Timestamp.Basic

/-! Points in time as counts from the start of 1970 in universal time. A count is in
seconds, or in milliseconds if it would otherwise lie too far off. -/
namespace LedgerScript.Timestamp

def firstSecond : Int := -62167219200

def lastSecond : Int := 253402300799

def secondsLimit : Nat := 20000000000

def ofSeconds? (seconds : Int) (micro : Nat) : Option Timestamp :=
  if firstSecond ≤ seconds ∧ seconds ≤ lastSecond then
    let n := (seconds - firstSecond).toNat
    let rest := n % 86400
    some ⟨.ofDay (n / 86400), ⟨rest / 3600, rest % 3600 / 60, rest % 60, micro⟩, some 0⟩
  else none

/-- A whole count, in milliseconds or in seconds, and microseconds on top of it. -/
def ofUnits? (milli : Bool) (count : Int) (micros : Nat) : Option Timestamp :=
  let (seconds, total) :=
    if milli then (Int.fdiv count 1000, (Int.fmod count 1000).toNat * 1000 + micros)
    else (count, micros)
  ofSeconds? (seconds + Int.ofNat (total / 1000000)) (total % 1000000)

def ofCount? (count : Int) : Option Timestamp :=
  ofUnits? (secondsLimit < count.natAbs) count 0

/-- The fraction is one of the unit that is counted in, and is rounded to microseconds. -/
def ofReal? (x : Decimal.Binary) : Option Timestamp :=
  let milli := x.exceeds secondsLimit
  ofUnits? milli x.floor (x.fraction.scaled (if milli then 1000 else 1000000))

end LedgerScript.Timestamp
