import LedgerScript.Timestamp.Calendar

/-! Points in time as a calendar date, a time of day down to the microsecond and, if
one was given, the offset from universal time in minutes. -/
namespace LedgerScript

structure TimeOfDay where
  hour : Nat
  minute : Nat
  second : Nat
  micro : Nat
deriving DecidableEq, Repr

def TimeOfDay.Valid (t : TimeOfDay) : Prop :=
  t.hour ≤ 23 ∧ t.minute ≤ 59 ∧ t.second ≤ 59 ∧ t.micro ≤ 999999

instance (t : TimeOfDay) : Decidable t.Valid := by unfold TimeOfDay.Valid; infer_instance

def TimeOfDay.midnight : TimeOfDay := ⟨0, 0, 0, 0⟩

structure Timestamp where
  date : Date
  time : TimeOfDay
  offset : Option Int
deriving DecidableEq, Repr

namespace Timestamp

/-- An offset is less than a day. -/
def Valid (t : Timestamp) : Prop :=
  t.date.Valid ∧ t.time.Valid ∧ ∀ o ∈ t.offset, -1440 < o ∧ o < 1440

instance (t : Timestamp) : Decidable t.Valid := by unfold Valid; infer_instance

def pad (width n : Nat) : String :=
  let ds := Nat.toDigits 10 n
  String.ofList (List.replicate (width - ds.length) '0' ++ ds)

def offsetText : Option Int → String
  | none => ""
  | some o =>
    (if o < 0 then "-" else "+") ++ pad 2 (o.natAbs / 60) ++ ":" ++ pad 2 (o.natAbs % 60)

/-- The fraction is written only if it is not zero. -/
def text (t : Timestamp) : String :=
  pad 4 t.date.year ++ "-" ++ pad 2 t.date.month ++ "-" ++ pad 2 t.date.day ++ "T" ++
    pad 2 t.time.hour ++ ":" ++ pad 2 t.time.minute ++ ":" ++ pad 2 t.time.second ++
    (if t.time.micro = 0 then "" else "." ++ pad 6 t.time.micro) ++ offsetText t.offset

end Timestamp
end LedgerScript
