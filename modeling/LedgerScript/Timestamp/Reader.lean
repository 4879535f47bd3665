import LedgerScript.Decimal.Numeral
import LedgerScript.Timestamp.Epoch

/-! Reading a point in time: a date, a date with a time of day and perhaps an offset, or
a count in base ten. Year zero can be written, though it is no year of the calendar. -/
namespace LedgerScript.Timestamp

def number? (cs : List Char) : Option Nat :=
  if cs.all Char.isDigit then some (Decimal.digitsValue cs) else none

def date? : List Char → Option (Date × List Char)
  | y₁ :: y₂ :: y₃ :: y₄ :: '-' :: m₁ :: m₂ :: '-' :: d₁ :: d₂ :: rest => do
    let year ← number? [y₁, y₂, y₃, y₄]
    let month ← number? [m₁, m₂]
    let day ← number? [d₁, d₂]
    let date : Date := ⟨year, month, day⟩
    if date.Valid then some (date, rest) else none
  | _ => none

/-- A point or a comma and digits, cut or filled with zeros to six of them. -/
def fraction? : List Char → Option (Nat × List Char)
  | [] => some (0, [])
  | c :: cs =>
    if c = '.' ∨ c = ',' then
      let ds := cs.takeWhile Char.isDigit
      if ds = [] then none
      else
        let six := ds.take 6 ++ List.replicate (6 - ds.length) '0'
        some (Decimal.digitsValue six, cs.dropWhile Char.isDigit)
    else some (0, c :: cs)

def seconds? : List Char → Option ((Nat × Nat) × List Char)
  | ':' :: s₁ :: s₂ :: rest => do
    let second ← number? [s₁, s₂]
    let (micro, rest) ← fraction? rest
    return ((second, micro), rest)
  | ':' :: _ => none
  | cs => some ((0, 0), cs)

def time? : List Char → Option (TimeOfDay × List Char)
  | h₁ :: h₂ :: ':' :: m₁ :: m₂ :: rest => do
    let hour ← number? [h₁, h₂]
    let minute ← number? [m₁, m₂]
    let ((second, micro), rest) ← seconds? rest
    let time : TimeOfDay := ⟨hour, minute, second, micro⟩
    if time.Valid then some (time, rest) else none
  | _ => none

/-- The minus sign has a code point of its own besides the hyphen. -/
def sign? (c : Char) : Option Int :=
  if c = '+' then some 1 else if c = '-' ∨ c = '\u2212' then some (-1) else none

def signedOffset? (sign h₁ h₂ m₁ m₂ : Char) : Option (Option Int) := do
  let s ← sign? sign
  let h ← number? [h₁, h₂]
  let m ← number? [m₁, m₂]
  if h ≤ 23 ∧ m ≤ 59 then some (some (s * Int.ofNat (60 * h + m))) else none

def offset? : List Char → Option (Option Int)
  | [] => some none
  | [c] => if c = 'Z' ∨ c = 'z' then some (some 0) else none
  | [sign, h₁, h₂, ':', m₁, m₂] => signedOffset? sign h₁ h₂ m₁ m₂
  | [sign, h₁, h₂, m₁, m₂] => signedOffset? sign h₁ h₂ m₁ m₂
  | _ => none

def isSeparator (c : Char) : Bool := c = 'T' || c = 't' || c = ' ' || c = '_'

/-- A date, which starts at midnight, or a date with a time of day. -/
def calendar? (cs : List Char) : Option Timestamp :=
  match date? cs with
  | some (date, []) => some ⟨date, .midnight, none⟩
  | some (date, c :: rest) =>
    if isSeparator c then do
      let (time, rest) ← time? rest
      let offset ← offset? rest
      return ⟨date, time, offset⟩
    else none
  | none => none

/-- A count has a digit before or after its point. Only with a point may it have an
exponent. -/
def unsignedCount? (negative : Bool) (cs : List Char) : Option Timestamp :=
  match Decimal.Numeral.scan? cs with
  | some (n, []) =>
    if n.whole ++ n.fraction.getD [] = [] then none
    else if n.fraction.isSome then (n.real? negative).bind ofReal?
    else if n.exponent.isSome then none
    else ofCount? (n.count negative)
  | _ => none

def count? : List Char → Option Timestamp
  | '-' :: cs => unsignedCount? true cs
  | '+' :: cs => unsignedCount? false cs
  | cs => unsignedCount? false cs

def read? (s : String) : Option Timestamp :=
  match calendar? s.toList with
  | some t => some t
  | none => count? s.toList

end LedgerScript.Timestamp
