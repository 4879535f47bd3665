import LedgerScript.Json.Value
import LedgerScript.Schema.Checked
import LedgerScript.Timestamp.Reader
import LedgerScript.Uuid

/-! Readers for the kinds of fields records have. A reader takes a JSON value and gives
the typed one or says what is wrong; undeclared fields of an object are not looked at. -/
namespace LedgerScript.Schema
open Json (Value Fields)

abbrev Reader (α : Type) := Value → Checked α

namespace Reader
variable {α : Type}

def text : Reader String
  | .text s => .accepted s
  | _ => .reject .notText

def textUpTo (limit : Nat) : Reader String := fun v =>
  (text v).andThen fun s => if s.length ≤ limit then .accepted s else .reject (.tooLong limit)

def textAmong (words : List String) : Reader String := fun v =>
  (text v).andThen fun s => if s ∈ words then .accepted s else .reject (.noMatch words)

def oneOf (choices : List (String × α)) : Reader α
  | .text s =>
    match choices.lookup s with
    | some a => .accepted a
    | none => .reject (.notOneOf (choices.map Prod.fst))
  | _ => .reject (.notOneOf (choices.map Prod.fst))

def wordBound : Int := 9223372036854775808

/-- The whole number a binary fraction stands for, if it lies strictly within the bounds. -/
def integerOfReal (x : Decimal.Binary) : Checked Int :=
  match x.toInt? with
  | some n => if -wordBound < n ∧ n < wordBound then .accepted n else .reject .oversized
  | none => .reject .fractional

def integerOfText (s : String) : Checked Int :=
  match Decimal.readInt s with
  | .number n => .accepted n
  | .oversized => .reject .oversized
  | .malformed => .reject .integerText

def integer : Reader Int
  | .integer n => .accepted n
  | .bool b => .accepted (if b then 1 else 0)
  | .real x => integerOfReal x
  | .text s => integerOfText s
  | _ => .reject .notInteger

def atLeast (least : Nat) : Reader Nat := fun v =>
  (integer v).andThen fun n =>
    if Int.ofNat least ≤ n then .accepted n.toNat else .reject (.below least)

def yesWords : List String := ["1", "on", "t", "true", "y", "yes"]
def noWords : List String := ["0", "off", "f", "false", "n", "no"]

def flagOfInt (n : Int) : Checked Bool :=
  if n = 0 then .accepted false else if n = 1 then .accepted true else .reject .flagText

/-- ASCII letters in either case; the text is not trimmed. -/
def flagOfText (s : String) : Checked Bool :=
  let w := String.ofList (s.toList.map Char.toLower)
  if w ∈ yesWords then .accepted true
  else if w ∈ noWords then .accepted false
  else .reject .flagText

/-- A number that does not fit into 64 bits is no flag at all. -/
def flag : Reader Bool
  | .bool b => .accepted b
  | .integer n => if -wordBound ≤ n ∧ n < wordBound then flagOfInt n else .reject .notFlag
  | .real x =>
    match integerOfReal x with
    | .accepted n => flagOfInt n
    | .rejected .. => .reject .notFlag
  | .text s => flagOfText s
  | _ => .reject .notFlag

def identifier : Reader Uuid
  | .text s =>
    match Uuid.read? s with
    | some u => .accepted u
    | none => .reject .identifierText
  | _ => .reject .notIdentifier

/-- The years are those from one to 9999. -/
def dated : Option Timestamp → Checked Timestamp
  | some t => if 1 ≤ t.date.year then .accepted t else .reject .timestampRange
  | none => .reject .timestampRange

/-- A count has to be of a size that a binary fraction can have. -/
def timestampOfCount (n : Int) : Checked Timestamp :=
  if (Decimal.Binary.nearest? false n.natAbs 1).isSome then dated (Timestamp.ofCount? n)
  else .reject .notTimestamp

def timestamp : Reader Timestamp
  | .text s =>
    match Timestamp.read? s with
    | some t => dated (some t)
    | none => .reject .timestampText
  | .integer n => timestampOfCount n
  | .real x => dated (Timestamp.ofReal? x)
  | _ => .reject .notTimestamp

def nullable (r : Reader α) : Reader (Option α)
  | .null => .accepted none
  | v => some <$> r v

def itemsFrom (r : Reader α) : Nat → List Value → Checked (List α)
  | _, [] => .accepted []
  | i, v :: vs => List.cons <$> (r v).within (.item i) <*> itemsFrom r (i + 1) vs

def list (r : Reader α) : Reader (List α)
  | .list vs => itemsFrom r 0 vs
  | _ => .reject .notList

def nonemptyList (r : Reader α) : Reader (List α)
  | .list [] => .reject (.tooFew 1 0)
  | v => list r v

def object : Reader Fields
  | .object fs => .accepted fs
  | _ => .reject .notObject

/-- An object read field by field; `name` is what messages call the record. -/
def record (name : String) (read : Fields → Checked α) : Reader α
  | .object fs => read fs
  | _ => .reject (.notRecord name)

end Reader

variable {α : Type}

def required (name : String) (r : Reader α) (fs : Fields) : Checked α :=
  Checked.within (.field name) <|
    match fs.get? name with
    | some v => r v
    | none => .reject .missing

/-- An absent field takes the default, which is not checked. -/
def optional (name : String) (default : α) (r : Reader α) (fs : Fields) : Checked α :=
  match fs.get? name with
  | some v => (r v).within (.field name)
  | none => .accepted default

end LedgerScript.Schema
