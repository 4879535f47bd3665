import LedgerScript.Decimal.Binary

/-! JSON values as a payload brings them: objects keep the order of their fields, and
a number written with a point or an exponent stays apart from a whole one. -/
namespace LedgerScript.Json

inductive Value where
  | null
  | bool (b : Bool)
  | integer (n : Int)
  | real (x : Decimal.Binary)
  | text (s : String)
  | list (items : List Value)
  | object (fields : List (String × Value))

inductive Kind where
  | null
  | bool
  | integer
  | real
  | text
  | list
  | object
deriving DecidableEq, Repr

abbrev Fields := List (String × Value)

/-- The value under a name; of two fields of one name the first counts. -/
def Fields.get? (fs : Fields) (name : String) : Option Value := fs.lookup name

namespace Value

def kind : Value → Kind
  | .null => .null
  | .bool _ => .bool
  | .integer _ => .integer
  | .real _ => .real
  | .text _ => .text
  | .list _ => .list
  | .object _ => .object

/-- Nothing, no, zero, or without content. -/
def isEmpty : Value → Bool
  | .null => true
  | .bool b => !b
  | .integer n => n == 0
  | .real x => x.mantissa == 0
  | .text s => s == ""
  | .list items => items.isEmpty
  | .object fields => fields.isEmpty

def ofOption (f : α → Value) : Option α → Value
  | none => .null
  | some a => f a

def ofNat (n : Nat) : Value := .integer (Int.ofNat n)

def ofTexts (ss : List String) : Value := .list (ss.map .text)

end Value
end LedgerScript.Json
