import LedgerScript.Decimal.Shortest
import LedgerScript.Json.Value
import LedgerScript.Text.Quoted

/-! How a value reads in running text: a text stands for itself, and inside a list or
an object every text is quoted. A value is not shown at all if a number in it is too long
to be written. -/
namespace LedgerScript.Json.Value

mutual

def nested : Value → String
  | .text s => Text.quoted s
  | .list items => "[" ++ ", ".intercalate (nestedItems items) ++ "]"
  | .object fields => "\x7b" ++ ", ".intercalate (nestedFields fields) ++ "\x7d"
  | .null => "None"
  | .bool b => if b then "True" else "False"
  | .integer n => Decimal.intText n
  | .real x => Decimal.Layout.plain.text x

def nestedItems : List Value → List String
  | [] => []
  | v :: vs => nested v :: nestedItems vs

def nestedFields : List (String × Value) → List String
  | [] => []
  | (k, v) :: fs => (Text.quoted k ++ ": " ++ nested v) :: nestedFields fs

end

mutual

def isWritable : Value → Bool
  | .integer n => Decimal.isWritable n
  | .list items => areWritable items
  | .object fields => haveWritable fields
  | .null | .bool _ | .real _ | .text _ => true

def areWritable : List Value → Bool
  | [] => true
  | v :: vs => isWritable v && areWritable vs

def haveWritable : List (String × Value) → Bool
  | [] => true
  | (_, v) :: fs => isWritable v && haveWritable fs

end

def display? : Value → Option String
  | .text s => some s
  | v => if v.isWritable then some v.nested else none

end LedgerScript.Json.Value
