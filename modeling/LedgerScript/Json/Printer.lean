import LedgerScript.Decimal.Shortest
import LedgerScript.Json.Value
import LedgerScript.Text.Hex

/-! Writing a value as compact JSON text on one line. -/
namespace LedgerScript.Json

def escape (c : Char) : List Char :=
  if c = '\x22' ∨ c = '\\' then ['\\', c]
  else if c.toNat < 0x20 then '\\' :: 'u' :: Text.hex 4 c.toNat
  else [c]

def textLiteral (s : String) : String :=
  String.ofList ('\x22' :: s.toList.flatMap escape ++ ['\x22'])

namespace Value
mutual

def render : Value → String
  | .null => "null"
  | .bool b => if b then "true" else "false"
  | .integer n => Decimal.intText n
  | .real x => Decimal.Layout.plain.text x
  | .text s => textLiteral s
  | .list items => "[" ++ ",".intercalate (renderItems items) ++ "]"
  | .object fields => "\x7b" ++ ",".intercalate (renderFields fields) ++ "\x7d"

def renderItems : List Value → List String
  | [] => []
  | v :: vs => render v :: renderItems vs

def renderFields : List (String × Value) → List String
  | [] => []
  | (k, v) :: fs => (textLiteral k ++ ":" ++ render v) :: renderFields fs

end
end Value
end LedgerScript.Json
