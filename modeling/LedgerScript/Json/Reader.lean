import LedgerScript.Decimal.Numeral
import LedgerScript.Json.Value
import LedgerScript.Text.Hex

/-! Reading a JSON text. Every function takes the characters still to read and gives
back the rest. Nesting is bounded by the length of the text, which the entry point
supplies, so no text runs out of it. -/
namespace LedgerScript.Json.Reader

abbrev Step (α : Type) := Option (α × List Char)

def isSpace (c : Char) : Bool := c = ' ' || c = '\t' || c = '\n' || c = '\r'

def skip (cs : List Char) : List Char := cs.dropWhile isSpace

def unit? (a b c d : Char) : Option Nat := do
  let a ← Text.hexValue? a
  let b ← Text.hexValue? b
  let c ← Text.hexValue? c
  let d ← Text.hexValue? d
  return 4096 * a.val + 256 * b.val + 16 * c.val + d.val

def isHigh (u : Nat) : Bool := 0xD800 ≤ u && u < 0xDC00
def isLow (u : Nat) : Bool := 0xDC00 ≤ u && u < 0xE000

def plainEscape? : Char → Option Char
  | 'n' => some '\n'
  | 't' => some '\t'
  | 'r' => some '\r'
  | 'b' => some '\x08'
  | 'f' => some '\x0c'
  | '/' => some '/'
  | '\\' => some '\\'
  | c => if c = '\x22' then some c else none

/-- The characters of a text after its opening quote, the last one first. A half of a
surrogate pair is refused without the other half. -/
def textBody : List Char → List Char → Step (List Char)
  | _, [] => none
  | acc, '\\' :: 'u' :: a :: b :: c :: d :: '\\' :: 'u' :: e :: f :: g :: h :: rest =>
    match unit? a b c d with
    | none => none
    | some u =>
      if isHigh u then
        match unit? e f g h with
        | none => none
        | some w =>
          if isLow w then
            textBody (Char.ofNat (0x10000 + (u - 0xD800) * 0x400 + (w - 0xDC00)) :: acc) rest
          else none
      else if isLow u then none
      else textBody (Char.ofNat u :: acc) ('\\' :: 'u' :: e :: f :: g :: h :: rest)
  | acc, '\\' :: 'u' :: a :: b :: c :: d :: rest =>
    match unit? a b c d with
    | none => none
    | some u => if isHigh u || isLow u then none else textBody (Char.ofNat u :: acc) rest
  | acc, '\\' :: c :: rest =>
    match plainEscape? c with
    | none => none
    | some c => textBody (c :: acc) rest
  | acc, c :: rest =>
    if c = '\x22' then some (acc, rest)
    else if c.toNat < 0x20 then none
    else textBody (c :: acc) rest

def text (cs : List Char) : Step String :=
  (textBody [] cs).map fun (acc, rest) => (String.ofList acc.reverse, rest)

/-- Digits stand before a point and after it. With a point or an exponent the number is
held as a binary fraction, which must not be too large; a whole number must not be too
long to be written again. -/
def unsigned (negative : Bool) (cs : List Char) : Step Value :=
  match Decimal.Numeral.scan? cs with
  | none => none
  | some (n, rest) =>
    if n.whole = [] ∨ n.fraction = some [] then none
    else if n.fraction = none ∧ n.exponent = none then
      if Decimal.isWritable (n.count negative) then some (.integer (n.count negative), rest)
      else none
    else (n.real? negative).map fun x => (.real x, rest)

def word (w : String) (v : Value) (cs : List Char) : Step Value :=
  if w.toList.isPrefixOf cs then some (v, cs.drop w.length) else none

mutual

def value : Nat → List Char → Step Value
  | 0, _ => none
  | n + 1, cs =>
    match skip cs with
    | '[' :: cs =>
      match skip cs with
      | ']' :: rest => some (.list [], rest)
      | cs => (items n cs).map fun (vs, rest) => (.list vs, rest)
    | '"' :: cs => (text cs).map fun (s, rest) => (.text s, rest)
    | '-' :: cs => unsigned true cs
    | 't' :: cs => word "rue" (.bool true) cs
    | 'f' :: cs => word "alse" (.bool false) cs
    | 'n' :: cs => word "ull" .null cs
    | '\x7b' :: cs =>
      match skip cs with
      | '\x7d' :: rest => some (.object [], rest)
      | cs => (fields n cs).map fun (fs, rest) => (.object fs, rest)
    | cs => unsigned false cs

def items : Nat → List Char → Step (List Value)
  | 0, _ => none
  | n + 1, cs =>
    match value n cs with
    | none => none
    | some (v, cs) =>
      match skip cs with
      | ',' :: cs => (items n cs).map fun (vs, rest) => (v :: vs, rest)
      | ']' :: rest => some ([v], rest)
      | _ => none

def fields : Nat → List Char → Step (List (String × Value))
  | 0, _ => none
  | n + 1, cs =>
    match skip cs with
    | '"' :: cs =>
      match text cs with
      | none => none
      | some (k, cs) =>
        match skip cs with
        | ':' :: cs =>
          match value n cs with
          | none => none
          | some (v, cs) =>
            match skip cs with
            | ',' :: cs => (fields n cs).map fun (fs, rest) => ((k, v) :: fs, rest)
            | '\x7d' :: rest => some ([(k, v)], rest)
            | _ => none
        | _ => none
    | _ => none

end

end LedgerScript.Json.Reader

namespace LedgerScript.Json

def Value.read? (s : String) : Option Value :=
  match Reader.value (s.length + 1) s.toList with
  | some (v, rest) => if Reader.skip rest = [] then some v else none
  | none => none

end LedgerScript.Json
