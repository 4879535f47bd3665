import LedgerScript.Text.Hex
import LedgerScript.Text.Printable

/-! A text in quotes, as messages show it: single quotes unless the text holds one
and no double quote. What is not printable is written by its code point. -/
namespace LedgerScript.Text

def singleQuote : Char := '\x27'
def doubleQuote : Char := '\x22'

def delimiter (cs : List Char) : Char :=
  if singleQuote ∈ cs ∧ doubleQuote ∉ cs then doubleQuote else singleQuote

def codePoint (n : Nat) : List Char :=
  if n < 0x100 then '\\' :: 'x' :: hex 2 n
  else if n < 0x10000 then '\\' :: 'u' :: hex 4 n
  else '\\' :: 'U' :: hex 8 n

def escape (quote c : Char) : List Char :=
  if c = quote ∨ c = '\\' then ['\\', c]
  else if c = '\n' then ['\\', 'n']
  else if c = '\r' then ['\\', 'r']
  else if c = '\t' then ['\\', 't']
  else if isPrintable c then [c]
  else codePoint c.toNat

def quoted (s : String) : String :=
  let cs := s.toList
  let q := delimiter cs
  String.ofList (q :: cs.flatMap (escape q) ++ [q])

end LedgerScript.Text
