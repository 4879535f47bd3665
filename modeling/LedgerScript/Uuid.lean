import LedgerScript.Text.Hex

/-! Identifiers of 128 bits. They are written in lower case with hyphens, and read in
that form, without hyphens, in braces or as a URN, in either case. -/
namespace LedgerScript

structure Uuid where
  nibbles : List (Fin 16)
  size : nibbles.length = 32
deriving DecidableEq

namespace Uuid

/-- Hyphens after the 8th, 12th, 16th and 20th digit. -/
def hyphenate (cs : List Char) : List Char :=
  cs.take 8 ++ '-' :: (cs.drop 8).take 4 ++ '-' :: (cs.drop 12).take 4 ++
    '-' :: (cs.drop 16).take 4 ++ '-' :: cs.drop 20

def text (u : Uuid) : String := String.ofList (hyphenate (u.nibbles.map Text.hexDigit))

def ofHex? (cs : List Char) : Option Uuid :=
  match cs.mapM Text.hexValue? with
  | some ns => if h : ns.length = 32 then some ⟨ns, h⟩ else none
  | none => none

def unhyphenate? (cs : List Char) : Option (List Char) :=
  if cs.length = 36 ∧ cs[8]? = some '-' ∧ cs[13]? = some '-' ∧ cs[18]? = some '-' ∧
      cs[23]? = some '-' then
    some (cs.take 8 ++ (cs.drop 9).take 4 ++ (cs.drop 14).take 4 ++ (cs.drop 19).take 4 ++
      cs.drop 24)
  else none

/-- The hyphenated form inside braces or after the URN heading; other texts stand. -/
def unwrap (cs : List Char) : List Char :=
  let urn := "urn:uuid:".toList
  if urn.isPrefixOf cs then cs.drop urn.length
  else if cs.head? = some '\x7b' ∧ cs.getLast? = some '\x7d' then (cs.drop 1).dropLast
  else cs

def read? (s : String) : Option Uuid :=
  let cs := s.toList
  if cs.length = 32 then ofHex? cs else (unhyphenate? (unwrap cs)).bind ofHex?

end Uuid
end LedgerScript
