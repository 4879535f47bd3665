/-! Long values are shown by their two ends. The limits count UTF-8 bytes, and a
character that would cross one of them is left out whole. -/
namespace LedgerScript.Text

def fitting : Nat → List Char → List Char
  | _, [] => []
  | room, c :: cs => if c.utf8Size ≤ room then c :: fitting (room - c.utf8Size) cs else []

def bytes : List Char → Nat
  | [] => 0
  | c :: cs => c.utf8Size + bytes cs

/-- Up to 50 bytes are shown in full; a longer text keeps 25 bytes in front and 24 behind. -/
def excerpt (s : String) : String :=
  let cs := s.toList
  if bytes cs ≤ 50 then s
  else String.ofList (fitting 25 cs) ++ "..." ++ String.ofList (fitting 24 cs.reverse).reverse

end LedgerScript.Text
