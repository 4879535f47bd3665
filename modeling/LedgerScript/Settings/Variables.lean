/-! Variables by name, in the order in which they were first set. Setting one again
keeps its place. -/
namespace LedgerScript

abbrev Variables (α : Type) := List (String × α)

namespace Variables
variable {α : Type}

/-- Lower case for ASCII letters. -/
def lower (s : String) : String := String.ofList (s.toList.map Char.toLower)

def named? (vs : Variables α) (name : String) : Option α := vs.lookup name

/-- Names are compared without regard to case; of two spellings the later one counts. -/
def get? (vs : Variables α) (name : String) : Option α :=
  (vs.reverse.find? fun (k, _) => lower k = lower name).map Prod.snd

def unset (vs : Variables α) (name : String) : Variables α := vs.filter (·.1 ≠ name)

def set (vs : Variables α) (name : String) (value : α) : Variables α :=
  if vs.any (·.1 = name) then vs.map fun (k, v) => if k = name then (k, value) else (k, v)
  else vs ++ [(name, value)]

end Variables

abbrev Environment := Variables String

end LedgerScript
