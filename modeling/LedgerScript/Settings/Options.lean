import LedgerScript.Json.Value
import LedgerScript.Settings.Variables

/-! How the variables of a section are looked up. A section has a way of its own, from which
whoever builds it may depart. -/
namespace LedgerScript
open Json (Value)

/-- What replaces the beginning of the names, whether case matters in them, whether
empty values count as not set, which text stands for null, and whether the settings
file is read. -/
structure Options where
  lead : Option String
  caseMatters : Bool
  skipsEmpty : Bool
  nullText : Option String
  readsFile : Option Bool
deriving DecidableEq, Repr

namespace Options

def standard : Options := ⟨none, false, false, none, none⟩

/-- The value of a variable. The last assignment counts, also if it assigns nothing. -/
def find? (o : Options) (vs : Variables (Option String)) (key : String) : Option Value :=
  let counted : Variables (Option String) :=
    if o.skipsEmpty then vs.filter (·.2 ≠ some "") else vs
  let found := if o.caseMatters then counted.named? key else counted.get? key
  (found.bind id).map fun s => if o.nullText = some s then .null else .text s

end Options
end LedgerScript
