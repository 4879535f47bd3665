import LedgerScript.Json.Display

/-! Raw payloads before any check: what can be said of them when they arrive, and the
asset that postings without one are given. -/
namespace LedgerScript.Payload
open Json (Value Fields)

def withAsset (asset : String) : Value → Value
  | .object fs =>
    if (Fields.get? fs "asset").isSome then .object fs
    else .object (("asset", .text asset) :: fs)
  | v => v

/-- The postings of a payload, if they are a list, each with an asset. -/
def fieldWithAsset (asset : String) : String × Value → String × Value
  | (k, .list ps) => (k, .list (if k = "postings" then ps.map (withAsset asset) else ps))
  | f => f

/-- The given asset on every posting that lacks one. A payload that is no object or has
no list of postings is left as it is. -/
def withDefaultAsset (asset : String) : Value → Value
  | .object fs => .object (fs.map (fieldWithAsset asset))
  | v => v

/-- The summary as running text, empty if there is none. -/
def summary? : Value → Option String
  | .object fs => (Fields.get? fs "summary").elim (some "") Value.display?
  | _ => some ""

def postingCount? : Value → Option Nat
  | .object fs =>
    match Fields.get? fs "postings" with
    | some (.list ps) => some ps.length
    | _ => none
  | _ => none

end LedgerScript.Payload
