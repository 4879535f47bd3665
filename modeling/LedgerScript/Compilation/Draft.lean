import LedgerScript.Compilation.Posting
import LedgerScript.Intent.Draft

/-! From an unchecked posting to a send statement. Every entry is asked for where the
statement needs it, the destination first, and what is only shown may be anything in which
no number is too long. -/
namespace LedgerScript
open Json (Value)

namespace Draft

def account : Value → Except Failure String
  | .text s => .ok s
  | v => .error (.misfit (.account v.kind))

def cap : Value → Except Failure String
  | .text s => .ok s
  | v => .error (.misfit (.cap v.kind))

def isPercent : Value → Bool
  | .text s => s == "%"
  | _ => false

def shown (v : Value) : Except Failure String := Failure.shown v.display?

/-- A list or an object has a percent sign only as an item or a name of its own. -/
def share : Value → Except Failure String
  | .text s => .ok s
  | .list vs => do
    let text ← shown (.list vs)
    return if vs.any isPercent then text else text ++ "%"
  | .object fs => do
    let text ← shown (.object fs)
    return if fs.any (·.1 == "%") then text else text ++ "%"
  | v => .error (.misfit (.share v.kind))

end Draft

namespace DraftRule

def mode? (r : DraftRule) : Option AmountMode := r.mode.map (Draft.mode AmountMode.choices .other)

/-- The mode next to those of other rules, which a list or an object has no place among. -/
def comparableMode (r : DraftRule) : Except Failure AmountMode :=
  match r.mode with
  | some (.list _) => .error (.misfit (.mode .list))
  | some (.object _) => .error (.misfit (.mode .object))
  | _ => Draft.present "SplitRule" "amount_mode" r.mode?

/-- The line of a rule. The asset is shown in caps only, and of a mode that is not known
nothing else is shown. -/
def allocation (asset : Value) (capped : Bool) (r : DraftRule) : Except Failure Allocation := do
  let target ← Draft.account (← Draft.present "SplitRule" "target" r.target)
  let mode ← Draft.present "SplitRule" "amount_mode" r.mode
  match ← Draft.toldMode AmountMode.choices .other mode with
  | .remaining => return ⟨.remaining, address target⟩
  | .max => return ⟨.cap ⟨← Draft.shown asset, ← Draft.shown r.value⟩, address target⟩
  | .fraction =>
    if capped then
      let cap ← Draft.cap r.value
      return ⟨.cap ⟨← Draft.shown asset, capText cap⟩, address target⟩
    else return ⟨.percentage (percentage (← Draft.share r.value)), address target⟩
  | .other w => .error (.unsupportedMode w)

def isRemaining (r : DraftRule) : Bool := r.mode? = some .remaining

def block (asset : Value) (index : Int) (strict : Bool) (rules : List DraftRule) :
    Except Failure (Destination × List Warning) := do
  let modes ← rules.mapM comparableMode
  let warnings ← AmountMode.conflictWarnings index strict modes
  let allocations ← (SplitRule.arrange isRemaining rules).mapM
    (allocation asset (AmountMode.conflicting modes))
  return (.block allocations, warnings)

end DraftRule

namespace DraftPosting

/-- The asset and the limit are shown only where there is an allowance up to the limit. -/
def allowance (p : DraftPosting) (account : String) : Except Failure Allowance :=
  if isWorld account then .ok .none
  else
    match p.overdraft with
    | .unbounded => .ok .unbounded
    | .limited =>
      if p.overdraftLimit.isEmpty then .ok .none
      else do return .upTo ⟨← Draft.shown p.asset, ← Draft.shown p.overdraftLimit⟩
    | _ => .ok .none

def origin (p : DraftPosting) : Except Failure Source := do
  let account ← Draft.account (← Draft.present "Posting" "source" p.source)
  return ⟨address account, ← p.allowance account⟩

def kind (p : DraftPosting) : Except Failure DestinationKind := do
  let kind ← Draft.present "Posting" "destination_type" p.destinationKind
  Draft.toldMode DestinationKind.choices .other kind

def destination (p : DraftPosting) (index : Int) (strict : Bool) :
    Except Failure (Destination × List Warning) := do
  match ← p.kind with
  | .simple =>
    if p.simpleDestination.isEmpty then
      .error (.refusal (.malformed index .noSimpleDestination))
    else
      let account ← Draft.account p.simpleDestination
      return (.account (address account), [])
  | .split =>
    if p.splitRules.isEmpty then .error (.refusal (.malformed index .noSplitRules))
    else
      match p.splitRules with
      | .list vs => DraftRule.block p.asset index strict (vs.map DraftRule.ofValue)
      | v => .error (.misfit (.rules v.kind))
  | .other w => .error (.refusal (.malformed index (.unsupportedKind w)))

def toSend (p : DraftPosting) (index : Int) (strict : Bool) :
    Except Failure (Send × List Warning) := do
  let (destination, warnings) ← p.destination index strict
  let amount ← Draft.present "Posting" "amount" p.amount
  let money : Money := ⟨← Draft.shown p.asset, ← Draft.shown amount⟩
  let source ← p.origin
  return (⟨money, source, destination⟩, warnings)

end DraftPosting
end LedgerScript
