import LedgerScript.Compilation.Result
import LedgerScript.Script.Account
import LedgerScript.Script.Basic

/-! From one posting to one send statement. Fractions and caps cannot share a split:
where they do, every fraction becomes a cap and a warning says so, or the posting is
refused in strict mode. -/
namespace LedgerScript

namespace AmountMode

def conflicting (modes : List AmountMode) : Bool :=
  decide (.fraction ∈ modes ∧ .max ∈ modes)

def conflictWarnings (index : Int) (strict : Bool) (modes : List AmountMode) :
    Except Failure (List Warning) :=
  if conflicting modes then
    if strict then .error (.refusal (.conflict index (Warning.conflictMessage index)))
    else (Warning.conflict index).map ([·])
  else .ok []

end AmountMode

namespace SplitRule

/-- The line of a rule; `capped` turns a fraction into a cap. -/
def allocation (asset : String) (capped : Bool) (r : SplitRule) : Except Failure Allocation :=
  match r.mode with
  | .remaining => .ok ⟨.remaining, address r.target⟩
  | .max => .ok ⟨.cap ⟨asset, r.value⟩, address r.target⟩
  | .fraction =>
    .ok ⟨if capped then .cap ⟨asset, capText r.value⟩ else .percentage (percentage r.value),
      address r.target⟩
  | .other w => .error (.unsupportedMode w)

def isRemaining (r : SplitRule) : Bool := r.mode = .remaining

/-- Those that are given what remains come last; otherwise the order stands. -/
def arrange {α : Type} (isRemaining : α → Bool) (rules : List α) : List α :=
  rules.filter (!isRemaining ·) ++ rules.filter isRemaining

/-- The split block of some rules, with the warnings it gives rise to. -/
def block (asset : String) (index : Int) (strict : Bool) (rules : List SplitRule) :
    Except Failure (Destination × List Warning) := do
  let modes := rules.map mode
  let warnings ← AmountMode.conflictWarnings index strict modes
  let allocations ←
    (arrange isRemaining rules).mapM (allocation asset (AmountMode.conflicting modes))
  return (.block allocations, warnings)

end SplitRule

/-- The world needs no allowance, and a limit that is not given allows nothing. -/
def Allowance.granted (account asset : String) (o : Overdraft) (limit : Option String) :
    Allowance :=
  if isWorld account then .none
  else
    match o, limit.filter (· ≠ "") with
    | .unbounded, _ => .unbounded
    | .limited, some limit => .upTo ⟨asset, limit⟩
    | _, _ => .none

namespace Posting

def allowance (p : Posting) : Allowance :=
  .granted p.source p.asset p.overdraft p.overdraftLimit

def origin (p : Posting) : Source := ⟨address p.source, p.allowance⟩

def destination (p : Posting) (index : Int) (strict : Bool) :
    Except Failure (Destination × List Warning) :=
  match p.destinationKind with
  | .simple =>
    match p.simpleDestination.filter (· ≠ "") with
    | some account => .ok (.account (address account), [])
    | none => .error (.refusal (.malformed index .noSimpleDestination))
  | .split =>
    match p.splitRules.filter (· ≠ []) with
    | some rules => SplitRule.block p.asset index strict rules
    | none => .error (.refusal (.malformed index .noSplitRules))
  | .other w => .error (.refusal (.malformed index (.unsupportedKind w)))

def toSend (p : Posting) (index : Int) (strict : Bool) : Except Failure (Send × List Warning) :=
  (p.destination index strict).map fun (d, ws) => (⟨⟨p.asset, p.amount⟩, p.origin, d⟩, ws)

end Posting
end LedgerScript
