import LedgerScript.Compilation.Draft

/-! Postings and splits on their own, under an index that is given and not counted. Such
an index may be so large that the number of the posting cannot be written, and then
whatever has a message about that number fails. -/
namespace LedgerScript
open Json (Value)

def underIndex {α : Type} (index : Int) (tells : Bool) (outcome : Except Failure α) :
    Except Failure α :=
  if tells && !Decimal.isWritable (index + 1) then .error .numberTooLong else outcome

namespace SplitRule

def blockAt (asset : String) (index : Int) (strict : Bool) (rules : List SplitRule) :
    Except Failure (Destination × List Warning) :=
  underIndex index (AmountMode.conflicting (rules.map mode)) (block asset index strict rules)

end SplitRule

namespace DraftRule

/-- Modes that cannot be compared are found out before any conflict. -/
def conflicting (rules : List DraftRule) : Bool :=
  match rules.mapM comparableMode with
  | .ok modes => AmountMode.conflicting modes
  | .error _ => false

def blockAt (asset : Value) (index : Int) (strict : Bool) (rules : List DraftRule) :
    Except Failure (Destination × List Warning) :=
  underIndex index (conflicting rules) (block asset index strict rules)

end DraftRule

namespace Posting

/-- The destination is missing or mixes modes, so that a message tells the number. -/
def tellsNumber (p : Posting) : Bool :=
  match p.destinationKind with
  | .simple => (p.simpleDestination.filter (· ≠ "")).isNone
  | .split =>
    match p.splitRules.filter (· ≠ []) with
    | some rules => AmountMode.conflicting (rules.map SplitRule.mode)
    | none => true
  | .other _ => true

def destinationAt (p : Posting) (index : Int) (strict : Bool) :
    Except Failure (Destination × List Warning) :=
  underIndex index p.tellsNumber (p.destination index strict)

def toSendAt (p : Posting) (index : Int) (strict : Bool) :
    Except Failure (Send × List Warning) :=
  underIndex index p.tellsNumber (p.toSend index strict)

end Posting

namespace DraftPosting

def tellsNumber (p : DraftPosting) : Bool :=
  match p.kind with
  | .error _ => false
  | .ok .simple => p.simpleDestination.isEmpty
  | .ok .split =>
    match p.splitRules with
    | .list [] => true
    | .list vs => DraftRule.conflicting (vs.map DraftRule.ofValue)
    | v => v.isEmpty
  | .ok (.other _) => true

def destinationAt (p : DraftPosting) (index : Int) (strict : Bool) :
    Except Failure (Destination × List Warning) :=
  underIndex index p.tellsNumber (p.destination index strict)

def toSendAt (p : DraftPosting) (index : Int) (strict : Bool) :
    Except Failure (Send × List Warning) :=
  underIndex index p.tellsNumber (p.toSend index strict)

end DraftPosting

def Refusal.stated (r : Refusal) : Except Failure Refusal :=
  match r with
  | .malformed index _ => underIndex index true (.ok r)
  | _ => .ok r

end LedgerScript
