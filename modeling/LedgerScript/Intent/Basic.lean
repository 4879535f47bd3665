/-! Transaction intents: what a script is compiled from. A mode is one of the known
words or, in an intent that was never checked, anything else. Of that only the form in
which messages show it is kept. -/
namespace LedgerScript

inductive Overdraft where
  | none
  | unbounded
  | limited
  | other (shown : String)
deriving DecidableEq, Repr

inductive DestinationKind where
  | simple
  | split
  | other (shown : String)
deriving DecidableEq, Repr

inductive AmountMode where
  | fraction
  | max
  | remaining
  | other (shown : String)
deriving DecidableEq, Repr

structure SplitRule where
  target : String
  mode : AmountMode
  value : String
deriving DecidableEq, Repr

/-- One movement from a source to a destination. The fields of the kind of destination
that is not declared may be filled too; they do not count. -/
structure Posting where
  source : String
  overdraft : Overdraft
  overdraftLimit : Option String
  destinationKind : DestinationKind
  simpleDestination : Option String
  splitRules : Option (List SplitRule)
  asset : String
  amount : String
deriving DecidableEq, Repr

structure MetadataEntry where
  key : String
  value : String
deriving DecidableEq, Repr

structure Intent where
  summary : String
  postings : List Posting
  metadata : List MetadataEntry
deriving DecidableEq, Repr

def standardAsset : String := "USD/2"

namespace Overdraft

def choices : List (String × Overdraft) :=
  [("none", .none), ("unbounded", .unbounded), ("limited", .limited)]

def word : Overdraft → String
  | .none => "none"
  | .unbounded => "unbounded"
  | .limited => "limited"
  | .other shown => shown

end Overdraft

namespace DestinationKind

def choices : List (String × DestinationKind) := [("simple", .simple), ("split", .split)]

def word : DestinationKind → String
  | .simple => "simple"
  | .split => "split"
  | .other shown => shown

end DestinationKind

namespace AmountMode

def choices : List (String × AmountMode) :=
  [("fraction", .fraction), ("max", .max), ("remaining", .remaining)]

def word : AmountMode → String
  | .fraction => "fraction"
  | .max => "max"
  | .remaining => "remaining"
  | .other shown => shown

end AmountMode
end LedgerScript
