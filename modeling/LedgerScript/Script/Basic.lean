import LedgerScript.Intent.Basic

/-! Ledger scripts as trees, and their text. A script is a summary comment, send
statements and metadata statements; nothing is escaped. -/
namespace LedgerScript

structure Money where
  asset : String
  amount : String
deriving DecidableEq, Repr

inductive Allowance where
  | none
  | unbounded
  | upTo (limit : Money)
deriving DecidableEq, Repr

inductive Share where
  | percentage (text : String)
  | cap (limit : Money)
  | remaining
deriving DecidableEq, Repr

structure Allocation where
  share : Share
  target : String
deriving DecidableEq, Repr

inductive Destination where
  | account (address : String)
  | block (allocations : List Allocation)
deriving DecidableEq, Repr

structure Source where
  account : String
  allowance : Allowance
deriving DecidableEq, Repr

structure Send where
  money : Money
  source : Source
  destination : Destination
deriving DecidableEq, Repr

structure Script where
  summary : String
  sends : List Send
  metadata : List MetadataEntry
deriving DecidableEq, Repr

def Money.render (m : Money) : String := "[" ++ m.asset ++ " " ++ m.amount ++ "]"

def Allowance.render : Allowance → String
  | .none => ""
  | .unbounded => " allowing unbounded overdraft"
  | .upTo limit => " allowing overdraft up to " ++ limit.render

def Share.render : Share → String
  | .percentage text => text
  | .cap limit => "max " ++ limit.render
  | .remaining => "remaining"

def Allocation.render (a : Allocation) : String :=
  "    " ++ a.share.render ++ " to " ++ a.target

def Destination.render : Destination → String
  | .account address => address
  | .block as => "\x7b\n" ++ "\n".intercalate (as.map Allocation.render) ++ "\n  \x7d"

def Source.render (s : Source) : String := s.account ++ s.allowance.render

def Send.render (s : Send) : String :=
  "\n".intercalate
    ["send " ++ s.money.render ++ " (",
     "  source = " ++ s.source.render,
     "  destination = " ++ s.destination.render,
     ")"]

def MetadataEntry.render (e : MetadataEntry) : String :=
  "set_tx_meta(\"" ++ e.key ++ "\", \"" ++ e.value ++ "\")"

/-- The blocks of a script, which blank lines separate: the comment, each statement,
and all metadata in one block if there is any. -/
def Script.blocks (s : Script) : List String :=
  ("// " ++ s.summary) :: s.sends.map Send.render ++
    (if s.metadata = [] then [] else ["\n".intercalate (s.metadata.map MetadataEntry.render)])

def Script.render (s : Script) (trailingNewline : Bool) : String :=
  "\n\n".intercalate s.blocks ++ (if trailingNewline then "\n" else "")

end LedgerScript
