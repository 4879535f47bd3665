import LedgerScript.Failure
import LedgerScript.Intent.Schema
import LedgerScript.Json.Display

/-! Intents that were never checked. A draft holds the entries of its records as they
stand; only metadata is read with care. Absent entries take their defaults or, where
there is none, stay absent, which comes out when they are needed. -/
namespace LedgerScript
open Json (Value Fields)

structure DraftRule where
  target : Option Value
  mode : Option Value
  value : Value

structure DraftPosting where
  source : Option Value
  overdraft : Overdraft
  overdraftLimit : Value
  destinationKind : Option Value
  simpleDestination : Value
  splitRules : Value
  asset : Value
  amount : Option Value

structure DraftIntent where
  summary : Option Value
  postings : Option (List DraftPosting)
  metadata : List MetadataEntry

namespace Draft

/-- One of the listed words, read as what it names, or anything else as it would show. -/
def mode {α : Type} (choices : List (String × α)) (other : String → α) : Value → α
  | .text s => (choices.lookup s).getD (other (Value.nested (.text s)))
  | v => other v.nested

/-- The same where it has to be shown if it is none of the words. -/
def toldMode {α : Type} (choices : List (String × α)) (other : String → α) (v : Value) :
    Except Failure α :=
  if v.isWritable then .ok (mode choices other v) else .error .numberTooLong

def fields : Value → Fields
  | .object fs => fs
  | _ => []

def items : Value → List Value
  | .list vs => vs
  | _ => []

/-- An entry without a default has to be there. -/
def present {α : Type} (record field : String) : Option α → Except Failure α
  | some a => .ok a
  | none => .error (.misfit (.absent record field))

end Draft

def DraftRule.ofValue (v : Value) : DraftRule :=
  let fs := Draft.fields v
  { target := fs.get? "target"
    mode := fs.get? "amount_mode"
    value := (fs.get? "value").getD (.text "") }

def DraftPosting.ofValue (v : Value) : DraftPosting :=
  let fs := Draft.fields v
  { source := fs.get? "source"
    overdraft :=
      ((fs.get? "source_overdraft").map (Draft.mode Overdraft.choices .other)).getD .none
    overdraftLimit := (fs.get? "overdraft_limit").getD .null
    destinationKind := fs.get? "destination_type"
    simpleDestination := (fs.get? "simple_destination").getD .null
    splitRules := (fs.get? "split_rules").getD .null
    asset := (fs.get? "asset").getD (.text standardAsset)
    amount := fs.get? "amount" }

/-- The first metadata entry at fault decides the failure. -/
def DraftIntent.read (v : Value) : Except Failure DraftIntent := do
  let fs := Draft.fields v
  let metadata ← (Draft.items ((fs.get? "metadata").getD .null)).mapM fun e =>
    (MetadataEntry.read e).orFail "MetadataEntry"
  let postings := (fs.get? "postings").map fun v => (Draft.items v).map DraftPosting.ofValue
  return ⟨fs.get? "summary", postings, metadata⟩

end LedgerScript
