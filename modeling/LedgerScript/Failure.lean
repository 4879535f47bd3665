import LedgerScript.Json.Value
import LedgerScript.Schema.Checked

/-! Why an operation gives no result. A refusal is the verdict of the compilation on an
intent; the other failures are defects of the data or the configuration, of a number that
is too long to be written, or of a settings file whose bytes are no text. -/
namespace LedgerScript
open Schema

/-- What is wrong with the destination of a posting. -/
inductive Defect where
  | noSimpleDestination
  | noSplitRules
  | unsupportedKind (shown : String)
  | stated (reason : String)
deriving DecidableEq, Repr

def Defect.reason : Defect → String
  | .noSimpleDestination => "has simple destination type but no simple destination"
  | .noSplitRules => "has split destination type but no split rules"
  | .unsupportedKind shown => "has unsupported destination type " ++ shown
  | .stated reason => reason

/-- Postings are counted from zero, and from one in messages. -/
inductive Refusal where
  | malformed (index : Int) (defect : Defect)
  | conflict (index : Int) (message : String)
  | invalid (issues : List String) (message : Option String)
deriving DecidableEq, Repr

namespace Refusal

def index? : Refusal → Option Int
  | .malformed i _ | .conflict i _ => some i
  | .invalid .. => none

/-- A message given for an invalid intent counts only if it is not empty. -/
def message : Refusal → String
  | .malformed i d => "posting " ++ Decimal.intText (i + 1) ++ " " ++ d.reason
  | .conflict _ m => m
  | .invalid issues given =>
    match given.filter (· ≠ "") with
    | some m => m
    | none => "Intent failed schema validation: " ++ "; ".intercalate issues

end Refusal

/-- An entry of a record that was never checked does not do where it is needed: it is
not there, or it is no text to tell an account or to take a cap from, or nothing in which
a percent sign can be looked for, or no mode that can be compared with others, or no
list of rules. -/
inductive Misfit where
  | absent (record field : String)
  | account (found : Json.Kind)
  | cap (found : Json.Kind)
  | share (found : Json.Kind)
  | mode (found : Json.Kind)
  | rules (found : Json.Kind)
deriving DecidableEq, Repr

inductive Failure where
  | refusal (r : Refusal)
  | misfit (m : Misfit)
  | numberTooLong
  | unsupportedMode (shown : String)
  | undecodable (reason : String)
  | schema (record : String) (issues : List Issue)
deriving DecidableEq, Repr

def Failure.shown : Option String → Except Failure String
  | some s => .ok s
  | none => .error .numberTooLong

def unsupportedModeMessage (shown : String) : String := "Unsupported amount mode: " ++ shown

def Schema.Checked.orFail {α : Type} (record : String) : Checked α → Except Failure α
  | .accepted a => .ok a
  | .rejected i is => .error (.schema record (i :: is))

end LedgerScript
