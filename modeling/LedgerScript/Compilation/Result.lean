import LedgerScript.Failure
import LedgerScript.Schema.Reader

/-! What a compilation hands back: the script text with counts and warnings, and the
recap a person reads before sending it on. -/
namespace LedgerScript
open Json (Value)
open Schema

inductive WarningCode where
  | conflictingSplitModes
deriving DecidableEq, Repr

def WarningCode.word : WarningCode → String
  | .conflictingSplitModes => "conflicting_split_modes"

def WarningCode.choices : List (String × WarningCode) :=
  [("conflicting_split_modes", .conflictingSplitModes)]

inductive Gravity where
  | warning
  | info
deriving DecidableEq, Repr

def Gravity.word : Gravity → String
  | .warning => "warning"
  | .info => "info"

def Gravity.read : Reader Gravity := fun v =>
  (fun s => if s = "info" then .info else .warning) <$> Reader.textAmong ["warning", "info"] v

structure Warning where
  code : WarningCode
  postingIndex : Option Nat
  message : String
  gravity : Gravity
deriving DecidableEq, Repr

namespace Warning

def read : Reader Warning := Reader.record "CompilationWarning" fun fs =>
  Warning.mk
    <$> required "code" (Reader.oneOf WarningCode.choices) fs
    <*> optional "posting_index" none (Reader.nullable (Reader.atLeast 0)) fs
    <*> required "message" Reader.text fs
    <*> optional "severity" .warning Gravity.read fs

def toValue (w : Warning) : Value := .object
  [("code", .text w.code.word),
   ("posting_index", .ofOption .ofNat w.postingIndex),
   ("message", .text w.message),
   ("severity", .text w.gravity.word)]

def conflictMessage (index : Int) : String :=
  "Posting " ++ Decimal.intText (index + 1) ++
    " mixes fraction and max split rules; rendering all of them as capped amounts"

/-- A warning is about a posting, so there is none for a negative index. -/
def conflict (index : Int) : Except Failure Warning :=
  if 0 ≤ index then
    .ok ⟨.conflictingSplitModes, some index.toNat, conflictMessage index, .warning⟩
  else .error (.schema "CompilationWarning" [⟨[.field "posting_index"], .below 0⟩])

end Warning

structure Compiled where
  script : String
  warnings : List Warning
  postingCount : Nat
  metadataCount : Nat
deriving DecidableEq, Repr

namespace Compiled

def read : Reader Compiled := Reader.record "CompilationResult" fun fs =>
  Compiled.mk
    <$> required "script" Reader.text fs
    <*> optional "warnings" [] (Reader.list Warning.read) fs
    <*> required "posting_count" (Reader.atLeast 1) fs
    <*> optional "metadata_count" 0 (Reader.atLeast 0) fs

def toValue (c : Compiled) : Value := .object
  [("script", .text c.script),
   ("warnings", .list (c.warnings.map Warning.toValue)),
   ("posting_count", .ofNat c.postingCount),
   ("metadata_count", .ofNat c.metadataCount)]

/-- A result stands for at least one statement. -/
def make (script : String) (warnings : List Warning) (postings metadata : Nat) :
    Except Failure Compiled :=
  if 1 ≤ postings then .ok ⟨script, warnings, postings, metadata⟩
  else .error (.schema "CompilationResult" [⟨[.field "posting_count"], .below 1⟩])

def hasWarnings (c : Compiled) : Bool := 0 < c.warnings.length

def warningsFor (c : Compiled) (code : WarningCode) : List Warning :=
  c.warnings.filter (·.code = code)

def headline (c : Compiled) : String :=
  Decimal.natText c.postingCount ++ " posting(s), " ++ Decimal.natText c.metadataCount ++
    " metadata entr" ++ (if c.metadataCount = 1 then "y" else "ies")

def recap (c : Compiled) : String :=
  if c.warnings = [] then "✅ Script compiled: " ++ c.headline ++ "."
  else
    "\n".intercalate <|
      ("⚠️ Script compiled with " ++ Decimal.natText c.warnings.length ++ " warning(s): " ++
        c.headline ++ ".") ::
      c.warnings.map (fun w => "   • " ++ w.message) ++
      ["", "Please review the script before sending it to the checker."]

end Compiled
end LedgerScript
