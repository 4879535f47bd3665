import LedgerScript.Schema.Reader
import LedgerScript.Settings.File
import LedgerScript.Settings.Options

/-! Where the value of a setting comes from: an explicit argument, else the
environment, else the settings file if the section reads it. Only the value that wins
is ever looked at. -/
namespace LedgerScript
open Json (Value Fields)
open Schema

structure Sources where
  arguments : Fields
  environment : Environment
  file : SettingsFile
  options : Options

/-- A setting by its name as an argument, and what its name as a variable starts with. -/
structure Setting where
  name : String
  lead : String
  inFile : Bool

namespace Sources

/-- The argument for a setting: the first whose name differs at most in case. -/
def argument? (src : Sources) (name : String) : Option Value :=
  (src.arguments.find? fun (k, _) => Variables.lower k = Variables.lower name).map Prod.snd

def environmentVariables (src : Sources) : Variables (Option String) :=
  src.environment.map fun (k, v) => (k, some v)

def fileVariables (src : Sources) : Variables (Option String) :=
  src.file.assignments src.environment

def load {α : Type} (src : Sources) (inFile : Bool) (record : String)
    (read : Sources → Checked α) : Except Failure α := do
  if src.options.readsFile.getD inFile then src.file.opened
  (read src).orFail record

end Sources

namespace Setting
variable {α : Type}

def key (s : Setting) (o : Options) : String := o.lead.getD s.lead ++ s.name

def winner? (s : Setting) (src : Sources) : Option Value :=
  let o := src.options
  match src.argument? s.name with
  | some v => some v
  | none =>
    match o.find? src.environmentVariables (s.key o) with
    | some v => some v
    | none => if o.readsFile.getD s.inFile then o.find? src.fileVariables (s.key o) else none

/-- The default is not checked. -/
def read (s : Setting) (default : α) (r : Reader α) (src : Sources) : Checked α :=
  match s.winner? src with
  | some v => (r v).within (.field s.name)
  | none => .accepted default

end Setting
end LedgerScript
