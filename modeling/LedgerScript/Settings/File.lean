import LedgerScript.Failure
import LedgerScript.Settings.Variables

/-! The settings file of a process. How its lines are parsed is not said here: a file that
holds text stands for what it assigns, which may depend on the environment, as values may
refer to variables. -/
namespace LedgerScript

/-- The reason says why the bytes of a file are no text. -/
inductive SettingsFile where
  | text (assigns : Environment → Variables (Option String))
  | undecodable (reason : String)

namespace SettingsFile

def opened : SettingsFile → Except Failure Unit
  | .text _ => .ok ()
  | .undecodable reason => .error (.undecodable reason)

def assignments (f : SettingsFile) (env : Environment) : Variables (Option String) :=
  match f with
  | .text assigns => assigns env
  | .undecodable _ => []

end SettingsFile
end LedgerScript
