import LedgerScript.Failure
import LedgerScript.Intent.Basic
import LedgerScript.Settings.Sources
import LedgerScript.Text.Excerpt
import LedgerScript.Text.Quoted

/-! The three sections of the configuration and how each is read, the root through which
they are reached, and the check at startup that reports on all of them. -/
namespace LedgerScript
open Json (Value Fields)
open Schema

structure CompilerSettings where
  strictSplitModes : Bool
  trailingNewline : Bool
deriving DecidableEq, Repr

structure FlowSettings where
  defaultAsset : String
deriving DecidableEq, Repr

structure AppSettings where
  debugMode : Bool
  logJson : Bool
deriving DecidableEq, Repr

namespace CompilerSettings

def strictSplitModesSetting : Setting := ⟨"strict_split_modes", "NUMSCRIPT_", false⟩

def trailingNewlineSetting : Setting := ⟨"trailing_newline", "NUMSCRIPT_", false⟩

def read (src : Sources) : Checked CompilerSettings :=
  CompilerSettings.mk
    <$> strictSplitModesSetting.read false Reader.flag src
    <*> trailingNewlineSetting.read true Reader.flag src

def load (src : Sources) : Except Failure CompilerSettings :=
  src.load false "CompilerSettings" read

def toValue (s : CompilerSettings) : Value := .object
  [("strict_split_modes", .bool s.strictSplitModes), ("trailing_newline", .bool s.trailingNewline)]

end CompilerSettings

namespace FlowSettings

def defaultAssetSetting : Setting := ⟨"default_asset", "NUMSCRIPT_", false⟩

/-- An asset is trimmed; then it must hold something and no plain space. -/
def asset (s : String) : Checked String :=
  let t := Text.trim s
  if t = "" ∨ ' ' ∈ t.toList then
    .reject (.refused ("Invalid asset notation: " ++ Text.quoted t))
  else .accepted t

def read (src : Sources) : Checked FlowSettings :=
  FlowSettings.mk
    <$> defaultAssetSetting.read standardAsset (fun v => (Reader.text v).andThen asset) src

def load (src : Sources) : Except Failure FlowSettings := src.load false "FlowSettings" read

def toValue (s : FlowSettings) : Value := .object [("default_asset", .text s.defaultAsset)]

end FlowSettings

namespace AppSettings

def debugModeSetting : Setting := ⟨"debug_mode", "", true⟩
def logJsonSetting : Setting := ⟨"log_json", "", true⟩

def read (src : Sources) : Checked AppSettings :=
  AppSettings.mk
    <$> debugModeSetting.read false Reader.flag src
    <*> logJsonSetting.read true Reader.flag src

def load (src : Sources) : Except Failure AppSettings := src.load true "AppSettings" read

def toValue (s : AppSettings) : Value := .object
  [("debug_mode", .bool s.debugMode), ("log_json", .bool s.logJson)]

end AppSettings

inductive Section where
  | compiler
  | flow
  | app
deriving DecidableEq, Repr

namespace Section

def all : List Section := [.compiler, .flow, .app]

def name : Section → String
  | .compiler => "compiler"
  | .flow => "flow"
  | .app => "app"

def settings : Section → List Setting
  | .compiler => [CompilerSettings.strictSplitModesSetting, CompilerSettings.trailingNewlineSetting]
  | .flow => [FlowSettings.defaultAssetSetting]
  | .app => [AppSettings.debugModeSetting, AppSettings.logJsonSetting]

def load (s : Section) (src : Sources) : Except Failure Value :=
  match s with
  | .compiler => (CompilerSettings.load src).map CompilerSettings.toValue
  | .flow => (FlowSettings.load src).map FlowSettings.toValue
  | .app => (AppSettings.load src).map AppSettings.toValue

def raw? (s : Section) (src : Sources) (i : Issue) : Option Value :=
  (s.settings.find? fun t => i.path = [.field t.name]).bind fun t => t.winner? src

def issueText (s : Section) (src : Sources) (i : Issue) : String :=
  let raw := match s.raw? src i with
    | some (.text t) => t
    | _ => ""
  i.path.text ++ "\n  " ++ i.fault.message.getD "" ++ " [type=" ++ i.fault.code ++
    ", input_value=" ++ Text.excerpt (Text.quoted raw) ++ ", input_type=str]"

def report (s : Section) (src : Sources) (record : String) (issues : List Issue) : String :=
  Decimal.natText issues.length ++ " validation error" ++ (if issues.length = 1 then "" else "s") ++
    " for " ++ record ++ "\n" ++ "\n".intercalate (issues.map (s.issueText src))

/-- What is wrong with a section, if anything. A section fails in no other ways. -/
def problem? (s : Section) (src : Sources) : Option String :=
  match s.load src with
  | .ok _ => none
  | .error (.schema record issues) => some (s.report src record issues)
  | .error (.undecodable reason) => some reason
  | .error _ => some ""

def reports (src : Sources) : Fields :=
  all.flatMap fun s =>
    (s.name, .bool (s.problem? src).isNone) ::
      (s.problem? src).toList.map fun p => (s.name ++ "_error", .text p)

end Section

/-- What a process takes its configuration from. -/
structure Surroundings where
  environment : Environment
  file : SettingsFile
  rooted : Bool

namespace Surroundings

def sources (w : Surroundings) (arguments : Fields) (options : Options) : Sources :=
  ⟨arguments, w.environment, w.file, options⟩

def bare (w : Surroundings) : Sources := w.sources [] .standard

/-- The root has no settings, but the settings file is read when it is built, which happens
once. -/
def root (w : Surroundings) : Except Failure Unit := if w.rooted then .ok () else w.file.opened

def compilerSettings (w : Surroundings) : Except Failure CompilerSettings := do
  w.root
  CompilerSettings.load w.bare

def flowSettings (w : Surroundings) : Except Failure FlowSettings := do
  w.root
  FlowSettings.load w.bare

def load (w : Surroundings) (s : Section) : Except Failure Value := do
  w.root
  s.load w.bare

/-- The root is reached before any section is looked at. -/
def startupReport (w : Surroundings) : Except Failure Fields := do
  w.root
  return Section.reports w.bare

end Surroundings

end LedgerScript
