import LedgerScript.Settings.Sections

/-! What the check at startup tells of a section: that it can be read, or else how it fails to.
The check comes to its end wherever the root of the configuration can be reached, and a section
fails by the issues with its own values, or as the settings file that it reads is no text. -/
namespace LedgerScript
open Json (Value Fields)
open Schema

theorem map_eq_error {α β : Type} {f : α → β} {x : Except Failure α} {e : Failure}
    (h : x.map f = .error e) : x = .error e := by
  cases x with
  | error e' =>
    cases h
    rfl
  | ok a => cases h

namespace Sources
variable {α : Type} {src : Sources} {inFile : Bool} {record : String} {read : Sources → Checked α}

theorem load_of_unread (h : src.options.readsFile.getD inFile = false) :
    src.load inFile record read = (read src).orFail record := by
  simp only [load, h, Bool.false_eq_true, if_false]

theorem load_of_text {assigns : Environment → Variables (Option String)}
    (h : src.file = .text assigns) : src.load inFile record read = (read src).orFail record := by
  simp only [load, h, SettingsFile.opened]
  split <;> rfl

theorem load_of_undecodable (hreads : src.options.readsFile.getD inFile = true) {reason : String}
    (h : src.file = .undecodable reason) :
    src.load inFile record read = .error (.undecodable reason) := by
  simp only [load, hreads, if_true, h, SettingsFile.opened]
  rfl

theorem opens_of_load {a : α} (h : src.load inFile record read = .ok a) :
    src.options.readsFile.getD inFile → ∃ assigns, src.file = .text assigns := by
  intro hreads
  cases hfile : src.file with
  | text assigns => exact ⟨assigns, rfl⟩
  | undecodable reason =>
    rw [load_of_undecodable hreads hfile] at h
    cases h

end Sources

namespace Surroundings

/-- The root of the configuration was built before, or it can be built now. -/
def Reachable (w : Surroundings) : Prop := w.rooted = true ∨ ∃ assigns, w.file = .text assigns

variable {w : Surroundings}

theorem root_of_reachable (h : w.Reachable) : w.root = .ok () := by
  obtain hrooted | ⟨assigns, hfile⟩ := h
  · simp [root, hrooted]
  · simp [root, hfile, SettingsFile.opened]

theorem root_of_undecodable (hrooted : w.rooted = false) {reason : String}
    (hfile : w.file = .undecodable reason) : w.root = .error (.undecodable reason) := by
  simp [root, hrooted, hfile, SettingsFile.opened]

end Surroundings

namespace Section

def record : Section → String
  | .compiler => "CompilerSettings"
  | .flow => "FlowSettings"
  | .app => "AppSettings"

section
variable (sec : Section) (src : Sources)

end

variable {sec : Section} {w : Surroundings}

end Section
end LedgerScript
