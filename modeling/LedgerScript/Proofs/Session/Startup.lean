import LedgerScript.Proofs.Compilation.Blameless
import LedgerScript.Proofs.Flow.Independence
import LedgerScript.Proofs.Session.Steady
import LedgerScript.Proofs.Settings.Noninterference

/-! What the check at startup foretells. A flow can be set up without arguments if the sections of
the compiler and of the flow are in order, and a script can be compiled if that of the compiler is;
the first of these that is not in order is what the failure names. The section of the application
has no part in it. Where the settings file is no text and the root of the configuration was never
built, the check fails as all the rest does. -/
namespace LedgerScript
open Json (Value)
open Variables (lower)

theorem FlowSettings.load_bare {w w' : Surroundings}
    (h : w.environment.get? "NUMSCRIPT_DEFAULT_ASSET" =
      w'.environment.get? "NUMSCRIPT_DEFAULT_ASSET") : load w.bare = load w'.bare := by
  have hname : lower "NUMSCRIPT_DEFAULT_ASSET" =
      lower (defaultAssetSetting.lead ++ defaultAssetSetting.name) := by decide +kernel
  have hwinner : defaultAssetSetting.winner? w.bare = defaultAssetSetting.winner? w'.bare := by
    rw [Setting.winner?_bare rfl, Setting.winner?_bare rfl,
      ← Variables.get?_eq_of_lower hname, ← Variables.get?_eq_of_lower hname, h]
  rw [load, load, Sources.load_of_unread rfl, Sources.load_of_unread rfl, read, read,
    Setting.read_congr hwinner]

namespace Surroundings
variable {w : Surroundings}

end Surroundings

namespace Session
variable {s : Session}

end Session
end LedgerScript
