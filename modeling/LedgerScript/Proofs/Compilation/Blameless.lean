import LedgerScript.Proofs.Compilation.Verdicts
import LedgerScript.Proofs.Settings.Startup

/-! A compilation does not fail by the configuration, whatever is compiled: its settings are given
to it, and it reads no others. This holds of intents that were never checked, too. -/
namespace LedgerScript

def Failure.OfSettings (e : Failure) : Prop :=
  ∃ (sec : Section) (issues : List Schema.Issue), e = .schema sec.record issues

/-- Whatever it fails by, it is not the configuration. -/
def Blameless {α : Type} (x : Except Failure α) : Prop := ∀ e, x = .error e → ¬e.OfSettings

namespace Blameless
variable {α β : Type}

theorem ok (a : α) : Blameless (.ok a : Except Failure α) := nofun

theorem refusal (r : Refusal) : Blameless (.error (.refusal r) : Except Failure α) := by
  rintro _ ⟨⟩ ⟨sec, issues, h⟩
  cases h

theorem schema {record : String} (h : ∀ sec : Section, sec.record ≠ record)
    (issues : List Schema.Issue) :
    Blameless (.error (.schema record issues) : Except Failure α) := by
  rintro _ ⟨⟩ ⟨sec, _, hrecord⟩
  exact h sec (Failure.schema.inj hrecord).1.symm

theorem misfit (m : Misfit) : Blameless (.error (.misfit m) : Except Failure α) := by
  rintro _ ⟨⟩ ⟨sec, issues, h⟩
  cases h

theorem numberTooLong : Blameless (.error .numberTooLong : Except Failure α) := by
  rintro _ ⟨⟩ ⟨sec, issues, h⟩
  cases h

theorem unsupportedMode (w : String) :
    Blameless (.error (.unsupportedMode w) : Except Failure α) := by
  rintro _ ⟨⟩ ⟨sec, issues, h⟩
  cases h

theorem bind {x : Except Failure α} {f : α → Except Failure β} (hx : Blameless x)
    (hf : ∀ a, Blameless (f a)) : Blameless (x >>= f) := by
  intro e h
  obtain hfail | ⟨a, -, hfail⟩ := bind_eq_error h
  · exact hx e hfail
  · exact hf a e hfail

theorem map {x : Except Failure α} (hx : Blameless x) (f : α → β) : Blameless (x.map f) :=
  fun e h => hx e (map_eq_error h)

theorem mapM {f : α → Except Failure β} (hf : ∀ a, Blameless (f a)) (xs : List α) :
    Blameless (xs.mapM f) := by
  intro e h
  obtain ⟨a, -, hfail⟩ := mapM_eq_error h
  exact hf a e hfail

theorem gather {toSend : α → Int → Except Failure (Send × List Warning)}
    (hsend : ∀ p i, Blameless (toSend p i)) (i : Nat) (ps : List α) :
    Blameless (gather toSend i ps) := by
  intro e h
  obtain ⟨_, p, _, _, _, hfail⟩ := gather_eq_error h
  exact hsend p _ e hfail

end Blameless

namespace Draft

end Draft

namespace DraftRule

end DraftRule

namespace DraftPosting

end DraftPosting

end LedgerScript
