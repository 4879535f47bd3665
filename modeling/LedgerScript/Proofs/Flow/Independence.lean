import LedgerScript.Proofs.Flow.Supervision
import LedgerScript.Session
import LedgerScript.Settings.Dotenv

/-! A flow comes out as the compiler alone does. Neither its auditor nor what happened at
its desk before has a part in it: an answer depends on the settings and on what is handed
in. -/
namespace LedgerScript
open Json (Value Fields)

namespace Command

def Sized (intake : FlowSettings) : Command → Prop
  | .compilePayload v _ =>
    (∀ n ∈ Payload.postingCount? v, n < listCapacity) ∧
      (Intent.read (Payload.withDefaultAsset intake.defaultAsset v)).issues.length < listCapacity
  | .compileIntent v _ _ => ∀ n ∈ Payload.postingCount? v, n < listCapacity
  | _ => True

/-- Every number in a payload can be written, as it is in whatever a JSON text holds. -/
def Legible : Command → Prop
  | .compilePayload v _ => v.isWritable
  | _ => True

def keepsFlow : Command → Bool
  | .newFlow _ => false
  | _ => true

end Command

theorem Schema.Checked.orFail_eq_ok {α : Type} {record : String} {c : Checked α} {a : α}
    (h : c.orFail record = .ok a) : c = .accepted a := by
  cases c with
  | accepted b =>
    cases h
    rfl
  | rejected i is => cases h

namespace Flow
variable (f : Flow) (c : Correlation)

end Flow

namespace Session

/-- The sessions that a session may have become while its flow stayed in place. Commands
were answered, be it with failures; and things were put on record besides, by calls that
broke off or by other flows that share the auditor. -/
inductive Since (s : Session) : Session → Prop where
  | start : Since s s
  | answered {t u : Session} {command : Command} {a : Answer} (ht : Since s t)
      (hc : command.keepsFlow) (h : t.step command = .ok (u, a)) : Since s u
  | recorded {t : Session} {d : Desk} (ht : Since s t) (hd : t.desk = some d) (acts : List Act)
      (drawn : Nat) : Since s { (t.settle d acts).1 with drawn := drawn }

theorem Since.run {s t u : Session} (ht : s.Since t) {commands : List Command}
    (hc : ∀ c ∈ commands, c.keepsFlow) {answers : List Answer}
    (h : t.run commands = .ok (u, answers)) : s.Since u := by
  induction commands generalizing t answers with
  | nil =>
    cases h
    exact ht
  | cons c cs ih =>
    obtain ⟨hfirst, hrest⟩ := List.forall_mem_cons.mp hc
    cases hstep : t.step c with
    | error e => simp [Session.run, hstep, Except.bind] at h
    | ok p =>
      obtain ⟨r, a⟩ := p
      cases hcs : r.run cs with
      | error e => simp [Session.run, hstep, hcs, Except.bind, Except.map] at h
      | ok q =>
        obtain ⟨v, as⟩ := q
        simp only [Session.run, hstep, hcs, Except.bind, Except.map, Except.ok.injEq,
          Prod.mk.injEq] at h
        obtain ⟨rfl, -⟩ := h
        exact ih (ht.answered hfirst hstep) hrest hcs

end Session
end LedgerScript
