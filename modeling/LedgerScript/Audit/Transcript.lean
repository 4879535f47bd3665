import LedgerScript.Audit.Event

/-! A computation that leaves a trace: the acts it performed, in order, and its
outcome. A failure ends the computation and keeps the acts before it. -/
namespace LedgerScript
open Json (Fields)

structure Note where
  severity : Severity
  event : String
  fields : Fields

inductive Act where
  | audit (e : Event)
  | note (n : Note)

structure Transcript (α : Type) where
  acts : List Act
  outcome : Except Failure α

namespace Transcript
variable {α β : Type}

def done (a : α) : Transcript α := ⟨[], .ok a⟩

def ofExcept (e : Except Failure α) : Transcript α := ⟨[], e⟩

def perform (acts : List Act) : Transcript Unit := ⟨acts, .ok ()⟩

def andThen (t : Transcript α) (f : α → Transcript β) : Transcript β :=
  match t.outcome with
  | .ok a => ⟨t.acts ++ (f a).acts, (f a).outcome⟩
  | .error e => ⟨t.acts, .error e⟩

instance : Monad Transcript where
  pure := done
  bind := andThen

@[simp] theorem acts_pure (a : α) : (pure a : Transcript α).acts = [] := rfl

@[simp] theorem outcome_pure (a : α) : (pure a : Transcript α).outcome = .ok a := rfl

theorem outcome_bind (t : Transcript α) (f : α → Transcript β) :
    (t >>= f).outcome = t.outcome.bind fun a => (f a).outcome := by
  show (t.andThen f).outcome = _
  unfold andThen
  cases t.outcome <;> rfl

theorem acts_bind_of_ok (t : Transcript α) (f : α → Transcript β) {a : α}
    (h : t.outcome = .ok a) : (t >>= f).acts = t.acts ++ (f a).acts := by
  show (t.andThen f).acts = _
  simp only [andThen, h]

theorem acts_bind_of_error (t : Transcript α) (f : α → Transcript β) {e : Failure}
    (h : t.outcome = .error e) : (t >>= f).acts = t.acts := by
  show (t.andThen f).acts = _
  simp only [andThen, h]

/-- On a refusal the handler acts too, and the refusal stands. -/
def onRefusal (t : Transcript α) (handle : Refusal → Transcript Unit) : Transcript α :=
  match t.outcome with
  | .error (.refusal r) =>
    { acts := t.acts ++ (handle r).acts
      outcome := (handle r).outcome.bind fun _ => .error (.refusal r) }
  | _ => t

end Transcript
end LedgerScript
