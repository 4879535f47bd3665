import LedgerScript.Schema.Issue

/-! The outcome of a check: the value, or all issues found. Two outcomes combine by
collecting the issues of both, so a record reports every faulty field at once. -/
namespace LedgerScript.Schema

inductive Checked (α : Type) where
  | accepted (a : α)
  | rejected (first : Issue) (rest : List Issue)

namespace Checked
variable {α β : Type}

def issues : Checked α → List Issue
  | .accepted _ => []
  | .rejected i is => i :: is

def value? : Checked α → Option α
  | .accepted a => some a
  | .rejected .. => none

def reject (f : Fault) : Checked α := .rejected ⟨[], f⟩ []

def map (f : α → β) : Checked α → Checked β
  | .accepted a => .accepted (f a)
  | .rejected i is => .rejected i is

def seq : Checked (α → β) → Checked α → Checked β
  | .accepted f, c => c.map f
  | .rejected i is, c => .rejected i (is ++ c.issues)

instance : Functor Checked where
  map := map

instance : Applicative Checked where
  pure := accepted
  seq f c := f.seq (c ())

@[simp] theorem issues_map (f : α → β) (c : Checked α) : (f <$> c).issues = c.issues := by
  cases c <;> rfl

@[simp] theorem issues_seq (f : Checked (α → β)) (c : Checked α) :
    (f <*> c).issues = f.issues ++ c.issues := by
  cases f <;> cases c <;> simp [Seq.seq, seq, map, issues]

def andThen (c : Checked α) (f : α → Checked β) : Checked β :=
  match c with
  | .accepted a => f a
  | .rejected i is => .rejected i is

def within (s : Step) : Checked α → Checked α
  | .accepted a => .accepted a
  | .rejected i is => .rejected (i.within s) (is.map (Issue.within s))

@[simp] theorem issues_within (s : Step) (c : Checked α) :
    (c.within s).issues = c.issues.map (Issue.within s) := by
  cases c <;> rfl

end Checked
end LedgerScript.Schema
