import LedgerScript.Audit.Log

/-! What becomes of acts in the log. Each act that passes leaves one record, in order, and the form
of a channel does not change while they are performed. So the records of each channel can be told
from the events and the notes among the acts. -/
namespace LedgerScript

def Act.note? : Act → Option Note
  | .audit _ => none
  | .note n => some n

def notes (acts : List Act) : List Note := acts.filterMap Act.note?

theorem notes_append (u v : List Act) : notes (u ++ v) = notes u ++ notes v := by
  simp [notes]

theorem notes_map {α : Type} (f : α → Note) (xs : List α) :
    notes (xs.map fun x => .note (f x)) = xs.map f := by
  simp [notes, List.filterMap_map, Function.comp_def, Act.note?]

/-- Identities change nothing else about the events, and nothing at all about the notes. -/
theorem events_identify (n : Nat) (acts : List Act) :
    events (Act.identify n acts) =
      ((events acts).zipIdx n).map fun (e, number) => e.identified number := by
  induction acts generalizing n with
  | nil => rfl
  | cons a acts ih =>
    cases a with
    | audit e => exact congrArg (e.identified n :: ·) (ih (n + 1))
    | note m => exact ih n

theorem notes_identify (n : Nat) (acts : List Act) : notes (Act.identify n acts) = notes acts := by
  induction acts generalizing n with
  | nil => rfl
  | cons a acts ih =>
    cases a with
    | audit e => exact ih (n + 1)
    | note m => exact congrArg (m :: ·) (ih n)

theorem identify_append (n : Nat) (u v : List Act) :
    Act.identify n (u ++ v) = Act.identify n u ++ Act.identify (n + (events u).length) v := by
  induction u generalizing n with
  | nil => rfl
  | cons a u ih =>
    cases a with
    | audit e =>
      have hcount : n + (events (.audit e :: u)).length = n + 1 + (events u).length := by
        show n + ((events u).length + 1) = _
        omega
      rw [hcount]
      exact congrArg (Act.audit (e.identified n) :: ·) (ih (n + 1))
    | note m => exact congrArg (Act.note m :: ·) (ih n)

theorem channel_of_mem_identify {c : Channel} {acts : List Act} (h : ∀ a ∈ acts, a.channel = c)
    {n : Nat} : ∀ a ∈ Act.identify n acts, a.channel = c := by
  induction acts generalizing n with
  | nil => nofun
  | cons a acts ih =>
    obtain ⟨hfirst, hrest⟩ := List.forall_mem_cons.mp h
    cases a with
    | audit e => exact List.forall_mem_cons.mpr ⟨hfirst, ih hrest⟩
    | note m => exact List.forall_mem_cons.mpr ⟨hfirst, ih hrest⟩

namespace Logging

/-- The form of a channel, which is settled on now at the latest. -/
def formOf (l : Logging) (sinks : Sinks) (c : Channel) : Form := (sinks.form? c).getD l.form

theorem formOf_settle (l : Logging) (sinks : Sinks) (c d : Channel) :
    l.formOf (sinks.settle c (l.formOf sinks c)) d = l.formOf sinks d := by
  obtain ⟨audit, compiler⟩ := sinks
  cases c with
  | audit => cases d <;> cases audit <;> rfl
  | compiler => cases d <;> cases compiler <;> rfl

theorem records_run (l : Logging) (sinks : Sinks) (acts : List Act) :
    (l.run sinks acts).2 =
      (acts.filter fun a => l.passes a.severity).map fun a => ⟨l.formOf sinks a.channel, a⟩ := by
  induction acts generalizing sinks with
  | nil => rfl
  | cons a acts ih =>
    have hforms : ∀ b : Act, l.formOf (l.emit sinks a).1 b.channel = l.formOf sinks b.channel :=
      fun b => l.formOf_settle sinks a.channel b.channel
    have hrest := ih (l.emit sinks a).1
    simp only [hforms] at hrest
    simp only [run, hrest]
    cases hpass : l.passes a.severity with
    | true => simp [emit, hpass, formOf]
    | false => simp [emit, hpass]

end Logging

theorem filter_audit (acts : List Act) :
    acts.filter (·.channel = .audit) = (events acts).map .audit := by
  induction acts with
  | nil => rfl
  | cons a acts ih =>
    cases a with
    | audit e => exact congrArg (Act.audit e :: ·) ih
    | note n => exact ih

theorem filter_compiler (acts : List Act) :
    acts.filter (·.channel = .compiler) = (notes acts).map .note := by
  induction acts with
  | nil => rfl
  | cons a acts ih =>
    cases a with
    | audit e => exact ih
    | note n => exact congrArg (Act.note n :: ·) ih

def Record.on (c : Channel) (rs : List Record) : List Record := rs.filter (·.channel = c)

namespace Logging
variable (l : Logging) (sinks : Sinks) (acts : List Act)

theorem on_run (c : Channel) :
    Record.on c (l.run sinks acts).2 =
      ((acts.filter (·.channel = c)).filter fun a => l.passes a.severity).map
        (Record.mk (l.formOf sinks c)) := by
  have hfilter : acts.filter (fun a => a.channel = c && l.passes a.severity) =
      (acts.filter (·.channel = c)).filter fun a => l.passes a.severity := by
    rw [List.filter_filter]
    exact List.filter_congr fun a _ => Bool.and_comm _ _
  rw [records_run, Record.on, List.filter_map, List.filter_filter, ← hfilter]
  refine List.map_congr_left fun a ha => ?_
  have hchannel : a.channel = c :=
    of_decide_eq_true (Bool.and_eq_true_iff.mp (List.mem_filter.mp ha).2).1
  rw [hchannel]

theorem on_audit_run :
    Record.on .audit (l.run sinks acts).2 =
      ((events acts).filter fun e => l.passes e.severity).map fun e =>
        ⟨l.formOf sinks .audit, .audit e⟩ := by
  rw [on_run, filter_audit, List.filter_map, List.map_map]
  rfl

theorem on_compiler_run :
    Record.on .compiler (l.run sinks acts).2 =
      ((notes acts).filter fun n => l.passes n.severity).map fun n =>
        ⟨l.formOf sinks .compiler, .note n⟩ := by
  rw [on_run, filter_compiler, List.filter_map, List.map_map]
  rfl

end Logging
end LedgerScript
