import LedgerScript.Audit.Transcript

/-! Log records and the audit trail. Acts become records on the channel of whoever
performed them. The level of the moment decides which records pass; a channel settles
on its form at the first act that reaches it, even one that does not pass. Events have got
their identities by then, so that a record and the trail tell of the same. -/
namespace LedgerScript
open Json (Value Fields)

structure Logging where
  json : Bool
  debug : Bool
deriving DecidableEq, Repr

def Logging.standard : Logging := ⟨true, false⟩

inductive Channel where
  | audit
  | compiler
deriving DecidableEq, Repr

def Channel.name : Channel → String
  | .audit => "numscript_compiler.audit"
  | .compiler => "numscript_compiler.compiler"

inductive Form where
  | json
  | console
deriving DecidableEq, Repr

namespace Act

def channel : Act → Channel
  | .audit _ => .audit
  | .note _ => .compiler

def severity : Act → Severity
  | .audit e => e.severity
  | .note n => n.severity

def event? : Act → Option Event
  | .audit e => some e
  | .note _ => none

def title : Act → String
  | .audit _ => "audit_event"
  | .note n => n.event

/-- The time of an event is not among them, as the log has the time of its own. -/
def fields (name : Identifier → String) : Act → Fields
  | .audit e => e.identity name ++ e.content name
  | .note n => n.fields

def identify : Nat → List Act → List Act
  | _, [] => []
  | n, .audit e :: acts => .audit (e.identified n) :: identify (n + 1) acts
  | n, .note m :: acts => .note m :: identify n acts

end Act

def events (acts : List Act) : List Event := acts.filterMap Act.event?

theorem events_append (u v : List Act) : events (u ++ v) = events u ++ events v := by
  simp [events]

structure Record where
  form : Form
  act : Act

namespace Record

def channel (r : Record) : Channel := r.act.channel
def severity (r : Record) : Severity := r.act.severity

def told (name : Identifier → String) (r : Record) : Fields :=
  r.act.fields name ++
    [("event", .text r.act.title), ("logger", .text r.channel.name),
     ("level", .text r.severity.word)]

/-- The line of a record. How the console form lays out what it tells is left open. -/
def entry (name : Identifier → String) (r : Record) : Value :=
  match r.form with
  | .json => .object (r.told name)
  | .console => .object [("console", .bool true)]

end Record

/-- The form each channel has settled on, if it has. -/
structure Sinks where
  audit : Option Form
  compiler : Option Form
deriving DecidableEq, Repr

namespace Sinks

def fresh : Sinks := ⟨none, none⟩

def form? (s : Sinks) : Channel → Option Form
  | .audit => s.audit
  | .compiler => s.compiler

def settle (s : Sinks) (c : Channel) (f : Form) : Sinks :=
  match c with
  | .audit => { s with audit := some (s.audit.getD f) }
  | .compiler => { s with compiler := some (s.compiler.getD f) }

end Sinks

namespace Logging

def form (l : Logging) : Form := if l.json then .json else .console

def passes (l : Logging) (s : Severity) : Bool := l.debug || s ≠ .debug

/-- One act: the sinks after it and the record it leaves, if it passes. -/
def emit (l : Logging) (sinks : Sinks) (a : Act) : Sinks × Option Record :=
  let form := (sinks.form? a.channel).getD l.form
  (sinks.settle a.channel form, if l.passes a.severity then some ⟨form, a⟩ else none)

def run (l : Logging) : Sinks → List Act → Sinks × List Record
  | sinks, [] => (sinks, [])
  | sinks, a :: as =>
    let (sinks, r) := l.emit sinks a
    let (sinks, rs) := l.run sinks as
    (sinks, r.toList ++ rs)

end Logging

structure Auditor where
  keepTrail : Bool
  trail : List Event

namespace Auditor

def fresh (keepTrail : Bool) : Auditor := ⟨keepTrail, []⟩

def kept (a : Auditor) (es : List Event) : List Event := if a.keepTrail then es else []

def record (a : Auditor) (es : List Event) : Auditor := { a with trail := a.trail ++ a.kept es }

def eventsFor (a : Auditor) (c : Correlation) : List Event :=
  a.trail.filter (·.correlation = some c)

end Auditor
end LedgerScript
