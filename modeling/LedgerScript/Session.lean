import LedgerScript.Flow

/-! Sessions: commands carried out one after another on a flow, its auditor, the
environment and the logging configuration. A command that fails changes nothing but
what it had already done, and the session goes on. It comes to a halt, and has no answer
at all, where something is to be compiled before a flow is set up, or where an entry of
an unchecked intent does not do. -/
namespace LedgerScript
open Json (Value Fields)

/-- How a flow is to be set up. A factory takes all settings from the environment;
otherwise they may be built from arguments, and there may be no auditor. -/
inductive Plan where
  | factory (keepTrail : Bool)
  | custom (auditor : Option Bool) (compiler flow : Option (Fields × Options))

inductive Command where
  | newFlow (plan : Plan)
  | compilePayload (payload : Value) (correlation : Option Uuid)
  | compileIntent (intent : Value) (checked : Bool) (correlation : Option Uuid)
  | recap
  | kinds
  | eventsFor (correlation : Uuid)
  | trailLength
  | log (event : Value)
  | record (occurrence : Occurrence) (correlation : Option Uuid)
  | setEnvironment (name : String) (value : Option String)
  | configureLogging (logging : Logging)
  | showSettings (of : Section)

structure Desk where
  flow : Flow
  sinks : Sinks
  auditor : Option Auditor

/-- The settings file stays as it is throughout a session, so that it does not matter when
the root of the configuration is built. -/
structure Session where
  environment : Environment
  file : SettingsFile
  rooted : Bool
  logging : Logging
  desk : Option Desk
  last : Option Compiled
  drawn : Nat

inductive Reply where
  | nothing
  | compiled (result : Compiled)
  | text (s : String)
  | kinds (ks : List EventKind)
  | events (es : List Event)
  | count (n : Nat)
  | settings (v : Value)

structure Answer where
  reply : Except Failure Reply
  events : List Event
  records : List Record

namespace Answer

def ofReply (r : Reply) : Answer := ⟨.ok r, [], []⟩
def ofFailure (e : Failure) : Answer := ⟨.error e, [], []⟩

end Answer

inductive Halt where
  | noFlow
  | misfit (m : Misfit)
deriving DecidableEq, Repr

namespace Session

def start (environment : Environment) (file : SettingsFile) : Session :=
  ⟨environment, file, false, .standard, none, none, 0⟩

def surroundings (s : Session) : Surroundings := ⟨s.environment, s.file, s.rooted⟩

/-- Settings given as arguments are read before those the environment supplies. -/
def setUp (s : Session) : Plan → Except Failure Desk
  | .factory keepTrail => do
    let flow ← Flow.load s.surroundings true
    return ⟨flow, .fresh, some (.fresh keepTrail)⟩
  | .custom auditor compilerArgs flowArgs => do
    let compiler? ← compilerArgs.mapM fun (fs, o) =>
      CompilerSettings.load (s.surroundings.sources fs o)
    let intake? ← flowArgs.mapM fun (fs, o) => FlowSettings.load (s.surroundings.sources fs o)
    let compiler ← match compiler? with
      | some c => pure c
      | none => s.surroundings.compilerSettings
    let intake ← match intake? with
      | some f => pure f
      | none => s.surroundings.flowSettings
    return ⟨⟨compiler, intake, auditor.isSome⟩, .fresh, auditor.map .fresh⟩

/-- Lets the acts of a desk take effect: the trail grows, records are left. Identities for
the events are drawn from where correlations are. -/
def settle (s : Session) (d : Desk) (acts : List Act) : Session × List Event × List Record :=
  let acts := Act.identify s.drawn acts
  let (sinks, records) := s.logging.run d.sinks acts
  let added := (d.auditor.map fun a => a.kept (events acts)).getD []
  let auditor := d.auditor.map fun a => a.record (events acts)
  ({ s with
      desk := some { d with sinks := sinks, auditor := auditor }
      drawn := s.drawn + (events acts).length }, added, records)

def correlate (s : Session) : Option Uuid → Correlation × Session
  | some u => (.given u, s)
  | none => (.drawn s.drawn, { s with drawn := s.drawn + 1 })

def finish (s : Session) (d : Desk) (t : Transcript Compiled) : Except Halt (Session × Answer) :=
  let (s, added, records) := s.settle d t.acts
  match t.outcome with
  | .ok c => .ok ({ s with last := some c }, ⟨.ok (.compiled c), added, records⟩)
  | .error (.misfit m) => .error (.misfit m)
  | .error e => .ok (s, ⟨.error e, added, records⟩)

def deliver (s : Session) (e : Except Failure Event) : Session × Answer :=
  match e, s.desk with
  | .error f, _ => (s, .ofFailure f)
  | .ok e, some d =>
    if d.auditor.isSome then
      let (s, added, records) := s.settle d [.audit e]
      (s, ⟨.ok .nothing, added, records⟩)
    else (s, .ofReply .nothing)
  | .ok _, none => (s, .ofReply .nothing)

def trail (s : Session) : List Event :=
  ((s.desk.bind Desk.auditor).map Auditor.trail).getD []

def compilePayload (s : Session) (d : Desk) (payload : Value) (correlation : Option Uuid) :
    Except Halt (Session × Answer) :=
  let (c, s) := s.correlate correlation
  s.finish d (d.flow.compilePayload c payload)

/-- An intent that cannot be read is not compiled, and no correlation is drawn for it. -/
def compileRead {α : Type} (s : Session) (d : Desk) (read : Except Failure α)
    (compile : Correlation → α → Transcript Compiled) (correlation : Option Uuid) :
    Except Halt (Session × Answer) :=
  match read with
  | .error e => .ok (s, .ofFailure e)
  | .ok a =>
    let (c, s) := s.correlate correlation
    s.finish d (compile c a)

def compileIntent (s : Session) (d : Desk) (v : Value) (checked : Bool)
    (correlation : Option Uuid) : Except Halt (Session × Answer) :=
  if checked then
    s.compileRead d ((Intent.read v).orFail "Intent") d.flow.compileIntent correlation
  else s.compileRead d (DraftIntent.read v) d.flow.compileDraft correlation

def atDesk (s : Session) (work : Desk → Except Halt (Session × Answer)) :
    Except Halt (Session × Answer) :=
  match s.desk with
  | some d => work d
  | none => .error .noFlow

def step (s : Session) : Command → Except Halt (Session × Answer)
  | .newFlow plan =>
    match s.setUp plan with
    | .ok d => .ok ({ s with desk := some d }, .ofReply .nothing)
    | .error e => .ok (s, .ofFailure e)
  | .compilePayload payload correlation =>
    s.atDesk fun d => s.compilePayload d payload correlation
  | .compileIntent v checked correlation =>
    s.atDesk fun d => s.compileIntent d v checked correlation
  | .recap => .ok (s, .ofReply ((s.last.map fun c => Reply.text c.recap).getD .nothing))
  | .kinds => .ok (s, .ofReply (.kinds (s.trail.map Event.kind)))
  | .eventsFor u =>
    .ok (s, .ofReply (.events (((s.desk.bind Desk.auditor).map fun a =>
      a.eventsFor (.given u)).getD [])))
  | .trailLength => .ok (s, .ofReply (.count s.trail.length))
  | .log v => .ok (s.deliver ((Event.read v).orFail "AuditEvent"))
  | .record o correlation => .ok (s.deliver (o.event (correlation.map .given)))
  | .setEnvironment name value =>
    let env := match value with
      | some v => s.environment.set name v
      | none => s.environment.unset name
    .ok ({ s with environment := env }, .ofReply .nothing)
  | .configureLogging l => .ok ({ s with logging := l }, .ofReply .nothing)
  | .showSettings section? =>
    match s.surroundings.load section? with
    | .ok v => .ok (s, .ofReply (.settings v))
    | .error e => .ok (s, .ofFailure e)

def run : Session → List Command → Except Halt (Session × List Answer)
  | s, [] => .ok (s, [])
  | s, c :: cs =>
    (s.step c).bind fun (s, a) => (s.run cs).map fun (s, as) => (s, a :: as)

end Session
end LedgerScript
