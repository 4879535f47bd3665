import LedgerScript.Failure
import LedgerScript.Schema.Reader

/-! Events of the audit trail. The occurrences of a compilation become events with a
fixed kind, severity and wording; events may also be handed in as records. -/
namespace LedgerScript
open Json (Value Fields)
open Schema

inductive Severity where
  | debug
  | info
  | warning
  | error
deriving DecidableEq, Repr

def Severity.word : Severity → String
  | .debug => "debug"
  | .info => "info"
  | .warning => "warning"
  | .error => "error"

def Severity.choices : List (String × Severity) :=
  [("debug", .debug), ("info", .info), ("warning", .warning), ("error", .error)]

inductive EventKind where
  | intentReceived
  | intentValidationFailed
  | compilationStarted
  | compilationCompleted
  | compilationFailed
  | splitModeConflict
deriving DecidableEq, Repr

def EventKind.word : EventKind → String
  | .intentReceived => "intent_received"
  | .intentValidationFailed => "intent_validation_failed"
  | .compilationStarted => "compilation_started"
  | .compilationCompleted => "compilation_completed"
  | .compilationFailed => "compilation_failed"
  | .splitModeConflict => "split_mode_conflict"

def EventKind.all : List EventKind :=
  [.intentReceived, .intentValidationFailed, .compilationStarted, .compilationCompleted,
   .compilationFailed, .splitModeConflict]

def EventKind.choices : List (String × EventKind) := EventKind.all.map fun k => (k.word, k)

/-- An identifier that was given, or the number under which one was drawn. -/
inductive Identifier where
  | given (id : Uuid)
  | drawn (number : Nat)
deriving DecidableEq

abbrev Correlation := Identifier

/-- An event may come without an identity, until it takes effect. A time is kept only if it
was given. -/
structure Event where
  id : Option Identifier
  time : Option Timestamp
  kind : EventKind
  severity : Severity
  correlation : Option Correlation
  description : String
  details : Fields
  errorMessage : Option String

namespace Event

def descriptionLimit : Nat := 500

def read : Reader Event := Reader.record "AuditEvent" fun fs =>
  Event.mk
    <$> optional "event_id" none (fun v => (some ∘ .given) <$> Reader.identifier v) fs
    <*> optional "timestamp" none (fun v => some <$> Reader.timestamp v) fs
    <*> required "event_type" (Reader.oneOf EventKind.choices) fs
    <*> optional "severity" .info (Reader.oneOf Severity.choices) fs
    <*> optional "correlation_id" none
          (fun v => Option.map .given <$> Reader.nullable Reader.identifier v) fs
    <*> required "description" (Reader.textUpTo descriptionLimit) fs
    <*> optional "details" [] Reader.object fs
    <*> optional "error_message" none (Reader.nullable Reader.text) fs

/-- The fields of an event apart from its identity and time; `name` says how an identifier
is written. -/
def content (name : Identifier → String) (e : Event) : Fields :=
  [("event_type", .text e.kind.word),
   ("severity", .text e.severity.word),
   ("correlation_id", .ofOption (fun c => .text (name c)) e.correlation),
   ("description", .text e.description),
   ("details", .object e.details),
   ("error_message", .ofOption .text e.errorMessage)]

def identity (name : Identifier → String) (e : Event) : Fields :=
  e.id.toList.map fun i => ("event_id", .text (name i))

def fields (name : Identifier → String) (e : Event) : Fields :=
  e.identity name ++ (e.time.toList.map fun t => ("timestamp", .text t.text)) ++ e.content name

def identified (number : Nat) (e : Event) : Event :=
  { e with id := some (e.id.getD (.drawn number)) }

end Event

inductive Occurrence where
  | received (summary : String) (postings : Option Int)
  | invalid (issues : List String)
  | started (postings metadata : Int)
  | completed (postings warnings scriptLength : Int)
  | failed (index : Option Int) (reason : String)
  | conflict (index : Option Int) (message : String)
deriving DecidableEq, Repr

namespace Occurrence

def kind : Occurrence → EventKind
  | .received .. => .intentReceived
  | .invalid .. => .intentValidationFailed
  | .started .. => .compilationStarted
  | .completed .. => .compilationCompleted
  | .failed .. => .compilationFailed
  | .conflict .. => .splitModeConflict

def severity : Occurrence → Severity
  | .received .. => .info
  | .invalid .. => .warning
  | .started .. => .debug
  | .completed .. => .info
  | .failed .. => .error
  | .conflict .. => .warning

def front (n : Nat) (s : String) : String := String.ofList (s.toList.take n)

/-- A summary is quoted up to its first 200 code points. -/
def description : Occurrence → String
  | .received summary _ => "Intent received: " ++ front 200 summary
  | .invalid issues =>
    "Intent schema validation failed with " ++ Decimal.natText issues.length ++ " issues"
  | .started postings _ => "Compiling " ++ Decimal.intText postings ++ " postings"
  | .completed postings warnings _ =>
    "Compiled " ++ Decimal.intText postings ++ " postings with " ++ Decimal.intText warnings ++
      " warnings"
  | .failed .. => "Compilation aborted, no script produced"
  | .conflict _ message => message

def details : Occurrence → Fields
  | .received summary postings =>
    [("summary", .text summary), ("posting_count", .ofOption .integer postings)]
  | .invalid issues => [("issues", .ofTexts issues)]
  | .started postings metadata =>
    [("posting_count", .integer postings), ("metadata_count", .integer metadata)]
  | .completed postings warnings scriptLength =>
    [("posting_count", .integer postings), ("warning_count", .integer warnings),
     ("script_length", .integer scriptLength)]
  | .failed index _ => [("posting_index", .ofOption .integer index)]
  | .conflict index _ => [("posting_index", .ofOption .integer index)]

def errorMessage : Occurrence → Option String
  | .failed _ reason => some reason
  | _ => none

def numbers : Occurrence → List Int
  | .started postings _ => [postings]
  | .completed postings warnings _ => [postings, warnings]
  | _ => []

/-- The event of an occurrence. Only what was handed in can be too long, be it a message or
a number. -/
def event (correlation : Option Correlation) (o : Occurrence) : Except Failure Event :=
  if o.description.length ≤ Event.descriptionLimit then
    .ok
      { id := none
        time := none
        kind := o.kind
        severity := o.severity
        correlation := correlation
        description := o.description
        details := o.details
        errorMessage := o.errorMessage }
  else if o.numbers.all Decimal.isWritable then
    .error (.schema "AuditEvent" [⟨[.field "description"], .tooLong Event.descriptionLimit⟩])
  else .error .numberTooLong

end Occurrence
end LedgerScript
