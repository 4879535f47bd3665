import LedgerScript.Audit.Log
import LedgerScript.Compilation.Compile
import LedgerScript.Intent.Schema
import LedgerScript.Payload

/-! The way of a raw payload: it is received, completed with the default asset, checked
against the schema and compiled, and every stage is audited under one correlation. -/
namespace LedgerScript
open Json (Value)

structure Flow where
  compiler : CompilerSettings
  intake : FlowSettings
  audited : Bool
deriving DecidableEq, Repr

namespace Flow

def load (w : Surroundings) (audited : Bool) : Except Failure Flow := do
  let compiler ← w.compilerSettings
  let intake ← w.flowSettings
  return ⟨compiler, intake, audited⟩

def audit (f : Flow) (c : Correlation) (o : Occurrence) : Transcript Unit :=
  if f.audited then
    match o.event (some c) with
    | .ok e => .perform [.audit e]
    | .error e => .ofExcept (.error e)
  else .done ()

def auditAll (f : Flow) (c : Correlation) : List Occurrence → Transcript Unit
  | [] => .done ()
  | o :: os => do
    f.audit c o
    f.auditAll c os

def conflictOccurrence (w : Warning) : Occurrence :=
  .conflict (w.postingIndex.map Int.ofNat) w.message

def supervise (f : Flow) (c : Correlation) (postings metadata : Nat)
    (compilation : Transcript Compiled) : Transcript Compiled := do
  f.audit c (.started (Int.ofNat postings) (Int.ofNat metadata))
  let result ← compilation.onRefusal fun r => f.audit c (.failed r.index? r.message)
  f.auditAll c ((result.warningsFor .conflictingSplitModes).map conflictOccurrence)
  f.audit c
    (.completed (Int.ofNat result.postingCount) (Int.ofNat result.warnings.length)
      (Int.ofNat result.script.length))
  return result

def compileIntent (f : Flow) (c : Correlation) (intent : Intent) : Transcript Compiled :=
  f.supervise c intent.postings.length intent.metadata.length (compile f.compiler intent)

def compileDraft (f : Flow) (c : Correlation) (draft : DraftIntent) : Transcript Compiled := do
  let postings ← Transcript.ofExcept (Draft.present "Intent" "postings" draft.postings)
  f.supervise c postings.length draft.metadata.length (LedgerScript.compileDraft f.compiler draft)

/-- The arrival of a payload. Its summary is told of, so that it has to be shown. -/
def receive (f : Flow) (c : Correlation) (payload : Value) : Transcript Unit :=
  if f.audited then do
    let summary ← Transcript.ofExcept (Failure.shown (Payload.summary? payload))
    f.audit c (.received summary ((Payload.postingCount? payload).map Int.ofNat))
  else .done ()

def compilePayload (f : Flow) (c : Correlation) (payload : Value) : Transcript Compiled := do
  f.receive c payload
  match Intent.read (Payload.withDefaultAsset f.intake.defaultAsset payload) with
  | .accepted intent => f.compileIntent c intent
  | .rejected i is => do
    let lines := Intent.issueLines (i :: is)
    f.audit c (.invalid lines)
    .ofExcept (.error (.refusal (.invalid lines none)))

end Flow

def Surroundings.recap (w : Surroundings) (result : Compiled) : Except Failure String := do
  let _ ← Flow.load w false
  return result.recap
end LedgerScript
