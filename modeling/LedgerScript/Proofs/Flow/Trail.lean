import LedgerScript.Proofs.Audit.Logged
import LedgerScript.Proofs.Flow.Correlated
import LedgerScript.Proofs.Flow.Supervision
import LedgerScript.Session

/-! The trail of an auditor that several flows share. Each call adds one block of events
under its own correlation; which events these are can be told from what the call was
given and how it came out. -/
namespace LedgerScript
open Json (Value)

namespace Occurrence

/-- What is to be told of a compilation of some size that came out in some way. -/
def ofCompilation (postings metadata : Nat) (outcome : Except Failure Compiled) :
    List Occurrence :=
  .started (Int.ofNat postings) (Int.ofNat metadata) :: closing outcome

/-- A payload came, and then either it was invalid or it was compiled. -/
def ofPayload (v : Value) : Except Failure Compiled → List Occurrence
  | .error (.refusal (.invalid lines _)) => [Flow.arrival v, .invalid lines]
  | outcome =>
    Flow.arrival v ::
      ofCompilation ((Payload.postingCount? v).getD 0) (Payload.metadataCount v) outcome

theorem ofPayload_of_known {intent : Intent} (hi : intent.Known) (settings : CompilerSettings)
    (v : Value) :
    ofPayload v (compile settings intent).outcome =
      Flow.arrival v :: ofCompilation ((Payload.postingCount? v).getD 0) (Payload.metadataCount v)
        (compile settings intent).outcome := by
  unfold ofPayload
  split
  next lines message hout => exact absurd hout (compile_ne_invalid hi settings lines message)
  next => rfl

end Occurrence

namespace Flow
variable {f : Flow} (hf : f.audited = true) (c : Correlation)
include hf

theorem events_told (os : List Occurrence) :
    events (f.told c os) = os.map (Occurrence.stamped c) := by
  simp [told, hf, events, Act.event?, List.filterMap_map, Function.comp_def]

theorem events_supervised {t : Transcript Compiled} (ht : events t.acts = []) (n m : Nat) :
    events (f.told c [.started (Int.ofNat n) (Int.ofNat m)] ++ t.acts ++
        f.told c (Occurrence.closing t.outcome)) =
      (Occurrence.ofCompilation n m t.outcome).map (Occurrence.stamped c) := by
  rw [events_append, events_append, ht, events_told hf, events_told hf, List.append_nil]
  rfl

theorem events_compileIntent {intent : Intent} (hn : intent.postings.length < listCapacity) :
    events (f.compileIntent c intent).acts =
      (Occurrence.ofCompilation intent.postings.length intent.metadata.length
        (f.compileIntent c intent).outcome).map (Occurrence.stamped c) := by
  rw [f.compileIntent_eq c hn]
  exact events_supervised hf c (events_compile _ _) _ _

theorem events_compileDraft {draft : DraftIntent} {ps : List DraftPosting}
    (hps : draft.postings = some ps) (hn : ps.length < listCapacity) :
    events (f.compileDraft c draft).acts =
      (Occurrence.ofCompilation ps.length draft.metadata.length
        (f.compileDraft c draft).outcome).map (Occurrence.stamped c) := by
  rw [f.compileDraft_eq c hps hn]
  exact events_supervised hf c (LedgerScript.events_compileDraft _ _) _ _

theorem events_compilePayload {payload : Value} (hshown : (Payload.summary? payload).isSome)
    (hpostings : ∀ n ∈ Payload.postingCount? payload, n < listCapacity)
    (hissues : (Intent.read
      (Payload.withDefaultAsset f.intake.defaultAsset payload)).issues.length < listCapacity) :
    events (f.compilePayload c payload).acts =
      (Occurrence.ofPayload payload (f.compilePayload c payload).outcome).map
        (Occurrence.stamped c) := by
  cases hread : Intent.read (Payload.withDefaultAsset f.intake.defaultAsset payload) with
  | rejected issue issues =>
    rw [hread] at hissues
    rw [f.compilePayload_of_rejected c hread (fun _ => hshown) hissues]
    exact events_told hf c _
  | accepted intent =>
    -- The protocol counts in the payload, the flow in the intent that was read from it.
    obtain ⟨hcount, hmetadata⟩ := Payload.counts_of_read hread
    have hlen := hpostings _ hcount
    have hknown := Intent.known_of_read hread
    rw [f.compilePayload_of_accepted c hread]
    have hout : (f.compileIntent c intent).outcome = (compile f.compiler intent).outcome := by
      rw [f.compileIntent_eq c hlen]
    rw [events_append, events_told hf, events_compileIntent hf c hlen, hout,
      Occurrence.ofPayload_of_known hknown, hcount, hmetadata]
    rfl

end Flow

/-- What a flow may be asked to compile. A draft was never checked. -/
inductive Request where
  | payload (v : Value)
  | intent (i : Intent)
  | draft (d : DraftIntent)

/-- One request to one of the flows that share an auditor, each with settings of its own. -/
structure Call where
  compiler : CompilerSettings
  intake : FlowSettings
  correlation : Correlation
  request : Request

namespace Call

def flow (k : Call) : Flow := ⟨k.compiler, k.intake, true⟩

def transcript (k : Call) : Transcript Compiled :=
  match k.request with
  | .payload v => k.flow.compilePayload k.correlation v
  | .intent i => k.flow.compileIntent k.correlation i
  | .draft d => k.flow.compileDraft k.correlation d

def block (k : Call) : List Event := events k.transcript.acts

def told (k : Call) (n : Nat) : List Event := events (Act.identify n k.transcript.acts)

/-- Nothing is told where a call breaks off as soon as it is made: its payload has a summary that
cannot be shown, or its draft is without postings. -/
def protocol (k : Call) : List Occurrence :=
  match k.request with
  | .payload v =>
    match Payload.summary? v with
    | some _ => Occurrence.ofPayload v k.transcript.outcome
    | none => []
  | .intent i =>
    Occurrence.ofCompilation i.postings.length i.metadata.length k.transcript.outcome
  | .draft d =>
    match d.postings with
    | some ps => Occurrence.ofCompilation ps.length d.metadata.length k.transcript.outcome
    | none => []

def Sized (k : Call) : Prop :=
  match k.request with
  | .payload v =>
    (∀ n ∈ Payload.postingCount? v, n < listCapacity) ∧
      (Intent.read (Payload.withDefaultAsset k.intake.defaultAsset v)).issues.length <
        listCapacity
  | .intent i => i.postings.length < listCapacity
  | .draft d => ∀ ps ∈ d.postings, ps.length < listCapacity

instance : (k : Call) → Decidable k.Sized
  | ⟨_, _, _, .payload _⟩ => inferInstanceAs (Decidable (_ ∧ _))
  | ⟨_, _, _, .intent _⟩ => inferInstanceAs (Decidable (_ < _))
  | ⟨_, _, _, .draft d⟩ => inferInstanceAs (Decidable (∀ ps ∈ d.postings, _))

theorem block_eq {k : Call} (hk : k.Sized) :
    k.block = k.protocol.map (Occurrence.stamped k.correlation) := by
  obtain ⟨compiler, intake, c, request⟩ := k
  cases request with
  | payload v =>
    cases hsummary : Payload.summary? v with
    | none =>
      have hout := Flow.compilePayload_of_unshown ⟨compiler, intake, true⟩ c rfl hsummary
      simp only [block, transcript, flow, protocol, hsummary, hout]
      rfl
    | some summary =>
      have hshown : (Payload.summary? v).isSome := by
        rw [hsummary]
        rfl
      simp only [protocol, hsummary]
      exact Flow.events_compilePayload rfl c hshown hk.1 hk.2
  | intent i => exact Flow.events_compileIntent rfl c hk
  | draft d =>
    cases hps : d.postings with
    | none =>
      simp only [block, transcript, protocol, Flow.compileDraft, hps]
      rfl
    | some ps =>
      simp only [protocol, hps]
      exact Flow.events_compileDraft rfl c hps (hk ps hps)

theorem told_eq (k : Call) (n : Nat) :
    k.told n = (k.block.zipIdx n).map fun (e, number) => e.identified number :=
  events_identify n k.transcript.acts

end Call

namespace Auditor

def serve (a : Auditor) (k : Call) : Auditor := a.record k.block

end Auditor

def Desk.call (d : Desk) (c : Correlation) (r : Request) : Call :=
  ⟨d.flow.compiler, d.flow.intake, c, r⟩

theorem Desk.flow_call {d : Desk} (hd : d.flow.audited = true) (c : Correlation) (r : Request) :
    (d.call c r).flow = d.flow := by
  show Flow.mk d.flow.compiler d.flow.intake true = d.flow
  rw [← hd]

namespace Session

def call? (s : Session) (d : Desk) : Command → Option Call
  | .compilePayload v u => some (d.call (s.correlate u).1 (.payload v))
  | .compileIntent v true u =>
    match (Intent.read v).orFail "Intent" with
    | .ok i => some (d.call (s.correlate u).1 (.intent i))
    | .error _ => none
  | .compileIntent v false u =>
    match DraftIntent.read v with
    | .ok draft => some (d.call (s.correlate u).1 (.draft draft))
    | .error _ => none
  | _ => none

theorem auditor_finish {s s' : Session} {d : Desk} {t : Transcript Compiled} {answer : Answer}
    (h : s.finish d t = .ok (s', answer)) :
    s'.desk.bind Desk.auditor =
      d.auditor.map (·.record (events (Act.identify s.drawn t.acts))) := by
  unfold finish at h
  dsimp only at h
  split at h
  next =>
    cases h
    rfl
  next => cases h
  next =>
    cases h
    rfl

def numbering (s : Session) : Command → Nat
  | .compilePayload _ u | .compileIntent _ _ u => (s.correlate u).2.drawn
  | _ => s.drawn

theorem step_of_call? {s : Session} {d : Desk} {command : Command} {k : Call}
    (hd : s.desk = some d) (haudited : d.flow.audited = true) (hk : s.call? d command = some k) :
    s.step command = finish { s with drawn := s.numbering command } d k.transcript := by
  cases command with
  | compilePayload v u =>
    cases hk
    have hstep : s.step (.compilePayload v u) = s.compilePayload d v u := by
      simp only [step, atDesk, hd]
    rw [hstep, Call.transcript, Desk.flow_call haudited]
    cases u <;> rfl
  | compileIntent v checked u =>
    have hstep : s.step (.compileIntent v checked u) = s.compileIntent d v checked u := by
      simp only [step, atDesk, hd]
    rw [hstep]
    cases checked with
    | true =>
      cases hread : (Intent.read v).orFail "Intent" with
      | error e => simp [call?, hread] at hk
      | ok i =>
        simp only [call?, hread, Option.some.injEq] at hk
        subst hk
        rw [Call.transcript, Desk.flow_call haudited]
        simp only [compileIntent, compileRead, hread, if_true]
        cases u <;> rfl
    | false =>
      cases hread : DraftIntent.read v with
      | error e => simp [call?, hread] at hk
      | ok draft =>
        simp only [call?, hread, Option.some.injEq] at hk
        subst hk
        rw [Call.transcript, Desk.flow_call haudited]
        simp only [compileIntent, compileRead, hread, Bool.false_eq_true, if_false]
        cases u <;> rfl
  | _ => cases hk

/-- In a session the auditor at the desk serves the calls that the commands make. The events get
their identities then. -/
theorem auditor_step {s s' : Session} {d : Desk} {command : Command} {k : Call} {answer : Answer}
    (hd : s.desk = some d) (haudited : d.flow.audited = true) (hk : s.call? d command = some k)
    (h : s.step command = .ok (s', answer)) :
    s'.desk.bind Desk.auditor = d.auditor.map (·.record (k.told (s.numbering command))) := by
  rw [step_of_call? hd haudited hk] at h
  exact auditor_finish h

end Session
end LedgerScript
