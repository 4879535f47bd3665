import LedgerScript.Flow
import LedgerScript.Proofs.Audit.Occurrences
import LedgerScript.Proofs.Compilation.Verdicts
import LedgerScript.Proofs.Json.Document

/-! What a flow puts on record. Where no list is beyond counting, auditing a compilation
does not change how it comes out; it only tells of it. -/
namespace LedgerScript
open Json (Value)

namespace Transcript
variable {α β : Type}

theorem perform_bind (acts : List Act) (k : Unit → Transcript β) :
    (perform acts >>= k) = ⟨acts ++ (k ()).acts, (k ()).outcome⟩ := rfl

theorem ok_bind (acts : List Act) (a : α) (k : α → Transcript β) :
    (⟨acts, .ok a⟩ >>= k : Transcript β) = ⟨acts ++ (k a).acts, (k a).outcome⟩ := rfl

theorem error_bind (acts : List Act) (e : Failure) (k : α → Transcript β) :
    (⟨acts, .error e⟩ >>= k : Transcript β) = ⟨acts, .error e⟩ := rfl

end Transcript

/-- What is told of a compilation once it is over. Only results and refusals are told of. -/
def Occurrence.closing : Except Failure Compiled → List Occurrence
  | .ok r =>
    r.warnings.map (fun w => .conflict (w.postingIndex.map Int.ofNat) w.message) ++
      [.completed (Int.ofNat r.postingCount) (Int.ofNat r.warnings.length)
        (Int.ofNat r.script.length)]
  | .error (.refusal (.malformed i defect)) =>
    [.failed (some i) ("posting " ++ Decimal.intText (i + 1) ++ " " ++ defect.reason)]
  | .error (.refusal (.conflict i message)) => [.failed (some i) message]
  | .error (.refusal (.invalid lines message)) =>
    [.failed none (Refusal.invalid lines message).message]
  | .error _ => []

theorem Occurrence.closing_refusal (r : Refusal) :
    closing (.error (.refusal r)) = [.failed r.index? r.message] := by
  cases r <;> rfl

theorem Compiled.warningsFor_conflictingSplitModes (r : Compiled) :
    r.warningsFor .conflictingSplitModes = r.warnings := by
  rw [warningsFor, List.filter_eq_self]
  intro w _
  cases w.code
  rfl

theorem Occurrence.fits_closing {outcome : Except Failure Compiled} {n : Nat}
    (hn : n < listCapacity) (hr : ∀ r, outcome = .ok r → r.Covers n) :
    ∀ o ∈ closing outcome, o.Fits := by
  intro o ho
  cases outcome with
  | ok r =>
    have hcovers := hr r rfl
    obtain ho | ho := List.mem_append.mp ho
    · obtain ⟨w, hw, rfl⟩ := List.mem_map.mp ho
      obtain ⟨i, hi, rfl⟩ := hcovers.warnings w hw
      exact fits_conflict (by omega) _
    · obtain rfl := List.mem_singleton.mp ho
      refine fits_completed ?_ ?_ _
      · rw [hcovers.postingCount]
        exact hn
      · exact Nat.lt_of_le_of_lt hcovers.warnings_length hn
  | error e =>
    cases e with
    | refusal r =>
      rw [closing_refusal] at ho
      obtain rfl := List.mem_singleton.mp ho
      exact fits_failed _ _
    | _ => cases ho

namespace Flow
variable (f : Flow) (c : Correlation)

def told (os : List Occurrence) : List Act :=
  if f.audited then os.map fun o => .audit (o.stamped c) else []

@[simp] theorem told_nil : f.told c [] = [] := by
  simp [told]

theorem told_append (os ps : List Occurrence) :
    f.told c (os ++ ps) = f.told c os ++ f.told c ps := by
  cases h : f.audited <;> simp [told, h]

theorem told_cons (o : Occurrence) (os : List Occurrence) :
    f.told c (o :: os) = f.told c [o] ++ f.told c os :=
  f.told_append c [o] os

theorem audit_eq {o : Occurrence} (h : o.Fits) : f.audit c o = .perform (f.told c [o]) := by
  cases hf : f.audited with
  | true => simp [audit, told, hf, Occurrence.event_of_fits h]
  | false =>
    simp only [audit, told, hf]
    rfl

theorem auditAll_eq {os : List Occurrence} (h : ∀ o ∈ os, o.Fits) :
    f.auditAll c os = .perform (f.told c os) := by
  induction os with
  | nil =>
    rw [told_nil]
    rfl
  | cons o os ih =>
    have hos := ih fun p hp => h p (List.mem_cons_of_mem o hp)
    rw [auditAll, f.audit_eq c (h o (by simp)), hos, f.told_cons c o os]
    rfl

/-- A supervised compilation acts and comes out as it would alone. It is told of when it
starts and when it is over. -/
theorem supervise_eq {n : Nat} (hn : n < listCapacity) (m : Nat) {t : Transcript Compiled}
    (ht : ∀ r, t.outcome = .ok r → r.Covers n) :
    f.supervise c n m t =
      { acts := f.told c [.started (Int.ofNat n) (Int.ofNat m)] ++ t.acts ++
          f.told c (Occurrence.closing t.outcome)
        outcome := t.outcome } := by
  obtain ⟨acts, outcome⟩ := t
  have hfits := Occurrence.fits_closing hn ht
  rw [supervise, f.audit_eq c (Occurrence.fits_started hn _)]
  cases outcome with
  | ok r =>
    obtain ⟨hconflicts, hcompleted⟩ := List.forall_mem_append.mp hfits
    have hall : f.auditAll c (r.warnings.map conflictOccurrence) = _ := f.auditAll_eq c hconflicts
    have hlast := f.audit_eq c (hcompleted _ (List.mem_singleton_self _))
    simp only [Transcript.onRefusal, Transcript.perform_bind, Transcript.ok_bind,
      Compiled.warningsFor_conflictingSplitModes, hall, hlast,
      Transcript.acts_pure, Transcript.outcome_pure, Occurrence.closing, told_append,
      List.append_assoc, List.append_nil]
    rfl
  | error e =>
    cases e with
    | refusal r =>
      rw [Occurrence.closing_refusal] at hfits
      have hfailed := f.audit_eq c (hfits _ (List.mem_singleton_self _))
      simp only [Transcript.onRefusal, hfailed, Transcript.perform_bind, List.append_assoc,
        Occurrence.closing_refusal]
      rfl
    -- Any other failure passes the handler by.
    | _ =>
      simp only [Transcript.onRefusal, Transcript.perform_bind, Transcript.error_bind,
        Occurrence.closing, told_nil, List.append_nil]

theorem compileIntent_eq {intent : Intent} (hn : intent.postings.length < listCapacity) :
    f.compileIntent c intent =
      { acts := f.told c [.started (Int.ofNat intent.postings.length)
            (Int.ofNat intent.metadata.length)] ++ (compile f.compiler intent).acts ++
          f.told c (Occurrence.closing (compile f.compiler intent).outcome)
        outcome := (compile f.compiler intent).outcome } :=
  f.supervise_eq c hn _ fun _ => covers_of_compile

theorem compileDraft_eq {draft : DraftIntent} {ps : List DraftPosting}
    (hps : draft.postings = some ps) (hn : ps.length < listCapacity) :
    f.compileDraft c draft =
      { acts := f.told c [.started (Int.ofNat ps.length) (Int.ofNat draft.metadata.length)] ++
          (LedgerScript.compileDraft f.compiler draft).acts ++
          f.told c (Occurrence.closing (LedgerScript.compileDraft f.compiler draft).outcome)
        outcome := (LedgerScript.compileDraft f.compiler draft).outcome } := by
  have h : f.compileDraft c draft = f.supervise c ps.length draft.metadata.length
      (LedgerScript.compileDraft f.compiler draft) := by
    rw [compileDraft, hps]
    rfl
  rw [h]
  exact f.supervise_eq c hn _ fun _ => covers_of_compileDraft hps

/-- How a payload is told of on its arrival, if its summary can be shown. -/
def arrival (payload : Value) : Occurrence :=
  .received ((Payload.summary? payload).getD "") ((Payload.postingCount? payload).map Int.ofNat)

theorem receive_eq {payload : Value} (h : f.audited → (Payload.summary? payload).isSome) :
    f.receive c payload = .perform (f.told c [arrival payload]) := by
  cases hf : f.audited with
  | true =>
    obtain ⟨summary, hsummary⟩ := Option.isSome_iff_exists.mp (h hf)
    have haudit := f.audit_eq c (Occurrence.fits_received summary
      ((Payload.postingCount? payload).map Int.ofNat))
    simp only [receive, hf, if_true, hsummary, Failure.shown, arrival, Option.getD_some]
    exact haudit
  | false =>
    simp only [receive, told, hf]
    rfl

/-- A number that is too long ends the call before anything is told, if it is to be told at
all. -/
theorem compilePayload_of_unshown {payload : Value} (hf : f.audited)
    (h : Payload.summary? payload = none) :
    f.compilePayload c payload = ⟨[], .error .numberTooLong⟩ := by
  simp only [compilePayload, receive, hf, if_true, h]
  rfl

theorem compilePayload_of_accepted {payload : Value} {intent : Intent}
    (h : Intent.read (Payload.withDefaultAsset f.intake.defaultAsset payload) =
      .accepted intent) :
    f.compilePayload c payload =
      { acts := f.told c [arrival payload] ++ (f.compileIntent c intent).acts
        outcome := (f.compileIntent c intent).outcome } := by
  have hshown : (Payload.summary? payload).isSome := by
    rw [Payload.summary?_of_read h]
    rfl
  rw [compilePayload, f.receive_eq c fun _ => hshown, h]
  rfl

theorem compilePayload_of_rejected {payload : Value} {i : Schema.Issue} {is : List Schema.Issue}
    (h : Intent.read (Payload.withDefaultAsset f.intake.defaultAsset payload) = .rejected i is)
    (hshown : f.audited → (Payload.summary? payload).isSome)
    (hn : (i :: is).length < listCapacity) :
    f.compilePayload c payload =
      { acts := f.told c [arrival payload, .invalid (Intent.issueLines (i :: is))]
        outcome := .error (.refusal (.invalid (Intent.issueLines (i :: is)) none)) } := by
  have hfits : (Occurrence.invalid (Intent.issueLines (i :: is))).Fits :=
    Occurrence.fits_invalid (by rwa [Intent.issueLines, List.length_map])
  rw [compilePayload, f.receive_eq c hshown, h, f.told_cons c _ [_]]
  simp only [f.audit_eq c hfits, Transcript.perform_bind, Transcript.ofExcept, List.append_nil]

end Flow
end LedgerScript
