import LedgerScript.Proofs.Audit.Logged
import LedgerScript.Proofs.Flow.Trail

/-! The log of a call beside the trail of its auditor. Both tell of the same events, and the notes
of the compiler stand between those of its start and those of its end. Whether a trail is kept
makes no difference to the log, in a call or in a whole session. -/
namespace LedgerScript
open Json (Value Fields)

/-- The compiler notes its warnings and its end, or the refusal that it ends with. It puts nothing
on a trail. -/
structure Transcript.Noted (t : Transcript Compiled) : Prop where
  events : events t.acts = []
  ok : ∀ r, t.outcome = .ok r → t.acts = r.warnings.map (fun w => .note (.warned w)) ++
    [.note (.completed r.postingCount r.metadataCount r.warnings.length)]
  refusal : ∀ r, t.outcome = .error (.refusal r) → t.acts = [.note (.failed r)]

theorem noted_assemble (trailingNewline : Bool)
    (statements : Except Failure (List Send × List Warning)) {summary : Except Failure String}
    (hsummary : ∀ r, summary ≠ .error (.refusal r)) (metadata : List MetadataEntry) :
    (assemble trailingNewline statements summary metadata).Noted where
  events := events_assemble _ _ _ _
  ok r h := by
    rw [outcome_assemble] at h
    obtain ⟨⟨sends, warnings⟩, hstatements, hrest⟩ := bind_eq_ok h
    obtain ⟨text, htext, hmake⟩ := bind_eq_ok hrest
    subst hstatements htext
    dsimp only [Compiled.make] at hmake
    split at hmake
    · cases hmake
      rfl
    · cases hmake
  refusal r h := by
    rw [outcome_assemble] at h
    obtain hstatements | ⟨⟨sends, warnings⟩, -, h⟩ := bind_eq_error h
    · subst hstatements
      rfl
    -- Once there are statements, no failure is a refusal.
    · obtain htext | ⟨text, -, h⟩ := bind_eq_error h
      · exact absurd htext (hsummary r)
      · dsimp only [Compiled.make] at h
        split at h <;> cases h

theorem noted_compile (settings : CompilerSettings) (intent : Intent) :
    (compile settings intent).Noted :=
  noted_assemble _ _ (by simp) _

theorem noted_compileDraft (settings : CompilerSettings) (draft : DraftIntent) :
    (compileDraft settings draft).Noted := by
  cases hps : draft.postings with
  | none =>
    rw [compileDraft, hps]
    refine ⟨rfl, fun r h => ?_, fun r h => ?_⟩
    · cases h
    · cases h
  | some ps =>
    rw [compileDraft, hps]
    refine noted_assemble _ _ (fun r h => ?_) _
    obtain h | ⟨v, -, h⟩ := bind_eq_error h
    · cases hsummary : draft.summary <;> simp [Draft.present, hsummary] at h
    · unfold Draft.shown at h
      cases hshown : v.display? <;> simp [Failure.shown, hshown] at h

namespace Flow

@[simp] theorem notes_told (f : Flow) (c : Correlation) (os : List Occurrence) :
    notes (f.told c os) = [] := by
  cases h : f.audited <;> simp [told, h, notes, Act.note?]

theorem channel_of_mem_told (f : Flow) (c : Correlation) (os : List Occurrence) :
    ∀ a ∈ f.told c os, a.channel = .audit := by
  cases h : f.audited <;> simp [told, h, Act.channel]

end Flow

namespace Call

def compilation? (k : Call) : Option (Transcript Compiled) :=
  match k.request with
  | .payload v =>
    match Intent.read (Payload.withDefaultAsset k.intake.defaultAsset v) with
    | .accepted i => some (compile k.compiler i)
    | .rejected _ _ => none
  | .intent i => some (compile k.compiler i)
  | .draft d => d.postings.map fun _ => compileDraft k.compiler d

theorem noted_of_compilation? {k : Call} {t : Transcript Compiled} (h : k.compilation? = some t) :
    t.Noted := by
  obtain ⟨compiler, intake, c, request⟩ := k
  cases request with
  | payload v =>
    simp only [compilation?] at h
    split at h <;> cases h
    exact noted_compile _ _
  | intent i =>
    cases h
    exact noted_compile _ _
  | draft d =>
    obtain ⟨ps, -, rfl⟩ := Option.map_eq_some_iff.mp h
    exact noted_compileDraft _ _

def opening (k : Call) : List Occurrence :=
  match k.request with
  | .payload v =>
    [Flow.arrival v, .started (Int.ofNat ((Payload.postingCount? v).getD 0))
      (Int.ofNat (Payload.metadataCount v))]
  | .intent i => [.started (Int.ofNat i.postings.length) (Int.ofNat i.metadata.length)]
  | .draft d => d.postings.toList.map fun ps =>
    .started (Int.ofNat ps.length) (Int.ofNat d.metadata.length)

/-- The compiler acts as it does alone, between the opening and what is told at its end. -/
theorem transcript_of_compilation? {k : Call} (hk : k.Sized) {t : Transcript Compiled}
    (h : k.compilation? = some t) :
    k.transcript =
      { acts := k.flow.told k.correlation k.opening ++ t.acts ++
          k.flow.told k.correlation (Occurrence.closing t.outcome)
        outcome := t.outcome } := by
  obtain ⟨compiler, intake, c, request⟩ := k
  cases request with
  | payload v =>
    simp only [compilation?] at h
    split at h
    next i hread =>
      cases h
      obtain ⟨hcount, hmetadata⟩ := Payload.counts_of_read hread
      have hlen := hk.1 _ hcount
      have hpayload := Flow.compilePayload_of_accepted ⟨compiler, intake, true⟩ c hread
      have hintent := Flow.compileIntent_eq ⟨compiler, intake, true⟩ c hlen
      simp only [transcript, flow, opening, hpayload, hintent, hcount, hmetadata,
        Flow.told_cons _ c (Flow.arrival v) [_], Option.getD_some, List.append_assoc]
    next => cases h
  | intent i =>
    cases h
    exact Flow.compileIntent_eq _ c hk
  | draft d =>
    obtain ⟨ps, hps, rfl⟩ := Option.map_eq_some_iff.mp h
    have hdraft := Flow.compileDraft_eq ⟨compiler, intake, true⟩ c hps (hk ps hps)
    simp only [transcript, flow, opening, hdraft, hps]
    rfl

theorem notes_of_no_compilation {k : Call} (hk : k.Sized) (h : k.compilation? = none) :
    notes k.transcript.acts = [] ∧ ∀ r, k.transcript.outcome ≠ .ok r := by
  obtain ⟨compiler, intake, c, request⟩ := k
  cases request with
  | payload v =>
    cases hread : Intent.read (Payload.withDefaultAsset intake.defaultAsset v) with
    | accepted i => simp [compilation?, hread] at h
    | rejected i is =>
      cases hsummary : Payload.summary? v with
      | none =>
        have hpayload := Flow.compilePayload_of_unshown ⟨compiler, intake, true⟩ c rfl hsummary
        simp only [transcript, flow, hpayload]
        exact ⟨rfl, by simp⟩
      | some summary =>
        have hissues : (Intent.read (Payload.withDefaultAsset intake.defaultAsset v)).issues.length <
            listCapacity := hk.2
        rw [hread] at hissues
        have hpayload := Flow.compilePayload_of_rejected ⟨compiler, intake, true⟩ c hread
          (fun _ => by rw [hsummary]; rfl) hissues
        simp only [transcript, flow, hpayload, Flow.notes_told]
        exact ⟨trivial, by simp⟩
  | intent i => cases h
  | draft d =>
    have hps : d.postings = none := Option.map_eq_none_iff.mp h
    simp only [transcript, Flow.compileDraft, hps]
    refine ⟨rfl, fun r hr => ?_⟩
    cases hr

theorem kind_of_opening (k : Call) :
    ∀ o ∈ k.opening, o.kind ≠ .compilationFailed ∧ o.kind ≠ .splitModeConflict := by
  obtain ⟨compiler, intake, c, request⟩ := k
  cases request with
  | payload v => simp [opening, Flow.arrival, Occurrence.kind]
  | intent i => simp [opening, Occurrence.kind]
  | draft d => cases hps : d.postings <;> simp [opening, Occurrence.kind, hps]

def shown (k : Call) (n : Nat) (debug : Bool) : List Event :=
  (k.told n).filter fun e => debug || e.severity ≠ .debug

theorem isSome_id_of_mem_told {k : Call} {n : Nat} {e : Event} (he : e ∈ k.told n) :
    e.id.isSome := by
  rw [told_eq] at he
  obtain ⟨⟨e', number⟩, -, rfl⟩ := List.mem_map.mp he
  rfl

end Call

/-- The level at which the log tells of what is so severe. -/
def Severity.level : Severity → String
  | .debug => "debug"
  | .info => "info"
  | .warning => "warning"
  | .error => "error"

/-- What the log is to tell of an event: all its fields but the time, and where they come from. -/
def Event.logged (name : Identifier → String) (e : Event) : Fields :=
  [("event_id", .ofOption (fun i => .text (name i)) e.id),
   ("event_type", .text <| match e.kind with
     | .intentReceived => "intent_received"
     | .intentValidationFailed => "intent_validation_failed"
     | .compilationStarted => "compilation_started"
     | .compilationCompleted => "compilation_completed"
     | .compilationFailed => "compilation_failed"
     | .splitModeConflict => "split_mode_conflict"),
   ("severity", .text e.severity.level),
   ("correlation_id", .ofOption (fun c => .text (name c)) e.correlation),
   ("description", .text e.description),
   ("details", .object e.details),
   ("error_message", .ofOption .text e.errorMessage),
   ("event", .text "audit_event"),
   ("logger", .text "numscript_compiler.audit"),
   ("level", .text e.severity.level)]

def Warning.logged (w : Warning) : Fields :=
  [("code", .text "conflicting_split_modes"),
   ("posting_index", .ofOption .ofNat w.postingIndex),
   ("message", .text w.message),
   ("event", .text "compilation_warning"),
   ("logger", .text "numscript_compiler.compiler"),
   ("level", .text "warning")]

def Compiled.logged (r : Compiled) : Fields :=
  [("posting_count", .ofNat r.postingCount),
   ("metadata_count", .ofNat r.metadataCount),
   ("warning_count", .ofNat r.warnings.length),
   ("event", .text "compilation_completed"),
   ("logger", .text "numscript_compiler.compiler"),
   ("level", .text "debug")]

def Refusal.logged (r : Refusal) : Fields :=
  [("posting_index", .ofOption .integer r.index?),
   ("error", .text r.message),
   ("event", .text "compilation_failed"),
   ("logger", .text "numscript_compiler.compiler"),
   ("level", .text "error")]

namespace Record
variable (form : Form) (name : Identifier → String)

theorem told_audit {e : Event} (h : e.id.isSome) : told name ⟨form, .audit e⟩ = e.logged name := by
  obtain ⟨id, time, kind, severity, correlation, description, details, errorMessage⟩ := e
  obtain ⟨i, rfl⟩ := Option.isSome_iff_exists.mp h
  cases kind <;> cases severity <;> rfl

theorem told_warned (w : Warning) : told name ⟨form, .note (.warned w)⟩ = w.logged := by
  obtain ⟨code, index, message, gravity⟩ := w
  cases code
  rfl

theorem told_completed (r : Compiled) :
    told name ⟨form, .note (.completed r.postingCount r.metadataCount r.warnings.length)⟩ =
      r.logged := rfl

theorem told_failed (r : Refusal) : told name ⟨form, .note (.failed r)⟩ = r.logged := rfl

end Record

/-- The records of a call tell what its trail tells, and what the compiler noted in between. The
events of the call are numbered from the given number on. -/
structure Call.Logged (k : Call) (n : Nat) (debug : Bool) (records : List Record) : Prop where
  events : ∃ form, Record.on .audit records = (k.shown n debug).map fun e => ⟨form, .audit e⟩
  lines : ∀ name, (Record.on .audit records).map (Record.told name) =
    (k.shown n debug).map (Event.logged name)
  identities : ∀ e ∈ k.told n, e.id.isSome
  entries : ∀ x ∈ records, x.form = .json → ∀ name, x.entry name = .object (x.told name)
  notes : ∀ r, k.transcript.outcome = .ok r → ∀ name,
    (Record.on .compiler records).map (Record.told name) =
      r.warnings.map Warning.logged ++ if debug then [r.logged] else []
  order : ∀ r, k.transcript.outcome = .ok r → ∃ front back, records = front ++ back ∧
    (∀ x ∈ front, ∀ e, x.act = .audit e → e.kind ≠ .splitModeConflict) ∧
    ∀ x ∈ back, x.channel = .audit
  refusal : ∀ t r, k.compilation? = some t → t.outcome = .error (.refusal r) →
    (∀ name, (Record.on .compiler records).map (Record.told name) = [r.logged]) ∧
    ∃ e, (k.told n).filter (·.kind = .compilationFailed) = [e] ∧
      e.details.get? "posting_index" = r.logged.get? "posting_index" ∧
      e.errorMessage.map .text = r.logged.get? "error"
  rejection : k.compilation? = none → Record.on .compiler records = []

namespace Call
variable {k : Call} {l : Logging} {sinks : Sinks}

theorem notes_of_compilation? (hk : k.Sized) {t : Transcript Compiled}
    (ht : k.compilation? = some t) (n : Nat) :
    notes (Act.identify n k.transcript.acts) = notes t.acts := by
  rw [notes_identify, transcript_of_compilation? hk ht, notes_append, notes_append,
    Flow.notes_told, Flow.notes_told, List.nil_append, List.append_nil]

theorem exists_compilation (hk : k.Sized) {r : Compiled} (hr : k.transcript.outcome = .ok r) :
    ∃ t, k.compilation? = some t ∧ t.outcome = .ok r := by
  cases ht : k.compilation? with
  | none => exact absurd hr ((notes_of_no_compilation hk ht).2 r)
  | some t =>
    rw [transcript_of_compilation? hk ht] at hr
    exact ⟨t, rfl, hr⟩

theorem on_audit (n : Nat) (l : Logging) (sinks : Sinks) :
    Record.on .audit (l.run sinks (Act.identify n k.transcript.acts)).2 =
      (k.shown n l.debug).map fun e => ⟨l.formOf sinks .audit, .audit e⟩ :=
  l.on_audit_run sinks _

theorem on_compiler_of_ok (hk : k.Sized) {r : Compiled} (hr : k.transcript.outcome = .ok r)
    (n : Nat) :
    Record.on .compiler (l.run sinks (Act.identify n k.transcript.acts)).2 =
      (r.warnings.map Note.warned ++ if l.debug then
          [Note.completed r.postingCount r.metadataCount r.warnings.length] else []).map
        fun m => ⟨l.formOf sinks .compiler, .note m⟩ := by
  obtain ⟨t, ht, hout⟩ := exists_compilation hk hr
  have hnotes : notes t.acts = r.warnings.map Note.warned ++
      [Note.completed r.postingCount r.metadataCount r.warnings.length] := by
    rw [(noted_of_compilation? ht).ok r hout, notes_append, notes_map]
    rfl
  -- Warnings pass at any level, the end only in debugging.
  have hwarned : (r.warnings.map Note.warned).filter (fun m => l.passes m.severity) =
      r.warnings.map Note.warned := by
    rw [List.filter_eq_self]
    intro m hm
    obtain ⟨w, -, rfl⟩ := List.mem_map.mp hm
    simp [Note.warned, Logging.passes]
  rw [l.on_compiler_run, notes_of_compilation? hk ht, hnotes, List.filter_append, hwarned]
  cases hdebug : l.debug <;> simp [Note.completed, Logging.passes, hdebug]

theorem kind_of_told_opening {t : Transcript Compiled} (ht : k.compilation? = some t) {n : Nat}
    {e : Event}
    (he : e ∈ events (Act.identify n (k.flow.told k.correlation k.opening ++ t.acts))) :
    e.kind ≠ .compilationFailed ∧ e.kind ≠ .splitModeConflict := by
  rw [events_identify, events_append, (noted_of_compilation? ht).events, Flow.events_told rfl,
    List.append_nil] at he
  obtain ⟨⟨e', number⟩, hmem, rfl⟩ := List.mem_map.mp he
  obtain ⟨o, ho, rfl⟩ := List.mem_map.mp (List.fst_mem_of_mem_zipIdx hmem)
  have hkind : ((o.stamped k.correlation).identified number).kind = o.kind := by cases o <;> rfl
  rw [hkind]
  exact k.kind_of_opening o ho

theorem exists_front_back (hk : k.Sized) {r : Compiled} (hr : k.transcript.outcome = .ok r)
    (n : Nat) :
    ∃ front back, (l.run sinks (Act.identify n k.transcript.acts)).2 = front ++ back ∧
      (∀ x ∈ front, ∀ e, x.act = .audit e → e.kind ≠ .splitModeConflict) ∧
      ∀ x ∈ back, x.channel = .audit := by
  obtain ⟨t, ht, hout⟩ := exists_compilation hk hr
  rw [transcript_of_compilation? hk ht, identify_append, l.records_run, List.filter_append,
    List.map_append]
  refine ⟨_, _, rfl, ?_, ?_⟩
  · intro x hx e he
    obtain ⟨act, hact, rfl⟩ := List.mem_map.mp hx
    have hmem := (List.mem_filter.mp hact).1
    have hevent := List.mem_filterMap.mpr
      ⟨act, hmem, show act.event? = some e by rw [show act = .audit e from he]; rfl⟩
    exact (kind_of_told_opening ht hevent).2
  · intro x hx
    obtain ⟨act, hact, rfl⟩ := List.mem_map.mp hx
    have hmem := (List.mem_filter.mp hact).1
    exact channel_of_mem_identify (Flow.channel_of_mem_told k.flow k.correlation _) act hmem

theorem failed_of_refusal (hk : k.Sized) {t : Transcript Compiled} {r : Refusal}
    (ht : k.compilation? = some t) (hr : t.outcome = .error (.refusal r)) (n : Nat) :
    ∃ number, (k.told n).filter (·.kind = .compilationFailed) =
      [((Occurrence.failed r.index? r.message).stamped k.correlation).identified number] := by
  rw [told, transcript_of_compilation? hk ht, identify_append, events_append, List.filter_append,
    List.filter_eq_nil_iff.mpr]
  · rw [hr, Occurrence.closing_refusal, events_identify, Flow.events_told rfl]
    exact ⟨_, rfl⟩
  · intro e he hkind
    exact (kind_of_told_opening ht he).1 (of_decide_eq_true hkind)

theorem on_compiler_of_refusal (hk : k.Sized) {t : Transcript Compiled} {r : Refusal}
    (ht : k.compilation? = some t) (hr : t.outcome = .error (.refusal r)) (n : Nat) :
    Record.on .compiler (l.run sinks (Act.identify n k.transcript.acts)).2 =
      [⟨l.formOf sinks .compiler, .note (.failed r)⟩] := by
  rw [l.on_compiler_run, notes_of_compilation? hk ht, (noted_of_compilation? ht).refusal r hr]
  cases hdebug : l.debug <;> simp [notes, Act.note?, Note.failed, Logging.passes, hdebug]

theorem logged (hk : k.Sized) (n : Nat) (l : Logging) (sinks : Sinks) :
    k.Logged n l.debug (l.run sinks (Act.identify n k.transcript.acts)).2 where
  events := ⟨_, on_audit n l sinks⟩
  lines name := by
    rw [on_audit, List.map_map]
    refine List.map_congr_left fun e he => ?_
    exact Record.told_audit _ name (isSome_id_of_mem_told (List.mem_filter.mp he).1)
  identities e he := isSome_id_of_mem_told he
  entries x _ hx name := by rw [Record.entry, hx]
  notes r hr name := by
    rw [on_compiler_of_ok hk hr, List.map_map, List.map_append, List.map_map]
    cases l.debug <;> simp [Function.comp_def, Record.told_warned, Record.told_completed]
  order r hr := exists_front_back hk hr n
  refusal t r ht hr := by
    refine ⟨fun name => ?_, ?_⟩
    · rw [on_compiler_of_refusal hk ht hr]
      exact congrArg (fun line => [line]) (Record.told_failed _ name r)
    · obtain ⟨number, hfailed⟩ := failed_of_refusal hk ht hr n
      exact ⟨_, hfailed, rfl, rfl⟩
  rejection ht := by
    rw [l.on_compiler_run, notes_identify, (notes_of_no_compilation hk ht).1]
    rfl

end Call
end LedgerScript
