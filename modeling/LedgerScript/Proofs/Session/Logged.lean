import LedgerScript.Proofs.Flow.Logged
import LedgerScript.Proofs.Session.Forgetful
import LedgerScript.Settings.Dotenv

/-! The log of a session. While the level of the log stays the same, every call is logged as its
trail is told of it, wherever in the session it is made and whether or not a trail is kept. -/
namespace LedgerScript
open Json (Value)

namespace Session

theorem call?_forgetful (s : Session) (d : Desk) (c : Command) :
    s.forgetful.call? d.forgetful c = s.call? d c := by
  cases c with
  | compilePayload v u => cases u <;> rfl
  | compileIntent v checked u => cases checked <;> cases u <;> rfl
  | _ => rfl

theorem settle_of_auditor (s : Session) {d : Desk} {a : Auditor} (ha : d.auditor = some a)
    (acts : List Act) :
    (s.settle d acts).2 =
      (a.kept (events (Act.identify s.drawn acts)),
        (s.logging.run d.sinks (Act.identify s.drawn acts)).2) := by
  simp only [settle, ha]
  rfl

def opened (environment : Environment) (file : SettingsFile) (logging : Logging) : Session :=
  { start environment file with logging := logging }

theorem steady_opened (environment : Environment) (file : SettingsFile) (json debug : Bool)
    (allowed : Flow × Option Bool → Prop) :
    (opened environment file ⟨json, debug⟩).Steady debug allowed :=
  ⟨rfl, nofun⟩

end Session

def Command.compiles : Command → Bool
  | .compilePayload .. | .compileIntent .. => true
  | _ => false

namespace Session

theorem answer_of_no_call {s s' : Session} {d : Desk} (hd : s.desk = some d) {command : Command}
    (hc : command.compiles) (hk : s.call? d command = none) {answer : Answer}
    (h : s.step command = .ok (s', answer)) : answer.events = [] ∧ answer.records = [] := by
  cases command with
  | compilePayload v u => cases hk
  | compileIntent v checked u =>
    simp only [step, atDesk, hd, compileIntent] at h
    cases checked with
    | true =>
      cases hread : (Intent.read v).orFail "Intent" with
      | error e =>
        rw [hread] at h
        cases h
        exact ⟨rfl, rfl⟩
      | ok i => simp [call?, hread] at hk
    | false =>
      cases hread : DraftIntent.read v with
      | error e =>
        rw [hread] at h
        cases h
        exact ⟨rfl, rfl⟩
      | ok draft =>
        simp [call?, hread] at hk
  | _ => cases hc

section
variable {environment : Environment} {file : SettingsFile} {json debug : Bool} {commands : List Command}
  {s : Session} {answers : List Answer}

theorem steady_of_run (hlogging : ∀ l, .configureLogging l ∈ commands → l.debug = debug)
    (h : (opened environment file ⟨json, debug⟩).run commands = .ok (s, answers)) :
    s.Steady debug fun layout => layout.1.audited = layout.2.isSome := by
  refine (steady_opened environment file json debug _).run hlogging (fun plan _ t d hd => ?_) h
  obtain ⟨haudited, hauditor⟩ := layout_setUp hd
  rw [haudited, hauditor]

theorem keepTrail_of_run {keep : Bool}
    (hlogging : ∀ l, .configureLogging l ∈ commands → l.debug = debug)
    (h : (opened environment file ⟨json, debug⟩).run (commands.map (·.keeping keep)) =
      .ok (s, answers)) :
    s.Steady debug fun layout => ∀ kept ∈ layout.2, kept = keep := by
  refine (steady_opened environment file json debug _).run (fun l hl => ?_)
    (fun plan hplan t d hd => ?_) h
  · obtain ⟨c, hc, hcl⟩ := List.mem_map.mp hl
    cases c with
    | configureLogging l' =>
      cases hcl
      exact hlogging l hc
    | _ => cases hcl
  · obtain ⟨c, -, hcp⟩ := List.mem_map.mp hplan
    rw [(layout_setUp hd).2]
    cases c with
    | newFlow plan' =>
      cases hcp
      cases plan' with
      | factory _ => simp [Plan.keeping, Plan.auditor?]
      | custom auditor _ _ => cases auditor <;> simp [Plan.keeping, Plan.auditor?]
    | _ => cases hcp

end

theorem numbering_congr {s t : Session} (h : t.drawn = s.drawn) (command : Command) :
    t.numbering command = s.numbering command := by
  cases command with
  | compilePayload v u => cases u <;> simp [numbering, correlate, h]
  | compileIntent v checked u => cases u <;> simp [numbering, correlate, h]
  | _ => exact h

/-- A call that a command makes at a desk leaves these events and records. So does the command
itself, unless the session comes to a halt with it. -/
structure Leaves (s : Session) (d : Desk) (command : Command) (k : Call) (events : List Event)
    (records : List Record) : Prop where
  call : ({ s with drawn := s.numbering command }.settle d k.transcript.acts).2 = (events, records)
  step : ∀ s' answer, s.step command = .ok (s', answer) →
    answer.records = records ∧ answer.events = events ∧ s'.trail = s.trail ++ events

theorem leaves {s : Session} {d : Desk} {a : Auditor} (hd : s.desk = some d)
    (ha : d.auditor = some a) (haudited : d.flow.audited = true) {command : Command} {k : Call}
    (hk : s.call? d command = some k) :
    s.Leaves d command k (a.kept (k.told (s.numbering command)))
      (s.logging.run d.sinks (Act.identify (s.numbering command) k.transcript.acts)).2 where
  call := settle_of_auditor _ ha _
  step s' answer h := by
    have hstep := step_of_call? hd haudited hk
    obtain ⟨hanswer, -⟩ := finish_eq_ok (hstep ▸ h)
    rw [settle_of_auditor _ ha, Prod.mk.injEq] at hanswer
    refine ⟨hanswer.2, hanswer.1, ?_⟩
    rw [trail, trail, auditor_step hd haudited hk h, hd, Option.bind_some, ha]
    rfl

/-- Wherever in a session something is compiled by a flow that has an auditor, the log tells what
the trail is told; so it does in the same session with other auditors, which keep a trail or not.
Where an intent that is handed in cannot be read, neither is told of anything. -/
theorem log_tells_trail {environment : Environment} {file : SettingsFile} {json debug : Bool}
    {before : List Command} (hlogging : ∀ l, .configureLogging l ∈ before → l.debug = debug)
    {s : Session} {answers : List Answer}
    (hrun : (opened environment file ⟨json, debug⟩).run before = .ok (s, answers))
    {d : Desk} {a : Auditor} (hd : s.desk = some d) (ha : d.auditor = some a) (command : Command) :
    (∀ k, s.call? d command = some k → k.Sized → ∃ n records, k.Logged n debug records ∧
      s.Leaves d command k (a.kept (k.told n)) records ∧
      ∀ keep, ∃ t answers' d', t.desk = some d' ∧ t.call? d' command = some k ∧
        (opened environment file ⟨json, debug⟩).run (before.map (·.keeping keep)) =
          .ok (t, answers') ∧
        answers'.map Answer.records = answers.map Answer.records ∧
        t.Leaves d' command k (if keep then k.told n else []) records) ∧
    (command.compiles → s.call? d command = none → ∀ s' answer,
      s.step command = .ok (s', answer) → answer.events = [] ∧ answer.records = []) := by
  refine ⟨fun k hk hsized => ?_, fun hc hk s' answer h => answer_of_no_call hd hc hk h⟩
  have hsteady := steady_of_run hlogging hrun
  -- A flow with an auditor is audited, so the call is one of its flow as it stands.
  have haudited : d.flow.audited = true := by
    have hallowed : d.flow.audited = (d.auditor.map Auditor.keepTrail).isSome :=
      hsteady.allowed d hd
    rw [hallowed, ha]
    rfl
  have hlogged := Call.logged hsized (s.numbering command) s.logging d.sinks
  rw [hsteady.debug] at hlogged
  refine ⟨_, _, hlogged, leaves hd ha haudited hk, fun keep => ?_⟩
  obtain ⟨t, answers', ht, hforgetful, hrecords⟩ := exists_run_keeping hrun keep
  obtain ⟨d', hd', hdesk⟩ := desk_of_forgetful_eq hforgetful hd
  -- The two desks have the same flow and sinks, and both have an auditor.
  obtain ⟨hflow, hsinks, hauditor⟩ := Desk.mk.inj hdesk
  obtain ⟨-, -, -, hlog, -, -, hdrawn⟩ := Session.mk.inj hforgetful
  have hk' : t.call? d' command = some k := by
    rw [← call?_forgetful, hforgetful, hdesk, call?_forgetful, hk]
  cases ha' : d'.auditor with
  | none => simp [ha, ha'] at hauditor
  | some a' =>
    have hkeep : a'.keepTrail = keep := by
      refine (keepTrail_of_run hlogging ht).allowed d' hd' _ ?_
      simp [Desk.layout, ha']
    have hleaves := leaves hd' ha' (hflow ▸ haudited) hk'
    rw [numbering_congr hdrawn, hsinks, hlog, Auditor.kept, hkeep] at hleaves
    exact ⟨t, answers', d', hd', hk', ht, hrecords, hleaves⟩

/-- Only the form of the log is changed, and a payload is refused. No trail is kept. -/
def refusedOnce : List Command :=
  [.newFlow (.factory false), .configureLogging ⟨false, true⟩, .compilePayload .null none]

def sharedRent : Value := .object
  [("summary", .text "Rent"),
   ("postings", .list [.object
    [("source", .text "users:1"), ("destination_type", .text "split"), ("amount", .text "900"),
     ("split_rules", .list
      [.object [("target", .text "a"), ("amount_mode", .text "fraction"), ("value", .text "1/2")],
       .object [("target", .text "b"), ("amount_mode", .text "max"), ("value", .text "100")]])]])]

theorem log_tells_trail_shared :
    ∃ s answers d k r n records,
      (opened [] "" ⟨true, true⟩).run refusedOnce = .ok (s, answers) ∧ s.desk = some d ∧
      s.call? d (.compilePayload sharedRent none) = some k ∧ k.transcript.outcome = .ok r ∧
      r.warnings.length = 1 ∧ k.Logged n true records ∧
      s.Leaves d (.compilePayload sharedRent none) k [] records := by
  obtain ⟨s, answers, d, a, k, r, hrun, hd, ha, hkeep, hk, hsized, hr, hwarnings⟩ :
      ∃ s answers d a k r, (opened [] "" ⟨true, true⟩).run refusedOnce = .ok (s, answers) ∧
        s.desk = some d ∧ d.auditor = some a ∧ a.keepTrail = false ∧
        s.call? d (.compilePayload sharedRent none) = some k ∧ k.Sized ∧
        k.transcript.outcome = .ok r ∧ r.warnings.length = 1 :=
    ⟨_, _, _, _, _, _, rfl, rfl, rfl, rfl, rfl, by decide +kernel, rfl, rfl⟩
  have hlogging : ∀ l, .configureLogging l ∈ refusedOnce → l.debug = true := by
    simp [refusedOnce]
  obtain ⟨n, records, hlogged, hleaves, -⟩ :=
    (log_tells_trail hlogging hrun hd ha (.compilePayload sharedRent none)).1 k hk hsized
  rw [Auditor.kept, hkeep] at hleaves
  exact ⟨s, answers, d, k, r, n, records, hrun, hd, hk, hr, hwarnings, hlogged, hleaves⟩

end Session
end LedgerScript
