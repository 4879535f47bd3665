import LedgerScript.Proofs.Session.Steady

/-! Sessions that differ in their trails alone. No command but those that look at a trail can tell
them apart, and none leaves other records: whether auditors keep a trail is without effect on the
log of a run. -/
namespace LedgerScript

def Plan.keeping (keep : Bool) : Plan → Plan
  | .factory _ => .factory keep
  | .custom auditor compiler flow => .custom (auditor.map fun _ => keep) compiler flow

/-- The command with auditors that keep a trail as is said. -/
def Command.keeping (keep : Bool) : Command → Command
  | .newFlow plan => .newFlow (plan.keeping keep)
  | command => command

theorem Command.keeping_keeping (k l : Bool) (c : Command) :
    (c.keeping k).keeping l = c.keeping l := by
  cases c with
  | newFlow plan =>
    cases plan with
    | factory _ => rfl
    | custom auditor _ _ => cases auditor <;> rfl
  | _ => rfl

def Desk.forgetful (d : Desk) : Desk := { d with auditor := d.auditor.map fun _ => .fresh false }

namespace Session

def forgetful (s : Session) : Session := { s with desk := s.desk.map Desk.forgetful }

/-- What is left of a command if no trail is looked at. -/
def left (result : Except Halt (Session × Answer)) : Except Halt (Session × List Record) :=
  result.map fun (s, a) => (s.forgetful, a.records)

theorem forgetful_forgetful (s : Session) : s.forgetful.forgetful = s.forgetful := by
  obtain ⟨environment, file, rooted, logging, desk, last, drawn⟩ := s
  cases desk with
  | none => rfl
  | some d =>
    obtain ⟨flow, sinks, auditor⟩ := d
    cases auditor <;> rfl

theorem setUp_forgetful (s : Session) (plan : Plan) :
    (s.forgetful.setUp (plan.keeping false)).map Desk.forgetful =
      (s.setUp plan).map Desk.forgetful := by
  have hplan : s.forgetful.setUp (plan.keeping false).unaudited = s.setUp plan.unaudited := by
    cases plan <;> rfl
  rw [setUp_eq s plan, setUp_eq _ (plan.keeping false), hplan]
  cases s.setUp plan.unaudited with
  | error e => rfl
  | ok d =>
    cases plan with
    | factory keepTrail => rfl
    | custom auditor compiler flow => cases auditor <;> rfl

theorem left_finish (s : Session) (d : Desk) (t : Transcript Compiled) :
    left (s.forgetful.finish d.forgetful t) = left (s.finish d t) := by
  obtain ⟨flow, sinks, auditor⟩ := d
  obtain ⟨acts, outcome⟩ := t
  cases outcome with
  | ok r => cases auditor <;> rfl
  | error e =>
    cases e with
    | misfit m => rfl
    | _ => cases auditor <;> rfl

theorem left_answer (s : Session) {a a' : Answer} (h : a.records = a'.records) :
    left (.ok (s.forgetful, a)) = left (.ok (s, a')) := by
  show Except.ok (s.forgetful.forgetful, a.records) = .ok (s.forgetful, a'.records)
  rw [s.forgetful_forgetful, h]

theorem left_deliver (s : Session) (e : Except Failure Event) :
    left (.ok (s.forgetful.deliver e)) = left (.ok (s.deliver e)) := by
  cases e with
  | error f => exact s.left_answer rfl
  | ok e =>
    obtain ⟨environment, file, rooted, logging, desk, last, drawn⟩ := s
    cases desk with
    | none => rfl
    | some d =>
      obtain ⟨flow, sinks, auditor⟩ := d
      cases auditor <;> rfl

theorem left_atDesk (s : Session) {work work' : Desk → Except Halt (Session × Answer)}
    (h : ∀ d, left (work' d.forgetful) = left (work d)) :
    left (s.forgetful.atDesk work') = left (s.atDesk work) := by
  obtain ⟨environment, file, rooted, logging, desk, last, drawn⟩ := s
  cases desk with
  | none => rfl
  | some d => exact h d

theorem left_compileRead {α : Type} (s : Session) (d : Desk) (read : Except Failure α)
    (compile : Correlation → α → Transcript Compiled) (u : Option Uuid) :
    left (s.forgetful.compileRead d.forgetful read compile u) =
      left (s.compileRead d read compile u) := by
  cases read with
  | error e => exact s.left_answer rfl
  | ok a =>
    cases u with
    | none => exact left_finish { s with drawn := s.drawn + 1 } d _
    | some u => exact left_finish s d _

theorem left_newFlow (s : Session) (plan : Plan) :
    left (s.forgetful.step (.newFlow (plan.keeping false))) = left (s.step (.newFlow plan)) := by
  have hsetUp := s.setUp_forgetful plan
  simp only [step]
  cases hplan : s.setUp plan with
  | error e =>
    cases hkept : s.forgetful.setUp (plan.keeping false) with
    | error e' => exact s.left_answer rfl
    | ok d =>
      rw [hplan, hkept] at hsetUp
      cases hsetUp
  | ok d =>
    cases hkept : s.forgetful.setUp (plan.keeping false) with
    | error e =>
      rw [hplan, hkept] at hsetUp
      cases hsetUp
    | ok d' =>
      rw [hplan, hkept] at hsetUp
      have hdesk : d'.forgetful = d.forgetful := Except.ok.inj hsetUp
      show Except.ok ({ s with desk := some d'.forgetful }, []) =
        .ok ({ s with desk := some d.forgetful }, [])
      rw [hdesk]

/-- Trails aside, a command does the same at a desk where nothing was kept. -/
theorem left_step (s : Session) (c : Command) :
    left (s.forgetful.step (c.keeping false)) = left (s.step c) := by
  cases c with
  | newFlow plan => exact s.left_newFlow plan
  | compilePayload v u =>
    refine s.left_atDesk fun d => ?_
    cases u with
    | none => exact left_finish { s with drawn := s.drawn + 1 } d _
    | some u => exact left_finish s d _
  | compileIntent v checked u =>
    refine s.left_atDesk fun d => ?_
    cases checked with
    | true => exact s.left_compileRead d _ _ u
    | false => exact s.left_compileRead d _ _ u
  | log v => exact s.left_deliver _
  | record o u => exact s.left_deliver _
  | setEnvironment name value =>
    cases value with
    | none => exact left_answer { s with environment := s.environment.unset name } rfl
    | some value => exact left_answer { s with environment := s.environment.set name value } rfl
  | configureLogging l => exact left_answer { s with logging := l } rfl
  | showSettings of =>
    have hsurroundings : s.forgetful.surroundings = s.surroundings := rfl
    simp only [Command.keeping, step, hsurroundings]
    cases s.surroundings.load of with
    | ok v => exact s.left_answer rfl
    | error e => exact s.left_answer rfl
  | _ => exact s.left_answer rfl

theorem left_step_keeping {s t : Session} (h : s.forgetful = t.forgetful) (keep : Bool)
    (c : Command) : left (s.step (c.keeping keep)) = left (t.step c) := by
  rw [← left_step s, ← left_step t, Command.keeping_keeping, h]

def leftAll (result : Except Halt (Session × List Answer)) :
    Except Halt (Session × List (List Record)) :=
  result.map fun (s, answers) => (s.forgetful, answers.map Answer.records)

theorem leftAll_cons (s : Session) (c : Command) (cs : List Command) :
    leftAll (s.run (c :: cs)) = (s.step c).bind fun (t, a) =>
      (leftAll (t.run cs)).map fun (u, rs) => (u, a.records :: rs) := by
  rw [run]
  cases s.step c with
  | error e => rfl
  | ok p =>
    show leftAll ((p.1.run cs).map _) = (leftAll (p.1.run cs)).map _
    cases p.1.run cs <;> rfl

/-- Two sessions that differ in their trails alone leave the same log, whether or not the flows
that they set up keep a trail. -/
theorem leftAll_run {s t : Session} (h : s.forgetful = t.forgetful) (keep : Bool)
    (commands : List Command) :
    leftAll (s.run (commands.map (·.keeping keep))) = leftAll (t.run commands) := by
  induction commands generalizing s t with
  | nil => exact congrArg (fun u => Except.ok (u, [])) h
  | cons c cs ih =>
    have hstep := left_step_keeping h keep c
    rw [List.map_cons, leftAll_cons, leftAll_cons]
    -- Both commands halt, or both go on to sessions that again differ in their trails alone.
    cases hs : s.step (c.keeping keep) with
    | error e =>
      cases ht : t.step c with
      | error e' =>
        rw [hs, ht] at hstep
        cases hstep
        rfl
      | ok q => simp [hs, ht, left, Except.map] at hstep
    | ok p =>
      cases ht : t.step c with
      | error e => simp [hs, ht, left, Except.map] at hstep
      | ok q =>
        rw [hs, ht] at hstep
        obtain ⟨hsession, hrecords⟩ := Prod.mk.inj (Except.ok.inj hstep)
        simp only [Except.bind, ih hsession, hrecords]

theorem exists_run_keeping {s s' : Session} {commands : List Command} {answers : List Answer}
    (h : s.run commands = .ok (s', answers)) (keep : Bool) :
    ∃ t answers', s.run (commands.map (·.keeping keep)) = .ok (t, answers') ∧
      t.forgetful = s'.forgetful ∧ answers'.map Answer.records = answers.map Answer.records := by
  have hleft := leftAll_run (rfl : s.forgetful = s.forgetful) keep commands
  cases hrun : s.run (commands.map (·.keeping keep)) with
  | error e => simp [h, hrun, leftAll, Except.map] at hleft
  | ok p =>
    rw [h, hrun] at hleft
    obtain ⟨hsession, hrecords⟩ := Prod.mk.inj (Except.ok.inj hleft)
    exact ⟨p.1, p.2, rfl, hsession, hrecords⟩

theorem desk_of_forgetful_eq {s t : Session} (h : t.forgetful = s.forgetful) {d : Desk}
    (hd : s.desk = some d) : ∃ d', t.desk = some d' ∧ d'.forgetful = d.forgetful := by
  have hdesk : t.desk.map Desk.forgetful = some d.forgetful := by
    rw [← Option.map_some, ← hd]
    exact congrArg Session.desk h
  exact Option.map_eq_some_iff.mp hdesk

end Session
end LedgerScript
