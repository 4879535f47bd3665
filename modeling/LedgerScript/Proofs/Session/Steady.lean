import LedgerScript.Session

/-! What commands do not change. A run preserves whatever each of its commands preserves; so the
level of the log stays what it was configured to be, and a flow stays as it was set up. -/
namespace LedgerScript

namespace Plan

def auditor? : Plan → Option Bool
  | .factory keepTrail => some keepTrail
  | .custom auditor _ _ => auditor

def unaudited : Plan → Plan
  | .factory _ => .custom none none none
  | .custom _ compiler flow => .custom none compiler flow

end Plan

/-- How a flow was set up, and whether its auditor, if it has one, keeps a trail. -/
def Desk.layout (d : Desk) : Flow × Option Bool := (d.flow, d.auditor.map Auditor.keepTrail)

namespace Session

theorem setUp_eq (s : Session) (plan : Plan) :
    s.setUp plan = (s.setUp plan.unaudited).map fun d =>
      ⟨{ d.flow with audited := plan.auditor?.isSome }, .fresh, plan.auditor?.map .fresh⟩ := by
  cases plan with
  | factory keepTrail =>
    simp only [Plan.unaudited, Plan.auditor?, setUp, Flow.load]
    cases s.surroundings.compilerSettings with
    | error e => rfl
    | ok compiler => cases s.surroundings.flowSettings <;> rfl
  | custom auditor compilerArgs flowArgs =>
    simp only [Plan.unaudited, Plan.auditor?, setUp]
    generalize (Option.mapM _ compilerArgs : Except Failure (Option CompilerSettings)) = compiler
    generalize (Option.mapM _ flowArgs : Except Failure (Option FlowSettings)) = intake
    cases compiler with
    | error e => rfl
    | ok compiler? =>
      cases intake with
      | error e => rfl
      | ok intake? =>
        cases compiler? <;> cases intake? <;> cases s.surroundings.compilerSettings <;>
          cases s.surroundings.flowSettings <;> rfl

/-- What every command preserves, a run of them preserves. -/
theorem run_preserves {P : Session → Prop} {commands : List Command}
    (hstep : ∀ c ∈ commands, ∀ s s' a, P s → step s c = .ok (s', a) → P s')
    {s s' : Session} {answers : List Answer} (hs : P s)
    (h : s.run commands = .ok (s', answers)) : P s' := by
  induction commands generalizing s answers with
  | nil =>
    cases h
    exact hs
  | cons c cs ih =>
    obtain ⟨hfirst, hrest⟩ := List.forall_mem_cons.mp hstep
    cases hc : s.step c with
    | error e => simp [run, hc, Except.bind] at h
    | ok p =>
      obtain ⟨t, a⟩ := p
      have ht : P t := hfirst s t a hs hc
      cases hcs : t.run cs with
      | error e => simp [run, hc, hcs, Except.bind, Except.map] at h
      | ok q =>
        simp only [run, hc, hcs, Except.bind, Except.map, Except.ok.injEq, Prod.mk.injEq] at h
        obtain ⟨rfl, -⟩ := h
        exact ih hrest ht hcs

/-- The level of the log is the given one, and whatever flow there is was set up as is said. -/
structure Steady (debug : Bool) (allowed : Flow × Option Bool → Prop) (s : Session) : Prop where
  debug : s.logging.debug = debug
  allowed : ∀ d, s.desk = some d → allowed d.layout

section
variable {debug : Bool} {allowed : Flow × Option Bool → Prop} {s s' : Session} {d : Desk}

theorem Steady.settle (hs : s.Steady debug allowed) (hd : s.desk = some d) (acts : List Act) :
    (s.settle d acts).1.Steady debug allowed := by
  refine ⟨hs.debug, fun d' hd' => ?_⟩
  obtain rfl := Option.some.inj hd'
  have hlayout := hs.allowed d hd
  obtain ⟨flow, sinks, auditor⟩ := d
  cases auditor <;> exact hlayout

theorem finish_eq_ok {t : Transcript Compiled} {a : Answer} (h : s.finish d t = .ok (s', a)) :
    (a.events, a.records) = (s.settle d t.acts).2 ∧
      ∃ last, s' = { (s.settle d t.acts).1 with last := last } := by
  simp only [Session.finish] at h
  split at h
  next =>
    cases h
    exact ⟨rfl, _, rfl⟩
  next => cases h
  next =>
    cases h
    exact ⟨rfl, _, rfl⟩

theorem Steady.finish (hs : s.Steady debug allowed) (hd : s.desk = some d) {t : Transcript Compiled}
    {a : Answer} (h : s.finish d t = .ok (s', a)) : s'.Steady debug allowed := by
  obtain ⟨-, last, rfl⟩ := finish_eq_ok h
  have hsettle := hs.settle hd t.acts
  exact ⟨hsettle.debug, hsettle.allowed⟩

theorem Steady.correlate (hs : s.Steady debug allowed) (u : Option Uuid) :
    (s.correlate u).2.Steady debug allowed := by
  cases u with
  | none => exact ⟨hs.debug, hs.allowed⟩
  | some _ => exact hs

theorem desk_correlate (s : Session) (u : Option Uuid) : (s.correlate u).2.desk = s.desk := by
  cases u <;> rfl

theorem Steady.compileRead {α : Type} (hs : s.Steady debug allowed) (hd : s.desk = some d)
    {read : Except Failure α} {compile : Correlation → α → Transcript Compiled} {u : Option Uuid}
    {a : Answer} (h : s.compileRead d read compile u = .ok (s', a)) : s'.Steady debug allowed := by
  cases read with
  | error e =>
    cases h
    exact hs
  | ok x => exact (hs.correlate u).finish ((s.desk_correlate u).trans hd) h

theorem Steady.deliver (hs : s.Steady debug allowed) (e : Except Failure Event) :
    (s.deliver e).1.Steady debug allowed := by
  unfold Session.deliver
  split
  next => exact hs
  next e d hd =>
    split
    next => exact hs.settle hd [.audit e]
    next => exact hs
  next => exact hs

theorem layout_setUp {plan : Plan} (h : s.setUp plan = .ok d) :
    d.layout.1.audited = plan.auditor?.isSome ∧ d.layout.2 = plan.auditor? := by
  rw [setUp_eq] at h
  cases hd : s.setUp plan.unaudited with
  | error e => simp [hd, Except.map] at h
  | ok d' =>
    simp only [hd, Except.map, Except.ok.injEq] at h
    subst h
    cases plan.auditor? <;> exact ⟨rfl, rfl⟩

theorem Steady.step (hs : s.Steady debug allowed) {c : Command} {a : Answer}
    (hc : ∀ l, c = .configureLogging l → l.debug = debug)
    (hplan : ∀ plan, c = .newFlow plan → ∀ d, s.setUp plan = .ok d → allowed d.layout)
    (h : s.step c = .ok (s', a)) :
    s'.Steady debug allowed := by
  cases c with
  | newFlow plan =>
    simp only [Session.step] at h
    split at h
    next d hd =>
      cases h
      refine ⟨hs.debug, fun d' hd' => ?_⟩
      obtain rfl := Option.some.inj hd'
      exact hplan plan rfl _ hd
    next =>
      cases h
      exact hs
  | compilePayload v u =>
    cases hd : s.desk with
    | none => simp [Session.step, atDesk, hd] at h
    | some d =>
      simp only [Session.step, atDesk, hd] at h
      exact (hs.correlate u).finish ((s.desk_correlate u).trans hd) h
  | compileIntent v checked u =>
    cases hd : s.desk with
    | none => simp [Session.step, atDesk, hd] at h
    | some d =>
      simp only [Session.step, atDesk, hd, Session.compileIntent] at h
      split at h
      · exact hs.compileRead hd h
      · exact hs.compileRead hd h
  | log v =>
    obtain ⟨rfl, -⟩ := Prod.mk.inj (Except.ok.inj h)
    exact hs.deliver _
  | record o u =>
    obtain ⟨rfl, -⟩ := Prod.mk.inj (Except.ok.inj h)
    exact hs.deliver _
  | configureLogging l =>
    cases h
    exact ⟨hc l rfl, hs.allowed⟩
  | setEnvironment name value =>
    cases h
    exact ⟨hs.debug, hs.allowed⟩
  | showSettings of =>
    simp only [Session.step] at h
    split at h <;> cases h <;> exact hs
  | _ =>
    cases h
    exact hs

theorem Steady.run (hs : s.Steady debug allowed) {commands : List Command} {answers : List Answer}
    (hlogging : ∀ l, .configureLogging l ∈ commands → l.debug = debug)
    (hplans : ∀ plan, .newFlow plan ∈ commands → ∀ t d, setUp t plan = .ok d → allowed d.layout)
    (h : s.run commands = .ok (s', answers)) : s'.Steady debug allowed := by
  refine run_preserves (fun c hc t t' a ht hstep => ?_) hs h
  refine ht.step ?_ ?_ hstep
  · rintro l rfl
    exact hlogging l hc
  · rintro plan rfl
    exact hplans plan hc t

end
end Session

end LedgerScript
