import LedgerScript.Proofs.Compilation.Statements
import LedgerScript.Proofs.Intent.Accepted

/-! How a compilation ends. A result counts the postings and has at most one warning for
each of them, also where nothing was checked; what the schema accepted fails by a refusal
that the compilation pronounces itself. -/
namespace LedgerScript
open AmountMode (mixWarning)

theorem AmountMode.conflictWarnings_eq_ok {i : Nat} {strict : Bool} {modes : List AmountMode}
    {ws : List Warning} (h : conflictWarnings (Int.ofNat i) strict modes = .ok ws) :
    ws = [] ∨ ws = [mixWarning i] := by
  rw [conflictWarnings_eq] at h
  split at h
  · split at h
    · cases h
    · cases h
      exact .inr rfl
  · cases h
    exact .inl rfl

theorem Posting.toSend_warnings {p : Posting} {i : Nat} {strict : Bool} {s : Send}
    {ws : List Warning} (h : p.toSend (Int.ofNat i) strict = .ok (s, ws)) :
    ws = [] ∨ ws = [mixWarning i] := by
  obtain ⟨_, _, hd⟩ := toSend_eq_ok h
  obtain ⟨_, _, _, _, _, hnil⟩ | ⟨_, _, _, _, _, _, _, hws⟩ := destination_eq_ok hd
  · exact .inl hnil
  · exact AmountMode.conflictWarnings_eq_ok hws

namespace DraftPosting

theorem destination_warnings {p : DraftPosting} {i : Nat} {strict : Bool} {d : Destination}
    {ws : List Warning} (h : p.destination (Int.ofNat i) strict = .ok (d, ws)) :
    ws = [] ∨ ws = [mixWarning i] := by
  obtain ⟨kind, _, h⟩ := bind_eq_ok h
  cases kind with
  | simple =>
    dsimp only at h
    split at h
    · cases h
    · obtain ⟨account, _, h⟩ := bind_eq_ok h
      cases h
      exact .inl rfl
  | split =>
    dsimp only at h
    split at h
    · cases h
    · split at h
      · obtain ⟨modes, _, h⟩ := bind_eq_ok h
        obtain ⟨vs, hvs, h⟩ := bind_eq_ok h
        obtain ⟨as, _, h⟩ := bind_eq_ok h
        cases h
        exact AmountMode.conflictWarnings_eq_ok hvs
      · cases h
  | other w => cases h

theorem toSend_warnings {p : DraftPosting} {i : Nat} {strict : Bool} {s : Send}
    {ws : List Warning} (h : p.toSend (Int.ofNat i) strict = .ok (s, ws)) :
    ws = [] ∨ ws = [mixWarning i] := by
  obtain ⟨⟨d, vs⟩, hd, h⟩ := bind_eq_ok h
  obtain ⟨amount, _, h⟩ := bind_eq_ok h
  obtain ⟨asset, _, h⟩ := bind_eq_ok h
  obtain ⟨shown, _, h⟩ := bind_eq_ok h
  obtain ⟨source, _, h⟩ := bind_eq_ok h
  cases h
  exact destination_warnings hd

end DraftPosting

/-- A result for `n` postings: it counts them, and each has at most one warning. -/
structure Compiled.Covers (r : Compiled) (n : Nat) : Prop where
  postingCount : r.postingCount = n
  warnings_length : r.warnings.length ≤ n
  warnings : ∀ w ∈ r.warnings, ∃ i < n, w = mixWarning i

section Gather
variable {α : Type} {toSend : α → Int → Except Failure (Send × List Warning)}

theorem gather_warnings
    (hsend : ∀ p i s ws, toSend p (Int.ofNat i) = .ok (s, ws) → ws = [] ∨ ws = [mixWarning i])
    {i : Nat} {ps : List α} {ss : List Send} {ws : List Warning}
    (h : gather toSend i ps = .ok (ss, ws)) :
    ss.length = ps.length ∧ ws.length ≤ ps.length ∧
      ∀ w ∈ ws, ∃ j < i + ps.length, w = mixWarning j := by
  induction ps generalizing i ss ws with
  | nil =>
    cases h
    simp
  | cons p ps ih =>
    obtain ⟨s, vs, ts, us, hp, hr, rfl, rfl⟩ := gather_cons_eq_ok h
    obtain ⟨hlen, hle, hus⟩ := ih hr
    have hvs : vs.length ≤ 1 ∧ ∀ w ∈ vs, w = mixWarning i := by
      obtain rfl | rfl := hsend p i s vs hp <;> simp
    refine ⟨by simp [hlen], by simp only [List.length_append, List.length_cons]; omega, ?_⟩
    intro w hw
    obtain hw | hw := List.mem_append.mp hw
    · exact ⟨i, by simp, hvs.2 w hw⟩
    · obtain ⟨j, hj, rfl⟩ := hus w hw
      exact ⟨j, by simp only [List.length_cons]; omega, rfl⟩

/-- The first posting at fault decides: those before it became statements. -/
theorem gather_eq_error {i : Nat} {ps : List α} {e : Failure}
    (h : gather toSend i ps = .error e) :
    ∃ before p after, ps = before ++ p :: after ∧ (∃ r, gather toSend i before = .ok r) ∧
      toSend p (Int.ofNat (i + before.length)) = .error e := by
  induction ps generalizing i with
  | nil => cases h
  | cons p ps ih =>
    cases hp : toSend p (Int.ofNat i) with
    | error e' =>
      simp only [gather, hp] at h
      cases h
      exact ⟨[], p, ps, rfl, ⟨([], []), rfl⟩, hp⟩
    | ok q =>
      cases hr : gather toSend (i + 1) ps with
      | error e' =>
        simp only [gather, hp, hr, Except.map] at h
        cases h
        obtain ⟨before, p', after, rfl, ⟨r, hbefore⟩, hfail⟩ := ih hr
        refine ⟨p :: before, p', after, rfl, ⟨(q.1 :: r.1, q.2 ++ r.2), ?_⟩, ?_⟩
        · simp only [gather, hp, hbefore, Except.map]
        · rw [List.length_cons, ← Nat.add_assoc, Nat.add_right_comm]
          exact hfail
      | ok r =>
        simp only [gather, hp, hr, Except.map] at h
        cases h

theorem covers_of_assemble {trailingNewline : Bool}
    (hsend : ∀ p i s ws, toSend p (Int.ofNat i) = .ok (s, ws) → ws = [] ∨ ws = [mixWarning i])
    {ps : List α} {summary : Except Failure String} {metadata : List MetadataEntry} {r : Compiled}
    (h : (assemble trailingNewline (gather toSend 0 ps) summary metadata).outcome = .ok r) :
    r.Covers ps.length := by
  rw [outcome_assemble] at h
  obtain ⟨⟨ss, ws⟩, hg, h⟩ := bind_eq_ok h
  obtain ⟨text, _, h⟩ := bind_eq_ok h
  obtain ⟨hlen, hle, hws⟩ := gather_warnings hsend hg
  dsimp only [Compiled.make] at h
  split at h
  · cases h
    exact ⟨hlen, hle, by simpa using hws⟩
  · cases h

end Gather

theorem covers_of_compile {settings : CompilerSettings} {intent : Intent} {r : Compiled}
    (h : (compile settings intent).outcome = .ok r) : r.Covers intent.postings.length :=
  covers_of_assemble (fun _ _ _ _ => Posting.toSend_warnings) h

theorem covers_of_compileDraft {settings : CompilerSettings} {draft : DraftIntent}
    {ps : List DraftPosting} (hps : draft.postings = some ps) {r : Compiled}
    (h : (compileDraft settings draft).outcome = .ok r) : r.Covers ps.length := by
  have ha : (assemble settings.trailingNewline
      (DraftPosting.toSends settings.strictSplitModes 0 ps)
      (Draft.present "Intent" "summary" draft.summary >>= Draft.shown) draft.metadata).outcome = .ok r := by
    rw [← h, compileDraft, hps, Transcript.outcome_bind]
    rfl
  exact covers_of_assemble (fun _ _ _ _ => DraftPosting.toSend_warnings) ha

namespace SplitRule

theorem allocation_ne_error {asset : String} {capped : Bool} {r : SplitRule} {e : Failure}
    (hr : r.mode ∈ AmountMode.choices.map Prod.snd) : allocation asset capped r ≠ .error e := by
  intro h
  unfold allocation at h
  split at h
  next => cases h
  next => cases h
  next => cases h
  next w hw =>
    rw [hw] at hr
    simp [AmountMode.choices] at hr

/-- Known rules can only be at odds with each other, and that only strictly. -/
theorem block_eq_error {asset : String} {i : Int} {strict : Bool} {rules : List SplitRule}
    {e : Failure} (hrules : ∀ r ∈ rules, r.mode ∈ AmountMode.choices.map Prod.snd)
    (h : block asset i strict rules = .error e) :
    AmountMode.conflictWarnings i strict (rules.map mode) = .error e := by
  obtain hw | ⟨ws, _, h⟩ := bind_eq_error h
  · exact hw
  obtain ha | ⟨as, _, h⟩ := bind_eq_error h
  · obtain ⟨r, hr, hfail⟩ := mapM_eq_error ha
    have hmem := (arrange_perm isRemaining rules).mem_iff.mp hr
    exact absurd hfail (allocation_ne_error (hrules r hmem))
  · cases h

end SplitRule

/-- The refusals of a posting whose modes are known: it lacks the data of the destination
that it declares or, strictly, its rules are at odds. -/
inductive Refusal.OfPosting (strict : Bool) (i : Nat) : Refusal → Prop where
  | noSimpleDestination : OfPosting strict i (.malformed (Int.ofNat i) .noSimpleDestination)
  | noSplitRules : OfPosting strict i (.malformed (Int.ofNat i) .noSplitRules)
  | conflict (h : strict = true) :
      OfPosting strict i (.conflict (Int.ofNat i) (Warning.conflictMessage (Int.ofNat i)))

namespace Posting

theorem destination_eq_error {p : Posting} (hp : p.Known) {i : Nat} {strict : Bool} {e : Failure}
    (h : p.destination (Int.ofNat i) strict = .error e) :
    ∃ r, e = .refusal r ∧ r.OfPosting strict i := by
  unfold destination at h
  split at h
  next hk =>
    split at h
    · cases h
    · cases h
      exact ⟨_, rfl, .noSimpleDestination⟩
  next hk =>
    split at h
    next rules hrules =>
      have hsome := (Option.filter_eq_some_iff.mp hrules).1
      have hw := SplitRule.block_eq_error (hp.splitRules rules hsome) h
      rw [AmountMode.conflictWarnings_eq] at hw
      split at hw
      · split at hw
        next hstrict =>
          cases hw
          exact ⟨_, rfl, .conflict hstrict⟩
        · cases hw
      · cases hw
    next =>
      cases h
      exact ⟨_, rfl, .noSplitRules⟩
  next w hw =>
    have hkind := hp.destinationKind
    rw [hw] at hkind
    simp [DestinationKind.choices] at hkind

theorem toSend_eq_error {p : Posting} {i : Int} {strict : Bool} {e : Failure}
    (h : p.toSend i strict = .error e) : p.destination i strict = .error e := by
  unfold toSend at h
  cases hd : p.destination i strict with
  | error e' =>
    rw [hd] at h
    cases h
    rfl
  | ok q =>
    rw [hd] at h
    cases h

end Posting

/-- What the schema accepted is refused for one of its postings, if it fails at all. -/
theorem compile_eq_error {settings : CompilerSettings} {intent : Intent} (hi : intent.Known)
    {e : Failure} (h : (compile settings intent).outcome = .error e) :
    ∃ i r, i < intent.postings.length ∧ e = .refusal r ∧
      r.OfPosting settings.strictSplitModes i := by
  rw [compile, outcome_assemble] at h
  obtain hs | ⟨⟨ss, ws⟩, hs, h⟩ := bind_eq_error h
  · obtain ⟨before, p, after, hps, _, hfail⟩ := gather_eq_error hs
    have hp : p.Known := hi.postings p (by simp [hps])
    obtain ⟨r, rfl, hr⟩ := Posting.destination_eq_error hp (Posting.toSend_eq_error hfail)
    refine ⟨0 + before.length, r, ?_, rfl, hr⟩
    simp only [hps, List.length_append, List.length_cons]
    omega
  -- Every posting has its statement, and there is one: the result cannot be empty.
  · have hlen := (gather_warnings (fun _ _ _ _ => Posting.toSend_warnings) hs).1
    have hpos : 1 ≤ ss.length := by
      rw [hlen]
      exact List.length_pos_iff.mpr hi.postings_ne_nil
    obtain hs | ⟨text, _, h⟩ := bind_eq_error h
    · cases hs
    · simp only [Compiled.make, if_pos hpos] at h
      cases h

theorem compile_ne_invalid {intent : Intent} (hi : intent.Known) (settings : CompilerSettings)
    (lines : List String) (message : Option String) :
    (compile settings intent).outcome ≠ .error (.refusal (.invalid lines message)) := by
  intro h
  obtain ⟨i, r, _, hr, hof⟩ := compile_eq_error hi h
  cases hr
  cases hof

end LedgerScript
