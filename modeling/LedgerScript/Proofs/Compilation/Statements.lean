import LedgerScript.Compilation.Compile
import Mathlib.Data.List.Perm.Basic

/-! What a compilation that succeeds has done: each posting became one statement, in
order, and the script is the text of all of them. -/
namespace LedgerScript

section Binds
variable {α β : Type} {x : Except Failure α} {f : α → Except Failure β}

theorem bind_eq_ok {b : β} (h : (x >>= f) = .ok b) : ∃ a, x = .ok a ∧ f a = .ok b := by
  cases x with
  | error e => cases h
  | ok a => exact ⟨a, rfl, h⟩

theorem bind_eq_error {e : Failure} (h : (x >>= f) = .error e) :
    x = .error e ∨ ∃ a, x = .ok a ∧ f a = .error e := by
  cases x with
  | error e' =>
    cases h
    exact .inl rfl
  | ok a => exact .inr ⟨a, rfl, h⟩

end Binds

theorem filter_some_of_ne {α : Type} [DecidableEq α] {a b : α} (h : a ≠ b) :
    (some a).filter (· ≠ b) = some a := by
  simp [Option.filter, h]

theorem filter_some_self {α : Type} [DecidableEq α] (a : α) :
    (some a).filter (· ≠ a) = none := by
  simp [Option.filter]

theorem mapM_eq_ok_iff {ε α β : Type} (f : α → Except ε β) (xs : List α) (ys : List β) :
    xs.mapM f = .ok ys ↔ xs.map f = ys.map .ok := by
  induction xs generalizing ys with
  | nil => cases ys <;> simp [pure, Except.pure]
  | cons x xs ih =>
    rw [List.mapM_cons, List.map_cons]
    cases hx : f x with
    | error e => cases ys <;> simp [bind, Except.bind]
    | ok y =>
      cases hxs : xs.mapM f with
      | error e => cases ys <;> simp [bind, Except.bind, ← ih, hxs]
      | ok zs => cases ys <;> simp [bind, Except.bind, pure, Except.pure, ← ih, hxs]

theorem mapM_eq_error {α β : Type} {f : α → Except Failure β} {xs : List α} {e : Failure}
    (h : xs.mapM f = .error e) : ∃ x ∈ xs, f x = .error e := by
  induction xs with
  | nil => cases h
  | cons x xs ih =>
    rw [List.mapM_cons] at h
    obtain hx | ⟨y, _, h⟩ := bind_eq_error h
    · exact ⟨x, by simp, hx⟩
    obtain hxs | ⟨ys, _, h⟩ := bind_eq_error h
    · obtain ⟨x', hmem, hx'⟩ := ih hxs
      exact ⟨x', List.mem_cons_of_mem x hmem, hx'⟩
    · cases h

namespace AmountMode

/-- The warning about posting `i` that mixes fractions and caps. -/
def mixWarning (i : Nat) : Warning :=
  ⟨.conflictingSplitModes, some i, Warning.conflictMessage (Int.ofNat i), .warning⟩

theorem conflictWarnings_eq (i : Nat) (strict : Bool) (modes : List AmountMode) :
    conflictWarnings (Int.ofNat i) strict modes =
      if conflicting modes then
        if strict then
          .error (.refusal (.conflict (Int.ofNat i) (Warning.conflictMessage (Int.ofNat i))))
        else .ok [mixWarning i]
      else .ok [] := by
  have hw : Warning.conflict (Int.ofNat i) = .ok (mixWarning i) := by
    simp [Warning.conflict, mixWarning]
  rw [conflictWarnings, hw]
  rfl

end AmountMode

namespace SplitRule

theorem arrange_perm {α : Type} (isRemaining : α → Bool) (rules : List α) :
    (arrange isRemaining rules).Perm rules :=
  List.perm_append_comm.trans (List.filter_append_perm isRemaining rules)

def lines (asset : String) (rules : List SplitRule) : List (Except Failure Allocation) :=
  (arrange isRemaining rules).map (allocation asset (AmountMode.conflicting (rules.map mode)))

theorem length_lines (asset : String) (rules : List SplitRule) :
    (lines asset rules).length = rules.length := by
  rw [lines, List.length_map, (arrange_perm isRemaining rules).length_eq]

theorem block_eq_ok {asset : String} {i : Int} {strict : Bool} {rules : List SplitRule}
    {d : Destination} {ws : List Warning} (h : block asset i strict rules = .ok (d, ws)) :
    ∃ as, AmountMode.conflictWarnings i strict (rules.map mode) = .ok ws ∧
      lines asset rules = as.map .ok ∧ d = .block as := by
  obtain ⟨vs, hvs, h⟩ := bind_eq_ok h
  obtain ⟨as, has, h⟩ := bind_eq_ok h
  cases h
  exact ⟨as, hvs, (mapM_eq_ok_iff _ _ _).mp has, rfl⟩

end SplitRule

namespace Posting

/-- A destination comes from the data that the posting declares, and from no other. -/
theorem destination_eq_ok {p : Posting} {i : Int} {strict : Bool} {d : Destination}
    {ws : List Warning} (h : p.destination i strict = .ok (d, ws)) :
    (∃ a, p.destinationKind = .simple ∧ p.simpleDestination = some a ∧ a ≠ "" ∧
      d = .account (address a) ∧ ws = []) ∨
    (∃ rules as, p.destinationKind = .split ∧ p.splitRules = some rules ∧ rules ≠ [] ∧
      SplitRule.lines p.asset rules = as.map .ok ∧ d = .block as ∧
      AmountMode.conflictWarnings i strict (rules.map SplitRule.mode) = .ok ws) := by
  cases hk : p.destinationKind with
  | simple =>
    cases ha : p.simpleDestination.filter (· ≠ "") with
    | none => simp only [destination, hk, ha, reduceCtorEq] at h
    | some a =>
      obtain ⟨hs, hne⟩ := Option.filter_eq_some_iff.mp ha
      simp only [destination, hk, ha, Except.ok.injEq, Prod.mk.injEq] at h
      exact .inl ⟨a, rfl, hs, by simpa using hne, h.1.symm, h.2.symm⟩
  | split =>
    cases hr : p.splitRules.filter (· ≠ []) with
    | none => simp only [destination, hk, hr, reduceCtorEq] at h
    | some rules =>
      obtain ⟨hs, hne⟩ := Option.filter_eq_some_iff.mp hr
      simp only [destination, hk, hr] at h
      obtain ⟨as, hw, hl, rfl⟩ := SplitRule.block_eq_ok h
      exact .inr ⟨rules, as, rfl, hs, by simpa using hne, hl, rfl, hw⟩
  | other w => simp only [destination, hk, reduceCtorEq] at h

theorem toSend_eq_ok {p : Posting} {i : Int} {strict : Bool} {s : Send} {ws : List Warning}
    (h : p.toSend i strict = .ok (s, ws)) :
    s.money = ⟨p.asset, p.amount⟩ ∧ s.source = p.origin ∧
      p.destination i strict = .ok (s.destination, ws) := by
  unfold toSend at h
  cases hd : p.destination i strict with
  | error e => simp [hd, Except.map] at h
  | ok q =>
    obtain ⟨rfl, rfl⟩ : ⟨⟨p.asset, p.amount⟩, p.origin, q.1⟩ = s ∧ q.2 = ws := by
      simpa [hd, Except.map] using h
    exact ⟨rfl, rfl, rfl⟩

end Posting

section Gather
variable {α : Type} {toSend : α → Int → Except Failure (Send × List Warning)}

theorem gather_cons_eq_ok {i : Nat} {p : α} {ps : List α} {ss : List Send} {ws : List Warning}
    (h : gather toSend i (p :: ps) = .ok (ss, ws)) :
    ∃ s vs ts us, toSend p (Int.ofNat i) = .ok (s, vs) ∧
      gather toSend (i + 1) ps = .ok (ts, us) ∧ ss = s :: ts ∧ ws = vs ++ us := by
  cases hp : toSend p (Int.ofNat i) with
  | error e => simp only [gather, hp, reduceCtorEq] at h
  | ok q =>
    cases hr : gather toSend (i + 1) ps with
    | error e => simp only [gather, hp, hr, Except.map, reduceCtorEq] at h
    | ok r =>
      simp only [gather, hp, hr, Except.map, Except.ok.injEq, Prod.mk.injEq] at h
      exact ⟨q.1, q.2, r.1, r.2, rfl, rfl, h.1.symm, h.2.symm⟩

theorem gather_append (i : Nat) (ps qs : List α) :
    gather toSend i (ps ++ qs) =
      (gather toSend i ps).bind fun (ss, ws) =>
        (gather toSend (i + ps.length) qs).map fun (ts, vs) => (ss ++ ts, ws ++ vs) := by
  induction ps generalizing i with
  | nil =>
    simp only [List.nil_append, gather, Except.bind, List.length_nil, Nat.add_zero]
    cases gather toSend i qs <;> rfl
  | cons p ps ih =>
    simp only [List.cons_append, gather, List.length_cons]
    cases toSend p (Int.ofNat i) with
    | error e => rfl
    | ok q =>
      simp only [ih, Nat.add_right_comm i 1, ← Nat.add_assoc]
      cases gather toSend (i + 1) ps with
      | error e => rfl
      | ok r =>
        simp only [Except.bind, Except.map]
        cases gather toSend (i + ps.length + 1) qs <;> simp

theorem exists_of_mem_gather {i : Nat} {ps : List α} {ss : List Send} {ws : List Warning}
    (h : gather toSend i ps = .ok (ss, ws)) {s : Send} (hs : s ∈ ss) :
    ∃ p ∈ ps, ∃ j vs, toSend p j = .ok (s, vs) := by
  induction ps generalizing i ss ws with
  | nil =>
    obtain ⟨rfl, rfl⟩ : [] = ss ∧ [] = ws := by simpa [gather] using h
    cases hs
  | cons p ps ih =>
    obtain ⟨t, vs, ts, us, hp, hr, rfl, rfl⟩ := gather_cons_eq_ok h
    obtain rfl | hs := List.mem_cons.mp hs
    · exact ⟨p, by simp, Int.ofNat i, vs, hp⟩
    · obtain ⟨q, hq, hsend⟩ := ih hr hs
      exact ⟨q, List.mem_cons_of_mem p hq, hsend⟩

end Gather

theorem outcome_assemble (trailingNewline : Bool)
    (statements : Except Failure (List Send × List Warning)) (summary : Except Failure String)
    (metadata : List MetadataEntry) :
    (assemble trailingNewline statements summary metadata).outcome =
      statements.bind fun (sends, warnings) => summary.bind fun summary =>
        Compiled.make ((Script.mk summary sends metadata).render trailingNewline) warnings
          sends.length metadata.length := by
  cases statements with
  | error e => cases e <;> rfl
  | ok p => cases summary <;> rfl

theorem compile_eq_ok {settings : CompilerSettings} {intent : Intent} {r : Compiled}
    (h : (compile settings intent).outcome = .ok r) :
    ∃ sends, Posting.toSends settings.strictSplitModes 0 intent.postings = .ok (sends, r.warnings) ∧
      1 ≤ sends.length ∧ r.postingCount = sends.length ∧
      r.metadataCount = intent.metadata.length ∧
      r.script = (Script.mk intent.summary sends intent.metadata).render
        settings.trailingNewline := by
  rw [compile, outcome_assemble] at h
  obtain ⟨⟨sends, ws⟩, hs, h⟩ := bind_eq_ok h
  obtain ⟨summary, hsummary, h⟩ := bind_eq_ok h
  cases hsummary
  dsimp only [Compiled.make] at h
  split at h
  next hn =>
    cases h
    exact ⟨sends, hs, hn, rfl, rfl, rfl⟩
  next => cases h

end LedgerScript
