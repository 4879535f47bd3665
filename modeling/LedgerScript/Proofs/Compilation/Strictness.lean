import LedgerScript.Proofs.Compilation.Faults

/-! Strict and lenient compilation side by side. They part where a split mixes its modes:
there the strict one refuses, and the lenient one warns and goes on. -/
namespace LedgerScript
open AmountMode (mixWarning)

namespace Posting

theorem defect?_of_mixed {p : Posting} (h : p.Mixed) : p.defect? = none := by
  obtain ⟨hkind, ⟨r, hr, _⟩, _⟩ := h
  simp only [defect?, hkind]
  rw [if_neg]
  rintro (hnone | hnil)
  · simp [rules, hnone] at hr
  · simp [rules, hnil] at hr

theorem fault?_strict_of_mixed {p : Posting} (h : p.Mixed) : p.fault? true = some .mixed := by
  rw [fault?_of_no_defect (defect?_of_mixed h), if_pos ⟨rfl, h⟩]

theorem mixed_of_fault? {p : Posting} {strict : Bool} (h : p.fault? strict = some .mixed) :
    p.Mixed := by
  obtain ⟨d, _, hd⟩ | ⟨_, _, hmixed, _⟩ | ⟨_, _, w, _, hw⟩ := fault?_cases h
  · cases hd
  · exact hmixed
  · cases hw

theorem defect?_of_fault? {p : Posting} {strict : Bool} {d : Defect}
    (h : p.fault? strict = some (.malformed d)) : p.defect? = some d := by
  obtain ⟨d', hdefect, hd⟩ | ⟨_, _, _, hmixed⟩ | ⟨_, _, w, _, hw⟩ := fault?_cases h
  · cases hd
    exact hdefect
  · cases hmixed
  · cases hw

theorem fault?_lenient_of_none {p : Posting} (h : p.fault? true = none) :
    p.fault? false = none := by
  have hmixed : ¬p.Mixed := by
    intro hmixed
    rw [fault?_strict_of_mixed hmixed] at h
    cases h
  simpa [fault?, hmixed] using h

/-- Where the modes are known, a mix is all that can be wrong with a split. -/
theorem fault?_lenient_of_mixed {p : Posting} (hp : p.Known) (h : p.Mixed) :
    p.fault? false = none := by
  have hknown : p.unknownMode? = none := by
    rw [unknownMode?, if_pos h.1, List.findSome?_eq_none_iff]
    intro r hr
    obtain ⟨rules, hrules⟩ : ∃ rules, p.splitRules = some rules := by
      cases hsplit : p.splitRules with
      | none => simp [Posting.rules, hsplit] at hr
      | some rules => exact ⟨rules, rfl⟩
    have hmode := hp.splitRules rules hrules r (by simpa [Posting.rules, hrules] using hr)
    cases hm : r.mode with
    | other shown => simp [hm, AmountMode.choices] at hmode
    | _ => simp [SplitRule.unknown?, hm]
  rw [fault?_of_no_defect (defect?_of_mixed h), hknown]
  simp

theorem toSend_strict {p : Posting} (h : ¬p.Mixed) (i : Int) :
    p.toSend i true = p.toSend i false := by
  have hd : p.destination i true = p.destination i false := by
    cases hdefect : p.defect? with
    | some d => rw [destination_of_defect hdefect, destination_of_defect hdefect]
    | none =>
      obtain ⟨_, a, ha⟩ | ⟨hkind, hblock⟩ := destination_of_no_defect hdefect
      · rw [ha, ha]
      · have hmodes : ¬AmountMode.conflicting (p.rules.map SplitRule.mode) = true :=
          fun hmodes => h ⟨hkind, (holdsBoth_iff p).mpr hmodes⟩
        simp only [hblock, SplitRule.block, AmountMode.conflictWarnings, hmodes]
        rfl
  rw [toSend, toSend, hd]

theorem warnings_of_toSend {p : Posting} {i : Nat} {strict : Bool} {s : Send} {ws : List Warning}
    (h : p.toSend (Int.ofNat i) strict = .ok (s, ws)) :
    ws = if p.Mixed then [mixWarning i] else [] := by
  obtain ⟨_, _, hd⟩ := toSend_eq_ok h
  obtain ⟨a, hkind, _, _, _, hws⟩ | ⟨rules, as, hkind, hrules, _, _, _, hws⟩ := destination_eq_ok hd
  · rw [hws, if_neg]
    rintro ⟨hsplit, _⟩
    cases hkind.symm.trans hsplit
  · have hboth : p.HoldsBoth ↔ AmountMode.conflicting (rules.map SplitRule.mode) = true := by
      rw [holdsBoth_iff, Posting.rules, hrules, Option.getD_some]
    rw [AmountMode.conflictWarnings_eq] at hws
    split at hws
    next hmodes =>
      rw [if_pos ⟨hkind, hboth.mpr hmodes⟩]
      split at hws
      · cases hws
      · cases hws
        rfl
    next hmodes =>
      rw [if_neg fun hmixed => hmodes (hboth.mp hmixed.2)]
      cases hws
      rfl

/-- One warning for each split that is mixed, in the order of the postings. -/
def mixWarnings (i : Nat) (ps : List Posting) : List Warning :=
  ((ps.zipIdx i).filter fun (p, _) => p.Mixed).map fun (_, j) => mixWarning j

theorem mixWarnings_cons (i : Nat) (p : Posting) (ps : List Posting) :
    mixWarnings i (p :: ps) =
      (if p.Mixed then [mixWarning i] else []) ++ mixWarnings (i + 1) ps := by
  by_cases hp : p.Mixed <;> simp [mixWarnings, hp]

theorem mixWarnings_append (i : Nat) (ps qs : List Posting) :
    mixWarnings i (ps ++ qs) = mixWarnings i ps ++ mixWarnings (i + ps.length) qs := by
  simp [mixWarnings, List.zipIdx_append]

theorem mixWarnings_eq_nil_iff (i : Nat) (ps : List Posting) :
    mixWarnings i ps = [] ↔ ∀ p ∈ ps, ¬p.Mixed := by
  induction ps generalizing i with
  | nil => simp [mixWarnings]
  | cons p ps ih => by_cases hp : p.Mixed <;> simp [mixWarnings_cons, hp, ih]

theorem warnings_of_toSends {strict : Bool} {i : Nat} {ps : List Posting} {ss : List Send}
    {ws : List Warning} (h : toSends strict i ps = .ok (ss, ws)) : ws = mixWarnings i ps := by
  induction ps generalizing i ss ws with
  | nil =>
    cases h
    rfl
  | cons p ps ih =>
    obtain ⟨s, vs, ts, us, hp, hps, rfl, rfl⟩ := gather_cons_eq_ok h
    rw [mixWarnings_cons, warnings_of_toSend hp, ih hps]

end Posting

theorem warnings_of_compile {settings : CompilerSettings} {intent : Intent} {r : Compiled}
    (h : (compile settings intent).outcome = .ok r) :
    r.warnings = Posting.mixWarnings 0 intent.postings := by
  obtain ⟨sends, hsends, _⟩ := compile_eq_ok h
  exact Posting.warnings_of_toSends hsends

/-- Without a mix the two ways of compiling are one, down to the notes. -/
theorem compile_strict {intent : Intent} (h : ∀ p ∈ intent.postings, ¬p.Mixed) (newline : Bool) :
    compile ⟨true, newline⟩ intent = compile ⟨false, newline⟩ intent := by
  have hsends : Posting.toSends true 0 intent.postings = Posting.toSends false 0 intent.postings :=
    gather_congr_of_forall₂
      (List.forall₂_same.mpr fun p hp i => Posting.toSend_strict (h p hp) i) 0
  simp only [compile, hsends]

theorem not_mixed_of_compile_strict {intent : Intent} {newline : Bool} {r : Compiled}
    (h : (compile ⟨true, newline⟩ intent).outcome = .ok r) : ∀ p ∈ intent.postings, ¬p.Mixed := by
  intro p hp hmixed
  have hfault : p.fault? (CompilerSettings.mk true newline).strictSplitModes = some .mixed :=
    Posting.fault?_strict_of_mixed hmixed
  obtain ⟨e, he⟩ := compile_fails_of_fault hp hfault
  cases h.symm.trans he

theorem compile_strict_eq_ok_iff (intent : Intent) (newline : Bool) (r : Compiled) :
    (compile ⟨true, newline⟩ intent).outcome = .ok r ↔
      (compile ⟨false, newline⟩ intent).outcome = .ok r ∧ r.warnings = [] := by
  constructor
  · intro h
    have hmixed := not_mixed_of_compile_strict h
    refine ⟨by rw [← compile_strict hmixed, h], ?_⟩
    rw [warnings_of_compile h]
    exact (Posting.mixWarnings_eq_nil_iff 0 _).mpr hmixed
  · rintro ⟨h, hwarnings⟩
    rw [warnings_of_compile h] at hwarnings
    rw [compile_strict ((Posting.mixWarnings_eq_nil_iff 0 _).mp hwarnings), h]

def Intent.upTo (n : Nat) (i : Intent) : Intent := { i with postings := i.postings.take n }

/-- Up to the posting that strict compilation stumbles over, the lenient one has nothing to
warn of but that posting. -/
theorem compile_upTo_conflict {intent : Intent} (hi : intent.Known) {newline : Bool} {i : Int}
    {m : String}
    (h : (compile ⟨true, newline⟩ intent).outcome = .error (.refusal (.conflict i m))) :
    ∃ n < intent.postings.length, i = Int.ofNat n ∧
      ∃ r, (compile ⟨false, newline⟩ (intent.upTo (n + 1))).outcome = .ok r ∧
        r.warnings = [⟨.conflictingSplitModes, some n, m, .warning⟩] := by
  obtain ⟨before, p, after, fault, hpostings, hbefore, hp, hfailure⟩ :=
    exists_first_of_compile_eq_error hi.postings_ne_nil h
  have hcut : (intent.upTo (before.length + 1)).postings = before ++ [p] := by
    simp [Intent.upTo, hpostings, List.take_append, List.take_of_length_le]
  cases fault with
  | malformed d => cases hfailure
  | unknownMode w => cases hfailure
  | mixed =>
    cases hfailure
    have hmixed := Posting.mixed_of_fault? hp
    have hknown : p.Known := hi.postings p (by simp [hpostings])
    have hfaultless : ∀ q ∈ (intent.upTo (before.length + 1)).postings, q.fault? false = none := by
      rw [hcut]
      intro q hq
      obtain hq | hq := List.mem_append.mp hq
      · exact Posting.fault?_lenient_of_none (hbefore q hq)
      · rw [List.mem_singleton.mp hq]
        exact Posting.fault?_lenient_of_mixed hknown hmixed
    obtain ⟨r, hr, _⟩ := @exists_compile ⟨false, newline⟩ _ (by simp [hcut]) hfaultless
    refine ⟨before.length, by simp [hpostings], rfl, r, hr, ?_⟩
    have hnone : Posting.mixWarnings 0 before = [] := by
      rw [Posting.mixWarnings_eq_nil_iff]
      intro q hq hmixed
      cases (Posting.fault?_strict_of_mixed hmixed).symm.trans (hbefore q hq)
    rw [warnings_of_compile hr, hcut, Posting.mixWarnings_append, hnone, Posting.mixWarnings_cons,
      if_pos hmixed]
    simp [Posting.mixWarnings, mixWarning]

theorem compile_lenient_of_malformed {intent : Intent} (hne : intent.postings ≠ [])
    {newline : Bool} {i : Int} {d : Defect}
    (h : (compile ⟨true, newline⟩ intent).outcome = .error (.refusal (.malformed i d))) :
    (compile ⟨false, newline⟩ intent).outcome = .error (.refusal (.malformed i d)) := by
  obtain ⟨before, p, after, fault, hpostings, hbefore, hp, hfailure⟩ :=
    exists_first_of_compile_eq_error hne h
  rw [hfailure]
  cases fault with
  | malformed d' =>
    refine compile_of_first hpostings (fun q hq => Posting.fault?_lenient_of_none (hbefore q hq)) ?_
    exact Posting.fault?_of_defect (Posting.defect?_of_fault? hp) false
  | mixed => cases hfailure
  | unknownMode w => cases hfailure

/-- Strict compilation gives exactly the results that the lenient one gives without a
warning. Where it refuses a mix, the lenient one warns of that mix in the same words; where
a destination is missing, both refuse alike. -/
theorem strict_refines_lenient {intent : Intent} (hi : intent.Known) (newline : Bool) :
    (∀ r, (compile ⟨true, newline⟩ intent).outcome = .ok r ↔
      (compile ⟨false, newline⟩ intent).outcome = .ok r ∧ r.warnings = []) ∧
    (∀ i m, (compile ⟨true, newline⟩ intent).outcome = .error (.refusal (.conflict i m)) →
      ∃ n < intent.postings.length, i = Int.ofNat n ∧
        ∃ r, (compile ⟨false, newline⟩ (intent.upTo (n + 1))).outcome = .ok r ∧
          r.warnings = [⟨.conflictingSplitModes, some n, m, .warning⟩]) ∧
    ∀ i d, (compile ⟨true, newline⟩ intent).outcome = .error (.refusal (.malformed i d)) →
      (compile ⟨false, newline⟩ intent).outcome = .error (.refusal (.malformed i d)) :=
  ⟨compile_strict_eq_ok_iff intent newline, fun _ _ => compile_upTo_conflict hi,
    fun _ _ => compile_lenient_of_malformed hi.postings_ne_nil⟩

/-- The second posting mixes its modes, and the third goes nowhere. -/
def Intent.uneven : Intent :=
  ⟨"Share the rent",
    [⟨"users:1", .none, none, .simple, some "shop", none, "USD/2", "900"⟩,
     ⟨"users:1", .none, none, .split, none,
      some [⟨"b", .max, "100"⟩, ⟨"c", .fraction, "50%"⟩], "USD/2", "900"⟩,
     ⟨"users:1", .none, none, .simple, none, none, "USD/2", "900"⟩], []⟩

theorem strict_refines_lenient_uneven :
    Intent.uneven.Known ∧
    (compile ⟨true, true⟩ Intent.uneven).outcome =
      .error (.refusal (.conflict 1 (Warning.conflictMessage 1))) ∧
    ∃ r, (compile ⟨false, true⟩ (Intent.uneven.upTo 2)).outcome = .ok r ∧
      r.warnings = [⟨.conflictingSplitModes, some 1, Warning.conflictMessage 1, .warning⟩] := by
  have hread : Intent.read Intent.uneven.toValue = .accepted Intent.uneven := rfl
  have hi := Intent.known_of_read hread
  have hconflict : (compile ⟨true, true⟩ Intent.uneven).outcome =
      .error (.refusal (.conflict 1 (Warning.conflictMessage 1))) := rfl
  obtain ⟨n, _, hn, hwarned⟩ := (strict_refines_lenient hi true).2.1 _ _ hconflict
  obtain rfl : 1 = n := Int.ofNat.inj hn
  exact ⟨hi, hconflict, hwarned⟩

end LedgerScript
