import LedgerScript.Proofs.Compilation.NormalForm
import LedgerScript.Proofs.Compilation.SplitOrder

/-! What becomes of a split that mixes fractions and caps: it is shown as if every fraction
had been a cap from the start. So the lines of a block are all of one form, apart from those
that are given what remains. -/
namespace LedgerScript
open AmountMode (mixWarning)

namespace SplitRule

/-- The cap that stands in for a fraction. All other rules stay as they are, a cap down to
the percent signs and blanks in its value. -/
def fallback (r : SplitRule) : SplitRule :=
  match r.mode with
  | .fraction => ⟨r.target, .max, capText r.value⟩
  | _ => r

theorem isRemaining_fallback (r : SplitRule) : r.fallback.isRemaining = r.isRemaining := by
  obtain ⟨target, mode, value⟩ := r
  cases mode <;> rfl

theorem mode_fallback_ne_fraction (r : SplitRule) : r.fallback.mode ≠ .fraction := by
  obtain ⟨target, mode, value⟩ := r
  cases mode <;> simp [fallback]

/-- Whether fractions are to be capped no longer matters once they are caps. -/
theorem allocation_fallback (asset : String) (capped : Bool) (r : SplitRule) :
    allocation asset capped r.fallback = allocation asset true r := by
  obtain ⟨target, mode, value⟩ := r
  cases mode <;> rfl

theorem not_conflicting_fallback (rules : List SplitRule) :
    ¬AmountMode.conflicting ((rules.map fallback).map mode) = true := by
  intro h
  obtain ⟨hfraction, -⟩ := of_decide_eq_true h
  rw [List.map_map] at hfraction
  obtain ⟨r, -, hr⟩ := List.mem_map.mp hfraction
  exact mode_fallback_ne_fraction r hr

theorem lines_fallback (asset : String) {rules : List SplitRule}
    (h : AmountMode.conflicting (rules.map mode) = true) :
    lines asset (rules.map fallback) = lines asset rules := by
  rw [lines, lines, h, arrange_map fallback isRemaining_fallback, List.map_map]
  exact List.map_congr_left fun r _ => allocation_fallback asset _ r

theorem exists_allocation_of_known {r : SplitRule}
    (h : r.mode ∈ AmountMode.choices.map Prod.snd) (asset : String) (capped : Bool) :
    ∃ a, allocation asset capped r = .ok a := by
  cases ha : allocation asset capped r with
  | ok a => exact ⟨a, rfl⟩
  | error e => exact absurd ha (allocation_ne_error h)

theorem allocation_percentage {asset text target : String} {capped : Bool} {r : SplitRule}
    (h : allocation asset capped r = .ok ⟨.percentage text, target⟩) :
    capped = false ∧ r.mode = .fraction := by
  obtain ⟨target', mode, value⟩ := r
  cases mode <;> cases capped <;> simp [allocation] at h ⊢

theorem allocation_cap {asset target : String} {limit : Money} {capped : Bool} {r : SplitRule}
    (h : allocation asset capped r = .ok ⟨.cap limit, target⟩) :
    capped = true ∨ r.mode = .max := by
  obtain ⟨target', mode, value⟩ := r
  cases mode <;> cases capped <;> simp [allocation] at h ⊢

/-- A fraction that is left as it is and a cap would be a mix, which leaves no fraction. -/
theorem one_form_of_lines {asset : String} {rules : List SplitRule} {as : List Allocation}
    (h : lines asset rules = as.map .ok) :
    ¬((∃ a ∈ as, ∃ text, a.share = .percentage text) ∧
      ∃ a ∈ as, ∃ limit, a.share = .cap limit) := by
  rintro ⟨⟨⟨share, target⟩, ha, text, rfl⟩, ⟨share', target'⟩, hb, limit, rfl⟩
  obtain ⟨r, hr, hfraction⟩ := exists_of_mem_lines h ha
  obtain ⟨s, hs, hcap⟩ := exists_of_mem_lines h hb
  obtain ⟨hcapped, hmode⟩ := allocation_percentage hfraction
  obtain hcapped' | hmax := allocation_cap hcap
  · rw [hcapped] at hcapped'
    cases hcapped'
  · have hmix : AmountMode.conflicting (rules.map mode) = true := by
      simp only [AmountMode.conflicting, decide_eq_true_eq]
      exact ⟨List.mem_map.mpr ⟨r, hr, hmode⟩, List.mem_map.mpr ⟨s, hs, hmax⟩⟩
    rw [hcapped] at hmix
    cases hmix

/-- Where fractions and caps both occur, a block is that of the rules with caps in place of
the fractions, which has nothing to warn of. Where they do not, each rule has the line that it
has on its own. In no block are some lines percentages and others caps. -/
theorem block_falls_back {rules : List SplitRule}
    (hknown : ∀ r ∈ rules, r.mode ∈ AmountMode.choices.map Prod.snd) (asset : String) :
    ((∃ r ∈ rules, r.mode = .fraction) ∧ (∃ r ∈ rules, r.mode = .max) →
      ∃ as, (∀ i : Nat, Decimal.isWritable (Int.ofNat i + 1) →
          blockAt asset (Int.ofNat i) false rules = .ok (.block as, [mixWarning i])) ∧
        ∀ i, blockAt asset i false (rules.map fallback) = .ok (.block as, [])) ∧
    (¬((∃ r ∈ rules, r.mode = .fraction) ∧ ∃ r ∈ rules, r.mode = .max) →
      ∃ as, as.map .ok = (arrange isRemaining rules).map (allocation asset false) ∧
        ∀ i, blockAt asset i false rules = .ok (.block as, [])) ∧
    ∀ i strict as ws, blockAt asset i strict rules = .ok (.block as, ws) →
      ¬((∃ a ∈ as, ∃ text, a.share = .percentage text) ∧
        ∃ a ∈ as, ∃ limit, a.share = .cap limit) := by
  have hboth : (∃ r ∈ rules, r.mode = .fraction) ∧ (∃ r ∈ rules, r.mode = .max) ↔
      AmountMode.conflicting (rules.map mode) = true := by
    simp [AmountMode.conflicting]
  obtain ⟨as, hlines⟩ : ∃ as : List Allocation, lines asset rules = as.map .ok :=
    exists_lines fun r hr => exists_allocation_of_known (hknown r hr) asset _
  rw [hboth]
  refine ⟨fun hmix => ⟨as, fun i hi => ?_, fun i => ?_⟩, fun hmix => ⟨as, ?_, fun i => ?_⟩, ?_⟩
  · have hws := AmountMode.conflictWarnings_eq i false (rules.map mode)
    rw [hmix] at hws
    exact blockAt_eq_ok_iff.mpr ⟨fun _ => hi, hws, as, hlines, rfl⟩
  · have hnone := not_conflicting_fallback rules
    have hcaps := (lines_fallback asset hmix).trans hlines
    refine blockAt_eq_ok_iff.mpr ⟨fun h => absurd h hnone, ?_, as, hcaps, rfl⟩
    rw [AmountMode.conflictWarnings, if_neg hnone]
  · rw [← hlines, lines, Bool.eq_false_iff.mpr hmix]
  · refine blockAt_eq_ok_iff.mpr ⟨fun h => absurd h hmix, ?_, as, hlines, rfl⟩
    rw [AmountMode.conflictWarnings, if_neg hmix]
  · intro i strict bs ws h
    obtain ⟨-, -, cs, hcs, hd⟩ := blockAt_eq_ok_iff.mp h
    cases hd
    exact one_form_of_lines hcs

/-- A fraction with a blank before its percent sign, and a cap that holds such a sign. -/
def oddlyMixed : List SplitRule :=
  [⟨"a", .remaining, ""⟩, ⟨"b", .fraction, " 5 0 %"⟩, ⟨"c", .max, "10 %"⟩]

theorem block_falls_back_oddlyMixed :
    (∀ r ∈ oddlyMixed, r.mode ∈ AmountMode.choices.map Prod.snd) ∧
    ∃ as, blockAt "USD/2" 0 false oddlyMixed = .ok (.block as, [mixWarning 0]) ∧
      blockAt "USD/2" 0 false
        [⟨"a", .remaining, ""⟩, ⟨"b", .max, "5 0"⟩, ⟨"c", .max, "10 %"⟩] = .ok (.block as, []) := by
  have hknown : ∀ r ∈ oddlyMixed, r.mode ∈ AmountMode.choices.map Prod.snd := by decide
  obtain ⟨as, hmixed, hcaps⟩ := (block_falls_back hknown "USD/2").1 (by decide)
  exact ⟨hknown, as, hmixed 0 (by decide), hcaps 0⟩

end SplitRule
end LedgerScript
