import LedgerScript.Proofs.Compilation.Strictness

/-! Which warnings a result carries. They tell of exactly the splits that mix fractions and
caps, each once and in the order of the postings. -/
namespace LedgerScript
open AmountMode (mixWarning)

namespace Posting

def mixedIndices (ps : List Posting) : List Nat :=
  (ps.zipIdx.filter fun (p, _) => p.Mixed).map Prod.snd

theorem mixWarnings_eq_map (ps : List Posting) :
    mixWarnings 0 ps = (mixedIndices ps).map mixWarning := by
  rw [mixWarnings, mixedIndices, List.map_map]
  rfl

theorem pairwise_mixedIndices (ps : List Posting) : (mixedIndices ps).Pairwise (· < ·) := by
  have hsub : (mixedIndices ps).Sublist (ps.zipIdx.map Prod.snd) :=
    List.filter_sublist.map Prod.snd
  rw [List.zipIdx_map_snd] at hsub
  exact List.Pairwise.sublist hsub (List.pairwise_lt_range' 1)

theorem mem_mixedIndices {ps : List Posting} {i : Nat} :
    i ∈ mixedIndices ps ↔ ∃ p, ps[i]? = some p ∧ p.Mixed := by
  simp [mixedIndices, List.mk_mem_zipIdx_iff_getElem?]

end Posting

structure Warning.TellsMix (w : Warning) (i : Nat) : Prop where
  code : w.code = .conflictingSplitModes
  postingIndex : w.postingIndex = some i
  gravity : w.gravity = .warning
  message : w.message = "Posting " ++ Decimal.natText (i + 1) ++
    " mixes fraction and max split rules; rendering all of them as capped amounts"

theorem AmountMode.tellsMix_mixWarning (i : Nat) : (mixWarning i).TellsMix i :=
  ⟨rfl, rfl, rfl, rfl⟩

/-- Leniently compiled, an intent is warned of exactly where a split mixes fractions and caps,
in order and once for each; rules that are left over on other postings do not count. -/
theorem warnings_tell_mixes {intent : Intent} {newline : Bool} {r : Compiled}
    (h : (compile ⟨false, newline⟩ intent).outcome = .ok r) :
    (∃ is : List Nat, r.warnings.map Warning.postingIndex = is.map some ∧ is.Pairwise (· < ·) ∧
      ∀ i, i ∈ is ↔ ∃ p, intent.postings[i]? = some p ∧ p.destinationKind = .split ∧
        (∃ rule ∈ p.rules, rule.mode = .fraction) ∧ ∃ rule ∈ p.rules, rule.mode = .max) ∧
    (∀ w ∈ r.warnings, ∃ i, w.TellsMix i) ∧
    (r.hasWarnings = true ↔ ∃ p ∈ intent.postings, p.destinationKind = .split ∧
      (∃ rule ∈ p.rules, rule.mode = .fraction) ∧ ∃ rule ∈ p.rules, rule.mode = .max) ∧
    r.warningsFor .conflictingSplitModes = r.warnings := by
  have hwarnings : r.warnings = (Posting.mixedIndices intent.postings).map mixWarning := by
    rw [warnings_of_compile h, Posting.mixWarnings_eq_map]
  have htells : ∀ w ∈ r.warnings, ∃ i, w.TellsMix i := by
    intro w hw
    rw [hwarnings] at hw
    obtain ⟨i, -, rfl⟩ := List.mem_map.mp hw
    exact ⟨i, AmountMode.tellsMix_mixWarning i⟩
  refine ⟨⟨Posting.mixedIndices intent.postings, ?_, Posting.pairwise_mixedIndices _,
    fun i => Posting.mem_mixedIndices⟩, htells, ?_, ?_⟩
  · rw [hwarnings, List.map_map]
    rfl
  · have hnone := Posting.mixWarnings_eq_nil_iff 0 intent.postings
    rw [← warnings_of_compile h] at hnone
    rw [Compiled.hasWarnings, decide_eq_true_eq, List.length_pos_iff, ne_eq, hnone]
    simp only [not_forall, not_not, exists_prop]
    rfl
  · refine List.filter_eq_self.mpr fun w hw => ?_
    obtain ⟨i, hi⟩ := htells w hw
    exact decide_eq_true hi.code

/-- Two splits are mixed, and so are the rules left over on the payment between them. -/
def Intent.mixedTwice : Intent :=
  ⟨"Share the rent",
    [⟨"users:1", .none, none, .split, none,
      some [⟨"a", .max, "100"⟩, ⟨"b", .remaining, ""⟩, ⟨"c", .fraction, "50%"⟩], "USD/2", "900"⟩,
     ⟨"users:1", .none, none, .simple, some "shop",
      some [⟨"a", .max, "100"⟩, ⟨"c", .fraction, "50%"⟩], "USD/2", "900"⟩,
     ⟨"users:1", .none, none, .split, none,
      some [⟨"c", .fraction, "50%"⟩, ⟨"a", .max, "100"⟩], "USD/2", "900"⟩], []⟩

theorem warnings_tell_mixes_twice :
    ∃ r, (compile ⟨false, true⟩ Intent.mixedTwice).outcome = .ok r ∧
      r.warnings.map Warning.postingIndex = [some 0, some 2] ∧ r.hasWarnings = true ∧
      (∀ w ∈ r.warnings, ∃ i, w.TellsMix i) ∧
      r.warningsFor .conflictingSplitModes = r.warnings := by
  obtain ⟨r, hr, hindices⟩ : ∃ r, (compile ⟨false, true⟩ Intent.mixedTwice).outcome = .ok r ∧
      r.warnings.map Warning.postingIndex = [some 0, some 2] := ⟨_, rfl, rfl⟩
  obtain ⟨-, htells, hhas, hfor⟩ := warnings_tell_mixes hr
  refine ⟨r, hr, hindices, hhas.mpr ⟨_, List.mem_cons_self .., ?_⟩, htells, hfor⟩
  decide

end LedgerScript
