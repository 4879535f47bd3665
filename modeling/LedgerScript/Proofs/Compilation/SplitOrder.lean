import LedgerScript.Compilation.Given
import LedgerScript.Proofs.Compilation.Faults

/-! The order of a split block. Its lines stand as a stable sort leaves the rules, of which
the key is whether a rule is given what remains. Beyond that the order of the rules does not
show: neither the form of a line nor a warning depends on it. -/
namespace LedgerScript

theorem underIndex_eq_ok_iff {α : Type} {index : Int} {tells : Bool} {outcome : Except Failure α}
    {a : α} :
    underIndex index tells outcome = .ok a ↔
      (tells = true → Decimal.isWritable (index + 1) = true) ∧ outcome = .ok a := by
  cases tells with
  | false => simp [underIndex]
  | true => cases hw : Decimal.isWritable (index + 1) <;> simp [underIndex, hw]

theorem AmountMode.conflicting_of_perm {modes modes' : List AmountMode} (h : modes'.Perm modes) :
    conflicting modes' = conflicting modes := by
  simp only [conflicting, h.mem_iff]

/-- The lines between the braces of a split block; without any there is an empty one. -/
def Destination.blockLines (as : List Allocation) : List String :=
  if as = [] then [""] else as.map Allocation.render

theorem Destination.render_block (as : List Allocation) :
    (Destination.block as).render =
      "\n".intercalate ("\x7b" :: (blockLines as ++ ["  \x7d"])) := by
  have hne : blockLines as ≠ [] := by
    unfold blockLines
    split
    next => simp
    next h => simpa using h
  have hjoined :
      "\n".intercalate (blockLines as) = "\n".intercalate (as.map Allocation.render) := by
    unfold blockLines
    split
    next h => simp [h]
    next => rfl
  rw [String.intercalate_cons_of_ne_nil (by simp),
    String.intercalate_append_of_ne_nil hne (by simp), hjoined, render, ← String.toList_inj]
  simp

namespace SplitRule

section Sorting
variable {α : Type} {last : α → Bool}

def precedes (last : α → Bool) (a b : α) : Bool := (last a).toNat ≤ (last b).toNat

theorem precedes_trans (a b c : α) (hab : precedes last a b = true)
    (hbc : precedes last b c = true) : precedes last a c = true := by
  simp only [precedes, decide_eq_true_eq] at hab hbc ⊢
  omega

theorem precedes_total (a b : α) : (precedes last a b || precedes last b a) = true := by
  simp only [precedes, Bool.or_eq_true, decide_eq_true_eq]
  omega

theorem arrange_of_pairwise {xs : List α} (h : xs.Pairwise fun a b => precedes last a b = true) :
    arrange last xs = xs := by
  induction xs with
  | nil => rfl
  | cons x xs ih =>
    obtain ⟨hx, hxs⟩ := List.pairwise_cons.mp h
    cases hlast : last x with
    | false =>
      have hrest := ih hxs
      simpa [arrange, hlast] using hrest
    | true =>
      -- All that follow come last too, so nothing moves.
      have hall : ∀ y ∈ xs, last y = true := by
        intro y hy
        have hle := hx y hy
        cases hy : last y with
        | true => rfl
        | false => simp [precedes, hlast, hy] at hle
      have hnone : xs.filter (!last ·) = [] := by simpa using hall
      have hsame : xs.filter last = xs := List.filter_eq_self.mpr hall
      simp [arrange, hlast, hnone, hsame]

/-- A stable sort keeps the order of all that have one key. -/
theorem filter_mergeSort (xs : List α) {q : α → Bool}
    (hq : ∀ a b, q a → q b → precedes last a b = true) :
    (xs.mergeSort (precedes last)).filter q = xs.filter q := by
  have hclass : (xs.filter q).Pairwise fun a b => precedes last a b = true :=
    List.pairwise_of_forall_mem_list fun a ha b hb =>
      hq a b (List.mem_filter.mp ha).2 (List.mem_filter.mp hb).2
  have hsub : (xs.filter q).Sublist (xs.mergeSort (precedes last)) :=
    List.sublist_mergeSort precedes_trans precedes_total hclass List.filter_sublist
  have hfiltered : (xs.filter q).Sublist ((xs.mergeSort (precedes last)).filter q) := by
    simpa using hsub.filter q
  have hlength := ((List.mergeSort_perm xs (precedes last)).filter q).length_eq
  exact (hfiltered.eq_of_length hlength.symm).symm

theorem arrange_eq_mergeSort (last : α → Bool) (xs : List α) :
    arrange last xs = xs.mergeSort (precedes last) := by
  have hsorted : arrange last (xs.mergeSort (precedes last)) = xs.mergeSort (precedes last) :=
    arrange_of_pairwise (List.pairwise_mergeSort precedes_trans precedes_total xs)
  have hfront : (xs.mergeSort (precedes last)).filter (!last ·) = xs.filter (!last ·) :=
    filter_mergeSort xs (by simp_all [precedes])
  have hback : (xs.mergeSort (precedes last)).filter last = xs.filter last :=
    filter_mergeSort xs (by simp_all [precedes])
  rw [← hsorted, arrange, arrange, hfront, hback]

end Sorting

variable {asset : String} {index : Int} {strict : Bool} {rules others : List SplitRule}
  {ws : List Warning} {as : List Allocation}

theorem block_of_lines (hws : AmountMode.conflictWarnings index strict (rules.map mode) = .ok ws)
    (hlines : lines asset rules = as.map .ok) :
    block asset index strict rules = .ok (.block as, ws) := by
  simp only [block, hws, (mapM_eq_ok_iff _ _ _).mpr hlines]
  rfl

/-- A block has one line for each rule, and its index has to be writable only where it is
warned of. -/
theorem blockAt_eq_ok_iff {d : Destination} :
    blockAt asset index strict rules = .ok (d, ws) ↔
      (AmountMode.conflicting (rules.map mode) = true → Decimal.isWritable (index + 1) = true) ∧
      AmountMode.conflictWarnings index strict (rules.map mode) = .ok ws ∧
      ∃ as, lines asset rules = as.map .ok ∧ d = .block as := by
  rw [blockAt, underIndex_eq_ok_iff]
  refine and_congr_right fun _ => ⟨fun h => ?_, ?_⟩
  · obtain ⟨as, hws, hlines, hd⟩ := block_eq_ok h
    exact ⟨hws, as, hlines, hd⟩
  · rintro ⟨hws, as, hlines, rfl⟩
    exact block_of_lines hws hlines

theorem exists_lines
    (h : ∀ r ∈ rules, ∃ a, allocation asset (AmountMode.conflicting (rules.map mode)) r = .ok a) :
    ∃ as : List Allocation, lines asset rules = as.map .ok := by
  obtain ⟨as, has⟩ := exists_mapM fun r hr =>
    h r ((arrange_perm isRemaining rules).mem_iff.mp hr)
  exact ⟨as, (mapM_eq_ok_iff _ _ _).mp has⟩

theorem exists_of_mem_lines (h : lines asset rules = as.map .ok) {a : Allocation} (ha : a ∈ as) :
    ∃ r ∈ rules, allocation asset (AmountMode.conflicting (rules.map mode)) r = .ok a := by
  have hline : Except.ok a ∈ lines asset rules := h ▸ List.mem_map_of_mem ha
  obtain ⟨r, hr, hallocation⟩ := List.mem_map.mp hline
  exact ⟨r, (arrange_perm isRemaining rules).mem_iff.mp hr, hallocation⟩

theorem exists_allocation_of_lines (h : lines asset rules = as.map .ok) {r : SplitRule}
    (hr : r ∈ rules) :
    ∃ a, allocation asset (AmountMode.conflicting (rules.map mode)) r = .ok a := by
  have hline : allocation asset (AmountMode.conflicting (rules.map mode)) r ∈ lines asset rules :=
    List.mem_map_of_mem ((arrange_perm isRemaining rules).mem_iff.mpr hr)
  rw [h] at hline
  obtain ⟨a, -, ha⟩ := List.mem_map.mp hline
  exact ⟨a, ha.symm⟩

/-- Rules that differ only in how those that come last are interspersed cannot be told apart. -/
theorem blockAt_of_arrange (h : arrange isRemaining others = arrange isRemaining rules) :
    blockAt asset index strict others = blockAt asset index strict rules := by
  have hperm : others.Perm rules :=
    (arrange_perm isRemaining others).symm.trans (h ▸ arrange_perm isRemaining rules)
  have hmodes := AmountMode.conflicting_of_perm (hperm.map mode)
  simp only [blockAt, block, AmountMode.conflictWarnings, hmodes, h]

theorem lines_of_perm (h : others.Perm rules) : (lines asset others).Perm (lines asset rules) := by
  have harranged : (arrange isRemaining others).Perm (arrange isRemaining rules) :=
    (arrange_perm isRemaining others).trans (h.trans (arrange_perm isRemaining rules).symm)
  rw [lines, lines, AmountMode.conflicting_of_perm (h.map mode)]
  exact harranged.map _

theorem blockAt_of_perm (hperm : others.Perm rules)
    (h : blockAt asset index strict rules = .ok (.block as, ws)) :
    ∃ bs, blockAt asset index strict others = .ok (.block bs, ws) ∧ bs.Perm as := by
  obtain ⟨hwritable, hws, as', hlines, hd⟩ := blockAt_eq_ok_iff.mp h
  cases hd
  have hmodes := AmountMode.conflicting_of_perm (hperm.map mode)
  obtain ⟨bs, hlines'⟩ : ∃ bs : List Allocation, lines asset others = bs.map .ok := by
    refine exists_lines fun r hr => ?_
    rw [hmodes]
    exact exists_allocation_of_lines hlines (hperm.mem_iff.mp hr)
  refine ⟨bs, blockAt_eq_ok_iff.mpr ⟨?_, ?_, bs, hlines', rfl⟩, ?_⟩
  · rwa [hmodes]
  · rwa [AmountMode.conflictWarnings, hmodes]
  · have hshuffled : (lines asset others).Perm (lines asset rules) := lines_of_perm hperm
    rw [hlines, hlines'] at hshuffled
    exact (List.map_perm_map_iff fun _ _ => Except.ok.inj).mp hshuffled

/-- The lines of a block are those of the rules after a stable sort that puts last what is
given the rest, one for each rule and each on a line of its own. However the rules that come
last are interspersed among the others, the block is the same; in any other order the lines
are the same but for their order. The warnings are the same in both cases. -/
theorem block_stable_order {d : Destination}
    (h : blockAt asset index strict rules = .ok (d, ws)) :
    ∃ as, d = .block as ∧
      d.render = "\n".intercalate ("\x7b" :: (Destination.blockLines as ++ ["  \x7d"])) ∧
      as.length = rules.length ∧
      as.map .ok = (rules.filter (!isRemaining ·) ++ rules.filter isRemaining).map
        (allocation asset (AmountMode.conflicting (rules.map mode))) ∧
      rules.filter (!isRemaining ·) ++ rules.filter isRemaining =
        rules.mergeSort (precedes isRemaining) ∧
      (∀ others, others.filter (!isRemaining ·) = rules.filter (!isRemaining ·) →
        others.filter isRemaining = rules.filter isRemaining →
        blockAt asset index strict others = .ok (d, ws)) ∧
      ∀ others, others.Perm rules →
        ∃ bs, blockAt asset index strict others = .ok (.block bs, ws) ∧ bs.Perm as := by
  obtain ⟨-, -, as, hlines, rfl⟩ := blockAt_eq_ok_iff.mp h
  refine ⟨as, rfl, Destination.render_block as, ?_, hlines.symm, arrange_eq_mergeSort _ rules,
    fun others hfront hback => ?_, fun others hperm => blockAt_of_perm hperm h⟩
  · simpa [length_lines] using (congrArg List.length hlines).symm
  · rw [← h]
    exact blockAt_of_arrange (by rw [arrange, arrange, hfront, hback])

/-- Two rules that are given the rest, one of them between a cap and a fraction. -/
def interspersed : List SplitRule :=
  [⟨"a", .remaining, ""⟩, ⟨"b", .max, "100"⟩, ⟨"c", .remaining, ""⟩, ⟨"d", .fraction, "5 %"⟩]

theorem block_stable_order_interspersed :
    ∃ d ws, blockAt "USD/2" 0 false interspersed = .ok (d, ws) ∧
      d.render = "\x7b\n    max [USD/2 100] to @b\n    max [USD/2 5] to @d\n" ++
        "    remaining to @a\n    remaining to @c\n  \x7d" ∧
      blockAt "USD/2" 0 false
        (interspersed.filter (!isRemaining ·) ++ interspersed.filter isRemaining) = .ok (d, ws) ∧
      ∃ bs, blockAt "USD/2" 0 false interspersed.reverse = .ok (.block bs, ws) := by
  obtain ⟨d, ws, h, hd⟩ : ∃ d ws, blockAt "USD/2" 0 false interspersed = .ok (d, ws) ∧
      d.render = "\x7b\n    max [USD/2 100] to @b\n    max [USD/2 5] to @d\n" ++
        "    remaining to @a\n    remaining to @c\n  \x7d" := ⟨_, _, rfl, by decide⟩
  obtain ⟨as, -, -, -, -, -, hsame, hperm⟩ := block_stable_order h
  obtain ⟨bs, hbs, -⟩ := hperm interspersed.reverse interspersed.reverse_perm
  exact ⟨d, ws, h, hd, hsame _ (by decide) (by decide), bs, hbs⟩

/-- No rules at all leave an empty line between the braces, and not just the braces. -/
theorem block_of_nothing_has_a_line :
    blockAt "USD/2" 0 false [] = .ok (.block [], []) ∧
      (Destination.block []).render = "\x7b\n\n  \x7d" ∧
      (Destination.block []).render ≠
        "\n".intercalate ("\x7b" :: ([].map Allocation.render ++ ["  \x7d"])) :=
  ⟨rfl, by decide, by decide⟩

end SplitRule
end LedgerScript
