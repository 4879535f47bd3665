import LedgerScript.Text.Blank

/-! Texts joined from pieces. As long as no piece holds the separator, the whole tells
the pieces apart; nothing is escaped and nothing has to be. -/
namespace LedgerScript.Text

/-- A text without a blank, at its ends or inside. -/
def IsToken (s : String) : Prop := ∀ c ∈ s.toList, isBlank c = false

-- The characters of the text are gone through, not all that there are.
instance (s : String) : Decidable (IsToken s) :=
  List.decidableBAll (fun c => isBlank c = false) s.toList

namespace IsToken

theorem append {s t : String} (hs : IsToken s) (ht : IsToken t) : IsToken (s ++ t) := by
  intro c hc
  rw [String.toList_append, List.mem_append] at hc
  exact hc.elim (hs c) (ht c)

theorem notMem {s : String} (hs : IsToken s) {c : Char} (hc : isBlank c = true) :
    c ∉ s.toList := by
  intro h
  rw [hs c h] at hc
  exact Bool.false_ne_true hc

end IsToken

theorem intercalate_inj {sep : String} {d : Char} (hsep : sep.toList = [d])
    {xs ys : List String} (hx : ∀ x ∈ xs, d ∉ x.toList) (hy : ∀ y ∈ ys, d ∉ y.toList)
    (nx : xs ≠ []) (ny : ys ≠ []) (h : sep.intercalate xs = sep.intercalate ys) : xs = ys := by
  have split {zs : List String} (hz : ∀ z ∈ zs, d ∉ z.toList) (nz : zs ≠ []) :
      (sep.intercalate zs).toList.splitOn d = zs.map String.toList := by
    rw [String.toList_intercalate, hsep]
    apply List.splitOn_intercalate
    · intro l hl
      obtain ⟨z, hm, rfl⟩ := List.mem_map.mp hl
      exact hz z hm
    · simpa using nz
  have hm : xs.map String.toList = ys.map String.toList := by
    rw [← split hx nx, ← split hy ny, h]
  exact (List.map_inj_right fun _ _ => String.toList_inj.mp).mp hm

theorem notMem_intercalate {sep : String} {c : Char} {xs : List String}
    (hsep : c ∉ sep.toList) (hx : ∀ x ∈ xs, c ∉ x.toList) : c ∉ (sep.intercalate xs).toList := by
  induction xs with
  | nil => simp
  | cons x xs ih =>
    have hxs : c ∉ (sep.intercalate xs).toList :=
      ih fun y hy => hx y (List.mem_cons_of_mem x hy)
    cases xs with
    | nil => simpa using hx x
    | cons y ys =>
      rw [String.intercalate_cons_cons]
      simp only [String.toList_append, List.mem_append, not_or]
      exact ⟨⟨hx x (by simp), hsep⟩, hxs⟩

/-- Words are told apart by single spaces, even if some of them are empty. -/
theorem words_inj {xs ys : List String} (hx : ∀ x ∈ xs, IsToken x) (hy : ∀ y ∈ ys, IsToken y)
    (nx : xs ≠ []) (ny : ys ≠ []) (h : " ".intercalate xs = " ".intercalate ys) : xs = ys :=
  intercalate_inj (d := ' ') (by decide) (fun x m => (hx x m).notMem (by decide))
    (fun y m => (hy y m).notMem (by decide)) nx ny h

theorem notMem_words {xs : List String} (hx : ∀ x ∈ xs, IsToken x) :
    '\n' ∉ (" ".intercalate xs).toList :=
  notMem_intercalate (by decide) fun x m => (hx x m).notMem (by decide)

end LedgerScript.Text
