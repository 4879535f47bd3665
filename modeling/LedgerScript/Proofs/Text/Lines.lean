import LedgerScript.Proofs.Text.Joined

/-! The lines of a text. Joining texts by line feeds puts their lines one after another; a line
feed inside a text can only add lines, and how a text starts shows in its first line. -/
namespace LedgerScript.Text

def lines (s : String) : List String := (s.toList.splitOn '\n').map String.ofList

def firstLine (s : String) : String := String.ofList (s.toList.takeWhile (· ≠ '\n'))

def startsWith (front s : String) : Bool := front.toList.isPrefixOf s.toList

theorem lines_of_notMem {s : String} (h : '\n' ∉ s.toList) : lines s = [s] := by
  rw [lines, List.splitOn_eq_singleton h, List.map_singleton, String.ofList_toList]

theorem lines_append (s t : String) : lines (s ++ "\n" ++ t) = lines s ++ lines t := by
  have hchars : (s ++ "\n" ++ t).toList = s.toList ++ '\n' :: t.toList := by simp
  rw [lines, hchars, List.splitOn_append_cons_self, List.map_append]
  rfl

theorem lines_intercalate {xs : List String} (h : xs ≠ []) :
    lines ("\n".intercalate xs) = xs.flatMap lines := by
  induction xs with
  | nil => exact absurd rfl h
  | cons x xs ih =>
    by_cases hxs : xs = []
    · rw [hxs, String.intercalate_singleton, List.flatMap_singleton]
    · rw [String.intercalate_cons_of_ne_nil hxs, lines_append, ih hxs, List.flatMap_cons]

theorem lines_eq_cons (s : String) : ∃ rest, lines s = firstLine s :: rest := by
  have hchars (cs : List Char) :
      ∃ rest, cs.splitOn '\n' = cs.takeWhile (· ≠ '\n') :: rest := by
    induction cs with
    | nil => exact ⟨[], rfl⟩
    | cons c cs ih =>
      obtain ⟨rest, hrest⟩ := ih
      by_cases hc : c = '\n'
      · exact ⟨cs.splitOn '\n', by simp [List.splitOn_cons_eq_if_modifyHead, hc]⟩
      · exact ⟨rest, by simp [List.splitOn_cons_eq_if_modifyHead, hc, hrest]⟩
  obtain ⟨rest, hrest⟩ := hchars s.toList
  exact ⟨rest.map String.ofList, by rw [lines, hrest, List.map_cons, firstLine]⟩

theorem firstLine_append {s : String} (h : '\n' ∉ s.toList) (t : String) :
    firstLine (s ++ t) = s ++ firstLine t := by
  have hall : ∀ c ∈ s.toList, decide (c ≠ '\n') = true := by
    intro c hc
    simpa using fun hfeed : c = '\n' => h (hfeed ▸ hc)
  rw [firstLine, String.toList_append, List.takeWhile_append_of_pos hall, String.ofList_append,
    String.ofList_toList, firstLine]

theorem firstLine_of_notMem {s : String} (h : '\n' ∉ s.toList) : firstLine s = s := by
  simpa [firstLine] using firstLine_append h ""

theorem startsWith_append_self (front s : String) : startsWith front (front ++ s) = true := by
  simp [startsWith]

/-- Two beginnings neither of which goes on as the other do not stand in one place. -/
theorem startsWith_append_eq_false {front other : String} (h : startsWith front other = false)
    (h' : startsWith other front = false) (s : String) : startsWith front (other ++ s) = false := by
  rw [← Bool.not_eq_true] at h h' ⊢
  simp only [startsWith, List.isPrefixOf_iff_prefix] at h h' ⊢
  intro hfront
  have hother : other.toList <+: (other ++ s).toList := by simp
  obtain hle | hle := List.prefix_or_prefix_of_prefix hfront hother
  · exact h hle
  · exact h' hle

theorem startsWith_firstLine {front : String} (h : '\n' ∉ front.toList) {s : String}
    (hs : startsWith front s = true) : startsWith front (firstLine s) = true := by
  obtain ⟨rest, hrest⟩ := List.isPrefixOf_iff_prefix.mp hs
  have hsplit : s = front ++ String.ofList rest := by
    rw [← String.toList_inj, ← hrest]
    simp
  rw [hsplit, firstLine_append h]
  exact startsWith_append_self front _

section Counting
variable {front : String}

theorem countP_startsWith_le_lines (h : '\n' ∉ front.toList) (s : String) :
    [s].countP (startsWith front) ≤ (lines s).countP (startsWith front) := by
  obtain ⟨rest, hrest⟩ := lines_eq_cons s
  rw [hrest, List.countP_singleton, List.countP_cons]
  by_cases hs : startsWith front s = true
  · simp [hs, startsWith_firstLine h hs]
  · simp [hs]

/-- A line feed inside a text takes no beginning away. -/
theorem countP_startsWith_le_flatMap (h : '\n' ∉ front.toList) (xs : List String) :
    xs.countP (startsWith front) ≤ (xs.flatMap lines).countP (startsWith front) := by
  induction xs with
  | nil => simp
  | cons x xs ih =>
    have hx := countP_startsWith_le_lines h x
    rw [← List.singleton_append, List.countP_append, List.flatMap_append, List.flatMap_singleton,
      List.countP_append]
    omega

theorem flatMap_lines_of_notMem {xs : List String} (h : ∀ x ∈ xs, '\n' ∉ x.toList) :
    xs.flatMap lines = xs := by
  induction xs with
  | nil => rfl
  | cons x xs ih =>
    obtain ⟨hx, hxs⟩ := List.forall_mem_cons.mp h
    rw [List.flatMap_cons, lines_of_notMem hx, ih hxs, List.singleton_append]

end Counting
end LedgerScript.Text
