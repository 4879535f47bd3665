import LedgerScript.Proofs.Text.Joined
import LedgerScript.Script.Account

/-! Addresses, percentages and caps as canonical forms: taken twice they change nothing
more, and what is decided about a raw text can be decided about its canonical form. -/
namespace LedgerScript
open Text (IsToken)

theorem head_address (a : String) : (address a).toList.head? = some '@' := by
  unfold address
  split
  · assumption
  · simp

@[simp] theorem address_address (a : String) : address (address a) = address a :=
  (address_eq_self_iff (address a)).mpr (head_address a)

theorem address_ne_empty (a : String) : address a ≠ "" := by
  intro h
  have hh := head_address a
  rw [h] at hh
  exact absurd hh (by decide)

theorem isWorld_iff (a : String) : isWorld a = true ↔ address a = "@world" := by
  unfold isWorld address
  split
  next h =>
    have hne : a ≠ "world" := by
      rintro rfl
      exact absurd h (by decide)
    simp [hne]
  next h =>
    have hne : a ≠ "@world" := by
      rintro rfl
      exact h (by decide)
    have hsplit : "@world" = "@" ++ "world" := by decide
    rw [hsplit, String.append_right_inj, ← hsplit]
    simp [hne]

@[simp] theorem isWorld_address (a : String) : isWorld (address a) = isWorld a := by
  rw [Bool.eq_iff_iff, isWorld_iff, isWorld_iff, address_address]

theorem percent_mem_percentage (v : String) : '%' ∈ (percentage v).toList := by
  unfold percentage
  split
  · assumption
  · simp

@[simp] theorem percentage_percentage (v : String) : percentage (percentage v) = percentage v :=
  if_pos (percent_mem_percentage v)

@[simp] theorem capText_percentage (v : String) : capText (percentage v) = capText v := by
  unfold percentage
  split
  · rfl
  · simp [capText]

theorem isToken_address {a : String} (h : IsToken a) : IsToken (address a) := by
  unfold address
  split
  · exact h
  · exact IsToken.append (by decide) h

theorem isToken_percentage {v : String} (h : IsToken v) : IsToken (percentage v) := by
  unfold percentage
  split
  · exact h
  · exact h.append (by decide)

theorem Text.mem_of_mem_strip {p : Char → Bool} {c : Char} {cs : List Char}
    (h : c ∈ strip p cs) : c ∈ cs := by
  have hr := List.dropWhile_subset p (List.mem_reverse.mp h)
  exact List.dropWhile_subset p (List.mem_reverse.mp hr)

theorem isToken_capText {v : String} (h : IsToken v) : IsToken (capText v) := by
  intro c hc
  rw [capText, Text.toList_trim, String.toList_ofList] at hc
  exact h c (List.mem_filter.mp (Text.mem_of_mem_strip hc)).1

end LedgerScript
