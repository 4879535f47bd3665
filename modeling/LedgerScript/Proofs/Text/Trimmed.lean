import LedgerScript.Text.Blank
import Mathlib.Data.List.DropRight

/-! Texts without blanks at their ends. Trimming gives such a text, and those are the texts which
it leaves as they are. -/
namespace LedgerScript.Text
variable {p : Char → Bool} {cs : List Char}

/-- No character of the class stands at either end. -/
structure Bare (p : Char → Bool) (cs : List Char) : Prop where
  head : ∀ c ∈ cs.head?, p c = false
  last : ∀ c ∈ cs.getLast?, p c = false

theorem of_head_dropWhile {c : Char} (h : c ∈ (cs.dropWhile p).head?) : p c = false := by
  have hhead := List.head?_dropWhile_not p cs
  rwa [Option.mem_def.mp h] at hhead

theorem dropWhile_of_head (h : ∀ c ∈ cs.head?, p c = false) : cs.dropWhile p = cs := by
  cases cs with
  | nil => rfl
  | cons c cs => exact List.dropWhile_cons_of_neg (by simpa using h c rfl)

theorem bare_strip (p : Char → Bool) (cs : List Char) : Bare p (strip p cs) := by
  refine ⟨fun c hc => ?_, fun c hc => ?_⟩
  · -- What is dropped at the end leaves the beginning as it is.
    have hfront : strip p cs <+: cs.dropWhile p := List.rdropWhile_prefix p _
    obtain ⟨rest, hrest⟩ := hfront
    have hhead : c ∈ (cs.dropWhile p).head? := by
      rw [← hrest, List.head?_append, Option.mem_def.mp hc]
      rfl
    exact of_head_dropWhile hhead
  · rw [strip, List.getLast?_reverse] at hc
    exact of_head_dropWhile hc

theorem strip_of_bare (h : Bare p cs) : strip p cs = cs := by
  have hlast : ∀ c ∈ cs.reverse.head?, p c = false := by
    rw [List.head?_reverse]
    exact h.last
  rw [strip, dropWhile_of_head h.head, dropWhile_of_head hlast, List.reverse_reverse]

def Trimmed (s : String) : Prop := Bare isBlank s.toList

theorem trimmed_trim (s : String) : Trimmed (trim s) := by
  rw [Trimmed, toList_trim]
  exact bare_strip isBlank s.toList

theorem trim_of_trimmed {s : String} (h : Trimmed s) : trim s = s := by
  rw [trim, strip_of_bare h, String.ofList_toList]

end LedgerScript.Text
