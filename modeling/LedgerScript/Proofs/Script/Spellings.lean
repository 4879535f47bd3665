import LedgerScript.Compilation.Posting
import LedgerScript.Proofs.Script.Canonical
import LedgerScript.Proofs.Text.Trimmed

/-! Which spellings come to the same. An account has at most two, with its sign and without; a
share may leave out its percent sign, and a cap forgets about it. -/
namespace LedgerScript
open Text (Trimmed)

/-- Every text is brought into a form, and a text that has it already stays as it is. -/
structure Canonizes (f : String → String) (Form : String → Prop) : Prop where
  form : ∀ s, Form (f s)
  fixed : ∀ s, Form s → f s = s

namespace Canonizes
variable {f : String → String} {Form : String → Prop} (h : Canonizes f Form)
include h

theorem idempotent (s : String) : f (f s) = f s := h.fixed _ (h.form s)

theorem eq_self_iff (s : String) : f s = s ↔ Form s :=
  ⟨fun hs => hs ▸ h.form s, h.fixed s⟩

theorem exists_eq_iff (t : String) : (∃ s, f s = t) ↔ Form t := by
  constructor
  · rintro ⟨s, rfl⟩
    exact h.form s
  · intro ht
    exact ⟨t, h.fixed t ht⟩

end Canonizes

theorem canonizes_address : Canonizes address fun s => s.toList.head? = some '@' :=
  ⟨head_address, fun s hs => (address_eq_self_iff s).mpr hs⟩

theorem canonizes_percentage : Canonizes percentage fun s => '%' ∈ s.toList :=
  ⟨percent_mem_percentage, fun _ hs => if_pos hs⟩

theorem percent_notMem_capText (v : String) : '%' ∉ (capText v).toList := by
  intro h
  rw [capText, Text.toList_trim, String.toList_ofList] at h
  simpa using (List.mem_filter.mp (Text.mem_of_mem_strip h)).2

/-- The blanks go after the percent signs, so that none is left at an end. -/
theorem canonizes_capText : Canonizes capText fun s => '%' ∉ s.toList ∧ Trimmed s := by
  refine ⟨fun v => ⟨percent_notMem_capText v, Text.trimmed_trim _⟩, ?_⟩
  rintro v ⟨hpercent, htrimmed⟩
  have hkept : v.toList.filter (· ≠ '%') = v.toList := by
    rw [List.filter_eq_self]
    intro c hc
    have hne : c ≠ '%' := fun h => hpercent (h ▸ hc)
    simpa using hne
  rw [capText, hkept, String.ofList_toList, Text.trim_of_trimmed htrimmed]

/-- The first account is the second without the sign in front, and has none of its own. -/
def Unsigned (a b : String) : Prop := b = "@" ++ a ∧ a.toList.head? ≠ some '@'

theorem Unsigned.ne {a b : String} (h : Unsigned a b) : a ≠ b := by
  rintro rfl
  apply h.2
  rw [h.1]
  simp

theorem Unsigned.address_eq {a b : String} (h : Unsigned a b) : address a = address b := by
  obtain ⟨rfl, ha⟩ := h
  have hb : address ("@" ++ a) = "@" ++ a := canonizes_address.fixed _ (by simp)
  rw [hb, address, if_neg ha]

theorem address_eq_address_iff (a b : String) :
    address a = address b ↔ a = b ∨ Unsigned a b ∨ Unsigned b a := by
  constructor
  · intro h
    by_cases ha : a.toList.head? = some '@' <;> by_cases hb : b.toList.head? = some '@'
    · rw [canonizes_address.fixed a ha, canonizes_address.fixed b hb] at h
      exact .inl h
    · rw [canonizes_address.fixed a ha, address, if_neg hb] at h
      exact .inr (.inr ⟨h, hb⟩)
    · rw [canonizes_address.fixed b hb, address, if_neg ha] at h
      exact .inr (.inl ⟨h.symm, ha⟩)
    · rw [address, if_neg ha, address, if_neg hb, String.append_right_inj] at h
      exact .inl h
  · rintro (rfl | h | h)
    · rfl
    · exact h.address_eq
    · exact h.address_eq.symm

namespace SplitRule

def line (asset : String) (capped : Bool) (r : SplitRule) : Except Failure String :=
  (r.allocation asset capped).map Allocation.render

theorem allocation_percentage_value (asset : String) (capped : Bool) (target v : String) :
    allocation asset capped ⟨target, .fraction, percentage v⟩ =
      allocation asset capped ⟨target, .fraction, v⟩ := by
  simp only [allocation, capText_percentage, percentage_percentage]

end SplitRule

/-- Addresses, shares and caps are canonical forms. Two spellings of an account come to the same
address only if they differ in the sign alone; a share with its percent sign and without shows
in the same line, be it as a share or as a cap. -/
theorem canonical_spellings (a b v asset target : String) (capped : Bool) :
    (address (address a) = address a ∧
      ((∃ s, address s = a) ↔ a.toList.head? = some '@') ∧
      (address a = address b ∧ a ≠ b ↔ Unsigned a b ∨ Unsigned b a) ∧
      (isWorld a = true ↔ address a = "@world")) ∧
    (percentage (percentage v) = percentage v ∧ '%' ∈ (percentage v).toList ∧
      (percentage v = v ↔ '%' ∈ v.toList)) ∧
    (capText (capText v) = capText v ∧ '%' ∉ (capText v).toList ∧ Trimmed (capText v) ∧
      (capText v = v ↔ '%' ∉ v.toList ∧ Trimmed v) ∧ capText (percentage v) = capText v) ∧
    ∃ text, SplitRule.line asset capped ⟨target, .fraction, v⟩ = .ok text ∧
      SplitRule.line asset capped ⟨target, .fraction, percentage v⟩ = .ok text := by
  obtain ⟨hpercent, htrimmed⟩ := canonizes_capText.form v
  refine ⟨⟨canonizes_address.idempotent a, canonizes_address.exists_eq_iff a, ?_, isWorld_iff a⟩,
    ⟨canonizes_percentage.idempotent v, canonizes_percentage.form v,
      canonizes_percentage.eq_self_iff v⟩,
    ⟨canonizes_capText.idempotent v, hpercent, htrimmed, canonizes_capText.eq_self_iff v,
      capText_percentage v⟩, ?_⟩
  · rw [address_eq_address_iff]
    constructor
    · rintro ⟨rfl | h, hne⟩
      · exact absurd rfl hne
      · exact h
    · intro h
      exact ⟨.inr h, h.elim Unsigned.ne fun hba => hba.ne.symm⟩
  · simp only [SplitRule.line, SplitRule.allocation_percentage_value]
    exact ⟨_, rfl, rfl⟩

/-- A blank before the percent sign is at the end once the sign is gone. -/
example : capText " 5 0 %" = "5 0" ∧ address "@world" = address "world" ∧
    address "@@world" ≠ address "@world" := by decide

end LedgerScript
