import LedgerScript.Text.Blank

/-! Canonical forms of the texts a script is made of: account addresses, percentages
and caps. -/
namespace LedgerScript

/-- The address of an account carries exactly the sign it was given or one in front. -/
def address (account : String) : String :=
  if account.toList.head? = some '@' then account else "@" ++ account

/-- The account every asset comes from; it has no limit. -/
def isWorld (account : String) : Bool := account = "world" || account = "@world"

/-- A share with a percent sign; one that holds the sign anywhere stands. -/
def percentage (value : String) : String :=
  if '%' ∈ value.toList then value else value ++ "%"

/-- The number of a share without its percent signs and the blanks around it. -/
def capText (value : String) : String :=
  Text.trim (String.ofList (value.toList.filter (· ≠ '%')))

theorem address_eq_self_iff (a : String) : address a = a ↔ a.toList.head? = some '@' := by
  unfold address
  split
  · simpa
  · rename_i h
    refine ⟨fun e => ?_, fun e => absurd e h⟩
    have := congrArg (fun s => s.toList.length) e
    simp at this

end LedgerScript
