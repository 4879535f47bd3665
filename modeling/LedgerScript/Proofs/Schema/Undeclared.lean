import LedgerScript.Proofs.Schema.Transport

/-! Entries that no record declares. An object may gain or lose them anywhere inside a value;
a reader that asks for declared names only cannot tell. -/
namespace LedgerScript

namespace Json.Value

/-- An object, and the same object with one entry more, under a name that is not listed. -/
inductive Gains (names : List String) : Value → Value → Prop where
  | entry (front back : Fields) {name : String} (h : name ∉ names) (v : Value) :
      Gains names (.object (front ++ back)) (.object (front ++ (name, v) :: back))

/-- Two objects that differ in one entry of the given name, and there by the relation. -/
inductive InField (name : String) (R : Value → Value → Prop) : Value → Value → Prop where
  | entry (front back : Fields) {v w : Value} (h : R v w) :
      InField name R (.object (front ++ (name, v) :: back)) (.object (front ++ (name, w) :: back))

/-- Two lists that differ in one item, and there by the relation. -/
inductive InItem (R : Value → Value → Prop) : Value → Value → Prop where
  | item (front back : List Value) {v w : Value} (h : R v w) :
      InItem R (.list (front ++ v :: back)) (.list (front ++ w :: back))

end Json.Value

namespace Schema
open Json (Value Fields)
open Json.Value (Gains InField InItem)
variable {α : Type} {R : Value → Value → Prop}

theorem get?_append (front back : Fields) (name : String) :
    Fields.get? (front ++ back) name = (front.get? name).or (back.get? name) :=
  List.lookup_append

theorem get?_insert_of_ne {name other : String} (h : name ≠ other) (front back : Fields)
    (v : Value) :
    Fields.get? (front ++ (other, v) :: back) name = Fields.get? (front ++ back) name := by
  rw [get?_append, get?_append, get?_cons_of_ne h]

theorem get?_insert_of_mem {names : List String} {name other : String} (hname : name ∈ names)
    (hother : other ∉ names) (front back : Fields) (v : Value) :
    Fields.get? (front ++ (other, v) :: back) name = Fields.get? (front ++ back) name := by
  apply get?_insert_of_ne
  rintro rfl
  exact hother hname

theorem get?_swap_of_ne {name other : String} (h : name ≠ other) (front back : Fields)
    (v w : Value) :
    Fields.get? (front ++ (other, v) :: back) name =
      Fields.get? (front ++ (other, w) :: back) name := by
  rw [get?_insert_of_ne h, get?_insert_of_ne h]

/-- The entry that differs is found, or another of its name stands before it. -/
theorem get?_swap_self (name : String) (front back : Fields) (v w : Value) :
    Fields.get? (front ++ (name, v) :: back) name =
        Fields.get? (front ++ (name, w) :: back) name ∨
      Fields.get? (front ++ (name, v) :: back) name = some v ∧
        Fields.get? (front ++ (name, w) :: back) name = some w := by
  have hself (u : Value) : Fields.get? ((name, u) :: back) name = some u := by
    simp [Fields.get?]
  rw [get?_append, get?_append, hself, hself]
  cases front.get? name with
  | none => exact .inr ⟨rfl, rfl⟩
  | some u => exact .inl rfl

/-- The reader does not tell values apart that are related. -/
def Reader.Blind (r : Reader α) (R : Value → Value → Prop) : Prop := ∀ ⦃v w⦄, R v w → r v = r w

theorem optional_swap {r : Reader α} (hr : r.Blind R) (name : String) (default : α)
    (front back : Fields) {v w : Value} (h : R v w) :
    Schema.optional name default r (front ++ (name, v) :: back) =
      Schema.optional name default r (front ++ (name, w) :: back) := by
  obtain heq | ⟨hv, hw⟩ := get?_swap_self name front back v w
  · exact optional_congr heq default r
  · rw [Schema.optional, Schema.optional, hv, hw]
    exact congrArg (Checked.within (.field name)) (hr h)

namespace Reader
variable {r : Reader α}

theorem Blind.itemsFrom (hr : r.Blind R) (i : Nat) (front back : List Value) {v w : Value}
    (h : R v w) : itemsFrom r i (front ++ v :: back) = itemsFrom r i (front ++ w :: back) := by
  induction front generalizing i with
  | nil => rw [List.nil_append, List.nil_append, Reader.itemsFrom, Reader.itemsFrom, hr h]
  | cons u front ih =>
    rw [List.cons_append, List.cons_append, Reader.itemsFrom, Reader.itemsFrom, ih]

theorem Blind.list (hr : r.Blind R) : (list r).Blind (InItem R) := by
  intro v w h
  cases h with
  | item front back h => exact hr.itemsFrom 0 front back h

theorem Blind.nonemptyList (hr : r.Blind R) : (nonemptyList r).Blind (InItem R) := by
  intro v w h
  cases h with
  | item front back h =>
    -- Neither list is empty, so both are read item by item.
    cases front with
    | nil => exact hr.itemsFrom 0 [] back h
    | cons u front => exact hr.itemsFrom 0 (u :: front) back h

theorem Blind.nullable (hr : r.Blind (InItem R)) : (nullable r).Blind (InItem R) := by
  intro v w h
  have hread := hr h
  cases h with
  | item front back h => exact congrArg (some <$> ·) hread

end Reader
end Schema
end LedgerScript
