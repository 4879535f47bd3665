import LedgerScript.Schema.Reader
import Mathlib.Control.Basic

/-! Readings that correspond. Where a change of the value is answered by a change of what
is read from it, and by no other issues, the same holds of lists; and of all fields of a
record only those that are declared can make a difference. -/
namespace LedgerScript.Schema
open Json (Value Fields)
variable {α β : Type}

namespace Checked

@[simp] theorem issues_pure (a : α) : (pure a : Checked α).issues = [] := rfl

@[simp] theorem value?_map (f : α → β) (c : Checked α) : (f <$> c).value? = c.value?.map f := by
  cases c <;> rfl

theorem eq_of_issues_of_value? {c d : Checked α} (hi : c.issues = d.issues)
    (hv : c.value? = d.value?) : c = d := by
  cases c <;> cases d <;> simp_all [issues, value?]

instance : LawfulApplicative Checked where
  map_const := rfl
  id_map c := by cases c <;> rfl
  comp_map _ _ c := by cases c <;> rfl
  seqLeft_eq c d := by cases c <;> cases d <;> rfl
  seqRight_eq c d := by cases c <;> cases d <;> rfl
  pure_seq _ c := by cases c <;> rfl
  map_pure _ _ := rfl
  seq_pure c a := by
    apply eq_of_issues_of_value?
    · simp
    · cases c <;> rfl
  seq_assoc c d e := by
    apply eq_of_issues_of_value?
    · simp
    · cases c <;> cases d <;> cases e <;> rfl

theorem within_map (s : Step) (f : α → β) (c : Checked α) :
    (f <$> c).within s = f <$> c.within s := by
  cases c <;> rfl

end Checked

theorem get?_cons_of_ne {name k : String} (h : name ≠ k) (v : Value) (fs : Fields) :
    Fields.get? ((k, v) :: fs) name = fs.get? name := by
  simp only [Fields.get?, List.lookup_cons, beq_false_of_ne h]

theorem required_congr {name : String} {fs gs : Fields} (h : fs.get? name = gs.get? name)
    (r : Reader α) : required name r fs = required name r gs := by
  rw [required, required, h]

theorem optional_congr {name : String} {fs gs : Fields} (h : fs.get? name = gs.get? name)
    (default : α) (r : Reader α) :
    Schema.optional name default r fs = Schema.optional name default r gs := by
  rw [Schema.optional, Schema.optional, h]

namespace Reader
variable {r : Reader α} {f : Value → Value} {g : Value → α → α}

theorem itemsFrom_map (h : ∀ v, r (f v) = g v <$> r v) (i : Nat) (vs : List Value) :
    itemsFrom r i (vs.map f) = List.zipWith g vs <$> itemsFrom r i vs := by
  induction vs generalizing i with
  | nil => rfl
  | cons v vs ih =>
    rw [List.map_cons, itemsFrom, itemsFrom, h, ih, Checked.within_map]
    cases (r v).within (.item i) <;> cases itemsFrom r (i + 1) vs <;> rfl

theorem nonemptyList_map (h : ∀ v, r (f v) = g v <$> r v) (vs : List Value) :
    nonemptyList r (.list (vs.map f)) = List.zipWith g vs <$> nonemptyList r (.list vs) := by
  cases vs with
  | nil => rfl
  | cons v vs => exact itemsFrom_map h 0 (v :: vs)

end Reader
end LedgerScript.Schema
