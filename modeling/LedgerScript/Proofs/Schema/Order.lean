import LedgerScript.Proofs.Schema.Acceptance
import LedgerScript.Proofs.Schema.Paths

/-! The order in which issues are listed: depth first, the fields of a record as they are
declared and the items of a list as they come. Where names are declared once each, no path
comes twice. -/
namespace LedgerScript.Schema
open Json (Value Fields)
variable {α β : Type} {records : List (List String)}

def Earlier (records : List (List String)) (a b : String) : Prop :=
  ∃ names ∈ records, [a, b].Sublist names

instance (records : List (List String)) (a b : String) : Decidable (Earlier records a b) :=
  inferInstanceAs (Decidable (∃ names ∈ records, _))

def Step.Before (records : List (List String)) : Step → Step → Prop
  | .item i, .item j => i < j
  | .field a, .field b => Earlier records a b
  | _, _ => False

/-- Where two paths part, the step of the one comes before that of the other. -/
inductive Path.Before (records : List (List String)) : Path → Path → Prop where
  | part {s t : Step} {p q : Path} (h : s.Before records t) : Before records (s :: p) (t :: q)
  | common {s : Step} {p q : Path} (h : Before records p q) : Before records (s :: p) (s :: q)

theorem Step.Before.ne (hrecords : ∀ names ∈ records, names.Nodup) {s t : Step}
    (h : s.Before records t) : s ≠ t := by
  rintro rfl
  cases s with
  | field a =>
    obtain ⟨names, hnames, hsub⟩ := h
    have hnodup : [a, a].Nodup := hsub.nodup (hrecords names hnames)
    simp at hnodup
  | item i => exact Nat.lt_irrefl i h

theorem Path.Before.ne (hrecords : ∀ names ∈ records, names.Nodup) {p q : Path}
    (h : p.Before records q) : p ≠ q := by
  induction h with
  | part h =>
    intro heq
    exact h.ne hrecords (List.cons.inj heq).1
  | common _ ih =>
    intro heq
    exact ih (List.cons.inj heq).2

theorem Path.Before.ne_nil {p q : Path} (h : p.Before records q) : p ≠ [] ∧ q ≠ [] := by
  cases h <;> simp

def Path.Declared (records : List (List String)) (p : Path) : Prop :=
  ∀ name, Step.field name ∈ p → ∃ names ∈ records, name ∈ names

structure Tidy (records : List (List String)) (is : List Issue) : Prop where
  ordered : is.Pairwise fun i j => i.path.Before records j.path
  declared : ∀ i ∈ is, i.path.Declared records

namespace Tidy

theorem nil : Tidy records [] := ⟨.nil, by simp⟩

theorem whole (f : Fault) : Tidy records [⟨[], f⟩] := by
  refine ⟨List.pairwise_singleton _ _, ?_⟩
  simp [Path.Declared]

theorem append {is js : List Issue} (hi : Tidy records is) (hj : Tidy records js)
    (h : ∀ i ∈ is, ∀ j ∈ js, i.path.Before records j.path) : Tidy records (is ++ js) := by
  refine ⟨List.pairwise_append.mpr ⟨hi.ordered, hj.ordered, h⟩, fun i hmem => ?_⟩
  obtain hmem | hmem := List.mem_append.mp hmem
  · exact hi.declared i hmem
  · exact hj.declared i hmem

theorem within {is : List Issue} (h : Tidy records is) {s : Step}
    (hs : Path.Declared records [s]) : Tidy records (is.map (Issue.within s)) := by
  constructor
  · exact h.ordered.map _ fun i j hij => Path.Before.common hij
  · intro i hi
    obtain ⟨j, hj, rfl⟩ := List.mem_map.mp hi
    intro name hname
    obtain hname | hname := List.mem_cons.mp hname
    · exact hs name (by simp [hname])
    · exact h.declared j hj name hname

end Tidy

/-- Every value gives tidy issues. -/
def Reader.Orderly (records : List (List String)) (r : Reader α) : Prop :=
  ∀ v, Tidy records (r v).issues

structure Fielded (records : List (List String)) (names : List String) (c : Checked α) : Prop where
  tidy : Tidy records c.issues
  heads : ∀ i ∈ c.issues, ∃ name ∈ names, ∃ p, i.path = .field name :: p

namespace Fielded

theorem within {c : Checked α} (h : Tidy records c.issues) {name : String}
    (hname : ∃ names ∈ records, name ∈ names) :
    Fielded records [name] (c.within (.field name)) := by
  have hdeclared : Path.Declared records [.field name] := by
    intro other hother
    obtain rfl : other = name := by simpa using hother
    exact hname
  constructor
  · rw [Checked.issues_within]
    exact h.within hdeclared
  · intro i hi
    rw [Checked.issues_within] at hi
    obtain ⟨j, _, rfl⟩ := List.mem_map.mp hi
    exact ⟨name, by simp, j.path, rfl⟩

theorem required {r : Reader α} (h : r.Orderly records) {name : String}
    (hname : ∃ names ∈ records, name ∈ names) (fs : Fields) :
    Fielded records [name] (Schema.required name r fs) := by
  refine within ?_ hname
  cases fs.get? name with
  | none => exact Tidy.whole .missing
  | some v => exact h v

theorem optional {r : Reader α} (h : r.Orderly records) {name : String} (default : α)
    (hname : ∃ names ∈ records, name ∈ names) (fs : Fields) :
    Fielded records [name] (Schema.optional name default r fs) := by
  rw [Schema.optional]
  cases fs.get? name with
  | none => exact ⟨Tidy.nil, by simp [Checked.issues]⟩
  | some v => exact within (h v) hname

theorem map {names : List String} {c : Checked α} (h : Fielded records names c) (f : α → β) :
    Fielded records names (f <$> c) := by
  constructor
  · rw [Checked.issues_map]
    exact h.tidy
  · rw [Checked.issues_map]
    exact h.heads

theorem seq {names : List String} {name : String} {f : Checked (α → β)} {c : Checked α}
    (hf : Fielded records names f) (hc : Fielded records [name] c)
    (h : ∀ a ∈ names, Earlier records a name) :
    Fielded records (names ++ [name]) (f <*> c) := by
  constructor
  · rw [Checked.issues_seq]
    refine hf.tidy.append hc.tidy fun i hi j hj => ?_
    obtain ⟨a, ha, p, hp⟩ := hf.heads i hi
    obtain ⟨b, hb, q, hq⟩ := hc.heads j hj
    obtain rfl : b = name := by simpa using hb
    rw [hp, hq]
    exact .part (h a ha)
  · intro i hi
    rw [Checked.issues_seq] at hi
    obtain hi | hi := List.mem_append.mp hi
    · obtain ⟨a, ha, hp⟩ := hf.heads i hi
      exact ⟨a, List.mem_append_left _ ha, hp⟩
    · obtain ⟨b, hb, hp⟩ := hc.heads i hi
      exact ⟨b, List.mem_append_right _ hb, hp⟩

end Fielded

namespace Reader

theorem orderly_text : text.Orderly records := by
  intro v
  cases v with
  | text s => exact Tidy.nil
  | _ => exact Tidy.whole .notText

theorem orderly_oneOf (choices : List (String × α)) : (oneOf choices).Orderly records := by
  intro v
  cases v with
  | text s =>
    rw [oneOf]
    split
    · exact Tidy.nil
    · exact Tidy.whole _
  | _ => exact Tidy.whole _

theorem Orderly.nullable {r : Reader α} (h : r.Orderly records) : (nullable r).Orderly records := by
  intro v
  by_cases hv : v = .null
  · rw [hv]
    exact Tidy.nil
  · rw [nullable_of_ne_null r hv, Checked.issues_map]
    exact h v

theorem heads_itemsFrom (r : Reader α) (i : Nat) (vs : List Value) :
    ∀ x ∈ (itemsFrom r i vs).issues, ∃ j p, i ≤ j ∧ x.path = .item j :: p := by
  induction vs generalizing i with
  | nil => simp [itemsFrom, Checked.issues]
  | cons v vs ih =>
    intro x hx
    rw [itemsFrom, Checked.issues_seq, Checked.issues_map, Checked.issues_within] at hx
    obtain hx | hx := List.mem_append.mp hx
    · obtain ⟨y, _, rfl⟩ := List.mem_map.mp hx
      exact ⟨i, y.path, Nat.le_refl i, rfl⟩
    · obtain ⟨j, p, hj, hp⟩ := ih (i + 1) x hx
      exact ⟨j, p, by omega, hp⟩

theorem Orderly.itemsFrom {r : Reader α} (h : r.Orderly records) (i : Nat) (vs : List Value) :
    Tidy records (itemsFrom r i vs).issues := by
  induction vs generalizing i with
  | nil => exact Tidy.nil
  | cons v vs ih =>
    rw [Reader.itemsFrom, Checked.issues_seq, Checked.issues_map, Checked.issues_within]
    have hitem : Path.Declared records [.item i] := by simp [Path.Declared]
    refine ((h v).within hitem).append (ih (i + 1)) fun x hx y hy => ?_
    obtain ⟨z, _, rfl⟩ := List.mem_map.mp hx
    obtain ⟨j, p, hj, hp⟩ := heads_itemsFrom r (i + 1) vs y hy
    rw [hp]
    exact .part (show i < j by omega)

theorem Orderly.list {r : Reader α} (h : r.Orderly records) : (list r).Orderly records := by
  intro v
  cases v with
  | list vs => exact h.itemsFrom 0 vs
  | _ => exact Tidy.whole .notList

theorem Orderly.nonemptyList {r : Reader α} (h : r.Orderly records) :
    (nonemptyList r).Orderly records := by
  intro v
  cases v with
  | list vs =>
    cases vs with
    | nil => exact Tidy.whole (.tooFew 1 0)
    | cons v vs => exact h.itemsFrom 0 (v :: vs)
  | _ => exact Tidy.whole .notList

theorem orderly_record {names : List String} {read : Fields → Checked α}
    (h : ∀ fs, Fielded records names (read fs)) (name : String) :
    (record name read).Orderly records := by
  intro v
  cases v with
  | object fs => exact (h fs).tidy
  | _ => exact Tidy.whole (.notRecord name)

end Reader
end LedgerScript.Schema
