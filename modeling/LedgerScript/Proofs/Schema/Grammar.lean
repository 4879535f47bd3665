import LedgerScript.Proofs.Schema.Acceptance

/-! What readers accept, said without them. A shape is a test of a value, and a sense is a
relation between a value and what it stands for; each reader has one of either kind, built
in the same way from those of its parts. -/
namespace LedgerScript.Schema
open Json (Value Fields)
variable {α β : Type}

abbrev Shape := Value → Bool

namespace Shape

def text : Shape
  | .text _ => true
  | _ => false

def word (words : List String) : Shape
  | .text s => words.contains s
  | _ => false

def nullable (f : Shape) : Shape
  | .null => true
  | v => f v

def list (f : Shape) : Shape
  | .list vs => vs.all f
  | _ => false

def nonemptyList (f : Shape) : Shape
  | .list [] => false
  | v => list f v

def object (f : Fields → Bool) : Shape
  | .object fs => f fs
  | _ => false

def has (name : String) (f : Shape) (fs : Fields) : Bool := (fs.get? name).any f

def mayHave (name : String) (f : Shape) (fs : Fields) : Bool := (fs.get? name).all f

end Shape

abbrev Sense (α : Type) := Value → α → Prop

namespace Sense

def text : Sense String := fun v s => v = .text s

def oneOf (choices : List (String × α)) : Sense α := fun v a => ∃ w, v = .text w ∧ (w, a) ∈ choices

inductive nullable (s : Sense α) : Sense (Option α) where
  | null : nullable s .null none
  | given {v : Value} {a : α} (hv : v ≠ .null) (h : s v a) : nullable s v (some a)

/-- Item by item, in the same order. -/
def list (s : Sense α) : Sense (List α) := fun v as => ∃ vs, v = .list vs ∧ List.Forall₂ s vs as

def nonemptyList (s : Sense α) : Sense (List α) := fun v as => as ≠ [] ∧ list s v as

def object (s : Fields → α → Prop) : Sense α := fun v a => ∃ fs, v = .object fs ∧ s fs a

def given (name : String) (s : Sense α) (fs : Fields) (a : α) : Prop :=
  ∃ v, fs.get? name = some v ∧ s v a

/-- The field stands for the value or, if it is not there, the value is the default. -/
def givenOr (name : String) (default : α) (s : Sense α) (fs : Fields) (a : α) : Prop :=
  (fs.get? name = none ∧ a = default) ∨ given name s fs a

end Sense

namespace Checked

def isAccepted : Checked α → Bool
  | .accepted _ => true
  | .rejected .. => false

theorem isAccepted_iff {c : Checked α} : c.isAccepted = true ↔ ∃ a, c = .accepted a := by
  cases c <;> simp [isAccepted]

@[simp] theorem isAccepted_map (f : α → β) (c : Checked α) :
    (f <$> c).isAccepted = c.isAccepted := by
  cases c <;> rfl

@[simp] theorem isAccepted_seq (f : Checked (α → β)) (c : Checked α) :
    (f <*> c).isAccepted = (f.isAccepted && c.isAccepted) := by
  cases f <;> cases c <;> rfl

@[simp] theorem isAccepted_within (s : Step) (c : Checked α) :
    (c.within s).isAccepted = c.isAccepted := by
  cases c <;> rfl

theorem map_eq_accepted_iff {f : α → β} {c : Checked α} {b : β} :
    f <$> c = .accepted b ↔ ∃ a, c = .accepted a ∧ f a = b := by
  refine ⟨map_eq_accepted, ?_⟩
  rintro ⟨a, rfl, rfl⟩
  rfl

end Checked

section Fields
variable {r : Reader α}

@[simp] theorem isAccepted_required (name : String) (fs : Fields) :
    (required name r fs).isAccepted = Shape.has name (fun v => (r v).isAccepted) fs := by
  rw [required, Checked.isAccepted_within, Shape.has]
  cases fs.get? name <;> rfl

@[simp] theorem isAccepted_optional (name : String) (default : α) (fs : Fields) :
    (Schema.optional name default r fs).isAccepted =
      Shape.mayHave name (fun v => (r v).isAccepted) fs := by
  rw [Schema.optional, Shape.mayHave]
  cases fs.get? name with
  | none => rfl
  | some v => exact Checked.isAccepted_within (.field name) (r v)

end Fields

/-- The reader accepts a value exactly with what it stands for. -/
def Reader.Exact (r : Reader α) (s : Sense α) : Prop := ∀ v a, r v = .accepted a ↔ s v a

theorem Reader.Exact.required {r : Reader α} {s : Sense α} (h : r.Exact s) (name : String)
    (fs : Fields) (a : α) : Schema.required name r fs = .accepted a ↔ Sense.given name s fs a := by
  constructor
  · intro hread
    obtain ⟨v, hv, hr⟩ := required_eq_accepted hread
    exact ⟨v, hv, (h v a).mp hr⟩
  · rintro ⟨v, hv, hs⟩
    rw [Schema.required, hv]
    simp only [(h v a).mpr hs, Checked.within]

theorem Reader.Exact.optional {r : Reader α} {s : Sense α} (h : r.Exact s) (name : String)
    (default : α) (fs : Fields) (a : α) :
    Schema.optional name default r fs = .accepted a ↔ Sense.givenOr name default s fs a := by
  constructor
  · intro hread
    obtain hnone | ⟨v, hv, hr⟩ := optional_eq_accepted hread
    · exact .inl hnone
    · exact .inr ⟨v, hv, (h v a).mp hr⟩
  · rintro (⟨hnone, rfl⟩ | ⟨v, hv, hs⟩)
    · rw [Schema.optional, hnone]
    · rw [Schema.optional, hv]
      simp only [(h v a).mpr hs, Checked.within]

namespace Reader
variable {r : Reader α} {f : Shape} {s : Sense α}

@[simp] theorem isAccepted_record (name : String) (read : Fields → Checked α) (v : Value) :
    (record name read v).isAccepted = Shape.object (fun fs => (read fs).isAccepted) v := by
  cases v <;> rfl

theorem isAccepted_text (v : Value) : (text v).isAccepted = Shape.text v := by
  cases v <;> rfl

theorem exact_text : text.Exact Sense.text := by
  intro v s
  refine ⟨text_eq_accepted, ?_⟩
  rintro rfl
  rfl

theorem isAccepted_oneOf (choices : List (String × α)) (v : Value) :
    (oneOf choices v).isAccepted = Shape.word (choices.map Prod.fst) v := by
  cases v with
  | text w =>
    cases hw : choices.lookup w with
    | none =>
      have hnot : w ∉ choices.map Prod.fst := by
        rw [List.lookup_eq_none_iff] at hw
        rintro hmem
        obtain ⟨c, hc, rfl⟩ := List.mem_map.mp hmem
        simpa using hw c hc
      simp [oneOf, hw, Shape.word, hnot, Checked.reject, Checked.isAccepted]
    | some a =>
      have hmem : w ∈ choices.map Prod.fst := by
        obtain ⟨before, after, rfl, _⟩ := List.lookup_eq_some_iff.mp hw
        simp
      simp [oneOf, hw, Shape.word, hmem, Checked.isAccepted]
  | _ => rfl

theorem lookup_eq_some_iff_mem {choices : List (String × α)} (h : (choices.map Prod.fst).Nodup)
    {w : String} {a : α} : choices.lookup w = some a ↔ (w, a) ∈ choices := by
  constructor
  · intro hw
    obtain ⟨before, after, rfl, _⟩ := List.lookup_eq_some_iff.mp hw
    simp
  · intro hmem
    obtain ⟨before, after, rfl⟩ := List.append_of_mem hmem
    refine List.lookup_eq_some_iff.mpr ⟨before, after, rfl, fun c hc => ?_⟩
    rw [List.map_append, List.nodup_append] at h
    have hne : c.1 ≠ w := h.2.2 c.1 (List.mem_map_of_mem hc) w (by simp)
    simpa using hne.symm

theorem exact_oneOf {choices : List (String × α)} (h : (choices.map Prod.fst).Nodup) :
    (oneOf choices).Exact (Sense.oneOf choices) := by
  intro v a
  cases v with
  | text w =>
    have hread : oneOf choices (.text w) = .accepted a ↔ choices.lookup w = some a := by
      cases hw : choices.lookup w <;> simp [oneOf, hw, Checked.reject]
    rw [hread, lookup_eq_some_iff_mem h]
    simp [Sense.oneOf]
  | _ => simp [oneOf, Sense.oneOf, Checked.reject]

theorem isAccepted_nullable (h : ∀ v, (r v).isAccepted = f v) (v : Value) :
    (nullable r v).isAccepted = Shape.nullable f v := by
  cases v with
  | null => rfl
  | _ => simp [nullable, Shape.nullable, h]

theorem Exact.nullable (h : r.Exact s) : (nullable r).Exact (Sense.nullable s) := by
  intro v a
  by_cases hv : v = .null
  · subst hv
    constructor
    · intro hread
      obtain rfl : none = a := Checked.accepted.inj hread
      exact .null
    · rintro (_ | ⟨hne, _⟩)
      · rfl
      · exact absurd rfl hne
  · rw [nullable_of_ne_null r hv, Checked.map_eq_accepted_iff]
    constructor
    · rintro ⟨b, hb, rfl⟩
      exact .given hv ((h v b).mp hb)
    · rintro (_ | ⟨_, hs⟩)
      · exact absurd rfl hv
      · exact ⟨_, (h v _).mpr hs, rfl⟩

theorem isAccepted_itemsFrom (h : ∀ v, (r v).isAccepted = f v) (i : Nat) (vs : List Value) :
    (itemsFrom r i vs).isAccepted = vs.all f := by
  induction vs generalizing i with
  | nil => rfl
  | cons v vs ih => simp [itemsFrom, h, ih]

theorem isAccepted_list (h : ∀ v, (r v).isAccepted = f v) (v : Value) :
    (list r v).isAccepted = Shape.list f v := by
  cases v with
  | list vs => exact isAccepted_itemsFrom h 0 vs
  | _ => rfl

theorem isAccepted_nonemptyList (h : ∀ v, (r v).isAccepted = f v) (v : Value) :
    (nonemptyList r v).isAccepted = Shape.nonemptyList f v := by
  cases v with
  | list vs =>
    cases vs with
    | nil => rfl
    | cons v vs => exact isAccepted_itemsFrom h 0 (v :: vs)
  | _ => rfl

theorem Exact.itemsFrom (h : r.Exact s) (i : Nat) (vs : List Value) (as : List α) :
    itemsFrom r i vs = .accepted as ↔ List.Forall₂ s vs as := by
  constructor
  · intro hread
    exact (forall₂_of_map_eq (itemsFrom_eq_accepted hread)).imp fun v a => (h v a).mp
  · intro hs
    induction hs generalizing i with
    | nil => rfl
    | @cons v a vs as hv _ ih =>
      rw [Reader.itemsFrom, (h v a).mpr hv, ih (i + 1)]
      rfl

theorem Exact.list (h : r.Exact s) : (list r).Exact (Sense.list s) := by
  intro v as
  cases v with
  | list vs =>
    refine (h.itemsFrom 0 vs as).trans ⟨fun hs => ⟨vs, rfl, hs⟩, ?_⟩
    rintro ⟨us, hus, hs⟩
    cases hus
    exact hs
  | _ => simp [Reader.list, Sense.list, Checked.reject]

theorem Exact.nonemptyList (h : r.Exact s) : (nonemptyList r).Exact (Sense.nonemptyList s) := by
  intro v as
  cases v with
  | list vs =>
    cases vs with
    | nil =>
      constructor
      · intro hread
        cases hread
      · rintro ⟨hne, us, hus, hs⟩
        cases hus
        cases hs
        exact absurd rfl hne
    | cons v vs =>
      refine (h.list (.list (v :: vs)) as).trans ⟨fun hs => ⟨?_, hs⟩, And.right⟩
      obtain ⟨us, hus, hs⟩ := hs
      cases hus
      cases hs
      simp
  | _ => simp [Reader.nonemptyList, Reader.list, Sense.nonemptyList, Sense.list, Checked.reject]

end Reader
end LedgerScript.Schema
