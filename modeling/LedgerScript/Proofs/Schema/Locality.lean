import LedgerScript.Proofs.Schema.Order
import LedgerScript.Proofs.Schema.Transport

/-! Issues belong to the items they are about. What is wrong with one item of a list is
listed under its place and nowhere else; another item in that place brings issues of its own,
or none, without a change to the rest. -/
namespace LedgerScript

def Json.Fields.put (fs : Fields) (name : String) (w : Value) : Fields :=
  fs.map fun (k, v) => (k, if k = name then w else v)

namespace Schema
open Json (Value Fields)
variable {α : Type}

theorem get?_put_of_ne (fs : Fields) {name other : String} (h : other ≠ name) (w : Value) :
    (fs.put name w).get? other = fs.get? other := by
  induction fs with
  | nil => rfl
  | cons f fs ih =>
    obtain ⟨k, v⟩ := f
    simp only [Fields.put, Fields.get?, List.map_cons, List.lookup_cons] at ih ⊢
    by_cases hk : other = k
    · have hne : k ≠ name := hk ▸ h
      simp [hk, hne]
    · simpa [beq_false_of_ne hk] using ih

theorem get?_put_self {fs : Fields} {name : String} {v : Value} (h : fs.get? name = some v)
    (w : Value) : (fs.put name w).get? name = some w := by
  induction fs with
  | nil => cases h
  | cons f fs ih =>
    obtain ⟨k, u⟩ := f
    simp only [Fields.put, Fields.get?, List.map_cons, List.lookup_cons] at h ih ⊢
    by_cases hk : name = k
    · simp [hk]
    · rw [beq_false_of_ne hk] at h ⊢
      exact ih h

theorem get?_put_same {fs : Fields} {name : String} {v : Value} (h : fs.get? name = some v)
    (other : String) : (fs.put name v).get? other = fs.get? other := by
  by_cases hother : other = name
  · rw [hother, get?_put_self h, h]
  · exact get?_put_of_ne fs hother v

namespace Issue

/-- The issue is about the place or about one further in. -/
def isAt (place : Path) (i : Issue) : Bool := place.isPrefixOf i.path

theorem isAt_within (s t : Step) (q : Path) (i : Issue) :
    (i.within s).isAt (t :: q) = (t == s && i.isAt q) := rfl

theorem isAt_within_of_ne {s t : Step} (h : t ≠ s) (q : Path) (is : List Issue) :
    ∀ x ∈ is.map (within s), x.isAt (t :: q) = false := by
  intro x hx
  obtain ⟨i, _, rfl⟩ := List.mem_map.mp hx
  simp [isAt_within, h]

theorem isAt_within_of_clear (s : Step) {q : Path} {is : List Issue}
    (h : ∀ x ∈ is, x.isAt q = false) : ∀ x ∈ is.map (within s), x.isAt (s :: q) = false := by
  intro x hx
  obtain ⟨i, hi, rfl⟩ := List.mem_map.mp hx
  simp [isAt_within, h i hi]

end Issue

/-- Issues about other places, in front of those about the place and behind them. -/
structure Frame (place : Path) where
  front : List Issue
  back : List Issue
  front_clear : ∀ x ∈ front, x.isAt place = false
  back_clear : ∀ x ∈ back, x.isAt place = false

namespace Frame
variable {place : Path}

def fill (f : Frame place) (own : List Issue) : List Issue := f.front ++ own ++ f.back

theorem filter_fill (f : Frame place) {own : List Issue} (h : ∀ x ∈ own, x.isAt place = true) :
    (f.fill own).filter (·.isAt place) = own := by
  have hfront : f.front.filter (·.isAt place) = [] :=
    List.filter_eq_nil_iff.mpr fun x hx => by simp [f.front_clear x hx]
  have hback : f.back.filter (·.isAt place) = [] :=
    List.filter_eq_nil_iff.mpr fun x hx => by simp [f.back_clear x hx]
  rw [fill, List.filter_append, List.filter_append, hfront, hback, List.filter_eq_self.mpr h,
    List.nil_append, List.append_nil]

theorem filter_not_fill (f : Frame place) {own : List Issue} (h : ∀ x ∈ own, x.isAt place = true) :
    (f.fill own).filter (!·.isAt place) = f.fill [] := by
  have hfront : f.front.filter (!·.isAt place) = f.front :=
    List.filter_eq_self.mpr fun x hx => by simp [f.front_clear x hx]
  have hback : f.back.filter (!·.isAt place) = f.back :=
    List.filter_eq_self.mpr fun x hx => by simp [f.back_clear x hx]
  have hown : own.filter (!·.isAt place) = [] :=
    List.filter_eq_nil_iff.mpr fun x hx => by simp [h x hx]
  rw [fill, List.filter_append, List.filter_append, hfront, hback, hown]
  rfl

def within (s : Step) (f : Frame place) : Frame (s :: place) where
  front := f.front.map (Issue.within s)
  back := f.back.map (Issue.within s)
  front_clear := Issue.isAt_within_of_clear s f.front_clear
  back_clear := Issue.isAt_within_of_clear s f.back_clear

theorem fill_within (s : Step) (f : Frame place) (own : List Issue) :
    (f.within s).fill (own.map (Issue.within s)) = (f.fill own).map (Issue.within s) := by
  simp [fill, within]

def between (f : Frame place) (left right : List Issue) (hleft : ∀ x ∈ left, x.isAt place = false)
    (hright : ∀ x ∈ right, x.isAt place = false) : Frame place where
  front := left ++ f.front
  back := f.back ++ right
  front_clear := List.forall_mem_append.mpr ⟨hleft, f.front_clear⟩
  back_clear := List.forall_mem_append.mpr ⟨f.back_clear, hright⟩

theorem fill_between (f : Frame place) (left right : List Issue)
    (hleft : ∀ x ∈ left, x.isAt place = false) (hright : ∀ x ∈ right, x.isAt place = false)
    (own : List Issue) : (f.between left right hleft hright).fill own = left ++ f.fill own ++ right := by
  simp [fill, between]

end Frame

namespace Reader

theorem isAt_itemsFrom_of_lt (r : Reader α) {i k : Nat} (h : i < k) (vs : List Value) :
    ∀ x ∈ (itemsFrom r k vs).issues, x.isAt [.item i] = false := by
  intro x hx
  obtain ⟨j, p, hj, hp⟩ := heads_itemsFrom r k vs x hx
  have hne : i ≠ j := by omega
  simp [Issue.isAt, hp, List.isPrefixOf, hne]

/-- Whatever stands in the place of an item, the issues of the others stay around its own. -/
theorem exists_frame_itemsFrom (r : Reader α) (k : Nat) {vs : List Value} {i : Nat}
    (hi : i < vs.length) : ∃ f : Frame [.item (k + i)], ∀ v,
      (itemsFrom r k (vs.set i v)).issues = f.fill ((r v).issues.map (Issue.within (.item (k + i)))) := by
  -- Along the items before the place `k` goes up as `i` goes down, so the place stays `k + i`.
  induction vs generalizing k i with
  | nil => simp at hi
  | cons w ws ih =>
    cases i with
    | zero =>
      have hlater := isAt_itemsFrom_of_lt r (Nat.lt_succ_self k) ws
      refine ⟨⟨[], (itemsFrom r (k + 1) ws).issues, by simp, hlater⟩, fun v => ?_⟩
      rw [List.set_cons_zero, itemsFrom, Checked.issues_seq, Checked.issues_map,
        Checked.issues_within]
      rfl
    | succ i =>
      have hindex : k + 1 + i = k + (i + 1) := by omega
      have hne : Step.item (k + (i + 1)) ≠ Step.item k := by simp
      have hlater := ih (k + 1) (show i < ws.length by simpa using hi)
      rw [hindex] at hlater
      obtain ⟨f, hf⟩ := hlater
      have hfirst := Issue.isAt_within_of_ne hne [] (r w).issues
      refine ⟨f.between _ [] hfirst (by simp), fun v => ?_⟩
      rw [Frame.fill_between, ← hf, List.set_cons_succ, itemsFrom, Checked.issues_seq,
        Checked.issues_map, Checked.issues_within, List.append_nil]

end Reader

section Fields
variable {name other : String} {r : Reader α}

theorem isAt_required_of_ne (h : other ≠ name) (q : Path) (fs : Fields) :
    ∀ x ∈ (required name r fs).issues, x.isAt (.field other :: q) = false := by
  rw [required, Checked.issues_within]
  exact Issue.isAt_within_of_ne (by simpa using h) q _

theorem isAt_optional_of_ne (h : other ≠ name) (default : α) (q : Path) (fs : Fields) :
    ∀ x ∈ (Schema.optional name default r fs).issues, x.isAt (.field other :: q) = false := by
  rw [Schema.optional]
  cases fs.get? name with
  | none => simp [Checked.issues]
  | some v =>
    dsimp only
    rw [Checked.issues_within]
    exact Issue.isAt_within_of_ne (by simpa using h) q _

def Issue.ofItem (name : String) (i : Nat) (x : Issue) : Issue :=
  (x.within (.item i)).within (.field name)

theorem Issue.isAt_ofItem (name : String) (i : Nat) (is : List Issue) :
    ∀ x ∈ is.map (ofItem name i), x.isAt [.field name, .item i] = true := by
  intro x hx
  obtain ⟨y, _, rfl⟩ := List.mem_map.mp hx
  simp [isAt, ofItem, within, List.isPrefixOf]

variable {fs : Fields} {vs : List Value} {i : Nat}

theorem exists_frame_within (name : String) (r : Reader α) (hi : i < vs.length) :
    ∃ f : Frame [.field name, .item i], ∀ v,
      ((Reader.itemsFrom r 0 (vs.set i v)).within (.field name)).issues =
        f.fill ((r v).issues.map (Issue.ofItem name i)) := by
  have hitems := Reader.exists_frame_itemsFrom r 0 hi
  rw [Nat.zero_add] at hitems
  obtain ⟨f, hf⟩ := hitems
  refine ⟨f.within (.field name), fun v => ?_⟩
  rw [Checked.issues_within, hf, ← Frame.fill_within, List.map_map]
  rfl

theorem required_put_items (hfs : fs.get? name = some (.list vs)) (hi : i < vs.length)
    (r : Reader α) (v : Value) :
    required name (Reader.nonemptyList r) (fs.put name (.list (vs.set i v))) =
      (Reader.itemsFrom r 0 (vs.set i v)).within (.field name) := by
  simp only [required, get?_put_self hfs]
  cases hset : vs.set i v with
  | nil =>
    have hlen : (vs.set i v).length = vs.length := List.length_set
    simp [hset] at hlen
    omega
  | cons u us => rfl

theorem optional_put_items (hfs : fs.get? name = some (.list vs)) (default : List α)
    (r : Reader α) (v : Value) :
    Schema.optional name default (Reader.list r) (fs.put name (.list (vs.set i v))) =
      (Reader.itemsFrom r 0 (vs.set i v)).within (.field name) := by
  simp only [Schema.optional, get?_put_self hfs]
  rfl

end Fields
end Schema
end LedgerScript
