import LedgerScript.Schema.Reader
import Mathlib.Data.List.Forall2

/-! What an accepted value comes from. A record is accepted only if each of its fields
is, and a list only if each of its items is. -/
namespace LedgerScript.Schema
open Json (Value Fields)
variable {α β : Type}

namespace Checked

theorem map_eq_accepted {f : α → β} {c : Checked α} {b : β} (h : f <$> c = .accepted b) :
    ∃ a, c = .accepted a ∧ f a = b := by
  cases c with
  | accepted a => exact ⟨a, rfl, Checked.accepted.inj h⟩
  | rejected i is => exact nomatch h

theorem seq_eq_accepted {f : Checked (α → β)} {c : Checked α} {b : β}
    (h : f <*> c = .accepted b) : ∃ g a, f = .accepted g ∧ c = .accepted a ∧ g a = b := by
  cases f with
  | accepted g =>
    obtain ⟨a, rfl, rfl⟩ := map_eq_accepted (f := g) (c := c) h
    exact ⟨g, a, rfl, rfl, rfl⟩
  | rejected i is => exact nomatch h

theorem within_eq_accepted {s : Step} {c : Checked α} {a : α} (h : c.within s = .accepted a) :
    c = .accepted a := by
  cases c with
  | accepted b => exact h
  | rejected i is => exact nomatch h

end Checked

theorem required_eq_accepted {name : String} {r : Reader α} {fs : Fields} {a : α}
    (h : required name r fs = .accepted a) : ∃ v, fs.get? name = some v ∧ r v = .accepted a := by
  have h := Checked.within_eq_accepted h
  cases hv : fs.get? name with
  | none => simp [hv, Checked.reject] at h
  | some v => exact ⟨v, rfl, by simpa [hv] using h⟩

theorem optional_eq_accepted {name : String} {default : α} {r : Reader α} {fs : Fields} {a : α}
    (h : optional name default r fs = .accepted a) :
    (fs.get? name = none ∧ a = default) ∨ ∃ v, fs.get? name = some v ∧ r v = .accepted a := by
  cases hv : fs.get? name with
  | none =>
    simp only [optional, hv, Checked.accepted.injEq] at h
    exact .inl ⟨rfl, h.symm⟩
  | some v =>
    simp only [optional, hv] at h
    exact .inr ⟨v, rfl, Checked.within_eq_accepted h⟩

namespace Reader

theorem record_eq_accepted {name : String} {read : Fields → Checked α} {v : Value} {a : α}
    (h : record name read v = .accepted a) : ∃ fs, v = .object fs ∧ read fs = .accepted a := by
  cases v with
  | object fs => exact ⟨fs, rfl, h⟩
  | _ => exact nomatch h

theorem text_eq_accepted {v : Value} {s : String} (h : text v = .accepted s) : v = .text s := by
  cases v with
  | text t =>
    obtain rfl : t = s := Checked.accepted.inj h
    rfl
  | _ => exact nomatch h

theorem oneOf_eq_accepted {choices : List (String × α)} {v : Value} {a : α}
    (h : oneOf choices v = .accepted a) : a ∈ choices.map Prod.snd := by
  cases v with
  | text s =>
    cases hs : choices.lookup s with
    | none => simp [oneOf, hs, Checked.reject] at h
    | some b =>
      obtain rfl : b = a := by simpa [oneOf, hs] using h
      obtain ⟨before, after, rfl, -⟩ := List.lookup_eq_some_iff.mp hs
      simp
  | _ => exact nomatch h

theorem nullable_of_ne_null (r : Reader α) {v : Value} (h : v ≠ .null) :
    nullable r v = some <$> r v := by
  cases v with
  | null => exact absurd rfl h
  | _ => rfl

theorem nullable_eq_accepted {r : Reader α} {v : Value} {a : α}
    (h : nullable r v = .accepted (some a)) : r v = .accepted a := by
  cases v with
  | null => exact nomatch h
  | _ =>
    obtain ⟨b, hb, hs⟩ := Checked.map_eq_accepted h
    cases hs
    exact hb

theorem itemsFrom_eq_accepted {r : Reader α} {i : Nat} {vs : List Value} {as : List α}
    (h : itemsFrom r i vs = .accepted as) : vs.map r = as.map .accepted := by
  induction vs generalizing i as with
  | nil =>
    obtain rfl : [] = as := Checked.accepted.inj h
    rfl
  | cons v vs ih =>
    obtain ⟨_, bs, hf, hvs, rfl⟩ := Checked.seq_eq_accepted h
    obtain ⟨b, hb, rfl⟩ := Checked.map_eq_accepted hf
    rw [List.map_cons, List.map_cons, Checked.within_eq_accepted hb, ih hvs]

theorem list_eq_accepted {r : Reader α} {v : Value} {as : List α}
    (h : list r v = .accepted as) : ∃ vs, v = .list vs ∧ vs.map r = as.map .accepted := by
  cases v with
  | list vs => exact ⟨vs, rfl, itemsFrom_eq_accepted h⟩
  | _ => exact nomatch h

theorem nonemptyList_eq_accepted {r : Reader α} {v : Value} {as : List α}
    (h : nonemptyList r v = .accepted as) :
    ∃ vs, v = .list vs ∧ vs ≠ [] ∧ vs.map r = as.map .accepted := by
  cases v with
  | list vs =>
    cases vs with
    | nil => exact nomatch h
    | cons v vs => exact ⟨v :: vs, rfl, by simp, itemsFrom_eq_accepted h⟩
  | _ => exact nomatch h

theorem exists_of_map_eq {r : Reader α} {vs : List Value} {as : List α}
    (h : vs.map r = as.map .accepted) {a : α} (ha : a ∈ as) : ∃ v ∈ vs, r v = .accepted a := by
  have hmem : Checked.accepted a ∈ vs.map r := h ▸ List.mem_map_of_mem ha
  exact List.mem_map.mp hmem

theorem forall₂_of_map_eq {r : Reader α} {vs : List Value} {as : List α}
    (h : vs.map r = as.map .accepted) : List.Forall₂ (fun v a => r v = .accepted a) vs as := by
  have heq : List.Forall₂ Eq (vs.map r) (as.map .accepted) := by
    rw [h]
    exact List.forall₂_refl _
  exact List.forall₂_map_left_iff.mp (List.forall₂_map_right_iff.mp heq)

theorem length_of_map_eq {r : Reader α} {vs : List Value} {as : List α}
    (h : vs.map r = as.map .accepted) : vs.length = as.length := by
  simpa using congrArg List.length h

end Reader
end LedgerScript.Schema
