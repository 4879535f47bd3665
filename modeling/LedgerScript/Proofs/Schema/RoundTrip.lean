import LedgerScript.Proofs.Schema.Grammar
import LedgerScript.Proofs.Timestamp.Text
import LedgerScript.Proofs.Uuid

/-! Writing what was read. However a value was spelt, what a reader makes of it has a written
form that the reader gives back. -/
namespace LedgerScript.Schema
open Json (Value Fields)
variable {α β : Type}

/-- What is read from any value is read again from its written form. -/
def Reader.Restores (r : Reader α) (write : α → Value) : Prop :=
  ∀ v a, r v = .accepted a → r (write a) = .accepted a

namespace Checked

theorem map_accepted (f : α → β) {c : Checked α} {a : α} (h : c = .accepted a) :
    f <$> c = .accepted (f a) := by
  rw [h]
  rfl

theorem seq_accepted {f : Checked (α → β)} {c : Checked α} {g : α → β} {a : α}
    (hf : f = .accepted g) (hc : c = .accepted a) : f <*> c = .accepted (g a) := by
  rw [hf, hc]
  rfl

theorem andThen_eq_accepted {c : Checked α} {f : α → Checked β} {b : β}
    (h : c.andThen f = .accepted b) : ∃ a, c = .accepted a ∧ f a = .accepted b := by
  cases c with
  | accepted a => exact ⟨a, rfl, h⟩
  | rejected i is => cases h

end Checked

section Fields
variable {name : String} {r : Reader α} {fs : Fields} {v : Value} {a : α}

theorem required_of_get? (hget : fs.get? name = some v) (hv : r v = .accepted a) :
    required name r fs = .accepted a := by
  simp only [required, hget, hv, Checked.within]

theorem optional_of_get? {default : α} (hget : fs.get? name = some v) (hv : r v = .accepted a) :
    Schema.optional name default r fs = .accepted a := by
  simp only [Schema.optional, hget, hv, Checked.within]

theorem optional_of_map {o : Option α} {write : α → Value} (hget : fs.get? name = o.map write)
    (h : ∀ a ∈ o, r (write a) = .accepted a) :
    Schema.optional name none (fun v => some <$> r v) fs = .accepted o := by
  cases o with
  | none => simp only [Schema.optional, hget, Option.map_none]
  | some a => exact optional_of_get? hget (Checked.map_accepted some (h a rfl))

end Fields

namespace Reader
variable {r : Reader α} {write : α → Value}

theorem oneOf_word {choices : List (String × α)} (hchoices : (choices.map Prod.fst).Nodup)
    {word : α → String} (hword : ∀ c ∈ choices, word c.2 = c.1) {a : α}
    (ha : a ∈ choices.map Prod.snd) : oneOf choices (.text (word a)) = .accepted a := by
  obtain ⟨c, hc, rfl⟩ := List.mem_map.mp ha
  refine (exact_oneOf hchoices _ _).mpr ⟨c.1, by rw [hword c hc], hc⟩

theorem nullable_ofOption {o : Option α} (hnull : ∀ a, write a ≠ .null)
    (h : ∀ a ∈ o, r (write a) = .accepted a) :
    nullable r (.ofOption write o) = .accepted o := by
  cases o with
  | none => rfl
  | some a => exact (nullable_of_ne_null r (hnull a)).trans (Checked.map_accepted some (h a rfl))

theorem itemsFrom_map_write {as : List α} (h : ∀ a ∈ as, r (write a) = .accepted a) (i : Nat) :
    itemsFrom r i (as.map write) = .accepted as := by
  induction as generalizing i with
  | nil => rfl
  | cons a as ih =>
    have hhead : r (write a) = .accepted a := h a (by simp)
    have htail := ih (fun b hb => h b (List.mem_cons_of_mem a hb)) (i + 1)
    rw [List.map_cons, itemsFrom, hhead, htail]
    rfl

theorem list_map_write {as : List α} (h : ∀ a ∈ as, r (write a) = .accepted a) :
    list r (.list (as.map write)) = .accepted as :=
  itemsFrom_map_write h 0

theorem nonemptyList_map_write {as : List α} (hne : as ≠ [])
    (h : ∀ a ∈ as, r (write a) = .accepted a) :
    nonemptyList r (.list (as.map write)) = .accepted as := by
  cases as with
  | nil => exact absurd rfl hne
  | cons a as => exact list_map_write h

theorem atLeast_ofNat {least n : Nat} (h : least ≤ n) :
    atLeast least (.ofNat n) = .accepted n := by
  have hle : Int.ofNat least ≤ Int.ofNat n := Int.ofNat_le.mpr h
  simp only [atLeast, Value.ofNat, integer, Checked.andThen, if_pos hle]
  rfl

theorem le_of_atLeast {least n : Nat} {v : Value} (h : atLeast least v = .accepted n) :
    least ≤ n := by
  obtain ⟨k, _, h⟩ := Checked.andThen_eq_accepted h
  split at h
  · next hle =>
    obtain rfl : k.toNat = n := Checked.accepted.inj h
    rw [Int.ofNat_eq_natCast] at hle
    omega
  · cases h

theorem textUpTo_text {limit : Nat} {s : String} (h : s.length ≤ limit) :
    textUpTo limit (.text s) = .accepted s := by
  simp only [textUpTo, text, Checked.andThen, if_pos h]

theorem length_of_textUpTo {limit : Nat} {v : Value} {s : String}
    (h : textUpTo limit v = .accepted s) : s.length ≤ limit := by
  obtain ⟨t, _, h⟩ := Checked.andThen_eq_accepted h
  split at h
  · next hle =>
    obtain rfl : t = s := Checked.accepted.inj h
    exact hle
  · cases h

theorem identifier_text (u : Uuid) : identifier (.text u.text) = .accepted u := by
  simp only [identifier, Uuid.read?_text]

theorem dated_eq_accepted {o : Option Timestamp} {t : Timestamp} (h : dated o = .accepted t) :
    o = some t ∧ 1 ≤ t.date.year := by
  cases o with
  | none => cases h
  | some u =>
    rw [dated] at h
    split at h
    · next hyear =>
      obtain rfl : u = t := Checked.accepted.inj h
      exact ⟨rfl, hyear⟩
    · cases h

theorem timestamp_text {t : Timestamp} (h : t.Given) :
    timestamp (.text t.text) = .accepted t := by
  simp only [timestamp, Timestamp.read?_text h.valid, dated, if_pos h.year]

theorem given_of_timestamp {v : Value} {t : Timestamp} (h : timestamp v = .accepted t) : t.Given := by
  cases v with
  | text s =>
    cases hs : Timestamp.read? s with
    | none => simp [timestamp, hs, Checked.reject] at h
    | some u =>
      simp only [timestamp, hs] at h
      obtain ⟨hu, hyear⟩ := dated_eq_accepted h
      cases hu
      exact ⟨Timestamp.valid_of_read? hs, hyear⟩
  | integer n =>
    simp only [timestamp, timestampOfCount] at h
    split at h
    · obtain ⟨hcount, hyear⟩ := dated_eq_accepted h
      exact ⟨Timestamp.valid_of_ofUnits? hcount, hyear⟩
    · cases h
  | real x =>
    obtain ⟨hreal, hyear⟩ := dated_eq_accepted h
    exact ⟨Timestamp.valid_of_ofUnits? hreal, hyear⟩
  | _ => cases h

end Reader
end LedgerScript.Schema
