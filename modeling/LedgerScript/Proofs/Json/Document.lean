import LedgerScript.Json.Display
import LedgerScript.Json.Reader

/-! Values as JSON texts bring them: a reader of JSON takes no number that is too long to be
written again, so there is none in them. Their texts are sequences of characters, of which
half a surrogate pair is none. -/
namespace LedgerScript.Json

namespace Reader

theorem isWritable_of_unsigned {negative : Bool} {cs : List Char} {v : Value} {rest : List Char}
    (h : unsigned negative cs = some (v, rest)) : v.isWritable = true := by
  unfold unsigned at h
  split at h
  · cases h
  · split at h
    · cases h
    · split at h
      · split at h
        next hw =>
          cases h
          exact hw
        next => cases h
      · obtain ⟨x, -, hx⟩ := Option.map_eq_some_iff.mp h
        cases hx
        rfl

theorem isWritable_of_word {w : String} {u v : Value} (hu : u.isWritable = true) {cs rest : List Char}
    (h : word w u cs = some (v, rest)) : v.isWritable = true := by
  unfold word at h
  split at h
  · cases h
    exact hu
  · cases h

section
variable {n : Nat} (hvalue : ∀ cs v rest, value n cs = some (v, rest) → v.isWritable = true)
  (hitems : ∀ cs vs rest, items n cs = some (vs, rest) → Value.areWritable vs = true)
  (hfields : ∀ cs fs rest, fields n cs = some (fs, rest) → Value.haveWritable fs = true)

include hitems hfields in
theorem isWritable_of_value {cs : List Char} {v : Value} {rest : List Char}
    (h : value (n + 1) cs = some (v, rest)) : v.isWritable = true := by
  unfold value at h
  split at h
  · split at h
    · cases h
      rfl
    · obtain ⟨⟨vs, _⟩, hvs, heq⟩ := Option.map_eq_some_iff.mp h
      cases heq
      exact hitems _ _ _ hvs
  · obtain ⟨_, -, heq⟩ := Option.map_eq_some_iff.mp h
    cases heq
    rfl
  · exact isWritable_of_unsigned h
  · exact isWritable_of_word rfl h
  · exact isWritable_of_word rfl h
  · exact isWritable_of_word rfl h
  · split at h
    · cases h
      rfl
    · obtain ⟨⟨fs, _⟩, hfs, heq⟩ := Option.map_eq_some_iff.mp h
      cases heq
      exact hfields _ _ _ hfs
  · exact isWritable_of_unsigned h

include hvalue hitems in
theorem areWritable_of_items {cs : List Char} {vs : List Value} {rest : List Char}
    (h : items (n + 1) cs = some (vs, rest)) : Value.areWritable vs = true := by
  unfold items at h
  split at h
  · cases h
  next v cs' hv =>
    split at h
    · obtain ⟨⟨vs', _⟩, hvs, heq⟩ := Option.map_eq_some_iff.mp h
      cases heq
      simp only [Value.areWritable, hvalue _ _ _ hv, hitems _ _ _ hvs, Bool.and_self]
    · cases h
      simp only [Value.areWritable, hvalue _ _ _ hv, Bool.and_self]
    · cases h

include hvalue hfields in
theorem haveWritable_of_fields {cs : List Char} {fs : Fields} {rest : List Char}
    (h : fields (n + 1) cs = some (fs, rest)) : Value.haveWritable fs = true := by
  unfold fields at h
  split at h
  · split at h
    · cases h
    · split at h
      · split at h
        · cases h
        next v cs' hv =>
          split at h
          · obtain ⟨⟨fs', _⟩, hfs, heq⟩ := Option.map_eq_some_iff.mp h
            cases heq
            simp only [Value.haveWritable, hvalue _ _ _ hv, hfields _ _ _ hfs, Bool.and_self]
          · cases h
            simp only [Value.haveWritable, hvalue _ _ _ hv, Bool.and_self]
          · cases h
      · cases h
  · cases h

end

theorem isWritable_of_read (n : Nat) :
    (∀ cs v rest, value n cs = some (v, rest) → v.isWritable = true) ∧
    (∀ cs vs rest, items n cs = some (vs, rest) → Value.areWritable vs = true) ∧
    ∀ cs fs rest, fields n cs = some (fs, rest) → Value.haveWritable fs = true := by
  induction n with
  | zero =>
    refine ⟨fun cs v rest h => ?_, fun cs vs rest h => ?_, fun cs fs rest h => ?_⟩ <;> cases h
  | succ n ih =>
    obtain ⟨hvalue, hitems, hfields⟩ := ih
    exact ⟨fun _ _ _ => isWritable_of_value hitems hfields,
      fun _ _ _ => areWritable_of_items hvalue hitems,
      fun _ _ _ => haveWritable_of_fields hvalue hfields⟩

end Reader

/-- Whatever is read of a text can be a document. -/
theorem Value.isWritable_of_read? {s : String} {v : Value} (h : Value.read? s = some v) :
    v.isWritable = true := by
  unfold Value.read? at h
  split at h
  next w rest hw =>
    split at h
    · cases h
      exact (Reader.isWritable_of_read _).1 _ _ _ hw
    · cases h
  next => cases h

end LedgerScript.Json
