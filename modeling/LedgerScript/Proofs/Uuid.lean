import LedgerScript.Uuid

/-! The written form of an identifier is read back as the identifier, so the other spellings
that are accepted lead to it in one step. -/
namespace LedgerScript.Uuid

theorem mapM_hexDigit (ns : List (Fin 16)) :
    (ns.map Text.hexDigit).mapM Text.hexValue? = some ns := by
  induction ns with
  | nil => rfl
  | cons n ns ih => simp [Text.hexValue?_hexDigit, ih]

theorem ofHex?_hexDigit (u : Uuid) : ofHex? (u.nibbles.map Text.hexDigit) = some u := by
  rw [ofHex?, mapM_hexDigit]
  simp [u.size]

theorem hexDigit_ne_wrapping : ∀ n, Text.hexDigit n ≠ 'u' ∧ Text.hexDigit n ≠ '\x7b' := by decide

theorem length_hyphenate {cs : List Char} (h : cs.length = 32) : (hyphenate cs).length = 36 := by
  simp [hyphenate, h]

theorem groups_append (cs : List Char) :
    cs.take 8 ++ ((cs.drop 8).take 4 ++ ((cs.drop 12).take 4 ++ ((cs.drop 16).take 4 ++
      cs.drop 20))) = cs := by
  have hgroup (k : Nat) : (cs.drop k).take 4 ++ cs.drop (k + 4) = cs.drop k := by
    rw [← List.drop_drop, List.take_append_drop]
  rw [hgroup 16, hgroup 12, hgroup 8, List.take_append_drop]

theorem unhyphenate?_hyphenate {cs : List Char} (h : cs.length = 32) :
    unhyphenate? (hyphenate cs) = some cs := by
  have hlen : (hyphenate cs).length = 36 := length_hyphenate h
  rw [unhyphenate?, if_pos ⟨hlen, by simp [hyphenate, h]⟩]
  -- The parts that are cut out are the groups that were put in.
  have hparts : (hyphenate cs).take 8 ++ ((hyphenate cs).drop 9).take 4 ++
      ((hyphenate cs).drop 14).take 4 ++ ((hyphenate cs).drop 19).take 4 ++
      (hyphenate cs).drop 24 =
      cs.take 8 ++ ((cs.drop 8).take 4 ++ ((cs.drop 12).take 4 ++ ((cs.drop 16).take 4 ++
        cs.drop 20))) := by
    simp [hyphenate, List.drop_append, List.drop_take, h]
  rw [hparts, groups_append]

/-- Neither of the two wrappings starts with a hexadecimal digit. -/
theorem unwrap_of_head {c : Char} (hu : c ≠ 'u') (hb : c ≠ '\x7b') (cs : List Char) :
    unwrap (c :: cs) = c :: cs := by
  have hurn : "urn:uuid:".toList.isPrefixOf (c :: cs) = false := by
    have hlist : "urn:uuid:".toList = 'u' :: "rn:uuid:".toList := rfl
    rw [hlist, List.isPrefixOf_cons_cons, beq_false_of_ne hu.symm, Bool.false_and]
  have hbrace : ¬((c :: cs).head? = some '\x7b' ∧ (c :: cs).getLast? = some '\x7d') := by
    intro h
    exact hb (by simpa using h.1)
  simp only [unwrap]
  rw [hurn, if_neg Bool.false_ne_true, if_neg hbrace]

theorem unwrap_hyphenate (u : Uuid) :
    unwrap (hyphenate (u.nibbles.map Text.hexDigit)) = hyphenate (u.nibbles.map Text.hexDigit) := by
  cases hns : u.nibbles with
  | nil => exact absurd u.size (by simp [hns])
  | cons n ns =>
    obtain ⟨hu, hb⟩ := hexDigit_ne_wrapping n
    exact unwrap_of_head hu hb _

theorem read?_text (u : Uuid) : read? u.text = some u := by
  have hdigits : (u.nibbles.map Text.hexDigit).length = 32 := by simp [u.size]
  have hlen : u.text.toList.length ≠ 32 := by simp [text, length_hyphenate hdigits]
  simp only [read?]
  rw [if_neg hlen, text, String.toList_ofList, unwrap_hyphenate, unhyphenate?_hyphenate hdigits]
  exact ofHex?_hexDigit u

end LedgerScript.Uuid
