import LedgerScript.Proofs.Decimal.Digits
import LedgerScript.Proofs.Timestamp.Calendar
import LedgerScript.Timestamp.Reader
import Mathlib.Data.List.Basic

/-! Points in time as texts. Whatever spelling or count a point in time is read from, the
calendar and the clock have it, and its written form is read back as the same. -/
namespace LedgerScript.Timestamp

theorem toList_pad (width n : Nat) : (pad width n).toList =
    List.replicate (width - (Nat.toDigits 10 n).length) '0' ++ Nat.toDigits 10 n := by
  simp [pad]

theorem length_pad {width n : Nat} (hwidth : 0 < width) (h : n < Nat.pow 10 width) :
    (pad width n).toList.length = width := by
  have hlen : (Nat.toDigits 10 n).length ≤ width :=
    (Nat.length_toDigits_le_iff (by decide) hwidth).mpr h
  rw [toList_pad, List.length_append, List.length_replicate]
  omega

theorem isDigit_of_mem_pad {width n : Nat} {c : Char} (h : c ∈ (pad width n).toList) :
    c.isDigit = true := by
  rw [toList_pad] at h
  obtain h | h := List.mem_append.mp h
  · rw [List.eq_of_mem_replicate h]
    decide
  · exact Nat.isDigit_of_mem_toDigits (by decide) (by decide) h

theorem digitsValue_pad (width n : Nat) : Decimal.digitsValue (pad width n).toList = n := by
  rw [toList_pad, Decimal.digitsValue_eq_ofDigitChars, Nat.ofDigitChars_append,
    Nat.ofDigitChars_replicate_zero, Nat.mul_zero, Nat.ofDigitChars_ten_toDigits]

theorem number?_pad (width n : Nat) : number? (pad width n).toList = some n := by
  have hdigits : (pad width n).toList.all Char.isDigit = true :=
    List.all_eq_true.mpr fun c hc => isDigit_of_mem_pad hc
  rw [number?, if_pos hdigits, digitsValue_pad]

theorem exists_pad_two {n : Nat} (h : n < 100) :
    ∃ a b, (pad 2 n).toList = [a, b] ∧ number? [a, b] = some n := by
  obtain ⟨a, b, hab⟩ := List.length_eq_two.mp (length_pad (by decide) h)
  exact ⟨a, b, hab, hab ▸ number?_pad 2 n⟩

theorem exists_pad_four {n : Nat} (h : n < 10000) :
    ∃ a b c d, (pad 4 n).toList = [a, b, c, d] ∧ number? [a, b, c, d] = some n := by
  obtain ⟨a, b, c, d, habcd⟩ := List.length_eq_four.mp (length_pad (by decide) h)
  exact ⟨a, b, c, d, habcd, habcd ▸ number?_pad 4 n⟩

def dateChars (d : Date) : List Char :=
  (pad 4 d.year).toList ++ '-' :: (pad 2 d.month).toList ++ '-' :: (pad 2 d.day).toList

def fractionChars (micro : Nat) : List Char :=
  if micro = 0 then [] else '.' :: (pad 6 micro).toList

def timeChars (t : TimeOfDay) : List Char :=
  (pad 2 t.hour).toList ++ ':' :: (pad 2 t.minute).toList ++ ':' :: (pad 2 t.second).toList ++
    fractionChars t.micro

theorem toList_text (t : Timestamp) :
    t.text.toList = dateChars t.date ++ 'T' :: (timeChars t.time ++ (offsetText t.offset).toList) := by
  by_cases h : t.time.micro = 0 <;> simp [text, dateChars, timeChars, fractionChars, h]

theorem monthDays_le (year month : Nat) : Date.monthDays year month ≤ 31 := by
  simp only [Date.monthDays]
  split <;> split <;> omega

theorem date?_dateChars {d : Date} (h : d.Valid) (rest : List Char) :
    date? (dateChars d ++ rest) = some (d, rest) := by
  obtain ⟨hyear, _, hmonth, _, hday⟩ := id h
  have hshort : d.day ≤ 31 := Nat.le_trans hday (monthDays_le d.year d.month)
  obtain ⟨y₁, y₂, y₃, y₄, hy, hyv⟩ := exists_pad_four (show d.year < 10000 by omega)
  obtain ⟨m₁, m₂, hm, hmv⟩ := exists_pad_two (show d.month < 100 by omega)
  obtain ⟨d₁, d₂, hd, hdv⟩ := exists_pad_two (show d.day < 100 by omega)
  simp [dateChars, hy, hm, hd, date?, hyv, hmv, hdv, h]

/-- What follows the fraction neither starts with a digit nor goes on with a fraction. -/
def SignAhead (rest : List Char) : Prop := ∀ c ∈ rest.head?, c = '+' ∨ c = '-'

theorem takeWhile_isDigit_of_signAhead {rest : List Char} (h : SignAhead rest) :
    rest.takeWhile Char.isDigit = [] ∧ rest.dropWhile Char.isDigit = rest := by
  cases rest with
  | nil => exact ⟨rfl, rfl⟩
  | cons c rest =>
    have hc : c.isDigit = false := by
      obtain rfl | rfl := h c rfl <;> decide
    exact ⟨List.takeWhile_cons_of_neg (by simp [hc]), List.dropWhile_cons_of_neg (by simp [hc])⟩

theorem fraction?_of_signAhead {rest : List Char} (h : SignAhead rest) :
    fraction? rest = some (0, rest) := by
  cases rest with
  | nil => rfl
  | cons c rest =>
    have hc : ¬(c = '.' ∨ c = ',') := by
      obtain rfl | rfl := h c rfl <;> decide
    rw [fraction?, if_neg hc]

theorem fraction?_fractionChars {micro : Nat} (h : micro ≤ 999999) {rest : List Char}
    (hrest : SignAhead rest) : fraction? (fractionChars micro ++ rest) = some (micro, rest) := by
  rw [fractionChars]
  split
  · next hzero => rw [List.nil_append, fraction?_of_signAhead hrest, hzero]
  · have hsix : micro < 1000000 := by omega
    have hlen : (pad 6 micro).toList.length = 6 := length_pad (by decide) hsix
    have hne : (pad 6 micro).toList ≠ [] := by
      intro hnil
      simp [hnil] at hlen
    have hdigits : ∀ c ∈ (pad 6 micro).toList, c.isDigit = true := fun c => isDigit_of_mem_pad
    have hvalue := digitsValue_pad 6 micro
    obtain ⟨htake, hdrop⟩ := takeWhile_isDigit_of_signAhead hrest
    -- The six digits are neither cut nor filled.
    rw [List.cons_append, fraction?, if_pos (.inl rfl), List.takeWhile_append_of_pos hdigits,
      List.dropWhile_append_of_pos hdigits, htake, hdrop, List.append_nil, if_neg hne]
    simp [hlen, List.take_of_length_le, hvalue]

theorem time?_timeChars {t : TimeOfDay} (h : t.Valid) {rest : List Char} (hrest : SignAhead rest) :
    time? (timeChars t ++ rest) = some (t, rest) := by
  obtain ⟨hhour, hminute, hsecond, hmicro⟩ := id h
  obtain ⟨h₁, h₂, hh, hhv⟩ := exists_pad_two (show t.hour < 100 by omega)
  obtain ⟨m₁, m₂, hm, hmv⟩ := exists_pad_two (show t.minute < 100 by omega)
  obtain ⟨s₁, s₂, hs, hsv⟩ := exists_pad_two (show t.second < 100 by omega)
  have hfraction := fraction?_fractionChars hmicro hrest
  simp [timeChars, hh, hm, hs, time?, seconds?, hhv, hmv, hsv, hfraction, h]

theorem signAhead_offsetText (o : Option Int) : SignAhead (offsetText o).toList := by
  intro c hc
  cases o with
  | none => cases hc
  | some m =>
    by_cases hneg : m < 0
    · right
      simpa [offsetText, hneg] using hc.symm
    · left
      simpa [offsetText, hneg] using hc.symm

theorem signedOffset?_eq {c h₁ h₂ m₁ m₂ : Char} {sign : Int} {h m : Nat} (hsign : sign? c = some sign)
    (hh : number? [h₁, h₂] = some h) (hm : number? [m₁, m₂] = some m) (hclock : h ≤ 23 ∧ m ≤ 59) :
    signedOffset? c h₁ h₂ m₁ m₂ = some (some (sign * Int.ofNat (60 * h + m))) := by
  simp [signedOffset?, hsign, hh, hm, hclock]

theorem offset?_offsetText {o : Option Int} (h : ∀ m ∈ o, -1440 < m ∧ m < 1440) :
    offset? (offsetText o).toList = some o := by
  cases o with
  | none => rfl
  | some m =>
    have hrange := h m rfl
    obtain ⟨h₁, h₂, hh, hhv⟩ := exists_pad_two (show m.natAbs / 60 < 100 by omega)
    obtain ⟨m₁, m₂, hm, hmv⟩ := exists_pad_two (show m.natAbs % 60 < 100 by omega)
    have hclock : m.natAbs / 60 ≤ 23 ∧ m.natAbs % 60 ≤ 59 := by omega
    have htext : (offsetText (some m)).toList =
        [if m < 0 then '-' else '+', h₁, h₂, ':', m₁, m₂] := by
      by_cases hneg : m < 0 <;> simp [offsetText, hneg, hh, hm]
    have hsign : sign? (if m < 0 then '-' else '+') = some (if m < 0 then -1 else 1) := by
      by_cases hneg : m < 0 <;> simp [sign?, hneg]
    have hminutes : (if m < 0 then -1 else 1) *
        Int.ofNat (60 * (m.natAbs / 60) + m.natAbs % 60) = m := by
      rw [Nat.div_add_mod, Int.ofNat_eq_natCast]
      split <;> omega
    rw [htext, offset?, signedOffset?_eq hsign hhv hmv hclock, hminutes]

theorem calendar?_text {t : Timestamp} (h : t.Valid) : calendar? t.text.toList = some t := by
  obtain ⟨hdate, htime, hoffset⟩ := h
  rw [toList_text, calendar?, date?_dateChars hdate]
  simp [isSeparator, time?_timeChars htime (signAhead_offsetText t.offset),
    offset?_offsetText hoffset]

theorem read?_text {t : Timestamp} (h : t.Valid) : read? t.text = some t := by
  rw [read?, calendar?_text h]

theorem valid_of_date? {cs rest : List Char} {d : Date} (h : date? cs = some (d, rest)) :
    d.Valid := by
  unfold date? at h
  split at h
  · simp only [Option.bind_eq_bind, Option.bind_eq_some_iff, Option.ite_none_right_eq_some] at h
    obtain ⟨year, _, month, _, day, _, hvalid, h⟩ := h
    cases h
    exact hvalid
  · cases h

theorem valid_of_time? {cs rest : List Char} {t : TimeOfDay} (h : time? cs = some (t, rest)) :
    t.Valid := by
  unfold time? at h
  split at h
  · simp only [Option.bind_eq_bind, Option.bind_eq_some_iff, Option.ite_none_right_eq_some] at h
    obtain ⟨hour, _, minute, _, ⟨⟨second, micro⟩, later⟩, _, hvalid, h⟩ := h
    cases h
    exact hvalid
  · cases h

theorem range_of_signedOffset? {c h₁ h₂ m₁ m₂ : Char} {m : Int}
    (h : signedOffset? c h₁ h₂ m₁ m₂ = some (some m)) : -1440 < m ∧ m < 1440 := by
  simp only [signedOffset?, Option.bind_eq_bind, Option.bind_eq_some_iff,
    Option.ite_none_right_eq_some] at h
  obtain ⟨sign, hsign, hour, _, minute, _, hclock, h⟩ := h
  cases h
  have hunit : sign = 1 ∨ sign = -1 := by
    simp only [sign?] at hsign
    split at hsign
    · exact .inl (Option.some.inj hsign).symm
    · split at hsign
      · exact .inr (Option.some.inj hsign).symm
      · cases hsign
  rw [Int.ofNat_eq_natCast]
  obtain rfl | rfl := hunit <;> omega

theorem range_of_offset? {cs : List Char} {o : Option Int} (h : offset? cs = some o) :
    ∀ m ∈ o, -1440 < m ∧ m < 1440 := by
  rintro m rfl
  unfold offset? at h
  split at h
  · cases h
  · split at h
    · cases h
      decide
    · cases h
  · exact range_of_signedOffset? h
  · exact range_of_signedOffset? h
  · cases h

theorem valid_of_calendar? {cs : List Char} {t : Timestamp} (h : calendar? cs = some t) :
    t.Valid := by
  unfold calendar? at h
  split at h
  · next date hdate =>
    cases h
    exact ⟨valid_of_date? hdate, show TimeOfDay.midnight.Valid by decide, by simp⟩
  · next date c rest hdate =>
    split at h
    · simp only [Option.bind_eq_bind, Option.bind_eq_some_iff] at h
      obtain ⟨⟨time, later⟩, htime, offset, hoffset, h⟩ := h
      cases h
      exact ⟨valid_of_date? hdate, valid_of_time? htime, range_of_offset? hoffset⟩
    · cases h
  · cases h

theorem valid_of_unsignedCount? {negative : Bool} {cs : List Char} {t : Timestamp}
    (h : unsignedCount? negative cs = some t) : t.Valid := by
  unfold unsignedCount? at h
  split at h
  · split at h
    · cases h
    · split at h
      · obtain ⟨x, _, hx⟩ := Option.bind_eq_some_iff.mp h
        exact valid_of_ofUnits? hx
      · split at h
        · cases h
        · exact valid_of_ofUnits? h
  · cases h

theorem valid_of_count? {cs : List Char} {t : Timestamp} (h : count? cs = some t) : t.Valid := by
  unfold count? at h
  split at h <;> exact valid_of_unsignedCount? h

theorem valid_of_read? {s : String} {t : Timestamp} (h : read? s = some t) : t.Valid := by
  cases hcalendar : calendar? s.toList with
  | some u =>
    rw [read?, hcalendar] at h
    cases h
    exact valid_of_calendar? hcalendar
  | none =>
    rw [read?, hcalendar] at h
    exact valid_of_count? h

/-- The calendar has the point in time, and its year is one that can be given. -/
structure Given (t : Timestamp) : Prop where
  valid : t.Valid
  year : 1 ≤ t.date.year

end LedgerScript.Timestamp
