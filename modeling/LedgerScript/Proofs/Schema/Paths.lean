import LedgerScript.Proofs.Decimal.Digits
import LedgerScript.Schema.Issue

/-! Paths as texts. Where the names of fields hold no separator and no digit, a path can be
read off its dotted text, and the line of an issue tells the path that the issue is about. -/
namespace LedgerScript.Schema

theorem split_at_first {d : Char} {s t u w : List Char} (hs : d ∉ s) (ht : d ∉ t)
    (h : s ++ d :: u = t ++ d :: w) : s = t ∧ u = w := by
  induction s generalizing t with
  | nil =>
    cases t with
    | nil => exact ⟨rfl, (List.cons.inj h).2⟩
    | cons b t => exact absurd (List.cons.inj h).1 (by rintro rfl; exact ht (by simp))
  | cons a s ih =>
    cases t with
    | nil => exact absurd (List.cons.inj h).1 (by rintro rfl; exact hs (by simp))
    | cons b t =>
      obtain ⟨rfl, htail⟩ := List.cons.inj h
      have hs' : d ∉ s := fun hd => hs (List.mem_cons_of_mem a hd)
      have ht' : d ∉ t := fun hd => ht (List.mem_cons_of_mem a hd)
      obtain ⟨rfl, rfl⟩ := ih hs' ht' htail
      exact ⟨rfl, rfl⟩

namespace Step

/-- The name of a field holds something, but no separator and no digit. -/
def Plain : Step → Prop
  | .field name => name ≠ "" ∧ ∀ c ∈ name.toList, c ≠ '.' ∧ c ≠ ':' ∧ c.isDigit = false
  | .item _ => True

instance (s : Step) : Decidable s.Plain :=
  match s with
  | .field _ => @instDecidableAnd _ _ inferInstance (List.decidableBAll _ _)
  | .item _ => isTrue trivial

theorem notMem_text {s : Step} (h : s.Plain) : '.' ∉ s.text.toList ∧ ':' ∉ s.text.toList := by
  cases s with
  | field name => exact ⟨fun hc => (h.2 _ hc).1 rfl, fun hc => (h.2 _ hc).2.1 rfl⟩
  | item i =>
    constructor
    · intro hc
      exact absurd (Decimal.isDigit_of_mem_natText hc) (by decide)
    · intro hc
      exact absurd (Decimal.isDigit_of_mem_natText hc) (by decide)

theorem text_field_ne {name : String} (h : (field name).Plain) (i : Nat) :
    (field name).text ≠ (item i).text := by
  intro heq
  have hne : name.toList ≠ [] := fun hnil => h.1 (String.toList_inj.mp hnil)
  obtain ⟨c, hc⟩ := List.exists_mem_of_ne_nil _ hne
  have hdigit : c ∈ (Decimal.natText i).toList := by
    rw [show Decimal.natText i = name from heq.symm]
    exact hc
  have hyes := Decimal.isDigit_of_mem_natText hdigit
  rw [(h.2 c hc).2.2] at hyes
  cases hyes

theorem text_inj {s t : Step} (hs : s.Plain) (ht : t.Plain) (h : s.text = t.text) : s = t := by
  cases s with
  | field name =>
    cases t with
    | field other => exact congrArg field h
    | item j => exact absurd h (text_field_ne hs j)
  | item i =>
    cases t with
    | field other => exact absurd h.symm (text_field_ne ht i)
    | item j => exact congrArg item (Decimal.natText_inj h)

end Step

namespace Path

def Plain (p : Path) : Prop := ∀ s ∈ p, s.Plain

theorem plain_cons {s : Step} {p : Path} : Plain (s :: p) ↔ s.Plain ∧ Plain p :=
  List.forall_mem_cons

def dotted (p : Path) : List Char := p.flatMap fun s => s.text.toList ++ ['.']

theorem dotted_cons (s : Step) (p : Path) : dotted (s :: p) = s.text.toList ++ '.' :: dotted p := by
  simp [dotted]

theorem dotted_eq_text {p : Path} (h : p ≠ []) : p.dotted = p.text.toList ++ ['.'] := by
  induction p with
  | nil => exact absurd rfl h
  | cons s p ih =>
    by_cases hp : p = []
    · simp [hp, dotted, text]
    · have hmap : p.map Step.text ≠ [] := by simpa using hp
      rw [dotted_cons, ih hp, text, text, List.map_cons, String.intercalate_cons_of_ne_nil hmap]
      simp

-- No step is the beginning of another one with its dot, so what two dotted texts have in
-- common they have in whole steps.
theorem dotted_prefix_iff {p q : Path} (hp : p.Plain) (hq : q.Plain) :
    q.dotted <+: p.dotted ↔ q <+: p := by
  induction q generalizing p with
  | nil => simp [dotted]
  | cons s q ih =>
    obtain ⟨hs, hq⟩ := plain_cons.mp hq
    cases p with
    | nil => simp [dotted]
    | cons t p =>
      obtain ⟨ht, hp⟩ := plain_cons.mp hp
      rw [dotted_cons, dotted_cons, List.cons_prefix_cons, ← ih hp hq]
      constructor
      · rintro ⟨rest, h⟩
        rw [List.append_assoc, List.cons_append] at h
        obtain ⟨htext, hrest⟩ := split_at_first (Step.notMem_text hs).1 (Step.notMem_text ht).1 h
        exact ⟨Step.text_inj hs ht (String.toList_inj.mp htext), rest, hrest⟩
      · rintro ⟨rfl, rest, h⟩
        exact ⟨rest, by rw [List.append_assoc, List.cons_append, h]⟩

theorem text_inj {p q : Path} (hp : p.Plain) (hq : q.Plain) (np : p ≠ []) (nq : q ≠ [])
    (h : p.text = q.text) : p = q := by
  have hdotted : p.dotted = q.dotted := by rw [dotted_eq_text np, dotted_eq_text nq, h]
  have hpq : p <+: q := (dotted_prefix_iff hq hp).mp (hdotted ▸ List.prefix_refl _)
  have hqp : q <+: p := (dotted_prefix_iff hp hq).mp (hdotted ▸ List.prefix_refl _)
  exact hpq.eq_of_length_le hqp.length_le

theorem colon_notMem_text {p : Path} (h : p.Plain) : ':' ∉ p.text.toList := by
  induction p with
  | nil => simp [text]
  | cons s p ih =>
    obtain ⟨hs, hp⟩ := plain_cons.mp h
    have hstep : ':' ∉ s.text.toList := (Step.notMem_text hs).2
    have hrest : ':' ∉ (text p).toList := ih hp
    by_cases hnil : p = []
    · simpa [hnil, text] using hstep
    · have hmap : p.map Step.text ≠ [] := by simpa using hnil
      rw [text, List.map_cons, String.intercalate_cons_of_ne_nil hmap, ← text]
      simp [hstep, hrest]

end Path

def isUnder (place path : String) : Bool :=
  path == place || (place ++ ".").toList.isPrefixOf path.toList

theorem isUnder_text_iff {p q : Path} (hp : p.Plain) (hq : q.Plain) (np : p ≠ []) (nq : q ≠ []) :
    isUnder q.text p.text = true ↔ q <+: p := by
  have hdots : isUnder q.text p.text = true ↔
      q.text.toList ++ ['.'] <+: p.text.toList ++ ['.'] := by
    rw [List.prefix_concat_iff, isUnder, Bool.or_eq_true, beq_iff_eq, List.isPrefixOf_iff_prefix,
      List.append_left_inj, String.toList_inj, eq_comm]
    simp
  rw [hdots, ← Path.dotted_eq_text np, ← Path.dotted_eq_text nq, Path.dotted_prefix_iff hp hq]

/-- The part of a line before its colon. -/
def linePlace (line : String) : String := String.ofList (line.toList.takeWhile (· ≠ ':'))

namespace Issue

def place (whole : String) (i : Issue) : String := if i.path = [] then whole else i.path.text

theorem linePlace_line {whole : String} (hwhole : ':' ∉ whole.toList) {i : Issue}
    (h : i.path.Plain) : linePlace (i.line whole) = i.place whole := by
  have hcolon : ':' ∉ (i.place whole).toList := by
    rw [place]
    split
    · exact hwhole
    · exact Path.colon_notMem_text h
  have hline : (i.line whole).toList =
      (i.place whole).toList ++ ':' :: ' ' :: (i.fault.message.getD "").toList := by
    simp [line, place]
  have hall : ∀ c ∈ (i.place whole).toList, decide (c ≠ ':') = true := by
    intro c hc
    exact decide_eq_true fun heq => hcolon (heq ▸ hc)
  rw [linePlace, hline, List.takeWhile_append_of_pos hall]
  simp

end Issue
end LedgerScript.Schema
