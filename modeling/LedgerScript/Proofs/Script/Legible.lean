import LedgerScript.Proofs.Script.Lines

/-! Scripts that can be read back. A script is legible if the texts inside its statements
are tokens, shares hold a percent sign, and comment and metadata stay on their lines and
inside their quotes. The text of a legible script determines the script. -/
namespace LedgerScript
open Text (IsToken)

namespace Money

def Legible (m : Money) : Prop := IsToken m.asset ∧ IsToken m.amount

theorem Legible.words {m : Money} (h : m.Legible) : ∀ w ∈ m.words, IsToken w := by
  intro w hw
  simp only [Money.words, List.mem_cons, List.not_mem_nil, or_false] at hw
  obtain rfl | rfl := hw
  · exact IsToken.append (by decide) h.1
  · exact h.2.append (by decide)

theorem eq_of_words {m n : Money} (h : m.words = n.words) : m = n := by
  obtain ⟨asset, amount⟩ := m
  obtain ⟨asset', amount'⟩ := n
  simpa [words] using h

end Money

namespace Allowance

def Legible : Allowance → Prop
  | .none => True
  | .unbounded => True
  | .upTo limit => limit.Legible

theorem Legible.words {a : Allowance} (h : a.Legible) : ∀ w ∈ a.words, IsToken w := by
  cases a with
  | none => simp [Allowance.words]
  | unbounded => decide
  | upTo limit =>
    have hfixed : ∀ w ∈ ["allowing", "overdraft", "up", "to"], IsToken w := by decide
    intro w hw
    obtain hw | hw := List.mem_append.mp hw
    · exact hfixed w hw
    · exact Money.Legible.words h w hw

theorem eq_of_words {a b : Allowance} (h : a.words = b.words) : a = b := by
  cases a <;> cases b <;> simp [words] at h
  case none.none => rfl
  case unbounded.unbounded => rfl
  case upTo.upTo m n => exact congrArg Allowance.upTo (Money.eq_of_words h)

end Allowance

namespace Source

def Legible (s : Source) : Prop := IsToken s.account ∧ s.allowance.Legible

theorem Legible.words {s : Source} (h : s.Legible) : ∀ w ∈ s.words, IsToken w := by
  intro w hw
  obtain rfl | hw := List.mem_cons.mp hw
  · exact h.1
  · exact h.2.words w hw

theorem eq_of_words {s t : Source} (h : s.words = t.words) : s = t := by
  obtain ⟨account, allowance⟩ := s
  obtain ⟨account', allowance'⟩ := t
  obtain ⟨ha, hw⟩ := List.cons.inj h
  obtain rfl : account = account' := ha
  obtain rfl : allowance = allowance' := Allowance.eq_of_words hw
  rfl

end Source

namespace Share

/-- The percent sign keeps a share apart from the words `max` and `remaining`. -/
def Legible : Share → Prop
  | .percentage text => IsToken text ∧ '%' ∈ text.toList
  | .cap limit => limit.Legible
  | .remaining => True

theorem Legible.words {s : Share} (h : s.Legible) : ∀ w ∈ s.words, IsToken w := by
  cases s with
  | percentage text => simpa [Share.words] using h.1
  | cap limit =>
    intro w hw
    obtain rfl | hw := List.mem_cons.mp hw
    · decide
    · exact Money.Legible.words h w hw
  | remaining => decide

end Share

namespace Allocation

def Legible (a : Allocation) : Prop := a.share.Legible ∧ IsToken a.target

theorem Legible.words {a : Allocation} (h : a.Legible) : ∀ w ∈ a.words, IsToken w := by
  intro w hw
  simp only [Allocation.words, List.mem_append, List.mem_cons, List.not_mem_nil, or_false,
    or_self] at hw
  obtain (rfl | hw) | rfl | rfl := hw
  · decide
  · exact h.1.words w hw
  · decide
  · exact h.2

theorem words_inj {a b : Allocation} (ha : a.Legible) (hb : b.Legible)
    (h : a.words = b.words) : a = b := by
  obtain ⟨share, target⟩ := a
  obtain ⟨share', target'⟩ := b
  have hm : '%' ∉ "remaining".toList := by decide
  cases share <;> cases share' <;> simp [words, Share.words, Money.words] at h
  case percentage.percentage => simp [h]
  case percentage.remaining t => exact absurd (h.1 ▸ ha.1.2) hm
  case cap.cap m n =>
    obtain ⟨hasset, hamount, rfl⟩ := h
    rw [Money.eq_of_words (m := m) (n := n) (by simp [Money.words, hasset, hamount])]
  case remaining.percentage t => exact absurd (h.1 ▸ hb.1.2) hm
  case remaining.remaining => rw [h]

theorem render_inj {a b : Allocation} (ha : a.Legible) (hb : b.Legible)
    (h : a.render = b.render) : a = b := by
  rw [render_eq_words, render_eq_words] at h
  exact words_inj ha hb
    (Text.words_inj ha.words hb.words (by simp [words]) (by simp [words]) h)

theorem render_ne_closing (a : Allocation) : a.render ≠ "  \x7d" := by
  intro h
  have hc := congrArg (fun s => s.toList[2]?) h
  simp [render] at hc

/-- A block ends at its closing line, which no allocation is mistaken for. -/
theorem map_render_inj {as bs : List Allocation} (ha : ∀ a ∈ as, a.Legible)
    (hb : ∀ b ∈ bs, b.Legible) {u v : List String}
    (h : as.map render ++ "  \x7d" :: u = bs.map render ++ "  \x7d" :: v) : as = bs ∧ u = v := by
  induction as generalizing bs with
  | nil =>
    cases bs with
    | nil => simpa using h
    | cons b bs => exact absurd (List.cons.inj h).1.symm b.render_ne_closing
  | cons a as ih =>
    cases bs with
    | nil => exact absurd (List.cons.inj h).1 a.render_ne_closing
    | cons b bs =>
      obtain ⟨hab, ht⟩ := List.cons.inj h
      obtain ⟨rfl, huv⟩ := ih (fun x hx => ha x (List.mem_cons_of_mem a hx))
        (fun x hx => hb x (List.mem_cons_of_mem b hx)) ht
      exact ⟨by rw [render_inj (ha a (by simp)) (hb b (by simp)) hab], huv⟩

end Allocation

namespace Destination

/-- The sign of an address keeps it apart from an opening brace; a block is not empty. -/
def Legible : Destination → Prop
  | .account address => IsToken address ∧ address.toList.head? = some '@'
  | .block as => as ≠ [] ∧ ∀ a ∈ as, a.Legible

theorem Legible.ne_empty {d : Destination} (h : d.Legible) : d ≠ .block [] := by
  rintro rfl
  exact h.1 rfl

theorem account_ne_opening {a : String} (h : (Destination.account a).Legible) :
    "  destination = " ++ a ≠ "  destination = \x7b" := by
  intro e
  have ha : a = "\x7b" := (String.append_right_inj "  destination = ").mp e
  have hh := h.2
  rw [ha] at hh
  exact absurd hh (by decide)

theorem lines_append_inj {d e : Destination} (hd : d.Legible) (he : e.Legible)
    {u v : List String} (h : d.lines ++ u = e.lines ++ v) : d = e ∧ u = v := by
  cases d with
  | account a =>
    cases e with
    | account b =>
      obtain ⟨hfirst, hrest⟩ := List.cons.inj h
      rw [(String.append_right_inj "  destination = ").mp hfirst]
      exact ⟨rfl, hrest⟩
    | block bs => exact absurd (List.cons.inj h).1 (account_ne_opening hd)
  | block as =>
    cases e with
    | account b => exact absurd (List.cons.inj h).1.symm (account_ne_opening he)
    | block bs =>
      obtain ⟨-, hrest⟩ := List.cons.inj h
      obtain ⟨rfl, huv⟩ := Allocation.map_render_inj hd.2 he.2 (u := u) (v := v)
        (by simpa using hrest)
      exact ⟨rfl, huv⟩

theorem Legible.lines {d : Destination} (h : d.Legible) : ∀ l ∈ d.lines, '\n' ∉ l.toList := by
  intro l hl
  cases d with
  | account a =>
    rw [Destination.lines, List.mem_singleton] at hl
    rw [hl, String.toList_append, List.mem_append, not_or]
    exact ⟨by decide, h.1.notMem (by decide)⟩
  | block as =>
    simp only [Destination.lines, List.mem_cons, List.mem_append, List.mem_map, List.not_mem_nil,
      or_false] at hl
    obtain rfl | ⟨a, ha, rfl⟩ | rfl := hl
    · decide
    · rw [Allocation.render_eq_words]
      exact Text.notMem_words (h.2 a ha).words
    · decide

end Destination

namespace Send

structure Legible (s : Send) : Prop where
  money : s.money.Legible
  source : s.source.Legible
  destination : s.destination.Legible

theorem Legible.headWords {s : Send} (h : s.Legible) : ∀ w ∈ s.headWords, IsToken w := by
  intro w hw
  simp only [Send.headWords, List.mem_cons, List.mem_append, List.not_mem_nil, or_false] at hw
  obtain rfl | hw | rfl := hw
  · decide
  · exact h.money.words w hw
  · decide

theorem Legible.sourceWords {s : Send} (h : s.Legible) : ∀ w ∈ s.sourceWords, IsToken w := by
  have hfixed : ∀ w ∈ ["", "", "source", "="], IsToken w := by decide
  intro w hw
  obtain hw | hw := List.mem_append.mp hw
  · exact hfixed w hw
  · exact h.source.words w hw

/-- A statement is determined by its lines, and so is where they end. -/
theorem lines_append_inj {s t : Send} (hs : s.Legible) (ht : t.Legible) {u v : List String}
    (h : s.lines ++ u = t.lines ++ v) : s = t ∧ u = v := by
  obtain ⟨money, source, destination⟩ := s
  obtain ⟨money', source', destination'⟩ := t
  obtain ⟨hhead, hrest⟩ := List.cons.inj h
  obtain ⟨hsource, hrest⟩ := List.cons.inj hrest
  have hm := Text.words_inj hs.headWords ht.headWords (by simp [headWords])
    (by simp [headWords]) hhead
  have hw := Text.words_inj hs.sourceWords ht.sourceWords (by simp [sourceWords])
    (by simp [sourceWords]) hsource
  obtain ⟨rfl, hend⟩ := Destination.lines_append_inj hs.destination ht.destination
    (u := ")" :: u) (v := ")" :: v) (by simpa using hrest)
  obtain rfl : money = money' := Money.eq_of_words (by simpa [headWords] using hm)
  obtain rfl : source = source' := Source.eq_of_words (by simpa [sourceWords] using hw)
  exact ⟨rfl, (List.cons.inj hend).2⟩

theorem Legible.lines {s : Send} (h : s.Legible) : ∀ l ∈ s.lines, '\n' ∉ l.toList := by
  intro l hl
  simp only [Send.lines, List.mem_cons, List.mem_append, List.not_mem_nil, or_false] at hl
  obtain rfl | rfl | hl | rfl := hl
  · exact Text.notMem_words h.headWords
  · exact Text.notMem_words h.sourceWords
  · exact h.destination.lines l hl
  · decide

end Send

namespace MetadataEntry

structure Legible (e : MetadataEntry) : Prop where
  keyLine : '\n' ∉ e.key.toList
  keyQuote : '"' ∉ e.key.toList
  valueLine : '\n' ∉ e.value.toList
  valueQuote : '"' ∉ e.value.toList

instance (e : MetadataEntry) : Decidable e.Legible :=
  decidable_of_iff
    ('\n' ∉ e.key.toList ∧ '"' ∉ e.key.toList ∧ '\n' ∉ e.value.toList ∧ '"' ∉ e.value.toList)
    ⟨fun ⟨h₁, h₂, h₃, h₄⟩ => ⟨h₁, h₂, h₃, h₄⟩, fun ⟨h₁, h₂, h₃, h₄⟩ => ⟨h₁, h₂, h₃, h₄⟩⟩

def pieces (e : MetadataEntry) : List String := ["set_tx_meta(", e.key, ", ", e.value, ")"]

theorem notMem_pieces {e : MetadataEntry} {c : Char} (hkey : c ∉ e.key.toList)
    (hvalue : c ∉ e.value.toList) (hfixed : ∀ p ∈ ["set_tx_meta(", ", ", ")"], c ∉ p.toList) :
    ∀ p ∈ e.pieces, c ∉ p.toList := by
  intro p hp
  simp only [pieces, List.mem_cons, List.not_mem_nil, or_false] at hp
  obtain rfl | rfl | rfl | rfl | rfl := hp
  · exact hfixed _ (by simp)
  · exact hkey
  · exact hfixed _ (by simp)
  · exact hvalue
  · exact hfixed _ (by simp)

theorem render_eq_pieces (e : MetadataEntry) : e.render = "\"".intercalate e.pieces := by
  change "set_tx_meta(\"" ++ e.key ++ "\", \"" ++ e.value ++ "\")" = _
  simp only [pieces, String.intercalate_cons_cons, String.intercalate_singleton,
    String.append_assoc]
  rfl

theorem third_letter (e : MetadataEntry) : e.render.toList[2]? = some 't' := by
  rw [render_eq_pieces, pieces, String.intercalate_cons_cons, String.append_assoc, String.toList_append,
    List.getElem?_append_left (by decide)]
  rfl

theorem render_inj {e f : MetadataEntry} (he : e.Legible) (hf : f.Legible)
    (h : e.render = f.render) : e = f := by
  rw [render_eq_pieces, render_eq_pieces] at h
  have hp : e.pieces = f.pieces :=
    Text.intercalate_inj (d := '"') (by decide)
      (notMem_pieces he.keyQuote he.valueQuote (by decide))
      (notMem_pieces hf.keyQuote hf.valueQuote (by decide)) (by simp [pieces]) (by simp [pieces]) h
  obtain ⟨key, value⟩ := e
  obtain ⟨key', value'⟩ := f
  simpa [pieces] using hp

theorem Legible.line {e : MetadataEntry} (h : e.Legible) : '\n' ∉ e.render.toList := by
  rw [render_eq_pieces]
  exact Text.notMem_intercalate (by decide) (notMem_pieces h.keyLine h.valueLine (by decide))

end MetadataEntry

namespace Script

structure Legible (s : Script) : Prop where
  summary : '\n' ∉ s.summary.toList
  sends : ∀ t ∈ s.sends, t.Legible
  metadata : ∀ e ∈ s.metadata, e.Legible

/-- A metadata line does not start like a statement. -/
theorem bodyLines_nil_ne_cons (es fs : List MetadataEntry) (t : Send) (ts : List Send) :
    bodyLines [] es ≠ bodyLines (t :: ts) fs := by
  intro h
  rw [bodyLines_cons] at h
  cases es with
  | nil => simp [bodyLines] at h
  | cons e es =>
    have hrest : e.render :: es.map MetadataEntry.render = t.lines ++ bodyLines ts fs := by
      simpa [bodyLines] using h
    have hline : e.render = "send " ++ t.money.render ++ " (" := by
      rw [Send.head_eq_words]
      exact (List.cons.inj hrest).1
    have hn : e.render.toList[2]? = some 'n' := by
      rw [hline, String.append_assoc, String.toList_append, List.getElem?_append_left (by decide)]
      rfl
    rw [e.third_letter] at hn
    exact absurd hn (by decide)

theorem map_render_inj {es fs : List MetadataEntry} (he : ∀ e ∈ es, e.Legible)
    (hf : ∀ f ∈ fs, f.Legible)
    (h : es.map MetadataEntry.render = fs.map MetadataEntry.render) : es = fs := by
  induction es generalizing fs with
  | nil => simpa using h.symm
  | cons e es ih =>
    cases fs with
    | nil => simp at h
    | cons f fs =>
      obtain ⟨hef, ht⟩ := List.cons.inj h
      rw [MetadataEntry.render_inj (he e (by simp)) (hf f (by simp)) hef,
        ih (fun x hx => he x (List.mem_cons_of_mem e hx))
          (fun x hx => hf x (List.mem_cons_of_mem f hx)) ht]

theorem bodyLines_inj {ss ts : List Send} {es fs : List MetadataEntry}
    (hs : ∀ s ∈ ss, s.Legible) (ht : ∀ t ∈ ts, t.Legible) (he : ∀ e ∈ es, e.Legible)
    (hf : ∀ f ∈ fs, f.Legible) (h : bodyLines ss es = bodyLines ts fs) : ss = ts ∧ es = fs := by
  induction ss generalizing ts with
  | nil =>
    cases ts with
    | nil =>
      refine ⟨rfl, map_render_inj he hf ?_⟩
      cases es <;> cases fs <;> simp_all [bodyLines]
    | cons t ts => exact absurd h (bodyLines_nil_ne_cons es fs t ts)
  | cons s ss ih =>
    cases ts with
    | nil => exact absurd h.symm (bodyLines_nil_ne_cons fs es s ss)
    | cons t ts =>
      rw [bodyLines_cons, bodyLines_cons] at h
      obtain ⟨rfl, hrest⟩ := Send.lines_append_inj (hs s (by simp)) (ht t (by simp))
        (List.cons.inj h).2
      obtain ⟨rfl, hm⟩ := ih (fun x hx => hs x (List.mem_cons_of_mem s hx))
        (fun x hx => ht x (List.mem_cons_of_mem s hx)) hrest
      exact ⟨rfl, hm⟩

theorem Legible.lines {s : Script} (h : s.Legible) : ∀ l ∈ s.lines, '\n' ∉ l.toList := by
  intro l hl
  rw [Script.lines, bodyLines, List.mem_cons, List.mem_append] at hl
  obtain rfl | hl | hl := hl
  · rw [String.toList_append, List.mem_append, not_or]
    exact ⟨by decide, h.summary⟩
  · obtain ⟨t, ht, hl⟩ := List.mem_flatMap.mp hl
    obtain rfl | hl := List.mem_cons.mp hl
    · decide
    · exact (h.sends t ht).lines l hl
  · split at hl
    · simp at hl
    · obtain rfl | hl := List.mem_cons.mp hl
      · decide
      · obtain ⟨e, he, rfl⟩ := List.mem_map.mp hl
        exact (h.metadata e he).line

theorem render_inj {s t : Script} (hs : s.Legible) (ht : t.Legible) {trailingNewline : Bool}
    (h : s.render trailingNewline = t.render trailingNewline) : s = t := by
  rw [render_eq_lines fun u hu => (hs.sends u hu).destination.ne_empty,
    render_eq_lines fun u hu => (ht.sends u hu).destination.ne_empty] at h
  have hlines : s.lines = t.lines :=
    Text.intercalate_inj (d := '\n') (by decide) hs.lines ht.lines (by simp [lines])
      (by simp [lines]) ((String.append_left_inj _).mp h)
  obtain ⟨summary, sends, metadata⟩ := s
  obtain ⟨summary', sends', metadata'⟩ := t
  obtain ⟨hfirst, hbody⟩ := List.cons.inj hlines
  obtain ⟨rfl, rfl⟩ : sends = sends' ∧ metadata = metadata' :=
    bodyLines_inj hs.sends ht.sends hs.metadata ht.metadata hbody
  obtain rfl : summary = summary' := (String.append_right_inj "// ").mp hfirst
  rfl

end Script
end LedgerScript
