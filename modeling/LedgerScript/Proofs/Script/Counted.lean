import LedgerScript.Proofs.Script.Lines
import LedgerScript.Proofs.Text.Lines

/-! How many statements a script shows, line by line. Every statement begins a line of its own,
whatever its texts hold, so that none is hidden. Nothing is escaped: a text with a line feed in
it may begin further lines, and only without one the lines are those of the tree. -/
namespace LedgerScript
open Text (startsWith)

namespace Script

def marks : List String := ["send [", "set_tx_meta("]

def otherMarks : List String := ["// ", "  source = ", "  destination = ", "    ", "  \x7d", ")"]

theorem startsWith_mark_eq_false {mark other : String} (hmark : mark ∈ marks)
    (hother : other ∈ otherMarks) (s : String) : startsWith mark (other ++ s) = false := by
  have hapart : ∀ m ∈ marks, ∀ o ∈ otherMarks, startsWith m o = false ∧ startsWith o m = false := by
    decide
  obtain ⟨h, h'⟩ := hapart mark hmark other hother
  exact Text.startsWith_append_eq_false h h' s

end Script

theorem Destination.countP_lines {mark : String} (h : mark ∈ Script.marks) (d : Destination) :
    d.lines.countP (startsWith mark) = 0 := by
  rw [List.countP_eq_zero]
  intro l hl
  rw [Bool.not_eq_true]
  cases d with
  | account address =>
    obtain rfl := List.mem_singleton.mp hl
    exact Script.startsWith_mark_eq_false h (by decide) address
  | block as =>
    have hopening : "  destination = \x7b" = "  destination = " ++ "\x7b" := by decide
    simp only [lines, hopening, List.mem_cons, List.mem_append, List.mem_map, List.not_mem_nil,
      or_false] at hl
    obtain rfl | ⟨a, _, rfl⟩ | rfl := hl
    · exact Script.startsWith_mark_eq_false h (by decide) _
    · rw [Allocation.render, String.append_assoc, String.append_assoc]
      exact Script.startsWith_mark_eq_false h (by decide) _
    · have hclosing : "  \x7d" ∈ Script.otherMarks := by decide
      exact Script.startsWith_mark_eq_false h hclosing ""

namespace Send

/-- Only the first line of a statement can begin one. -/
theorem countP_lines {mark : String} (h : mark ∈ Script.marks) (s : Send) :
    s.lines.countP (startsWith mark) =
      ["send " ++ s.money.render ++ " ("].countP (startsWith mark) := by
  have hsource : startsWith mark (" ".intercalate s.sourceWords) = false := by
    rw [← source_eq_words]
    exact Script.startsWith_mark_eq_false h (by decide) _
  have hbracket : ")" ∈ Script.otherMarks := by decide
  have hclosing : startsWith mark ")" = false := Script.startsWith_mark_eq_false h hbracket ""
  have hdestination := Destination.countP_lines h s.destination
  rw [lines, ← head_eq_words]
  simp [List.countP_cons, List.countP_append, hsource, hclosing, hdestination]

theorem head_eq_mark (s : Send) :
    "send " ++ s.money.render ++ " (" =
      "send [" ++ (s.money.asset ++ " " ++ s.money.amount ++ "] (") := by
  rw [← String.toList_inj]
  simp [Money.render]

theorem countP_lines_send (s : Send) : s.lines.countP (startsWith "send [") = 1 := by
  rw [countP_lines (by decide), head_eq_mark]
  simp [Text.startsWith_append_self]

theorem countP_lines_meta (s : Send) : s.lines.countP (startsWith "set_tx_meta(") = 0 := by
  have hhead : startsWith "set_tx_meta(" ("send [" ++ (s.money.asset ++ " " ++ s.money.amount ++
      "] (")) = false := Text.startsWith_append_eq_false (by decide) (by decide) _
  rw [countP_lines (by decide), head_eq_mark]
  simp [hhead]

end Send

namespace MetadataEntry

theorem render_eq_mark (e : MetadataEntry) :
    e.render = "set_tx_meta(" ++ ("\"" ++ e.key ++ "\", \"" ++ e.value ++ "\")") := by
  show "set_tx_meta(\"" ++ e.key ++ "\", \"" ++ e.value ++ "\")" = _
  rw [← String.toList_inj]
  simp

theorem countP_render_send (es : List MetadataEntry) :
    (es.map render).countP (startsWith "send [") = 0 := by
  rw [List.countP_eq_zero]
  intro l hl
  obtain ⟨e, _, rfl⟩ := List.mem_map.mp hl
  rw [render_eq_mark, Bool.not_eq_true]
  exact Text.startsWith_append_eq_false (by decide) (by decide) _

theorem countP_render_meta (es : List MetadataEntry) :
    (es.map render).countP (startsWith "set_tx_meta(") = es.length := by
  have hlength : (es.map render).length = es.length := List.length_map render
  rw [← hlength, List.countP_eq_length]
  intro l hl
  obtain ⟨e, _, rfl⟩ := List.mem_map.mp hl
  rw [render_eq_mark]
  exact Text.startsWith_append_self _ _

end MetadataEntry

namespace Script

theorem countP_bodyLines {p : String → Bool} (hblank : p "" = false) {k : Nat}
    (hsend : ∀ t : Send, t.lines.countP p = k) (sends : List Send)
    (metadata : List MetadataEntry) :
    (bodyLines sends metadata).countP p =
      k * sends.length + (metadata.map MetadataEntry.render).countP p := by
  induction sends with
  | nil =>
    by_cases hm : metadata = []
    · simp [bodyLines, hm]
    · simp [bodyLines, hm, hblank]
  | cons t ts ih =>
    rw [bodyLines_cons, List.countP_cons, List.countP_append, ih, hsend, hblank, List.length_cons,
      Nat.mul_succ]
    simp only [Bool.false_eq_true, if_false]
    omega

theorem countP_lines_send (s : Script) : s.lines.countP (startsWith "send [") = s.sends.length := by
  have hcomment : startsWith "send [" ("// " ++ s.summary) = false :=
    startsWith_mark_eq_false (by decide) (by decide) s.summary
  rw [lines, List.countP_cons, countP_bodyLines (by decide) Send.countP_lines_send,
    MetadataEntry.countP_render_send, hcomment]
  simp

theorem countP_lines_meta (s : Script) :
    s.lines.countP (startsWith "set_tx_meta(") = s.metadata.length := by
  have hcomment : startsWith "set_tx_meta(" ("// " ++ s.summary) = false :=
    startsWith_mark_eq_false (by decide) (by decide) s.summary
  rw [lines, List.countP_cons, countP_bodyLines (by decide) Send.countP_lines_meta,
    MetadataEntry.countP_render_meta, hcomment]
  simp

end Script

/-! The texts that a tree holds, each of which stands in the script as it is. -/

def Money.texts (m : Money) : List String := [m.asset, m.amount]

def Allowance.texts : Allowance → List String
  | .upTo limit => limit.texts
  | _ => []

def Share.texts : Share → List String
  | .percentage text => [text]
  | .cap limit => limit.texts
  | .remaining => []

def Allocation.texts (a : Allocation) : List String := a.target :: a.share.texts

def Destination.texts : Destination → List String
  | .account address => [address]
  | .block as => as.flatMap Allocation.texts

def Send.texts (s : Send) : List String :=
  s.money.texts ++ s.source.account :: (s.source.allowance.texts ++ s.destination.texts)

def MetadataEntry.texts (e : MetadataEntry) : List String := [e.key, e.value]

def Script.texts (s : Script) : List String :=
  s.summary :: (s.sends.flatMap Send.texts ++ s.metadata.flatMap MetadataEntry.texts)

namespace Text

def Unbroken (s : String) : Prop := '\n' ∉ s.toList

instance (s : String) : Decidable (Unbroken s) := inferInstanceAs (Decidable (_ ∉ _))

@[simp] theorem unbroken_append {s t : String} :
    Unbroken (s ++ t) ↔ Unbroken s ∧ Unbroken t := by
  simp [Unbroken, not_or]

end Text
open Text (Unbroken)

theorem Money.unbroken_render {m : Money} (h : ∀ t ∈ m.texts, Unbroken t) : Unbroken m.render := by
  obtain ⟨hasset, hamount⟩ : Unbroken m.asset ∧ Unbroken m.amount := by simpa [texts] using h
  simp only [render, Text.unbroken_append]
  exact ⟨⟨⟨⟨by decide +kernel, hasset⟩, by decide +kernel⟩, hamount⟩, by decide +kernel⟩

theorem Allowance.unbroken_render {a : Allowance} (h : ∀ t ∈ a.texts, Unbroken t) :
    Unbroken a.render := by
  cases a with
  | none => decide
  | unbounded =>
    rw [render_unbounded]
    decide +kernel
  | upTo limit =>
    rw [render_upTo, Text.unbroken_append]
    exact ⟨by decide +kernel, Money.unbroken_render h⟩

theorem Share.unbroken_render {s : Share} (h : ∀ t ∈ s.texts, Unbroken t) :
    Unbroken s.render := by
  cases s with
  | percentage text => exact h text (List.mem_singleton_self text)
  | cap limit =>
    simp only [render, Text.unbroken_append]
    exact ⟨by decide +kernel, Money.unbroken_render h⟩
  | remaining => decide

theorem Allocation.unbroken_render {a : Allocation} (h : ∀ t ∈ a.texts, Unbroken t) :
    Unbroken a.render := by
  obtain ⟨htarget, hshare⟩ := List.forall_mem_cons.mp h
  simp only [render, Text.unbroken_append]
  exact ⟨⟨⟨by decide +kernel, Share.unbroken_render hshare⟩, by decide +kernel⟩, htarget⟩

theorem Destination.unbroken_lines {d : Destination} (h : ∀ t ∈ d.texts, Unbroken t) :
    ∀ l ∈ d.lines, Unbroken l := by
  cases d with
  | account address =>
    intro l hl
    obtain rfl := List.mem_singleton.mp hl
    rw [Text.unbroken_append]
    exact ⟨by decide +kernel, h address (List.mem_singleton_self address)⟩
  | block as =>
    have has : ∀ l ∈ as.map Allocation.render, Unbroken l := by
      intro l hl
      obtain ⟨a, ha, rfl⟩ := List.mem_map.mp hl
      exact Allocation.unbroken_render fun t ht => h t (List.mem_flatMap.mpr ⟨a, ha, ht⟩)
    rw [lines, List.forall_mem_cons, List.forall_mem_append, List.forall_mem_singleton]
    exact ⟨by decide +kernel, has, by decide +kernel⟩

theorem Send.unbroken_lines {s : Send} (h : ∀ t ∈ s.texts, Unbroken t) :
    ∀ l ∈ s.lines, Unbroken l := by
  obtain ⟨hmoney, hrest⟩ := List.forall_mem_append.mp h
  obtain ⟨haccount, hrest⟩ := List.forall_mem_cons.mp hrest
  obtain ⟨hallowance, hdestination⟩ := List.forall_mem_append.mp hrest
  have hhead : Unbroken ("send " ++ s.money.render ++ " (") := by
    simp only [Text.unbroken_append]
    exact ⟨⟨by decide +kernel, Money.unbroken_render hmoney⟩, by decide +kernel⟩
  have hsource : Unbroken ("  source = " ++ s.source.render) := by
    simp only [Source.render, Text.unbroken_append]
    exact ⟨by decide +kernel, haccount, Allowance.unbroken_render hallowance⟩
  rw [lines, ← head_eq_words, ← source_eq_words]
  simp only [List.forall_mem_cons, List.forall_mem_append]
  exact ⟨hhead, hsource, Destination.unbroken_lines hdestination, by decide +kernel⟩

theorem MetadataEntry.unbroken_render {e : MetadataEntry} (h : ∀ t ∈ e.texts, Unbroken t) :
    Unbroken e.render := by
  obtain ⟨hkey, hvalue⟩ : Unbroken e.key ∧ Unbroken e.value := by simpa [texts] using h
  simp only [render_eq_mark, Text.unbroken_append]
  exact ⟨by decide, ⟨⟨⟨by decide, hkey⟩, by decide⟩, hvalue⟩, by decide⟩

namespace Script

theorem unbroken_lines {s : Script} (h : ∀ t ∈ s.texts, Unbroken t) :
    ∀ l ∈ s.lines, Unbroken l := by
  obtain ⟨hsummary, hrest⟩ := List.forall_mem_cons.mp h
  obtain ⟨hsends, hmetadata⟩ := List.forall_mem_append.mp hrest
  rw [lines, List.forall_mem_cons, bodyLines, List.forall_mem_append]
  refine ⟨Text.unbroken_append.mpr ⟨by decide +kernel, hsummary⟩, fun l hl => ?_, fun l hl => ?_⟩
  · obtain ⟨s, hs, hl⟩ := List.mem_flatMap.mp hl
    obtain rfl | hl := List.mem_cons.mp hl
    · decide
    · exact Send.unbroken_lines (fun t ht => hsends t (List.mem_flatMap.mpr ⟨s, hs, ht⟩)) l hl
  · split at hl
    · cases hl
    · obtain rfl | hl := List.mem_cons.mp hl
      · decide
      · obtain ⟨e, he, rfl⟩ := List.mem_map.mp hl
        refine MetadataEntry.unbroken_render fun t ht => hmetadata t ?_
        exact List.mem_flatMap.mpr ⟨e, he, ht⟩

/-- The empty line after the last line feed, if the text ends in one. -/
def lastLine (trailingNewline : Bool) : List String := if trailingNewline then [""] else []

theorem lines_render {s : Script} (h : ∀ t ∈ s.sends, t.destination ≠ .block [])
    (trailingNewline : Bool) :
    Text.lines (s.render trailingNewline) =
      s.lines.flatMap Text.lines ++ lastLine trailingNewline := by
  have hne : s.lines ≠ [] := by simp [lines]
  rw [render_eq_lines h]
  cases trailingNewline with
  | true =>
    have hend : "\n".intercalate s.lines ++ "\n" = "\n".intercalate s.lines ++ "\n" ++ "" := by simp
    rw [if_pos rfl, hend, Text.lines_append, Text.lines_intercalate hne]
    rfl
  | false => simp [lastLine, Text.lines_intercalate hne]

theorem countP_lastLine {mark : String} (h : mark ∈ marks) (trailingNewline : Bool) :
    (lastLine trailingNewline).countP (startsWith mark) = 0 := by
  have hblank : ∀ m ∈ marks, startsWith m "" = false := by decide
  cases trailingNewline <;> simp [lastLine, hblank mark h]

theorem countP_lines_le_render {s : Script} (h : ∀ t ∈ s.sends, t.destination ≠ .block [])
    (trailingNewline : Bool) {mark : String} (hmark : mark ∈ marks) :
    s.lines.countP (startsWith mark) ≤
      (Text.lines (s.render trailingNewline)).countP (startsWith mark) := by
  have hfeed : ∀ m ∈ marks, '\n' ∉ m.toList := by decide
  rw [lines_render h, List.countP_append, countP_lastLine hmark]
  exact Text.countP_startsWith_le_flatMap (hfeed mark hmark) s.lines

theorem countP_render_eq_lines {s : Script} (h : ∀ t ∈ s.sends, t.destination ≠ .block [])
    (htexts : ∀ t ∈ s.texts, Unbroken t) (trailingNewline : Bool) {mark : String}
    (hmark : mark ∈ marks) :
    (Text.lines (s.render trailingNewline)).countP (startsWith mark) =
      s.lines.countP (startsWith mark) := by
  rw [lines_render h, Text.flatMap_lines_of_notMem (unbroken_lines htexts), List.countP_append,
    countP_lastLine hmark, Nat.add_zero]

theorem head_lines_render {s : Script} (h : ∀ t ∈ s.sends, t.destination ≠ .block [])
    (trailingNewline : Bool) :
    (Text.lines (s.render trailingNewline)).head? =
      some ("// " ++ Text.firstLine s.summary) := by
  obtain ⟨rest, hrest⟩ := Text.lines_eq_cons ("// " ++ s.summary)
  rw [lines_render h, lines, List.flatMap_cons, hrest, Text.firstLine_append (by decide)]
  rfl

end Script
end LedgerScript
