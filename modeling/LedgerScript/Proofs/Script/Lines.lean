import LedgerScript.Proofs.Text.Joined
import LedgerScript.Script.Basic

/-! A script as lines and each line of a statement as words. The text of a script is its
lines joined, whatever the fields hold. -/
namespace LedgerScript
open Text (IsToken)

namespace Money

def words (m : Money) : List String := ["[" ++ m.asset, m.amount ++ "]"]

theorem render_eq_words (m : Money) : m.render = " ".intercalate m.words := by
  simp [render, words, String.append_assoc]

end Money

namespace Allowance

def words : Allowance → List String
  | .none => []
  | .unbounded => ["allowing", "unbounded", "overdraft"]
  | .upTo limit => ["allowing", "overdraft", "up", "to"] ++ limit.words

theorem render_none : Allowance.none.render = "" := rfl

theorem render_unbounded : Allowance.unbounded.render = " allowing unbounded overdraft" := rfl

theorem render_upTo (limit : Money) :
    (Allowance.upTo limit).render = " allowing overdraft up to " ++ limit.render := rfl

end Allowance

namespace Source

def words (s : Source) : List String := s.account :: s.allowance.words

theorem render_eq_words (s : Source) : s.render = " ".intercalate s.words := by
  obtain ⟨account, allowance⟩ := s
  cases allowance with
  | none => simp [render, words, Allowance.render_none, Allowance.words]
  | unbounded =>
    simp [render, words, Allowance.render_unbounded, Allowance.words, String.append_assoc]
  | upTo limit =>
    rw [← String.toList_inj]
    simp [render, words, Allowance.render_upTo, Allowance.words, Money.render, Money.words]

end Source

namespace Share

def words : Share → List String
  | .percentage text => [text]
  | .cap limit => "max" :: limit.words
  | .remaining => ["remaining"]

theorem words_ne_nil (s : Share) : s.words ≠ [] := by
  cases s <;> simp [words]

theorem render_eq_words (s : Share) : s.render = " ".intercalate s.words := by
  rw [← String.toList_inj]
  cases s with
  | percentage text => simp [render, words]
  | cap limit => simp [render, words, Money.render, Money.words]
  | remaining => simp [render, words]

end Share

namespace Allocation

/-- Four spaces in front are four empty words. -/
def words (a : Allocation) : List String := ["", "", "", ""] ++ a.share.words ++ ["to", a.target]

theorem render_eq_words (a : Allocation) : a.render = " ".intercalate a.words := by
  rw [words, String.intercalate_append_of_ne_nil (by simp) (by simp),
    String.intercalate_append_of_ne_nil (by simp) a.share.words_ne_nil, ← Share.render_eq_words,
    render, ← String.toList_inj]
  simp

end Allocation

namespace Destination

def lines : Destination → List String
  | .account address => ["  destination = " ++ address]
  | .block as => "  destination = \x7b" :: (as.map Allocation.render ++ ["  \x7d"])

theorem render_eq_lines {d : Destination} (h : d ≠ .block []) :
    "  destination = " ++ d.render = "\n".intercalate d.lines := by
  cases d with
  | account address => simp [render, lines]
  | block as =>
    have hm : as.map Allocation.render ≠ [] := by
      rintro hm
      exact h (congrArg Destination.block (List.map_eq_nil_iff.mp hm))
    rw [lines, String.intercalate_cons_of_ne_nil (by simp),
      String.intercalate_append_of_ne_nil hm (by simp), render, ← String.toList_inj]
    simp

end Destination

namespace Send

def headWords (s : Send) : List String := "send" :: (s.money.words ++ ["("])

def sourceWords (s : Send) : List String := ["", "", "source", "="] ++ s.source.words

def lines (s : Send) : List String :=
  " ".intercalate s.headWords :: " ".intercalate s.sourceWords :: (s.destination.lines ++ [")"])

theorem head_eq_words (s : Send) :
    "send " ++ s.money.render ++ " (" = " ".intercalate s.headWords := by
  rw [← String.toList_inj]
  simp [headWords, Money.render, Money.words]

theorem source_eq_words (s : Send) :
    "  source = " ++ s.source.render = " ".intercalate s.sourceWords := by
  rw [sourceWords, String.intercalate_append_of_ne_nil (by simp) (by simp [Source.words]),
    ← Source.render_eq_words, ← String.toList_inj]
  simp

theorem render_eq_lines {s : Send} (h : s.destination ≠ .block []) :
    s.render = "\n".intercalate s.lines := by
  have hd : s.destination.lines ≠ [] := by
    cases s.destination <;> simp [Destination.lines]
  rw [lines, String.intercalate_cons_of_ne_nil (by simp),
    String.intercalate_cons_of_ne_nil (by simp),
    String.intercalate_append_of_ne_nil hd (by simp), ← Destination.render_eq_lines h,
    ← head_eq_words, ← source_eq_words, render]
  simp [String.append_assoc]

end Send

namespace Script

/-- The lines after the comment. An empty line stands before each statement and before
the metadata, if there is any. -/
def bodyLines (sends : List Send) (metadata : List MetadataEntry) : List String :=
  (sends.flatMap fun t => "" :: t.lines) ++
    (if metadata = [] then [] else "" :: metadata.map MetadataEntry.render)

def lines (s : Script) : List String := ("// " ++ s.summary) :: bodyLines s.sends s.metadata

theorem bodyLines_cons (t : Send) (ts : List Send) (metadata : List MetadataEntry) :
    bodyLines (t :: ts) metadata = "" :: (t.lines ++ bodyLines ts metadata) := by
  simp [bodyLines]

end Script

/-- Blank lines between paragraphs are empty lines among all lines. -/
theorem Text.intercalate_paragraphs (p : List String) (ps : List (List String)) (hp : p ≠ [])
    (hps : ∀ q ∈ ps, q ≠ []) :
    "\n\n".intercalate ("\n".intercalate p :: ps.map fun q => "\n".intercalate q) =
      "\n".intercalate (p ++ ps.flatMap fun q => "" :: q) := by
  induction ps generalizing p with
  | nil => simp
  | cons q ps ih =>
    have hq : q ≠ [] := hps q (by simp)
    have hr := ih q hq fun r hr => hps r (List.mem_cons_of_mem q hr)
    rw [List.map_cons, String.intercalate_cons_cons, hr, List.flatMap_cons,
      String.intercalate_append_of_ne_nil hp (by simp), List.cons_append,
      String.intercalate_cons_of_ne_nil (by simp [hq]), ← String.toList_inj]
    simp

namespace Script

theorem render_eq_lines {s : Script} (h : ∀ t ∈ s.sends, t.destination ≠ .block [])
    (trailingNewline : Bool) :
    s.render trailingNewline =
      "\n".intercalate s.lines ++ (if trailingNewline then "\n" else "") := by
  have hsends : s.sends.map Send.render = (s.sends.map Send.lines).map fun q => "\n".intercalate q := by
    rw [List.map_map]
    exact List.map_congr_left fun t ht => Send.render_eq_lines (h t ht)
  have hlines : ∀ q ∈ s.sends.map Send.lines, q ≠ [] := by
    intro q hq
    obtain ⟨t, -, rfl⟩ := List.mem_map.mp hq
    simp [Send.lines]
  rw [render, blocks, lines, bodyLines, hsends]
  by_cases hm : s.metadata = []
  · have hp := Text.intercalate_paragraphs ["// " ++ s.summary] (s.sends.map Send.lines)
      (by simp) hlines
    simpa [hm, List.flatMap_map] using hp
  · have hp := Text.intercalate_paragraphs ["// " ++ s.summary]
      (s.sends.map Send.lines ++ [s.metadata.map MetadataEntry.render]) (by simp) (by
        intro q hq
        obtain hq | hq := List.mem_append.mp hq
        · exact hlines q hq
        · simp only [List.mem_singleton] at hq
          simpa [hq] using hm)
    simpa [hm, List.flatMap_map, List.flatMap_append] using hp

end Script
end LedgerScript
