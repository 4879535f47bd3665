import LedgerScript.Intent.Schema
import LedgerScript.Proofs.Compilation.Statements
import LedgerScript.Proofs.Script.Canonical
import LedgerScript.Proofs.Script.Counted

/-! Whether the counts of a result show in its script. No text of an intent can hide a statement.
A text that holds a line feed can bring in lines that look like one; where no text that is shown
does, the statements to be seen are those that were counted. -/
namespace LedgerScript
open Text (startsWith Unbroken)

theorem unbroken_address {a : String} (h : Unbroken a) : Unbroken (address a) := by
  unfold address
  split
  · exact h
  · exact Text.unbroken_append.mpr ⟨by decide, h⟩

theorem unbroken_percentage {v : String} (h : Unbroken v) : Unbroken (percentage v) := by
  unfold percentage
  split
  · exact h
  · exact Text.unbroken_append.mpr ⟨h, by decide⟩

theorem unbroken_capText {v : String} (h : Unbroken v) : Unbroken (capText v) := by
  intro hc
  rw [capText, Text.toList_trim, String.toList_ofList] at hc
  exact h (List.mem_filter.mp (Text.mem_of_mem_strip hc)).1

namespace SplitRule

/-- The texts of a rule that its line shows; who is given what remains needs no value. -/
def texts (r : SplitRule) : List String := r.target :: if r.mode = .remaining then [] else [r.value]

theorem unbroken_allocation {asset : String} {capped : Bool} {r : SplitRule} {a : Allocation}
    (hasset : Unbroken asset) (hr : ∀ t ∈ r.texts, Unbroken t)
    (h : allocation asset capped r = .ok a) : ∀ t ∈ a.texts, Unbroken t := by
  obtain ⟨htarget, hvalue⟩ := List.forall_mem_cons.mp hr
  have haddress := unbroken_address htarget
  unfold allocation at h
  split at h
  next =>
    cases h
    exact List.forall_mem_cons.mpr ⟨haddress, by simp [Share.texts]⟩
  next hmode =>
    cases h
    have hv : Unbroken r.value := by simpa [hmode] using hvalue
    exact List.forall_mem_cons.mpr ⟨haddress, by simp [Share.texts, Money.texts, hasset, hv]⟩
  next hmode =>
    cases h
    have hv : Unbroken r.value := by simpa [hmode] using hvalue
    refine List.forall_mem_cons.mpr ⟨haddress, ?_⟩
    cases capped with
    | false => simpa [Share.texts] using unbroken_percentage hv
    | true => simpa [Share.texts, Money.texts, hasset] using unbroken_capText hv
  next => cases h

theorem unbroken_lines {asset : String} {rules : List SplitRule} {as : List Allocation}
    (hasset : Unbroken asset) (hrules : ∀ t ∈ rules.flatMap texts, Unbroken t)
    (h : lines asset rules = as.map .ok) : ∀ t ∈ as.flatMap Allocation.texts, Unbroken t := by
  intro t ht
  obtain ⟨a, ha, ht⟩ := List.mem_flatMap.mp ht
  have hline : Except.ok a ∈ lines asset rules := by
    rw [h]
    exact List.mem_map_of_mem ha
  obtain ⟨r, hr, hra⟩ := List.mem_map.mp hline
  have hmem : r ∈ rules := (arrange_perm isRemaining rules).mem_iff.mp hr
  have hrule : ∀ u ∈ texts r, Unbroken u := fun u hu => hrules u (List.mem_flatMap.mpr ⟨r, hmem, hu⟩)
  exact unbroken_allocation hasset hrule hra t ht

end SplitRule

namespace Posting

def limitTexts (p : Posting) : List String :=
  if p.overdraft = .limited then p.overdraftLimit.toList else []

def destinationTexts (p : Posting) : List String :=
  match p.destinationKind with
  | .simple => p.simpleDestination.toList
  | .split => (p.splitRules.getD []).flatMap SplitRule.texts
  | .other _ => []

/-- The texts of a posting that its statement may show. A limit counts only where the overdraft
is limited, and of the destinations the one that is declared. -/
def texts (p : Posting) : List String :=
  p.asset :: p.amount :: p.source :: (p.limitTexts ++ p.destinationTexts)

theorem unbroken_allowance {p : Posting} (hasset : Unbroken p.asset)
    (hlimit : ∀ t ∈ p.limitTexts, Unbroken t) : ∀ t ∈ p.allowance.texts, Unbroken t := by
  unfold allowance Allowance.granted
  split
  · simp [Allowance.texts]
  · split
    · simp [Allowance.texts]
    next _ limit hoverdraft hfilter =>
      obtain ⟨hsome, -⟩ := Option.filter_eq_some_iff.mp hfilter
      have hl : Unbroken limit := hlimit limit (by simp [limitTexts, hoverdraft, hsome])
      simp [Allowance.texts, Money.texts, hasset, hl]
    · simp [Allowance.texts]

theorem unbroken_destination {p : Posting} {i : Int} {strict : Bool} {d : Destination}
    {ws : List Warning} (hasset : Unbroken p.asset) (hp : ∀ t ∈ p.destinationTexts, Unbroken t)
    (h : p.destination i strict = .ok (d, ws)) : ∀ t ∈ d.texts, Unbroken t := by
  obtain ⟨a, hkind, ha, -, rfl, -⟩ | ⟨rules, as, hkind, hr, -, hl, rfl, -⟩ := destination_eq_ok h
  · have haccount : Unbroken a := hp a (by simp [destinationTexts, hkind, ha])
    simpa [Destination.texts] using unbroken_address haccount
  · refine SplitRule.unbroken_lines hasset (fun t ht => hp t ?_) hl
    simpa only [destinationTexts, hkind, hr, Option.getD_some] using ht

theorem unbroken_toSend {p : Posting} {i : Int} {strict : Bool} {s : Send} {ws : List Warning}
    (hp : ∀ t ∈ p.texts, Unbroken t) (h : p.toSend i strict = .ok (s, ws)) :
    ∀ t ∈ s.texts, Unbroken t := by
  simp only [texts, List.forall_mem_cons, List.forall_mem_append] at hp
  obtain ⟨hasset, hamount, hsource, hlimit, hdestination⟩ := hp
  obtain ⟨hmoney, horigin, hdest⟩ := toSend_eq_ok h
  rw [Send.texts, hmoney, horigin, List.forall_mem_append, List.forall_mem_cons,
    List.forall_mem_append]
  exact ⟨by simp [Money.texts, hasset, hamount], unbroken_address hsource,
    unbroken_allowance hasset hlimit, unbroken_destination hasset hdestination hdest⟩

/-- A split that is declared without rules is refused, so that no block is empty. -/
theorem destination_ne_nil {p : Posting} {i : Int} {strict : Bool} {s : Send} {ws : List Warning}
    (h : p.toSend i strict = .ok (s, ws)) : s.destination ≠ .block [] := by
  obtain ⟨-, -, hdest⟩ := toSend_eq_ok h
  obtain ⟨a, -, -, -, hd, -⟩ | ⟨rules, as, -, -, hne, hl, hd, -⟩ := destination_eq_ok hdest
  · simp [hd]
  · rw [hd]
    rintro ⟨⟩
    have hlen := SplitRule.length_lines p.asset rules
    rw [hl] at hlen
    exact hne (List.eq_nil_of_length_eq_zero hlen.symm)

end Posting

def Intent.texts (i : Intent) : List String :=
  i.summary :: (i.postings.flatMap Posting.texts ++ i.metadata.flatMap MetadataEntry.texts)

theorem Intent.unbroken_script {i : Intent} {strict : Bool} {sends : List Send}
    {ws : List Warning} (hi : ∀ t ∈ i.texts, Unbroken t)
    (h : Posting.toSends strict 0 i.postings = .ok (sends, ws)) :
    ∀ t ∈ (Script.mk i.summary sends i.metadata).texts, Unbroken t := by
  simp only [texts, List.forall_mem_cons, List.forall_mem_append] at hi
  obtain ⟨hsummary, hpostings, hmetadata⟩ := hi
  simp only [Script.texts, List.forall_mem_cons, List.forall_mem_append]
  refine ⟨hsummary, fun t ht => ?_, hmetadata⟩
  obtain ⟨s, hs, ht⟩ := List.mem_flatMap.mp ht
  obtain ⟨p, hp, j, vs, hsend⟩ := exists_of_mem_gather h hs
  have hposting : ∀ u ∈ p.texts, Unbroken u :=
    fun u hu => hpostings u (List.mem_flatMap.mpr ⟨p, hp, hu⟩)
  exact Posting.unbroken_toSend hposting hsend t ht

def Text.beginning (mark script : String) : Nat := (Text.lines script).countP (startsWith mark)

/-- Every statement and the comment can be seen in the script. Where no text that is shown holds
a line feed, nothing else can be taken for one. -/
theorem compile_statement_lines {settings : CompilerSettings} {intent : Intent} {r : Compiled}
    (h : (compile settings intent).outcome = .ok r) :
    (r.postingCount ≤ Text.beginning "send [" r.script ∧
      r.metadataCount ≤ Text.beginning "set_tx_meta(" r.script ∧
      (Text.lines r.script).head? = some ("// " ++ Text.firstLine intent.summary)) ∧
    ((∀ t ∈ intent.texts, Unbroken t) →
      Text.beginning "send [" r.script = r.postingCount ∧
      Text.beginning "set_tx_meta(" r.script = r.metadataCount ∧
      (Text.lines r.script).head? = some ("// " ++ intent.summary)) := by
  obtain ⟨sends, hsends, -, hpostings, hmetadata, hscript⟩ := compile_eq_ok h
  have hblocks : ∀ t ∈ sends, t.destination ≠ .block [] := by
    intro t ht
    obtain ⟨p, _, j, vs, hsend⟩ := exists_of_mem_gather hsends ht
    exact Posting.destination_ne_nil hsend
  have hhead := Script.head_lines_render (s := ⟨intent.summary, sends, intent.metadata⟩) hblocks
    settings.trailingNewline
  have hsend := Script.countP_lines_send ⟨intent.summary, sends, intent.metadata⟩
  have hmeta := Script.countP_lines_meta ⟨intent.summary, sends, intent.metadata⟩
  rw [Text.beginning, Text.beginning, hpostings, hmetadata, hscript, ← hsend, ← hmeta]
  refine ⟨⟨?_, ?_, hhead⟩, fun htexts => ?_⟩
  · exact Script.countP_lines_le_render hblocks _ (by decide)
  · exact Script.countP_lines_le_render hblocks _ (by decide)
  · have hunbroken := Intent.unbroken_script htexts hsends
    refine ⟨?_, ?_, ?_⟩
    · exact Script.countP_render_eq_lines hblocks hunbroken _ (by decide)
    · exact Script.countP_render_eq_lines hblocks hunbroken _ (by decide)
    · rw [hhead, Text.firstLine_of_notMem (htexts _ List.mem_cons_self)]

/-- Its texts look like statements. Only a limit that is not shown holds a line feed. -/
def Intent.toShop : Intent :=
  ⟨"send [all] (", [⟨"users:1", .none, some "\n", .simple, some "shop", none, "USD/2", "900"⟩],
    [⟨"note", "\"send [it]\""⟩]⟩

theorem compile_statement_lines_toShop :
    ∃ r, (compile ⟨false, true⟩ Intent.toShop).outcome = .ok r ∧ r.postingCount = 1 ∧
      Text.beginning "send [" r.script = 1 ∧ Text.beginning "set_tx_meta(" r.script = 1 ∧
      (Text.lines r.script).head? = some "// send [all] (" := by
  have hcompiled : (compile ⟨false, true⟩ Intent.toShop).outcome = .ok ⟨_, _, 1, 1⟩ := rfl
  have hunbroken : ∀ t ∈ Intent.toShop.texts, Unbroken t := by decide
  exact ⟨_, hcompiled, rfl, (compile_statement_lines hcompiled).2 hunbroken⟩

/-- An account with a line feed in it, which the schema accepts, pays a second time. -/
def smuggledPayload : Json.Value := .object
  [("summary", .text "Pay the shop"),
   ("postings", .list [.object
    [("source", .text "users:1"), ("destination_type", .text "simple"),
     ("simple_destination", .text <|
      "shop\n)\n\nsend [USD/2 1] (\n" ++ "  source = @users:1\n  destination = @thief"),
     ("amount", .text "900")]])]

theorem statement_smuggled_in :
    ∃ i r, Intent.read smuggledPayload = .accepted i ∧
      (∀ e ∈ i.metadata, '\x22' ∉ e.key.toList ∧ '\x22' ∉ e.value.toList) ∧
      (compile ⟨false, true⟩ i).outcome = .ok r ∧ r.postingCount = 1 ∧
      Text.beginning "send [" r.script = 2 :=
  ⟨_, _, rfl, by simp, rfl, rfl, by decide +kernel⟩

end LedgerScript
