import LedgerScript.Proofs.Compilation.Strictness

/-! Compiling in parts. What becomes of a list of postings follows from what becomes of its
two halves: the second half goes on where the first one ends, in the text of the script and
in the numbers by which postings are called. -/
namespace LedgerScript
open AmountMode (mixWarning)

namespace Text

def Closes (s : String) : Prop := ∃ front, s = front ++ ")"

theorem Closes.append (s : String) {t : String} (h : Closes t) : Closes (s ++ t) := by
  obtain ⟨front, rfl⟩ := h
  exact ⟨s ++ front, by rw [String.append_assoc]⟩

theorem closes_intercalate {sep : String} {xs : List String} (hne : xs ≠ [])
    (h : ∀ x ∈ xs, Closes x) : Closes (sep.intercalate xs) := by
  induction xs with
  | nil => exact absurd rfl hne
  | cons x xs ih =>
    by_cases hxs : xs = []
    · rw [hxs, String.intercalate_singleton]
      exact h x (by simp)
    · rw [String.intercalate_cons_of_ne_nil hxs]
      exact (ih hxs fun y hy => h y (List.mem_cons_of_mem x hy)).append _

end Text

theorem Send.closes_render (s : Send) : Text.Closes s.render := by
  have hlast : Text.Closes ")" := ⟨"", rfl⟩
  simp only [render, String.intercalate_cons_cons, String.intercalate_singleton]
  exact ((hlast.append _).append _).append _

theorem MetadataEntry.closes_render (e : MetadataEntry) : Text.Closes e.render := by
  have hlast : Text.Closes "\")" := ⟨"\"", rfl⟩
  exact hlast.append _

namespace Script

def ending (trailingNewline : Bool) : String := if trailingNewline then "\n" else ""

def body (s : Script) : String := "\n\n".intercalate s.blocks

theorem render_eq_body (s : Script) (trailingNewline : Bool) :
    s.render trailingNewline = s.body ++ ending trailingNewline := rfl

def statements (sends : List Send) : String := "\n\n".intercalate (sends.map Send.render)

theorem body_eq_statements (summary : String) {sends : List Send} (h : sends ≠ []) :
    (Script.mk summary sends []).body = "// " ++ summary ++ "\n\n" ++ statements sends := by
  have hne : sends.map Send.render ≠ [] := by simpa using h
  simp only [body, blocks, if_true, List.append_nil]
  exact String.intercalate_cons_of_ne_nil hne

theorem statements_append {ss ts : List Send} (hs : ss ≠ []) (ht : ts ≠ []) :
    statements (ss ++ ts) = statements ss ++ "\n\n" ++ statements ts := by
  rw [statements, List.map_append]
  exact String.intercalate_append_of_ne_nil (by simpa using hs) (by simpa using ht)

/-- More statements follow after a blank line, without a comment of their own. -/
theorem body_append (summary : String) {ss ts : List Send} (hs : ss ≠ []) (ht : ts ≠ []) :
    (Script.mk summary (ss ++ ts) []).body =
      (Script.mk summary ss []).body ++ "\n\n" ++ statements ts := by
  have hst : ss ++ ts ≠ [] := by simp [hs]
  rw [body_eq_statements summary hst, body_eq_statements summary hs, statements_append hs ht]
  simp only [String.append_assoc]

def gap (metadata : List MetadataEntry) : String := if metadata = [] then "\n\n" else "\n"

def metadataLines (es : List MetadataEntry) : String := "\n".intercalate (es.map MetadataEntry.render)

theorem metadataLines_append {ds es : List MetadataEntry} (hd : ds ≠ []) (he : es ≠ []) :
    metadataLines (ds ++ es) = metadataLines ds ++ "\n" ++ metadataLines es := by
  rw [metadataLines, List.map_append]
  exact String.intercalate_append_of_ne_nil (by simpa using hd) (by simpa using he)

theorem body_metadata (summary : String) (sends : List Send) {es : List MetadataEntry}
    (h : es ≠ []) :
    (Script.mk summary sends es).body =
      (Script.mk summary sends []).body ++ "\n\n" ++ metadataLines es := by
  simp only [body, blocks, if_neg h, if_true, List.append_nil]
  rw [String.intercalate_append_of_ne_nil (by simp) (by simp), String.intercalate_singleton]
  rfl

/-- Further metadata goes to the end and touches nothing before it. -/
theorem body_append_metadata (summary : String) (sends : List Send)
    (ds : List MetadataEntry) {es : List MetadataEntry} (h : es ≠ []) :
    (Script.mk summary sends (ds ++ es)).body =
      (Script.mk summary sends ds).body ++ gap ds ++ metadataLines es := by
  by_cases hd : ds = []
  · rw [hd, List.nil_append]
    exact body_metadata summary sends h
  · have hne : ds ++ es ≠ [] := by simp [hd]
    rw [body_metadata summary sends hne, body_metadata summary sends hd,
      metadataLines_append hd h, gap, if_neg hd]
    simp only [String.append_assoc]

theorem closes_body {s : Script} (h : s.sends ≠ []) : Text.Closes s.body := by
  obtain ⟨summary, sends, metadata⟩ := s
  by_cases hm : metadata = []
  · rw [hm, body_eq_statements summary h]
    refine (Text.closes_intercalate (by simpa using h) fun x hx => ?_).append _
    obtain ⟨t, _, rfl⟩ := List.mem_map.mp hx
    exact t.closes_render
  · rw [body_metadata summary sends hm]
    refine (Text.closes_intercalate (by simpa using hm) fun x hx => ?_).append _
    obtain ⟨e, _, rfl⟩ := List.mem_map.mp hx
    exact e.closes_render

end Script

theorem AmountMode.conflictWarnings_elsewhere {i : Nat} {strict : Bool} {modes : List AmountMode}
    {ws : List Warning} (h : conflictWarnings (Int.ofNat i) strict modes = .ok ws) (j : Nat) :
    ∃ vs, conflictWarnings (Int.ofNat j) strict modes = .ok vs := by
  apply exists_conflictWarnings
  rintro ⟨hstrict, hmodes⟩
  rw [conflictWarnings_eq, if_pos hmodes, if_pos hstrict] at h
  cases h

theorem SplitRule.block_elsewhere {asset : String} {i : Nat} {strict : Bool}
    {rules : List SplitRule} {d : Destination} {ws : List Warning}
    (h : block asset (Int.ofNat i) strict rules = .ok (d, ws)) (j : Nat) :
    ∃ vs, block asset (Int.ofNat j) strict rules = .ok (d, vs) := by
  obtain ⟨as, hws, hlines, rfl⟩ := block_eq_ok h
  obtain ⟨vs, hvs⟩ := AmountMode.conflictWarnings_elsewhere hws j
  refine ⟨vs, ?_⟩
  simp only [block, hvs, (mapM_eq_ok_iff _ _ _).mpr hlines]
  rfl

namespace Posting

/-- A statement does not depend on the place of its posting, only the warning does. -/
theorem toSend_elsewhere {p : Posting} {strict : Bool} {i : Nat} {s : Send} {ws : List Warning}
    (h : p.toSend (Int.ofNat i) strict = .ok (s, ws)) (j : Nat) :
    ∃ vs, p.toSend (Int.ofNat j) strict = .ok (s, vs) := by
  obtain ⟨hmoney, hsource, hd⟩ := toSend_eq_ok h
  have hdefect : p.defect? = none := by
    cases hdefect : p.defect? with
    | none => rfl
    | some d => cases (destination_of_defect hdefect (Int.ofNat i) strict).symm.trans hd
  have hdest : ∃ vs, p.destination (Int.ofNat j) strict = .ok (s.destination, vs) := by
    obtain ⟨_, a, ha⟩ | ⟨_, hblock⟩ := destination_of_no_defect hdefect
    · rw [ha] at hd
      exact ⟨ws, (ha (Int.ofNat j) strict).trans hd⟩
    · rw [hblock] at hd ⊢
      exact SplitRule.block_elsewhere hd j
  obtain ⟨vs, hvs⟩ := hdest
  refine ⟨vs, ?_⟩
  rw [toSend, hvs]
  simp only [Except.map, ← hmoney, ← hsource]

theorem toSends_elsewhere {strict : Bool} {i : Nat} {ps : List Posting} {ss : List Send}
    {ws : List Warning} (h : toSends strict i ps = .ok (ss, ws)) (j : Nat) :
    toSends strict j ps = .ok (ss, mixWarnings j ps) := by
  have hsome : ∃ vs, toSends strict j ps = .ok (ss, vs) := by
    induction ps generalizing i j ss ws with
    | nil =>
      cases h
      exact ⟨[], rfl⟩
    | cons p ps ih =>
      obtain ⟨s, _, ts, _, hp, hps, rfl, _⟩ := gather_cons_eq_ok h
      obtain ⟨us, hus⟩ := toSend_elsewhere hp j
      obtain ⟨vs, hvs⟩ := ih hps (j + 1)
      refine ⟨us ++ vs, ?_⟩
      rw [toSends] at hvs ⊢
      simp only [gather, hus, hvs, Except.map]
  obtain ⟨vs, hvs⟩ := hsome
  rw [hvs, warnings_of_toSends hvs]

/-- Counted from another number on, the warnings are about as many postings further on. -/
theorem exists_mixWarnings_eq (ps : List Posting) :
    ∃ js : List Nat, ∀ i, mixWarnings i ps = js.map fun j => mixWarning (i + j) := by
  induction ps with
  | nil => exact ⟨[], fun i => rfl⟩
  | cons p ps ih =>
    obtain ⟨js, hjs⟩ := ih
    refine ⟨(if p.Mixed then [0] else []) ++ js.map (1 + ·), fun i => ?_⟩
    rw [mixWarnings_cons, hjs]
    by_cases hp : p.Mixed <;> simp [hp, Nat.add_assoc]

end Posting

theorem not_fault_of_compile {settings : CompilerSettings} {intent : Intent} {r : Compiled}
    (h : (compile settings intent).outcome = .ok r) :
    ∀ p ∈ intent.postings, p.fault? settings.strictSplitModes = none := by
  intro p hp
  cases hfault : p.fault? settings.strictSplitModes with
  | none => rfl
  | some fault =>
    obtain ⟨e, he⟩ := compile_fails_of_fault hp hfault
    cases he.symm.trans h

/-- A result that is `a` and then `b`, both of which have the same summary: after a blank
line the script goes on as that of `b` does after its comment, and what is said of a posting
of `b` is said of the one that stands `n` places further on. -/
structure Compiled.Joins (summary : String) (trailingNewline : Bool) (n : Nat)
    (a b c : Compiled) : Prop where
  script : ∃ first second, a.script = first ++ Script.ending trailingNewline ∧
    b.script = "// " ++ summary ++ "\n\n" ++ second ++ Script.ending trailingNewline ∧
    c.script = first ++ "\n\n" ++ second ++ Script.ending trailingNewline
  warnings : ∃ js : List Nat, b.warnings = js.map mixWarning ∧
    c.warnings = a.warnings ++ js.map fun j => mixWarning (n + j)
  postingCount : c.postingCount = a.postingCount + b.postingCount
  metadataCount : c.metadataCount = a.metadataCount + b.metadataCount

section Halves
variable {settings : CompilerSettings} {summary : String} {ps qs : List Posting}
  {ms ns : List MetadataEntry}

theorem compile_append_of_first_fails (ks : List MetadataEntry) (hps : ps ≠ []) {e : Failure}
    (h : (compile settings ⟨summary, ps, ms⟩).outcome = .error e) :
    (compile settings ⟨summary, ps ++ qs, ks⟩).outcome = .error e := by
  obtain ⟨before, p, after, fault, hpostings, hbefore, hp, rfl⟩ :=
    exists_first_of_compile_eq_error hps h
  obtain rfl : ps = before ++ p :: after := hpostings
  have hwhole : before ++ p :: after ++ qs = before ++ p :: (after ++ qs) := by simp
  exact compile_of_first hwhole hbefore hp

theorem compile_append_of_second_fails (ks : List MetadataEntry) (hqs : qs ≠ []) {a : Compiled}
    {e : Failure}
    (ha : (compile settings ⟨summary, ps, ms⟩).outcome = .ok a)
    (h : (compile settings ⟨summary, qs, ns⟩).outcome = .error e) :
    ∃ j < qs.length, ∃ fault : Posting.Fault, e = fault.failure j ∧
      (compile settings ⟨summary, ps ++ qs, ks⟩).outcome =
        .error (fault.failure (ps.length + j)) := by
  obtain ⟨before, p, after, fault, hpostings, hbefore, hp, rfl⟩ :=
    exists_first_of_compile_eq_error hqs h
  obtain rfl : qs = before ++ p :: after := hpostings
  have hclean : ∀ q ∈ ps ++ before, q.fault? settings.strictSplitModes = none := by
    intro q hq
    obtain hq | hq := List.mem_append.mp hq
    · exact not_fault_of_compile ha q hq
    · exact hbefore q hq
  have hwhole : ps ++ (before ++ p :: after) = (ps ++ before) ++ p :: after := by simp
  refine ⟨before.length, by simp, fault, rfl, ?_⟩
  rw [← List.length_append]
  exact compile_of_first hwhole hclean hp

theorem compile_append_of_both {a b : Compiled}
    (ha : (compile settings ⟨summary, ps, []⟩).outcome = .ok a)
    (hb : (compile settings ⟨summary, qs, []⟩).outcome = .ok b) :
    ∃ c, (compile settings ⟨summary, ps ++ qs, []⟩).outcome = .ok c ∧
      Compiled.Joins summary settings.trailingNewline ps.length a b c := by
  obtain ⟨ss, hss, hspos, hsn, hsm, hsscript⟩ := compile_eq_ok ha
  obtain ⟨ts, hts, htpos, htn, htm, htscript⟩ := compile_eq_ok hb
  have hs : ss ≠ [] := List.length_pos_iff.mp hspos
  have ht : ts ≠ [] := List.length_pos_iff.mp htpos
  have hsends : Posting.toSends settings.strictSplitModes 0 (ps ++ qs) =
      .ok (ss ++ ts, a.warnings ++ Posting.mixWarnings ps.length qs) := by
    have hlater := Posting.toSends_elsewhere hts (0 + ps.length)
    rw [Posting.toSends] at hss hlater ⊢
    rw [gather_append, hss, Except.bind, hlater, Nat.zero_add]
    rfl
  have hpos : 1 ≤ (ss ++ ts).length := by
    rw [List.length_append]
    omega
  obtain ⟨js, hjs⟩ := Posting.exists_mixWarnings_eq qs
  refine ⟨_, by rw [compile, outcome_assemble, hsends]; exact if_pos hpos, ?_⟩
  constructor
  case script =>
    refine ⟨(Script.mk summary ss []).body, Script.statements ts, hsscript, ?_, ?_⟩
    · rw [htscript, Script.render_eq_body, Script.body_eq_statements summary ht]
    · rw [Script.render_eq_body, Script.body_append summary hs ht]
  case warnings =>
    refine ⟨js, ?_, ?_⟩
    · rw [warnings_of_compile hb, hjs]
      simp
    · rw [hjs]
  case postingCount => rw [hsn, htn, List.length_append]
  case metadataCount => rw [hsm, htm]; rfl

end Halves

/-- Metadata adds lines after the last statement, and changes nothing but their count. -/
theorem compile_append_metadata {settings : CompilerSettings} {intent : Intent} {a : Compiled}
    (h : (compile settings intent).outcome = .ok a) {es : List MetadataEntry} (hes : es ≠ []) :
    ∃ body, a.script = body ++ Script.ending settings.trailingNewline ∧
      (compile settings { intent with metadata := intent.metadata ++ es }).outcome =
        .ok { a with
          script := body ++ Script.gap intent.metadata ++ Script.metadataLines es ++
            Script.ending settings.trailingNewline
          metadataCount := a.metadataCount + es.length } := by
  obtain ⟨ss, hss, hpos, hn, hm, hscript⟩ := compile_eq_ok h
  refine ⟨(Script.mk intent.summary ss intent.metadata).body, hscript, ?_⟩
  rw [compile, outcome_assemble, hss]
  dsimp only [Except.bind]
  rw [Compiled.make, if_pos hpos, Script.render_eq_body, Script.body_append_metadata _ _ _ hes, hn,
    hm, List.length_append]

theorem closes_of_compile {settings : CompilerSettings} {intent : Intent} {r : Compiled}
    (h : (compile settings intent).outcome = .ok r) :
    ∃ front, r.script = front ++ ")" ++ Script.ending settings.trailingNewline := by
  obtain ⟨ss, _, hpos, _, _, hscript⟩ := compile_eq_ok h
  have hclosed : Text.Closes (Script.mk intent.summary ss intent.metadata).body :=
    Script.closes_body (List.length_pos_iff.mp hpos)
  obtain ⟨front, hfront⟩ := hclosed
  exact ⟨front, by rw [hscript, Script.render_eq_body, hfront]⟩

/-- Postings are compiled in their order and one after the other. A fault in the first half
decides; one in the second is reported as before, at a place as much further on as the
first half is long; without a fault the results join. Metadata only adds its lines, and the
last sign of a script is always a parenthesis, before the ending that the settings ask for. -/
theorem compile_append (settings : CompilerSettings) (summary : String) {ps qs : List Posting}
    (hps : ps ≠ []) (hqs : qs ≠ []) :
    (∀ ms ks e, (compile settings ⟨summary, ps, ms⟩).outcome = .error e →
      (compile settings ⟨summary, ps ++ qs, ks⟩).outcome = .error e) ∧
    (∀ ms ns ks a e, (compile settings ⟨summary, ps, ms⟩).outcome = .ok a →
      (compile settings ⟨summary, qs, ns⟩).outcome = .error e →
      ∃ j < qs.length, ∃ (fault : Posting.Fault) (e' : Failure), fault.Reported j e ∧
        (compile settings ⟨summary, ps ++ qs, ks⟩).outcome = .error e' ∧
        fault.Reported (ps.length + j) e') ∧
    (∀ a b, (compile settings ⟨summary, ps, []⟩).outcome = .ok a →
      (compile settings ⟨summary, qs, []⟩).outcome = .ok b →
      ∃ c, (compile settings ⟨summary, ps ++ qs, []⟩).outcome = .ok c ∧
        Compiled.Joins summary settings.trailingNewline ps.length a b c) ∧
    (∀ (intent : Intent) a es, (compile settings intent).outcome = .ok a → es ≠ [] →
      ∃ body, a.script = body ++ Script.ending settings.trailingNewline ∧
        (compile settings { intent with metadata := intent.metadata ++ es }).outcome =
          .ok { a with
            script := body ++ Script.gap intent.metadata ++ Script.metadataLines es ++
              Script.ending settings.trailingNewline
            metadataCount := a.metadataCount + es.length }) ∧
    ∀ intent r, (compile settings intent).outcome = .ok r →
      ∃ front, r.script = front ++ ")" ++ Script.ending settings.trailingNewline := by
  refine ⟨fun ms ks e => compile_append_of_first_fails ks hps, ?_,
    fun a b => compile_append_of_both, fun intent a es h => compile_append_metadata h,
    fun intent r => closes_of_compile⟩
  intro ms ns ks a e ha he
  obtain ⟨j, hj, fault, rfl, hfails⟩ := compile_append_of_second_fails ks hqs ha he
  exact ⟨j, hj, fault, _, fault.reported_failure j, hfails, fault.reported_failure _⟩

/-- Rules that are mixed, which count only if the posting is a split. -/
def Posting.sample (kind : DestinationKind) : Posting :=
  ⟨"users:1", .none, none, kind, some "shop",
    some [⟨"b", .max, "100"⟩, ⟨"c", .fraction, "50%"⟩], "USD/2", "900"⟩

theorem compile_append_sample :
    [Posting.sample .simple] ≠ [] ∧ [Posting.sample .split] ≠ [] ∧
    (∃ a b c, (compile ⟨false, true⟩ ⟨"Pay", [.sample .simple], []⟩).outcome = .ok a ∧
      (compile ⟨false, true⟩ ⟨"Pay", [.sample .split], []⟩).outcome = .ok b ∧
      (compile ⟨false, true⟩ ⟨"Pay", [.sample .simple, .sample .split], []⟩).outcome = .ok c ∧
      Compiled.Joins "Pay" true 1 a b c) ∧
    ∃ (fault : Posting.Fault) (e : Failure),
      (compile ⟨true, true⟩ ⟨"Pay", [.sample .simple, .sample .split], []⟩).outcome = .error e ∧
      fault.Reported 1 e := by
  have hps : [Posting.sample .simple] ≠ [] := by decide
  have hqs : [Posting.sample .split] ≠ [] := by decide
  refine ⟨hps, hqs, ?_, ?_⟩
  · obtain ⟨_, _, hjoins, _⟩ := compile_append ⟨false, true⟩ "Pay" hps hqs
    obtain ⟨c, hc, hj⟩ := hjoins _ _ rfl rfl
    exact ⟨_, _, c, rfl, rfl, hc, hj⟩
  · obtain ⟨_, hfails, _⟩ := compile_append ⟨true, true⟩ "Pay" hps hqs
    obtain ⟨j, hj, fault, e, _, he, hreported⟩ := hfails [] [] [] _ _ rfl rfl
    obtain rfl : j = 0 := Nat.lt_one_iff.mp hj
    exact ⟨fault, e, he, hreported⟩

end LedgerScript
