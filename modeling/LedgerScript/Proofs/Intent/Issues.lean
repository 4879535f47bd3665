import LedgerScript.Intent.Schema
import LedgerScript.Proofs.Schema.Locality

/-! The issues of a payload. Every line names another place, the places come in the order in
which the fields are declared, and an item of a list answers for its own place alone. -/
namespace LedgerScript
open Json (Value Fields)
open Schema

namespace Intent

def declarations : List (List String) :=
  [["summary", "postings", "metadata"],
   ["source", "source_overdraft", "overdraft_limit", "destination_type", "simple_destination",
    "split_rules", "asset", "amount"],
   ["target", "amount_mode", "value"],
   ["key", "value"]]

theorem nodup_of_mem_declarations : ∀ names ∈ declarations, names.Nodup := by decide

theorem plain_of_mem_declarations :
    ∀ names ∈ declarations, ∀ name ∈ names, (Step.field name).Plain := by decide

end Intent

theorem SplitRule.orderly_read : SplitRule.read.Orderly Intent.declarations :=
  Reader.orderly_record (fun fs =>
    ((Fielded.required Reader.orderly_text (by decide) fs).map _
      |>.seq (.required (Reader.orderly_oneOf _) (by decide) fs) (by decide)
      |>.seq (.optional Reader.orderly_text _ (by decide) fs) (by decide))) _

theorem Posting.orderly_read : Posting.read.Orderly Intent.declarations :=
  Reader.orderly_record (fun fs =>
    ((Fielded.required Reader.orderly_text (by decide) fs).map _
      |>.seq (.optional (Reader.orderly_oneOf _) _ (by decide) fs) (by decide)
      |>.seq (.optional Reader.orderly_text.nullable _ (by decide) fs) (by decide)
      |>.seq (.required (Reader.orderly_oneOf _) (by decide) fs) (by decide)
      |>.seq (.optional Reader.orderly_text.nullable _ (by decide) fs) (by decide)
      |>.seq (.optional SplitRule.orderly_read.list.nullable _ (by decide) fs) (by decide)
      |>.seq (.optional Reader.orderly_text _ (by decide) fs) (by decide)
      |>.seq (.required Reader.orderly_text (by decide) fs) (by decide))) _

theorem MetadataEntry.orderly_read : MetadataEntry.read.Orderly Intent.declarations :=
  Reader.orderly_record (fun fs =>
    ((Fielded.required Reader.orderly_text (by decide) fs).map _
      |>.seq (.required Reader.orderly_text (by decide) fs) (by decide))) _

theorem Intent.orderly_read : Intent.read.Orderly Intent.declarations :=
  Reader.orderly_record (fun fs =>
    ((Fielded.required Reader.orderly_text (by decide) fs).map _
      |>.seq (.required Posting.orderly_read.nonemptyList (by decide) fs) (by decide)
      |>.seq (.optional MetadataEntry.orderly_read.list _ (by decide) fs) (by decide))) _

namespace Intent

theorem plain_of_mem_issues {payload : Value} {i : Issue} (hi : i ∈ (read payload).issues) :
    i.path.Plain := by
  intro s hs
  cases s with
  | field name =>
    obtain ⟨names, hnames, hname⟩ := (orderly_read payload).declared i hi name hs
    exact plain_of_mem_declarations names hnames name hname
  | item j => trivial

theorem linePlace_of_mem_issues {payload : Value} {i : Issue} (hi : i ∈ (read payload).issues) :
    linePlace (i.line "intent") = i.place "intent" :=
  Issue.linePlace_line (by decide) (plain_of_mem_issues hi)

theorem map_linePlace_inspect (payload : Value) :
    (inspect payload).2.map linePlace = (read payload).issues.map (Issue.place "intent") := by
  rw [inspect, issueLines, List.map_map]
  exact List.map_congr_left fun i hi => linePlace_of_mem_issues hi

theorem nodup_linePlace_inspect (payload : Value) :
    ((inspect payload).2.map linePlace).Nodup := by
  rw [map_linePlace_inspect, List.Nodup, List.pairwise_map]
  refine (orderly_read payload).ordered.imp_of_mem fun {i j} hi hj hij heq => ?_
  have hne : i.path ≠ j.path := hij.ne nodup_of_mem_declarations
  obtain ⟨ni, nj⟩ := hij.ne_nil
  rw [Issue.place, Issue.place, if_neg ni, if_neg nj] at heq
  exact hne (Path.text_inj (plain_of_mem_issues hi) (plain_of_mem_issues hj) ni nj heq)

theorem text_item (name : String) (i : Nat) :
    Path.text [.field name, .item i] = name ++ "." ++ Decimal.natText i := by
  rfl

-- The name for the whole value is the text of a path too, one that no item is on.
theorem isUnder_linePlace {payload : Value} {x : Issue} (hx : x ∈ (read payload).issues)
    {name : String} (hplain : (Step.field name).Plain) (i : Nat) :
    isUnder (name ++ "." ++ Decimal.natText i) (linePlace (x.line "intent")) =
      x.isAt [.field name, .item i] := by
  have hitem : Path.Plain [.field name, .item i] := by
    intro s hs
    obtain rfl | rfl : s = .field name ∨ s = .item i := by simpa using hs
    · exact hplain
    · trivial
  rw [linePlace_of_mem_issues hx, ← text_item, Issue.place, Bool.eq_iff_iff, Issue.isAt,
    List.isPrefixOf_iff_prefix]
  by_cases hwhole : x.path = []
  · have hintent : Path.Plain [.field "intent"] := by
      intro s hs
      obtain rfl : s = .field "intent" := by simpa using hs
      decide
    have htext : Path.text [.field "intent"] = "intent" := rfl
    rw [if_pos hwhole, hwhole, ← htext, isUnder_text_iff hintent hitem (by simp) (by simp)]
    simp
  · rw [if_neg hwhole]
    exact isUnder_text_iff (plain_of_mem_issues hx) hitem hwhole (by simp)

theorem filter_inspect (keep : Bool → Bool) (payload : Value) {name : String}
    (hplain : (Step.field name).Plain) (i : Nat) :
    (inspect payload).2.filter
        (fun line => keep (isUnder (name ++ "." ++ Decimal.natText i) (linePlace line))) =
      issueLines ((read payload).issues.filter fun x => keep (x.isAt [.field name, .item i])) := by
  rw [inspect, issueLines, issueLines, List.filter_map]
  refine congrArg _ (List.filter_congr fun x hx => ?_)
  rw [Function.comp_apply, isUnder_linePlace hx hplain]

theorem read_congr {fs gs : Fields} (h : ∀ name, fs.get? name = gs.get? name) :
    read (.object fs) = read (.object gs) := by
  simp only [read, Reader.record, required_congr (h _), optional_congr (h _)]

theorem issues_read_object (fs : Fields) :
    (read (.object fs)).issues =
      (required "summary" Reader.text fs).issues ++
        (required "postings" (Reader.nonemptyList Posting.read) fs).issues ++
        (Schema.optional "metadata" [] (Reader.list MetadataEntry.read) fs).issues := by
  simp only [read, Reader.record, Checked.issues_seq, Checked.issues_map]

/-- The lines about an item of the list are those of its own issues, and an item that is
accepted in its place takes them away and leaves the rest as it is. -/
def ItemsApart {α : Type} (name : String) (r : Reader α) (fs : Fields) : Prop :=
  ∀ vs i v, fs.get? name = some (.list vs) → vs[i]? = some v →
    (inspect (.object fs)).2.filter
        (fun line => isUnder (name ++ "." ++ Decimal.natText i) (linePlace line)) =
      issueLines ((r v).issues.map (Issue.ofItem name i)) ∧
    ∀ item a, r item = .accepted a →
      (inspect (.object (fs.put name (.list (vs.set i item))))).2 =
        (inspect (.object fs)).2.filter
          fun line => !isUnder (name ++ "." ++ Decimal.natText i) (linePlace line)

theorem itemsApart_of_frame {α : Type} {name : String} (hplain : (Step.field name).Plain)
    {r : Reader α} {fs : Fields}
    (h : ∀ vs i, fs.get? name = some (.list vs) → i < vs.length →
      ∃ f : Frame [.field name, .item i], ∀ v,
        (read (.object (fs.put name (.list (vs.set i v))))).issues =
          f.fill ((r v).issues.map (Issue.ofItem name i))) : ItemsApart name r fs := by
  intro vs i v hfs hv
  obtain ⟨hi, hget⟩ := List.getElem?_eq_some_iff.mp hv
  obtain ⟨f, hf⟩ := h vs i hfs hi
  have hown := Issue.isAt_ofItem name i (r v).issues
  have hissues : (read (.object fs)).issues = f.fill ((r v).issues.map (Issue.ofItem name i)) := by
    rw [← hf v, ← hget, List.set_getElem_self]
    exact congrArg Checked.issues (read_congr fun other => (get?_put_same hfs other).symm)
  constructor
  · refine (filter_inspect id (.object fs) hplain i).trans (congrArg issueLines ?_)
    rw [hissues]
    exact f.filter_fill hown
  · intro item a hitem
    have hnone : (r item).issues = [] := by rw [hitem]; rfl
    refine Eq.trans (congrArg issueLines ?_) (filter_inspect not (.object fs) hplain i).symm
    rw [hf item, hnone, List.map_nil, hissues]
    exact (f.filter_not_fill hown).symm

theorem itemsApart_postings (fs : Fields) : ItemsApart "postings" Posting.read fs := by
  refine itemsApart_of_frame (by decide) fun vs i hfs hi => ?_
  have hsummary : "summary" ≠ "postings" := by decide
  have hmetadata : "metadata" ≠ "postings" := by decide
  obtain ⟨f, hf⟩ := exists_frame_within "postings" Posting.read hi
  have hfront := isAt_required_of_ne (r := Reader.text) hsummary.symm [.item i] fs
  have hback := isAt_optional_of_ne (r := Reader.list MetadataEntry.read) hmetadata.symm []
    [.item i] fs
  refine ⟨f.between _ _ hfront hback, fun v => ?_⟩
  rw [Frame.fill_between, ← hf, issues_read_object, required_put_items hfs hi,
    required_congr (get?_put_of_ne fs hsummary _), optional_congr (get?_put_of_ne fs hmetadata _)]

theorem itemsApart_metadata (fs : Fields) : ItemsApart "metadata" MetadataEntry.read fs := by
  refine itemsApart_of_frame (by decide) fun vs i hfs hi => ?_
  have hsummary : "summary" ≠ "metadata" := by decide
  have hpostings : "postings" ≠ "metadata" := by decide
  obtain ⟨f, hf⟩ := exists_frame_within "metadata" MetadataEntry.read hi
  have hfront : ∀ x ∈ (required "summary" Reader.text fs).issues ++
      (required "postings" (Reader.nonemptyList Posting.read) fs).issues,
      x.isAt [.field "metadata", .item i] = false :=
    List.forall_mem_append.mpr
      ⟨isAt_required_of_ne hsummary.symm _ fs, isAt_required_of_ne hpostings.symm _ fs⟩
  refine ⟨f.between _ [] hfront (by simp), fun v => ?_⟩
  rw [Frame.fill_between, ← hf, issues_read_object, optional_put_items hfs,
    required_congr (get?_put_of_ne fs hsummary _), required_congr (get?_put_of_ne fs hpostings _),
    List.append_nil]

theorem inspect_of_not_object {payload : Value} (h : ∀ fs, payload ≠ .object fs) :
    ∃ line, (inspect payload).2 = [line] ∧ linePlace line = "intent" := by
  have hread : read payload = .reject (.notRecord "Intent") := by
    cases payload with
    | object fs => exact absurd rfl (h fs)
    | _ => rfl
  have hmem : ⟨[], .notRecord "Intent"⟩ ∈ (read payload).issues := by
    rw [hread]
    exact List.mem_singleton.mpr rfl
  refine ⟨Issue.line "intent" ⟨[], .notRecord "Intent"⟩, ?_, linePlace_of_mem_issues hmem⟩
  rw [inspect, hread]
  rfl

/-- The lines about a payload name different places, in the order of the declarations and
of the items; those about one item hang on that item alone; and what is no object gets a single
line about the intent as a whole. -/
theorem inspect_issues (payload : Value) :
    ((inspect payload).2.map linePlace).Nodup ∧
    (inspect payload).2.map linePlace = (read payload).issues.map (Issue.place "intent") ∧
    ((read payload).issues.map Issue.path).Pairwise (Path.Before declarations) ∧
    (∀ fs, payload = .object fs →
      ItemsApart "postings" Posting.read fs ∧ ItemsApart "metadata" MetadataEntry.read fs) ∧
    ((∀ fs, payload ≠ .object fs) →
      ∃ line, (inspect payload).2 = [line] ∧ linePlace line = "intent") := by
  refine ⟨nodup_linePlace_inspect payload, map_linePlace_inspect payload, ?_, ?_, ?_⟩
  · exact List.pairwise_map.mpr (orderly_read payload).ordered
  · intro fs _
    exact ⟨itemsApart_postings fs, itemsApart_metadata fs⟩
  · exact inspect_of_not_object

def faultyFields : Fields :=
  [("summary", .null), ("postings", .list [.object [("source", .text "a")], .bool true])]

/-- A posting in the place of the first one leaves the issue of the second. -/
theorem inspect_issues_faulty :
    (inspect (.object faultyFields)).2.map linePlace =
      ["summary", "postings.0.destination_type", "postings.0.amount", "postings.1"] ∧
    (inspect (.object (faultyFields.put "postings" (.list
        [.object [("source", .text "a"), ("destination_type", .text "split"),
          ("amount", .text "1")], .bool true])))).2 =
      (inspect (.object faultyFields)).2.filter
        (fun line => !isUnder "postings.0" (linePlace line)) ∧
    ∃ line, (inspect .null).2 = [line] ∧ linePlace line = "intent" := by
  obtain ⟨_, _, _, hitems, _⟩ := inspect_issues (.object faultyFields)
  obtain ⟨_, _, _, _, hwhole⟩ := inspect_issues .null
  obtain ⟨hpostings, _⟩ := hitems faultyFields rfl
  obtain ⟨_, hreplaced⟩ := hpostings _ 0 _ rfl rfl
  exact ⟨by decide, hreplaced _ _ rfl, hwhole fun fs => by simp⟩

end Intent
end LedgerScript
