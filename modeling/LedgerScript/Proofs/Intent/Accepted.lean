import LedgerScript.Intent.Schema
import LedgerScript.Payload
import LedgerScript.Proofs.Schema.Acceptance

/-! What an accepted payload gives: at least one posting, known modes only, and as many
postings and metadata entries as the payload lists. -/
namespace LedgerScript
open Json (Value Fields)
open Schema

theorem SplitRule.mode_mem_of_read {v : Value} {r : SplitRule} (h : SplitRule.read v = .accepted r) :
    r.mode ∈ AmountMode.choices.map Prod.snd := by
  obtain ⟨fs, rfl, h₀⟩ := Reader.record_eq_accepted h
  obtain ⟨_, value, h₁, _, rfl⟩ := Checked.seq_eq_accepted h₀
  obtain ⟨_, mode, h₂, hmode, rfl⟩ := Checked.seq_eq_accepted h₁
  obtain ⟨target, _, rfl⟩ := Checked.map_eq_accepted h₂
  obtain ⟨w, _, hw⟩ := required_eq_accepted hmode
  exact Reader.oneOf_eq_accepted hw

namespace Posting

/-- The modes that decide over the destination are among the listed ones. -/
structure Known (p : Posting) : Prop where
  destinationKind : p.destinationKind ∈ DestinationKind.choices.map Prod.snd
  splitRules : ∀ rules ∈ p.splitRules, ∀ r ∈ rules, r.mode ∈ AmountMode.choices.map Prod.snd

theorem known_of_read {v : Value} {p : Posting} (h : Posting.read v = .accepted p) : p.Known := by
  obtain ⟨fs, rfl, h₀⟩ := Reader.record_eq_accepted h
  obtain ⟨_, amount, h₁, _, rfl⟩ := Checked.seq_eq_accepted h₀
  obtain ⟨_, asset, h₂, _, rfl⟩ := Checked.seq_eq_accepted h₁
  obtain ⟨_, splitRules, h₃, hrules, rfl⟩ := Checked.seq_eq_accepted h₂
  obtain ⟨_, simpleDestination, h₄, _, rfl⟩ := Checked.seq_eq_accepted h₃
  obtain ⟨_, destinationKind, h₅, hkind, rfl⟩ := Checked.seq_eq_accepted h₄
  obtain ⟨_, overdraftLimit, h₆, _, rfl⟩ := Checked.seq_eq_accepted h₅
  obtain ⟨_, overdraft, h₇, _, rfl⟩ := Checked.seq_eq_accepted h₆
  obtain ⟨source, _, rfl⟩ := Checked.map_eq_accepted h₇
  obtain ⟨w, _, hw⟩ := required_eq_accepted hkind
  refine ⟨Reader.oneOf_eq_accepted hw, fun rules hr r hmem => ?_⟩
  obtain rfl : splitRules = some rules := hr
  obtain ⟨_, hnone⟩ | ⟨u, _, hu⟩ := optional_eq_accepted hrules
  · cases hnone
  · obtain ⟨us, _, hus⟩ := Reader.list_eq_accepted (Reader.nullable_eq_accepted hu)
    obtain ⟨x, _, hx⟩ := Reader.exists_of_map_eq hus hmem
    exact SplitRule.mode_mem_of_read hx

end Posting

/-- The postings are read one by one from a list, as is the metadata if there is any. -/
theorem Intent.read_eq_accepted {v : Value} {i : Intent} (h : Intent.read v = .accepted i) :
    ∃ (fs : Fields) (vs : List Value), v = .object fs ∧ fs.get? "postings" = some (.list vs) ∧ vs ≠ [] ∧
      vs.map Posting.read = i.postings.map .accepted ∧
      ((fs.get? "metadata" = none ∧ i.metadata = []) ∨
        ∃ es, fs.get? "metadata" = some (.list es) ∧ es.length = i.metadata.length) := by
  obtain ⟨fs, rfl, h₀⟩ := Reader.record_eq_accepted h
  obtain ⟨_, metadata, h₁, hmetadata, rfl⟩ := Checked.seq_eq_accepted h₀
  obtain ⟨_, postings, h₂, hpostings, rfl⟩ := Checked.seq_eq_accepted h₁
  obtain ⟨summary, _, rfl⟩ := Checked.map_eq_accepted h₂
  obtain ⟨w, hw, hread⟩ := required_eq_accepted hpostings
  obtain ⟨vs, rfl, hne, hvs⟩ := Reader.nonemptyList_eq_accepted hread
  refine ⟨fs, vs, rfl, hw, hne, hvs, ?_⟩
  obtain hnone | ⟨u, hu, hread⟩ := optional_eq_accepted hmetadata
  · exact .inl hnone
  · obtain ⟨es, rfl, hes⟩ := Reader.list_eq_accepted hread
    exact .inr ⟨es, hu, Reader.length_of_map_eq hes⟩

/-- What the schema promises the compilation. -/
structure Intent.Known (i : Intent) : Prop where
  postings_ne_nil : i.postings ≠ []
  postings : ∀ p ∈ i.postings, p.Known

theorem Intent.known_of_read {v : Value} {i : Intent} (h : Intent.read v = .accepted i) :
    i.Known := by
  obtain ⟨fs, vs, rfl, _, hne, hvs, _⟩ := read_eq_accepted h
  refine ⟨fun hnil => hne ?_, fun p hp => ?_⟩
  · simpa [hnil] using hvs
  · obtain ⟨x, _, hx⟩ := Reader.exists_of_map_eq hvs hp
    exact Posting.known_of_read hx

namespace Payload

def metadataCount : Value → Nat
  | .object fs =>
    match Fields.get? fs "metadata" with
    | some (.list es) => es.length
    | _ => 0
  | _ => 0

theorem get?_map_fieldWithAsset (asset : String) (fs : Fields) (name : String) :
    Fields.get? (fs.map (fieldWithAsset asset)) name =
      (fs.get? name).map fun v => (fieldWithAsset asset (name, v)).2 := by
  induction fs with
  | nil => rfl
  | cons f fs ih =>
    obtain ⟨k, v⟩ := f
    have hf : fieldWithAsset asset (k, v) = (k, (fieldWithAsset asset (k, v)).2) := by
      cases v <;> rfl
    rw [List.map_cons, hf]
    by_cases h : name = k
    · subst h
      simp [Fields.get?]
    · simpa [Fields.get?, List.lookup_cons, beq_false_of_ne h] using ih

theorem exists_list_of_get?_map {asset name : String} {fs : Fields} {vs : List Value}
    (h : Fields.get? (fs.map (fieldWithAsset asset)) name = some (.list vs)) :
    ∃ us, fs.get? name = some (.list us) ∧ us.length = vs.length := by
  rw [get?_map_fieldWithAsset, Option.map_eq_some_iff] at h
  obtain ⟨u, hu, h⟩ := h
  cases u with
  | list us =>
    refine ⟨us, hu, ?_⟩
    simp only [fieldWithAsset, Value.list.injEq] at h
    rw [← h]
    split <;> simp
  | _ => exact nomatch h

/-- The default asset does not change how many postings and metadata entries there are. -/
theorem counts_of_read {asset : String} {payload : Value} {i : Intent}
    (h : Intent.read (withDefaultAsset asset payload) = .accepted i) :
    postingCount? payload = some i.postings.length ∧
      metadataCount payload = i.metadata.length := by
  obtain ⟨gs, vs, hv, hpostings, _, hvs, hmetadata⟩ := Intent.read_eq_accepted h
  cases payload with
  | object fs =>
    obtain rfl : fs.map (fieldWithAsset asset) = gs := by simpa [withDefaultAsset] using hv
    obtain ⟨us, hus, hlen⟩ := exists_list_of_get?_map hpostings
    constructor
    · simp [postingCount?, hus, hlen, Reader.length_of_map_eq hvs]
    · obtain ⟨hnone, hnil⟩ | ⟨es, hes, hlen⟩ := hmetadata
      · rw [get?_map_fieldWithAsset, Option.map_eq_none_iff] at hnone
        simp [metadataCount, hnone, hnil]
      · obtain ⟨ds, hds, hlen'⟩ := exists_list_of_get?_map hes
        simp [metadataCount, hds, hlen', hlen]
  | _ => cases hv

theorem summary?_of_read {asset : String} {payload : Value} {i : Intent}
    (h : Intent.read (withDefaultAsset asset payload) = .accepted i) :
    summary? payload = some i.summary := by
  obtain ⟨gs, hv, h₀⟩ := Schema.Reader.record_eq_accepted h
  obtain ⟨_, metadata, h₁, -, rfl⟩ := Schema.Checked.seq_eq_accepted h₀
  obtain ⟨_, postings, h₂, -, rfl⟩ := Schema.Checked.seq_eq_accepted h₁
  obtain ⟨s, hs, rfl⟩ := Schema.Checked.map_eq_accepted h₂
  obtain ⟨w, hw, htext⟩ := Schema.required_eq_accepted hs
  obtain rfl := Schema.Reader.text_eq_accepted htext
  cases payload with
  | object fs =>
    obtain rfl : fs.map (fieldWithAsset asset) = gs := by simpa [withDefaultAsset] using hv
    rw [get?_map_fieldWithAsset, Option.map_eq_some_iff] at hw
    obtain ⟨u, hu, hw⟩ := hw
    -- Only a list of postings is touched, and the summary is a text.
    cases u with
    | text t =>
      obtain rfl : t = s := by simpa [fieldWithAsset] using hw
      simp [summary?, hu, Value.display?]
    | _ => cases hw
  | _ => cases hv

end Payload
end LedgerScript
