import LedgerScript.Proofs.Intent.Accepted
import LedgerScript.Proofs.Schema.Transport

/-! The default asset and the schema. Giving postings an asset leaves every verdict of the
schema as it is, for any payload, and shows only in the postings that named none. -/
namespace LedgerScript
open Json (Value Fields)
open Schema

namespace Payload

def postings : Value → List Value
  | .object fs =>
    match Fields.get? fs "postings" with
    | some (.list ps) => ps
    | _ => []
  | _ => []

def namesAsset : Value → Bool
  | .object fs => (Fields.get? fs "asset").isSome
  | _ => false

theorem withAsset_withAsset (a b : String) (v : Value) :
    withAsset b (withAsset a v) = withAsset a v := by
  cases v with
  | object fs =>
    by_cases h : (Fields.get? fs "asset").isSome = true
    · simp only [withAsset, if_pos h]
    · simp only [withAsset, if_neg h]
      rfl
  | _ => rfl

theorem fieldWithAsset_fieldWithAsset (a b : String) (f : String × Value) :
    fieldWithAsset b (fieldWithAsset a f) = fieldWithAsset a f := by
  obtain ⟨k, v⟩ := f
  cases v with
  | list ps => by_cases h : k = "postings" <;> simp [fieldWithAsset, h, withAsset_withAsset]
  | _ => rfl

theorem withDefaultAsset_withDefaultAsset (a b : String) (v : Value) :
    withDefaultAsset b (withDefaultAsset a v) = withDefaultAsset a v := by
  cases v with
  | object fs => simp [withDefaultAsset, fieldWithAsset_fieldWithAsset]
  | _ => rfl

end Payload

namespace Posting

def supplied (asset : String) (v : Value) (p : Posting) : Posting :=
  if Payload.namesAsset v then p else { p with asset := asset }

theorem read_cons_asset (asset : String) {fs : Fields} (h : Fields.get? fs "asset" = none) :
    Posting.read (.object (("asset", .text asset) :: fs)) =
      (fun p : Posting => { p with asset := asset }) <$> Posting.read (.object fs) := by
  have hget (name : String) (hname : name ≠ "asset") :
      Fields.get? (("asset", .text asset) :: fs) name = fs.get? name :=
    get?_cons_of_ne hname _ fs
  have hnew : Schema.optional "asset" standardAsset Reader.text (("asset", .text asset) :: fs) =
      pure asset := rfl
  have hold : Schema.optional "asset" standardAsset Reader.text fs = pure standardAsset := by
    rw [Schema.optional, h]
    rfl
  simp only [Posting.read, Reader.record, hnew, hold, required_congr (hget "source" (by decide)),
    optional_congr (hget "source_overdraft" (by decide)),
    optional_congr (hget "overdraft_limit" (by decide)),
    required_congr (hget "destination_type" (by decide)),
    optional_congr (hget "simple_destination" (by decide)),
    optional_congr (hget "split_rules" (by decide)), required_congr (hget "amount" (by decide)),
    map_seq, seq_pure, Functor.map_map]
  rfl

theorem read_withAsset (asset : String) (v : Value) :
    Posting.read (Payload.withAsset asset v) = supplied asset v <$> Posting.read v := by
  cases v with
  | object fs =>
    by_cases h : (Fields.get? fs "asset").isSome = true
    · have hsupplied : supplied asset (.object fs) = id := by
        funext p
        exact if_pos h
      rw [hsupplied, id_map, Payload.withAsset, if_pos h]
    · have hsupplied : supplied asset (.object fs) = fun p => { p with asset := asset } := by
        funext p
        exact if_neg h
      rw [hsupplied, Payload.withAsset, if_neg h]
      exact read_cons_asset asset (by simpa using h)
  | _ => rfl

/-- Where the asset of a posting that was read comes from. -/
inductive AssetFrom : Value → Posting → Prop where
  | named {fs : Fields} {p : Posting} (h : Fields.get? fs "asset" = some (.text p.asset)) :
      AssetFrom (.object fs) p
  | standard {fs : Fields} {p : Posting} (h : Fields.get? fs "asset" = none)
      (hp : p.asset = standardAsset) : AssetFrom (.object fs) p

theorem assetFrom_of_read {v : Value} {p : Posting} (h : Posting.read v = .accepted p) :
    AssetFrom v p := by
  obtain ⟨fs, rfl, h₀⟩ := Reader.record_eq_accepted h
  obtain ⟨_, amount, h₁, _, rfl⟩ := Checked.seq_eq_accepted h₀
  obtain ⟨_, asset, h₂, hasset, rfl⟩ := Checked.seq_eq_accepted h₁
  obtain ⟨_, splitRules, h₃, _, rfl⟩ := Checked.seq_eq_accepted h₂
  obtain ⟨_, simpleDestination, h₄, _, rfl⟩ := Checked.seq_eq_accepted h₃
  obtain ⟨_, destinationKind, h₅, _, rfl⟩ := Checked.seq_eq_accepted h₄
  obtain ⟨_, overdraftLimit, h₆, _, rfl⟩ := Checked.seq_eq_accepted h₅
  obtain ⟨_, overdraft, h₇, _, rfl⟩ := Checked.seq_eq_accepted h₆
  obtain ⟨source, _, rfl⟩ := Checked.map_eq_accepted h₇
  obtain ⟨hnone, rfl⟩ | ⟨w, hw, hread⟩ := optional_eq_accepted hasset
  · exact .standard hnone rfl
  · obtain rfl := Reader.text_eq_accepted hread
    exact .named hw

end Posting

namespace Intent

def supplied (asset : String) (payload : Value) (i : Intent) : Intent :=
  { i with postings := List.zipWith (Posting.supplied asset) (Payload.postings payload) i.postings }

theorem get?_map_of_ne (asset : String) (fs : Fields) {name : String} (h : name ≠ "postings") :
    Fields.get? (fs.map (Payload.fieldWithAsset asset)) name = fs.get? name := by
  rw [Payload.get?_map_fieldWithAsset]
  cases hv : fs.get? name with
  | none => rfl
  | some v => cases v <;> simp [Payload.fieldWithAsset, h]

theorem postings_map (asset : String) (fs : Fields) :
    required "postings" (Reader.nonemptyList Posting.read)
        (fs.map (Payload.fieldWithAsset asset)) =
      List.zipWith (Posting.supplied asset) (Payload.postings (.object fs)) <$>
        required "postings" (Reader.nonemptyList Posting.read) fs := by
  have hget := Payload.get?_map_fieldWithAsset asset fs "postings"
  cases hv : fs.get? "postings" with
  | none =>
    simp only [required, hget, hv]
    rfl
  | some v =>
    cases v with
    | list vs =>
      have hlist := Reader.nonemptyList_map (Posting.read_withAsset asset) vs
      simp only [required, hget, hv, Option.map_some, Payload.fieldWithAsset, if_true,
        Payload.postings, hlist, Checked.within_map]
    | _ =>
      simp only [required, hget, hv]
      rfl

theorem read_withDefaultAsset (asset : String) (payload : Value) :
    Intent.read (Payload.withDefaultAsset asset payload) =
      supplied asset payload <$> Intent.read payload := by
  cases payload with
  | object fs =>
    have hsummary := get?_map_of_ne asset fs (show "summary" ≠ "postings" by decide)
    have hmetadata := get?_map_of_ne asset fs (show "metadata" ≠ "postings" by decide)
    simp only [Payload.withDefaultAsset, Intent.read, Reader.record, postings_map,
      required_congr hsummary, optional_congr hmetadata, map_seq, seq_map_assoc, Functor.map_map]
    rfl
  | _ => rfl

theorem assetsFrom_of_read {payload : Value} {i : Intent} (h : Intent.read payload = .accepted i) :
    List.Forall₂ Posting.AssetFrom (Payload.postings payload) i.postings := by
  obtain ⟨fs, vs, rfl, hpostings, _, hvs, _⟩ := read_eq_accepted h
  have hcame : Payload.postings (.object fs) = vs := by simp only [Payload.postings, hpostings]
  rw [hcame]
  exact (Reader.forall₂_of_map_eq hvs).imp fun _ _ => Posting.assetFrom_of_read

/-- The default asset neither hides an issue nor makes one. What is accepted differs only
in the postings that named no asset, and these are settled once and for all. -/
theorem inspect_withDefaultAsset (asset : String) (payload : Value) :
    inspect (Payload.withDefaultAsset asset payload) =
      ((inspect payload).1.map (supplied asset payload), (inspect payload).2) ∧
    (∀ i, (inspect payload).1 = some i →
      List.Forall₂ Posting.AssetFrom (Payload.postings payload) i.postings) ∧
    ∀ other, Payload.withDefaultAsset other (Payload.withDefaultAsset asset payload) =
      Payload.withDefaultAsset asset payload := by
  refine ⟨?_, fun i hi => ?_, fun other => ?_⟩
  · simp only [inspect, read_withDefaultAsset, Checked.value?_map, Checked.issues_map]
  · cases hread : Intent.read payload with
    | accepted j =>
      obtain rfl : j = i := by simpa [inspect, hread, Checked.value?] using hi
      exact assetsFrom_of_read hread
    | rejected issue issues => simp [inspect, hread, Checked.value?] at hi
  · exact Payload.withDefaultAsset_withDefaultAsset asset other payload

def twoPayments : Value := .object
  [("summary", .text "Pay"),
   ("postings", .list
    [.object [("source", .text "a"), ("destination_type", .text "simple"), ("amount", .text "1"),
      ("asset", .text "JPY")],
     .object [("source", .text "b"), ("destination_type", .text "simple"), ("amount", .text "2")]])]

theorem inspect_withDefaultAsset_two :
    ∃ i, (inspect twoPayments).1 = some i ∧
      List.Forall₂ Posting.AssetFrom (Payload.postings twoPayments) i.postings ∧
      ((inspect (Payload.withDefaultAsset "EUR/2" twoPayments)).1.map fun j =>
        j.postings.map Posting.asset) = some ["JPY", "EUR/2"] := by
  obtain ⟨hinspect, hassets, _⟩ := inspect_withDefaultAsset "EUR/2" twoPayments
  refine ⟨_, rfl, hassets _ rfl, ?_⟩
  rw [hinspect]
  rfl

end Intent
end LedgerScript
