import LedgerScript.Proofs.Intent.DefaultAsset
import LedgerScript.Proofs.Schema.Undeclared
import LedgerScript.Session
import Mathlib.Logic.Relation

/-! What a payload holds beside the declared fields. It is looked at three times, on arrival, for
the default asset and against the schema, and each time for declared names only: nothing else
shows in what comes of it or in what is told of it. -/
namespace LedgerScript
open Json (Value Fields)
open Json.Value (Gains InField InItem)
open Schema

namespace SplitRule

def declared : List String := ["target", "amount_mode", "value"]

theorem blind_read : SplitRule.read.Blind (Gains declared) := by
  intro v w h
  cases h with
  | entry front back hother u =>
    have hget (name : String) (hname : name ∈ declared) :=
      get?_insert_of_mem hname hother front back u
    simp only [SplitRule.read, Reader.record, required_congr (hget "target" (by decide)),
      required_congr (hget "amount_mode" (by decide)), optional_congr (hget "value" (by decide))]

end SplitRule

namespace MetadataEntry

def declared : List String := ["key", "value"]

theorem blind_read : MetadataEntry.read.Blind (Gains declared) := by
  intro v w h
  cases h with
  | entry front back hother u =>
    have hget (name : String) (hname : name ∈ declared) :=
      get?_insert_of_mem hname hother front back u
    simp only [MetadataEntry.read, Reader.record, required_congr (hget "key" (by decide)),
      required_congr (hget "value" (by decide))]

end MetadataEntry

namespace Posting

def declared : List String :=
  ["source", "source_overdraft", "overdraft_limit", "destination_type", "simple_destination",
   "split_rules", "asset", "amount"]

/-- A posting gains an entry itself, or one of its split rules does. -/
def GainsEntry (v w : Value) : Prop :=
  Gains declared v w ∨ InField "split_rules" (InItem (Gains SplitRule.declared)) v w

/-- What stays as it was: the declared entries, and the rules as far as they are read. -/
theorem exists_of_gainsEntry {v w : Value} (h : GainsEntry v w) :
    ∃ fs gs : Fields, v = .object fs ∧ w = .object gs ∧
      (∀ name ∈ declared, name ≠ "split_rules" → gs.get? name = fs.get? name) ∧
      Schema.optional "split_rules" none (Reader.nullable (Reader.list SplitRule.read)) gs =
        Schema.optional "split_rules" none (Reader.nullable (Reader.list SplitRule.read)) fs := by
  obtain h | h := h
  · cases h with
    | entry front back hother u =>
      have hget (name : String) (hname : name ∈ declared) :=
        get?_insert_of_mem hname hother front back u
      exact ⟨_, _, rfl, rfl, fun name hname _ => hget name hname,
        optional_congr (hget "split_rules" (by decide)) _ _⟩
  · cases h with
    | entry front back h =>
      refine ⟨_, _, rfl, rfl, fun name _ hne => get?_swap_of_ne hne front back _ _, ?_⟩
      exact (optional_swap SplitRule.blind_read.list.nullable _ _ front back h).symm

theorem blind_read : Posting.read.Blind GainsEntry := by
  intro v w h
  obtain ⟨fs, gs, rfl, rfl, hget, hrules⟩ := exists_of_gainsEntry h
  simp only [Posting.read, Reader.record, hrules,
    required_congr (hget "source" (by decide) (by decide)),
    optional_congr (hget "source_overdraft" (by decide) (by decide)),
    optional_congr (hget "overdraft_limit" (by decide) (by decide)),
    required_congr (hget "destination_type" (by decide) (by decide)),
    optional_congr (hget "simple_destination" (by decide) (by decide)),
    optional_congr (hget "asset" (by decide) (by decide)),
    required_congr (hget "amount" (by decide) (by decide))]

theorem namesAsset_of_gainsEntry {v w : Value} (h : GainsEntry v w) :
    Payload.namesAsset w = Payload.namesAsset v := by
  obtain ⟨fs, gs, rfl, rfl, hget, _⟩ := exists_of_gainsEntry h
  rw [Payload.namesAsset, Payload.namesAsset, hget "asset" (by decide) (by decide)]

end Posting

namespace Payload

def declared : List String := ["summary", "postings", "metadata"]

/-- The payload gains an entry itself, or one of its postings or metadata entries does. -/
def GainsEntry (v w : Value) : Prop :=
  Gains declared v w ∨ InField "postings" (InItem Posting.GainsEntry) v w ∨
    InField "metadata" (InItem (Gains MetadataEntry.declared)) v w

/-- What stays as it was: the summary, the metadata as far as it is read, and all postings
but one at most, which has gained an entry. -/
theorem exists_of_gainsEntry {v w : Value} (h : GainsEntry v w) :
    ∃ fs gs : Fields, v = .object fs ∧ w = .object gs ∧ gs.get? "summary" = fs.get? "summary" ∧
      Schema.optional "metadata" [] (Reader.list MetadataEntry.read) gs =
        Schema.optional "metadata" [] (Reader.list MetadataEntry.read) fs ∧
      (gs.get? "postings" = fs.get? "postings" ∨
        ∃ front back p q, Posting.GainsEntry p q ∧
          fs.get? "postings" = some (.list (front ++ p :: back)) ∧
          gs.get? "postings" = some (.list (front ++ q :: back))) := by
  obtain h | h | h := h
  · cases h with
    | entry front back hother u =>
      have hget (name : String) (hname : name ∈ declared) :=
        get?_insert_of_mem hname hother front back u
      exact ⟨_, _, rfl, rfl, hget "summary" (by decide),
        optional_congr (hget "metadata" (by decide)) _ _, .inl (hget "postings" (by decide))⟩
  · cases h with
    | @entry front back u u' h =>
      have hsummary := get?_swap_of_ne (show "summary" ≠ "postings" by decide) front back u' u
      have hmetadata := get?_swap_of_ne (show "metadata" ≠ "postings" by decide) front back u' u
      refine ⟨_, _, rfl, rfl, hsummary, optional_congr hmetadata _ _, ?_⟩
      cases h with
      | @item before after p q h =>
        obtain heq | ⟨hold, hnew⟩ := get?_swap_self "postings" front back
          (.list (before ++ p :: after)) (.list (before ++ q :: after))
        · exact .inl heq.symm
        · exact .inr ⟨before, after, p, q, h, hold, hnew⟩
  · cases h with
    | @entry front back u u' h =>
      have hsummary := get?_swap_of_ne (show "summary" ≠ "metadata" by decide) front back u' u
      have hpostings := get?_swap_of_ne (show "postings" ≠ "metadata" by decide) front back u' u
      refine ⟨_, _, rfl, rfl, hsummary, ?_, .inl hpostings⟩
      exact (optional_swap MetadataEntry.blind_read.list _ _ front back h).symm

theorem summary?_of_gainsEntry {v w : Value} (h : GainsEntry v w) : summary? w = summary? v := by
  obtain ⟨fs, gs, rfl, rfl, hsummary, _⟩ := exists_of_gainsEntry h
  rw [summary?, summary?, hsummary]

theorem postingCount?_of_gainsEntry {v w : Value} (h : GainsEntry v w) :
    postingCount? w = postingCount? v := by
  obtain ⟨fs, gs, rfl, rfl, _, _, hpostings⟩ := exists_of_gainsEntry h
  obtain hsame | ⟨front, back, p, q, _, hold, hnew⟩ := hpostings
  · rw [postingCount?, postingCount?, hsame]
  · simp [postingCount?, hold, hnew]

theorem namesAsset_postings_of_gainsEntry {v w : Value} (h : GainsEntry v w) :
    (postings w).map namesAsset = (postings v).map namesAsset := by
  obtain ⟨fs, gs, rfl, rfl, _, _, hpostings⟩ := exists_of_gainsEntry h
  obtain hsame | ⟨front, back, p, q, hpq, hold, hnew⟩ := hpostings
  · rw [postings, postings, hsame]
  · simp [postings, hold, hnew, Posting.namesAsset_of_gainsEntry hpq]

end Payload

namespace Intent

theorem blind_read : Intent.read.Blind Payload.GainsEntry := by
  intro v w h
  obtain ⟨fs, gs, rfl, rfl, hsummary, hmetadata, hpostings⟩ := Payload.exists_of_gainsEntry h
  have hread : required "postings" (Reader.nonemptyList Posting.read) gs =
      required "postings" (Reader.nonemptyList Posting.read) fs := by
    obtain hsame | ⟨front, back, p, q, hpq, hold, hnew⟩ := hpostings
    · exact required_congr hsame _
    · have hitems := Posting.blind_read.nonemptyList (.item front back hpq)
      rw [required, required, hold, hnew]
      exact congrArg (Checked.within _) hitems.symm
  simp only [Intent.read, Reader.record, required_congr hsummary, hread, hmetadata]

theorem supplied_congr {v w : Value} (asset : String)
    (h : (Payload.postings w).map Payload.namesAsset =
      (Payload.postings v).map Payload.namesAsset) :
    supplied asset w = supplied asset v := by
  have hzip (ps : List Value) (qs : List Posting) :
      List.zipWith (Posting.supplied asset) ps qs =
        List.zipWith
          (fun (named : Bool) (q : Posting) => if named then q else { q with asset := asset })
          (ps.map Payload.namesAsset) qs := by
    rw [List.zipWith_map_left]
    rfl
  funext i
  rw [supplied, supplied, hzip, hzip, h]

theorem blind_read_withDefaultAsset (asset : String) {v w : Value} (h : Payload.GainsEntry v w) :
    Intent.read (Payload.withDefaultAsset asset w) =
      Intent.read (Payload.withDefaultAsset asset v) := by
  rw [read_withDefaultAsset, read_withDefaultAsset, blind_read h,
    supplied_congr asset (Payload.namesAsset_postings_of_gainsEntry h)]

end Intent

namespace Flow

theorem compilePayload_of_gainsEntry (f : Flow) (c : Correlation) {v w : Value}
    (h : Payload.GainsEntry v w) : f.compilePayload c w = f.compilePayload c v := by
  rw [compilePayload, compilePayload, receive, receive, Payload.summary?_of_gainsEntry h,
    Payload.postingCount?_of_gainsEntry h, Intent.blind_read_withDefaultAsset _ h]

/-- However many undeclared entries are put in or taken out, step by step and anywhere in a
payload, a call on it acts and comes out the same, and so does a session at whose desk it is
made. -/
theorem compilePayload_undeclared {v w : Value} (h : Relation.EqvGen Payload.GainsEntry v w) :
    (∀ (f : Flow) (c : Correlation), f.compilePayload c v = f.compilePayload c w) ∧
    ∀ (s : Session) (u : Option Uuid),
      s.step (.compilePayload v u) = s.step (.compilePayload w u) := by
  have hflow (f : Flow) (c : Correlation) : f.compilePayload c v = f.compilePayload c w := by
    induction h with
    | rel v w h => exact (f.compilePayload_of_gainsEntry c h).symm
    | refl v => rfl
    | symm v w _ ih => exact ih.symm
    | trans u v w _ _ hfirst hsecond => exact hfirst.trans hsecond
  refine ⟨hflow, fun s u => ?_⟩
  have hdesk (d : Desk) : s.compilePayload d v u = s.compilePayload d w u := by
    simp only [Session.compilePayload, hflow]
  simp only [Session.step, hdesk]

def annotated (payload posting rule entry : Fields) : Value := .object <|
  [("summary", .text "Pay"),
   ("postings", .list [.object <|
    [("source", .text "users:1"), ("destination_type", .text "split"), ("amount", .text "900"),
     ("split_rules", .list [.object <|
      [("target", .text "shop"), ("amount_mode", .text "remaining")] ++ rule])] ++ posting]),
   ("metadata", .list [.object <| [("key", .text "type"), ("value", .text "order")] ++ entry])] ++
  payload

/-- An entry in each place. A name in another case is undeclared, too. -/
def cluttered : Value :=
  annotated [("Summary", .null)] [("ASSET", .text "JPY")] [("note", .bool true)]
    [("Key", .integer 1)]

theorem compilePayload_undeclared_annotated :
    Relation.EqvGen Payload.GainsEntry (annotated [] [] [] []) cluttered ∧
    compilePayload ⟨⟨true, true⟩, ⟨"EUR/2"⟩, true⟩ (.drawn 0) (annotated [] [] [] []) =
      compilePayload ⟨⟨true, true⟩, ⟨"EUR/2"⟩, true⟩ (.drawn 0) cluttered := by
  have hpayload : Payload.GainsEntry (annotated [] [] [] [])
      (annotated [("Summary", .null)] [] [] []) :=
    .inl (.entry [_, _, _] [] (by decide) _)
  have hposting : Payload.GainsEntry (annotated [("Summary", .null)] [] [] [])
      (annotated [("Summary", .null)] [("ASSET", .text "JPY")] [] []) :=
    .inr (.inl (.entry [_] [_, _] (.item [] [] (.inl (.entry [_, _, _, _] [] (by decide) _)))))
  have hrule : Payload.GainsEntry (annotated [("Summary", .null)] [("ASSET", .text "JPY")] [] [])
      (annotated [("Summary", .null)] [("ASSET", .text "JPY")] [("note", .bool true)] []) :=
    .inr (.inl (.entry [_] [_, _] (.item [] [] (.inr (.entry [_, _, _] [_]
      (.item [] [] (.entry [_, _] [] (by decide) _)))))))
  have hentry : Payload.GainsEntry
      (annotated [("Summary", .null)] [("ASSET", .text "JPY")] [("note", .bool true)] [])
      cluttered :=
    .inr (.inr (.entry [_, _] [_] (.item [] [] (.entry [_, _] [] (by decide) _))))
  have hall : Relation.EqvGen Payload.GainsEntry (annotated [] [] [] []) cluttered :=
    .trans _ _ _ (.trans _ _ _ (.rel _ _ hpayload) (.rel _ _ hposting))
      (.trans _ _ _ (.rel _ _ hrule) (.rel _ _ hentry))
  exact ⟨hall, (compilePayload_undeclared hall).1 _ _⟩

end Flow
end LedgerScript
