import LedgerScript.Intent.Schema
import LedgerScript.Proofs.Schema.Grammar

/-! The grammar of payloads. A payload is accepted exactly if it has the shape of an intent,
and the intent that is read from it is the one that it states: every given field as it
stands, in its order, and the default for every field that is not there. -/
namespace LedgerScript
open Json (Value Fields)
open Schema

def AmountMode.shape : Shape := .word ["fraction", "max", "remaining"]

def Overdraft.shape : Shape := .word ["none", "unbounded", "limited"]

def DestinationKind.shape : Shape := .word ["simple", "split"]

theorem AmountMode.exact_read : (Reader.oneOf choices).Exact (Sense.oneOf choices) :=
  Reader.exact_oneOf (by decide)

theorem Overdraft.exact_read : (Reader.oneOf choices).Exact (Sense.oneOf choices) :=
  Reader.exact_oneOf (by decide)

theorem DestinationKind.exact_read : (Reader.oneOf choices).Exact (Sense.oneOf choices) :=
  Reader.exact_oneOf (by decide)

namespace SplitRule

def shape : Shape := .object fun fs =>
  Shape.has "target" .text fs &&
  Shape.has "amount_mode" AmountMode.shape fs &&
  Shape.mayHave "value" .text fs

structure Stated (fs : Fields) (r : SplitRule) : Prop where
  target : Sense.given "target" Sense.text fs r.target
  mode : Sense.given "amount_mode" (Sense.oneOf AmountMode.choices) fs r.mode
  value : Sense.givenOr "value" "" Sense.text fs r.value

theorem isAccepted_read (v : Value) : (read v).isAccepted = shape v := by
  simp only [read, shape, AmountMode.shape, Reader.isAccepted_record, Checked.isAccepted_seq,
    Checked.isAccepted_map, isAccepted_required, isAccepted_optional, Reader.isAccepted_text,
    Reader.isAccepted_oneOf]
  rfl

theorem exact_read : SplitRule.read.Exact (Sense.object Stated) := by
  intro v r
  constructor
  · intro h
    obtain ⟨fs, rfl, h₀⟩ := Reader.record_eq_accepted h
    obtain ⟨_, value, h₁, hvalue, rfl⟩ := Checked.seq_eq_accepted h₀
    obtain ⟨_, mode, h₂, hmode, rfl⟩ := Checked.seq_eq_accepted h₁
    obtain ⟨target, htarget, rfl⟩ := Checked.map_eq_accepted h₂
    exact ⟨fs, rfl, (Reader.exact_text.required _ _ _).mp htarget,
      (AmountMode.exact_read.required _ _ _).mp hmode,
      (Reader.exact_text.optional _ _ _ _).mp hvalue⟩
  · rintro ⟨fs, rfl, h⟩
    have htarget := (Reader.exact_text.required _ _ _).mpr h.target
    have hmode := (AmountMode.exact_read.required _ _ _).mpr h.mode
    have hvalue := (Reader.exact_text.optional _ _ _ _).mpr h.value
    simp only [read, Reader.record, htarget, hmode, hvalue]
    rfl

end SplitRule

namespace Posting

def shape : Shape := .object fun fs =>
  Shape.has "source" .text fs &&
  Shape.mayHave "source_overdraft" Overdraft.shape fs &&
  Shape.mayHave "overdraft_limit" (.nullable .text) fs &&
  Shape.has "destination_type" DestinationKind.shape fs &&
  Shape.mayHave "simple_destination" (.nullable .text) fs &&
  Shape.mayHave "split_rules" (.nullable (.list SplitRule.shape)) fs &&
  Shape.mayHave "asset" .text fs &&
  Shape.has "amount" .text fs

structure Stated (fs : Fields) (p : Posting) : Prop where
  source : Sense.given "source" Sense.text fs p.source
  overdraft : Sense.givenOr "source_overdraft" .none (Sense.oneOf Overdraft.choices) fs p.overdraft
  overdraftLimit : Sense.givenOr "overdraft_limit" none (.nullable Sense.text) fs p.overdraftLimit
  destinationKind :
    Sense.given "destination_type" (Sense.oneOf DestinationKind.choices) fs p.destinationKind
  simpleDestination :
    Sense.givenOr "simple_destination" none (.nullable Sense.text) fs p.simpleDestination
  splitRules :
    Sense.givenOr "split_rules" none (.nullable (.list (.object SplitRule.Stated))) fs p.splitRules
  asset : Sense.givenOr "asset" "USD/2" Sense.text fs p.asset
  amount : Sense.given "amount" Sense.text fs p.amount

theorem isAccepted_read (v : Value) : (read v).isAccepted = shape v := by
  simp only [read, shape, Overdraft.shape, DestinationKind.shape, Reader.isAccepted_record,
    Checked.isAccepted_seq, Checked.isAccepted_map, isAccepted_required, isAccepted_optional,
    Reader.isAccepted_text, Reader.isAccepted_oneOf, Reader.isAccepted_nullable Reader.isAccepted_text,
    Reader.isAccepted_nullable (Reader.isAccepted_list SplitRule.isAccepted_read)]
  rfl

theorem exact_limit : (Reader.nullable Reader.text).Exact (.nullable Sense.text) :=
  Reader.exact_text.nullable

theorem exact_splitRules : (Reader.nullable (Reader.list SplitRule.read)).Exact
    (.nullable (.list (.object SplitRule.Stated))) :=
  SplitRule.exact_read.list.nullable

theorem exact_read : Posting.read.Exact (Sense.object Stated) := by
  intro v p
  constructor
  · intro h
    obtain ⟨fs, rfl, h₀⟩ := Reader.record_eq_accepted h
    obtain ⟨_, amount, h₁, hamount, rfl⟩ := Checked.seq_eq_accepted h₀
    obtain ⟨_, asset, h₂, hasset, rfl⟩ := Checked.seq_eq_accepted h₁
    obtain ⟨_, splitRules, h₃, hrules, rfl⟩ := Checked.seq_eq_accepted h₂
    obtain ⟨_, simpleDestination, h₄, hsimple, rfl⟩ := Checked.seq_eq_accepted h₃
    obtain ⟨_, destinationKind, h₅, hkind, rfl⟩ := Checked.seq_eq_accepted h₄
    obtain ⟨_, overdraftLimit, h₆, hlimit, rfl⟩ := Checked.seq_eq_accepted h₅
    obtain ⟨_, overdraft, h₇, hoverdraft, rfl⟩ := Checked.seq_eq_accepted h₆
    obtain ⟨source, hsource, rfl⟩ := Checked.map_eq_accepted h₇
    exact ⟨fs, rfl,
      { source := (Reader.exact_text.required _ _ _).mp hsource
        overdraft := (Overdraft.exact_read.optional _ _ _ _).mp hoverdraft
        overdraftLimit := (exact_limit.optional _ _ _ _).mp hlimit
        destinationKind := (DestinationKind.exact_read.required _ _ _).mp hkind
        simpleDestination := (exact_limit.optional _ _ _ _).mp hsimple
        splitRules := (exact_splitRules.optional _ _ _ _).mp hrules
        asset := (Reader.exact_text.optional _ _ _ _).mp hasset
        amount := (Reader.exact_text.required _ _ _).mp hamount }⟩
  · rintro ⟨fs, rfl, h⟩
    have hsource := (Reader.exact_text.required _ _ _).mpr h.source
    have hoverdraft := (Overdraft.exact_read.optional _ _ _ _).mpr h.overdraft
    have hlimit := (exact_limit.optional _ _ _ _).mpr h.overdraftLimit
    have hkind := (DestinationKind.exact_read.required _ _ _).mpr h.destinationKind
    have hsimple := (exact_limit.optional _ _ _ _).mpr h.simpleDestination
    have hrules := (exact_splitRules.optional _ _ _ _).mpr h.splitRules
    have hasset := (Reader.exact_text.optional _ _ _ _).mpr h.asset
    have hamount := (Reader.exact_text.required _ _ _).mpr h.amount
    simp only [read, Reader.record, standardAsset, hsource, hoverdraft, hlimit, hkind, hsimple,
      hrules, hasset, hamount]
    rfl

end Posting

namespace MetadataEntry

def shape : Shape := .object fun fs => Shape.has "key" .text fs && Shape.has "value" .text fs

structure Stated (fs : Fields) (e : MetadataEntry) : Prop where
  key : Sense.given "key" Sense.text fs e.key
  value : Sense.given "value" Sense.text fs e.value

theorem isAccepted_read (v : Value) : (read v).isAccepted = shape v := by
  simp only [read, shape, Reader.isAccepted_record, Checked.isAccepted_seq,
    Checked.isAccepted_map, isAccepted_required, Reader.isAccepted_text]

theorem exact_read : MetadataEntry.read.Exact (Sense.object Stated) := by
  intro v e
  constructor
  · intro h
    obtain ⟨fs, rfl, h₀⟩ := Reader.record_eq_accepted h
    obtain ⟨_, value, h₁, hvalue, rfl⟩ := Checked.seq_eq_accepted h₀
    obtain ⟨key, hkey, rfl⟩ := Checked.map_eq_accepted h₁
    exact ⟨fs, rfl, (Reader.exact_text.required _ _ _).mp hkey,
      (Reader.exact_text.required _ _ _).mp hvalue⟩
  · rintro ⟨fs, rfl, h⟩
    have hkey := (Reader.exact_text.required _ _ _).mpr h.key
    have hvalue := (Reader.exact_text.required _ _ _).mpr h.value
    simp only [read, Reader.record, hkey, hvalue]
    rfl

end MetadataEntry

namespace Intent

def shape : Shape := .object fun fs =>
  Shape.has "summary" .text fs &&
  Shape.has "postings" (.nonemptyList Posting.shape) fs &&
  Shape.mayHave "metadata" (.list MetadataEntry.shape) fs

structure Stated (fs : Fields) (i : Intent) : Prop where
  summary : Sense.given "summary" Sense.text fs i.summary
  postings : Sense.given "postings" (.nonemptyList (.object Posting.Stated)) fs i.postings
  metadata : Sense.givenOr "metadata" [] (.list (.object MetadataEntry.Stated)) fs i.metadata

theorem isAccepted_read (v : Value) : (read v).isAccepted = shape v := by
  simp only [read, shape, Reader.isAccepted_record, Checked.isAccepted_seq, Checked.isAccepted_map,
    isAccepted_required, isAccepted_optional, Reader.isAccepted_text,
    Reader.isAccepted_nonemptyList Posting.isAccepted_read,
    Reader.isAccepted_list MetadataEntry.isAccepted_read]

theorem exact_read : Intent.read.Exact (Sense.object Stated) := by
  intro v i
  constructor
  · intro h
    obtain ⟨fs, rfl, h₀⟩ := Reader.record_eq_accepted h
    obtain ⟨_, metadata, h₁, hmetadata, rfl⟩ := Checked.seq_eq_accepted h₀
    obtain ⟨_, postings, h₂, hpostings, rfl⟩ := Checked.seq_eq_accepted h₁
    obtain ⟨summary, hsummary, rfl⟩ := Checked.map_eq_accepted h₂
    exact ⟨fs, rfl, (Reader.exact_text.required _ _ _).mp hsummary,
      (Posting.exact_read.nonemptyList.required _ _ _).mp hpostings,
      (MetadataEntry.exact_read.list.optional _ _ _ _).mp hmetadata⟩
  · rintro ⟨fs, rfl, h⟩
    have hsummary := (Reader.exact_text.required _ _ _).mpr h.summary
    have hpostings := (Posting.exact_read.nonemptyList.required _ _ _).mpr h.postings
    have hmetadata := (MetadataEntry.exact_read.list.optional _ _ _ _).mpr h.metadata
    simp only [read, Reader.record, hsummary, hpostings, hmetadata]
    rfl

theorem inspect_eq_accepted_iff (payload : Value) (i : Intent) :
    inspect payload = (some i, []) ↔ Intent.read payload = .accepted i := by
  cases h : Intent.read payload with
  | accepted j => simp [inspect, issueLines, h, Checked.value?, Checked.issues]
  | rejected issue issues => simp [inspect, h, Checked.value?]

theorem inspect_eq_rejected_iff (payload : Value) :
    (∃ lines, lines ≠ [] ∧ inspect payload = (none, lines)) ↔
      (Intent.read payload).isAccepted = false := by
  cases h : Intent.read payload with
  | accepted j => simp [inspect, h, Checked.value?, Checked.isAccepted]
  | rejected issue issues =>
    simp [inspect, issueLines, h, Checked.value?, Checked.issues, Checked.isAccepted]

/-- A payload is accepted exactly if it has the shape of an intent, and with the intent that
it states; every other payload gives rise to issues. -/
theorem inspect_grammar (payload : Value) :
    ((∃ i, inspect payload = (some i, [])) ↔ shape payload = true) ∧
    ((∃ lines, lines ≠ [] ∧ inspect payload = (none, lines)) ↔ shape payload = false) ∧
    ∀ i, inspect payload = (some i, []) ↔ Sense.object Stated payload i := by
  refine ⟨?_, ?_, fun i => ?_⟩
  · simp only [inspect_eq_accepted_iff]
    rw [← isAccepted_read, Checked.isAccepted_iff]
  · rw [inspect_eq_rejected_iff, isAccepted_read]
  · rw [inspect_eq_accepted_iff]
    exact exact_read payload i

end Intent
end LedgerScript
