import LedgerScript.Audit.Event
import LedgerScript.Proofs.Compilation.Verdicts
import LedgerScript.Proofs.Intent.Accepted
import LedgerScript.Proofs.Intent.Grammar
import LedgerScript.Proofs.Schema.RoundTrip
import LedgerScript.Proofs.Schema.Transport

/-! The written form of every kind of record. A record that was read from any value is read
again from what it is written as, so writing and reading settle at once. -/
namespace LedgerScript
open Json (Value Fields)
open Schema

namespace SplitRule

theorem read_toValue {r : SplitRule} (h : r.mode ∈ AmountMode.choices.map Prod.snd) :
    read r.toValue = .accepted r := by
  have hmode : Reader.oneOf AmountMode.choices (.text r.mode.word) = .accepted r.mode :=
    Reader.oneOf_word (by decide) (by decide) h
  exact (exact_read _ _).mpr ⟨_, rfl,
    { target := ⟨_, rfl, rfl⟩
      mode := ⟨_, rfl, (AmountMode.exact_read _ _).mp hmode⟩
      value := .inr ⟨_, rfl, rfl⟩ }⟩

theorem restores_read : SplitRule.read.Restores toValue := fun _ _ h =>
  read_toValue (mode_mem_of_read h)

end SplitRule

namespace Posting

/-- Each mode of the posting is among the listed ones, that of the overdraft too. -/
structure Listed (p : Posting) : Prop extends p.Known where
  overdraft : p.overdraft ∈ Overdraft.choices.map Prod.snd

theorem listed_of_read {v : Value} {p : Posting} (h : read v = .accepted p) : p.Listed := by
  refine ⟨known_of_read h, ?_⟩
  obtain ⟨fs, _, hstated⟩ := (exact_read v p).mp h
  obtain ⟨_, hdefault⟩ | ⟨w, _, word, _, hmem⟩ := hstated.overdraft
  · rw [hdefault]
    decide
  · exact List.mem_map_of_mem hmem

theorem read_toValue {p : Posting} (h : p.Listed) : read p.toValue = .accepted p := by
  have hoverdraft : Reader.oneOf Overdraft.choices (.text p.overdraft.word) =
      .accepted p.overdraft := Reader.oneOf_word (by decide) (by decide) h.overdraft
  have hkind : Reader.oneOf DestinationKind.choices (.text p.destinationKind.word) =
      .accepted p.destinationKind := Reader.oneOf_word (by decide) (by decide) h.destinationKind
  have hrules := Reader.nullable_ofOption (by simp) fun rules hrules =>
    Reader.list_map_write fun r hr => SplitRule.read_toValue (h.splitRules rules hrules r hr)
  have htext (o : Option String) : Reader.nullable Reader.text (.ofOption .text o) = .accepted o :=
    Reader.nullable_ofOption (by simp) fun s _ => rfl
  exact (exact_read _ _).mpr ⟨_, rfl,
    { source := ⟨_, rfl, rfl⟩
      overdraft := .inr ⟨_, rfl, (Overdraft.exact_read _ _).mp hoverdraft⟩
      overdraftLimit := .inr ⟨_, rfl, (exact_limit _ _).mp (htext _)⟩
      destinationKind := ⟨_, rfl, (DestinationKind.exact_read _ _).mp hkind⟩
      simpleDestination := .inr ⟨_, rfl, (exact_limit _ _).mp (htext _)⟩
      splitRules := .inr ⟨_, rfl, (exact_splitRules _ _).mp hrules⟩
      asset := .inr ⟨_, rfl, rfl⟩
      amount := ⟨_, rfl, rfl⟩ }⟩

theorem restores_read : Posting.read.Restores toValue := fun _ _ h => read_toValue (listed_of_read h)

end Posting

theorem MetadataEntry.read_toValue (e : MetadataEntry) : read e.toValue = .accepted e := rfl

namespace Intent

theorem read_toValue {i : Intent} (hne : i.postings ≠ []) (h : ∀ p ∈ i.postings, p.Listed) :
    read i.toValue = .accepted i := by
  have hpostings := Reader.nonemptyList_map_write hne fun p hp => Posting.read_toValue (h p hp)
  have hmetadata := Reader.list_map_write fun e (_ : e ∈ i.metadata) => e.read_toValue
  exact (exact_read _ _).mpr ⟨_, rfl,
    { summary := ⟨_, rfl, rfl⟩
      postings := ⟨_, rfl, (Posting.exact_read.nonemptyList _ _).mp hpostings⟩
      metadata := .inr ⟨_, rfl, (MetadataEntry.exact_read.list _ _).mp hmetadata⟩ }⟩

theorem restores_read : Intent.read.Restores toValue := by
  intro v i h
  obtain ⟨fs, vs, _, _, _, hvs, _⟩ := read_eq_accepted h
  refine read_toValue (known_of_read h).postings_ne_nil fun p hp => ?_
  obtain ⟨w, _, hw⟩ := Reader.exists_of_map_eq hvs hp
  exact Posting.listed_of_read hw

end Intent

theorem Gravity.read_word (g : Gravity) : Gravity.read (.text g.word) = .accepted g := by
  cases g <;> rfl

theorem Warning.read_toValue (w : Warning) : read w.toValue = .accepted w := by
  obtain ⟨code, index, message, gravity⟩ := w
  have hcode : Reader.oneOf WarningCode.choices (.text code.word) = .accepted code := by
    cases code
    rfl
  have hindex : Reader.nullable (Reader.atLeast 0) (.ofOption .ofNat index) = .accepted index :=
    Reader.nullable_ofOption (by simp [Value.ofNat]) fun n _ => Reader.atLeast_ofNat (Nat.zero_le n)
  exact Checked.seq_accepted (Checked.seq_accepted (Checked.seq_accepted
    (Checked.map_accepted _ (required_of_get? rfl hcode))
    (optional_of_get? rfl hindex))
    (required_of_get? rfl rfl))
    (optional_of_get? rfl gravity.read_word)

namespace Compiled

theorem read_toValue {c : Compiled} (h : 1 ≤ c.postingCount) : read c.toValue = .accepted c := by
  obtain ⟨script, warnings, postings, metadata⟩ := c
  have hwarnings := Reader.list_map_write fun w (_ : w ∈ warnings) => w.read_toValue
  exact Checked.seq_accepted (Checked.seq_accepted (Checked.seq_accepted
    (Checked.map_accepted _ (required_of_get? rfl rfl))
    (optional_of_get? rfl hwarnings))
    (required_of_get? rfl (Reader.atLeast_ofNat h)))
    (optional_of_get? rfl (Reader.atLeast_ofNat (Nat.zero_le metadata)))

theorem restores_read : Compiled.read.Restores toValue := by
  intro v c h
  obtain ⟨fs, rfl, h₀⟩ := Reader.record_eq_accepted h
  obtain ⟨_, metadata, h₁, _, rfl⟩ := Checked.seq_eq_accepted h₀
  obtain ⟨_, postings, h₂, hpostings, rfl⟩ := Checked.seq_eq_accepted h₁
  obtain ⟨_, warnings, h₃, _, rfl⟩ := Checked.seq_eq_accepted h₂
  obtain ⟨script, _, rfl⟩ := Checked.map_eq_accepted h₃
  obtain ⟨w, _, hw⟩ := required_eq_accepted hpostings
  exact read_toValue (Reader.le_of_atLeast hw)

theorem read_toValue_of_compile {settings : CompilerSettings} {intent : Intent}
    (hne : intent.postings ≠ []) {c : Compiled} (h : (compile settings intent).outcome = .ok c) :
    read c.toValue = .accepted c := by
  have hcount : c.postingCount = intent.postings.length := (covers_of_compile h).1
  have hpos : 0 < intent.postings.length := List.length_pos_of_ne_nil hne
  exact read_toValue (by omega)

end Compiled

/-- How an identifier is written: one that was given as such, one that was drawn in any way. -/
def Identifier.name (drawn : Nat → String) : Identifier → String
  | .given u => u.text
  | .drawn n => drawn n

namespace Event

def log (drawn : Nat → String) (e : Event) : Value := .object (e.fields (Identifier.name drawn))

/-- The event once its recorder has given it the identity and the time it came without. -/
def assigned (id : Uuid) (time : Timestamp) (e : Event) : Event :=
  { e with id := some (e.id.getD (.given id)), time := some (e.time.getD time) }

structure Sound (e : Event) : Prop where
  id : ∀ n, e.id ≠ some (.drawn n)
  time : ∀ t ∈ e.time, t.Given
  correlation : ∀ n, e.correlation ≠ some (.drawn n)
  description : e.description.length ≤ descriptionLimit

theorem sound_of_read {v : Value} {e : Event} (h : read v = .accepted e) : e.Sound := by
  obtain ⟨fs, rfl, h₀⟩ := Reader.record_eq_accepted h
  obtain ⟨_, errorMessage, h₁, _, rfl⟩ := Checked.seq_eq_accepted h₀
  obtain ⟨_, details, h₂, _, rfl⟩ := Checked.seq_eq_accepted h₁
  obtain ⟨_, description, h₃, hdescription, rfl⟩ := Checked.seq_eq_accepted h₂
  obtain ⟨_, correlation, h₄, hcorrelation, rfl⟩ := Checked.seq_eq_accepted h₃
  obtain ⟨_, severity, h₅, _, rfl⟩ := Checked.seq_eq_accepted h₄
  obtain ⟨_, kind, h₆, _, rfl⟩ := Checked.seq_eq_accepted h₅
  obtain ⟨_, time, h₇, htime, rfl⟩ := Checked.seq_eq_accepted h₆
  obtain ⟨id, hid, rfl⟩ := Checked.map_eq_accepted h₇
  refine ⟨fun n hn => ?_, fun t ht => ?_, fun n hn => ?_, ?_⟩
  · obtain ⟨_, hnone⟩ | ⟨w, _, hw⟩ := optional_eq_accepted hid
    · cases hnone.symm.trans hn
    · obtain ⟨u, _, hu⟩ := Checked.map_eq_accepted hw
      cases hu.trans hn
  · obtain ⟨_, hnone⟩ | ⟨w, _, hw⟩ := optional_eq_accepted htime
    · cases hnone ▸ ht
    · obtain ⟨u, hu, hsome⟩ := Checked.map_eq_accepted hw
      cases hsome.trans ht
      exact Reader.given_of_timestamp hu
  · obtain ⟨_, hnone⟩ | ⟨w, _, hw⟩ := optional_eq_accepted hcorrelation
    · cases hnone.symm.trans hn
    · obtain ⟨o, _, ho⟩ := Checked.map_eq_accepted hw
      cases o <;> cases ho.trans hn
  · obtain ⟨w, _, hw⟩ := required_eq_accepted hdescription
    exact Reader.length_of_textUpTo hw

theorem Sound.assigned {e : Event} (h : e.Sound) (id : Uuid) {time : Timestamp} (ht : time.Given) :
    (e.assigned id time).Sound := by
  refine ⟨fun n hn => ?_, fun t hmem => ?_, h.correlation, h.description⟩
  · have hgetD : e.id.getD (.given id) = .drawn n := Option.some.inj hn
    cases hid : e.id with
    | none => simp [hid] at hgetD
    | some i => exact h.id n (by rw [hid, ← hgetD, hid, Option.getD_some])
  · obtain rfl : e.time.getD time = t := Option.some.inj hmem
    cases htime : e.time with
    | none => exact ht
    | some u => exact h.time u htime

/-- Identity and time stand before the other fields and hide none of them. -/
theorem get?_fields_of_ne {name : String} (hid : name ≠ "event_id") (htime : name ≠ "timestamp")
    (write : Identifier → String) (e : Event) :
    (e.fields write).get? name = (e.content write).get? name := by
  obtain ⟨id, time, kind, severity, correlation, description, details, errorMessage⟩ := e
  cases id <;> cases time <;> simp [fields, identity, get?_cons_of_ne, hid, htime, content]

theorem get?_fields_id (write : Identifier → String) (e : Event) :
    (e.fields write).get? "event_id" = e.id.map fun i => .text (write i) := by
  obtain ⟨id, time, kind, severity, correlation, description, details, errorMessage⟩ := e
  cases id <;> cases time <;> rfl

theorem get?_fields_time (write : Identifier → String) (e : Event) :
    (e.fields write).get? "timestamp" = e.time.map fun t => .text t.text := by
  obtain ⟨id, time, kind, severity, correlation, description, details, errorMessage⟩ := e
  cases id <;> cases time <;> rfl

theorem read_kind_word (k : EventKind) :
    Reader.oneOf EventKind.choices (.text k.word) = .accepted k := by
  cases k <;> rfl

theorem read_severity_word (s : Severity) :
    Reader.oneOf Severity.choices (.text s.word) = .accepted s := by
  cases s <;> rfl

theorem read_correlation_name {c : Option Correlation} (h : ∀ n, c ≠ some (.drawn n))
    (drawn : Nat → String) :
    Option.map .given <$> Reader.nullable Reader.identifier
      (.ofOption (fun c => .text (c.name drawn)) c) = .accepted c := by
  cases c with
  | none => rfl
  | some c =>
    cases c with
    | given u =>
      have hread : Reader.nullable Reader.identifier (.text u.text) = .accepted (some u) :=
        Checked.map_accepted some (Reader.identifier_text u)
      exact Checked.map_accepted (Option.map Identifier.given) hread
    | drawn n => exact absurd rfl (h n)

theorem read_identity {e : Event} (h : ∀ n, e.id ≠ some (.drawn n)) (drawn : Nat → String) :
    optional "event_id" none (fun v => (some ∘ .given) <$> Reader.identifier v)
      (e.fields (Identifier.name drawn)) = .accepted e.id := by
  have hget := get?_fields_id (Identifier.name drawn) e
  cases hid : e.id with
  | none => simp only [Schema.optional, hget, hid, Option.map_none]
  | some i =>
    rw [hid] at hget
    cases i with
    | given u =>
      have hread := Checked.map_accepted (some ∘ Identifier.given) (Reader.identifier_text u)
      exact optional_of_get? hget hread
    | drawn n => exact absurd hid (h n)

theorem read_log {e : Event} (h : e.Sound) (drawn : Nat → String) :
    read (e.log drawn) = .accepted e := by
  -- Identity and time may be missing from the line; the six fields behind them are always there.
  have hget {name : String} {v : Value} (hid : name ≠ "event_id") (htime : name ≠ "timestamp")
      (hv : (e.content (Identifier.name drawn)).get? name = some v) :
      (e.fields (Identifier.name drawn)).get? name = some v :=
    (get?_fields_of_ne hid htime _ e).trans hv
  have htime := optional_of_map (get?_fields_time (Identifier.name drawn) e) fun t ht =>
    Reader.timestamp_text (h.time t ht)
  have herror : Reader.nullable Reader.text (.ofOption .text e.errorMessage) =
      .accepted e.errorMessage := Reader.nullable_ofOption (by simp) fun s _ => rfl
  exact Checked.seq_accepted (Checked.seq_accepted (Checked.seq_accepted (Checked.seq_accepted
    (Checked.seq_accepted (Checked.seq_accepted (Checked.seq_accepted
    (Checked.map_accepted Event.mk (read_identity h.id drawn))
    htime)
    (required_of_get? (hget (by decide) (by decide) rfl) (read_kind_word e.kind)))
    (optional_of_get? (hget (by decide) (by decide) rfl) (read_severity_word e.severity)))
    (optional_of_get? (hget (by decide) (by decide) rfl)
      (read_correlation_name h.correlation drawn)))
    (required_of_get? (hget (by decide) (by decide) rfl) (Reader.textUpTo_text h.description)))
    (optional_of_get? (hget (by decide) (by decide) rfl) rfl))
    (optional_of_get? (hget (by decide) (by decide) rfl) herror)

end Event

/-- For every kind of record what is read is read again from its written form; so is an event
that has got its identity and time, and whatever a compilation hands back. -/
theorem records_restored :
    SplitRule.read.Restores SplitRule.toValue ∧
    Posting.read.Restores Posting.toValue ∧
    MetadataEntry.read.Restores MetadataEntry.toValue ∧
    Intent.read.Restores Intent.toValue ∧
    Warning.read.Restores Warning.toValue ∧
    Compiled.read.Restores Compiled.toValue ∧
    (∀ drawn, Event.read.Restores (Event.log drawn)) ∧
    (∀ drawn id time v e, Timestamp.Given time → Event.read v = .accepted e →
      Event.read ((e.assigned id time).log drawn) = .accepted (e.assigned id time)) ∧
    ∀ settings v intent c, Intent.read v = .accepted intent →
      (compile settings intent).outcome = .ok c → Compiled.read c.toValue = .accepted c := by
  refine ⟨SplitRule.restores_read, Posting.restores_read, fun _ e _ => e.read_toValue,
    Intent.restores_read, fun _ w _ => w.read_toValue, Compiled.restores_read, ?_, ?_, ?_⟩
  · intro drawn v e h
    exact Event.read_log (Event.sound_of_read h) drawn
  · intro drawn id time v e htime h
    exact Event.read_log ((Event.sound_of_read h).assigned id htime) drawn
  · intro settings v intent c hread hcompile
    exact Compiled.read_toValue_of_compile (Intent.known_of_read hread).postings_ne_nil hcompile

def Event.brief : Event :=
  ⟨none, none, .compilationStarted, .info, none, "Compiling 1 postings", [], none⟩

def Uuid.sample : Uuid := ⟨List.replicate 32 ⟨10, by decide⟩, List.length_replicate⟩

/-- Half past twelve on a leap day, and half a second later, an hour and a half behind. -/
def Timestamp.sample : Timestamp := ⟨⟨2024, 2, 29⟩, ⟨12, 30, 0, 500000⟩, some (-90)⟩

/-- The identifier, the time and the counts are given in other forms than the written ones. -/
theorem records_restored_spellings :
    Event.read (.object
      [("event_id", .text "urn:uuid:AAAAAAAA-AAAA-AAAA-AAAA-AAAAAAAAAAAA"),
       ("timestamp", .text "2024-02-29 12:30:00,5-0130"),
       ("event_type", .text "compilation_started"),
       ("description", .text "Compiling 1 postings")]) =
      .accepted (Event.brief.assigned .sample .sample) ∧
    Uuid.sample.text = "aaaaaaaa-aaaa-aaaa-aaaa-aaaaaaaaaaaa" ∧
    Timestamp.sample.text = "2024-02-29T12:30:00.500000-01:30" ∧
    Event.read ((Event.brief.assigned .sample .sample).log Decimal.natText) =
      .accepted (Event.brief.assigned .sample .sample) ∧
    Compiled.read (.object [("script", .text "send"), ("posting_count", .text " +0_1.0 "),
      ("metadata_count", .bool true)]) = .accepted ⟨"send", [], 1, 1⟩ ∧
    Compiled.read (Compiled.toValue ⟨"send", [], 1, 1⟩) = .accepted ⟨"send", [], 1, 1⟩ := by
  obtain ⟨_, _, _, _, _, hcompiled, _, hassigned, _⟩ := records_restored
  have hgiven : Timestamp.sample.Given := ⟨by decide, by decide⟩
  have hbrief : Event.read (.object [("event_type", .text "compilation_started"),
      ("description", .text "Compiling 1 postings")]) = .accepted Event.brief := rfl
  have hcounts : Compiled.read (.object [("script", .text "send"),
      ("posting_count", .text " +0_1.0 "), ("metadata_count", .bool true)]) =
      .accepted ⟨"send", [], 1, 1⟩ := rfl
  exact ⟨rfl, by decide, by decide, hassigned _ _ _ _ _ hgiven hbrief, hcounts,
    hcompiled _ _ hcounts⟩

end LedgerScript
