import LedgerScript.Intent.Basic
import LedgerScript.Schema.Reader

/-! Reading the records of an intent from JSON and writing them back with every field
filled in. Only the shape is checked; whether a posting has the destination it
declares is for the compilation to say. -/
namespace LedgerScript
open Json (Value Fields)
open Schema

def SplitRule.read : Reader SplitRule := Reader.record "SplitRule" fun fs =>
  SplitRule.mk
    <$> required "target" Reader.text fs
    <*> required "amount_mode" (Reader.oneOf AmountMode.choices) fs
    <*> optional "value" "" Reader.text fs

def SplitRule.toValue (r : SplitRule) : Value := .object
  [("target", .text r.target), ("amount_mode", .text r.mode.word), ("value", .text r.value)]

def Posting.read : Reader Posting := Reader.record "Posting" fun fs =>
  Posting.mk
    <$> required "source" Reader.text fs
    <*> optional "source_overdraft" .none (Reader.oneOf Overdraft.choices) fs
    <*> optional "overdraft_limit" none (Reader.nullable Reader.text) fs
    <*> required "destination_type" (Reader.oneOf DestinationKind.choices) fs
    <*> optional "simple_destination" none (Reader.nullable Reader.text) fs
    <*> optional "split_rules" none (Reader.nullable (Reader.list SplitRule.read)) fs
    <*> optional "asset" standardAsset Reader.text fs
    <*> required "amount" Reader.text fs

def Posting.toValue (p : Posting) : Value := .object
  [("source", .text p.source),
   ("source_overdraft", .text p.overdraft.word),
   ("overdraft_limit", .ofOption .text p.overdraftLimit),
   ("destination_type", .text p.destinationKind.word),
   ("simple_destination", .ofOption .text p.simpleDestination),
   ("split_rules", .ofOption (fun rs => .list (rs.map SplitRule.toValue)) p.splitRules),
   ("asset", .text p.asset),
   ("amount", .text p.amount)]

def MetadataEntry.read : Reader MetadataEntry := Reader.record "MetadataEntry" fun fs =>
  MetadataEntry.mk <$> required "key" Reader.text fs <*> required "value" Reader.text fs

def MetadataEntry.toValue (e : MetadataEntry) : Value :=
  .object [("key", .text e.key), ("value", .text e.value)]

def Intent.read : Reader Intent := Reader.record "Intent" fun fs =>
  Intent.mk
    <$> required "summary" Reader.text fs
    <*> required "postings" (Reader.nonemptyList Posting.read) fs
    <*> optional "metadata" [] (Reader.list MetadataEntry.read) fs

def Intent.toValue (i : Intent) : Value := .object
  [("summary", .text i.summary),
   ("postings", .list (i.postings.map Posting.toValue)),
   ("metadata", .list (i.metadata.map MetadataEntry.toValue))]

/-- One line per issue of a payload; an issue with the payload as a whole is put to the
intent. -/
def Intent.issueLines (is : List Issue) : List String := is.map (Issue.line "intent")

/-- The intent a payload holds, or the lines that say why it holds none. -/
def Intent.inspect (v : Value) : Option Intent × List String :=
  let c := Intent.read v
  (c.value?, Intent.issueLines c.issues)

end LedgerScript
