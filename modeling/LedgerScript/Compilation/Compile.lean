import LedgerScript.Audit.Transcript
import LedgerScript.Compilation.Draft
import LedgerScript.Settings.Sections

/-! From an intent to a script. Either every posting becomes a statement or there is
no script at all; the first posting at fault decides the failure. -/
namespace LedgerScript
open Json (Value)

/-- The statements of some postings, counted from a number on, and all their warnings. -/
def gather {α : Type} (toSend : α → Int → Except Failure (Send × List Warning)) :
    Nat → List α → Except Failure (List Send × List Warning)
  | _, [] => .ok ([], [])
  | i, p :: ps =>
    match toSend p (Int.ofNat i) with
    | .error e => .error e
    | .ok (s, ws) => (gather toSend (i + 1) ps).map fun (ss, vs) => (s :: ss, ws ++ vs)

def Posting.toSends (strict : Bool) :
    Nat → List Posting → Except Failure (List Send × List Warning) :=
  gather fun p i => p.toSend i strict

def DraftPosting.toSends (strict : Bool) :
    Nat → List DraftPosting → Except Failure (List Send × List Warning) :=
  gather fun p i => p.toSend i strict

namespace Note

def failed (r : Refusal) : Note :=
  ⟨.error, "compilation_failed",
    [("posting_index", .ofOption .integer r.index?), ("error", .text r.message)]⟩

def warned (w : Warning) : Note :=
  ⟨.warning, "compilation_warning",
    [("code", .text w.code.word), ("posting_index", .ofOption .ofNat w.postingIndex),
     ("message", .text w.message)]⟩

def completed (postings metadata warnings : Nat) : Note :=
  ⟨.debug, "compilation_completed",
    [("posting_count", .ofNat postings), ("metadata_count", .ofNat metadata),
     ("warning_count", .ofNat warnings)]⟩

end Note

/-- Puts a script together from its parts, of which the statements are asked for first. -/
def assemble (trailingNewline : Bool) (statements : Except Failure (List Send × List Warning))
    (summary : Except Failure String) (metadata : List MetadataEntry) : Transcript Compiled := do
  let (sends, warnings) ←
    (Transcript.ofExcept statements).onRefusal fun r => .perform [.note (.failed r)]
  Transcript.perform (warnings.map fun w => .note (.warned w))
  let script : Script := ⟨← Transcript.ofExcept summary, sends, metadata⟩
  Transcript.perform [.note (.completed sends.length metadata.length warnings.length)]
  Transcript.ofExcept
    (Compiled.make (script.render trailingNewline) warnings sends.length metadata.length)

def compile (settings : CompilerSettings) (intent : Intent) : Transcript Compiled :=
  assemble settings.trailingNewline
    (Posting.toSends settings.strictSplitModes 0 intent.postings) (.ok intent.summary)
    intent.metadata

def compileDraft (settings : CompilerSettings) (draft : DraftIntent) : Transcript Compiled := do
  let postings ← Transcript.ofExcept (Draft.present "Intent" "postings" draft.postings)
  assemble settings.trailingNewline
    (DraftPosting.toSends settings.strictSplitModes 0 postings)
    (Draft.present "Intent" "summary" draft.summary >>= Draft.shown) draft.metadata

def compileUnder (settings : Except Failure CompilerSettings)
    (run : CompilerSettings → Transcript Compiled) :
    Except Failure (CompilerSettings × Compiled) := do
  let settings ← settings
  let result ← (run settings).outcome
  return (settings, result)

namespace Surroundings

def compile (w : Surroundings) (run : CompilerSettings → Transcript Compiled) :
    Except Failure (CompilerSettings × Compiled) := compileUnder w.compilerSettings run

def script (w : Surroundings) (intent : Intent) : Except Failure String :=
  (w.compile (LedgerScript.compile · intent)).map fun (_, result) => result.script

end Surroundings

end LedgerScript
