import LedgerScript.Audit.Event
import LedgerScript.Compilation.Result

/-! Which occurrences become events. A description may hold a summary, which is cut, and
numbers of list items, which are short for any list that can exist. -/
namespace LedgerScript

/-- More items than any list has. -/
def listCapacity : Nat := Nat.pow 10 100

namespace Decimal

theorem length_natText_le {n : Nat} (h : n < listCapacity) : (natText n).length ≤ 100 := by
  rw [natText, String.length_ofList]
  exact (Nat.length_toDigits_le_iff (by decide) (by decide)).mpr h

theorem length_intText_le {n : Nat} (h : n < listCapacity) :
    (intText (Int.ofNat n)).length ≤ 100 :=
  length_natText_le h

end Decimal

namespace Occurrence

/-- The event that tells of an occurrence under a correlation, written out for each kind. -/
def stamped (c : Correlation) : Occurrence → Event
  | .received summary postings =>
    { id := none
      time := none
      kind := .intentReceived
      severity := .info
      correlation := some c
      description := "Intent received: " ++ String.ofList (summary.toList.take 200)
      details := [("summary", .text summary), ("posting_count", .ofOption .integer postings)]
      errorMessage := none }
  | .invalid issues =>
    { id := none
      time := none
      kind := .intentValidationFailed
      severity := .warning
      correlation := some c
      description :=
        "Intent schema validation failed with " ++ Decimal.natText issues.length ++ " issues"
      details := [("issues", .list (issues.map .text))]
      errorMessage := none }
  | .started postings metadata =>
    { id := none
      time := none
      kind := .compilationStarted
      severity := .debug
      correlation := some c
      description := "Compiling " ++ Decimal.intText postings ++ " postings"
      details := [("posting_count", .integer postings), ("metadata_count", .integer metadata)]
      errorMessage := none }
  | .completed postings warnings scriptLength =>
    { id := none
      time := none
      kind := .compilationCompleted
      severity := .info
      correlation := some c
      description := "Compiled " ++ Decimal.intText postings ++ " postings with " ++
        Decimal.intText warnings ++ " warnings"
      details := [("posting_count", .integer postings), ("warning_count", .integer warnings),
        ("script_length", .integer scriptLength)]
      errorMessage := none }
  | .failed index reason =>
    { id := none
      time := none
      kind := .compilationFailed
      severity := .error
      correlation := some c
      description := "Compilation aborted, no script produced"
      details := [("posting_index", .ofOption .integer index)]
      errorMessage := some reason }
  | .conflict index message =>
    { id := none
      time := none
      kind := .splitModeConflict
      severity := .warning
      correlation := some c
      description := message
      details := [("posting_index", .ofOption .integer index)]
      errorMessage := none }

def Fits (o : Occurrence) : Prop := o.description.length ≤ Event.descriptionLimit

theorem event_of_fits {o : Occurrence} (h : o.Fits) (c : Correlation) :
    o.event (some c) = .ok (o.stamped c) := by
  cases o <;> exact if_pos h

theorem fits_received (summary : String) (postings : Option Int) :
    (received summary postings).Fits := by
  have hfront : (front 200 summary).length ≤ 200 := by
    rw [front, String.length_ofList]
    exact List.length_take_le 200 _
  have hhead : "Intent received: ".length = 17 := by decide
  show ("Intent received: " ++ front 200 summary).length ≤ 500
  rw [String.length_append]
  omega

theorem fits_invalid {issues : List String} (h : issues.length < listCapacity) :
    (invalid issues).Fits := by
  have hn := Decimal.length_natText_le h
  have hhead : "Intent schema validation failed with ".length = 37 := by decide
  have htail : " issues".length = 7 := by decide
  show ("Intent schema validation failed with " ++ Decimal.natText issues.length ++
    " issues").length ≤ 500
  rw [String.length_append, String.length_append]
  omega

theorem fits_started {postings : Nat} (h : postings < listCapacity) (metadata : Int) :
    (started (Int.ofNat postings) metadata).Fits := by
  have hn := Decimal.length_intText_le h
  have hhead : "Compiling ".length = 10 := by decide
  have htail : " postings".length = 9 := by decide
  show ("Compiling " ++ Decimal.intText (Int.ofNat postings) ++ " postings").length ≤ 500
  rw [String.length_append, String.length_append]
  omega

theorem fits_completed {postings warnings : Nat} (hp : postings < listCapacity)
    (hw : warnings < listCapacity) (length : Int) :
    (completed (Int.ofNat postings) (Int.ofNat warnings) length).Fits := by
  have hn := Decimal.length_intText_le hp
  have hm := Decimal.length_intText_le hw
  have hhead : "Compiled ".length = 9 := by decide
  have hmid : " postings with ".length = 15 := by decide
  have htail : " warnings".length = 9 := by decide
  show ("Compiled " ++ Decimal.intText (Int.ofNat postings) ++ " postings with " ++
    Decimal.intText (Int.ofNat warnings) ++ " warnings").length ≤ 500
  rw [String.length_append, String.length_append, String.length_append, String.length_append]
  omega

theorem fits_failed (index : Option Int) (reason : String) : (failed index reason).Fits := by
  show ("Compilation aborted, no script produced").length ≤ 500
  decide

/-- The number in the message counts from one, so the index stays one below it. -/
theorem fits_conflict {i : Nat} (h : i + 1 < listCapacity) (index : Option Int) :
    (conflict index (Warning.conflictMessage (Int.ofNat i))).Fits := by
  have hn : (Decimal.intText (Int.ofNat i + 1)).length ≤ 100 := Decimal.length_intText_le h
  have hhead : "Posting ".length = 8 := by decide
  have htail : " mixes fraction and max split rules; rendering all of them as capped amounts".length
      = 76 := by decide
  show ("Posting " ++ Decimal.intText (Int.ofNat i + 1) ++
    " mixes fraction and max split rules; rendering all of them as capped amounts").length ≤ 500
  rw [String.length_append, String.length_append]
  omega

end Occurrence
end LedgerScript
