import LedgerScript.Proofs.Compilation.Unchecked
import LedgerScript.Proofs.Compilation.Verdicts

/-! The first fault decides. What can be wrong with a posting is said here without the
compilation; a compilation fails exactly if something is wrong with some posting, and it
reports the first that it comes to. -/
namespace LedgerScript

inductive Posting.Fault where
  | malformed (d : Defect)
  | mixed
  | unknownMode (shown : String)
deriving DecidableEq, Repr

namespace SplitRule

def unknown? (r : SplitRule) : Option String :=
  match r.mode with
  | .other shown => some shown
  | _ => none

theorem allocation_of_unknown {r : SplitRule} {w : String} (h : r.unknown? = some w)
    (asset : String) (capped : Bool) : allocation asset capped r = .error (.unsupportedMode w) := by
  obtain ⟨target, mode, value⟩ := r
  cases mode with
  | other shown =>
    obtain rfl : shown = w := Option.some.inj h
    rfl
  | _ => cases h

theorem exists_allocation {r : SplitRule} (h : r.unknown? = none) (asset : String)
    (capped : Bool) : ∃ a, allocation asset capped r = .ok a := by
  obtain ⟨target, mode, value⟩ := r
  cases mode with
  | other shown => cases h
  | _ => exact ⟨_, rfl⟩

end SplitRule

section Traversals
variable {α β : Type} {f : α → Except Failure β}

theorem exists_mapM {xs : List α} (h : ∀ x ∈ xs, ∃ b, f x = .ok b) :
    ∃ bs, xs.mapM f = .ok bs := by
  induction xs with
  | nil => exact ⟨[], rfl⟩
  | cons x xs ih =>
    obtain ⟨b, hb⟩ := h x (by simp)
    obtain ⟨bs, hbs⟩ := ih fun y hy => h y (List.mem_cons_of_mem x hy)
    refine ⟨b :: bs, ?_⟩
    rw [List.mapM_cons, hb, hbs]
    rfl

theorem mapM_of_first {before after : List α} {x : α} {e : Failure}
    (hbefore : ∀ y ∈ before, ∃ b, f y = .ok b) (hx : f x = .error e) :
    (before ++ x :: after).mapM f = .error e := by
  obtain ⟨bs, hbs⟩ := exists_mapM hbefore
  rw [List.mapM_append, hbs, List.mapM_cons, hx]
  rfl

end Traversals

theorem AmountMode.exists_conflictWarnings {strict : Bool} {modes : List AmountMode}
    (h : ¬(strict = true ∧ conflicting modes = true)) (i : Nat) :
    ∃ ws, conflictWarnings (Int.ofNat i) strict modes = .ok ws := by
  rw [conflictWarnings_eq]
  split
  next hc =>
    split
    next hs => exact absurd ⟨hs, hc⟩ h
    next => exact ⟨_, rfl⟩
  next => exact ⟨_, rfl⟩

namespace SplitRule

theorem block_of_mixed {rules : List SplitRule}
    (h : AmountMode.conflicting (rules.map mode) = true) (asset : String) (i : Nat) :
    block asset (Int.ofNat i) true rules =
      .error (.refusal (.conflict (Int.ofNat i) (Warning.conflictMessage (Int.ofNat i)))) := by
  have hws := AmountMode.conflictWarnings_eq i true (rules.map mode)
  rw [if_pos h, if_pos rfl] at hws
  simp only [block, hws]
  rfl

variable {asset : String} {i : Int} {strict : Bool} {rules : List SplitRule} {ws : List Warning}

theorem exists_block (hws : AmountMode.conflictWarnings i strict (rules.map mode) = .ok ws)
    (h : rules.findSome? unknown? = none) :
    ∃ as, block asset i strict rules = .ok (.block as, ws) := by
  rw [List.findSome?_eq_none_iff] at h
  have hlines : ∀ r ∈ arrange isRemaining rules,
      ∃ a, allocation asset (AmountMode.conflicting (rules.map mode)) r = .ok a := by
    intro r hr
    exact exists_allocation (h r ((arrange_perm isRemaining rules).mem_iff.mp hr)) _ _
  obtain ⟨as, has⟩ := exists_mapM hlines
  refine ⟨as, ?_⟩
  simp only [block, hws, has]
  rfl

/-- Rules are put last only if they are known, so the first unknown mode stays the first. -/
theorem block_of_unknown (hws : AmountMode.conflictWarnings i strict (rules.map mode) = .ok ws)
    {w : String} (h : rules.findSome? unknown? = some w) :
    block asset i strict rules = .error (.unsupportedMode w) := by
  obtain ⟨before, r, after, hrules, hr, hbefore⟩ := List.findSome?_eq_some_iff.mp h
  have hnot : r.isRemaining = false := by
    cases hm : r.mode <;> simp [unknown?, isRemaining, hm] at hr ⊢
  have harranged : arrange isRemaining rules = before.filter (!isRemaining ·) ++
      r :: (after.filter (!isRemaining ·) ++ rules.filter isRemaining) := by
    simp [arrange, hrules, hnot]
  have hlines (capped : Bool) :
      (arrange isRemaining rules).mapM (allocation asset capped) = .error (.unsupportedMode w) := by
    rw [harranged]
    refine mapM_of_first (fun q hq => ?_) (allocation_of_unknown hr asset capped)
    exact exists_allocation (hbefore q (List.mem_filter.mp hq).1) asset capped
  simp only [block, hws, hlines]
  rfl

end SplitRule

namespace Posting

def rules (p : Posting) : List SplitRule := p.splitRules.getD []

def HoldsBoth (p : Posting) : Prop :=
  (∃ r ∈ p.rules, r.mode = .fraction) ∧ ∃ r ∈ p.rules, r.mode = .max

instance (p : Posting) : Decidable p.HoldsBoth := inferInstanceAs (Decidable (_ ∧ _))

/-- The data of the declared destination is missing, or it is of no kind that there is. -/
def defect? (p : Posting) : Option Defect :=
  match p.destinationKind with
  | .simple =>
    if p.simpleDestination = none ∨ p.simpleDestination = some "" then some .noSimpleDestination
    else none
  | .split =>
    if p.splitRules = none ∨ p.splitRules = some [] then some .noSplitRules else none
  | .other shown => some (.unsupportedKind shown)

def Mixed (p : Posting) : Prop := p.destinationKind = .split ∧ p.HoldsBoth

instance (p : Posting) : Decidable p.Mixed := inferInstanceAs (Decidable (_ ∧ _))

def unknownMode? (p : Posting) : Option String :=
  if p.destinationKind = .split then p.rules.findSome? SplitRule.unknown? else none

/-- What is wrong with a posting, if anything is. A defect comes before a mix of modes,
which counts only strictly, and that before a mode that is not known. -/
def fault? (strict : Bool) (p : Posting) : Option Fault :=
  (p.defect?.map Fault.malformed).or
    (if strict = true ∧ p.Mixed then some .mixed else p.unknownMode?.map .unknownMode)

theorem fault?_of_defect {p : Posting} {d : Defect} (h : p.defect? = some d) (strict : Bool) :
    p.fault? strict = some (.malformed d) := by
  simp [fault?, h]

theorem fault?_of_no_defect {p : Posting} (h : p.defect? = none) (strict : Bool) :
    p.fault? strict =
      if strict = true ∧ p.Mixed then some .mixed else p.unknownMode?.map .unknownMode := by
  simp [fault?, h]

/-- A fault comes from one of the three checks, and those before it found nothing. -/
theorem fault?_cases {p : Posting} {strict : Bool} {fault : Fault}
    (h : p.fault? strict = some fault) :
    (∃ d, p.defect? = some d ∧ fault = .malformed d) ∨
    (p.defect? = none ∧ strict = true ∧ p.Mixed ∧ fault = .mixed) ∨
    (p.defect? = none ∧ ¬(strict = true ∧ p.Mixed) ∧
      ∃ w, p.unknownMode? = some w ∧ fault = .unknownMode w) := by
  cases hdefect : p.defect? with
  | some d =>
    rw [fault?_of_defect hdefect] at h
    exact .inl ⟨d, rfl, (Option.some.inj h).symm⟩
  | none =>
    rw [fault?_of_no_defect hdefect] at h
    split at h
    next hmixed => exact .inr (.inl ⟨rfl, hmixed.1, hmixed.2, (Option.some.inj h).symm⟩)
    next hnot =>
      obtain ⟨w, hw, rfl⟩ := Option.map_eq_some_iff.mp h
      exact .inr (.inr ⟨rfl, hnot, w, hw, rfl⟩)

theorem holdsBoth_iff (p : Posting) :
    p.HoldsBoth ↔ AmountMode.conflicting (p.rules.map SplitRule.mode) = true := by
  simp [HoldsBoth, AmountMode.conflicting]

theorem destination_of_defect {p : Posting} {d : Defect} (h : p.defect? = some d) (i : Int)
    (strict : Bool) : p.destination i strict = .error (.refusal (.malformed i d)) := by
  obtain ⟨source, overdraft, limit, kind, account, rules, asset, amount⟩ := p
  cases kind with
  | simple =>
    simp only [defect?] at h
    split at h
    next hnone =>
      cases h
      obtain rfl | rfl := hnone <;> rfl
    next => cases h
  | split =>
    simp only [defect?] at h
    split at h
    next hnone =>
      cases h
      obtain rfl | rfl := hnone <;> rfl
    next => cases h
  | other shown =>
    cases h
    rfl

theorem destination_of_no_defect {p : Posting} (h : p.defect? = none) :
    (p.destinationKind = .simple ∧
      ∃ a, ∀ i strict, p.destination i strict = .ok (.account (address a), [])) ∨
    (p.destinationKind = .split ∧
      ∀ i strict, p.destination i strict = SplitRule.block p.asset i strict p.rules) := by
  obtain ⟨source, overdraft, limit, kind, account, rules, asset, amount⟩ := p
  cases kind with
  | simple =>
    simp only [defect?] at h
    split at h
    next => cases h
    next hsome =>
      cases account with
      | none => simp at hsome
      | some a =>
        have ha : a ≠ "" := by simpa using hsome
        exact .inl ⟨rfl, a, fun i strict => by simp only [destination, filter_some_of_ne ha]⟩
  | split =>
    simp only [defect?] at h
    split at h
    next => cases h
    next hsome =>
      cases rules with
      | none => simp at hsome
      | some rules =>
        have hr : rules ≠ [] := by simpa using hsome
        refine .inr ⟨rfl, fun i strict => ?_⟩
        simp only [destination, filter_some_of_ne hr]
        rfl
  | other shown => cases h

def Fault.failure (i : Nat) : Fault → Failure
  | .malformed d => .refusal (.malformed (Int.ofNat i) d)
  | .mixed => .refusal (.conflict (Int.ofNat i) (Warning.conflictMessage (Int.ofNat i)))
  | .unknownMode shown => .unsupportedMode shown

theorem destination_of_fault {p : Posting} {strict : Bool} {fault : Fault}
    (h : p.fault? strict = some fault) (i : Nat) :
    p.destination (Int.ofNat i) strict = .error (fault.failure i) := by
  obtain ⟨d, hd, rfl⟩ | ⟨hdefect, rfl, hmixed, rfl⟩ | ⟨hdefect, hnot, w, hw, rfl⟩ := fault?_cases h
  · exact destination_of_defect hd (Int.ofNat i) strict
  · obtain ⟨hkind, _⟩ | ⟨_, hblock⟩ := destination_of_no_defect hdefect
    · cases hkind.symm.trans hmixed.1
    · rw [hblock]
      exact SplitRule.block_of_mixed ((holdsBoth_iff p).mp hmixed.2) p.asset i
  · obtain ⟨hkind, _⟩ | ⟨hkind, hblock⟩ := destination_of_no_defect hdefect
    · simp [unknownMode?, hkind] at hw
    · rw [Mixed, hkind, eq_self, true_and, holdsBoth_iff] at hnot
      obtain ⟨ws, hws⟩ := AmountMode.exists_conflictWarnings hnot i
      rw [unknownMode?, if_pos hkind] at hw
      rw [hblock]
      exact SplitRule.block_of_unknown hws hw

theorem exists_destination {p : Posting} {strict : Bool} (h : p.fault? strict = none) (i : Nat) :
    ∃ r, p.destination (Int.ofNat i) strict = .ok r := by
  cases hdefect : p.defect? with
  | some d =>
    rw [fault?_of_defect hdefect] at h
    cases h
  | none =>
    rw [fault?_of_no_defect hdefect] at h
    obtain ⟨_, a, ha⟩ | ⟨hkind, hblock⟩ := destination_of_no_defect hdefect
    · exact ⟨_, ha (Int.ofNat i) strict⟩
    · rw [hblock]
      simp only [Mixed, unknownMode?, hkind, true_and, if_true] at h
      split at h
      next => cases h
      next hnot =>
        rw [holdsBoth_iff] at hnot
        obtain ⟨ws, hws⟩ := AmountMode.exists_conflictWarnings hnot i
        obtain ⟨as, has⟩ := SplitRule.exists_block hws (Option.map_eq_none_iff.mp h)
        exact ⟨_, has⟩

theorem toSend_of_fault {p : Posting} {strict : Bool} {fault : Fault}
    (h : p.fault? strict = some fault) (i : Nat) :
    p.toSend (Int.ofNat i) strict = .error (fault.failure i) := by
  rw [toSend, destination_of_fault h]
  rfl

theorem exists_toSend {p : Posting} {strict : Bool} (h : p.fault? strict = none) (i : Nat) :
    ∃ r, p.toSend (Int.ofNat i) strict = .ok r := by
  obtain ⟨r, hr⟩ := exists_destination h i
  rw [toSend, hr]
  exact ⟨_, rfl⟩

theorem exists_toSends {ps : List Posting} {strict : Bool} (h : ∀ p ∈ ps, p.fault? strict = none)
    (i : Nat) : ∃ r, toSends strict i ps = .ok r := by
  induction ps generalizing i with
  | nil => exact ⟨_, rfl⟩
  | cons p ps ih =>
    obtain ⟨r, hr⟩ := exists_toSend (h p (by simp)) i
    obtain ⟨rs, hrs⟩ := ih (fun q hq => h q (List.mem_cons_of_mem p hq)) (i + 1)
    rw [toSends] at hrs ⊢
    simp only [gather, hr, hrs]
    exact ⟨_, rfl⟩

/-- The first fault ends the run; what follows it is not looked at. -/
theorem toSends_of_first {before after : List Posting} {p : Posting} {strict : Bool}
    {fault : Fault} (hbefore : ∀ q ∈ before, q.fault? strict = none)
    (hp : p.fault? strict = some fault) (i : Nat) :
    toSends strict i (before ++ p :: after) = .error (fault.failure (i + before.length)) := by
  obtain ⟨r, hr⟩ := exists_toSends hbefore i
  rw [toSends] at hr ⊢
  rw [gather_append, hr]
  simp only [Except.bind, gather, toSend_of_fault hp, Except.map]

/-- How a fault of posting `i` reads: a refusal carries the index and its message the
number, which is one more; of an unknown mode it is told how it shows. -/
inductive Fault.Reported (i : Nat) : Fault → Failure → Prop where
  | malformed {d : Defect} {r : Refusal} (kind : r = .malformed (Int.ofNat i) d)
      (index : r.index? = some (Int.ofNat i))
      (message : r.message = "posting " ++ Decimal.natText (i + 1) ++ " " ++ d.reason) :
      Reported i (.malformed d) (.refusal r)
  | mixed {m : String} {r : Refusal} (kind : r = .conflict (Int.ofNat i) m)
      (index : r.index? = some (Int.ofNat i))
      (message : r.message = "Posting " ++ Decimal.natText (i + 1) ++
        " mixes fraction and max split rules; rendering all of them as capped amounts") :
      Reported i .mixed (.refusal r)
  | unknownMode {shown : String} : Reported i (.unknownMode shown) (.unsupportedMode shown)

theorem Fault.reported_failure (i : Nat) (fault : Fault) : fault.Reported i (fault.failure i) := by
  cases fault with
  | malformed d => exact .malformed rfl rfl rfl
  | mixed => exact .mixed rfl rfl rfl
  | unknownMode shown => exact .unknownMode

end Posting

structure Intent.FirstFault (intent : Intent) (strict : Bool) (i : Nat) (fault : Posting.Fault) :
    Prop where
  at_index : ∃ p, intent.postings[i]? = some p ∧ p.fault? strict = some fault
  none_before : ∀ j < i, ∀ q, intent.postings[j]? = some q → q.fault? strict = none

theorem compile_of_first {settings : CompilerSettings} {intent : Intent}
    {before after : List Posting} {p : Posting} {fault : Posting.Fault}
    (hpostings : intent.postings = before ++ p :: after)
    (hbefore : ∀ q ∈ before, q.fault? settings.strictSplitModes = none)
    (hp : p.fault? settings.strictSplitModes = some fault) :
    (compile settings intent).outcome = .error (fault.failure before.length) := by
  rw [compile, outcome_assemble, hpostings, Posting.toSends_of_first hbefore hp 0, Nat.zero_add]
  rfl

theorem compile_fails_of_fault {settings : CompilerSettings} {intent : Intent} {p : Posting}
    {fault : Posting.Fault} (hmem : p ∈ intent.postings)
    (hp : p.fault? settings.strictSplitModes = some fault) :
    ∃ e, (compile settings intent).outcome = .error e := by
  have hsome : (intent.postings.findSome? (Posting.fault? settings.strictSplitModes)).isSome :=
    List.findSome?_isSome_iff.mpr ⟨p, hmem, by simp [hp]⟩
  obtain ⟨first, hfirst⟩ := Option.isSome_iff_exists.mp hsome
  obtain ⟨before, q, after, hpostings, hq, hbefore⟩ := List.findSome?_eq_some_iff.mp hfirst
  exact ⟨_, compile_of_first hpostings hbefore hq⟩

theorem exists_compile {settings : CompilerSettings} {intent : Intent}
    (hne : intent.postings ≠ [])
    (h : ∀ p ∈ intent.postings, p.fault? settings.strictSplitModes = none) :
    ∃ r, (compile settings intent).outcome = .ok r ∧ r.postingCount = intent.postings.length ∧
      r.metadataCount = intent.metadata.length := by
  obtain ⟨⟨ss, ws⟩, hs⟩ := Posting.exists_toSends h 0
  have hlen := (gather_warnings (fun _ _ _ _ => Posting.toSend_warnings) hs).1
  have hpos : 1 ≤ ss.length := by
    rw [hlen]
    exact List.length_pos_iff.mpr hne
  rw [compile, outcome_assemble, hs]
  refine ⟨_, if_pos hpos, hlen, rfl⟩

theorem exists_first_of_compile_eq_error {settings : CompilerSettings} {intent : Intent}
    (hne : intent.postings ≠ []) {e : Failure} (h : (compile settings intent).outcome = .error e) :
    ∃ before p after fault, intent.postings = before ++ p :: after ∧
      (∀ q ∈ before, q.fault? settings.strictSplitModes = none) ∧
      p.fault? settings.strictSplitModes = some fault ∧ e = fault.failure before.length := by
  cases hfault : intent.postings.findSome? (Posting.fault? settings.strictSplitModes) with
  | none =>
    obtain ⟨r, hr, _⟩ := exists_compile hne (List.findSome?_eq_none_iff.mp hfault)
    cases hr.symm.trans h
  | some fault =>
    obtain ⟨before, p, after, hpostings, hp, hbefore⟩ := List.findSome?_eq_some_iff.mp hfault
    have herror := compile_of_first hpostings hbefore hp
    exact ⟨before, p, after, fault, hpostings, hbefore, hp,
      Except.error.inj (h.symm.trans herror)⟩

theorem Intent.firstFault_of_append {intent : Intent} {strict : Bool} {before after : List Posting}
    {p : Posting} {fault : Posting.Fault} (hpostings : intent.postings = before ++ p :: after)
    (hbefore : ∀ q ∈ before, q.fault? strict = none) (hp : p.fault? strict = some fault) :
    intent.FirstFault strict before.length fault := by
  refine ⟨⟨p, by simp [hpostings], hp⟩, fun j hj q hq => ?_⟩
  rw [hpostings, List.getElem?_append_left hj] at hq
  exact hbefore q (List.mem_of_getElem? hq)

/-- All or nothing: a compilation fails exactly if some posting is at fault, and then it
tells of the first; otherwise every posting counts. This goes for unknown modes too, and
for drafts, which compile as the intents that they hold. -/
theorem compile_first_fault {intent : Intent} (hne : intent.postings ≠ [])
    (settings : CompilerSettings) :
    ((∃ e, (compile settings intent).outcome = .error e) ↔
      ∃ p ∈ intent.postings, ∃ fault, p.fault? settings.strictSplitModes = some fault) ∧
    (∀ e, (compile settings intent).outcome = .error e →
      ∃ i fault, intent.FirstFault settings.strictSplitModes i fault ∧ fault.Reported i e) ∧
    ((∀ p ∈ intent.postings, p.fault? settings.strictSplitModes = none) →
      ∃ r, (compile settings intent).outcome = .ok r ∧
        r.postingCount = intent.postings.length ∧ r.metadataCount = intent.metadata.length) ∧
    ∀ draft : DraftIntent, draft.Holds intent →
      compileDraft settings draft = compile settings intent := by
  refine ⟨⟨?_, ?_⟩, ?_, exists_compile hne, fun draft h => compileDraft_eq h settings⟩
  · rintro ⟨e, he⟩
    obtain ⟨before, p, after, fault, hpostings, _, hp, _⟩ := exists_first_of_compile_eq_error hne he
    exact ⟨p, by simp [hpostings], fault, hp⟩
  · rintro ⟨p, hp, fault, hpf⟩
    exact compile_fails_of_fault hp hpf
  · intro e he
    obtain ⟨before, p, after, fault, hpostings, hbefore, hp, rfl⟩ :=
      exists_first_of_compile_eq_error hne he
    exact ⟨before.length, fault, Intent.firstFault_of_append hpostings hbefore hp,
      fault.reported_failure before.length⟩

/-- A payment without a fault, and a split with two: its modes are mixed, and one of them
is not known. -/
def Intent.faulty : Intent :=
  ⟨"Share the rent",
    [⟨"users:1", .none, none, .simple, some "shop", none, "USD/2", "900"⟩,
     ⟨"users:1", .none, none, .split, none,
      some [⟨"a", .other "'share'", "1"⟩, ⟨"b", .max, "100"⟩, ⟨"c", .fraction, "50%"⟩],
      "USD/2", "900"⟩], []⟩

def DraftIntent.faulty : DraftIntent :=
  ⟨some (.text "Share the rent"),
    some
      [.ofValue (.object
        [("source", .text "users:1"), ("destination_type", .text "simple"),
         ("simple_destination", .text "shop"), ("amount", .text "900")]),
       .ofValue (.object
        [("source", .text "users:1"), ("destination_type", .text "split"), ("amount", .text "900"),
         ("split_rules", .list
          [.object [("target", .text "a"), ("amount_mode", .text "share"), ("value", .text "1")],
           .object [("target", .text "b"), ("amount_mode", .text "max"), ("value", .text "100")],
           .object
            [("target", .text "c"), ("amount_mode", .text "fraction"), ("value", .text "50%")]])])],
    []⟩

theorem DraftIntent.holds_faulty : DraftIntent.faulty.Holds Intent.faulty := by
  have hrule (target word value : String) {mode : AmountMode}
      (h : Draft.mode AmountMode.choices .other (.text word) = mode) :
      (DraftRule.ofValue (.object [("target", .text target), ("amount_mode", .text word),
        ("value", .text value)])).Holds ⟨target, mode, value⟩ :=
    ⟨rfl, by rw [← h]; rfl, fun v hv => by
      obtain rfl : .text word = v := Option.some.inj hv
      rfl, rfl⟩
  refine ⟨rfl, ⟨_, rfl, .cons ?_ (.cons ?_ .nil)⟩, rfl⟩
  · exact ⟨rfl, rfl, rfl, rfl, rfl, .absent, rfl, rfl⟩
  · refine ⟨rfl, rfl, rfl, rfl, rfl, .list (.cons ?_ (.cons ?_ (.cons ?_ .nil))), rfl, rfl⟩
    · exact hrule "a" "share" "1" (by decide)
    · exact hrule "b" "max" "100" (by decide)
    · exact hrule "c" "fraction" "50%" (by decide)

theorem compile_first_fault_mixed :
    Intent.faulty.postings ≠ [] ∧
    (∃ e i fault, (compile ⟨true, true⟩ Intent.faulty).outcome = .error e ∧
      Intent.faulty.FirstFault true i fault ∧ fault.Reported i e) ∧
    compileDraft ⟨true, true⟩ DraftIntent.faulty = compile ⟨true, true⟩ Intent.faulty := by
  have hne : Intent.faulty.postings ≠ [] := by decide
  obtain ⟨hiff, hfirst, _, hdraft⟩ := compile_first_fault hne ⟨true, true⟩
  obtain ⟨e, he⟩ := hiff.mpr ⟨_, List.mem_cons_of_mem _ (List.mem_cons_self ..), .mixed, by decide⟩
  obtain ⟨i, fault, hreported⟩ := hfirst e he
  exact ⟨hne, ⟨e, i, fault, he, hreported⟩, hdraft _ DraftIntent.holds_faulty⟩

/-- Paid to one account, with the rules of a split left over that mix modes. -/
def Posting.leftover : Posting :=
  ⟨"users:1", .none, none, .simple, some "shop",
    some [⟨"a", .fraction, "50%"⟩, ⟨"b", .max, "100"⟩], "USD/2", "900"⟩

theorem leftover_rules_pass_strictly :
    Posting.leftover.HoldsBoth ∧
      ∃ r, (compile ⟨true, true⟩ ⟨"Pay the shop", [Posting.leftover], []⟩).outcome = .ok r :=
  ⟨by decide, _, rfl⟩

end LedgerScript
