import LedgerScript.Proofs.Compilation.Statements
import LedgerScript.Proofs.Script.Canonical

/-! The normal form of an intent: addresses instead of accounts, shares as they are shown,
rules in the order in which they are shown, and nothing that the compilation passes over.
A compilation cannot tell an intent from its normal form. -/
namespace LedgerScript

namespace SplitRule

def normalValue (r : SplitRule) : String :=
  match r.mode with
  | .fraction => percentage r.value
  | .remaining => ""
  | _ => r.value

def normal (r : SplitRule) : SplitRule := ⟨address r.target, r.mode, r.normalValue⟩

def normalList (rules : List SplitRule) : List SplitRule := (arrange isRemaining rules).map normal

@[simp] theorem mode_normal (r : SplitRule) : r.normal.mode = r.mode := rfl

@[simp] theorem isRemaining_normal (r : SplitRule) : r.normal.isRemaining = r.isRemaining := rfl

theorem normal_normal (r : SplitRule) : r.normal.normal = r.normal := by
  obtain ⟨target, mode, value⟩ := r
  cases mode <;> simp [normal, normalValue]

theorem allocation_normal (asset : String) (capped : Bool) (r : SplitRule) :
    allocation asset capped r.normal = allocation asset capped r := by
  obtain ⟨target, mode, value⟩ := r
  cases mode <;> simp [allocation, normal, normalValue]

theorem arrange_map {α β : Type} (f : α → β) {p : α → Bool} {q : β → Bool}
    (h : ∀ a, q (f a) = p a) (rules : List α) :
    arrange q (rules.map f) = (arrange p rules).map f := by
  have hq : q ∘ f = p := funext h
  have hn : (fun b => !q b) ∘ f = fun a => !p a := funext fun a => by simp [h]
  simp [arrange, List.filter_map, hq, hn]

theorem arrange_arrange {α : Type} (p : α → Bool) (rules : List α) :
    arrange p (arrange p rules) = arrange p rules := by
  simp [arrange, List.filter_filter]

theorem arrange_normalList (rules : List SplitRule) :
    arrange isRemaining (normalList rules) = normalList rules := by
  rw [normalList, arrange_map normal isRemaining_normal, arrange_arrange]

theorem normalList_normalList (rules : List SplitRule) :
    normalList (normalList rules) = normalList rules := by
  rw [normalList, arrange_normalList, normalList, List.map_map]
  exact List.map_congr_left fun r _ => normal_normal r

theorem normalList_eq_nil_iff (rules : List SplitRule) : normalList rules = [] ↔ rules = [] := by
  rw [normalList, List.map_eq_nil_iff, ← List.length_eq_zero_iff,
    (arrange_perm isRemaining rules).length_eq, List.length_eq_zero_iff]

theorem conflicting_normalList (rules : List SplitRule) :
    AmountMode.conflicting ((normalList rules).map mode) =
      AmountMode.conflicting (rules.map mode) := by
  have hmodes : (normalList rules).map mode = (arrange isRemaining rules).map mode := by
    rw [normalList, List.map_map]
    rfl
  have hperm := (arrange_perm isRemaining rules).map mode
  simp only [AmountMode.conflicting, hmodes, hperm.mem_iff]

/-- The order of the rules and the spelling of what they hold do not show in a block. -/
theorem block_normalList (asset : String) (i : Int) (strict : Bool) (rules : List SplitRule) :
    block asset i strict (normalList rules) = block asset i strict rules := by
  have hw : AmountMode.conflictWarnings i strict ((normalList rules).map mode) =
      AmountMode.conflictWarnings i strict (rules.map mode) := by
    simp only [AmountMode.conflictWarnings, conflicting_normalList]
  have hl (capped : Bool) : (normalList rules).mapM (allocation asset capped) =
      (arrange isRemaining rules).mapM (allocation asset capped) := by
    rw [normalList, List.mapM_map]
    exact congrArg (fun f => List.mapM f _) (funext fun r => allocation_normal asset capped r)
  simp only [block, hw, conflicting_normalList, arrange_normalList, hl]

end SplitRule

namespace Overdraft

/-- A limit counts only where it is asked for, and nothing is asked for without it. -/
def settle : Overdraft → Option String → Overdraft × Option String
  | .limited, some limit => (.limited, some limit)
  | .limited, .none => (.none, .none)
  | o, _ => (o, .none)

def normal (account : String) (o : Overdraft) (limit : Option String) :
    Overdraft × Option String :=
  if address account = "@world" then (.none, .none) else o.settle (limit.filter (· ≠ ""))

theorem settle_settle (o : Overdraft) {limit : Option String} (h : ∀ l ∈ limit, l ≠ "") :
    (o.settle limit).1.settle ((o.settle limit).2.filter (· ≠ "")) = o.settle limit := by
  cases o with
  | limited =>
    cases limit with
    | none => rfl
    | some l => simp only [settle, filter_some_of_ne (h l rfl)]
  | none => rfl
  | unbounded => rfl
  | other w => rfl

theorem ne_empty_of_mem_filter {limit : Option String} :
    ∀ l ∈ limit.filter (· ≠ ""), l ≠ "" := by
  intro l hl
  simpa using (Option.filter_eq_some_iff.mp hl).2

theorem normal_normal (account : String) (o : Overdraft) (limit : Option String) :
    normal (address account) (normal account o limit).1 (normal account o limit).2 =
      normal account o limit := by
  unfold normal
  rw [address_address]
  by_cases hw : address account = "@world"
  · rw [if_pos hw, if_pos hw]
  · rw [if_neg hw, if_neg hw]
    exact settle_settle o ne_empty_of_mem_filter

theorem granted_normal (account asset : String) (o : Overdraft) (limit : Option String) :
    Allowance.granted (address account) asset (normal account o limit).1
        (normal account o limit).2 =
      Allowance.granted account asset o limit := by
  unfold normal Allowance.granted
  rw [isWorld_address]
  by_cases hw : isWorld account = true
  · rw [if_pos hw, if_pos hw]
  · have hne : address account ≠ "@world" := fun h => hw ((isWorld_iff account).mpr h)
    rw [if_neg hw, if_neg hw, if_neg hne]
    cases o with
    | limited =>
      cases hl : limit.filter (· ≠ "") with
      | none => rfl
      | some l => simp only [settle, filter_some_of_ne (ne_empty_of_mem_filter l hl)]
    | none => rfl
    | unbounded => rfl
    | other w => rfl

end Overdraft

namespace DestinationKind

/-- The account of a simple destination; one that is empty stays so, which is a defect. -/
def normalAccount (k : DestinationKind) (account : Option String) : Option String :=
  match k with
  | .simple => account.map fun a => if a = "" then a else address a
  | .split => none
  | .other _ => account

def normalRules (k : DestinationKind) (rules : Option (List SplitRule)) :
    Option (List SplitRule) :=
  match k with
  | .simple => none
  | .split => rules.map SplitRule.normalList
  | .other _ => rules

theorem normalAccount_normalAccount (k : DestinationKind) (account : Option String) :
    k.normalAccount (k.normalAccount account) = k.normalAccount account := by
  cases k with
  | simple =>
    cases account with
    | none => rfl
    | some a => by_cases ha : a = "" <;> simp [normalAccount, ha, address_ne_empty]
  | split => rfl
  | other w => rfl

theorem normalRules_normalRules (k : DestinationKind) (rules : Option (List SplitRule)) :
    k.normalRules (k.normalRules rules) = k.normalRules rules := by
  cases k with
  | simple => rfl
  | split => cases rules <;> simp [normalRules, SplitRule.normalList_normalList]
  | other w => rfl

end DestinationKind

namespace Posting

def normal (p : Posting) : Posting :=
  { source := address p.source
    overdraft := (p.overdraft.normal p.source p.overdraftLimit).1
    overdraftLimit := (p.overdraft.normal p.source p.overdraftLimit).2
    destinationKind := p.destinationKind
    simpleDestination := p.destinationKind.normalAccount p.simpleDestination
    splitRules := p.destinationKind.normalRules p.splitRules
    asset := p.asset
    amount := p.amount }

theorem normal_normal (p : Posting) : p.normal.normal = p.normal := by
  simp only [normal, address_address, Overdraft.normal_normal,
    DestinationKind.normalAccount_normalAccount, DestinationKind.normalRules_normalRules]

theorem origin_normal (p : Posting) : p.normal.origin = p.origin := by
  simp only [origin, allowance, normal, address_address, Overdraft.granted_normal]

theorem destination_normal (p : Posting) (i : Int) (strict : Bool) :
    p.normal.destination i strict = p.destination i strict := by
  obtain ⟨source, overdraft, limit, kind, account, rules, asset, amount⟩ := p
  cases kind with
  | simple =>
    cases account with
    | none => rfl
    | some a =>
      by_cases ha : a = ""
      · simp [destination, normal, DestinationKind.normalAccount, ha]
      · simp only [destination, normal, DestinationKind.normalAccount, Option.map_some, ha, if_false,
          filter_some_of_ne ha, filter_some_of_ne (address_ne_empty a), address_address]
  | split =>
    cases rules with
    | none => rfl
    | some rules =>
      by_cases hr : rules = []
      · subst hr
        rfl
      · have hn : SplitRule.normalList rules ≠ [] :=
          fun h => hr ((SplitRule.normalList_eq_nil_iff rules).mp h)
        simp only [destination, normal, DestinationKind.normalRules, Option.map_some,
          filter_some_of_ne hr, filter_some_of_ne hn, SplitRule.block_normalList]
  | other w => rfl

theorem toSend_normal (p : Posting) (i : Int) (strict : Bool) :
    p.normal.toSend i strict = p.toSend i strict := by
  rw [toSend, toSend, destination_normal, origin_normal]
  rfl

end Posting

theorem gather_map {α β : Type} (f : α → β)
    {toSend : β → Int → Except Failure (Send × List Warning)}
    {toSend' : α → Int → Except Failure (Send × List Warning)}
    (h : ∀ a i, toSend (f a) i = toSend' a i) (i : Nat) (ps : List α) :
    gather toSend i (ps.map f) = gather toSend' i ps := by
  induction ps generalizing i with
  | nil => rfl
  | cons p ps ih => simp only [List.map_cons, gather, h, ih]

/-- Summary and metadata are in normal form as they stand. -/
def Intent.normal (i : Intent) : Intent := ⟨i.summary, i.postings.map Posting.normal, i.metadata⟩

/-- The normal form is one, and compiles exactly as the intent does, down to the notes
that are left on the way. -/
theorem compile_normal_form (settings : CompilerSettings) (i : Intent) :
    i.normal.normal = i.normal ∧ compile settings i.normal = compile settings i := by
  constructor
  · have hp : (i.postings.map Posting.normal).map Posting.normal =
        i.postings.map Posting.normal := by
      rw [List.map_map]
      exact List.map_congr_left fun p _ => p.normal_normal
    simp only [Intent.normal, hp]
  · have hs : Posting.toSends settings.strictSplitModes 0 i.normal.postings =
        Posting.toSends settings.strictSplitModes 0 i.postings :=
      gather_map Posting.normal
        (fun p j => p.toSend_normal j settings.strictSplitModes) 0 i.postings
    rw [compile, compile, hs]
    rfl

end LedgerScript
