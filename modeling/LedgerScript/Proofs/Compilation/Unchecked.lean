import LedgerScript.Proofs.Compilation.Statements
import Mathlib.Data.List.Forall2

/-! Drafts whose entries are of the kinds that an intent has, though its modes may be any
words. Such a draft compiles as the intent that it holds. -/
namespace LedgerScript
open Json (Value)

/-- The mode is one that can be shown. -/
structure DraftRule.Holds (r : DraftRule) (s : SplitRule) : Prop where
  target : r.target = some (.text s.target)
  mode : r.comparableMode = .ok s.mode
  writable : ∀ v ∈ r.mode, v.isWritable = true
  value : r.value = .text s.value

inductive Draft.HoldsRules : Value → Option (List SplitRule) → Prop where
  | absent : HoldsRules .null none
  | list {vs : List Value} {rules : List SplitRule}
      (h : List.Forall₂ (fun v r => (DraftRule.ofValue v).Holds r) vs rules) :
      HoldsRules (.list vs) (some rules)

structure DraftPosting.Holds (p : DraftPosting) (q : Posting) : Prop where
  source : p.source = some (.text q.source)
  overdraft : p.overdraft = q.overdraft
  overdraftLimit : p.overdraftLimit = .ofOption .text q.overdraftLimit
  destinationKind : p.kind = .ok q.destinationKind
  simpleDestination : p.simpleDestination = .ofOption .text q.simpleDestination
  splitRules : Draft.HoldsRules p.splitRules q.splitRules
  asset : p.asset = .text q.asset
  amount : p.amount = some (.text q.amount)

structure DraftIntent.Holds (d : DraftIntent) (i : Intent) : Prop where
  summary : d.summary = some (.text i.summary)
  postings : ∃ ps, d.postings = some ps ∧ List.Forall₂ DraftPosting.Holds ps i.postings
  metadata : d.metadata = i.metadata

section Traversals
variable {ε α β γ : Type}

theorem mapM_congr_of_forall₂ {f : α → Except ε γ} {g : β → Except ε γ} {xs : List α}
    {ys : List β} (h : List.Forall₂ (fun x y => f x = g y) xs ys) : xs.mapM f = ys.mapM g := by
  induction h with
  | nil => rfl
  | cons hxy _ ih => rw [List.mapM_cons, List.mapM_cons, hxy, ih]

theorem mapM_eq_ok_of_forall₂ {f : α → Except ε γ} {g : β → γ} {xs : List α} {ys : List β}
    (h : List.Forall₂ (fun x y => f x = .ok (g y)) xs ys) : xs.mapM f = .ok (ys.map g) := by
  induction h with
  | nil => rfl
  | cons hxy _ ih =>
    rw [List.mapM_cons, hxy, ih]
    rfl

theorem gather_congr_of_forall₂ {toSend : α → Int → Except Failure (Send × List Warning)}
    {toSend' : β → Int → Except Failure (Send × List Warning)} {ps : List α} {qs : List β}
    (h : List.Forall₂ (fun p q => ∀ i, toSend p i = toSend' q i) ps qs) (i : Nat) :
    gather toSend i ps = gather toSend' i qs := by
  induction h generalizing i with
  | nil => rfl
  | cons hpq _ ih => simp only [gather, hpq, ih]

end Traversals

namespace DraftRule
variable {r : DraftRule} {s : SplitRule}

theorem mode?_of_comparableMode {m : AmountMode} (h : r.comparableMode = .ok m) :
    r.mode? = some m := by
  unfold comparableMode at h
  split at h
  · cases h
  · cases h
  · cases hm : r.mode? with
    | none => simp [hm, Draft.present] at h
    | some m' => simpa [hm, Draft.present] using h

theorem isRemaining_eq (h : r.Holds s) : r.isRemaining = s.isRemaining := by
  simp [isRemaining, SplitRule.isRemaining, mode?_of_comparableMode h.mode]

theorem toldMode_of_holds (h : r.Holds s) :
    (Draft.present "SplitRule" "amount_mode" r.mode >>=
      Draft.toldMode AmountMode.choices .other) = .ok s.mode := by
  obtain ⟨v, hv, hmode⟩ := Option.map_eq_some_iff.mp (mode?_of_comparableMode h.mode)
  rw [hv]
  show Draft.toldMode AmountMode.choices .other v = .ok s.mode
  rw [Draft.toldMode, if_pos (h.writable v hv), hmode]

/-- Whatever is taken from the value, a text gives itself. -/
theorem allocation_eq (h : r.Holds s) (asset : String) (capped : Bool) :
    r.allocation (.text asset) capped = SplitRule.allocation asset capped s := by
  obtain ⟨target, mode, value⟩ := s
  have hmode := toldMode_of_holds h
  simp only [bind, Except.bind] at hmode
  simp only [allocation, h.target, h.value, Draft.present, Draft.account, bind, Except.bind]
  split at hmode
  next => cases hmode
  next v hv =>
    simp only [Draft.present] at hv
    simp only [hv, hmode]
    cases mode with
    | fraction => cases capped <;> rfl
    | _ => rfl

theorem block_eq {rs : List DraftRule} {ss : List SplitRule} (h : List.Forall₂ Holds rs ss)
    (asset : String) (i : Int) (strict : Bool) :
    block (.text asset) i strict rs = SplitRule.block asset i strict ss := by
  have hmodes : rs.mapM comparableMode = .ok (ss.map SplitRule.mode) :=
    mapM_eq_ok_of_forall₂ (h.imp fun _ _ hrs => hrs.mode)
  have harranged : List.Forall₂ Holds (SplitRule.arrange isRemaining rs)
      (SplitRule.arrange SplitRule.isRemaining ss) := by
    refine List.rel_append (List.rel_filter ?_ h) (List.rel_filter ?_ h)
    · intro r s hrs
      simp [isRemaining_eq hrs]
    · intro r s hrs
      simp [isRemaining_eq hrs]
  have hlines (capped : Bool) := mapM_congr_of_forall₂
    (harranged.imp fun _ _ hrs => allocation_eq hrs asset capped)
  simp only [block, SplitRule.block, hmodes, hlines]
  rfl

end DraftRule

namespace DraftPosting
variable {p : DraftPosting} {q : Posting}

theorem destination_eq (h : p.Holds q) (i : Int) (strict : Bool) :
    p.destination i strict = q.destination i strict := by
  obtain ⟨source, overdraft, limit, kind, account, rules, asset, amount⟩ := q
  cases kind with
  | simple =>
    simp only [destination, Posting.destination, h.destinationKind, h.simpleDestination,
      bind, Except.bind]
    cases account with
    | none => rfl
    | some a =>
      by_cases ha : a = ""
      · subst ha
        rw [filter_some_self]
        rfl
      · simp only [Value.ofOption, Value.isEmpty, beq_iff_eq, ha, Draft.account, if_false,
          filter_some_of_ne ha]
        rfl
  | split =>
    simp only [destination, Posting.destination, h.destinationKind, h.asset, bind, Except.bind]
    have hrules := h.splitRules
    generalize p.splitRules = v at hrules
    cases hrules with
    | absent => rfl
    | list hvs =>
      have hblock := DraftRule.block_eq (List.forall₂_map_left_iff.mpr hvs) asset i strict
      cases hvs with
      | nil => rfl
      | cons _ _ =>
        rw [filter_some_of_ne (List.cons_ne_nil _ _)]
        exact hblock
  | other w =>
    simp only [destination, Posting.destination, h.destinationKind]
    rfl

theorem allowance_eq (h : p.Holds q) : p.allowance q.source = .ok q.allowance := by
  obtain ⟨source, overdraft, limit, kind, account, rules, asset, amount⟩ := q
  simp only [allowance, Posting.allowance, Allowance.granted, h.overdraft, h.overdraftLimit,
    h.asset]
  split
  · rfl
  · cases overdraft with
    | limited =>
      cases limit with
      | none => rfl
      | some l =>
        by_cases hl : l = ""
        · subst hl
          rfl
        · simp only [Value.ofOption, Value.isEmpty, beq_iff_eq, hl, if_false,
            filter_some_of_ne hl]
          rfl
    | _ => rfl

theorem origin_eq (h : p.Holds q) : p.origin = .ok q.origin := by
  simp only [origin, h.source, Draft.present, Draft.account, bind, Except.bind, allowance_eq h]
  rfl

theorem toSend_eq (h : p.Holds q) (i : Int) (strict : Bool) :
    p.toSend i strict = q.toSend i strict := by
  simp only [toSend, Posting.toSend, destination_eq h, origin_eq h, h.asset, h.amount,
    Draft.present]
  cases q.destination i strict <;> rfl

end DraftPosting

theorem compileDraft_eq {draft : DraftIntent} {intent : Intent} (h : draft.Holds intent)
    (settings : CompilerSettings) : compileDraft settings draft = compile settings intent := by
  obtain ⟨ps, hps, hpostings⟩ := h.postings
  have hsends : DraftPosting.toSends settings.strictSplitModes 0 ps =
      Posting.toSends settings.strictSplitModes 0 intent.postings :=
    gather_congr_of_forall₂
      (hpostings.imp fun _ _ hpq i => DraftPosting.toSend_eq hpq i settings.strictSplitModes) 0
  rw [compileDraft, hps, h.summary, h.metadata]
  show assemble _ (DraftPosting.toSends settings.strictSplitModes 0 ps) _ _ = _
  rw [hsends]
  rfl

end LedgerScript
