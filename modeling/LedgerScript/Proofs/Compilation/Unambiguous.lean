import LedgerScript.Proofs.Compilation.Statements
import LedgerScript.Proofs.Script.Canonical
import LedgerScript.Proofs.Script.Legible
import Mathlib.Data.List.Forall2

/-! A script says which transaction it stands for. Where the texts of two intents keep
within their places, equal scripts mean equal movements: what the scripts do not show is
only how an account was spelled, or data that the compilation passes over. -/
namespace LedgerScript
open Text (IsToken)

namespace Posting

/-- All accounts, assets, amounts, limits and shares are tokens, also those that do not
count for the kind of destination declared. -/
structure Legible (p : Posting) : Prop where
  source : IsToken p.source
  overdraftLimit : ∀ limit ∈ p.overdraftLimit, IsToken limit
  simpleDestination : ∀ account ∈ p.simpleDestination, IsToken account
  splitRules : ∀ rules ∈ p.splitRules, ∀ r ∈ rules, IsToken r.target ∧ IsToken r.value
  asset : IsToken p.asset
  amount : IsToken p.amount

instance (p : Posting) : Decidable p.Legible :=
  decidable_of_iff
    (IsToken p.source ∧ (∀ limit ∈ p.overdraftLimit, IsToken limit) ∧
      (∀ account ∈ p.simpleDestination, IsToken account) ∧
      (∀ rules ∈ p.splitRules, ∀ r ∈ rules, IsToken r.target ∧ IsToken r.value) ∧
      IsToken p.asset ∧ IsToken p.amount)
    ⟨fun ⟨h₁, h₂, h₃, h₄, h₅, h₆⟩ => ⟨h₁, h₂, h₃, h₄, h₅, h₆⟩,
      fun ⟨h₁, h₂, h₃, h₄, h₅, h₆⟩ => ⟨h₁, h₂, h₃, h₄, h₅, h₆⟩⟩

def splitLines (p : Posting) : List (Except Failure Allocation) :=
  SplitRule.lines p.asset (p.splitRules.getD [])

/-- Two postings that move the same: from one address under one allowance, and either to
one address or by the same lines, each of which has its form, value and address. -/
structure SameMovement (p q : Posting) : Prop where
  asset : p.asset = q.asset
  amount : p.amount = q.amount
  source : address p.source = address q.source
  allowance : p.allowance = q.allowance
  destinationKind : p.destinationKind = q.destinationKind
  destination :
    (p.destinationKind = .simple ∧
      p.simpleDestination.map address = q.simpleDestination.map address) ∨
    (p.destinationKind = .split ∧ p.splitLines = q.splitLines)

end Posting

structure Intent.Legible (i : Intent) : Prop where
  summary : '\n' ∉ i.summary.toList
  postings : ∀ p ∈ i.postings, p.Legible
  metadata : ∀ e ∈ i.metadata, e.Legible

instance (i : Intent) : Decidable i.Legible :=
  decidable_of_iff
    ('\n' ∉ i.summary.toList ∧ (∀ p ∈ i.postings, p.Legible) ∧ ∀ e ∈ i.metadata, e.Legible)
    ⟨fun ⟨h₁, h₂, h₃⟩ => ⟨h₁, h₂, h₃⟩, fun ⟨h₁, h₂, h₃⟩ => ⟨h₁, h₂, h₃⟩⟩

namespace SplitRule

theorem legible_allocation {asset : String} {capped : Bool} {r : SplitRule} {a : Allocation}
    (hasset : IsToken asset) (htarget : IsToken r.target) (hvalue : IsToken r.value)
    (h : allocation asset capped r = .ok a) : a.Legible := by
  unfold allocation at h
  split at h
  next =>
    cases h
    exact ⟨trivial, isToken_address htarget⟩
  next =>
    cases h
    exact ⟨⟨hasset, hvalue⟩, isToken_address htarget⟩
  next =>
    cases h
    cases capped with
    | false => exact ⟨⟨isToken_percentage hvalue, percent_mem_percentage r.value⟩,
        isToken_address htarget⟩
    | true => exact ⟨⟨hasset, isToken_capText hvalue⟩, isToken_address htarget⟩
  next => cases h

theorem legible_lines {asset : String} {rules : List SplitRule} {as : List Allocation}
    (hasset : IsToken asset) (hrules : ∀ r ∈ rules, IsToken r.target ∧ IsToken r.value)
    (h : lines asset rules = as.map .ok) : ∀ a ∈ as, a.Legible := by
  intro a ha
  have hm : Except.ok a ∈ lines asset rules := by
    rw [h]
    exact List.mem_map_of_mem ha
  obtain ⟨r, hr, hra⟩ := List.mem_map.mp hm
  have hmem : r ∈ rules := (arrange_perm isRemaining rules).mem_iff.mp hr
  exact legible_allocation hasset (hrules r hmem).1 (hrules r hmem).2 hra

end SplitRule

namespace Posting

theorem Legible.allowance {p : Posting} (h : p.Legible) : p.allowance.Legible := by
  unfold Posting.allowance Allowance.granted
  split
  · trivial
  · split
    · trivial
    next _ limit heq =>
      obtain ⟨hlimit, -⟩ := Option.filter_eq_some_iff.mp heq
      exact ⟨h.asset, h.overdraftLimit _ hlimit⟩
    · trivial

theorem Legible.send {p : Posting} {i : Int} {strict : Bool} {s : Send} {ws : List Warning}
    (h : p.Legible) (hs : p.toSend i strict = .ok (s, ws)) : s.Legible := by
  obtain ⟨hmoney, hsource, hdest⟩ := toSend_eq_ok hs
  refine ⟨?_, ?_, ?_⟩
  · rw [hmoney]
    exact ⟨h.asset, h.amount⟩
  · rw [hsource]
    exact ⟨isToken_address h.source, h.allowance⟩
  · obtain ⟨a, -, ha, -, hd, -⟩ | ⟨rules, as, -, hr, hne, hl, hd, -⟩ := destination_eq_ok hdest
    · rw [hd]
      exact ⟨isToken_address (h.simpleDestination a ha), head_address a⟩
    · rw [hd]
      refine ⟨?_, SplitRule.legible_lines h.asset (h.splitRules rules hr) hl⟩
      rintro rfl
      have hlen := SplitRule.length_lines p.asset rules
      rw [hl] at hlen
      exact hne (List.eq_nil_of_length_eq_zero hlen.symm)

theorem SameMovement.of_send {p q : Posting} {i j : Int} {strict : Bool} {s : Send}
    {ws vs : List Warning} (hp : p.toSend i strict = .ok (s, ws))
    (hq : q.toSend j strict = .ok (s, vs)) : p.SameMovement q := by
  obtain ⟨hpm, hps, hpd⟩ := toSend_eq_ok hp
  obtain ⟨hqm, hqs, hqd⟩ := toSend_eq_ok hq
  obtain ⟨hasset, hamount⟩ : p.asset = q.asset ∧ p.amount = q.amount := by
    simpa using hpm.symm.trans hqm
  obtain ⟨hsource, hallowance⟩ : address p.source = address q.source ∧
      p.allowance = q.allowance := by
    simpa [origin] using hps.symm.trans hqs
  obtain ⟨a, hpk, ha, -, hpa, -⟩ | ⟨rules, as, hpk, hr, -, hpl, hpa, -⟩ := destination_eq_ok hpd
  · obtain ⟨b, hqk, hb, -, hqb, -⟩ | ⟨_, bs, -, -, -, -, hqb, -⟩ := destination_eq_ok hqd
    · have hab : address a = address b := by simpa using hpa.symm.trans hqb
      exact ⟨hasset, hamount, hsource, hallowance, hpk.trans hqk.symm,
        .inl ⟨hpk, by simp [ha, hb, hab]⟩⟩
    · cases hpa.symm.trans hqb
  · obtain ⟨b, -, -, -, hqb, -⟩ | ⟨rules', bs, hqk, hr', -, hql, hqb, -⟩ := destination_eq_ok hqd
    · cases hpa.symm.trans hqb
    · have hab : as = bs := by simpa using hpa.symm.trans hqb
      have hlines : p.splitLines = q.splitLines := by
        rw [splitLines, splitLines, hr, hr', Option.getD_some, Option.getD_some, hpl, hql, hab]
      exact ⟨hasset, hamount, hsource, hallowance, hpk.trans hqk.symm, .inr ⟨hpk, hlines⟩⟩

theorem sameMovement_of_toSends {strict : Bool} {i j : Nat} {ps qs : List Posting}
    {ss : List Send} {ws vs : List Warning} (hp : toSends strict i ps = .ok (ss, ws))
    (hq : toSends strict j qs = .ok (ss, vs)) : List.Forall₂ SameMovement ps qs := by
  induction ps generalizing i j qs ss ws vs with
  | nil =>
    cases qs with
    | nil => exact .nil
    | cons q qs =>
      obtain ⟨s, _, ts, _, -, -, hss, -⟩ := gather_cons_eq_ok hq
      simp [toSends, gather, hss] at hp
  | cons p ps ih =>
    obtain ⟨s, _, ts, _, hs, hrest, rfl, -⟩ := gather_cons_eq_ok hp
    cases qs with
    | nil => simp [toSends, gather] at hq
    | cons q qs =>
      obtain ⟨s', _, ts', _, hs', hrest', hss, -⟩ := gather_cons_eq_ok hq
      obtain ⟨rfl, rfl⟩ := List.cons.inj hss
      exact .cons (.of_send hs hs') (ih hrest hrest')

end Posting

theorem Intent.Legible.script {i : Intent} {strict : Bool} {sends : List Send}
    {ws : List Warning} (h : i.Legible)
    (hs : Posting.toSends strict 0 i.postings = .ok (sends, ws)) :
    (Script.mk i.summary sends i.metadata).Legible := by
  refine ⟨h.summary, ?_, h.metadata⟩
  intro s hm
  obtain ⟨p, hp, j, vs, hsend⟩ := exists_of_mem_gather hs hm
  exact (h.postings p hp).send hsend

/-- Legible intents with one script are one transaction. -/
theorem sameTransaction_of_script_eq {settings : CompilerSettings} {A B : Intent}
    {a b : Compiled} (hA : A.Legible) (hB : B.Legible)
    (ha : (compile settings A).outcome = .ok a) (hb : (compile settings B).outcome = .ok b)
    (h : a.script = b.script) :
    A.summary = B.summary ∧ A.metadata = B.metadata ∧
      List.Forall₂ Posting.SameMovement A.postings B.postings := by
  obtain ⟨ss, hss, -, -, -, hsa⟩ := compile_eq_ok ha
  obtain ⟨ts, hts, -, -, -, htb⟩ := compile_eq_ok hb
  rw [hsa, htb] at h
  obtain ⟨hsummary, rfl, hmetadata⟩ : A.summary = B.summary ∧ ss = ts ∧
      A.metadata = B.metadata := by
    simpa using Script.render_inj (hA.script hss) (hB.script hts) h
  exact ⟨hsummary, hmetadata, Posting.sameMovement_of_toSends hss hts⟩

def Intent.payment (source : String) (overdraft : Overdraft) (rules : List SplitRule) : Intent :=
  ⟨"pay day", [⟨source, overdraft, some "5", .split, none, some rules, "USD/2", "100"⟩],
    [⟨"ref", "a, b"⟩]⟩

theorem sameTransaction_two_spellings :
    List.Forall₂ Posting.SameMovement
      (Intent.payment "world" .none
        [⟨"fees", .remaining, "0"⟩, ⟨"shop", .fraction, "80"⟩]).postings
      (Intent.payment "@world" .unbounded
        [⟨"@shop", .fraction, "80%"⟩, ⟨"@fees", .remaining, ""⟩]).postings :=
  (sameTransaction_of_script_eq (by decide) (by decide)
    (show (compile ⟨false, true⟩ _).outcome = .ok _ from rfl) rfl rfl).2.2

end LedgerScript
