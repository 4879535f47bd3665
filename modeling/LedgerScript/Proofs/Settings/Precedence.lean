import LedgerScript.Settings.Sources

/-! Which value of a setting wins, said of the entries that there are and not of a search through
them. The search agrees with it if every name is set under one spelling. -/
namespace LedgerScript
open Json (Value)

namespace Variables
variable {α : Type} {vs : Variables α} {name : String}

/-- All entries under a name, whatever its case, are one and the same. -/
def OneSpelling (vs : Variables α) (name : String) : Prop :=
  ∀ p ∈ vs, ∀ q ∈ vs, lower p.1 = lower name → lower q.1 = lower name → p = q

theorem OneSpelling.of_subset {us : Variables α} (h : vs.OneSpelling name)
    (hsub : ∀ p ∈ us, p ∈ vs) : us.OneSpelling name :=
  fun p hp q hq => h p (hsub p hp) q (hsub q hq)

theorem find?_eq_some_iff (h : vs.OneSpelling name) (v : α) :
    (vs.find? fun (k, _) => lower k = lower name).map Prod.snd = some v ↔
      ∃ k, (k, v) ∈ vs ∧ lower k = lower name := by
  rw [Option.map_eq_some_iff]
  constructor
  · rintro ⟨⟨k, u⟩, hfind, rfl⟩
    exact ⟨k, List.mem_of_find?_eq_some hfind, by simpa using List.find?_some hfind⟩
  · rintro ⟨k, hmem, hlower⟩
    cases hfind : vs.find? fun (k, _) => lower k = lower name with
    | none => simpa [hlower] using List.find?_eq_none.mp hfind _ hmem
    | some p =>
      have hp : lower p.1 = lower name := by simpa using List.find?_some hfind
      have hentry := h p (List.mem_of_find?_eq_some hfind) (k, v) hmem hp hlower
      exact ⟨p, rfl, congrArg Prod.snd hentry⟩

theorem get?_eq_some_iff (h : vs.OneSpelling name) (v : α) :
    vs.get? name = some v ↔ ∃ k, (k, v) ∈ vs ∧ lower k = lower name := by
  have hreverse : OneSpelling vs.reverse name := h.of_subset fun p hp => List.mem_reverse.mp hp
  simpa only [get?, List.mem_reverse] using find?_eq_some_iff hreverse v

theorem named?_eq_some_iff (h : vs.OneSpelling name) (v : α) :
    vs.named? name = some v ↔ (name, v) ∈ vs := by
  constructor
  · intro hv
    obtain ⟨front, back, rfl, -⟩ := List.lookup_eq_some_iff.mp hv
    simp
  · intro hmem
    cases hfound : vs.named? name with
    | none => simpa using List.lookup_eq_none_iff.mp hfound _ hmem
    | some u =>
      obtain ⟨front, back, rfl, -⟩ := List.lookup_eq_some_iff.mp hfound
      have hentry := h (name, u) (by simp) (name, v) hmem rfl rfl
      rw [(Prod.mk.inj hentry).2]

end Variables

open Variables (lower OneSpelling)

namespace Options
variable {o : Options} {vs : Variables (Option String)} {key : String}

def Fits (o : Options) (key name : String) : Prop :=
  if o.caseMatters then name = key else lower name = lower key

def Sets (o : Options) (vs : Variables (Option String)) (key s : String) : Prop :=
  ∃ name, (name, some s) ∈ vs ∧ (o.skipsEmpty → s ≠ "") ∧ o.Fits key name

def raw (o : Options) (s : String) : Value := if o.nullText = some s then .null else .text s

def counted (o : Options) (vs : Variables (Option String)) : Variables (Option String) :=
  if o.skipsEmpty then vs.filter (·.2 ≠ some "") else vs

theorem mem_counted {name s : String} :
    (name, some s) ∈ o.counted vs ↔ (name, some s) ∈ vs ∧ (o.skipsEmpty → s ≠ "") := by
  by_cases hskip : o.skipsEmpty <;> simp [counted, hskip]

theorem oneSpelling_counted (h : vs.OneSpelling key) : (o.counted vs).OneSpelling key := by
  refine h.of_subset fun p hp => ?_
  unfold counted at hp
  split at hp
  · exact (List.mem_filter.mp hp).1
  · exact hp

def assignment? (o : Options) (vs : Variables (Option String)) (key : String) :
    Option (Option String) :=
  if o.caseMatters then (o.counted vs).named? key else (o.counted vs).get? key

theorem assignment?_eq_some_iff (h : vs.OneSpelling key) (s : String) :
    o.assignment? vs key = some (some s) ↔ o.Sets vs key s := by
  have hunique : (o.counted vs).OneSpelling key := oneSpelling_counted h
  unfold assignment? Sets Fits
  by_cases hcase : o.caseMatters
  · simp only [hcase, if_true, Variables.named?_eq_some_iff hunique, mem_counted]
    constructor
    · rintro ⟨hmem, hcounts⟩
      exact ⟨key, hmem, hcounts, rfl⟩
    · rintro ⟨name, hmem, hcounts, rfl⟩
      exact ⟨hmem, hcounts⟩
  · simp only [hcase, Bool.false_eq_true, if_false, Variables.get?_eq_some_iff hunique, mem_counted,
      and_assoc]

theorem find?_eq_some_iff (h : vs.OneSpelling key) (v : Value) :
    o.find? vs key = some v ↔ ∃ s, o.Sets vs key s ∧ o.raw s = v := by
  have hfind : o.find? vs key = ((o.assignment? vs key).bind id).map o.raw := rfl
  rw [hfind, Option.map_eq_some_iff]
  simp [Option.bind_eq_some_iff, assignment?_eq_some_iff h]

theorem find?_eq_none_iff (h : vs.OneSpelling key) :
    o.find? vs key = none ↔ ∀ s, ¬o.Sets vs key s := by
  constructor
  · intro hnone s hs
    have hfind := (find?_eq_some_iff h _).mpr ⟨s, hs, rfl⟩
    simp [hnone] at hfind
  · intro hunset
    cases hfind : o.find? vs key with
    | none => rfl
    | some v =>
      obtain ⟨s, hs, -⟩ := (find?_eq_some_iff h v).mp hfind
      exact absurd hs (hunset s)

end Options

namespace Setting
variable {t : Setting} {src : Sources}

def Given (t : Setting) (src : Sources) (v : Value) : Prop :=
  ∃ name, (name, v) ∈ src.arguments ∧ lower name = lower t.name

def InEnvironment (t : Setting) (src : Sources) (s : String) : Prop :=
  src.options.Sets src.environmentVariables (t.key src.options) s

def InFile (t : Setting) (src : Sources) (s : String) : Prop :=
  src.options.readsFile.getD t.inFile ∧ src.options.Sets src.fileVariables (t.key src.options) s

/-- The raw value that wins. Nothing wins where the default stands. -/
inductive Wins (t : Setting) (src : Sources) : Option Value → Prop
  | argument {v : Value} (h : t.Given src v) : Wins t src (some v)
  | environment {s : String} (harg : ∀ v, ¬t.Given src v) (h : t.InEnvironment src s) :
    Wins t src (some (src.options.raw s))
  | file {s : String} (harg : ∀ v, ¬t.Given src v) (henv : ∀ s, ¬t.InEnvironment src s)
    (h : t.InFile src s) : Wins t src (some (src.options.raw s))
  | default (harg : ∀ v, ¬t.Given src v) (henv : ∀ s, ¬t.InEnvironment src s)
    (hfile : ∀ s, ¬t.InFile src s) : Wins t src none

/-- Whatever is given for a setting is given under one spelling of its name. -/
structure SetOnce (t : Setting) (src : Sources) : Prop where
  argument : OneSpelling src.arguments t.name
  environment : src.environmentVariables.OneSpelling (t.key src.options)
  file : src.fileVariables.OneSpelling (t.key src.options)

theorem argument?_eq_none_iff (h : t.SetOnce src) :
    src.argument? t.name = none ↔ ∀ v, ¬t.Given src v := by
  rw [Option.eq_none_iff_forall_ne_some]
  exact forall_congr' fun v => not_congr (Variables.find?_eq_some_iff h.argument v)

theorem wins_winner? (h : t.SetOnce src) : t.Wins src (t.winner? src) := by
  simp only [winner?]
  split
  next v harg => exact .argument ((Variables.find?_eq_some_iff h.argument v).mp harg)
  next harg =>
    have hnotGiven := (argument?_eq_none_iff h).mp harg
    split
    next v henv =>
      obtain ⟨s, hs, rfl⟩ := (Options.find?_eq_some_iff h.environment v).mp henv
      exact .environment hnotGiven hs
    next henv =>
      have hunset := (Options.find?_eq_none_iff h.environment).mp henv
      split
      next hreads =>
        cases hfile : src.options.find? src.fileVariables (t.key src.options) with
        | none =>
          have hnowhere := (Options.find?_eq_none_iff h.file).mp hfile
          exact .default hnotGiven hunset fun s hs => hnowhere s hs.2
        | some v =>
          obtain ⟨s, hs, rfl⟩ := (Options.find?_eq_some_iff h.file v).mp hfile
          exact .file hnotGiven hunset ⟨hreads, hs⟩
      next hreads => exact .default hnotGiven hunset fun s hs => hreads hs.1

theorem wins_iff (h : t.SetOnce src) (v : Option Value) : t.Wins src v ↔ t.winner? src = v := by
  constructor
  · intro hwins
    unfold winner?
    cases hwins with
    | argument hgiven =>
      have harg : src.argument? t.name = some _ :=
        (Variables.find?_eq_some_iff h.argument _).mpr hgiven
      simp only [harg]
    | environment harg henv =>
      have hfind := (Options.find?_eq_some_iff h.environment _).mpr ⟨_, henv, rfl⟩
      simp only [(argument?_eq_none_iff h).mpr harg, hfind]
    | file harg henv hfile =>
      have hunset := (Options.find?_eq_none_iff h.environment).mpr henv
      have hfind := (Options.find?_eq_some_iff h.file _).mpr ⟨_, hfile.2, rfl⟩
      simp only [(argument?_eq_none_iff h).mpr harg, hunset, hfind, hfile.1, if_true]
    | default harg henv hfile =>
      have hunset := (Options.find?_eq_none_iff h.environment).mpr henv
      simp only [(argument?_eq_none_iff h).mpr harg, hunset]
      split
      next hreads =>
        exact (Options.find?_eq_none_iff h.file).mpr fun s hs => hfile s ⟨hreads, hs⟩
      next => rfl
  · rintro rfl
    exact wins_winner? h

end Setting
end LedgerScript
