import LedgerScript.Settings.Dotenv

/-! What a settings file takes from the environment: the variables that its values refer to and
that it has not assigned before. Whatever else the environment holds, the file defines the same. -/
namespace LedgerScript

namespace Variables
variable {α : Type}

theorem named?_eq_none_iff (vs : Variables α) (name : String) :
    vs.named? name = none ↔ name ∉ vs.map Prod.fst := by
  induction vs with
  | nil => simp [named?]
  | cons p vs ih =>
    obtain ⟨k, v⟩ := p
    by_cases h : name = k
    · simp [named?, h]
    · simpa [named?, List.lookup_cons, beq_false_of_ne h, h] using ih

theorem mem_names_set (vs : Variables α) (k : String) (v : α) (name : String) :
    name ∈ (vs.set k v).map Prod.fst ↔ name = k ∨ name ∈ vs.map Prod.fst := by
  by_cases h : vs.any (·.1 = k)
  · have hk : k ∈ vs.map Prod.fst := by simpa using h
    have hnames : (vs.set k v).map Prod.fst = vs.map Prod.fst := by
      rw [set, if_pos h, List.map_map]
      refine List.map_congr_left fun p _ => ?_
      simp only [Function.comp_apply]
      split <;> rfl
    rw [hnames]
    constructor
    · exact .inr
    · rintro (rfl | hname)
      · exact hk
      · exact hname
  · rw [set, if_neg h]
    simp [or_comm]

end Variables

/-- What a settings file assigns depends on the environment by these of its variables alone. -/
def SettingsFile.RefersTo (names : List String)
    (assigns : Environment → Variables (Option String)) : Prop :=
  ∀ env env' : Environment, (∀ name ∈ names, env.named? name = env'.named? name) →
    assigns env = assigns env'

namespace Dotenv

/-- The names that the references in a value are to; the first `skip` characters are passed
over. -/
def references (skip : Nat) : List Char → List String
  | [] => []
  | c :: cs =>
    match skip with
    | k + 1 => references k cs
    | 0 =>
      match reference? (c :: cs) with
      | some r => r.name :: references (r.size - 1) cs
      | none => references 0 cs

def referencesIn (value : Option String) : List String :=
  (value.map fun v => references 0 v.toList).getD []

/-- The variables of the environment that some assignments look up, after others to the given
names were carried out. -/
def consulted : List String → List Assignment → List String
  | _, [] => []
  | names, (name, value) :: rest =>
    (referencesIn value).filter (· ∉ names) ++ consulted (name :: names) rest

theorem expand_congr {f g : Reference → String} (skip : Nat) (cs : List Char)
    (h : ∀ r : Reference, r.name ∈ references skip cs → f r = g r) :
    expand f skip cs = expand g skip cs := by
  induction cs generalizing skip with
  | nil => rfl
  | cons c cs ih =>
    cases skip with
    | succ k => exact ih k h
    | zero =>
      simp only [references] at h
      simp only [expand]
      cases hr : reference? (c :: cs) with
      | none =>
        rw [hr] at h
        exact congrArg (c :: ·) (ih 0 h)
      | some r =>
        rw [hr] at h
        have hhead : f r = g r := h r List.mem_cons_self
        have htail := ih (r.size - 1) fun q hq => h q (List.mem_cons_of_mem _ hq)
        simp only [hhead, htail]

theorem resolve_congr {env env' : Environment} {done : Variables (Option String)} {r : Reference}
    (h : r.name ∉ done.map Prod.fst → env.named? r.name = env'.named? r.name) :
    resolve env done r = resolve env' done r := by
  unfold resolve
  cases hdone : done.named? r.name with
  | some v => rfl
  | none =>
    have hname := (Variables.named?_eq_none_iff done r.name).mp hdone
    simp only [h hname]

theorem perform_congr {env env' : Environment} (done : Variables (Option String))
    (as : List Assignment) {names : List String}
    (hnames : ∀ name, name ∈ done.map Prod.fst ↔ name ∈ names)
    (h : ∀ name ∈ consulted names as, env.named? name = env'.named? name) :
    perform env done as = perform env' done as := by
  induction as generalizing done names with
  | nil => rfl
  | cons a rest ih =>
    obtain ⟨name, value⟩ := a
    obtain ⟨hhead, htail⟩ := List.forall_mem_append.mp h
    have hvalue : (value.map fun v => String.ofList (expand (resolve env done) 0 v.toList)) =
        value.map fun v => String.ofList (expand (resolve env' done) 0 v.toList) := by
      cases value with
      | none => rfl
      | some v =>
        have hresolve : ∀ r : Reference, r.name ∈ references 0 v.toList →
            resolve env done r = resolve env' done r := fun r hr => resolve_congr fun hnew => by
          refine hhead r.name (List.mem_filter.mpr ⟨hr, ?_⟩)
          rw [hnames] at hnew
          simpa using hnew
        simp only [Option.map_some, expand_congr 0 v.toList hresolve]
    rw [perform, perform, hvalue]
    -- The names that count as assigned grow with the variables that are set.
    refine ih _ (fun other => ?_) htail
    rw [Variables.mem_names_set, hnames, List.mem_cons]

def consultedBy (file : String) : List String := consulted [] (read file)

theorem refersTo_consultedBy (file : String) :
    SettingsFile.RefersTo (consultedBy file) fun env => definitions env file :=
  fun _ _ h => perform_congr [] (read file) (by simp) h

end Dotenv
end LedgerScript
