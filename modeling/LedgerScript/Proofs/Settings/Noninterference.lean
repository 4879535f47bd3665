import LedgerScript.Compilation.Compile
import LedgerScript.Proofs.Settings.Precedence
import LedgerScript.Proofs.Settings.References
import LedgerScript.Proofs.Settings.Startup

/-! What a section of the configuration depends on: the values that win for its own settings, and
nothing else. A variable that is not one of its own can reach it only if the settings file names
it in a value, and no section comes of a settings file that is read and is no text. -/
namespace LedgerScript
open Json (Value)
open Variables (lower)

theorem Setting.read_congr {α : Type} {t : Setting} {src src' : Sources}
    (h : t.winner? src = t.winner? src') (default : α) (r : Schema.Reader α) :
    t.read default r src = t.read default r src' := by
  simp only [read, h]

theorem Sources.load_of_opens {α : Type} {src : Sources} {inFile : Bool} {record : String}
    {read : Sources → Schema.Checked α}
    (h : src.options.readsFile.getD inFile → ∃ assigns, src.file = .text assigns) :
    src.load inFile record read = (read src).orFail record := by
  by_cases hreads : src.options.readsFile.getD inFile
  · obtain ⟨assigns, hfile⟩ := h hreads
    exact load_of_text hfile
  · exact load_of_unread (by simpa using hreads)

def Sources.ofArguments (arguments : Json.Fields) : Sources :=
  ⟨arguments, [], .text fun _ => [], .standard⟩

namespace Section
variable {sec : Section} {src src' : Sources}

/-- One section reads the settings file of its own accord. -/
def readsFile (sec : Section) (o : Options) : Bool := o.readsFile.getD (sec = .app)

/-- If the settings file is read, it is a text. -/
def Opens (sec : Section) (src : Sources) : Prop :=
  sec.readsFile src.options → ∃ assigns, src.file = .text assigns

end Section

theorem CompilerSettings.load_of_opens {src : Sources} (h : Section.compiler.Opens src) :
    load src = (read src).orFail "CompilerSettings" := Sources.load_of_opens h

theorem FlowSettings.load_of_opens {src : Sources} (h : Section.flow.Opens src) :
    load src = (read src).orFail "FlowSettings" := Sources.load_of_opens h

theorem AppSettings.load_of_opens {src : Sources} (h : Section.app.Opens src) :
    load src = (read src).orFail "AppSettings" := Sources.load_of_opens h

namespace Section
variable {sec : Section} {src src' : Sources}

theorem load_of_undecodable (hreads : sec.readsFile src.options) {reason : String}
    (h : src.file = .undecodable reason) : sec.load src = .error (.undecodable reason) := by
  cases sec with
  | compiler =>
    have hload : CompilerSettings.load src = .error (.undecodable reason) :=
      Sources.load_of_undecodable hreads h
    rw [load, hload]
    rfl
  | flow =>
    have hload : FlowSettings.load src = .error (.undecodable reason) :=
      Sources.load_of_undecodable hreads h
    rw [load, hload]
    rfl
  | app =>
    have hload : AppSettings.load src = .error (.undecodable reason) :=
      Sources.load_of_undecodable hreads h
    rw [load, hload]
    rfl

theorem load_congr (h : ∀ t ∈ sec.settings, t.winner? src = t.winner? src') (hopens : sec.Opens src)
    (hopens' : sec.Opens src') : sec.load src = sec.load src' := by
  cases sec with
  | compiler =>
    have hstrict := h CompilerSettings.strictSplitModesSetting (by simp [settings])
    have htrailing := h CompilerSettings.trailingNewlineSetting (by simp [settings])
    simp only [load, CompilerSettings.load_of_opens hopens, CompilerSettings.load_of_opens hopens',
      CompilerSettings.read, Setting.read_congr hstrict, Setting.read_congr htrailing]
  | flow =>
    have hasset := h FlowSettings.defaultAssetSetting (by simp [settings])
    simp only [load, FlowSettings.load_of_opens hopens, FlowSettings.load_of_opens hopens',
      FlowSettings.read, Setting.read_congr hasset]
  | app =>
    have hdebug := h AppSettings.debugModeSetting (by simp [settings])
    have hjson := h AppSettings.logJsonSetting (by simp [settings])
    simp only [load, AppSettings.load_of_opens hopens, AppSettings.load_of_opens hopens',
      AppSettings.read, Setting.read_congr hdebug, Setting.read_congr hjson]

theorem report_congr (h : ∀ t ∈ sec.settings, t.winner? src = t.winner? src') (record : String)
    (issues : List Schema.Issue) :
    sec.report src record issues = sec.report src' record issues := by
  have hraw : sec.raw? src = sec.raw? src' := by
    funext i
    show Option.bind _ _ = Option.bind _ _
    exact Option.bind_congr fun t ht => h t (List.mem_of_find?_eq_some ht)
  have hissue : sec.issueText src = sec.issueText src' := by
    funext i
    unfold issueText
    rw [hraw]
  unfold report
  rw [hissue]

def won (sec : Section) (src : Sources) : Sources :=
  .ofArguments (sec.settings.filterMap fun t => (t.winner? src).map fun v => (t.name, v))

theorem names_apart (sec : Section) :
    sec.settings.Pairwise fun t u => lower t.name ≠ lower u.name := by
  cases sec <;> decide

end Section

theorem Setting.winner?_arguments (t : Setting) (arguments : Json.Fields) :
    t.winner? (.ofArguments arguments) = (Sources.ofArguments arguments).argument? t.name := by
  have hnothing : Options.standard.find? [] (t.key .standard) = none := rfl
  have hfile : (Sources.ofArguments arguments).fileVariables = [] := rfl
  have henvironment : (Sources.ofArguments arguments).environmentVariables = [] := rfl
  have hoptions : (Sources.ofArguments arguments).options = .standard := rfl
  simp only [winner?, hfile, henvironment, hoptions, hnothing, ite_self]
  cases (Sources.ofArguments arguments).argument? t.name <;> rfl

theorem find?_arguments {ts : List Setting} (value? : Setting → Option Value)
    (h : ts.Pairwise fun t u => lower t.name ≠ lower u.name) {t : Setting} (ht : t ∈ ts) :
    ((ts.filterMap fun u => (value? u).map fun v => (u.name, v)).find? fun (k, _) =>
      lower k = lower t.name).map Prod.snd = value? t := by
  induction ts with
  | nil => cases ht
  | cons u us ih =>
    obtain ⟨hu, hus⟩ := List.pairwise_cons.mp h
    by_cases hname : lower u.name = lower t.name
    · have htu : t = u := by
        obtain rfl | hmem := List.mem_cons.mp ht
        · rfl
        · exact absurd hname (hu t hmem)
      subst htu
      cases hv : value? t with
      | none =>
        rw [List.filterMap_cons_none (by rw [hv, Option.map_none]), Option.map_eq_none_iff,
          List.find?_eq_none]
        intro p hp hlower
        obtain ⟨w, hw, hwp⟩ := List.mem_filterMap.mp hp
        obtain ⟨v, -, rfl⟩ := Option.map_eq_some_iff.mp hwp
        exact hu w hw (of_decide_eq_true hlower).symm
      | some v => simp [hv]
    · have hmem : t ∈ us := by
        obtain rfl | hmem := List.mem_cons.mp ht
        · exact absurd rfl hname
        · exact hmem
      cases hv : value? u with
      | none => simpa [hv] using ih hus hmem
      | some v => simpa [hv, hname] using ih hus hmem

theorem Section.winner?_won (sec : Section) (src : Sources) {t : Setting} (ht : t ∈ sec.settings) :
    t.winner? (sec.won src) = t.winner? src := by
  rw [won, Setting.winner?_arguments]
  exact find?_arguments (Setting.winner? · src) sec.names_apart ht

/-! Variables that are not one's own. -/

namespace Variables
variable {α : Type}

theorem named?_filter {own : String → Bool} {key : String} (h : own key) (vs : Variables α) :
    named? (vs.filter fun p => own p.1) key = vs.named? key := by
  induction vs with
  | nil => rfl
  | cons p vs ih =>
    obtain ⟨k, v⟩ := p
    by_cases hkey : key = k
    · subst hkey
      simp [named?, h]
    · by_cases hk : own k
      · simpa [named?, hk, List.lookup_cons, beq_false_of_ne hkey] using ih
      · simpa [named?, hk, List.lookup_cons, beq_false_of_ne hkey] using ih

theorem get?_filter {own : String → Bool} {key : String}
    (h : ∀ name, lower name = lower key → own name) (vs : Variables α) :
    get? (vs.filter fun p => own p.1) key = vs.get? key := by
  unfold get?
  rw [← List.filter_reverse, List.find?_filter]
  congr 2
  funext p
  by_cases hp : lower p.1 = lower key <;> simp [hp, h]

theorem get?_eq_of_lower {key key' : String} (h : lower key = lower key') (vs : Variables α) :
    vs.get? key = vs.get? key' := by
  unfold get?
  rw [h]

end Variables

namespace Options
variable {own : String → Bool} {key : String}

theorem counted_filter (o : Options) (vs : Variables (Option String)) :
    o.counted (vs.filter fun p => own p.1) = (o.counted vs).filter fun p => own p.1 := by
  unfold counted
  split
  · rw [List.filter_filter, List.filter_filter]
    exact List.filter_congr fun p _ => Bool.and_comm _ _
  · rfl

theorem find?_filter (h : ∀ name, lower name = lower key → own name) (o : Options)
    (vs : Variables (Option String)) :
    o.find? (vs.filter fun p => own p.1) key = o.find? vs key := by
  have hentry : o.assignment? (vs.filter fun p => own p.1) key = o.assignment? vs key := by
    rw [assignment?, assignment?, counted_filter, Variables.named?_filter (h key rfl),
      Variables.get?_filter h]
  show ((o.assignment? _ key).bind id).map o.raw = ((o.assignment? vs key).bind id).map o.raw
  rw [hentry]

end Options

theorem Sources.filter_environmentVariables (own : String → Bool) (src : Sources) :
    src.environmentVariables.filter (fun p => own p.1) =
      (src.environment.filter fun p => own p.1).map fun (k, v) => (k, some v) := by
  rw [environmentVariables, List.filter_map]
  rfl

namespace Section

/-- The name of a variable is, but for its case, that of a setting of the section. -/
def owns (sec : Section) (o : Options) (name : String) : Bool :=
  sec.settings.any fun t => lower name = lower (t.key o)

theorem lower_append (s t : String) :
    (lower (s ++ t)).toList = (lower s).toList ++ (lower t).toList := by
  simp [lower]

theorem names_no_suffix {sec sec' : Section} (h : sec ≠ sec') :
    ∀ t ∈ sec.settings, ∀ u ∈ sec'.settings, ¬(lower t.name).toList <:+ (lower u.name).toList := by
  cases sec <;> cases sec' <;> first | exact absurd rfl h | decide

theorem owns_key_eq_false {sec sec' : Section} (h : sec ≠ sec') (o o' : Options) :
    ∀ u ∈ sec'.settings, sec.owns o (u.key o') = false := by
  intro u hu
  simp only [owns, List.any_eq_false, decide_eq_true_eq]
  intro t ht hkey
  have hlists : (lower (o'.lead.getD u.lead)).toList ++ (lower u.name).toList =
      (lower (o.lead.getD t.lead)).toList ++ (lower t.name).toList := by
    rw [← lower_append, ← lower_append]
    exact congrArg String.toList hkey
  have hsuffix := List.suffix_append (lower (o'.lead.getD u.lead)).toList (lower u.name).toList
  rw [hlists] at hsuffix
  -- Of two endings of one name, one ends with the other.
  obtain hsuffix | hsuffix := List.suffix_or_suffix_of_suffix
    (List.suffix_append (lower (o.lead.getD t.lead)).toList (lower t.name).toList) hsuffix
  · exact names_no_suffix h t ht u hu hsuffix
  · exact names_no_suffix h.symm u hu t ht hsuffix

/-- Two sources that agree on what is the section's own, and on all that the settings file
refers to if it is read. -/
structure OwnAlike (sec : Section) (src src' : Sources) : Prop where
  arguments : src.arguments = src'.arguments
  options : src.options = src'.options
  own : src.environment.filter (fun p => sec.owns src.options p.1) =
    src'.environment.filter fun p => sec.owns src.options p.1
  file : sec.readsFile src.options → src.file = src'.file ∧
    ∀ assigns, src.file = .text assigns → ∃ names, SettingsFile.RefersTo names assigns ∧
      ∀ name ∈ names, src.environment.named? name = src'.environment.named? name

theorem inFile_eq {sec : Section} {t : Setting} (ht : t ∈ sec.settings) :
    t.inFile = decide (sec = .app) := by
  have hsettings : ∀ u ∈ sec.settings, u.inFile = decide (sec = .app) := by cases sec <;> decide
  exact hsettings t ht

theorem OwnAlike.fileVariables_eq {sec : Section} {src src' : Sources} (h : sec.OwnAlike src src')
    (hreads : sec.readsFile src.options) : src.fileVariables = src'.fileVariables := by
  obtain ⟨hsame, hnamed⟩ := h.file hreads
  simp only [Sources.fileVariables, ← hsame]
  cases hfile : src.file with
  | undecodable reason => rfl
  | text assigns =>
    obtain ⟨names, hrefers, hagree⟩ := hnamed assigns hfile
    exact hrefers _ _ hagree

theorem OwnAlike.winner?_eq {sec : Section} {src src' : Sources} (h : sec.OwnAlike src src') :
    ∀ t ∈ sec.settings, t.winner? src = t.winner? src' := by
  intro t ht
  have hargument : src.argument? t.name = src'.argument? t.name := by
    rw [Sources.argument?, Sources.argument?, h.arguments]
  have hkey : ∀ name, lower name = lower (t.key src.options) → sec.owns src.options name := by
    intro name hname
    exact List.any_eq_true.mpr ⟨t, ht, decide_eq_true hname⟩
  have henvironment : src.options.find? src.environmentVariables (t.key src.options) =
      src.options.find? src'.environmentVariables (t.key src.options) := by
    rw [← Options.find?_filter hkey, ← Options.find?_filter hkey _ src'.environmentVariables,
      Sources.filter_environmentVariables, Sources.filter_environmentVariables, h.own]
  simp only [Setting.winner?, hargument, ← h.options, henvironment, inFile_eq ht]
  by_cases hreads : sec.readsFile src.options
  · rw [h.fileVariables_eq hreads]
  · have hunread : src.options.readsFile.getD (decide (sec = .app)) = false := by
      simpa [readsFile] using hreads
    simp only [hunread, Bool.false_eq_true, if_false]

def Same (sec : Section) (src src' : Sources) : Prop :=
  sec.load src = sec.load src' ∧
    ∀ record issues, sec.report src record issues = sec.report src' record issues

theorem same_of_winner?_eq {sec : Section} {src src' : Sources}
    (h : ∀ t ∈ sec.settings, t.winner? src = t.winner? src') (hopens : sec.Opens src)
    (hopens' : sec.Opens src') : sec.Same src src' :=
  ⟨load_congr h hopens hopens', report_congr h⟩

theorem OwnAlike.same {sec : Section} {src src' : Sources} (h : sec.OwnAlike src src') :
    sec.Same src src' := by
  by_cases hreads : sec.readsFile src.options
  · obtain ⟨hsame, -⟩ := h.file hreads
    cases hfile : src.file with
    | undecodable reason =>
      have hload := load_of_undecodable hreads hfile
      have hload' := load_of_undecodable (h.options ▸ hreads) (hsame ▸ hfile)
      exact ⟨hload.trans hload'.symm, report_congr h.winner?_eq⟩
    | text assigns =>
      exact same_of_winner?_eq h.winner?_eq (fun _ => ⟨assigns, hfile⟩)
        fun _ => ⟨assigns, hsame ▸ hfile⟩
  · exact same_of_winner?_eq h.winner?_eq (fun hyes => absurd hyes hreads)
      fun hyes => absurd (h.options ▸ hyes) hreads

def standard : Section → Value
  | .compiler => CompilerSettings.toValue ⟨false, true⟩
  | .flow => FlowSettings.toValue ⟨standardAsset⟩
  | .app => AppSettings.toValue ⟨false, true⟩

theorem opens_ofArguments (sec : Section) (arguments : Json.Fields) :
    sec.Opens (.ofArguments arguments) := fun _ => ⟨_, rfl⟩

theorem same_won {sec : Section} {src : Sources} (hopens : sec.Opens src) :
    sec.Same src (sec.won src) :=
  same_of_winner?_eq (fun _ ht => (sec.winner?_won src ht).symm) hopens (sec.opens_ofArguments _)

theorem won_eq_nothing {sec : Section} {src : Sources}
    (h : ∀ t ∈ sec.settings, t.winner? src = none) : sec.won src = .ofArguments [] := by
  have hnil : (sec.settings.filterMap fun t => (t.winner? src).map fun v => (t.name, v)) = [] := by
    rw [List.filterMap_eq_nil_iff]
    intro t ht
    rw [h t ht, Option.map_none]
  rw [won, hnil]

theorem load_nothing (sec : Section) : sec.load (.ofArguments []) = .ok sec.standard := by
  cases sec <;> rfl

end Section

/-! Compilation without arguments, which reads the section of the compiler alone. -/

theorem Setting.winner?_bare {t : Setting} (h : t.inFile = false) (w : Surroundings) :
    t.winner? w.bare = (w.environment.get? (t.lead ++ t.name)).map .text := by
  have hargument : w.bare.argument? t.name = none := rfl
  have hoptions : w.bare.options = ⟨none, false, false, none, none⟩ := rfl
  have hvariables : w.bare.environmentVariables.get? (t.lead ++ t.name) =
      (w.environment.get? (t.lead ++ t.name)).map some := by
    simp only [Sources.environmentVariables, Variables.get?, ← List.map_reverse, List.find?_map,
      Function.comp_def, Option.map_map]
    rfl
  have hfound : Options.find? ⟨none, false, false, none, none⟩ w.bare.environmentVariables
      (t.lead ++ t.name) = (w.environment.get? (t.lead ++ t.name)).map .text := by
    simp only [Options.find?, Bool.false_eq_true, if_false, hvariables]
    cases w.environment.get? (t.lead ++ t.name) <;> simp
  simp only [winner?, hargument, hoptions, key, Option.getD_none, hfound, h, Bool.false_eq_true,
    if_false]
  cases w.environment.get? (t.lead ++ t.name) <;> rfl

theorem CompilerSettings.load_bare {w w' : Surroundings}
    (hstrict : w.environment.get? "NUMSCRIPT_STRICT_SPLIT_MODES" =
      w'.environment.get? "NUMSCRIPT_STRICT_SPLIT_MODES")
    (htrailing : w.environment.get? "NUMSCRIPT_TRAILING_NEWLINE" =
      w'.environment.get? "NUMSCRIPT_TRAILING_NEWLINE") : load w.bare = load w'.bare := by
  have hstrictName : lower "NUMSCRIPT_STRICT_SPLIT_MODES" =
      lower (strictSplitModesSetting.lead ++ strictSplitModesSetting.name) := by decide +kernel
  have htrailingName : lower "NUMSCRIPT_TRAILING_NEWLINE" =
      lower (trailingNewlineSetting.lead ++ trailingNewlineSetting.name) := by decide +kernel
  have hstrictWinner : strictSplitModesSetting.winner? w.bare =
      strictSplitModesSetting.winner? w'.bare := by
    rw [Setting.winner?_bare rfl, Setting.winner?_bare rfl,
      ← Variables.get?_eq_of_lower hstrictName, ← Variables.get?_eq_of_lower hstrictName, hstrict]
  have htrailingWinner : trailingNewlineSetting.winner? w.bare =
      trailingNewlineSetting.winner? w'.bare := by
    rw [Setting.winner?_bare rfl, Setting.winner?_bare rfl,
      ← Variables.get?_eq_of_lower htrailingName, ← Variables.get?_eq_of_lower htrailingName,
      htrailing]
  rw [load, load, Sources.load_of_unread rfl, Sources.load_of_unread rfl, read, read,
    Setting.read_congr hstrictWinner, Setting.read_congr htrailingWinner]

namespace Surroundings

theorem compilerSettings_of_reachable {w : Surroundings} (h : w.Reachable) :
    w.compilerSettings = CompilerSettings.load w.bare := by
  rw [compilerSettings, root_of_reachable h]
  rfl

theorem compile_eq_error {w : Surroundings} {e : Failure} (h : w.compilerSettings = .error e)
    (run : CompilerSettings → Transcript Compiled) : w.compile run = .error e := by
  rw [compile, compileUnder, h]
  rfl

theorem compilerSettings_of_undecodable {w : Surroundings} (hrooted : w.rooted = false)
    {reason : String} (hfile : w.file = .undecodable reason) :
    w.compilerSettings = .error (.undecodable reason) := by
  rw [compilerSettings, root_of_undecodable hrooted hfile]
  rfl

end Surroundings

/-- A section is what the values that win for its settings make of it. An argument wins over the
environment and that over the settings file, and variables which are not the section's own are
without effect unless a settings file that is read refers to them. So a compilation depends on
the two variables of the compiler. A settings file that is no text fails whatever reads it: one
section, and the root of the configuration when it is built. -/
theorem settings_noninterference :
    (∀ (sec : Section) (src : Sources),
      (sec.Opens src → sec.Same src (sec.won src)) ∧
      (sec.readsFile src.options → ∀ reason, src.file = .undecodable reason →
        sec.load src = .error (.undecodable reason)) ∧
      (∀ t ∈ sec.settings, t.inFile = decide (sec = .app) ∧
        (t.SetOnce src → ∀ v, t.Wins src v ↔ t.winner? src = v)) ∧
      (sec.Opens src → (∀ t ∈ sec.settings, t.winner? src = none) →
        sec.load src = .ok sec.standard) ∧
      (∀ src', sec.OwnAlike src src' → sec.Same src src') ∧
      ∀ sec' ≠ sec, ∀ u ∈ sec'.settings, ∀ o, sec.owns src.options (u.key o) = false) ∧
    (∀ w w' : Surroundings, w.Reachable → w'.Reachable →
      w.environment.get? "NUMSCRIPT_STRICT_SPLIT_MODES" =
        w'.environment.get? "NUMSCRIPT_STRICT_SPLIT_MODES" →
      w.environment.get? "NUMSCRIPT_TRAILING_NEWLINE" =
        w'.environment.get? "NUMSCRIPT_TRAILING_NEWLINE" →
      (∀ intent, w.script intent = w'.script intent) ∧ ∀ run, w.compile run = w'.compile run) ∧
    ∀ w : Surroundings, w.rooted = false → ∀ reason, w.file = .undecodable reason →
      (∀ intent, w.script intent = .error (.undecodable reason)) ∧
      ∀ run, w.compile run = .error (.undecodable reason) := by
  refine ⟨fun sec src => ⟨Section.same_won, ?_, ?_, ?_, ?_, ?_⟩, ?_, ?_⟩
  · exact fun hreads _ hfile => Section.load_of_undecodable hreads hfile
  · intro t ht
    exact ⟨Section.inFile_eq ht, fun hone v => Setting.wins_iff hone v⟩
  · intro hopens hnone
    rw [(Section.same_won hopens).1, Section.won_eq_nothing hnone, Section.load_nothing]
  · exact fun _ halike => halike.same
  · intro sec' hne u hu o
    exact Section.owns_key_eq_false hne.symm src.options o u hu
  · intro w w' hreachable hreachable' hstrict htrailing
    have hsettings : w.compilerSettings = w'.compilerSettings := by
      rw [Surroundings.compilerSettings_of_reachable hreachable,
        Surroundings.compilerSettings_of_reachable hreachable',
        CompilerSettings.load_bare hstrict htrailing]
    have hrun : ∀ run, w.compile run = w'.compile run := by
      intro run
      rw [Surroundings.compile, Surroundings.compile, hsettings]
    refine ⟨fun intent => ?_, hrun⟩
    rw [Surroundings.script, Surroundings.script, hrun]
  · intro w hrooted reason hfile
    have hrun := Surroundings.compile_eq_error
      (Surroundings.compilerSettings_of_undecodable hrooted hfile)
    refine ⟨fun intent => ?_, hrun⟩
    rw [Surroundings.script, hrun]
    rfl

def Environment.spoilt : Environment :=
  [("NUMSCRIPT_DEFAULT_ASSET", "USD 2"), ("debug_mode", "perhaps")]

def Surroundings.spoilt : Surroundings := ⟨.spoilt, "LOG_JSON=never", false⟩

theorem settings_noninterference_spoilt :
    (∃ e, Section.flow.load Surroundings.spoilt.bare = .error e) ∧
    (∀ intent, Surroundings.spoilt.script intent =
      Surroundings.script ⟨[], "", false⟩ intent) ∧
    Section.compiler.Same Surroundings.spoilt.bare ⟨[], [], "", .standard⟩ ∧
    Section.app.Same
      ⟨[], [("VERBOSE", "yes")], "DEBUG_MODE=$\x7bVERBOSE\x7d", .standard⟩
      ⟨[], [("VERBOSE", "yes"), ("PATH", "/bin")], "DEBUG_MODE=$\x7bVERBOSE\x7d", .standard⟩ ∧
    AppSettings.debugModeSetting.winner?
      (Surroundings.spoilt.sources [("debug_mode", .bool true)] .standard) = some (.bool true) ∧
    Section.app.load ⟨[], [], .undecodable "invalid start byte", .standard⟩ =
      .error (.undecodable "invalid start byte") ∧
    ∀ run, Surroundings.compile ⟨[], .undecodable "invalid start byte", false⟩ run =
      .error (.undecodable "invalid start byte") := by
  obtain ⟨hsection, hcompile, hundecodable⟩ := settings_noninterference
  refine ⟨⟨_, rfl⟩, ?_, ?_, ?_, ?_, ?_, ?_⟩
  · exact (hcompile .spoilt ⟨[], "", false⟩ (.inr ⟨_, rfl⟩) (.inr ⟨_, rfl⟩) (by decide)
      (by decide)).1
  · have halike : Section.compiler.OwnAlike Surroundings.spoilt.bare ⟨[], [], "", .standard⟩ :=
      ⟨rfl, rfl, by decide +kernel, fun hreads => absurd hreads (by decide)⟩
    exact (hsection .compiler _).2.2.2.2.1 _ halike
  · have halike : Section.app.OwnAlike
        ⟨[], [("VERBOSE", "yes")], "DEBUG_MODE=$\x7bVERBOSE\x7d", .standard⟩
        ⟨[], [("VERBOSE", "yes"), ("PATH", "/bin")], "DEBUG_MODE=$\x7bVERBOSE\x7d", .standard⟩ := by
      refine ⟨rfl, rfl, by decide +kernel, fun _ => ⟨rfl, fun assigns hfile => ?_⟩⟩
      cases hfile
      exact ⟨_, Dotenv.refersTo_consultedBy _, by decide +kernel⟩
    exact (hsection .app _).2.2.2.2.1 _ halike
  · have hone : AppSettings.debugModeSetting.SetOnce
        (Surroundings.spoilt.sources [("debug_mode", .bool true)] .standard) :=
      ⟨by simp [Surroundings.sources, Variables.OneSpelling],
        by unfold Variables.OneSpelling; decide +kernel,
        by unfold Variables.OneSpelling; decide +kernel⟩
    have hmem : AppSettings.debugModeSetting ∈ Section.app.settings := List.mem_cons_self
    exact (((hsection .app _).2.2.1 _ hmem).2 hone _).mp (.argument ⟨_, List.mem_cons_self, rfl⟩)
  · exact (hsection .app _).2.1 rfl _ rfl
  · exact (hundecodable _ rfl _ rfl).2

/-- The settings file takes up a variable of another section. -/
theorem asset_turns_debugging_on :
    Section.flow.owns .standard "NUMSCRIPT_DEFAULT_ASSET" = true ∧
    Section.app.owns .standard "NUMSCRIPT_DEFAULT_ASSET" = false ∧
    Section.app.load ⟨[], [], "DEBUG_MODE=$\x7bNUMSCRIPT_DEFAULT_ASSET:-no\x7d", .standard⟩ =
      .ok (AppSettings.toValue ⟨false, true⟩) ∧
    Section.app.load ⟨[], [("NUMSCRIPT_DEFAULT_ASSET", "yes")],
      "DEBUG_MODE=$\x7bNUMSCRIPT_DEFAULT_ASSET:-no\x7d", .standard⟩ =
        .ok (AppSettings.toValue ⟨true, true⟩) :=
  ⟨by decide, by decide, rfl, rfl⟩

end LedgerScript
