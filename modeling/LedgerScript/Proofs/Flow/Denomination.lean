import LedgerScript.Proofs.Flow.Independence
import LedgerScript.Proofs.Flow.Tallies
import LedgerScript.Proofs.Settings.Noninterference
import LedgerScript.Proofs.Text.Joined
import LedgerScript.Proofs.Text.Trimmed

/-! What postings without an asset are denominated in. A default asset is kept without the blanks
around it and shows in every amount of such a posting. No plain space is let into it, so that it
ends where the first plain space stands; other blanks are let in, and then it does not end at the
first blank. -/
namespace LedgerScript
open Json (Value)
open Text (isBlank IsToken Trimmed)

/-- The text of an amount after its bracket, up to a character of the class. -/
def Money.word (p : Char → Bool) (m : Money) : String :=
  String.ofList ((m.render.toList.drop 1).takeWhile (!p ·))

/-- The asset is the whole word if the class does not meet it earlier. -/
theorem Money.word_eq_asset_iff {p : Char → Bool} (hp : p ' ' = true) (m : Money) :
    m.word p = m.asset ↔ ∀ c ∈ m.asset.toList, p c = false := by
  have hrender : m.render.toList.drop 1 = m.asset.toList ++ ' ' :: (m.amount.toList ++ [']']) := by
    simp [render]
  have hend : (' ' :: (m.amount.toList ++ [']'])).takeWhile (!p ·) = [] := by simp [hp]
  rw [word, hrender, ← String.toList_inj, String.toList_ofList]
  constructor
  · intro hword c hc
    rw [← hword] at hc
    simpa using List.mem_takeWhile_imp hc
  · intro hasset
    have hall : ∀ c ∈ m.asset.toList, (!p c) = true := by simpa using hasset
    rw [List.takeWhile_append_of_pos hall, hend, List.append_nil]

/-! The amounts of a statement, which are all in the asset of its posting. -/

def Allowance.monies : Allowance → List Money
  | .upTo limit => [limit]
  | _ => []

def Share.monies : Share → List Money
  | .cap limit => [limit]
  | _ => []

def Destination.monies : Destination → List Money
  | .account _ => []
  | .block as => as.flatMap fun a => a.share.monies

def Send.monies (s : Send) : List Money :=
  s.money :: (s.source.allowance.monies ++ s.destination.monies)

theorem SplitRule.asset_of_mem_allocation {asset : String} {capped : Bool} {r : SplitRule}
    {a : Allocation} (h : allocation asset capped r = .ok a) :
    ∀ m ∈ a.share.monies, m.asset = asset := by
  obtain ⟨target, mode, value⟩ := r
  cases mode with
  | other w => cases h
  | fraction =>
    cases h
    cases capped <;> simp [Share.monies]
  | _ =>
    cases h
    simp [Share.monies]

namespace Posting

theorem asset_of_mem_allowance (p : Posting) : ∀ m ∈ p.allowance.monies, m.asset = p.asset := by
  unfold allowance Allowance.granted
  split
  · simp [Allowance.monies]
  · split <;> simp [Allowance.monies]

theorem asset_of_mem_destination {p : Posting} {i : Int} {strict : Bool} {d : Destination}
    {ws : List Warning} (h : p.destination i strict = .ok (d, ws)) :
    ∀ m ∈ d.monies, m.asset = p.asset := by
  obtain ⟨a, -, -, -, rfl, -⟩ | ⟨rules, as, -, -, -, hlines, rfl, -⟩ := destination_eq_ok h
  · simp [Destination.monies]
  · intro m hm
    obtain ⟨a, ha, hm⟩ := List.mem_flatMap.mp hm
    have hline : Except.ok a ∈ SplitRule.lines p.asset rules := by
      rw [hlines]
      exact List.mem_map_of_mem ha
    obtain ⟨r, -, hr⟩ := List.mem_map.mp hline
    exact SplitRule.asset_of_mem_allocation hr m hm

theorem asset_of_mem_monies {p : Posting} {i : Int} {strict : Bool} {s : Send}
    {ws : List Warning} (h : p.toSend i strict = .ok (s, ws)) :
    ∀ m ∈ s.monies, m.asset = p.asset := by
  obtain ⟨hmoney, horigin, hdestination⟩ := toSend_eq_ok h
  simp only [Send.monies, hmoney, horigin, List.forall_mem_cons, List.forall_mem_append]
  exact ⟨trivial, p.asset_of_mem_allowance, asset_of_mem_destination hdestination⟩

end Posting

theorem Posting.forall₂_supplied (asset : String) {vs : List Value} {ps : List Posting}
    (h : List.Forall₂ AssetFrom vs ps) :
    List.Forall₂ (fun v p => Payload.namesAsset v = false → p.asset = asset) vs
      (List.zipWith (supplied asset) vs ps) := by
  induction h with
  | nil => exact .nil
  | cons _ _ ih =>
    refine .cons (fun hv => ?_) ih
    simp [supplied, hv]

theorem Intent.forall₂_supplied {asset : String} {payload : Value} {i : Intent}
    (h : Intent.read (Payload.withDefaultAsset asset payload) = .accepted i) :
    List.Forall₂ (fun v p => Payload.namesAsset v = false → p.asset = asset)
      (Payload.postings payload) i.postings := by
  rw [read_withDefaultAsset] at h
  obtain ⟨j, hj, rfl⟩ := Schema.Checked.map_eq_accepted h
  exact Posting.forall₂_supplied asset (assetsFrom_of_read hj)

theorem Posting.forall₂_monies {asset : String} {strict : Bool} {i : Nat} {vs : List Value}
    {ps : List Posting} {sends : List Send} {ws : List Warning}
    (hps : List.Forall₂ (fun v p => Payload.namesAsset v = false → p.asset = asset) vs ps)
    (h : toSends strict i ps = .ok (sends, ws)) :
    List.Forall₂ (fun v s => Payload.namesAsset v = false → ∀ m ∈ s.monies, m.asset = asset)
      vs sends := by
  induction hps generalizing i sends ws with
  | nil =>
    cases h
    exact .nil
  | cons hp _ ih =>
    obtain ⟨s, _, ts, _, hs, hrest, rfl, -⟩ := gather_cons_eq_ok h
    exact .cons (fun hv m hm => (asset_of_mem_monies hs m hm).trans (hp hv)) (ih hrest)

theorem Flow.compile_of_compilePayload {f : Flow} {c : Correlation} {payload : Value}
    {r : Compiled} (h : (f.compilePayload c payload).outcome = .ok r) :
    ∃ intent, Intent.read (Payload.withDefaultAsset f.intake.defaultAsset payload) =
        .accepted intent ∧ (compile f.compiler intent).outcome = .ok r := by
  obtain ⟨_, -, h, -⟩ := Transcript.bind_eq_ok h
  cases hread : Intent.read (Payload.withDefaultAsset f.intake.defaultAsset payload) with
  | rejected i is =>
    rw [hread] at h
    obtain ⟨_, -, h, -⟩ := Transcript.bind_eq_ok h
    cases h
  | accepted intent =>
    rw [hread] at h
    obtain ⟨_, -, h, -⟩ := Transcript.bind_eq_ok h
    obtain ⟨r', hr, h, -⟩ := Transcript.bind_eq_ok h
    obtain ⟨_, -, h, -⟩ := Transcript.bind_eq_ok h
    obtain ⟨_, -, h, -⟩ := Transcript.bind_eq_ok h
    obtain rfl : r' = r := Except.ok.inj h
    rw [Transcript.onRefusal_of_ok hr] at hr
    exact ⟨intent, rfl, hr⟩

namespace FlowSettings
variable {src : Sources} {given : String} {f : FlowSettings}

theorem asset_eq_accepted_iff {kept : String} :
    asset given = .accepted kept ↔
      kept = Text.trim given ∧ Text.trim given ≠ "" ∧ ' ' ∉ (Text.trim given).toList := by
  simp only [asset]
  split
  next hbad =>
    refine iff_of_false nofun fun ⟨_, hne, hspace⟩ => ?_
    exact hbad.elim hne hspace
  next hgood =>
    rw [Schema.Checked.accepted.injEq, eq_comm]
    exact (and_iff_left (not_or.mp hgood)).symm

theorem load_eq_ok_iff (hopens : Section.flow.Opens src)
    (hgiven : defaultAssetSetting.winner? src = some (.text given)) :
    load src = .ok f ↔ asset given = .accepted f.defaultAsset := by
  have hload : load src =
      (FlowSettings.mk <$> (asset given).within (.field defaultAssetSetting.name)).orFail
        "FlowSettings" := by
    rw [load_of_opens hopens, read, Setting.read, hgiven]
    rfl
  rw [hload]
  constructor
  · intro h
    obtain ⟨kept, hkept, rfl⟩ := Schema.Checked.map_eq_accepted (Schema.Checked.orFail_eq_ok h)
    exact Schema.Checked.within_eq_accepted hkept
  · intro h
    rw [h]
    rfl

def Shows (f : FlowSettings) (P : Money → Prop) : Prop :=
  ∀ (compiler : CompilerSettings) (audited : Bool) (c : Correlation) (payload : Value)
    (r : Compiled), (Flow.compilePayload ⟨compiler, f, audited⟩ c payload).outcome = .ok r →
    ∃ (intent : Intent) (sends : List Send),
      Intent.read (Payload.withDefaultAsset f.defaultAsset payload) = .accepted intent ∧
      Posting.toSends compiler.strictSplitModes 0 intent.postings = .ok (sends, r.warnings) ∧
      r.script = (Script.mk intent.summary sends intent.metadata).render compiler.trailingNewline ∧
      List.Forall₂ (fun v s => Payload.namesAsset v = false → ∀ m ∈ s.monies, P m)
        (Payload.postings payload) sends

theorem Shows.imp {P Q : Money → Prop} (h : f.Shows P) (hPQ : ∀ m, P m → Q m) : f.Shows Q := by
  intro compiler audited c payload r hr
  obtain ⟨intent, sends, hread, hsends, hscript, hall⟩ := h compiler audited c payload r hr
  exact ⟨intent, sends, hread, hsends, hscript,
    hall.imp fun v s hs hv m hm => hPQ m (hs hv m hm)⟩

theorem shows_asset (f : FlowSettings) : f.Shows fun m => m.asset = f.defaultAsset := by
  intro compiler audited c payload r hr
  obtain ⟨intent, hread, hcompile⟩ := Flow.compile_of_compilePayload hr
  obtain ⟨sends, hsends, -, -, -, hscript⟩ := compile_eq_ok hcompile
  exact ⟨intent, sends, hread, hsends, hscript,
    Posting.forall₂_monies (Intent.forall₂_supplied hread) hsends⟩

/-- A default asset that is one token: it is kept when it is given again, and in an amount the
first blank ends it. -/
structure AsToken (f : FlowSettings) : Prop where
  nonempty : f.defaultAsset ≠ ""
  token : IsToken f.defaultAsset
  again (src : Sources) : Section.flow.Opens src →
    defaultAssetSetting.winner? src = some (.text f.defaultAsset) → load src = .ok f
  shown : f.Shows fun m => m.word isBlank = f.defaultAsset

/-- An accepted default asset is the trimmed text. Inside it only the plain space is looked for, so
it is one token if no other blank was given there; such a blank would end it early in every
amount. -/
theorem accepted_asset (hgiven : defaultAssetSetting.winner? src = some (.text given))
    (h : load src = .ok f) :
    (f.AsToken ↔ ∀ c ∈ (Text.trim given).toList, isBlank c = true → c = ' ') ∧
    f.defaultAsset = Text.trim given ∧ f.defaultAsset ≠ "" ∧
    Trimmed f.defaultAsset ∧ ' ' ∉ f.defaultAsset.toList ∧
    (∀ src', Section.flow.Opens src' →
      defaultAssetSetting.winner? src' = some (.text f.defaultAsset) → load src' = .ok f) ∧
    f.Shows fun m => m.asset = f.defaultAsset ∧ m.word (· = ' ') = f.defaultAsset ∧
      (m.word isBlank = f.defaultAsset ↔ IsToken f.defaultAsset) := by
  obtain ⟨kept⟩ := f
  obtain ⟨rfl, hne, hspace⟩ :=
    asset_eq_accepted_iff.mp ((load_eq_ok_iff (Sources.opens_of_load h) hgiven).mp h)
  have htrimmed := Text.trimmed_trim given
  have hagain (src' : Sources) (hopens : Section.flow.Opens src')
      (hwinner : defaultAssetSetting.winner? src' = some (.text (Text.trim given))) :
      load src' = .ok ⟨Text.trim given⟩ := by
    rw [load_eq_ok_iff hopens hwinner, asset_eq_accepted_iff, Text.trim_of_trimmed htrimmed]
    exact ⟨rfl, hne, hspace⟩
  have hshown : Shows ⟨Text.trim given⟩ fun m => m.asset = Text.trim given ∧
      m.word (· = ' ') = Text.trim given ∧
      (m.word isBlank = Text.trim given ↔ IsToken (Text.trim given)) := by
    refine (shows_asset ⟨Text.trim given⟩).imp fun m hm => ?_
    have hword := Money.word_eq_asset_iff (p := (· = ' ')) rfl m
    have hblank := Money.word_eq_asset_iff (p := isBlank) (by decide) m
    rw [hm] at hword hblank
    refine ⟨hm, hword.mpr fun c hc => ?_, hblank⟩
    simpa using ne_of_mem_of_not_mem hc hspace
  refine ⟨⟨fun htoken c hc hb => ?_, fun honly => ?_⟩, rfl, hne, htrimmed, hspace, hagain, hshown⟩
  · exact absurd hc (htoken.token.notMem hb)
  · have htoken : IsToken (Text.trim given) := by
      intro c hc
      by_contra hb
      obtain rfl := honly c hc (by simpa using hb)
      exact hspace hc
    exact ⟨hne, htoken, hagain, hshown.imp fun m hm => hm.2.2.mpr htoken⟩

def unassigned : Value := .object
  [("summary", .text "Pay"), ("postings", .list [.object
    [("source", .text "alice"), ("destination_type", .text "simple"),
      ("simple_destination", .text "bob"), ("amount", .text "100")]])]

theorem accepted_asset_padded :
    load ⟨[("default_asset", .text " EUR/2\n")], [], "", .standard⟩ = .ok ⟨"EUR/2"⟩ ∧ AsToken ⟨"EUR/2"⟩ ∧
    (Flow.compilePayload ⟨⟨false, true⟩, ⟨"EUR/2"⟩, true⟩ (.drawn 0) unassigned).outcome.map
        Compiled.script =
      .ok "// Pay\n\nsend [EUR/2 100] (\n  source = @alice\n  destination = @bob\n)\n" := by
  have hload : load ⟨[("default_asset", .text " EUR/2\n")], [], "", .standard⟩ = .ok ⟨"EUR/2"⟩ := rfl
  have htoken : IsToken (Text.trim " EUR/2\n") := by decide
  have hblank : ∀ c ∈ (Text.trim " EUR/2\n").toList, isBlank c = true → c = ' ' :=
    fun c hc hb => absurd hc (htoken.notMem hb)
  exact ⟨hload, (accepted_asset rfl hload).1.mpr hblank, by decide +kernel⟩

/-- A tab is let in, and then the first blank of an amount stands inside its asset. -/
theorem accepted_asset_tab :
    load ⟨[], [("NUMSCRIPT_DEFAULT_ASSET", "USD\t2")], "", .standard⟩ = .ok ⟨"USD\t2"⟩ ∧
    ¬IsToken "USD\t2" ∧ ¬AsToken ⟨"USD\t2"⟩ ∧
    (Flow.compilePayload ⟨⟨false, true⟩, ⟨"USD\t2"⟩, true⟩ (.drawn 0) unassigned).outcome.map
        Compiled.script =
      .ok "// Pay\n\nsend [USD\t2 100] (\n  source = @alice\n  destination = @bob\n)\n" ∧
    (Money.mk "USD\t2" "100").word isBlank = "USD" := by
  have htoken : ¬IsToken "USD\t2" := by decide
  exact ⟨rfl, htoken, fun h => htoken h.token, by decide +kernel, by decide⟩

end FlowSettings
end LedgerScript
