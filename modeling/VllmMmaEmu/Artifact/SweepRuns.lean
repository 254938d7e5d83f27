import VllmMmaEmu.Artifact.Fp8Emulation
import VllmMmaEmu.Artifact.Nvfp4Emulation
import VllmMmaEmu.Library.LabelledFields

/-!
# The runs of a sweep

The runs of a sweep share one process and one environment. They export the same settings, so an
earlier run leaves nothing that a later one would read, and their names tell them apart.
-/

namespace Artifact

open Python

section Sweep

variable {precision : Precision} {platform : Platform} {env env' env₁ : Environ}
  {emu : Dict String EmuValue} {config : ExperimentConfig} {combo : Combo} {done : List Combo}

/-- The environment after some runs of a sweep, which are in one process. -/
def sweepEnv (precision : Precision) (config : ExperimentConfig) (env : Environ)
    (done : List Combo) : Except PyError Environ :=
  done.foldlM (fun env combo => exportMmaEmuToEnv precision env (emuConfig config combo)) env

/-- The settings that are exported only when the config names them, with their variables. -/
def Precision.settings (precision : Precision) : List (String × String) :=
  [("f_bits", precision.envVars.fBits), ("g_bits", precision.envVars.gBits)] ++
    (precision.envVars.chunkSize.map fun name => ("chunk_size", name)).toList ++
    (precision.envVars.groupSize.map fun name => ("group_size", name)).toList

lemma keys_of_mem_combinations {config : Config} (h : combo ∈ generateSweepCombinations config) :
    combo.map Prod.fst = config.sweep.map Prod.fst := by
  rw [generateSweepCombinations] at h
  revert h
  generalize config.sweep = sweep
  intro h
  induction sweep generalizing combo with
  | nil =>
    obtain rfl := List.mem_singleton.mp h
    rfl
  | cons param rest ih =>
    obtain ⟨name, values⟩ := param
    obtain ⟨value, -, h⟩ := List.mem_flatMap.mp h
    obtain ⟨combo', hcombo', rfl⟩ := List.mem_map.mp h
    rw [List.map_cons, List.map_cons, ih hcombo']

lemma get?_emuConfig_eq_none {k : String} : (emuConfig config combo).get? k = none ↔
    config.mmaEmu.get? k = none ∧ k ∉ combo.map Prod.fst := by
  simp only [emuConfig, mergeDict, Dict.get?_foldl_set, Option.or_eq_none_iff,
    Option.map_eq_none_iff, List.getLast?_eq_none_iff, List.filter_eq_nil_iff, List.mem_map,
    decide_eq_true_eq]
  constructor
  · rintro ⟨hnot, hnone⟩
    refine ⟨hnone, ?_⟩
    rintro ⟨p, hp, rfl⟩
    exact hnot _ ⟨p, hp, rfl⟩ rfl
  · rintro ⟨hnone, hnot⟩
    refine ⟨?_, hnone⟩
    rintro _ ⟨p, hp, rfl⟩ heq
    exact hnot ⟨p, hp, heq⟩

lemma mem_settings {key name : String} : (key, name) ∈ precision.settings ↔
    key = "f_bits" ∧ name = precision.envVars.fBits ∨
      key = "g_bits" ∧ name = precision.envVars.gBits ∨
      key = "chunk_size" ∧ precision.envVars.chunkSize = some name ∨
      key = "group_size" ∧ precision.envVars.groupSize = some name := by
  simp [Precision.settings, eq_comm, and_comm]

lemma enabled_ne_of_mem_settings : ∀ setting ∈ precision.settings,
    precision.envVars.enabled ≠ setting.2 := by
  cases precision <;> decide

/-- A variable whose setting the config does not name is left as it was. -/
lemma export_keeps {key name : String} (hmem : (key, name) ∈ precision.settings)
    (hnone : emu.get? key = none) (h : exportMmaEmuToEnv precision env emu = .ok env') :
    env'.get? name = env.get? name := by
  cases henabled : emuEnabled emu with
  | false =>
    rw [not_exported henabled h]
    exact Dict.get?_set_of_ne (enabled_ne_of_mem_settings _ hmem) _ _
  | true =>
    obtain ⟨-, hexported⟩ := exported henabled h
    rcases mem_settings.mp hmem with ⟨rfl, rfl⟩ | ⟨rfl, rfl⟩ | ⟨rfl, hname⟩ | ⟨rfl, hname⟩
    · rw [hexported.fBits, hnone, Option.map_none, Option.none_or]
    · rw [hexported.gBits, hnone, Option.map_none, Option.none_or]
    · rw [hexported.chunkSize name hname, hnone, Option.map_none, Option.none_or]
    · rw [hexported.groupSize name hname, hnone, Option.map_none, Option.none_or]

/-- A setting that no combination names is the same before every run. -/
lemma sweepEnv_keeps {key name : String} (hmem : (key, name) ∈ precision.settings)
    (hnone : ∀ c ∈ done, (emuConfig config c).get? key = none)
    (h : sweepEnv precision config env done = .ok env₁) : env₁.get? name = env.get? name := by
  induction done generalizing env with
  | nil =>
    obtain rfl := Except.ok.inj h
    rfl
  | cons c rest ih =>
    rw [sweepEnv, List.foldlM_cons, bind_eq_ok] at h
    obtain ⟨env', hexport, hrest⟩ := h
    have hafter := ih (fun c' hc' => hnone c' (List.mem_cons_of_mem c hc')) hrest
    exact hafter.trans (export_keeps hmem (hnone c List.mem_cons_self) hexport)

lemma settingText_sweep {key name : String} (hmem : (key, name) ∈ precision.settings)
    (hall : ∀ c ∈ combo :: done, c ∈ generateSweepCombinations config.toConfig)
    (h : sweepEnv precision config env done = .ok env₁) (default : String) :
    settingText env₁ (emuConfig config combo) key name default =
      settingText env (emuConfig config combo) key name default := by
  cases hget : (emuConfig config combo).get? key with
  | some value => rw [settingText, settingText, hget, Option.map_some, Option.some_or, Option.some_or]
  | none =>
    have hkeys := keys_of_mem_combinations (hall combo List.mem_cons_self)
    have hnone : ∀ c ∈ done, (emuConfig config c).get? key = none := by
      intro c hc
      rw [get?_emuConfig_eq_none] at hget ⊢
      rw [keys_of_mem_combinations (hall c (List.mem_cons_of_mem combo hc)), ← hkeys]
      exact hget
    rw [settingText, settingText, sweepEnv_keeps hmem hnone h]

/-- The layer passes all settings on, so the call does not read the environment again. -/
lemma fp8Apply_congr (env env' : Environ) (x : Fp8Operands) (op : Fp8Backend) :
    op.apply platform env x = op.apply platform env' x := by
  cases op <;> rfl

lemma nvfp4Apply_congr (env env' : Environ) (x : Nvfp4Operands) (op : Nvfp4Backend) :
    op.apply env x = op.apply env' x := by
  cases op <;> rfl

lemma exists_exported (henabled : emuEnabled emu = true) {algorithm : EmuValue}
    (hnamed : emu.get? "algorithm" = some algorithm) (precision : Precision) (env : Environ) :
    ∃ env', exportMmaEmuToEnv precision env emu = .ok env' ∧ Exported precision env emu env' := by
  have hexport : ∃ env', exportMmaEmuToEnv precision env emu = .ok env' := by
    rw [exportMmaEmuToEnv, if_neg (not_not.mpr henabled), hnamed]
    exact ⟨_, rfl⟩
  obtain ⟨env', hexport⟩ := hexport
  exact ⟨env', hexport, (exported henabled hexport).2⟩

lemma export_unnamed (henabled : emuEnabled emu = true) (hunnamed : emu.get? "algorithm" = none)
    (precision : Precision) (env env₁ : Environ) :
    exportMmaEmuToEnv precision env₁ emu = exportMmaEmuToEnv precision env emu := by
  rw [exportMmaEmuToEnv, exportMmaEmuToEnv, if_neg (not_not.mpr henabled),
    if_neg (not_not.mpr henabled), hunnamed]

/-- A run exports the settings and goes on with a layer. With the emulation off the layer does the
same in every environment, with it on it only depends on what the settings come to. -/
lemma run_congr {α : Type} {precision : Precision} {layer : Environ → Except PyError α}
    {native : Except PyError α} {emulated : Environ → Except PyError α}
    (hnative : ∀ env', env'.get? precision.envVars.enabled = some "0" → layer env' = native)
    (hlayer : ∀ env env', Exported precision env emu env' → layer env' = emulated env)
    (hsame : emulated env₁ = emulated env) :
    (exportMmaEmuToEnv precision env₁ emu >>= layer) =
      exportMmaEmuToEnv precision env emu >>= layer := by
  cases henabled : emuEnabled emu with
  | false =>
    have hrun : ∀ env, (exportMmaEmuToEnv precision env emu >>= layer) = native := by
      intro env
      have hexport : exportMmaEmuToEnv precision env emu =
          .ok (env.set precision.envVars.enabled "0") := if_pos (by simp [henabled])
      rw [hexport, ok_bind, hnative _ (Dict.get?_set_self _ _ _)]
    rw [hrun, hrun]
  | true =>
    cases hnamed : emu.get? "algorithm" with
    | none => rw [export_unnamed henabled hnamed precision env env₁]
    | some algorithm =>
      have hrun : ∀ env, (exportMmaEmuToEnv precision env emu >>= layer) = emulated env := by
        intro env
        obtain ⟨env', hexport, hexported⟩ := exists_exported henabled hnamed precision env
        rw [hexport, ok_bind, hlayer env env' hexported]
      rw [hrun, hrun, hsame]

/-- Earlier runs leave every setting of a run as it was. -/
lemma settingInt_sweep {precision : Precision} {key name : String}
    (hmem : (key, name) ∈ precision.settings)
    (hall : ∀ c ∈ combo :: done, c ∈ generateSweepCombinations config.toConfig)
    (h : sweepEnv precision config env done = .ok env₁) (default : String) :
    settingInt env₁ (emuConfig config combo) key name default =
      settingInt env (emuConfig config combo) key name default :=
  congrArg pyInt (settingText_sweep hmem hall h default)

lemma runFp8_after_sweep (hall : ∀ c ∈ combo :: done, c ∈ generateSweepCombinations config.toConfig)
    (h : sweepEnv .fp8 config env done = .ok env₁) (x : Fp8Operands) :
    runFp8 platform env₁ (emuConfig config combo) x =
      runFp8 platform env (emuConfig config combo) x := by
  have hnative : ∀ env' : Environ, env'.get? Precision.fp8.envVars.enabled = some "0" →
      (fp8LinearOp platform env' >>= fun op => op.apply platform env' x) =
        (fp8Native platform).apply platform Dict.empty x := by
    intro env' hdisabled
    rw [fp8LinearOp_native platform hdisabled, ok_bind, fp8Apply_congr]
  have hlayer : ∀ env env', Exported .fp8 env (emuConfig config combo) env' →
      (fp8LinearOp platform env' >>= fun op => op.apply platform env' x) =
        fp8Emulated platform env (emuConfig config combo) >>= fun op =>
          op.apply platform Dict.empty x := by
    intro env env' hexported
    rw [fp8LinearOp_exported platform hexported]
    exact congrArg _ (funext (fp8Apply_congr env' Dict.empty x))
  refine run_congr hnative hlayer ?_
  rw [fp8Emulated, fp8Emulated, fp8FBits, fp8GBits, fp8GroupSize, fp8ChunkSize,
    settingInt_sweep (by decide) hall h, settingInt_sweep (by decide) hall h,
    settingInt_sweep (by decide) hall h, settingInt_sweep (by decide) hall h]
  rfl

lemma runNvfp4_after_sweep
    (hall : ∀ c ∈ combo :: done, c ∈ generateSweepCombinations config.toConfig)
    (h : sweepEnv .nvfp4 config env done = .ok env₁) (x : Nvfp4Operands) :
    runNvfp4 platform env₁ (emuConfig config combo) x =
      runNvfp4 platform env (emuConfig config combo) x := by
  have hnative : ∀ env' : Environ, env'.get? Precision.nvfp4.envVars.enabled = some "0" →
      (modelOptNvFp4LinearMethod platform env' >>= fun op => op.apply env' x) =
        nvfp4Native platform >>= fun op => op.apply Dict.empty x := by
    intro env' hdisabled
    rw [modelOptNvFp4LinearMethod_native platform hdisabled]
    exact congrArg _ (funext (nvfp4Apply_congr env' Dict.empty x))
  have hlayer : ∀ env env', Exported .nvfp4 env (emuConfig config combo) env' →
      (modelOptNvFp4LinearMethod platform env' >>= fun op => op.apply env' x) =
        nvfp4Emulated env (emuConfig config combo) >>= fun op => op.apply Dict.empty x := by
    intro env env' hexported
    rw [modelOptNvFp4LinearMethod_exported platform hexported]
    exact congrArg _ (funext (nvfp4Apply_congr env' Dict.empty x))
  refine run_congr hnative hlayer ?_
  rw [nvfp4Emulated, nvfp4Emulated, nvfp4FBits, nvfp4GBits,
    settingInt_sweep (by decide) hall h, settingInt_sweep (by decide) hall h]
  rfl

/-- Earlier runs of a sweep leave nothing behind that a run would read: it gives what it gives on
its own. -/
theorem run_after_sweep (hall : ∀ c ∈ combo :: done, c ∈ generateSweepCombinations config.toConfig) :
    (sweepEnv .fp8 config env done = .ok env₁ → ∀ x,
      runFp8 platform env₁ (emuConfig config combo) x =
        runFp8 platform env (emuConfig config combo) x) ∧
    (sweepEnv .nvfp4 config env done = .ok env₁ → ∀ x,
      runNvfp4 platform env₁ (emuConfig config combo) x =
        runNvfp4 platform env (emuConfig config combo) x) :=
  ⟨runFp8_after_sweep hall, runNvfp4_after_sweep hall⟩

/-- `exp2_figure6a_fp8_cofda` -/
def figure6a : ExperimentConfig where
  mmaEmu := .ofPairs [("enabled", .bool true)]
  tasks := some ["wikitext"]
  sweep := [("algorithm", [.str "cofda", .str "cofda_decoupled"]),
    ("chunk_size", [.int 32, .int 16]),
    ("f_bits", ([25, 21, 17, 13, 11, 9, 7, 5, 3] : List Int).map ParamValue.int)]

def figure6aRun (algorithm : String) (chunkSize fBits : Int) : Combo :=
  [("algorithm", .str algorithm), ("chunk_size", .int chunkSize), ("f_bits", .int fBits)]

/-- A run with `cofda` is not affected by the run with `cofda_decoupled` before it. -/
theorem run_after_sweep_figure6a : ∃ env₁,
    sweepEnv .fp8 figure6a Dict.empty [figure6aRun "cofda_decoupled" 16 3] = .ok env₁ ∧
      runFp8 rtxPro6000 env₁ (emuConfig figure6a (figure6aRun "cofda" 32 13)) oneRow =
        runFp8 rtxPro6000 Dict.empty (emuConfig figure6a (figure6aRun "cofda" 32 13)) oneRow := by
  have hall : ∀ c ∈ figure6aRun "cofda" 32 13 :: [figure6aRun "cofda_decoupled" 16 3],
      c ∈ generateSweepCombinations figure6a.toConfig := by decide
  exact ⟨_, rfl, (run_after_sweep hall).1 rfl oneRow⟩

end Sweep

section RunNames

variable {config : Config} {combo combo' : Combo}

/-- What stands before the value of a parameter in a run name. -/
def namePrefix : String → String
  | "f_bits" => "f"
  | "g_bits" => "g"
  | "group_size" => "gs"
  | "chunk_size" => "cs"
  | "algorithm" => ""
  | key => key ++ "_"

lemma runNamePart_eq (p : String × ParamValue) : runNamePart p = namePrefix p.1 ++ p.2.text := by
  obtain ⟨key, value⟩ := p
  unfold runNamePart namePrefix
  split <;> simp_all

/-- The parameters of a run as labelled fields. -/
def nameFields (combo : Combo) : List (String × List Char) :=
  combo.map fun p => (p.1, p.2.text.toList)

def nameLabel (key : String) : List Char := '_' :: (namePrefix key).toList

lemma row_nameFields (config : Config) (hcombo : combo ≠ []) :
    LabelledFields.row nameLabel (nameFields combo) = '_' :: (getRunName combo config).toList := by
  rw [getRunName, if_neg hcombo, String.toList_intercalate]
  refine (LabelledFields.row_eq_intercalate _ (by simpa [nameFields] using hcombo)).trans ?_
  simp [nameFields, runNamePart_eq, Function.comp_def]

lemma keys_nameFields (h : combo ∈ generateSweepCombinations config) :
    (nameFields combo).map Prod.fst = config.sweep.map Prod.fst := by
  rw [← keys_of_mem_combinations h, nameFields, List.map_map]
  rfl

lemma value_of_mem_combinations (h : combo ∈ generateSweepCombinations config) {p : String × ParamValue}
    (hp : p ∈ combo) : ∃ param ∈ config.sweep, param.1 = p.1 ∧ p.2 ∈ param.2 := by
  rw [generateSweepCombinations] at h
  revert h
  generalize config.sweep = sweep
  intro h
  induction sweep generalizing combo with
  | nil =>
    obtain rfl := List.mem_singleton.mp h
    cases hp
  | cons param rest ih =>
    obtain ⟨name, values⟩ := param
    obtain ⟨value, hvalue, h⟩ := List.mem_flatMap.mp h
    obtain ⟨combo', hcombo', rfl⟩ := List.mem_map.mp h
    rcases List.mem_cons.mp hp with rfl | hp
    · exact ⟨_, List.mem_cons_self, rfl, hvalue⟩
    · obtain ⟨param, hparam, hvalues⟩ := ih hp hcombo'
      exact ⟨param, List.mem_cons_of_mem _ hparam, hvalues⟩

/-- Combinations are told apart by the texts of their values if those of a parameter are. -/
lemma nameFields_nodup (hvalues : ∀ p ∈ config.sweep, (p.2.map ParamValue.text).Nodup) :
    ((generateSweepCombinations config).map nameFields).Nodup := by
  rw [generateSweepCombinations]
  revert hvalues
  generalize config.sweep = sweep
  intro hvalues
  induction sweep with
  | nil => exact List.nodup_singleton _
  | cons param rest ih =>
    obtain ⟨name, values⟩ := param
    rw [List.forall_mem_cons] at hvalues
    have hrest := ih hvalues.2
    rw [List.foldr_cons, List.map_flatMap, List.nodup_flatMap]
    constructor
    · intro value _
      rw [List.map_map]
      have hcons : nameFields ∘ ((name, value) :: ·) =
          ((name, value.text.toList) :: ·) ∘ nameFields := rfl
      rw [hcons, ← List.map_map]
      exact hrest.map (List.cons_injective)
    · refine (List.pairwise_map.mp hvalues.1).imp ?_
      intro value value' hne fields hfields hfields'
      simp only [List.mem_map, nameFields] at hfields hfields'
      obtain ⟨_, ⟨c, -, rfl⟩, rfl⟩ := hfields
      obtain ⟨_, ⟨c', -, rfl⟩, heq⟩ := hfields'
      exact hne (String.toList_injective (Prod.mk.inj (List.cons.inj heq).1).2.symm)

/-- The runs of a sweep have different names if the values of a parameter read differently and only
one parameter has underscores in its values. -/
theorem runNames_nodup (hkeys : (config.sweep.map Prod.fst).Nodup)
    (hvalues : ∀ p ∈ config.sweep, (p.2.map ParamValue.text).Nodup) (free : String)
    (hplain : ∀ p ∈ config.sweep, p.1 ≠ free → ∀ value ∈ p.2, '_' ∉ value.text.toList) :
    ((generateSweepCombinations config).map fun combo => getRunName combo config).Nodup := by
  have hplainFields : ∀ {c}, c ∈ generateSweepCombinations config →
      ∀ f ∈ nameFields c, f.1 ≠ free → '_' ∉ f.2 := by
    intro c hc f hf hne
    obtain ⟨p, hp, rfl⟩ := List.mem_map.mp hf
    obtain ⟨param, hparam, hkey, hvalue⟩ := value_of_mem_combinations hc hp
    exact hplain param hparam (hkey ▸ hne) p.2 hvalue
  have hnodup := nameFields_nodup hvalues
  refine hnodup.of_map.map_on ?_
  intro c hc c' hc' hname
  apply List.inj_on_of_nodup_map hnodup hc hc'
  have hsame : (nameFields c).map Prod.fst = (nameFields c').map Prod.fst :=
    (keys_nameFields hc).trans (keys_nameFields hc').symm
  by_cases hcombo : c = []
  · rw [hcombo] at hsame ⊢
    exact (List.map_eq_nil_iff.mp hsame.symm).symm
  have hcombo' : c' ≠ [] := by
    rintro rfl
    exact hcombo (by simpa [nameFields] using hsame)
  have hlabel : ∀ key, '_' ∈ nameLabel key := fun _ => List.mem_cons_self
  refine LabelledFields.row_inj hlabel hsame ?_ (hplainFields hc) (hplainFields hc') ?_
  · rw [keys_nameFields hc]
    exact hkeys
  · rw [row_nameFields config hcombo, row_nameFields config hcombo', hname]

/-- The runs of Figure 6a: `cofda_decoupled` has an underscore, no other value has one. -/
theorem runNames_nodup_figure6a :
    ((generateSweepCombinations figure6a.toConfig).map fun combo =>
      getRunName combo figure6a.toConfig).Nodup :=
  runNames_nodup (by decide) (by decide) "algorithm" (by decide)

end RunNames

end Artifact
