import VllmMmaEmu.Artifact.ConfigHistory
import VllmMmaEmu.Gemm.TorchTensor

/-!
# The environment of a run

`export_mma_emu_to_env` of `artifact/scripts/run_experiment.py` writes the emulation settings of a
run to environment variables, and `vllm/envs.py` reads them in the engine: a setting is that of the
config, else that of the environment at the start, else the default.
-/

namespace Artifact

open Python
open MmaEmu (TensorMeta)

/-- A character that `int` strips. -/
def isSpace (c : Char) : Bool :=
  c = ' ' || (9 ≤ c.toNat && c.toNat ≤ 13) || (28 ≤ c.toNat && c.toNat ≤ 31)

/-- The digits behind the first, with single underscores between them. -/
def readDigits : Nat → List Char → Option Nat
  | acc, [] => some acc
  | acc, '_' :: c :: rest =>
    if c.isDigit then readDigits (10 * acc + (c.toNat - '0'.toNat)) rest else none
  | acc, c :: rest =>
    if c.isDigit then readDigits (10 * acc + (c.toNat - '0'.toNat)) rest else none

def readNat : List Char → Option Nat
  | [] => none
  | c :: rest => if c.isDigit then readDigits (c.toNat - '0'.toNat) rest else none

def readInt : List Char → Option Int
  | '-' :: rest => (readNat rest).map fun n : Nat => -(n : Int)
  | '+' :: rest => (readNat rest).map fun n : Nat => (n : Int)
  | cs => (readNat cs).map fun n : Nat => (n : Int)

/-- `int(text)` for a text of ASCII characters. -/
def pyInt (text : String) : Except PyError Int :=
  match readInt ((text.toList.dropWhile isSpace).reverse.dropWhile isSpace).reverse with
  | some i => .ok i
  | none => .error (.valueError ("invalid literal for int() with base 10: '" ++ text ++ "'"))

/-- `text.lower()` -/
def pyLower (text : String) : String := String.ofList (text.toList.map Char.toLower)

/-- `os.environ` -/
abbrev Environ := Dict String String

/-- `_pconfig["env_vars"]`; a format without a chunk or group size has no variable for it. -/
structure EnvVars where
  enabled : String
  algorithm : String
  fBits : String
  gBits : String
  chunkSize : Option String
  groupSize : Option String

def Precision.label : Precision → String
  | .fp8 => "FP8"
  | .nvfp4 => "NVFP4"

def Precision.envVars : Precision → EnvVars
  | .fp8 =>
    { enabled := "VLLM_USE_MMAEMU_GEMM_FP8"
      algorithm := "VLLM_MMAEMU_FP8_ALGORITHM"
      fBits := "VLLM_MMAEMU_FP8_F_BITS"
      gBits := "VLLM_MMAEMU_FP8_G_BITS"
      chunkSize := some "VLLM_MMAEMU_FP8_CHUNK_SIZE"
      groupSize := some "VLLM_MMAEMU_FP8_GROUP_SIZE" }
  | .nvfp4 =>
    { enabled := "VLLM_USE_MMAEMU_GEMM_NVFP4"
      algorithm := "VLLM_MMAEMU_NVFP4_ALGORITHM"
      fBits := "VLLM_MMAEMU_NVFP4_F_BITS"
      gBits := "VLLM_MMAEMU_NVFP4_G_BITS"
      chunkSize := none
      groupSize := none }

/-- A setting is exported if the format has a variable for it and the config names it. -/
def exportSetting (env : Environ) (name : Option String) (value : Option EmuValue) : Environ :=
  match name, value with
  | some name, some value => env.set name value.text
  | _, _ => env

def exportMmaEmuToEnv (precision : Precision) (env : Environ) (emu : Dict String EmuValue) :
    Except PyError Environ :=
  let vars := precision.envVars
  if ¬ emuEnabled emu then .ok (env.set vars.enabled "0")
  else
    match emu.get? "algorithm" with
    | none => .error (.valueError ("An emulated run must name its accumulation algorithm " ++
        "('algorithm:' in config.yaml) for " ++ precision.label ++ "."))
    | some algorithm =>
      let env := env.set vars.enabled "1"
      let env := env.set vars.algorithm algorithm.text
      let env := exportSetting env vars.chunkSize (emu.get? "chunk_size")
      let env := exportSetting env (some vars.fBits) (emu.get? "f_bits")
      let env := exportSetting env (some vars.gBits) (emu.get? "g_bits")
      .ok (exportSetting env vars.groupSize (emu.get? "group_size"))

/-- `int(os.getenv(name, default))` -/
def envInt (env : Environ) (name default : String) : Except PyError Int :=
  pyInt ((env.get? name).getD default)

/-- `bool(int(os.getenv(name, "0")))` -/
def envFlag (env : Environ) (name : String) : Except PyError Bool := do
  return (← envInt env name "0") ≠ 0

/-- `os.getenv(name, "")` -/
def envText (env : Environ) (name : String) : String := (env.get? name).getD ""

def envFp8FBits (env : Environ) : Except PyError Int := envInt env "VLLM_MMAEMU_FP8_F_BITS" "25"

def envFp8GBits (env : Environ) : Except PyError Int := envInt env "VLLM_MMAEMU_FP8_G_BITS" "32"

def envFp8GroupSize (env : Environ) : Except PyError Int :=
  envInt env "VLLM_MMAEMU_FP8_GROUP_SIZE" "16"

def envFp8ChunkSize (env : Environ) : Except PyError Int :=
  envInt env "VLLM_MMAEMU_FP8_CHUNK_SIZE" "32"

def envNvfp4FBits (env : Environ) : Except PyError Int :=
  envInt env "VLLM_MMAEMU_NVFP4_F_BITS" "25"

def envNvfp4GBits (env : Environ) : Except PyError Int := envInt env "VLLM_MMAEMU_NVFP4_G_BITS" "6"

/-- `raise ValueError(message)` unless the condition holds. -/
def require (condition : Prop) [Decidable condition] (message : String) : Except PyError Unit :=
  if condition then .ok () else .error (.valueError message)

/-- What the backends ask of the platform. -/
structure Platform where
  isRocm : Bool
  isCuda : Bool
  capability : Nat
  cutlassFp8Supported : Bool
  cutlassFp4Supported : Bool
  hasFlashinfer : Bool
  fp4MarlinSupported : Bool
  useTrtllmFp4Gemm : Bool
  useRowwiseTorchScaledMm : Bool

def rtxPro6000 : Platform where
  isRocm := false
  isCuda := true
  capability := 120
  cutlassFp8Supported := true
  cutlassFp4Supported := true
  hasFlashinfer := false
  fp4MarlinSupported := true
  useTrtllmFp4Gemm := false
  useRowwiseTorchScaledMm := true

lemma matrix_rank (m n rowStride colStride : Nat) :
    [rowStride, colStride].length = [m, n].length := rfl

def matrix (m n rowStride colStride : Nat) : TensorMeta :=
  ⟨[m, n], [rowStride, colStride], matrix_rank m n rowStride colStride⟩

/-- `torch.empty((m, n))` -/
def emptyMatrix (m n : Nat) : TensorMeta := matrix m n n 1

/-- A call of an entry point; a failed check raises. -/
def torchOp {α : Type} (result : Except String α) : Except PyError α :=
  result.mapError .runtimeError

lemma readDigits_eq {cs : List Char} (h : ∀ c ∈ cs, c.isDigit = true) (acc : Nat) :
    readDigits acc cs = some (Nat.ofDigitChars 10 cs acc) := by
  induction cs generalizing acc with
  | nil => rfl
  | cons c rest ih =>
    have hc : c.isDigit = true := h c List.mem_cons_self
    have hne : c ≠ '_' := by
      rintro rfl
      exact absurd hc (by decide)
    have hrest := ih fun c' hc' => h c' (List.mem_cons_of_mem c hc')
    rw [readDigits, if_pos hc, hrest, Nat.ofDigitChars_cons]
    intro c' rest' heq
    exact absurd heq hne

lemma readNat_toDigits (n : Nat) : readNat (Nat.toDigits 10 n) = some n := by
  have hdigit : ∀ c ∈ Nat.toDigits 10 n, c.isDigit = true := fun c hc =>
    Nat.isDigit_of_mem_toDigits (by decide) (by decide) hc
  have hvalue := @Nat.ofDigitChars_ten_toDigits n
  cases hchars : Nat.toDigits 10 n with
  | nil => exact absurd hchars Nat.toDigits_ne_nil
  | cons c rest =>
    rw [hchars] at hdigit hvalue
    rw [readNat, if_pos (hdigit c List.mem_cons_self),
      readDigits_eq fun c' hc' => hdigit c' (List.mem_cons_of_mem c hc'), ← hvalue,
      Nat.ofDigitChars_cons]
    simp

lemma isDigit_not_isSpace {c : Char} (h : c.isDigit = true) : isSpace c = false := by
  have hbounds : 48 ≤ c.toNat ∧ c.toNat ≤ 57 := Char.isDigit_iff_toNat.mp h
  have hspace : c ≠ ' ' := by
    rintro rfl
    exact absurd h (by decide)
  simp only [isSpace, hspace, decide_false, Bool.false_or, Bool.or_eq_false_iff,
    Bool.and_eq_false_iff, decide_eq_false_iff_not]
  omega

lemma strip_eq {cs : List Char} (h : ∀ c ∈ cs, isSpace c = false) :
    ((cs.dropWhile isSpace).reverse.dropWhile isSpace).reverse = cs := by
  have hkeep : ∀ l : List Char, (∀ c ∈ l, isSpace c = false) → l.dropWhile isSpace = l := by
    intro l hl
    cases l with
    | nil => rfl
    | cons c rest => rw [List.dropWhile_cons_of_neg (by simp [hl c List.mem_cons_self])]
  rw [hkeep cs h, hkeep cs.reverse fun c hc => h c (List.mem_reverse.mp hc), List.reverse_reverse]

lemma readInt_of_digits {cs : List Char} (h : ∀ c ∈ cs, c.isDigit = true) :
    readInt cs = (readNat cs).map fun n : Nat => (n : Int) := by
  rw [readInt]
  · rintro rest rfl
    exact absurd (h '-' List.mem_cons_self) (by decide)
  · rintro rest rfl
    exact absurd (h '+' List.mem_cons_self) (by decide)

lemma pyInt_toString (i : Int) : pyInt (toString i) = .ok i := by
  have hdigit : ∀ n, ∀ c ∈ Nat.toDigits 10 n, c.isDigit = true := fun n c hc =>
    Nat.isDigit_of_mem_toDigits (by decide) (by decide) hc
  rw [pyInt, Int.toString_eq_repr, Int.repr_eq_if]
  split_ifs with hnonneg
  · rw [Nat.toList_repr, strip_eq fun c hc => isDigit_not_isSpace (hdigit _ c hc),
      readInt_of_digits (hdigit _), readNat_toDigits, Option.map_some, Int.toNat_of_nonneg hnonneg]
  · have hspaces : ∀ c ∈ '-' :: Nat.toDigits 10 (-i).toNat, isSpace c = false := by
      intro c hc
      rcases List.mem_cons.mp hc with rfl | hc
      · decide
      · exact isDigit_not_isSpace (hdigit _ c hc)
    have htext : ("-" ++ (-i).toNat.repr).toList = '-' :: Nat.toDigits 10 (-i).toNat := by
      rw [String.toList_append, Nat.toList_repr]
      rfl
    have hneg : (((-i).toNat : Nat) : Int) = -i := Int.toNat_of_nonneg (by omega)
    rw [htext, strip_eq hspaces, readInt, readNat_toDigits, Option.map_some, hneg, neg_neg]

section Exported

variable {precision : Precision} {env env' : Environ} {emu : Dict String EmuValue}

/-- A setting that is read back: the value of the config, else that of the environment at the
start, else the default. -/
def settingText (env : Environ) (emu : Dict String EmuValue) (key name default : String) : String :=
  (((emu.get? key).map EmuValue.text).or (env.get? name)).getD default

def settingInt (env : Environ) (emu : Dict String EmuValue) (key name default : String) :
    Except PyError Int := pyInt (settingText env emu key name default)

lemma settingInt_of_int {key : String} {i : Int} (h : emu.get? key = some (.param (.int i)))
    (env : Environ) (name default : String) : settingInt env emu key name default = .ok i := by
  rw [settingInt, settingText, h]
  exact pyInt_toString i

lemma get?_exportSetting (env : Environ) (name : Option String) (value : Option EmuValue)
    (k : String) : (exportSetting env name value).get? k =
      if name = some k then (value.map EmuValue.text).or (env.get? k) else env.get? k := by
  cases name with
  | none => rfl
  | some name =>
    cases value with
    | none => simp [exportSetting]
    | some value =>
      rw [exportSetting, Dict.get?_set]
      by_cases h : name = k <;> simp [h]

/-- What the environment holds after the settings of an emulated run were exported. -/
structure Exported (precision : Precision) (env : Environ) (emu : Dict String EmuValue)
    (env' : Environ) : Prop where
  enabled : env'.get? precision.envVars.enabled = some "1"
  algorithm : env'.get? precision.envVars.algorithm = (emu.get? "algorithm").map EmuValue.text
  fBits : env'.get? precision.envVars.fBits =
    ((emu.get? "f_bits").map EmuValue.text).or (env.get? precision.envVars.fBits)
  gBits : env'.get? precision.envVars.gBits =
    ((emu.get? "g_bits").map EmuValue.text).or (env.get? precision.envVars.gBits)
  chunkSize : ∀ name, precision.envVars.chunkSize = some name →
    env'.get? name = ((emu.get? "chunk_size").map EmuValue.text).or (env.get? name)
  groupSize : ∀ name, precision.envVars.groupSize = some name →
    env'.get? name = ((emu.get? "group_size").map EmuValue.text).or (env.get? name)

lemma exported (henabled : emuEnabled emu = true)
    (h : exportMmaEmuToEnv precision env emu = .ok env') :
    (∃ algorithm, emu.get? "algorithm" = some algorithm) ∧ Exported precision env emu env' := by
  rw [exportMmaEmuToEnv, if_neg (not_not.mpr henabled)] at h
  cases halgorithm : emu.get? "algorithm" with
  | none =>
    rw [halgorithm] at h
    cases h
  | some algorithm =>
    rw [halgorithm] at h
    obtain rfl := Except.ok.inj h
    refine ⟨⟨algorithm, rfl⟩, ?_⟩
    cases precision with
    | fp8 =>
      constructor
      all_goals simp [get?_exportSetting, Dict.get?_set, Precision.envVars, halgorithm]
    | nvfp4 =>
      constructor
      all_goals simp [get?_exportSetting, Dict.get?_set, Precision.envVars, halgorithm]

lemma not_exported (henabled : emuEnabled emu = false)
    (h : exportMmaEmuToEnv precision env emu = .ok env') :
    env' = env.set precision.envVars.enabled "0" := by
  rw [exportMmaEmuToEnv, if_pos (by simp [henabled])] at h
  exact (Except.ok.inj h).symm

lemma envInt_eq {name : String} {key : String}
    (h : env'.get? name = ((emu.get? key).map EmuValue.text).or (env.get? name))
    (default : String) : envInt env' name default = settingInt env emu key name default := by
  rw [envInt, h, settingInt, settingText]

lemma envFlag_one {name : String} (h : env'.get? name = some "1") : envFlag env' name = .ok true := by
  rw [envFlag, envInt, h, Option.getD_some, show "1" = toString (1 : Int) by decide,
    pyInt_toString]
  rfl

lemma envFlag_zero {name : String} (h : env'.get? name = some "0") :
    envFlag env' name = .ok false := by
  rw [envFlag, envInt, h, Option.getD_some, show "0" = toString (0 : Int) by decide,
    pyInt_toString]
  rfl

end Exported

lemma selectCase_eq_ok {cases : List Nat} {value : Int} {message : String}
    {x : {x // x ∈ cases}} (h : MmaEmu.selectCase cases value message = .ok x) :
    value = x.val := by
  rw [MmaEmu.selectCase] at h
  split_ifs at h with hmem
  obtain rfl := Except.ok.inj h
  exact (Int.toNat_of_nonneg hmem.1).symm

lemma selectCase_natCast {cases : List Nat} {n : Nat} (h : n ∈ cases) (message : String) :
    MmaEmu.selectCase cases n message = .ok ⟨n, h⟩ := by
  rw [MmaEmu.selectCase, dif_pos ⟨Int.natCast_nonneg n, by simpa using h⟩]
  rfl

end Artifact
