import VllmMmaEmu.Artifact.EmulationSettings
import VllmMmaEmu.Gemm.Fp4GemmKernels

/-!
# From the config of an NVFP4 run to the kernel it launches

`ModelOptNvFp4LinearMethod` picks a backend with the settings it reads, and
`mma_emu_scaled_nvfp4_mm` of `vllm/_custom_ops.py` checks them and calls the entry point of the
kernels.
-/

namespace Artifact

open Python
open MmaEmu (TorchTensor Fp4Call Fp4Launch gdfsF cofdaF fp4G)

inductive Nvfp4Backend where
  | flashinferTrtllm
  | flashinferCutlass
  | cutlass
  | marlin
  | mmaEmu (algorithm : String) (fBits gBits : Int)

/-- The backend that `ModelOptNvFp4LinearMethod.__init__` picks, with the settings it reads. -/
def modelOptNvFp4LinearMethod (platform : Platform) (env : Environ) :
    Except PyError Nvfp4Backend := do
  if ← envFlag env "VLLM_USE_MMAEMU_GEMM_NVFP4" then
    let fBits ← envNvfp4FBits env
    let gBits ← envNvfp4GBits env
    return .mmaEmu (envText env "VLLM_MMAEMU_NVFP4_ALGORITHM") fBits gBits
  else if platform.useTrtllmFp4Gemm then
    pyAssert (platform.hasFlashinfer = true)
    return .flashinferTrtllm
  else if platform.hasFlashinfer then return .flashinferCutlass
  else if platform.cutlassFp4Supported then return .cutlass
  else if platform.fp4MarlinSupported then return .marlin
  else throw (.valueError ("Current platform does not support NVFP4 quantization. Please use " ++
    "Blackwell and above."))

/-- The operands of an NVFP4 GEMM. -/
structure Nvfp4Operands where
  a : TorchTensor
  b : TorchTensor
  blockScaleA : TorchTensor
  blockScaleB : TorchTensor
  alpha : TorchTensor
  outDtype : MmaEmu.ScalarType

def nvfp4AlgorithmMap : Dict String Int := .ofPairs [("gdfs", 1), ("cofda", 2)]

/-- The checks of `mma_emu_scaled_nvfp4_mm` on the settings of an algorithm; the map has no
decoupled one. -/
def validateNvfp4 (algorithm : String) (fBits gBits : Int) : Except PyError Unit := do
  if algorithm = "gdfs" then
    require (5 ≤ fBits ∧ fBits ≤ 35) ("f_bits must be in range [5, 35], got " ++ toString fBits)
    require (gBits ∈ [2, 3, 4, 5, 6, 32])
      ("g_bits must be one of {2, 3, 4, 5, 6, 32}, got " ++ toString gBits)
  else if algorithm = "cofda" then
    require (3 ≤ fBits ∧ fBits ≤ 25) ("f_bits must be in range [3, 25], got " ++ toString fBits)
  else if algorithm = "cofda_decoupled" then
    require (3 ≤ fBits ∧ fBits ≤ 25)
      ("CoFDA (C-decoupled): f_bits must be in range [3, 25], got " ++ toString fBits)

/-- `mma_emu_scaled_nvfp4_mm` of `_custom_ops.py` -/
def mmaEmuScaledNvfp4Mm (env : Environ) (x : Nvfp4Operands) (algorithm : Option String)
    (fBits gBits : Option Int) : Except PyError Fp4Call := do
  pyAssert (x.a.dim = 2 ∧ x.b.dim = 2)
  pyAssert (x.outDtype = .bfloat16 ∨ x.outDtype = .half)
  let algoStr := algorithm.getD (envText env "VLLM_MMAEMU_NVFP4_ALGORITHM")
  require (algoStr ≠ "") ("MMA-Emu NVFP4 GEMM is enabled but no accumulation algorithm was " ++
    "selected. Set VLLM_MMAEMU_NVFP4_ALGORITHM to one of ['gdfs', 'cofda'], or pass " ++
    "algorithm=... .")
  match nvfp4AlgorithmMap.get? algoStr with
  | none =>
    throw (.valueError ("algorithm must be one of ['gdfs', 'cofda'], got '" ++ algoStr ++ "'"))
  | some algoVal =>
    let fBits ← fBits.elim (envNvfp4FBits env) .ok
    let gBits ← gBits.elim (envNvfp4GBits env) .ok
    validateNvfp4 algoStr fBits gBits
    let out : TorchTensor :=
      { emptyMatrix (x.a.size 0) (x.b.size 0) with isCuda := x.a.isCuda, dtype := x.outDtype }
    torchOp (MmaEmu.mmaEmuScaledNvfp4Mm out x.a x.b x.blockScaleA x.blockScaleB x.alpha algoVal
      fBits gBits)

inductive Nvfp4Kernel where
  | flashinferTrtllm
  | flashinferCutlass
  | cutlass
  | marlin
  | mmaEmu (call : Fp4Call)

/-- `apply` behind the quantization. -/
def Nvfp4Backend.apply (env : Environ) (x : Nvfp4Operands) :
    Nvfp4Backend → Except PyError Nvfp4Kernel
  | .flashinferTrtllm => .ok .flashinferTrtllm
  | .flashinferCutlass => .ok .flashinferCutlass
  | .cutlass => .ok .cutlass
  | .marlin => .ok .marlin
  | .mmaEmu algorithm fBits gBits => do
    return .mmaEmu (← mmaEmuScaledNvfp4Mm env x (some algorithm) (some fBits) (some gBits))

/-- An NVFP4 run. -/
def runNvfp4 (platform : Platform) (env : Environ) (emu : Dict String EmuValue)
    (x : Nvfp4Operands) : Except PyError Nvfp4Kernel := do
  let env ← exportMmaEmuToEnv .nvfp4 env emu
  let op ← modelOptNvFp4LinearMethod platform env
  op.apply env x

section Nvfp4Runs

variable {platform : Platform} {env env' : Environ} {emu : Dict String EmuValue}
  {x : Nvfp4Operands}

def nvfp4FBits (env : Environ) (emu : Dict String EmuValue) : Except PyError Int :=
  settingInt env emu "f_bits" "VLLM_MMAEMU_NVFP4_F_BITS" "25"

def nvfp4GBits (env : Environ) (emu : Dict String EmuValue) : Except PyError Int :=
  settingInt env emu "g_bits" "VLLM_MMAEMU_NVFP4_G_BITS" "6"

/-- The config names this algorithm, letter for letter. -/
def HasAlgorithm (emu : Dict String EmuValue) (name : String) : Prop :=
  ∃ value, emu.get? "algorithm" = some value ∧ value.text = name

/-- The launch is the one that the config asks for. -/
def Nvfp4Configured (env : Environ) (emu : Dict String EmuValue) : Fp4Launch → Prop
  | .nvfp4Gdfs F G _ _ => HasAlgorithm emu "gdfs" ∧ nvfp4FBits env emu = .ok F ∧
      nvfp4GBits env emu = .ok G
  | .nvfp4Cofda F _ => HasAlgorithm emu "cofda" ∧ nvfp4FBits env emu = .ok F
  | .mxfp4Gdfs .. => False
  | .mxfp4Cofda .. => False

/-- The parameters of an NVFP4 launch are those it was called with. -/
def Nvfp4LaunchedWith (algorithm fBits gBits : Int) : Fp4Launch → Prop
  | .nvfp4Gdfs F G _ _ => algorithm ≠ 2 ∧ fBits = F ∧ gBits = G
  | .nvfp4Cofda F _ => algorithm = 2 ∧ fBits = F
  | .mxfp4Gdfs .. => False
  | .mxfp4Cofda .. => False

lemma nvfp4LaunchedWith {D A B Asf Bsf alpha : TorchTensor} {algorithm fBits gBits : Int}
    {call : Fp4Call}
    (h : MmaEmu.mmaEmuScaledNvfp4Mm D A B Asf Bsf alpha algorithm fBits gBits = .ok call) :
    Nvfp4LaunchedWith algorithm fBits gBits call.launch := by
  obtain ⟨_, -, h⟩ := bind_eq_ok.mp h
  obtain ⟨_, -, h⟩ := bind_eq_ok.mp h
  obtain ⟨_, -, h⟩ := bind_eq_ok.mp h
  obtain ⟨_, -, h⟩ := bind_eq_ok.mp h
  obtain ⟨_, -, h⟩ := bind_eq_ok.mp h
  obtain ⟨launch, hlaunch, h⟩ := bind_eq_ok.mp h
  obtain rfl := Except.ok.inj h
  rw [MmaEmu.mmaEmuScaledNvfp4MmEmu] at hlaunch
  split_ifs at hlaunch with hcofda
  · obtain ⟨_, -, hlaunch⟩ := bind_eq_ok.mp hlaunch
    obtain ⟨F, hF, hlaunch⟩ := bind_eq_ok.mp hlaunch
    obtain rfl := Except.ok.inj hlaunch
    exact ⟨hcofda, selectCase_eq_ok hF⟩
  · obtain ⟨_, -, hlaunch⟩ := bind_eq_ok.mp hlaunch
    obtain ⟨F, hF, hlaunch⟩ := bind_eq_ok.mp hlaunch
    obtain ⟨G, hG, hlaunch⟩ := bind_eq_ok.mp hlaunch
    obtain rfl := Except.ok.inj hlaunch
    exact ⟨hcofda, selectCase_eq_ok hF, selectCase_eq_ok hG⟩

lemma nvfp4AlgorithmMap_get {algorithm : String} {value : Int} :
    nvfp4AlgorithmMap.get? algorithm = some value ↔
      algorithm = "gdfs" ∧ value = 1 ∨ algorithm = "cofda" ∧ value = 2 := by
  rw [Dict.get?_eq_some_iff, show nvfp4AlgorithmMap.entries = [("gdfs", 1), ("cofda", 2)] by decide]
  simp

lemma mmaEmuScaledNvfp4Mm_launched {algorithm : String} {fBits gBits : Int} {call : Fp4Call}
    (h : mmaEmuScaledNvfp4Mm env x (some algorithm) (some fBits) (some gBits) = .ok call) :
    ∃ value, nvfp4AlgorithmMap.get? algorithm = some value ∧
      Nvfp4LaunchedWith value fBits gBits call.launch := by
  simp only [mmaEmuScaledNvfp4Mm, bind_eq_ok, Option.getD_some, Option.elim_some] at h
  obtain ⟨_, -, _, -, _, -, h⟩ := h
  cases hvalue : nvfp4AlgorithmMap.get? algorithm with
  | none =>
    rw [hvalue] at h
    cases h
  | some value =>
    rw [hvalue] at h
    simp only [ok_bind, bind_eq_ok] at h
    obtain ⟨_, -, h⟩ := h
    cases hop : MmaEmu.mmaEmuScaledNvfp4Mm
        { emptyMatrix (x.a.size 0) (x.b.size 0) with isCuda := x.a.isCuda, dtype := x.outDtype }
        x.a x.b x.blockScaleA x.blockScaleB x.alpha value fBits gBits with
    | error message =>
      rw [hop] at h
      cases h
    | ok call' =>
      rw [hop] at h
      obtain rfl := Except.ok.inj h
      exact ⟨value, rfl, nvfp4LaunchedWith hop⟩

/-- What the layer of an emulated run reads of the config. -/
def nvfp4Emulated (env : Environ) (emu : Dict String EmuValue) : Except PyError Nvfp4Backend := do
  let fBits ← nvfp4FBits env emu
  let gBits ← nvfp4GBits env emu
  return .mmaEmu (((emu.get? "algorithm").map EmuValue.text).getD "") fBits gBits

lemma modelOptNvFp4LinearMethod_exported (platform : Platform)
    (hexported : Exported .nvfp4 env emu env') :
    modelOptNvFp4LinearMethod platform env' = nvfp4Emulated env emu := by
  have hflag : envFlag env' "VLLM_USE_MMAEMU_GEMM_NVFP4" = .ok true :=
    envFlag_one hexported.enabled
  have hfBits : envNvfp4FBits env' = nvfp4FBits env emu := envInt_eq hexported.fBits "25"
  have hgBits : envNvfp4GBits env' = nvfp4GBits env emu := envInt_eq hexported.gBits "6"
  have halgorithm : envText env' "VLLM_MMAEMU_NVFP4_ALGORITHM" =
      ((emu.get? "algorithm").map EmuValue.text).getD "" := by
    rw [envText]
    exact congrArg (fun text => text.getD "") hexported.algorithm
  rw [modelOptNvFp4LinearMethod, hflag, hfBits, hgBits, halgorithm]
  rfl

/-- The backend without emulation. -/
def nvfp4Native (platform : Platform) : Except PyError Nvfp4Backend :=
  if platform.useTrtllmFp4Gemm then do
    pyAssert (platform.hasFlashinfer = true)
    return .flashinferTrtllm
  else if platform.hasFlashinfer then return .flashinferCutlass
  else if platform.cutlassFp4Supported then return .cutlass
  else if platform.fp4MarlinSupported then return .marlin
  else throw (.valueError ("Current platform does not support NVFP4 quantization. Please use " ++
    "Blackwell and above."))

lemma modelOptNvFp4LinearMethod_native (platform : Platform)
    (hdisabled : env'.get? "VLLM_USE_MMAEMU_GEMM_NVFP4" = some "0") :
    modelOptNvFp4LinearMethod platform env' = nvfp4Native platform := by
  rw [modelOptNvFp4LinearMethod, envFlag_zero hdisabled]
  rfl

lemma nvfp4Native_ne (platform : Platform) (algorithm : String) (fBits gBits : Int) :
    nvfp4Native platform ≠ .ok (.mmaEmu algorithm fBits gBits) := by
  intro h
  rw [nvfp4Native] at h
  split_ifs at h <;> simp [bind_eq_ok] at h

/-- A run with emulation that returns has launched the NVFP4 kernel that its config asks for, and a
run without it launches none of them. -/
theorem runNvfp4_configured {kernel : Nvfp4Kernel} (h : runNvfp4 platform env emu x = .ok kernel) :
    (emuEnabled emu = true →
      ∃ call, kernel = .mmaEmu call ∧ Nvfp4Configured env emu call.launch) ∧
      (emuEnabled emu = false → ∀ call, kernel ≠ .mmaEmu call) := by
  simp only [runNvfp4, bind_eq_ok] at h
  obtain ⟨env', hexport, op, hop, happly⟩ := h
  constructor
  · intro henabled
    obtain ⟨⟨algorithm, hnamed⟩, hexported⟩ := exported henabled hexport
    rw [modelOptNvFp4LinearMethod_exported platform hexported, nvfp4Emulated] at hop
    simp only [bind_eq_ok, pure_eq, Except.ok.injEq] at hop
    obtain ⟨fBits, hf, gBits, hg, rfl⟩ := hop
    simp only [Nvfp4Backend.apply, bind_eq_ok, pure_eq, Except.ok.injEq] at happly
    obtain ⟨call, hcall, rfl⟩ := happly
    obtain ⟨value, hvalue, hlaunched⟩ := mmaEmuScaledNvfp4Mm_launched hcall
    refine ⟨call, rfl, ?_⟩
    rw [hnamed, Option.map_some, Option.getD_some, nvfp4AlgorithmMap_get] at hvalue
    cases hlaunch : call.launch with
    | nvfp4Gdfs F G hF hG =>
      rw [hlaunch] at hlaunched
      obtain ⟨hvalue', rfl, rfl⟩ := hlaunched
      have hname : algorithm.text = "gdfs" := by
        rcases hvalue with ⟨hname, -⟩ | ⟨-, htwo⟩
        · exact hname
        · exact absurd htwo hvalue'
      exact ⟨⟨algorithm, hnamed, hname⟩, hf, hg⟩
    | nvfp4Cofda F hF =>
      rw [hlaunch] at hlaunched
      obtain ⟨rfl, rfl⟩ := hlaunched
      have hname : algorithm.text = "cofda" := by simpa using hvalue
      exact ⟨⟨algorithm, hnamed, hname⟩, hf⟩
    | mxfp4Gdfs F G GS hF hG hGS =>
      rw [hlaunch] at hlaunched
      exact hlaunched.elim
    | mxfp4Cofda F CS hF hCS =>
      rw [hlaunch] at hlaunched
      exact hlaunched.elim
  · intro hdisabled call heq
    subst heq
    have hzero : env'.get? "VLLM_USE_MMAEMU_GEMM_NVFP4" = some "0" := by
      rw [not_exported hdisabled hexport]
      exact Dict.get?_set_self _ _ _
    rw [modelOptNvFp4LinearMethod_native platform hzero] at hop
    cases op with
    | mmaEmu algorithm fBits gBits => exact nvfp4Native_ne platform algorithm fBits gBits hop
    | flashinferTrtllm => simp [Nvfp4Backend.apply] at happly
    | flashinferCutlass => simp [Nvfp4Backend.apply] at happly
    | cutlass => simp [Nvfp4Backend.apply] at happly
    | marlin => simp [Nvfp4Backend.apply] at happly

/-- One combination of `exp3_figure11_decode/nvfp4_gdfs`. -/
def decodeGdfs : Dict String EmuValue :=
  .ofPairs [("enabled", .bool true), ("algorithm", .param (.str "gdfs")),
    ("g_bits", .param (.int 4)), ("f_bits", .param (.int 13))]

def packedRow : Nvfp4Operands where
  a := { sizes := [1, 32], strides := [32, 1], isCuda := true, dtype := .byte }
  b := { sizes := [32, 32], strides := [32, 1], isCuda := true, dtype := .byte }
  blockScaleA := { sizes := [128, 4], strides := [4, 1], isCuda := true, dtype := .float8E4m3fn }
  blockScaleB := { sizes := [128, 4], strides := [4, 1], isCuda := true, dtype := .float8E4m3fn }
  alpha := { sizes := [1], strides := [1], isCuda := true, dtype := .float }
  outDtype := .bfloat16

theorem runNvfp4_configured_decodeGdfs : ∃ call,
    runNvfp4 rtxPro6000 Dict.empty decodeGdfs packedRow = .ok (.mmaEmu call) ∧
      Nvfp4Configured Dict.empty decodeGdfs call.launch := by
  have hrun : runNvfp4 rtxPro6000 Dict.empty decodeGdfs packedRow =
      .ok (.mmaEmu ⟨.nvfp4Gdfs 13 4 (by decide) (by decide), 1, 32, 64⟩) := rfl
  obtain ⟨call, hkernel, hconfigured⟩ := (runNvfp4_configured hrun).1 rfl
  exact ⟨call, hkernel ▸ hrun, hconfigured⟩

end Nvfp4Runs

end Artifact
