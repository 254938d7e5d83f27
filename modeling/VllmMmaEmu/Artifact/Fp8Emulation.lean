import VllmMmaEmu.Artifact.EmulationSettings
import VllmMmaEmu.Gemm.Fp8GemmKernels

/-!
# From the config of an FP8 run to the kernel it launches

`Fp8LinearOp` picks a backend with the settings it reads, and `mma_emu_scaled_fp8_mm` of
`vllm/_custom_ops.py` checks them and calls the entry point of the kernels.
-/

namespace Artifact

open Python
open MmaEmu (TensorMeta Fp8Call Fp8Launch gdfsF cofdaF fp8G fp8Gs fp8Cs)

structure Fp8EmuSettings where
  algorithm : String
  fBits : Int
  gBits : Int
  groupSize : Int
  chunkSize : Int

inductive Fp8Backend where
  | rocm
  | flashinfer
  | cutlass
  | torch
  | mmaEmu (settings : Fp8EmuSettings)

/-- The backend that `Fp8LinearOp.__init__` prefers, with the settings it reads. -/
def fp8LinearOp (platform : Platform) (env : Environ) : Except PyError Fp8Backend := do
  let preferredBackend : Fp8Backend :=
    if platform.isRocm then .rocm
    else if platform.isCuda ∧ platform.cutlassFp8Supported then
      if platform.hasFlashinfer ∧ 100 ≤ platform.capability then .flashinfer else .cutlass
    else .torch
  if ← envFlag env "VLLM_USE_MMAEMU_GEMM_FP8" then
    require (platform.isCuda ∧ 89 ≤ platform.capability)
      ("VLLM_USE_MMAEMU_GEMM_FP8 is set, but FP8 emulation requires a CUDA device of compute " ++
        "capability 8.9 or later.")
    let fBits ← envFp8FBits env
    let gBits ← envFp8GBits env
    let groupSize ← envFp8GroupSize env
    let chunkSize ← envFp8ChunkSize env
    return .mmaEmu ⟨envText env "VLLM_MMAEMU_FP8_ALGORITHM", fBits, gBits, groupSize, chunkSize⟩
  else return preferredBackend

/-- The operands of an FP8 GEMM; the scales count by their number. -/
structure Fp8Operands where
  qinput : TensorMeta
  weight : TensorMeta
  scaleA : Nat
  scaleB : Nat
  bias : Option (TensorMeta × MmaEmu.ScalarType)
  outDtype : MmaEmu.ScalarType

def fp8AlgorithmMap : Dict String Int := .ofPairs [("gdfs", 1), ("cofda", 2), ("cofda_decoupled", 3)]

/-- The checks of `mma_emu_scaled_fp8_mm` on the settings of an algorithm. -/
def validateFp8 (algorithm : String) (fBits gBits groupSize chunkSize : Int) :
    Except PyError Unit := do
  if algorithm = "gdfs" then
    require (7 ≤ fBits ∧ fBits ≤ 35) ("f_bits must be in range [7, 35], got " ++ toString fBits)
    require (gBits ∈ [3, 4, 5, 6, 8, 10, 13, 17, 25, 32])
      ("g_bits must be one of \x7b3, 4, 5, 6, 8, 10, 13, 17, 25, 32\x7d, got " ++ toString gBits)
    require (groupSize ∈ [8, 16])
      ("group_size must be one of \x7b8, 16\x7d, got " ++ toString groupSize)
  else if algorithm = "cofda" then
    require (3 ≤ fBits ∧ fBits ≤ 25) ("f_bits must be in range [3, 25], got " ++ toString fBits)
    require (chunkSize ∈ [4, 8, 16, 32])
      ("chunk_size must be one of \x7b4, 8, 16, 32\x7d, got " ++ toString chunkSize)
  else if algorithm = "cofda_decoupled" then
    require (3 ≤ fBits ∧ fBits ≤ 25)
      ("CoFDA (C-decoupled): f_bits must be in range [3, 25], got " ++ toString fBits)
    require (chunkSize ∈ [8, 16, 32])
      ("CoFDA (C-decoupled): chunk_size must be one of \x7b8, 16, 32\x7d, got " ++
        toString chunkSize)

/-- `mma_emu_scaled_fp8_mm` of `_custom_ops.py`, on matrices. -/
def mmaEmuScaledFp8Mm (env : Environ) (x : Fp8Operands) (algorithm : Option String)
    (fBits gBits groupSize chunkSize : Option Int) : Except PyError Fp8Call := do
  pyAssert (x.outDtype = .bfloat16 ∨ x.outDtype = .half)
  pyAssert (∀ b ∈ x.bias, b.1.numel = x.weight.size 1 ∧ b.2 = x.outDtype)
  pyAssert (x.scaleA = 1)
  pyAssert (x.scaleB = 1)
  let algorithm := algorithm.getD (envText env "VLLM_MMAEMU_FP8_ALGORITHM")
  let algoStr := pyLower algorithm
  require (algoStr ≠ "") ("MMA-Emu FP8 GEMM is enabled but no accumulation algorithm was " ++
    "selected. Set VLLM_MMAEMU_FP8_ALGORITHM to one of ['gdfs', 'cofda', 'cofda_decoupled'], " ++
    "or pass algorithm=... .")
  match fp8AlgorithmMap.get? algoStr with
  | none => throw (.valueError ("algorithm must be one of ['gdfs', 'cofda', 'cofda_decoupled'], " ++
      "got '" ++ algorithm ++ "'"))
  | some algoVal =>
    let fBits ← fBits.elim (envFp8FBits env) .ok
    let gBits ← gBits.elim (envFp8GBits env) .ok
    let groupSize ← groupSize.elim (envFp8GroupSize env) .ok
    let chunkSize ← chunkSize.elim (envFp8ChunkSize env) .ok
    validateFp8 algoStr fBits gBits groupSize chunkSize
    let out := emptyMatrix (x.qinput.size 0) (x.weight.size 1)
    torchOp (MmaEmu.mmaEmuScaledFp8Mm out x.qinput x.weight x.outDtype (x.bias.map Prod.fst)
      algoVal fBits gBits groupSize chunkSize)

/-- The kernel that a linear layer ends up in. -/
inductive Fp8Kernel where
  | rocmPerTensor
  | flashinfer
  | cutlass
  | torchPerTensor
  | torchPerToken
  | torchChannelwise
  | mmaEmu (call : Fp8Call)

/-- `Fp8LinearOp.apply` behind the quantization: `dispatch_w8a8_scaled_mm` and the call. -/
def Fp8Backend.apply (platform : Platform) (env : Environ) (x : Fp8Operands) :
    Fp8Backend → Except PyError Fp8Kernel
  | .rocm =>
    if x.scaleB = 1 ∧ x.scaleA = 1 then .ok .rocmPerTensor else fallback
  | .flashinfer => .ok (if x.scaleB = 1 ∧ x.scaleA = 1 then .flashinfer else .cutlass)
  | .cutlass => .ok .cutlass
  | .torch => if x.scaleB = 1 ∧ x.scaleA = 1 then .ok .torchPerTensor else fallback
  | .mmaEmu s =>
    if x.scaleB = 1 ∧ x.scaleA = 1 then do
      return .mmaEmu (← mmaEmuScaledFp8Mm env x (some s.algorithm) (some s.fBits) (some s.gBits)
        (some s.groupSize) (some s.chunkSize))
    else .error (.valueError ("MMA emulation of FP8 requires per-tensor weight and activation " ++
      "scales, but this checkpoint carries " ++
      (if x.scaleB = 1 then "per-tensor" else "per-channel") ++ " weight and " ++
      (if x.scaleA = 1 then "per-tensor" else "per-token") ++ " activation scales. Use a " ++
      "statically quantized per-tensor FP8 checkpoint, or unset VLLM_USE_MMAEMU_GEMM_FP8."))
where
  fallback : Except PyError Fp8Kernel :=
    .ok (if x.scaleB ≠ 1 ∧ x.scaleA ≠ 1 ∧ platform.useRowwiseTorchScaledMm then .torchPerToken
      else .torchChannelwise)

/-- An FP8 run: the settings are exported, the layer is built, and the GEMM is called. -/
def runFp8 (platform : Platform) (env : Environ) (emu : Dict String EmuValue) (x : Fp8Operands) :
    Except PyError Fp8Kernel := do
  let env ← exportMmaEmuToEnv .fp8 env emu
  let op ← fp8LinearOp platform env
  op.apply platform env x

/-- The parameters of an FP8 launch are those it was called with. -/
def Fp8LaunchedWith (algorithm fBits gBits groupSize chunkSize : Int) : Fp8Launch → Prop
  | .gdfs F G GS _ _ _ => algorithm = 1 ∧ fBits = F ∧ gBits = G ∧ groupSize = GS
  | .cofda F CS _ _ => algorithm = 2 ∧ fBits = F ∧ chunkSize = CS
  | .cofdaDecoupled F CS _ _ => algorithm = 3 ∧ fBits = F ∧ chunkSize = CS

lemma fp8LaunchedWith {c a b : TensorMeta} {outDtype : MmaEmu.ScalarType}
    {bias : Option TensorMeta} {algorithm fBits gBits groupSize chunkSize : Int} {call : Fp8Call}
    (h : MmaEmu.mmaEmuScaledFp8Mm c a b outDtype bias algorithm fBits gBits groupSize chunkSize =
      .ok call) : Fp8LaunchedWith algorithm fBits gBits groupSize chunkSize call.launch := by
  obtain ⟨_, -, h⟩ := bind_eq_ok.mp h
  obtain ⟨_, -, h⟩ := bind_eq_ok.mp h
  obtain ⟨_, -, h⟩ := bind_eq_ok.mp h
  obtain ⟨launch, hlaunch, h⟩ := bind_eq_ok.mp h
  obtain rfl := Except.ok.inj h
  rw [MmaEmu.mmaEmuScaledFp8MmEmu] at hlaunch
  split_ifs at hlaunch with hgdfs hcofda hdecoupled
  · obtain ⟨_, -, hlaunch⟩ := bind_eq_ok.mp hlaunch
    obtain ⟨GS, hGS, hlaunch⟩ := bind_eq_ok.mp hlaunch
    obtain ⟨F, hF, hlaunch⟩ := bind_eq_ok.mp hlaunch
    obtain ⟨G, hG, hlaunch⟩ := bind_eq_ok.mp hlaunch
    obtain rfl := Except.ok.inj hlaunch
    exact ⟨hgdfs, selectCase_eq_ok hF, selectCase_eq_ok hG, selectCase_eq_ok hGS⟩
  · obtain ⟨_, -, hlaunch⟩ := bind_eq_ok.mp hlaunch
    obtain ⟨CS, hCS, hlaunch⟩ := bind_eq_ok.mp hlaunch
    obtain ⟨F, hF, hlaunch⟩ := bind_eq_ok.mp hlaunch
    obtain rfl := Except.ok.inj hlaunch
    exact ⟨hcofda, selectCase_eq_ok hF, selectCase_eq_ok hCS⟩
  · obtain ⟨_, -, hlaunch⟩ := bind_eq_ok.mp hlaunch
    obtain ⟨CS, hCS, hlaunch⟩ := bind_eq_ok.mp hlaunch
    obtain ⟨F, hF, hlaunch⟩ := bind_eq_ok.mp hlaunch
    obtain rfl := Except.ok.inj hlaunch
    exact ⟨hdecoupled, selectCase_eq_ok hF, selectCase_eq_ok hCS⟩

section Fp8Runs

variable {platform : Platform} {env env' : Environ} {emu : Dict String EmuValue} {x : Fp8Operands}

/-- The config names this algorithm, in letters of either case. -/
def NamesAlgorithm (emu : Dict String EmuValue) (name : String) : Prop :=
  ∃ value, emu.get? "algorithm" = some value ∧ pyLower value.text = name

def fp8FBits (env : Environ) (emu : Dict String EmuValue) : Except PyError Int :=
  settingInt env emu "f_bits" "VLLM_MMAEMU_FP8_F_BITS" "25"

def fp8GBits (env : Environ) (emu : Dict String EmuValue) : Except PyError Int :=
  settingInt env emu "g_bits" "VLLM_MMAEMU_FP8_G_BITS" "32"

def fp8GroupSize (env : Environ) (emu : Dict String EmuValue) : Except PyError Int :=
  settingInt env emu "group_size" "VLLM_MMAEMU_FP8_GROUP_SIZE" "16"

def fp8ChunkSize (env : Environ) (emu : Dict String EmuValue) : Except PyError Int :=
  settingInt env emu "chunk_size" "VLLM_MMAEMU_FP8_CHUNK_SIZE" "32"

/-- The launch is the one that the config asks for. -/
def Fp8Configured (env : Environ) (emu : Dict String EmuValue) : Fp8Launch → Prop
  | .gdfs F G GS _ _ _ => NamesAlgorithm emu "gdfs" ∧ fp8FBits env emu = .ok F ∧
      fp8GBits env emu = .ok G ∧ fp8GroupSize env emu = .ok GS
  | .cofda F CS _ _ => NamesAlgorithm emu "cofda" ∧ fp8FBits env emu = .ok F ∧
      fp8ChunkSize env emu = .ok CS
  | .cofdaDecoupled F CS _ _ => NamesAlgorithm emu "cofda_decoupled" ∧ fp8FBits env emu = .ok F ∧
      fp8ChunkSize env emu = .ok CS

lemma fp8AlgorithmMap_get {algorithm : String} {value : Int} :
    fp8AlgorithmMap.get? algorithm = some value ↔
      algorithm = "gdfs" ∧ value = 1 ∨ algorithm = "cofda" ∧ value = 2 ∨
        algorithm = "cofda_decoupled" ∧ value = 3 := by
  rw [Dict.get?_eq_some_iff, show fp8AlgorithmMap.entries =
    [("gdfs", 1), ("cofda", 2), ("cofda_decoupled", 3)] by decide]
  simp

/-- A GEMM that returns was launched with the settings of the call. -/
lemma mmaEmuScaledFp8Mm_launched {algorithm : String} {fBits gBits groupSize chunkSize : Int}
    {call : Fp8Call} (h : mmaEmuScaledFp8Mm env x (some algorithm) (some fBits) (some gBits)
      (some groupSize) (some chunkSize) = .ok call) :
    ∃ value, fp8AlgorithmMap.get? (pyLower algorithm) = some value ∧
      Fp8LaunchedWith value fBits gBits groupSize chunkSize call.launch := by
  simp only [mmaEmuScaledFp8Mm, bind_eq_ok, Option.getD_some, Option.elim_some] at h
  obtain ⟨_, -, _, -, _, -, _, -, _, -, h⟩ := h
  cases hvalue : fp8AlgorithmMap.get? (pyLower algorithm) with
  | none =>
    rw [hvalue] at h
    cases h
  | some value =>
    rw [hvalue] at h
    simp only [ok_bind, bind_eq_ok] at h
    obtain ⟨_, -, h⟩ := h
    cases hop : MmaEmu.mmaEmuScaledFp8Mm (emptyMatrix (x.qinput.size 0) (x.weight.size 1)) x.qinput
      x.weight x.outDtype (x.bias.map Prod.fst) value fBits gBits groupSize chunkSize with
    | error message =>
      rw [hop] at h
      cases h
    | ok call' =>
      rw [hop] at h
      obtain rfl := Except.ok.inj h
      exact ⟨value, rfl, fp8LaunchedWith hop⟩

/-- What the layer of an emulated run reads of the config. -/
def fp8Emulated (platform : Platform) (env : Environ) (emu : Dict String EmuValue) :
    Except PyError Fp8Backend := do
  require (platform.isCuda ∧ 89 ≤ platform.capability)
    ("VLLM_USE_MMAEMU_GEMM_FP8 is set, but FP8 emulation requires a CUDA device of compute " ++
      "capability 8.9 or later.")
  let fBits ← fp8FBits env emu
  let gBits ← fp8GBits env emu
  let groupSize ← fp8GroupSize env emu
  let chunkSize ← fp8ChunkSize env emu
  return .mmaEmu ⟨((emu.get? "algorithm").map EmuValue.text).getD "", fBits, gBits, groupSize,
    chunkSize⟩

lemma fp8LinearOp_exported (platform : Platform) (hexported : Exported .fp8 env emu env') :
    fp8LinearOp platform env' = fp8Emulated platform env emu := by
  have hflag : envFlag env' "VLLM_USE_MMAEMU_GEMM_FP8" = .ok true := envFlag_one hexported.enabled
  have hfBits : envFp8FBits env' = fp8FBits env emu := envInt_eq hexported.fBits "25"
  have hgBits : envFp8GBits env' = fp8GBits env emu := envInt_eq hexported.gBits "32"
  have hgroupSize : envFp8GroupSize env' = fp8GroupSize env emu :=
    envInt_eq (hexported.groupSize _ rfl) "16"
  have hchunkSize : envFp8ChunkSize env' = fp8ChunkSize env emu :=
    envInt_eq (hexported.chunkSize _ rfl) "32"
  have halgorithm : envText env' "VLLM_MMAEMU_FP8_ALGORITHM" =
      ((emu.get? "algorithm").map EmuValue.text).getD "" := by
    rw [envText]
    exact congrArg (fun text => text.getD "") hexported.algorithm
  rw [fp8LinearOp, hflag, hfBits, hgBits, hgroupSize, hchunkSize, halgorithm]
  rfl

/-- The layer of an emulated run has the settings of the config. -/
lemma fp8LinearOp_emulated (hexported : Exported .fp8 env emu env') {op : Fp8Backend}
    (h : fp8LinearOp platform env' = .ok op) :
    ∃ fBits gBits groupSize chunkSize, fp8FBits env emu = .ok fBits ∧
      fp8GBits env emu = .ok gBits ∧ fp8GroupSize env emu = .ok groupSize ∧
      fp8ChunkSize env emu = .ok chunkSize ∧
      op = .mmaEmu ⟨((emu.get? "algorithm").map EmuValue.text).getD "", fBits, gBits, groupSize,
        chunkSize⟩ := by
  rw [fp8LinearOp_exported platform hexported, fp8Emulated] at h
  simp only [bind_eq_ok, pure_eq, Except.ok.injEq] at h
  obtain ⟨_, -, fBits, hf, gBits, hg, groupSize, hgs, chunkSize, hcs, rfl⟩ := h
  exact ⟨fBits, gBits, groupSize, chunkSize, hf, hg, hgs, hcs, rfl⟩

/-- The backend without emulation. -/
def fp8Native (platform : Platform) : Fp8Backend :=
  if platform.isRocm then .rocm
  else if platform.isCuda ∧ platform.cutlassFp8Supported then
    if platform.hasFlashinfer ∧ 100 ≤ platform.capability then .flashinfer else .cutlass
  else .torch

lemma fp8LinearOp_native (platform : Platform)
    (hdisabled : env'.get? "VLLM_USE_MMAEMU_GEMM_FP8" = some "0") :
    fp8LinearOp platform env' = .ok (fp8Native platform) := by
  rw [fp8LinearOp, envFlag_zero hdisabled]
  rfl

/-- A run with emulation that returns has launched the kernel that its config asks for, and a run
without it launches none of them. -/
theorem runFp8_configured {kernel : Fp8Kernel} (h : runFp8 platform env emu x = .ok kernel) :
    (emuEnabled emu = true → ∃ call, kernel = .mmaEmu call ∧ Fp8Configured env emu call.launch) ∧
      (emuEnabled emu = false → ∀ call, kernel ≠ .mmaEmu call) := by
  simp only [runFp8, bind_eq_ok] at h
  obtain ⟨env', hexport, op, hop, happly⟩ := h
  constructor
  · intro henabled
    obtain ⟨⟨algorithm, hnamed⟩, hexported⟩ := exported henabled hexport
    obtain ⟨fBits, gBits, groupSize, chunkSize, hf, hg, hgs, hcs, rfl⟩ :=
      fp8LinearOp_emulated hexported hop
    rw [Fp8Backend.apply] at happly
    split_ifs at happly with hscales
    simp only [bind_eq_ok, pure_eq, Except.ok.injEq] at happly
    obtain ⟨call, hcall, rfl⟩ := happly
    obtain ⟨value, hvalue, hlaunched⟩ := mmaEmuScaledFp8Mm_launched hcall
    refine ⟨call, rfl, ?_⟩
    have hnames : ∀ name, pyLower (((emu.get? "algorithm").map EmuValue.text).getD "") = name →
        NamesAlgorithm emu name := by
      intro name heq
      refine ⟨algorithm, hnamed, ?_⟩
      rwa [hnamed, Option.map_some, Option.getD_some] at heq
    rw [fp8AlgorithmMap_get] at hvalue
    cases hlaunch : call.launch with
    | gdfs F G GS hF hG hGS =>
      rw [hlaunch] at hlaunched
      obtain ⟨rfl, rfl, rfl, rfl⟩ := hlaunched
      have hname := hnames "gdfs" (by simpa using hvalue)
      exact ⟨hname, hf, hg, hgs⟩
    | cofda F CS hF hCS =>
      rw [hlaunch] at hlaunched
      obtain ⟨rfl, rfl, rfl⟩ := hlaunched
      have hname := hnames "cofda" (by simpa using hvalue)
      exact ⟨hname, hf, hcs⟩
    | cofdaDecoupled F CS hF hCS =>
      rw [hlaunch] at hlaunched
      obtain ⟨rfl, rfl, rfl⟩ := hlaunched
      have hname := hnames "cofda_decoupled" (by simpa using hvalue)
      exact ⟨hname, hf, hcs⟩
  · intro hdisabled call heq
    subst heq
    have hzero : env'.get? "VLLM_USE_MMAEMU_GEMM_FP8" = some "0" := by
      rw [not_exported hdisabled hexport]
      exact Dict.get?_set_self _ _ _
    rw [fp8LinearOp_native platform hzero] at hop
    have hnative : ∀ settings, op ≠ .mmaEmu settings := by
      rintro settings rfl
      rw [fp8Native, Except.ok.injEq] at hop
      split_ifs at hop
    cases op with
    | mmaEmu settings => exact hnative settings rfl
    | rocm =>
      simp only [Fp8Backend.apply, Fp8Backend.apply.fallback] at happly
      split_ifs at happly <;> simp at happly
    | flashinfer =>
      simp only [Fp8Backend.apply] at happly
      split_ifs at happly <;> simp at happly
    | cutlass => simp [Fp8Backend.apply] at happly
    | torch =>
      simp only [Fp8Backend.apply, Fp8Backend.apply.fallback] at happly
      split_ifs at happly <;> simp at happly

/-- The settings of `exp1_table6_cross_arch/rtx_pro6000/emulate_hopper`. -/
def emulateHopper : Dict String EmuValue :=
  .ofPairs [("enabled", .bool true), ("algorithm", .param (.str "cofda")),
    ("f_bits", .param (.int 13)), ("chunk_size", .param (.int 32))]

def oneRow : Fp8Operands where
  qinput := matrix 1 64 64 1
  weight := matrix 64 32 1 64
  scaleA := 1
  scaleB := 1
  bias := none
  outDtype := .bfloat16

lemma thirteen_mem_cofdaF : 13 ∈ cofdaF := by decide

lemma tile_mem_fp8Cs : 32 ∈ fp8Cs := by decide

def hopperLaunch : Fp8Launch := .cofda 13 32 thirteen_mem_cofdaF tile_mem_fp8Cs

/-- What this run returns is the kernel of Hopper. -/
theorem runFp8_configured_emulateHopper : ∃ call,
    runFp8 rtxPro6000 Dict.empty emulateHopper oneRow = .ok (.mmaEmu call) ∧
      Fp8Configured Dict.empty emulateHopper call.launch := by
  have hrun : runFp8 rtxPro6000 Dict.empty emulateHopper oneRow =
      .ok (.mmaEmu ⟨hopperLaunch, 1, 32, 64⟩) := rfl
  obtain ⟨call, hkernel, hconfigured⟩ := (runFp8_configured hrun).1 rfl
  exact ⟨call, hkernel ▸ hrun, hconfigured⟩

/-- Operands that pass all checks which are not about the settings. -/
structure Fp8Operands.Accepted (x : Fp8Operands) : Prop where
  outDtype : x.outDtype = .bfloat16 ∨ x.outDtype = .half
  bias : ∀ b ∈ x.bias, b.1.numel = x.weight.size 1 ∧ b.2 = x.outDtype
  scaleA : x.scaleA = 1
  scaleB : x.scaleB = 1
  operands : MmaEmu.checkFp8Operands (emptyMatrix (x.qinput.size 0) (x.weight.size 1)) x.qinput
    x.weight = .ok ()
  biasVector : MmaEmu.checkFp8Bias x.weight (x.bias.map Prod.fst) = .ok ()

lemma designSpaceContains_natCast {set : List Nat} {n : Nat} (h : n ∈ set) :
    MmaEmu.designSpaceContains set n = true := by
  rw [MmaEmu.designSpaceContains, List.any_eq_true]
  exact ⟨n, h, by simp⟩

lemma checkFp8OutDtype_ok (hdtype : x.outDtype = .bfloat16 ∨ x.outDtype = .half) (path : String) :
    MmaEmu.checkFp8OutDtype path x.outDtype = .ok () := by
  rcases hdtype with h | h <;> rw [MmaEmu.checkFp8OutDtype, h] <;> rfl

/-- The entry point launches every kernel of the design space. -/
lemma mmaEmuScaledFp8Mm_of_launchedWith (hx : x.Accepted)
    {algorithm fBits gBits groupSize chunkSize : Int} {launch : Fp8Launch}
    (h : Fp8LaunchedWith algorithm fBits gBits groupSize chunkSize launch) :
    MmaEmu.mmaEmuScaledFp8Mm (emptyMatrix (x.qinput.size 0) (x.weight.size 1)) x.qinput x.weight
        x.outDtype (x.bias.map Prod.fst) algorithm fBits gBits groupSize chunkSize =
      .ok ⟨launch, x.qinput.size 0, x.weight.size 1, x.qinput.size 1⟩ := by
  have hparameters : MmaEmu.checkFp8Parameters algorithm fBits gBits groupSize chunkSize =
        .ok () ∧ MmaEmu.mmaEmuScaledFp8MmEmu x.outDtype algorithm fBits gBits groupSize chunkSize =
        .ok launch := by
    cases launch with
    | gdfs F G GS hF hG hGS =>
      obtain ⟨rfl, rfl, rfl, rfl⟩ := h
      constructor
      · simp [MmaEmu.checkFp8Parameters, MmaEmu.torchCheck, designSpaceContains_natCast hF,
          designSpaceContains_natCast hG, designSpaceContains_natCast hGS]
      · simp [MmaEmu.mmaEmuScaledFp8MmEmu, checkFp8OutDtype_ok hx.outDtype,
          MmaEmu.dispatchByGroupSizeFp8, selectCase_natCast hF, selectCase_natCast hG,
          selectCase_natCast hGS]
    | cofda F CS hF hCS =>
      obtain ⟨rfl, rfl, rfl⟩ := h
      constructor
      · simp [MmaEmu.checkFp8Parameters, MmaEmu.torchCheck, designSpaceContains_natCast hF,
          designSpaceContains_natCast hCS]
      · simp [MmaEmu.mmaEmuScaledFp8MmEmu, checkFp8OutDtype_ok hx.outDtype,
          MmaEmu.dispatchByChunkSizeFp8, selectCase_natCast hF, selectCase_natCast hCS]
    | cofdaDecoupled F CS hF hCS =>
      obtain ⟨rfl, rfl, rfl⟩ := h
      constructor
      · simp [MmaEmu.checkFp8Parameters, MmaEmu.torchCheck, designSpaceContains_natCast hF,
          designSpaceContains_natCast hCS]
      · simp [MmaEmu.mmaEmuScaledFp8MmEmu, checkFp8OutDtype_ok hx.outDtype,
          MmaEmu.dispatchByChunkSizeFp8CofdaDecoupled, selectCase_natCast hF,
          selectCase_natCast hCS]
  simp only [MmaEmu.mmaEmuScaledFp8Mm, hx.operands, hx.biasVector, hparameters.1, hparameters.2,
    ok_bind, pure_eq]

/-- The wrapper lets every point of the design space pass. -/
lemma validateFp8_of_launchedWith {algorithm : String} {value fBits gBits groupSize chunkSize : Int}
    {launch : Fp8Launch} (hvalue : fp8AlgorithmMap.get? algorithm = some value)
    (h : Fp8LaunchedWith value fBits gBits groupSize chunkSize launch) :
    validateFp8 algorithm fBits gBits groupSize chunkSize = .ok () := by
  rw [fp8AlgorithmMap_get] at hvalue
  cases launch with
  | gdfs F G GS hF hG hGS =>
    obtain ⟨rfl, rfl, rfl, rfl⟩ := h
    have hname : algorithm = "gdfs" := by simpa using hvalue
    have hf : 7 ≤ F ∧ F ≤ 35 := by
      have hall : ∀ F ∈ gdfsF, 7 ≤ F ∧ F ≤ 35 := by decide
      exact hall F hF
    have hg : (G : Int) ∈ [3, 4, 5, 6, 8, 10, 13, 17, 25, (32 : Int)] := by
      have hall : ∀ G ∈ fp8G, (G : Int) ∈ [3, 4, 5, 6, 8, 10, 13, 17, 25, (32 : Int)] := by decide
      exact hall G hG
    have hgs : (GS : Int) ∈ [8, (16 : Int)] := by
      have hall : ∀ GS ∈ fp8Gs, (GS : Int) ∈ [8, (16 : Int)] := by decide
      exact hall GS hGS
    rw [validateFp8, if_pos hname, require, if_pos (by omega), require, if_pos hg, require,
      if_pos hgs]
    rfl
  | cofda F CS hF hCS =>
    obtain ⟨rfl, rfl, rfl⟩ := h
    have hname : algorithm = "cofda" := by simpa using hvalue
    have hf : 3 ≤ F ∧ F ≤ 25 := by
      have hall : ∀ F ∈ cofdaF, 3 ≤ F ∧ F ≤ 25 := by decide
      exact hall F hF
    have hcs : (CS : Int) ∈ [4, 8, 16, (32 : Int)] := by
      have hall : ∀ CS ∈ fp8Cs, (CS : Int) ∈ [4, 8, 16, (32 : Int)] := by decide
      exact hall CS hCS
    subst hname
    rw [validateFp8, if_neg (by decide), if_pos rfl, require, if_pos (by omega), require,
      if_pos hcs]
    rfl
  | cofdaDecoupled F CS hF hCS =>
    obtain ⟨rfl, rfl, rfl⟩ := h
    have hname : algorithm = "cofda_decoupled" := by simpa using hvalue
    have hf : 3 ≤ F ∧ F ≤ 25 := by
      have hall : ∀ F ∈ cofdaF, 3 ≤ F ∧ F ≤ 25 := by decide
      exact hall F hF
    have hcs : (CS : Int) ∈ [8, 16, (32 : Int)] := by
      have hall : ∀ CS ∈ fp8Cs, (CS : Int) ∈ [8, 16, (32 : Int)] := by decide
      exact hall CS hCS
    subst hname
    rw [validateFp8, if_neg (by decide), if_neg (by decide), if_pos rfl, require,
      if_pos (by omega), require, if_pos hcs]
    rfl

/-- The settings that are read as integers can be read. -/
structure Fp8Readable (env : Environ) (emu : Dict String EmuValue) : Prop where
  fBits : ∃ i, fp8FBits env emu = .ok i
  gBits : ∃ i, fp8GBits env emu = .ok i
  groupSize : ∃ i, fp8GroupSize env emu = .ok i
  chunkSize : ∃ i, fp8ChunkSize env emu = .ok i

/-- Every kernel of the design space can be run: a config that asks for it launches it. -/
theorem runFp8_of_configured {launch : Fp8Launch} (henabled : emuEnabled emu = true)
    (hconfigured : Fp8Configured env emu launch) (hreadable : Fp8Readable env emu)
    (hcuda : platform.isCuda = true) (hcapability : 89 ≤ platform.capability)
    (hx : x.Accepted) :
    runFp8 platform env emu x =
      .ok (.mmaEmu ⟨launch, x.qinput.size 0, x.weight.size 1, x.qinput.size 1⟩) := by
  obtain ⟨fBits, hf⟩ := hreadable.fBits
  obtain ⟨gBits, hg⟩ := hreadable.gBits
  obtain ⟨groupSize, hgs⟩ := hreadable.groupSize
  obtain ⟨chunkSize, hcs⟩ := hreadable.chunkSize
  have hasked : ∃ algorithm value, emu.get? "algorithm" = some algorithm ∧
      fp8AlgorithmMap.get? (pyLower algorithm.text) = some value ∧
      Fp8LaunchedWith value fBits gBits groupSize chunkSize launch := by
    cases launch with
    | gdfs F G GS hF hG hGS =>
      obtain ⟨⟨algorithm, hnamed, hname⟩, hf', hg', hgs'⟩ := hconfigured
      refine ⟨algorithm, 1, hnamed, by rw [hname]; rfl, rfl, ?_, ?_, ?_⟩
      · exact Except.ok.inj (hf.symm.trans hf')
      · exact Except.ok.inj (hg.symm.trans hg')
      · exact Except.ok.inj (hgs.symm.trans hgs')
    | cofda F CS hF hCS =>
      obtain ⟨⟨algorithm, hnamed, hname⟩, hf', hcs'⟩ := hconfigured
      refine ⟨algorithm, 2, hnamed, by rw [hname]; rfl, rfl, ?_, ?_⟩
      · exact Except.ok.inj (hf.symm.trans hf')
      · exact Except.ok.inj (hcs.symm.trans hcs')
    | cofdaDecoupled F CS hF hCS =>
      obtain ⟨⟨algorithm, hnamed, hname⟩, hf', hcs'⟩ := hconfigured
      refine ⟨algorithm, 3, hnamed, by rw [hname]; rfl, rfl, ?_, ?_⟩
      · exact Except.ok.inj (hf.symm.trans hf')
      · exact Except.ok.inj (hcs.symm.trans hcs')
  obtain ⟨algorithm, value, hnamed, hvalue, hlaunched⟩ := hasked
  obtain ⟨env', hexport⟩ : ∃ env', exportMmaEmuToEnv .fp8 env emu = .ok env' := by
    rw [exportMmaEmuToEnv, if_neg (not_not.mpr henabled), hnamed]
    exact ⟨_, rfl⟩
  obtain ⟨-, hexported⟩ := exported henabled hexport
  have hop : fp8LinearOp platform env' =
      .ok (.mmaEmu ⟨algorithm.text, fBits, gBits, groupSize, chunkSize⟩) := by
    rw [fp8LinearOp_exported platform hexported, fp8Emulated, hf, hg, hgs, hcs, hnamed]
    simp only [ok_bind, require, if_pos (And.intro hcuda hcapability), pure_eq]
    rfl
  have hname : pyLower algorithm.text ≠ "" := by
    intro hempty
    rw [hempty, fp8AlgorithmMap_get] at hvalue
    simp at hvalue
  have hgemm : mmaEmuScaledFp8Mm env' x (some algorithm.text) (some fBits) (some gBits)
      (some groupSize) (some chunkSize) =
        .ok ⟨launch, x.qinput.size 0, x.weight.size 1, x.qinput.size 1⟩ := by
    rw [mmaEmuScaledFp8Mm, pyAssert, if_pos hx.outDtype, pyAssert, if_pos hx.bias, pyAssert,
      if_pos hx.scaleA, pyAssert, if_pos hx.scaleB]
    simp only [ok_bind, Option.getD_some, Option.elim_some, require, if_pos hname, hvalue,
      validateFp8_of_launchedWith hvalue hlaunched, mmaEmuScaledFp8Mm_of_launchedWith hx hlaunched]
    rfl
  simp only [runFp8, hexport, hop, ok_bind, Fp8Backend.apply, if_pos (And.intro hx.scaleB hx.scaleA),
    hgemm, pure_eq]

theorem runFp8_of_configured_emulateHopper :
    runFp8 rtxPro6000 Dict.empty emulateHopper oneRow = .ok (.mmaEmu ⟨hopperLaunch, 1, 32, 64⟩) := by
  have hf : fp8FBits Dict.empty emulateHopper = .ok 13 := settingInt_of_int rfl _ _ _
  have hcs : fp8ChunkSize Dict.empty emulateHopper = .ok 32 := settingInt_of_int rfl _ _ _
  have hg : fp8GBits Dict.empty emulateHopper = .ok 32 := by decide
  have hgs : fp8GroupSize Dict.empty emulateHopper = .ok 16 := by decide
  have hconfigured : Fp8Configured Dict.empty emulateHopper hopperLaunch :=
    ⟨⟨.param (.str "cofda"), rfl, by decide⟩, hf, hcs⟩
  have hx : oneRow.Accepted := ⟨Or.inl rfl, by simp [oneRow], rfl, rfl, by decide, rfl⟩
  exact runFp8_of_configured rfl hconfigured ⟨⟨_, hf⟩, ⟨_, hg⟩, ⟨_, hgs⟩, ⟨_, hcs⟩⟩ rfl (by decide)
    hx

end Fp8Runs

end Artifact
