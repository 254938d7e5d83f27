import VllmMmaEmu.Gemm.ScaledFp4Mm
import VllmMmaEmu.Library.Python

/-!
# Torch entry points of the NVFP4 and MXFP4 GEMM

The two entry points make the same checks with their own block sizes,
alignments and texts. A call that passes them has a K of whole blocks.
-/

namespace MmaEmu

/-- `CHECK_TH_CUDA` and `CHECK_CONTIGUOUS` -/
def checkPlaced (x : TorchTensor) (m : String) : Except String Unit := do
  torchCheck x.isCuda (m ++ ": must be a CUDA tensor")
  torchCheck x.isContiguous (m ++ ": must be contiguous")

def checkInput (x : TorchTensor) (st : ScalarType) (stText m : String) : Except String Unit := do
  checkPlaced x m
  torchCheck (x.dtype == st) (m ++ ": Inconsistent tensor type, expected " ++ stText)

/-- What differs between the checks of the two formats. -/
structure Fp4Entry where
  blockSize : ℕ
  alignment : ℕ
  alignmentText : String
  sfDtype : ScalarType
  sfDtypeText : String
  sfMismatchText : String
  opName : String

def nvfp4Entry : Fp4Entry where
  blockSize := 16
  alignment := 32
  alignmentText := "32"
  sfDtype := .float8E4m3fn
  sfDtypeText := "SF_DTYPE"
  sfMismatchText := "A_sf and B_sf shapes cannot be multiplied ("
  opName := "scaled_nvfp4_mm"

def mxfp4Entry : Fp4Entry where
  blockSize := 32
  alignment := 64
  alignmentText := "64 for MXFP4"
  sfDtype := .byte
  sfDtypeText := "MXFP4_SF_DTYPE"
  sfMismatchText := "A_sf and B_sf K-dimension must match ("
  opName := "scaled_mxfp4_mm"

/-- `size(0)xsize(1)` -/
def shapeText (t : TorchTensor) : String := toString (t.size 0) ++ "x" ++ toString (t.size 1)

/-- MXFP4 has no global scale. -/
def checkAlpha : Option TorchTensor → Except String Unit
  | none => .ok ()
  | some alpha => checkInput alpha .float "at::ScalarType::Float" "alpha"

def checkFp4Types (entry : Fp4Entry) (D A B Asf Bsf : TorchTensor) (alpha : Option TorchTensor) :
    Except String Unit := do
  checkInput A .byte "FLOAT4_E2M1X2" "A"
  checkInput B .byte "FLOAT4_E2M1X2" "B"
  checkInput Asf entry.sfDtype entry.sfDtypeText "A_sf"
  checkInput Bsf entry.sfDtype entry.sfDtypeText "B_sf"
  checkAlpha alpha
  checkPlaced D "D"
  torchCheck (A.dim == 2) "A must be a 2D matrix"
  torchCheck (B.dim == 2) "B must be a 2D matrix"
  torchCheck (D.dim == 2) "D must be a 2D matrix"
  torchCheck (Asf.dim == 2) "A_sf must be a 2D matrix"
  torchCheck (Bsf.dim == 2) "B_sf must be a 2D matrix"

def checkFp4Shapes (entry : Fp4Entry) (D A B : TorchTensor) : Except String Unit := do
  let m := A.size 0
  let n := B.size 0
  let k := A.size 1 * 2
  torchCheck (A.size 1 == B.size 1)
    ("A and B shapes cannot be multiplied (" ++ shapeText A ++ " and " ++ shapeText B ++ ")")
  torchCheck (D.size 0 == m && D.size 1 == n)
    ("Output D must be [" ++ toString m ++ ", " ++ toString n ++ "], got [" ++ toString (D.size 0) ++
      ", " ++ toString (D.size 1) ++ "]")
  torchCheck (k % entry.alignment == 0)
    ("Expected K to be divisible by " ++ entry.alignmentText ++ ", but got A shape: (" ++
      shapeText A ++ "), K: " ++ toString k ++ ".")
  torchCheck (n % 32 == 0)
    ("Expected N to be divisible by 32, but got B shape: (" ++ shapeText B ++ ").")

def checkFp4Scales (entry : Fp4Entry) (A B Asf Bsf : TorchTensor) : Except String Unit := do
  let k := A.size 1 * 2
  let roundedM := roundUp (A.size 0) 128
  let roundedN := roundUp (B.size 0) 128
  let roundedK := roundUp (k / entry.blockSize) 4
  torchCheck (Asf.size 1 == Bsf.size 1)
    (entry.sfMismatchText ++ shapeText Asf ++ " and " ++ shapeText Bsf ++ ")")
  torchCheck (Asf.size 0 == roundedM && Asf.size 1 == roundedK)
    ("A_sf must be padded and swizzled to shape (" ++ toString roundedM ++ "x" ++ toString roundedK ++
      "), but got shape (" ++ shapeText Asf ++ ")")
  torchCheck (Bsf.size 0 == roundedN && Bsf.size 1 == roundedK)
    ("B_sf must be padded and swizzled to shape (" ++ toString roundedN ++ "x" ++ toString roundedK ++
      "), but got shape (" ++ shapeText Bsf ++ ")")

def checkFp4Algorithm (entry : Fp4Entry) (D : TorchTensor) (algorithm : ℤ) : Except String Unit := do
  torchCheck (D.dtype == .bfloat16 || D.dtype == .half)
    ("Unsupported output dtype for MMA-Emu " ++ entry.opName ++ " (" ++ D.dtype.name ++
      "). Expected BFloat16 or Half.")
  torchCheck (algorithm == 1 || algorithm == 2)
    ("MMA-Emu " ++ entry.opName ++ ": algorithm must be 1 (GDFS) or 2 (CoFDA), got " ++
      toString algorithm)

def checkNvfp4Parameters (algorithm fBits gBits : ℤ) : Except String Unit := do
  if algorithm = 1 then
    torchCheck (designSpaceContains gdfsF fBits)
      ("NVFP4 GDFS: f_bits must be one of \x7b7, 9, 10, 11, 13, 15, 25, 35\x7d, got " ++
        toString fBits)
    torchCheck (designSpaceContains fp4G gBits)
      ("NVFP4 GDFS: g_bits must be one of \x7b3, 4, 5, 6\x7d, got " ++ toString gBits)
  else
    torchCheck (designSpaceContains cofdaF fBits)
      ("NVFP4 CoFDA: f_bits must be one of \x7b3, 5, 7, 9, 10, 11, 12, 13, 17, 21, 25\x7d, got " ++
        toString fBits)

def checkMxfp4Parameters (algorithm fBits gBits groupSize chunkSize : ℤ) : Except String Unit := do
  if algorithm = 1 then
    torchCheck (designSpaceContains gdfsF fBits)
      ("MXFP4 GDFS: f_bits must be one of \x7b7, 9, 10, 11, 13, 15, 25, 35\x7d, got " ++
        toString fBits)
    torchCheck (designSpaceContains fp4G gBits)
      ("MXFP4 GDFS: g_bits must be one of \x7b3, 4, 5, 6\x7d, got " ++ toString gBits)
    torchCheck (designSpaceContains mxfp4Gs groupSize)
      ("MXFP4 GDFS: group_size must be 16 or 32, got " ++ toString groupSize)
  else
    torchCheck (designSpaceContains cofdaF fBits)
      ("MXFP4 CoFDA: f_bits must be one of \x7b3, 5, 7, 9, 10, 11, 12, 13, 17, 21, 25\x7d, got " ++
        toString fBits)
    torchCheck (designSpaceContains mxfp4Cs chunkSize)
      ("MXFP4 CoFDA: chunk_size must be 16 or 32, got " ++ toString chunkSize)

/-- Sizes as the host wrappers pass them to the kernel they launch. -/
structure Fp4Call where
  launch : Fp4Launch
  M : ℕ
  N : ℕ
  K : ℕ

def mmaEmuScaledNvfp4Mm (D A B Asf Bsf alpha : TorchTensor) (algorithm fBits gBits : ℤ) :
    Except String Fp4Call := do
  checkFp4Types nvfp4Entry D A B Asf Bsf (some alpha)
  checkFp4Shapes nvfp4Entry D A B
  checkFp4Scales nvfp4Entry A B Asf Bsf
  checkFp4Algorithm nvfp4Entry D algorithm
  checkNvfp4Parameters algorithm fBits gBits
  let launch ← mmaEmuScaledNvfp4MmEmu D.dtype algorithm fBits gBits
  return ⟨launch, A.size 0, B.size 0, A.size 1 * 2⟩

def mmaEmuScaledMxfp4Mm (D A B Asf Bsf : TorchTensor)
    (algorithm fBits gBits groupSize chunkSize : ℤ) : Except String Fp4Call := do
  checkFp4Types mxfp4Entry D A B Asf Bsf none
  checkFp4Shapes mxfp4Entry D A B
  checkFp4Scales mxfp4Entry A B Asf Bsf
  checkFp4Algorithm mxfp4Entry D algorithm
  checkMxfp4Parameters algorithm fBits gBits groupSize chunkSize
  let launch ← mmaEmuScaledMxfp4MmEmu D.dtype algorithm fBits gBits groupSize chunkSize
  return ⟨launch, A.size 0, B.size 0, A.size 1 * 2⟩

lemma checkFp4Shapes_aligned {entry : Fp4Entry} {D A B : TorchTensor} {u : Unit}
    (h : checkFp4Shapes entry D A B = .ok u) : A.size 1 * 2 % entry.alignment = 0 := by
  obtain ⟨_, _, h⟩ := Python.bind_eq_ok.mp h
  obtain ⟨_, _, h⟩ := Python.bind_eq_ok.mp h
  obtain ⟨_, hk, _⟩ := Python.bind_eq_ok.mp h
  exact beq_iff_eq.mp (of_torchCheck hk)

lemma alignment_nvfp4 {outDtype : ScalarType} {algorithm fBits gBits : ℤ} {launch : Fp4Launch}
    (h : mmaEmuScaledNvfp4MmEmu outDtype algorithm fBits gBits = .ok launch) :
    launch.alignment = 32 := by
  unfold mmaEmuScaledNvfp4MmEmu at h
  split at h
  · obtain ⟨_, _, h⟩ := Python.bind_eq_ok.mp h
    obtain ⟨_, _, h⟩ := Python.bind_eq_ok.mp h
    cases h
    rfl
  · obtain ⟨_, _, h⟩ := Python.bind_eq_ok.mp h
    obtain ⟨_, _, h⟩ := Python.bind_eq_ok.mp h
    obtain ⟨_, _, h⟩ := Python.bind_eq_ok.mp h
    cases h
    rfl

lemma alignment_mxfp4 {outDtype : ScalarType} {algorithm fBits gBits groupSize chunkSize : ℤ}
    {launch : Fp4Launch}
    (h : mmaEmuScaledMxfp4MmEmu outDtype algorithm fBits gBits groupSize chunkSize = .ok launch) :
    launch.alignment = 64 := by
  unfold mmaEmuScaledMxfp4MmEmu at h
  split at h
  · obtain ⟨_, _, h⟩ := Python.bind_eq_ok.mp h
    obtain ⟨_, _, h⟩ := Python.bind_eq_ok.mp h
    obtain ⟨_, _, h⟩ := Python.bind_eq_ok.mp h
    cases h
    rfl
  · obtain ⟨_, _, h⟩ := Python.bind_eq_ok.mp h
    obtain ⟨_, _, h⟩ := Python.bind_eq_ok.mp h
    obtain ⟨_, _, h⟩ := Python.bind_eq_ok.mp h
    obtain ⟨_, _, h⟩ := Python.bind_eq_ok.mp h
    cases h
    rfl

/-- An accepted NVFP4 call has the K that its kernel needs. -/
theorem nvfp4_call_aligned {D A B Asf Bsf alpha : TorchTensor} {algorithm fBits gBits : ℤ}
    {call : Fp4Call}
    (h : mmaEmuScaledNvfp4Mm D A B Asf Bsf alpha algorithm fBits gBits = .ok call) :
    call.K % call.launch.alignment = 0 := by
  obtain ⟨_, _, h⟩ := Python.bind_eq_ok.mp h
  obtain ⟨_, hshapes, h⟩ := Python.bind_eq_ok.mp h
  obtain ⟨_, _, h⟩ := Python.bind_eq_ok.mp h
  obtain ⟨_, _, h⟩ := Python.bind_eq_ok.mp h
  obtain ⟨_, _, h⟩ := Python.bind_eq_ok.mp h
  obtain ⟨launch, hlaunch, h⟩ := Python.bind_eq_ok.mp h
  cases h
  rw [alignment_nvfp4 hlaunch]
  exact checkFp4Shapes_aligned hshapes

/-- An accepted MXFP4 call has the K that its kernel needs. -/
theorem mxfp4_call_aligned {D A B Asf Bsf : TorchTensor}
    {algorithm fBits gBits groupSize chunkSize : ℤ} {call : Fp4Call}
    (h : mmaEmuScaledMxfp4Mm D A B Asf Bsf algorithm fBits gBits groupSize chunkSize = .ok call) :
    call.K % call.launch.alignment = 0 := by
  obtain ⟨_, _, h⟩ := Python.bind_eq_ok.mp h
  obtain ⟨_, hshapes, h⟩ := Python.bind_eq_ok.mp h
  obtain ⟨_, _, h⟩ := Python.bind_eq_ok.mp h
  obtain ⟨_, _, h⟩ := Python.bind_eq_ok.mp h
  obtain ⟨_, _, h⟩ := Python.bind_eq_ok.mp h
  obtain ⟨launch, hlaunch, h⟩ := Python.bind_eq_ok.mp h
  cases h
  rw [alignment_mxfp4 hlaunch]
  exact checkFp4Shapes_aligned hshapes

end MmaEmu
