import VllmMmaEmu.Core.GdfsGroup
import VllmMmaEmu.Library.Tracing
import VllmMmaEmu.Library.EventLog

/-!
# Words and shifts of the datapath

The functions of the accumulators once more, each recording the 64-bit words it
computes, the counts it shifts by and the differences it aligns by. Forgetting
the record gives the functions themselves back.
-/

namespace MmaEmu

open FixedPoint Tracing

namespace Datapath

inductive Event where
  /-- a value of a 64-bit variable or expression -/
  | word (v : ℤ)
  | shift (count : ℤ)
  /-- `max_exp - exponent` of a term that contributes -/
  | expDiff (d : ℤ)
  /-- the `max_exp` that an application of FP4 scales receives -/
  | scaleExp (maxExp : ℤ)
  deriving DecidableEq, Repr

def Event.Safe : Event → Prop
  | word v => |v| < 2 ^ 62
  | shift count => 0 ≤ count ∧ count ≤ 63
  | expDiff d => 0 ≤ d
  | scaleExp maxExp => 0 ≤ maxExp

abbrev Steps := Writer (List Event)

def Safe {α : Type} (x : Steps α) : Prop := All Event.Safe x

def word (v : ℤ) : Steps ℤ := do
  tell [.word v]
  return v

def shiftLeft (x count : ℤ) : Steps ℤ := do
  tell [.shift count]
  word (x <<< count.toNat)

def shiftRight (x count : ℤ) : Steps ℤ := do
  tell [.shift count]
  word (x >>> count.toNat)

/-- The shift by `SHIFT_AMOUNT`, to whichever side it is. -/
def toRadix (src dst : ℕ) (x : ℤ) : Steps ℤ :=
  if src ≤ dst then shiftLeft x (dst - src) else shiftRight x (src - dst)

def fp32ToOperand (F : ℕ) (val : Fp32) : Steps Operand :=
  if fp32IsZero val then return makeZeroOperand
  else do
    let sign : ℤ := if val &&& signMask != 0#32 then -1 else 1
    let absBits := val &&& absMask
    tell [.shift mantissaBits]
    let biasedExp := ((absBits >>> mantissaBits) &&& 0xFF#32).toNat
    let mantissa := (absBits &&& mantissaMask).toNat
    if biasedExp = maxBiasedExp then
      return ⟨sign, 0, 0, false, mantissa != 0, mantissa == 0⟩
    else if biasedExp = 0 then
      let fp32Sig ← word mantissa
      let significand ← toRadix mantissaBits F fp32Sig
      return ⟨sign, minNormalExp, significand, mantissa == 0, false, false⟩
    else
      let fp32Sig ← word (implicitBit + mantissa : ℕ)
      let significand ← toRadix mantissaBits F fp32Sig
      return ⟨sign, biasedExp - exponentBias, significand, false, false, false⟩

/-- The subnormal field before it is masked. -/
def subnormalWord (absMantissa shift : ℤ) : Steps ℤ :=
  if 64 ≤ shift then return 0
  else if 0 ≤ shift then shiftRight absMantissa shift
  else shiftLeft absMantissa (-shift)

/-- The normalised significand before it is masked. -/
def normalizedWord (absMantissa leadingOnePos : ℤ) : Steps ℤ :=
  if mantissaBits ≤ leadingOnePos then shiftRight absMantissa (leadingOnePos - mantissaBits)
  else shiftLeft absMantissa (mantissaBits - leadingOnePos)

def fixedToFp32 (F : ℕ) (mantissaSum maxExp : ℤ) : Steps Fp32 :=
  if mantissaSum = 0 then return 0#32
  else do
    let resultSign : BitVec 32 := if mantissaSum < 0 then signMask else 0#32
    let absMantissa := mantissaSum.natAbs
    tell [.word absMantissa]
    let leadingOnePos : ℤ := 63 - clzll absMantissa
    let finalExp := leadingOnePos + maxExp - F
    let biasedExp := finalExp + exponentBias
    tell [.shift (mantissaBits - min F mantissaBits : ℕ)]
    if biasedExp ≤ 0 then
      let shift := leadingOnePos - mantissaBits + (1 - biasedExp)
      let shifted ← subnormalWord absMantissa shift
      let subnormalMantissa : BitVec 32 := BitVec.ofNat 32 shifted.toNat &&& finalTruncMask F
      return if subnormalMantissa = 0#32 then 0#32 else resultSign ||| subnormalMantissa
    else if maxBiasedExp ≤ biasedExp then return resultSign ||| posInfBits
    else
      let shifted ← normalizedWord absMantissa leadingOnePos
      let normalizedMantissa : BitVec 32 := BitVec.ofNat 32 shifted.toNat &&& finalTruncMask F
      tell [.shift mantissaBits]
      return resultSign ||| (BitVec.ofInt 32 biasedExp <<< mantissaBits) ||| normalizedMantissa

def alignTo (maxExp : ℤ) (o : Operand) : Steps ℤ := do
  let expDiff := maxExp - o.exponent
  tell [.expDiff expDiff]
  if 64 ≤ expDiff then return 0 else shiftRight o.significand expDiff

/-- `mantissa_sum += sign * aligned`. -/
def addTerm (sum maxExp : ℤ) (o : Operand) : Steps ℤ := do
  let aligned ← alignTo maxExp o
  let term ← word (o.sign * aligned)
  word (sum + term)

def startSum (maxExp : ℤ) (c : Operand) : Steps ℤ :=
  if !c.isZero && !c.isInf then addTerm 0 maxExp c else return 0

def addAligned (maxExp : ℤ) (sum : ℤ) (o : Operand) : Steps ℤ :=
  if o.isZero || o.isNan || o.isInf then return sum else addTerm sum maxExp o

/-- Exits between the passes; `sum` is pass 2 at the final alignment exponent. -/
def finish (s : Scan) (eZero : ℤ) (sum : ℤ → Steps Fp32) : Steps Fp32 :=
  if s.anyNan then return qnanBits
  else if s.anyInf then
    return if 0 < s.posInfCount ∧ 0 < s.negInfCount then qnanBits
      else if 0 < s.posInfCount then posInfBits else negInfBits
  else if s.nonZeroCount = 0 then return 0#32
  else sum (if s.anyZero then max s.maxExp eZero else s.maxExp)

/-- The loops of `chunked_accumulate`, with operand `i` computed where a pass reads it. -/
def chunkedAccumulateStreamed (F : ℕ) (eZero : ℤ) (n : ℕ) (operand : ℕ → Steps Operand) (c : Fp32) :
    Steps Fp32 := do
  let cOperand ← fp32ToOperand F c
  if cOperand.isNan then return qnanBits
  else
    let scan ← (List.range n).foldlM (fun s i => do return s.add (← operand i))
      (Scan.ofAccumulator cOperand)
    finish scan eZero fun maxExp => do
      let start ← startSum maxExp cOperand
      let sum ← (List.range n).foldlM (fun sum i => do addAligned maxExp sum (← operand i)) start
      fixedToFp32 F sum maxExp

/-- The same loops over an array of operands. -/
def chunkedAccumulate (F : ℕ) (eZero : ℤ) (operands : List Operand) (c : Fp32) : Steps Fp32 :=
  chunkedAccumulateStreamed F eZero operands.length
    (fun i => return operands.getD i makeZeroOperand) c

def cofdaDecoupledAccumulateProducts (F F2 : ℕ) (products : List Product) (c : Fp32) :
    Steps Fp32 := do
  let partialSum ← chunkedAccumulate F (-133) (products.map Product.toOperand) 0#32
  let psOperand ← fp32ToOperand F2 partialSum
  chunkedAccumulate F2 (-133) [psOperand] c

/-- One product of pass 2 of a group. -/
def accumulate (gr : GroupResult) (p : Product) : Steps GroupResult :=
  if p.isZero then return gr
  else do
    let sum ← addTerm gr.mantissaSum gr.maxExp p.toOperand
    return { gr with mantissaSum := sum }

def groupAccumulateStreamed (n : ℕ) (product : ℕ → Steps Product) : Steps GroupResult := do
  let gr ← (List.range n).foldlM (fun gr i => do return gr.scan (← product i)) GroupResult.start
  if gr.allZero then return { gr with maxExp := 0 }
  else (List.range n).foldlM (fun gr i => do accumulate gr (← product i)) gr

@[simp] lemma result_word (v : ℤ) : result (word v) = v := rfl

@[simp] lemma result_shiftLeft (x count : ℤ) : result (shiftLeft x count) = x <<< count.toNat := rfl

@[simp] lemma result_shiftRight (x count : ℤ) : result (shiftRight x count) = x >>> count.toNat :=
  rfl

@[simp] lemma result_toRadix (src dst : ℕ) (x : ℤ) :
    result (toRadix src dst x) = FixedPoint.toRadix src dst x := by
  rw [toRadix, result_ite, FixedPoint.toRadix]
  split
  · rw [result_shiftLeft]
    congr 1
    omega
  · rw [result_shiftRight]
    congr 1
    omega

@[simp] lemma result_fp32ToOperand (F : ℕ) (val : Fp32) :
    result (fp32ToOperand F val) = MmaEmu.fp32ToOperand F val := by
  rw [fp32ToOperand, MmaEmu.fp32ToOperand, result_ite]
  simp only [result_bind, result_ite, result_pure, result_word, result_toRadix]

lemma ofNat_toNat_shiftRight (x : ℕ) (count : ℤ) :
    BitVec.ofNat 32 ((x : ℤ) >>> count.toNat).toNat = BitVec.ofNat 32 (x >>> count.toNat) := by
  rw [← Int.natCast_shiftRight, Int.toNat_natCast]

lemma ofNat_toNat_shiftLeft (x : ℕ) (count : ℤ) :
    BitVec.ofNat 32 ((x : ℤ) <<< count.toNat).toNat = BitVec.ofNat 32 (x <<< count.toNat) := by
  rw [← Int.natCast_shiftLeft, Int.toNat_natCast]

lemma ofNat_result_subnormalWord (x : ℕ) (shift : ℤ) :
    BitVec.ofNat 32 (result (subnormalWord x shift)).toNat =
      if 64 ≤ shift then 0#32
      else if 0 ≤ shift then BitVec.ofNat 32 (x >>> shift.toNat)
      else BitVec.ofNat 32 (x <<< (-shift).toNat) := by
  simp only [subnormalWord, result_ite, result_pure, result_shiftRight, result_shiftLeft,
    apply_ite Int.toNat, apply_ite (BitVec.ofNat 32), ofNat_toNat_shiftRight,
    ofNat_toNat_shiftLeft]
  rfl

lemma ofNat_result_normalizedWord (x : ℕ) (leadingOnePos : ℤ) :
    BitVec.ofNat 32 (result (normalizedWord x leadingOnePos)).toNat =
      if mantissaBits ≤ leadingOnePos then
        BitVec.ofNat 32 (x >>> (leadingOnePos - mantissaBits).toNat)
      else BitVec.ofNat 32 (x <<< (mantissaBits - leadingOnePos).toNat) := by
  simp only [normalizedWord, result_ite, result_shiftRight, result_shiftLeft,
    apply_ite Int.toNat, apply_ite (BitVec.ofNat 32), ofNat_toNat_shiftRight,
    ofNat_toNat_shiftLeft]

@[simp] lemma result_fixedToFp32 (F : ℕ) (mantissaSum maxExp : ℤ) :
    result (fixedToFp32 F mantissaSum maxExp) = MmaEmu.fixedToFp32 F mantissaSum maxExp := by
  simp only [fixedToFp32, MmaEmu.fixedToFp32, result_ite, result_bind, result_pure,
    ofNat_result_subnormalWord, ofNat_result_normalizedWord]

@[simp] lemma result_alignTo (maxExp : ℤ) (o : Operand) :
    result (alignTo maxExp o) = MmaEmu.alignTo maxExp o := by
  simp only [alignTo, MmaEmu.alignTo, result_bind, result_ite, result_pure, result_shiftRight]

@[simp] lemma result_addTerm (sum maxExp : ℤ) (o : Operand) :
    result (addTerm sum maxExp o) = sum + o.sign * MmaEmu.alignTo maxExp o := by
  simp only [addTerm, result_bind, result_word, result_alignTo]

@[simp] lemma result_startSum (maxExp : ℤ) (c : Operand) :
    result (startSum maxExp c) = MmaEmu.startSum maxExp c := by
  simp only [startSum, MmaEmu.startSum, result_ite, result_addTerm, result_pure]

@[simp] lemma result_addAligned (maxExp sum : ℤ) (o : Operand) :
    result (addAligned maxExp sum o) = MmaEmu.addAligned maxExp sum o := by
  simp only [addAligned, MmaEmu.addAligned, result_ite, result_addTerm, result_pure]

lemma result_finish (s : Scan) (eZero : ℤ) (sum : ℤ → Steps Fp32) :
    result (finish s eZero sum) = s.finish eZero fun maxExp => result (sum maxExp) := by
  simp only [finish, Scan.finish, result_ite, result_pure]

lemma result_chunkedAccumulateStreamed (F : ℕ) (eZero : ℤ) (n : ℕ) (operand : ℕ → Steps Operand)
    (c : Fp32) : result (chunkedAccumulateStreamed F eZero n operand c) =
      MmaEmu.chunkedAccumulate F eZero ((List.range n).map fun i => result (operand i)) c := by
  simp only [chunkedAccumulateStreamed, MmaEmu.chunkedAccumulate, result_bind, result_ite,
    result_pure, result_finish, result_foldlM, result_fp32ToOperand, result_startSum,
    result_addAligned, result_fixedToFp32, List.foldl_map]

@[simp] lemma result_chunkedAccumulate (F : ℕ) (eZero : ℤ) (operands : List Operand) (c : Fp32) :
    result (chunkedAccumulate F eZero operands c) =
      MmaEmu.chunkedAccumulate F eZero operands c := by
  have hread : (List.range operands.length).map (fun i => operands.getD i makeZeroOperand) =
      operands := by
    apply List.ext_getElem
    · simp
    · intro i _ hi
      rw [List.getElem_map, List.getElem_range, List.getD_eq_getElem _ _ hi]
  rw [chunkedAccumulate, result_chunkedAccumulateStreamed]
  simp only [result_pure, hread]

@[simp] lemma result_cofdaDecoupledAccumulateProducts (F F2 : ℕ) (products : List Product)
    (c : Fp32) : result (cofdaDecoupledAccumulateProducts F F2 products c) =
      MmaEmu.cofdaDecoupledAccumulateProducts F F2 products c := by
  simp only [cofdaDecoupledAccumulateProducts, MmaEmu.cofdaDecoupledAccumulateProducts, result_bind,
    result_chunkedAccumulate, result_fp32ToOperand]

@[simp] lemma result_accumulate (gr : GroupResult) (p : Product) :
    result (accumulate gr p) = gr.accumulate p := by
  simp only [accumulate, GroupResult.accumulate, result_ite, result_bind, result_pure,
    result_addTerm]
  rfl

@[simp] lemma result_groupAccumulateStreamed (n : ℕ) (product : ℕ → Steps Product) :
    result (groupAccumulateStreamed n product) =
      MmaEmu.groupAccumulateStreamed n fun i => result (product i) := by
  simp only [groupAccumulateStreamed, MmaEmu.groupAccumulateStreamed, result_bind, result_ite,
    result_pure, result_foldlM, result_accumulate]

end Datapath

end MmaEmu
