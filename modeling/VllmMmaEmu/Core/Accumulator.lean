import VllmMmaEmu.Core.Fp32Utils
import VllmMmaEmu.Library.SignMagnitude

/-!
# The chunked accumulator

Pass 1 scans the operands for special values and the alignment exponent, pass 2
aligns and sums, and the sum is packed back into FP32. Operands that represent
labelled terms make the whole routine a fused sum in the sense of `FusedSum`.
-/

namespace MmaEmu

open FixedPoint Binary32 FusedSum

/-- Running state of pass 1. -/
structure Scan where
  anyNan : Bool
  anyInf : Bool
  posInfCount : ℕ
  negInfCount : ℕ
  maxExp : ℤ
  nonZeroCount : ℕ
  anyZero : Bool

/-- State of pass 1 after the check of the accumulator. -/
def Scan.ofAccumulator (c : Operand) : Scan where
  anyNan := false
  anyInf := c.isInf
  posInfCount := if c.isInf && 0 < c.sign then 1 else 0
  negInfCount := if c.isInf && !(0 < c.sign) then 1 else 0
  maxExp := if !c.isZero && !c.isNan && !c.isInf then c.exponent else -9999
  nonZeroCount := if !c.isZero && !c.isNan && !c.isInf then 1 else 0
  anyZero := c.isZero

/-- One operand of the pass 1 loop. -/
def Scan.add (s : Scan) (o : Operand) : Scan where
  anyNan := s.anyNan || o.isNan
  anyInf := s.anyInf || o.isInf
  posInfCount := if o.isInf && 0 < o.sign then s.posInfCount + 1 else s.posInfCount
  negInfCount := if o.isInf && !(0 < o.sign) then s.negInfCount + 1 else s.negInfCount
  maxExp := if !o.isZero && !o.isNan && !o.isInf then max s.maxExp o.exponent else s.maxExp
  nonZeroCount := if !o.isZero && !o.isNan && !o.isInf then s.nonZeroCount + 1 else s.nonZeroCount
  anyZero := s.anyZero || o.isZero

/-- Exits between the passes; `sum` is pass 2 at the final alignment exponent. -/
def Scan.finish (s : Scan) (eZero : ℤ) (sum : ℤ → Fp32) : Fp32 :=
  if s.anyNan then qnanBits
  else if s.anyInf then
    if 0 < s.posInfCount ∧ 0 < s.negInfCount then qnanBits
    else if 0 < s.posInfCount then posInfBits else negInfBits
  else if s.nonZeroCount = 0 then 0#32
  else sum (if s.anyZero then max s.maxExp eZero else s.maxExp)

def alignTo (maxExp : ℤ) (o : Operand) : ℤ :=
  let expDiff := maxExp - o.exponent
  if 64 ≤ expDiff then 0 else o.significand >>> expDiff.toNat

/-- The accumulator's share of the sum that pass 2 starts from. -/
def startSum (maxExp : ℤ) (c : Operand) : ℤ :=
  if !c.isZero && !c.isInf then 0 + c.sign * alignTo maxExp c else 0

/-- One operand of the pass 2 loop. -/
def addAligned (maxExp : ℤ) (sum : ℤ) (o : Operand) : ℤ :=
  if o.isZero || o.isNan || o.isInf then sum else sum + o.sign * alignTo maxExp o

def chunkedAccumulate (F : ℕ) (eZero : ℤ) (operands : List Operand) (c : Fp32) : Fp32 :=
  let cOperand := fp32ToOperand F c
  if cOperand.isNan then qnanBits
  else
    (operands.foldl Scan.add (Scan.ofAccumulator cOperand)).finish eZero fun maxExp =>
      fixedToFp32 F (operands.foldl (addAligned maxExp) (startSum maxExp cOperand)) maxExp

def fdaAccumulateChunk (F : ℕ) (eZero : ℤ) (products : List Product) (c : Fp32) : Fp32 :=
  chunkedAccumulate F eZero (products.map Product.toOperand) c

/-- The products are summed at `F` bits, then merged with `c` at `F2` bits. -/
def cofdaDecoupledAccumulateProducts (F F2 : ℕ) (products : List Product) (c : Fp32) : Fp32 :=
  let partialSum := chunkedAccumulate F (-133) (products.map Product.toOperand) 0#32
  chunkedAccumulate F2 (-133) [fp32ToOperand F2 partialSum] c

def gdfsAccumulateTile (F : ℕ) (groups : List Operand) (c : Fp32) : Fp32 :=
  chunkedAccumulate F (-139) groups c

/-- An operand holds the sign, the label and the truncated magnitude of an exact term. -/
def Represents (F : ℕ) (o : Operand) : Option Term → Prop
  | none => o.isZero = true ∧ o.isNan = false ∧ o.isInf = false
  | some t => o = ⟨signOf t.value, t.label, quanta (F - t.label) |t.value|, false, false, false⟩ ∧
      -9999 ≤ t.label ∧ quanta (F - t.label) |t.value| < 2 ^ 56

/-- The accumulator as a term of the sum. -/
def accTerm (c : Fp32) : Option Term :=
  if significand c = 0 then none else some ⟨value c, exponent c⟩

lemma represents_makeZeroOperand (F : ℕ) : Represents F makeZeroOperand none := ⟨rfl, rfl, rfl⟩

lemma represents_accTerm {F : ℕ} (hF : F ≤ 35) {c : Fp32} (hc : IsFinite c) :
    Represents F (fp32ToOperand F c) (accTerm c) := by
  unfold accTerm
  split
  · rename_i hz
    rw [fp32ToOperand_zero F hz]
    exact represents_makeZeroOperand F
  · rename_i hne
    refine ⟨?_, ?_, ?_⟩
    · rw [fp32ToOperand_finite F hc hne, abs_value]
    · have := exponent_ge c
      change -9999 ≤ exponent c
      omega
    · rw [abs_value, ← toRadix_significand]
      have hsig : (significand c : ℤ) < 2 ^ 24 := by exact_mod_cast significand_lt c
      exact lt_of_lt_of_le (toRadix_lt _ _ (by positivity) hsig)
        (pow_le_pow_right₀ (by norm_num) (by omega))

/-- The fields of a sign-magnitude number, cut to `F` fractional bits. -/
def operandOf (F : ℕ) (x : SignMagnitude) : Operand where
  sign := x.sign
  exponent := x.exponent
  significand := toRadix x.radix F x.significand
  isZero := false
  isNan := false
  isInf := false

lemma represents_operandOf {F n : ℕ} {x : SignMagnitude} (hlow : -9999 ≤ x.exponent)
    (hsig : x.significand < 2 ^ n) (hn : n + (F - x.radix) ≤ 56)
    (hsign : x.significand = 0 → x.sign = 1) :
    Represents F (operandOf F x) (some ⟨x.value, x.exponent⟩) := by
  refine ⟨?_, hlow, ?_⟩
  · rw [SignMagnitude.signOf_value hsign, SignMagnitude.quanta_abs_value, operandOf]
  · rw [SignMagnitude.quanta_abs_value]
    exact lt_of_lt_of_le (toRadix_lt _ _ (by positivity) (by exact_mod_cast hsig))
      (pow_le_pow_right₀ (by norm_num) hn)

lemma represents_term {F n : ℕ} {o : Operand} {x : SignMagnitude} (hlow : -9999 ≤ x.exponent)
    (hsig : x.significand < 2 ^ n) (hn : n + (F - x.radix) ≤ 56)
    (zero : x.significand = 0 → Represents F o none)
    (nonzero : x.significand ≠ 0 → o = operandOf F x) :
    Represents F o x.term := by
  by_cases hz : x.significand = 0
  · rw [SignMagnitude.term_of_significand_eq_zero hz]
    exact zero hz
  · rw [SignMagnitude.term_of_significand_ne_zero hz, nonzero hz]
    exact represents_operandOf hlow hsig hn (fun h => absurd h hz)

/-- What pass 1 knows after the terms `ts`. -/
structure Scanned (ts : List (Option Term)) (s : Scan) : Prop where
  noNan : s.anyNan = false
  noInf : s.anyInf = false
  zero_iff : s.anyZero = true ↔ none ∈ ts
  count_iff : s.nonZeroCount = 0 ↔ ∀ t ∈ ts, t = none
  initial : s.nonZeroCount = 0 → s.maxExp = -9999
  upper : ∀ t, some t ∈ ts → t.label ≤ s.maxExp
  attained : s.nonZeroCount ≠ 0 → ∃ t, some t ∈ ts ∧ t.label = s.maxExp

lemma scanned_ofAccumulator {F : ℕ} {o : Operand} {t : Option Term} (h : Represents F o t) :
    Scanned [t] (Scan.ofAccumulator o) := by
  cases t with
  | none =>
    obtain ⟨hz, hn, hi⟩ := h
    constructor <;> simp [Scan.ofAccumulator, hz, hn, hi]
  | some t =>
    obtain ⟨rfl, -, -⟩ := h
    constructor <;> simp [Scan.ofAccumulator]

/-- One operand of the loop extends the knowledge by its term. -/
lemma scanned_add {F : ℕ} {ts : List (Option Term)} {s : Scan} (hs : Scanned ts s)
    {o : Operand} {t : Option Term} (h : Represents F o t) : Scanned (ts ++ [t]) (s.add o) := by
  cases t with
  | none =>
    obtain ⟨hz, hn, hi⟩ := h
    constructor
    · simp [Scan.add, hs.noNan, hn]
    · simp [Scan.add, hs.noInf, hi]
    · simp [Scan.add, hz]
    · simpa [Scan.add, hz, or_imp, forall_and] using hs.count_iff
    · simpa [Scan.add, hz] using hs.initial
    · simpa [Scan.add, hz] using hs.upper
    · simpa [Scan.add, hz] using hs.attained
  | some t =>
    obtain ⟨rfl, hlow, -⟩ := h
    constructor
    · simp [Scan.add, hs.noNan]
    · simp [Scan.add, hs.noInf]
    · simpa [Scan.add] using hs.zero_iff
    · simp only [Scan.add]
      simp
    · simp [Scan.add]
    · intro u hu
      simp only [Scan.add]
      rcases List.mem_append.mp hu with hu | hu
      · exact le_trans (hs.upper u hu) (by simp)
      · have : u = t := by simpa using hu
        subst this
        simp
    · intro _
      by_cases hz : s.nonZeroCount = 0
      · refine ⟨t, by simp, ?_⟩
        simp [Scan.add, hs.initial hz, hlow]
      · obtain ⟨u, hu, hmax⟩ := hs.attained hz
        rcases le_total t.label s.maxExp with hle | hle
        · exact ⟨u, by simp [hu], by simp [Scan.add, hmax, hle]⟩
        · exact ⟨t, by simp, by simp [Scan.add, hle]⟩

lemma scanned_foldl {F : ℕ} {ops : List Operand} {ts : List (Option Term)}
    (h : List.Forall₂ (Represents F) ops ts) {pre : List (Option Term)} {s : Scan}
    (hs : Scanned pre s) : Scanned (pre ++ ts) (ops.foldl Scan.add s) := by
  induction h generalizing pre s with
  | nil => simpa using hs
  | cons ho _ ih => simpa using ih (scanned_add hs ho)

/-- Alignment of a represented term truncates its exact value once. -/
lemma sign_mul_alignTo {F : ℕ} {o : Operand} {t : Term} (h : Represents F o (some t)) {e : ℤ}
    (he : t.label ≤ e) : o.sign * alignTo e o = share (F - e) (some t) := by
  obtain ⟨rfl, -, hbound⟩ := h
  rw [share_some, signedQuanta, alignTo]
  dsimp only
  congr 1
  split
  · rename_i hbig
    exact (quanta_eq_zero_of_lt (abs_nonneg _) 64
      (lt_trans hbound (by norm_num)) (by push_cast; omega)).symm
  · rw [quanta_shiftRight]
    congr 1
    omega

lemma addAligned_eq {F : ℕ} {o : Operand} {t : Option Term} (h : Represents F o t) {e : ℤ}
    (he : ∀ u, t = some u → u.label ≤ e) (sum : ℤ) :
    addAligned e sum o = sum + share (F - e) t := by
  cases t with
  | none => simp [addAligned, h.1]
  | some t =>
    rw [← sign_mul_alignTo h (he t rfl)]
    obtain ⟨rfl, -, -⟩ := h
    simp [addAligned]

lemma startSum_eq {F : ℕ} {o : Operand} {t : Option Term} (h : Represents F o t) {e : ℤ}
    (he : ∀ u, t = some u → u.label ≤ e) : startSum e o = share (F - e) t := by
  cases t with
  | none => simp [startSum, h.1]
  | some t =>
    rw [← sign_mul_alignTo h (he t rfl)]
    obtain ⟨rfl, -, -⟩ := h
    simp [startSum]

lemma foldl_addAligned {F : ℕ} {e : ℤ} {ops : List Operand} {ts : List (Option Term)}
    (h : List.Forall₂ (Represents F) ops ts) (he : ∀ u, some u ∈ ts → u.label ≤ e) (sum : ℤ) :
    ops.foldl (addAligned e) sum = sum + total F e ts := by
  induction h generalizing sum with
  | nil => simp
  | @cons o t ops ts ho _ ih =>
    rw [List.foldl_cons, addAligned_eq ho (fun u hu => he u (by simp [hu])),
      ih (fun u hu => he u (List.mem_cons_of_mem _ hu)), total_cons, add_assoc]

lemma not_isNan_of_finite {c : Fp32} (hc : IsFinite c) : ¬ IsNan c := fun h => hc h.1

lemma chunkedAccumulate_of_isNan (F : ℕ) (eZero : ℤ) (ops : List Operand) {c : Fp32}
    (hc : IsNan c) : chunkedAccumulate F eZero ops c = qnanBits :=
  if_pos ((fp32ToOperand_isNan F c).mpr hc)

lemma chunkedAccumulate_of_not_isNan (F : ℕ) (eZero : ℤ) (ops : List Operand) {c : Fp32}
    (hc : ¬ IsNan c) :
    chunkedAccumulate F eZero ops c =
      (ops.foldl Scan.add (Scan.ofAccumulator (fp32ToOperand F c))).finish eZero fun maxExp =>
        fixedToFp32 F (ops.foldl (addAligned maxExp) (startSum maxExp (fp32ToOperand F c))) maxExp :=
  if_neg fun h => hc ((fp32ToOperand_isNan F c).mp h)

lemma Scanned.alignment_eq {ts : List (Option Term)} {s : Scan} (hs : Scanned ts s)
    (hcount : s.nonZeroCount ≠ 0) (eZero : ℤ) :
    (if s.anyZero = true then max s.maxExp eZero else s.maxExp) = maxLabel eZero ts := by
  symm
  obtain ⟨t, ht, hlabel⟩ := hs.attained hcount
  by_cases hz : none ∈ ts
  · rw [if_pos (hs.zero_iff.mpr hz)]
    apply maxLabel_eq
    · rcases le_total s.maxExp eZero with hle | hle
      · exact ⟨none, hz, by simp [hle]⟩
      · exact ⟨some t, ht, by simp [hlabel, hle]⟩
    · intro u hu
      cases u with
      | none => simp
      | some u => exact le_trans (hs.upper u hu) (le_max_left _ _)
  · rw [if_neg (fun hz' => hz (hs.zero_iff.mp hz'))]
    apply maxLabel_eq ⟨some t, ht, hlabel⟩
    intro u hu
    cases u with
    | none => exact absurd hu hz
    | some u => exact hs.upper u hu

/-- On operands that represent terms the accumulator is a fused sum of the terms and `c`. -/
theorem chunkedAccumulate_eq_fixedToFp32 {F : ℕ} (hF : F ≤ 35) (eZero : ℤ) {c : Fp32}
    (hc : IsFinite c) {ops : List Operand} {ts : List (Option Term)}
    (h : List.Forall₂ (Represents F) ops ts) :
    chunkedAccumulate F eZero ops c =
      fixedToFp32 F (total F (maxLabel eZero (accTerm c :: ts)) (accTerm c :: ts))
        (maxLabel eZero (accTerm c :: ts)) := by
  have hacc := represents_accTerm hF hc
  have hs : Scanned (accTerm c :: ts) (ops.foldl Scan.add (Scan.ofAccumulator (fp32ToOperand F c))) :=
    scanned_foldl h (scanned_ofAccumulator hacc)
  rw [chunkedAccumulate_of_not_isNan F eZero ops (not_isNan_of_finite hc), Scan.finish, hs.noNan,
    hs.noInf]
  simp only [Bool.false_eq_true, if_false]
  split
  · rename_i hcount
    rw [total_eq_zero_of_none (hs.count_iff.mp hcount)]
    simp [fixedToFp32]
  · rename_i hcount
    have hupper : ∀ u, some u ∈ accTerm c :: ts → u.label ≤ maxLabel eZero (accTerm c :: ts) :=
      fun u hu => (maxLabel_spec (List.cons_ne_nil _ _)).2 (some u) hu
    rw [hs.alignment_eq hcount, startSum_eq hacc (fun u hu => hupper u (by simp [hu])),
      foldl_addAligned h (fun u hu => hupper u (List.mem_cons_of_mem _ hu)), total_cons]

lemma Represents.natAbs_share_le {F : ℕ} {o : Operand} {t : Option Term} (h : Represents F o t)
    {e : ℤ} (he : ∀ u, t = some u → u.label ≤ e) : (share (F - e) t).natAbs ≤ 2 ^ 56 := by
  cases t with
  | none => simp
  | some t => exact FusedSum.natAbs_share_le (by exact_mod_cast h.2.2.le) (he t rfl)

lemma natAbs_total_represented {F : ℕ} {ops : List Operand} {ts : List (Option Term)}
    (h : List.Forall₂ (Represents F) ops ts) {e : ℤ} (he : ∀ u, some u ∈ ts → u.label ≤ e) :
    (total F e ts).natAbs ≤ ops.length * 2 ^ 56 := by
  rw [h.length_eq]
  apply natAbs_total_le
  intro t ht
  obtain ⟨i, hi, rfl⟩ := List.getElem_of_mem ht
  have hrep := h.get (h.length_eq ▸ hi) hi
  exact hrep.natAbs_share_le (fun u hu => he u (hu ▸ ht))

lemma label_le_maxLabel (eZero : ℤ) {t : Option Term} {ts : List (Option Term)} (u : Term)
    (hu : some u ∈ t :: ts) : u.label ≤ maxLabel eZero (t :: ts) :=
  (maxLabel_spec (List.cons_ne_nil _ _)).2 (some u) hu

/-- The FP32 result of a chunk is one truncation of the fused sum of its terms. -/
theorem decode_chunkedAccumulate {F : ℕ} (hF : F ≤ 35) (eZero : ℤ) {c : Fp32}
    (hc : IsFinite c) {ops : List Operand} {ts : List (Option Term)}
    (h : List.Forall₂ (Represents F) ops ts) (hlen : ops.length ≤ 64) :
    decode (chunkedAccumulate F eZero ops c) = chop F (fused F eZero (accTerm c :: ts)) := by
  have hall := List.Forall₂.cons (represents_accTerm hF hc) h
  have hsum := natAbs_total_represented hall (label_le_maxLabel eZero)
  rw [List.length_cons] at hsum
  rw [chunkedAccumulate_eq_fixedToFp32 hF eZero hc h, fused, decode_fixedToFp32]
  intro _
  left
  omega

lemma chunkedAccumulate_isFinite {F : ℕ} (hF : F ≤ 35) (eZero : ℤ) {c : Fp32} (hc : IsFinite c)
    {ops : List Operand} {ts : List (Option Term)} (h : List.Forall₂ (Represents F) ops ts)
    (hlen : ops.length ≤ 64) (hlabel : ∀ t ∈ accTerm c :: ts, labelOf eZero t ≤ 64) :
    IsFinite (chunkedAccumulate F eZero ops c) := by
  have hall := List.Forall₂.cons (represents_accTerm hF hc) h
  have hsum := natAbs_total_represented hall (label_le_maxLabel eZero)
  have hexp : maxLabel eZero (accTerm c :: ts) - F ≤ 64 := by
    obtain ⟨⟨t, ht, hmax⟩, -⟩ := @maxLabel_spec eZero _ (List.cons_ne_nil (accTerm c) ts)
    have := hlabel t ht
    omega
  have htotal : ((total F (maxLabel eZero (accTerm c :: ts)) (accTerm c :: ts)).natAbs : ℚ) < 2 ^ 63 := by
    rw [List.length_cons] at hsum
    exact_mod_cast lt_of_le_of_lt hsum (by omega)
  apply isFinite_of_decode_eq_chop (decode_chunkedAccumulate hF eZero hc h hlen)
  rw [fused, abs_scaled]
  calc _ < 2 ^ 63 * (2 : ℚ) ^ (maxLabel eZero (accTerm c :: ts) - F) :=
        mul_lt_mul_of_pos_right htotal (zpow_two_pos _)
    _ ≤ 2 ^ 63 * 2 ^ (64 : ℤ) :=
        mul_le_mul_of_nonneg_left (zpow_le_zpow_right₀ (by norm_num) hexp) (by norm_num)
    _ ≤ 2 ^ 128 := by norm_num

lemma foldl_add_anyNan (ops : List Operand) (s : Scan) :
    (ops.foldl Scan.add s).anyNan = (s.anyNan || ops.any Operand.isNan) := by
  induction ops generalizing s with
  | nil => simp
  | cons o ops ih => rw [List.foldl_cons, ih, List.any_cons, Scan.add, Bool.or_assoc]

lemma foldl_add_inf {ops : List Operand} (noInf : ∀ o ∈ ops, o.isInf = false) (s : Scan) :
    (ops.foldl Scan.add s).anyInf = s.anyInf ∧
      (ops.foldl Scan.add s).posInfCount = s.posInfCount ∧
      (ops.foldl Scan.add s).negInfCount = s.negInfCount := by
  induction ops generalizing s with
  | nil => simp
  | cons o ops ih =>
    have ho := noInf o List.mem_cons_self
    have htail := ih (fun u hu => noInf u (List.mem_cons_of_mem o hu)) (s.add o)
    simpa [Scan.add, ho] using htail

lemma isNan_qnanBits : IsNan qnanBits := by decide

lemma ofAccumulator_oneSided (c : Operand) :
    (Scan.ofAccumulator c).posInfCount = 0 ∨ (Scan.ofAccumulator c).negInfCount = 0 := by
  by_cases h : 0 < c.sign <;> simp [Scan.ofAccumulator, h]

lemma Scan.finish_isNan_iff {s : Scan} (oneSided : s.posInfCount = 0 ∨ s.negInfCount = 0)
    (eZero : ℤ) {sum : ℤ → Fp32} (hsum : ∀ e, ¬ IsNan (sum e)) :
    IsNan (s.finish eZero sum) ↔ s.anyNan = true := by
  unfold Scan.finish
  cases hnan : s.anyNan
  · simp only [Bool.false_eq_true, if_false, iff_false]
    split
    · rw [if_neg (by omega)]
      split <;> decide
    · split
      · decide
      · exact hsum _
  · simp [isNan_qnanBits]

/-- Without infinite operands a NaN can only come from a NaN: an infinite accumulator
never meets the opposite infinity. -/
theorem chunkedAccumulate_isNan_iff (F : ℕ) (eZero : ℤ) {ops : List Operand} (c : Fp32)
    (noInf : ∀ o ∈ ops, o.isInf = false) :
    IsNan (chunkedAccumulate F eZero ops c) ↔ IsNan c ∨ ∃ o ∈ ops, o.isNan = true := by
  by_cases hc : IsNan c
  · simp [chunkedAccumulate_of_isNan F eZero ops hc, isNan_qnanBits, hc]
  obtain ⟨-, hpos, hneg⟩ := foldl_add_inf noInf (Scan.ofAccumulator (fp32ToOperand F c))
  have hside := ofAccumulator_oneSided (fp32ToOperand F c)
  rw [chunkedAccumulate_of_not_isNan F eZero ops hc,
    Scan.finish_isNan_iff (by rwa [hpos, hneg]) eZero (fun e => fixedToFp32_not_nan F _ e),
    foldl_add_anyNan]
  simp [hc, Scan.ofAccumulator]

lemma chunkedAccumulate_map_isNan_iff (F : ℕ) (eZero : ℤ) {op : ℕ → Operand} (count : ℕ) (c : Fp32)
    (noInf : ∀ i, (op i).isInf = false) :
    IsNan (chunkedAccumulate F eZero ((List.range count).map op) c) ↔
      IsNan c ∨ ∃ i < count, (op i).isNan = true := by
  rw [chunkedAccumulate_isNan_iff]
  · simp only [List.mem_map, List.mem_range, exists_exists_and_eq_and]
  · intro o ho
    obtain ⟨i, -, rfl⟩ := List.mem_map.mp ho
    exact noInf i

lemma foldl_isNan_iff {step : Fp32 → ℕ → Fp32} {bad : ℕ → Prop}
    (hstep : ∀ acc j, IsNan (step acc j) ↔ IsNan acc ∨ bad j) (loop : List ℕ) (acc : Fp32) :
    IsNan (loop.foldl step acc) ↔ IsNan acc ∨ ∃ j ∈ loop, bad j := by
  induction loop generalizing acc with
  | nil => simp
  | cons j loop ih => rw [List.foldl_cons, ih, hstep, List.exists_mem_cons_iff, or_assoc]

lemma foldl_zero_isNan_iff {step : Fp32 → ℕ → Fp32} {bad : ℕ → Prop}
    (hstep : ∀ acc j, IsNan (step acc j) ↔ IsNan acc ∨ bad j) (loop : List ℕ) :
    IsNan (loop.foldl step 0#32) ↔ ∃ j ∈ loop, bad j := by
  have hzero : ¬ IsNan (0#32 : Fp32) := by decide
  rw [foldl_isNan_iff hstep, or_iff_right hzero]

lemma fdaAccumulateChunk_isNan_iff (F : ℕ) (eZero : ℤ) {products : List Product} (c : Fp32)
    (noInf : ∀ p ∈ products, p.isInf = false) :
    IsNan (fdaAccumulateChunk F eZero products c) ↔ IsNan c ∨ ∃ p ∈ products, p.isNan = true := by
  rw [fdaAccumulateChunk, chunkedAccumulate_isNan_iff]
  · simp [Product.toOperand]
  · intro o ho
    obtain ⟨p, hp, rfl⟩ := List.mem_map.mp ho
    exact noInf p hp

lemma cofdaDecoupledAccumulateProducts_isNan_iff (F F2 : ℕ) {products : List Product} (c : Fp32)
    (noInf : ∀ p ∈ products, p.isInf = false)
    (finite : (∀ p ∈ products, p.isNan = false) →
      IsFinite (fdaAccumulateChunk F (-133) products 0#32)) :
    IsNan (cofdaDecoupledAccumulateProducts F F2 products c) ↔
      IsNan c ∨ ∃ p ∈ products, p.isNan = true := by
  have hzero : ¬ IsNan (0#32 : Fp32) := by decide
  have hchunk := fdaAccumulateChunk_isNan_iff F (-133) 0#32 noInf
  rw [or_iff_right hzero] at hchunk
  rw [cofdaDecoupledAccumulateProducts, ← fdaAccumulateChunk, chunkedAccumulate_isNan_iff]
  · simp only [List.mem_singleton, exists_eq_left, fp32ToOperand_isNan, hchunk]
  · intro o ho
    rw [List.mem_singleton.mp ho]
    apply fp32ToOperand_isInf
    by_cases hnan : ∃ p ∈ products, p.isNan = true
    · exact Or.inr (hchunk.mpr hnan)
    · push Not at hnan
      exact Or.inl (finite (fun p hp => by simpa using hnan p hp))

/-- Accumulators a zero chunk leaves alone: what the accumulator itself returns. -/
def Stable (F : ℕ) (c : Fp32) : Prop :=
  c = qnanBits ∨ c = posInfBits ∨ c = negInfBits ∨
    (IsFinite c ∧ OnGrid F c ∧ (significand c = 0 → c = 0#32))

lemma stable_zero (F : ℕ) : Stable F 0#32 :=
  Or.inr (Or.inr (Or.inr ⟨by decide, ⟨0, by simp [magnitude, significand, expField, fracField]⟩,
    fun _ => rfl⟩))

lemma eq_zero_of_decode_chop {F : ℕ} {b : Fp32} {q : ℚ} (h : decode b = chop F q)
    (hb : IsFinite b) (hz : significand b = 0) : b = 0#32 := by
  rw [decode_of_finite hb, (magnitude_eq_zero_iff b).mpr hz] at h
  obtain ⟨he, hf⟩ := (significand_eq_zero_iff b).mp hz
  exact eq_of_fields (neg_eq_false_of_chop h.symm) he hf

lemma stable_fixedToFp32 (F : ℕ) (S e : ℤ) : Stable F (fixedToFp32 F S e) := by
  rcases decode_fixedToFp32_or_zero F S e with h | h
  · by_cases hfin : IsFinite (fixedToFp32 F S e)
    · exact Or.inr (Or.inr (Or.inr ⟨hfin, onGrid_fixedToFp32 F S e hfin,
        eq_zero_of_decode_chop h hfin⟩))
    · have hexp : expField (fixedToFp32 F S e) = 255 := not_not.mp hfin
      have hnan := fixedToFp32_not_nan F S e
      have hfrac : fracField (fixedToFp32 F S e) = 0 := by
        by_contra hne
        exact hnan ⟨hexp, hne⟩
      cases hneg : negative (fixedToFp32 F S e)
      · exact Or.inr (Or.inl (eq_of_fields hneg hexp hfrac))
      · exact Or.inr (Or.inr (Or.inl (eq_of_fields hneg hexp hfrac)))
  · rw [h]
    exact stable_zero F

lemma Scan.finish_stable {F : ℕ} (s : Scan) (eZero : ℤ) {sum : ℤ → Fp32}
    (hsum : ∀ e, Stable F (sum e)) : Stable F (s.finish eZero sum) := by
  unfold Scan.finish
  split
  · exact Or.inl rfl
  · split
    · split
      · exact Or.inl rfl
      · split
        · exact Or.inr (Or.inl rfl)
        · exact Or.inr (Or.inr (Or.inl rfl))
    · split
      · exact stable_zero F
      · exact hsum _

/-- Every value the accumulator returns is stable. -/
theorem chunkedAccumulate_stable (F : ℕ) (eZero : ℤ) (ops : List Operand) (c : Fp32) :
    Stable F (chunkedAccumulate F eZero ops c) := by
  by_cases hc : IsNan c
  · rw [chunkedAccumulate_of_isNan F eZero ops hc]
    exact Or.inl rfl
  · rw [chunkedAccumulate_of_not_isNan F eZero ops hc]
    exact Scan.finish_stable _ _ (fun e => stable_fixedToFp32 F _ e)

/-- Re-encoding an accumulator of the grid at `F` bits loses nothing. -/
lemma signedQuanta_value {F : ℕ} {c : Fp32} (grid : OnGrid F c) :
    (signedQuanta (F - exponent c) (value c) : ℚ) * 2 ^ (exponent c - F) = value c := by
  obtain ⟨n, hn⟩ := grid
  have hmag : (quanta (F - exponent c) (magnitude c) : ℚ) * 2 ^ (exponent c - F) = magnitude c := by
    have hexact : magnitude c = ((n * 2 ^ (F - min F 23) : ℤ) : ℚ) * 2 ^ (-(F - exponent c)) := by
      rw [hn]
      push_cast
      rw [mul_assoc, ← zpow_natCast, ← zpow_add₀ (by norm_num : (2 : ℚ) ≠ 0)]
      congr 2
      push_cast [Nat.cast_sub (min_le_left F 23)]
      ring
    conv_lhs => rw [hexact, quanta_intCast_mul]
    conv_rhs => rw [hexact]
    rw [neg_sub]
  rw [signedQuanta, abs_value, Int.cast_mul, mul_assoc, hmag, signOf]
  by_cases hneg : value c < 0
  · rw [if_pos hneg, ← abs_value, abs_of_neg hneg]
    push_cast
    ring
  · rw [if_neg hneg, ← abs_value, abs_of_nonneg (not_lt.mp hneg)]
    push_cast
    ring

/-- An infinite accumulator absorbs every operand that is neither infinite nor NaN. -/
lemma chunkedAccumulate_inf (F : ℕ) (eZero : ℤ) {ops : List Operand}
    (noInf : ∀ o ∈ ops, o.isInf = false) (noNan : ops.any Operand.isNan = false) (neg : Bool) :
    chunkedAccumulate F eZero ops (if neg then negInfBits else posInfBits) =
      if neg then negInfBits else posInfBits := by
  obtain ⟨hinf, hpos, hneg⟩ := foldl_add_inf noInf
    (Scan.ofAccumulator (fp32ToOperand F (if neg then negInfBits else posInfBits)))
  have hnan := foldl_add_anyNan ops
    (Scan.ofAccumulator (fp32ToOperand F (if neg then negInfBits else posInfBits)))
  have hc : ¬ IsNan (if neg then negInfBits else posInfBits) := by cases neg <;> decide
  rw [chunkedAccumulate_of_not_isNan F eZero ops hc, Scan.finish, hinf, hpos, hneg, hnan, noNan]
  cases neg
  · have hop : fp32ToOperand F posInfBits = ⟨1, 0, 0, false, false, true⟩ :=
      fp32ToOperand_special F (by decide)
    simp [hop, Scan.ofAccumulator]
  · have hop : fp32ToOperand F negInfBits = ⟨-1, 0, 0, false, false, true⟩ :=
      fp32ToOperand_special F (by decide)
    simp [hop, Scan.ofAccumulator]

lemma chunkedAccumulate_zeros_finite {F : ℕ} (hF : F ≤ 35) {eZero : ℤ} (hzero : eZero ≤ -126)
    {ops : List Operand} (hops : ∀ o ∈ ops, Represents F o none) {c : Fp32} (hfin : IsFinite c)
    (grid : OnGrid F c) (hz : significand c = 0 → c = 0#32) :
    chunkedAccumulate F eZero ops c = c := by
  have hrep : List.Forall₂ (Represents F) ops (List.replicate ops.length none) := by
    rw [List.forall₂_iff_get]
    exact ⟨by simp, fun i hi _ => by simpa using hops _ (List.getElem_mem hi)⟩
  have hnone : ∀ t ∈ List.replicate ops.length (none : Option Term), t = none :=
    fun t ht => List.eq_of_mem_replicate ht
  rw [chunkedAccumulate_eq_fixedToFp32 hF eZero hfin hrep, total_cons,
    total_eq_zero_of_none hnone, add_zero]
  by_cases hs : significand c = 0
  · have hacc : accTerm c = none := if_pos hs
    rw [hacc, share_none, fixedToFp32, if_pos rfl, hz hs]
  · have hacc : accTerm c = some ⟨value c, exponent c⟩ := if_neg hs
    have hmax : maxLabel eZero (accTerm c :: List.replicate ops.length none) = exponent c := by
      apply maxLabel_eq ⟨accTerm c, List.mem_cons_self, by simp [hacc]⟩
      intro t ht
      rcases List.mem_cons.mp ht with rfl | ht
      · simp [hacc]
      · rw [hnone t ht, labelOf_none]
        exact le_trans hzero (exponent_ge c)
    have hv : value c ≠ 0 := fun h => hs ((value_eq_zero_iff c).mp h)
    have hshare : (signedQuanta (F - exponent c) (value c)).natAbs ≤ 2 ^ 56 := by
      have h := (represents_accTerm hF hfin).natAbs_share_le (e := exponent c)
        (fun u hu => by rw [hacc] at hu; cases hu; rfl)
      rwa [hacc] at h
    have hdecode : decode (fixedToFp32 F (signedQuanta (F - exponent c) (value c)) (exponent c)) =
        decode c := by
      rw [decode_fixedToFp32 (fun _ => Or.inl (by omega)), signedQuanta_value grid,
        chop_value hfin grid hv]
    rw [hmax, hacc, share_some]
    exact decode_injective hdecode (by rw [hdecode, decode_of_finite hfin]; simp)

/-- A chunk of zero operands returns a stable accumulator unchanged. -/
theorem chunkedAccumulate_zeros {F : ℕ} (hF : F ≤ 35) {eZero : ℤ} (hzero : eZero ≤ -126)
    {ops : List Operand} (hops : ∀ o ∈ ops, Represents F o none) {c : Fp32} (hc : Stable F c) :
    chunkedAccumulate F eZero ops c = c := by
  have noInf : ∀ o ∈ ops, o.isInf = false := fun o ho => (hops o ho).2.2
  have noNan : ops.any Operand.isNan = false := by
    rw [List.any_eq_false]
    exact fun o ho => by simp [(hops o ho).2.1]
  rcases hc with rfl | rfl | rfl | ⟨hfin, grid, hz⟩
  · exact chunkedAccumulate_of_isNan F eZero ops isNan_qnanBits
  · exact chunkedAccumulate_inf F eZero noInf noNan false
  · exact chunkedAccumulate_inf F eZero noInf noNan true
  · exact chunkedAccumulate_zeros_finite hF hzero hops hfin grid hz

end MmaEmu
