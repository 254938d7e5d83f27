import VllmMmaEmu.Core.Datapath

/-!
# The accumulators stay in range

Pass 1 takes its maximum over exactly the terms that pass 2 aligns, so every
difference is a count to the right; a bound on the significands then bounds
every prefix of the sum.
-/

namespace MmaEmu

open FixedPoint Tracing Binary32

namespace Datapath

lemma safe_word {v : ℤ} : Safe (word v) ↔ |v| < 2 ^ 62 := by
  simp [Safe, word, Event.Safe]

lemma safe_tell_shift {count : ℤ} :
    Safe (tell [Event.shift count] : Steps PUnit) ↔ 0 ≤ count ∧ count ≤ 63 := by
  simp [Safe, Event.Safe]

lemma safe_bind {α β : Type} {x : Steps α} {f : α → Steps β} :
    Safe (x >>= f) ↔ Safe x ∧ Safe (f (result x)) := all_bind x f

lemma safe_pure {α : Type} (a : α) : Safe (pure a : Steps α) := all_pure a

lemma safe_shiftLeft {x count : ℤ} :
    Safe (shiftLeft x count) ↔ (0 ≤ count ∧ count ≤ 63) ∧ |x <<< count.toNat| < 2 ^ 62 :=
  safe_bind.trans (and_congr safe_tell_shift safe_word)

lemma safe_shiftRight {x count : ℤ} :
    Safe (shiftRight x count) ↔ (0 ≤ count ∧ count ≤ 63) ∧ |x >>> count.toNat| < 2 ^ 62 :=
  safe_bind.trans (and_congr safe_tell_shift safe_word)

lemma shiftRight_mem {x : ℤ} (hx : 0 ≤ x) (n : ℕ) : 0 ≤ x >>> n ∧ x >>> n ≤ x := by
  rw [Int.shiftRight_eq_div_pow]
  exact ⟨Int.ediv_nonneg hx (by positivity), Int.ediv_le_self _ hx⟩

lemma safe_shiftRight_of_lt {x count : ℤ} (hx : 0 ≤ x) (hlt : x < 2 ^ 62) (hlow : 0 ≤ count)
    (hhigh : count ≤ 63) : Safe (shiftRight x count) := by
  obtain ⟨hnonneg, hle⟩ := shiftRight_mem hx count.toNat
  rw [safe_shiftRight, abs_of_nonneg hnonneg]
  exact ⟨⟨hlow, hhigh⟩, lt_of_le_of_lt hle hlt⟩

lemma safe_shiftLeft_of_lt {x : ℤ} {n k : ℕ} (hx : 0 ≤ x) (hlt : x < 2 ^ n) (hk : n + k ≤ 62) :
    Safe (shiftLeft x k) := by
  have hword : x <<< k < 2 ^ 62 := by
    rw [Int.shiftLeft_eq]
    calc x * 2 ^ k < 2 ^ n * 2 ^ k := mul_lt_mul_of_pos_right hlt (by positivity)
      _ = 2 ^ (n + k) := (pow_add 2 n k).symm
      _ ≤ 2 ^ 62 := pow_le_pow_right₀ (by norm_num) hk
  have hnonneg : 0 ≤ x <<< k := by
    rw [Int.shiftLeft_eq]
    positivity
  rw [safe_shiftLeft, Int.toNat_natCast, abs_of_nonneg hnonneg]
  exact ⟨⟨by omega, by omega⟩, hword⟩

lemma safe_toRadix {src dst n : ℕ} {x : ℤ} (hx : 0 ≤ x) (hlt : x < 2 ^ n) (hn : n ≤ 62)
    (hright : src ≤ dst + 63) (hleft : n + dst ≤ 62 + src) : Safe (toRadix src dst x) := by
  rw [toRadix]
  split
  · rename_i hle
    have hcount : (dst - src : ℤ) = (dst - src : ℕ) := by omega
    rw [hcount]
    exact safe_shiftLeft_of_lt hx hlt (by omega)
  · refine safe_shiftRight_of_lt hx ?_ (by omega) (by omega)
    exact lt_of_lt_of_le hlt (pow_le_pow_right₀ (by norm_num) hn)

lemma toRadix_nonneg (src dst : ℕ) {x : ℤ} (hx : 0 ≤ x) : 0 ≤ FixedPoint.toRadix src dst x := by
  rw [FixedPoint.toRadix]
  split
  · rw [Int.shiftLeft_eq]
    positivity
  · exact (shiftRight_mem hx _).1

lemma abs_eq_ite (x : ℤ) : (if x < 0 then -x else x) = |x| := by
  split
  · exact (abs_of_neg ‹_›).symm
  · exact (abs_of_nonneg (not_lt.mp ‹_›)).symm

lemma safe_fp32ToOperand {F : ℕ} (hF : F ≤ 35) (val : Fp32) : Safe (fp32ToOperand F val) := by
  have hfrac : (val &&& absMask &&& mantissaMask).toNat < 2 ^ 23 := by
    rw [toNat_and_mantissaMask]
    exact fracField_lt val
  have hradix : ∀ m : ℕ, m < 2 ^ 24 → Safe (word m) ∧ Safe (toRadix mantissaBits F m) := by
    intro m hm
    have hm' : (m : ℤ) < 2 ^ 24 := by exact_mod_cast hm
    refine ⟨safe_word.mpr ?_, safe_toRadix (by positivity) hm' (by norm_num) ?_ ?_⟩
    · rw [abs_of_nonneg (by positivity)]
      exact lt_trans hm' (by norm_num)
    · rw [mantissaBits]
      omega
    · rw [mantissaBits]
      omega
  rw [fp32ToOperand]
  split
  · exact safe_pure _
  · refine safe_bind.mpr ⟨safe_tell_shift.mpr (by decide), ?_⟩
    dsimp only
    split
    · exact safe_pure _
    · split
      · obtain ⟨hword, hshift⟩ := hradix _ (lt_trans hfrac (by norm_num))
        exact safe_bind.mpr ⟨hword, safe_bind.mpr ⟨hshift, safe_pure _⟩⟩
      · obtain ⟨hword, hshift⟩ := hradix (implicitBit + (val &&& absMask &&& mantissaMask).toNat)
          (by rw [implicitBit]; omega)
        exact safe_bind.mpr ⟨hword, safe_bind.mpr ⟨hshift, safe_pure _⟩⟩

/-- A non-zero word whose leading one is at bit `l`. -/
structure Leading (x l : ℕ) : Prop where
  lt : x < 2 ^ (l + 1)
  le : l ≤ 61

lemma Leading.word_lt {x l : ℕ} (h : Leading x l) : (x : ℤ) < 2 ^ 62 := by
  have hpow : 2 ^ (l + 1) ≤ 2 ^ 62 := Nat.pow_le_pow_right (by norm_num) (by have := h.le; omega)
  exact_mod_cast lt_of_lt_of_le h.lt hpow

lemma leading_log2 {x : ℕ} (hx : x ≠ 0) (hlt : x < 2 ^ 62) : Leading x x.log2 :=
  ⟨(Nat.log2_lt hx).mp (Nat.lt_succ_self _), Nat.lt_succ_iff.mp ((Nat.log2_lt hx).mpr hlt)⟩

lemma safe_shiftLeft_leading {x l k : ℕ} (h : Leading x l) (hk : l + k ≤ 61) :
    Safe (shiftLeft x k) :=
  safe_shiftLeft_of_lt (n := l + 1) (by positivity) (by exact_mod_cast h.lt) (by omega)

lemma safe_normalizedWord {x l : ℕ} (h : Leading x l) : Safe (normalizedWord x l) := by
  have hl := h.le
  rw [normalizedWord, mantissaBits]
  split
  · exact safe_shiftRight_of_lt (by positivity) h.word_lt (by omega) (by omega)
  · have hcount : ((23 : ℕ) - l : ℤ) = (23 - l : ℕ) := by omega
    rw [hcount]
    exact safe_shiftLeft_leading h (by omega)

/-- Below the normal range the shift to the left stops at the 23 bits of the field. -/
lemma safe_subnormalWord {x l : ℕ} (h : Leading x l) {shift : ℤ} (hshift : (l : ℤ) - 22 ≤ shift) :
    Safe (subnormalWord x shift) := by
  rw [subnormalWord]
  split
  · exact safe_pure _
  · split
    · exact safe_shiftRight_of_lt (by positivity) h.word_lt ‹_› (by omega)
    · obtain ⟨k, hk⟩ : ∃ k : ℕ, -shift = k := ⟨(-shift).toNat, by omega⟩
      rw [hk]
      exact safe_shiftLeft_leading h (by omega)

lemma safe_fixedToFp32 (F : ℕ) {mantissaSum : ℤ} (hsum : |mantissaSum| < 2 ^ 62) (maxExp : ℤ) :
    Safe (fixedToFp32 F mantissaSum maxExp) := by
  rw [fixedToFp32]
  split
  · exact safe_pure _
  rename_i hne
  have ha : mantissaSum.natAbs ≠ 0 := Int.natAbs_ne_zero.mpr hne
  have habs : |(mantissaSum.natAbs : ℤ)| < 2 ^ 62 := by rwa [Int.natCast_natAbs, abs_abs]
  have hnat : mantissaSum.natAbs < 2 ^ 62 := by
    zify
    exact hsum
  have hlead := leading_log2 ha hnat
  have htell : Safe (tell [Event.word mantissaSum.natAbs] : Steps PUnit) := by
    simpa [Safe, Event.Safe] using habs
  simp only [leadingOnePos_eq ha]
  refine safe_bind.mpr ⟨htell, safe_bind.mpr ⟨safe_tell_shift.mpr ?_, ?_⟩⟩
  · rw [mantissaBits]
    omega
  split
  · rename_i hlow
    refine safe_bind.mpr ⟨safe_subnormalWord hlead ?_, safe_pure _⟩
    rw [mantissaBits]
    omega
  · split
    · exact safe_pure _
    · refine safe_bind.mpr ⟨safe_normalizedWord hlead, ?_⟩
      exact safe_bind.mpr ⟨safe_tell_shift.mpr (by decide), safe_pure _⟩

lemma mul_sign {s t : ℤ} (hs : s = 1 ∨ s = -1) (ht : t = 1 ∨ t = -1) : s * t = 1 ∨ s * t = -1 := by
  rcases hs with rfl | rfl <;> rcases ht with rfl | rfl <;> decide

/-- Terms that pass 2 adds. -/
def Contributes (o : Operand) : Prop := o.isZero = false ∧ o.isNan = false ∧ o.isInf = false

/-- A sign-magnitude operand with a bound on its significand. -/
structure Fits (bound : ℤ) (o : Operand) : Prop where
  sign : o.sign = 1 ∨ o.sign = -1
  nonneg : 0 ≤ o.significand
  le : o.significand ≤ bound

lemma Fits.mono {small large : ℤ} {o : Operand} (h : Fits small o) (hle : small ≤ large) :
    Fits large o :=
  ⟨h.sign, h.nonneg, h.le.trans hle⟩

lemma fits_of_represents {F : ℕ} {o : Operand} {t : Option FusedSum.Term} (h : Represents F o t)
    (ho : o.isZero = false) : Fits (2 ^ 56) o := by
  cases t with
  | none => exact absurd h.1 (by rw [ho]; decide)
  | some t =>
    obtain ⟨rfl, -, hlt⟩ := h
    refine ⟨?_, quanta_nonneg (abs_nonneg _), hlt.le⟩
    simp only [signOf]
    split
    · exact Or.inr rfl
    · exact Or.inl rfl

lemma fits_fp32ToOperand {F : ℕ} (hF : F ≤ 35) {c : Fp32}
    (h : Contributes (MmaEmu.fp32ToOperand F c)) : Fits (2 ^ 56) (MmaEmu.fp32ToOperand F c) := by
  by_cases hc : IsFinite c
  · exact fits_of_represents (represents_accTerm hF hc) h.1
  · obtain ⟨-, hnan, hinf⟩ := h
    rw [fp32ToOperand_special F (not_not.mp hc)] at hnan hinf
    simp only [bne_eq_false_iff_eq] at hnan
    simp [hnan] at hinf

section
variable {bound : ℤ} {o : Operand} (h : Fits bound o)
include h

lemma Fits.alignTo_mem (e : ℤ) :
    0 ≤ MmaEmu.alignTo e o ∧ MmaEmu.alignTo e o ≤ bound := by
  have hle := h.nonneg.trans h.le
  simp only [MmaEmu.alignTo]
  split
  · exact ⟨le_rfl, hle⟩
  · obtain ⟨hlow, hhigh⟩ := shiftRight_mem h.nonneg (e - o.exponent).toNat
    exact ⟨hlow, hhigh.trans h.le⟩

lemma Fits.abs_term_le (e : ℤ) : |o.sign * MmaEmu.alignTo e o| ≤ bound := by
  obtain ⟨hlow, hhigh⟩ := h.alignTo_mem e
  rcases h.sign with hs | hs
  · rwa [hs, one_mul, abs_of_nonneg hlow]
  · rwa [hs, neg_one_mul, abs_neg, abs_of_nonneg hlow]

lemma Fits.safe_addTerm {e sum : ℤ} (he : o.exponent ≤ e) (hsum : |sum| + bound < 2 ^ 62) :
    Safe (addTerm sum e o) := by
  have habs := abs_nonneg sum
  have hword : o.significand < 2 ^ 62 := by
    have := h.le
    omega
  have hterm := h.abs_term_le e
  have hdiff : Safe (tell [Event.expDiff (e - o.exponent)] : Steps PUnit) := by
    simpa [Safe, Event.Safe] using he
  have halign : Safe (alignTo e o) := by
    refine safe_bind.mpr ⟨hdiff, ?_⟩
    split
    · exact safe_pure _
    · exact safe_shiftRight_of_lt h.nonneg hword (by omega) (by omega)
  refine safe_bind.mpr ⟨halign, safe_bind.mpr ⟨safe_word.mpr ?_, safe_word.mpr ?_⟩⟩
  · rw [result_alignTo]
    omega
  · rw [result_word, result_alignTo]
    exact lt_of_le_of_lt (abs_add_le _ _) (by omega)

end

lemma maxExp_le_add (s : Scan) (o : Operand) :
    s.maxExp ≤ (s.add o).maxExp ∧ (Contributes o → o.exponent ≤ (s.add o).maxExp) := by
  simp only [Scan.add]
  split
  · exact ⟨le_max_left _ _, fun _ => le_max_right _ _⟩
  · rename_i hskip
    refine ⟨le_rfl, fun h => absurd ?_ hskip⟩
    simp [h.1, h.2.1, h.2.2]

/-- The maximum of pass 1 is over the terms that pass 2 aligns. -/
lemma exponent_le_foldl_add (ops : List Operand) (s : Scan) :
    s.maxExp ≤ (ops.foldl Scan.add s).maxExp ∧
      ∀ o ∈ ops, Contributes o → o.exponent ≤ (ops.foldl Scan.add s).maxExp := by
  induction ops generalizing s with
  | nil => exact ⟨le_rfl, fun o ho => absurd ho List.not_mem_nil⟩
  | cons o ops ih =>
    obtain ⟨hstart, hrest⟩ := ih (s.add o)
    obtain ⟨hkept, hfirst⟩ := maxExp_le_add s o
    refine ⟨hkept.trans hstart, fun u hu hcontributes => ?_⟩
    rcases List.mem_cons.mp hu with rfl | hu
    · exact (hfirst hcontributes).trans hstart
    · exact hrest u hu hcontributes

lemma exponent_le_ofAccumulator {c : Operand} (h : Contributes c) :
    c.exponent ≤ (Scan.ofAccumulator c).maxExp := by
  simp [Scan.ofAccumulator, h.1, h.2.1, h.2.2]

lemma safe_finish {s : Scan} {eZero : ℤ} {sum : ℤ → Steps Fp32}
    (h : ∀ e, s.maxExp ≤ e → Safe (sum e)) : Safe (finish s eZero sum) := by
  rw [finish]
  split
  · exact safe_pure _
  · split
    · exact safe_pure _
    · split
      · exact safe_pure _
      · apply h
        split
        · exact le_max_left _ _
        · exact le_rfl

lemma contributes_of_not_skipped {o : Operand} (h : ¬ (o.isZero || o.isNan || o.isInf) = true) :
    Contributes o := by
  simp only [Bool.not_eq_true, Bool.or_eq_false_iff] at h
  exact ⟨h.1.1, h.1.2, h.2⟩

lemma safe_addAligned (bound : ℤ) {e sum : ℤ} {o : Operand}
    (h : Contributes o → Fits bound o ∧ o.exponent ≤ e) (hsum : |sum| + bound < 2 ^ 62) :
    Safe (addAligned e sum o) := by
  rw [addAligned]
  split
  · exact safe_pure _
  · obtain ⟨hfits, hexp⟩ := h (contributes_of_not_skipped ‹_›)
    exact hfits.safe_addTerm hexp hsum

lemma abs_addAligned_le {bound : ℤ} (hbound : 0 ≤ bound) {o : Operand}
    (h : Contributes o → Fits bound o) (e sum : ℤ) :
    |MmaEmu.addAligned e sum o| ≤ |sum| + bound := by
  rw [MmaEmu.addAligned]
  split
  · omega
  · have hterm := (h (contributes_of_not_skipped ‹_›)).abs_term_le e
    exact (abs_add_le _ _).trans (by omega)

lemma abs_foldl_addAligned_le {bound : ℤ} (hbound : 0 ≤ bound) (ops : List Operand)
    (h : ∀ o ∈ ops, Contributes o → Fits bound o) (e sum : ℤ) :
    |ops.foldl (MmaEmu.addAligned e) sum| ≤ |sum| + ops.length * bound := by
  induction ops generalizing sum with
  | nil => simp
  | cons o ops ih =>
    have hstep := abs_addAligned_le hbound (h o List.mem_cons_self) e sum
    have hrest := ih (fun u hu => h u (List.mem_cons_of_mem o hu)) (MmaEmu.addAligned e sum o)
    rw [List.foldl_cons, List.length_cons]
    push_cast
    linarith

section
variable {e : ℤ} {c : Operand} (hnan : c.isNan = false)
include hnan

lemma contributes_of_start (hstart : (!c.isZero && !c.isInf) = true) : Contributes c := by
  simp only [Bool.and_eq_true, Bool.not_eq_true'] at hstart
  exact ⟨hstart.1, hnan, hstart.2⟩

variable (h : Contributes c → Fits (2 ^ 56) c)
include h

lemma safe_startSum (he : Contributes c → c.exponent ≤ e) : Safe (startSum e c) := by
  rw [startSum]
  split
  · have hc := contributes_of_start hnan ‹_›
    exact (h hc).safe_addTerm (he hc) (by norm_num)
  · exact safe_pure _

lemma abs_startSum_le : |MmaEmu.startSum e c| ≤ 2 ^ 56 := by
  rw [MmaEmu.startSum]
  split
  · rw [zero_add]
    exact (h (contributes_of_start hnan ‹_›)).abs_term_le e
  · norm_num

end

/-- Every chunk of at most 32 operands of at most 56 bits is safe, whatever the accumulator. -/
theorem safe_chunkedAccumulateStreamed {F : ℕ} (hF : F ≤ 35) (eZero : ℤ) {n : ℕ} (hn : n ≤ 32)
    {operand : ℕ → Steps Operand} (hsafe : ∀ i < n, Safe (operand i))
    (hfits : ∀ i < n, Contributes (result (operand i)) → Fits (2 ^ 56) (result (operand i)))
    (c : Fp32) : Safe (chunkedAccumulateStreamed F eZero n operand c) := by
  refine safe_bind.mpr ⟨safe_fp32ToOperand hF c, ?_⟩
  rw [result_fp32ToOperand]
  split
  · exact safe_pure _
  rename_i hnan
  rw [Bool.not_eq_true] at hnan
  have hc := fits_fp32ToOperand hF (c := c)
  refine safe_bind.mpr ⟨all_foldlM_range fun i hi => ?_, safe_finish fun e he => ?_⟩
  · exact safe_bind.mpr ⟨hsafe i hi, safe_pure _⟩
  obtain ⟨hstart, hterms⟩ := exponent_le_foldl_add
    ((List.range n).map fun i => result (operand i)) (Scan.ofAccumulator (MmaEmu.fp32ToOperand F c))
  rw [List.foldl_map] at hstart hterms
  rw [result_foldlM] at he
  simp only [result_bind, result_pure] at he
  -- the sum that pass 2 holds before its step `i`
  have hsum : ∀ i ≤ n, |(List.range i).foldl
      (fun sum j => MmaEmu.addAligned e sum (result (operand j)))
        (MmaEmu.startSum e (MmaEmu.fp32ToOperand F c))| ≤ (i + 1) * 2 ^ 56 := by
    intro i hi
    have hread : ∀ o ∈ (List.range i).map (fun j => result (operand j)),
        Contributes o → Fits (2 ^ 56) o := by
      intro o ho
      obtain ⟨j, hj, rfl⟩ := List.mem_map.mp ho
      exact hfits j (lt_of_lt_of_le (List.mem_range.mp hj) hi)
    have hprefix := abs_foldl_addAligned_le (by norm_num) _ hread e
      (MmaEmu.startSum e (MmaEmu.fp32ToOperand F c))
    have hfirst := abs_startSum_le (e := e) hnan hc
    rw [List.foldl_map, List.length_map, List.length_range] at hprefix
    linarith
  refine safe_bind.mpr ⟨safe_startSum hnan hc fun h => ?_, safe_bind.mpr ⟨?_, ?_⟩⟩
  · exact ((exponent_le_ofAccumulator h).trans hstart).trans he
  · refine all_foldlM_range fun i hi => safe_bind.mpr ⟨hsafe i hi, ?_⟩
    simp only [result_bind, result_addAligned, result_startSum]
    refine safe_addAligned (2 ^ 56) (fun h => ⟨hfits i hi h, ?_⟩) ?_
    · exact (hterms _ (List.mem_map_of_mem (List.mem_range.mpr hi)) h).trans he
    · have hbefore := hsum i hi.le
      have hcount : ((i : ℤ) + 1) * 2 ^ 56 ≤ 32 * 2 ^ 56 :=
        mul_le_mul_of_nonneg_right (by omega) (by norm_num)
      linarith
  · rw [result_foldlM]
    simp only [result_bind, result_addAligned, result_startSum]
    refine safe_fixedToFp32 F ?_ e
    have hall := hsum n le_rfl
    have hcount : ((n : ℤ) + 1) * 2 ^ 56 ≤ 33 * 2 ^ 56 :=
      mul_le_mul_of_nonneg_right (by omega) (by norm_num)
    linarith

lemma safe_chunkedAccumulate {F : ℕ} (hF : F ≤ 35) (eZero : ℤ) {ops : List Operand}
    (hlen : ops.length ≤ 32) (h : ∀ o ∈ ops, Contributes o → Fits (2 ^ 56) o) (c : Fp32) :
    Safe (chunkedAccumulate F eZero ops c) := by
  refine safe_chunkedAccumulateStreamed hF eZero hlen (fun i _ => safe_pure _) (fun i hi => ?_) c
  rw [result_pure, List.getD_eq_getElem _ _ hi]
  exact h _ (List.getElem_mem hi)

lemma safe_cofdaDecoupledAccumulateProducts {F F2 : ℕ} (hF : F ≤ 35) (hF2 : F2 ≤ 35)
    {products : List Product} (hlen : products.length ≤ 32)
    (h : ∀ p ∈ products, Contributes p.toOperand → Fits (2 ^ 56) p.toOperand) (c : Fp32) :
    Safe (cofdaDecoupledAccumulateProducts F F2 products c) := by
  refine safe_bind.mpr ⟨safe_chunkedAccumulate hF (-133) ?_ ?_ 0#32, ?_⟩
  · rwa [List.length_map]
  · intro o ho
    obtain ⟨p, hp, rfl⟩ := List.mem_map.mp ho
    exact h p hp
  · refine safe_bind.mpr ⟨safe_fp32ToOperand hF2 _, ?_⟩
    refine safe_chunkedAccumulate hF2 (-133) (by simp) (fun o ho => ?_) c
    rw [List.mem_singleton.mp ho, result_fp32ToOperand]
    exact fits_fp32ToOperand hF2

lemma maxExp_le_scan (gr : GroupResult) (p : Product) :
    gr.maxExp ≤ (gr.scan p).maxExp ∧ (p.isZero = false → p.exponent ≤ (gr.scan p).maxExp) := by
  rw [GroupResult.scan]
  split
  · rename_i hzero
    exact ⟨le_rfl, fun h => absurd hzero (by rw [h]; decide)⟩
  · dsimp only
    split
    · exact ⟨le_of_lt ‹_›, fun _ => le_rfl⟩
    · exact ⟨le_rfl, fun _ => not_lt.mp ‹_›⟩

lemma exponent_le_foldl_scan (products : List Product) (gr : GroupResult) :
    gr.maxExp ≤ (products.foldl GroupResult.scan gr).maxExp ∧
      ∀ p ∈ products, p.isZero = false →
        p.exponent ≤ (products.foldl GroupResult.scan gr).maxExp := by
  induction products generalizing gr with
  | nil => exact ⟨le_rfl, fun p hp => absurd hp List.not_mem_nil⟩
  | cons p products ih =>
    obtain ⟨hstart, hrest⟩ := ih (gr.scan p)
    obtain ⟨hkept, hfirst⟩ := maxExp_le_scan gr p
    refine ⟨hkept.trans hstart, fun q hq hzero => ?_⟩
    rcases List.mem_cons.mp hq with rfl | hq
    · exact (hfirst hzero).trans hstart
    · exact hrest q hq hzero

lemma mantissaSum_foldl_scan (products : List Product) (gr : GroupResult) :
    (products.foldl GroupResult.scan gr).mantissaSum = gr.mantissaSum := by
  induction products generalizing gr with
  | nil => rfl
  | cons p products ih =>
    rw [List.foldl_cons, ih, GroupResult.scan]
    split <;> rfl

section
variable {bound : ℤ} (hbound : 0 ≤ bound)
include hbound

/-- What pass 2 of a group holds after any number of its steps. -/
lemma foldl_accumulate_mem {products : List Product}
    (h : ∀ p ∈ products, p.isZero = false → Fits bound p.toOperand) (gr : GroupResult) :
    (products.foldl GroupResult.accumulate gr).maxExp = gr.maxExp ∧
      |(products.foldl GroupResult.accumulate gr).mantissaSum| ≤
        |gr.mantissaSum| + products.length * bound := by
  induction products generalizing gr with
  | nil => simp
  | cons p products ih =>
    obtain ⟨hmax, hsum⟩ := ih (fun q hq => h q (List.mem_cons_of_mem p hq)) (gr.accumulate p)
    have hstep : (gr.accumulate p).maxExp = gr.maxExp ∧
        |(gr.accumulate p).mantissaSum| ≤ |gr.mantissaSum| + bound := by
      rw [GroupResult.accumulate]
      split
      · exact ⟨rfl, by omega⟩
      · have hfits := h p List.mem_cons_self (Bool.not_eq_true _ ▸ ‹_›)
        have hterm := hfits.abs_term_le gr.maxExp
        exact ⟨rfl, (abs_add_le _ _).trans (add_le_add_right hterm _)⟩
    rw [List.foldl_cons, List.length_cons]
    refine ⟨hmax.trans hstep.1, ?_⟩
    push_cast
    linarith [hstep.2]

variable {n : ℕ}

lemma abs_groupAccumulateStreamed_le {product : ℕ → Product}
    (h : ∀ i < n, (product i).isZero = false → Fits bound (product i).toOperand) :
    |(MmaEmu.groupAccumulateStreamed n product).mantissaSum| ≤ n * bound := by
  have hn : 0 ≤ n * bound := by positivity
  have hzero := mantissaSum_foldl_scan ((List.range n).map product) GroupResult.start
  have hread : ∀ p ∈ (List.range n).map product, p.isZero = false → Fits bound p.toOperand := by
    intro p hp
    obtain ⟨i, hi, rfl⟩ := List.mem_map.mp hp
    exact h i (List.mem_range.mp hi)
  rw [groupAccumulateStreamed_eq, groupAccumulate]
  split
  · change |((List.range n).map product |>.foldl GroupResult.scan GroupResult.start).mantissaSum| ≤ _
    rw [hzero]
    simpa [GroupResult.start] using hn
  · have hsum := (foldl_accumulate_mem hbound hread
      (((List.range n).map product).foldl GroupResult.scan GroupResult.start)).2
    rw [hzero] at hsum
    simpa [GroupResult.start] using hsum

/-- A group of products of at most 62 bits in total is safe. -/
theorem safe_groupAccumulateStreamed (hn : n * bound < 2 ^ 62) {product : ℕ → Steps Product}
    (hsafe : ∀ i < n, Safe (product i))
    (hfits : ∀ i < n, (result (product i)).isZero = false →
      Fits bound (result (product i)).toOperand) :
    Safe (groupAccumulateStreamed n product) := by
  refine safe_bind.mpr ⟨all_foldlM_range fun i hi => ?_, ?_⟩
  · exact safe_bind.mpr ⟨hsafe i hi, safe_pure _⟩
  rw [result_foldlM]
  split
  · exact safe_pure _
  simp only [result_bind, result_pure]
  obtain ⟨-, hterms⟩ := exponent_le_foldl_scan
    ((List.range n).map fun i => result (product i)) GroupResult.start
  have hzero := mantissaSum_foldl_scan
    ((List.range n).map fun i => result (product i)) GroupResult.start
  rw [List.foldl_map] at hterms hzero
  refine all_foldlM_range fun i hi => safe_bind.mpr ⟨hsafe i hi, ?_⟩
  simp only [result_bind, result_accumulate]
  rw [accumulate]
  split
  · exact safe_pure _
  rename_i hp
  rw [Bool.not_eq_true] at hp
  have hread : ∀ p ∈ (List.range i).map (fun j => result (product j)), p.isZero = false →
      Fits bound p.toOperand := by
    intro p hmem
    obtain ⟨j, hj, rfl⟩ := List.mem_map.mp hmem
    exact hfits j (lt_trans (List.mem_range.mp hj) hi)
  obtain ⟨hmax, hsum⟩ := foldl_accumulate_mem hbound hread
    ((List.range n).foldl (fun gr j => gr.scan (result (product j))) GroupResult.start)
  rw [List.foldl_map, List.length_map, List.length_range, hzero] at hsum
  rw [List.foldl_map] at hmax
  have hcount : ((i : ℤ) + 1) * bound ≤ n * bound :=
    mul_le_mul_of_nonneg_right (by omega) hbound
  refine safe_bind.mpr ⟨(hfits i hi hp).safe_addTerm ?_ ?_, safe_pure _⟩
  · rw [hmax]
    exact hterms _ (List.mem_map_of_mem (List.mem_range.mpr hi)) hp
  · have hstart : |GroupResult.start.mantissaSum| = 0 := abs_zero
    rw [hstart, zero_add] at hsum
    change |GroupResult.mantissaSum ((List.range i).foldl _ _)| + bound < _
    linarith

end

end Datapath

end MmaEmu
