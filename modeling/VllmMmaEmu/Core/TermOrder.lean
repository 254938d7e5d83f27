import VllmMmaEmu.Core.Accumulator

/-!
# Order of the terms and zero terms

Both passes of the accumulator see the operands as a multiset. A zero term, which is flagged
zero and neither NaN nor infinite, only sets a flag, and the flag raises the alignment exponent
to `eZero`. That is not observable: an accumulator that is not zero has an exponent of at least
`-126`, and one that is zero sets the flag itself. The other two flags are looked at whatever
`isZero` says, so a zero operand that has one of them does count.
-/

namespace MmaEmu

open Binary32

namespace Operand

/-- Flagged zero, and nothing else. -/
def isZeroTerm (o : Operand) : Bool := o.isZero && !o.isNan && !o.isInf

/-- The operands that are not zero terms. -/
def nonzero (ops : List Operand) : List Operand := ops.filter fun o => !o.isZeroTerm

lemma isZeroTerm_iff {o : Operand} :
    o.isZeroTerm = true ↔ o.isZero = true ∧ o.isNan = false ∧ o.isInf = false := by
  simp [isZeroTerm, and_assoc]

lemma nonzero_cons_of_zero {o : Operand} (hz : o.isZeroTerm = true) (ops : List Operand) :
    nonzero (o :: ops) = nonzero ops :=
  List.filter_cons_of_neg (by simp [hz])

lemma nonzero_cons_of_not_zero {o : Operand} (hz : o.isZeroTerm = false) (ops : List Operand) :
    nonzero (o :: ops) = o :: nonzero ops :=
  List.filter_cons_of_pos (by simp [hz])

end Operand

namespace Scan

/-- The scan after zero operands; nothing but the flag has changed. -/
def sawZero (s : Scan) (zero : Bool) : Scan := { s with anyZero := s.anyZero || zero }

lemma sawZero_false (s : Scan) : s.sawZero false = s := by simp [sawZero]

lemma sawZero_sawZero (s : Scan) (x y : Bool) : (s.sawZero x).sawZero y = s.sawZero (x || y) := by
  simp [sawZero, Bool.or_assoc]

lemma add_sawZero (s : Scan) (zero : Bool) (o : Operand) :
    (s.sawZero zero).add o = (s.add o).sawZero zero := by
  simp [sawZero, add, Bool.or_right_comm]

lemma add_of_zero (s : Scan) {o : Operand} (h : o.isZeroTerm = true) :
    s.add o = s.sawZero true := by
  obtain ⟨hz, hn, hi⟩ := Operand.isZeroTerm_iff.mp h
  simp [sawZero, add, hz, hn, hi]

lemma add_right_comm (s : Scan) (a b : Operand) : (s.add a).add b = (s.add b).add a := by
  simp only [add, Scan.mk.injEq, Bool.or_right_comm, true_and, and_true]
  refine ⟨?_, ?_, ?_, ?_⟩
  · split_ifs <;> rfl
  · split_ifs <;> rfl
  · split_ifs
    · exact max_right_comm _ _ _
    · rfl
    · rfl
    · rfl
  · split_ifs <;> rfl

lemma foldl_add_sawZero (ops : List Operand) (s : Scan) (zero : Bool) :
    ops.foldl add (s.sawZero zero) = (ops.foldl add s).sawZero zero := by
  induction ops generalizing s with
  | nil => rfl
  | cons o ops ih => rw [List.foldl_cons, List.foldl_cons, add_sawZero, ih]

/-- The zero terms of a list leave nothing but their flag. -/
lemma foldl_add_eq (ops : List Operand) (s : Scan) :
    ops.foldl add s =
      ((Operand.nonzero ops).foldl add s).sawZero (ops.any Operand.isZeroTerm) := by
  induction ops generalizing s with
  | nil => exact (sawZero_false s).symm
  | cons o ops ih =>
    rw [List.foldl_cons, ih, List.any_cons]
    cases hz : o.isZeroTerm with
    | true =>
      rw [add_of_zero s hz, foldl_add_sawZero, sawZero_sawZero, Operand.nonzero_cons_of_zero hz]
    | false => rw [Operand.nonzero_cons_of_not_zero hz, List.foldl_cons, Bool.false_or]

/-- The zero flag cannot be seen in what follows the scan. -/
def HidesZeros (eZero : ℤ) (s : Scan) : Prop :=
  s.anyZero = true ∨ s.anyInf = true ∨ eZero ≤ s.maxExp

lemma HidesZeros.add {eZero : ℤ} {s : Scan} (h : s.HidesZeros eZero) (o : Operand) :
    (s.add o).HidesZeros eZero := by
  rcases h with hz | hi | hm
  · exact Or.inl (by simp [Scan.add, hz])
  · exact Or.inr (Or.inl (by simp [Scan.add, hi]))
  · refine Or.inr (Or.inr ?_)
    simp only [Scan.add]
    split
    · exact le_max_of_le_left hm
    · exact hm

lemma HidesZeros.foldl {eZero : ℤ} {s : Scan} (h : s.HidesZeros eZero) (ops : List Operand) :
    (ops.foldl Scan.add s).HidesZeros eZero := by
  induction ops generalizing s with
  | nil => exact h
  | cons o ops ih => exact ih (h.add o)

lemma HidesZeros.finish {eZero : ℤ} {s : Scan} (h : s.HidesZeros eZero) (zero : Bool)
    (sum : ℤ → Fp32) : (s.sawZero zero).finish eZero sum = s.finish eZero sum := by
  unfold Scan.finish sawZero
  rcases h with hz | hi | hm
  · simp [hz]
  · simp [hi]
  · simp [max_eq_left hm]

lemma hidesZeros_ofAccumulator (F : ℕ) {eZero : ℤ} (hzero : eZero ≤ -126) {c : Fp32}
    (hc : ¬ IsNan c) : (ofAccumulator (fp32ToOperand F c)).HidesZeros eZero := by
  by_cases hspecial : expField c = 255
  · have hfrac : fracField c = 0 := by
      by_contra hne
      exact hc ⟨hspecial, hne⟩
    rw [fp32ToOperand_special F hspecial]
    exact Or.inr (Or.inl (by simp [ofAccumulator, hfrac]))
  · by_cases hs : significand c = 0
    · rw [fp32ToOperand_zero F hs]
      exact Or.inl rfl
    · rw [fp32ToOperand_finite F hspecial hs]
      exact Or.inr (Or.inr (le_trans hzero (exponent_ge c)))

end Scan

lemma addAligned_right_comm (e sum : ℤ) (a b : Operand) :
    addAligned e (addAligned e sum a) b = addAligned e (addAligned e sum b) a := by
  simp only [addAligned]
  split_ifs
  · rfl
  · rfl
  · rfl
  · exact add_right_comm sum _ _

lemma foldl_addAligned_nonzero (e sum : ℤ) (ops : List Operand) :
    (Operand.nonzero ops).foldl (addAligned e) sum = ops.foldl (addAligned e) sum := by
  induction ops generalizing sum with
  | nil => rfl
  | cons o ops ih =>
    cases hz : o.isZeroTerm with
    | true =>
      have hsame : addAligned e sum o = sum := by
        simp [addAligned, (Operand.isZeroTerm_iff.mp hz).1]
      rw [Operand.nonzero_cons_of_zero hz, ih, List.foldl_cons, hsame]
    | false => rw [Operand.nonzero_cons_of_not_zero hz, List.foldl_cons, ih, List.foldl_cons]

/-- A chunk is determined by its operands that are not zero terms. -/
lemma chunkedAccumulate_nonzero (F : ℕ) {eZero : ℤ} (hzero : eZero ≤ -126) (c : Fp32)
    (ops : List Operand) :
    chunkedAccumulate F eZero (Operand.nonzero ops) c = chunkedAccumulate F eZero ops c := by
  by_cases hc : IsNan c
  · rw [chunkedAccumulate_of_isNan F eZero _ hc, chunkedAccumulate_of_isNan F eZero _ hc]
  · have hhides := (Scan.hidesZeros_ofAccumulator F hzero hc).foldl (Operand.nonzero ops)
    rw [chunkedAccumulate_of_not_isNan F eZero _ hc, chunkedAccumulate_of_not_isNan F eZero _ hc,
      Scan.foldl_add_eq ops, hhides.finish]
    simp only [foldl_addAligned_nonzero]

lemma chunkedAccumulate_perm (F : ℕ) (eZero : ℤ) (c : Fp32) {ops ops' : List Operand}
    (h : ops.Perm ops') : chunkedAccumulate F eZero ops c = chunkedAccumulate F eZero ops' c := by
  have hscan : ∀ s, ops.foldl Scan.add s = ops'.foldl Scan.add s := fun s =>
    h.foldl_eq' (fun a _ b _ s => s.add_right_comm a b) s
  have hsum : ∀ e sum, ops.foldl (addAligned e) sum = ops'.foldl (addAligned e) sum := fun e sum =>
    h.foldl_eq' (fun a _ b _ sum => addAligned_right_comm e sum a b) sum
  simp only [chunkedAccumulate, hscan, hsum]

/-- Lists with the same operands other than zero terms, in any order and with any zero terms
between them, give the same bits. -/
theorem chunkedAccumulate_eq_of_nonzero_perm (F : ℕ) {eZero : ℤ} (hzero : eZero ≤ -126) (c : Fp32)
    {ops ops' : List Operand} (h : (Operand.nonzero ops).Perm (Operand.nonzero ops')) :
    chunkedAccumulate F eZero ops c = chunkedAccumulate F eZero ops' c := by
  rw [← chunkedAccumulate_nonzero F hzero c ops, ← chunkedAccumulate_nonzero F hzero c ops']
  exact chunkedAccumulate_perm F eZero c h

/-- Two terms and their reverse with a zero term between them, onto the smallest subnormal. -/
theorem chunkedAccumulate_eq_of_nonzero_perm_padded :
    chunkedAccumulate 13 (-133) [⟨1, 3, 5, false, false, false⟩, ⟨-1, 2, 7, false, false, false⟩]
        0x00000001#32 =
      chunkedAccumulate 13 (-133) [⟨-1, 2, 7, false, false, false⟩, makeZeroOperand,
        ⟨1, 3, 5, false, false, false⟩] 0x00000001#32 :=
  chunkedAccumulate_eq_of_nonzero_perm 13 (by norm_num) _ (List.Perm.swap _ _ _)

/-- A NaN that is flagged zero too. -/
def zeroNan : Operand := ⟨1, 0, 0, true, true, false⟩

/-- Alone it makes the result NaN, where no operand at all leaves the accumulator as it is. -/
theorem chunkedAccumulate_zeroNan_ne :
    (([zeroNan].filter fun o => !o.isZero).Perm (([] : List Operand).filter fun o => !o.isZero)) ∧
      chunkedAccumulate 13 (-133) [zeroNan] 0x3f800000#32 ≠
        chunkedAccumulate 13 (-133) [] 0x3f800000#32 :=
  ⟨.nil, by decide +kernel⟩

end MmaEmu
