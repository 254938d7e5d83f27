import VllmMmaEmu.Core.Accumulator

/-!
# Group accumulation of GDFS

The two passes over the products of a group, without a running accumulator.
Flags other than `isZero` are not looked at.
-/

namespace MmaEmu

open FixedPoint FusedSum

/-- One product of pass 1: maximum exponent among the products not flagged zero. -/
def GroupResult.scan (gr : GroupResult) (p : Product) : GroupResult :=
  if p.isZero then gr
  else { gr with
    allZero := false
    maxExp := if gr.maxExp < p.exponent then p.exponent else gr.maxExp }

/-- One product of pass 2: align with truncation and add. -/
def GroupResult.accumulate (gr : GroupResult) (p : Product) : GroupResult :=
  if p.isZero then gr
  else { gr with mantissaSum := gr.mantissaSum + p.sign * alignTo gr.maxExp p.toOperand }

def GroupResult.start : GroupResult := ⟨0, -9999, true⟩

def groupAccumulate (products : List Product) : GroupResult :=
  let gr := products.foldl GroupResult.scan GroupResult.start
  if gr.allZero then { gr with maxExp := 0 }
  else products.foldl GroupResult.accumulate gr

/-- The same passes with each product recomputed from its index instead of stored. -/
def groupAccumulateStreamed (n : ℕ) (product : ℕ → Product) : GroupResult :=
  let gr := (List.range n).foldl (fun gr i => gr.scan (product i)) GroupResult.start
  if gr.allZero then { gr with maxExp := 0 }
  else (List.range n).foldl (fun gr i => gr.accumulate (product i)) gr

/-- Recomputing the products does not change the group result. -/
theorem groupAccumulateStreamed_eq (n : ℕ) (product : ℕ → Product) :
    groupAccumulateStreamed n product = groupAccumulate ((List.range n).map product) := by
  simp only [groupAccumulateStreamed, groupAccumulate, List.foldl_map]

/-- What pass 1 knows after the terms `ts`. -/
structure GroupScanned (ts : List (Option Term)) (gr : GroupResult) : Prop where
  sum_zero : gr.mantissaSum = 0
  allZero_iff : gr.allZero = true ↔ ∀ t ∈ ts, t = none
  initial : gr.allZero = true → gr.maxExp = -9999
  upper : ∀ t, some t ∈ ts → t.label ≤ gr.maxExp
  attained : gr.allZero = false → ∃ t, some t ∈ ts ∧ t.label = gr.maxExp

lemma groupScanned_start : GroupScanned [] GroupResult.start := by
  constructor <;> simp [GroupResult.start]

lemma represents_toOperand_isZero {G : ℕ} {p : Product} {t : Option Term}
    (h : Represents G p.toOperand t) : p.isZero = t.isNone := by
  cases t with
  | none => exact h.1
  | some t => exact congrArg Operand.isZero h.1

lemma groupScanned_scan {G : ℕ} {ts : List (Option Term)} {gr : GroupResult}
    (hgr : GroupScanned ts gr) {p : Product} {t : Option Term}
    (h : Represents G p.toOperand t) : GroupScanned (ts ++ [t]) (gr.scan p) := by
  have hzero := represents_toOperand_isZero h
  cases t with
  | none =>
    have hscan : gr.scan p = gr := if_pos hzero
    rw [hscan]
    refine ⟨hgr.sum_zero, ?_, hgr.initial, ?_, ?_⟩
    · simpa [or_imp, forall_and] using hgr.allZero_iff
    · simpa using hgr.upper
    · simpa using hgr.attained
  | some t =>
    have hexp : p.exponent = t.label := congrArg Operand.exponent h.1
    have hlow : -9999 ≤ t.label := h.2.1
    have hscan : gr.scan p = { gr with
        allZero := false
        maxExp := if gr.maxExp < t.label then t.label else gr.maxExp } := by
      rw [GroupResult.scan, if_neg (by simp [hzero]), hexp]
    rw [hscan]
    refine ⟨hgr.sum_zero, ?_, ?_, ?_, ?_⟩
    · simp
    · simp
    · intro u hu
      rcases List.mem_append.mp hu with hu | hu
      · have := hgr.upper u hu
        dsimp only
        split <;> omega
      · have : u = t := by simpa using hu
        subst this
        dsimp only
        split <;> omega
    · intro _
      dsimp only
      split
      · exact ⟨t, by simp, rfl⟩
      · rename_i hge
        cases hall : gr.allZero with
        | true =>
          have := hgr.initial hall
          exact ⟨t, by simp, by omega⟩
        | false =>
          obtain ⟨u, hu, hmax⟩ := hgr.attained hall
          exact ⟨u, by simp [hu], hmax⟩

lemma groupScanned_foldl {G : ℕ} {products : List Product} {ts : List (Option Term)}
    (h : List.Forall₂ (fun p t => Represents G p.toOperand t) products ts)
    {pre : List (Option Term)} {gr : GroupResult} (hgr : GroupScanned pre gr) :
    GroupScanned (pre ++ ts) (products.foldl GroupResult.scan gr) := by
  induction h generalizing pre gr with
  | nil => simpa using hgr
  | cons hp _ ih => simpa using ih (groupScanned_scan hgr hp)

lemma foldl_accumulate {G : ℕ} {products : List Product} {ts : List (Option Term)}
    (h : List.Forall₂ (fun p t => Represents G p.toOperand t) products ts) {gr : GroupResult}
    (hupper : ∀ u, some u ∈ ts → u.label ≤ gr.maxExp) :
    products.foldl GroupResult.accumulate gr =
      { gr with mantissaSum := gr.mantissaSum + total G gr.maxExp ts } := by
  induction h generalizing gr with
  | nil => simp
  | @cons p t products ts hp _ ih =>
    have hzero := represents_toOperand_isZero hp
    have hstep : gr.accumulate p =
        { gr with mantissaSum := gr.mantissaSum + share (G - gr.maxExp) t } := by
      cases t with
      | none => simp [GroupResult.accumulate, hzero]
      | some t =>
        rw [GroupResult.accumulate, if_neg (by simp [hzero]),
          ← sign_mul_alignTo hp (hupper t (by simp))]
        rfl
    have htail := @ih (gr.accumulate p)
      (fun u hu => by rw [hstep]; exact hupper u (List.mem_cons_of_mem _ hu))
    rw [List.foldl_cons, htail, hstep, total_cons, ← add_assoc]

/-- A group of represented products is summed with one truncation per product. -/
theorem groupAccumulate_eq {G : ℕ} {products : List Product} {ts : List (Option Term)}
    (h : List.Forall₂ (fun p t => Represents G p.toOperand t) products ts) :
    groupAccumulate products =
      if ∀ t ∈ ts, t = none then ⟨0, 0, true⟩
      else ⟨total G (groupLabel ts) ts, groupLabel ts, false⟩ := by
  have hs := groupScanned_foldl h groupScanned_start
  rw [List.nil_append] at hs
  unfold groupAccumulate
  dsimp only
  by_cases hall : ∀ t ∈ ts, t = none
  · rw [if_pos hall, if_pos (hs.allZero_iff.mpr hall), hs.sum_zero, hs.allZero_iff.mpr hall]
  · have hfalse : (products.foldl GroupResult.scan GroupResult.start).allZero = false := by
      rw [← Bool.not_eq_true]
      exact fun htrue => hall (hs.allZero_iff.mp htrue)
    rw [if_neg hall, hfalse, if_neg (by simp), foldl_accumulate h hs.upper, hs.sum_zero,
      groupLabel_eq (hs.attained hfalse) hs.upper, hfalse, zero_add]

end MmaEmu
