import VllmMmaEmu.Library.FusedSum

/-!
# Sign-magnitude numbers with an unnormalised exponent

`sign * significand * 2^(exponent - radix)`, where the significand has `radix`
fractional bits. Multiplication adds exponents without normalising, so the
exponent of a product is the label under which it joins a fused sum.
-/

open FixedPoint FusedSum

structure SignMagnitude where
  sign : ℤ
  significand : ℕ
  exponent : ℤ
  radix : ℕ
  sign_unit : sign = 1 ∨ sign = -1

namespace SignMagnitude

def value (x : SignMagnitude) : ℚ := x.sign * x.significand * 2 ^ (x.exponent - x.radix)

/-- The fields of a small binary format: a zero exponent field marks subnormals, which keep
the smallest exponent and have no implicit bit. -/
def ofFields (manBits : ℕ) (bias : ℤ) (neg : Bool) (field mantissa : ℕ) : SignMagnitude where
  sign := if neg then -1 else 1
  significand := if field = 0 then mantissa else 2 ^ manBits + mantissa
  exponent := max (field : ℤ) 1 - bias
  radix := manBits
  sign_unit := by cases neg <;> simp

def mul (x y : SignMagnitude) : SignMagnitude where
  sign := x.sign * y.sign
  significand := x.significand * y.significand
  exponent := x.exponent + y.exponent
  radix := x.radix + y.radix
  sign_unit := by
    rcases x.sign_unit with hx | hx <;> rcases y.sign_unit with hy | hy <;> simp [hx, hy]

/-- A fixed-point integer with `radix` fractional bits, at an exponent. -/
def ofInt (radix : ℕ) (exponent n : ℤ) : SignMagnitude where
  sign := if n < 0 then -1 else 1
  significand := n.natAbs
  exponent := exponent
  radix := radix
  sign_unit := by split <;> simp

lemma significand_ofInt (r : ℕ) (e n : ℤ) :
    ((ofInt r e n).significand : ℤ) = if n < 0 then -n else n := by
  change (n.natAbs : ℤ) = _
  split <;> omega

/-- The same number with its exponent lowered by `k` and its significand shifted up. -/
def fold (x : SignMagnitude) (k : ℕ) : SignMagnitude :=
  { x with significand := x.significand <<< k, exponent := x.exponent - k }

/-- The number as a term of a fused sum, labelled with its exponent. -/
def term (x : SignMagnitude) : Option Term :=
  if x.value = 0 then none else some ⟨x.value, x.exponent⟩

lemma value_eq_zero_iff (x : SignMagnitude) : x.value = 0 ↔ x.significand = 0 := by
  have hsign : (x.sign : ℚ) ≠ 0 := by
    rcases x.sign_unit with h | h <;> simp [h]
  simp [value, hsign, (zpow_two_pos _).ne']

@[simp] lemma value_mul (x y : SignMagnitude) : (x.mul y).value = x.value * y.value := by
  have hpow : (2 : ℚ) ^ (x.exponent + y.exponent - ((x.radix + y.radix : ℕ) : ℤ)) =
      2 ^ (x.exponent - x.radix) * 2 ^ (y.exponent - y.radix) := by
    rw [← zpow_add₀ (by norm_num : (2 : ℚ) ≠ 0)]
    congr 1
    push_cast
    ring
  simp only [value, mul, hpow]
  push_cast
  ring

@[simp] lemma value_ofInt (r : ℕ) (e n : ℤ) : (ofInt r e n).value = n * 2 ^ (e - r) := by
  simp only [value, ofInt]
  congr 1
  rcases lt_or_ge n 0 with h | h
  · rw [if_pos h, Nat.cast_natAbs, abs_of_neg h]
    push_cast
    ring
  · rw [if_neg (not_lt.mpr h), Nat.cast_natAbs, abs_of_nonneg h]
    push_cast
    ring

@[simp] lemma value_fold (x : SignMagnitude) (k : ℕ) : (x.fold k).value = x.value := by
  have hpow : (2 : ℚ) ^ (x.exponent - x.radix) = 2 ^ k * 2 ^ (x.exponent - k - x.radix) := by
    rw [← zpow_natCast, ← zpow_add₀ (by norm_num : (2 : ℚ) ≠ 0)]
    congr 1
    ring
  simp only [value, fold, hpow, Nat.shiftLeft_eq]
  push_cast
  ring

lemma term_of_significand_eq_zero {x : SignMagnitude} (h : x.significand = 0) : x.term = none :=
  if_pos ((value_eq_zero_iff x).mpr h)

lemma term_of_significand_ne_zero {x : SignMagnitude} (h : x.significand ≠ 0) :
    x.term = some ⟨x.value, x.exponent⟩ :=
  if_neg (fun hv => h ((value_eq_zero_iff x).mp hv))

lemma eq_of_term_eq_some {x : SignMagnitude} {t : Term} (h : x.term = some t) :
    t = ⟨x.value, x.exponent⟩ := by
  rw [term] at h
  split at h
  · cases h
  · exact (Option.some.inj h).symm

lemma signOf_value {x : SignMagnitude} (h : x.significand = 0 → x.sign = 1) :
    signOf x.value = x.sign := by
  by_cases hz : x.significand = 0
  · rw [(value_eq_zero_iff x).mpr hz, h hz]
    rfl
  · exact (quanta_signed (F := 0) x.sign_unit hz rfl).1

/-- What the number is cut to at `F` fractional bits under its own exponent. -/
lemma quanta_abs_value (F : ℕ) (x : SignMagnitude) :
    quanta (F - x.exponent) |x.value| = toRadix x.radix F x.significand := by
  by_cases hz : x.significand = 0
  · rw [(value_eq_zero_iff x).mpr hz, hz, toRadix_eq_quanta]
    simp
  · exact (quanta_signed x.sign_unit hz rfl).2

lemma natAbs_share_term_le {F n N : ℕ} {x : SignMagnitude} {e : ℤ} (hsig : x.significand < 2 ^ n)
    (hN : n + (F - x.radix) ≤ N) (he : ∀ t, x.term = some t → t.label ≤ e) :
    (share (F - e) x.term).natAbs ≤ 2 ^ N := by
  cases hx : x.term with
  | none => simp
  | some t =>
    apply natAbs_share_le _ (he t hx)
    rw [eq_of_term_eq_some hx, quanta_abs_value]
    have hlt := toRadix_lt x.radix F (Int.natCast_nonneg x.significand)
      (by exact_mod_cast hsig : (x.significand : ℤ) < 2 ^ n)
    have hpow : (2 : ℤ) ^ (n + (F - x.radix)) ≤ 2 ^ N := pow_le_pow_right₀ (by norm_num) hN
    push_cast
    linarith

/-- The sum of a group of numbers of one range. -/
lemma natAbs_groupTotal_le {G n N : ℕ} {xs : List SignMagnitude}
    (hsig : ∀ x ∈ xs, x.significand < 2 ^ n ∧ n + (G - x.radix) ≤ N) :
    (total G (groupLabel (xs.map term)) (xs.map term)).natAbs ≤ xs.length * 2 ^ N := by
  by_cases hall : ∀ t ∈ xs.map term, t = none
  · rw [total_eq_zero_of_none hall]
    simp
  · rw [← List.length_map (f := term)]
    apply natAbs_total_le
    intro t ht
    obtain ⟨x, hx, rfl⟩ := List.mem_map.mp ht
    obtain ⟨hn, hN⟩ := hsig x hx
    exact natAbs_share_term_le hn hN (fun t htx => (groupLabel_spec hall).2 t (htx ▸ ht))

/-- Enough fractional bits lose nothing. -/
lemma share_term_exact {x : SignMagnitude} {p : ℤ} (hp : x.radix - x.exponent ≤ p) :
    (share p x.term : ℚ) * 2 ^ (-p) = x.value := by
  obtain ⟨k, hk⟩ := Int.eq_ofNat_of_zero_le (sub_nonneg.mpr hp)
  have hgrid : x.value = ((x.sign * x.significand * 2 ^ k : ℤ) : ℚ) * 2 ^ (-p) := by
    have hpow : (2 : ℚ) ^ (x.exponent - x.radix) = 2 ^ k * 2 ^ (-p) := by
      rw [← zpow_natCast, ← zpow_add₀ (by norm_num : (2 : ℚ) ≠ 0)]
      congr 1
      omega
    rw [value, hpow]
    push_cast
    ring
  have hshare : share p x.term = signedQuanta p x.value := by
    rw [term]
    split
    · rename_i hz
      rw [hz, share_none, signedQuanta_zero]
    · rfl
  rw [hshare, hgrid, signedQuanta_intCast_mul]

/-- What a shift of the significand by `k` places cuts off. -/
def cut (x : SignMagnitude) (k : ℕ) : ℤ := x.sign * (x.significand % 2 ^ k : ℕ)

lemma cut_zero (x : SignMagnitude) : x.cut 0 = 0 := by
  simp [cut, Nat.mod_one]

lemma share_term_eq_shift {x : SignMagnitude} {p : ℤ} {k : ℕ} (hk : x.radix - x.exponent = p + k) :
    share p x.term = x.sign * (x.significand / 2 ^ k : ℕ) := by
  by_cases hz : x.significand = 0
  · rw [term_of_significand_eq_zero hz, hz]
    simp
  have habs : |x.value| = x.significand * 2 ^ (x.exponent - x.radix) := by
    have hsign : |(x.sign : ℚ)| = 1 := by
      rcases x.sign_unit with h | h <;> simp [h]
    rw [value, abs_mul, abs_mul, hsign, one_mul, Nat.abs_cast, abs_of_pos (zpow_two_pos _)]
  have hprecision : p + (x.exponent - x.radix) = -(k : ℤ) := by omega
  rw [term_of_significand_ne_zero hz, share_some, signedQuanta,
    signOf_value (fun h => absurd h hz), habs, quanta_mul_zpow, hprecision,
    ← quanta_natCast_shiftRight, Nat.shiftRight_eq_div_pow]

/-- A share and what was cut off it make up the value. -/
lemma share_term_add_cut (p : ℤ) (x : SignMagnitude) :
    (share p x.term : ℚ) * 2 ^ (-p) +
      x.cut (x.radix - x.exponent - p).toNat * 2 ^ (x.exponent - x.radix) = x.value := by
  rcases le_total (x.radix - x.exponent : ℤ) p with hexact | hlossy
  · have hzero : (x.radix - x.exponent - p).toNat = 0 := by omega
    rw [share_term_exact hexact, hzero, cut_zero, Int.cast_zero, zero_mul, add_zero]
  · obtain ⟨k, hk⟩ := Int.eq_ofNat_of_zero_le (sub_nonneg.mpr hlossy)
    have hunit : (2 : ℚ) ^ (-p) = 2 ^ k * 2 ^ (x.exponent - x.radix) := by
      rw [← zpow_natCast, ← zpow_add₀ (by norm_num : (2 : ℚ) ≠ 0)]
      congr 1
      omega
    have hsplit : (x.significand : ℚ) =
        2 ^ k * (x.significand / 2 ^ k : ℕ) + (x.significand % 2 ^ k : ℕ) := by
      exact_mod_cast (Nat.div_add_mod x.significand (2 ^ k)).symm
    have hshare : share p x.term = x.sign * (x.significand / 2 ^ k : ℕ) :=
      share_term_eq_shift (by omega)
    rw [hshare, hk, Int.toNat_natCast, cut, value, hunit, hsplit, Int.cast_mul, Int.cast_mul,
      Int.cast_natCast, Int.cast_natCast]
    ring

/-- A group sum and what was cut off its numbers make up the exact sum. -/
lemma groupSum_add_cut (G : ℕ) (xs : List SignMagnitude) :
    groupSum G (xs.map term) +
      (xs.map fun x : SignMagnitude =>
        (x.cut (x.radix - x.exponent - (G - groupLabel (xs.map term))).toNat : ℚ) *
          2 ^ (x.exponent - x.radix)).sum = (xs.map value).sum := by
  rw [groupSum]
  generalize groupLabel (xs.map term) = e
  rw [show e - (G : ℤ) = -(G - e) by ring]
  induction xs with
  | nil => simp
  | cons x xs ih =>
    have hx := share_term_add_cut (G - e) x
    rw [List.map_cons, List.map_cons, List.map_cons, List.sum_cons, List.sum_cons, total_cons, ← hx,
      ← ih, Int.cast_add, add_mul]
    exact add_add_add_comm _ _ _ _

/-- Largest exponent of the numbers that are not zero. -/
def largestExponent (xs : List SignMagnitude) : ℤ :=
  ((xs.filter fun x => x.significand ≠ 0).map exponent).max?.getD 0

lemma groupLabel_map_term (xs : List SignMagnitude) :
    groupLabel (xs.map term) = largestExponent xs := by
  have hlabels : (xs.map term).filterMap (Option.map Term.label) =
      (xs.filter fun x => x.significand ≠ 0).map exponent := by
    induction xs with
    | nil => rfl
    | cons x xs ih =>
      by_cases hz : x.significand = 0
      · rw [List.map_cons, term_of_significand_eq_zero hz, List.filter_cons_of_neg (by simp [hz]), ← ih]
        rfl
      · rw [List.map_cons, term_of_significand_ne_zero hz, List.filter_cons_of_pos (by simp [hz]),
          List.map_cons, ← ih]
        rfl
  rw [groupLabel, hlabels, largestExponent]

/-- A group that holds all its numbers exactly sums them exactly. -/
lemma groupSum_exact {G : ℕ} {xs : List SignMagnitude}
    (exact : ∀ x ∈ xs, x.radix - x.exponent ≤ G - groupLabel (xs.map term)) :
    groupSum G (xs.map term) = (xs.map value).sum := by
  rw [groupSum]
  generalize groupLabel (xs.map term) = e at exact
  rw [show e - (G : ℤ) = -(G - e) by ring]
  induction xs with
  | nil => simp
  | cons x xs ih =>
    have hx := share_term_exact (exact x List.mem_cons_self)
    have htail := ih (fun y hy => exact y (List.mem_cons_of_mem _ hy))
    rw [List.map_cons, List.map_cons, List.sum_cons, total_cons, ← hx, ← htail]
    push_cast
    ring

lemma term_ofInt (G : ℕ) (ts : List (Option Term)) :
    (ofInt G (groupLabel ts) (total G (groupLabel ts) ts)).term = groupTerm G ts := by
  rw [term, value_ofInt, groupTerm, groupSum]
  rfl

end SignMagnitude
