import Mathlib.Data.Int.Bitwise
import Mathlib.Data.Nat.Bitwise
import Mathlib.Tactic.Positivity
import Mathlib.Tactic.Ring

/-!
# Bit fields

Fields of given widths are put next to each other in one number, the first one in the lowest
bits. A field is read back by a shift and a mask.
-/

namespace BitFields

/-- The fields with their widths. -/
def width (fields : List (Nat × Nat)) : Nat := (fields.map Prod.snd).sum

def pack : List (Nat × Nat) → Nat
  | [] => 0
  | (value, bits) :: rest => value % 2 ^ bits + 2 ^ bits * pack rest

@[simp] lemma width_nil : width [] = 0 := rfl

@[simp] lemma width_cons (p : Nat × Nat) (rest : List (Nat × Nat)) :
    width (p :: rest) = p.2 + width rest := rfl

lemma pack_lt (fields : List (Nat × Nat)) : pack fields < 2 ^ width fields := by
  induction fields with
  | nil => simp [pack]
  | cons p rest ih =>
    obtain ⟨value, bits⟩ := p
    have hlow : value % 2 ^ bits < 2 ^ bits := Nat.mod_lt _ (Nat.two_pow_pos _)
    rw [pack, width_cons, pow_add]
    calc value % 2 ^ bits + 2 ^ bits * pack rest
        < 2 ^ bits * (pack rest + 1) := by rw [mul_add]; omega
      _ ≤ 2 ^ bits * 2 ^ width rest := Nat.mul_le_mul_left _ ih

lemma pack_append (fields rest : List (Nat × Nat)) :
    pack (fields ++ rest) = pack fields + 2 ^ width fields * pack rest := by
  induction fields with
  | nil => simp [pack]
  | cons p fields ih =>
    obtain ⟨value, bits⟩ := p
    rw [List.cons_append, pack, pack, ih, width_cons, pow_add]
    ring

/-- The field after some others. -/
lemma pack_field (before rest : List (Nat × Nat)) (value bits : Nat) :
    pack (before ++ (value, bits) :: rest) / 2 ^ width before % 2 ^ bits = value % 2 ^ bits := by
  rw [pack_append, Nat.add_mul_div_left _ _ (Nat.two_pow_pos _),
    Nat.div_eq_of_lt (pack_lt before), zero_add, pack, Nat.add_mul_mod_self_left, Nat.mod_mod]

/-- Fields are put together one after the other. -/
lemma or_shiftLeft {value offset : Nat} (h : value < 2 ^ offset) (field : Nat) :
    value ||| field <<< offset = value + 2 ^ offset * field := by
  rw [Nat.or_comm, ← Nat.shiftLeft_add_eq_or_of_lt h, Nat.shiftLeft_eq]
  ring

lemma ldiff_mask (a bits : Nat) : Nat.ldiff (2 ^ bits - 1) a = 2 ^ bits - (a % 2 ^ bits + 1) := by
  refine Nat.eq_of_testBit_eq fun i => ?_
  rw [Nat.testBit_ldiff, Nat.testBit_two_pow_sub_succ (Nat.mod_lt _ (Nat.two_pow_pos _)),
    Nat.testBit_two_pow_sub_one, Nat.testBit_mod_two_pow]
  cases h : decide (i < bits) <;> simp

/-- A mask of ones keeps the low bits of a number, also when it is negative. -/
lemma land_mask (n : Int) (bits : Nat) : Int.land n (2 ^ bits - 1) = n % 2 ^ bits := by
  have hmask : (2 : Int) ^ bits - 1 = ((2 ^ bits - 1 : Nat) : Int) := by
    rw [Nat.cast_sub Nat.one_le_two_pow]
    simp
  rw [hmask]
  cases n with
  | ofNat a =>
    have hand : a &&& (2 ^ bits - 1) = a % 2 ^ bits := Nat.and_two_pow_sub_one_eq_mod a bits
    show ((a &&& (2 ^ bits - 1) : Nat) : Int) = _
    rw [hand]
    simp
  | negSucc a =>
    have hlt : a % 2 ^ bits < 2 ^ bits := Nat.mod_lt _ (Nat.two_pow_pos _)
    show ((Nat.ldiff (2 ^ bits - 1) a : Nat) : Int) = _
    rw [ldiff_mask, Int.negSucc_emod a (by positivity), Nat.cast_sub (by omega)]
    push_cast
    ring

end BitFields
