import Mathlib.Data.List.Basic
import Mathlib.Data.List.Lex
import Mathlib.Data.Nat.Basic
import Mathlib.Tactic.Ring

/-!
# Decimal digits of a fixed width

Texts are compared character by character. Numbers that are written with the same number of
digits, zeros in front, are in the order of their texts; what follows them decides between
equal ones.
-/

namespace Digits

def digitChar (d : Nat) : Char := Char.ofNat (48 + d)

/-- The last `w` digits of `n`. -/
def digits : (w : Nat) → (n : Nat) → List Char
  | 0, _ => []
  | w + 1, n => digitChar (n / 10 ^ w % 10) :: digits w n

lemma digitChar_lt_iff {d e : Nat} (hd : d < 10) (he : e < 10) :
    digitChar d < digitChar e ↔ d < e := by
  have hall : ∀ d : Fin 10, ∀ e : Fin 10, digitChar d < digitChar e ↔ (d : Nat) < e := by decide
  exact hall ⟨d, hd⟩ ⟨e, he⟩

lemma digitChar_inj {d e : Nat} (hd : d < 10) (he : e < 10) :
    digitChar d = digitChar e ↔ d = e := by
  have hall : ∀ d : Fin 10, ∀ e : Fin 10, digitChar d = digitChar e ↔ (d : Nat) = e := by decide
  exact hall ⟨d, hd⟩ ⟨e, he⟩

/-- Texts that begin with digits are in the order of the numbers, and of what follows. -/
theorem digits_append_lt_iff {w n m : Nat} (s t : List Char) :
    digits w n ++ s < digits w m ++ t ↔
      n % 10 ^ w < m % 10 ^ w ∨ n % 10 ^ w = m % 10 ^ w ∧ s < t := by
  induction w with
  | zero => simp [digits, Nat.mod_one]
  | succ w ih =>
    have hsplit : ∀ n : Nat, n % 10 ^ (w + 1) = 10 ^ w * (n / 10 ^ w % 10) + n % 10 ^ w := by
      intro n
      rw [pow_succ, Nat.mod_mul, Nat.add_comm]
    have hn := Nat.mod_lt n (Nat.pow_pos (n := w) (show 0 < 10 by decide))
    have hm := Nat.mod_lt m (Nat.pow_pos (n := w) (show 0 < 10 by decide))
    have hd := Nat.mod_lt (n / 10 ^ w) (show 0 < 10 by decide)
    have he := Nat.mod_lt (m / 10 ^ w) (show 0 < 10 by decide)
    simp only [digits, List.cons_append, List.cons_lt_cons_iff, ih, digitChar_lt_iff hd he,
      digitChar_inj hd he, hsplit]
    generalize n / 10 ^ w % 10 = d at *
    generalize m / 10 ^ w % 10 = e at *
    generalize n % 10 ^ w = n' at *
    generalize m % 10 ^ w = m' at *
    generalize 10 ^ w = p at *
    rcases Nat.lt_trichotomy d e with hlt | rfl | hgt
    · have hmul : p * d + p ≤ p * e := by
        rw [← Nat.mul_succ]
        exact Nat.mul_le_mul_left p hlt
      constructor
      · exact fun _ => .inl (by omega)
      · exact fun _ => .inl hlt
    · simp
    · have hmul : p * e + p ≤ p * d := by
        rw [← Nat.mul_succ]
        exact Nat.mul_le_mul_left p hgt
      constructor
      · rintro (h | ⟨h, -⟩) <;> omega
      · rintro (h | ⟨h, -⟩) <;> omega

/-- The same for numbers that have all their digits. -/
lemma digits_lt_iff {w n m : Nat} (hn : n < 10 ^ w) (hm : m < 10 ^ w) (s t : List Char) :
    digits w n ++ s < digits w m ++ t ↔ n < m ∨ n = m ∧ s < t := by
  rw [digits_append_lt_iff, Nat.mod_eq_of_lt hn, Nat.mod_eq_of_lt hm]

/-- Equal texts have equal numbers in front and equal rests. -/
lemma digits_append_inj {w n m : Nat} (hn : n < 10 ^ w) (hm : m < 10 ^ w) {s t : List Char} :
    digits w n ++ s = digits w m ++ t ↔ n = m ∧ s = t := by
  constructor
  · intro h
    have hle := (digits_lt_iff hn hm s t).not.mp (h ▸ List.lt_irrefl _)
    have hge := (digits_lt_iff hm hn t s).not.mp (h ▸ List.lt_irrefl _)
    have hnm : n = m := by
      by_contra hne
      rcases Nat.lt_or_gt_of_ne hne with hlt | hgt
      · exact hle (.inl hlt)
      · exact hge (.inl hgt)
    exact ⟨hnm, List.append_cancel_left (hnm ▸ h)⟩
  · rintro ⟨rfl, rfl⟩
    rfl

end Digits
