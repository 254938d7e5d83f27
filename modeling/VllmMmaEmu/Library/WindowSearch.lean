import Mathlib.Order.Bounds.Basic
import Mathlib.Tactic.Linarith

/-!
# The longest usable prefix of a cache

Positions are cached or not. A length is usable when the last `window` positions before it
are cached (all of them when there are fewer). A search from right to left with a run counter
finds the greatest usable length; with an unbounded window it is the cached prefix.
-/

namespace WindowSearch

/-- The positions of the window that ends before `len` are cached. -/
def Usable (cached : ℕ → Prop) (window len : ℕ) : Prop :=
  ∀ j, len - window ≤ j → j < len → cached j

/-- The greatest usable length up to `bound`. -/
def IsLongest (cached : ℕ → Prop) (window bound len : ℕ) : Prop :=
  IsGreatest {l | l ≤ bound ∧ Usable cached window l} len

/-- The greatest length up to `bound` before which everything is cached. -/
def IsLongestPrefix (cached : ℕ → Prop) (bound len : ℕ) : Prop :=
  IsGreatest {l | l ≤ bound ∧ ∀ j < l, cached j} len

variable {cached cached' : ℕ → Prop} {window bound len : ℕ}

/-- A position that is not cached, or the bound, ends the prefix. -/
lemma isLongestPrefix_of_stop (hle : len ≤ bound) (hall : ∀ j < len, cached j)
    (hstop : len < bound → ¬ cached len) : IsLongestPrefix cached bound len := by
  refine ⟨⟨hle, hall⟩, ?_⟩
  rintro l ⟨hl, hcached⟩
  by_contra hlt
  exact hstop (by omega) (hcached len (by omega))

/-- Below position `i`, with `run` cached positions from `i` on. -/
def search (cached : ℕ → Prop) [DecidablePred cached] (window : ℕ) : (i run : ℕ) → ℕ
  | 0, run => run
  | i + 1, run =>
    if cached i then
      if window ≤ run + 1 then i + (run + 1) else search cached window i (run + 1)
    else search cached window i 0

/-- The run from `i` on is cached and too short, and no usable length lies beyond it. -/
structure Searching (cached : ℕ → Prop) (window bound i run : ℕ) : Prop where
  short : run < window
  le_bound : i + run ≤ bound
  run_cached : ∀ j, i ≤ j → j < i + run → cached j
  none_beyond : ∀ l, i + run < l → l ≤ bound → ¬ Usable cached window l

lemma Searching.start (hwindow : 0 < window) : Searching cached window bound bound 0 where
  short := hwindow
  le_bound := le_rfl
  run_cached := by omega
  none_beyond := by omega

lemma Searching.grow {i run : ℕ} (h : Searching cached window bound (i + 1) run)
    (hi : cached i) (hshort : run + 1 < window) : Searching cached window bound i (run + 1) where
  short := hshort
  le_bound := by
    have := h.le_bound
    omega
  run_cached := by
    intro j hlow hj
    by_cases heq : j = i
    · exact heq ▸ hi
    · exact h.run_cached j (by omega) (by omega)
  none_beyond := by
    intro l hl
    exact h.none_beyond l (by omega)

/-- A gap at `i` spoils every length whose window reaches it. -/
lemma Searching.skip {i run : ℕ} (h : Searching cached window bound (i + 1) run)
    (hi : ¬ cached i) : Searching cached window bound i 0 where
  short := by
    have := h.short
    omega
  le_bound := by
    have := h.le_bound
    omega
  run_cached := by omega
  none_beyond := by
    intro l hl hbound husable
    by_cases hfar : i + 1 + run < l
    · exact h.none_beyond l hfar hbound husable
    · have hshort := h.short
      exact hi (husable i (by omega) (by omega))

/-- The search finds the greatest usable length. -/
theorem Searching.isLongest [DecidablePred cached] {i run : ℕ}
    (h : Searching cached window bound i run) :
    IsLongest cached window bound (search cached window i run) := by
  induction i generalizing run with
  | zero =>
    have hle := h.le_bound
    refine ⟨⟨by simpa [search] using hle, fun j _ hj => ?_⟩, ?_⟩
    · exact h.run_cached j (by omega) (by simpa [search] using hj)
    · rintro l ⟨hl, husable⟩
      by_contra hlt
      exact h.none_beyond l (by simpa [search] using hlt) hl husable
  | succ i ih =>
    unfold search
    split_ifs with hcached hfull
    · have hle := h.le_bound
      have hshort := h.short
      refine ⟨⟨by omega, fun j hlow hj => ?_⟩, ?_⟩
      · by_cases heq : j = i
        · exact heq ▸ hcached
        · exact h.run_cached j (by omega) (by omega)
      · rintro l ⟨hl, husable⟩
        by_contra hlt
        exact h.none_beyond l (by omega) hl husable
    · exact ih (h.grow hcached (by omega))
    · exact ih (h.skip hcached)

/-- The greatest usable length within the prefix of another cache, whose positions are
`ratio` times finer, is the greatest length that is usable in both. -/
theorem IsLongest.within_prefix {ratio fine : ℕ} (hratio : 0 < ratio)
    (hfine : IsLongestPrefix cached' bound fine)
    (hlen : IsLongest cached window (fine / ratio) len) :
    IsGreatest {l | l * ratio ≤ bound ∧ (∀ j < l * ratio, cached' j) ∧ Usable cached window l}
      len := by
  obtain ⟨⟨hfine_le, hfine_cached⟩, hfine_max⟩ := hfine
  obtain ⟨⟨hlen_le, husable⟩, hlen_max⟩ := hlen
  have hmul : len * ratio ≤ fine := (Nat.le_div_iff_mul_le hratio).mp hlen_le
  refine ⟨⟨by omega, fun j hj => hfine_cached j (by omega), husable⟩, ?_⟩
  rintro l ⟨hl, hcached, hl_usable⟩
  have hle : l * ratio ≤ fine := hfine_max ⟨hl, hcached⟩
  exact hlen_max ⟨(Nat.le_div_iff_mul_le hratio).mpr hle, hl_usable⟩

/-- A token of the window before the end of `len` blocks lies in the block window, when the
block window is at least as long. -/
lemma token_in_window {blockSize tokens q : ℕ} (hpos : 0 < blockSize)
    (hwindow : tokens ≤ window * blockSize) (hlow : len * blockSize ≤ q + tokens)
    (hq : q < len * blockSize) : len - window ≤ q / blockSize ∧ q / blockSize < len := by
  refine ⟨?_, Nat.div_lt_of_lt_mul (by rwa [Nat.mul_comm] at hq)⟩
  rw [Nat.le_div_iff_mul_le hpos, Nat.sub_mul]
  omega

end WindowSearch
