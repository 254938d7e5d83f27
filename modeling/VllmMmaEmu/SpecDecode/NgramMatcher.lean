import VllmMmaEmu.Library.Borders
import VllmMmaEmu.Library.Python

/-!
# The n-gram matcher

`_find_longest_matched_ngram_and_propose_tokens` of `vllm/v1/spec_decode/ngram_proposer.py`:
the longest n-gram at the end of the tokens that also starts earlier, at its first start. The
tokens are flipped, so the n-gram is a prefix and its first start is the last position.
-/

namespace VllmV1

open Python Borders

/-- The local variables of the loop. -/
structure NgramScan where
  lps : List Nat
  longestNgram : Nat
  position : Nat
  prevLps : Nat
  i : Nat

namespace NgramScan

section Loop

variable {α : Type} [DecidableEq α]

def start (maxNgram : Nat) : NgramScan where
  lps := List.replicate maxNgram 0
  longestNgram := 0
  position := 0
  prevLps := 0
  i := 1

/-- `if i < max_ngram: lps[i] = prev_lps`. -/
def storeLps (maxNgram i prevLps : Nat) (lps : List Nat) : Except PyError (List Nat) :=
  if i < maxNgram then pySetItem lps i prevLps else .ok lps

/-- At the cap, fall back to an n-gram that can still grow. -/
def capLps (maxNgram prevLps : Nat) (lps : List Nat) : Except PyError Nat :=
  if prevLps = maxNgram then pyIndex lps (maxNgram - 1) else .ok prevLps

/-- One pass of the loop. -/
def step (tokens : List α) (maxNgram : Nat) (s : NgramScan) : Except PyError NgramScan := do
  let x ← pyIndex tokens s.prevLps
  let y ← pyIndex tokens s.i
  if x = y then
    let prevLps := s.prevLps + 1
    let lps ← storeLps maxNgram s.i prevLps s.lps
    let next ← capLps maxNgram prevLps lps
    .ok { lps
          longestNgram := if s.longestNgram ≤ prevLps then prevLps else s.longestNgram
          position := if s.longestNgram ≤ prevLps then s.i else s.position
          prevLps := next
          i := s.i + 1 }
  else if s.prevLps ≠ 0 then
    let prevLps ← pyIndex s.lps (s.prevLps - 1)
    .ok { s with prevLps }
  else .ok { s with i := s.i + 1 }

/-- `while i < total_token`. -/
def loop (tokens : List α) (maxNgram : Nat) : Nat → NgramScan → Except PyError NgramScan
  | 0, _ => .error .outOfFuel
  | fuel + 1, s =>
    if s.i < tokens.length then step tokens maxNgram s >>= loop tokens maxNgram fuel else .ok s

end Loop

end NgramScan

def findLongestMatchedNgramAndProposeTokens {α : Type} [DecidableEq α] (originTokens : List α)
    (minNgram maxNgram maxModelLen : Nat) (k : Int) : Except PyError (List α) := do
  let totalToken := originTokens.length
  if totalToken < minNgram then return []
  let k := min k ((maxModelLen : Int) - totalToken)
  if k ≤ 0 then return []
  let tokens := originTokens.reverse
  let s ← NgramScan.loop tokens maxNgram (2 * totalToken + 1) (NgramScan.start maxNgram)
  if s.longestNgram < minNgram then return []
  let startPosition := totalToken - 1 - s.position + s.longestNgram
  let k := min k ((totalToken : Int) - startPosition)
  return slice originTokens startPosition (startPosition + k.toNat)

example : findLongestMatchedNgramAndProposeTokens [1, 2, 3, 4, 1, 2, 3, 5, 1, 2, 3] 2 3 20 2 =
    .ok [4, 1] := by decide

namespace NgramScan

variable {α : Type} {tokens : List α} {cap : Nat} {s : NgramScan}

/-- The table holds the longest borders of the prefixes seen; the rest of it is zero. -/
structure TableOk (tokens : List α) (cap i : Nat) (lps : List Nat) : Prop where
  length : lps.length = cap
  seen : ∀ q < cap, q < i → ∃ v, lps[q]? = some v ∧ IsLongest tokens cap (q + 1) v
  unseen : ∀ q < cap, i ≤ q → lps[q]? = some 0

structure Scanned (tokens : List α) (cap : Nat) (s : NgramScan) : Prop where
  le : s.i ≤ tokens.length
  table : TableOk tokens cap s.i s.lps
  candidate : Candidate tokens cap s.i s.prevLps
  best : IsBest tokens cap s.i s.longestNgram s.position

/-- What the passes use up. -/
def left (tokens : List α) (s : NgramScan) : Nat := 2 * (tokens.length - s.i) + s.prevLps

lemma TableOk.start : TableOk tokens cap 1 (List.replicate cap 0) where
  length := List.length_replicate
  seen q hq hlt := by
    obtain rfl : q = 0 := by omega
    refine ⟨0, List.getElem?_replicate_of_lt hq, ⟨Nat.zero_le cap, recurs_zero Nat.one_pos⟩, ?_⟩
    rintro n ⟨_, hrecurs⟩
    exact Nat.lt_succ_iff.mp hrecurs.1
  unseen q hq _ := List.getElem?_replicate_of_lt hq

lemma TableOk.set {i v : Nat} {lps : List Nat} (h : TableOk tokens cap i lps) (hi : i < cap)
    (hv : IsLongest tokens cap (i + 1) v) : TableOk tokens cap (i + 1) (lps.set i v) where
  length := by rw [List.length_set, h.length]
  seen q hq hlt := by
    by_cases hqi : q = i
    · subst hqi
      exact ⟨v, List.getElem?_set_self (h.length ▸ hi), hv⟩
    · rw [List.getElem?_set_ne (Ne.symm hqi)]
      exact h.seen q hq (by omega)
  unseen q hq hle := by
    rw [List.getElem?_set_ne (by omega)]
    exact h.unseen q hq (by omega)

/-- The entry of a position without a border stays zero. -/
lemma TableOk.skip {i : Nat} {lps : List Nat} (h : TableOk tokens cap i lps)
    (hv : IsLongest tokens cap (i + 1) 0) : TableOk tokens cap (i + 1) lps where
  length := h.length
  seen q hq hlt := by
    rcases Nat.lt_succ_iff_lt_or_eq.mp hlt with hlt | rfl
    · exact h.seen q hq hlt
    · exact ⟨0, h.unseen q hq le_rfl, hv⟩
  unseen q hq hle := h.unseen q hq (by omega)

lemma TableOk.beyond {i : Nat} {lps : List Nat} (h : TableOk tokens cap i lps) (hi : cap ≤ i) :
    TableOk tokens cap (i + 1) lps where
  length := h.length
  seen q hq _ := h.seen q hq (by omega)
  unseen q hq hle := by omega

lemma TableOk.store {i v : Nat} {lps : List Nat} (h : TableOk tokens cap i lps)
    (hv : IsLongest tokens cap (i + 1) v) :
    ∃ lps', storeLps cap i v lps = .ok lps' ∧ TableOk tokens cap (i + 1) lps' := by
  unfold storeLps
  split_ifs with hi
  · exact ⟨_, pySetItem_of_lt (h.length ▸ hi) v, h.set hi hv⟩
  · exact ⟨lps, rfl, h.beyond (not_lt.mp hi)⟩

/-- The longest border, or at the cap the longest one of the capped prefix. -/
lemma TableOk.next {i v : Nat} {lps : List Nat} (h : TableOk tokens cap i lps)
    (hv : IsLongest tokens cap i v) (hpos : 0 < v) :
    ∃ w, capLps cap v lps = .ok w ∧ Candidate tokens cap i w ∧ w ≤ v := by
  unfold capLps
  split_ifs with hcap
  · subst hcap
    obtain ⟨w, hw, hborder⟩ := h.seen (v - 1) (by omega) (by have := hv.1.2.1; omega)
    rw [Nat.sub_add_cancel hpos] at hborder
    exact ⟨w, pyIndex_eq_ok.mpr hw, hv.candidate_of_cap hborder, hborder.1.1⟩
  · exact ⟨v, rfl, hv.candidate (lt_of_le_of_ne hv.1.1 hcap), le_rfl⟩

lemma Scanned.start (hcap : 0 < cap) (h : tokens ≠ []) : Scanned tokens cap (start cap) where
  le := List.length_pos_iff.mpr h
  table := TableOk.start
  candidate := Candidate.start hcap
  best := IsBest.start

variable [DecidableEq α]

lemma Scanned.agree (h : Scanned tokens cap s) (hlt : s.i < tokens.length) {x : α}
    (hx : tokens[s.prevLps]? = some x) (hy : tokens[s.i]? = some x) :
    ∃ s', step tokens cap s = .ok s' ∧ Scanned tokens cap s' ∧ left tokens s' < left tokens s := by
  have hlongest := h.candidate.extend (hx.trans hy.symm)
  have hv := h.candidate.recurs.1
  have hbest : IsBest tokens cap (s.i + 1)
      (if s.longestNgram ≤ s.prevLps + 1 then s.prevLps + 1 else s.longestNgram)
      (if s.longestNgram ≤ s.prevLps + 1 then s.i else s.position) := by
    split_ifs with hle
    · exact h.best.update hlongest hle
    · exact h.best.keep hlongest (Or.inl (by omega))
  obtain ⟨lps, hlps, htable⟩ := h.table.store hlongest
  obtain ⟨next, hnext, hcandidate, hle⟩ := htable.next hlongest (by omega)
  refine ⟨⟨lps, if s.longestNgram ≤ s.prevLps + 1 then s.prevLps + 1 else s.longestNgram,
    if s.longestNgram ≤ s.prevLps + 1 then s.i else s.position, next, s.i + 1⟩, ?_,
    ⟨hlt, htable, hcandidate, hbest⟩, ?_⟩
  · rw [step, pyIndex_eq_ok.mpr hx, pyIndex_eq_ok.mpr hy, ok_bind, ok_bind, if_pos rfl]
    dsimp only
    rw [hlps, ok_bind, hnext, ok_bind]
  · simp only [left]
    omega

/-- The tokens differ: the candidate falls back, or there is none left. -/
lemma Scanned.differ (h : Scanned tokens cap s) (hlt : s.i < tokens.length) {x y : α}
    (hx : tokens[s.prevLps]? = some x) (hy : tokens[s.i]? = some y) (hxy : x ≠ y) :
    ∃ s', step tokens cap s = .ok s' ∧ Scanned tokens cap s' ∧ left tokens s' < left tokens s := by
  have hne : tokens[s.prevLps]? ≠ tokens[s.i]? := by
    rw [hx, hy]
    exact fun heq => hxy (Option.some.inj heq)
  have hv := h.candidate.recurs.1
  have hcap := h.candidate.lt
  by_cases hzero : s.prevLps = 0
  · have hdead : IsLongest tokens cap (s.i + 1) 0 := by
      have hcandidate := h.candidate
      rw [hzero] at hcandidate hne
      exact hcandidate.dead hne
    refine ⟨{ s with i := s.i + 1 }, ?_, ⟨hlt, h.table.skip hdead, ?_,
      h.best.keep hdead (Or.inr rfl)⟩, ?_⟩
    · rw [step, pyIndex_eq_ok.mpr hx, pyIndex_eq_ok.mpr hy, ok_bind, ok_bind, if_neg hxy,
        if_neg (not_not.mpr hzero)]
    · exact hzero ▸ hdead.candidate (by omega)
    · simp only [left]
      omega
  · obtain ⟨w, hw, hborder⟩ := h.table.seen (s.prevLps - 1) (by omega) (by omega)
    rw [Nat.sub_add_cancel (Nat.one_le_iff_ne_zero.mpr hzero)] at hborder
    refine ⟨{ s with prevLps := w }, ?_, ⟨h.le, h.table, h.candidate.fall hne hborder, h.best⟩, ?_⟩
    · rw [step, pyIndex_eq_ok.mpr hx, pyIndex_eq_ok.mpr hy, ok_bind, ok_bind, if_neg hxy,
        if_pos hzero, pyIndex_eq_ok.mpr hw, ok_bind]
    · have := hborder.1.2.1
      simp only [left]
      omega

/-- A pass reads and writes within range, keeps the invariant and uses something up. -/
lemma Scanned.step (h : Scanned tokens cap s) (hlt : s.i < tokens.length) :
    ∃ s', step tokens cap s = .ok s' ∧ Scanned tokens cap s' ∧ left tokens s' < left tokens s := by
  have hv := h.candidate.recurs.1
  have hprev := hv.trans hlt
  have hx := List.getElem?_eq_getElem hprev
  have hy := List.getElem?_eq_getElem hlt
  by_cases hxy : tokens[s.prevLps] = tokens[s.i]
  · exact h.agree hlt hx (hy.trans (congrArg some hxy.symm))
  · exact h.differ hlt hx hy hxy

lemma Scanned.loop {fuel : Nat} (h : Scanned tokens cap s) (hfuel : left tokens s < fuel) :
    ∃ s', loop tokens cap fuel s = .ok s' ∧ Scanned tokens cap s' ∧ s'.i = tokens.length := by
  induction fuel generalizing s with
  | zero => exact absurd hfuel (Nat.not_lt_zero _)
  | succ fuel ih =>
    rw [NgramScan.loop]
    split_ifs with hlt
    · obtain ⟨s', hstep, hs', hleft⟩ := h.step hlt
      rw [hstep, ok_bind]
      exact ih hs' (by omega)
    · exact ⟨s, rfl, h, le_antisymm h.le (not_lt.mp hlt)⟩

end NgramScan

section Match

variable {α : Type}

/-- The last `n` tokens also start at `s`, and end earlier there. -/
def RepeatsAt (originTokens : List α) (n s : Nat) : Prop :=
  s + n < originTokens.length ∧
    slice originTokens s (s + n) = originTokens.drop (originTokens.length - n)

/-- The tokens that follow an n-gram at `s`, at most `k` and none beyond the maximal length. -/
def followers (originTokens : List α) (maxModelLen : Nat) (k : Int) (n s : Nat) : List α :=
  slice originTokens (s + n)
    (s + n + (min k ((maxModelLen : Int) - originTokens.length)).toNat)

instance [DecidableEq α] (originTokens : List α) (n s : Nat) :
    Decidable (RepeatsAt originTokens n s) :=
  inferInstanceAs (Decidable (_ ∧ _))

variable {t : List α} {n s : Nat}

lemma repeatsAt_iff_getElem : RepeatsAt t n s ↔
    s + n < t.length ∧ ∀ j < n, t[s + j]? = t[t.length - n + j]? := by
  refine and_congr_right fun hlt => ⟨fun heq j hj => ?_, fun hall => ?_⟩
  · have hget := congrArg (·[j]?) heq
    simp only [slice, List.getElem?_take, List.getElem?_drop] at hget
    rwa [if_pos (by omega)] at hget
  · refine List.ext_getElem? fun j => ?_
    simp only [slice, List.getElem?_take, List.getElem?_drop]
    split_ifs with hj
    · exact hall j (by omega)
    · exact (List.getElem?_eq_none (by omega)).symm

/-- In the flipped tokens an n-gram is a prefix, and its start is an end. -/
lemma recurs_reverse_iff : Recurs t.reverse n (t.length - s) ↔ RepeatsAt t n s := by
  rw [repeatsAt_iff_getElem]
  have hflip : ∀ i < t.length, t.reverse[i]? = t[t.length - 1 - i]? := fun i hi =>
    List.getElem?_reverse hi
  constructor
  · rintro ⟨hlt, hall⟩
    refine ⟨by omega, fun j hj => ?_⟩
    have h := hall (n - 1 - j) (by omega)
    rw [hflip _ (by omega), hflip _ (by omega)] at h
    rw [show s + j = t.length - 1 - (t.length - s - n + (n - 1 - j)) by omega, ← h]
    congr 1
    omega
  · rintro ⟨hlt, hall⟩
    refine ⟨by omega, fun j hj => ?_⟩
    rw [hflip _ (by omega), hflip _ (by omega)]
    have h := hall (n - 1 - j) (by omega)
    rw [show t.length - 1 - (t.length - s - n + j) = s + (n - 1 - j) by omega, h]
    congr 1
    omega

/-- The best border of the flipped tokens is the longest n-gram, at its first start. -/
lemma isBest_reverse {minNgram maxNgram longest position : Nat}
    (h : IsBest t.reverse maxNgram t.length longest position) (hmin : minNgram ≤ longest)
    (hpos : longest ≠ 0) :
    IsGreatest {n | minNgram ≤ n ∧ n ≤ maxNgram ∧ ∃ s, RepeatsAt t n s} longest ∧
      IsLeast {s | RepeatsAt t longest s} (t.length - 1 - position) := by
  have hlt := h.lt hpos
  have hstart : RepeatsAt t longest (t.length - 1 - position) := by
    rw [← recurs_reverse_iff, show t.length - (t.length - 1 - position) = position + 1 by omega]
    exact h.recurs hpos
  refine ⟨⟨⟨hmin, h.le, _, hstart⟩, ?_⟩, hstart, fun s hs => ?_⟩
  · rintro n ⟨_, hn, s, hs⟩
    exact h.bound n hn (t.length - s) (Nat.sub_le _ _) (recurs_reverse_iff.mpr hs)
  · have := h.last hpos (t.length - s) (Nat.sub_le _ _) (recurs_reverse_iff.mpr hs)
    omega

lemma followers_of_nonpos {maxModelLen : Nat} {k : Int} (hk : k ≤ 0) :
    followers t maxModelLen k n s = [] := by
  rw [followers, slice, Int.toNat_of_nonpos (by omega), Nat.add_zero, Nat.sub_self, List.take_zero]

lemma followers_ne_nil {maxModelLen : Nat} {k : Int} (h : RepeatsAt t n s)
    (hlen : t.length < maxModelLen) (hk : 1 ≤ k) : followers t maxModelLen k n s ≠ [] := by
  rw [← List.length_pos_iff]
  simp only [followers, slice, List.length_take, List.length_drop]
  have := h.1
  omega

/-- Cutting the count at the end of the tokens changes nothing. -/
lemma slice_cut (a : Nat) (k : Int) :
    slice t a (a + (min k ((t.length : Int) - a)).toNat) = slice t a (a + k.toNat) := by
  simp only [slice, Nat.add_sub_cancel_left]
  rw [List.take_eq_take_iff, List.length_drop]
  omega

variable [DecidableEq α]

/-- The loop ends within its fuel, with the best border. -/
lemma scan_eq_ok (maxNgram : Nat) (hmax : 0 < maxNgram) (ht : t ≠ []) :
    ∃ sc, NgramScan.loop t.reverse maxNgram (2 * t.length + 1) (NgramScan.start maxNgram) =
      .ok sc ∧ IsBest t.reverse maxNgram t.length sc.longestNgram sc.position := by
  have hstart := NgramScan.Scanned.start hmax (List.reverse_ne_nil_iff.mpr ht)
  have hfuel : NgramScan.left t.reverse (NgramScan.start maxNgram) < 2 * t.length + 1 := by
    simp only [NgramScan.left, NgramScan.start, List.length_reverse]
    omega
  obtain ⟨sc, hloop, hsc, hi⟩ := hstart.loop hfuel
  rw [List.length_reverse] at hi
  exact ⟨sc, hloop, hi ▸ hsc.best⟩

/-- What the matcher returns once there are tokens enough and room for a draft. -/
lemma findLongestMatched_of_scan {minNgram maxNgram maxModelLen : Nat} {k : Int}
    {sc : NgramScan} (hshort : minNgram ≤ t.length) (hk : 1 ≤ k) (hlen : t.length < maxModelLen)
    (hscan : NgramScan.loop t.reverse maxNgram (2 * t.length + 1) (NgramScan.start maxNgram) =
      .ok sc) :
    findLongestMatchedNgramAndProposeTokens t minNgram maxNgram maxModelLen k =
      .ok (if sc.longestNgram < minNgram then []
        else followers t maxModelLen k sc.longestNgram (t.length - 1 - sc.position)) := by
  unfold findLongestMatchedNgramAndProposeTokens
  dsimp only
  rw [if_neg (by omega), if_neg (by omega), hscan, ok_bind]
  split_ifs with hmin
  · rfl
  · rw [slice_cut]
    rfl

lemma findLongestMatched_of_no_room {minNgram maxNgram maxModelLen : Nat} {k : Int}
    (h : t.length < minNgram ∨ maxModelLen ≤ t.length ∨ k ≤ 0) :
    findLongestMatchedNgramAndProposeTokens t minNgram maxNgram maxModelLen k = .ok [] := by
  unfold findLongestMatchedNgramAndProposeTokens
  dsimp only
  split_ifs with hshort hroom
  · rfl
  · rfl
  · omega

lemma findLongestMatched_length_le (t : List α) {minNgram maxNgram : Nat} (hmin : 1 ≤ minNgram)
    (hmax : minNgram ≤ maxNgram) (maxModelLen : Nat) (k : Int) :
    ∃ d, findLongestMatchedNgramAndProposeTokens t minNgram maxNgram maxModelLen k = .ok d ∧
      d.length ≤ k.toNat := by
  by_cases hroom : t.length < minNgram ∨ maxModelLen ≤ t.length ∨ k ≤ 0
  · exact ⟨[], findLongestMatched_of_no_room hroom, Nat.zero_le _⟩
  · obtain ⟨sc, hscan, -⟩ := scan_eq_ok maxNgram (by omega)
      (List.ne_nil_of_length_pos (show 0 < t.length by omega))
    refine ⟨_, findLongestMatched_of_scan (by omega) (by omega) (by omega) hscan, ?_⟩
    split_ifs
    · exact Nat.zero_le _
    · simp only [followers, slice, List.length_take]
      omega

/-- The matcher never fails: without room or a match it proposes nothing, else what follows the
longest repeated n-gram at its first start. -/
theorem findLongestMatched_eq_ok {minNgram maxNgram maxModelLen : Nat} {k : Int}
    (hmin : 1 ≤ minNgram) (hmax : minNgram ≤ maxNgram) :
    (t.length < minNgram ∨ maxModelLen ≤ t.length ∨
        (∀ n s, minNgram ≤ n → n ≤ maxNgram → ¬ RepeatsAt t n s) →
      findLongestMatchedNgramAndProposeTokens t minNgram maxNgram maxModelLen k = .ok []) ∧
    (minNgram ≤ t.length → t.length < maxModelLen →
        (∃ n s, minNgram ≤ n ∧ n ≤ maxNgram ∧ RepeatsAt t n s) →
      ∃ n s, IsGreatest {n | minNgram ≤ n ∧ n ≤ maxNgram ∧ ∃ s, RepeatsAt t n s} n ∧
        IsLeast {s | RepeatsAt t n s} s ∧
        findLongestMatchedNgramAndProposeTokens t minNgram maxNgram maxModelLen k =
          .ok (followers t maxModelLen k n s) ∧
        (1 ≤ k → followers t maxModelLen k n s ≠ [])) := by
  constructor
  · intro hno
    by_cases hroom : t.length < minNgram ∨ maxModelLen ≤ t.length ∨ k ≤ 0
    · exact findLongestMatched_of_no_room hroom
    · have hnone : ∀ n s, minNgram ≤ n → n ≤ maxNgram → ¬ RepeatsAt t n s := by
        rcases hno with h | h | h
        · exact absurd (Or.inl h) hroom
        · exact absurd (Or.inr (Or.inl h)) hroom
        · exact h
      obtain ⟨sc, hscan, hbest⟩ := scan_eq_ok maxNgram (by omega)
        (List.ne_nil_of_length_pos (show 0 < t.length by omega))
      rw [findLongestMatched_of_scan (by omega) (by omega) (by omega) hscan, if_pos]
      by_contra hle
      obtain ⟨⟨⟨hlow, hhigh, s, hs⟩, -⟩, -⟩ :=
        isBest_reverse hbest (not_lt.mp hle) (by omega)
      exact hnone _ s hlow hhigh hs
  · rintro hshort hlen ⟨m, r, hm, hm', hr⟩
    obtain ⟨sc, hscan, hbest⟩ := scan_eq_ok maxNgram (by omega)
      (List.ne_nil_of_length_pos (show 0 < t.length by omega))
    have hle : minNgram ≤ sc.longestNgram := hm.trans
      (hbest.bound m hm' (t.length - r) (Nat.sub_le _ _) (recurs_reverse_iff.mpr hr))
    obtain ⟨hgreatest, hleast⟩ := isBest_reverse hbest hle (by omega)
    refine ⟨_, _, hgreatest, hleast, ?_, followers_ne_nil hleast.1 hlen⟩
    by_cases hk : k ≤ 0
    · rw [findLongestMatched_of_no_room (Or.inr (Or.inr hk)), followers_of_nonpos hk]
    · rw [findLongestMatched_of_scan hshort (by omega) hlen hscan, if_neg (not_lt.mpr hle)]

/-- Three tokens repeat; the first of the two places gives the draft. -/
theorem findLongestMatched_eq_ok_repeat :
    ∃ n s, IsGreatest {n | 2 ≤ n ∧ n ≤ 3 ∧ ∃ s, RepeatsAt [1, 2, 3, 4, 1, 2, 3, 5, 1, 2, 3] n s} n ∧
      IsLeast {s | RepeatsAt [1, 2, 3, 4, 1, 2, 3, 5, 1, 2, 3] n s} s ∧
      findLongestMatchedNgramAndProposeTokens [1, 2, 3, 4, 1, 2, 3, 5, 1, 2, 3] 2 3 20 2 =
        .ok (followers [1, 2, 3, 4, 1, 2, 3, 5, 1, 2, 3] 20 2 n s) ∧
      (1 ≤ (2 : Int) → followers [1, 2, 3, 4, 1, 2, 3, 5, 1, 2, 3] 20 2 n s ≠ []) :=
  (findLongestMatched_eq_ok (by decide) (by decide)).2 (by decide) (by decide)
    ⟨3, 0, by decide, by decide, by decide⟩

end Match

end VllmV1
