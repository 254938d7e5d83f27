import Mathlib.Data.List.Count
import Mathlib.Tactic.Linarith
import VllmMmaEmu.Engine.BlockHash

/-!
# Hashing block by block against hashing from scratch

A request hashes its prompt when it is built and every further block when output tokens
complete it. Both paths chain the same hashes; they can differ only in the multimodal
keys of the block in which the prompt ends, because a later call starts its cursor at the
last feature.
-/

namespace VllmV1

open Python

/-- Positions sorted and not overlapping, all inside a prompt of `numPromptTokens`. -/
structure WellPlaced (numPromptTokens : Nat) (features : List MultiModalFeatureSpec) : Prop where
  sorted : features.Pairwise fun f g => f.mmPosition.stop ≤ g.mmPosition.offset
  inside : ∀ f ∈ features, f.mmPosition.stop ≤ numPromptTokens

/-- The feature is not over at position `s`: it ends after `s` or starts at `s` or later. -/
def Reaches (s : Nat) (f : MultiModalFeatureSpec) : Prop :=
  s ≤ f.mmPosition.offset ∨ s < f.mmPosition.stop

instance (s : Nat) : DecidablePred (Reaches s) :=
  fun f => inferInstanceAs (Decidable (s ≤ f.mmPosition.offset ∨ s < f.mmPosition.stop))

lemma offset_le_stop (f : MultiModalFeatureSpec) : f.mmPosition.offset ≤ f.mmPosition.stop :=
  Nat.le_add_right _ _

section Features

variable {features : List MultiModalFeatureSpec}

/-- The keys the cursor of a hashing from scratch gives for `[s, e)`. -/
def freshKeys (features : List MultiModalFeatureSpec) (s e : Nat) : List ExtraKey :=
  (features.filter fun f => Reaches s f ∧ f.mmPosition.offset < e).map fun f => .str f.identifier

/-- The keys a cursor at the last feature gives for a block from `s` past the prompt. -/
def lastFeatureKeys (features : List MultiModalFeatureSpec) (s : Nat) : List ExtraKey :=
  match features.getLast? with
  | none => []
  | some last => if last.mmPosition.stop < s then [] else [.str last.identifier]

/-- How many features are over at `s`: where a cursor that has seen all blocks before `s` is. -/
def cursorAt (features : List MultiModalFeatureSpec) (s : Nat) : Nat :=
  features.countP fun f => ¬ Reaches s f

lemma mmExtraHashKeysLoop_eq (s e : Nat) (hse : s ≤ e)
    (hs : features.Pairwise fun f g => f.mmPosition.stop ≤ g.mmPosition.offset) (c : Int) :
    mmExtraHashKeysLoop s e features c =
      ((features.filter fun f => s ≤ f.mmPosition.stop ∧ f.mmPosition.offset < e).map
        fun f => .str f.identifier, c + cursorAt features e) := by
  induction features generalizing c with
  | nil => simp [mmExtraHashKeysLoop, cursorAt]
  | cons f rest ih =>
    obtain ⟨hf, hrest⟩ := List.pairwise_cons.mp hs
    have hle := offset_le_stop f
    -- features after one that is not over at `e` have not begun at `e`
    have hlater : e ≤ f.mmPosition.stop → (rest.filter fun g => s ≤ g.mmPosition.stop ∧
        g.mmPosition.offset < e) = [] ∧ cursorAt rest e = 0 := by
      intro he
      constructor
      · rw [List.filter_eq_nil_iff]
        intro g hg
        have := hf g hg
        simp
        omega
      · rw [cursorAt, List.countP_eq_zero]
        intro g hg
        have hg' : Reaches e g := Or.inl (he.trans (hf g hg))
        simp [hg']
    by_cases ho : f.mmPosition.offset < e
    · by_cases hp : f.mmPosition.stop < s
      · have hr : ¬ Reaches e f := by unfold Reaches; omega
        simp [mmExtraHashKeysLoop, ho, hp, ih hrest, cursorAt, hr, not_le_of_gt hp]
        omega
      · by_cases hend : f.mmPosition.stop ≤ e
        · have hr : ¬ Reaches e f := by unfold Reaches; omega
          simp [mmExtraHashKeysLoop, ho, hp, hend, ih hrest, cursorAt, hr, le_of_not_gt hp]
          omega
        · have hr : Reaches e f := Or.inr (lt_of_not_ge hend)
          obtain ⟨hnil, hzero⟩ := hlater (by omega)
          have hcur : cursorAt (f :: rest) e = 0 := by
            simpa [cursorAt, hr] using hzero
          simp [mmExtraHashKeysLoop, ho, hp, hend, le_of_not_gt hp, hcur]
          simpa using hnil
    · have hr : Reaches e f := Or.inl (le_of_not_gt ho)
      obtain ⟨hnil, hzero⟩ := hlater (by omega)
      have hcur : cursorAt (f :: rest) e = 0 := by
        simpa [cursorAt, hr] using hzero
      simp [mmExtraHashKeysLoop, ho, hcur]
      simpa using hnil

lemma Reaches.anti {s e : Nat} {f : MultiModalFeatureSpec} (hse : s ≤ e) (h : Reaches e f) :
    Reaches s f := by
  unfold Reaches at *
  omega

lemma Reaches.le_stop {s : Nat} {f : MultiModalFeatureSpec} (h : Reaches s f) :
    s ≤ f.mmPosition.stop := by
  rcases h with h | h
  · exact h.trans (offset_le_stop f)
  · exact h.le

lemma cursorAt_filter_reaches (features : List MultiModalFeatureSpec) {s e : Nat} (hse : s ≤ e) :
    cursorAt features s + cursorAt (features.filter fun f => Reaches s f) e =
      cursorAt features e := by
  induction features with
  | nil => rfl
  | cons f rest ih =>
    by_cases hs : Reaches s f
    · by_cases he : Reaches e f
      · simpa [cursorAt, hs, he] using ih
      · simp only [cursorAt, hs, he, List.filter_cons_of_pos, List.countP_cons_of_pos,
          List.countP_cons_of_neg, not_true_eq_false, not_false_eq_true, decide_true,
          decide_false, Bool.false_eq_true] at *
        omega
    · have he : ¬ Reaches e f := fun h => hs (h.anti hse)
      simp only [cursorAt, hs, he, List.filter_cons_of_neg, List.countP_cons_of_pos,
        not_false_eq_true, decide_true, decide_false, Bool.false_eq_true] at *
      omega

lemma drop_cursorAt (s : Nat)
    (hs : features.Pairwise fun f g => f.mmPosition.stop ≤ g.mmPosition.offset) :
    features.drop (cursorAt features s) = features.filter fun f => Reaches s f := by
  induction features with
  | nil => simp
  | cons f rest ih =>
    obtain ⟨hf, hrest⟩ := List.pairwise_cons.mp hs
    by_cases hr : Reaches s f
    · have hall : ∀ g ∈ rest, Reaches s g := by
        intro g hg
        have := hf g hg
        have := offset_le_stop f
        rcases hr with h | h <;> exact Or.inl (by omega)
      have hzero : cursorAt (f :: rest) s = 0 := by
        simpa [cursorAt, hr] using hall
      rw [hzero, List.drop_zero, eq_comm, List.filter_eq_self]
      intro g hg
      rcases List.mem_cons.mp hg with rfl | hg
      · simpa using hr
      · simpa using hall g hg
    · have hsucc : cursorAt (f :: rest) s = cursorAt rest s + 1 := by
        simp [cursorAt, hr]
      rw [hsucc, List.drop_succ_cons, ih hrest, List.filter_cons_of_neg (by simpa using hr)]

lemma stop_le_getLast {last f : MultiModalFeatureSpec}
    (hs : features.Pairwise fun f g => f.mmPosition.stop ≤ g.mmPosition.offset)
    (hl : features.getLast? = some last) (hf : f ∈ features) :
    f.mmPosition.stop ≤ last.mmPosition.stop := by
  obtain ⟨init, rfl⟩ := List.getLast?_eq_some_iff.mp hl
  rcases List.mem_append.mp hf with hf | hf
  · have := (List.pairwise_append.mp hs).2.2 f hf last (by simp)
    exact this.trans (offset_le_stop last)
  · rw [List.mem_singleton.mp hf]

end Features

section Keys

variable {request : Request}

/-- Every feature is over before position `s`. -/
def AllOver (features : List MultiModalFeatureSpec) (s : Nat) : Prop :=
  ∀ f ∈ features, f.mmPosition.stop < s

lemma AllOver.mono {features : List MultiModalFeatureSpec} {s e : Nat}
    (h : AllOver features s) (hse : s ≤ e) : AllOver features e :=
  fun f hf => (h f hf).trans_le hse

lemma freshKeys_eq_nil {features : List MultiModalFeatureSpec} {s e : Nat}
    (h : AllOver features s) : freshKeys features s e = [] := by
  rw [freshKeys, List.map_eq_nil_iff, List.filter_eq_nil_iff]
  intro f hf
  have hr : ¬ Reaches s f := fun hr => absurd hr.le_stop (not_le_of_gt (h f hf))
  simp [hr]

lemma genMmExtraHashKeys_allOver {s e : Nat} (h : AllOver request.mmFeatures s) (c : Int) :
    genMmExtraHashKeys request s e c = .ok ([], c) := by
  unfold genMmExtraHashKeys
  cases hl : request.mmFeatures.getLast? with
  | none => rfl
  | some last => simp [h last (List.mem_of_getLast? hl)]

/-- The cursor a hashing from scratch has at position `s`. -/
def CursorOk (features : List MultiModalFeatureSpec) (s : Nat) (c : Int) : Prop :=
  c = cursorAt features s ∨ AllOver features s

lemma genMmExtraHashKeys_fresh {s e : Nat} {c : Int} {p : Nat}
    (hw : WellPlaced p request.mmFeatures) (hse : s ≤ e)
    (hc : CursorOk request.mmFeatures s c) :
    ∃ c', genMmExtraHashKeys request s e c = .ok (freshKeys request.mmFeatures s e, c') ∧
      CursorOk request.mmFeatures e c' := by
  by_cases hover : AllOver request.mmFeatures s
  · refine ⟨c, ?_, Or.inr (hover.mono hse)⟩
    rw [genMmExtraHashKeys_allOver hover, freshKeys_eq_nil hover]
  · have hcur : c = cursorAt request.mmFeatures s := hc.resolve_right hover
    cases hl : request.mmFeatures.getLast? with
    | none =>
      rw [List.getLast?_eq_none_iff] at hl
      exact absurd (by simp [AllOver, hl]) hover
    | some last =>
      have hlast : ¬ last.mmPosition.stop < s := by
        intro hlt
        exact hover fun f hf => (stop_le_getLast hw.sorted hl hf).trans_lt hlt
      have hdrop := drop_cursorAt s hw.sorted
      have hsorted := hw.sorted.sublist (List.drop_sublist (cursorAt request.mmFeatures s) _)
      have hkeys : (((request.mmFeatures.drop (cursorAt request.mmFeatures s)).filter fun f =>
          s ≤ f.mmPosition.stop ∧ f.mmPosition.offset < e).map
            fun f => ExtraKey.str f.identifier) = freshKeys request.mmFeatures s e := by
        rw [hdrop, List.filter_filter, freshKeys]
        congr 1
        apply List.filter_congr
        intro f _
        have hstop : Reaches s f → s ≤ f.mmPosition.stop := Reaches.le_stop
        by_cases hr : Reaches s f
        · simp [hr, hstop hr]
        · simp [hr]
      have hnext := cursorAt_filter_reaches request.mmFeatures hse
      refine ⟨cursorAt request.mmFeatures e, ?_, Or.inl rfl⟩
      have hneg : ¬ (cursorAt request.mmFeatures s : Int) < 0 := by omega
      unfold genMmExtraHashKeys
      rw [hl, hcur]
      simp only [hlast, hneg, if_false, pure_eq, ok_bind]
      rw [Int.toNat_natCast, mmExtraHashKeysLoop_eq s e hse hsorted, hkeys, hdrop, ← hnext]
      rfl

lemma genMmExtraHashKeys_last {s e p : Nat} (hw : WellPlaced p request.mmFeatures)
    (hpe : p < e) :
    ∃ c', genMmExtraHashKeys request s e (-1) = .ok (lastFeatureKeys request.mmFeatures s, c') := by
  unfold genMmExtraHashKeys lastFeatureKeys
  cases hl : request.mmFeatures.getLast? with
  | none => exact ⟨-1, rfl⟩
  | some last =>
    by_cases hlast : last.mmPosition.stop < s
    · exact ⟨-1, by simp [hlast]⟩
    · obtain ⟨init, hinit⟩ := List.getLast?_eq_some_iff.mp hl
      have hin := hw.inside last (List.mem_of_getLast? hl)
      have hle := offset_le_stop last
      have hoff : e > last.mmPosition.offset := by omega
      have hend : e ≥ last.mmPosition.stop := by omega
      refine ⟨init.length + 1, ?_⟩
      simp [hinit, hlast, pyAssert, mmExtraHashKeysLoop, hoff, hend]

end Keys

section Chain

variable {cfg : HashConfig} {tokens : List Int}

/-- The hashes of `n` blocks from block `k` on, with the extra keys given for each block. -/
def hashChain (cfg : HashConfig) (tokens : List Int) (keys : Nat → Option (List ExtraKey)) :
    Option BlockHash → (k n : Nat) → List BlockHash
  | _, _, 0 => []
  | prev, k, n + 1 =>
    let blockHash := hashBlockTokens cfg prev
      (slice tokens (k * cfg.blockSize) ((k + 1) * cfg.blockSize)) (keys k)
    blockHash :: hashChain cfg tokens keys (some blockHash) (k + 1) n

variable {keys keys' : Nat → Option (List ExtraKey)} {prev : Option BlockHash}

@[simp] lemma hashChain_length (k n : Nat) :
    (hashChain cfg tokens keys prev k n).length = n := by
  induction n generalizing prev k with
  | zero => rfl
  | succ n ih => simp [hashChain, ih]

lemma hashChain_add (k m n : Nat) :
    hashChain cfg tokens keys prev k (m + n) =
      hashChain cfg tokens keys prev k m ++
        hashChain cfg tokens keys ((hashChain cfg tokens keys prev k m).getLast?.or prev)
          (k + m) n := by
  induction m generalizing prev k with
  | zero => simp [hashChain]
  | succ m ih =>
    rw [Nat.succ_add, hashChain, hashChain, ih]
    simp only [List.cons_append, List.getLast?_cons, Nat.add_assoc, Nat.add_comm 1 m]
    congr 3
    cases (hashChain cfg tokens keys _ (k + 1) m).getLast? with
    | none => rfl
    | some h => rfl

lemma hashChain_congr {k n : Nat} (h : ∀ j, k ≤ j → j < k + n → keys j = keys' j) :
    hashChain cfg tokens keys prev k n = hashChain cfg tokens keys' prev k n := by
  induction n generalizing prev k with
  | zero => rfl
  | succ n ih =>
    rw [hashChain, hashChain, h k le_rfl (by omega)]
    rw [ih fun j hj hlt => h j (by omega) (by omega)]

lemma hashChain_append_tokens {k n : Nat} (more : List Int)
    (h : (k + n) * cfg.blockSize ≤ tokens.length) :
    hashChain cfg (tokens ++ more) keys prev k n = hashChain cfg tokens keys prev k n := by
  induction n generalizing prev k with
  | zero => rfl
  | succ n ih =>
    have hk : (k + 1) * cfg.blockSize ≤ tokens.length :=
      (Nat.mul_le_mul_right _ (by omega)).trans h
    rw [hashChain, hashChain, slice_append_left _ _ hk]
    rw [ih (by rw [Nat.add_right_comm]; exact h)]

lemma hashChain_injective (hinj : Function.Injective cfg.cachingHashFn) {k n : Nat}
    (h : hashChain cfg tokens keys prev k n = hashChain cfg tokens keys' prev k n)
    {j : Nat} (hk : k ≤ j) (hj : j < k + n) : keys j = keys' j := by
  induction n generalizing prev k with
  | zero => omega
  | succ n ih =>
    rw [hashChain, hashChain, List.cons.injEq] at h
    obtain ⟨hhead, htail⟩ := h
    rcases Nat.eq_or_lt_of_le hk with rfl | hlt
    · have hinput := hinj hhead
      simpa using hinput
    · rw [← hhead] at htail
      exact ih htail (by omega) (by omega)

end Chain

section Hasher

variable {cfg : HashConfig} {request : Request} {p : Nat}

/-- The extra keys of block `k` when its multimodal keys are `mm k`. -/
def blockExtraKeys (request : Request) (blockSize : Nat) (mm : Nat → List ExtraKey) (k : Nat) :
    Option (List ExtraKey) :=
  extraKeysTuple (genLoraExtraHashKeys request ++ mm k ++ cacheSaltKeys request (k * blockSize))

/-- The loop returns the chain of the keys `mm`, for any invariant `I` of the cursor
that gives `mm` at every block. -/
lemma requestBlockHasherLoop_eq (hbs : 0 < cfg.blockSize) (I : Nat → Int → Prop)
    (mm : Nat → List ExtraKey)
    (step : ∀ k c, I k c → ∃ c', genMmExtraHashKeys request (k * cfg.blockSize)
      ((k + 1) * cfg.blockSize) c = .ok (mm k, c') ∧ I (k + 1) c')
    (prev : Option BlockHash) {fuel k : Nat} {c : Int} (hI : I k c)
    (hfuel : request.numTokens / cfg.blockSize - k < fuel) :
    requestBlockHasherLoop cfg request fuel (k * cfg.blockSize) c prev =
      .ok (hashChain cfg request.allTokenIds (blockExtraKeys request cfg.blockSize mm) prev k
        (request.numTokens / cfg.blockSize - k)) := by
  induction fuel generalizing k c prev with
  | zero => exact absurd hfuel (Nat.not_lt_zero _)
  | succ fuel ih =>
    have hmul : k * cfg.blockSize + cfg.blockSize = (k + 1) * cfg.blockSize :=
      (Nat.succ_mul k cfg.blockSize).symm
    rw [requestBlockHasherLoop, hmul]
    by_cases hfull : (k + 1) * cfg.blockSize > request.numTokens
    · have hlt : request.numTokens / cfg.blockSize < k + 1 :=
        (Nat.div_lt_iff_lt_mul hbs).mpr hfull
      have hzero : request.numTokens / cfg.blockSize - k = 0 := by omega
      simp [hfull, hzero, hashChain]
    · have hle : k + 1 ≤ request.numTokens / cfg.blockSize :=
        (Nat.le_div_iff_mul_le hbs).mpr (by omega)
      obtain ⟨c', hkeys, hI'⟩ := step k c hI
      have hsucc : request.numTokens / cfg.blockSize - k =
        (request.numTokens / cfg.blockSize - (k + 1)) + 1 := by omega
      simp only [hfull, if_false, generateBlockHashExtraKeys, hkeys, ok_bind, pure_eq]
      rw [ih _ hI' (by omega), hsucc]
      rfl

/-- The multimodal keys of a request that hashed its prompt of `p` tokens first: those of
a hashing from scratch, except at the block in which the prompt ends. -/
def pathKeys (features : List MultiModalFeatureSpec) (blockSize p k : Nat) : List ExtraKey :=
  if k = p / blockSize ∧ 0 < p / blockSize then lastFeatureKeys features (k * blockSize)
  else freshKeys features (k * blockSize) ((k + 1) * blockSize)

lemma cursorAt_zero (features : List MultiModalFeatureSpec) : cursorAt features 0 = 0 := by
  rw [cursorAt, List.countP_eq_zero]
  intro f _
  have hr : Reaches 0 f := Or.inl (Nat.zero_le _)
  simp [hr]

lemma div_fuel (request : Request) (b k : Nat) :
    request.numTokens / b - k < request.numTokens + 1 := by
  have := Nat.div_le_self request.numTokens b
  omega

lemma requestBlockHasher_fresh (hbs : 0 < cfg.blockSize) (hw : WellPlaced p request.mmFeatures)
    (hnone : request.blockHashes = []) :
    requestBlockHasher cfg request = .ok (hashChain cfg request.allTokenIds
      (blockExtraKeys request cfg.blockSize fun k => freshKeys request.mmFeatures
        (k * cfg.blockSize) ((k + 1) * cfg.blockSize)) none 0
      (request.numTokens / cfg.blockSize)) := by
  have hloop := requestBlockHasherLoop_eq hbs
    (fun k c => CursorOk request.mmFeatures (k * cfg.blockSize) c)
    (fun k => freshKeys request.mmFeatures (k * cfg.blockSize) ((k + 1) * cfg.blockSize))
    (fun k c hc => genMmExtraHashKeys_fresh hw (Nat.mul_le_mul_right _ (Nat.le_succ k)) hc)
    none (k := 0) (c := 0) (Or.inl (by simp [cursorAt_zero]))
    (div_fuel request cfg.blockSize 0)
  simpa [requestBlockHasher, hnone] using hloop

/-- Every feature is over at a block after the one in which the prompt ends. -/
lemma WellPlaced.allOver {features : List MultiModalFeatureSpec} {b k : Nat}
    (hw : WellPlaced p features) (hb : 0 < b) (hk : p / b < k) : AllOver features (k * b) :=
  fun f hf => (hw.inside f hf).trans_lt ((Nat.div_lt_iff_lt_mul hb).mp hk)

lemma requestBlockHasher_incremental (hbs : 0 < cfg.blockSize)
    (hw : WellPlaced p request.mmFeatures) (hsome : 0 < request.blockHashes.length)
    (hprompt : p / cfg.blockSize ≤ request.blockHashes.length) :
    requestBlockHasher cfg request = .ok (hashChain cfg request.allTokenIds
      (blockExtraKeys request cfg.blockSize (pathKeys request.mmFeatures cfg.blockSize p))
      request.blockHashes.getLast? request.blockHashes.length
      (request.numTokens / cfg.blockSize - request.blockHashes.length)) := by
  have hstart : 0 < request.blockHashes.length * cfg.blockSize := Nat.mul_pos hsome hbs
  -- the cursor matters at the block of the prompt's end only; later blocks have no keys
  have hloop := requestBlockHasherLoop_eq hbs
    (fun k c => 0 < k ∧ p / cfg.blockSize ≤ k ∧ (k = p / cfg.blockSize → c = -1))
    (pathKeys request.mmFeatures cfg.blockSize p)
    (by
      rintro k c ⟨hpos, hle, hc⟩
      rcases Nat.eq_or_lt_of_le hle with heq | hlt
      · obtain ⟨c', hkeys⟩ := genMmExtraHashKeys_last (s := k * cfg.blockSize)
          (e := (k + 1) * cfg.blockSize) hw
          ((Nat.div_lt_iff_lt_mul hbs).mp (by omega))
        refine ⟨c', ?_, by omega, by omega, by omega⟩
        rw [hc heq.symm, hkeys, pathKeys, if_pos ⟨heq.symm, by omega⟩]
      · have hover := hw.allOver hbs hlt
        refine ⟨c, ?_, by omega, by omega, by omega⟩
        rw [genMmExtraHashKeys_allOver hover, pathKeys, if_neg (by omega),
          freshKeys_eq_nil hover])
    request.blockHashes.getLast? (c := -1)
    ⟨hsome, hprompt, fun _ => rfl⟩ (div_fuel request cfg.blockSize _)
  simpa [requestBlockHasher, hstart] using hloop

lemma pathKeys_of_short {features : List MultiModalFeatureSpec} {b : Nat} (h : p / b = 0) :
    pathKeys features b p = fun k => freshKeys features (k * b) ((k + 1) * b) :=
  funext fun _ => if_neg (by omega)

lemma requestBlockHasher_eq (hbs : 0 < cfg.blockSize) (hw : WellPlaced p request.mmFeatures)
    (hprompt : p / cfg.blockSize ≤ request.blockHashes.length) :
    requestBlockHasher cfg request = .ok (hashChain cfg request.allTokenIds
      (blockExtraKeys request cfg.blockSize (pathKeys request.mmFeatures cfg.blockSize p))
      request.blockHashes.getLast? request.blockHashes.length
      (request.numTokens / cfg.blockSize - request.blockHashes.length)) := by
  rcases Nat.eq_zero_or_pos request.blockHashes.length with hzero | hpos
  · have hnil : request.blockHashes = [] := List.length_eq_zero_iff.mp hzero
    have hshort : p / cfg.blockSize = 0 := Nat.le_zero.mp (hzero ▸ hprompt)
    rw [requestBlockHasher_fresh hbs hw hnil, pathKeys_of_short hshort, hnil]
    rfl
  · exact requestBlockHasher_incremental hbs hw hpos hprompt

/-- The hashes of the first `n` blocks of a request of `p` prompt tokens. -/
def pathChain (cfg : HashConfig) (p : Nat) (r : Request) (n : Nat) : List BlockHash :=
  hashChain cfg r.allTokenIds
    (blockExtraKeys r cfg.blockSize (pathKeys r.mmFeatures cfg.blockSize p)) none 0 n

lemma extendBlockHashes_eq {r : Request} {k : Nat} (hbs : 0 < cfg.blockSize)
    (hw : WellPlaced p r.mmFeatures) (hk : r.blockHashes = pathChain cfg p r k)
    (hprompt : p / cfg.blockSize ≤ k) (hle : k ≤ r.numTokens / cfg.blockSize) :
    r.extendBlockHashes (some (requestBlockHasher cfg)) =
      .ok { r with blockHashes := pathChain cfg p r (r.numTokens / cfg.blockSize) } := by
  have hlen : r.blockHashes.length = k := by rw [hk, pathChain, hashChain_length]
  have hsum : r.numTokens / cfg.blockSize = k + (r.numTokens / cfg.blockSize - k) := by omega
  have hsplit : pathChain cfg p r (r.numTokens / cfg.blockSize) = r.blockHashes ++
      hashChain cfg r.allTokenIds
        (blockExtraKeys r cfg.blockSize (pathKeys r.mmFeatures cfg.blockSize p))
        r.blockHashes.getLast? r.blockHashes.length
        (r.numTokens / cfg.blockSize - r.blockHashes.length) := by
    rw [hlen, hk, pathChain, hsum, hashChain_add, ← pathChain, Option.or_none, Nat.zero_add]
    rw [Nat.add_sub_cancel_left]
  have hnew := requestBlockHasher_eq hbs hw (hlen ▸ hprompt)
  simp only [Request.extendBlockHashes, hnew, ok_bind, pure_eq, hsplit]

/-- A request of `p` prompt tokens whose hashes are those of all its full blocks. -/
structure Hashed (cfg : HashConfig) (p : Nat) (r : Request) : Prop where
  placed : WellPlaced p r.mmFeatures
  prompt_le : p ≤ r.numTokens
  hashes : r.blockHashes = pathChain cfg p r (r.numTokens / cfg.blockSize)

lemma appendOutputTokenIds_hashed {r : Request} (hbs : 0 < cfg.blockSize)
    (h : Hashed cfg p r) (tokenIds : List Int) :
    ∃ r', r.appendOutputTokenIds (some (requestBlockHasher cfg)) tokenIds = .ok r' ∧
      Hashed cfg p r' ∧ r'.allTokenIds = r.allTokenIds ++ tokenIds ∧
      r'.mmFeatures = r.mmFeatures ∧ r'.loraRequest = r.loraRequest ∧
      r'.cacheSalt = r.cacheSalt := by
  have hgrow : r.numTokens ≤ (r.addOutput tokenIds).numTokens := by simp [Request.numTokens]
  have hfull : (0 + r.numTokens / cfg.blockSize) * cfg.blockSize ≤ r.allTokenIds.length := by
    rw [Nat.zero_add]
    exact Nat.div_mul_le_self _ _
  have hk : (r.addOutput tokenIds).blockHashes =
      pathChain cfg p (r.addOutput tokenIds) (r.numTokens / cfg.blockSize) := by
    rw [Request.addOutput_blockHashes, h.hashes]
    exact (hashChain_append_tokens tokenIds hfull).symm
  have hnew := extendBlockHashes_eq (r := r.addOutput tokenIds) hbs h.placed hk
    (Nat.div_le_div_right h.prompt_le)
    (Nat.div_le_div_right hgrow)
  exact ⟨_, hnew, ⟨h.placed, h.prompt_le.trans hgrow, rfl⟩, rfl, rfl, rfl, rfl⟩

lemma foldlM_appendOutputTokenIds_hashed (hbs : 0 < cfg.blockSize) (chunks : List (List Int))
    {r : Request} (h : Hashed cfg p r) :
    ∃ r', chunks.foldlM (Request.appendOutputTokenIds (some (requestBlockHasher cfg))) r =
        .ok r' ∧ Hashed cfg p r' ∧ r'.allTokenIds = r.allTokenIds ++ chunks.flatten ∧
      r'.mmFeatures = r.mmFeatures ∧ r'.loraRequest = r.loraRequest ∧
      r'.cacheSalt = r.cacheSalt := by
  induction chunks generalizing r with
  | nil => exact ⟨r, rfl, h, by simp, rfl, rfl, rfl⟩
  | cons chunk chunks ih =>
    obtain ⟨r₁, hstep, h₁, ht₁, hm₁, hl₁, hs₁⟩ := appendOutputTokenIds_hashed hbs h chunk
    obtain ⟨r₂, hrun, h₂, ht₂, hm₂, hl₂, hs₂⟩ := ih h₁
    refine ⟨r₂, ?_, h₂, ?_, hm₂.trans hm₁, hl₂.trans hl₁, hs₂.trans hs₁⟩
    · rw [List.foldlM_cons, hstep, ok_bind, hrun]
    · rw [ht₂, ht₁, List.flatten_cons, List.append_assoc]

/-- The hashes of the first `n` blocks as a hashing from scratch gives them. -/
def freshChain (cfg : HashConfig) (r : Request) (n : Nat) : List BlockHash :=
  hashChain cfg r.allTokenIds (blockExtraKeys r cfg.blockSize fun k =>
    freshKeys r.mmFeatures (k * cfg.blockSize) ((k + 1) * cfg.blockSize)) none 0 n

lemma pathChain_eq_freshChain {r : Request} {n : Nat}
    (h : ∀ k < n, pathKeys r.mmFeatures cfg.blockSize p k =
      freshKeys r.mmFeatures (k * cfg.blockSize) ((k + 1) * cfg.blockSize)) :
    pathChain cfg p r n = freshChain cfg r n := by
  apply hashChain_congr
  intro k _ hk
  simp only [blockExtraKeys, h k (by omega)]

lemma init_hashes {e : EngineCoreRequest} (hbs : 0 < cfg.blockSize)
    (hvalid : (Request.initParams e).isOk)
    (hw : WellPlaced e.prompt.allTokenIds.length e.mmFeatures) :
    ∃ r, Request.init (some (requestBlockHasher cfg)) e = .ok r ∧
      r.blockHashes = freshChain cfg r (r.numTokens / cfg.blockSize) ∧
      r.allTokenIds = e.prompt.allTokenIds ∧ r.mmFeatures = e.mmFeatures ∧
      r.loraRequest = e.loraRequest ∧ r.cacheSalt = e.cacheSalt := by
  cases hparams : Request.initParams e with
  | error err => simp [hparams, Except.isOk, Except.toBool] at hvalid
  | ok params =>
    obtain ⟨status, structured, maxTokens⟩ := params
    simp only [Request.init, hparams, ok_bind, Request.extendBlockHashes]
    rw [requestBlockHasher_fresh hbs hw rfl]
    exact ⟨_, rfl, rfl, rfl, rfl, rfl, rfl⟩

lemma init_hashed {e : EngineCoreRequest} (hbs : 0 < cfg.blockSize)
    (hvalid : (Request.initParams e).isOk)
    (hw : WellPlaced e.prompt.allTokenIds.length e.mmFeatures) :
    ∃ r, Request.init (some (requestBlockHasher cfg)) e = .ok r ∧
      Hashed cfg e.prompt.allTokenIds.length r ∧
      r.allTokenIds = e.prompt.allTokenIds ∧ r.mmFeatures = e.mmFeatures ∧
      r.loraRequest = e.loraRequest ∧ r.cacheSalt = e.cacheSalt := by
  obtain ⟨r, hr, hhash, ht, hm, hl, hs⟩ := init_hashes hbs hvalid hw
  have hp : r.numTokens = e.prompt.allTokenIds.length := by rw [Request.numTokens, ht]
  refine ⟨r, hr, ⟨hm ▸ hw, hp.ge, ?_⟩, ht, hm, hl, hs⟩
  rw [hhash, pathChain_eq_freshChain]
  intro k hk
  rw [hp] at hk
  exact if_neg (fun h => absurd h.1 hk.ne)

end Hasher

/-- The block hashes of a request after its outputs arrived in these chunks. -/
def blockHashesAfter (cfg : HashConfig) (e : EngineCoreRequest) (chunks : List (List Int)) :
    Except PyError (List BlockHash) := do
  let r ← Request.init (some (requestBlockHasher cfg)) e
  let r ← chunks.foldlM (Request.appendOutputTokenIds (some (requestBlockHasher cfg))) r
  return r.blockHashes

/-- The same request with another token prompt. -/
def EngineCoreRequest.withPrompt (e : EngineCoreRequest) (ids : List Int) : EngineCoreRequest :=
  { e with prompt := .tokenIds ids }

/-- Hashing as the tokens arrive gives the hashes of the full sequence as a prompt. -/
def SameHashes (cfg : HashConfig) (e : EngineCoreRequest) (chunks : List (List Int)) : Prop :=
  ∃ hashes, blockHashesAfter cfg e chunks = .ok hashes ∧
    blockHashesAfter cfg (e.withPrompt (e.prompt.allTokenIds ++ chunks.flatten)) [] = .ok hashes

/-- The last feature alone decides the keys of the block in which the prompt ends: the
prompt has no full block, that block is never filled, the last feature ends before it, or
exactly one feature is not over where it begins. -/
def LastFeatureSuffices (blockSize numPromptTokens numTokens : Nat)
    (features : List MultiModalFeatureSpec) : Prop :=
  numPromptTokens / blockSize = 0 ∨
  numTokens / blockSize ≤ numPromptTokens / blockSize ∨
  (∀ last, features.getLast? = some last →
    last.mmPosition.stop < numPromptTokens / blockSize * blockSize) ∨
  (features.filter fun f => Reaches (numPromptTokens / blockSize * blockSize) f).length = 1

section Compare

variable {features : List MultiModalFeatureSpec} {p s e : Nat}

lemma freshKeys_past_prompt (hw : WellPlaced p features) (hpe : p < e) :
    freshKeys features s e =
      (features.filter fun f => Reaches s f).map fun f => .str f.identifier := by
  unfold freshKeys
  congr 1
  apply List.filter_congr
  intro f hf
  have := hw.inside f hf
  have := offset_le_stop f
  have hoff : f.mmPosition.offset < e := by omega
  simp [hoff]

/-- A feature after one that is not over at `s` is not over either. -/
lemma reaches_last (hw : WellPlaced p features) {f last : MultiModalFeatureSpec}
    (hl : features.getLast? = some last) (hf : f ∈ features) (hr : Reaches s f) :
    Reaches s last := by
  obtain ⟨init, rfl⟩ := List.getLast?_eq_some_iff.mp hl
  rcases List.mem_append.mp hf with hf | hf
  · have hle := (List.pairwise_append.mp hw.sorted).2.2 f hf last (by simp)
    exact Or.inl (hr.le_stop.trans hle)
  · rwa [List.mem_singleton.mp hf] at hr

lemma filter_reaches_eq_last (hw : WellPlaced p features) {last : MultiModalFeatureSpec}
    (hl : features.getLast? = some last)
    (h : (features.filter fun f => Reaches s f).length = 1) :
    (features.filter fun f => Reaches s f) = [last] := by
  obtain ⟨f, hf⟩ := List.length_eq_one_iff.mp h
  have hmem : f ∈ features.filter fun f => Reaches s f := by simp [hf]
  rw [List.mem_filter, decide_eq_true_eq] at hmem
  have hreach := reaches_last hw hl hmem.1 hmem.2
  have hlmem : last ∈ features.filter fun f => Reaches s f := by
    rw [List.mem_filter, decide_eq_true_eq]
    exact ⟨List.mem_of_getLast? hl, hreach⟩
  rw [hf, List.mem_singleton] at hlmem
  rw [hf, hlmem]

lemma lastFeatureKeys_eq_freshKeys_iff (hw : WellPlaced p features) (hpe : p < e) :
    lastFeatureKeys features s = freshKeys features s e ↔
      (∀ last, features.getLast? = some last → last.mmPosition.stop < s) ∨
      (features.filter fun f => Reaches s f).length = 1 := by
  rw [freshKeys_past_prompt hw hpe, lastFeatureKeys]
  cases hl : features.getLast? with
  | none =>
    rw [List.getLast?_eq_none_iff] at hl
    simp [hl]
  | some last =>
    by_cases hlast : last.mmPosition.stop < s
    · have hover : AllOver features s :=
        fun f hf => (stop_le_getLast hw.sorted hl hf).trans_lt hlast
      have hnil := freshKeys_eq_nil (e := e) hover
      rw [freshKeys_past_prompt hw hpe] at hnil
      simp [hlast, hnil]
    · simp only [hlast, if_false]
      constructor
      · intro heq
        right
        have := congrArg List.length heq
        simpa using this.symm
      · rintro (h | h)
        · exact absurd (h last rfl) hlast
        · rw [filter_reaches_eq_last hw hl h]
          rfl

end Compare

lemma extraKeysTuple_injective : Function.Injective extraKeysTuple := by
  intro a b h
  unfold extraKeysTuple at h
  split_ifs at h with ha hb hb
  · rw [ha, hb]
  · exact Option.some.inj h

section Agreement

variable {cfg : HashConfig} {e : EngineCoreRequest} {chunks : List (List Int)} {r : Request}
  {p : Nat}

/-- A request as it is after its outputs: hashed along the way, with the tokens and the
extra data of `e`. -/
structure After (cfg : HashConfig) (e : EngineCoreRequest) (chunks : List (List Int))
    (r : Request) : Prop extends Hashed cfg e.prompt.allTokenIds.length r where
  tokens : r.allTokenIds = e.prompt.allTokenIds ++ chunks.flatten
  features : r.mmFeatures = e.mmFeatures
  lora : r.loraRequest = e.loraRequest
  salt : r.cacheSalt = e.cacheSalt

lemma exists_after (chunks : List (List Int)) (hbs : 0 < cfg.blockSize) (hvalid : (Request.initParams e).isOk)
    (hw : WellPlaced e.prompt.allTokenIds.length e.mmFeatures) :
    ∃ r, After cfg e chunks r ∧ blockHashesAfter cfg e chunks = .ok r.blockHashes := by
  obtain ⟨r₀, hinit, h₀, ht₀, hm₀, hl₀, hs₀⟩ := init_hashed hbs hvalid hw
  obtain ⟨r, hrun, h, ht, hm, hl, hs⟩ := foldlM_appendOutputTokenIds_hashed hbs chunks h₀
  refine ⟨r, ⟨h, ?_, hm.trans hm₀, hl.trans hl₀, hs.trans hs₀⟩, ?_⟩
  · rw [ht, ht₀]
  · rw [blockHashesAfter, hinit, ok_bind, hrun]
    rfl

lemma freshChain_congr {r' : Request} (ht : r.allTokenIds = r'.allTokenIds)
    (hm : r.mmFeatures = r'.mmFeatures) (hl : r.loraRequest = r'.loraRequest)
    (hs : r.cacheSalt = r'.cacheSalt) (n : Nat) : freshChain cfg r n = freshChain cfg r' n := by
  unfold freshChain
  rw [ht, hm]
  apply hashChain_congr
  intro k _ _
  simp only [blockExtraKeys, genLoraExtraHashKeys, cacheSaltKeys, hl, hs]

lemma blockHashesAfter_withPrompt (hbs : 0 < cfg.blockSize)
    (hvalid : (Request.initParams e).isOk)
    (hw : WellPlaced e.prompt.allTokenIds.length e.mmFeatures) (h : After cfg e chunks r) :
    blockHashesAfter cfg (e.withPrompt (e.prompt.allTokenIds ++ chunks.flatten)) [] =
      .ok (freshChain cfg r (r.numTokens / cfg.blockSize)) := by
  set e' := e.withPrompt (e.prompt.allTokenIds ++ chunks.flatten) with he'
  have hw' : WellPlaced e'.prompt.allTokenIds.length e'.mmFeatures := by
    refine ⟨hw.sorted, fun f hf => (hw.inside f hf).trans ?_⟩
    simp [he', EngineCoreRequest.withPrompt, Prompt.allTokenIds]
  obtain ⟨r', hinit, hhash, ht, hm, hl, hs⟩ := init_hashes (e := e') hbs hvalid hw'
  have htokens : r'.allTokenIds = r.allTokenIds := ht.trans h.tokens.symm
  have hchain : freshChain cfg r' (r'.numTokens / cfg.blockSize) =
      freshChain cfg r (r.numTokens / cfg.blockSize) := by
    rw [Request.numTokens, htokens]
    exact freshChain_congr htokens (hm.trans h.features.symm) (hl.trans h.lora.symm)
      (hs.trans h.salt.symm) _
  rw [blockHashesAfter, hinit, ok_bind, List.foldlM_nil, pure_eq, ok_bind, pure_eq, hhash, hchain]

lemma sameHashes_iff_chain (hbs : 0 < cfg.blockSize) (hvalid : (Request.initParams e).isOk)
    (hw : WellPlaced e.prompt.allTokenIds.length e.mmFeatures) (h : After cfg e chunks r)
    (hrun : blockHashesAfter cfg e chunks = .ok r.blockHashes) :
    SameHashes cfg e chunks ↔
      pathChain cfg e.prompt.allTokenIds.length r (r.numTokens / cfg.blockSize) =
        freshChain cfg r (r.numTokens / cfg.blockSize) := by
  rw [SameHashes, hrun, blockHashesAfter_withPrompt hbs hvalid hw h, h.hashes]
  simp [eq_comm]

lemma pathKeys_eq_freshKeys_iff {features : List MultiModalFeatureSpec} {b n : Nat}
    (hb : 0 < b) (hw : WellPlaced p features) :
    (∀ k < n / b, pathKeys features b p k = freshKeys features (k * b) ((k + 1) * b)) ↔
      LastFeatureSuffices b p n features := by
  have hpe : p < (p / b + 1) * b := (Nat.div_lt_iff_lt_mul hb).mp (Nat.lt_succ_self _)
  have hkeys := lastFeatureKeys_eq_freshKeys_iff (s := p / b * b) hw hpe
  unfold LastFeatureSuffices
  constructor
  · intro h
    by_cases hzero : p / b = 0
    · exact Or.inl hzero
    by_cases hn : n / b ≤ p / b
    · exact Or.inr (Or.inl hn)
    have hq := h (p / b) (lt_of_not_ge hn)
    rw [pathKeys, if_pos ⟨rfl, Nat.pos_of_ne_zero hzero⟩] at hq
    exact Or.inr (Or.inr (hkeys.mp hq))
  · intro h k hk
    by_cases hcase : k = p / b ∧ 0 < p / b
    · obtain ⟨rfl, hpos⟩ := hcase
      rw [pathKeys, if_pos ⟨rfl, hpos⟩]
      rcases h with h | h | h
      · exact absurd h hpos.ne'
      · exact absurd hk (not_lt_of_ge h)
      · exact hkeys.mpr h
    · exact if_neg hcase

lemma sameHashes_of_lastFeatureSuffices (hbs : 0 < cfg.blockSize)
    (hvalid : (Request.initParams e).isOk)
    (hw : WellPlaced e.prompt.allTokenIds.length e.mmFeatures)
    (h : LastFeatureSuffices cfg.blockSize e.prompt.allTokenIds.length
      (e.prompt.allTokenIds ++ chunks.flatten).length e.mmFeatures) :
    SameHashes cfg e chunks := by
  obtain ⟨r, hr, hrun⟩ := exists_after chunks hbs hvalid hw
  rw [sameHashes_iff_chain hbs hvalid hw hr hrun]
  apply pathChain_eq_freshChain
  rw [hr.features, Request.numTokens, hr.tokens]
  exact (pathKeys_eq_freshKeys_iff hbs hw).mpr h

lemma lastFeatureSuffices_of_sameHashes (hinj : Function.Injective cfg.cachingHashFn)
    (hbs : 0 < cfg.blockSize) (hvalid : (Request.initParams e).isOk)
    (hw : WellPlaced e.prompt.allTokenIds.length e.mmFeatures)
    (h : SameHashes cfg e chunks) :
    LastFeatureSuffices cfg.blockSize e.prompt.allTokenIds.length
      (e.prompt.allTokenIds ++ chunks.flatten).length e.mmFeatures := by
  obtain ⟨r, hr, hrun⟩ := exists_after chunks hbs hvalid hw
  rw [sameHashes_iff_chain hbs hvalid hw hr hrun] at h
  rw [← pathKeys_eq_freshKeys_iff hbs hw, ← hr.tokens, ← hr.features]
  intro k hk
  have hkeys := hashChain_injective hinj h (Nat.zero_le k) (by rwa [Nat.zero_add])
  have hlist := extraKeysTuple_injective hkeys
  rw [List.append_left_inj, List.append_right_inj] at hlist
  exact hlist

end Agreement

/-- Hashing as the outputs arrive equals hashing the full sequence from scratch exactly
when the last feature alone decides the keys of the block in which the prompt ends: as a
statement about every hash function, and about each one without collisions. -/
theorem sameHashes_iff_lastFeatureSuffices (blockSize : Nat) (e : EngineCoreRequest)
    (prompt : List Int) (chunks : List (List Int)) (hbs : 0 < blockSize)
    (hprompt : e.prompt = .tokenIds prompt) (hvalid : (Request.initParams e).isOk)
    (hw : WellPlaced prompt.length e.mmFeatures) :
    ((∀ hashFn noneHash, SameHashes ⟨blockSize, hashFn, noneHash⟩ e chunks) ↔
      LastFeatureSuffices blockSize prompt.length (prompt ++ chunks.flatten).length
        e.mmFeatures) ∧
    ∀ hashFn noneHash, Function.Injective hashFn →
      (SameHashes ⟨blockSize, hashFn, noneHash⟩ e chunks ↔
        LastFeatureSuffices blockSize prompt.length (prompt ++ chunks.flatten).length
          e.mmFeatures) := by
  have htokens : e.prompt.allTokenIds = prompt := by rw [hprompt]; rfl
  subst htokens
  constructor
  · constructor
    · intro h
      exact lastFeatureSuffices_of_sameHashes plainHash_injective hbs hvalid hw (h plainHash [])
    · intro h hashFn noneHash
      exact sameHashes_of_lastFeatureSuffices hbs hvalid hw h
  · intro hashFn noneHash hinj
    constructor
    · exact lastFeatureSuffices_of_sameHashes hinj hbs hvalid hw
    · intro h
      exact sameHashes_of_lastFeatureSuffices hbs hvalid hw h

/-- Seven prompt tokens in blocks of four, an image in the first block and one in the
second, which is still open when the prompt ends. -/
def oneOpenImage : EngineCoreRequest :=
  { requestId := "r"
    prompt := .tokenIds [1, 9, 2, 3, 9, 9, 4]
    mmFeatures := [⟨"a", ⟨1, 1⟩⟩, ⟨"b", ⟨4, 2⟩⟩] }

lemma oneOpenImage_placed : WellPlaced 7 oneOpenImage.mmFeatures :=
  ⟨by decide, by decide⟩

theorem sameHashes_oneOpenImage :
    (∀ hashFn noneHash, SameHashes ⟨4, hashFn, noneHash⟩ oneOpenImage [[5], [6]]) ∧
      LastFeatureSuffices 4 7 9 oneOpenImage.mmFeatures := by
  have hcond : LastFeatureSuffices 4 7 9 oneOpenImage.mmFeatures :=
    Or.inr (Or.inr (Or.inr (by decide)))
  exact ⟨(sameHashes_iff_lastFeatureSuffices 4 oneOpenImage [1, 9, 2, 3, 9, 9, 4] [[5], [6]]
    (by decide) rfl (by decide) oneOpenImage_placed).1.mpr hcond, hcond⟩

/-- No hash at all: the parent, the tokens and the keys one after the other. -/
def rawBytes : HashInput → BlockHash := fun x =>
  x.1 ++ x.2.1.map (fun t => UInt8.ofNat t.toNat) ++ (x.2.2.getD []).flatMap fun k => match k with
    | .int i => [UInt8.ofNat i.toNat]
    | .str s => s.toList.map fun c => UInt8.ofNat c.toNat

/-- Both images lie in the block in which the prompt ends. -/
def twoOpenImages : EngineCoreRequest :=
  { requestId := "r"
    prompt := .tokenIds [1, 2, 3, 4, 9, 9, 5]
    mmFeatures := [⟨"a", ⟨4, 1⟩⟩, ⟨"b", ⟨5, 1⟩⟩] }

/-- The token that completes the second block gives it the keys of image `b` alone. -/
theorem not_sameHashes_twoOpenImages :
    WellPlaced 7 twoOpenImages.mmFeatures ∧
      ¬ SameHashes ⟨4, rawBytes, [0]⟩ twoOpenImages [[6]] := by
  refine ⟨⟨by decide, by decide⟩, ?_⟩
  rintro ⟨hashes, hrun, hfresh⟩
  have hne : blockHashesAfter ⟨4, rawBytes, [0]⟩ twoOpenImages [[6]] ≠
      blockHashesAfter ⟨4, rawBytes, [0]⟩
        (twoOpenImages.withPrompt [1, 2, 3, 4, 9, 9, 5, 6]) [] := by decide +kernel
  exact hne (hrun.trans hfresh.symm)

end VllmV1
