import VllmMmaEmu.Engine.HashChain

/-!
# What a block hash says about the content

Under a hash function without collisions a block hash determines the tokens up to the end of
its block, the LoRA id, and for each block the strings among its keys: the identifiers of the
multimodal inputs, and for the first block the cache salt behind them. It does not say which
string is the salt, nor where in a block an input lies; and where a call restarts at the last
input, the inputs before that one are missing.
-/

namespace VllmV1

open Python

variable {cfg : HashConfig}

section Chain

variable {tokens tokens' : List Int} {keys keys' : Nat → Option (List ExtraKey)}

lemma getElem?_hashChain {j n : Nat} (hj : j < n) :
    (hashChain cfg tokens keys none 0 n)[j]? =
      some (hashBlockTokens cfg (hashChain cfg tokens keys none 0 j).getLast?
        (slice tokens (j * cfg.blockSize) ((j + 1) * cfg.blockSize)) (keys j)) := by
  obtain ⟨m, rfl⟩ := Nat.exists_eq_add_of_lt hj
  rw [Nat.add_assoc, hashChain_add, List.getElem?_append_right (by rw [hashChain_length]),
    hashChain_length, Nat.sub_self, hashChain, List.getElem?_cons_zero, Option.or_none,
    Nat.zero_add]

lemma getLast?_hashChain (j : Nat) :
    (hashChain cfg tokens keys none 0 (j + 1)).getLast? =
      (hashChain cfg tokens keys none 0 (j + 1))[j]? := by
  rw [List.getLast?_eq_getElem?, hashChain_length, Nat.add_sub_cancel]

lemma hashBlockTokens_injective (hcfg : cfg.CollisionFree) {prev prev' : Option BlockHash}
    {ids ids' : List Int} {k k' : Option (List ExtraKey)}
    (h : hashBlockTokens cfg prev ids k = hashBlockTokens cfg prev' ids' k') :
    parentOf cfg prev = parentOf cfg prev' ∧ ids = ids' ∧ k = k' := by
  rw [hashBlockTokens_eq, hashBlockTokens_eq] at h
  have hinput := hcfg.injective h
  rwa [Prod.mk.injEq, Prod.mk.injEq] at hinput

variable (tokens keys) in
/-- The parent of a block after the first one is the hash of the block before it. -/
lemma parentOf_succ (hcfg : cfg.CollisionFree) (j : Nat) :
    ∃ x, parentOf cfg (hashChain cfg tokens keys none 0 (j + 1)).getLast? = cfg.cachingHashFn x ∧
      (hashChain cfg tokens keys none 0 (j + 1))[j]? = some (cfg.cachingHashFn x) := by
  have hlast : (hashChain cfg tokens keys none 0 (j + 1))[j]? = _ :=
    getElem?_hashChain (Nat.lt_succ_self j)
  rw [hashBlockTokens_eq] at hlast
  refine ⟨_, ?_, hlast⟩
  rw [getLast?_hashChain, hlast, parentOf, if_neg (hcfg.ne_nil _)]

/-- Chains that share a hash have it at the same place, after the same blocks. -/
theorem hashChain_content (hcfg : cfg.CollisionFree) {j j' n n' : Nat} (hj : j < n) (hj' : j' < n')
    (h : (hashChain cfg tokens keys none 0 n)[j]? = (hashChain cfg tokens' keys' none 0 n')[j']?) :
    j = j' ∧ ∀ k ≤ j, slice tokens (k * cfg.blockSize) ((k + 1) * cfg.blockSize) =
      slice tokens' (k * cfg.blockSize) ((k + 1) * cfg.blockSize) ∧ keys k = keys' k := by
  induction j generalizing j' n n' with
  | zero =>
    rw [getElem?_hashChain hj, getElem?_hashChain hj', Option.some.injEq] at h
    obtain ⟨hparent, hids, hkeys⟩ := hashBlockTokens_injective hcfg h
    cases j' with
    | zero =>
      refine ⟨rfl, fun k hk => ?_⟩
      obtain rfl := Nat.le_zero.mp hk
      exact ⟨hids, hkeys⟩
    | succ i' =>
      obtain ⟨x, hx, -⟩ := parentOf_succ tokens' keys' hcfg i'
      exact absurd (hx.symm.trans hparent.symm) (hcfg.ne_noneHash x)
  | succ i ih =>
    rw [getElem?_hashChain hj, getElem?_hashChain hj', Option.some.injEq] at h
    obtain ⟨hparent, hids, hkeys⟩ := hashBlockTokens_injective hcfg h
    obtain ⟨x, hx, hhash⟩ := parentOf_succ tokens keys hcfg i
    cases j' with
    | zero => exact absurd (hx.symm.trans hparent) (hcfg.ne_noneHash x)
    | succ i' =>
      obtain ⟨x', hx', hhash'⟩ := parentOf_succ tokens' keys' hcfg i'
      obtain ⟨rfl, hbefore⟩ := ih (Nat.lt_succ_self i) (Nat.lt_succ_self i')
        (by rw [hhash, hhash', ← hx, ← hx', hparent])
      refine ⟨rfl, fun k hk => ?_⟩
      rcases Nat.le_succ_iff.mp hk with hk | rfl
      · exact hbefore k hk
      · exact ⟨hids, hkeys⟩

/-- A chain behind another one is a chain with the keys of both. -/
lemma hashChain_glue {joined : Nat → Option (List ExtraKey)} {n m : Nat}
    (hbefore : ∀ i < n, joined i = keys i) (hafter : ∀ i, n ≤ i → joined i = keys' i) :
    hashChain cfg tokens joined none 0 (n + m) = hashChain cfg tokens keys none 0 n ++
      hashChain cfg tokens keys' (hashChain cfg tokens keys none 0 n).getLast? n m := by
  rw [hashChain_add, Option.or_none, Nat.zero_add,
    hashChain_congr fun i _ hi => hbefore i (by omega), hashChain_congr fun i hi _ => hafter i hi]

lemma take_eq_of_slices {b j : Nat}
    (h : ∀ k ≤ j, slice tokens (k * b) ((k + 1) * b) = slice tokens' (k * b) ((k + 1) * b)) :
    tokens.take ((j + 1) * b) = tokens'.take ((j + 1) * b) := by
  have hsplit : ∀ (l : List Int) (k : Nat),
      l.take ((k + 1) * b) = l.take (k * b) ++ slice l (k * b) ((k + 1) * b) := by
    intro l k
    rw [slice, Nat.succ_mul, Nat.add_sub_cancel_left, List.take_add]
  induction j with
  | zero =>
    have hfirst := h 0 le_rfl
    rw [hsplit, hsplit tokens', hfirst, Nat.zero_mul, List.take_zero, List.take_zero]
  | succ j ih =>
    rw [hsplit, hsplit tokens', h (j + 1) le_rfl, ih fun k hk => h k (hk.trans (Nat.le_succ j))]

end Chain

/-- The identifiers of the features in block `k`, and behind them in the first block the salt. -/
def keyStrings (e : EngineCoreRequest) (blockSize k : Nat) : List String :=
  (e.mmFeatures.filter fun f => Reaches (k * blockSize) f ∧
    f.mmPosition.offset < (k + 1) * blockSize).map (·.identifier) ++
  if k = 0 then e.cacheSalt.toList else []

/-- The tuple of a LoRA id and strings. -/
def taggedKeys (lora : Option Int) (strings : List String) : Option (List ExtraKey) :=
  extraKeysTuple ((lora.map ExtraKey.int).toList ++ strings.map .str)

lemma taggedKeys_content {l l' : Option Int} {strings strings' : List String}
    (h : taggedKeys l strings = taggedKeys l' strings') : l = l' ∧ strings = strings' := by
  have hlist := extraKeysTuple_injective h
  have hstr : Function.Injective ExtraKey.str := fun _ _ heq => ExtraKey.str.inj heq
  cases l with
  | none =>
    cases l' with
    | none => exact ⟨rfl, List.map_injective_iff.mpr hstr hlist⟩
    | some i' => cases strings <;> cases hlist
  | some i =>
    cases l' with
    | none => cases strings' <;> cases hlist
    | some i' =>
      obtain ⟨hi, hstrings⟩ := List.cons.inj hlist
      exact ⟨congrArg some (ExtraKey.int.inj hi), List.map_injective_iff.mpr hstr hstrings⟩

section Keys

variable {r r' : Request} {e : EngineCoreRequest}

/-- The data of a request that its keys are made of. -/
structure KeyedBy (e : EngineCoreRequest) (r : Request) : Prop where
  features : r.mmFeatures = e.mmFeatures
  lora : r.loraRequest = e.loraRequest
  salt : r.cacheSalt = e.cacheSalt

lemma cacheSaltKeys_eq (hk : KeyedBy e r) (hsalt : e.cacheSalt ≠ some "") {b k : Nat} (hb : 0 < b) :
    cacheSaltKeys r (k * b) = (if k = 0 then e.cacheSalt.toList else []).map .str := by
  rw [cacheSaltKeys, hk.salt]
  cases hsome : e.cacheSalt with
  | none => split_ifs <;> rfl
  | some salt =>
    have hne : salt ≠ "" := fun heq => hsalt (heq ▸ hsome)
    by_cases hk : k = 0
    · simp [hk, hne]
    · simp [hk, hb.ne']

lemma extraKeysTuple_tagged (hk : KeyedBy e r) (hsalt : e.cacheSalt ≠ some "") {b : Nat}
    (hb : 0 < b) (k : Nat) (strings : List String) :
    extraKeysTuple (genLoraExtraHashKeys r ++ strings.map .str ++ cacheSaltKeys r (k * b)) =
      taggedKeys e.loraRequest (strings ++ if k = 0 then e.cacheSalt.toList else []) := by
  have hlora : genLoraExtraHashKeys r = (e.loraRequest.map ExtraKey.int).toList := by
    rw [genLoraExtraHashKeys, hk.lora]
    cases e.loraRequest with
    | none => rfl
    | some i => rfl
  rw [taggedKeys, hlora, cacheSaltKeys_eq hk hsalt hb, List.map_append, List.append_assoc]

lemma blockExtraKeys_congr {b i : Nat} {mm mm' : Nat → List ExtraKey} (h : mm i = mm' i) :
    blockExtraKeys r b mm i = blockExtraKeys r b mm' i := by
  rw [blockExtraKeys, h, blockExtraKeys]

lemma blockExtraKeys_tagged (hk : KeyedBy e r) (hsalt : e.cacheSalt ≠ some "") {b : Nat}
    (hb : 0 < b) {mm : Nat → List ExtraKey} {i : Nat}
    (hmm : mm i = freshKeys e.mmFeatures (i * b) ((i + 1) * b)) :
    blockExtraKeys r b mm i = taggedKeys e.loraRequest (keyStrings e b i) := by
  rw [keyStrings, ← extraKeysTuple_tagged hk hsalt hb, blockExtraKeys, hmm, freshKeys,
    List.map_map]
  rfl

end Keys

section Late

variable {r : Request} {features : List MultiModalFeatureSpec} {s : Nat} {c : Int}

lemma exists_wellPlaced {features : List MultiModalFeatureSpec}
    (h : features.Pairwise fun f g => f.mmPosition.stop ≤ g.mmPosition.offset) :
    ∃ p, WellPlaced p features := by
  obtain ⟨p, hp⟩ : ∃ p, ∀ f ∈ features, f.mmPosition.stop ≤ p := by
    clear h
    induction features with
    | nil => exact ⟨0, fun f hf => (nomatch hf)⟩
    | cons f rest ih =>
      obtain ⟨p, hp⟩ := ih
      refine ⟨max f.mmPosition.stop p, fun g hg => ?_⟩
      rcases List.mem_cons.mp hg with rfl | hg
      · exact le_max_left ..
      · exact (hp g hg).trans (le_max_right ..)
  exact ⟨p, h, hp⟩

/-- The cursor of a call that begins at the last feature: there until that feature is over. -/
def LateCursor (features : List MultiModalFeatureSpec) (s : Nat) (c : Int) : Prop :=
  c = -1 ∨ c + 1 = features.length ∨
    c = features.length ∧ ∀ last, features.getLast? = some last → ¬ Reaches s last

lemma LateCursor.mono {e : Nat} (h : LateCursor features s c) (hse : s ≤ e) :
    LateCursor features e c := by
  rcases h with h | h | ⟨h, hover⟩
  · exact Or.inl h
  · exact Or.inr (Or.inl h)
  · exact Or.inr (Or.inr ⟨h, fun last hl hr => hover last hl (hr.anti hse)⟩)

/-- A cursor at the last feature misses none of those that are not over at `s`. -/
def CursorSuffices (features : List MultiModalFeatureSpec) (s : Nat) : Prop :=
  AllOver features s ∨ (features.filter fun f => Reaches s f).length = 1

lemma mmExtraHashKeysLoop_late {e : Nat} (hse : s ≤ e) {last : MultiModalFeatureSpec}
    (hstop : s ≤ last.mmPosition.stop) :
    mmExtraHashKeysLoop s e [last] c =
      (([last].filter fun f => f.mmPosition.offset < e).map fun f => .str f.identifier,
        if Reaches e last then c else c + 1) := by
  have hkeep : ([last].filter fun f => s ≤ f.mmPosition.stop ∧ f.mmPosition.offset < e) =
      [last].filter fun f => f.mmPosition.offset < e := by
    apply List.filter_congr
    intro f hf
    simp [List.mem_singleton.mp hf, hstop]
  rw [mmExtraHashKeysLoop_eq s e hse (List.pairwise_singleton _ _), hkeep]
  by_cases hr : Reaches e last
  · simp [cursorAt, hr]
  · simp [cursorAt, hr]

lemma freshKeys_eq_last {e p : Nat} (hw : WellPlaced p features) {last : MultiModalFeatureSpec}
    (hl : features.getLast? = some last)
    (h : (features.filter fun f => Reaches s f).length = 1) :
    freshKeys features s e =
      ([last].filter fun f => f.mmPosition.offset < e).map fun f => .str f.identifier := by
  rw [← filter_reaches_eq_last hw hl h, List.filter_filter, freshKeys]
  congr 1
  apply List.filter_congr
  intro f _
  rw [Bool.decide_and, Bool.and_comm]

/-- A late cursor stays one, and gives all features where it misses none. -/
lemma genMmExtraHashKeys_late {e p : Nat} {c' : Int} {mm : List ExtraKey}
    (hw : WellPlaced p r.mmFeatures) (hse : s ≤ e) (hc : LateCursor r.mmFeatures s c)
    (h : genMmExtraHashKeys r s e c = .ok (mm, c')) :
    LateCursor r.mmFeatures e c' ∧
      (CursorSuffices r.mmFeatures s → mm = freshKeys r.mmFeatures s e) := by
  unfold genMmExtraHashKeys at h
  cases hl : r.mmFeatures.getLast? with
  | none =>
    rw [hl] at h
    obtain ⟨rfl, rfl⟩ := Prod.mk.inj (Except.ok.inj h)
    rw [List.getLast?_eq_none_iff] at hl
    exact ⟨hc.mono hse, fun _ => by simp [freshKeys, hl]⟩
  | some last =>
    simp only [hl] at h
    by_cases hlast : last.mmPosition.stop < s
    · rw [if_pos hlast] at h
      obtain ⟨rfl, rfl⟩ := Prod.mk.inj (Except.ok.inj h)
      have hover : AllOver r.mmFeatures s :=
        fun f hf => (stop_le_getLast hw.sorted hl hf).trans_lt hlast
      exact ⟨hc.mono hse, fun _ => (freshKeys_eq_nil hover).symm⟩
    · rw [if_neg hlast] at h
      obtain ⟨init, hinit⟩ := List.getLast?_eq_some_iff.mp hl
      have hlen : (r.mmFeatures.length : Int) = init.length + 1 := by simp [hinit]
      have hnone : ¬ AllOver r.mmFeatures s := fun hover =>
        hlast (hover last (List.mem_of_getLast? hl))
      -- the cursor is at the last feature, or has passed it
      obtain ⟨cursor, hplace, hloop⟩ : ∃ cursor : Int,
          (cursor = init.length ∨ cursor = r.mmFeatures.length ∧ ¬ Reaches s last) ∧
          mmExtraHashKeysLoop s e (r.mmFeatures.drop cursor.toNat) cursor = (mm, c') := by
        split_ifs at h with hneg
        · obtain ⟨-, -, h⟩ := bind_eq_ok.mp h
          refine ⟨_, Or.inl ?_, Except.ok.inj h⟩
          rcases hc with rfl | hc | ⟨rfl, -⟩ <;> omega
        · refine ⟨c, ?_, Except.ok.inj h⟩
          rcases hc with rfl | hc | ⟨hc, hover⟩
          · omega
          · exact Or.inl (by omega)
          · exact Or.inr ⟨hc, hover last hl⟩
      rcases hplace with rfl | ⟨rfl, hover⟩
      · have hdrop : r.mmFeatures.drop (init.length : Int).toNat = [last] := by
          rw [hinit, Int.toNat_natCast, List.drop_left]
        rw [hdrop, mmExtraHashKeysLoop_late hse (not_lt.mp hlast)] at hloop
        obtain ⟨rfl, rfl⟩ := Prod.mk.inj hloop
        refine ⟨?_, fun hsuffices => (freshKeys_eq_last hw hl (hsuffices.resolve_left hnone)).symm⟩
        split_ifs with hr
        · exact Or.inr (Or.inl hlen.symm)
        · refine Or.inr (Or.inr ⟨hlen.symm, fun last' hl' => ?_⟩)
          obtain rfl := Option.some.inj (hl.symm.trans hl')
          exact hr
      · rw [Int.toNat_natCast, List.drop_length, mmExtraHashKeysLoop] at hloop
        obtain ⟨-, rfl⟩ := Prod.mk.inj hloop
        refine ⟨?_, fun hsuffices => ?_⟩
        · refine Or.inr (Or.inr ⟨rfl, fun last' hl' hr => ?_⟩)
          obtain rfl := Option.some.inj (hl.symm.trans hl')
          exact hover (hr.anti hse)
        · have hone := filter_reaches_eq_last hw hl (hsuffices.resolve_left hnone)
          have hmem : last ∈ r.mmFeatures.filter fun f => Reaches s f := by simp [hone]
          exact absurd (decide_eq_true_eq.mp (List.mem_filter.mp hmem).2) hover

lemma requestBlockHasherLoop_late {p : Nat} (hw : WellPlaced p r.mmFeatures) {fuel k : Nat}
    {prev : Option BlockHash} {hashes : List BlockHash}
    (hc : LateCursor r.mmFeatures (k * cfg.blockSize) c)
    (h : requestBlockHasherLoop cfg r fuel (k * cfg.blockSize) c prev = .ok hashes) :
    ∃ mm, hashes = hashChain cfg r.allTokenIds (blockExtraKeys r cfg.blockSize mm) prev k
        hashes.length ∧
      (hashes ≠ [] → (k + hashes.length) * cfg.blockSize ≤ r.numTokens) ∧
      ∀ i, k ≤ i → CursorSuffices r.mmFeatures (i * cfg.blockSize) →
        mm i = freshKeys r.mmFeatures (i * cfg.blockSize) ((i + 1) * cfg.blockSize) := by
  induction fuel generalizing k c prev hashes with
  | zero => cases h
  | succ fuel ih =>
    have hmul : k * cfg.blockSize + cfg.blockSize = (k + 1) * cfg.blockSize :=
      (Nat.succ_mul k cfg.blockSize).symm
    rw [requestBlockHasherLoop, hmul] at h
    by_cases hfull : (k + 1) * cfg.blockSize > r.numTokens
    · simp only [hfull, if_true, Except.ok.injEq] at h
      subst h
      exact ⟨fun i => freshKeys r.mmFeatures (i * cfg.blockSize) ((i + 1) * cfg.blockSize), rfl,
        fun hne => absurd rfl hne, fun _ _ _ => rfl⟩
    · simp only [hfull, if_false] at h
      obtain ⟨⟨key, c'⟩, hkey, h⟩ := bind_eq_ok.mp h
      obtain ⟨rest, hrest, h⟩ := bind_eq_ok.mp h
      obtain rfl := Except.ok.inj h
      obtain ⟨⟨here, c''⟩, hhere, hkey⟩ := bind_eq_ok.mp hkey
      obtain ⟨rfl, rfl⟩ := Prod.mk.inj (Except.ok.inj hkey)
      obtain ⟨hc', hfresh⟩ := genMmExtraHashKeys_late hw
        (Nat.mul_le_mul_right _ (Nat.le_succ k)) hc hhere
      obtain ⟨mm, hchain, hle, hmm⟩ := ih hc' hrest
      have hlater : ∀ i, k + 1 ≤ i → i < k + 1 + rest.length →
          blockExtraKeys r cfg.blockSize (fun i => if i = k then here else mm i) i =
            blockExtraKeys r cfg.blockSize mm i :=
        fun i hi _ => blockExtraKeys_congr (if_neg (by omega))
      refine ⟨fun i => if i = k then here else mm i, ?_, fun _ => ?_, fun i hi hsuffices => ?_⟩
      · rw [List.length_cons, hashChain, hashChain_congr hlater, blockExtraKeys, if_pos rfl]
        exact congrArg (_ :: ·) hchain
      · by_cases hnil : rest = []
        · rw [hnil, List.length_singleton]
          omega
        · have hrestle := hle hnil
          rw [List.length_cons, ← Nat.add_assoc, Nat.add_right_comm]
          exact hrestle
      · dsimp only
        split_ifs with heq
        · subst heq
          exact hfresh hsuffices
        · exact hmm i (by omega) hsuffices

end Late

section Tagged

variable {r r' : Request} {e : EngineCoreRequest} {first q : Nat}

/-- How many blocks the first call of the hasher that finds one hashes, when the chunks come after
`numTokens` tokens. -/
def firstCallBlocks (b : Nat) : (numTokens : Nat) → (chunks : List (List Int)) → Nat
  | numTokens, [] => numTokens / b
  | numTokens, ids :: chunks =>
    if numTokens / b = 0 then firstCallBlocks b (numTokens + ids.length) chunks else numTokens / b

/-- Block `k` was hashed with all its features: it is one of the `first` blocks of the first call,
or a cursor at the last feature misses none. -/
def KeyComplete (b first : Nat) (features : List MultiModalFeatureSpec) (k : Nat) : Prop :=
  k < first ∨ CursorSuffices features (k * b)

/-- The hashes are a chain of full blocks, with the features of the complete ones. -/
structure Tagged (cfg : HashConfig) (e : EngineCoreRequest) (first : Nat) (r : Request) : Prop
    extends KeyedBy e r where
  first_le : first ≤ r.blockHashes.length
  first_pos : 0 < r.blockHashes.length → 0 < first
  room : r.blockHashes.length * cfg.blockSize ≤ r.numTokens
  chain : ∃ mm, r.blockHashes = hashChain cfg r.allTokenIds (blockExtraKeys r cfg.blockSize mm)
      none 0 r.blockHashes.length ∧
    ∀ i, KeyComplete cfg.blockSize first e.mmFeatures i →
      mm i = freshKeys e.mmFeatures (i * cfg.blockSize) ((i + 1) * cfg.blockSize)

/-- The first call hashes all blocks it finds with the features of each. -/
lemma tagged_of_first (hbs : 0 < cfg.blockSize) (hk : KeyedBy e r) (hw : WellPlaced q e.mmFeatures)
    (hnone : r.blockHashes = [])
    (h : r.extendBlockHashes (some (requestBlockHasher cfg)) = .ok r') :
    Tagged cfg e (r.numTokens / cfg.blockSize) r' ∧
      r'.blockHashes.length = r.numTokens / cfg.blockSize ∧ r'.allTokenIds = r.allTokenIds := by
  rw [← hk.features] at hw
  simp only [Request.extendBlockHashes, requestBlockHasher_fresh hbs hw hnone, ok_bind, pure_eq,
    hnone, List.nil_append, Except.ok.injEq] at h
  subst h
  have hlen := @hashChain_length cfg r.allTokenIds (blockExtraKeys r cfg.blockSize fun k =>
    freshKeys r.mmFeatures (k * cfg.blockSize) ((k + 1) * cfg.blockSize)) none 0
    (r.numTokens / cfg.blockSize)
  refine ⟨⟨⟨hk.features, hk.lora, hk.salt⟩, hlen.ge, fun hpos => hlen ▸ hpos, ?_,
    fun i => freshKeys r.mmFeatures (i * cfg.blockSize) ((i + 1) * cfg.blockSize), ?_,
    fun i _ => by rw [hk.features]⟩, hlen, rfl⟩
  · dsimp only
    rw [hlen]
    exact Nat.div_mul_le_self ..
  · dsimp only
    rw [hlen]
    rfl

/-- A later call goes on with the chain. -/
lemma Tagged.extend (h : Tagged cfg e first r) (hbs : 0 < cfg.blockSize)
    (hw : WellPlaced q e.mmFeatures) (hsome : 0 < r.blockHashes.length) {ids : List Int}
    (hrun : r.appendOutputTokenIds (some (requestBlockHasher cfg)) ids = .ok r') :
    Tagged cfg e first r' ∧ 0 < r'.blockHashes.length ∧
      r'.allTokenIds = r.allTokenIds ++ ids := by
  obtain ⟨new, hnew, hret⟩ := bind_eq_ok.mp hrun
  obtain rfl := Except.ok.inj hret
  obtain ⟨old, hchain, hold⟩ := h.chain
  have hstart : r.blockHashes.length * cfg.blockSize > 0 := Nat.mul_pos hsome hbs
  rw [requestBlockHasher, Request.addOutput_blockHashes, if_pos hstart] at hnew
  have hfeatures : (r.addOutput ids).mmFeatures = e.mmFeatures := h.features
  obtain ⟨later, hchain', hroom, hlater⟩ := requestBlockHasherLoop_late
    (hfeatures ▸ hw) (Or.inl rfl) hnew
  rw [hfeatures] at hlater
  have hlonger : r.blockHashes.length ≤ ((r.addOutput ids).blockHashes ++ new).length :=
    List.length_append ▸ Nat.le_add_right ..
  have hgrow : r.numTokens ≤ (r.addOutput ids).numTokens := by simp [Request.numTokens]
  refine ⟨⟨⟨h.features, h.lora, h.salt⟩, h.first_le.trans hlonger, fun _ => h.first_pos hsome, ?_,
    fun i => if i < r.blockHashes.length then old i else later i, ?_, fun i hi => ?_⟩,
    hsome.trans_le hlonger, rfl⟩
  · dsimp only
    rw [List.length_append, Request.addOutput_blockHashes]
    by_cases hnil : new = []
    · rw [hnil, List.length_nil, Nat.add_zero]
      exact h.room.trans hgrow
    · exact hroom hnil
  · have hfull : (0 + r.blockHashes.length) * cfg.blockSize ≤ r.allTokenIds.length := by
      rw [Nat.zero_add]
      exact h.room
    have hbefore : ∀ i < r.blockHashes.length, blockExtraKeys r cfg.blockSize (fun i =>
        if i < r.blockHashes.length then old i else later i) i =
          blockExtraKeys r cfg.blockSize old i :=
      fun i hi => blockExtraKeys_congr (if_pos hi)
    have hafter : ∀ i, r.blockHashes.length ≤ i → blockExtraKeys r cfg.blockSize (fun i =>
        if i < r.blockHashes.length then old i else later i) i =
          blockExtraKeys r cfg.blockSize later i :=
      fun i hi => blockExtraKeys_congr (if_neg (by omega))
    change _ = hashChain cfg (r.addOutput ids).allTokenIds (blockExtraKeys r cfg.blockSize _) ..
    rw [List.length_append, Request.addOutput_blockHashes, hashChain_glue hbefore hafter,
      Request.addOutput_allTokenIds, hashChain_append_tokens ids hfull, ← hchain]
    exact congrArg (r.blockHashes ++ ·) hchain'
  · dsimp only
    split_ifs with hlt
    · exact hold i hi
    · rcases hi with hi | hi
      · exact absurd (hi.trans_le h.first_le) hlt
      · exact hlater i (not_lt.mp hlt) hi

lemma Tagged.foldlM_extend (hbs : 0 < cfg.blockSize) (hw : WellPlaced q e.mmFeatures)
    (chunks : List (List Int)) {r : Request} (h : Tagged cfg e first r)
    (hsome : 0 < r.blockHashes.length)
    (hrun : chunks.foldlM (Request.appendOutputTokenIds (some (requestBlockHasher cfg))) r =
      .ok r') :
    Tagged cfg e first r' ∧ r'.allTokenIds = r.allTokenIds ++ chunks.flatten := by
  induction chunks generalizing r with
  | nil =>
    obtain rfl := Except.ok.inj hrun
    exact ⟨h, by simp⟩
  | cons ids chunks ih =>
    rw [List.foldlM_cons] at hrun
    obtain ⟨r₁, h₁, hrun⟩ := bind_eq_ok.mp hrun
    obtain ⟨htagged, hsome₁, htokens⟩ := h.extend hbs hw hsome h₁
    obtain ⟨hdone, htokens'⟩ := ih htagged hsome₁ hrun
    exact ⟨hdone, by rw [htokens', htokens, List.flatten_cons, List.append_assoc]⟩

/-- All calls for a request: up to the first one that finds a block nothing is hashed, and later
ones go on with the chain. -/
lemma tagged_of_run (hbs : 0 < cfg.blockSize) (hw : WellPlaced q e.mmFeatures)
    (chunks : List (List Int)) {r : Request} (hk : KeyedBy e r) (hnone : r.blockHashes = [])
    (h : (r.extendBlockHashes (some (requestBlockHasher cfg)) >>= fun r =>
      chunks.foldlM (Request.appendOutputTokenIds (some (requestBlockHasher cfg))) r) = .ok r') :
    Tagged cfg e (firstCallBlocks cfg.blockSize r.numTokens chunks) r' ∧
      r'.allTokenIds = r.allTokenIds ++ chunks.flatten := by
  induction chunks generalizing r with
  | nil =>
    obtain ⟨r₁, h₁, hrun⟩ := bind_eq_ok.mp h
    obtain rfl := Except.ok.inj hrun
    obtain ⟨htagged, -, htokens⟩ := tagged_of_first hbs hk hw hnone h₁
    exact ⟨htagged, by simp [htokens]⟩
  | cons ids chunks ih =>
    obtain ⟨r₁, h₁, hrun⟩ := bind_eq_ok.mp h
    obtain ⟨htagged, hlength, htokens⟩ := tagged_of_first hbs hk hw hnone h₁
    rw [firstCallBlocks]
    by_cases hzero : r.numTokens / cfg.blockSize = 0
    · rw [if_pos hzero]
      have hnone₁ : (r₁.addOutput ids).blockHashes = [] :=
        List.length_eq_zero_iff.mp (hlength.trans hzero)
      have hgrown : (r₁.addOutput ids).numTokens = r.numTokens + ids.length := by
        simp [Request.numTokens, htokens]
      rw [List.foldlM_cons] at hrun
      obtain ⟨hdone, htokens'⟩ := ih (r := r₁.addOutput ids)
        ⟨htagged.features, htagged.lora, htagged.salt⟩ hnone₁ hrun
      rw [hgrown] at hdone
      exact ⟨hdone, by simp [htokens', htokens]⟩
    · rw [if_neg hzero]
      obtain ⟨hdone, htokens'⟩ := htagged.foldlM_extend hbs hw _ (by omega) hrun
      exact ⟨hdone, by rw [htokens', htokens]⟩

lemma blockHashesAfter_tagged {chunks : List (List Int)} {hashes : List BlockHash}
    (hbs : 0 < cfg.blockSize)
    (hs : e.mmFeatures.Pairwise fun f g => f.mmPosition.stop ≤ g.mmPosition.offset)
    (h : blockHashesAfter cfg e chunks = .ok hashes) :
    ∃ r, Tagged cfg e (firstCallBlocks cfg.blockSize e.prompt.allTokenIds.length chunks) r ∧
      r.blockHashes = hashes ∧ r.allTokenIds = e.prompt.allTokenIds ++ chunks.flatten := by
  obtain ⟨r₀, hinit, h⟩ := bind_eq_ok.mp h
  obtain ⟨r, hrun, h⟩ := bind_eq_ok.mp h
  obtain ⟨params, -, hinit⟩ := bind_eq_ok.mp hinit
  obtain ⟨q, hw⟩ := exists_wellPlaced hs
  obtain ⟨hdone, htokens⟩ := tagged_of_run hbs hw chunks ⟨rfl, rfl, rfl⟩ rfl
    (bind_eq_ok.mpr ⟨r₀, hinit, hrun⟩)
  exact ⟨r, hdone, Except.ok.inj h, htokens⟩

end Tagged

/-- What a common hash of block `j` says about two requests after their outputs. -/
structure SameKeys (blockSize : Nat) (e e' : EngineCoreRequest) (chunks chunks' : List (List Int))
    (j : Nat) : Prop where
  tokens : (e.prompt.allTokenIds ++ chunks.flatten).take ((j + 1) * blockSize) =
    (e'.prompt.allTokenIds ++ chunks'.flatten).take ((j + 1) * blockSize)
  lora : e.loraRequest = e'.loraRequest
  strings : ∀ k ≤ j,
    KeyComplete blockSize (firstCallBlocks blockSize e.prompt.allTokenIds.length chunks)
      e.mmFeatures k →
    KeyComplete blockSize (firstCallBlocks blockSize e'.prompt.allTokenIds.length chunks')
      e'.mmFeatures k →
    keyStrings e blockSize k = keyStrings e' blockSize k
  salt : (e.cacheSalt.isSome ↔ e'.cacheSalt.isSome) → e.cacheSalt = e'.cacheSalt

lemma salt_eq_of_keyStrings {e e' : EngineCoreRequest} {b : Nat}
    (h : keyStrings e b 0 = keyStrings e' b 0)
    (hsome : e.cacheSalt.isSome ↔ e'.cacheSalt.isSome) : e.cacheSalt = e'.cacheSalt := by
  have hlast : ∀ (e : EngineCoreRequest) (salt : String), e.cacheSalt = some salt →
      (keyStrings e b 0).getLast? = some salt := by
    intro e salt hsalt
    rw [keyStrings, hsalt, if_pos rfl, Option.toList_some, List.getLast?_concat]
  cases hsalt : e.cacheSalt with
  | none =>
    rw [hsalt, Option.isSome_none] at hsome
    cases hsalt' : e'.cacheSalt with
    | none => rfl
    | some salt' =>
      rw [hsalt'] at hsome
      exact absurd (hsome.mpr rfl) Bool.false_ne_true
  | some salt =>
    rw [hsalt] at hsome
    obtain ⟨salt', hsalt'⟩ := Option.isSome_iff_exists.mp (hsome.mp rfl)
    rw [hsalt', ← hlast e salt hsalt, ← hlast e' salt' hsalt', h]

/-- Requests that share a block hash have it at the same place, with the same tokens up to
there, the same LoRA id, and the same strings in every block that was hashed with all its
features. -/
theorem sameKeys_of_hash_eq (hcfg : cfg.CollisionFree) (hbs : 0 < cfg.blockSize)
    {e e' : EngineCoreRequest} {chunks chunks' : List (List Int)}
    (hs : e.mmFeatures.Pairwise fun f g => f.mmPosition.stop ≤ g.mmPosition.offset)
    (hs' : e'.mmFeatures.Pairwise fun f g => f.mmPosition.stop ≤ g.mmPosition.offset)
    (hsalt : e.cacheSalt ≠ some "") (hsalt' : e'.cacheSalt ≠ some "")
    {hashes hashes' : List BlockHash} (hrun : blockHashesAfter cfg e chunks = .ok hashes)
    (hrun' : blockHashesAfter cfg e' chunks' = .ok hashes') {j j' : Nat} {hash : BlockHash}
    (hj : hashes[j]? = some hash) (hj' : hashes'[j']? = some hash) :
    j = j' ∧ SameKeys cfg.blockSize e e' chunks chunks' j := by
  obtain ⟨r, hr, rfl, htokens⟩ := blockHashesAfter_tagged hbs hs hrun
  obtain ⟨r', hr', rfl, htokens'⟩ := blockHashesAfter_tagged hbs hs' hrun'
  obtain ⟨mm, hchain, hmm⟩ := hr.chain
  obtain ⟨mm', hchain', hmm'⟩ := hr'.chain
  have hlt : j < r.blockHashes.length := (List.getElem?_eq_some_iff.mp hj).1
  have hlt' : j' < r'.blockHashes.length := (List.getElem?_eq_some_iff.mp hj').1
  rw [hchain] at hj
  rw [hchain'] at hj'
  obtain ⟨rfl, hblocks⟩ := hashChain_content hcfg hlt hlt' (hj.trans hj'.symm)
  have hcontent : ∀ k ≤ j,
      KeyComplete cfg.blockSize (firstCallBlocks cfg.blockSize e.prompt.allTokenIds.length chunks)
        e.mmFeatures k →
      KeyComplete cfg.blockSize (firstCallBlocks cfg.blockSize e'.prompt.allTokenIds.length chunks')
        e'.mmFeatures k →
      e.loraRequest = e'.loraRequest ∧
        keyStrings e cfg.blockSize k = keyStrings e' cfg.blockSize k := by
    intro k hk hcomplete hcomplete'
    have heq := (hblocks k hk).2
    rw [blockExtraKeys_tagged hr.toKeyedBy hsalt hbs (hmm k hcomplete),
      blockExtraKeys_tagged hr'.toKeyedBy hsalt' hbs (hmm' k hcomplete')] at heq
    exact taggedKeys_content heq
  obtain ⟨hlora, hstrings⟩ := hcontent 0 (Nat.zero_le j)
    (Or.inl (hr.first_pos (Nat.zero_lt_of_lt hlt)))
    (Or.inl (hr'.first_pos (Nat.zero_lt_of_lt hlt')))
  refine ⟨rfl, ?_, hlora, fun k hk hcomplete hcomplete' => (hcontent k hk hcomplete hcomplete').2,
    salt_eq_of_keyStrings hstrings⟩
  have htake := take_eq_of_slices fun k hk => (hblocks k hk).1
  rwa [htokens, htokens'] at htake

/-- The identifier of the feature at a position. -/
def identifierAt (features : List MultiModalFeatureSpec) (i : Nat) : Option String :=
  (features.find? fun f => f.mmPosition.offset ≤ i ∧ i < f.mmPosition.stop).map (·.identifier)

/-- The same tokens, LoRA id and salt, and the same inputs at the same positions. -/
structure SameContent (blockSize : Nat) (e e' : EngineCoreRequest) (tokens tokens' : List Int)
    (j : Nat) : Prop where
  tokens : tokens.take ((j + 1) * blockSize) = tokens'.take ((j + 1) * blockSize)
  lora : e.loraRequest = e'.loraRequest
  salt : e.cacheSalt = e'.cacheSalt
  features : ∀ i < (j + 1) * blockSize,
    identifierAt e.mmFeatures i = identifierAt e'.mmFeatures i

/-- Two tokens under a salt. -/
def saltedRequest : EngineCoreRequest :=
  { requestId := "salted", prompt := .tokenIds [9, 9], cacheSalt := some "s" }

/-- The same tokens without a salt; an input stands for one of them. -/
def imageRequest (offset : Nat) : EngineCoreRequest :=
  { requestId := "image", prompt := .tokenIds [9, 9], mmFeatures := [⟨"s", ⟨offset, 1⟩⟩] }

/-- A salt and an input of the same name have the same hash, wherever the input is. -/
theorem not_sameContent_saltedRequest : (plainHashing 2).CollisionFree ∧
    (∃ hash, blockHashesAfter (plainHashing 2) saltedRequest [] = .ok [hash] ∧
      blockHashesAfter (plainHashing 2) (imageRequest 0) [] = .ok [hash] ∧
      blockHashesAfter (plainHashing 2) (imageRequest 1) [] = .ok [hash]) ∧
    ¬ SameContent 2 saltedRequest (imageRequest 0) [9, 9] [9, 9] 0 ∧
    ¬ SameContent 2 (imageRequest 0) (imageRequest 1) [9, 9] [9, 9] 0 := by
  refine ⟨plainHashing_collisionFree 2, ⟨plainHash ([2], [9, 9], some [.str "s"]), ?_, ?_, ?_⟩,
    fun h => ?_, fun h => ?_⟩
  · decide +kernel
  · decide +kernel
  · decide +kernel
  · exact absurd h.salt (by decide)
  · exact absurd (h.features 0 (by decide)) (by decide)

/-- An input under a salt of its own. -/
def privateRequest (offset : Nat) : EngineCoreRequest :=
  { imageRequest offset with cacheSalt := some "t" }

/-- Two requests that share their first block and go on differently. -/
theorem sameKeys_privateRequest :
    SameKeys 2 (privateRequest 0) (privateRequest 1) [[1]] [[2]] 0 := by
  have hrun : blockHashesAfter (plainHashing 2) (privateRequest 0) [[1]] =
      .ok [plainHash ([2], [9, 9], some [.str "s", .str "t"])] := by decide +kernel
  have hrun' : blockHashesAfter (plainHashing 2) (privateRequest 1) [[2]] =
      .ok [plainHash ([2], [9, 9], some [.str "s", .str "t"])] := by decide +kernel
  exact (sameKeys_of_hash_eq (j := 0) (plainHashing_collisionFree 2) (by decide) (by decide)
    (by decide) (by decide) (by decide) hrun hrun' (List.getElem?_cons_zero ..)
    (List.getElem?_cons_zero ..)).2

end VllmV1
