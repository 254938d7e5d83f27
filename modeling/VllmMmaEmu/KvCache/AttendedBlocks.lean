import VllmMmaEmu.KvCache.TableSteps
import VllmMmaEmu.KvCache.WindowHits

/-!
# Blocks that tokens attend to

Over every run of `allocate_slots` calls the blocks from the window of the next token on stay
in the table, and each of them is a hit or was filled by the request.
-/

namespace VllmV1

open Python

/-- The manager, the blocks that the request got in one group, hits and then blocks to fill,
and the tokens that its last step computes. -/
structure Track where
  kv : KVCacheManager
  hits : List BlockId
  filled : List BlockId
  first : Int
  last : Int

namespace Track

open KVCacheManager

/-- One operation. An `allocate_slots` for the request sets the tokens of the next step; none
are computed when it fails. -/
def runOp (i : Nat) (requestId : String) (x : Track) (op : KVOp) : Except PyError Track :=
  match op with
  | .allocate request args =>
    if request.requestId = requestId then do
      let (new, kv) ← x.kv.allocateSlots request { args with newComputedBlocks := none }
      return { x with
        kv := kv
        filled := x.filled ++ groupBlocks i new
        first := request.numComputedTokens
        last := if new.isSome then
            request.numComputedTokens + args.numNewComputedTokens + args.numNewTokens
          else request.numComputedTokens }
    else do
      let kv ← x.kv.runOp op
      return { x with kv := kv }
  | _ => do
    let kv ← x.kv.runOp op
    return { x with kv := kv }

/-- The operations as the scheduler issues them until the request is freed: the computed
tokens of the request do not decrease. -/
def Continues (cfg : HashConfig) (requestId : String) (x : Track) (op : KVOp) : Prop :=
  HashesMade cfg op ∧ match op with
  | .allocate request args => request.requestId = requestId →
      x.first ≤ request.numComputedTokens ∧ 0 ≤ args.numLookaheadTokens
  | op => op.LeavesTable requestId

/-- A request without blocks gets its first ones, with hits of which group `i` found its own
by `find_longest_cache_hit`. -/
structure Started (i : Nat) (spec : KVCacheSpec) (request : Request) (maxLength : Nat)
    (args : AllocArgs) (s : KVCacheManager) (x : Track) : Prop where
  wellKept : s.WellKept
  group : s.config.kvCacheGroups[i]? = some spec
  noBlocks : ∀ m, s.singleTypeManagers[i]? = some m → m.blocksOf request.requestId = []
  found : ∃ (gs : List Nat) (useEagle : Bool) (rows : List (List BlockId)) (k : Nat),
    SingleTypeManager.findLongestCacheHit spec s.blockPool request.blockHashes maxLength gs
      useEagle s.config.dcpWorldSize = .ok rows ∧
    gs[k]? = some i ∧ rows[k]? = some x.hits
  noneComputed : request.numComputedTokens = 0
  newComputed : args.numNewComputedTokens = (x.hits.length * spec.blockSize : Nat)
  lookahead : 0 ≤ args.numLookaheadTokens
  allocated : ∃ hits new, s.GoodHits hits ∧ hits[i]? = some x.hits ∧
    s.allocateSlots request { args with newComputedBlocks := some hits } =
      .ok (some new, x.kv) ∧ x.filled = groupBlocks i (some new)
  first : x.first = args.numNewComputedTokens
  last : x.last = x.first + args.numNewTokens

/-- No hash of the request leads to the null block, and the null padding of the hits is
aligned. -/
structure SafeHits (i : Nat) (spec : KVCacheSpec) (request : Request) (maxLength : Nat)
    (s : KVCacheManager) (x : Track) : Prop where
  notNull : ∀ h ∈ request.blockHashes,
    s.blockPool.cachedBlockHashToBlock.getOneBlock (h, i) ≠ some nullBlock
  aligned : SingleTypeManager.PaddingAligned spec maxLength x.hits.length

/-- The states of runs that begin with the first blocks of the request. -/
abbrev ReachedFrom (cfg : HashConfig) (i : Nat) (request : Request)
    (start : Track → Prop) : Track → Prop :=
  Runs.Reached start (fun x op => x.Continues cfg request.requestId op)
    fun x op x' => x.runOp i request.requestId op = .ok x'

/-- Every position that a token of the last step attends to lies in a block of the table that
is not null and that is cached with the hash of the request or filled by the request. -/
def AttendsToHeld (i : Nat) (spec : KVCacheSpec) (request : Request) (x : Track) : Prop :=
  ∃ m, x.kv.singleTypeManagers[i]? = some m ∧
    ∀ p q : Nat, x.first ≤ p → p < x.last → p < x.kv.config.maxModelLen →
      spec.kind.Attends p q →
      ∃ b, (m.blocksOf request.requestId)[q / spec.blockSize]? = some b ∧ b ≠ nullBlock ∧
        ((∃ h, request.blockHashes[q / spec.blockSize]? = some h ∧
            x.kv.blockPool.blockHash b = some (h, i)) ∨
          (x.hits.length ≤ q / spec.blockSize ∧
            x.filled[q / spec.blockSize - x.hits.length]? = some b))

/-- The table of the group: what the request got, with blocks before the window of `first`
removed, hits under their hashes, and slots up to `last`. -/
structure TableOk (i : Nat) (spec : KVCacheSpec) (request : Request) (start : Int) (x : Track)
    (m : SingleTypeManager) : Prop where
  sameSpec : m.kvCacheSpec = spec
  blockSize : m.blockSize = spec.blockSize
  masked : Masked (spec.windowBlock x.first) (x.hits ++ x.filled) (m.blocksOf request.requestId)
  notNull : ∀ (j : Nat) (b : BlockId), (x.hits ++ x.filled)[j]? = some b →
    spec.windowBlock start ≤ j → b ≠ nullBlock
  hashed : ∀ (j : Nat) (b : BlockId), (m.blocksOf request.requestId)[j]? = some b →
    j < x.hits.length → b ≠ nullBlock →
    ∃ h, request.blockHashes[j]? = some h ∧ x.kv.blockPool.blockHash b = some (h, i)
  covered : min x.last x.kv.config.maxModelLen ≤
    (m.blocksOf request.requestId).length * m.blockSize ∨ x.last ≤ x.first

structure TrackOk (i : Nat) (spec : KVCacheSpec) (request : Request) (start : Int) (x : Track) :
    Prop where
  wellKept : x.kv.WellKept
  started : start ≤ x.first
  table : ∃ m, x.kv.singleTypeManagers[i]? = some m ∧ x.TableOk i spec request start m

variable {i : Nat} {spec : KVCacheSpec} {request : Request} {start : Int} {x x' : Track}

lemma TrackOk.attendsToHeld (h : x.TrackOk i spec request start) :
    x.AttendsToHeld i spec request := by
  obtain ⟨m, hm, htable⟩ := h.table
  refine ⟨m, hm, fun p q hfirst hlast hmax hattends => ?_⟩
  have hpos := spec.blockSize_pos
  have hle : q ≤ p := hattends.le
  have hlength : q / spec.blockSize < (m.blocksOf request.requestId).length := by
    rw [Nat.div_lt_iff_lt_mul hpos]
    rcases htable.covered with hcovered | hempty
    · rw [htable.blockSize] at hcovered
      have hlt : (p : Int) < ((m.blocksOf request.requestId).length * spec.blockSize : Nat) := by
        push_cast
        omega
      omega
    · omega
  have hsame := htable.masked.useful hlength (KVCacheSpec.windowBlock_le hfirst hattends)
  have hb := List.getElem?_eq_getElem hlength
  have hnull := htable.notNull _ _ (hsame.symm.trans hb)
    (KVCacheSpec.windowBlock_le (h.started.trans hfirst) hattends)
  refine ⟨_, hb, hnull, ?_⟩
  by_cases hhit : q / spec.blockSize < x.hits.length
  · exact .inl (htable.hashed _ _ hb hhit hnull)
  · rw [List.getElem?_append_right (not_lt.mp hhit)] at hsame
    exact .inr ⟨not_lt.mp hhit, hsame.symm.trans hb⟩

lemma started_of_getComputedBlocks (i : Nat) (spec : KVCacheSpec) (args : AllocArgs)
    {cfg : HashConfig} (hcfg : cfg.CollisionFree) {s kv : KVCacheManager} {hits new : List (List BlockId)} {length : Int}
    (h : s.WellKept) (hgroup : s.config.kvCacheGroups[i]? = some spec)
    (hlocal : spec.kind.IsLocal) (hcaching : s.config.enableCaching = true)
    (hlogprobs : request.samplingParams.bind SamplingParams.promptLogprobs = none)
    (htokens : 0 < request.numTokens) (hmade : MadeHashes cfg request.blockHashes)
    (hno : ∀ m, s.singleTypeManagers[i]? = some m → m.blocksOf request.requestId = [])
    (hnone : request.numComputedTokens = 0) (hnew : args.numNewComputedTokens = length)
    (hlook : 0 ≤ args.numLookaheadTokens)
    (hcomputed : s.getComputedBlocks request = .ok (hits, length))
    (halloc : s.allocateSlots request { args with newComputedBlocks := some hits } =
      .ok (some new, kv)) :
    ∃ maxLength row, hits[i]? = some row ∧
      Started i spec request maxLength args s
        ⟨kv, row, groupBlocks i (some new), length, length + args.numNewTokens⟩ := by
  obtain ⟨maxLength, gs, rows, k, row, hfound, hg, hrow, hat, hlength⟩ :=
    getComputedBlocks_found h hgroup hlocal hcaching hlogprobs htokens hcomputed
  exact ⟨maxLength, row, hat, {
    wellKept := h
    group := hgroup
    noBlocks := hno
    found := ⟨gs, _, rows, k, hfound, hg, hrow⟩
    noneComputed := hnone
    newComputed := hnew.trans hlength
    lookahead := hlook
    allocated := ⟨hits, new, getComputedBlocks_goodHits h (hmade.chained.nodup hcfg) hcomputed,
      hat, halloc, rfl⟩
    first := hnew.symm
    last := rfl }⟩

lemma tokensFor_local {m : SingleTypeManager} (hlocal : m.kvCacheSpec.kind.IsLocal)
    (numTokens numEncoderTokens : Int) : tokensFor m numTokens numEncoderTokens = numTokens := by
  unfold tokensFor
  split_ifs with hcross
  · rw [hcross] at hlocal
    exact hlocal.elim
  · rfl

lemma Started.ok {maxLength : Nat} {args : AllocArgs} {s : KVCacheManager}
    (hlocal : spec.kind.IsLocal) (h : x.Started i spec request maxLength args s)
    (hsafe : x.SafeHits i spec request maxLength s) : x.TrackOk i spec request x.first := by
  obtain ⟨gs, useEagle, rows, k, hfind, hg, hrow⟩ := h.found
  obtain ⟨hits, new, hgood, hhits, hrun, hfilled⟩ := h.allocated
  obtain ⟨hdcp, firstHit, len, hrows, hle⟩ :=
    SingleTypeManager.findLongestCacheHit_rows hlocal (by rintro rfl; simp at hg) hfind
  have hhit := forall₂_getElem? hrows hg hrow
  have hlen := hhit.length
  subst hlen
  have hle := hle hsafe.aligned
  obtain ⟨m, hm, hspec, hsize⟩ := h.wellKept.manager_at h.group
  rw [if_neg (by omega)] at hsize
  obtain ⟨left, m', hm', hstep, hcovers⟩ :=
    allocateSlots_at (a := { args with newComputedBlocks := some hits }) h.wellKept hgood hrun hm
  obtain rfl : left = [] := by
    have hlength := hstep.masked.length
    rwa [h.noBlocks m hm, List.length_nil, List.length_eq_zero_iff] at hlength
  have htable : m'.blocksOf request.requestId = x.hits ++ x.filled := by
    rw [hstep.table, hfilled]
    simp [groupBlocks, hhits]
  have hkept : ∀ b ∈ x.hits, HashKept s.blockPool x.kv.blockPool b := by
    intro b hb
    refine hstep.kept b ?_
    simpa [groupBlocks, hhits] using hb
  obtain ⟨hspec', hsize'⟩ : m'.kvCacheSpec = m.kvCacheSpec ∧ m'.blockSize = m.blockSize := by
    obtain ⟨hkind, hrest⟩ := Prod.mk.inj hstep.others.spec
    exact ⟨hkind, (Prod.mk.inj hrest).1⟩
  have hfirst : x.first = (x.hits.length * spec.blockSize : Nat) := h.first.trans h.newComputed
  have hwellKept : x.kv.WellKept := allocateSlots_wellKept
    (a := { args with newComputedBlocks := some hits }) h.wellKept hgood hrun
  refine ⟨hwellKept, le_rfl, m', hm', {
    sameSpec := hspec'.trans hspec
    blockSize := hsize'.trans hsize
    masked := htable ▸ .refl _ _
    notNull := fun j b hb hwindow => ?_
    hashed := fun j b hb hj hnull => ?_
    covered := .inl ?_ }⟩
  · by_cases hj : j < x.hits.length
    · rw [List.getElem?_append_left hj] at hb
      rw [hfirst] at hwindow
      obtain ⟨hash, b', hhash, hb', hone⟩ := hhit.hit j (by omega) hj
      obtain rfl := Option.some.inj (hb.symm.trans hb')
      rintro rfl
      exact hsafe.notNull hash (List.mem_of_getElem? hhash) hone
    · rw [List.getElem?_append_right (not_lt.mp hj)] at hb
      exact hstep.fresh b (hfilled ▸ List.mem_of_getElem? hb)
  · rw [htable, List.getElem?_append_left hj] at hb
    have hnotPad : firstHit ≤ j := by
      by_contra hlt
      exact hnull (Option.some.inj (hb.symm.trans (hhit.null j (not_le.mp hlt) hj)))
    obtain ⟨hash, b', hhash, hb', hheld⟩ :=
      (hhit.hit j hnotPad hj).blockHash h.wellKept.accounted.pool.toMapOk
    obtain rfl := Option.some.inj (hb.symm.trans hb')
    exact ⟨hash, hhash, hkept b (List.mem_of_getElem? hb) _ (hheld hnull)⟩
  · have hcovers := hcovers rfl
    rw [Covers, tokensFor_local (by rwa [hspec', hspec]), numTokensNeedSlot, h.noneComputed,
      ← allocateSlots_config hrun] at hcovers
    have hlast := h.last
    have hnew := h.first
    have hlook := h.lookahead
    simp only at hcovers
    omega

lemma TrackOk.allocate {request' : Request} {args : AllocArgs} (hlocal : spec.kind.IsLocal)
    (h : x.TrackOk i spec request start) (hid : request'.requestId = request.requestId)
    (hcomputed : x.first ≤ request'.numComputedTokens) (hlook : 0 ≤ args.numLookaheadTokens)
    (hrun : x.runOp i request.requestId (.allocate request' args) = .ok x') :
    x'.TrackOk i spec request start := by
  obtain ⟨m, hm, hok⟩ := h.table
  simp only [runOp, hid, if_pos] at hrun
  obtain ⟨⟨new, kv⟩, halloc, hret⟩ := bind_eq_ok.mp hrun
  obtain rfl := Except.ok.inj hret
  obtain ⟨left, m', hm', hstep, hcovers⟩ := allocateSlots_at
    (a := { args with newComputedBlocks := none }) h.wellKept (goodHits_empty h.wellKept) halloc hm
  have hwellKept : kv.WellKept := allocateSlots_wellKept
    (a := { args with newComputedBlocks := none }) h.wellKept (goodHits_empty h.wellKept) halloc
  have hnoHits : (if new.isSome then groupBlocks i none else []) = [] := by
    simp [groupBlocks]
  simp only [hnoHits] at hstep
  have htable : m'.blocksOf request.requestId = left ++ groupBlocks i new := by
    rw [← hid, hstep.table, List.nil_append]
  obtain ⟨hspec, hsize⟩ : m'.kvCacheSpec = m.kvCacheSpec ∧ m'.blockSize = m.blockSize := by
    obtain ⟨hkind, hrest⟩ := Prod.mk.inj hstep.others.spec
    exact ⟨hkind, (Prod.mk.inj hrest).1⟩
  have hremoved : Masked (spec.windowBlock request'.numComputedTokens)
      (m.blocksOf request.requestId) left := by
    have huseful := SingleTypeManager.firstUsefulBlock_le (hok.blockSize.trans (hok.sameSpec ▸ rfl))
      request'.requestId request'.numComputedTokens
    rw [hok.sameSpec] at huseful
    exact hid ▸ hstep.masked.mono huseful
  have hleft : Masked (spec.windowBlock request'.numComputedTokens) (x.hits ++ x.filled) left :=
    (hok.masked.mono (spec.windowBlock_mono hcomputed)).trans hremoved
  refine ⟨hwellKept, h.started.trans hcomputed, m', hm', {
    sameSpec := hspec.trans hok.sameSpec
    blockSize := hsize.trans hok.blockSize
    masked := ?_
    notNull := fun j b hb hwindow => ?_
    hashed := fun j b hb hj hnull => ?_
    covered := ?_ }⟩
  · rw [htable, ← List.append_assoc]
    exact hleft.append _
  · have hgiven : ((x.hits ++ x.filled) ++ groupBlocks i new)[j]? = some b := by
      rw [List.append_assoc]
      exact hb
    by_cases hj : j < (x.hits ++ x.filled).length
    · rw [List.getElem?_append_left hj] at hgiven
      exact hok.notNull j b hgiven hwindow
    · rw [List.getElem?_append_right (not_lt.mp hj)] at hgiven
      exact hstep.fresh b (List.mem_of_getElem? hgiven)
  · have hlength : j < left.length := by
      rw [hleft.length, List.length_append]
      exact Nat.lt_add_right _ hj
    rw [htable, List.getElem?_append_left hlength] at hb
    obtain ⟨hash, hhash, hheld⟩ := hok.hashed j b (hremoved.of_ne_null hb hnull) hj hnull
    refine ⟨hash, hhash, hstep.kept b ?_ _ hheld⟩
    simpa using List.mem_of_getElem? hb
  · cases new with
    | none => exact .inr le_rfl
    | some blocks =>
      have hcovers := hcovers rfl
      rw [Covers, tokensFor_local (by rwa [hspec, hok.sameSpec]), numTokensNeedSlot, hid,
        ← allocateSlots_config halloc] at hcovers
      refine .inl ?_
      simp only [Option.isSome_some, if_pos] at hcovers ⊢
      omega

lemma TrackOk.other {cfg : HashConfig} (hcfg : cfg.CollisionFree) {op : KVOp}
    (h : x.TrackOk i spec request start) (hmade : HashesMade cfg op)
    (hop : op.LeavesTable request.requestId) {kv : KVCacheManager}
    (hrun : x.kv.runOp op = .ok kv) :
    ({ x with kv := kv } : Track).TrackOk i spec request start := by
  obtain ⟨m, hm, hok⟩ := h.table
  obtain ⟨m', hm', hkept⟩ := runOp_tableKept hcfg h.wellKept hmade hop hrun hm
  obtain ⟨hspec, hrest⟩ := Prod.mk.inj hkept.spec
  have hsize := (Prod.mk.inj hrest).1
  refine ⟨runOp_wellKept hcfg h.wellKept hmade hrun, h.started, m', hm', {
    sameSpec := hspec.trans hok.sameSpec
    blockSize := hsize.trans hok.blockSize
    masked := hkept.table ▸ hok.masked
    notNull := hok.notNull
    hashed := fun j b hb hj hnull => ?_
    covered := ?_ }⟩
  · rw [hkept.table] at hb
    obtain ⟨hash, hhash, hheld⟩ := hok.hashed j b hb hj hnull
    exact ⟨hash, hhash, hkept.hashes b (List.mem_of_getElem? hb) hnull _ hheld⟩
  · rw [hkept.table, hsize, runOp_config hrun]
    exact hok.covered

lemma TrackOk.runOp {cfg : HashConfig} (hcfg : cfg.CollisionFree) (hlocal : spec.kind.IsLocal)
    {op : KVOp} (h : x.TrackOk i spec request start)
    (hop : x.Continues cfg request.requestId op)
    (hrun : x.runOp i request.requestId op = .ok x') : x'.TrackOk i spec request start := by
  obtain ⟨hmade, hop⟩ := hop
  cases op with
  | allocate request' args =>
    by_cases hid : request'.requestId = request.requestId
    · obtain ⟨hcomputed, hlook⟩ := hop hid
      exact h.allocate hlocal hid hcomputed hlook hrun
    · simp only [Track.runOp, if_neg hid] at hrun
      obtain ⟨kv, hkv, hret⟩ := bind_eq_ok.mp hrun
      obtain rfl := Except.ok.inj hret
      have hleaves : (KVOp.allocate request' args).LeavesTable request.requestId := hid
      exact h.other hcfg hmade hleaves hkv
  | start request' args =>
    obtain ⟨kv, hkv, hret⟩ := bind_eq_ok.mp hrun
    obtain rfl := Except.ok.inj hret
    exact h.other hcfg hmade hop hkv
  | cacheBlocks request' n =>
    obtain ⟨kv, hkv, hret⟩ := bind_eq_ok.mp hrun
    obtain rfl := Except.ok.inj hret
    exact h.other hcfg hmade hop hkv
  | free id =>
    obtain ⟨kv, hkv, hret⟩ := bind_eq_ok.mp hrun
    obtain rfl := Except.ok.inj hret
    exact h.other hcfg hmade hop hkv
  | resetPrefixCache =>
    obtain ⟨kv, hkv, hret⟩ := bind_eq_ok.mp hrun
    obtain rfl := Except.ok.inj hret
    exact h.other hcfg hmade hop hkv

/-- Once a request starts with safe hits, then in every run its tokens attend only to blocks
that are in its table, cached with its hash or filled by it. -/
theorem attendsToHeld_of_safeHits (cfg : HashConfig) (hcfg : cfg.CollisionFree) (i : Nat)
    (spec : KVCacheSpec) (hlocal : spec.kind.IsLocal) (request : Request) (x : Track)
    (h : ReachedFrom cfg i request (fun x => ∃ s args maxLength,
      x.Started i spec request maxLength args s ∧ x.SafeHits i spec request maxLength s) x) :
    x.AttendsToHeld i spec request := by
  have hinv : ∃ start, x.TrackOk i spec request start := by
    refine Runs.Reached.invariant (I := fun x => ∃ start, x.TrackOk i spec request start)
      ?_ ?_ h
    · rintro x₀ ⟨s, args, maxLength, hstarted, hsafe⟩
      exact ⟨_, hstarted.ok hlocal hsafe⟩
    · rintro x₁ op x₂ ⟨start, hx₁⟩ hop hrun
      exact ⟨start, hx₁.runOp hcfg hlocal hop hrun⟩
  obtain ⟨start, hok⟩ := hinv
  exact hok.attendsToHeld

lemma noBlocks_of_tables {s : KVCacheManager} {requestId : String}
    (h : s.singleTypeManagers.map (fun m => m.blocksOf requestId) = [[]]) (m : SingleTypeManager)
    (hm : s.singleTypeManagers[0]? = some m) : m.blocksOf requestId = [] := by
  have hmem := List.mem_map_of_mem (f := fun m => m.blocksOf requestId) (List.mem_of_getElem? hm)
  rw [h, List.mem_singleton] at hmem
  exact hmem

/-- A window of three tokens in blocks of two. -/
def windowConfig : KVCacheConfig :=
  { numBlocks := 8
    kvCacheGroups := [⟨2, .slidingWindow 3, Nat.two_pos⟩]
    maxModelLen := 16 }

/-- A request fills blocks 1 to 3 and is freed. -/
def windowOps : List KVOp :=
  [.start (tinyRequest "a" 2 [7, 8, 9, 1, 2] 0) { numNewTokens := 5 }, .free "a"]

lemma windowOps_hashesMade : ∀ op ∈ windowOps, HashesMade (plainHashing 2) op := by
  intro op hop
  simp only [windowOps, List.mem_cons, List.not_mem_nil, or_false] at hop
  rcases hop with rfl | rfl
  · exact tinyRequest_made ..
  · trivial

/-- The second request hits block 2 and computes two more tokens; the hit is then behind its
window. -/
theorem attendsToHeld_windowConfig : ∃ x : Track,
    x.hits = [0, 2] ∧ x.filled = [4, 5] ∧
    x.kv.singleTypeManagers.map (fun m => m.blocksOf "b") = [[0, 0, 4, 5]] ∧
    x.AttendsToHeld 0 ⟨2, .slidingWindow 3, Nat.two_pos⟩ (tinyRequest "b" 2 [7, 8, 9, 1, 5] 0) := by
  set request := tinyRequest "b" 2 [7, 8, 9, 1, 5] 0 with hrequest
  set args : AllocArgs := { numNewTokens := 1, numNewComputedTokens := 4 } with hargs
  set op₁ : KVOp := .allocate (tinyRequest "b" 2 [7, 8, 9, 1, 5, 6] 5) { numNewTokens := 1 }
    with hop₁
  set op₂ : KVOp := .allocate (tinyRequest "b" 2 [7, 8, 9, 1, 5, 6, 3] 6) { numNewTokens := 1 }
    with hop₂
  have hview : (do
      let s ← afterOps windowConfig windowOps
      let hit ← s.getComputedBlocks request
      let slots ← s.allocateSlots request { args with newComputedBlocks := some hit.1 }
      let x₁ ← Track.runOp 0 "b" ⟨slots.2, [0, 2], groupBlocks 0 slots.1, 4, 5⟩ op₁
      let x ← x₁.runOp 0 "b" op₂
      return (decide (hit.1 = [[0, 2]] ∧ hit.2 = 4 ∧ slots.1 = some [[4]] ∧ s.config = windowConfig ∧
          s.singleTypeManagers.map (fun m => m.blocksOf "b") = [[]] ∧
          ∀ h ∈ request.blockHashes,
            s.blockPool.cachedBlockHashToBlock.getOneBlock (h, 0) ≠ some nullBlock),
        decide (x₁.first = 5 ∧ x.hits = [0, 2] ∧ x.filled = [4, 5] ∧
          x.kv.singleTypeManagers.map (fun m => m.blocksOf "b") = [[0, 0, 4, 5]]))) =
      (.ok (true, true) : Except PyError (Bool × Bool)) := by
    rw [hrequest, hargs, hop₁, hop₂]
    decide +kernel
  obtain ⟨s, hs, hview⟩ := bind_eq_ok.mp hview
  obtain ⟨⟨hits, length⟩, hcomputed, hview⟩ := bind_eq_ok.mp hview
  obtain ⟨⟨new, kv⟩, halloc, hview⟩ := bind_eq_ok.mp hview
  dsimp only at halloc hview
  obtain ⟨x₁, hrun₁, hview⟩ := bind_eq_ok.mp hview
  obtain ⟨x, hrun₂, hview⟩ := bind_eq_ok.mp hview
  obtain ⟨hstart, hend⟩ := Prod.mk.inj (Except.ok.inj hview)
  obtain ⟨rfl, rfl, rfl, hconfig, htables, hnotNull⟩ := of_decide_eq_true hstart
  obtain ⟨hfirst, hhits, hfilled, htable⟩ := of_decide_eq_true hend
  have hwellKept : s.WellKept := ReachedBy.wellKept (plainHashing_collisionFree 2)
    (afterOps_reached (fun op hop _ => windowOps_hashesMade op hop) hs)
  obtain ⟨maxLength, row, hrow, hstarted⟩ := started_of_getComputedBlocks 0
    ⟨2, .slidingWindow 3, Nat.two_pos⟩ args (plainHashing_collisionFree 2) hwellKept
    (by rw [hconfig]; rfl) (le_refl 2 |>.trans (by decide)) (by rw [hconfig]; rfl) rfl (by decide)
    (tinyRequest_made ..) (noBlocks_of_tables htables) rfl rfl le_rfl hcomputed halloc
  obtain rfl := Option.some.inj hrow
  have hsafe : ReachedFrom (plainHashing 2) 0 request (fun x => ∃ s args maxLength,
      x.Started 0 ⟨2, .slidingWindow 3, Nat.two_pos⟩ request maxLength args s ∧
        x.SafeHits 0 ⟨2, .slidingWindow 3, Nat.two_pos⟩ request maxLength s)
      ⟨kv, [0, 2], groupBlocks 0 (some [[4]]), 4, 5⟩ :=
    .start ⟨s, args, maxLength, hstarted, hnotNull, trivial⟩
  have hfirst₁ : (4 : Int) ≤ 5 := by decide
  have hfirst₂ : x₁.first ≤ 6 := hfirst.le.trans (by decide)
  have hreached := (hsafe.step (e := op₁) ⟨trivial, fun _ => ⟨hfirst₁, le_rfl⟩⟩ hrun₁).step
    (e := op₂) ⟨trivial, fun _ => ⟨hfirst₂, le_rfl⟩⟩ hrun₂
  exact ⟨x, hhits, hfilled, htable, attendsToHeld_of_safeHits (plainHashing 2)
    (plainHashing_collisionFree 2) 0 ⟨2, .slidingWindow 3, Nat.two_pos⟩ (show 2 ≤ 3 by decide)
    request x hreached⟩

/-- Chunks of six tokens in blocks of four. -/
def chunkConfig : KVCacheConfig :=
  { numBlocks := 8
    kvCacheGroups := [⟨4, .chunkedLocal 6, Nat.succ_pos 3⟩]
    maxModelLen := 16 }

lemma not_attendsToHeld_of_null {table : List BlockId} {p q : Nat}
    (htable : x.kv.singleTypeManagers.map (fun m => m.blocksOf request.requestId) = [table])
    (hnull : table[q / spec.blockSize]? = some nullBlock) (hfirst : x.first ≤ p)
    (hlast : p < x.last) (hmax : p < x.kv.config.maxModelLen)
    (hattends : spec.kind.Attends p q) : ¬ x.AttendsToHeld i spec request := by
  rintro ⟨m, hm, hall⟩
  obtain ⟨b, hb, hne, -⟩ := hall p q hfirst hlast hmax hattends
  have hmem := List.mem_map_of_mem (f := fun m => m.blocksOf request.requestId)
    (List.mem_of_getElem? hm)
  rw [htable, List.mem_singleton] at hmem
  rw [show m.blocksOf request.requestId = table from hmem, hnull] at hb
  exact hne (Option.some.inj hb).symm

/-- The padding of a prompt of eight tokens is one block and ends inside the first chunk, to
which the first computed token attends. -/
lemma not_attendsToHeld_chunkConfig : ∃ s, ReachedBy chunkConfig
      (fun _ => HashesMade (plainHashing 4)) s ∧
    ∃ x args maxLength,
      Started 0 ⟨4, .chunkedLocal 6, Nat.succ_pos 3⟩
        (tinyRequest "b" 4 [7, 8, 9, 1, 5, 2, 3, 6] 0) maxLength args s x ∧
      ¬ x.AttendsToHeld 0 ⟨4, .chunkedLocal 6, Nat.succ_pos 3⟩
        (tinyRequest "b" 4 [7, 8, 9, 1, 5, 2, 3, 6] 0) := by
  set request := tinyRequest "b" 4 [7, 8, 9, 1, 5, 2, 3, 6] 0 with hrequest
  set args : AllocArgs := { numNewTokens := 4, numNewComputedTokens := 4 } with hargs
  have hview : (do
      let s ← init chunkConfig
      let hit ← s.getComputedBlocks request
      let slots ← s.allocateSlots request { args with newComputedBlocks := some hit.1 }
      return decide (hit.1 = [[0]] ∧ hit.2 = 4 ∧ slots.1 = some [[1]] ∧ s.config = chunkConfig ∧
        slots.2.config.maxModelLen = 16 ∧
        s.singleTypeManagers.map (fun m => m.blocksOf "b") = [[]] ∧
        slots.2.singleTypeManagers.map (fun m => m.blocksOf "b") = [[0, 1]])) =
      (.ok true : Except PyError Bool) := by
    rw [hrequest, hargs]
    decide +kernel
  obtain ⟨s, hs, hview⟩ := bind_eq_ok.mp hview
  obtain ⟨⟨hits, length⟩, hcomputed, hview⟩ := bind_eq_ok.mp hview
  obtain ⟨⟨new, kv⟩, halloc, hview⟩ := bind_eq_ok.mp hview
  dsimp only at halloc hview
  obtain ⟨rfl, rfl, rfl, hconfig, hmax, htables, htable⟩ := of_decide_eq_true (Except.ok.inj hview)
  obtain ⟨maxLength, row, hrow, hstarted⟩ := started_of_getComputedBlocks 0
    ⟨4, .chunkedLocal 6, Nat.succ_pos 3⟩ args (plainHashing_collisionFree 4)
    (init_wellKept hs) (by rw [hconfig]; rfl) (show 0 < 6 by decide) (by rw [hconfig]; rfl) rfl
    (by decide) (tinyRequest_made ..) (noBlocks_of_tables htables) rfl rfl le_rfl hcomputed halloc
  obtain rfl := Option.some.inj hrow
  refine ⟨s, .start hs, _, args, maxLength, hstarted, ?_⟩
  exact not_attendsToHeld_of_null (p := 4) (q := 3) htable rfl
    (show (4 : Int) ≤ 4 by decide) (show (4 : Int) < 4 + 4 by decide) (by rw [hmax]; decide)
    (show 3 ≤ 4 ∧ 3 / 6 = 4 / 6 by decide)

lemma draftOps_hashesMade : ∀ op ∈ draftOps, HashesMade (plainHashing 1) op := by
  intro op hop
  simp only [draftOps, List.mem_cons, List.not_mem_nil, or_false] at hop
  rcases hop with rfl | rfl | rfl
  · exact tinyRequest_made ..
  · trivial
  · trivial

/-- After accepted draft tokens the null block is cached as the third block of the next
prompt. -/
lemma not_attendsToHeld_draftOps : ∃ s, ReachedBy slidingConfig
      (fun _ => HashesMade (plainHashing 1)) s ∧
    ∃ x args maxLength,
      Started 0 ⟨1, .slidingWindow 2, Nat.one_pos⟩ (tinyRequest "b" 1 [7, 8, 9, 5] 0) maxLength
        args s x ∧
      ¬ x.AttendsToHeld 0 ⟨1, .slidingWindow 2, Nat.one_pos⟩
        (tinyRequest "b" 1 [7, 8, 9, 5] 0) := by
  set request := tinyRequest "b" 1 [7, 8, 9, 5] 0 with hrequest
  set args : AllocArgs := { numNewTokens := 1, numNewComputedTokens := 3 } with hargs
  have hview : (do
      let s ← afterOps slidingConfig draftOps
      let hit ← s.getComputedBlocks request
      let slots ← s.allocateSlots request { args with newComputedBlocks := some hit.1 }
      return decide (hit.1 = [[0, 0, 0]] ∧ hit.2 = 3 ∧ slots.1 = some [[6]] ∧
        s.config = slidingConfig ∧ slots.2.config.maxModelLen = 16 ∧
        s.singleTypeManagers.map (fun m => m.blocksOf "b") = [[]] ∧
        slots.2.singleTypeManagers.map (fun m => m.blocksOf "b") = [[0, 0, 0, 6]])) =
      (.ok true : Except PyError Bool) := by
    rw [hrequest, hargs]
    decide +kernel
  obtain ⟨s, hs, hview⟩ := bind_eq_ok.mp hview
  obtain ⟨⟨hits, length⟩, hcomputed, hview⟩ := bind_eq_ok.mp hview
  obtain ⟨⟨new, kv⟩, halloc, hview⟩ := bind_eq_ok.mp hview
  dsimp only at halloc hview
  obtain ⟨rfl, rfl, rfl, hconfig, hmax, htables, htable⟩ := of_decide_eq_true (Except.ok.inj hview)
  have hreached : ReachedBy slidingConfig (fun _ => HashesMade (plainHashing 1)) s :=
    afterOps_reached (fun op hop _ => draftOps_hashesMade op hop) hs
  obtain ⟨maxLength, row, hrow, hstarted⟩ := started_of_getComputedBlocks 0
    ⟨1, .slidingWindow 2, Nat.one_pos⟩ args (plainHashing_collisionFree 1)
    (ReachedBy.wellKept (plainHashing_collisionFree 1) hreached) (by rw [hconfig]; rfl)
    (show 2 ≤ 2 by decide) (by rw [hconfig]; rfl) rfl (by decide) (tinyRequest_made ..)
    (noBlocks_of_tables htables) rfl rfl le_rfl hcomputed halloc
  obtain rfl := Option.some.inj hrow
  refine ⟨s, hreached, _, args, maxLength, hstarted, ?_⟩
  exact not_attendsToHeld_of_null (p := 3) (q := 2) htable rfl
    (show (3 : Int) ≤ 3 by decide) (show (3 : Int) < 3 + 1 by decide) (by rw [hmax]; decide)
    (show 2 ≤ 3 ∧ 3 < 2 + 2 by decide)

/-- Neither kind attends to held blocks only, whatever hits it starts with. -/
theorem not_attendsToHeld_started :
    (¬ ∀ x, ReachedFrom (plainHashing 4) 0 (tinyRequest "b" 4 [7, 8, 9, 1, 5, 2, 3, 6] 0)
        (fun x => ∃ s args maxLength, x.Started 0 ⟨4, .chunkedLocal 6, Nat.succ_pos 3⟩
          (tinyRequest "b" 4 [7, 8, 9, 1, 5, 2, 3, 6] 0) maxLength args s) x →
      x.AttendsToHeld 0 ⟨4, .chunkedLocal 6, Nat.succ_pos 3⟩
        (tinyRequest "b" 4 [7, 8, 9, 1, 5, 2, 3, 6] 0)) ∧
    ¬ ∀ x, ReachedFrom (plainHashing 1) 0 (tinyRequest "b" 1 [7, 8, 9, 5] 0)
        (fun x => ∃ s args maxLength, x.Started 0 ⟨1, .slidingWindow 2, Nat.one_pos⟩
          (tinyRequest "b" 1 [7, 8, 9, 5] 0) maxLength args s) x →
      x.AttendsToHeld 0 ⟨1, .slidingWindow 2, Nat.one_pos⟩
        (tinyRequest "b" 1 [7, 8, 9, 5] 0) := by
  constructor
  · intro hall
    obtain ⟨s, -, x, args, maxLength, hstarted, hfails⟩ := not_attendsToHeld_chunkConfig
    exact hfails (hall x (.start ⟨s, args, maxLength, hstarted⟩))
  · intro hall
    obtain ⟨s, -, x, args, maxLength, hstarted, hfails⟩ := not_attendsToHeld_draftOps
    exact hfails (hall x (.start ⟨s, args, maxLength, hstarted⟩))

end Track

end VllmV1
