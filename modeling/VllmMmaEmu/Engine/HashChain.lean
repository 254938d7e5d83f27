import Mathlib.Data.List.Nodup
import VllmMmaEmu.Engine.IncrementalHashing

/-!
# The hashes of one request are distinct

Each hash covers the one before it, down to `NONE_HASH` for the first block. Under a hash
function without collisions no hash of a request occurs twice.
-/

namespace VllmV1

open Python

/-- Each hash is that of some block after the one before it. -/
inductive Chained (cfg : HashConfig) : Option BlockHash → List BlockHash → Prop where
  | nil {prev : Option BlockHash} : Chained cfg prev []
  | cons {prev : Option BlockHash} {tokenIds : List Int} {keys : Option (List ExtraKey)}
      {rest : List BlockHash} (h : Chained cfg (some (hashBlockTokens cfg prev tokenIds keys)) rest) :
      Chained cfg prev (hashBlockTokens cfg prev tokenIds keys :: rest)

variable {cfg : HashConfig} {prev : Option BlockHash} {hashes more : List BlockHash}

lemma Chained.append (h : Chained cfg prev hashes)
    (hmore : Chained cfg (hashes.getLast?.or prev) more) : Chained cfg prev (hashes ++ more) := by
  induction h with
  | nil => exact hmore
  | cons _ ih =>
    refine .cons (ih ?_)
    rwa [List.getLast?_cons, Option.some_or, ← Option.or_some] at hmore

lemma requestBlockHasherLoop_chained {request : Request} {fuel start : Nat} {c : Int}
    (h : requestBlockHasherLoop cfg request fuel start c prev = .ok hashes) :
    Chained cfg prev hashes := by
  induction fuel generalizing start c prev hashes with
  | zero => cases h
  | succ fuel ih =>
    simp only [requestBlockHasherLoop] at h
    split_ifs at h
    · obtain rfl := Except.ok.inj h
      exact .nil
    · obtain ⟨keys, -, h⟩ := bind_eq_ok.mp h
      obtain ⟨rest, hrest, h⟩ := bind_eq_ok.mp h
      obtain rfl := Except.ok.inj h
      exact .cons (ih hrest)

lemma extendBlockHashes_chained {r r' : Request} (hr : Chained cfg none r.blockHashes)
    (h : r.extendBlockHashes (some (requestBlockHasher cfg)) = .ok r') :
    Chained cfg none r'.blockHashes := by
  obtain ⟨new, hnew, h⟩ := bind_eq_ok.mp h
  obtain rfl := Except.ok.inj h
  refine hr.append ?_
  rw [Option.or_none]
  exact requestBlockHasherLoop_chained hnew

lemma foldlM_appendOutputTokenIds_chained (chunks : List (List Int)) {r r' : Request}
    (hr : Chained cfg none r.blockHashes)
    (h : chunks.foldlM (Request.appendOutputTokenIds (some (requestBlockHasher cfg))) r = .ok r') :
    Chained cfg none r'.blockHashes := by
  induction chunks generalizing r with
  | nil =>
    obtain rfl := Except.ok.inj h
    exact hr
  | cons ids chunks ih =>
    rw [List.foldlM_cons] at h
    obtain ⟨r₁, h₁, h⟩ := bind_eq_ok.mp h
    exact ih (extendBlockHashes_chained (by simpa using hr) h₁) h

/-- The block hashes a request can have: none without a hasher, or those computed when it
was built and as its outputs arrived. -/
def MadeHashes (cfg : HashConfig) (hashes : List BlockHash) : Prop :=
  hashes = [] ∨ ∃ e chunks, blockHashesAfter cfg e chunks = .ok hashes

lemma MadeHashes.chained (h : MadeHashes cfg hashes) : Chained cfg none hashes := by
  rcases h with rfl | ⟨e, chunks, h⟩
  · exact .nil
  · obtain ⟨r₀, hinit, h⟩ := bind_eq_ok.mp h
    obtain ⟨r, hrun, h⟩ := bind_eq_ok.mp h
    obtain rfl := Except.ok.inj h
    refine foldlM_appendOutputTokenIds_chained chunks ?_ hrun
    obtain ⟨params, -, hinit⟩ := bind_eq_ok.mp hinit
    exact extendBlockHashes_chained .nil hinit

/-- What a missing or empty parent stands for. -/
def parentOf (cfg : HashConfig) : Option BlockHash → BlockHash
  | none => cfg.noneHash
  | some h => if h = [] then cfg.noneHash else h

lemma hashBlockTokens_eq (tokenIds : List Int) (keys : Option (List ExtraKey)) :
    hashBlockTokens cfg prev tokenIds keys = cfg.cachingHashFn (parentOf cfg prev, tokenIds, keys) := by
  cases prev <;> rfl

/-- The parents of a chain in order: the hash before each block. -/
lemma Chained.getElem (hcfg : cfg.CollisionFree) (h : Chained cfg none hashes) {i : Nat}
    {hash : BlockHash} (hi : hashes[i]? = some hash) :
    ∃ x, hash = cfg.cachingHashFn x ∧
      (i = 0 ∧ x.1 = cfg.noneHash ∨ ∃ j, i = j + 1 ∧ hashes[j]? = some x.1) := by
  have hgen : ∀ {prev : Option BlockHash} {hashes : List BlockHash}, Chained cfg prev hashes →
      ∀ {i : Nat} {hash : BlockHash}, hashes[i]? = some hash →
      ∃ x, hash = cfg.cachingHashFn x ∧
        (i = 0 ∧ x.1 = parentOf cfg prev ∨ ∃ j, i = j + 1 ∧ hashes[j]? = some x.1) := by
    intro prev hashes h
    induction h with
    | nil => intro i hash hi; simp at hi
    | cons _ ih =>
      rename_i prev tokenIds keys rest _
      intro i hash hi
      cases i with
      | zero =>
        rw [List.getElem?_cons_zero, Option.some.injEq, hashBlockTokens_eq] at hi
        exact ⟨_, hi.symm, Or.inl ⟨rfl, rfl⟩⟩
      | succ i =>
        rw [List.getElem?_cons_succ] at hi
        obtain ⟨x, hx, hpar⟩ := ih hi
        refine ⟨x, hx, Or.inr ⟨i, rfl, ?_⟩⟩
        rcases hpar with ⟨rfl, hpar⟩ | ⟨j, rfl, hj⟩
        · have hne : hashBlockTokens cfg prev tokenIds keys ≠ [] := by
            rw [hashBlockTokens_eq]
            exact hcfg.ne_nil _
          rw [hpar, List.getElem?_cons_zero, parentOf, if_neg hne]
        · exact hj
  exact hgen h hi

/-- Equal hashes have equal parents, down to the first block, whose parent is no hash. -/
theorem Chained.nodup (hcfg : cfg.CollisionFree) (h : Chained cfg none hashes) : hashes.Nodup := by
  have hlt : ∀ i j : Nat, i < j → ∀ hash, hashes[i]? = some hash → hashes[j]? ≠ some hash := by
    intro i
    induction i with
    | zero =>
      intro j hj hash hi hj'
      obtain ⟨x, hx, hparx⟩ := h.getElem hcfg hi
      obtain ⟨y, hy, hpary⟩ := h.getElem hcfg hj'
      obtain rfl : x = y := hcfg.injective (hx.symm.trans hy)
      rcases hparx with ⟨-, hparx⟩ | ⟨k, hk, -⟩
      · rcases hpary with ⟨rfl, -⟩ | ⟨k, -, hk⟩
        · omega
        · obtain ⟨z, hz, -⟩ := h.getElem hcfg hk
          exact hcfg.ne_noneHash z (hz.symm.trans hparx)
      · omega
    | succ i ih =>
      intro j hj hash hi hj'
      obtain ⟨x, hx, hparx⟩ := h.getElem hcfg hi
      obtain ⟨y, hy, hpary⟩ := h.getElem hcfg hj'
      obtain rfl : x = y := hcfg.injective (hx.symm.trans hy)
      rcases hparx with ⟨hzero, -⟩ | ⟨k, hk, hkx⟩
      · omega
      · rcases hpary with ⟨hzero, -⟩ | ⟨l, hl, hlx⟩
        · omega
        · obtain rfl : k = i := by omega
          exact ih l (by omega) x.1 hkx hlx
  rw [List.nodup_iff_getElem?_ne_getElem?]
  intro i j hij hj heq
  obtain ⟨hash, hhash⟩ : ∃ hash, hashes[j]? = some hash := ⟨_, List.getElem?_eq_getElem hj⟩
  exact hlt i j hij hash (heq.trans hhash) hhash

/-- The hashes of a text prompt under `plainHash`. -/
def promptHashes (blockSize : Nat) (prompt : List Int) : List BlockHash :=
  match blockHashesAfter (plainHashing blockSize)
      { requestId := "r", prompt := .tokenIds prompt } [] with
  | .ok hashes => hashes
  | .error _ => []

lemma promptHashes_made (blockSize : Nat) (prompt : List Int) :
    MadeHashes (plainHashing blockSize) (promptHashes blockSize prompt) := by
  unfold promptHashes
  split
  · rename_i hashes h
    exact Or.inr ⟨_, [], h⟩
  · exact Or.inl rfl

end VllmV1
