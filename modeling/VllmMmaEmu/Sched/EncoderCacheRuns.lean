import Mathlib.Algebra.Order.BigOperators.Group.List
import VllmMmaEmu.Library.Runs
import VllmMmaEmu.Sched.Schedule

/-!
# The encoder cache over a run of the scheduler

The scheduler tries the inputs of a request one by one, allocates the accepted ones when the
request got its KV blocks, and gives references back. The two counters of the cache mirror
its dictionaries as long as no input is allocated that the cache has already; only
encoder-decoder models, which never look into the cache, do that.
-/

namespace VllmV1

open Python

namespace EncoderCacheManager

/-- The counters agree with the dictionaries, for entries of the sizes `len`. -/
structure Accounted (cacheSize : Int) (len : String → Nat) (m : EncoderCacheManager) : Prop where
  slots : m.numFreeSlots + m.cached.sumKeys (fun h => (len h : Int)) = cacheSize
  freeableSlots : m.numFreeableSlots = m.numFreeSlots + m.freeable.values.sum
  unreferenced : ∀ h, h ∈ m.freeable.keys ↔ m.cached.get? h = some []
  sizes : ∀ h n, m.freeable.get? h = some n → n = len h

/-- What an eviction leaves of the cache: entries with references stay as they are. -/
structure Evicts (m m' : EncoderCacheManager) : Prop where
  referenced : ∀ h references, m.cached.get? h = some references → references ≠ [] →
    m'.cached.get? h = some references
  cached : ∀ h ∈ m'.cached.keys, h ∈ m.cached.keys
  slots : m.numFreeSlots ≤ m'.numFreeSlots

lemma Evicts.refl (m : EncoderCacheManager) : Evicts m m :=
  ⟨fun _ _ h _ => h, fun _ h => h, le_refl _⟩

lemma Evicts.trans {m₁ m₂ m₃ : EncoderCacheManager} (h : Evicts m₁ m₂) (h' : Evicts m₂ m₃) :
    Evicts m₁ m₃ :=
  ⟨fun k refs hk hne => h'.referenced k refs (h.referenced k refs hk hne) hne,
    fun k hk => h.cached k (h'.cached k hk), h.slots.trans h'.slots⟩

variable {cacheSize : Int} {len : String → Nat} {m m' : EncoderCacheManager}

lemma init_accounted (cacheSize : Int) (len : String → Nat) :
    (init cacheSize).Accounted cacheSize len := by
  constructor
  · simp [init]
  · simp [init, Dict.values, Dict.empty]
  · intro h
    simp [init, Dict.keys, Dict.empty, Dict.get?, Dict.lookupEntry]
  · intro h n hn
    simp [init] at hn

lemma Accounted.mem_cached (h : m.Accounted cacheSize len) {k : String}
    (hk : k ∈ m.freeable.keys) : k ∈ m.cached.keys :=
  Dict.mem_keys_iff.mpr ⟨[], (h.unreferenced k).mp hk⟩

lemma Accounted.free_le_freeable (h : m.Accounted cacheSize len) :
    m.numFreeSlots ≤ m.numFreeableSlots := by
  have hnonneg : 0 ≤ m.freeable.values.sum := by
    refine List.sum_nonneg fun n hn => ?_
    obtain ⟨⟨k, n'⟩, hmem, rfl⟩ := List.mem_map.mp hn
    have hsize := h.sizes k n' (Dict.get?_eq_some_iff.mpr hmem)
    simp only [hsize]
    exact Int.natCast_nonneg _
  have := h.freeableSlots
  omega

lemma Accounted.evict (h : m.Accounted cacheSize len) {k : String} {n : Int}
    (hk : m.freeable.get? k = some n) :
    Accounted cacheSize len { m with
      freeable := m.freeable.erase k
      cached := m.cached.erase k
      freed := m.freed ++ [k]
      numFreeSlots := m.numFreeSlots + n } := by
  have hmem : k ∈ m.freeable.keys := Dict.mem_keys_iff.mpr ⟨n, hk⟩
  have hsize := h.sizes k n hk
  constructor
  · have hkeys := Dict.sumKeys_erase (fun k => (len k : Int)) (h.mem_cached hmem)
    have := h.slots
    simp only at hkeys ⊢
    omega
  · have hvalues := Dict.sumBy_erase id m.freeable k
    have := h.freeableSlots
    simp only [Dict.part, hk, Dict.values_sum] at hvalues this ⊢
    simp at hvalues
    omega
  · intro k'
    simp only [Dict.mem_keys_erase, Dict.get?_erase]
    by_cases heq : k = k'
    · simp [heq]
    · simp [heq, Ne.symm heq, h.unreferenced]
  · intro k' n' hn'
    simp only [Dict.get?_erase] at hn'
    split_ifs at hn'
    exact h.sizes k' n' hn'

/-- Eviction in order of age finds enough room and never touches a referenced entry. -/
lemma Accounted.evictLoop {entries : List (String × Int)} {numTokens : Int}
    (h : m.Accounted cacheSize len) (hentries : m.freeable.entries = entries)
    (hroom : numTokens ≤ m.numFreeableSlots) :
    ∃ m', evictLoop numTokens m entries = .ok m' ∧ m'.Accounted cacheSize len ∧ m.Evicts m' ∧
      numTokens ≤ m'.numFreeSlots := by
  induction entries generalizing m with
  | nil =>
    have hfree : numTokens ≤ m.numFreeSlots := by
      have := h.freeableSlots
      simp only [Dict.values, hentries, List.map_nil, List.sum_nil, add_zero] at this
      omega
    exact ⟨m, by simp [EncoderCacheManager.evictLoop, hfree], h, .refl m, hfree⟩
  | cons entry rest ih =>
    obtain ⟨k, n⟩ := entry
    by_cases hfull : numTokens > m.numFreeSlots
    · have hk : m.freeable.get? k = some n :=
        Dict.get?_eq_some_iff.mpr (hentries ▸ List.mem_cons_self)
      have hmem : k ∈ m.freeable.keys := Dict.mem_keys_iff.mpr ⟨n, hk⟩
      have hrest : (m.freeable.erase k).entries = rest := by
        have hnodup := m.freeable.nodup
        rw [hentries, List.map_cons, List.nodup_cons] at hnodup
        simp only [Dict.erase, hentries]
        rw [List.filter_cons_of_neg (by simp), List.filter_eq_self]
        intro p hp
        have hne : p.1 ≠ k := fun heq => hnodup.1 (List.mem_map.mpr ⟨p, hp, heq⟩)
        simp [hne]
      obtain ⟨m', hloop, hacc, hevicts, hfree⟩ := ih (h.evict hk) hrest hroom
      refine ⟨m', ?_, hacc, Evicts.trans ?_ hevicts, hfree⟩
      · simp only [EncoderCacheManager.evictLoop, hfull, if_true, h.mem_cached hmem]
        exact hloop
      · constructor
        · intro k' references hk' hne
          have hother : k ≠ k' := by
            rintro rfl
            rw [(h.unreferenced k).mp hmem] at hk'
            exact hne (Option.some.inj hk').symm
          simpa [Dict.get?_erase_of_ne hother] using hk'
        · exact fun k' hk' => (Dict.mem_keys_erase.mp hk').2
        · have := h.sizes k n hk
          simp only
          omega
    · exact ⟨m, by simp [EncoderCacheManager.evictLoop, hfull], h, .refl m, not_lt.mp hfull⟩

lemma Accounted.canAllocate (h : m.Accounted cacheSize len) (feature : MultiModalFeatureSpec)
    (budget numTokensToSchedule : Int) :
    ∃ fits m', m.canAllocate feature budget numTokensToSchedule = .ok (fits, m') ∧
      m'.Accounted cacheSize len ∧ m.Evicts m' ∧
      (fits = true → feature.mmPosition.length + numTokensToSchedule ≤ m'.numFreeSlots) := by
  unfold EncoderCacheManager.canAllocate
  simp only
  split_ifs with hbudget hfree hfreeable
  · exact ⟨false, m, rfl, h, .refl m, by simp⟩
  · exact ⟨true, m, rfl, h, .refl m, fun _ => hfree⟩
  · exact ⟨false, m, rfl, h, .refl m, by simp⟩
  · obtain ⟨m', hloop, hacc, hevicts, hroom⟩ := h.evictLoop rfl (not_lt.mp hfreeable)
    exact ⟨true, m', by simp [hloop], hacc, hevicts, fun _ => hroom⟩

lemma Accounted.setReferences (h : m.Accounted cacheSize len) {k : String}
    {before after : List String} (hk : m.cached.get? k = some before) (hbefore : before ≠ [])
    (hafter : after ≠ []) : Accounted cacheSize len { m with cached := m.cached.set k after } := by
  have hmem : k ∈ m.cached.keys := Dict.mem_keys_iff.mpr ⟨before, hk⟩
  constructor
  · simpa [Dict.sumKeys_set_of_mem _ hmem] using h.slots
  · exact h.freeableSlots
  · intro k'
    rw [h.unreferenced, Dict.get?_set]
    split_ifs with heq
    · subst heq
      simp [hk, hbefore, hafter]
    · exact Iff.rfl
  · exact h.sizes

lemma Accounted.checkAndUpdateCache (h : m.Accounted cacheSize len) (requestId : String)
    (feature : MultiModalFeatureSpec) :
    ∃ found m', m.checkAndUpdateCache requestId feature = .ok (found, m') ∧
      m'.Accounted cacheSize len ∧ m'.numFreeSlots = m.numFreeSlots ∧
      (∀ k, k ∈ m'.cached.keys ↔ k ∈ m.cached.keys) ∧
      (found = false → m' = m ∧ feature.identifier ∉ m.cached.keys) := by
  unfold EncoderCacheManager.checkAndUpdateCache
  cases hcached : m.cached.get? feature.identifier with
  | none =>
    exact ⟨false, m, rfl, h, rfl, fun _ => Iff.rfl,
      fun _ => ⟨rfl, Dict.get?_eq_none_iff.mp hcached⟩⟩
  | some references =>
    have hmem : feature.identifier ∈ m.cached.keys := Dict.mem_keys_iff.mpr ⟨references, hcached⟩
    have hkeys : ∀ refs k, k ∈ (m.cached.set feature.identifier refs).keys ↔ k ∈ m.cached.keys := by
      intro refs k
      rw [Dict.keys_set, if_pos hmem]
    by_cases hempty : references = []
    · subst hempty
      obtain ⟨n, hn⟩ := Dict.mem_keys_iff.mp ((h.unreferenced _).mpr hcached)
      have hsize := h.sizes _ n hn
      refine ⟨true, { m with
        freeable := m.freeable.erase feature.identifier
        numFreeableSlots := m.numFreeableSlots - n
        cached := m.cached.set feature.identifier [requestId] },
        by simp [takeReference, hn], ?_, rfl, hkeys _, by simp⟩
      constructor
      · simpa [Dict.sumKeys_set_of_mem _ hmem] using h.slots
      · have hvalues := Dict.sumBy_erase id m.freeable feature.identifier
        have := h.freeableSlots
        simp only [Dict.part, hn, Dict.values_sum] at hvalues this ⊢
        simp at hvalues
        omega
      · intro k
        simp only [Dict.mem_keys_erase, Dict.get?_set]
        by_cases heq : feature.identifier = k
        · simp [heq]
        · simp [heq, Ne.symm heq, h.unreferenced]
      · intro k n' hn'
        simp only [Dict.get?_erase] at hn'
        split_ifs at hn'
        exact h.sizes k n' hn'
    · refine ⟨true, { m with
        cached := m.cached.set feature.identifier (references.insert requestId) },
        by simp [takeReference, hempty], ?_, rfl, hkeys _, by simp⟩
      exact h.setReferences hcached hempty (List.ne_nil_of_mem (List.mem_insert_self))

lemma Accounted.allocate (h : m.Accounted cacheSize len) (requestId : String)
    {feature : MultiModalFeatureSpec} (hlen : feature.mmPosition.length = len feature.identifier)
    (hroom : (feature.mmPosition.length : Int) ≤ m.numFreeSlots)
    (hnew : feature.identifier ∉ m.cached.keys) :
    ∃ m', m.allocate requestId feature = .ok m' ∧ m'.Accounted cacheSize len ∧
      m'.numFreeSlots = m.numFreeSlots - len feature.identifier ∧
      ∀ k, k ∈ m'.cached.keys ↔ k = feature.identifier ∨ k ∈ m.cached.keys := by
  have hfreeable := h.free_le_freeable
  refine ⟨{ m with
    cached := m.cached.set feature.identifier
      (((m.cached.get? feature.identifier).getD []).insert requestId)
    numFreeSlots := m.numFreeSlots - feature.mmPosition.length
    numFreeableSlots := m.numFreeableSlots - feature.mmPosition.length }, ?_, ?_, ?_, ?_⟩
  · simp only [EncoderCacheManager.allocate, pyAssert, if_pos (ge_iff_le.mpr hroom),
      if_pos (ge_iff_le.mpr (hroom.trans hfreeable)), ok_bind, pure_eq]
  · constructor
    · have hkeys := Dict.sumKeys_set_of_not_mem (fun k => (len k : Int)) hnew
        (((m.cached.get? feature.identifier).getD []).insert requestId)
      have := h.slots
      simp only at hkeys ⊢
      omega
    · have := h.freeableSlots
      simp only
      omega
    · intro k
      simp only [Dict.get?_set]
      split_ifs with heq
      · subst heq
        have hnot : feature.identifier ∉ m.freeable.keys := fun hmem => hnew (h.mem_cached hmem)
        simp [hnot, List.ne_nil_of_mem (List.mem_insert_self (a := requestId))]
      · exact h.unreferenced k
    · exact h.sizes
  · simp [hlen]
  · intro k
    simp

lemma Accounted.freeEncoderInput (h : m.Accounted cacheSize len) (requestId : String)
    {feature : MultiModalFeatureSpec} (hlen : feature.mmPosition.length = len feature.identifier) :
    (m.freeEncoderInput requestId feature).Accounted cacheSize len ∧
      (m.freeEncoderInput requestId feature).numFreeSlots = m.numFreeSlots ∧
      ∀ k, k ∈ (m.freeEncoderInput requestId feature).cached.keys ↔ k ∈ m.cached.keys := by
  unfold EncoderCacheManager.freeEncoderInput
  cases hcached : m.cached.get? feature.identifier with
  | none => exact ⟨h, rfl, fun _ => Iff.rfl⟩
  | some references =>
    have hmem : feature.identifier ∈ m.cached.keys := Dict.mem_keys_iff.mpr ⟨references, hcached⟩
    have hkeys : ∀ refs k, k ∈ (m.cached.set feature.identifier refs).keys ↔ k ∈ m.cached.keys := by
      intro refs k
      rw [Dict.keys_set, if_pos hmem]
    simp only [Option.getD_some]
    split_ifs with hempty hlast
    · exact ⟨h, rfl, fun _ => Iff.rfl⟩
    · refine ⟨?_, rfl, hkeys _⟩
      have hnot : feature.identifier ∉ m.freeable.keys := by
        rw [h.unreferenced, hcached]
        simpa using hempty
      constructor
      · simpa [Dict.sumKeys_set_of_mem _ hmem] using h.slots
      · have hvalues := Dict.sumBy_set id m.freeable feature.identifier
          (feature.mmPosition.length : Int)
        have := h.freeableSlots
        simp only [Dict.part, Dict.get?_eq_none_iff.mpr hnot, Dict.values_sum] at hvalues this ⊢
        simp at hvalues
        omega
      · intro k
        simp only [Dict.mem_keys_set, Dict.get?_set]
        by_cases heq : feature.identifier = k
        · subst heq
          simp [hlast]
        · simp [heq, Ne.symm heq, h.unreferenced]
      · intro k n hn
        simp only [Dict.get?_set] at hn
        split_ifs at hn with heq
        · subst heq
          rw [← Option.some.inj hn, hlen]
        · exact h.sizes k n hn
    · exact ⟨h.setReferences hcached hempty hlast, rfl, hkeys _⟩

lemma Accounted.free (h : m.Accounted cacheSize len) {request : Request}
    (hlen : ∀ feature ∈ request.mmFeatures, feature.mmPosition.length = len feature.identifier) :
    (m.free request).Accounted cacheSize len ∧ (m.free request).numFreeSlots = m.numFreeSlots ∧
      ∀ k, k ∈ (m.free request).cached.keys ↔ k ∈ m.cached.keys := by
  have hsub : ∀ feature ∈ m.getCachedInputs request,
      feature.mmPosition.length = len feature.identifier :=
    fun feature hf => hlen feature (List.mem_of_mem_filter hf)
  unfold EncoderCacheManager.free
  generalize m.getCachedInputs request = inputs at hsub ⊢
  induction inputs generalizing m with
  | nil => exact ⟨h, rfl, fun _ => Iff.rfl⟩
  | cons feature rest ih =>
    obtain ⟨hacc, hslots, hkeys⟩ := h.freeEncoderInput request.requestId
      (hsub feature List.mem_cons_self)
    obtain ⟨hacc', hslots', hkeys'⟩ := ih hacc fun f hf => hsub f (List.mem_cons_of_mem _ hf)
    exact ⟨hacc', hslots'.trans hslots, fun k => (hkeys' k).trans (hkeys k)⟩

end EncoderCacheManager

/-- The cache with the request whose inputs are being scheduled: the inputs that
`can_allocate` accepted and that are not allocated yet, and the tokens counted for them. -/
structure EncoderUse where
  manager : EncoderCacheManager
  requestId : String
  accepted : List MultiModalFeatureSpec
  numTokensToSchedule : Int
  allocating : Bool

inductive EncoderOp where
  /-- The inputs of a request are tried from here on; earlier accepted ones are given up. -/
  | begin (requestId : String)
  /-- The next input, with the compute budget that is left. -/
  | tryInput (feature : MultiModalFeatureSpec) (encoderComputeBudget : Int)
  /-- `allocate` for the first accepted input that is left. -/
  | allocate
  | freeEncoderInput (requestId : String) (feature : MultiModalFeatureSpec)
  | free (request : Request)
  | getFreedMmHashes

namespace EncoderUse

def init (cacheSize : Int) : EncoderUse where
  manager := EncoderCacheManager.init cacheSize
  requestId := ""
  accepted := []
  numTokensToSchedule := 0
  allocating := false

/-- The input is accepted if `can_allocate` says so. -/
def placeInput (u : EncoderUse) (feature : MultiModalFeatureSpec) (budget : Int) :
    Except PyError EncoderUse := do
  let (fits, manager) ← u.manager.canAllocate feature budget u.numTokensToSchedule
  if fits then return { u with
    manager := manager
    accepted := u.accepted ++ [feature]
    numTokensToSchedule := u.numTokensToSchedule + feature.mmPosition.length }
  else return { u with manager := manager }

/-- One input in the loop of `_try_schedule_encoder_inputs`; an encoder-decoder model skips
the two questions whether the input is there already. -/
def tryInput (isEncoderDecoder : Bool) (u : EncoderUse) (feature : MultiModalFeatureSpec)
    (budget : Int) : Except PyError EncoderUse :=
  if isEncoderDecoder then u.placeInput feature budget
  else if feature.identifier ∈ u.accepted.map (·.identifier) then .ok u
  else do
    let (found, manager) ← u.manager.checkAndUpdateCache u.requestId feature
    let u := { u with manager := manager }
    if found then return u else u.placeInput feature budget

def allocate (u : EncoderUse) : Except PyError EncoderUse :=
  match u.accepted with
  | [] => .ok u
  | feature :: rest => do
    let manager ← u.manager.allocate u.requestId feature
    return { u with manager := manager, accepted := rest, allocating := true }

def step (isEncoderDecoder : Bool) (u : EncoderUse) : EncoderOp → Except PyError EncoderUse
  | .begin requestId => .ok { u with
      requestId := requestId
      accepted := []
      numTokensToSchedule := 0
      allocating := false }
  | .tryInput feature budget => tryInput isEncoderDecoder u feature budget
  | .allocate => u.allocate
  | .freeEncoderInput requestId feature =>
    .ok { u with manager := u.manager.freeEncoderInput requestId feature }
  | .free request => .ok { u with manager := u.manager.free request }
  | .getFreedMmHashes => .ok { u with manager := u.manager.getFreedMmHashes.2 }

/-- Equal identifiers have equal lengths. -/
def LengthsAgree (len : String → Nat) : EncoderOp → Prop
  | .tryInput feature _ => feature.mmPosition.length = len feature.identifier
  | .freeEncoderInput _ feature => feature.mmPosition.length = len feature.identifier
  | .free request => ∀ feature ∈ request.mmFeatures,
      feature.mmPosition.length = len feature.identifier
  | .begin _ | .allocate | .getFreedMmHashes => True

/-- The order of the scheduler: the inputs of a request are tried before the accepted ones
are allocated. -/
def InOrder (u : EncoderUse) : EncoderOp → Prop
  | .tryInput _ _ => u.allocating = false
  | .begin _ | .allocate | .freeEncoderInput _ _ | .free _ | .getFreedMmHashes => True

/-- No encoder-decoder model allocates an input that is in the cache already. -/
def AllocatesNew (isEncoderDecoder : Bool) (u : EncoderUse) : EncoderOp → Prop
  | .allocate => isEncoderDecoder = true →
      ∀ feature ∈ u.accepted.head?, feature.identifier ∉ u.manager.cached.keys
  | .begin _ | .tryInput _ _ | .freeEncoderInput _ _ | .free _ | .getFreedMmHashes => True

/-- The states reached from an empty cache. -/
abbrev ReachedBy (isEncoderDecoder : Bool) (cacheSize : Int)
    (allowed : EncoderUse → EncoderOp → Prop) : EncoderUse → Prop :=
  Runs.Reached (fun u => u = init cacheSize) allowed fun u op u' =>
    step isEncoderDecoder u op = .ok u'

/-- The tokens of the accepted inputs. -/
def acceptedTokens (u : EncoderUse) : Int :=
  (u.accepted.map fun feature => (feature.mmPosition.length : Int)).sum

/-- The invariant: the cache is accounted for, and there is room for the accepted inputs,
none of which is in the cache unless the model does not look. -/
structure Ok (isEncoderDecoder : Bool) (cacheSize : Int) (len : String → Nat) (u : EncoderUse) :
    Prop where
  accounted : u.manager.Accounted cacheSize len
  lengths : ∀ feature ∈ u.accepted, feature.mmPosition.length = len feature.identifier
  tokens : u.allocating = false → u.numTokensToSchedule = u.acceptedTokens
  room : u.accepted ≠ [] → u.acceptedTokens ≤ u.manager.numFreeSlots
  distinct : isEncoderDecoder = false → (u.accepted.map (·.identifier)).Nodup
  new : isEncoderDecoder = false →
    ∀ feature ∈ u.accepted, feature.identifier ∉ u.manager.cached.keys

variable {isEncoderDecoder : Bool} {cacheSize : Int} {len : String → Nat} {u : EncoderUse}

lemma init_ok (isEncoderDecoder : Bool) (cacheSize : Int) (len : String → Nat) :
    Ok isEncoderDecoder cacheSize len (init cacheSize) :=
  ⟨EncoderCacheManager.init_accounted cacheSize len, by simp [init], by simp [init, acceptedTokens],
    by simp [init], by simp [init], by simp [init]⟩

/-- The cache may lose entries and gain room while inputs are accepted. -/
lemma Ok.withManager (h : Ok isEncoderDecoder cacheSize len u) {m : EncoderCacheManager}
    (hacc : m.Accounted cacheSize len) (hslots : u.manager.numFreeSlots ≤ m.numFreeSlots)
    (hkeys : ∀ k ∈ m.cached.keys, k ∈ u.manager.cached.keys) :
    Ok isEncoderDecoder cacheSize len { u with manager := m } where
  accounted := hacc
  lengths := h.lengths
  tokens := h.tokens
  room hne := (h.room hne).trans hslots
  distinct := h.distinct
  new hdec feature hf hmem := h.new hdec feature hf (hkeys _ hmem)

/-- What is not evicted: an entry that some request refers to. -/
def KeepsReferenced (m m' : EncoderCacheManager) : Prop :=
  ∀ h references, m.cached.get? h = some references → references ≠ [] → h ∈ m'.cached.keys

lemma keepsReferenced_of_keys {m m' : EncoderCacheManager}
    (h : ∀ k ∈ m.cached.keys, k ∈ m'.cached.keys) : KeepsReferenced m m' :=
  fun k references hk _ => h k (Dict.mem_keys_iff.mpr ⟨references, hk⟩)

lemma keepsReferenced_of_evicts {m m' : EncoderCacheManager} (h : m.Evicts m') :
    KeepsReferenced m m' :=
  fun k references hk hne => Dict.mem_keys_iff.mpr ⟨references, h.referenced k references hk hne⟩

lemma Ok.placeInput (h : Ok isEncoderDecoder cacheSize len u) (hphase : u.allocating = false)
    {feature : MultiModalFeatureSpec} (hlen : feature.mmPosition.length = len feature.identifier)
    (hnew : isEncoderDecoder = false → feature.identifier ∉ u.accepted.map (·.identifier) ∧
      feature.identifier ∉ u.manager.cached.keys) (budget : Int) :
    ∃ u', u.placeInput feature budget = .ok u' ∧ Ok isEncoderDecoder cacheSize len u' ∧
      KeepsReferenced u.manager u'.manager := by
  obtain ⟨fits, m, hcan, hacc, hevicts, hroom⟩ :=
    h.accounted.canAllocate feature budget u.numTokensToSchedule
  have hkept : Ok isEncoderDecoder cacheSize len { u with manager := m } :=
    h.withManager hacc hevicts.slots hevicts.cached
  unfold EncoderUse.placeInput
  rw [hcan, ok_bind]
  cases fits with
  | false => exact ⟨_, rfl, hkept, keepsReferenced_of_evicts hevicts⟩
  | true =>
    refine ⟨_, rfl, ?_, keepsReferenced_of_evicts hevicts⟩
    have htokens := h.tokens hphase
    have hsum : ((u.accepted ++ [feature]).map fun f => (f.mmPosition.length : Int)).sum =
        u.acceptedTokens + feature.mmPosition.length := by simp [acceptedTokens]
    constructor
    · exact hacc
    · intro f hf
      rcases List.mem_append.mp hf with hf | hf
      · exact h.lengths f hf
      · rwa [List.mem_singleton.mp hf]
    · intro _
      simp only [acceptedTokens, hsum, htokens]
    · intro _
      have := hroom rfl
      simp only [acceptedTokens] at htokens hsum ⊢
      omega
    · intro hdec
      rw [List.map_append, List.nodup_append']
      exact ⟨h.distinct hdec, List.nodup_singleton _,
        List.disjoint_singleton.mpr (hnew hdec).1⟩
    · intro hdec f hf
      rcases List.mem_append.mp hf with hf | hf
      · exact hkept.new hdec f hf
      · rw [List.mem_singleton.mp hf]
        exact fun hmem => (hnew hdec).2 (hevicts.cached _ hmem)

lemma Ok.tryInput (h : Ok isEncoderDecoder cacheSize len u) (hphase : u.allocating = false)
    {feature : MultiModalFeatureSpec} (hlen : feature.mmPosition.length = len feature.identifier)
    (budget : Int) :
    ∃ u', tryInput isEncoderDecoder u feature budget = .ok u' ∧
      Ok isEncoderDecoder cacheSize len u' ∧ KeepsReferenced u.manager u'.manager := by
  unfold EncoderUse.tryInput
  split_ifs with hdec hscheduled
  · exact h.placeInput hphase hlen (by simp [hdec]) budget
  · exact ⟨u, rfl, h, keepsReferenced_of_keys fun _ hk => hk⟩
  · obtain ⟨found, m, hcheck, hacc, hslots, hkeys, hmissing⟩ :=
      h.accounted.checkAndUpdateCache u.requestId feature
    have hkept : Ok isEncoderDecoder cacheSize len { u with manager := m } :=
      h.withManager hacc hslots.ge fun k hk => (hkeys k).mp hk
    rw [hcheck, ok_bind]
    cases found with
    | true => exact ⟨_, rfl, hkept, keepsReferenced_of_keys fun k hk => (hkeys k).mpr hk⟩
    | false =>
      obtain ⟨rfl, hnot⟩ := hmissing rfl
      exact h.placeInput hphase hlen (fun _ => ⟨hscheduled, hnot⟩) budget

lemma Ok.allocate (h : Ok isEncoderDecoder cacheSize len u)
    (hnew : AllocatesNew isEncoderDecoder u .allocate) :
    ∃ u', u.allocate = .ok u' ∧ Ok isEncoderDecoder cacheSize len u' ∧
      KeepsReferenced u.manager u'.manager := by
  cases haccepted : u.accepted with
  | nil =>
    exact ⟨u, by simp [EncoderUse.allocate, haccepted], h, keepsReferenced_of_keys fun _ hk => hk⟩
  | cons feature rest =>
    have hmem : feature ∈ u.accepted := by simp [haccepted]
    have hlen := h.lengths feature hmem
    have hroom := h.room (List.ne_nil_of_mem hmem)
    have hsum : u.acceptedTokens = feature.mmPosition.length +
        (rest.map fun f => (f.mmPosition.length : Int)).sum := by simp [acceptedTokens, haccepted]
    have hnonneg : 0 ≤ (rest.map fun f => (f.mmPosition.length : Int)).sum :=
      List.sum_nonneg (by simp)
    have hnot : feature.identifier ∉ u.manager.cached.keys := by
      cases hdec : isEncoderDecoder with
      | false => exact h.new hdec feature hmem
      | true => exact hnew hdec feature (by simp [haccepted])
    obtain ⟨m, halloc, hacc, hslots, hkeys⟩ :=
      h.accounted.allocate u.requestId hlen (by omega) hnot
    refine ⟨{ u with manager := m, accepted := rest, allocating := true },
      by simp [EncoderUse.allocate, haccepted, halloc], ?_,
      keepsReferenced_of_keys fun k hk => (hkeys k).mpr (Or.inr hk)⟩
    constructor
    · exact hacc
    · exact fun f hf => h.lengths f (by simp [haccepted, hf])
    · intro hphase
      cases hphase
    · intro _
      simp only [acceptedTokens] at hroom hsum ⊢
      omega
    · intro hdec
      have := h.distinct hdec
      rw [haccepted, List.map_cons, List.nodup_cons] at this
      exact this.2
    · intro hdec f hf hmem'
      have hdistinct := h.distinct hdec
      rw [haccepted, List.map_cons, List.nodup_cons] at hdistinct
      rcases (hkeys _).mp hmem' with heq | hcached
      · exact hdistinct.1 (heq ▸ List.mem_map_of_mem hf)
      · exact h.new hdec f (by simp [haccepted, hf]) hcached

/-- An operation as the scheduler issues it. -/
def Driven (len : String → Nat) (u : EncoderUse) (op : EncoderOp) : Prop :=
  LengthsAgree len op ∧ InOrder u op

lemma Ok.step (h : Ok isEncoderDecoder cacheSize len u) {op : EncoderOp} (hop : Driven len u op)
    (hnew : AllocatesNew isEncoderDecoder u op) :
    ∃ u', step isEncoderDecoder u op = .ok u' ∧ Ok isEncoderDecoder cacheSize len u' ∧
      KeepsReferenced u.manager u'.manager := by
  obtain ⟨hlen, horder⟩ := hop
  cases op with
  | begin requestId =>
    exact ⟨_, rfl, ⟨h.accounted, by simp, by simp [acceptedTokens], by simp, by simp, by simp⟩,
      keepsReferenced_of_keys fun _ hk => hk⟩
  | tryInput feature budget => exact h.tryInput horder hlen budget
  | allocate => exact h.allocate hnew
  | freeEncoderInput requestId feature =>
    obtain ⟨hacc, hslots, hkeys⟩ := h.accounted.freeEncoderInput requestId hlen
    exact ⟨_, rfl, h.withManager hacc hslots.ge fun k hk => (hkeys k).mp hk,
      keepsReferenced_of_keys fun k hk => (hkeys k).mpr hk⟩
  | free request =>
    obtain ⟨hacc, hslots, hkeys⟩ := h.accounted.free hlen
    exact ⟨_, rfl, h.withManager hacc hslots.ge fun k hk => (hkeys k).mp hk,
      keepsReferenced_of_keys fun k hk => (hkeys k).mpr hk⟩
  | getFreedMmHashes =>
    have hacc : u.manager.getFreedMmHashes.2.Accounted cacheSize len :=
      ⟨h.accounted.slots, h.accounted.freeableSlots, h.accounted.unreferenced, h.accounted.sizes⟩
    exact ⟨_, rfl, h.withManager hacc le_rfl fun _ hk => hk, keepsReferenced_of_keys fun _ hk => hk⟩

lemma ReachedBy.ok {allowed : EncoderUse → EncoderOp → Prop}
    (hallowed : ∀ u op, allowed u op → Driven len u op ∧ AllocatesNew isEncoderDecoder u op)
    (h : ReachedBy isEncoderDecoder cacheSize allowed u) :
    Ok isEncoderDecoder cacheSize len u := by
  refine Runs.Reached.invariant ?_ ?_ h
  · rintro u rfl
    exact init_ok isEncoderDecoder cacheSize len
  · intro u op u' hok hop hstep
    obtain ⟨hdriven, hnew⟩ := hallowed u op hop
    obtain ⟨u₁, hstep₁, hok₁, -⟩ := hok.step hdriven hnew
    obtain rfl := Except.ok.inj (hstep₁.symm.trans hstep)
    exact hok₁

/-- The accounts are right, no operation that may follow raises, and none evicts an entry
with references. -/
def Sound (isEncoderDecoder : Bool) (cacheSize : Int) (len : String → Nat)
    (allowed : EncoderUse → EncoderOp → Prop) (u : EncoderUse) : Prop :=
  u.manager.Accounted cacheSize len ∧
    ∀ op, allowed u op → ∃ u', EncoderUse.step isEncoderDecoder u op = .ok u' ∧
      KeepsReferenced u.manager u'.manager

/-- The operations of the scheduler, less those of an encoder-decoder model that allocate an
input again. -/
def DrivenNew (isEncoderDecoder : Bool) (len : String → Nat) (u : EncoderUse) (op : EncoderOp) :
    Prop := Driven len u op ∧ AllocatesNew isEncoderDecoder u op

/-- Without eviction, assertion or popitem failing, in every run without such operations;
for a model that is no encoder-decoder in every run. -/
theorem encoder_cache_sound_of_allocatesNew (isEncoderDecoder : Bool) (cacheSize : Int)
    (len : String → Nat) (u : EncoderUse)
    (h : ReachedBy isEncoderDecoder cacheSize (DrivenNew isEncoderDecoder len) u) :
    Sound isEncoderDecoder cacheSize len (DrivenNew isEncoderDecoder len) u := by
  have hok : Ok isEncoderDecoder cacheSize len u := ReachedBy.ok (fun _ _ hop => hop) h
  refine ⟨hok.accounted, fun op hop => ?_⟩
  obtain ⟨u', hstep, -, hkeeps⟩ := hok.step hop.1 hop.2
  exact ⟨u', hstep, hkeeps⟩

instance (len : String → Nat) (u : EncoderUse) (op : EncoderOp) : Decidable (Driven len u op) := by
  unfold Driven LengthsAgree InOrder
  cases op <;> exact inferInstance

instance (isEncoderDecoder : Bool) (len : String → Nat) (u : EncoderUse) (op : EncoderOp) :
    Decidable (DrivenNew isEncoderDecoder len u op) := by
  unfold DrivenNew AllocatesNew
  cases op <;> exact inferInstance

/-- Two requests of a decoder-only model share an image, and a second image evicts it. -/
def sharedImageOps : List EncoderOp :=
  [.begin "r", .tryInput ⟨"a", ⟨0, 2⟩⟩ 4, .allocate, .begin "s", .tryInput ⟨"a", ⟨0, 2⟩⟩ 4,
    .freeEncoderInput "r" ⟨"a", ⟨0, 2⟩⟩, .freeEncoderInput "s" ⟨"a", ⟨0, 2⟩⟩,
    .tryInput ⟨"b", ⟨2, 3⟩⟩ 4]

/-- The sizes of the two inputs. -/
def twoSizes (h : String) : Nat := if h = "a" then 2 else 3

theorem encoder_cache_sound_sharedImage : ∃ u,
    ReachedBy false 4 (DrivenNew false twoSizes) u ∧ u.manager.freed = ["a"] ∧
      Sound false 4 twoSizes (DrivenNew false twoSizes) u := by
  have hview : (Runs.runAllowed (DrivenNew false twoSizes) (EncoderUse.step false) (init 4)
      sharedImageOps).map (fun u => u.manager.freed) = some ["a"] := by decide +kernel
  obtain ⟨u, hrun, hfreed⟩ := Option.map_eq_some_iff.mp hview
  have hreached : ReachedBy false 4 (DrivenNew false twoSizes) u := .of_runAllowed (.start rfl) hrun
  exact ⟨u, hreached, hfreed, encoder_cache_sound_of_allocatesNew false 4 twoSizes u hreached⟩

/-- Two requests of an encoder-decoder model bring the same audio one after the other. -/
def sharedAudioOps : List EncoderOp :=
  [.begin "r", .tryInput ⟨"a", ⟨0, 2⟩⟩ 4, .allocate, .freeEncoderInput "r" ⟨"a", ⟨0, 2⟩⟩,
    .begin "s", .tryInput ⟨"a", ⟨0, 2⟩⟩ 4, .allocate, .freeEncoderInput "s" ⟨"a", ⟨0, 2⟩⟩,
    .begin "t"]

/-- The second allocation takes two slots that no entry accounts for, so a third input of
three tokens, for which the counters promise room, empties the queue of evictable entries and
`popitem` fails. -/
theorem not_encoder_cache_sound_sharedAudio :
    ¬ ∀ u, ReachedBy true 4 (Driven twoSizes) u → Sound true 4 twoSizes (Driven twoSizes) u := by
  intro hclaim
  have hview : (Runs.runAllowed (Driven twoSizes) (EncoderUse.step true) (init 4)
      sharedAudioOps).map (fun u => (decide (Driven twoSizes u (.tryInput ⟨"b", ⟨0, 3⟩⟩ 4)),
        (EncoderUse.step true u (.tryInput ⟨"b", ⟨0, 3⟩⟩ 4)).toOption.isNone)) =
      some (true, true) := by decide +kernel
  obtain ⟨u, hrun, hlast⟩ := Option.map_eq_some_iff.mp hview
  obtain ⟨hdriven, hraises⟩ := Prod.mk.inj hlast
  obtain ⟨-, hgoes⟩ := hclaim u (.of_runAllowed (.start rfl) hrun)
  obtain ⟨u', hstep, -⟩ := hgoes _ (of_decide_eq_true hdriven)
  rw [hstep] at hraises
  cases hraises

/-- The loop has got as far as the operations. -/
structure Follows (request : Request) (u : EncoderUse) (e : EncoderInputs) : Prop where
  manager : u.manager = e.manager
  requestId : u.requestId = request.requestId
  trying : u.allocating = false
  accepted : u.accepted.map some = e.encoderInputsToSchedule.map (request.mmFeatures[·]?)
  hashes : ∀ h, h ∈ e.mmHashesToSchedule ↔ h ∈ u.accepted.map (·.identifier)
  tokens : u.numTokensToSchedule = e.numTokensToSchedule

lemma Follows.placeIfRoom {request : Request} {e e' : EncoderInputs} (h : Follows request u e)
    {feature : MultiModalFeatureSpec} {i : Nat} (hi : request.mmFeatures[i]? = some feature)
    {numComputedTokens : Int} {goOn : Bool}
    (hplace : EncoderInputs.placeIfRoom numComputedTokens i feature e = .ok (goOn, e')) :
    ∃ u', u.placeInput feature e.encoderComputeBudget = .ok u' ∧ Follows request u' e' := by
  obtain ⟨⟨fits, m⟩, hcan, hrest⟩ := bind_eq_ok.mp hplace
  unfold EncoderUse.placeInput
  rw [h.manager, h.tokens, hcan, ok_bind]
  cases fits with
  | true =>
    obtain ⟨-, rfl⟩ := Prod.mk.inj (Except.ok.inj hrest)
    refine ⟨_, rfl, rfl, h.requestId, h.trying, ?_, ?_, ?_⟩
    · simp [h.accepted, hi]
    · intro k
      simp [h.hashes, or_comm]
    · simp
  | false =>
    refine ⟨_, rfl, ?_⟩
    simp only [Bool.false_eq_true, if_false] at hrest
    split_ifs at hrest
    · obtain ⟨-, rfl⟩ := Prod.mk.inj (Except.ok.inj hrest)
      exact ⟨rfl, h.requestId, h.trying, h.accepted, h.hashes, rfl⟩
    · obtain ⟨-, rfl⟩ := Prod.mk.inj (Except.ok.inj hrest)
      exact ⟨rfl, h.requestId, h.trying, h.accepted, h.hashes, rfl⟩

lemma scheduleLoop_follows {cfg : EncoderConfig} {request : Request} {numComputedTokens : Int}
    {e e' : EncoderInputs} {inputs : List (MultiModalFeatureSpec × Nat)}
    (hlen : ∀ p ∈ inputs, p.1.mmPosition.length = len p.1.identifier)
    (hinputs : ∀ p ∈ inputs, request.mmFeatures[p.2]? = some p.1)
    (hu : ReachedBy cfg.isEncoderDecoder cacheSize (DrivenNew cfg.isEncoderDecoder len) u)
    (h : Follows request u e)
    (hloop : EncoderInputs.scheduleLoop cfg request.requestId numComputedTokens e inputs = .ok e') :
    ∃ u', ReachedBy cfg.isEncoderDecoder cacheSize (DrivenNew cfg.isEncoderDecoder len) u' ∧
      Follows request u' e' := by
  induction inputs generalizing u e with
  | nil =>
    obtain rfl := Except.ok.inj hloop
    exact ⟨u, hu, h⟩
  | cons input rest ih =>
    obtain ⟨feature, i⟩ := input
    have hlenRest := fun p hp => hlen p (List.mem_cons_of_mem (feature, i) hp)
    have hinputsRest := fun p hp => hinputs p (List.mem_cons_of_mem (feature, i) hp)
    have hi := hinputs _ List.mem_cons_self
    have hdriven : DrivenNew cfg.isEncoderDecoder len u
        (.tryInput feature e.encoderComputeBudget) :=
      ⟨⟨hlen _ List.mem_cons_self, h.trying⟩, trivial⟩
    simp only [EncoderInputs.scheduleLoop] at hloop
    split_ifs at hloop
    · obtain rfl := Except.ok.inj hloop
      exact ⟨u, hu, h⟩
    · exact ih hlenRest hinputsRest hu h hloop
    · exact ih hlenRest hinputsRest hu h hloop
    · obtain ⟨⟨cached, m⟩, hcached, hloop⟩ := bind_eq_ok.mp hloop
      -- what the two questions answer, as one operation
      have hquestion : (cached = true ∧ ∃ u', step cfg.isEncoderDecoder u
            (.tryInput feature e.encoderComputeBudget) = .ok u' ∧
            Follows request u' { e with manager := m }) ∨
          (cached = false ∧ m = e.manager ∧ step cfg.isEncoderDecoder u
            (.tryInput feature e.encoderComputeBudget) =
              u.placeInput feature e.encoderComputeBudget) := by
        simp only [EncoderInputs.isCached, h.hashes] at hcached
        simp only [step, tryInput]
        split_ifs at hcached ⊢
        · obtain ⟨rfl, rfl⟩ := Prod.mk.inj (Except.ok.inj hcached)
          exact Or.inr ⟨rfl, rfl, rfl⟩
        · obtain ⟨rfl, rfl⟩ := Prod.mk.inj (Except.ok.inj hcached)
          exact Or.inl ⟨rfl, u, rfl, h⟩
        · have hcheck : u.manager.checkAndUpdateCache u.requestId feature = .ok (cached, m) := by
            rw [h.manager, h.requestId, hcached]
          rw [hcheck, ok_bind]
          cases cached with
          | true =>
            exact Or.inl ⟨rfl, _, rfl, rfl, h.requestId, h.trying, h.accepted, h.hashes, h.tokens⟩
          | false =>
            unfold EncoderCacheManager.checkAndUpdateCache at hcached
            split at hcached
            · obtain ⟨-, rfl⟩ := Prod.mk.inj (Except.ok.inj hcached)
              exact Or.inr ⟨rfl, rfl, by simp [← h.manager]⟩
            · obtain ⟨_, -, hret⟩ := bind_eq_ok.mp hcached
              cases (Prod.mk.inj (Except.ok.inj hret)).1
      rcases hquestion with ⟨rfl, u', hstep, hfollows⟩ | ⟨rfl, rfl, hstep⟩
      · exact ih hlenRest hinputsRest (.step hu hdriven hstep) hfollows hloop
      · obtain ⟨⟨goOn, placed⟩, hplace, hloop⟩ := bind_eq_ok.mp hloop
        simp only [EncoderInputs.placeInput] at hplace
        split_ifs at hplace
        · obtain ⟨rfl, rfl⟩ := Prod.mk.inj (Except.ok.inj hplace)
          obtain rfl := Except.ok.inj hloop
          exact ⟨u, hu, ⟨h.manager, h.requestId, h.trying, h.accepted, h.hashes, h.tokens⟩⟩
        · obtain ⟨u', hplaced, hfollows⟩ := h.placeIfRoom hi hplace
          have hu' := Runs.Reached.step hu hdriven (hstep.trans hplaced)
          cases goOn with
          | true => exact ih hlenRest hinputsRest hu' hfollows hloop
          | false =>
            obtain rfl := Except.ok.inj hloop
            exact ⟨u', hu', hfollows⟩

/-- `_try_schedule_encoder_inputs` is a run of such operations. -/
theorem tryScheduleEncoderInputs_reached {cfg : EncoderConfig} {request : Request}
    {numComputedTokens numNewTokens encoderComputeBudget : Int} {e : EncoderInputs}
    (hlen : ∀ feature ∈ request.mmFeatures, feature.mmPosition.length = len feature.identifier)
    (hu : ReachedBy cfg.isEncoderDecoder cacheSize (DrivenNew cfg.isEncoderDecoder len) u)
    (h : tryScheduleEncoderInputs cfg u.manager request numComputedTokens numNewTokens
      encoderComputeBudget = .ok e) :
    ∃ u', ReachedBy cfg.isEncoderDecoder cacheSize (DrivenNew cfg.isEncoderDecoder len) u' ∧
      Follows request u' e := by
  have hdriven : DrivenNew cfg.isEncoderDecoder len u (.begin request.requestId) :=
    ⟨⟨trivial, trivial⟩, trivial⟩
  have hbegin := Runs.Reached.step hu hdriven rfl
  simp only [tryScheduleEncoderInputs] at h
  split_ifs at h
  · obtain rfl := Except.ok.inj h
    exact ⟨_, hbegin, rfl, rfl, rfl, rfl, by simp, rfl⟩
  · refine scheduleLoop_follows ?_ ?_ hbegin ⟨rfl, rfl, rfl, rfl, by simp, rfl⟩ h
    · intro p hp
      have hget := List.mem_zipIdx_iff_getElem?.mp hp
      exact hlen p.1 (List.mem_of_getElem? hget)
    · intro p hp
      exact List.mem_zipIdx_iff_getElem?.mp hp

/-- The requests that the scheduler preempts give their references back. -/
lemma free_reached {preempted : List Request}
    (hlen : ∀ r ∈ preempted, ∀ feature ∈ r.mmFeatures,
      feature.mmPosition.length = len feature.identifier)
    (hu : ReachedBy isEncoderDecoder cacheSize (DrivenNew isEncoderDecoder len) u) :
    ReachedBy isEncoderDecoder cacheSize (DrivenNew isEncoderDecoder len)
      { u with manager := preempted.foldl EncoderCacheManager.free u.manager } := by
  induction preempted generalizing u with
  | nil => exact hu
  | cons r rest ih =>
    have hdriven : DrivenNew isEncoderDecoder len u (.free r) :=
      ⟨⟨hlen r List.mem_cons_self, trivial⟩, trivial⟩
    exact ih (fun r hr => hlen r (List.mem_cons_of_mem _ hr)) (.step hu hdriven rfl)

lemma allocate_cached {m m' : EncoderCacheManager} {requestId : String}
    {feature : MultiModalFeatureSpec} (h : m.allocate requestId feature = .ok m') :
    m'.cached = m.cached.set feature.identifier
      (((m.cached.get? feature.identifier).getD []).insert requestId) := by
  obtain ⟨-, -, h⟩ := bind_eq_ok.mp h
  obtain ⟨-, -, h⟩ := bind_eq_ok.mp h
  exact congrArg EncoderCacheManager.cached (Except.ok.inj h).symm

/-- The allocation of the accepted inputs, for a model that looks into the cache: all get room,
and other entries stay as they are. -/
lemma allocateInputs_reached {request : Request} {inputs : List Nat}
    (hu : ReachedBy false cacheSize (DrivenNew false len) u)
    (hrequest : u.requestId = request.requestId)
    (haccepted : u.accepted.map some = inputs.map (request.mmFeatures[·]?)) :
    ∃ u', ReachedBy false cacheSize (DrivenNew false len) u' ∧
      ScheduleState.allocateInputs request u.manager inputs = .ok u'.manager ∧
      (∀ feature ∈ u.accepted,
        u'.manager.cached.get? feature.identifier = some [request.requestId]) ∧
      ∀ k ∉ u.accepted.map (·.identifier), u'.manager.cached.get? k = u.manager.cached.get? k := by
  induction inputs generalizing u with
  | nil =>
    have hnone : u.accepted = [] := List.map_eq_nil_iff.mp haccepted
    exact ⟨u, hu, rfl, by simp [hnone], fun _ _ => rfl⟩
  | cons i rest ih =>
    obtain ⟨feature, tail, heq, hfirst, htail⟩ := List.map_eq_cons_iff.mp haccepted
    have hok : Ok false cacheSize len u := ReachedBy.ok (fun _ _ hop => hop) hu
    have hdriven : DrivenNew false len u .allocate := ⟨⟨trivial, trivial⟩, by simp [AllocatesNew]⟩
    obtain ⟨u₁, hstep, -, -⟩ := hok.step hdriven.1 hdriven.2
    have hallocate : ∃ m, u.manager.allocate request.requestId feature = .ok m ∧
        { u with manager := m, accepted := tail, allocating := true } = u₁ := by
      rw [← hrequest]
      simp only [step, EncoderUse.allocate, heq] at hstep
      obtain ⟨m, halloc, hret⟩ := bind_eq_ok.mp hstep
      exact ⟨m, halloc, Except.ok.inj hret⟩
    obtain ⟨m, halloc, rfl⟩ := hallocate
    obtain ⟨u', hu', hrest, hheld, hsame⟩ := ih (.step hu hdriven hstep) hrequest htail
    have hcached := allocate_cached halloc
    have hnew := Dict.get?_eq_none_iff.mpr (hok.new rfl feature (heq ▸ List.mem_cons_self))
    have hdistinct := hok.distinct rfl
    rw [heq, List.map_cons, List.nodup_cons] at hdistinct
    refine ⟨u', hu', ?_, ?_, ?_⟩
    · rw [ScheduleState.allocateInputs, pyIndex_eq_ok.mpr hfirst.symm, ok_bind, halloc, ok_bind]
      exact hrest
    · intro f hf
      rw [heq] at hf
      rcases List.mem_cons.mp hf with rfl | hf
      · rw [hsame _ hdistinct.1, hcached, Dict.get?_set_self, hnew]
        rfl
      · exact hheld f hf
    · intro k hk
      rw [heq, List.map_cons, List.mem_cons, not_or] at hk
      rw [hsame k hk.2, hcached, Dict.get?_set_of_ne (Ne.symm hk.1)]

/-- A model that looks into the cache: whatever requests are preempted between the two loops, the
inputs that were scheduled get room, each for this request alone, and the accounts are right. -/
theorem scheduled_inputs_allocated {cfg : EncoderConfig} {request : Request}
    {preempted : List Request} {numComputedTokens numNewTokens encoderComputeBudget : Int}
    {e : EncoderInputs} (hdec : cfg.isEncoderDecoder = false)
    (hlen : ∀ r ∈ request :: preempted, ∀ feature ∈ r.mmFeatures,
      feature.mmPosition.length = len feature.identifier)
    (hu : ReachedBy false cacheSize (DrivenNew false len) u)
    (h : tryScheduleEncoderInputs cfg u.manager request numComputedTokens numNewTokens
      encoderComputeBudget = .ok e) :
    ∃ m, ScheduleState.allocateInputs request (preempted.foldl EncoderCacheManager.free e.manager)
        e.encoderInputsToSchedule = .ok m ∧
      m.Accounted cacheSize len ∧
      ∀ i ∈ e.encoderInputsToSchedule, ∃ feature, request.mmFeatures[i]? = some feature ∧
        m.cached.get? feature.identifier = some [request.requestId] := by
  have htried : ∃ u', ReachedBy false cacheSize (DrivenNew false len) u' ∧ Follows request u' e :=
    hdec ▸ tryScheduleEncoderInputs_reached (hlen request List.mem_cons_self) (hdec.symm ▸ hu) h
  obtain ⟨u₁, hu₁, hfollows⟩ := htried
  have hfreed := free_reached (fun r hr => hlen r (List.mem_cons_of_mem _ hr)) hu₁
  obtain ⟨u₂, hu₂, hallocated, hheld, -⟩ :=
    allocateInputs_reached hfreed hfollows.requestId hfollows.accepted
  have hok : Ok false cacheSize len u₂ := ReachedBy.ok (fun _ _ hop => hop) hu₂
  refine ⟨u₂.manager, hfollows.manager ▸ hallocated, hok.accounted, fun i hi => ?_⟩
  have hmem : request.mmFeatures[i]? ∈ u₁.accepted.map some :=
    hfollows.accepted ▸ List.mem_map_of_mem hi
  obtain ⟨feature, hfeature, hget⟩ := List.mem_map.mp hmem
  exact ⟨feature, hget.symm, hheld feature hfeature⟩

def imageOf (requestId : String) (feature : MultiModalFeatureSpec) : Request :=
  { (default : Request) with requestId := requestId, mmFeatures := [feature] }

/-- A request is preempted before the image of another one gets its room. -/
theorem scheduled_inputs_allocated_preempted : ∃ m : EncoderCacheManager,
    m.Accounted 5 twoSizes ∧ m.cached.get? "b" = some ["s"] ∧ m.cached.get? "a" = some [] := by
  have hview : ((Runs.runAllowed (DrivenNew false twoSizes) (EncoderUse.step false) (init 5)
      [.begin "r", .tryInput ⟨"a", ⟨0, 2⟩⟩ 4, .allocate]).bind fun u =>
        (tryScheduleEncoderInputs {} u.manager (imageOf "s" ⟨"b", ⟨0, 3⟩⟩) 0 3 4).toOption.map
          fun e => (e.encoderInputsToSchedule, (ScheduleState.allocateInputs
            (imageOf "s" ⟨"b", ⟨0, 3⟩⟩) ([imageOf "r" ⟨"a", ⟨0, 2⟩⟩].foldl
              EncoderCacheManager.free e.manager) e.encoderInputsToSchedule).toOption.map
                fun m => m.cached.get? "a")) =
      some ([0], some (some [])) := by decide +kernel
  obtain ⟨u, hrun, hlast⟩ := Option.bind_eq_some_iff.mp hview
  obtain ⟨e, htry, hview⟩ := Option.map_eq_some_iff.mp hlast
  obtain ⟨hinputs, hview⟩ := Prod.mk.inj hview
  have hreached : ReachedBy false 5 (DrivenNew false twoSizes) u :=
    .of_runAllowed (.start rfl) hrun
  have hlen : ∀ r ∈ [imageOf "s" ⟨"b", ⟨0, 3⟩⟩, imageOf "r" ⟨"a", ⟨0, 2⟩⟩],
      ∀ feature ∈ r.mmFeatures, feature.mmPosition.length = twoSizes feature.identifier := by decide
  obtain ⟨m, halloc, hacc, hheld⟩ :=
    scheduled_inputs_allocated rfl hlen hreached (eq_ok_of_toOption htry)
  rw [halloc] at hview
  obtain ⟨feature, hfeature, hget⟩ := hheld 0 (hinputs ▸ List.mem_cons_self)
  obtain rfl : ⟨"b", ⟨0, 3⟩⟩ = feature := Option.some.inj hfeature
  exact ⟨m, hacc, hget, Option.some.inj hview⟩

end EncoderUse

end VllmV1
